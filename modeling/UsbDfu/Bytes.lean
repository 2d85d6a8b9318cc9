/-!
# Bytes

Byte strings as lists, words in little-endian order, and the cutting of an image into chunks.
`flatten_chunks` says that cutting loses nothing.
-/

namespace UsbDfu

/-- A string of bytes. -/
abbrev Bytes := List UInt8

namespace Bytes

/-- The word whose low byte comes first. -/
def word (low high : UInt8) : UInt16 :=
  UInt16.ofNat (low.toNat + 256 * high.toNat)

/-- The two bytes of a word, the low one first. -/
def le16 (w : UInt16) : Bytes :=
  [w.toUInt8, UInt8.ofNat (w.toNat / 256)]

theorem word_le16 (w : UInt16) :
    word w.toUInt8 (UInt8.ofNat (w.toNat / 256)) = w := by
  have h := w.toNat_lt
  apply UInt16.toNat_inj.1
  simp only [word, UInt8.toNat_ofNat', UInt16.toNat_ofNat', UInt16.toNat_toUInt8]
  omega

theorem toUInt8_word (low high : UInt8) : (word low high).toUInt8 = low := by
  have hlow := low.toNat_lt
  have hhigh := high.toNat_lt
  apply UInt8.toNat_inj.1
  rw [word, UInt16.toNat_toUInt8, UInt16.toNat_ofNat']
  omega

theorem high_word (low high : UInt8) : UInt8.ofNat ((word low high).toNat / 256) = high := by
  have hlow := low.toNat_lt
  have hhigh := high.toNat_lt
  apply UInt8.toNat_inj.1
  rw [word, UInt8.toNat_ofNat', UInt16.toNat_ofNat']
  omega

/-- The bytes of a word are those it was made of. -/
theorem le16_word (low high : UInt8) : le16 (word low high) = [low, high] := by
  rw [le16, toUInt8_word, high_word]

/-- The four bytes of a number below `2 ^ 32`, the lowest first. -/
def le32 (n : Nat) : Bytes :=
  [UInt8.ofNat n, UInt8.ofNat (n / 0x100), UInt8.ofNat (n / 0x10000), UInt8.ofNat (n / 0x1000000)]

/-- The number that four bytes write, the lowest first. -/
def ofLe32 (a b c d : UInt8) : Nat :=
  a.toNat + 0x100 * b.toNat + 0x10000 * c.toNat + 0x1000000 * d.toNat

/-- The words of a byte string; a last odd byte is left out. -/
def words : Bytes → List UInt16
  | low :: high :: rest => word low high :: words rest
  | _ => []

/-- The data in pieces of `size` bytes, the last one possibly shorter. A size of 0 counts as 1. -/
def chunks (size : Nat) (data : Bytes) : List Bytes :=
  if _h : data = [] then []
  else data.take (max size 1) :: chunks size (data.drop (max size 1))
  termination_by data.length
  decreasing_by
    have : 0 < data.length := List.length_pos_iff.2 _h
    rw [List.length_drop]
    omega

theorem chunks_nil (size : Nat) : chunks size [] = [] := by
  rw [chunks, dif_pos rfl]

theorem chunks_of_ne_nil {size : Nat} {data : Bytes} (h : data ≠ []) :
    chunks size data = data.take (max size 1) :: chunks size (data.drop (max size 1)) := by
  rw [chunks, dif_neg h]

/-- The chunks together are the data. -/
theorem flatten_chunks (size : Nat) (data : Bytes) : (chunks size data).flatten = data := by
  fun_induction chunks size data with
  | case1 => rfl
  | case2 data h ih => rw [List.flatten_cons, ih, List.take_append_drop]

end Bytes
end UsbDfu
