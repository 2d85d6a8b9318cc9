import UsbDfu.Bytes

/-!
# Chunks of an image

Where a chunk lies in the image that was cut (`getElem?_chunks`), and that none is empty.
-/

namespace UsbDfu
namespace Bytes

theorem ne_nil_of_mem_chunks {size : Nat} {data chunk : Bytes} (h : chunk ∈ chunks size data) :
    chunk ≠ [] := by
  fun_induction chunks size data with
  | case1 => cases h
  | case2 data hne ih =>
    rcases List.mem_cons.1 h with rfl | h
    · cases data with
      | nil => exact absurd rfl hne
      | cons b rest =>
        rw [show max size 1 = max size 1 - 1 + 1 by omega, List.take_succ_cons]
        exact List.cons_ne_nil _ _
    · exact ih h

/-- Chunk `i` has the bytes from `i` times the size on. -/
theorem getElem?_chunks {size : Nat} {data chunk : Bytes} {i : Nat}
    (h : (chunks size data)[i]? = some chunk) :
    i * max size 1 < data.length ∧ chunk = (data.drop (i * max size 1)).take (max size 1) := by
  fun_induction chunks size data generalizing i with
  | case1 => simp at h
  | case2 data hne ih =>
    cases i with
    | zero =>
      rw [List.getElem?_cons_zero, Option.some.injEq] at h
      rw [Nat.zero_mul, List.drop_zero]
      exact ⟨List.length_pos_iff.2 hne, h.symm⟩
    | succ i =>
      obtain ⟨hi, hc⟩ := ih (i := i) (by simpa using h)
      rw [List.length_drop] at hi
      rw [List.drop_drop] at hc
      rw [Nat.succ_mul, Nat.add_comm]
      exact ⟨by omega, hc⟩

/-- A chunk ends within the image. -/
theorem chunk_end_le {size : Nat} {data chunk : Bytes} {i : Nat}
    (h : (chunks size data)[i]? = some chunk) : i * max size 1 + chunk.length ≤ data.length := by
  obtain ⟨hi, rfl⟩ := getElem?_chunks h
  rw [List.length_take, List.length_drop]
  omega

end Bytes
end UsbDfu
