import UsbDfu.Descriptor.Configuration
import UsbDfu.Proofs.History

/-!
# Configurations read back

How a record is read depends on the interface above it: the type of a functional descriptor means
one only below an interface for upgrades. So not every list of records can be written and read
back, only the well-formed ones.

- `Record.FitsBelow`, `Configuration.WellFormed`: which records can stand where.
- `Record.Tracks`: what the flag that goes along with reading means; `Tracks.concat` is its step.
- `Record.eachAfter_of_readFrom`: what is read is well formed.
- `Record.readFrom_append`: the bytes of one record in front of a stream; `readFrom_encode_append`:
  those of a well-formed one; `readFrom_flatMap_encode`: a whole stream.
- `Configuration.wellFormed_reads_back`: both together for the whole set, whatever bytes follow it.
-/

namespace UsbDfu

/-! ## Well-formed records -/

namespace Record

/-- The interface that the record opens. -/
def interface? : Record → Option InterfaceDescriptor
  | .interface i => some i
  | _ => none

/-- The interface that records after these ones are below: the nearest one before them. -/
def nearest? (before : List Record) : Option InterfaceDescriptor :=
  (before.filterMap interface?).getLast?

/-- The interface above, if there is one, is for upgrades. -/
def UnderDfu (above : Option InterfaceDescriptor) : Prop :=
  ∃ i, above = some i ∧ i.interfaceClass = 0xfe ∧ i.interfaceSubclass = 0x01

/-- The record can stand below the interface: a functional descriptor only where it is read as one,
and any other record only where it is not read as an interface or a functional descriptor. -/
def FitsBelow (above : Option InterfaceDescriptor) : Record → Prop
  | .interface _ => True
  | .functional _ => UnderDfu above
  | .other type content =>
    content.length ≤ 253 ∧ type ≠ 0x04 ∧ (type = 0x21 → ¬ UnderDfu above)

/-- The record can stand after these ones. -/
def FitsAfter (before : List Record) (r : Record) : Prop :=
  r.FitsBelow (nearest? before)

theorem nearest?_concat (before : List Record) (r : Record) :
    nearest? (before ++ [r]) = r.interface?.or (nearest? before) :=
  getLast?_filterMap_concat interface? before r

instance (above : Option InterfaceDescriptor) : Decidable (UnderDfu above) :=
  match above with
  | none => isFalse (by simp [UnderDfu])
  | some i => decidable_of_iff (i.interfaceClass = 0xfe ∧ i.interfaceSubclass = 0x01)
      (by simp [UnderDfu])

instance (above : Option InterfaceDescriptor) : (r : Record) → Decidable (r.FitsBelow above)
  | .interface _ => isTrue trivial
  | .functional _ => inferInstanceAs (Decidable (UnderDfu above))
  | .other type content => inferInstanceAs
      (Decidable (content.length ≤ 253 ∧ type ≠ 0x04 ∧ (type = 0x21 → ¬ UnderDfu above)))

instance (before : List Record) (r : Record) : Decidable (FitsAfter before r) :=
  inferInstanceAs (Decidable (r.FitsBelow (nearest? before)))

/-- The flag that goes along with reading says whether the nearest interface is for upgrades. -/
def Tracks (inDfu : Bool) (before : List Record) : Prop :=
  inDfu = true ↔ UnderDfu (nearest? before)

theorem underDfu_some_iff {i : InterfaceDescriptor} : UnderDfu (some i) ↔ i.isDfu = true := by
  simp [UnderDfu, InterfaceDescriptor.isDfu, Descriptor.dfuClass, Descriptor.dfuSubclass]

theorem tracks_nil : Tracks false [] := by
  simp [Tracks, UnderDfu, nearest?]

theorem Tracks.concat {inDfu : Bool} {before : List Record} (h : Tracks inDfu before) (r : Record) :
    Tracks (r.entersDfu inDfu) (before ++ [r]) := by
  unfold Tracks at *
  rw [nearest?_concat]
  cases r with
  | interface i => exact underDfu_some_iff.symm
  | functional f | other type content => simpa [entersDfu, interface?] using h

/-! ## What is read is well formed -/

/-- A record that is read can stand where it was read. -/
theorem fitsAfter_of_decode {inDfu : Bool} {before : List Record} {type : UInt8} {raw : Bytes}
    {r : Record} (ht : Tracks inDfu before) (hraw : raw.length ≤ 255)
    (h : decode inDfu type raw = .ok r) : FitsAfter before r := by
  unfold decode at h
  split at h
  · obtain ⟨i, -, rfl⟩ := map_eq_ok h
    trivial
  · rename_i hinterface
    split at h
    · rename_i hfunctional
      obtain ⟨f, -, rfl⟩ := map_eq_ok h
      exact ht.1 hfunctional.2
    · rename_i hother
      cases h
      refine ⟨?_, hinterface, fun h21 hdfu => hother ⟨h21, ht.2 hdfu⟩⟩
      rw [List.length_drop]
      omega

theorem eachAfter_of_readFrom {inDfu : Bool} {offset : Nat} {data : Bytes}
    {before records : List Record} (ht : Tracks inDfu before)
    (h : readFrom inDfu offset data = .ok records) : EachAfter FitsAfter before records := by
  -- along the reader; the flag it carries is what the records before say
  fun_induction readFrom inDfu offset data generalizing before records with
  | case1 => cases h
  | case2 inDfu offset length type content hlength ih =>
    obtain ⟨r, hr, h⟩ := bind_eq_ok h
    obtain ⟨rest, hrest, h⟩ := bind_eq_ok h
    cases h
    have hraw : ((length :: type :: content).take length.toNat).length ≤ 255 := by
      have := length.toNat_lt
      rw [List.length_take]
      omega
    exact eachAfter_cons_iff.2 ⟨fitsAfter_of_decode ht hraw hr, ih r (ht.concat r) hrest⟩
  | case3 =>
    cases h
    exact eachAfter_nil

/-! ## What is well formed reads back -/

/-- A record that can stand somewhere is a length byte, its type, and its content. -/
theorem FitsBelow.encode_eq {above : Option InterfaceDescriptor} {r : Record}
    (h : r.FitsBelow above) :
    ∃ content, r.encode = UInt8.ofNat (content.length + 2) :: r.type :: content ∧
      content.length ≤ 253 := by
  cases r with
  | interface i => exact ⟨i.encode.drop 2, rfl, Nat.le_of_ble_eq_true rfl⟩
  | functional f => exact ⟨f.encode.drop 2, rfl, Nat.le_of_ble_eq_true rfl⟩
  | other type content => exact ⟨content, rfl, h.1⟩

/-- A record is read back where it can stand. -/
theorem FitsAfter.decode_encode {inDfu : Bool} {before : List Record} {r : Record}
    (h : FitsAfter before r) (ht : Tracks inDfu before) :
    decode inDfu r.type r.encode = .ok r := by
  cases r with
  | interface i =>
    have hi := InterfaceDescriptor.decode_encode i []
    rw [List.append_nil] at hi
    simp [decode, type, encode, hi, Except.map]
  | functional f =>
    have hf := Functional.decode_encode f []
    rw [List.append_nil] at hf
    have hne : Descriptor.functionalType ≠ Descriptor.interfaceType := by decide
    simp [decode, type, encode, hf, Except.map, hne, ht.2 h]
  | other type content =>
    obtain ⟨-, hinterface, hfunctional⟩ := h
    have hnot : ¬ (type = Descriptor.functionalType ∧ inDfu = true) :=
      fun hf => hfunctional hf.1 (ht.1 hf.2)
    have htype : type ≠ Descriptor.interfaceType := hinterface
    simp [decode, Record.type, encode, htype, hnot]

/-- The bytes of one record in front of a stream are read, and then the stream with what is known
after the record. -/
theorem readFrom_append {length type : UInt8} {content : Bytes}
    (h : length.toNat = content.length + 2) (inDfu : Bool) (offset : Nat) (tail : Bytes) :
    readFrom inDfu offset (length :: type :: content ++ tail) =
      (decode inDfu type (length :: type :: content)).bind fun r =>
        (readFrom (r.entersDfu inDfu) (offset + length.toNat) tail).map (r :: ·) := by
  rw [List.cons_append, List.cons_append, readFrom, dif_neg (by simp [h])]
  have htake : (length :: type :: (content ++ tail)).take length.toNat =
      length :: type :: content := by
    simp [h]
  have hdrop : (content ++ tail).drop (length.toNat - 2) = tail := by simp [h]
  rw [htake, hdrop]
  refine congrArg _ (funext fun r => ?_)
  cases readFrom (r.entersDfu inDfu) (offset + length.toNat) tail with
  | error e => rfl
  | ok rest => rfl

/-- One record in front of a stream is read, and then the stream with what is known after it. -/
theorem readFrom_encode_append {inDfu : Bool} {before : List Record} {r : Record}
    (h : FitsAfter before r) (ht : Tracks inDfu before) (offset : Nat) (tail : Bytes) :
    readFrom inDfu offset (r.encode ++ tail) =
      (readFrom (r.entersDfu inDfu) (offset + r.encode.length) tail).map (r :: ·) := by
  have hdecode := h.decode_encode ht
  obtain ⟨content, heq, hlength⟩ := FitsBelow.encode_eq h
  have hbyte : (UInt8.ofNat (content.length + 2)).toNat = content.length + 2 := by
    rw [UInt8.toNat_ofNat']
    omega
  rw [heq] at hdecode
  rw [heq, readFrom_append hbyte, hdecode, hbyte]
  rfl

theorem readFrom_flatMap_encode {inDfu : Bool} {before records : List Record}
    (h : EachAfter FitsAfter before records) (ht : Tracks inDfu before) (offset : Nat) :
    readFrom inDfu offset (records.flatMap encode) = .ok records := by
  induction records generalizing inDfu before offset with
  | nil => simp [readFrom]
  | cons r rest ih =>
    obtain ⟨hr, hrest⟩ := eachAfter_cons_iff.1 h
    rw [List.flatMap_cons, readFrom_encode_append hr ht, ih hrest (ht.concat r)]
    rfl

end Record

/-! ## The whole set -/

namespace Configuration

/-- Every functional descriptor is below an interface for upgrades. Every other record holds at most
253 bytes, is no interface, and is below such an interface no functional descriptor either. -/
def WellFormed (c : Configuration) : Prop :=
  ∀ pre r post, c.records = pre ++ r :: post → r.FitsBelow (Record.nearest? pre)

theorem wellFormed_iff {c : Configuration} :
    c.WellFormed ↔ EachAfter Record.FitsAfter [] c.records :=
  Iff.rfl

instance (c : Configuration) : Decidable c.WellFormed :=
  decidable_of_iff _ wellFormed_iff.symm

theorem wellFormed_of_decode {data : Bytes} {c : Configuration} (h : decode data = .ok c) :
    c.WellFormed := by
  unfold decode at h
  split at h
  · obtain ⟨_, -, h⟩ := bind_eq_ok h
    obtain ⟨records, hr, h⟩ := bind_eq_ok h
    cases h
    exact wellFormed_iff.2 (Record.eachAfter_of_readFrom Record.tracks_nil hr)
  · cases h

theorem length_encode (c : Configuration) : c.encode.length = size + c.body.length := by
  simp [encode, size, Bytes.le16]
  omega

theorem decode_encode {c : Configuration} (hc : c.WellFormed) (hlength : c.encode.length ≤ 65535)
    (junk : Bytes) : decode (c.encode ++ junk) = .ok c := by
  have hrecords : Record.readAll c.body = .ok c.records :=
    Record.readFrom_flatMap_encode (wellFormed_iff.1 hc) Record.tracks_nil 0
  have htotal : (UInt16.ofNat (size + c.body.length)).toNat - size = c.body.length := by
    rw [length_encode] at hlength
    rw [UInt16.toNat_ofNat']
    omega
  rw [encode]
  generalize UInt16.ofNat (size + c.body.length) = total at htotal
  simp [decode, Descriptor.checkType, Bytes.le16, Bytes.word_le16, htotal, hrecords, bind,
    Except.bind, pure, Except.pure]

/-- Every configuration that is read is well formed, and every well-formed one that fits the total
length is read back as it was, whatever bytes follow it. -/
theorem wellFormed_reads_back :
    (∀ data c, decode data = .ok c → c.WellFormed) ∧
    ∀ c junk, c.WellFormed → c.encode.length ≤ 65535 → decode (c.encode ++ junk) = .ok c :=
  ⟨fun _ _ h => wellFormed_of_decode h, fun _ junk hc hlength => decode_encode hc hlength junk⟩

/-- Two records of one type: below an interface of another class it is kept as bytes, below one for
upgrades it is the functional descriptor. -/
def twoMeanings : Configuration where
  numInterfaces := 2
  value := 1
  nameIndex := 0
  attributes := 0x80
  maxPower := 50
  records :=
    [.interface ⟨0, 0, 1, 0x03, 0x00, 0x00, 0⟩, .other 0x21 [0x11, 0x01, 0x00],
      .interface ⟨1, 0, 0, 0xfe, 0x01, 0x02, 4⟩, .functional ⟨0x0b, 255, 1024, 0x011a⟩]

theorem twoMeanings_reads_back :
    twoMeanings.WellFormed ∧ twoMeanings.encode.length ≤ 65535 ∧
      decode (twoMeanings.encode ++ [0x00, 0xff]) = .ok twoMeanings :=
  have hwell : twoMeanings.WellFormed := by decide
  have hlength : twoMeanings.encode.length ≤ 65535 := by decide
  ⟨hwell, hlength, wellFormed_reads_back.2 twoMeanings [0x00, 0xff] hwell hlength⟩

end Configuration
end UsbDfu
