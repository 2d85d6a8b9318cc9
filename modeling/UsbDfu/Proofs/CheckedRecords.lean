import UsbDfu.Descriptor.Configuration
import UsbDfu.Word

/-!
# Records read by position

The library takes byte strings apart as lists. A host reads bytes by their position, and one outside of
the string has no result. A stream of records is walked once more here, with an offset into its bytes:
every byte is read at its position and every record is cut out between two positions, all of them checked.

- `Bytes.checkedGet`, `Bytes.checkedSlice`, `Bytes.checkedWord`: bytes at a position.
- `InterfaceDescriptor.checkedDecode_eq`, `Functional.checkedDecode_eq`: the fields of a descriptor.
- `Record.checkedReadLoop_eq`: the walk, by induction on the rounds that it is given.
- `Record.checkedReadAll_eq`: it comes to the same end, whatever the bytes.
-/

namespace UsbDfu

/-! ## Positions -/

namespace Bytes

variable {ε : Type} {data : Bytes} {first stop i : Nat} {b : UInt8}

/-- The byte at a position. -/
def checkedGet (data : Bytes) (i : Nat) : Checked ε UInt8 :=
  match data[i]? with
  | some b => .ok b
  | none => .error .outside

/-- The bytes from `first` to before `stop`. -/
def checkedSlice (data : Bytes) (first stop : Nat) : Checked ε Bytes :=
  if first ≤ stop ∧ stop ≤ data.length then .ok ((data.drop first).take (stop - first))
  else .error .outside

/-- The word at a position, the low byte first. -/
def checkedWord (data : Bytes) (i : Nat) : Checked ε UInt16 := do
  let low ← checkedGet data i
  let high ← checkedGet data (i + 1)
  pure (word low high)

theorem checkedGet_eq (h : data[i]? = some b) : (checkedGet data i : Checked ε UInt8) = .ok b := by
  rw [checkedGet, h]

theorem checkedSlice_eq (hle : first ≤ stop) (hin : stop ≤ data.length) :
    (checkedSlice data first stop : Checked ε Bytes) = .ok ((data.drop first).take (stop - first)) :=
  if_pos ⟨hle, hin⟩

end Bytes

variable {raw data : Bytes}

/-! ## Descriptors -/

namespace InterfaceDescriptor

/-- `decode` by checked positions. -/
def checkedDecode (raw : Bytes) : Checked DescriptorError InterfaceDescriptor := do
  if raw.length < size then
    throw (.refused (.truncated .interface raw.length size))
  else
    let type ← Bytes.checkedGet raw 1
    if type = Descriptor.interfaceType then
      let number ← Bytes.checkedGet raw 2
      let alternate ← Bytes.checkedGet raw 3
      let endpoints ← Bytes.checkedGet raw 4
      let cls ← Bytes.checkedGet raw 5
      let sub ← Bytes.checkedGet raw 6
      let proto ← Bytes.checkedGet raw 7
      let name ← Bytes.checkedGet raw 8
      pure
        { interfaceNumber := number
          alternateSetting := alternate
          numEndpoints := endpoints
          interfaceClass := cls
          interfaceSubclass := sub
          interfaceProtocol := proto
          nameIndex := name }
    else
      throw (.refused (.unexpectedType Descriptor.interfaceType type))

/-- The bytes that a descriptor needs are there. -/
theorem exists_fields (h : size ≤ raw.length) :
    ∃ (length type : UInt8) (i : InterfaceDescriptor) (more : Bytes),
      raw = length :: type :: (i.encode.drop 2 ++ more) := by
  match raw, h with
  | length :: type :: number :: alternate :: endpoints :: cls :: sub :: proto :: name :: more, _ =>
    exact ⟨length, type, ⟨number, alternate, endpoints, cls, sub, proto, name⟩, more, rfl⟩

theorem decode_of_lt_size (h : raw.length < size) :
    decode raw = .error (.truncated .interface raw.length size) := by
  unfold decode
  split
  · simp only [size, List.length_cons] at h
    omega
  · rfl

theorem checkedDecode_eq (raw : Bytes) : checkedDecode raw = (decode raw).mapError .refused := by
  unfold checkedDecode
  split
  · rename_i h
    rw [decode_of_lt_size h]
    rfl
  · rename_i h
    obtain ⟨length, type, i, more, rfl⟩ := exists_fields (Nat.le_of_not_lt h)
    by_cases htype : type = Descriptor.interfaceType <;>
      simp [decode, encode, Bytes.checkedGet, Descriptor.checkType, htype, bind, Except.bind, pure,
        Except.pure, Checked.mapError_ok, Checked.mapError_error, throw, throwThe,
        MonadExceptOf.throw]

end InterfaceDescriptor

namespace Functional

/-- `decode` by checked positions; the version is only looked for where there are bytes for it. -/
def checkedDecode (raw : Bytes) : Checked DescriptorError Functional := do
  if raw.length < legacySize then
    throw (.refused (.truncated .functional raw.length legacySize))
  else
    let type ← Bytes.checkedGet raw 1
    if type = Descriptor.functionalType then
      let version ← if size ≤ raw.length then Bytes.checkedWord raw 7 else pure legacyVersion
      let attributes ← Bytes.checkedGet raw 2
      let timeout ← Bytes.checkedWord raw 3
      let most ← Bytes.checkedWord raw 5
      pure
        { attributes := attributes
          detachTimeout := timeout
          transferSize := most
          dfuVersion := version }
    else
      throw (.refused (.unexpectedType Descriptor.functionalType type))

/-- The bytes that a descriptor of the older layout needs are there. -/
theorem exists_legacy_fields (h : legacySize ≤ raw.length) :
    ∃ (length type attributes t0 t1 s0 s1 : UInt8) (more : Bytes),
      raw = length :: type :: attributes :: t0 :: t1 :: s0 :: s1 :: more := by
  match raw, h with
  | length :: type :: attributes :: t0 :: t1 :: s0 :: s1 :: more, _ =>
    exact ⟨length, type, attributes, t0, t1, s0, s1, more, rfl⟩

theorem decode_of_lt_legacySize (h : raw.length < legacySize) :
    decode raw = .error (.truncated .functional raw.length legacySize) := by
  unfold decode
  split
  · simp only [legacySize, List.length_cons] at h
    omega
  · rfl

theorem checkedDecode_eq (raw : Bytes) : checkedDecode raw = (decode raw).mapError .refused := by
  unfold checkedDecode
  split
  · rename_i h
    rw [decode_of_lt_legacySize h]
    rfl
  · rename_i h
    obtain ⟨length, type, attributes, t0, t1, s0, s1, more, rfl⟩ :=
      exists_legacy_fields (Nat.le_of_not_lt h)
    by_cases htype : type = Descriptor.functionalType
    · rcases more with _ | ⟨v0, _ | ⟨v1, more⟩⟩ <;>
        simp [decode, size, Bytes.checkedGet, Bytes.checkedWord, Descriptor.checkType, htype, bind,
          Except.bind, pure, Except.pure, Checked.mapError_ok]
    · simp [decode, Bytes.checkedGet, Descriptor.checkType, htype, bind, Except.bind,
        Checked.mapError_error, throw, throwThe, MonadExceptOf.throw]

end Functional

/-! ## Streams -/

namespace Record

variable {inDfu : Bool} {offset rounds : Nat}

/-- `decode` by checked positions. -/
def checkedDecode (inDfu : Bool) (type : UInt8) (raw : Bytes) : Checked DescriptorError Record := do
  if type = Descriptor.interfaceType then
    let i ← InterfaceDescriptor.checkedDecode raw
    pure (.interface i)
  else if type = Descriptor.functionalType ∧ inDfu then
    let f ← Functional.checkedDecode raw
    pure (.functional f)
  else
    let content ← Bytes.checkedSlice raw 2 raw.length
    pure (.other type content)

/-- The records from the offset on. -/
def checkedReadLoop (data : Bytes) : Nat → Bool → Nat → Checked DescriptorError (List Record)
  | 0, _, _ => .error .endless
  | rounds + 1, inDfu, offset => do
    let left ← Word.sub data.length offset
    if left < 2 then
      pure []
    else
      let length ← Bytes.checkedGet data offset
      let type ← Bytes.checkedGet data (offset + 1)
      if length.toNat < 2 ∨ data.length < offset + length.toNat then
        throw (.refused (.invalidLength offset length))
      else
        let raw ← Bytes.checkedSlice data offset (offset + length.toNat)
        let record ← checkedDecode inDfu type raw
        let rest ← checkedReadLoop data rounds (record.entersDfu inDfu) (offset + length.toNat)
        pure (record :: rest)

/-- The walk of a whole stream. Every round moves the offset on, so no more rounds are needed than
there are bytes, and one to find the end. -/
def checkedReadAll (data : Bytes) : Checked DescriptorError (List Record) :=
  checkedReadLoop data (data.length + 1) false 0

theorem checkedDecode_eq {type : UInt8} (h : 2 ≤ raw.length) :
    checkedDecode inDfu type raw = (decode inDfu type raw).mapError .refused := by
  unfold checkedDecode decode
  split
  · rw [InterfaceDescriptor.checkedDecode_eq]
    cases InterfaceDescriptor.decode raw with
    | error e => rfl
    | ok i => rfl
  · split
    · rw [Functional.checkedDecode_eq]
      cases Functional.decode raw with
      | error e => rfl
      | ok f => rfl
    · have hcontent : (raw.drop 2).take (raw.length - 2) = raw.drop 2 :=
        List.take_of_length_le (Nat.le_of_eq List.length_drop)
      rw [Bytes.checkedSlice_eq h (Nat.le_refl _), hcontent]
      rfl

theorem readFrom_of_length_lt_two (h : data.length < 2) : readFrom inDfu offset data = .ok [] := by
  unfold readFrom
  split
  · simp only [List.length_cons] at h
    omega
  · rfl

/-- The walk ends if there is a round left for every byte. -/
theorem checkedReadLoop_eq (hoffset : offset ≤ data.length)
    (hrounds : data.length - offset < rounds) :
    checkedReadLoop data rounds inDfu offset =
      (readFrom inDfu offset (data.drop offset)).mapError .refused := by
  induction rounds generalizing inDfu offset with
  | zero => omega
  | succ rounds ih =>
    have hleft : (data.drop offset).length = data.length - offset := List.length_drop
    rw [checkedReadLoop, Word.sub_eq hoffset, Checked.ok_bind, ← hleft]
    match hrest : data.drop offset with
    | [] | [_] =>
      rw [readFrom_of_length_lt_two (by simp)]
      rfl
    | length :: type :: content =>
      have hsize : content.length + 2 = data.length - offset := by rw [← hleft, hrest]; rfl
      have hlength : data[offset]? = some length := by
        rw [← Nat.add_zero offset, ← List.getElem?_drop, hrest]
        rfl
      have htype : data[offset + 1]? = some type := by
        rw [← List.getElem?_drop, hrest]
        rfl
      rw [if_neg (by simp), Bytes.checkedGet_eq hlength, Checked.ok_bind,
        Bytes.checkedGet_eq htype, Checked.ok_bind, readFrom]
      by_cases hbad : length.toNat < 2 ∨ content.length + 2 < length.toNat
      · rw [if_pos (by omega), dif_pos hbad]
        rfl
      -- one walk goes on at the next offset of the data, the other with what is left of it
      obtain ⟨k, hk⟩ : ∃ k, length.toNat = k + 2 := ⟨length.toNat - 2, by omega⟩
      have hnext : data.drop (offset + length.toNat) = content.drop (length.toNat - 2) := by
        rw [← List.drop_drop, hrest, hk]
        rfl
      rw [if_neg (by omega), dif_neg hbad, Bytes.checkedSlice_eq (by omega) (by omega),
        Checked.ok_bind, hrest, Nat.add_sub_cancel_left,
        checkedDecode_eq (by simp only [List.length_take, List.length_cons]; omega)]
      cases decode inDfu type ((length :: type :: content).take length.toNat) with
      | error e => rfl
      | ok record =>
        show (do let rest ← checkedReadLoop data rounds _ _; _) = _
        rw [ih (by omega) (by omega), hnext]
        show _ = Except.mapError _ (do let rest ← readFrom _ _ _; _)
        cases readFrom (record.entersDfu inDfu) (offset + length.toNat)
            (content.drop (length.toNat - 2)) with
        | error e => rfl
        | ok rest => rfl

/-- Read by position, a stream comes to the same end. No position is outside of it, and the walk
ends. -/
theorem checkedReadAll_eq (data : Bytes) :
    checkedReadAll data = (readAll data).mapError .refused :=
  checkedReadLoop_eq (Nat.zero_le _) (Nat.lt_succ_self _)

end Record
end UsbDfu
