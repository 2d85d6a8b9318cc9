import UsbDfu.Proofs.CheckedRecords
import UsbDfu.Proofs.ConfigurationCodec

/-!
# The grammar of record streams

Which byte strings are streams of records is said here by the bytes alone: a stream falls into
records of the lengths that they begin with, each long enough for what its type says after the
records before it, and at most one byte is left over.

- `Record.BelowUpgrades`, `Record.Whole`, `Record.Splits`: the grammar.
- `Record.Stands`, `Record.Entries`: what the records of a stream say, one entry for each.
- `Record.Offends`: the first record that is not whole, and the error that it is.
- `Record.exists_split`: every byte string is a stream, or it offends behind some whole records.
- `Record.readFrom_flatten`: whole records in front of any bytes, by induction on the records.
- `Record.readAll_grammar`: the streams are read, entry for entry, and all else is refused with the
  error of the first offence. No position is outside of the bytes, and the walk ends.
-/

namespace UsbDfu
namespace Record

variable {inDfu : Bool} {before raws : List Bytes} {raw data rest : Bytes} {r : Record}
  {records : List Record} {e : DescriptorError} {offset : Nat}

/-! ## The grammar -/

/-- The last one of these records that is of the interface type. -/
def lastInterface? (before : List Bytes) : Option Bytes :=
  before.reverse.find? fun raw => raw[1]? = some 0x04

/-- The last interface among these records has the class and the subclass for upgrades. -/
def BelowUpgrades (before : List Bytes) : Prop :=
  ∃ raw, lastInterface? before = some raw ∧ raw[5]? = some 0xfe ∧ raw[6]? = some 0x01

/-- The bytes are one record after these ones. -/
structure Whole (before : List Bytes) (raw : Bytes) : Prop where
  begins_with_length : raw.head?.map UInt8.toNat = some raw.length
  two_le_length : 2 ≤ raw.length
  interface : raw[1]? = some 0x04 → 9 ≤ raw.length
  functional : raw[1]? = some 0x21 → BelowUpgrades before → 7 ≤ raw.length

/-- The data is these records, and at most one byte after them. -/
structure Splits (data : Bytes) (raws : List Bytes) : Prop where
  eq : ∃ stray : Bytes, data = raws.flatten ++ stray ∧ stray.length ≤ 1
  whole : EachAfter Whole [] raws

/-- What a record says after these ones. A functional descriptor of the older layout ends before the
version. -/
inductive Stands (before : List Bytes) : Bytes → Record → Prop where
  | interface (length : UInt8) (i : InterfaceDescriptor) (more : Bytes) :
      Stands before (length :: (i.encode.tail ++ more)) (.interface i)
  | functional (length : UInt8) (f : Functional) (more : Bytes) (h : BelowUpgrades before) :
      Stands before (length :: (f.encode.tail ++ more)) (.functional f)
  | legacy (length : UInt8) (f : Functional) (more : Bytes) (h : BelowUpgrades before)
      (hversion : f.dfuVersion = 0x0100) (hmore : more.length ≤ 1) :
      Stands before (length :: (f.encode.tail.take 6 ++ more)) (.functional f)
  | other (length type : UInt8) (content : Bytes) (hinterface : type ≠ 0x04)
      (hfunctional : type = 0x21 → ¬ BelowUpgrades before) :
      Stands before (length :: type :: content) (.other type content)

/-- One entry for each record, in order. -/
inductive Entries : List Bytes → List Bytes → List Record → Prop where
  | nil {before : List Bytes} : Entries before [] []
  | cons {before raws : List Bytes} {raw : Bytes} {r : Record} {records : List Record} :
      Stands before raw r → Entries (before ++ [raw]) raws records →
        Entries before (raw :: raws) (r :: records)

/-- These bytes begin with no whole record, and the error says why. An invalid length is reported with
its offset, the length of all records before. -/
inductive Offends (before : List Bytes) : Bytes → DescriptorError → Prop where
  | length {length type : UInt8} {content : Bytes}
      (h : length.toNat < 2 ∨ content.length + 2 < length.toNat) :
      Offends before (length :: type :: content)
        (.invalidLength before.flatten.length length)
  | interface {length : UInt8} {content : Bytes} (hlow : 2 ≤ length.toNat)
      (hin : length.toNat ≤ content.length + 2) (hshort : length.toNat < 9) :
      Offends before (length :: 0x04 :: content) (.truncated .interface length.toNat 9)
  | functional {length : UInt8} {content : Bytes} (hlow : 2 ≤ length.toNat)
      (hin : length.toNat ≤ content.length + 2) (hshort : length.toNat < 7)
      (h : BelowUpgrades before) :
      Offends before (length :: 0x21 :: content) (.truncated .functional length.toNat 7)

instance (before : List Bytes) : Decidable (BelowUpgrades before) :=
  match h : lastInterface? before with
  | none => isFalse (by simp [BelowUpgrades, h])
  | some raw => decidable_of_iff (raw[5]? = some 0xfe ∧ raw[6]? = some 0x01)
      (by simp [BelowUpgrades, h])

instance (before : List Bytes) (raw : Bytes) : Decidable (Whole before raw) :=
  decidable_of_iff (raw.head?.map UInt8.toNat = some raw.length ∧ 2 ≤ raw.length ∧
      (raw[1]? = some 0x04 → 9 ≤ raw.length) ∧
      (raw[1]? = some 0x21 → BelowUpgrades before → 7 ≤ raw.length))
    ⟨fun ⟨h1, h2, h3, h4⟩ => ⟨h1, h2, h3, h4⟩, fun ⟨h1, h2, h3, h4⟩ => ⟨h1, h2, h3, h4⟩⟩

theorem lastInterface?_concat (before : List Bytes) (raw : Bytes) :
    lastInterface? (before ++ [raw]) =
      if raw[1]? = some 0x04 then some raw else lastInterface? before := by
  by_cases h : raw[1]? = some 0x04 <;> simp [lastInterface?, h]

theorem belowUpgrades_concat_of_interface (h : raw[1]? = some 0x04) :
    BelowUpgrades (before ++ [raw]) ↔ raw[5]? = some 0xfe ∧ raw[6]? = some 0x01 := by
  rw [BelowUpgrades, lastInterface?_concat, if_pos h]
  simp

theorem belowUpgrades_concat_of_other (h : raw[1]? ≠ some 0x04) :
    BelowUpgrades (before ++ [raw]) ↔ BelowUpgrades before := by
  rw [BelowUpgrades, lastInterface?_concat, if_neg h]
  rfl

/-- The parts of a whole record. -/
theorem Whole.exists_eq (h : Whole before raw) :
    ∃ length type content, raw = length :: type :: content ∧ length.toNat = content.length + 2 := by
  match raw, h with
  | length :: type :: content, h =>
    exact ⟨length, type, content, rfl, Option.some.inj h.begins_with_length⟩
  | [], h | [_], h => exact absurd h.two_le_length (by simp)

/-! ## Entries -/

/-- The bytes behind the length of a functional descriptor that was made of bytes. -/
theorem tail_encode_functional (attributes t0 t1 s0 s1 : UInt8) (version : UInt16) :
    (Functional.mk attributes (Bytes.word t0 t1) (Bytes.word s0 s1) version).encode.tail =
      [0x21, attributes, t0, t1, s0, s1] ++ Bytes.le16 version := by
  simp [Functional.encode, Bytes.le16_word, Descriptor.functionalType]

/-- Below an interface for upgrades, seven bytes are a functional descriptor. -/
theorem exists_functional {length : UInt8} {content : Bytes} (hbelow : BelowUpgrades before)
    (h : 7 ≤ (length :: 0x21 :: content).length) :
    ∃ f, Stands before (length :: 0x21 :: content) (.functional f) := by
  obtain ⟨_, _, attributes, t0, t1, s0, s1, more, heq⟩ := Functional.exists_legacy_fields h
  obtain ⟨rfl, -, rfl⟩ := heq
  rcases Nat.lt_or_ge 1 more.length with hlong | hshort
  · obtain ⟨v0, v1, tail, rfl⟩ : ∃ v0 v1 tail, more = v0 :: v1 :: tail := by
      match more, hlong with
      | v0 :: v1 :: tail, _ => exact ⟨v0, v1, tail, rfl⟩
    have hstands := Stands.functional length
      ⟨attributes, Bytes.word t0 t1, Bytes.word s0 s1, Bytes.word v0 v1⟩ tail hbelow
    rw [tail_encode_functional, Bytes.le16_word] at hstands
    exact ⟨_, hstands⟩
  · have hstands := Stands.legacy length
      ⟨attributes, Bytes.word t0 t1, Bytes.word s0 s1, 0x0100⟩ more hbelow rfl hshort
    rw [tail_encode_functional] at hstands
    exact ⟨_, hstands⟩

/-- Every whole record says something. -/
theorem exists_stands (h : Whole before raw) : ∃ r, Stands before raw r := by
  obtain ⟨length, type, content, rfl, -⟩ := h.exists_eq
  by_cases hinterface : type = 0x04
  · obtain ⟨_, _, i, more, heq⟩ :=
      InterfaceDescriptor.exists_fields (h.interface (congrArg some hinterface))
    obtain ⟨rfl, rfl, rfl⟩ := heq
    subst hinterface
    exact ⟨_, .interface length i more⟩
  by_cases hfunctional : type = 0x21 ∧ BelowUpgrades before
  · obtain ⟨rfl, hbelow⟩ := hfunctional
    obtain ⟨f, hf⟩ := exists_functional hbelow (h.functional rfl hbelow)
    exact ⟨_, hf⟩
  · exact ⟨_, .other length type content hinterface fun h21 hbelow => hfunctional ⟨h21, hbelow⟩⟩

theorem exists_entries (h : EachAfter Whole before raws) :
    ∃ records, Entries before raws records := by
  induction raws generalizing before with
  | nil => exact ⟨[], .nil⟩
  | cons raw raws ih =>
    obtain ⟨hraw, hraws⟩ := eachAfter_cons_iff.1 h
    obtain ⟨r, hr⟩ := exists_stands hraw
    obtain ⟨records, hrecords⟩ := ih hraws
    exact ⟨r :: records, .cons hr hrecords⟩

/-- A descriptor that ends before its version is read with the version of the older layout. -/
theorem decode_legacy {length : UInt8} {f : Functional} {more : Bytes}
    (hversion : f.dfuVersion = 0x0100) (hmore : more.length ≤ 1) :
    Functional.decode (length :: (f.encode.tail.take 6 ++ more)) = .ok f := by
  obtain ⟨attributes, timeout, most, version⟩ := f
  obtain rfl : version = 0x0100 := hversion
  match more, hmore with
  | [], _ | [_], _ =>
    simp [Functional.decode, Functional.encode, Functional.legacyVersion, Descriptor.checkType,
      Bytes.le16, Bytes.word_le16, bind, Except.bind, pure, Except.pure]

/-- A record is read as what it says. -/
theorem Stands.decode {type : UInt8} (h : Stands before raw r)
    (hflag : inDfu = true ↔ BelowUpgrades before) (htype : raw[1]? = some type) :
    decode inDfu type raw = .ok r := by
  have hne : Descriptor.functionalType ≠ Descriptor.interfaceType := by decide
  cases h with
  | interface length i more =>
    obtain rfl := Option.some.inj htype
    rw [Record.decode, if_pos rfl]
    exact congrArg (Except.map Record.interface) (InterfaceDescriptor.decode_encode i more)
  | functional length f more hbelow =>
    obtain rfl := Option.some.inj htype
    rw [Record.decode, if_neg hne, if_pos ⟨rfl, hflag.2 hbelow⟩]
    exact congrArg (Except.map Record.functional) (Functional.decode_encode f more)
  | legacy length f more hbelow hversion hmore =>
    obtain rfl := Option.some.inj htype
    rw [Record.decode, if_neg hne, if_pos ⟨rfl, hflag.2 hbelow⟩, decode_legacy hversion hmore]
    rfl
  | other length type content hinterface hfunctional =>
    obtain rfl := Option.some.inj htype
    have hnot : ¬ (type = Descriptor.functionalType ∧ inDfu = true) :=
      fun h => hfunctional h.1 (hflag.1 h.2)
    rw [Record.decode, if_neg (show type ≠ Descriptor.interfaceType from hinterface), if_neg hnot]
    rfl

/-- The flag that goes along with reading says whether the records so far end below an interface for
upgrades. -/
theorem Stands.entersDfu_iff (h : Stands before raw r)
    (hflag : inDfu = true ↔ BelowUpgrades before) :
    r.entersDfu inDfu = true ↔ BelowUpgrades (before ++ [raw]) := by
  cases h with
  | interface length i more =>
    rw [belowUpgrades_concat_of_interface rfl]
    simp [entersDfu, InterfaceDescriptor.isDfu, InterfaceDescriptor.encode, Descriptor.dfuClass,
      Descriptor.dfuSubclass]
  | functional length f more _ | legacy length f more _ _ _ =>
    rw [belowUpgrades_concat_of_other (by simp [Functional.encode, Descriptor.functionalType])]
    exact hflag
  | other length type content hinterface _ =>
    rw [belowUpgrades_concat_of_other (by simpa using hinterface)]
    exact hflag

/-! ## Reading -/

/-- Whole records in front of any bytes are read, and then those bytes with what is known after
them. -/
theorem readFrom_flatten (hwhole : EachAfter Whole before raws) (h : Entries before raws records)
    (hflag : inDfu = true ↔ BelowUpgrades before) (offset : Nat) :
    ∃ after : Bool, (after = true ↔ BelowUpgrades (before ++ raws)) ∧
      ∀ rest, readFrom inDfu offset (raws.flatten ++ rest) =
        (readFrom after (offset + raws.flatten.length) rest).map (records ++ ·) := by
  induction h generalizing inDfu offset with
  | @nil before =>
    refine ⟨inDfu, by rwa [List.append_nil], fun rest => ?_⟩
    rw [List.flatten_nil, List.nil_append, List.length_nil, Nat.add_zero]
    cases readFrom inDfu offset rest with
    | error e => rfl
    | ok records => rfl
  | @cons before raws raw r records hr _ ih =>
    obtain ⟨hraw, hraws⟩ := eachAfter_cons_iff.1 hwhole
    obtain ⟨after, hafter, hread⟩ := ih hraws (hr.entersDfu_iff hflag) (offset + raw.length)
    refine ⟨after, by rwa [List.append_assoc] at hafter, fun rest => ?_⟩
    obtain ⟨length, type, content, rfl, hlength⟩ := hraw.exists_eq
    -- the offset moves by the length byte, which is the length of the record
    rw [List.flatten_cons, List.append_assoc, readFrom_append hlength, hr.decode hflag rfl]
    show (readFrom _ (offset + length.toNat) _).map _ = _
    rw [hlength]
    show (readFrom _ (offset + (length :: type :: content).length) _).map _ = _
    rw [hread, List.length_append, Nat.add_assoc]
    cases readFrom after _ rest with
    | error e => rfl
    | ok records => rfl

theorem readFrom_of_decode_error {length type : UInt8} {content : Bytes} (hlow : 2 ≤ length.toNat)
    (hin : length.toNat ≤ content.length + 2)
    (h : decode inDfu type ((length :: type :: content).take length.toNat) = .error e) :
    readFrom inDfu offset (length :: type :: content) = .error e := by
  rw [readFrom, dif_neg (by omega), h]
  rfl

/-- What offends is refused with its error. -/
theorem readFrom_of_offends (h : Offends before rest e)
    (hflag : inDfu = true ↔ BelowUpgrades before) :
    readFrom inDfu before.flatten.length rest = .error e := by
  cases h with
  | length h => rw [readFrom, dif_pos h]
  | @interface length content hlow hin hshort =>
    have hlength : ((length :: 0x04 :: content).take length.toNat).length = length.toNat :=
      List.length_take_of_le hin
    apply readFrom_of_decode_error hlow hin
    rw [decode, if_pos (by decide), InterfaceDescriptor.decode_of_lt_size (by rwa [hlength]),
      hlength]
    rfl
  | @functional length content hlow hin hshort hbelow =>
    have hlength : ((length :: 0x21 :: content).take length.toNat).length = length.toNat :=
      List.length_take_of_le hin
    apply readFrom_of_decode_error hlow hin
    rw [decode, if_neg (by decide), if_pos ⟨rfl, hflag.2 hbelow⟩,
      Functional.decode_of_lt_legacySize (by rwa [hlength]), hlength]
    rfl

/-! ## Taking a byte string apart -/

/-- What bytes begin with: nothing, an offence, or a whole record. -/
theorem begins (before : List Bytes) (data : Bytes) :
    data.length ≤ 1 ∨ (∃ e, Offends before data e) ∨
      ∃ raw tail, data = raw ++ tail ∧ Whole before raw := by
  match data with
  | [] | [_] => exact .inl (by simp)
  | length :: type :: content =>
    refine .inr ?_
    -- the offences in the order in which the reader finds them
    by_cases hbad : length.toNat < 2 ∨ content.length + 2 < length.toNat
    · exact .inl ⟨_, .length hbad⟩
    by_cases hinterface : type = 0x04 ∧ length.toNat < 9
    · obtain ⟨rfl, hshort⟩ := hinterface
      exact .inl ⟨_, .interface (by omega) (by omega) hshort⟩
    by_cases hfunctional : type = 0x21 ∧ BelowUpgrades before ∧ length.toNat < 7
    · obtain ⟨rfl, hbelow, hshort⟩ := hfunctional
      exact .inl ⟨_, .functional (by omega) (by omega) hshort hbelow⟩
    obtain ⟨k, hk⟩ : ∃ k, length.toNat = k + 2 := ⟨length.toNat - 2, by omega⟩
    have hlength : (length :: type :: content.take k).length = length.toNat := by
      simp only [List.length_cons, List.length_take]
      omega
    refine .inr ⟨length :: type :: content.take k, content.drop k, by simp, ?_⟩
    refine ⟨congrArg some hlength.symm, by omega, fun h04 => ?_, fun h21 hbelow => ?_⟩
    · rw [hlength]
      exact Nat.le_of_not_lt fun hshort => hinterface ⟨Option.some.inj h04, hshort⟩
    · rw [hlength]
      exact Nat.le_of_not_lt fun hshort => hfunctional ⟨Option.some.inj h21, hbelow, hshort⟩

/-- Every byte string is some whole records, and then nothing more or an offence. -/
theorem exists_split (before : List Bytes) (data : Bytes) :
    ∃ raws rest, data = raws.flatten ++ rest ∧ EachAfter Whole before raws ∧
      (rest.length ≤ 1 ∨ ∃ e, Offends (before ++ raws) rest e) := by
  rcases begins before data with hend | hoffends | ⟨raw, tail, hdata, hraw⟩
  · exact ⟨[], data, rfl, eachAfter_nil, .inl hend⟩
  · exact ⟨[], data, rfl, eachAfter_nil, .inr (by rwa [List.append_nil])⟩
  · have hshorter : tail.length < data.length := by
      have := hraw.two_le_length
      rw [hdata, List.length_append]
      omega
    obtain ⟨raws, rest, htail, hraws, hrest⟩ := exists_split (before ++ [raw]) tail
    refine ⟨raw :: raws, rest, ?_, eachAfter_cons_iff.2 ⟨hraw, hraws⟩, ?_⟩
    · rw [hdata, htail, List.flatten_cons, List.append_assoc]
    · rwa [List.append_assoc] at hrest
  termination_by data.length

/-! ## Whole streams -/

theorem not_belowUpgrades_nil : false = true ↔ BelowUpgrades [] := by
  simp [BelowUpgrades, lastInterface?]

theorem readAll_of_splits (h : Splits data raws) (hentries : Entries [] raws records) :
    readAll data = .ok records := by
  obtain ⟨stray, rfl, hstray⟩ := h.eq
  obtain ⟨after, -, hread⟩ := readFrom_flatten h.whole hentries not_belowUpgrades_nil 0
  rw [readAll, hread, readFrom_of_length_lt_two (Nat.lt_succ_of_le hstray)]
  exact congrArg Except.ok (List.append_nil records)

theorem readAll_of_offends (hdata : data = raws.flatten ++ rest) (hwhole : EachAfter Whole [] raws)
    (h : Offends raws rest e) : readAll data = .error e := by
  obtain ⟨records, hentries⟩ := exists_entries hwhole
  obtain ⟨after, hafter, hread⟩ := readFrom_flatten hwhole hentries not_belowUpgrades_nil 0
  rw [List.nil_append] at hafter
  rw [readAll, hdata, hread, Nat.zero_add, readFrom_of_offends h hafter]
  rfl

/-- A byte string is read just if it is a stream of whole records with at most one byte left over,
and then each record gives one entry that says what it says. Any other byte string is refused with
the error of the first record that offends. Read by position it comes to the same end, so no
position is outside of it and the walk ends. -/
theorem readAll_grammar (data : Bytes) :
    ((∃ records, readAll data = .ok records) ↔ ∃ raws, Splits data raws) ∧
    (∀ raws records, Splits data raws → readAll data = .ok records → Entries [] raws records) ∧
    (∀ e, readAll data = .error e ↔ ∃ raws rest, data = raws.flatten ++ rest ∧
      EachAfter Whole [] raws ∧ Offends raws rest e) ∧
    checkedReadAll data = (readAll data).mapError .refused := by
  have hsplits : ∀ raws, Splits data raws → ∃ records, readAll data = .ok records ∧
      Entries [] raws records := by
    intro raws h
    obtain ⟨records, hentries⟩ := exists_entries h.whole
    exact ⟨records, readAll_of_splits h hentries, hentries⟩
  -- the split decides both directions: it ends with a stray byte, or with an offence
  obtain ⟨raws, rest, hdata, hwhole, hends⟩ := exists_split [] data
  rw [List.nil_append] at hends
  refine ⟨⟨?_, ?_⟩, ?_, ?_, checkedReadAll_eq data⟩
  · rintro ⟨records, hread⟩
    rcases hends with hstray | ⟨e, he⟩
    · exact ⟨raws, ⟨rest, hdata, hstray⟩, hwhole⟩
    · rw [readAll_of_offends hdata hwhole he] at hread
      cases hread
  · rintro ⟨raws, h⟩
    obtain ⟨records, hread, -⟩ := hsplits raws h
    exact ⟨records, hread⟩
  · intro raws records h hread
    obtain ⟨records', hread', hentries⟩ := hsplits raws h
    obtain rfl := Except.ok.inj (hread.symm.trans hread')
    exact hentries
  · intro e
    constructor
    · intro hread
      rcases hends with hstray | ⟨e', he⟩
      · obtain ⟨records, hread', -⟩ := hsplits raws ⟨⟨rest, hdata, hstray⟩, hwhole⟩
        cases hread.symm.trans hread'
      · obtain rfl := Except.error.inj (hread.symm.trans (readAll_of_offends hdata hwhole he))
        exact ⟨raws, rest, hdata, hwhole, he⟩
    · rintro ⟨raws, rest, hdata, hwhole, he⟩
      exact readAll_of_offends hdata hwhole he

/-- An interface for upgrades, and below it a functional descriptor of the older layout. -/
def older : List Bytes :=
  [[9, 0x04, 0, 0, 0, 0xfe, 0x01, 0x02, 0], [7, 0x21, 0x03, 0xff, 0x00, 0x40, 0x00]]

/-- With a byte left over they are read. With a functional descriptor behind them that is one byte
too short, they are refused. -/
theorem older_readAll :
    Splits (older.flatten ++ [0xff]) older ∧ (∃ rs, readAll (older.flatten ++ [0xff]) = .ok rs) ∧
      readAll (older.flatten ++ [6, 0x21, 0x03, 0xff, 0x00, 0x40]) =
        .error (.truncated .functional 6 7) :=
  have hsplits : Splits (older.flatten ++ [0xff]) older := ⟨⟨[0xff], rfl, by decide⟩, by decide⟩
  ⟨hsplits, (readAll_grammar _).1.2 ⟨older, hsplits⟩, ((readAll_grammar _).2.2.1 _).2
    ⟨older, _, rfl, by decide, .functional (by decide) (by decide) (by decide) (by decide)⟩⟩

end Record
end UsbDfu
