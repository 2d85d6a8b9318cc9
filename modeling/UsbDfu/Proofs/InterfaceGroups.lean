import UsbDfu.Proofs.ConfigurationCodec

/-!
# Interfaces and the records below them

The records of a configuration are a flat list, in which an interface stands above all records up to the
next one. A functional descriptor is looked for interface by interface. Which one is found is said here by
the list alone: it is the first one whose nearest interface before it is the one that is asked for.

- `Record.eq_append_interfaces`: nothing of the list is lost or doubled by taking it apart at the
  interfaces; `Record.interfaces_eq_slices` takes it apart by positions.
- `Record.lookupFrom`: the look-up as one pass over the list; `lookupFrom_eq` is what it finds interface
  by interface, `lookupFrom_eq_some_iff` and `lookupFrom_eq_none_iff` what it finds in the list.
- `Configuration.interfaces_partition`: both for a configuration, with the first functional descriptor of
  all for an interface that has none.
-/

namespace UsbDfu

namespace Record

variable {number alternate : UInt8} {before records : List Record} {r : Record} {f : Functional}

/-! ## Taking the list apart -/

theorem eq_append_interfaces (records : List Record) :
    records = records.takeWhile (!·.isInterface) ++
      (interfaces records).flatMap fun (i, nested) => .interface i :: nested := by
  induction records with
  | nil => rfl
  | cons r rest ih =>
    cases r with
    | interface i => exact congrArg (.interface i :: ·) ih
    | functional f => exact congrArg (.functional f :: ·) ih
    | other type content => exact congrArg (.other type content :: ·) ih

/-- No interface is below another one. -/
theorem isInterface_of_nested {i : InterfaceDescriptor} {nested : List Record}
    (h : (i, nested) ∈ interfaces records) : ∀ r ∈ nested, r.isInterface = false := by
  induction records with
  | nil => cases h
  | cons r rest ih =>
    cases r with
    | interface i' =>
      rcases List.mem_cons.1 h with heq | h
      · obtain ⟨-, rfl⟩ := Prod.mk.inj heq
        simpa using List.all_eq_true.1 (@List.all_takeWhile _ (!·.isInterface) rest)
      · exact ih h
    | functional f | other type content => exact ih h

/-- The interface at a position, with the records from the next position on up to the next interface or
the end. -/
def slice? (records : List Record) : Record × Nat → Option (InterfaceDescriptor × List Record)
  | (.interface i, position) =>
    let rest := records.drop (position + 1)
    some (i, rest.take (rest.findIdx isInterface))
  | _ => none

theorem interfaces_eq_slices_after (before records : List Record) :
    interfaces records = (records.zipIdx before.length).filterMap (slice? (before ++ records)) := by
  induction records generalizing before with
  | nil => rfl
  | cons r rest ih =>
    -- positions are counted from the start, so the records before are carried along
    have hrest := ih (before ++ [r])
    rw [List.append_assoc, List.singleton_append, List.length_append] at hrest
    rw [List.zipIdx_cons, List.filterMap_cons]
    cases r with
    | interface i =>
      have hdrop : (before ++ .interface i :: rest).drop (before.length + 1) = rest := by simp
      have hnested : rest.takeWhile (!·.isInterface) = rest.take (rest.findIdx isInterface) := by
        simpa using @List.takeWhile_eq_take_findIdx_not _ rest (!·.isInterface)
      simp only [slice?, hdrop, ← hnested]
      exact congrArg (_ :: ·) hrest
    | functional f | other type content => exact hrest

theorem interfaces_eq_slices (records : List Record) :
    interfaces records = records.zipIdx.filterMap (slice? records) :=
  interfaces_eq_slices_after [] records

/-! ## Looking for a functional descriptor -/

/-- The record is a functional descriptor. -/
def IsFunctional (r : Record) : Prop :=
  ∃ f, r = .functional f

/-- A record after these ones is below the alternate setting of the interface. -/
def StandsBelow (number alternate : UInt8) (before : List Record) : Prop :=
  ∃ i, nearest? before = some i ∧ i.interfaceNumber = number ∧ i.alternateSetting = alternate

/-- The record is a functional descriptor, and after these ones it is below the alternate setting. -/
def FunctionalBelow (number alternate : UInt8) (before : List Record) (r : Record) : Prop :=
  r.IsFunctional ∧ StandsBelow number alternate before

instance : (r : Record) → Decidable r.IsFunctional
  | .functional f => isTrue ⟨f, rfl⟩
  | .interface _ | .other _ _ => isFalse nofun

instance (before : List Record) : Decidable (StandsBelow number alternate before) :=
  inferInstanceAs (Decidable (∃ i ∈ nearest? before,
    i.interfaceNumber = number ∧ i.alternateSetting = alternate))

instance (before : List Record) (r : Record) :
    Decidable (FunctionalBelow number alternate before r) :=
  inferInstanceAs (Decidable (r.IsFunctional ∧ StandsBelow number alternate before))

@[simp]
theorem isFunctional_functional : (functional f).IsFunctional :=
  ⟨f, rfl⟩

@[simp]
theorem not_isFunctional_interface {i : InterfaceDescriptor} : ¬ (interface i).IsFunctional :=
  nofun

@[simp]
theorem not_isFunctional_other {type : UInt8} {content : Bytes} :
    ¬ (other type content).IsFunctional :=
  nofun

@[simp]
theorem functionalBelow_functional :
    FunctionalBelow number alternate before (.functional f) ↔ StandsBelow number alternate before :=
  and_iff_right isFunctional_functional

theorem not_functionalBelow (h : ¬ r.IsFunctional) : ¬ FunctionalBelow number alternate before r :=
  fun hr => h hr.1

theorem standsBelow_concat_interface {i : InterfaceDescriptor} :
    StandsBelow number alternate (before ++ [.interface i]) ↔
      i.interfaceNumber = number ∧ i.alternateSetting = alternate := by
  simp [StandsBelow, nearest?_concat, interface?]

theorem standsBelow_concat (h : r.interface? = none) :
    StandsBelow number alternate (before ++ [r]) ↔ StandsBelow number alternate before := by
  rw [StandsBelow, nearest?_concat, h]
  rfl

/-- The first functional descriptor below an interface, if it is the one that is asked for. -/
def nestedFunctional? (number alternate : UInt8) :
    InterfaceDescriptor × List Record → Option Functional
  | (i, nested) =>
    if i.interfaceNumber = number ∧ i.alternateSetting = alternate then
      nested.findSome? functional?
    else none

/-- One pass over the records, `below` telling whether the nearest interface is the one that is asked
for. -/
def lookupFrom (number alternate : UInt8) (below : Bool) : List Record → Option Functional
  | [] => none
  | .interface i :: rest =>
    lookupFrom number alternate (i.interfaceNumber = number ∧ i.alternateSetting = alternate) rest
  | .functional f :: rest => if below then some f else lookupFrom number alternate below rest
  | .other _ _ :: rest => lookupFrom number alternate below rest

/-- The pass finds what the interface it begins below has, and otherwise what one of the interfaces after
that has. -/
theorem lookupFrom_eq (number alternate : UInt8) (below : Bool) (records : List Record) :
    lookupFrom number alternate below records =
      ((if below then (records.takeWhile (!·.isInterface)).findSome? functional? else none) <|>
        (interfaces records).findSome? (nestedFunctional? number alternate)) := by
  induction records generalizing below with
  | nil => cases below <;> rfl
  | cons r rest ih =>
    cases r with
    | interface i =>
      rw [lookupFrom, ih, interfaces, List.findSome?_cons, nestedFunctional?]
      by_cases hi : i.interfaceNumber = number ∧ i.alternateSetting = alternate
      · cases (rest.takeWhile (!·.isInterface)).findSome? functional? <;> simp [hi, isInterface]
      · simp [hi, isInterface]
    | functional f =>
      rw [lookupFrom, ih]
      cases below <;> rfl
    | other type content =>
      rw [lookupFrom, ih]
      cases below <;> rfl

/-- The pass finds the first functional descriptor below the alternate setting. The flag means that the
records passed so far end below it. -/
theorem lookupFrom_eq_some_iff {below : Bool}
    (hflag : below = true ↔ StandsBelow number alternate before) :
    lookupFrom number alternate below records = some f ↔
      FirstAfter (FunctionalBelow number alternate) before records (.functional f) := by
  -- an interface sets the flag anew, and every other record leaves it as it is
  induction records generalizing below before with
  | nil => simp [lookupFrom, not_firstAfter_nil]
  | cons r rest ih =>
    rw [firstAfter_cons_iff]
    cases r with
    | interface i =>
      have hrest : decide (i.interfaceNumber = number ∧ i.alternateSetting = alternate) = true ↔
          StandsBelow number alternate (before ++ [.interface i]) := by
        rw [standsBelow_concat_interface, decide_eq_true_iff]
      rw [lookupFrom, ih hrest]
      simp [not_functionalBelow]
    | functional g =>
      rw [lookupFrom]
      cases below with
      | true => simp [← hflag]
      | false =>
        have hrest := hflag.trans (standsBelow_concat (r := .functional g) rfl).symm
        rw [if_neg nofun, ih hrest]
        simp [← hflag]
    | other type content =>
      have hrest := hflag.trans (standsBelow_concat (r := .other type content) rfl).symm
      rw [lookupFrom, ih hrest]
      simp [not_functionalBelow]

/-- The pass finds nothing only where nothing is below the alternate setting. -/
theorem lookupFrom_eq_none_iff {below : Bool}
    (hflag : below = true ↔ StandsBelow number alternate before) :
    lookupFrom number alternate below records = none ↔
      EachAfter (fun before r => ¬ FunctionalBelow number alternate before r) before records := by
  rw [eachAfter_not_iff, Option.eq_none_iff_forall_ne_some]
  constructor
  · intro h x hx
    obtain ⟨_, ⟨f, rfl⟩, -⟩ := hx.rule
    exact h f ((lookupFrom_eq_some_iff hflag).2 hx)
  · intro h f hf
    exact h _ ((lookupFrom_eq_some_iff hflag).1 hf)

theorem findSome?_functional?_eq_some_iff :
    records.findSome? functional? = some f ↔
      FirstAfter (fun _ r => r.IsFunctional) before records (.functional f) := by
  induction records generalizing before with
  | nil => simp [not_firstAfter_nil]
  | cons r rest ih =>
    rw [firstAfter_cons_iff, List.findSome?_cons, ← ih]
    cases r <;> simp [functional?]

theorem findSome?_functional?_eq_none_iff :
    records.findSome? functional? = none ↔ ∀ f, .functional f ∉ records := by
  rw [List.findSome?_eq_none_iff]
  constructor
  · intro h f hf
    cases h _ hf
  · intro h r hr
    cases r with
    | functional f => exact absurd hr (h f)
    | interface i | other type content => rfl

end Record

namespace Configuration

open Record (FunctionalBelow StandsBelow lookupFrom)

variable {number alternate : UInt8} {f : Functional}

/-- The look-up is one pass over the records, and a second one where the first finds nothing. -/
theorem functional?_eq_lookupFrom (c : Configuration) (number alternate : UInt8) :
    c.functional? number alternate =
      (lookupFrom number alternate false c.records).or (c.records.findSome? Record.functional?) := by
  rw [Record.lookupFrom_eq]
  exact Option.orElse_eq_or

/-- The pass begins below no interface. -/
theorem false_iff_standsBelow_nil : false = true ↔ StandsBelow number alternate [] := by
  simp [StandsBelow, Record.nearest?]

theorem functional?_eq_some_iff (c : Configuration) :
    c.functional? number alternate = some f ↔
      FirstAfter (FunctionalBelow number alternate) [] c.records (.functional f) ∨
      EachAfter (fun before r => ¬ FunctionalBelow number alternate before r) [] c.records ∧
        FirstAfter (fun _ r => r.IsFunctional) [] c.records (.functional f) := by
  rw [functional?_eq_lookupFrom, Option.or_eq_some_iff,
    Record.lookupFrom_eq_some_iff false_iff_standsBelow_nil,
    Record.lookupFrom_eq_none_iff false_iff_standsBelow_nil, Record.findSome?_functional?_eq_some_iff]

theorem functional?_eq_none_iff (c : Configuration) :
    c.functional? number alternate = none ↔ ∀ f, .functional f ∉ c.records := by
  rw [functional?_eq_lookupFrom, Option.or_eq_none_iff, Record.findSome?_functional?_eq_none_iff,
    and_iff_right_iff_imp, Record.lookupFrom_eq_none_iff false_iff_standsBelow_nil, eachAfter_not_iff]
  intro h x hx
  obtain ⟨_, ⟨f, rfl⟩, -⟩ := hx.rule
  exact h f hx.mem

/-- The interfaces, each with the records below it, are the whole list after the records before the
first one. The functional descriptor of an alternate setting is the first one below it, or else the
first one of the configuration, and there is one unless the configuration has none. -/
theorem interfaces_partition (c : Configuration) :
    c.records = c.records.takeWhile (!·.isInterface) ++
        c.interfaces.flatMap (fun (i, nested) => .interface i :: nested) ∧
      c.interfaces = c.records.zipIdx.filterMap (Record.slice? c.records) ∧
      (∀ p ∈ c.interfaces, ∀ r ∈ p.2, r.isInterface = false) ∧
      ∀ number alternate,
        (∀ f, c.functional? number alternate = some f ↔
          FirstAfter (FunctionalBelow number alternate) [] c.records (.functional f) ∨
          EachAfter (fun before r => ¬ FunctionalBelow number alternate before r) [] c.records ∧
            FirstAfter (fun _ r => r.IsFunctional) [] c.records (.functional f)) ∧
        (c.functional? number alternate = none ↔ ∀ f, .functional f ∉ c.records) := by
  refine ⟨Record.eq_append_interfaces _, Record.interfaces_eq_slices _,
    fun _ hp => Record.isInterface_of_nested hp, fun number alternate => ⟨fun f => ?_, ?_⟩⟩
  · exact c.functional?_eq_some_iff
  · exact c.functional?_eq_none_iff

/-- The first alternate setting is listed twice, and only the second time with a functional
descriptor. -/
def listedTwice : Configuration where
  numInterfaces := 1
  value := 1
  nameIndex := 0
  attributes := 0x80
  maxPower := 50
  records :=
    [.interface ⟨0, 0, 0, 0xfe, 0x01, 0x02, 4⟩, .other 0x24 [0x01],
      .interface ⟨0, 1, 0, 0xfe, 0x01, 0x02, 5⟩, .functional ⟨0x0b, 255, 1024, 0x011a⟩,
      .interface ⟨0, 0, 0, 0xfe, 0x01, 0x02, 6⟩, .functional ⟨0x0b, 255, 2048, 0x011a⟩]

theorem interfaces_partition_listedTwice :
    (∃ p ∈ listedTwice.interfaces, p.2 = [.other 0x24 [0x01]] ∧ ∀ r ∈ p.2, r.isInterface = false) ∧
      listedTwice.functional? 0 0 = some ⟨0x0b, 255, 2048, 0x011a⟩ ∧
      listedTwice.functional? 0 2 = some ⟨0x0b, 255, 1024, 0x011a⟩ := by
  obtain ⟨-, -, hnested, hfind⟩ := interfaces_partition listedTwice
  have hmem : (⟨0, 0, 0, 0xfe, 0x01, 0x02, 4⟩, [.other 0x24 [0x01]]) ∈ listedTwice.interfaces := by
    decide
  refine ⟨⟨_, hmem, rfl, hnested _ hmem⟩, ?_, ?_⟩
  · exact ((hfind 0 0).1 _).2 (.inl (by decide))
  · exact ((hfind 0 2).1 _).2 (.inr (by decide))

end Configuration
end UsbDfu
