import UsbDfu.Discovery
import UsbDfu.Proofs.ConfigurationCodec

/-!
# The names of settings

Discovery names its settings twice over: each by the string under its own index, and the ones still
without a name from a table of all names, under the key of the setting. Here is what both do, apart
from how the strings are read.

- `Configuration.settingOf`, `settingsOf`: the settings for upgrades, straight from the descriptors;
  `map_named_ofConfigurations` says that they are those that discovery names.
- `AltSetting.named`: a setting with the name that a naming of indices gives it.
- `Names.ofConfigurations`: the table for such a naming; `Names.get?_ofConfigurations` looks a setting
  up in it, for which no two settings may share their key.
- `fillNames_named`: settings that were named in part become those that are named in full.
-/

namespace UsbDfu

/-! ## Keys -/

namespace Configuration

/-- The interface descriptors, one for each alternate setting. -/
def alternates (c : Configuration) : List InterfaceDescriptor :=
  c.records.filterMap Record.interface?

/-- What tells a setting from the other ones of its device. -/
def keyOf (c : Configuration) (i : InterfaceDescriptor) : SettingKey :=
  (c.value, i.interfaceNumber, i.alternateSetting)

theorem map_fst_interfaces (c : Configuration) : c.interfaces.map Prod.fst = c.alternates := by
  unfold interfaces alternates
  induction c.records with
  | nil => rfl
  | cons r rest ih =>
    cases r with
    | interface i =>
      rw [Record.interfaces, List.map_cons, ih]
      rfl
    | functional f => exact ih
    | other type content => exact ih

end Configuration

/-- No two settings of the configurations have the same key. -/
def KeysDistinct (cs : List Configuration) : Prop :=
  (cs.flatMap fun c => c.alternates.map c.keyOf).Nodup

instance (cs : List Configuration) : Decidable (KeysDistinct cs) :=
  inferInstanceAs (Decidable (List.Nodup _))

namespace AltSetting

/-- The key under which the name of the setting is kept. -/
def key (s : AltSetting) : SettingKey :=
  (s.configuration, s.interface, s.alternate)

/-- The setting with the name under its index. -/
def named (name : UInt8 → Option String) (s : AltSetting) : AltSetting :=
  { s with name? := name s.nameIndex }

theorem ofConfiguration_eq (c : Configuration) :
    ofConfiguration c = c.alternates.filterMap (ofInterface? c.value) := by
  rw [ofConfiguration, ← c.map_fst_interfaces, List.filterMap_map]
  rfl

/-- A setting is that of an interface descriptor. -/
theorem exists_of_mem_ofConfigurations {cs : List Configuration} {s : AltSetting}
    (h : s ∈ ofConfigurations cs) :
    ∃ c ∈ cs, ∃ i ∈ c.alternates, s.key = c.keyOf i ∧ s.nameIndex = i.nameIndex := by
  obtain ⟨c, hc, hs⟩ := List.mem_flatMap.1 h
  rw [ofConfiguration_eq, List.mem_filterMap] at hs
  obtain ⟨i, hi, hof⟩ := hs
  refine ⟨c, hc, i, hi, ?_⟩
  unfold ofInterface? at hof
  split at hof
  · obtain ⟨mode, -, rfl⟩ := Option.map_eq_some_iff.1 hof
    exact ⟨rfl, rfl⟩
  · cases hof

end AltSetting

/-! ## Settings -/

/-- An interface for upgrades, of running firmware or of a boot loader. -/
def InterfaceDescriptor.IsSetting (i : InterfaceDescriptor) : Prop :=
  i.interfaceClass = 0xfe ∧ i.interfaceSubclass = 0x01 ∧
    (i.interfaceProtocol = 1 ∨ i.interfaceProtocol = 2)

instance (i : InterfaceDescriptor) : Decidable i.IsSetting :=
  inferInstanceAs (Decidable (_ ∧ _ ∧ _))

theorem InterfaceDescriptor.isSetting_iff {i : InterfaceDescriptor} : i.IsSetting ↔
    i.isDfu = true ∧ (i.interfaceProtocol = 1 ∨ i.interfaceProtocol = 2) := by
  simp [IsSetting, isDfu, Descriptor.dfuClass, Descriptor.dfuSubclass, and_assoc]

theorem Mode.ofProtocol?_eq_none {protocol : UInt8} (h : ¬ (protocol = 1 ∨ protocol = 2)) :
    ofProtocol? protocol = none := by
  unfold ofProtocol?
  split
  · exact absurd (.inl rfl) h
  · exact absurd (.inr rfl) h
  · rfl

/-- The setting of an interface descriptor, with the name under its index. -/
def Configuration.settingOf (name : UInt8 → Option String) (c : Configuration)
    (i : InterfaceDescriptor) : AltSetting where
  configuration := c.value
  interface := i.interfaceNumber
  alternate := i.alternateSetting
  mode := if i.interfaceProtocol = 1 then .runtime else .upgrade
  nameIndex := i.nameIndex
  name? := name i.nameIndex

/-- The settings for upgrades in the order of their descriptors, with the names under their indices. -/
def settingsOf (name : UInt8 → Option String) (cs : List Configuration) : List AltSetting :=
  cs.flatMap fun c => (c.alternates.filter (·.IsSetting)).map (c.settingOf name)

theorem map_named_ofInterface? (name : UInt8 → Option String) (c : Configuration)
    (i : InterfaceDescriptor) :
    (AltSetting.ofInterface? c.value i).map (·.named name) =
      if i.IsSetting then some (c.settingOf name i) else none := by
  rw [AltSetting.ofInterface?]
  by_cases hdfu : i.isDfu = true
  · rw [if_pos hdfu]
    by_cases hprotocol : i.interfaceProtocol = 1 ∨ i.interfaceProtocol = 2
    · rw [if_pos (InterfaceDescriptor.isSetting_iff.2 ⟨hdfu, hprotocol⟩), Configuration.settingOf]
      rcases hprotocol with hruntime | hupgrade
      · rw [hruntime]
        rfl
      · rw [hupgrade]
        rfl
    · rw [if_neg fun h => hprotocol (InterfaceDescriptor.isSetting_iff.1 h).2,
        Mode.ofProtocol?_eq_none hprotocol]
      rfl
  · rw [if_neg hdfu, if_neg fun h => hdfu (InterfaceDescriptor.isSetting_iff.1 h).1]
    rfl

theorem map_named_ofConfigurations (name : UInt8 → Option String) (cs : List Configuration) :
    (AltSetting.ofConfigurations cs).map (·.named name) = settingsOf name cs := by
  rw [AltSetting.ofConfigurations, List.map_flatMap, settingsOf]
  congr 1
  funext c
  rw [AltSetting.ofConfiguration_eq, List.map_filterMap, ← List.filterMap_eq_map,
    List.filterMap_filter]
  congr 1
  funext i
  rw [map_named_ofInterface?]
  simp

/-! ## Tables of names -/

namespace Names

variable {names : Names} {key : SettingKey} {cs : List Configuration}

/-- A key that is new comes last. -/
theorem insert_of_new (h : key ∉ names.map Prod.fst) (name : Option String) :
    names.insert key name = names ++ [(key, name)] := by
  rw [insert, List.filter_eq_self.2]
  rintro ⟨k, n⟩ hmem
  have hne : k ≠ key := by
    rintro rfl
    exact h (List.mem_map_of_mem hmem)
  exact decide_eq_true hne

theorem get?_of_mem {name : Option String} (hnew : (names.map Prod.fst).Nodup)
    (h : (key, name) ∈ names) : names.get? key = some name := by
  obtain ⟨before, after, rfl⟩ := List.append_of_mem h
  refine List.lookup_eq_some_iff.2 ⟨before, after, rfl, fun p hp => bne_iff_ne.2 ?_⟩
  rw [List.map_append, List.nodup_append] at hnew
  exact (hnew.2.2 p.1 (List.mem_map_of_mem hp) key List.mem_cons_self).symm

/-- The names of a configuration's settings. -/
def ofConfiguration (name : UInt8 → Option String) (c : Configuration) : Names :=
  c.alternates.map fun i => (c.keyOf i, name i.nameIndex)

/-- The names of all settings, each under its key. -/
def ofConfigurations (name : UInt8 → Option String) (cs : List Configuration) : Names :=
  cs.flatMap (ofConfiguration name)

theorem keys_ofConfigurations (name : UInt8 → Option String) (cs : List Configuration) :
    (ofConfigurations name cs).map Prod.fst = cs.flatMap fun c => c.alternates.map c.keyOf := by
  simp only [ofConfigurations, ofConfiguration, List.map_flatMap, List.map_map]
  rfl

theorem get?_ofConfigurations (name : UInt8 → Option String) {s : AltSetting}
    (hdistinct : KeysDistinct cs) (h : s ∈ AltSetting.ofConfigurations cs) :
    (ofConfigurations name cs).get? s.key = some (name s.nameIndex) := by
  obtain ⟨c, hc, i, hi, hkey, hindex⟩ := AltSetting.exists_of_mem_ofConfigurations h
  refine get?_of_mem ?_ ?_
  · rw [keys_ofConfigurations]
    exact hdistinct
  · rw [hkey, hindex]
    refine List.mem_flatMap.2 ⟨c, hc, ?_⟩
    exact List.mem_map_of_mem (f := fun i => (c.keyOf i, name i.nameIndex)) hi

end Names

/-! ## Filling names in -/

/-- The first naming gives nothing that the second does not give too. -/
def NamesPartly (name full : UInt8 → Option String) : Prop :=
  ∀ index, name index = none ∨ name index = full index

theorem AltSetting.named_of_not_needsName {name full : UInt8 → Option String}
    (hpart : NamesPartly name full) (hfull : full 0 = none) {s : AltSetting}
    (h : (s.named name).needsName = false) : s.named name = s.named full := by
  have hname : name s.nameIndex = full s.nameIndex := by
    rcases hpart s.nameIndex with hnone | heq
    · have hindex : s.nameIndex = 0 := by simpa [needsName, named, hnone] using h
      rw [hnone, hindex, hfull]
    · exact heq
  rw [named, named, hname]

/-- Settings of which none needs a name are named in full. -/
theorem map_named_of_none_needsName {name full : UInt8 → Option String} {settings : List AltSetting}
    (hpart : NamesPartly name full) (hfull : full 0 = none)
    (h : ¬ (settings.map (·.named name)).any AltSetting.needsName) :
    settings.map (·.named name) = settings.map (·.named full) := by
  rw [List.any_map, List.any_eq_true] at h
  refine List.map_congr_left fun s hs => ?_
  refine AltSetting.named_of_not_needsName hpart hfull (Bool.not_eq_true _ ▸ fun hneeds => ?_)
  exact h ⟨s, hs, hneeds⟩

/-- The table has the name of every setting that still needs one. -/
theorem fillNames_named {name full : UInt8 → Option String} {names : Names}
    {settings : List AltSetting} (hpart : NamesPartly name full) (hfull : full 0 = none)
    (hnames : ∀ s ∈ settings, names.get? s.key = some (full s.nameIndex)) :
    fillNames names (settings.map (·.named name)) = settings.map (·.named full) := by
  rw [fillNames, List.map_map]
  refine List.map_congr_left fun s hs => ?_
  by_cases hneeds : (s.named name).needsName = true
  · have hget : names.get? ((s.named name).configuration, (s.named name).interface,
        (s.named name).alternate) = some (full s.nameIndex) := hnames s hs
    rw [Function.comp_apply, if_pos hneeds, hget]
    rfl
  · rw [Function.comp_apply, if_neg hneeds]
    exact AltSetting.named_of_not_needsName hpart hfull (Bool.not_eq_true _ ▸ hneeds)

end UsbDfu
