import Mathlib.Data.List.Forall2
import UsbDfu.Proofs.BoardRuns
import UsbDfu.Proofs.SettingNames
import UsbDfu.Proofs.TextCodec

/-!
# What discovery finds of a simulated device

A device is asked for its descriptor, and then for its configurations and the names of its settings,
each of them in two reads: one for the length, one for all of it. Some devices keep their names to
themselves as long as no interface is claimed.

- `Simulator.Holds`, `givenName`, `storedName`: what the device answers, as it is now and once an
  interface is claimed.
- `runs_readConfiguration`, `runs_readText_ofUnits`, `runs_readName`: both reads of one configuration, of
  one string descriptor, and of one name.
- `runs_completeNames`: the settings are named in full in the end, whatever the device gave at first.
- `discover_simulator`: discovery finds exactly what the device stores.
-/

namespace UsbDfu

open Dialogue
open Bench (SingleBoard Simulator)

/-! ## What the device answers -/

namespace Bench.Simulator

variable {s : Simulator} {index : UInt8}

/-- The device has the configuration under this index, and can tell its length. -/
structure Holds (s : Simulator) (index : UInt8) (c : Configuration) : Prop where
  bytes : s.configurations[index.toNat]? = some c.encode
  wellFormed : c.WellFormed
  length_le : c.encode.length ≤ 65535

/-- The name stored under an index, 0 standing for no name. -/
def storedName (s : Simulator) (index : UInt8) : Option String :=
  if index = 0 then none else s.strings.lookup index

/-- The name that the device gives for an index. -/
def givenName (s : Simulator) (index : UInt8) : Option String :=
  if s.stringsNeedClaim && s.claimed.isNone then none else s.storedName index

/-- The device can tell the length of each of its strings. -/
def TextsFit (s : Simulator) : Prop :=
  ∀ index text, s.strings.lookup index = some text → TextDescriptor.Fits text

theorem storedName_zero (s : Simulator) : s.storedName 0 = none :=
  if_pos rfl

theorem namesPartly_givenName (s : Simulator) : NamesPartly s.givenName s.storedName := by
  intro index
  unfold givenName
  split
  · exact .inl rfl
  · exact .inr rfl

/-- With an interface claimed the device gives every name. -/
theorem givenName_claimedAs (s : Simulator) (number : UInt8) :
    (s.claimedAs number).givenName = s.storedName := by
  funext index
  rw [givenName, claimedAs, Option.isNone_some, Bool.and_false]
  rfl

theorem TextsFit.of_givenName {text : String} (h : s.TextsFit)
    (hname : s.givenName index = some text) : TextDescriptor.Fits text := by
  unfold givenName storedName at hname
  split at hname
  · cases hname
  · split at hname
    · cases hname
    · exact h index text hname

theorem textsFit_of_forall_mem (h : ∀ p ∈ s.strings, TextDescriptor.Fits p.2) : s.TextsFit := by
  intro index text hname
  obtain ⟨before, after, hstrings, -⟩ := List.lookup_eq_some_iff.1 hname
  exact h (index, text) (hstrings ▸ List.mem_append_right before List.mem_cons_self)

theorem descriptorBytes_configuration {c : Configuration} (h : s.Holds index c)
    (language : UInt16) :
    s.descriptorBytes Descriptor.configurationType index language = .ok c.encode := by
  have htype : Descriptor.configurationType ≠ Descriptor.deviceType := by decide
  rw [descriptorBytes, if_neg htype, if_pos rfl, h.bytes]

/-- A string descriptor is given exactly if the name is. -/
theorem descriptorBytes_text (hindex : index ≠ 0) :
    s.descriptorBytes Descriptor.textType index TextDescriptor.english =
      ((s.givenName index).map TextDescriptor.encode).elim (.error .stall) .ok := by
  have hdevice : Descriptor.textType ≠ Descriptor.deviceType := by decide
  have hconfiguration : Descriptor.textType ≠ Descriptor.configurationType := by decide
  rw [descriptorBytes, if_neg hdevice, if_neg hconfiguration, if_pos rfl, if_neg hindex,
    textDescriptor, givenName, storedName, if_neg hindex]
  split
  · rfl
  · rw [if_neg (not_not_intro rfl)]
    cases s.strings.lookup index <;> rfl

end Bench.Simulator

/-! ## Reads -/

section Reads

variable {ε : Type} {a : Scene} {index : UInt8}

theorem runs_readDescriptor (hopen : a.device.checkOpen = .ok ()) (type index : UInt8)
    (language length : UInt16) :
    Runs (readDescriptor type index language length) a
      (.ofExcept (((a.device.descriptorBytes type index language).map
        (·.take length.toNat)).mapError .transport)) a := by
  have hcall : a.device.call (.controlIn (.ofStandard Request.getDescriptor (Bytes.word index type)
      language) length) =
      ((a.device.descriptorBytes type index language).map (·.take length.toNat), a.device) := by
    rw [Simulator.call, Simulator.controlIn, whenOpen_eq hopen]
    show (Simulator.getDescriptor _ _ _, _) = _
    rw [Simulator.getDescriptor, Request.ofStandard, Bytes.toUInt8_word, Bytes.high_word]
  exact (runs_allowed hcall rfl (by simp)).bind (runs_ofExcept _)

/-- As much as is asked for of a descriptor that the device gives. -/
theorem runs_readDescriptor_ok {type : UInt8} {language : UInt16} {data : Bytes}
    (hopen : a.device.checkOpen = .ok ())
    (h : a.device.descriptorBytes type index language = .ok data) (length : UInt16) :
    Runs (readDescriptor type index language length) a (.done (data.take length.toNat)) a := by
  have hread := runs_readDescriptor hopen type index language length
  rw [h] at hread
  exact hread

theorem DeviceDescriptor.decode_take {data : Bytes} {d : DeviceDescriptor}
    (h : decode data = .ok d) : decode (data.take size) = .ok d := by
  unfold decode at h
  split at h
  · exact h
  · cases h

theorem runs_readDeviceDescriptor {d : DeviceDescriptor} (hopen : a.device.checkOpen = .ok ())
    (h : DeviceDescriptor.decode a.device.deviceDescriptor = .ok d) :
    Runs readDeviceDescriptor a (.done d) a := by
  refine (runs_readDescriptor_ok hopen rfl _).bind ?_
  have hdecode : DeviceDescriptor.decode
      (a.device.deviceDescriptor.take (UInt16.ofNat DeviceDescriptor.size).toNat) = .ok d :=
    DeviceDescriptor.decode_take h
  rw [hdecode]
  exact runs_done d

/-- The first four bytes of a configuration tell its length. -/
theorem Configuration.take_encode {c : Configuration} (h : c.encode.length ≤ 65535) :
    ∃ l0 l1, c.encode.take 4 = [9, Descriptor.configurationType, l0, l1] ∧
      (Bytes.word l0 l1).toNat = c.encode.length := by
  refine ⟨_, _, rfl, ?_⟩
  rw [Bytes.word_le16, UInt16.toNat_ofNat', ← length_encode]
  omega

theorem runs_readConfiguration {c : Configuration} (hopen : a.device.checkOpen = .ok ())
    (h : a.device.Holds index c) : Runs (readConfiguration index) a (.done c) a := by
  have hread := runs_readDescriptor_ok hopen (Simulator.descriptorBytes_configuration h 0)
  obtain ⟨l0, l1, hheader, hlength⟩ := Configuration.take_encode h.length_le
  have hdecode := Configuration.decode_encode h.wellFormed h.length_le []
  rw [List.append_nil] at hdecode
  refine (hread 4).bind ?_
  rw [show (4 : UInt16).toNat = 4 from rfl, hheader]
  refine (hread (Bytes.word l0 l1)).bind ?_
  rw [hlength, List.take_length, hdecode]
  exact runs_done c

/-- A string descriptor is read whole, and then decoded. -/
theorem runs_readText_ofUnits {units : List UInt16} {language : UInt16}
    (hopen : a.device.checkOpen = .ok ()) (hfits : units.length ≤ 126)
    (hbytes : a.device.descriptorBytes Descriptor.textType index language =
      .ok (TextDescriptor.ofUnits units)) :
    Runs (readText index language) a (.done (if language = 0 then .languages units
      else .text (String.ofList (Text.Utf16.decode units)))) a := by
  have hread := runs_readDescriptor_ok hopen hbytes
  obtain ⟨length, content, hdescriptor, hlength, -⟩ := TextDescriptor.ofUnits_eq hfits
  have hdecode := TextDescriptor.decode_ofUnits hfits language []
  rw [List.append_nil] at hdecode
  refine (hread 1).bind ?_
  rw [hdescriptor]
  refine (hread length.toUInt16).bind ?_
  rw [UInt8.toNat_toUInt16, List.take_of_length_le (by rw [hdescriptor]; simp [hlength]), hdecode]
  exact runs_done _

theorem runs_readText {text : String} (hopen : a.device.checkOpen = .ok ()) (hindex : index ≠ 0)
    (hname : a.device.givenName index = some text) (hfits : TextDescriptor.Fits text) :
    Runs (readText index TextDescriptor.english) a (.done (.text text)) a := by
  have hbytes := @Simulator.descriptorBytes_text a.device index hindex
  rw [hname] at hbytes
  have hread := runs_readText_ofUnits hopen hfits hbytes
  have henglish : TextDescriptor.english ≠ 0 := by decide
  rw [if_neg henglish, Text.Utf16.decode_encode, String.ofList_toList] at hread
  exact hread

/-- The name that the device gives, none if it refuses. -/
theorem runs_readName (hopen : a.device.checkOpen = .ok ()) (hfit : a.device.TextsFit)
    (hindex : index ≠ 0) :
    Runs (readName index : Dialogue Query.Answer ε (Option String)) a
      (.done (a.device.givenName index)) a := by
  cases hname : a.device.givenName index with
  | some text =>
    exact (runs_readText hopen hindex hname (hfit.of_givenName hname)).attempt.bind (runs_done _)
  | none =>
    have hread := runs_readDescriptor hopen Descriptor.textType index TextDescriptor.english 1
    rw [Simulator.descriptorBytes_text hindex, hname] at hread
    exact (hread.bind_failed _).attempt.bind (runs_note_bind (runs_done none))

/-- The name for an index, and what is made of it. -/
theorem runs_readName_unless {α : Type} {f : Option String → Dialogue Query.Answer ε α}
    {o : Outcome ε α} {b : Scene} (hopen : a.device.checkOpen = .ok ()) (hfit : a.device.TextsFit)
    (hf : Runs (f (a.device.givenName index)) a o b) :
    Runs (if index = 0 then f none else readName index >>= f) a o b := by
  by_cases hindex : index = 0
  · have hnone : a.device.givenName index = none := by
      rcases a.device.namesPartly_givenName index with hnone | hstored
      · exact hnone
      · rw [hstored, hindex, Simulator.storedName_zero]
    rw [if_pos hindex, ← hnone]
    exact hf
  · rw [if_neg hindex]
    exact (runs_readName hopen hfit hindex).bind hf

end Reads

/-! ## The names of all settings -/

section Naming

variable {ε : Type} {a : Scene} {indices : List UInt8} {cs : List Configuration}

theorem runs_nameSettings (hopen : a.device.checkOpen = .ok ()) (hfit : a.device.TextsFit)
    (settings : List AltSetting) :
    Runs (nameSettings settings) a (.done (settings.map (·.named a.device.givenName))) a := by
  induction settings with
  | nil => exact runs_done []
  | cons s rest ih => exact runs_readName_unless hopen hfit (ih.bind (runs_done _))

theorem runs_readConfigurations (hopen : a.device.checkOpen = .ok ())
    (h : List.Forall₂ a.device.Holds indices cs) :
    Runs (readConfigurations indices) a (.done cs) a := by
  induction h with
  | nil => exact runs_done []
  | cons hc _ ih => exact (runs_readConfiguration hopen hc).bind (ih.bind (runs_done _))

/-- The names of interfaces with new keys come last in the table. -/
theorem runs_readInterfaceNames (hopen : a.device.checkOpen = .ok ()) (hfit : a.device.TextsFit)
    (c : Configuration) (is : List InterfaceDescriptor) (names : Names)
    (hnew : (names.map Prod.fst ++ is.map c.keyOf).Nodup) :
    Runs (readInterfaceNames c.value is names : Dialogue Query.Answer ε Names) a
      (.done (names ++ is.map fun i => (c.keyOf i, a.device.givenName i.nameIndex))) a := by
  induction is generalizing names with
  | nil =>
    rw [List.map_nil, List.append_nil]
    exact runs_done names
  | cons i rest ih =>
    refine runs_readName_unless hopen hfit ?_
    have hkey : c.keyOf i ∉ names.map Prod.fst := fun hmem =>
      (List.nodup_append.1 hnew).2.2 _ hmem _ List.mem_cons_self rfl
    have hnames := Names.insert_of_new hkey (a.device.givenName i.nameIndex)
    have hrest := ih (names ++ [(c.keyOf i, a.device.givenName i.nameIndex)]) (by simpa using hnew)
    rw [List.append_assoc, List.singleton_append, ← hnames] at hrest
    exact hrest

theorem runs_readNamesOf (hopen : a.device.checkOpen = .ok ()) (hfit : a.device.TextsFit)
    (h : List.Forall₂ a.device.Holds indices cs) (names : Names)
    (hnew : (names.map Prod.fst ++ cs.flatMap fun c => c.alternates.map c.keyOf).Nodup) :
    Runs (readNamesOf indices names : Dialogue Query.Answer ε Names) a
      (.done (names ++ .ofConfigurations a.device.givenName cs)) a := by
  induction h generalizing names with
  | nil =>
    rw [Names.ofConfigurations, List.flatMap_nil, List.append_nil]
    exact runs_done names
  | @cons index c indices cs hc _ ih =>
    rw [List.flatMap_cons, ← List.append_assoc] at hnew
    have hfirst := runs_readInterfaceNames (ε := ε) hopen hfit c c.alternates names
      (List.nodup_append.1 hnew).1
    refine (runs_readConfiguration hopen hc).attempt.bind ?_
    rw [← c.map_fst_interfaces] at hfirst
    refine hfirst.bind ?_
    rw [Names.ofConfigurations, List.flatMap_cons, ← List.append_assoc, c.map_fst_interfaces]
    exact ih (names ++ .ofConfiguration a.device.givenName c)
      (by simpa [Names.ofConfiguration, Function.comp_def] using hnew)

/-- With an interface claimed, the table has every name. -/
theorem runs_readNames_claimed {count : UInt8} (hopen : a.device.checkOpen = .ok ())
    (hfit : a.device.TextsFit) (h : List.Forall₂ a.device.Holds (configurationIndices count) cs)
    (hdistinct : KeysDistinct cs) (number : UInt8) :
    Runs (readNames count : Dialogue Query.Answer ε Names)
      { a with device := a.device.claimedAs number }
      (.done (.ofConfigurations a.device.storedName cs))
      { a with device := a.device.claimedAs number } := by
  have hclaimed : (a.device.claimedAs number).checkOpen = .ok () := hopen
  have hholds : List.Forall₂ (a.device.claimedAs number).Holds (configurationIndices count) cs :=
    h.imp fun _ _ hc => ⟨hc.bytes, hc.wellFormed, hc.length_le⟩
  have hread := @runs_readNamesOf ε { a with device := a.device.claimedAs number } _ _ hclaimed hfit
    hholds [] hdistinct
  rw [List.nil_append, Simulator.givenName_claimedAs] at hread
  exact hread

/-- Settings that are named as far as the device gives names are named in full. -/
theorem runs_completeNames {count : UInt8} (hopen : a.device.checkOpen = .ok ())
    (hfit : a.device.TextsFit) (h : List.Forall₂ a.device.Holds (configurationIndices count) cs)
    (hdistinct : KeysDistinct cs) :
    ∃ claimed, Runs
      (completeNames count ((AltSetting.ofConfigurations cs).map (·.named a.device.givenName))) a
      (.done ((AltSetting.ofConfigurations cs).map (·.named a.device.storedName)))
      { a with device := { a.device with claimed := claimed } } := by
  have hpart := a.device.namesPartly_givenName
  have hzero := a.device.storedName_zero
  have hnames := fun s => Names.get?_ofConfigurations a.device.storedName (s := s) hdistinct
  generalize AltSetting.ofConfigurations cs = settings at hnames
  -- the names are read again just if one is missing, and then with an interface claimed
  by_cases hneeds : (settings.map (·.named a.device.givenName)).any AltSetting.needsName
  · cases settings with
    | nil => cases hneeds
    | cons first rest =>
      refine ⟨some first.interface, ?_⟩
      rw [← fillNames_named hpart hzero hnames]
      rw [List.map_cons] at hneeds ⊢
      rw [completeNames, if_pos hneeds]
      refine (runs_claimAlternate hopen _ _ _).attempt.bind ?_
      exact (runs_readNames_claimed hopen hfit h hdistinct _).bind (runs_done _)
  · refine ⟨a.device.claimed, ?_⟩
    rw [← map_named_of_none_needsName hpart hzero hneeds]
    cases settings with
    | nil => exact runs_done []
    | cons first rest =>
      rw [List.map_cons] at hneeds ⊢
      rw [completeNames, if_neg hneeds]
      exact runs_done _

end Naming

/-! ## Discovery -/

namespace Bench.Simulator

/-- What the device says of itself is this descriptor and these configurations, and it can say it. -/
structure Describes (s : Simulator) (d : DeviceDescriptor) (cs : List Configuration) : Prop where
  descriptor : DeviceDescriptor.decode s.deviceDescriptor = .ok d
  numConfigurations : d.numConfigurations.toNat = cs.length
  configurations : s.configurations = cs.map Configuration.encode
  wellFormed : ∀ c ∈ cs, c.WellFormed
  length_le : ∀ c ∈ cs, c.encode.length ≤ 65535
  textsFit : s.TextsFit
  keysDistinct : KeysDistinct cs

/-- The device, answering for its names only when an interface is claimed, or always. -/
def guarding (s : Simulator) (needClaim : Bool) : Simulator :=
  { s with stringsNeedClaim := needClaim }

/-- The settings for upgrades, each with the name that the device stores for it. -/
def settings (s : Simulator) (cs : List Configuration) : List AltSetting :=
  settingsOf s.storedName cs

variable {s : Simulator} {d : DeviceDescriptor} {cs : List Configuration}

/-- What a device says does not depend on whether it is open, claimed or guarded. -/
theorem Describes.anyway (h : s.Describes d cs) (isOpen : Bool) (claimed : Option UInt8)
    (needClaim : Bool) :
    { s with isOpen := isOpen, claimed := claimed, stringsNeedClaim := needClaim }.Describes d cs :=
  ⟨h.descriptor, h.numConfigurations, h.configurations, h.wellFormed, h.length_le, h.textsFit,
    h.keysDistinct⟩

theorem Describes.forall₂_holds (h : s.Describes d cs) :
    List.Forall₂ s.Holds (configurationIndices d.numConfigurations) cs := by
  have hlength : (configurationIndices d.numConfigurations).length = cs.length := by
    rw [configurationIndices, List.length_map, List.length_range, h.numConfigurations]
  refine List.forall₂_iff_get.2 ⟨hlength, fun i hi hc => ?_⟩
  have hmem := List.getElem_mem hc
  have hcount := d.numConfigurations.toNat_lt
  rw [h.numConfigurations] at hcount
  have hindex : ((configurationIndices d.numConfigurations).get ⟨i, hi⟩).toNat = i := by
    simp only [configurationIndices, List.get_eq_getElem, List.getElem_map, List.getElem_range,
      UInt8.toNat_ofNat']
    omega
  refine ⟨?_, h.wellFormed _ hmem, h.length_le _ hmem⟩
  rw [hindex, h.configurations, List.getElem?_map, List.getElem?_eq_getElem hc]
  rfl

end Bench.Simulator

section Discover

variable {a : Scene} {d : DeviceDescriptor} {cs : List Configuration}

theorem runs_readDevice (hopen : a.device.checkOpen = .ok ()) (h : a.device.Describes d cs) :
    ∃ claimed, Runs Device.read a (.done ⟨d, cs, a.device.settings cs⟩)
      { a with device := { a.device with claimed := claimed } } := by
  obtain ⟨claimed, hnames⟩ :=
    runs_completeNames hopen h.textsFit h.forall₂_holds h.keysDistinct
  rw [map_named_ofConfigurations a.device.storedName] at hnames
  refine ⟨claimed, (runs_readDeviceDescriptor hopen h.descriptor).bind ?_⟩
  refine (runs_readConfigurations hopen h.forall₂_holds).bind ?_
  refine (runs_nameSettings hopen h.textsFit _).bind ?_
  exact hnames.bind (runs_done _)

/-- Discovery leaves the device closed. -/
theorem runs_discover (hc : a.device.connected = true) (h : a.device.Describes d cs) :
    Runs Device.discover a
      (.done (if (a.device.settings cs).isEmpty then none else some ⟨d, cs, a.device.settings cs⟩))
      { a with device := a.device.close } := by
  have hopened : a.device.opened.Describes d cs := h.anyway true _ _
  obtain ⟨claimed, hread⟩ := @runs_readDevice { a with device := a.device.opened } _ _
    (Simulator.checkOpen_eq hc rfl) hopened
  refine (runs_openDevice hc).bind (hread.attempt.bind (runs_close.bind ?_))
  exact (runs_done _).bind (runs_done _)

end Discover

/-- Discovery of a connected device with settings for upgrades gives its descriptor, its configurations
and those settings, each with the name that is stored for it, and leaves it closed. Whether the device
answers for its names only when an interface is claimed makes no difference. -/
theorem discover_simulator {s : Simulator} {d : DeviceDescriptor} {cs : List Configuration}
    (hconnected : s.connected = true) (h : s.Describes d cs)
    (hsetting : ∃ c ∈ cs, ∃ i ∈ c.alternates, i.IsSetting) (needClaim : Bool)
    (w : SingleBoard)
    (hw : w.board = { model := .simulator (s.guarding needClaim), budget := none }) :
    ∃ w', SingleBoard.run Device.discover w = (.done (some ⟨d, cs, s.settings cs⟩), w') ∧
      w'.board = { model := .simulator (s.guarding needClaim).close, budget := none } := by
  have hdescribes : (s.guarding needClaim).Describes d cs := h.anyway _ _ needClaim
  have hsettings : (s.guarding needClaim).settings cs = s.settings cs := rfl
  obtain ⟨c, hc, i, hi, hof⟩ := hsetting
  have hsome : c.settingOf s.storedName i ∈ s.settings cs :=
    List.mem_flatMap.2 ⟨c, hc, List.mem_map_of_mem (List.mem_filter.2 ⟨hi, decide_eq_true hof⟩)⟩
  have hne : (s.settings cs).isEmpty = false :=
    List.isEmpty_eq_false_iff.2 (List.ne_nil_of_mem hsome)
  have hrun := @runs_discover (.ofBoard (s.guarding needClaim) w) _ _ hconnected hdescribes
  rw [show (Scene.ofBoard (s.guarding needClaim) w).device.settings cs = s.settings cs from hsettings,
    hne] at hrun
  obtain ⟨w', hrun, hw'⟩ := hrun w (Scene.on_ofBoard hw)
  exact ⟨w', hrun, hw'.board⟩

/-- A loader that has a keyboard beside it, and a name with a character beyond 16 bits. -/
def clefLoader : Simulator :=
  { Simulator.withoutFunctional with
    configurations := [Configuration.twoMeanings.encode]
    strings := [(2, "Loader"), (4, "Flash 𝄞")] }

/-- It refuses the name at first, and gives it when its interface is claimed. -/
theorem discover_simulator_clefLoader : ∃ w',
    SingleBoard.run Device.discover
      (.ofBoard { model := .simulator (clefLoader.guarding true), budget := none }) =
      (.done (some ⟨Simulator.descriptor, [.twoMeanings], [⟨1, 1, 0, .upgrade, 4, some "Flash 𝄞"⟩]⟩),
        w') ∧
      w'.board = { model := .simulator (clefLoader.guarding true).close, budget := none } := by
  have hdescribes : clefLoader.Describes Simulator.descriptor [.twoMeanings] :=
    { descriptor := by decide
      numConfigurations := rfl
      configurations := rfl
      wellFormed := by decide
      length_le := by decide
      textsFit := Simulator.textsFit_of_forall_mem (by decide)
      keysDistinct := by decide }
  have hsettings : clefLoader.settings [.twoMeanings] =
      [⟨1, 1, 0, .upgrade, 4, some "Flash 𝄞"⟩] := by
    decide
  rw [← hsettings]
  exact discover_simulator rfl hdescribes (by decide) true _ rfl

end UsbDfu
