import UsbDfu.Bench.Bus
import UsbDfu.Proofs.Layers

/-!
# Which devices are worked on

A host that looks for a device to upgrade asks the bus what there is, leaves out what is not meant, opens
each of the rest to read it, and then works on the one that there is. Each device has its say alone: what
it does decides whether it is reported, and nothing else does.

- `DeviceFilter.Wants f info`: the device is meant, by all that can be told before it is opened.
- `Look`: what became of one device that was looked at; `Look.talk` is all that was asked for it, and
  `Look.found?` what is reported.
- `Host.trace_discoverAll_iff`: the conversations of a search are the talks of any looks that the devices
  allow, one after another, and the report is what they found.
- `devices_selected`: the same for a whole listing, and what a connection does with the report.
-/

namespace UsbDfu

open Dialogue

/-! ## Devices that are meant -/

/-- The device has all that the filter asks for, and an interface of the DFU class. -/
structure DeviceFilter.Wants (f : DeviceFilter) (info : DeviceInfo) : Prop where
  vendor : ∀ id, f.vendorId = some id → info.vendorId = id
  product : ∀ id, f.productId = some id → info.productId = id
  serial : ∀ text, f.serialNumber = some text → info.serialNumber = some text
  interface : (0xfe, 0x01) ∈ info.interfaces

theorem DeviceFilter.admits_iff {f : DeviceFilter} {vendorId productId : UInt16}
    {serialNumber : Option String} :
    f.admits vendorId productId serialNumber = true ↔
      (∀ id, f.vendorId = some id → vendorId = id) ∧ (∀ id, f.productId = some id → productId = id) ∧
        ∀ text, f.serialNumber = some text → serialNumber = some text := by
  obtain ⟨vendor?, product?, serial?⟩ := f
  simp only [admits, Bool.and_eq_true, Option.all_eq_true, beq_iff_eq, and_assoc, @eq_comm _ vendorId,
    @eq_comm _ productId]

theorem Host.isDfuDevice_iff {info : DeviceInfo} :
    isDfuDevice info = true ↔ (0xfe, 0x01) ∈ info.interfaces := by
  rw [isDfuDevice, List.any_eq_true]
  constructor
  · rintro ⟨⟨cls, sub⟩, hmem, hdfu⟩
    obtain ⟨rfl, rfl⟩ : cls = Descriptor.dfuClass ∧ sub = Descriptor.dfuSubclass := by
      simpa using hdfu
    exact hmem
  · exact fun hmem => ⟨_, hmem, by decide⟩

theorem DeviceFilter.wants_iff {f : DeviceFilter} {info : DeviceInfo} :
    f.Wants info ↔ (f.admits info.vendorId info.productId info.serialNumber &&
      Host.isDfuDevice info) = true := by
  rw [Bool.and_eq_true, admits_iff, Host.isDfuDevice_iff]
  constructor
  · rintro ⟨hvendor, hproduct, hserial, hinterface⟩
    exact ⟨⟨hvendor, hproduct, hserial⟩, hinterface⟩
  · rintro ⟨⟨hvendor, hproduct, hserial⟩, hinterface⟩
    exact ⟨hvendor, hproduct, hserial, hinterface⟩

instance (f : DeviceFilter) (info : DeviceInfo) : Decidable (f.Wants info) :=
  decidable_of_iff _ DeviceFilter.wants_iff.symm

theorem Host.candidates_eq (f : DeviceFilter) (infos : List DeviceInfo) :
    candidates f infos = infos.filter (f.Wants ·) := by
  refine List.filter_congr fun info _ => ?_
  rw [Bool.eq_iff_iff, ← DeviceFilter.wants_iff, decide_eq_true_iff]

/-! ## One device -/

theorem Device.ends_discover : Device.discover.Ends := by
  have hopen : Exchange.openDevice.Ends := fun _ => ends_ofExcept _
  refine hopen.bind fun _ => Device.errand_read.ends.attempt.bind fun r => ?_
  exact fun _ => (ends_ofExcept r).bind fun _ => trivial

/-- A device cannot be opened, or it is read and closed again; it is reported if it has a setting for
upgrades. -/
theorem Device.trace_discover {ts : List (Turn Query.Answer)} {o : Outcome Failure (Option Device)}
    (h : Trace Device.discover ts o) :
    (∃ e, ts = [⟨.call .openDevice, .error e⟩] ∧ o = .failed (.transport e)) ∨
      ∃ reading r, Trace Device.read reading (.ofExcept r) ∧
        ts = ⟨.call .openDevice, .ok ()⟩ :: (reading ++ [⟨.call .close, ()⟩]) ∧
        o = .ofExcept (r.map fun device => if device.settings = [] then none else some device) := by
  obtain ⟨answer, rest, rfl, hrest⟩ := trace_ask_iff.1 h
  cases answer with
  | error e =>
    obtain ⟨rfl, rfl⟩ := trace_fail_iff.1 hrest
    exact .inl ⟨e, rfl, rfl⟩
  | ok u =>
    obtain ⟨r, reading, t, hread, hclose, rfl⟩ :=
      (trace_attempt_bind_iff Device.errand_read.ends).1 hrest
    obtain ⟨_, t, rfl, hend⟩ := trace_ask_iff.1 hclose
    obtain ⟨r', hr, rfl⟩ := trace_bind_pure_iff.1 hend
    obtain ⟨rfl, rfl⟩ := trace_ofExcept_iff.1 hr
    refine .inr ⟨reading, r, hread, rfl, ?_⟩
    cases r with
    | error e => rfl
    | ok device => simp [Outcome.map, Except.map, List.isEmpty_iff]

/-! ## One look after another -/

/-- What became of a device that was looked at. -/
structure Look where
  info : DeviceInfo
  channel : Host.ChannelId
  turns : List (Turn Query.Answer)
  result : Except Failure (Option Device)

namespace Look

/-- Discovery can go so on the device. -/
def Possible (look : Look) : Prop :=
  Trace Device.discover look.turns (.ofExcept look.result)

/-- What the log says of a device that is left out. -/
def words (look : Look) : List (Turn Host.Query.Answer) :=
  match look.result with
  | .ok _ => []
  | .error e => [⟨.log ⟨.warn, s!"Skipping {look.info.describe}: {e.message}"⟩, ()⟩]

/-- All that is asked for the device. -/
def talk (look : Look) : List (Turn Host.Query.Answer) :=
  ⟨.attach look.info, look.channel⟩ :: (look.turns.map (Host.onTurn look.channel) ++ look.words)

/-- What is reported of the device. -/
def found? (look : Look) : Option Host.Found :=
  match look.result with
  | .ok (some device) => some ⟨look.channel, look.info, device⟩
  | _ => none

/-- For a device questions are asked on its channel only. -/
theorem channel_of_mem_talk {look : Look} {t : Turn Host.Query.Answer} (ht : t ∈ look.talk)
    {p : Host.ChannelId} {q : Query} (hq : t.question = .on p q) : p = look.channel := by
  rcases List.mem_cons.1 ht with rfl | ht
  · cases hq
  rcases List.mem_append.1 ht with ht | ht
  · obtain ⟨t, -, rfl⟩ := List.mem_map.1 ht
    cases hq
    rfl
  · obtain ⟨info, channel, turns, result⟩ := look
    cases result with
    | ok device? => cases ht
    | error e =>
      obtain rfl := List.mem_singleton.1 ht
      cases hq

end Look

namespace Host

variable {ε : Type} {info : DeviceInfo} {rest : List DeviceInfo} {ts : List (Turn Query.Answer)}

theorem ends_onChannel {p : ChannelId} {α : Type} {d : Dialogue UsbDfu.Query.Answer ε α} (hd : d.Ends) :
    (onChannel p d).Ends := by
  induction d with
  | done | fail => trivial
  | exhausted => cases hd
  | ask q next ih => exact fun answer => ih _ (hd answer)

/-- A device is looked at, whatever comes of it, and then the rest of them. -/
theorem trace_discoverAll_cons_iff {o : Outcome ε (List Found)} :
    Trace (discoverAll (info :: rest)) ts o ↔ ∃ (look : Look) (t : List (Turn Query.Answer))
      (found : Outcome ε (List Found)), look.info = info ∧ look.Possible ∧
        Trace (discoverAll rest) t found ∧ ts = look.talk ++ t ∧
        o = found.map (look.found?.toList ++ ·) := by
  have hends : ∀ p, (onChannel p Device.discover).Ends := fun p => ends_onChannel Device.ends_discover
  constructor
  · intro h
    obtain ⟨p, t, rfl, hlook⟩ := trace_ask_iff.1 h
    obtain ⟨r, t₁, t₂, hdiscover, hrest, rfl⟩ := (trace_attempt_bind_iff (hends p)).1 hlook
    obtain ⟨turns, hpossible, rfl⟩ := trace_onChannel_iff.1 hdiscover
    -- neither a device that fails nor one without a setting ends the search
    match r with
    | .ok (some device) =>
      obtain ⟨found, hfound, rfl⟩ := trace_bind_pure_iff.1 hrest
      exact ⟨⟨info, p, turns, _⟩, t₂, found, rfl, hpossible, hfound, by simp [Look.talk, Look.words], rfl⟩
    | .ok none =>
      refine ⟨⟨info, p, turns, _⟩, t₂, o, rfl, hpossible, hrest, by simp [Look.talk, Look.words], ?_⟩
      cases o <;> rfl
    | .error e =>
      obtain ⟨⟨⟩, t₂, rfl, hnext⟩ := trace_ask_iff.1 hrest
      refine ⟨⟨info, p, turns, _⟩, t₂, o, rfl, hpossible, hnext, by simp [Look.talk, Look.words], ?_⟩
      cases o <;> rfl
  · rintro ⟨⟨info, p, turns, r⟩, t, found, rfl, hpossible, hrest, rfl, rfl⟩
    refine trace_ask_iff.2 ⟨p, _, rfl, (trace_attempt_bind_iff (hends p)).2 ⟨r, _, _,
      trace_onChannel_iff.2 ⟨turns, hpossible, rfl⟩, ?_, List.append_assoc _ _ _⟩⟩
    match r with
    | .ok (some device) => exact trace_bind_pure_iff.2 ⟨found, hrest, rfl⟩
    | .ok none => cases found <;> exact hrest
    | .error e => exact trace_ask_iff.2 ⟨(), t, rfl, by cases found <;> exact hrest⟩

/-- The devices are looked at one after another, each has its say alone, and what they found is
reported. -/
theorem trace_discoverAll_iff {infos : List DeviceInfo} {o : Outcome ε (List Found)} :
    Trace (discoverAll infos) ts o ↔ ∃ looks : List Look, looks.map Look.info = infos ∧
      (∀ look ∈ looks, look.Possible) ∧ ts = looks.flatMap Look.talk ∧
      o = .done (looks.filterMap Look.found?) := by
  induction infos generalizing ts o with
  | nil =>
    constructor
    · intro h
      obtain ⟨rfl, rfl⟩ := trace_done_iff.1 h
      exact ⟨[], rfl, List.forall_mem_nil _, rfl, rfl⟩
    · rintro ⟨looks, hnil, -, rfl, rfl⟩
      obtain rfl := List.map_eq_nil_iff.1 hnil
      exact trace_done_iff.2 ⟨rfl, rfl⟩
  | cons info rest ih =>
    rw [trace_discoverAll_cons_iff]
    constructor
    · rintro ⟨look, t, found, rfl, hpossible, hrest, rfl, rfl⟩
      obtain ⟨looks, rfl, hlooks, rfl, rfl⟩ := ih.1 hrest
      refine ⟨look :: looks, rfl, List.forall_mem_cons.2 ⟨hpossible, hlooks⟩, rfl, ?_⟩
      cases hfound : look.found? <;> simp [Outcome.map, hfound]
    · rintro ⟨looks, hinfos, hlooks, rfl, rfl⟩
      obtain ⟨look, looks, rfl, rfl, rfl⟩ := List.map_eq_cons_iff.1 hinfos
      obtain ⟨hpossible, hlooks⟩ := List.forall_mem_cons.1 hlooks
      refine ⟨look, _, _, rfl, hpossible, ih.2 ⟨looks, rfl, hlooks, rfl, rfl⟩, rfl, ?_⟩
      cases hfound : look.found? <;> simp [Outcome.map, hfound]

/-- The devices of a listing that are meant were looked at in its order, each as it allows. -/
structure Looked (filter : DeviceFilter) (infos : List DeviceInfo) (looks : List Look) : Prop where
  wanted : looks.map Look.info = infos.filter (filter.Wants ·)
  possible : ∀ look ∈ looks, look.Possible

/-- One of the devices may as well do anything else that it can do. -/
theorem Looked.replace {filter : DeviceFilter} {infos : List DeviceInfo} {before after : List Look}
    {look look' : Look} (h : Looked filter infos (before ++ look :: after))
    (hinfo : look'.info = look.info) (hpossible : look'.Possible) :
    Looked filter infos (before ++ look' :: after) where
  wanted := by simpa [hinfo] using h.wanted
  possible other hother := by
    rcases List.mem_append.1 hother with hmem | hmem
    · exact h.possible other (List.mem_append_left _ hmem)
    · rcases List.mem_cons.1 hmem with rfl | hmem
      · exact hpossible
      · exact h.possible other (List.mem_append_right _ (List.mem_cons_of_mem _ hmem))

/-- A listing that fails is the end of it; otherwise the devices that are meant are looked at. -/
theorem trace_findDevices_iff {filter : DeviceFilter} {o : Outcome Failure (List Found)} :
    Trace (findDevices filter) ts o ↔
      (∃ e, ts = [⟨.devices, .error e⟩] ∧ o = .failed (.transport (.ofUsb e))) ∨
      ∃ infos looks, Looked filter infos looks ∧
        ts = ⟨.devices, .ok infos⟩ :: looks.flatMap Look.talk ∧
        o = .done (looks.filterMap Look.found?) := by
  constructor
  · intro h
    obtain ⟨answer, rest, rfl, hrest⟩ := trace_ask_iff.1 h
    cases answer with
    | error e =>
      obtain ⟨rfl, rfl⟩ := trace_fail_iff.1 hrest
      exact .inl ⟨e, rfl, rfl⟩
    | ok infos =>
      obtain ⟨looks, hlooks, hpossible, rfl, rfl⟩ := trace_discoverAll_iff.1 hrest
      exact .inr ⟨infos, looks, ⟨hlooks.trans (candidates_eq filter infos), hpossible⟩, rfl, rfl⟩
  · rintro (⟨e, rfl, rfl⟩ | ⟨infos, looks, hlooked, rfl, rfl⟩)
    · exact .ask _ (.fail _)
    · exact .ask _ (trace_discoverAll_iff.2
        ⟨looks, hlooked.wanted.trans (candidates_eq filter infos).symm, hlooked.possible, rfl, rfl⟩)

/-- Nothing is asked but of devices that are meant: the channel of each question was attached to one. -/
theorem wants_of_asked {filter : DeviceFilter} {o : Outcome Failure (List Found)}
    (h : Trace (findDevices filter) ts o) {t : Turn Query.Answer} (ht : t ∈ ts) {p : ChannelId}
    {q : UsbDfu.Query} (hq : t.question = .on p q) :
    ∃ infos info, ⟨.devices, .ok infos⟩ ∈ ts ∧ info ∈ infos ∧ filter.Wants info ∧
      ⟨.attach info, p⟩ ∈ ts := by
  rcases trace_findDevices_iff.1 h with ⟨e, rfl, -⟩ | ⟨infos, looks, hlooked, rfl, -⟩
  · obtain rfl := List.mem_singleton.1 ht
    cases hq
  · rcases List.mem_cons.1 ht with rfl | ht
    · cases hq
    obtain ⟨look, hlook, ht⟩ := List.mem_flatMap.1 ht
    obtain rfl := Look.channel_of_mem_talk ht hq
    have hinfo : look.info ∈ looks.map Look.info := List.mem_map_of_mem hlook
    obtain ⟨hmem, hwants⟩ := List.mem_filter.1 (hlooked.wanted ▸ hinfo)
    have hattach : ⟨.attach look.info, look.channel⟩ ∈ looks.flatMap Look.talk :=
      List.mem_flatMap.2 ⟨look, hlook, List.mem_cons_self⟩
    exact ⟨infos, look.info, List.mem_cons_self, hmem, of_decide_eq_true hwants,
      List.mem_cons_of_mem _ hattach⟩

/-! ## Connecting -/

/-- One device is connected to, on its channel; with none of them, or with more, nothing more is asked. -/
theorem trace_connectOnly_iff {filter : DeviceFilter} {options : SessionOptions}
    {o : Outcome Failure Connected} :
    Trace (connectOnly filter options) ts o ↔
      (∃ e, Trace (findDevices filter) ts (.failed e) ∧ o = .failed e) ∨
      (Trace (findDevices filter) ts (.done []) ∧ o = .failed (.configuration .noDevice)) ∨
      (∃ found, 2 ≤ found.length ∧ Trace (findDevices filter) ts (.done found) ∧
        o = .failed (.configuration (.manyDevices found.length))) ∨
      ∃ only t₁ t₂ r, Trace (findDevices filter) t₁ (.done [only]) ∧
        Trace (Session.connect only.info.id only.device options) t₂ r ∧
        ts = t₁ ++ t₂.map (onTurn only.channel) ∧ o = r.map (⟨only.channel, only.info, ·⟩) := by
  constructor
  · intro h
    rcases trace_bind_iff.1 h with ⟨found, t₁, t₂, hfind, hrest, rfl⟩ | ⟨e, hfind, rfl⟩ | ⟨hfind, rfl⟩
    · match found with
      | [] =>
        obtain ⟨rfl, rfl⟩ := trace_fail_iff.1 hrest
        exact .inr (.inl ⟨by rwa [List.append_nil], rfl⟩)
      | [only] =>
        obtain ⟨r, hsession, rfl⟩ := trace_bind_pure_iff.1 hrest
        obtain ⟨t, hconnect, rfl⟩ := trace_onChannel_iff.1 hsession
        exact .inr (.inr (.inr ⟨only, t₁, t, r, hfind, hconnect, rfl, rfl⟩))
      | first :: second :: others =>
        obtain ⟨rfl, rfl⟩ := trace_fail_iff.1 hrest
        refine .inr (.inr (.inl ⟨_, ?_, by rwa [List.append_nil], rfl⟩))
        simp
    · exact .inl ⟨e, hfind, rfl⟩
    -- a search has no wait in it, so it is never out of patience
    · rcases trace_findDevices_iff.1 hfind with ⟨e, -, ho⟩ | ⟨infos, looks, -, -, ho⟩ <;> cases ho
  · rintro (⟨e, hfind, rfl⟩ | ⟨hfind, rfl⟩ | ⟨found, hmany, hfind, rfl⟩ |
      ⟨only, t₁, t₂, r, hfind, hconnect, rfl, rfl⟩)
    · exact trace_bind_iff.2 (.inr (.inl ⟨e, hfind, rfl⟩))
    · exact trace_bind_iff.2 (.inl ⟨[], ts, [], hfind, .fail _, (List.append_nil ts).symm⟩)
    · match found with
      | first :: second :: others =>
        exact trace_bind_iff.2 (.inl ⟨_, ts, [], hfind, .fail _, (List.append_nil ts).symm⟩)
    · exact trace_bind_iff.2 (.inl ⟨[only], t₁, _, hfind, trace_bind_pure_iff.2
        ⟨r, trace_onChannel_iff.2 ⟨t₂, hconnect, rfl⟩, rfl⟩, rfl⟩)

end Host

/-- Connecting opens the device before anything else, unless there is no telling which of its settings is
meant. -/
theorem Session.trace_connect {id : DeviceId} {device : Device} {options : SessionOptions}
    {ts : List (Turn Query.Answer)} {o : Outcome Failure Session}
    (h : Trace (connect id device options) ts o) :
    (∃ e, device.select options.token = .error e ∧ ts = [] ∧ o = .failed (.configuration e)) ∨
      ∃ answer rest, ts = ⟨.call .openDevice, answer⟩ :: rest := by
  unfold connect at h
  cases hselect : device.select options.token with
  | error e =>
    rw [hselect] at h
    obtain ⟨rfl, rfl⟩ := trace_fail_iff.1 h
    exact .inl ⟨e, rfl, rfl, rfl⟩
  | ok setting =>
    rw [hselect] at h
    obtain ⟨answer, rest, rfl, -⟩ := trace_ask_iff.1 h
    exact .inr ⟨answer, rest, rfl⟩

/-! ## The selection -/

/-- Whatever the bus lists and whatever each device does. A search looks at the devices that the filter
asks for and that have an interface of the DFU class, in bus order, and asks nothing of any other; it
reports those that could be read and have a setting for upgrades. One of them may do anything else that it
can do, and the others are reported as before. A connection fails without another word if none was found,
or more than one; else it speaks with the one that was found, and first of all opens it, unless there is
no telling which of its settings is meant. -/
theorem devices_selected (filter : DeviceFilter) :
    (∀ ts o, Trace (Host.findDevices filter) ts o ↔
      (∃ e, ts = [⟨.devices, .error e⟩] ∧ o = .failed (.transport (.ofUsb e))) ∨
      ∃ infos looks, Host.Looked filter infos looks ∧
        ts = ⟨.devices, .ok infos⟩ :: looks.flatMap Look.talk ∧
        o = .done (looks.filterMap Look.found?)) ∧
    (∀ infos before look look' after, Host.Looked filter infos (before ++ look :: after) →
      look'.info = look.info → look'.Possible → Host.Looked filter infos (before ++ look' :: after)) ∧
    (∀ ts o, Trace Device.discover ts o →
      (∃ e, ts = [⟨.call .openDevice, .error e⟩] ∧ o = .failed (.transport e)) ∨
      ∃ reading r, Trace Device.read reading (.ofExcept r) ∧
        ts = ⟨.call .openDevice, .ok ()⟩ :: (reading ++ [⟨.call .close, ()⟩]) ∧
        o = .ofExcept (r.map fun device => if device.settings = [] then none else some device)) ∧
    (∀ ts o, Trace (Host.findDevices filter) ts o → ∀ t ∈ ts, ∀ p q, t.question = .on p q →
      ∃ infos info, ⟨.devices, .ok infos⟩ ∈ ts ∧ info ∈ infos ∧ filter.Wants info ∧
        ⟨.attach info, p⟩ ∈ ts) ∧
    (∀ options ts o, Trace (Host.connectOnly filter options) ts o ↔
      (∃ e, Trace (Host.findDevices filter) ts (.failed e) ∧ o = .failed e) ∨
      (Trace (Host.findDevices filter) ts (.done []) ∧ o = .failed (.configuration .noDevice)) ∨
      (∃ found, 2 ≤ found.length ∧ Trace (Host.findDevices filter) ts (.done found) ∧
        o = .failed (.configuration (.manyDevices found.length))) ∨
      ∃ only t₁ t₂ r, Trace (Host.findDevices filter) t₁ (.done [only]) ∧
        Trace (Session.connect only.info.id only.device options) t₂ r ∧
        ts = t₁ ++ t₂.map (Host.onTurn only.channel) ∧ o = r.map (⟨only.channel, only.info, ·⟩)) ∧
    ∀ id device options ts o, Trace (Session.connect id device options) ts o →
      (∃ e, device.select options.token = .error e ∧ ts = [] ∧ o = .failed (.configuration e)) ∨
        ∃ answer rest, ts = ⟨.call .openDevice, answer⟩ :: rest :=
  ⟨fun _ _ => Host.trace_findDevices_iff, fun _ _ _ _ _ hlooked => hlooked.replace,
    fun _ _ => Device.trace_discover, fun _ _ h _ ht _ _ => Host.wants_of_asked h ht,
    fun _ _ _ => Host.trace_connectOnly_iff, fun _ _ _ _ _ => Session.trace_connect⟩

/-- A bus with a loader that cannot be opened, a keyboard, and a loader. -/
def crowdedBus : Bench.Bus :=
  .new
    [.new ⟨6, 0x0483, 0xdf11, "1", 1, none, none, [(0xfe, 1)]⟩ (some 1)
        { model := .simulator { Bench.Simulator.plain 5 64 with id := 6, connected := false },
          budget := none },
      .new ⟨8, 0x046d, 0xc31c, "1", 2, none, none, [(3, 1)]⟩ (some 1)
        { model := .simulator { Bench.Simulator.plain 5 64 with id := 8 }, budget := none },
      .new ⟨7, 0x0483, 0xdf11, "1", 3, none, none, [(3, 1), (0xfe, 1)]⟩ (some 1)
        { model := .simulator (.plain 5 64), budget := none }] [] none

/-- The last one is found, and what is asked is asked of the loaders. -/
theorem devices_selected_crowded :
    let conversation := transcript Bench.Bus.serve (Host.findDevices .any) crowdedBus
    (∃ found, conversation.2 = .done found ∧ found.map (·.info.id) = [7]) ∧
    ∀ t ∈ conversation.1, ∀ p q, t.question = .on p q →
      ∃ infos info, ⟨.devices, .ok infos⟩ ∈ conversation.1 ∧ info ∈ infos ∧
        DeviceFilter.any.Wants info ∧ ⟨.attach info, p⟩ ∈ conversation.1 := by
  intro conversation
  obtain ⟨-, -, -, hasked, -⟩ := devices_selected .any
  refine ⟨Outcome.map_eq_done_iff.1 ?_, hasked _ _ (trace_transcript _ _ _)⟩
  decide +kernel

end UsbDfu
