import WirelessBridge.Bridge.Payload
import WirelessBridge.Bridge.Unreadable

/-!
# Devices that share a message

Each entry of the table handles a message on its own, unless an entry before it has ended the
event. When the handling over a table is put together from its parts, and when not.
-/

namespace WBridge

open Lib HBE System Mqtt

/-- Over the tables `A` and `B` in one, a message sets what it sets over `A` and then what it sets
over `B`, and leaves every block as the table with the device leaves it. The passes for `B` read
the clock where it is after those for `A`. -/
structure Local (s : Bridge) (A B : GwtTable) (clk : ℕ → ℤ) (topic msg : Str) : Prop where
  settings : settings (s.handle (A ++ B) topic msg clk)
    = settings (s.handle A topic msg clk)
      ++ settings (s.handle B topic msg fun n => clk (A.length + n))
  blocks_left : ∀ name ∈ A.map (·.devName),
    (s.performAll (s.handle (A ++ B) topic msg clk).effects).deviceItems name
      = (s.performAll (s.handle A topic msg clk).effects).deviceItems name
  blocks_right : ∀ name ∉ A.map (·.devName),
    (s.performAll (s.handle (A ++ B) topic msg clk).effects).deviceItems name
      = (s.performAll
          (s.handle B topic msg fun n => clk (A.length + n)).effects).deviceItems name

/-- The message leaves no mark over the table: nothing is set, and every block is as before. On an
output topic it comes first to a mapped channel that has no use for it. As an input it ends the
event at the first channel of its device, whose block was already what a reset makes it. -/
def Unmarked (s : Bridge) (topic msg : Str) : GwtTable → (ℕ → ℤ) → Prop
  | [], _ => True
  | r :: rest, clk =>
    if topic = r.inputMqttTopic then
      if s.known r.devName = true then
        ((parseIncomingTopic msg 44).length = r.inputMapping.length ∧
          ∃ c ∈ r.inputMapping.head?, readable (parseIncomingTopic msg 44) c = false) ∧
        s.deviceItems r.devName = some ⟨0, clk 0 + seconds r.nodeTimeoutInSec⟩
      else Unmarked s topic msg rest fun n => clk (n + 1)
    else
      (r.outputMqttTopic ≠ [] → ∀ c ∈ r.outputMapping.find? fun c => topic = c.mqttTopic,
        c.Mapped ∧ ∀ m ∈ c.valueMapping, msg ≠ m.2) ∧
      Unmarked s topic msg rest fun n => clk (n + 1)

variable {s : Bridge} {A B : GwtTable} {clk : ℕ → ℤ} {topic msg : Str} {known : Str → Bool}
  {table : GwtTable} {r : RouterDeviceItem}

/-! ### A table without a mark -/

lemma outputSettings_eq_nil_iff :
    outputSettings r topic msg = [] ↔
      (r.outputMqttTopic ≠ [] → ∀ c ∈ r.outputMapping.find? fun c => topic = c.mqttTopic,
        c.Mapped ∧ ∀ m ∈ c.valueMapping, msg ≠ m.2) := by
  rw [outputSettings]
  split
  · rename_i hout
    rw [filterMap_upTo_eq_nil_iff fun c _ h => (outputSetting_eq_none_iff.mp h).1,
      List.head?_filter]
    simp only [outputSetting_eq_none_iff, hout, ne_eq, not_false_eq_true, true_implies]
  · rename_i hout
    simp [hout]

/-- When its fields cannot be read, an entry sets no value if already the first channel is the one
that cannot be read. -/
lemma inputSettings_eq_nil_iff (hread : ¬ FieldsReadable r msg) :
    inputSettings r msg = [] ↔
      (parseIncomingTopic msg 44).length = r.inputMapping.length ∧
        ∃ c ∈ r.inputMapping.head?, readable (parseIncomingTopic msg 44) c = false := by
  simp only [FieldsReadable, Classical.not_imp, not_forall, Bool.not_eq_true] at hread
  obtain ⟨hlen, c, hc, hnot⟩ := hread
  have hplain : ∀ c ∈ r.inputMapping, inputSetting (parseIncomingTopic msg 44) c = none →
      c.Mapped ∨ readable (parseIncomingTopic msg 44) c = false := by
    intro c _ hnone
    by_contra hneither
    obtain ⟨hmap, hread⟩ := not_or.mp hneither
    obtain ⟨v, hv⟩ := inputSetting_of_not_mapped hmap (by simpa using hread)
    simp [hv] at hnone
  rw [inputSettings, if_pos hlen, handled, filterMap_upTo_eq_nil_iff hplain]
  simp only [hlen, true_and]
  cases hcs : r.inputMapping with
  | nil => simp [hcs, upTo] at hc
  | cons c₀ rest =>
    simp only [List.head?_cons, Option.mem_some_iff, forall_eq', exists_eq_left']
    constructor
    · intro hnone
      -- A mapped channel at the front is the only one that is read.
      rcases hplain c₀ (hcs ▸ List.mem_cons_self) hnone with hmap | hread
      · rw [hcs, upTo_cons_of_pos hmap, List.mem_singleton] at hc
        rwa [← hc]
      · exact hread
    · exact inputSetting_of_not_readable

lemma settings_eq_nil_iff {p : Routine} (h : ∀ e ∈ p.effects, ∃ t m, e = .setTopic t m) :
    settings p = [] ↔ p.effects = [] := by
  rw [settings, List.filterMap_eq_nil_iff, List.eq_nil_iff_forall_not_mem]
  constructor
  · intro hnone e he
    obtain ⟨t, m, rfl⟩ := h e he
    exact absurd (hnone _ he) (by simp [Effect.setting?])
  · exact fun hnot e he => absurd he (hnot e)

/-! ### Blocks after a sequence of effects -/

lemma deviceItems_performAll_of_ne {es : List Effect} {name : Str}
    (h : ∀ e ∈ es, e.device? ≠ some name) :
    (s.performAll es).deviceItems name = s.deviceItems name := by
  rw [Bridge.deviceItems_performAll]
  simp only [DevServiceBlk.foldl_perform_of_device_ne h, Option.map_id']

lemma deviceItems_performAll_append_left {es es' : List Effect} {name : Str}
    (h : ∀ e ∈ es', e.device? ≠ some name) :
    (s.performAll (es ++ es')).deviceItems name = (s.performAll es).deviceItems name := by
  rw [Bridge.performAll_append]
  exact deviceItems_performAll_of_ne h

lemma deviceItems_performAll_append_right {es es' : List Effect} {name : Str}
    (h : ∀ e ∈ es, e.device? ≠ some name) :
    (s.performAll (es ++ es')).deviceItems name = (s.performAll es').deviceItems name := by
  rw [Bridge.deviceItems_performAll, Bridge.deviceItems_performAll]
  simp only [List.foldl_append, DevServiceBlk.foldl_perform_of_device_ne h]

lemma deviceItems_performAll_catchAndReport (func : String) (p : Routine) (name : Str) :
    (s.performAll (catchAndReport func p).effects).deviceItems name
      = (s.performAll p.effects).deviceItems name := by
  simp only [catchAndReport]
  split
  · apply deviceItems_performAll_append_left
    simp [Effect.device?]
  · rfl

lemma device_processTopicUpdate {name : Str} {e : Effect}
    (he : e ∈ (processTopicUpdate known topic msg table clk).effects)
    (hname : name ∉ table.map (·.devName)) : e.device? ≠ some name := by
  obtain ⟨n, r, hr, he⟩ := mem_processTopicUpdate he
  apply device_processDevice he
  rintro rfl
  exact hname (List.mem_map_of_mem (List.mem_of_getElem? hr))

/-- A pass that goes on after setting some outputs adds these to the mark of the rest. -/
lemma unmarked_cons {es : List Effect} {q : Routine} (h : ∀ e ∈ es, ∃ t m, e = .setTopic t m) :
    (settings ((⟨es, none⟩ : Routine).andThen q) = [] ∧
        ∀ name, (s.performAll ((⟨es, none⟩ : Routine).andThen q).effects).deviceItems name
          = s.deviceItems name) ↔
      es = [] ∧ settings q = [] ∧
        ∀ name, (s.performAll q.effects).deviceItems name = s.deviceItems name := by
  have hblocks : ∀ name, (s.performAll ((⟨es, none⟩ : Routine).andThen q).effects).deviceItems name
      = (s.performAll q.effects).deviceItems name := by
    intro name
    apply deviceItems_performAll_append_right
    intro e he
    obtain ⟨t, m, rfl⟩ := h e he
    simp [Effect.device?]
  rw [settings_andThen rfl, List.append_eq_nil_iff, settings_eq_nil_iff h]
  simp only [hblocks, and_assoc]

/-- A reset leaves no mark on a block that it finds as it would make it. -/
lemma deviceItems_resetBlock {now : ℤ} (hknown : s.known r.devName = true) :
    (∀ name, (s.performAll (resetBlock r now).effects).deviceItems name = s.deviceItems name) ↔
      s.deviceItems r.devName = some ⟨0, now + seconds r.nodeTimeoutInSec⟩ := by
  obtain ⟨b, hb⟩ := Option.isSome_iff_exists.mp hknown
  have hreset : (s.performAll (resetBlock r now).effects).deviceItems r.devName
      = some ⟨0, now + seconds r.nodeTimeoutInSec⟩ := by
    simp [resetBlock, Performed.andThen, Bridge.deviceItems_perform, hb, DevServiceBlk.perform]
  constructor
  · intro h
    rw [← h, hreset]
  · intro h name
    by_cases hname : r.devName = name
    · rw [← hname, hreset, h]
    · apply deviceItems_performAll_of_ne
      simp [resetBlock, Performed.andThen, Effect.device?, hname]

/-- An entry that ends the event. -/
lemma unmarked_of_aborts {now : ℤ} (q : Routine) (h : Aborts s.known topic msg r) :
    (settings ((processDevice s.known topic msg now r).andThen q) = [] ∧
        ∀ name, (s.performAll ((processDevice s.known topic msg now r).andThen q).effects).deviceItems
          name = s.deviceItems name) ↔
      inputSettings r msg = [] ∧
        s.deviceItems r.devName = some ⟨0, now + seconds r.nodeTimeoutInSec⟩ := by
  have hfault : (processDevice s.known topic msg now r).fault ≠ none :=
    fun hnone => fault_processDevice_eq_none.mp hnone h
  have heffects : ((processDevice s.known topic msg now r).andThen q).effects
      = (resetBlock r now).effects ++ inputSettings r msg := by
    rw [Performed.andThen_of_fault_ne_none hfault, effects_processDevice_of_addressed h.1,
      if_neg h.2, List.append_nil]
  have hsettings : settings ((processDevice s.known topic msg now r).andThen q) = [] ↔
      inputSettings r msg = [] := by
    have hreset : (resetBlock r now).effects.filterMap Effect.setting? = [] := rfl
    rw [← settings_eq_nil_iff (p := ⟨inputSettings r msg, none⟩) fun e => mem_inputSettings,
      settings, settings, heffects, List.filterMap_append, hreset, List.nil_append]
  rw [hsettings, heffects]
  apply and_congr_right
  intro hnil
  rw [hnil, List.append_nil, deviceItems_resetBlock h.1.2]

/-- The run leaves no mark just when the table says so. -/
lemma unmarked_iff :
    Unmarked s topic msg table clk ↔
      settings (processTopicUpdate s.known topic msg table clk) = [] ∧
        ∀ name, (s.performAll (processTopicUpdate s.known topic msg table clk).effects).deviceItems
          name = s.deviceItems name := by
  induction table generalizing clk with
  | nil => simp [Unmarked, processTopicUpdate, settings]
  | cons r rest ih =>
    rw [processTopicUpdate, Unmarked]
    by_cases haddr : Addressed s.known topic r
    · rw [if_pos haddr.1, if_pos haddr.2]
      by_cases hread : FieldsReadable r msg
      · -- The status is set, and the first channel is among those that are read.
        constructor
        · rintro ⟨⟨hlen, c, hc, hnot⟩, -⟩
          have hyes := hread hlen c (mem_upTo_of_mem_head? hc)
          simp [hnot] at hyes
        · rintro ⟨hnil, -⟩
          have hfault : (processDevice s.known topic msg (clk 0) r).fault = none :=
            fault_processDevice_eq_none.mpr fun h => h.2 hread
          rw [settings_andThen hfault, settings, effects_processDevice_of_addressed haddr,
            if_pos hread] at hnil
          simp [Effect.setting?] at hnil
      · rw [unmarked_of_aborts _ ⟨haddr, hread⟩, inputSettings_eq_nil_iff hread]
    · have houtputs : ∀ e ∈ (if topic = r.inputMqttTopic then [] else outputSettings r topic msg),
          ∃ t m, e = .setTopic t m := by
        intro e he
        split at he
        · simp at he
        · obtain ⟨m, rfl, -⟩ := mem_outputSettings he
          exact ⟨_, m, rfl⟩
      rw [processDevice_of_not_addressed haddr, unmarked_cons houtputs, ← ih]
      split
      · rename_i htopic
        rw [if_neg fun hknown => haddr ⟨htopic, hknown⟩]
        simp
      · rw [outputSettings_eq_nil_iff]

/-! ### Tables put together -/

lemma settings_handle : settings (s.handle table topic msg clk)
    = settings (processTopicUpdate s.known topic msg table clk) :=
  settings_catchAndReport _ _

lemma deviceItems_handle (name : Str) :
    (s.performAll (s.handle table topic msg clk).effects).deviceItems name
      = (s.performAll (processTopicUpdate s.known topic msg table clk).effects).deviceItems name :=
  deviceItems_performAll_catchAndReport _ _ name

lemma fault_processTopicUpdate_eq_none :
    (processTopicUpdate known topic msg table clk).fault = none ↔
      ∀ r ∈ table, ¬ Aborts known topic msg r := by
  induction table generalizing clk with
  | nil => simp [processTopicUpdate]
  | cons r rest ih =>
    rw [processTopicUpdate, Performed.fault_andThen_eq_none, fault_processDevice_eq_none, ih,
      List.forall_mem_cons]

/-- The parts of a table handle a message as the whole does just when no entry of the first part
ends the event, or else the second part has nothing to do with the message. -/
theorem local_iff (hdisjoint : (A.map (·.devName)).Disjoint (B.map (·.devName))) :
    Local s A B clk topic msg ↔
      (∀ r ∈ A, ¬ Aborts s.known topic msg r) ∨
        Unmarked s topic msg B fun n => clk (A.length + n) := by
  have hA : ∀ name ∉ A.map (·.devName),
      ∀ e ∈ (processTopicUpdate s.known topic msg A clk).effects, e.device? ≠ some name :=
    fun name hname e he => device_processTopicUpdate he hname
  have hB : ∀ name ∈ A.map (·.devName),
      ∀ e ∈ (processTopicUpdate s.known topic msg B fun n => clk (A.length + n)).effects,
        e.device? ≠ some name :=
    fun name hname e he => device_processTopicUpdate he (hdisjoint hname)
  by_cases hfault : (processTopicUpdate s.known topic msg A clk).fault = none
  · have hends := fault_processTopicUpdate_eq_none.mp hfault
    refine iff_of_true ⟨?_, ?_, ?_⟩ (.inl hends)
    · rw [settings_handle, settings_handle, settings_handle, processTopicUpdate_append,
        settings_andThen hfault]
    · intro name hname
      rw [deviceItems_handle, deviceItems_handle, processTopicUpdate_append,
        Performed.andThen_of_fault_eq_none hfault]
      exact deviceItems_performAll_append_left (hB name hname)
    · intro name hname
      rw [deviceItems_handle, deviceItems_handle, processTopicUpdate_append,
        Performed.andThen_of_fault_eq_none hfault]
      exact deviceItems_performAll_append_right (hA name hname)
  · have hends : ¬ ∀ r ∈ A, ¬ Aborts s.known topic msg r :=
      fun h => hfault (fault_processTopicUpdate_eq_none.mpr h)
    have hwhole : processTopicUpdate s.known topic msg (A ++ B) clk
        = processTopicUpdate s.known topic msg A clk := by
      rw [processTopicUpdate_append, Performed.andThen_of_fault_ne_none hfault]
    rw [or_iff_right hends, unmarked_iff]
    constructor
    · rintro ⟨hsettings, -, hright⟩
      rw [settings_handle, settings_handle, settings_handle, hwhole] at hsettings
      refine ⟨List.append_cancel_left (hsettings.symm.trans (List.append_nil _).symm), ?_⟩
      intro name
      by_cases hname : name ∈ A.map (·.devName)
      · exact deviceItems_performAll_of_ne (hB name hname)
      · have hblock := hright name hname
        rw [deviceItems_handle, deviceItems_handle, hwhole] at hblock
        rw [← hblock]
        exact deviceItems_performAll_of_ne (hA name hname)
    · rintro ⟨hsettings, hblocks⟩
      refine ⟨?_, ?_, ?_⟩
      · rw [settings_handle, settings_handle, settings_handle, hwhole, hsettings, List.append_nil]
      · intro name _
        rw [deviceItems_handle, deviceItems_handle, hwhole]
      · intro name hname
        rw [deviceItems_handle, deviceItems_handle, hwhole, hblocks]
        exact deviceItems_performAll_of_ne (hA name hname)

/-! ### A node and a lamp on one input topic -/

/-- The bridge with a room node of these channels and a lamp. -/
def nodeAndLamp (channels : List RouterDeviceChannel) : Bridge :=
  .started [roomNode channels, lamp] (fun _ => 0) ⟨.connected, []⟩

lemma disjoint_nodeAndLamp (channels : List RouterDeviceChannel) :
    ([roomNode channels].map (·.devName)).Disjoint ([lamp].map (·.devName)) := by
  have hname : str "lamp" ≠ str "node" := by decide
  simpa [roomNode, lamp] using hname

theorem local_nodeAndLamp :
    Local (nodeAndLamp [dimmerChannel, blindChannel]) [roomNode [dimmerChannel, blindChannel]] [lamp]
      (fun _ => 5) (str "in") (str "1,70") :=
  (local_iff (disjoint_nodeAndLamp _)).mpr (.inl (by decide))

/-- A field for the node that is no number, and the lamp is not told to be "ok". -/
theorem not_local_nodeAndLamp :
    ¬ ∀ (s : Bridge) (A B : GwtTable) (clk : ℕ → ℤ) (topic msg : Str),
        (A.map (·.devName)).Disjoint (B.map (·.devName)) → Local s A B clk topic msg := by
  intro hclaim
  have hlocal := hclaim (nodeAndLamp [blindChannel]) [roomNode [blindChannel]] [lamp] (fun _ => 5)
    (str "in") (str "up") (disjoint_nodeAndLamp _)
  exact absurd hlocal.settings (by decide)

end WBridge
