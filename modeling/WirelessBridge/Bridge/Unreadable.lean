import WirelessBridge.Bridge.Routing

/-!
# Messages that cannot be read

A message on the input topic of a device first resets the block of the device. Then its fields are
taken and converted, and only then is the status set. A field that is not there or is no number
ends the whole event in between.
-/

namespace WBridge

open Lib HBE System Mqtt

/-- As long as the number of fields is right, the loop finds what it needs in every field it
comes to. -/
def FieldsReadable (r : RouterDeviceItem) (msg : Str) : Prop :=
  (parseIncomingTopic msg 44).length = r.inputMapping.length →
    ∀ c ∈ upTo RouterDeviceChannel.Mapped r.inputMapping,
      readable (parseIncomingTopic msg 44) c = true

instance (r : RouterDeviceItem) (msg : Str) : Decidable (FieldsReadable r msg) :=
  inferInstanceAs (Decidable (_ → _))

/-- The entry takes the message as its input, for a device with a block. -/
def Addressed (known : Str → Bool) (topic : Str) (r : RouterDeviceItem) : Prop :=
  topic = r.inputMqttTopic ∧ known r.devName = true

instance (known : Str → Bool) (topic : Str) : DecidablePred (Addressed known topic) :=
  fun _ => inferInstanceAs (Decidable (_ ∧ _))

/-- The pass for the entry ends the event. -/
def Aborts (known : Str → Bool) (topic msg : Str) (r : RouterDeviceItem) : Prop :=
  Addressed known topic r ∧ ¬ FieldsReadable r msg

instance (known : Str → Bool) (topic msg : Str) : DecidablePred (Aborts known topic msg) :=
  fun _ => inferInstanceAs (Decidable (_ ∧ _))

/-- What the input channels of an entry are set to. -/
def inputSettings (r : RouterDeviceItem) (msg : Str) : List Effect :=
  if (parseIncomingTopic msg 44).length = r.inputMapping.length then
    (handled (parseIncomingTopic msg 44) r.inputMapping).filterMap
      (inputSetting (parseIncomingTopic msg 44))
  else []

/-- What the output topic of an entry is set to. -/
def outputSettings (r : RouterDeviceItem) (topic msg : Str) : List Effect :=
  if r.outputMqttTopic ≠ [] then
    (upTo RouterDeviceChannel.Mapped (r.outputMapping.filter fun c => topic = c.mqttTopic)).filterMap
      (outputSetting r msg)
  else []

/-- While it handles the entry, the loop sets "ok" on this topic: as the status of the entry, or as
the value of one of its input channels. -/
def SaysOk (known : Str → Bool) (topic msg t : Str) (r : RouterDeviceItem) : Prop :=
  Addressed known topic r ∧
    ((FieldsReadable r msg ∧ r.statusMqttTopic = t) ∨
      .setTopic t (str "ok") ∈ inputSettings r msg)

variable {known : Str → Bool} {topic msg t : Str} {now : ℤ} {r : RouterDeviceItem}
  {table : GwtTable} {clk : ℕ → ℤ} {e : Effect}

/-! ### One entry -/

lemma effects_updateFields (r : RouterDeviceItem) (msg : Str) :
    (updateFields r msg).effects = inputSettings r msg := by
  simp only [updateFields, inputSettings]
  split
  · exact effects_updateInputs _ _
  · rfl

lemma fault_updateFields_eq_none : (updateFields r msg).fault = none ↔ FieldsReadable r msg := by
  simp only [updateFields, FieldsReadable]
  split
  · rename_i hlen
    rw [fault_updateInputs_eq_none, handled]
    simpa [hlen] using forall_mem_upTo_or (p := RouterDeviceChannel.Mapped)
      (q := fun c => readable (parseIncomingTopic msg 44) c = false) (l := r.inputMapping)
  · rename_i hlen
    simp [hlen]

lemma processDevice_of_addressed (h : Addressed known topic r) :
    processDevice known topic msg now r = (resetBlock r now).andThen
      ((updateFields r msg).andThen (.does (.setTopic r.statusMqttTopic (str "ok")))) := by
  rw [processDevice, if_pos h.1, if_pos h.2]

/-- An entry that is not addressed can only set outputs. -/
lemma fault_processDevice_of_not_addressed (h : ¬ Addressed known topic r) :
    (processDevice known topic msg now r).fault = none := by
  rw [processDevice]
  split
  · rename_i htopic
    rw [if_neg fun hknown => h ⟨htopic, hknown⟩]
    rfl
  · exact updateOutputs_fault r topic msg _

lemma fault_processDevice_eq_none :
    (processDevice known topic msg now r).fault = none ↔ ¬ Aborts known topic msg r := by
  by_cases haddr : Addressed known topic r
  · rw [processDevice_of_addressed haddr, Performed.fault_andThen_eq_none,
      Performed.fault_andThen_eq_none, fault_updateFields_eq_none]
    simp [Aborts, haddr, resetBlock, Performed.fault_andThen_eq_none]
  · simp [fault_processDevice_of_not_addressed haddr, Aborts, haddr]

lemma effects_processDevice_of_addressed (h : Addressed known topic r) :
    (processDevice known topic msg now r).effects
      = (resetBlock r now).effects ++ inputSettings r msg
        ++ if FieldsReadable r msg then [.setTopic r.statusMqttTopic (str "ok")] else [] := by
  rw [processDevice_of_addressed h, Performed.andThen_of_fault_eq_none rfl]
  by_cases hread : FieldsReadable r msg
  · rw [Performed.andThen_of_fault_eq_none (fault_updateFields_eq_none.mpr hread), if_pos hread]
    simp [effects_updateFields]
  · cases hfault : (updateFields r msg).fault with
    | none => exact absurd (fault_updateFields_eq_none.mp hfault) hread
    | some f => simp [Performed.andThen, hfault, if_neg hread, effects_updateFields]

lemma updateOutputs_eq (r : RouterDeviceItem) (topic msg : Str) :
    updateOutputs r topic msg r.outputMapping = ⟨outputSettings r topic msg, none⟩ := by
  have heffects : (updateOutputs r topic msg r.outputMapping).effects
      = outputSettings r topic msg := by
    rw [outputSettings]
    split
    · rename_i hout
      exact effects_updateOutputs hout topic msg _
    · rename_i hout
      generalize r.outputMapping = cs
      induction cs with
      | nil => rfl
      | cons c rest ih => rw [updateOutputs, if_neg fun h => hout h.2, ih]
  rw [← heffects, ← updateOutputs_fault r topic msg r.outputMapping]

lemma processDevice_of_not_addressed (h : ¬ Addressed known topic r) :
    processDevice known topic msg now r
      = ⟨if topic = r.inputMqttTopic then [] else outputSettings r topic msg, none⟩ := by
  rw [processDevice]
  split
  · rename_i htopic
    rw [if_neg fun hknown => h ⟨htopic, hknown⟩]
    rfl
  · exact updateOutputs_eq r topic msg

lemma mem_inputSettings (h : e ∈ inputSettings r msg) : ∃ t m, e = .setTopic t m := by
  rw [inputSettings] at h
  split at h
  · obtain ⟨c, -, hc⟩ := List.mem_filterMap.mp h
    obtain ⟨m, -, hm⟩ := Option.map_eq_some_iff.mp hc
    exact ⟨c.mqttTopic, m, hm.symm⟩
  · simp at h

/-- An output topic is set to the number of a channel, a colon, and more. -/
lemma mem_outputSettings (h : e ∈ outputSettings r topic msg) :
    ∃ m, e = .setTopic r.outputMqttTopic m ∧ 58 ∈ m := by
  rw [outputSettings] at h
  split at h
  · obtain ⟨c, -, hc⟩ := List.mem_filterMap.mp h
    obtain ⟨m, hvalue, hm⟩ := Option.map_eq_some_iff.mp hc
    refine ⟨m, hm.symm, ?_⟩
    rw [outputValue] at hvalue
    split at hvalue
    · obtain rfl := Option.some.inj hvalue
      simp [str]
    · obtain ⟨-, -, rfl⟩ := Option.map_eq_some_iff.mp hvalue
      simp [str]
  · simp at h

lemma spentAttempt_mem_processDevice {d : Str} :
    .spentAttempt d 0 ∈ (processDevice known topic msg now r).effects ↔
      Addressed known topic r ∧ r.devName = d := by
  by_cases haddr : Addressed known topic r
  · have hinputs : .spentAttempt d 0 ∉ inputSettings r msg := by
      intro h
      obtain ⟨t, m, hm⟩ := mem_inputSettings h
      exact Effect.noConfusion hm
    rw [effects_processDevice_of_addressed haddr]
    by_cases hread : FieldsReadable r msg <;>
      simp [hread, haddr, hinputs, resetBlock, Performed.andThen, eq_comm]
  · have houtputs : .spentAttempt d 0 ∉ outputSettings r topic msg := by
      intro h
      obtain ⟨m, hm, -⟩ := mem_outputSettings h
      exact Effect.noConfusion hm
    rw [processDevice_of_not_addressed haddr]
    split <;> simp [haddr, houtputs]

lemma ok_mem_processDevice :
    .setTopic t (str "ok") ∈ (processDevice known topic msg now r).effects ↔
      SaysOk known topic msg t r := by
  by_cases haddr : Addressed known topic r
  · rw [effects_processDevice_of_addressed haddr, SaysOk]
    by_cases hread : FieldsReadable r msg <;>
      simp [hread, haddr, resetBlock, Performed.andThen, eq_comm, or_comm]
  · have houtputs : .setTopic t (str "ok") ∉ outputSettings r topic msg := by
      intro h
      obtain ⟨m, hm, hcolon⟩ := mem_outputSettings h
      obtain ⟨-, rfl⟩ := Effect.setTopic.inj hm
      exact absurd hcolon (by decide)
    rw [processDevice_of_not_addressed haddr, SaysOk]
    split <;> simp [haddr, houtputs]

/-! ### The table -/

/-- The loop over the table comes to the entries up to the first one that ends the event. -/
lemma mem_effects_processTopicUpdate_iff :
    e ∈ (processTopicUpdate known topic msg table clk).effects ↔
      ∃ n r, (upTo (Aborts known topic msg) table)[n]? = some r ∧
        e ∈ (processDevice known topic msg (clk n) r).effects := by
  induction table generalizing clk with
  | nil => simp [processTopicUpdate, upTo]
  | cons r rest ih =>
    rw [processTopicUpdate]
    by_cases haborts : Aborts known topic msg r
    · have hfault : (processDevice known topic msg (clk 0) r).fault ≠ none := by
        rw [ne_eq, fault_processDevice_eq_none, not_not]
        exact haborts
      obtain ⟨f, hf⟩ := Option.ne_none_iff_exists'.mp hfault
      rw [upTo_cons_of_pos haborts]
      simp only [Performed.andThen, hf]
      constructor
      · exact fun h => ⟨0, r, rfl, h⟩
      · rintro ⟨n, r', hr', h⟩
        cases n with
        | zero => exact Option.some.inj hr' ▸ h
        | succ n => simp at hr'
    · rw [Performed.andThen_of_fault_eq_none (fault_processDevice_eq_none.mpr haborts),
        upTo_cons_of_neg haborts, List.mem_append, ih]
      constructor
      · rintro (h | ⟨n, r', hr', h⟩)
        · exact ⟨0, r, rfl, h⟩
        · exact ⟨n + 1, r', hr', h⟩
      · rintro ⟨n, r', hr', h⟩
        cases n with
        | zero => exact .inl (Option.some.inj hr' ▸ h)
        | succ n => exact .inr ⟨n, r', hr', h⟩

/-- When the passes for an entry all agree on an effect, the clock does not matter. -/
lemma mem_effects_processTopicUpdate_of_iff {P : RouterDeviceItem → Prop}
    (h : ∀ (now : ℤ) r, e ∈ (processDevice known topic msg now r).effects ↔ P r) :
    e ∈ (processTopicUpdate known topic msg table clk).effects ↔
      ∃ r ∈ upTo (Aborts known topic msg) table, P r := by
  rw [mem_effects_processTopicUpdate_iff]
  simp only [h, List.mem_iff_getElem?]
  constructor
  · rintro ⟨n, r, hr, hP⟩
    exact ⟨r, ⟨n, hr⟩, hP⟩
  · rintro ⟨r, ⟨n, hr⟩, hP⟩
    exact ⟨n, r, hr, hP⟩

/-! ### Reset and recovery -/

/-- A message that resets the block of a device says "ok" on the status topic of the device. -/
def ResetAnnounced (known : Str → Bool) (table : GwtTable) (clk : ℕ → ℤ) (topic msg : Str) :
    Prop :=
  ∀ r ∈ table, topic = r.inputMqttTopic →
    .spentAttempt r.devName 0 ∈
      (mqttEventProcessFunc known table clk (.topicUpdate topic msg)).effects →
    (∃ t, .timeToAttempt r.devName t ∈
      (mqttEventProcessFunc known table clk (.topicUpdate topic msg)).effects) →
    .setTopic r.statusMqttTopic (str "ok") ∈
      (mqttEventProcessFunc known table clk (.topicUpdate topic msg)).effects

/-- The `catch` branch adds a report. -/
lemma mem_mqttEventProcessFunc (hreport : ∀ level descr, e ≠ .report level descr) :
    e ∈ (mqttEventProcessFunc known table clk (.topicUpdate topic msg)).effects ↔
      e ∈ (processTopicUpdate known topic msg table clk).effects := by
  simp only [mqttEventProcessFunc, catchAndReport]
  split
  · simp [hreport]
  · rfl

lemma timeToAttempt_mem_processTopicUpdate (clk : ℕ → ℤ)
    (hr : r ∈ upTo (Aborts known topic msg) table) (haddr : Addressed known topic r) :
    ∃ t, .timeToAttempt r.devName t ∈ (processTopicUpdate known topic msg table clk).effects := by
  obtain ⟨n, hn⟩ := List.mem_iff_getElem?.mp hr
  refine ⟨clk n + seconds r.nodeTimeoutInSec, mem_effects_processTopicUpdate_iff.mpr ⟨n, r, hn, ?_⟩⟩
  rw [effects_processDevice_of_addressed haddr]
  simp [resetBlock, Performed.andThen]

/-- The entries that the loop comes to are all that matters. -/
lemma resetAnnounced_iff_upTo :
    ResetAnnounced known table clk topic msg ↔
      ∀ r ∈ table, topic = r.inputMqttTopic →
        (∃ r' ∈ upTo (Aborts known topic msg) table,
          Addressed known topic r' ∧ r'.devName = r.devName) →
        ∃ r' ∈ upTo (Aborts known topic msg) table, SaysOk known topic msg r.statusMqttTopic r' := by
  have hreset : ∀ d, .spentAttempt d 0 ∈
      (mqttEventProcessFunc known table clk (.topicUpdate topic msg)).effects ↔
      ∃ r' ∈ upTo (Aborts known topic msg) table, Addressed known topic r' ∧ r'.devName = d := by
    intro d
    rw [mem_mqttEventProcessFunc (by simp)]
    exact mem_effects_processTopicUpdate_of_iff fun now r' => spentAttempt_mem_processDevice
  have hok : ∀ t, .setTopic t (str "ok") ∈
      (mqttEventProcessFunc known table clk (.topicUpdate topic msg)).effects ↔
      ∃ r' ∈ upTo (Aborts known topic msg) table, SaysOk known topic msg t r' := by
    intro t
    rw [mem_mqttEventProcessFunc (by simp)]
    exact mem_effects_processTopicUpdate_of_iff fun now r' => ok_mem_processDevice
  simp only [ResetAnnounced, hreset, hok]
  constructor
  · rintro h r hr htopic ⟨r', hr', haddr, hname⟩
    obtain ⟨t, ht⟩ := timeToAttempt_mem_processTopicUpdate clk hr' haddr
    apply h r hr htopic ⟨r', hr', haddr, hname⟩
    exact ⟨t, hname ▸ (mem_mqttEventProcessFunc (by simp)).mpr ht⟩
  · intro h r hr htopic hreached _
    exact h r hr htopic hreached

/-- A reset comes with its announcement just when no entry that takes the message as its input has
fields that cannot be read, or else when, with `r` the first such entry, the status topics of `r`
and of the later entries for devices reset by then are told "ok" by chance: as the status of an
earlier entry, or as the value of an input channel. -/
theorem resetAnnounced_iff :
    ResetAnnounced known table clk topic msg ↔
      ∀ pre r post, table = pre ++ r :: post → (∀ r' ∈ pre, ¬ Aborts known topic msg r') →
        Aborts known topic msg r →
        ∀ r' ∈ r :: post, topic = r'.inputMqttTopic →
          (∃ r'' ∈ pre ++ [r], Addressed known topic r'' ∧ r''.devName = r'.devName) →
          ∃ r'' ∈ pre ++ [r], SaysOk known topic msg r'.statusMqttTopic r'' := by
  rw [resetAnnounced_iff_upTo]
  constructor
  · rintro h pre r post rfl hpre hr r' hr' htopic hreached
    rw [upTo_append_cons hpre hr] at h
    exact h r' (List.mem_append_right pre hr') htopic hreached
  · intro h r hr htopic hreached
    have hself : Addressed known topic r → ¬ Aborts known topic msg r →
        SaysOk known topic msg r.statusMqttTopic r := by
      intro haddr hnot
      exact ⟨haddr, .inl ⟨by_contra fun hread => hnot ⟨haddr, hread⟩, rfl⟩⟩
    -- The block of a device is there for all of its entries or for none.
    have haddr : Addressed known topic r := by
      obtain ⟨r', -, haddr', hname⟩ := hreached
      exact ⟨htopic, hname ▸ haddr'.2⟩
    rcases forall_or_exists_first (Aborts known topic msg) table with
      hall | ⟨pre, f, post, rfl, hpre, hf⟩
    · refine ⟨r, ?_, hself haddr (hall r hr)⟩
      rwa [upTo_eq_self hall]
    · rw [upTo_append_cons hpre hf] at hreached ⊢
      rcases List.mem_append.mp hr with hr | hr
      · exact ⟨r, List.mem_append_left _ hr, hself haddr (hpre r hr)⟩
      · exact h pre f post rfl hpre hf r hr htopic hreached

/-- A word where the blind needs a number: the watchdog starts anew, and "error" stays. -/
theorem not_resetAnnounced_word :
    ¬ ∀ (known : Str → Bool) (table : GwtTable) (clk : ℕ → ℤ) (topic msg : Str),
        ResetAnnounced known table clk topic msg := by
  intro hclaim
  have hreset := hclaim (fun _ => true) [roomNode [blindChannel]] (fun _ => 0) (str "in")
    (str "up") _ List.mem_cons_self rfl (by decide) ⟨60000, by decide⟩
  exact absurd hreset (by decide)

end WBridge
