import WirelessBridge.Bridge.DeviceConfig
import WirelessBridge.Lib.Performed
import WirelessBridge.Mqtt.Connection

/-!
# Routing of messages

`processTopicUpdate` walks the device table for every message. What it does never depends on the
values in the device blocks, only on which devices have one, so it is given here as the list of
its effects and the fault that cut it short.
-/

namespace WBridge

open Lib HBE System Mqtt

/-- A C++ exception, or a subscript outside its vector, which C++ leaves undefined. -/
inductive Fault where
  | exception (e : StdException)
  | outOfBounds (index size : ℕ)
  deriving DecidableEq

inductive Effect where
  | spentAttempt (devName : Str) (v : UInt32)
  | timeToAttempt (devName : Str) (t : ℤ)
  | setTopic (topic msg : Str)
  | report (level : ErrorLevel) (descr : Str)
  deriving DecidableEq

abbrev Routine := Performed Effect Fault

/-- The fields of a message: one `getline` after another while the stream is good. -/
def parseIncomingTopic (msg : Str) (separator : UInt8) : List Str :=
  getlines separator (msg.length + 1) (.ofStr msg)

/-- The loop over the value mapping of an input channel. The field is read and converted again
for every mapping entry it is compared with. -/
def remapInput (data : List Str) (c : RouterDeviceChannel) : List (UInt16 × Str) → Routine
  | [] => .nothing
  | (value, mappTo) :: rest =>
    match data[c.number.toNat]? with
    | none => .fails (.outOfBounds c.number.toNat data.length)
    | some field =>
      match stoi field with
      | .error e => .fails (.exception e)
      | .ok z =>
        if (value.toNat : ℤ) = z then .does (.setTopic c.mqttTopic mappTo)
        else remapInput data c rest

/-- The loop over the input channels. The `break` after a mapped channel leaves this loop. -/
def updateInputs (data : List Str) : List RouterDeviceChannel → Routine
  | [] => .nothing
  | c :: rest =>
    if c.valueMapping ≠ [] then remapInput data c c.valueMapping
    else
      match data[c.number.toNat]? with
      | none => .fails (.outOfBounds c.number.toNat data.length)
      | some field => (Performed.does (.setTopic c.mqttTopic field)).andThen (updateInputs data rest)

def remapOutput (r : RouterDeviceItem) (c : RouterDeviceChannel) (msg : Str) :
    List (UInt16 × Str) → Routine
  | [] => .nothing
  | (value, mappTo) :: rest =>
    if msg = mappTo then
      .does (.setTopic r.outputMqttTopic
        (decimal c.number.toNat ++ str ":" ++ decimal value.toNat))
    else remapOutput r c msg rest

/-- The loop over the output channels. Here too the `break` after a mapped channel ends it. -/
def updateOutputs (r : RouterDeviceItem) (topic msg : Str) : List RouterDeviceChannel → Routine
  | [] => .nothing
  | c :: rest =>
    if topic = c.mqttTopic ∧ r.outputMqttTopic ≠ [] then
      if c.valueMapping ≠ [] then remapOutput r c msg c.valueMapping
      else
        (Performed.does (.setTopic r.outputMqttTopic
          (decimal c.number.toNat ++ str ":" ++ msg))).andThen (updateOutputs r topic msg rest)
    else updateOutputs r topic msg rest

/-- The reset of a device block by a message on the input topic of the device. -/
def resetBlock (r : RouterDeviceItem) (now : ℤ) : Routine :=
  (Performed.does (.spentAttempt r.devName 0)).andThen
    (.does (.timeToAttempt r.devName (now + seconds r.nodeTimeoutInSec)))

def updateFields (r : RouterDeviceItem) (msg : Str) : Routine :=
  let data := parseIncomingTopic msg 44
  if data.length = r.inputMapping.length then updateInputs data r.inputMapping else .nothing

/-- One pass of the loop over the device table. `known` tells which devices have a block, and
`now` is the clock as this pass would read it. -/
def processDevice (known : Str → Bool) (topic msg : Str) (now : ℤ) (r : RouterDeviceItem) :
    Routine :=
  if topic = r.inputMqttTopic then
    if known r.devName then
      (resetBlock r now).andThen
        ((updateFields r msg).andThen (.does (.setTopic r.statusMqttTopic (str "ok"))))
    else .nothing
  else updateOutputs r topic msg r.outputMapping

/-- The loop over the device table. The clock is read anew in every pass that needs it: `clk n` is
its reading in the pass for entry `n`. -/
def processTopicUpdate (known : Str → Bool) (topic msg : Str) : GwtTable → (ℕ → ℤ) → Routine
  | [], _ => .nothing
  | r :: rest, clk =>
    (processDevice known topic msg (clk 0) r).andThen
      (processTopicUpdate known topic msg rest fun n => clk (n + 1))

/-- A `catch (const std::exception&)` around a whole function, which reports and goes on. -/
def catchAndReport (func : String) (p : Routine) : Routine :=
  match p.fault with
  | some (.exception e) =>
    ⟨p.effects ++ [.report .componentLevel (str func ++ str ": Error: " ++ e.what ++ str "\n")],
      none⟩
  | _ => p

def mqttEventProcessFunc (known : Str → Bool) (table : GwtTable) (clk : ℕ → ℤ) :
    TMqttEventVariant → Routine
  | .online _ => .nothing
  | .topicUpdate topic message =>
    catchAndReport "mqttEventProcessFunc" (processTopicUpdate known topic message table clk)

/-! ### What a message can do -/

variable {known : Str → Bool} {topic msg : Str} {now : ℤ} {r : RouterDeviceItem} {e : Effect}

lemma parseIncomingTopic_eq_splitOn (msg : Str) (separator : UInt8) :
    parseIncomingTopic msg separator = msg.splitOn separator :=
  getlines_eq_splitOn separator (Nat.lt_succ_self _)

lemma mem_remapInput {data : List Str} {c : RouterDeviceChannel} {l : List (UInt16 × Str)}
    (h : e ∈ (remapInput data c l).effects) : ∃ m, e = .setTopic c.mqttTopic m := by
  induction l with
  | nil => simp [remapInput] at h
  | cons p rest ih =>
    obtain ⟨value, mappTo⟩ := p
    rw [remapInput] at h
    split at h
    · simp at h
    · split at h
      · simp at h
      · split at h
        · exact ⟨mappTo, by simpa using h⟩
        · exact ih h

lemma mem_updateInputs {data : List Str} {cs : List RouterDeviceChannel}
    (h : e ∈ (updateInputs data cs).effects) : ∃ c ∈ cs, ∃ m, e = .setTopic c.mqttTopic m := by
  induction cs with
  | nil => simp [updateInputs] at h
  | cons c rest ih =>
    rw [updateInputs] at h
    split at h
    · exact ⟨c, List.mem_cons_self, mem_remapInput h⟩
    · split at h
      · simp at h
      · rcases Performed.mem_effects_andThen h with h | ⟨-, h⟩
        · exact ⟨c, List.mem_cons_self, _, by simpa using h⟩
        · obtain ⟨c', hc', m, rfl⟩ := ih h
          exact ⟨c', List.mem_cons_of_mem _ hc', m, rfl⟩

lemma mem_updateFields (h : e ∈ (updateFields r msg).effects) :
    ∃ c ∈ r.inputMapping, ∃ m, e = .setTopic c.mqttTopic m := by
  simp only [updateFields] at h
  split at h
  · exact mem_updateInputs h
  · simp at h

lemma mem_remapOutput {c : RouterDeviceChannel} {l : List (UInt16 × Str)}
    (h : e ∈ (remapOutput r c msg l).effects) : ∃ m, e = .setTopic r.outputMqttTopic m := by
  induction l with
  | nil => simp [remapOutput] at h
  | cons p rest ih =>
    obtain ⟨value, mappTo⟩ := p
    rw [remapOutput] at h
    split at h
    · exact ⟨_, by simpa using h⟩
    · exact ih h

lemma mem_updateOutputs {cs : List RouterDeviceChannel}
    (h : e ∈ (updateOutputs r topic msg cs).effects) : ∃ m, e = .setTopic r.outputMqttTopic m := by
  induction cs with
  | nil => simp [updateOutputs] at h
  | cons c rest ih =>
    rw [updateOutputs] at h
    split at h
    · split at h
      · exact mem_remapOutput h
      · rcases Performed.mem_effects_andThen h with h | ⟨-, h⟩
        · exact ⟨_, by simpa using h⟩
        · exact ih h
    · exact ih h

/-- The outputs need no conversion and no subscript, so they always run to the end. -/
lemma remapOutput_fault (r : RouterDeviceItem) (c : RouterDeviceChannel) (msg : Str)
    (l : List (UInt16 × Str)) : (remapOutput r c msg l).fault = none := by
  induction l with
  | nil => rfl
  | cons p rest ih =>
    obtain ⟨value, mappTo⟩ := p
    rw [remapOutput]
    split
    · rfl
    · exact ih

lemma updateOutputs_fault (r : RouterDeviceItem) (topic msg : Str)
    (cs : List RouterDeviceChannel) : (updateOutputs r topic msg cs).fault = none := by
  induction cs with
  | nil => rfl
  | cons c rest ih =>
    rw [updateOutputs]
    split
    · split
      · exact remapOutput_fault r c msg _
      · exact Performed.fault_andThen_eq_none.mpr ⟨rfl, ih⟩
    · exact ih

/-- The topics on which the handling of an entry can set something other than its status. -/
def RouterDeviceItem.valueTopics (r : RouterDeviceItem) : List Str :=
  r.outputMqttTopic :: r.inputMapping.map (·.mqttTopic)

/-- What one pass of the loop can do: reset the block, set a value, set the status to "ok". All
but the values set on the output topic need a message on the input topic. -/
lemma mem_processDevice (h : e ∈ (processDevice known topic msg now r).effects) :
    (topic = r.inputMqttTopic ∧
      (e = .spentAttempt r.devName 0 ∨
        e = .timeToAttempt r.devName (now + seconds r.nodeTimeoutInSec) ∨
        e = .setTopic r.statusMqttTopic (str "ok"))) ∨
    ∃ t ∈ r.valueTopics, ∃ m, e = .setTopic t m := by
  rw [processDevice] at h
  split at h
  · rename_i htopic
    split at h
    · rcases Performed.mem_effects_andThen h with h | ⟨-, h⟩
      · rcases Performed.mem_effects_andThen h with h | ⟨-, h⟩
        · exact .inl ⟨htopic, .inl (by simpa using h)⟩
        · exact .inl ⟨htopic, .inr (.inl (by simpa using h))⟩
      · rcases Performed.mem_effects_andThen h with h | ⟨-, h⟩
        · obtain ⟨c, hc, m, rfl⟩ := mem_updateFields h
          exact .inr ⟨_, List.mem_cons_of_mem _ (List.mem_map_of_mem hc), m, rfl⟩
        · exact .inl ⟨htopic, .inr (.inr (by simpa using h))⟩
    · simp at h
  · obtain ⟨m, rfl⟩ := mem_updateOutputs h
    exact .inr ⟨_, List.mem_cons_self, m, rfl⟩

/-- Every effect of a message is one of the pass for some entry of the table. -/
lemma mem_processTopicUpdate {table : GwtTable} {clk : ℕ → ℤ}
    (h : e ∈ (processTopicUpdate known topic msg table clk).effects) :
    ∃ n r, table[n]? = some r ∧ e ∈ (processDevice known topic msg (clk n) r).effects := by
  induction table generalizing clk with
  | nil => simp [processTopicUpdate] at h
  | cons r rest ih =>
    rw [processTopicUpdate] at h
    rcases Performed.mem_effects_andThen h with h | ⟨-, h⟩
    · exact ⟨0, r, rfl, h⟩
    · obtain ⟨n, r', hr', he⟩ := ih h
      exact ⟨n + 1, r', hr', he⟩

/-- A table is handled from front to back; the clock goes on where the front part left it. -/
lemma processTopicUpdate_append {known : Str → Bool} {topic msg : Str} (front back : GwtTable)
    (clk : ℕ → ℤ) :
    processTopicUpdate known topic msg (front ++ back) clk
      = (processTopicUpdate known topic msg front clk).andThen
          (processTopicUpdate known topic msg back fun n => clk (front.length + n)) := by
  induction front generalizing clk with
  | nil => simp [processTopicUpdate]
  | cons r rest ih =>
    simp only [List.cons_append, processTopicUpdate, ih, Performed.andThen_assoc,
      List.length_cons, Nat.add_right_comm _ 1]

end WBridge
