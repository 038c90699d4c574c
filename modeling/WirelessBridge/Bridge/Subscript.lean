import WirelessBridge.Bridge.Routing
import WirelessBridge.Bridge.Step

/-!
# Subscripts into the fields of a message

`processTopicUpdate` compares the number of fields with the number of input channels, and then
takes for each channel the field of the channel's own number. Nothing relates the two.
-/

namespace WBridge

open Lib HBE System Mqtt

/-- No subscript went past the end of its vector. -/
def InRange (p : Routine) : Prop := ∀ index size, p.fault ≠ some (.outOfBounds index size)

/-- No exception was thrown. -/
def Quiet (p : Routine) : Prop := ∀ e, p.fault ≠ some (.exception e)

/-- The input channels whose field is taken from a message: those up to the first one with a
value mapping, at which the loop ends. -/
def readChannels : List RouterDeviceChannel → List RouterDeviceChannel
  | [] => []
  | c :: rest => if c.valueMapping ≠ [] then [c] else c :: readChannels rest

variable {p q : Routine} {data : List Str} {c : RouterDeviceChannel}
  {cs : List RouterDeviceChannel} {r : RouterDeviceItem} {table : GwtTable}
  {known : Str → Bool} {topic msg : Str} {now : ℤ} {clk : ℕ → ℤ}

/-! ### Sequences -/

lemma inRange_of_fault_eq_none (h : p.fault = none) : InRange p := by
  intro index size
  simp [h]

lemma inRange_andThen (hp : InRange p) (hq : InRange q) : InRange (p.andThen q) := by
  intro index size h
  rcases Performed.fault_andThen_eq_some.mp h with h | ⟨-, h⟩
  · exact hp index size h
  · exact hq index size h

lemma InRange.left (h : InRange (p.andThen q)) : InRange p :=
  fun index size hp => h index size (Performed.fault_andThen_eq_some.mpr (.inl hp))

lemma InRange.right (h : InRange (p.andThen q)) (hp : p.fault = none) : InRange q :=
  fun index size hq => h index size (Performed.fault_andThen_eq_some.mpr (.inr ⟨hp, hq⟩))

lemma quiet_andThen (hp : Quiet p) (hq : Quiet q) : Quiet (p.andThen q) := by
  intro e h
  rcases Performed.fault_andThen_eq_some.mp h with h | ⟨-, h⟩
  · exact hp e h
  · exact hq e h

lemma quiet_of_fault_eq_none (h : p.fault = none) : Quiet p := by
  intro e
  simp [h]

/-- Both kinds of fault excluded, none is left. -/
lemma InRange.fault_eq_none (h : InRange p) (hq : Quiet p) : p.fault = none := by
  cases hf : p.fault with
  | none => rfl
  | some f =>
    cases f with
    | exception e => exact absurd hf (hq e)
    | outOfBounds index size => exact absurd hf (h index size)

/-! ### One device -/

/-- A channel with a value mapping takes its field at least once, whatever it then finds. -/
lemma inRange_remapInput_iff {l : List (UInt16 × Str)} (hl : l ≠ []) :
    InRange (remapInput data c l) ↔ c.number.toNat < data.length := by
  constructor
  · intro h
    obtain ⟨⟨value, mappTo⟩, rest, rfl⟩ := List.exists_cons_of_ne_nil hl
    by_contra hlt
    have hnone : data[c.number.toNat]? = none := List.getElem?_eq_none (not_lt.mp hlt)
    simp [InRange, remapInput, hnone] at h
  · intro hlt
    clear hl
    induction l with
    | nil => exact inRange_of_fault_eq_none rfl
    | cons m rest ih =>
      obtain ⟨value, mappTo⟩ := m
      rw [remapInput, List.getElem?_eq_getElem hlt]
      simp only
      split
      · simp [InRange]
      · split
        · exact inRange_of_fault_eq_none rfl
        · exact ih

/-- A loop over input channels stays in range just when every channel that is read does: only a
mapped channel can throw, and none is read after it. -/
lemma inRange_updateInputs_iff :
    InRange (updateInputs data cs) ↔ ∀ c ∈ readChannels cs, c.number.toNat < data.length := by
  induction cs with
  | nil => simp [updateInputs, readChannels, InRange]
  | cons c rest ih =>
    rw [updateInputs, readChannels]
    by_cases hmap : c.valueMapping ≠ []
    · rw [if_pos hmap, if_pos hmap, inRange_remapInput_iff hmap]
      simp
    · rw [if_neg hmap, if_neg hmap, List.forall_mem_cons, ← ih]
      by_cases hlt : c.number.toNat < data.length
      · rw [List.getElem?_eq_getElem hlt]
        constructor
        · exact fun h => ⟨hlt, h.right rfl⟩
        · exact fun h => inRange_andThen (inRange_of_fault_eq_none rfl) h.2
      · rw [List.getElem?_eq_none (not_lt.mp hlt)]
        simp [InRange, hlt]

/-- Numbers raise nothing in the conversion of a mapped channel. -/
lemma quiet_updateInputs (hdata : ∀ field ∈ data, ∃ z, stoi field = .ok z) :
    Quiet (updateInputs data cs) := by
  have hremap : ∀ (c : RouterDeviceChannel) l, Quiet (remapInput data c l) := by
    intro c l
    induction l with
    | nil => exact quiet_of_fault_eq_none rfl
    | cons m rest ih =>
      obtain ⟨value, mappTo⟩ := m
      rw [remapInput]
      split
      · simp [Quiet]
      · rename_i field hfield
        obtain ⟨z, hz⟩ := hdata field (List.mem_of_getElem? hfield)
        rw [hz]
        simp only
        split
        · exact quiet_of_fault_eq_none rfl
        · exact ih
  induction cs with
  | nil => exact quiet_of_fault_eq_none rfl
  | cons c rest ih =>
    rw [updateInputs]
    split
    · exact hremap c _
    · split
      · simp [Quiet]
      · exact quiet_andThen (quiet_of_fault_eq_none rfl) ih

lemma inRange_updateFields
    (h : ∀ c ∈ readChannels r.inputMapping, c.number.toNat < r.inputMapping.length) :
    InRange (updateFields r msg) := by
  simp only [updateFields]
  split
  · rename_i hlen
    exact inRange_updateInputs_iff.mpr (hlen ▸ h)
  · exact inRange_of_fault_eq_none rfl

lemma inRange_processDevice
    (h : ∀ c ∈ readChannels r.inputMapping, c.number.toNat < r.inputMapping.length) :
    InRange (processDevice known topic msg now r) := by
  rw [processDevice]
  split
  · split
    · exact inRange_andThen (inRange_of_fault_eq_none rfl)
        (inRange_andThen (inRange_updateFields h) (inRange_of_fault_eq_none rfl))
    · exact inRange_of_fault_eq_none rfl
  · exact inRange_of_fault_eq_none (updateOutputs_fault r topic msg _)

/-! ### A message of zeros -/

/-- A message with `n` fields, all "0". -/
def zeros (n : ℕ) : Str := [44].intercalate (List.replicate n (str "0"))

lemma parseIncomingTopic_zeros {n : ℕ} (hn : n ≠ 0) :
    parseIncomingTopic (zeros n) 44 = List.replicate n (str "0") := by
  rw [parseIncomingTopic_eq_splitOn, zeros, List.splitOn_intercalate]
  · intro l hl
    rw [List.eq_of_mem_replicate hl]
    decide
  · simpa using hn

lemma quiet_updateFields_zeros {n : ℕ} (hn : n ≠ 0) : Quiet (updateFields r (zeros n)) := by
  simp only [updateFields, parseIncomingTopic_zeros hn]
  split
  · refine quiet_updateInputs fun field hfield => ⟨0, ?_⟩
    rw [List.eq_of_mem_replicate hfield]
    rfl
  · exact quiet_of_fault_eq_none rfl

lemma quiet_processDevice_zeros {n : ℕ} (hn : n ≠ 0) :
    Quiet (processDevice known topic (zeros n) now r) := by
  rw [processDevice]
  split
  · split
    · exact quiet_andThen (quiet_of_fault_eq_none rfl)
        (quiet_andThen (quiet_updateFields_zeros hn) (quiet_of_fault_eq_none rfl))
    · exact quiet_of_fault_eq_none rfl
  · exact quiet_of_fault_eq_none (updateOutputs_fault r topic _ _)

lemma quiet_processTopicUpdate_zeros {n : ℕ} (hn : n ≠ 0) :
    Quiet (processTopicUpdate known topic (zeros n) table clk) := by
  induction table generalizing clk with
  | nil => exact quiet_of_fault_eq_none rfl
  | cons r rest ih => exact quiet_andThen (quiet_processDevice_zeros hn) ih

/-- Such a message, with as many fields as the device has channels, gets to every channel that is
read at all. -/
lemma inRange_processDevice_zeros (hknown : known r.devName = true)
    (hlen : r.inputMapping.length ≠ 0)
    (h : InRange (processDevice known r.inputMqttTopic (zeros r.inputMapping.length) now r)) :
    ∀ c ∈ readChannels r.inputMapping, c.number.toNat < r.inputMapping.length := by
  rw [processDevice, if_pos rfl, if_pos hknown] at h
  have hfields := (h.right rfl).left
  simp only [updateFields, parseIncomingTopic_zeros hlen, List.length_replicate, if_true] at hfields
  simpa using inRange_updateInputs_iff.mp hfields

/-! ### The whole table -/

/-- The subscripts of a table stay in range, for every message and in every state reached, just
when the channels that are read have numbers below the number of channels of their device. -/
theorem subscripts_inRange_iff {s : Bridge} {tr : List (Bridge × Event)} {clk₀ : ℕ → ℤ}
    {mqtt : CMqttConnection} (hrun : Run (Step table) (.started table clk₀ mqtt) tr s) :
    (∀ topic msg clk, InRange (processTopicUpdate s.known topic msg table clk)) ↔
      ∀ r ∈ table, ∀ c ∈ readChannels r.inputMapping,
        c.number.toNat < r.inputMapping.length := by
  constructor
  · intro h r hr
    by_cases hlen : r.inputMapping.length = 0
    · have hnil : r.inputMapping = [] := List.length_eq_zero_iff.mp hlen
      simp [hnil, readChannels]
    · obtain ⟨front, back, rfl⟩ := List.append_of_mem hr
      have hknown : s.known r.devName = true := by
        rw [known_eq_of_run hrun]
        exact isSome_createDeviceList _ _ hr
      have hall := h r.inputMqttTopic (zeros r.inputMapping.length) fun _ => 0
      rw [processTopicUpdate_append] at hall
      have hfront := hall.left.fault_eq_none (quiet_processTopicUpdate_zeros hlen)
      have hback := hall.right hfront
      exact inRange_processDevice_zeros hknown hlen hback.left
  · intro h topic msg clk
    clear hrun
    generalize s.known = known
    induction table generalizing clk with
    | nil => exact inRange_of_fault_eq_none rfl
    | cons r rest ih =>
      obtain ⟨hr, hrest⟩ := List.forall_mem_cons.mp h
      exact inRange_andThen (inRange_processDevice hr) (ih hrest _)

/-- A node with a channel for each of two fields, when it has sent them once and sends them
again. -/
theorem subscripts_inRange_room :
    ∃ tr s, Run (Step [roomNode [dimmerChannel, blindChannel]])
        (.started [roomNode [dimmerChannel, blindChannel]] (fun _ => 0) .init) tr s ∧
      s.published = [(str "room", str "50"), (str "room", str "down"), (str "status", str "ok")] ∧
      InRange (processTopicUpdate s.known (str "in") (str "1,70")
        [roomNode [dimmerChannel, blindChannel]] fun _ => 0) := by
  have h₁ := Run.single
    (.connect (.started [roomNode [dimmerChannel, blindChannel]] (fun _ => 0) .init) :
      Step [roomNode [dimmerChannel, blindChannel]] _ _ _)
  have h₂ := h₁.append (.single (.update (str "in") (str "0,50") (fun _ => 0) rfl))
  exact ⟨_, _, h₂, rfl, (subscripts_inRange_iff h₂).mpr (by decide) _ _ _⟩

/-! ### A configuration that numbers its channels from one -/

def leaf (s : String) : PTree := .node (str s) []

/-- One device, with a single input channel of number 1. -/
def countedFromOne : PTree :=
  .node [] [(str "wireless_list", .node [] [([], .node []
    [(str "dev_name", leaf "thermometer"), (str "input_mqtt_topic", leaf "in"),
      (str "output_mqtt_topic", leaf "out"), (str "status_mqtt_topic", leaf "status"),
      (str "node_timeout_in_sec", leaf "60"), (str "node_connection_attempt", leaf "3"),
      (str "input_mapping", .node [] [([], .node []
        [(str "number", leaf "1"), (str "name", leaf "t"), (str "mqtt_topic", leaf "room/t"),
          (str "mqtt_subscribe", leaf "false"), (str "value_mapping", .node [] [])])]),
      (str "output_mapping", .node [] [])])])]

/-- The constructor accepts it, and the message "5" makes the bridge read past its one field. -/
theorem subscript_outOfBounds_countedFromOne :
    ¬ ∀ (cfgPath : Str) (file : ConfigFile) (table : GwtTable),
        CDeviceConfig cfgPath file = .ok table →
        ∀ (clk₀ : ℕ → ℤ) (mqtt : CMqttConnection) (tr : List (Bridge × Event)) (s : Bridge),
          Run (Step table) (.started table clk₀ mqtt) tr s →
          ∀ topic msg clk, InRange (processTopicUpdate s.known topic msg table clk) := by
  intro hclaim
  have hrange := hclaim (str "devices.json") (.parsed countedFromOne) _ rfl (fun _ => 0) .init [] _
    (.nil _) (str "in") (str "5") fun _ => 0
  exact hrange 1 1 rfl

end WBridge
