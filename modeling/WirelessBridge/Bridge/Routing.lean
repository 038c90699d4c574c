import WirelessBridge.Bridge.Router
import WirelessBridge.Lib.BrokenLoop

/-!
# What a channel is meant to get

Both channel loops of `processTopicUpdate` have a `break` behind the loop over a value mapping. It
leaves the channel loop, so that a channel with a value mapping is the last one handled. The value
meant for a channel on its own is written down here, and with it what a pass of the device loop
would set if every channel were handled.
-/

namespace WBridge

open Lib HBE System Mqtt

def RouterDeviceChannel.Mapped (c : RouterDeviceChannel) : Prop := c.valueMapping ≠ []

instance : DecidablePred RouterDeviceChannel.Mapped :=
  fun c => inferInstanceAs (Decidable (c.valueMapping ≠ []))

/-! ### Input channels -/

/-- What the fields of a message mean for an input channel: its field as it is, or the string of
the first mapping entry with the number in its field. -/
def inputValue (data : List Str) (c : RouterDeviceChannel) : Option Str :=
  match data[c.number.toNat]? with
  | none => none
  | some field =>
    if c.valueMapping = [] then some field
    else
      match stoi field with
      | .error _ => none
      | .ok z => (c.valueMapping.find? fun m => (m.1.toNat : ℤ) = z).map (·.2)

def inputSetting (data : List Str) (c : RouterDeviceChannel) : Option Effect :=
  (inputValue data c).map (.setTopic c.mqttTopic)

/-- The field of the channel is there, and is a number when the channel needs one. -/
def readable (data : List Str) (c : RouterDeviceChannel) : Bool :=
  match data[c.number.toNat]? with
  | none => false
  | some field => c.valueMapping.isEmpty || (stoi field).isOk

/-- The input channels that the loop comes to. -/
def handled (data : List Str) (cs : List RouterDeviceChannel) : List RouterDeviceChannel :=
  upTo (fun c => c.Mapped ∨ readable data c = false) cs

variable {known : Str → Bool} {topic msg field : Str} {now z : ℤ} {r : RouterDeviceItem}
  {c : RouterDeviceChannel} {cs : List RouterDeviceChannel} {data : List Str}

lemma handled_cons_of_last (h : c.Mapped ∨ readable data c = false)
    (rest : List RouterDeviceChannel) : handled data (c :: rest) = [c] := if_pos h

lemma handled_cons_of_passed (h : ¬ (c.Mapped ∨ readable data c = false))
    (rest : List RouterDeviceChannel) : handled data (c :: rest) = c :: handled data rest :=
  if_neg h

lemma readable_of_getElem? (hfield : data[c.number.toNat]? = some field)
    (hnum : c.Mapped → ∃ z, stoi field = .ok z) : readable data c = true := by
  by_cases hmap : c.valueMapping = []
  · simp [readable, hfield, hmap]
  · obtain ⟨z, hz⟩ := hnum hmap
    simp [readable, hfield, hz, Except.isOk, Except.toBool]

/-- A channel that cannot be read gets nothing. -/
lemma inputSetting_of_not_readable (h : readable data c = false) : inputSetting data c = none := by
  simp only [readable] at h
  simp only [inputSetting, inputValue]
  split at h
  · rfl
  · rename_i field hfield
    simp only [Bool.or_eq_false_iff, List.isEmpty_eq_false_iff] at h
    simp only [if_neg h.1]
    cases hstoi : stoi field with
    | error e => rfl
    | ok z => simp [hstoi, Except.isOk, Except.toBool] at h

lemma inputSetting_of_plain (hplain : c.valueMapping = [])
    (hfield : data[c.number.toNat]? = some field) :
    inputSetting data c = some (.setTopic c.mqttTopic field) := by
  simp [inputSetting, inputValue, hfield, hplain]

lemma inputSetting_of_not_mapped (hmap : ¬ c.Mapped) (h : readable data c = true) :
    ∃ e, inputSetting data c = some e := by
  have hplain : c.valueMapping = [] := not_not.mp hmap
  cases hfield : data[c.number.toNat]? with
  | none => simp [readable, hfield] at h
  | some field => exact ⟨_, inputSetting_of_plain hplain hfield⟩

/-- The loop over a value mapping, when the field is a number. -/
lemma remapInput_eq_find? (hfield : data[c.number.toNat]? = some field) (hz : stoi field = .ok z)
    (l : List (UInt16 × Str)) :
    remapInput data c l
      = ⟨((l.find? fun m => (m.1.toNat : ℤ) = z).map fun m => Effect.setTopic c.mqttTopic m.2).toList,
          none⟩ := by
  induction l with
  | nil => rfl
  | cons m rest ih =>
    obtain ⟨value, mappTo⟩ := m
    simp only [remapInput, hfield, hz]
    by_cases heq : (value.toNat : ℤ) = z
    · rw [if_pos heq, List.find?_cons_of_pos (by simpa using heq)]
      rfl
    · rw [if_neg heq, List.find?_cons_of_neg (by simpa using heq), ih]

lemma remapInput_of_readable (hmap : c.valueMapping ≠ []) (h : readable data c = true) :
    remapInput data c c.valueMapping = ⟨(inputSetting data c).toList, none⟩ := by
  simp only [readable] at h
  split at h
  · simp at h
  · rename_i field hfield
    cases hstoi : stoi field with
    | error e => simp [hmap, hstoi, Except.isOk, Except.toBool] at h
    | ok z =>
      rw [remapInput_eq_find? hfield hstoi]
      simp [inputSetting, inputValue, hfield, hmap, hstoi, Function.comp_def]

/-- When the field is not there or not a number, the first mapping entry already fails. -/
lemma remapInput_of_not_readable {l : List (UInt16 × Str)} (hl : l ≠ [])
    (h : readable data c = false) : ∃ f, remapInput data c l = .fails f := by
  obtain ⟨⟨value, mappTo⟩, rest, rfl⟩ := List.exists_cons_of_ne_nil hl
  rw [remapInput]
  cases hfield : data[c.number.toNat]? with
  | none => exact ⟨_, rfl⟩
  | some field =>
    cases hstoi : stoi field with
    | error e =>
      simp only [hstoi]
      exact ⟨_, rfl⟩
    | ok z => simp [readable, hfield, hstoi, Except.isOk, Except.toBool] at h

/-- Behind a mapped channel, or one that cannot be read, the loop does not go on. -/
lemma updateInputs_cons_of_last (h : c.Mapped ∨ readable data c = false)
    (rest : List RouterDeviceChannel) :
    (updateInputs data (c :: rest)).effects = (inputSetting data c).toList ∧
    ((updateInputs data (c :: rest)).fault = none ↔ readable data c = true) := by
  rw [updateInputs]
  by_cases hmap : c.valueMapping ≠ []
  · rw [if_pos hmap]
    cases hread : readable data c with
    | true =>
      rw [remapInput_of_readable hmap hread]
      exact ⟨rfl, by simp⟩
    | false =>
      obtain ⟨f, hf⟩ := remapInput_of_not_readable hmap hread
      rw [hf, inputSetting_of_not_readable hread]
      exact ⟨rfl, by simp⟩
  · rw [if_neg hmap]
    have hread := h.resolve_left hmap
    cases hfield : data[c.number.toNat]? with
    | none =>
      rw [inputSetting_of_not_readable hread, hread]
      exact ⟨rfl, by simp⟩
    | some field => simp [readable, hfield, not_not.mp hmap] at hread

lemma updateInputs_cons_of_passed (hmap : ¬ c.Mapped) (hread : readable data c = true)
    (rest : List RouterDeviceChannel) :
    ∃ e, inputSetting data c = some e ∧
      updateInputs data (c :: rest) = (Performed.does e).andThen (updateInputs data rest) := by
  have hplain : c.valueMapping = [] := not_not.mp hmap
  cases hfield : data[c.number.toNat]? with
  | none => simp [readable, hfield] at hread
  | some field =>
    refine ⟨_, inputSetting_of_plain hplain hfield, ?_⟩
    rw [updateInputs, if_neg (not_not.mpr hplain), hfield]

/-- The loop sets what is meant for the channels it comes to. -/
lemma effects_updateInputs (data : List Str) (cs : List RouterDeviceChannel) :
    (updateInputs data cs).effects = (handled data cs).filterMap (inputSetting data) := by
  induction cs with
  | nil => rfl
  | cons c rest ih =>
    by_cases hlast : c.Mapped ∨ readable data c = false
    · rw [(updateInputs_cons_of_last hlast rest).1, handled_cons_of_last hlast, List.filterMap_cons]
      cases inputSetting data c <;> rfl
    · obtain ⟨hmap, hread⟩ := not_or.mp hlast
      obtain ⟨e, he, hpassed⟩ := updateInputs_cons_of_passed hmap (by simpa using hread) rest
      rw [hpassed, handled_cons_of_passed hlast, List.filterMap_cons_some he]
      exact congrArg (e :: ·) ih

/-- It runs to its end when it can read every channel it comes to. -/
lemma fault_updateInputs_eq_none :
    (updateInputs data cs).fault = none ↔ ∀ c ∈ handled data cs, readable data c = true := by
  induction cs with
  | nil => simp [updateInputs, handled, upTo]
  | cons c rest ih =>
    by_cases hlast : c.Mapped ∨ readable data c = false
    · rw [(updateInputs_cons_of_last hlast rest).2, handled_cons_of_last hlast,
        List.forall_mem_singleton]
    · obtain ⟨hmap, hread⟩ := not_or.mp hlast
      have hread : readable data c = true := by simpa using hread
      obtain ⟨e, -, hpassed⟩ := updateInputs_cons_of_passed hmap hread rest
      rw [hpassed, handled_cons_of_passed hlast, List.forall_mem_cons, ← ih,
        Performed.fault_andThen_eq_none]
      simp [hread]

/-- The pass for an entry on its own input topic sets what the message means for every one of its
input channels, in their order, and then the status. -/
def InputsRouted (known : Str → Bool) (msg : Str) (now : ℤ) (r : RouterDeviceItem) : Prop :=
  processDevice known r.inputMqttTopic msg now r
    = ⟨(resetBlock r now).effects
        ++ r.inputMapping.filterMap (inputSetting (parseIncomingTopic msg 44))
        ++ [.setTopic r.statusMqttTopic (str "ok")], none⟩

/-- Channels that get nothing: mapped, and without an entry for the number in their field. -/
lemma inputSetting_eq_none_iff (hfield : data[c.number.toNat]? = some field)
    (hnum : c.Mapped → ∃ z, stoi field = .ok z) :
    inputSetting data c = none ↔
      c.Mapped ∧ ∀ m ∈ c.valueMapping, stoi field ≠ .ok (m.1.toNat : ℤ) := by
  by_cases hmap : c.valueMapping = []
  · simp [inputSetting_of_plain hmap hfield, RouterDeviceChannel.Mapped, hmap]
  · obtain ⟨z, hz⟩ := hnum hmap
    simp [inputSetting, inputValue, RouterDeviceChannel.Mapped, hfield, hmap, hz, eq_comm (a := z)]

/-- Every input channel gets what is meant for it just when all that follows a mapped channel is
mapped too, and has no entry for the number that came for it. -/
theorem inputsRouted_iff (hnumber : ∀ c ∈ r.inputMapping, c.number.toNat < r.inputMapping.length)
    (hknown : known r.devName = true)
    (hlen : (parseIncomingTopic msg 44).length = r.inputMapping.length)
    (hnum : ∀ c ∈ r.inputMapping, c.Mapped →
      ∀ field, (parseIncomingTopic msg 44)[c.number.toNat]? = some field →
        ∃ z, stoi field = .ok z) :
    InputsRouted known msg now r ↔
      r.inputMapping.Pairwise fun c c' => c.Mapped →
        c'.Mapped ∧ ∀ m ∈ c'.valueMapping,
          ∀ field, (parseIncomingTopic msg 44)[c'.number.toNat]? = some field →
            stoi field ≠ .ok (m.1.toNat : ℤ) := by
  generalize hdata : parseIncomingTopic msg 44 = data at *
  have hfield : ∀ c ∈ r.inputMapping, ∃ field, data[c.number.toNat]? = some field := by
    intro c hc
    exact ⟨_, List.getElem?_eq_getElem (hlen ▸ hnumber c hc)⟩
  have hread : ∀ c ∈ r.inputMapping, readable data c = true := by
    intro c hc
    obtain ⟨field, hf⟩ := hfield c hc
    exact readable_of_getElem? hf fun hmap => hnum c hc hmap field hf
  -- With every field readable, only a value mapping ends the loop, and it ends without a fault.
  have hhandled : handled data r.inputMapping
      = upTo RouterDeviceChannel.Mapped r.inputMapping := by
    apply upTo_congr
    intro c hc
    simp [hread c hc]
  have hfault : (updateInputs data r.inputMapping).fault = none :=
    fault_updateInputs_eq_none.mpr fun c hc => hread c (mem_of_mem_upTo hc)
  have hpass : processDevice known r.inputMqttTopic msg now r
      = ⟨(resetBlock r now).effects
          ++ (upTo RouterDeviceChannel.Mapped r.inputMapping).filterMap (inputSetting data)
          ++ [.setTopic r.statusMqttTopic (str "ok")], none⟩ := by
    rw [processDevice, if_pos rfl, if_pos hknown, ← hhandled, ← effects_updateInputs]
    simp only [updateFields, hdata, if_pos hlen]
    rw [Performed.andThen_of_fault_eq_none rfl, Performed.andThen_of_fault_eq_none hfault]
    simp
  rw [InputsRouted, hpass, hdata, Performed.mk.injEq]
  simp only [List.append_cancel_right_eq, List.append_cancel_left_eq, and_true]
  rw [filterMap_upTo_eq_iff]
  apply List.Pairwise.iff_of_mem
  intro c c' hc hc'
  obtain ⟨field, hf⟩ := hfield c' hc'
  rw [inputSetting_eq_none_iff hf fun hmap => hnum c' hc' hmap field hf]
  simp [hf]

/-! ### Output channels -/

/-- What a message on its topic means for an output channel: the message as it is, or the value of
the first mapping entry with that string; in both cases behind the number of the channel. -/
def outputValue (msg : Str) (c : RouterDeviceChannel) : Option Str :=
  if c.valueMapping = [] then some (decimal c.number.toNat ++ str ":" ++ msg)
  else (c.valueMapping.find? fun m => msg = m.2).map fun m =>
    decimal c.number.toNat ++ str ":" ++ decimal m.1.toNat

def outputSetting (r : RouterDeviceItem) (msg : Str) (c : RouterDeviceChannel) : Option Effect :=
  (outputValue msg c).map (.setTopic r.outputMqttTopic)

/-- The pass for an entry on the topic of some of its output channels sets what the message means
for every one of these, in their order, and nothing else. -/
def OutputsRouted (known : Str → Bool) (topic msg : Str) (now : ℤ) (r : RouterDeviceItem) : Prop :=
  processDevice known topic msg now r
    = ⟨(r.outputMapping.filter fun c => topic = c.mqttTopic).filterMap (outputSetting r msg), none⟩

/-- The loop over a value mapping. -/
lemma remapOutput_eq_find? (l : List (UInt16 × Str)) :
    (remapOutput r c msg l).effects
      = ((l.find? fun m => msg = m.2).map fun m => Effect.setTopic r.outputMqttTopic
          (decimal c.number.toNat ++ str ":" ++ decimal m.1.toNat)).toList := by
  induction l with
  | nil => rfl
  | cons m rest ih =>
    obtain ⟨value, mappTo⟩ := m
    rw [remapOutput]
    by_cases heq : msg = mappTo
    · rw [if_pos heq, List.find?_cons_of_pos (by simpa using heq)]
      rfl
    · rw [if_neg heq, List.find?_cons_of_neg (by simpa using heq), ih]

/-- The loop sets what is meant for the channels of the topic up to the first mapped one. -/
lemma effects_updateOutputs (hout : r.outputMqttTopic ≠ []) (topic msg : Str)
    (cs : List RouterDeviceChannel) :
    (updateOutputs r topic msg cs).effects
      = (upTo RouterDeviceChannel.Mapped (cs.filter fun c => topic = c.mqttTopic)).filterMap
          (outputSetting r msg) := by
  induction cs with
  | nil => rfl
  | cons c rest ih =>
    rw [updateOutputs]
    by_cases htopic : topic = c.mqttTopic
    · rw [if_pos ⟨htopic, hout⟩, List.filter_cons_of_pos (by simpa using htopic)]
      by_cases hmap : c.valueMapping ≠ []
      · rw [if_pos hmap, upTo_cons_of_pos (show c.Mapped from hmap),
          remapOutput_eq_find?]
        simp only [List.filterMap_cons, outputSetting, outputValue, if_neg hmap]
        cases c.valueMapping.find? fun m => msg = m.2 <;> rfl
      · rw [if_neg hmap, upTo_cons_of_neg (show ¬ c.Mapped from hmap)]
        push Not at hmap
        rw [List.filterMap_cons_some (b := .setTopic r.outputMqttTopic
          (decimal c.number.toNat ++ str ":" ++ msg)) (by simp [outputSetting, outputValue, hmap])]
        exact congrArg (_ :: ·) ih
    · rw [if_neg fun h => htopic h.1, List.filter_cons_of_neg (by simpa using htopic), ih]

lemma outputSetting_eq_none_iff :
    outputSetting r msg c = none ↔ c.Mapped ∧ ∀ m ∈ c.valueMapping, msg ≠ m.2 := by
  by_cases hmap : c.valueMapping = [] <;>
    simp [outputSetting, outputValue, RouterDeviceChannel.Mapped, hmap]

/-- Every output channel of the topic gets what is meant for it just when, of these channels, all
that follow a mapped one are mapped too and have no entry for the message. -/
theorem outputsRouted_iff (hout : r.outputMqttTopic ≠ []) (hin : topic ≠ r.inputMqttTopic) :
    OutputsRouted known topic msg now r ↔
      (r.outputMapping.filter fun c => topic = c.mqttTopic).Pairwise fun c c' =>
        c.Mapped → c'.Mapped ∧ ∀ m ∈ c'.valueMapping, msg ≠ m.2 := by
  have hpass : processDevice known topic msg now r
      = ⟨(upTo RouterDeviceChannel.Mapped
          (r.outputMapping.filter fun c => topic = c.mqttTopic)).filterMap (outputSetting r msg),
        none⟩ := by
    rw [processDevice, if_neg hin, ← effects_updateOutputs hout, ← updateOutputs_fault r topic msg]
  rw [OutputsRouted, hpass, Performed.mk.injEq]
  simp only [and_true]
  rw [filterMap_upTo_eq_iff]
  simp only [outputSetting_eq_none_iff]

/-! ### A blind and a dimmer in one room -/

def blindChannel : RouterDeviceChannel :=
  ⟨0, str "blind", str "room", true, [(1, str "up"), (0, str "down")]⟩

def dimmerChannel : RouterDeviceChannel := ⟨1, str "dimmer", str "room", true, []⟩

/-- A node with these channels, both as inputs and as outputs. -/
def roomNode (channels : List RouterDeviceChannel) : RouterDeviceItem where
  devName := str "node"
  inputMqttTopic := str "in"
  outputMqttTopic := str "out"
  statusMqttTopic := str "status"
  nodeTimeoutInSec := 60
  nodeConnectionAttempt := 3
  inputMapping := channels
  outputMapping := channels

theorem inputsRouted_dimmerFirst :
    InputsRouted (fun _ => true) (str "1,70") 0 (roomNode [dimmerChannel, blindChannel]) := by
  apply (inputsRouted_iff (by decide) rfl rfl _).mpr
  · simp [roomNode, dimmerChannel, RouterDeviceChannel.Mapped]
  · intro c hc hmap field hfield
    rcases List.mem_pair.mp hc with rfl | rfl
    · exact absurd rfl hmap
    · obtain rfl : str "1" = field := Option.some.inj hfield
      exact ⟨1, rfl⟩

/-- With the blind in front, the loop is left before it comes to the dimmer. -/
theorem not_inputsRouted_blindFirst :
    ¬ ∀ (known : Str → Bool) (msg : Str) (now : ℤ) (r : RouterDeviceItem),
        (∀ c ∈ r.inputMapping, c.number.toNat < r.inputMapping.length) →
        known r.devName = true →
        (parseIncomingTopic msg 44).length = r.inputMapping.length →
        (∀ c ∈ r.inputMapping, c.Mapped →
          ∀ field, (parseIncomingTopic msg 44)[c.number.toNat]? = some field →
            ∃ z, stoi field = .ok z) →
        InputsRouted known msg now r := by
  intro hclaim
  have hrouted := hclaim (fun _ => true) (str "1,70") 0 (roomNode [blindChannel, dimmerChannel])
    (by decide) rfl rfl <| by
      intro c hc hmap field hfield
      rcases List.mem_pair.mp hc with rfl | rfl
      · obtain rfl : str "1" = field := Option.some.inj hfield
        exact ⟨1, rfl⟩
      · exact absurd rfl hmap
  have hlen := congrArg (·.effects.length) hrouted
  exact absurd hlen (by decide)

theorem outputsRouted_dimmerFirst :
    OutputsRouted (fun _ => true) (str "room") (str "up") 0
      (roomNode [dimmerChannel, blindChannel]) :=
  (outputsRouted_iff (by decide) (by decide)).mpr (by decide)

/-- One topic for both channels, and only the blind gets the message. -/
theorem not_outputsRouted_blindFirst :
    ¬ ∀ (known : Str → Bool) (topic msg : Str) (now : ℤ) (r : RouterDeviceItem),
        r.outputMqttTopic ≠ [] → topic ≠ r.inputMqttTopic →
        OutputsRouted known topic msg now r := by
  intro hclaim
  have hrouted := hclaim (fun _ => true) (str "room") (str "up") 0
    (roomNode [blindChannel, dimmerChannel]) (by decide) (by decide)
  have hlen := congrArg (·.effects.length) hrouted
  exact absurd hlen (by decide)

end WBridge
