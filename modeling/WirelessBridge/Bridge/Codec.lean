import WirelessBridge.Bridge.Unreadable
import WirelessBridge.Lib.Numeral

/-!
# Commands and reports

A command is the number of an output channel, a colon, and a value. A report is a list of values
with commas in between, one for each input channel. What a command carries, a report brings back:
the two directions of `processTopicUpdate` undo each other's work.
-/

namespace WBridge

open Lib HBE System Mqtt

/-! ### Fields -/

lemma parseIncomingTopic_intercalate {separator : UInt8} {fields : List Str} (hne : fields ≠ [])
    (h : ∀ field ∈ fields, separator ∉ field) :
    parseIncomingTopic ([separator].intercalate fields) separator = fields := by
  rw [parseIncomingTopic_eq_splitOn]
  exact List.splitOn_intercalate separator h hne

/-- The fields of a message are what stands between its separators, for every message and every
list of fields. More rounds of the loop than `parseIncomingTopic` allows for would yield no more
fields, so it is the state of the stream that ends it. -/
theorem parseIncomingTopic_exact (separator : UInt8) :
    (∀ msg : Str,
      (∀ fuel, msg.length < fuel →
        getlines separator fuel (.ofStr msg) = parseIncomingTopic msg separator) ∧
      parseIncomingTopic msg separator ≠ [] ∧
      (∀ field ∈ parseIncomingTopic msg separator, separator ∉ field) ∧
      [separator].intercalate (parseIncomingTopic msg separator) = msg ∧
      (parseIncomingTopic msg separator).length = msg.count separator + 1) ∧
    ∀ fields : List Str, fields ≠ [] → (∀ field ∈ fields, separator ∉ field) →
      parseIncomingTopic ([separator].intercalate fields) separator = fields := by
  constructor
  · intro msg
    rw [parseIncomingTopic_eq_splitOn]
    refine ⟨?_, ?_, ?_, ?_, ?_⟩
    · exact fun fuel hfuel => getlines_eq_splitOn separator hfuel
    · exact List.splitOn_ne_nil separator msg
    · exact fun field => notMem_of_mem_splitOn
    · exact List.intercalate_splitOn separator
    · exact length_splitOn separator msg
  · exact fun fields => parseIncomingTopic_intercalate

theorem parseIncomingTopic_doubled :
    parseIncomingTopic ([44].intercalate [str "1", [], str "70"]) 44 = [str "1", [], str "70"] :=
  (parseIncomingTopic_exact 44).2 _ (by decide) (by decide)

/-! ### What is sent and what is read back -/

/-- The first `sep` of `s` stands between `t` and `u`. -/
def CutAt (sep : UInt8) (s t u : Str) : Prop := s = t ++ sep :: u ∧ sep ∉ t

/-- A message on the topic of the output channel `c` first of all sends a command, with the number
of the channel in front of its first colon and `v` behind. -/
def Commanded (known : Str → Bool) (now : ℤ) (r : RouterDeviceItem) (c : RouterDeviceChannel)
    (msg v : Str) : Prop :=
  ∃ command rest,
    (processDevice known c.mqttTopic msg now r).effects
      = .setTopic r.outputMqttTopic command :: rest ∧
    CutAt 58 command (decimal c.number.toNat) v

/-- A message on the input topic sets the channel `c`, behind `cpre`, to `s`. -/
def Reported (known : Str → Bool) (now : ℤ) (r : RouterDeviceItem)
    (cpre : List RouterDeviceChannel) (c : RouterDeviceChannel) (msg s : Str) : Prop :=
  ∃ rest, (processDevice known r.inputMqttTopic msg now r).effects
    = (resetBlock r now).effects ++ (updateInputs (parseIncomingTopic msg 44) cpre).effects
      ++ .setTopic c.mqttTopic s :: rest

/-- Fields without commas, one for each input channel, with all channels numbered among them. -/
structure Framed (r : RouterDeviceItem) (fields : List Str) : Prop where
  notMem : ∀ field ∈ fields, 44 ∉ field
  length : fields.length = r.inputMapping.length
  number : ∀ c ∈ r.inputMapping, c.number.toNat < fields.length

/-- Wherever a report carries `v` for an input channel with the value mapping `valueMapping` that no
mapped channel precedes, the channel is set to `s`. -/
def ReadBack (valueMapping : List (UInt16 × Str)) (v s : Str) : Prop :=
  ∀ known now r cpre c cpost fields, known r.devName = true →
    r.inputMapping = cpre ++ c :: cpost → (∀ c' ∈ cpre, ¬ c'.Mapped) →
    c.valueMapping = valueMapping → Framed r fields → fields[c.number.toNat]? = some v →
    Reported known now r cpre c ([44].intercalate fields) s

variable {known : Str → Bool} {topic msg v s : Str} {now : ℤ} {r : RouterDeviceItem}
  {c : RouterDeviceChannel} {cpre cpost : List RouterDeviceChannel} {data fields : List Str}
  {M : List (UInt16 × Str)} {m : UInt16 × Str}

lemma colon_notMem_decimal (n : ℕ) : 58 ∉ decimal n := by
  intro h
  have hdigit := isDigit_of_mem_decimal h
  simp [isDigit] at hdigit

/-- An entry of a mapping is found by its value, or by its string, when no two entries share it. -/
lemma find?_eq_some_of_nodup {α β : Type*} {l : List α} {f : α → β} (h : (l.map f).Nodup) {a : α}
    (ha : a ∈ l) {p : α → Bool} (hp : ∀ b, p b = true ↔ f b = f a) : l.find? p = some a := by
  cases hfind : l.find? p with
  | none => exact absurd ((hp a).mpr rfl) (List.find?_eq_none.mp hfind a ha)
  | some b =>
    have heq := (hp b).mp (List.find?_some hfind)
    rw [List.inj_on_of_nodup_map h (List.mem_of_find?_eq_some hfind) ha heq]

/-! ### Commands -/

lemma cutAt_command (n : ℕ) (v : Str) : CutAt 58 (decimal n ++ str ":" ++ v) (decimal n) v := by
  refine ⟨?_, colon_notMem_decimal n⟩
  show decimal n ++ [58] ++ v = decimal n ++ 58 :: v
  rw [List.append_assoc, List.singleton_append]

/-- The first output channel on the topic gets what the message means for it. -/
lemma commanded_of_outputValue (hout : r.outputMqttTopic ≠ [])
    (hin : c.mqttTopic ≠ r.inputMqttTopic) (hchannels : r.outputMapping = cpre ++ c :: cpost)
    (hfirst : ∀ c' ∈ cpre, c'.mqttTopic ≠ c.mqttTopic)
    (hvalue : outputValue msg c = some (decimal c.number.toNat ++ str ":" ++ v)) :
    Commanded known now r c msg v := by
  refine ⟨decimal c.number.toNat ++ str ":" ++ v, ?_⟩
  have hskip : cpre.filter (fun c' => c.mqttTopic = c'.mqttTopic) = [] := by
    rw [List.filter_eq_nil_iff]
    intro c' hc'
    simpa using (hfirst c' hc').symm
  have hfilter : (r.outputMapping.filter fun c' => c.mqttTopic = c'.mqttTopic)
      = c :: cpost.filter fun c' => c.mqttTopic = c'.mqttTopic := by
    rw [hchannels, List.filter_append, hskip, List.nil_append, List.filter_cons_of_pos (by simp)]
  rw [processDevice, if_neg hin, effects_updateOutputs hout, hfilter]
  obtain ⟨rest, hrest⟩ := exists_upTo_cons RouterDeviceChannel.Mapped c
    (cpost.filter fun c' => c.mqttTopic = c'.mqttTopic)
  have hsetting : outputSetting r msg c
      = some (.setTopic r.outputMqttTopic (decimal c.number.toNat ++ str ":" ++ v)) := by
    rw [outputSetting, hvalue]
    rfl
  rw [hrest, List.filterMap_cons_some hsetting]
  exact ⟨_, rfl, cutAt_command _ _⟩

lemma outputValue_of_plain (hplain : c.valueMapping = []) :
    outputValue msg c = some (decimal c.number.toNat ++ str ":" ++ msg) := if_pos hplain

lemma outputValue_of_mem (hstrings : (c.valueMapping.map Prod.snd).Nodup)
    (hm : m ∈ c.valueMapping) :
    outputValue m.2 c = some (decimal c.number.toNat ++ str ":" ++ decimal m.1.toNat) := by
  have hfind : c.valueMapping.find? (fun m' => m.2 = m'.2) = some m :=
    find?_eq_some_of_nodup hstrings hm fun b => by simp [eq_comm]
  rw [outputValue, if_neg (List.ne_nil_of_mem hm), hfind]
  rfl

/-! ### Reports -/

/-- A channel that the loop comes to gets what the message means for it. -/
lemma reported_of_inputValue (hknown : known r.devName = true)
    (hchannels : r.inputMapping = cpre ++ c :: cpost)
    (hlen : (parseIncomingTopic msg 44).length = r.inputMapping.length)
    (hplain : ∀ c' ∈ cpre, ¬ c'.Mapped ∧ readable (parseIncomingTopic msg 44) c' = true)
    (hvalue : inputValue (parseIncomingTopic msg 44) c = some s) :
    Reported known now r cpre c msg s := by
  generalize hdata : parseIncomingTopic msg 44 = data at *
  have hsetting : inputSetting data c = some (.setTopic c.mqttTopic s) := by
    rw [inputSetting, hvalue]
    rfl
  have hpass : ∀ c' ∈ cpre, ¬ (c'.Mapped ∨ readable data c' = false) := by
    intro c' hc'
    simpa using hplain c' hc'
  obtain ⟨handledRest, hrest⟩ := exists_upTo_cons
    (fun c => c.Mapped ∨ readable data c = false) c cpost
  have hsettings : inputSettings r msg
      = (updateInputs data cpre).effects
        ++ .setTopic c.mqttTopic s :: handledRest.filterMap (inputSetting data) := by
    rw [inputSettings, hdata, if_pos hlen, hchannels, handled, upTo_append hpass, hrest,
      List.filterMap_append, List.filterMap_cons_some hsetting, effects_updateInputs, handled,
      upTo_eq_self hpass]
  have haddressed : Addressed known r.inputMqttTopic r := ⟨rfl, hknown⟩
  rw [Reported, effects_processDevice_of_addressed haddressed, hsettings, hdata]
  simp only [List.append_assoc, List.cons_append]
  exact ⟨_, rfl⟩

lemma inputValue_of_plain (hplain : c.valueMapping = [])
    (hfield : data[c.number.toNat]? = some v) : inputValue data c = some v := by
  simp [inputValue, hfield, hplain]

lemma inputValue_of_mem (hvalues : (c.valueMapping.map Prod.fst).Nodup) (hm : m ∈ c.valueMapping)
    (hfield : data[c.number.toNat]? = some (decimal m.1.toNat)) :
    inputValue data c = some m.2 := by
  have hlt : m.1.toNat < 2 ^ 31 := m.1.toNat_lt.trans (by norm_num)
  have hfind : c.valueMapping.find? (fun m' => (m'.1.toNat : ℤ) = (m.1.toNat : ℤ)) = some m :=
    find?_eq_some_of_nodup hvalues hm fun b => by simp [UInt16.toNat_inj]
  simp only [inputValue, hfield, if_neg (List.ne_nil_of_mem hm), stoi_decimal hlt, hfind]
  rfl

lemma readBack_of_inputValue
    (h : ∀ data c, c.valueMapping = M → data[c.number.toNat]? = some v →
      inputValue data c = some s) :
    ReadBack M v s := by
  intro known now r cpre c cpost fields hknown hchannels hplain hmapping hframed hfield
  have hne : fields ≠ [] := by
    rintro rfl
    simp at hfield
  have hparse := parseIncomingTopic_intercalate hne hframed.notMem
  apply reported_of_inputValue hknown hchannels
  · rw [hparse]
    exact hframed.length
  · intro c' hc'
    have hnumber := hframed.number c' (by simp [hchannels, hc'])
    rw [hparse]
    refine ⟨hplain c' hc', ?_⟩
    exact readable_of_getElem? (List.getElem?_eq_getElem hnumber) fun hmap =>
      absurd hmap (hplain c' hc')
  · rw [hparse]
    exact h fields c hmapping hfield

/-- The command for a string of the value mapping carries the decimal text of its value, and a
report that carries this text brings the string back. Without a value mapping the command carries
the message as it is, whatever bytes it has, and a report brings it back. -/
theorem codec_inverse (hchannels : r.outputMapping = cpre ++ c :: cpost)
    (hfirst : ∀ c' ∈ cpre, c'.mqttTopic ≠ c.mqttTopic) (hout : r.outputMqttTopic ≠ [])
    (hin : c.mqttTopic ≠ r.inputMqttTopic) (hvalues : (c.valueMapping.map Prod.fst).Nodup)
    (hstrings : (c.valueMapping.map Prod.snd).Nodup) :
    (∀ m ∈ c.valueMapping, Commanded known now r c m.2 (decimal m.1.toNat) ∧
      ReadBack c.valueMapping (decimal m.1.toNat) m.2) ∧
    (c.valueMapping = [] → ∀ s, Commanded known now r c s s ∧ ReadBack c.valueMapping s s) := by
  constructor
  · intro m hm
    constructor
    · exact commanded_of_outputValue hout hin hchannels hfirst (outputValue_of_mem hstrings hm)
    · apply readBack_of_inputValue
      intro data c' hmapping hfield
      exact inputValue_of_mem (hmapping ▸ hvalues) (hmapping ▸ hm) hfield
  · intro hplain s
    constructor
    · exact commanded_of_outputValue hout hin hchannels hfirst (outputValue_of_plain hplain)
    · apply readBack_of_inputValue
      intro data c' hmapping hfield
      exact inputValue_of_plain (hmapping.trans hplain) hfield

/-- The blind is sent "0:1" for "up"; its report "1" comes back as "up", behind that of the
dimmer. -/
theorem codec_inverse_blind :
    Commanded (fun _ => true) 0 (roomNode [blindChannel, dimmerChannel]) blindChannel (str "up")
      (str "1") ∧
    Reported (fun _ => true) 0 (roomNode [dimmerChannel, blindChannel]) [dimmerChannel] blindChannel
      (str "1,70") (str "up") := by
  have hchannels : (roomNode [blindChannel, dimmerChannel]).outputMapping
      = [] ++ blindChannel :: [dimmerChannel] := rfl
  obtain ⟨hcommand, hback⟩ : Commanded (fun _ => true) 0 (roomNode [blindChannel, dimmerChannel])
      blindChannel (str "up") (str "1") ∧ ReadBack blindChannel.valueMapping (str "1") (str "up") :=
    (codec_inverse hchannels (List.forall_mem_nil _) (by decide) (by decide) (by decide)
      (by decide)).1 (1, str "up") (by decide)
  refine ⟨hcommand, ?_⟩
  apply hback (fun _ => true) 0 (roomNode [dimmerChannel, blindChannel]) [dimmerChannel]
    blindChannel [] [str "1", str "70"] rfl rfl _ rfl ⟨by decide, rfl, by decide⟩ rfl
  intro c' hc'
  obtain rfl := List.mem_singleton.mp hc'
  exact fun hmap => hmap rfl

end WBridge
