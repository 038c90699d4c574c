import Mathlib.Data.List.Forall2
import WirelessBridge.Bridge.Codec

/-!
# The integers of the configuration and those on the wire

The constructor reads the integers of a value mapping through a stream, into 16 bits without a sign.
Reports are read with `std::stoi`, and commands are printed. A minus sign is where the three
disagree: the stream takes it, and stores the integer modulo `2 ^ 16`.
-/

namespace WBridge

open Lib HBE System Mqtt

/-! ### The texts of a value mapping -/

def mappingText (t : PTree) : Option (Str × Str) := do
  let value ← t.getStr (str "value")
  let mappTo ← t.getStr (str "mapp_to")
  return (value, mappTo)

def channelTexts (t : PTree) : Option (List (Str × Str)) := do
  let mapping ← t.getChild (str "value_mapping")
  mapping.children.mapM fun c => mappingText c.2

/-- The channels of all devices, as they stand in the configuration. -/
def channelTrees (tree : PTree) : List PTree :=
  let children (key : Str) (t : PTree) : List PTree :=
    match t.getChild key with
    | some list => list.children.map (·.2)
    | none => []
  (children (str "wireless_list") tree).flatMap fun device =>
    children (str "input_mapping") device ++ children (str "output_mapping") device

/-- The entry that the constructor makes of a pair of texts. -/
structure Stored (m : UInt16 × Str) (p : Str × Str) : Prop where
  string : m.2 = p.2
  value : ∃ z, Denotes p.1 z ∧ z.natAbs < 2 ^ 16 ∧ (m.1.toNat : ℤ) = z % 2 ^ 16

/-- The integers of the texts are those that reports are compared with and commands are made of. The
first text for an integer, and the first entry for a string, are the ones that count. -/
structure MeaningKept (texts : List (Str × Str)) (valueMapping : List (UInt16 × Str)) : Prop where
  reports : ∀ pre w s post z, texts = pre ++ (w, s) :: post → Denotes w z →
    (∀ p ∈ pre, ¬ Denotes p.1 z) →
    ∀ known now r cpre c cpost msg, known r.devName = true → r.inputMapping = cpre ++ c :: cpost →
      c.valueMapping = valueMapping →
      (parseIncomingTopic msg 44).length = r.inputMapping.length →
      (∀ c' ∈ cpre, ¬ c'.Mapped ∧ c'.number.toNat < (parseIncomingTopic msg 44).length) →
      (parseIncomingTopic msg 44)[c.number.toNat]? = some w → Reported known now r cpre c msg s
  commands : ∀ pre w s post z, texts = pre ++ (w, s) :: post → Denotes w z →
    (∀ p ∈ pre, p.2 ≠ s) →
    ∀ known now r cpre c cpost, r.outputMqttTopic ≠ [] → c.mqttTopic ≠ r.inputMqttTopic →
      r.outputMapping = cpre ++ c :: cpost → (∀ c' ∈ cpre, c'.mqttTopic ≠ c.mqttTopic) →
      c.valueMapping = valueMapping → Commanded known now r c s (intText z)

variable {t : PTree} {m : UInt16 × Str} {p : Str × Str} {M : List (UInt16 × Str)}
  {texts pre post : List (Str × Str)} {c : RouterDeviceChannel} {w s : Str} {z : ℤ}

/-! ### What is stored -/

lemma stored_of_readMapping (hm : readMapping t = some m) (hp : mappingText t = some p) :
    Stored m p := by
  simp only [readMapping, mappingText, PTree.getUInt16, PTree.getStr, Option.bind_eq_bind,
    Option.bind_eq_some_iff, Option.map_eq_some_iff, Option.pure_def, Option.some.injEq] at hm hp
  obtain ⟨_, ⟨value, hvalue, v, hv, rfl⟩, s, ⟨mappTo, hmapp, rfl⟩, rfl⟩ := hm
  obtain ⟨_, ⟨value', hvalue', rfl⟩, _, ⟨mappTo', hmapp', rfl⟩, rfl⟩ := hp
  obtain rfl := Option.some.inj (hvalue.symm.trans hvalue')
  obtain rfl := Option.some.inj (hmapp.symm.trans hmapp')
  obtain ⟨z, hz, hfits, hmod⟩ := readUnsigned_bind_atEnd.mp (Option.bind_eq_some_iff.mpr hv)
  refine ⟨rfl, z, hz, hfits, ?_⟩
  have hlt : v < 2 ^ 16 := by
    have hmodlt := Int.emod_lt_of_pos z (b := 2 ^ 16) (by norm_num)
    omega
  have hsame : v.toUInt16.toNat = v := Nat.mod_eq_of_lt hlt
  exact (congrArg Nat.cast hsame).trans hmod

lemma forall₂_of_mapM {α β γ : Type*} {R : β → γ → Prop} {f : α → Option β} {g : α → Option γ}
    {l : List α} {bs : List β} {cs : List γ} (hf : l.mapM f = some bs) (hg : l.mapM g = some cs)
    (h : ∀ a b c, f a = some b → g a = some c → R b c) : List.Forall₂ R bs cs := by
  induction l generalizing bs cs with
  | nil =>
    obtain rfl := Option.some.inj hf
    obtain rfl := Option.some.inj hg
    exact .nil
  | cons a rest ih =>
    simp only [List.mapM_cons, Option.bind_eq_bind, Option.bind_eq_some_iff, Option.pure_def,
      Option.some.injEq] at hf hg
    obtain ⟨b, hb, bs', hbs, rfl⟩ := hf
    obtain ⟨c, hc, cs', hcs, rfl⟩ := hg
    exact .cons (h a b c hb hc) (ih hbs hcs)

/-- The list of the entries follows that of the texts. -/
lemma forall₂_stored (hc : readChannel t = some c) (htexts : channelTexts t = some texts) :
    List.Forall₂ Stored c.valueMapping texts := by
  simp only [readChannel, channelTexts, Option.bind_eq_bind, Option.bind_eq_some_iff,
    Option.pure_def, Option.some.injEq] at hc htexts
  obtain ⟨number, -, name, -, mqttTopic, -, mqttSubscribe, -, mapping, hmapping, M, hM, rfl⟩ := hc
  obtain ⟨mapping', hmapping', hp⟩ := htexts
  obtain rfl := Option.some.inj (hmapping.symm.trans hmapping')
  exact forall₂_of_mapM hM hp fun child m p => stored_of_readMapping

lemma stored_split (h : List.Forall₂ Stored M (pre ++ p :: post)) :
    ∃ Mpre m Mpost, M = Mpre ++ m :: Mpost ∧ Stored m p ∧
      ∀ m' ∈ Mpre, ∃ p' ∈ pre, Stored m' p' := by
  induction pre generalizing M with
  | nil =>
    obtain ⟨m, Mpost, hm, -, rfl⟩ := List.forall₂_cons_right_iff.mp h
    exact ⟨[], m, Mpost, rfl, hm, List.forall_mem_nil _⟩
  | cons q rest ih =>
    obtain ⟨m', M', hm', hM', rfl⟩ := List.forall₂_cons_right_iff.mp h
    obtain ⟨Mpre, m, Mpost, rfl, hm, hpre⟩ := ih hM'
    refine ⟨m' :: Mpre, m, Mpost, rfl, hm, ?_⟩
    rw [List.forall_mem_cons]
    refine ⟨⟨q, List.mem_cons_self, hm'⟩, ?_⟩
    intro m'' hm''
    obtain ⟨p', hp', hstored⟩ := hpre m'' hm''
    exact ⟨p', List.mem_cons_of_mem q hp', hstored⟩

lemma Stored.stoi_eq (h : Stored m p) (hz : Denotes p.1 z) : stoi p.1 = .ok z := by
  obtain ⟨z', hz', hfits, -⟩ := h.value
  have hstoi := stoi_of_denotes hz' (by omega) (by omega)
  rw [hstoi, eq_of_denotes_of_stoi hz hstoi]

/-- An integer that is not negative is stored as it is. -/
lemma Stored.value_eq (h : Stored m p) (hz : Denotes p.1 z) (hnonneg : 0 ≤ z) :
    (m.1.toNat : ℤ) = z := by
  obtain ⟨z', hz', hfits, hmod⟩ := h.value
  have hstoi := stoi_of_denotes hz' (by omega) (by omega)
  rw [eq_of_denotes_of_stoi hz hstoi] at hnonneg ⊢
  omega

/-! ### Texts that keep their meaning -/

lemma intText_of_nonneg (h : 0 ≤ z) : intText z = decimal z.natAbs := if_neg (not_lt.mpr h)

/-- The first text that denotes the integer of a field gives the string for it. -/
lemma inputValue_of_stored (hstored : List.Forall₂ Stored c.valueMapping (pre ++ p :: post))
    (hnonneg : ∀ p' ∈ pre ++ p :: post, ∀ z, Denotes p'.1 z → 0 ≤ z) (hz : Denotes p.1 z)
    (hfirst : ∀ p' ∈ pre, ¬ Denotes p'.1 z) {data : List Str}
    (hfield : data[c.number.toNat]? = some p.1) : inputValue data c = some p.2 := by
  obtain ⟨Mpre, m, Mpost, hM, hm, hpre⟩ := stored_split hstored
  have hvalue := hm.value_eq hz (hnonneg p (by simp) z hz)
  have hearlier : Mpre.find? (fun m' => (m'.1.toNat : ℤ) = z) = none := by
    rw [List.find?_eq_none]
    intro m' hm' heq
    obtain ⟨p', hp', hstored'⟩ := hpre m' hm'
    obtain ⟨z', hz', -, -⟩ := hstored'.value
    have hvalue' := hstored'.value_eq hz' (hnonneg p' (by simp [hp']) z' hz')
    have hsame : z' = z := hvalue'.symm.trans (of_decide_eq_true heq)
    exact hfirst p' hp' (hsame ▸ hz')
  have hne : c.valueMapping ≠ [] := by simp [hM]
  simp only [inputValue, hfield, if_neg hne, hm.stoi_eq hz]
  rw [hM, List.find?_append, hearlier, Option.none_or,
    List.find?_cons_of_pos (by simpa using hvalue), ← hm.string]
  rfl

/-- The first entry with the string of a command gives the integer of its text. -/
lemma outputValue_of_stored (hstored : List.Forall₂ Stored c.valueMapping (pre ++ p :: post))
    (hnonneg : 0 ≤ z) (hz : Denotes p.1 z) (hfirst : ∀ p' ∈ pre, p'.2 ≠ p.2) :
    outputValue p.2 c = some (decimal c.number.toNat ++ str ":" ++ intText z) := by
  obtain ⟨Mpre, m, Mpost, hM, hm, hpre⟩ := stored_split hstored
  have hearlier : Mpre.find? (fun m' => p.2 = m'.2) = none := by
    rw [List.find?_eq_none]
    intro m' hm' heq
    obtain ⟨p', hp', hstored'⟩ := hpre m' hm'
    exact hfirst p' hp' (hstored'.string.symm.trans (of_decide_eq_true heq).symm)
  have htext : decimal m.1.toNat = intText z := by
    rw [intText_of_nonneg hnonneg, ← hm.value_eq hz hnonneg, Int.natAbs_natCast]
  have hne : c.valueMapping ≠ [] := by simp [hM]
  rw [outputValue, if_neg hne, hM, List.find?_append, hearlier, Option.none_or,
    List.find?_cons_of_pos (by simpa using hm.string.symm), Option.map_some, htext]

lemma meaningKept_of_nonneg (hstored : List.Forall₂ Stored M texts)
    (hnonneg : ∀ p ∈ texts, ∀ z, Denotes p.1 z → 0 ≤ z) : MeaningKept texts M := by
  constructor
  · rintro pre w s post z rfl hz hfirst known now r cpre c cpost msg hknown hchannels rfl hlen hcpre
      hfield
    apply reported_of_inputValue hknown hchannels hlen
    · intro c' hc'
      obtain ⟨hplain, hnumber⟩ := hcpre c' hc'
      refine ⟨hplain, ?_⟩
      exact readable_of_getElem? (List.getElem?_eq_getElem hnumber) fun hmap => absurd hmap hplain
    · exact inputValue_of_stored (p := (w, s)) hstored hnonneg hz hfirst hfield
  · rintro pre w s post z rfl hz hfirst known now r cpre c cpost hout hin hchannels hcpre rfl
    have hvalue := outputValue_of_stored (p := (w, s)) hstored (hnonneg (w, s) (by simp) z hz) hz
      hfirst
    exact commanded_of_outputValue hout hin hchannels hcpre hvalue

/-! ### A negative integer -/

/-- An entry of the table with one channel, which is its only input. -/
def singleInput (M : List (UInt16 × Str)) : RouterDeviceItem where
  devName := str "node"
  inputMqttTopic := str "in"
  outputMqttTopic := str "out"
  statusMqttTopic := str "status"
  nodeTimeoutInSec := 60
  nodeConnectionAttempt := 3
  inputMapping := [⟨0, str "blind", str "room", true, M⟩]
  outputMapping := []

lemma parseIncomingTopic_of_denotes (h : Denotes w z) : parseIncomingTopic w 44 = [w] := by
  rw [parseIncomingTopic_eq_splitOn]
  exact List.splitOn_eq_singleton (notMem_of_denotes h rfl rfl (by decide) (by decide))

/-- A field whose integer is not in the mapping sets nothing, and the pass goes on to the status. -/
lemma effects_singleInput (hM : M ≠ []) (hz : Denotes w z) (hstoi : stoi w = .ok z)
    (hnone : M.find? (fun m => (m.1.toNat : ℤ) = z) = none) :
    (processDevice (fun _ => true) (singleInput M).inputMqttTopic w 0 (singleInput M)).effects
      = (resetBlock (singleInput M) 0).effects ++ [.setTopic (str "status") (str "ok")] := by
  have hfields : updateFields (singleInput M) w = .nothing := by
    simp only [updateFields, parseIncomingTopic_of_denotes hz, singleInput, List.length_singleton,
      if_true, updateInputs, if_pos hM]
    rw [remapInput_eq_find? rfl hstoi, hnone]
    rfl
  rw [processDevice_of_addressed ⟨rfl, rfl⟩, hfields]
  rfl

/-- What is stored for a negative integer is none, so its own text does not find it. -/
lemma MeaningKept.nonneg (h : MeaningKept texts M) (hstored : List.Forall₂ Stored M texts)
    (hp : p ∈ texts) (hz : Denotes p.1 z) : 0 ≤ z := by
  by_contra hneg
  rcases forall_or_exists_first (fun p : Str × Str => Denotes p.1 z) texts with hnone | hsome
  · exact hnone p hp hz
  obtain ⟨pre, ⟨w, s⟩, post, rfl, hfirst, hw⟩ := hsome
  obtain ⟨Mpre, m, Mpost, hM, hm, -⟩ := stored_split hstored
  have hparse := parseIncomingTopic_of_denotes hw
  obtain ⟨rest, hrest⟩ := h.reports pre w s post z rfl hw hfirst (fun _ => true) 0 (singleInput M)
    [] ⟨0, str "blind", str "room", true, M⟩ [] w rfl rfl rfl (by rw [hparse]; rfl)
    (List.forall_mem_nil _) (by rw [hparse]; rfl)
  have hnone : M.find? (fun m' => (m'.1.toNat : ℤ) = z) = none := by
    rw [List.find?_eq_none]
    intro m' _ heq
    have heq' : (m'.1.toNat : ℤ) = z := of_decide_eq_true heq
    omega
  rw [effects_singleInput (by simp [hM]) hw (hm.stoi_eq hw) hnone] at hrest
  have hsame := List.append_cancel_left (hrest.trans (List.append_assoc _ _ _))
  exact absurd (List.cons.inj hsame).1 (by simp [str])

/-- A value mapping keeps the meaning of its texts just when none of its integers is negative. -/
theorem meaningKept_iff (hc : readChannel t = some c) (htexts : channelTexts t = some texts) :
    MeaningKept texts c.valueMapping ↔ ∀ p ∈ texts, ∀ z, Denotes p.1 z → 0 ≤ z := by
  have hstored := forall₂_stored hc htexts
  constructor
  · exact fun h p hp z => h.nonneg hstored hp
  · exact meaningKept_of_nonneg hstored

/-! ### The mapping of a blind -/

/-- The configuration of a channel that is "up" at 1 and "down" at another integer. -/
def blindConfig (down : String) : PTree :=
  .node []
    [(str "number", .node (str "0") []), (str "name", .node (str "blind") []),
      (str "mqtt_topic", .node (str "room") []), (str "mqtt_subscribe", .node (str "true") []),
      (str "value_mapping", .node []
        [([], .node [] [(str "value", .node (str "1") []), (str "mapp_to", .node (str "up") [])]),
          ([], .node []
            [(str "value", .node (str down) []), (str "mapp_to", .node (str "down") [])])])]

theorem meaningKept_zero :
    MeaningKept [(str "1", str "up"), (str "0", str "down")] [(1, str "up"), (0, str "down")] := by
  have hread : readChannel (blindConfig "0")
      = some ⟨0, str "blind", str "room", true, [(1, str "up"), (0, str "down")]⟩ := rfl
  have htexts : channelTexts (blindConfig "0")
      = some [(str "1", str "up"), (str "0", str "down")] := rfl
  apply (meaningKept_iff hread htexts).mpr
  intro p hp z hz
  rcases List.mem_pair.mp hp with rfl | rfl
  · have hone : stoi (str "1") = .ok 1 := rfl
    rw [eq_of_denotes_of_stoi hz hone]
    decide
  · have hzero : stoi (str "0") = .ok 0 := rfl
    exact (eq_of_denotes_of_stoi hz hzero).ge

/-- A device with this channel as its only input. -/
def blindDeviceConfig (down : String) : PTree :=
  .node [] [(str "wireless_list", .node [] [([], .node []
    [(str "dev_name", .node (str "node") []), (str "input_mqtt_topic", .node (str "in") []),
      (str "output_mqtt_topic", .node (str "out") []),
      (str "status_mqtt_topic", .node (str "status") []),
      (str "node_timeout_in_sec", .node (str "60") []),
      (str "node_connection_attempt", .node (str "3") []),
      (str "input_mapping", .node [] [([], blindConfig down)]),
      (str "output_mapping", .node [] [])])])]

/-- The integer -1 is accepted and stored as 65535; a report of "-1" then sets nothing. -/
theorem not_meaningKept_minusOne :
    ¬ ∀ (cfgPath : Str) (tree : PTree) (table : GwtTable),
        CDeviceConfig cfgPath (.parsed tree) = .ok table →
        ∀ t ∈ channelTrees tree, ∀ (c : RouterDeviceChannel) (texts : List (Str × Str)),
          readChannel t = some c → channelTexts t = some texts →
          MeaningKept texts c.valueMapping := by
  intro hclaim
  have hread : readChannel (blindConfig "-1")
      = some ⟨0, str "blind", str "room", true, [(1, str "up"), (65535, str "down")]⟩ := rfl
  have htexts : channelTexts (blindConfig "-1")
      = some [(str "1", str "up"), (str "-1", str "down")] := rfl
  have hkept := hclaim (str "devices.json") (blindDeviceConfig "-1") _ rfl (blindConfig "-1")
    (List.mem_singleton_self _) _ _ hread htexts
  have hdigits : ∀ d ∈ str "1", isDigit d = true := by
    intro d hd
    rw [List.mem_singleton.mp hd]
    rfl
  have hdenotes : Denotes (str "-1") (-1) :=
    ⟨⟨[], .minus, str "1", [], List.forall_mem_nil _, List.forall_mem_nil _, List.cons_ne_nil _ _,
      hdigits⟩, rfl, rfl⟩
  have hmem : (str "-1", str "down") ∈ [(str "1", str "up"), (str "-1", str "down")] :=
    List.mem_pair.mpr (.inr rfl)
  exact absurd (hkept.nonneg (forall₂_stored hread htexts) hmem hdenotes) (by decide)

end WBridge
