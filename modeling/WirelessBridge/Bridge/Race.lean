import WirelessBridge.Bridge.Step
import WirelessBridge.Lib.Interleaving

/-!
# A tick against a message

The watchdog runs on a worker thread and messages are handled on the listener thread, with no
lock between them. Here one pass of the watchdog over the block of a device is taken step by step,
against the effects of one message.
-/

namespace WBridge

open Lib HBE System Mqtt

/-- What both sides work on: the block of the device, and the last value set on its status topic. -/
@[ext]
structure Shared where
  blk : DevServiceBlk
  status : Option Str
  deriving DecidableEq

def Effect.valueOn? (topic : Str) : Effect → Option Str
  | .setTopic t msg => if t = topic then some msg else none
  | _ => none

/-- The last value that a list of effects sets on a topic. -/
def lastSet (topic : Str) (es : List Effect) : Option Str :=
  (es.filterMap (Effect.valueOn? topic)).getLast?

namespace Shared

def perform (item : RouterDeviceItem) (σ : Shared) (e : Effect) : Shared :=
  ⟨σ.blk.perform item.devName e, (e.valueOn? item.statusMqttTopic).or σ.status⟩

abbrev performAll (item : RouterDeviceItem) (σ : Shared) (es : List Effect) : Shared :=
  es.foldl (perform item) σ

/-- One pass of the watchdog, undisturbed. -/
def tick (item : RouterDeviceItem) (itrTime : ℤ) (σ : Shared) : Shared :=
  σ.performAll item (watchdogPass item itrTime item.devName σ.blk)

end Shared

section

variable {item : RouterDeviceItem} {topic : Str} {σ : Shared} {e : Effect} {es a b : List Effect}

@[simp] lemma lastSet_nil : lastSet topic [] = none := rfl

@[simp] lemma lastSet_append : lastSet topic (a ++ b) = (lastSet topic b).or (lastSet topic a) := by
  simp [lastSet, List.getLast?_append]

lemma lastSet_cons : lastSet topic (e :: es) = (lastSet topic es).or (e.valueOn? topic) := by
  have hone : lastSet topic [e] = e.valueOn? topic := by
    cases h : e.valueOn? topic <;> simp [lastSet, h]
  rw [← List.singleton_append, lastSet_append, hone]

namespace Shared

lemma blk_performAll :
    (σ.performAll item es).blk = es.foldl (DevServiceBlk.perform item.devName) σ.blk := by
  induction es generalizing σ with
  | nil => rfl
  | cons e es ih => exact ih

lemma status_performAll :
    (σ.performAll item es).status = (lastSet item.statusMqttTopic es).or σ.status := by
  induction es generalizing σ with
  | nil => rfl
  | cons e es ih =>
    show ((σ.perform item e).performAll item es).status = _
    rw [ih, lastSet_cons, Option.or_assoc]
    rfl

lemma blk_performAll_of_free (h : ∀ e ∈ es, e.device? ≠ some item.devName) :
    (σ.performAll item es).blk = σ.blk := by
  rw [blk_performAll, DevServiceBlk.foldl_perform_of_device_ne h]

/-- An effect that leaves the block alone may be left out as far as the block goes. -/
lemma blk_performAll_insert (he : e.device? ≠ some item.devName) :
    (σ.performAll item (a ++ e :: b)).blk = (σ.performAll item (a ++ b)).blk := by
  rw [blk_performAll, blk_performAll]
  simp only [List.foldl_append, List.foldl_cons, DevServiceBlk.perform_of_device_ne he]

/-- The block after one undisturbed pass. -/
lemma blk_tick (itrTime : ℤ) :
    (σ.tick item itrTime).blk
      = if σ.blk.timeToAttempt < itrTime then
          if σ.blk.spentAttempt < item.nodeConnectionAttempt then
            ⟨σ.blk.spentAttempt + 1, itrTime + seconds item.nodeTimeoutInSec⟩
          else ⟨σ.blk.spentAttempt + 1, σ.blk.timeToAttempt⟩
        else σ.blk := by
  simp only [tick, blk_performAll, watchdogPass]
  split_ifs <;> simp [DevServiceBlk.perform]

lemma status_tick (itrTime : ℤ) :
    (σ.tick item itrTime).status
      = if Announces item itrTime σ.blk then some (str "error") else σ.status := by
  simp only [tick, status_performAll, watchdogPass, Announces, DevServiceBlk.verdict_budget]
  split_ifs <;> simp_all [lastSet_cons, Effect.valueOn?]

end Shared

end

/-! ### The pass of the watchdog, step by step -/

/-- The next step of the pass, `incrementPast` being the increment in the comparison for
equality. -/
inductive TickPoint where
  | readDeadline | compare | increment | writeDeadline | incrementPast | announce | done
  deriving DecidableEq

def tickStep (item : RouterDeviceItem) (itrTime : ℤ) :
    TickPoint → Shared → Option (TickPoint × Shared)
  | .readDeadline, σ => some (if σ.blk.timeToAttempt < itrTime then .compare else .done, σ)
  | .compare, σ =>
    some (if σ.blk.spentAttempt < item.nodeConnectionAttempt then .increment else .incrementPast, σ)
  | .increment, σ =>
    some (.writeDeadline, σ.perform item (.spentAttempt item.devName (σ.blk.spentAttempt + 1)))
  | .writeDeadline, σ =>
    some (.done,
      σ.perform item (.timeToAttempt item.devName (itrTime + seconds item.nodeTimeoutInSec)))
  | .incrementPast, σ =>
    some (if σ.blk.spentAttempt = item.nodeConnectionAttempt then .announce else .done,
      σ.perform item (.spentAttempt item.devName (σ.blk.spentAttempt + 1)))
  | .announce, σ => some (.done, σ.perform item (.setTopic item.statusMqttTopic (str "error")))
  | .done, _ => none

/-- Some interleaving of the pass, from the given point on, with the effects `es` ends in `τ`. -/
abbrev Race (item : RouterDeviceItem) (itrTime : ℤ) : TickPoint → List Effect → Shared → Shared → Prop :=
  Interleaved (tickStep item itrTime) (Shared.perform item)

variable {item : RouterDeviceItem} {itrTime : ℤ} {σ τ : Shared} {es : List Effect}

lemma race_done : Race item itrTime .done es σ τ ↔ τ = σ.performAll item es :=
  Interleaved.iff_of_ended fun _ => rfl

lemma race_announce :
    Race item itrTime .announce es σ τ ↔
      ∃ f g, es = f ++ g ∧
        τ = σ.performAll item (f ++ .setTopic item.statusMqttTopic (str "error") :: g) := by
  refine (Interleaved.iff_of_running fun _ => rfl).trans ?_
  simp [race_done]

lemma race_incrementPast :
    Race item itrTime .incrementPast es σ τ ↔
      ∃ a b, es = a ++ b ∧
        if (σ.performAll item a).blk.spentAttempt = item.nodeConnectionAttempt then
          Race item itrTime .announce b ((σ.performAll item a).perform item
            (.spentAttempt item.devName ((σ.performAll item a).blk.spentAttempt + 1))) τ
        else τ = ((σ.performAll item a).perform item
            (.spentAttempt item.devName ((σ.performAll item a).blk.spentAttempt + 1))).performAll
              item b := by
  refine (Interleaved.iff_of_running fun _ => rfl).trans ?_
  refine exists₂_congr fun a b => and_congr_right fun _ => ?_
  simp only
  split
  · rfl
  · exact race_done

lemma race_increment :
    Race item itrTime .increment es σ τ ↔
      ∃ a b, es = a ++ b ∧
        Race item itrTime .writeDeadline b ((σ.performAll item a).perform item
          (.spentAttempt item.devName ((σ.performAll item a).blk.spentAttempt + 1))) τ :=
  (Interleaved.iff_of_running fun _ => rfl).trans Iff.rfl

lemma race_writeDeadline :
    Race item itrTime .writeDeadline es σ τ ↔
      ∃ f g, es = f ++ g ∧
        τ = σ.performAll item (f ++ .timeToAttempt item.devName
          (itrTime + seconds item.nodeTimeoutInSec) :: g) := by
  refine (Interleaved.iff_of_running fun _ => rfl).trans ?_
  simp [race_done]

lemma race_compare :
    Race item itrTime .compare es σ τ ↔
      ∃ a b, es = a ++ b ∧
        if (σ.performAll item a).blk.spentAttempt < item.nodeConnectionAttempt then
          Race item itrTime .increment b (σ.performAll item a) τ
        else Race item itrTime .incrementPast b (σ.performAll item a) τ := by
  refine (Interleaved.iff_of_running fun _ => rfl).trans ?_
  refine exists₂_congr fun a b => and_congr_right fun _ => ?_
  simp only
  split <;> rfl

lemma race_readDeadline :
    Race item itrTime .readDeadline es σ τ ↔
      ∃ a b, es = a ++ b ∧
        if (σ.performAll item a).blk.timeToAttempt < itrTime then
          Race item itrTime .compare b (σ.performAll item a) τ
        else τ = σ.performAll item es := by
  refine (Interleaved.iff_of_running fun _ => rfl).trans ?_
  refine exists₂_congr fun a b => and_congr_right fun hab => ?_
  simp only
  split
  · rfl
  · refine race_done.trans ?_
    rw [hab, Shared.performAll, Shared.performAll, List.foldl_append]

/-- Left alone, the steps make up the pass. -/
theorem race_alone : Race item itrTime .readDeadline [] σ τ ↔ τ = σ.tick item itrTime := by
  have hnil : ∀ {P : List Effect → List Effect → Prop},
      (∃ a b, [] = a ++ b ∧ P a b) ↔ P [] [] := by
    intro P
    constructor
    · rintro ⟨a, b, hab, h⟩
      obtain ⟨rfl, rfl⟩ := List.append_eq_nil_iff.mp hab.symm
      exact h
    · exact fun h => ⟨[], [], rfl, h⟩
  simp only [race_readDeadline, race_compare, race_increment, race_writeDeadline,
    race_incrementPast, race_announce, hnil, List.foldl_nil, Shared.tick, watchdogPass]
  split_ifs <;> rfl

/-! ### A message that does not write the block -/

/-- Whatever the effects set last on the status topic is "error". -/
def Calm (topic : Str) (es : List Effect) : Prop := ∀ m, lastSet topic es = some m → m = str "error"

lemma Calm.or_error {topic : Str} (h : Calm topic es) :
    (lastSet topic es).or (some (str "error")) = some (str "error") := by
  cases hm : lastSet topic es with
  | none => rfl
  | some m => rw [h m hm]; rfl

lemma Calm.suffix {topic : Str} {a b : List Effect} (h : Calm topic (a ++ b)) : Calm topic b :=
  fun m hm => h m (by simp [hm])

/-- The two serial results agree, or differ in the order of "error" and the values set. -/
lemma tick_performAll (hfree : ∀ e ∈ es, e.device? ≠ some item.devName)
    (hcalm : Announces item itrTime σ.blk → Calm item.statusMqttTopic es) :
    (σ.tick item itrTime).performAll item es = (σ.performAll item es).tick item itrTime := by
  have hblk := Shared.blk_performAll_of_free (σ := σ) hfree
  apply Shared.ext
  · rw [Shared.blk_performAll_of_free hfree, Shared.blk_tick, Shared.blk_tick, hblk]
  · rw [Shared.status_performAll, Shared.status_tick, Shared.status_tick, hblk,
      Shared.status_performAll]
    split_ifs with hann
    · exact (hcalm hann).or_error
    · rfl

/-- What the rest of an undisturbed pass makes of the block, and whether it announces. -/
def passRest (item : RouterDeviceItem) (itrTime : ℤ) :
    TickPoint → DevServiceBlk → DevServiceBlk × Prop
  | .readDeadline, b =>
    if b.timeToAttempt < itrTime then
      if b.spentAttempt < item.nodeConnectionAttempt then
        (⟨b.spentAttempt + 1, itrTime + seconds item.nodeTimeoutInSec⟩, False)
      else (⟨b.spentAttempt + 1, b.timeToAttempt⟩, b.spentAttempt = item.nodeConnectionAttempt)
    else (b, False)
  | .compare, b =>
    if b.spentAttempt < item.nodeConnectionAttempt then
      (⟨b.spentAttempt + 1, itrTime + seconds item.nodeTimeoutInSec⟩, False)
    else (⟨b.spentAttempt + 1, b.timeToAttempt⟩, b.spentAttempt = item.nodeConnectionAttempt)
  | .increment, b => (⟨b.spentAttempt + 1, itrTime + seconds item.nodeTimeoutInSec⟩, False)
  | .writeDeadline, b => (⟨b.spentAttempt, itrTime + seconds item.nodeTimeoutInSec⟩, False)
  | .incrementPast, b =>
    (⟨b.spentAttempt + 1, b.timeToAttempt⟩, b.spentAttempt = item.nodeConnectionAttempt)
  | .announce, b => (b, True)
  | .done, b => (b, False)

lemma passRest_readDeadline (b : DevServiceBlk) :
    (passRest item itrTime .readDeadline b).2 ↔ Announces item itrTime b := by
  simp only [passRest, Announces, DevServiceBlk.verdict_budget]
  split_ifs <;> simp_all

lemma passRest_step {p p' : TickPoint} {σ' : Shared} (hp : p ≠ .announce)
    (h : tickStep item itrTime p σ = some (p', σ')) :
    passRest item itrTime p σ.blk = passRest item itrTime p' σ'.blk ∧ σ'.status = σ.status := by
  cases p with
  | announce => exact absurd rfl hp
  | done => simp [tickStep] at h
  | increment =>
    obtain ⟨rfl, rfl⟩ := Prod.mk.inj (Option.some.inj h)
    simp [passRest, Shared.perform, DevServiceBlk.perform, Effect.valueOn?]
  | writeDeadline =>
    obtain ⟨rfl, rfl⟩ := Prod.mk.inj (Option.some.inj h)
    simp [passRest, Shared.perform, DevServiceBlk.perform, Effect.valueOn?]
  | readDeadline =>
    obtain ⟨rfl, rfl⟩ := Prod.mk.inj (Option.some.inj h)
    split_ifs with hdue <;> simp [passRest, hdue]
  | compare =>
    obtain ⟨rfl, rfl⟩ := Prod.mk.inj (Option.some.inj h)
    split_ifs with hlt <;> simp [passRest, hlt]
  | incrementPast =>
    obtain ⟨rfl, rfl⟩ := Prod.mk.inj (Option.some.inj h)
    split_ifs with heq <;>
      simp [passRest, heq, Shared.perform, DevServiceBlk.perform, Effect.valueOn?]

/-- When the message does not write the block, the pass does to it what it would do alone, and its
"error" comes before, between or behind the values set. -/
lemma race_rest {p : TickPoint} (h : Race item itrTime p es σ τ)
    (hfree : ∀ e ∈ es, e.device? ≠ some item.devName) :
    τ.blk = (passRest item itrTime p σ.blk).1 ∧
      (¬ (passRest item itrTime p σ.blk).2 →
        τ.status = (lastSet item.statusMqttTopic es).or σ.status) ∧
      ((passRest item itrTime p σ.blk).2 → τ.status = some (str "error") ∨
        τ.status = (lastSet item.statusMqttTopic es).or (some (str "error"))) := by
  induction h with
  | @done p σ h =>
    cases p <;> simp [tickStep] at h
    simp [passRest]
  | @step p p' es σ σ' τ h hrest ih =>
    obtain ⟨hblk, hquiet, hann⟩ := ih hfree
    by_cases hp : p = .announce
    · subst hp
      obtain ⟨rfl, rfl⟩ := Prod.mk.inj (Option.some.inj h)
      refine ⟨hblk, by simp [passRest], fun _ => .inr ?_⟩
      simpa [Shared.perform, Effect.valueOn?] using hquiet (by simp [passRest])
    · obtain ⟨hrest, hstatus⟩ := passRest_step hp h
      rw [← hrest] at hblk hquiet hann
      rw [hstatus] at hquiet
      exact ⟨hblk, hquiet, hann⟩
  | @act p e es σ τ hrest ih =>
    obtain ⟨he, hes⟩ := List.forall_mem_cons.mp hfree
    obtain ⟨hblk, hquiet, hann⟩ := ih hes
    have hsame : (σ.perform item e).blk = σ.blk := DevServiceBlk.perform_of_device_ne he _
    rw [hsame] at hblk hquiet hann
    refine ⟨hblk, ?_, ?_⟩
    · intro hp
      rw [hquiet hp, lastSet_cons, Option.or_assoc]
      rfl
    · intro hp
      rcases hann hp with h | h
      · exact .inl h
      · cases hlast : lastSet item.statusMqttTopic es with
        | none => exact .inl (by rw [h, hlast]; rfl)
        | some m => exact .inr (by rw [h, lastSet_cons, hlast]; rfl)

/-- As long as the block is not written, every interleaving comes to one of the serial results. -/
theorem race_of_free (hfree : ∀ e ∈ es, e.device? ≠ some item.devName)
    (h : Race item itrTime .readDeadline es σ τ) :
    τ = (σ.tick item itrTime).performAll item es ∨
      τ = (σ.performAll item es).tick item itrTime := by
  obtain ⟨hblk, hquiet, hann⟩ := race_rest h hfree
  rw [passRest_readDeadline] at hquiet hann
  have hpass : (passRest item itrTime .readDeadline σ.blk).1 = (σ.tick item itrTime).blk := by
    rw [Shared.blk_tick, passRest]
    split_ifs <;> rfl
  have hsame : (σ.performAll item es).blk = σ.blk := Shared.blk_performAll_of_free hfree
  have hblk₁ : τ.blk = ((σ.tick item itrTime).performAll item es).blk := by
    rw [hblk, hpass, Shared.blk_performAll_of_free hfree]
  have hblk₂ : τ.blk = ((σ.performAll item es).tick item itrTime).blk := by
    rw [hblk, hpass, Shared.blk_tick, Shared.blk_tick, hsame]
  by_cases ha : Announces item itrTime σ.blk
  · rcases hann ha with hstatus | hstatus
    · right
      exact Shared.ext hblk₂ (by rw [hstatus, Shared.status_tick, hsame, if_pos ha])
    · left
      exact Shared.ext hblk₁
        (by rw [hstatus, Shared.status_performAll, Shared.status_tick, if_pos ha])
  · left
    exact Shared.ext hblk₁
      (by rw [hquiet ha, Shared.status_performAll, Shared.status_tick, if_neg ha])

end WBridge
