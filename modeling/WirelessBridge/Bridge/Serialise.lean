import WirelessBridge.Bridge.Race

/-!
# Which ticks and messages serialise

A message that resets the block of a device races with the pass of the watchdog over that block.
The pass is harmless when it reads the deadline behind the reset, or finds it not yet passed. When
it reads an old deadline that has passed, it acts on a block that is no longer the one it read.
-/

namespace WBridge

open Lib HBE System Mqtt

/-- Effects of which `front` come before the last reset of the block, and `back` after it. -/
def withReset (item : RouterDeviceItem) (front : List Effect) (d : ℤ) (back : List Effect) :
    List Effect :=
  front ++ .spentAttempt item.devName 0 :: .timeToAttempt item.devName d :: back

/-- Every interleaving of the pass with the effects `es` ends as one of the two serial orders. -/
def Serialises (item : RouterDeviceItem) (itrTime : ℤ) (es : List Effect) (σ : Shared) : Prop :=
  ∀ τ, Race item itrTime .readDeadline es σ τ →
    τ = (σ.tick item itrTime).performAll item es ∨ τ = (σ.performAll item es).tick item itrTime

/-- What the two clock readings, the counter and the values set have to be. -/
structure Compatible (item : RouterDeviceItem) (itrTime : ℤ) (front : List Effect) (d : ℤ)
    (back : List Effect) (σ : Shared) : Prop where
  /-- A pass that finds even the new deadline passed, and then gives the device up at once, is not
  overtaken by a value other than "error". -/
  late : d < itrTime → item.nodeConnectionAttempt = 0 → Calm item.statusMqttTopic back
  /-- A deadline seen before the last reset has not passed, unless the new one has passed as well
  and there is no attempt to count. -/
  early : ∀ a, a <+: front → (σ.performAll item a).blk.timeToAttempt < itrTime →
    d < itrTime ∧ item.nodeConnectionAttempt = 0
  /-- If the device can be given up before the last reset, "error" is what the status would be with
  the message last. -/
  announced : ∀ a p, a <+: p → p <+: front → (σ.performAll item a).blk.timeToAttempt < itrTime →
    (σ.performAll item p).blk.spentAttempt = 0 →
    (lastSet item.statusMqttTopic (front ++ back)).or
      (if Announces item itrTime σ.blk then some (str "error") else σ.status) = some (str "error")
  /-- If the pass can miss the deadlines on which it would give the device up, the status is
  "error" anyway. -/
  missed : ∀ a a', a <+: front → a' <+: front → itrTime ≤ (σ.performAll item a).blk.timeToAttempt →
    (σ.performAll item a').blk.timeToAttempt < itrTime → Announces item itrTime σ.blk →
    lastSet item.statusMqttTopic (front ++ back) = none → σ.status = some (str "error")

variable {item : RouterDeviceItem} {itrTime d : ℤ} {σ τ : Shared}
  {front back es a b r : List Effect}

/-! ### Around a reset -/

section

variable (hback : ∀ e ∈ back, e.device? ≠ some item.devName)
include hback

lemma blk_withReset : (σ.performAll item (withReset item front d back)).blk = ⟨0, d⟩ := by
  rw [withReset, Shared.performAll, List.foldl_append]
  show (Shared.performAll item _ back).blk = _
  rw [Shared.blk_performAll_of_free hback]
  simp [Shared.perform, DevServiceBlk.perform]

lemma blk_tickThenUpdate :
    ((σ.tick item itrTime).performAll item (withReset item front d back)).blk = ⟨0, d⟩ :=
  blk_withReset hback

lemma blk_updateThenTick :
    ((σ.performAll item (withReset item front d back)).tick item itrTime).blk
      = if d < itrTime then
          if 0 < item.nodeConnectionAttempt then
            ⟨1, itrTime + seconds item.nodeTimeoutInSec⟩
          else ⟨1, d⟩
        else ⟨0, d⟩ := by
  rw [Shared.blk_tick, blk_withReset hback]
  simp

end

lemma lastSet_withReset (topic : Str) :
    lastSet topic (withReset item front d back) = lastSet topic (front ++ back) := by
  simp [withReset, lastSet_cons, Effect.valueOn?]

/-- A part of the effects stops before the last reset, or has begun it. -/
lemma split_withReset (h : withReset item front d back = a ++ b) :
    (∃ a', front = a ++ a' ∧ b = withReset item a' d back) ∨
      ∃ r, a = front ++ .spentAttempt item.devName 0 :: r ∧
        .timeToAttempt item.devName d :: back = r ++ b := by
  rcases List.append_eq_append_iff.mp h with ⟨a', rfl, hb⟩ | ⟨a', rfl, hb⟩
  · cases a' with
    | nil => exact .inl ⟨[], by simp, by simpa [withReset] using hb.symm⟩
    | cons e r =>
      obtain ⟨rfl, hr⟩ := List.cons.inj hb
      exact .inr ⟨r, rfl, hr⟩
  · exact .inl ⟨a', rfl, hb⟩

lemma performAll_append : σ.performAll item (a ++ b) = (σ.performAll item a).performAll item b :=
  List.foldl_append

/-- Part of the way into the last reset, the counter has been cleared. -/
lemma spentAttempt_inReset (σ : Shared) (front : List Effect)
    (hback : ∀ e ∈ back, e.device? ≠ some item.devName)
    (hr : .timeToAttempt item.devName d :: back = r ++ b) :
    (σ.performAll item (front ++ .spentAttempt item.devName 0 :: r)).blk.spentAttempt = 0 := by
  rw [performAll_append]
  cases r with
  | nil => simp [Shared.perform, DevServiceBlk.perform]
  | cons e c =>
    obtain ⟨rfl, rfl⟩ := List.cons.inj hr
    show (Shared.performAll item _ c).blk.spentAttempt = 0
    rw [Shared.blk_performAll_of_free fun e he => hback e (List.mem_append_left _ he)]
    simp [Shared.perform, DevServiceBlk.perform]

/-- From there on, what is left of the effects leaves the new deadline and a counter of its own. -/
lemma blk_afterIncrement (σ : Shared) (front : List Effect)
    (hback : ∀ e ∈ back, e.device? ≠ some item.devName)
    (hr : .timeToAttempt item.devName d :: back = r ++ b) (n : UInt32) :
    (((σ.performAll item (front ++ .spentAttempt item.devName 0 :: r)).perform item
      (.spentAttempt item.devName n)).performAll item b).blk = ⟨n, d⟩ := by
  rw [performAll_append]
  cases r with
  | nil =>
    obtain rfl : b = .timeToAttempt item.devName d :: back := hr.symm
    show (Shared.performAll item _ back).blk = _
    rw [Shared.blk_performAll_of_free hback]
    simp [Shared.perform, DevServiceBlk.perform]
  | cons e c =>
    obtain ⟨rfl, rfl⟩ := List.cons.inj hr
    obtain ⟨hc, hb⟩ := List.forall_mem_append.mp hback
    rw [Shared.blk_performAll_of_free hb]
    simp [Shared.perform, DevServiceBlk.perform, Shared.blk_performAll,
      DevServiceBlk.foldl_perform_of_device_ne hc]

/-! ### A device without connection attempts -/

/-- From the comparison on, such a device is given up if its counter is zero at the increment. -/
lemma race_compare_zero (hzero : item.nodeConnectionAttempt = 0)
    (h : Race item itrTime .compare es σ τ) :
    ∃ p q, es = p ++ q ∧
      let σ' := (σ.performAll item p).perform item
        (.spentAttempt item.devName ((σ.performAll item p).blk.spentAttempt + 1))
      ((σ.performAll item p).blk.spentAttempt ≠ 0 ∧ τ = σ'.performAll item q) ∨
      ((σ.performAll item p).blk.spentAttempt = 0 ∧ ∃ f g, q = f ++ g ∧
        τ = σ'.performAll item (f ++ .setTopic item.statusMqttTopic (str "error") :: g)) := by
  obtain ⟨a, b, rfl, h₁⟩ := race_compare.mp h
  rw [hzero, if_neg (by simp)] at h₁
  obtain ⟨c, q, rfl, h₂⟩ := race_incrementPast.mp h₁
  rw [hzero, ← performAll_append] at h₂
  refine ⟨a ++ c, q, by simp, ?_⟩
  split at h₂
  · rename_i hspent
    exact .inr ⟨hspent, race_announce.mp h₂⟩
  · rename_i hspent
    exact .inl ⟨hspent, h₂⟩

/-- While only resets are performed, a counter of zero stays zero. -/
lemma spentAttempt_of_resets (hfront : ∀ v, .spentAttempt item.devName v ∈ front → v = 0)
    (hzero : σ.blk.spentAttempt = 0) : (σ.performAll item front).blk.spentAttempt = 0 := by
  induction front generalizing σ with
  | nil => exact hzero
  | cons e rest ih =>
    have hrest : ∀ v, .spentAttempt item.devName v ∈ rest → v = 0 :=
      fun v hv => hfront v (List.mem_cons_of_mem _ hv)
    apply ih hrest
    cases e with
    | spentAttempt n v =>
      by_cases hn : n = item.devName
      · subst hn
        have hv : v = 0 := hfront v List.mem_cons_self
        simp [Shared.perform, DevServiceBlk.perform, hv]
      · simpa [Shared.perform, DevServiceBlk.perform, hn] using hzero
    | timeToAttempt n t =>
      by_cases hn : n = item.devName
      · simpa [Shared.perform, DevServiceBlk.perform, hn] using hzero
      · simpa [Shared.perform, DevServiceBlk.perform, hn] using hzero
    | setTopic t m => exact hzero
    | report l m => exact hzero

/-! ### Compatible readings serialise -/

section

variable (hback : ∀ e ∈ back, e.device? ≠ some item.devName)
  (hfront : ∀ v, .spentAttempt item.devName v ∈ front → v = 0)
  (h : Compatible item itrTime front d back σ)
include hback h

/-- The pass found a deadline before the reset not yet passed, and did nothing. -/
lemma serial_of_notDue (ha : a <+: front) (hdue : itrTime ≤ (σ.performAll item a).blk.timeToAttempt) :
    σ.performAll item (withReset item front d back)
      = (σ.tick item itrTime).performAll item (withReset item front d back) := by
  apply Shared.ext
  · rw [blk_withReset hback, blk_withReset hback]
  · rw [Shared.status_performAll, Shared.status_performAll, Shared.status_tick]
    by_cases hann : Announces item itrTime σ.blk
    · rw [if_pos hann]
      cases hlast : lastSet item.statusMqttTopic (withReset item front d back) with
      | some m => rfl
      | none =>
        rw [lastSet_withReset] at hlast
        have hnow : σ.blk.timeToAttempt < itrTime := by
          by_contra hnot
          simp [Announces, DevServiceBlk.verdict_budget, hnot] at hann
        rw [h.missed a [] ha (List.nil_prefix) hdue hnow hann hlast]
    · rw [if_neg hann]

/-- The pass gave the device up between the clearing of the counter and its own "error". -/
lemma serial_of_inReset {f g q : List Effect} (hd : d < itrTime)
    (hzero : item.nodeConnectionAttempt = 0)
    (hr : .timeToAttempt item.devName d :: back = r ++ q) (hq : q = f ++ g) :
    ((σ.performAll item (front ++ .spentAttempt item.devName 0 :: r)).perform item
        (.spentAttempt item.devName 1)).performAll item
          (f ++ .setTopic item.statusMqttTopic (str "error") :: g)
      = (σ.performAll item (withReset item front d back)).tick item itrTime := by
  have hcalm : Calm item.statusMqttTopic g := by
    have hall : Calm item.statusMqttTopic (.timeToAttempt item.devName d :: back) := by
      intro m hm
      exact h.late hd hzero m (by simpa [lastSet_cons, Effect.valueOn?] using hm)
    rw [hr, hq, ← List.append_assoc] at hall
    exact hall.suffix
  have hann : Announces item itrTime
      (σ.performAll item (withReset item front d back)).blk := by
    rw [blk_withReset hback]
    simp [Announces, DevServiceBlk.verdict_budget, hd, hzero]
  apply Shared.ext
  · rw [Shared.blk_performAll_insert (by simp [Effect.device?]), ← hq,
      blk_afterIncrement _ _ hback hr, blk_updateThenTick hback, if_pos hd, hzero]
    rfl
  · rw [Shared.status_performAll, Shared.status_tick, if_pos hann, lastSet_append, lastSet_cons]
    simp only [Effect.valueOn?, if_true]
    rw [hcalm.or_error]
    rfl

/-- The pass gave the device up before the last reset. -/
lemma serial_of_announced {p f g : List Effect} {n : UInt32} (ha : a <+: p)
    (hp : p <+: front) (hdue : (σ.performAll item a).blk.timeToAttempt < itrTime)
    (hspent : (σ.performAll item p).blk.spentAttempt = 0)
    (hq : withReset item front d back = p ++ (f ++ g)) :
    ((σ.performAll item p).perform item (.spentAttempt item.devName n)).performAll item
        (f ++ .setTopic item.statusMqttTopic (str "error") :: g)
      = (σ.tick item itrTime).performAll item (withReset item front d back) := by
  have herror := h.announced a p ha hp hdue hspent
  rw [← @lastSet_withReset item d front back, ← Shared.status_tick] at herror
  obtain ⟨p', rfl⟩ := hp
  have hfg : withReset item p' d back = f ++ g := by
    simpa [withReset] using hq
  apply Shared.ext
  · rw [Shared.blk_performAll_insert (by simp [Effect.device?]), ← hfg, blk_withReset hback,
      blk_withReset hback]
  · rw [Shared.status_performAll, Shared.status_performAll, herror, lastSet_append, lastSet_cons,
      Option.or_assoc, Option.or_assoc]
    cases hg : lastSet item.statusMqttTopic g with
    | none => simp [Effect.valueOn?]
    | some m =>
      rw [hq] at herror
      simpa [hg] using herror

omit h in
include hfront in
/-- The pass passed over a counter that was not zero, before the last reset. -/
lemma serial_of_notAnnounced {p q : List Effect} {n : UInt32}
    (hzero : item.nodeConnectionAttempt = 0) (hp : p <+: front)
    (hspent : (σ.performAll item p).blk.spentAttempt ≠ 0)
    (hq : withReset item front d back = p ++ q) :
    ((σ.performAll item p).perform item (.spentAttempt item.devName n)).performAll item q
      = (σ.tick item itrTime).performAll item (withReset item front d back) := by
  have hann : ¬ Announces item itrTime σ.blk := by
    intro hann
    have hnow : σ.blk.spentAttempt = 0 := by
      simp only [Announces, DevServiceBlk.verdict_budget, hzero] at hann
      split_ifs at hann with _ _ heq
      exact heq
    refine hspent (spentAttempt_of_resets (fun v hv => hfront v ?_) hnow)
    exact hp.subset hv
  obtain ⟨p', rfl⟩ := hp
  have hq' : withReset item p' d back = q := by
    simpa [withReset] using hq
  apply Shared.ext
  · rw [← hq', blk_withReset hback, blk_withReset hback]
  · rw [Shared.status_performAll, Shared.status_performAll, Shared.status_tick, if_neg hann, hq,
      lastSet_append, Option.or_assoc]
    congr 1
    exact Shared.status_performAll

include hfront in
/-- A pass over a device without attempts that goes on to the comparison. -/
lemma serial_of_compare (hd : d < itrTime) (hzero : item.nodeConnectionAttempt = 0)
    (hab : withReset item front d back = a ++ b)
    (hdue : a <+: front → (σ.performAll item a).blk.timeToAttempt < itrTime)
    (hrace : Race item itrTime .compare b (σ.performAll item a) τ) :
    τ = (σ.tick item itrTime).performAll item (withReset item front d back) ∨
      τ = (σ.performAll item (withReset item front d back)).tick item itrTime := by
  obtain ⟨p, q, rfl, hend⟩ := race_compare_zero hzero hrace
  simp only [← performAll_append] at hend
  have hsplit : withReset item front d back = (a ++ p) ++ q := by rw [hab, List.append_assoc]
  rcases split_withReset hsplit with ⟨p', hp', -⟩ | ⟨r, hr, hrest⟩
  · have hp : a ++ p <+: front := ⟨p', hp'.symm⟩
    have ha : a <+: a ++ p := List.prefix_append a p
    left
    rcases hend with ⟨hspent, rfl⟩ | ⟨hspent, f, g, rfl, rfl⟩
    · exact serial_of_notAnnounced hback hfront hzero hp hspent hsplit
    · exact serial_of_announced hback h ha hp (hdue (ha.trans hp)) hspent hsplit
  · have hspent := spentAttempt_inReset σ front hback hrest
    right
    rw [hr, hspent] at hend
    rcases hend with ⟨hne, -⟩ | ⟨-, f, g, rfl, rfl⟩
    · exact absurd rfl hne
    · exact serial_of_inReset hback h hd hzero hrest rfl

include hfront in
/-- Where the readings are compatible, the order of the steps does not matter. -/
theorem serialises_of_compatible : Serialises item itrTime (withReset item front d back) σ := by
  intro τ hrace
  obtain ⟨a, b, hab, hrest⟩ := race_readDeadline.mp hrace
  -- where the deadline is read: before it is written for the last time, or after
  have hwhere : (∃ a₀, a₀ <+: front ∧
        (σ.performAll item a).blk.timeToAttempt = (σ.performAll item a₀).blk.timeToAttempt ∧
        (a <+: front → a = a₀)) ∨
      ∃ c, a = front ++ .spentAttempt item.devName 0 :: .timeToAttempt item.devName d :: c ∧
        back = c ++ b := by
    rcases split_withReset hab with ⟨a', rfl, -⟩ | ⟨r, rfl, hr⟩
    · exact .inl ⟨a, List.prefix_append a a', rfl, fun _ => rfl⟩
    · cases r with
      | nil =>
        left
        refine ⟨front, List.prefix_rfl, ?_, fun hpre => ?_⟩
        · simp [Shared.perform, DevServiceBlk.perform]
        · simpa using hpre.length_le
      | cons e c =>
        obtain ⟨rfl, rfl⟩ := List.cons.inj hr
        exact .inr ⟨c, rfl, rfl⟩
  rcases hwhere with ⟨a₀, ha₀, hsame, heq⟩ | ⟨c, rfl, rfl⟩
  · by_cases hdue : (σ.performAll item a).blk.timeToAttempt < itrTime
    · rw [if_pos hdue] at hrest
      obtain ⟨hd, hzero⟩ := h.early a₀ ha₀ (hsame ▸ hdue)
      exact serial_of_compare hback hfront h hd hzero hab (fun _ => hdue) hrest
    · rw [if_neg hdue] at hrest
      left
      rw [hrest]
      exact serial_of_notDue hback h ha₀ (hsame ▸ not_lt.mp hdue)
  · right
    obtain ⟨hc, hb⟩ := List.forall_mem_append.mp hback
    have hblk : (σ.performAll item (front ++ .spentAttempt item.devName 0 ::
        .timeToAttempt item.devName d :: c)).blk = ⟨0, d⟩ := blk_withReset hc
    have hcalm : Announces item itrTime (⟨0, d⟩ : DevServiceBlk) →
        Calm item.statusMqttTopic b := by
      intro hann
      simp only [Announces, DevServiceBlk.verdict_budget] at hann
      split_ifs at hann with hd _ hzero
      exact (h.late hd hzero.symm).suffix
    have hes : σ.performAll item (withReset item front d (c ++ b)) = (σ.performAll item (front ++
        .spentAttempt item.devName 0 :: .timeToAttempt item.devName d :: c)).performAll item b := by
      rw [hab, performAll_append]
    rw [hes] at hrest ⊢
    have hfree : Race item itrTime .readDeadline b (σ.performAll item (front ++
        .spentAttempt item.devName 0 :: .timeToAttempt item.devName d :: c)) τ :=
      race_readDeadline.mpr ⟨[], b, rfl, hrest⟩
    rcases race_of_free hb hfree with heq | heq
    · rw [heq, tick_performAll hb (by rwa [hblk])]
    · exact heq

end

/-! ### Incompatible readings do not -/

/-- Deadline read behind `a`, being over, and counter compared behind `b`. -/
lemma race_compared (a b : List Effect) (hdue : (σ.performAll item a).blk.timeToAttempt < itrTime)
    (h : if (σ.performAll item (a ++ b)).blk.spentAttempt < item.nodeConnectionAttempt then
        Race item itrTime .increment es (σ.performAll item (a ++ b)) τ
      else Race item itrTime .incrementPast es (σ.performAll item (a ++ b)) τ) :
    Race item itrTime .readDeadline (a ++ (b ++ es)) σ τ := by
  rw [performAll_append] at h
  refine race_readDeadline.mpr ⟨a, _, rfl, ?_⟩
  rw [if_pos hdue]
  exact race_compare.mpr ⟨b, _, rfl, h⟩

/-- Then incremented behind `c`, and the new deadline written behind `f`. -/
lemma race_attempt (a b c f g : List Effect)
    (hdue : (σ.performAll item a).blk.timeToAttempt < itrTime)
    (hlt : (σ.performAll item (a ++ b)).blk.spentAttempt < item.nodeConnectionAttempt) :
    Race item itrTime .readDeadline (a ++ (b ++ (c ++ (f ++ g)))) σ
      (((σ.performAll item (a ++ (b ++ c))).perform item (.spentAttempt item.devName
        ((σ.performAll item (a ++ (b ++ c))).blk.spentAttempt + 1))).performAll item
          (f ++ .timeToAttempt item.devName (itrTime + seconds item.nodeTimeoutInSec) :: g)) := by
  apply race_compared a b hdue
  rw [if_pos hlt]
  refine race_increment.mpr ⟨c, _, rfl, race_writeDeadline.mpr ⟨f, g, rfl, ?_⟩⟩
  rw [← performAll_append, List.append_assoc]

/-- The same where the counter is past the limit, "error" being set behind `f`. -/
lemma race_announced (a b c f g : List Effect)
    (hdue : (σ.performAll item a).blk.timeToAttempt < itrTime)
    (hge : ¬ (σ.performAll item (a ++ b)).blk.spentAttempt < item.nodeConnectionAttempt)
    (heq : (σ.performAll item (a ++ (b ++ c))).blk.spentAttempt = item.nodeConnectionAttempt) :
    Race item itrTime .readDeadline (a ++ (b ++ (c ++ (f ++ g)))) σ
      (((σ.performAll item (a ++ (b ++ c))).perform item (.spentAttempt item.devName
        ((σ.performAll item (a ++ (b ++ c))).blk.spentAttempt + 1))).performAll item
          (f ++ .setTopic item.statusMqttTopic (str "error") :: g)) := by
  apply race_compared a b hdue
  rw [if_neg hge]
  refine race_incrementPast.mpr ⟨c, _, rfl, ?_⟩
  rw [← performAll_append, List.append_assoc, if_pos heq]
  exact race_announce.mpr ⟨f, g, rfl, rfl⟩

/-- And where it was past the limit when compared, but is not equal to it when incremented. -/
lemma race_silent (a b c g : List Effect)
    (hdue : (σ.performAll item a).blk.timeToAttempt < itrTime)
    (hge : ¬ (σ.performAll item (a ++ b)).blk.spentAttempt < item.nodeConnectionAttempt)
    (hne : (σ.performAll item (a ++ (b ++ c))).blk.spentAttempt ≠ item.nodeConnectionAttempt) :
    Race item itrTime .readDeadline (a ++ (b ++ (c ++ g))) σ
      (((σ.performAll item (a ++ (b ++ c))).perform item (.spentAttempt item.devName
        ((σ.performAll item (a ++ (b ++ c))).blk.spentAttempt + 1))).performAll item g) := by
  apply race_compared a b hdue
  rw [if_neg hge]
  refine race_incrementPast.mpr ⟨c, _, rfl, ?_⟩
  rw [← performAll_append, List.append_assoc, if_neg hne]

section

variable (hback : ∀ e ∈ back, e.device? ≠ some item.devName)
  (h : Serialises item itrTime (withReset item front d back) σ)
include hback h

/-- Read before the reset and compared after it: the pass acts on the new block, so the new
deadline has to have passed too. -/
lemma newDeadline_lt (ha : a <+: front)
    (hdue : (σ.performAll item a).blk.timeToAttempt < itrTime) : d < itrTime := by
  obtain ⟨a', rfl⟩ := ha
  by_contra hd
  have hsplit : withReset item (a ++ a') d back
      = a ++ (withReset item a' d back ++ ([] ++ ([] ++ []))) := by
    simp [withReset]
  have hblk : (σ.performAll item (a ++ (withReset item a' d back ++ []))).blk = ⟨0, d⟩ := by
    rw [performAll_append, List.append_nil, blk_withReset hback]
  have hblk' : (σ.performAll item (a ++ withReset item a' d back)).blk = ⟨0, d⟩ := by
    rw [performAll_append, blk_withReset hback]
  have hserial : ∀ τ, Race item itrTime .readDeadline (withReset item (a ++ a') d back) σ τ →
      τ.blk.spentAttempt = 0 := by
    intro τ hrace
    rcases h τ hrace with rfl | rfl
    · rw [blk_tickThenUpdate hback]
    · rw [blk_updateThenTick hback, if_neg hd]
  by_cases hzero : item.nodeConnectionAttempt = 0
  · have hrace := race_announced a (withReset item a' d back) [] [] [] hdue
      (by rw [hblk', hzero]; simp) (by rw [hblk, hzero])
    rw [← hsplit] at hrace
    have hone := hserial _ hrace
    rw [hblk] at hone
    simp [Shared.perform, DevServiceBlk.perform] at hone
  · have hpos : 0 < item.nodeConnectionAttempt := UInt32.pos_iff_ne_zero.mpr hzero
    have hrace := race_attempt a (withReset item a' d back) [] [] [] hdue (by rw [hblk']; exact hpos)
    rw [← hsplit] at hrace
    have hone := hserial _ hrace
    rw [hblk] at hone
    simp [Shared.perform, DevServiceBlk.perform] at hone

/-- Compared before the reset and written around it: half of each side is left in the block,
unless the pass writes no deadline. -/
lemma nodeConnectionAttempt_eq_zero (ha : a <+: front)
    (hdue : (σ.performAll item a).blk.timeToAttempt < itrTime) :
    item.nodeConnectionAttempt = 0 := by
  have hd := newDeadline_lt hback h ha hdue
  obtain ⟨a', rfl⟩ := ha
  by_contra hzero
  have hpos : 0 < item.nodeConnectionAttempt := UInt32.pos_iff_ne_zero.mpr hzero
  have hnonneg := seconds_nonneg item.nodeTimeoutInSec
  have hserial : ∀ τ, Race item itrTime .readDeadline (withReset item (a ++ a') d back) σ τ →
      τ.blk = ⟨0, d⟩ ∨ τ.blk = ⟨1, itrTime + seconds item.nodeTimeoutInSec⟩ := by
    intro τ hrace
    rcases h τ hrace with rfl | rfl
    · exact .inl (blk_tickThenUpdate hback)
    · right
      rw [blk_updateThenTick hback, if_pos hd, if_pos hpos]
  by_cases hlt : (σ.performAll item a).blk.spentAttempt < item.nodeConnectionAttempt
  · -- the new deadline of the pass comes last
    have hsplit : withReset item (a ++ a') d back
        = a ++ ([] ++ ([] ++ (withReset item a' d back ++ []))) := by
      simp [withReset]
    have hrace := race_attempt a [] [] (withReset item a' d back) [] hdue (by simpa using hlt)
    rw [← hsplit] at hrace
    have hblk : ∀ σ' : Shared, (σ'.performAll item (withReset item a' d back ++
        [.timeToAttempt item.devName (itrTime + seconds item.nodeTimeoutInSec)])).blk
          = ⟨0, itrTime + seconds item.nodeTimeoutInSec⟩ := by
      intro σ'
      have hreset : (σ'.performAll item (withReset item a' d back)).blk = ⟨0, d⟩ :=
        blk_withReset hback
      rw [performAll_append]
      simp [Shared.perform, DevServiceBlk.perform, hreset]
    rcases hserial _ hrace with heq | heq
    · rw [hblk] at heq
      have := congrArg DevServiceBlk.timeToAttempt heq
      simp only at this
      omega
    · rw [hblk] at heq
      simp at heq
  · -- the increment of the pass falls between the two writes of the reset
    have hsplit : withReset item (a ++ a') d back = a ++ ([] ++
        ((a' ++ [.spentAttempt item.devName 0]) ++ (.timeToAttempt item.devName d :: back))) := by
      simp [withReset]
    have hfront : a ++ ([] ++ (a' ++ [.spentAttempt item.devName 0]))
        = (a ++ a') ++ .spentAttempt item.devName 0 :: [] := by simp
    have hrest : .timeToAttempt item.devName d :: back
        = [] ++ (.timeToAttempt item.devName d :: back) := rfl
    have hspent := spentAttempt_inReset σ (a ++ a') hback hrest
    have hrace := race_silent a [] (a' ++ [.spentAttempt item.devName 0])
      (.timeToAttempt item.devName d :: back) hdue (by simpa using hlt)
      (by rw [hfront, hspent]; exact Ne.symm hzero)
    rw [← hsplit, hfront, hspent] at hrace
    have hblk := blk_afterIncrement σ (a ++ a') hback hrest (0 + 1)
    rcases hserial _ hrace with heq | heq
    · rw [hblk] at heq
      simp at heq
    · rw [hblk] at heq
      have := congrArg DevServiceBlk.timeToAttempt heq
      simp only at this
      omega

/-- Given up between the reset and the values set: they come behind "error". -/
lemma calm_of_late (hd : d < itrTime) (hzero : item.nodeConnectionAttempt = 0) :
    Calm item.statusMqttTopic back := by
  intro m hm
  have hsplit : withReset item front d back
      = withReset item front d [] ++ ([] ++ ([] ++ ([] ++ back))) := by
    simp [withReset]
  have hblk : (σ.performAll item (withReset item front d [])).blk = ⟨0, d⟩ :=
    blk_withReset (by simp)
  have hrace := race_announced (withReset item front d []) [] [] [] back
    (by rw [hblk]; exact hd) (by rw [List.append_nil, hblk, hzero]; simp)
    (by rw [List.append_nil, List.append_nil, hblk, hzero])
  rw [← hsplit, List.append_nil, List.append_nil, hblk] at hrace
  rcases h _ hrace with heq | heq
  · have hspent := congrArg (·.blk.spentAttempt) heq
    simp only [blk_tickThenUpdate hback] at hspent
    rw [List.nil_append, Shared.performAll, List.foldl_cons] at hspent
    change (Shared.performAll item _ back).blk.spentAttempt = 0 at hspent
    rw [Shared.blk_performAll_of_free hback] at hspent
    simp [Shared.perform, DevServiceBlk.perform] at hspent
  · have hann : Announces item itrTime (σ.performAll item (withReset item front d back)).blk := by
      rw [blk_withReset hback]
      simp [Announces, DevServiceBlk.verdict_budget, hd, hzero]
    have hstatus := congrArg (·.status) heq
    simp only [Shared.status_tick, if_pos hann] at hstatus
    rw [Shared.status_performAll, List.nil_append, lastSet_cons, hm] at hstatus
    simpa using hstatus

/-- Given up before the reset, with "error" set behind everything. -/
lemma error_of_announced {p : List Effect} (hap : a <+: p) (hp : p <+: front)
    (hdue : (σ.performAll item a).blk.timeToAttempt < itrTime)
    (hspent : (σ.performAll item p).blk.spentAttempt = 0) :
    (lastSet item.statusMqttTopic (front ++ back)).or
      (if Announces item itrTime σ.blk then some (str "error") else σ.status)
        = some (str "error") := by
  have hd := newDeadline_lt hback h (hap.trans hp) hdue
  have hzero := nodeConnectionAttempt_eq_zero hback h (hap.trans hp) hdue
  obtain ⟨b, rfl⟩ := hap
  obtain ⟨p', rfl⟩ := hp
  have hsplit : withReset item (a ++ b ++ p') d back
      = a ++ (b ++ ([] ++ (withReset item p' d back ++ []))) := by
    simp [withReset]
  have hrace := race_announced a b [] (withReset item p' d back) [] hdue
    (by rw [hzero]; simp) (by rw [List.append_nil, hspent, hzero])
  rw [← hsplit] at hrace
  rcases h _ hrace with heq | heq
  · have hstatus := congrArg (·.status) heq
    simp only [Shared.status_performAll, Shared.status_tick, lastSet_withReset] at hstatus
    rw [← hstatus]
    simp [lastSet_cons, Effect.valueOn?]
  · have hblk := congrArg Shared.blk heq
    rw [blk_updateThenTick hback, if_pos hd, hzero,
      Shared.blk_performAll_insert (by simp [Effect.device?]), List.append_nil, List.append_nil,
      blk_withReset hback] at hblk
    simp at hblk

/-- Deadline missed, although the pass would give the device up alone. -/
lemma error_of_missed {a' : List Effect} (ha : a <+: front) (ha' : a' <+: front)
    (hwait : itrTime ≤ (σ.performAll item a).blk.timeToAttempt)
    (hdue : (σ.performAll item a').blk.timeToAttempt < itrTime)
    (hann : Announces item itrTime σ.blk)
    (hnone : lastSet item.statusMqttTopic (front ++ back) = none) :
    σ.status = some (str "error") := by
  have hd := newDeadline_lt hback h ha' hdue
  have hzero := nodeConnectionAttempt_eq_zero hback h ha' hdue
  obtain ⟨b, rfl⟩ := ha
  have hsplit : withReset item (a ++ b) d back = a ++ withReset item b d back := by
    simp [withReset]
  have hrace : Race item itrTime .readDeadline (withReset item (a ++ b) d back) σ
      (σ.performAll item (withReset item (a ++ b) d back)) :=
    race_readDeadline.mpr ⟨a, _, hsplit, by rw [if_neg (not_lt.mpr hwait)]⟩
  rcases h _ hrace with heq | heq
  · have hstatus := congrArg (·.status) heq
    simp only [Shared.status_performAll, Shared.status_tick, lastSet_withReset, hnone,
      if_pos hann] at hstatus
    simpa using hstatus
  · have hblk := congrArg Shared.blk heq
    rw [blk_updateThenTick hback, blk_withReset hback, if_pos hd, hzero] at hblk
    simp at hblk

theorem compatible_of_serialises : Compatible item itrTime front d back σ where
  late := calm_of_late hback h
  early _ ha hdue :=
    ⟨newDeadline_lt hback h ha hdue, nodeConnectionAttempt_eq_zero hback h ha hdue⟩
  announced _ _ := error_of_announced hback h
  missed _ _ := error_of_missed hback h

end

/-- With a single reset in the message, as for a device that is listed once, the deadline before
it is the one that the block had. -/
theorem compatible_iff_of_single (hfront : ∀ e ∈ front, e.device? ≠ some item.devName) :
    Compatible item itrTime front d back σ ↔
      (d < itrTime → item.nodeConnectionAttempt = 0 → Calm item.statusMqttTopic back) ∧
      (σ.blk.timeToAttempt < itrTime → d < itrTime ∧ item.nodeConnectionAttempt = 0 ∧
        (σ.blk.spentAttempt = 0 → Calm item.statusMqttTopic (front ++ back))) := by
  have hblk : ∀ {a}, a <+: front → (σ.performAll item a).blk = σ.blk := by
    intro a ha
    exact Shared.blk_performAll_of_free fun e he => hfront e (ha.subset he)
  have hann : σ.blk.timeToAttempt < itrTime → item.nodeConnectionAttempt = 0 →
      σ.blk.spentAttempt = 0 → Announces item itrTime σ.blk := by
    intro hdue hzero hspent
    simp [Announces, DevServiceBlk.verdict_budget, hdue, hzero, hspent]
  constructor
  · intro h
    refine ⟨h.late, fun hdue => ?_⟩
    obtain ⟨hd, hzero⟩ := h.early [] List.nil_prefix hdue
    refine ⟨hd, hzero, fun hspent m hm => ?_⟩
    have herror := h.announced [] [] List.prefix_rfl List.nil_prefix hdue hspent
    rw [if_pos (hann hdue hzero hspent), hm] at herror
    simpa using herror
  · rintro ⟨hlate, hearly⟩
    refine ⟨hlate, ?_, ?_, ?_⟩
    · intro a ha hdue
      rw [hblk ha] at hdue
      exact ⟨(hearly hdue).1, (hearly hdue).2.1⟩
    · intro a p hap hp hdue hspent
      rw [hblk (hap.trans hp)] at hdue
      rw [hblk hp] at hspent
      obtain ⟨-, hzero, hcalm⟩ := hearly hdue
      rw [if_pos (hann hdue hzero hspent)]
      exact (hcalm hspent).or_error
    · intro a a' ha ha' hwait hdue
      rw [hblk ha] at hwait
      rw [hblk ha'] at hdue
      omega

/-! ### The effects of a message -/

/-- The block of `name` is written by whole resets only. -/
inductive Resets (name : Str) : List Effect → Prop where
  | nil : Resets name []
  | other {e : Effect} {es : List Effect} (he : e.device? ≠ some name) (hes : Resets name es) :
      Resets name (e :: es)
  | reset (d : ℤ) {es : List Effect} (hes : Resets name es) :
      Resets name (.spentAttempt name 0 :: .timeToAttempt name d :: es)

namespace Resets

variable {name : Str}

lemma of_free (h : ∀ e ∈ es, e.device? ≠ some name) : Resets name es := by
  induction es with
  | nil => exact .nil
  | cons e es ih =>
    obtain ⟨he, hes⟩ := List.forall_mem_cons.mp h
    exact .other he (ih hes)

lemma append (ha : Resets name a) (hb : Resets name b) : Resets name (a ++ b) := by
  induction ha with
  | nil => exact hb
  | other he _ ih => exact .other he ih
  | reset d _ ih => exact .reset d ih

lemma andThen {p q : Routine} (hp : Resets name p.effects) (hq : Resets name q.effects) :
    Resets name (p.andThen q).effects := by
  rcases Performed.effects_andThen p q with h | h
  · rwa [h]
  · rw [h]
    exact hp.append hq

lemma spentAttempt_eq_zero (h : Resets name es) {v : UInt32} (hv : .spentAttempt name v ∈ es) :
    v = 0 := by
  induction h with
  | nil => simp at hv
  | other he _ ih =>
    rcases List.mem_cons.mp hv with rfl | hv
    · simp [Effect.device?] at he
    · exact ih hv
  | reset d _ ih =>
    rcases List.mem_cons.mp hv with heq | hv
    · simpa using heq
    · exact ih (by simpa using hv)

/-- Either the block is not written at all, or there is a last reset. -/
lemma free_or_withReset (h : Resets item.devName es) :
    (∀ e ∈ es, e.device? ≠ some item.devName) ∨
      ∃ front d back, es = withReset item front d back ∧
        ∀ e ∈ back, e.device? ≠ some item.devName := by
  induction h with
  | nil => simp
  | @other e es he _ ih =>
    rcases ih with hfree | ⟨front, d, back, rfl, hback⟩
    · exact .inl (List.forall_mem_cons.mpr ⟨he, hfree⟩)
    · exact .inr ⟨e :: front, d, back, rfl, hback⟩
  | @reset d es _ ih =>
    rcases ih with hfree | ⟨front, d', back, rfl, hback⟩
    · exact .inr ⟨[], d, es, rfl, hfree⟩
    · exact .inr ⟨.spentAttempt item.devName 0 :: .timeToAttempt item.devName d :: front, d', back,
        rfl, hback⟩

variable {known : Str → Bool} {topic msg : Str}

lemma processDevice (now : ℤ) (r : RouterDeviceItem) :
    Resets name (WBridge.processDevice known topic msg now r).effects := by
  by_cases hname : r.devName = name
  · subst hname
    rw [WBridge.processDevice]
    split
    · split
      · refine andThen (.reset _ .nil) (andThen (of_free fun e he => ?_) (of_free fun e he => ?_))
        · obtain ⟨c, -, m, rfl⟩ := mem_updateFields he
          simp [Effect.device?]
        · obtain rfl : e = .setTopic r.statusMqttTopic (str "ok") := by simpa using he
          simp [Effect.device?]
      · exact .nil
    · apply of_free
      intro e he
      obtain ⟨m, rfl⟩ := mem_updateOutputs he
      simp [Effect.device?]
  · exact of_free fun e he => device_processDevice he hname

lemma processTopicUpdate (table : GwtTable) (clk : ℕ → ℤ) :
    Resets name (WBridge.processTopicUpdate known topic msg table clk).effects := by
  induction table generalizing clk with
  | nil => exact .nil
  | cons r rest ih => exact andThen (processDevice _ _) (ih _)

end Resets

/-- One message and one pass of the watchdog, for any table, any block and any clock readings:
they serialise if the message does not reset the block, and otherwise just when the readings are
compatible. -/
theorem serialises_iff (known : Str → Bool) (topic msg : Str) (table : GwtTable) (clk : ℕ → ℤ)
    (item : RouterDeviceItem) (itrTime : ℤ) (σ : Shared) :
    let es := (processTopicUpdate known topic msg table clk).effects
    ((∀ e ∈ es, e.device? ≠ some item.devName) ∧ Serialises item itrTime es σ) ∨
      ∃ front d back, es = withReset item front d back ∧
        (∀ e ∈ back, e.device? ≠ some item.devName) ∧
        (Serialises item itrTime es σ ↔ Compatible item itrTime front d back σ) := by
  intro es
  have hresets : Resets item.devName es := .processTopicUpdate table clk
  rcases hresets.free_or_withReset with hfree | ⟨front, d, back, heq, hback⟩
  · exact .inl ⟨hfree, fun τ hrace => race_of_free hfree hrace⟩
  · refine .inr ⟨front, d, back, heq, hback, ?_⟩
    have hfront : ∀ v, .spentAttempt item.devName v ∈ front → v = 0 := by
      intro v hv
      apply hresets.spentAttempt_eq_zero
      rw [heq]
      exact List.mem_append_left _ hv
    rw [heq]
    exact ⟨compatible_of_serialises hback, serialises_of_compatible hback hfront⟩

/-- A device at its last attempt, found overdue at 12000, sends a message at that very moment. The
watchdog has already decided when the message resets the block, and its "error" comes last. -/
theorem error_on_live_device :
    ¬ ∀ (known : Str → Bool) (msg : Str) (table : GwtTable) (clk : ℕ → ℤ)
        (item : RouterDeviceItem) (itrTime : ℤ) (σ : Shared),
        getGwtItem table item.devName = some item →
        Serialises item itrTime
          (processTopicUpdate known item.inputMqttTopic msg table clk).effects σ := by
  intro hclaim
  have hserial := hclaim (fun _ => true) (str "") [station] (fun _ => 12000) station 12000
    ⟨⟨1, 10000⟩, none⟩ rfl
  have hrace : Race station 12000 .readDeadline _ ⟨⟨1, 10000⟩, none⟩ _ :=
    race_announced [] [] [] (processTopicUpdate (fun _ => true) (str "in") (str "") [station]
      fun _ => 12000).effects [] (by decide) (by decide) (by decide)
  rw [List.append_nil] at hrace
  have hend := hserial _ hrace
  revert hend
  decide

end WBridge
