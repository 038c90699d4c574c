import WirelessBridge.Bridge.Announcement
import WirelessBridge.System.Exhaustion

/-!
# Devices announced as exhausted

What `Lib.Exhaustion` says of a budget that has given up, for the blocks of the watchdog; and with
it, for both tables of attempts in the program.
-/

namespace WBridge

open Lib HBE System Mqtt

/-- The tick neither sets the status of the device to "error" nor spends an attempt on it. -/
def NotTried (table : GwtTable) (item : RouterDeviceItem) (p : Bridge × Event) : Prop :=
  ∀ itrTime order blk, p.2 = .tick itrTime order → p.1.deviceItems item.devName = some blk →
    .setTopic item.statusMqttTopic (str "error") ∉
      watchdogEffects table itrTime p.1.deviceItems item.devName ∧
    ¬ (blk.timeToAttempt < itrTime ∧ blk.spentAttempt < item.nodeConnectionAttempt)

def Event.IsTickAfter (deadline : ℤ) : Event → Prop
  | .tick itrTime _ => deadline < itrTime
  | _ => False

instance (deadline : ℤ) : DecidablePred (Event.IsTickAfter deadline)
  | .tick .. => inferInstanceAs (Decidable (_ < _))
  | .update .. => inferInstanceAs (Decidable False)
  | .connect => inferInstanceAs (Decidable False)
  | .disconnect => inferInstanceAs (Decidable False)

def DeviceLeft (item : RouterDeviceItem) (deadline : ℤ) (r : ℕ) (s : Bridge) : Prop :=
  ∃ blk, s.deviceItems item.devName = some blk ∧ blk.timeToAttempt = deadline ∧
    Budget.Left item.nodeConnectionAttempt r blk.budget

variable {table : GwtTable} {item : RouterDeviceItem} {s t : Bridge} {e : Event} {deadline : ℤ}
  {r : ℕ} {blk : DevServiceBlk} {itrTime : ℤ} {order : List Str}

/-! ### One step -/

/-- A message on no input topic of the device leaves its block alone. -/
lemma deviceItems_of_unheard {topic msg : Str} {clk : ℕ → ℤ}
    (h : ∀ r ∈ table, r.devName = item.devName → topic ≠ r.inputMqttTopic) :
    (s.performAll (s.handle table topic msg clk).effects).deviceItems item.devName
      = s.deviceItems item.devName := by
  have hdevice : ∀ e ∈ (s.handle table topic msg clk).effects,
      e.device? ≠ some item.devName := by
    intro e he
    rcases mem_handle he with ⟨n, r, hr, he⟩ | ⟨descr, rfl⟩
    · rcases mem_processDevice he with ⟨htopic, hcases⟩ | ⟨t, -, m, rfl⟩
      · have hname : r.devName ≠ item.devName :=
          fun hname => h r (List.mem_of_getElem? hr) hname htopic
        rcases hcases with rfl | rfl | rfl <;> simp [Effect.device?, hname]
      · simp [Effect.device?]
    · simp [Effect.device?]
  rw [Bridge.deviceItems_performAll]
  simp only [DevServiceBlk.foldl_perform_of_device_ne hdevice, Option.map_id']

/-- A tick that waits for the deadline of the device, or counts in silence, does not try it. -/
lemma notTried_of_verdict (hitem : getGwtItem table item.devName = some item)
    (hblk : s.deviceItems item.devName = some blk)
    (hquiet : blk.budget.verdict item.nodeConnectionAttempt itrTime ≠ .attempt)
    (hsilent : blk.budget.verdict item.nodeConnectionAttempt itrTime ≠ .giveUp) :
    NotTried table item (s, .tick itrTime order) := by
  intro itrTime' order' blk' he hblk'
  obtain ⟨rfl, rfl⟩ := Event.tick.inj he
  obtain rfl : blk = blk' := Option.some.inj (hblk.symm.trans hblk')
  constructor
  · rw [watchdogEffects_of_getGwtItem hitem hblk, ← announces_iff]
    exact hsilent
  · rintro ⟨hdue, hlt⟩
    rw [DevServiceBlk.verdict_budget, if_pos hdue, if_pos hlt] at hquiet
    exact hquiet rfl

lemma not_notTried_of_verdict (hitem : getGwtItem table item.devName = some item)
    (hblk : s.deviceItems item.devName = some blk)
    (hloud : blk.budget.verdict item.nodeConnectionAttempt itrTime = .attempt ∨
      blk.budget.verdict item.nodeConnectionAttempt itrTime = .giveUp) :
    ¬ NotTried table item (s, .tick itrTime order) := by
  intro h
  obtain ⟨hnot, hlt⟩ := h itrTime order blk rfl hblk
  rcases hloud with hverdict | hverdict
  · apply hlt
    rw [DevServiceBlk.verdict_budget] at hverdict
    split_ifs at hverdict with hdue hlt
    exact ⟨hdue, hlt⟩
  · apply hnot
    rw [watchdogEffects_of_getGwtItem hitem hblk, ← announces_iff]
    exact hverdict

lemma notTried_of_ne_tick (h : ∀ itrTime order, e ≠ .tick itrTime order) :
    NotTried table item (s, e) := by
  intro itrTime order blk he
  exact absurd he (h itrTime order)

/-- One step in the life of an exhausted device. -/
lemma Step.deviceLeft (h : Step table s e t) (hitem : getGwtItem table item.devName = some item)
    (hunheard : ∀ r ∈ table, r.devName = item.devName → ¬ e.IsInputFor r)
    (hleft : DeviceLeft item deadline r s) :
    (¬ e.IsTickAfter deadline ∧ NotTried table item (s, e) ∧ DeviceLeft item deadline r t) ∨
    (e.IsTickAfter deadline ∧ ∃ r', r = r' + 1 ∧ NotTried table item (s, e) ∧
      DeviceLeft item deadline r' t) ∨
    (e.IsTickAfter deadline ∧ r = 0 ∧ ¬ NotTried table item (s, e)) := by
  obtain ⟨blk, hblk, rfl, hbudget⟩ := hleft
  cases h with
  | tick itrTime horder =>
    obtain ⟨blk', hblk', hnext⟩ := deviceItems_of_tick itrTime hitem horder hblk
    rcases hbudget.verdict_cases itrTime with
      ⟨hdue, hverdict⟩ | ⟨hdue, r', rfl, hverdict, hleft⟩ | ⟨hdue, rfl, hloud⟩
    · have hsame : blk'.budget = blk.budget := by rw [hnext, Budget.next, hverdict]
      left
      refine ⟨hdue, notTried_of_verdict hitem hblk (by simp [hverdict]) (by simp [hverdict]), blk',
        hblk', congrArg Budget.deadline hsame, hsame ▸ hbudget⟩
    · have hcounted : blk'.budget = { blk.budget with spent := blk.budget.spent + 1 } := by
        rw [hnext, Budget.next, hverdict]
      right; left
      refine ⟨hdue, r', rfl,
        notTried_of_verdict hitem hblk (by simp [hverdict]) (by simp [hverdict]), blk', hblk',
        congrArg Budget.deadline hcounted, hcounted ▸ hleft⟩
    · exact .inr (.inr ⟨hdue, rfl, not_notTried_of_verdict hitem hblk hloud⟩)
  | update topic msg clk hdefined =>
    left
    refine ⟨id, notTried_of_ne_tick (by simp), blk, ?_, rfl, hbudget⟩
    rw [deviceItems_of_unheard hunheard, hblk]
  | connect => exact .inl ⟨id, notTried_of_ne_tick (by simp), blk, hblk, rfl, hbudget⟩
  | disconnect => exact .inl ⟨id, notTried_of_ne_tick (by simp), blk, hblk, rfl, hbudget⟩

/-- The tick that announces a device leaves its counter one above the limit. -/
lemma Step.deviceLeft_of_announces (h : Step table s e t)
    (hitem : getGwtItem table item.devName = some item)
    (hblk : s.deviceItems item.devName = some blk) (hannounces : TickAnnounces item (s, e)) :
    DeviceLeft item blk.timeToAttempt (2 ^ 32 - 1 - item.nodeConnectionAttempt.toNat) t := by
  obtain ⟨itrTime, order, blk', rfl, hblk', hannounces⟩ := hannounces
  obtain rfl : blk = blk' := Option.some.inj (hblk.symm.trans hblk')
  cases h with
  | tick _ horder =>
    obtain ⟨blk', hblk', hnext⟩ := deviceItems_of_tick itrTime hitem horder hblk
    have hverdict : blk.budget.verdict item.nodeConnectionAttempt itrTime = .giveUp := hannounces
    have hcounted : blk'.budget = { blk.budget with spent := blk.budget.spent + 1 } := by
      rw [hnext, Budget.next, hverdict]
    refine ⟨blk', hblk', congrArg Budget.deadline hcounted, hcounted ▸ Budget.left_of_spent_eq ?_⟩
    rw [DevServiceBlk.verdict_budget] at hverdict
    split_ifs at hverdict with _ _ heq
    exact heq

/-! ### Runs -/

/-- A tick has announced the device, whose deadline this was, and after it came these steps, with
no message on an input topic of the device. -/
structure AfterAnnouncement (table : GwtTable) (item : RouterDeviceItem) (deadline : ℤ)
    (tr : List (Bridge × Event)) : Prop where
  entry : getGwtItem table item.devName = some item
  announced : ∃ s e s' t blk, s.deviceItems item.devName = some blk ∧
    blk.timeToAttempt = deadline ∧ Step table s e s' ∧ TickAnnounces item (s, e) ∧
    Run (Step table) s' tr t
  unheard : ∀ p ∈ tr, ∀ r ∈ table, r.devName = item.devName → ¬ p.2.IsInputFor r

lemma notTried_iff {tr : List (Bridge × Event)} (h : AfterAnnouncement table item deadline tr) :
    (∀ p ∈ tr, NotTried table item p) ↔
      tr.countP (·.2.IsTickAfter deadline) < 2 ^ 32 - item.nodeConnectionAttempt.toNat := by
  obtain ⟨hitem, ⟨s, e, s', t, blk, hblk, rfl, hstep, hannounces, hrun⟩, hunheard⟩ := h
  have hlt : item.nodeConnectionAttempt.toNat < 2 ^ 32 := item.nodeConnectionAttempt.toNat_lt
  rw [hrun.forall_iff_countP_le (DeviceLeft item blk.timeToAttempt) (NotTried table item)
    (fun p => p.2.IsTickAfter blk.timeToAttempt) _
    (hstep.deviceLeft_of_announces hitem hblk hannounces)]
  · omega
  · intro p hp r b hleft hst
    exact hst.deviceLeft hitem (hunheard p hp) hleft

/-- Exhaustion lasts for as long as the counter, one above the limit by then, takes to come round
to zero: the ticks, or passes, past the deadline are fewer than `2 ^ 32` less the limit. -/
theorem exhaustion_absorbing_iff {κ : Type*} {items : ConnTable κ} {name : Str} {client : κ}
    {limit : UInt32} {deadline' : ℤ} {tr : List (Bridge × Event)}
    {tr' : List (ConnTable κ × ConnEvent κ)} (hdevice : AfterAnnouncement table item deadline tr)
    (hclient : AfterReport items name client limit deadline' tr') :
    ((∀ p ∈ tr, NotTried table item p) ↔
      tr.countP (·.2.IsTickAfter deadline) < 2 ^ 32 - item.nodeConnectionAttempt.toNat) ∧
    ((∀ p ∈ tr', LeftAlone name p) ↔
      tr'.countP (Overdue name client deadline') < 2 ^ 32 - limit.toNat) :=
  ⟨notTried_iff hdevice, leftAlone_iff hclient⟩

/-- The station, and a client that allows no attempts, each with one more tick or pass. -/
theorem exhaustion_absorbing_station :
    ∃ tr tr', AfterAnnouncement [station] station 22000 tr ∧
      tr.map (·.2) = [stationTick 34000] ∧ (∀ p ∈ tr, NotTried [station] station p) ∧
      AfterReport downTable (str "mqtt") () 0 0 tr' ∧
      tr'.countP (Overdue (str "mqtt") () 0) = 1 ∧ ∀ p ∈ tr', LeftAlone (str "mqtt") p := by
  have h₁ := Run.single (Step.tick_station 12000 (.nil _))
  have hstep := Step.tick_station 23000 h₁
  have h₂ := h₁.append (.single hstep)
  have h₃ := Run.single (Step.tick_station 34000 h₂)
  have hdevice : AfterAnnouncement [station] station 22000 _ :=
    ⟨rfl, ⟨_, _, _, _, ⟨1, 22000⟩, rfl, rfl, hstep, ⟨23000, _, ⟨1, 22000⟩, rfl, rfl, by decide⟩, h₃⟩,
      by simp [Event.IsInputFor]⟩
  obtain ⟨tr', hclient, hcount⟩ := exists_afterReport 1
  have habsorbing := exhaustion_absorbing_iff hdevice hclient
  refine ⟨_, tr', hdevice, rfl, habsorbing.1.mpr ?_, hclient, hcount, habsorbing.2.mpr ?_⟩
  · decide
  · rw [hcount]
    decide

/-- After `2 ^ 32` overdue passes the report has come again. -/
theorem not_exhaustion_absorbing :
    ¬ ((∀ (table : GwtTable) (item : RouterDeviceItem) (deadline : ℤ)
          (tr : List (Bridge × Event)), AfterAnnouncement table item deadline tr →
          ∀ p ∈ tr, NotTried table item p) ∧
        ∀ (items : ConnTable Unit) (name : Str) (client : Unit) (limit : UInt32) (deadline : ℤ)
          (tr₀ tr : List (ConnTable Unit × ConnEvent Unit)), Run ConnStep KeyedMap.empty tr₀ items →
          AfterReport items name client limit deadline tr → ∀ p ∈ tr, LeftAlone name p) := by
  rintro ⟨-, hclaim⟩
  obtain ⟨tr, hafter, hcount⟩ := exists_afterReport (2 ^ 32)
  have hrun : Run ConnStep KeyedMap.empty _ downTable :=
    .single (.subscribe KeyedMap.empty (str "mqtt") ())
  have hfew := (leftAlone_iff hafter).mp (hclaim _ _ _ _ _ _ tr hrun hafter)
  rw [hcount] at hfew
  exact lt_irrefl _ hfew

end WBridge
