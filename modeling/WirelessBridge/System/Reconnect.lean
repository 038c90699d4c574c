import WirelessBridge.System.ConnMan
import WirelessBridge.Lib.Run

/-!
# The reconnect discipline

The block of a subscribed client is a budget of attempts. A pass that finds the client
disconnected polls it, and one that finds it connected clears it; a client that is connecting, or
that the pass does not come to, is left alone.
-/

namespace System

open Lib

inductive ConnEvent (κ : Type*) where
  | subscribe (name : Str) (client : κ)
  | unsubscribe (name : Str)
  | pass (itrTime : ℤ) (order : List Str) (view : κ → Option ClientView)

variable {κ : Type*}

/-- What the manager does at an event, and the table afterwards. -/
def ConnEvent.perform (items : ConnTable κ) : ConnEvent κ → List Action × ConnTable κ
  | .subscribe name client => System.subscribe name client items
  | .unsubscribe name => ([], System.unsubscribe name items)
  | .pass itrTime order view =>
    ((connectionHandler view itrTime order items).1.effects,
      (connectionHandler view itrTime order items).2)

inductive ConnStep : ConnTable κ → ConnEvent κ → ConnTable κ → Prop where
  | subscribe (items : ConnTable κ) (name : Str) (client : κ) :
      ConnStep items (.subscribe name client)
        ((ConnEvent.subscribe name client).perform items).2
  | unsubscribe (items : ConnTable κ) (name : Str) :
      ConnStep items (.unsubscribe name) ((ConnEvent.unsubscribe name).perform items).2
  | pass {items : ConnTable κ} (itrTime : ℤ) {order : List Str} (view : κ → Option ClientView)
      (horder : items.IterationOrder order) :
      ConnStep items (.pass itrTime order view)
        ((ConnEvent.pass itrTime order view).perform items).2

/-- Everything that the manager does in a run. -/
def actions (tr : List (ConnTable κ × ConnEvent κ)) : List Action :=
  tr.flatMap fun p => (p.2.perform p.1).1

def ConnEvent.isPass : ConnEvent κ → Bool
  | .pass .. => true
  | _ => false

def passes (tr : List (ConnTable κ × ConnEvent κ)) : ℕ := tr.countP (·.2.isPass)

/-- The iteration time of a `connect()` call of the client. -/
def Action.connectTime? (name : Str) : Action → Option ℤ
  | .connect n t => if n = name then some t else none
  | _ => none

/-- Between connections, or before the first: a client is observed CONNECTED nowhere in the
part. -/
def Disconnected (name : Str) (seg : List Action) : Prop := .getState name .connected ∉ seg

/-! ### The block as a budget -/

def ConServiceBlk.budget (b : ConServiceBlk κ) : Budget := ⟨b.spentAttempt, b.timeToAttempt⟩

/-- Giving up, without the time of it, which no report shows. -/
def untimed : Budget.Outcome → Budget.Outcome
  | .gaveUp _ => .gaveUp 0
  | o => o

/-- What an action tells of the budget of a client. -/
def Action.outcome? (name : Str) : Action → Option Budget.Outcome
  | .getState n st => if n = name ∧ st = .connected then some .cleared else none
  | .connect n t => if n = name then some (.attempted t) else none
  | a => if a = exhausted name then some (.gaveUp 0) else none

variable {name : Str} {client : κ} {info : ConnectionInfo} {items items' : ConnTable κ}
  {e : ConnEvent κ} {blk : ConServiceBlk κ} {v : ClientView} {itrTime : ℤ}

lemma isFor_of_outcome {a : Action} {o : Budget.Outcome} (h : a.outcome? name = some o) :
    a.isFor name = true := by
  cases a with
  | getState n st =>
    simp only [Action.outcome?] at h
    split_ifs at h with hn
    simp [Action.isFor, hn.1]
  | connect n t =>
    simp only [Action.outcome?] at h
    split_ifs at h with hn
    simp [Action.isFor, hn]
  | report level descr =>
    simp only [Action.outcome?] at h
    split_ifs at h with hn
    simp [Action.isFor, hn]

lemma filterMap_isFor (l : List Action) :
    (l.filter (·.isFor name)).filterMap (Action.outcome? name)
      = l.filterMap (Action.outcome? name) := by
  induction l with
  | nil => rfl
  | cons a l ih =>
    cases h : a.outcome? name with
    | none => by_cases hfor : a.isFor name <;> simp [hfor, h, ih]
    | some o => simp [isFor_of_outcome h, h, ih]

/-- How long an attempt keeps the next one from being made. -/
def period (info : ConnectionInfo) : ℤ := info.connectionTimeout + info.connectionCycleTimeout

/-- A visit is one input to the budget, or none. -/
lemma processClient_budget (hinfo : v.info = info) (hthrows : v.connectThrows = none)
    (name : Str) (itrTime : ℤ) (blk : ConServiceBlk κ) :
    ∃ is, Budget.polls is ≤ 1 ∧
      (processClient itrTime name v blk).1.effects.filterMap (Action.outcome? name)
        = (blk.budget.log info.connectionAttempt (period info) is).map untimed ∧
      (processClient itrTime name v blk).2.client = blk.client ∧
      (processClient itrTime name v blk).2.budget
        = blk.budget.after info.connectionAttempt (period info) is := by
  subst hinfo
  cases hstate : v.state with
  | connecting =>
    exact ⟨[], by simp, by simp [processClient, hstate, Action.outcome?], by
      simp [processClient, hstate], by simp [processClient, hstate]⟩
  | connected =>
    refine ⟨[.clear], by simp, ?_, ?_, ?_⟩
    · simp [processClient, hstate, Action.outcome?, Budget.outcome, untimed]
    · simp [processClient, hstate]
    · simp [processClient, hstate, ConServiceBlk.budget, Budget.next]
  | disconnected =>
    refine ⟨[.poll itrTime], by simp, ?_, ?_, ?_⟩
    · simp only [processClient, hstate, Budget.log_singleton, Budget.outcome, Budget.verdict,
        ConServiceBlk.budget, hthrows]
      split_ifs <;> simp [Action.outcome?, exhausted, untimed]
    · simp only [processClient, hstate, hthrows]
      split_ifs <;> rfl
    · simp only [processClient, hstate, Budget.after_singleton, Budget.next, Budget.verdict,
        ConServiceBlk.budget, hthrows]
      split_ifs <;> simp [period, add_assoc]

/-- What is assumed of the client subscribed under `name`: constant parameters, and a `connect()`
that does not throw. -/
def Steady (client : κ) (info : ConnectionInfo) (e : ConnEvent κ) : Prop :=
  ∀ itrTime order view v, e = .pass itrTime order view → view client = some v →
    v.info = info ∧ v.connectThrows = none

/-- One event does nothing for a client, or is a pass that visits it and sees its state. -/
lemma ConnStep.client_cases (h : ConnStep items e items') (hkept : e ≠ .unsubscribe name)
    (hblk : items name = some blk) :
    ((e.perform items).1.filter (·.isFor name) = [] ∧ items' name = some blk ∧
      ∀ itrTime order view, e = .pass itrTime order view →
        ¬ Skipped view itrTime order items name → view blk.client = none) ∨
    ∃ itrTime order view v, e = .pass itrTime order view ∧
      ¬ Skipped view itrTime order items name ∧ view blk.client = some v ∧
      (e.perform items).1.filter (·.isFor name) = (processClient itrTime name v blk).1.effects ∧
      items' name = some (processClient itrTime name v blk).2 := by
  cases h with
  | subscribe n c =>
    left
    refine ⟨?_, subscribe_of_eq_some hblk n c, ?_⟩
    · simp only [ConnEvent.perform, System.subscribe]
      split_ifs
      · simp [Action.isFor, doubleInsertion_ne_exhausted]
      · rfl
    · intro _ _ _ heq
      cases heq
  | unsubscribe n =>
    have hne : name ≠ n := fun h => hkept (h ▸ rfl)
    left
    refine ⟨rfl, KeyedMap.erase_eq_some_iff.mpr ⟨hne, hblk⟩, ?_⟩
    intro _ _ _ heq
    cases heq
  | @pass itrTime order view horder =>
    have hmem : name ∈ order := (horder.mem_iff name).mpr (by simp [hblk])
    obtain ⟨hskip, hvisit⟩ := connectionHandler_client horder.nodup hmem hblk
    by_cases hskipped : Skipped view itrTime order items name
    · obtain ⟨hnil, hsame⟩ := hskip hskipped
      refine .inl ⟨hnil, hsame, ?_⟩
      rintro _ _ _ heq hvisited
      cases heq
      exact absurd hskipped hvisited
    · obtain ⟨heffects, hafter⟩ := hvisit hskipped
      cases hv : view blk.client with
      | none =>
        have hgone : processItem view itrTime name blk = (.nothing, blk) := by
          simp [processItem, hv]
        rw [hgone] at heffects hafter
        refine .inl ⟨heffects, hafter, ?_⟩
        rintro _ _ _ heq -
        cases heq
        exact hv
      | some v =>
        have hseen : processItem view itrTime name blk = processClient itrTime name v blk := by
          simp [processItem, hv]
        rw [hseen] at heffects hafter
        exact .inr ⟨itrTime, order, view, v, rfl, hskipped, hv, heffects, hafter⟩

/-- One event, as the client sees it. -/
lemma ConnStep.budget (h : ConnStep items e items') (hkept : e ≠ .unsubscribe name)
    (hsteady : Steady client info e) (hblk : items name = some blk)
    (hclient : blk.client = client) :
    ∃ is blk', Budget.polls is ≤ passes [(items, e)] ∧
      (e.perform items).1.filterMap (Action.outcome? name)
        = (blk.budget.log info.connectionAttempt (period info) is).map untimed ∧
      items' name = some blk' ∧ blk'.client = client ∧
      blk'.budget = blk.budget.after info.connectionAttempt (period info) is := by
  rcases h.client_cases hkept hblk with ⟨hnil, hsame, -⟩ |
    ⟨itrTime, order, view, v, rfl, -, hv, heffects, hafter⟩
  · refine ⟨[], blk, by simp, ?_, hsame, hclient, rfl⟩
    rw [← filterMap_isFor, hnil]
    rfl
  · obtain ⟨hinfo, hthrows⟩ := hsteady itrTime order view v rfl (hclient ▸ hv)
    obtain ⟨is, hpolls, hlog, hkeep, hbudget⟩ :=
      processClient_budget hinfo hthrows name itrTime blk
    refine ⟨is, _, by simpa [passes, ConnEvent.isPass] using hpolls, ?_, hafter,
      hkeep.trans hclient, hbudget⟩
    rw [← filterMap_isFor, heffects, hlog]

/-- A whole run, as the client sees it. -/
lemma log_of_run {tr : List (ConnTable κ × ConnEvent κ)} (hrun : Run ConnStep items tr items')
    (hkept : ∀ p ∈ tr, p.2 ≠ .unsubscribe name) (hsteady : ∀ p ∈ tr, Steady client info p.2)
    (hblk : items name = some blk) (hclient : blk.client = client) :
    ∃ is, Budget.polls is ≤ passes tr ∧
      (actions tr).filterMap (Action.outcome? name)
        = (blk.budget.log info.connectionAttempt (period info) is).map untimed := by
  induction hrun generalizing blk with
  | nil items => exact ⟨[], by simp, rfl⟩
  | @cons items items' _ e tr hstep _ ih =>
    obtain ⟨hk, hkept⟩ := List.forall_mem_cons.mp hkept
    obtain ⟨hs, hsteady⟩ := List.forall_mem_cons.mp hsteady
    obtain ⟨is, blk', hpolls, hlog, hblk', hclient', hbudget⟩ := hstep.budget hk hs hblk hclient
    obtain ⟨is', hpolls', hlog'⟩ := ih hkept hsteady hblk' hclient'
    refine ⟨is ++ is', ?_, ?_⟩
    · have hpasses : passes ((items, e) :: tr) = passes [(items, e)] + passes tr := by
        simp [passes, List.countP_cons, Nat.add_comm]
      rw [Budget.polls_append, hpasses]
      exact Nat.add_le_add hpolls hpolls'
    · have hactions : actions ((items, e) :: tr) = (e.perform items).1 ++ actions tr := by
        simp [actions]
      rw [hactions, List.filterMap_append, hlog, hlog', Budget.log_append, List.map_append, hbudget]

/-! ### Parts of a log -/

section

variable {log : List Action} {os : List Budget.Outcome}

/-- A count of actions that goes by what they tell of the budget. -/
lemma countP_log {p : Action → Bool} {q : Budget.Outcome → Bool}
    (hp : ∀ a, p a = ((a.outcome? name).map q).getD false) (hq : ∀ o, q (untimed o) = q o)
    (hlog : log.filterMap (Action.outcome? name) = os.map untimed) :
    log.countP p = os.countP q :=
  calc log.countP p = (log.filterMap (Action.outcome? name)).countP q := by
        rw [List.countP_filterMap]
        apply List.countP_congr
        intro a _
        rw [hp a]
    _ = os.countP q := by
        rw [hlog, List.countP_map]
        apply List.countP_congr
        intro o _
        rw [Function.comp_apply, hq o]

lemma countP_isConnect (hlog : log.filterMap (Action.outcome? name) = os.map untimed) :
    log.countP (·.isConnect name) = os.countP (·.isAttempt) := by
  apply countP_log _ _ hlog
  · intro a
    cases a with
    | getState n st => by_cases h : n = name ∧ st = .connected <;>
        simp [Action.isConnect, Action.outcome?, h, Budget.Outcome.isAttempt]
    | connect n t => by_cases h : n = name <;>
        simp [Action.isConnect, Action.outcome?, h, Budget.Outcome.isAttempt]
    | report level descr => by_cases h : Action.report level descr = exhausted name <;>
        simp [Action.isConnect, Action.outcome?, h, Budget.Outcome.isAttempt]
  · intro o
    cases o <;> rfl

lemma count_exhausted (hlog : log.filterMap (Action.outcome? name) = os.map untimed) :
    log.count (exhausted name) = os.countP (·.isGiveUp) := by
  apply countP_log _ _ hlog
  · intro a
    cases a with
    | getState n st => by_cases h : n = name ∧ st = .connected <;>
        simp [exhausted, Action.outcome?, h, Budget.Outcome.isGiveUp]
    | connect n t => by_cases h : n = name <;>
        simp [exhausted, Action.outcome?, h, Budget.Outcome.isGiveUp]
    | report level descr => by_cases h : Action.report level descr = exhausted name <;>
        simp [Action.outcome?, h, Budget.Outcome.isGiveUp]
  · intro o
    cases o <;> rfl

lemma filterMap_connectTime (hlog : log.filterMap (Action.outcome? name) = os.map untimed) :
    log.filterMap (Action.connectTime? name) = os.filterMap Budget.Outcome.attempt? := by
  have hos : (os.map untimed).filterMap Budget.Outcome.attempt?
      = os.filterMap Budget.Outcome.attempt? := by
    rw [List.filterMap_map]
    apply List.filterMap_congr
    intro o _
    cases o <;> rfl
  rw [← hos, ← hlog, List.filterMap_filterMap]
  apply List.filterMap_congr
  intro a _
  cases a with
  | getState n st => by_cases h : n = name ∧ st = .connected <;>
      simp [Action.connectTime?, Action.outcome?, h, Budget.Outcome.attempt?]
  | connect n t => by_cases h : n = name <;>
      simp [Action.connectTime?, Action.outcome?, h, Budget.Outcome.attempt?]
  | report level descr => by_cases h : Action.report level descr = exhausted name <;>
      simp [Action.connectTime?, Action.outcome?, h, Budget.Outcome.attempt?]

lemma cleared_notMem (hlog : log.filterMap (Action.outcome? name) = os.map untimed)
    (h : Disconnected name log) : Budget.Outcome.cleared ∉ os := by
  intro hmem
  have hmem' : Budget.Outcome.cleared ∈ log.filterMap (Action.outcome? name) := by
    rw [hlog]
    exact List.mem_map.mpr ⟨_, hmem, rfl⟩
  obtain ⟨a, ha, ho⟩ := List.mem_filterMap.mp hmem'
  cases a with
  | getState n st =>
    simp only [Action.outcome?] at ho
    split_ifs at ho with hn
    exact h (hn.1 ▸ hn.2 ▸ ha)
  | connect n t =>
    simp only [Action.outcome?] at ho
    split_ifs at ho
    simp at ho
  | report level descr =>
    simp only [Action.outcome?] at ho
    split_ifs at ho
    simp at ho

/-- A log in three parts is a list of outcomes in three parts. -/
lemma split_outcomes {l₁ seg l₂ : List Action}
    (hlog : (l₁ ++ seg ++ l₂).filterMap (Action.outcome? name) = os.map untimed) :
    ∃ o₁ o₂ o₃, os = o₁ ++ o₂ ++ o₃ ∧
      l₁.filterMap (Action.outcome? name) = o₁.map untimed ∧
      seg.filterMap (Action.outcome? name) = o₂.map untimed ∧
      l₂.filterMap (Action.outcome? name) = o₃.map untimed := by
  rw [List.filterMap_append, List.filterMap_append] at hlog
  obtain ⟨o, o₃, rfl, ho, h₃⟩ := List.map_eq_append_iff.mp hlog.symm
  obtain ⟨o₁, o₂, rfl, h₁, h₂⟩ := List.map_eq_append_iff.mp ho
  exact ⟨o₁, o₂, o₃, rfl, h₁.symm, h₂.symm, h₃.symm⟩

lemma gaveUp_of_exhausted {l : List Action}
    (hlog : (exhausted name :: l).filterMap (Action.outcome? name) = os.map untimed) :
    ∃ now os', os = .gaveUp now :: os' := by
  have hone : (exhausted name).outcome? name = some (.gaveUp 0) := if_pos rfl
  rw [List.filterMap_cons_some hone] at hlog
  cases os with
  | nil => simp at hlog
  | cons o os' =>
    obtain ⟨ho, -⟩ := List.cons.inj hlog
    cases o with
    | cleared => simp [untimed] at ho
    | attempted now => simp [untimed] at ho
    | gaveUp now => exact ⟨now, os', rfl⟩

/-- A front part that is empty, or ends where the client is observed as connected. -/
lemma starts_of_connected {l₁ : List Action}
    (hlog : l₁.filterMap (Action.outcome? name) = os.map untimed)
    (hstart : l₁ = [] ∨ ∃ l, l₁ = l ++ [.getState name .connected]) :
    os = [] ∨ ∃ os', os = os' ++ [.cleared] := by
  rcases hstart with rfl | ⟨l, rfl⟩
  · left
    exact List.map_eq_nil_iff.mp hlog.symm
  · right
    have hone : (Action.getState name .connected).outcome? name = some .cleared := by
      simp [Action.outcome?]
    rw [List.filterMap_append, List.filterMap_cons_some hone] at hlog
    obtain ⟨os', o, rfl, -, ho⟩ := List.map_eq_append_iff.mp hlog.symm
    obtain ⟨o', rfl, ho'⟩ := List.map_eq_singleton_iff.mp ho
    cases o' with
    | cleared => exact ⟨os', rfl⟩
    | attempted now => simp [untimed] at ho'
    | gaveUp now => simp [untimed] at ho'

end

/-- A client that has just been subscribed, with constant parameters and a `connect()` that does
not throw, and fewer than `2 ^ 32` passes: between two observations of it as connected there are
at most as many calls of `connect()` as it allows, all calls are more than the two timeouts apart,
and it is reported as exhausted at most once, after exactly that many calls. -/
theorem reconnect_discipline {s t : ConnTable κ} {tr : List (ConnTable κ × ConnEvent κ)}
    (hnew : items name = none) (hsub : ConnStep items (.subscribe name client) s)
    (hrun : Run ConnStep s tr t) (hkept : ∀ p ∈ tr, p.2 ≠ .unsubscribe name)
    (hsteady : ∀ p ∈ tr, Steady client info p.2) (htimeout : 0 ≤ info.connectionTimeout)
    (hcycle : 0 ≤ info.connectionCycleTimeout) (hpasses : passes tr < 2 ^ 32) :
    let N := info.connectionAttempt.toNat
    (∀ l₁ seg l₂, actions tr = l₁ ++ seg ++ l₂ → Disconnected name seg →
      seg.countP (·.isConnect name) ≤ N) ∧
    ((actions tr).filterMap (Action.connectTime? name)).Pairwise
      (fun τ τ' => τ + info.connectionTimeout + info.connectionCycleTimeout < τ') ∧
    (∀ l₁ seg l₂, actions tr = l₁ ++ seg ++ l₂ → Disconnected name seg →
      seg.count (exhausted name) ≤ 1) ∧
    (∀ l₁ seg l₂, actions tr = l₁ ++ seg ++ exhausted name :: l₂ → Disconnected name seg →
      (l₁ = [] ∨ ∃ l, l₁ = l ++ [.getState name .connected]) →
      seg.countP (·.isConnect name) = N) := by
  intro N
  have hblk : s name = some ⟨client, 0, 0⟩ := by
    cases hsub
    simp [ConnEvent.perform, System.subscribe, hnew, KeyedMap.emplace_self_of_eq_none]
  obtain ⟨is, hpolls, hlog⟩ := log_of_run hrun hkept hsteady hblk rfl
  have hlen : Budget.polls is ≤ 2 ^ 32 := hpolls.trans hpasses.le
  have hzero : (ConServiceBlk.budget (⟨client, 0, 0⟩ : ConServiceBlk κ)).spent = 0 := rfl
  refine ⟨?_, ?_, ?_, ?_⟩
  · intro l₁ seg l₂ hsplit hseg
    rw [hsplit] at hlog
    obtain ⟨o₁, o₂, o₃, hos, -, hmid, -⟩ := split_outcomes hlog
    rw [countP_isConnect hmid]
    exact Budget.attempts_le_limit hzero hlen hos (cleared_notMem hmid hseg)
  · rw [filterMap_connectTime hlog]
    have hspaced := (@Budget.attempts_spaced info.connectionAttempt (period info)
      (add_nonneg htimeout hcycle) (ConServiceBlk.budget (⟨client, 0, 0⟩ : ConServiceBlk κ)) is).1
    refine hspaced.imp fun {τ τ'} hlt => ?_
    rw [add_assoc]
    exact hlt
  · intro l₁ seg l₂ hsplit hseg
    rw [hsplit] at hlog
    obtain ⟨o₁, o₂, o₃, hos, -, hmid, -⟩ := split_outcomes hlog
    rw [count_exhausted hmid]
    exact Budget.giveUps_le_one hzero hlen hos (cleared_notMem hmid hseg)
  · intro l₁ seg l₂ hsplit hseg hstart
    rw [hsplit] at hlog
    obtain ⟨o₁, o₂, o₃, hos, hfront, hmid, hrest⟩ := split_outcomes hlog
    rw [countP_isConnect hmid]
    obtain ⟨now, o₃', rfl⟩ := gaveUp_of_exhausted hrest
    exact Budget.attempts_eq_of_gaveUp hzero hlen hos (cleared_notMem hmid hseg)
      (starts_of_connected hfront hstart)

/-- A client that is allowed one attempt and never comes up is reported after it. -/
theorem reconnect_discipline_once :
    ∃ (s t : ConnTable Unit) (tr : List (ConnTable Unit × ConnEvent Unit)),
      ConnStep KeyedMap.empty (.subscribe (str "mqtt") ()) s ∧ Run ConnStep s tr t ∧
      actions tr = [.getState (str "mqtt") .disconnected, .connect (str "mqtt") 10,
        .getState (str "mqtt") .disconnected, exhausted (str "mqtt")] ∧
      [Action.getState (str "mqtt") .disconnected, .connect (str "mqtt") 10,
        .getState (str "mqtt") .disconnected].countP (·.isConnect (str "mqtt")) = 1 := by
  let view : Unit → Option ClientView := fun _ => some ⟨.disconnected, ⟨1, 1, 1⟩, none⟩
  have hsub : ConnStep KeyedMap.empty (.subscribe (str "mqtt") ()) _ :=
    .subscribe KeyedMap.empty (str "mqtt") ()
  have hinit : (KeyedMap.empty.emplace (str "mqtt")
      (⟨(), 0, 0⟩ : ConServiceBlk Unit)).IterationOrder [str "mqtt"] :=
    KeyedMap.iterationOrder_empty.emplace rfl
  have hone := ConnStep.pass 10 view hinit
  have htwo := ConnStep.pass 20 view
    (iterationOrder_connectionHandler view 10 [str "mqtt"] hinit)
  have hrun := (Run.single hone).append (.single htwo)
  refine ⟨_, _, _, hsub, hrun, rfl, ?_⟩
  have htimeout : (0 : ℤ) ≤ (⟨1, 1, 1⟩ : ConnectionInfo).connectionTimeout := by decide
  refine (reconnect_discipline rfl hsub hrun ?_ ?_ htimeout (by decide) (by decide)).2.2.2 []
    [.getState (str "mqtt") .disconnected, .connect (str "mqtt") 10,
      .getState (str "mqtt") .disconnected] [] rfl ?_ (.inl rfl)
  · intro p hp
    simp only [List.mem_append, List.mem_singleton] at hp
    rcases hp with rfl | rfl <;> simp
  · intro p hp itrTime order view' v he hv
    simp only [List.mem_append, List.mem_singleton] at hp
    rcases hp with rfl | rfl
    · obtain ⟨-, -, rfl⟩ := ConnEvent.pass.inj he
      obtain rfl := Option.some.inj hv
      exact ⟨rfl, rfl⟩
    · obtain ⟨-, -, rfl⟩ := ConnEvent.pass.inj he
      obtain rfl := Option.some.inj hv
      exact ⟨rfl, rfl⟩
  · simp [Disconnected]

end System
