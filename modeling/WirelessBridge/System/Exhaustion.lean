import WirelessBridge.Lib.Exhaustion
import WirelessBridge.System.Reconnect

/-!
# Clients reported as exhausted

Once the manager has reported a client as exhausted, the counter in its block moves on at every
pass that finds the client disconnected, since nothing moves the deadline any more. It is a 32-bit
counter, and the report comes where it meets the limit.
-/

namespace System

open Lib

variable {κ : Type*}

instance (view : κ → Option ClientView) (itrTime : ℤ) (blk : ConServiceBlk κ) :
    Decidable (Throws view itrTime blk) :=
  inferInstanceAs (Decidable (∃ v ∈ view blk.client, _))

instance (view : κ → Option ClientView) (itrTime : ℤ) (order : List Str) (items : ConnTable κ)
    (name : Str) : Decidable (Skipped view itrTime order items name) :=
  inferInstanceAs (Decidable (∃ n ∈ order.takeWhile (· ≠ name), ∃ blk ∈ items n, _))

/-- The event neither calls `connect()` of the client nor reports it as exhausted. -/
def LeftAlone (name : Str) (p : ConnTable κ × ConnEvent κ) : Prop :=
  ∀ a ∈ (p.2.perform p.1).1, a.isConnect name = false ∧ a ≠ exhausted name

/-- The pass comes to the client, and finds it disconnected and past its deadline. -/
def Overdue (name : Str) (client : κ) (deadline : ℤ) (p : ConnTable κ × ConnEvent κ) : Prop :=
  match p.2 with
  | .pass itrTime order view =>
    ¬ Skipped view itrTime order p.1 name ∧
      (∃ v ∈ view client, v.state = .disconnected) ∧ deadline < itrTime
  | _ => False

instance (name : Str) (client : κ) (deadline : ℤ) : DecidablePred (Overdue name client deadline)
  | (_, .pass ..) => inferInstanceAs (Decidable (_ ∧ _ ∧ _))
  | (_, .subscribe ..) => inferInstanceAs (Decidable False)
  | (_, .unsubscribe ..) => inferInstanceAs (Decidable False)

/-- The client shows this attempt limit whenever it is asked. -/
def LimitIs (client : κ) (limit : UInt32) (e : ConnEvent κ) : Prop :=
  ∀ itrTime order view v, e = .pass itrTime order view → view client = some v →
    v.info.connectionAttempt = limit

/-- The client is in the table, its deadline is this one, and its counter is above the limit, `r`
overdue passes away from zero. -/
def ClientLeft (name : Str) (client : κ) (deadline : ℤ) (limit : UInt32) (r : ℕ)
    (items : ConnTable κ) : Prop :=
  ∃ blk, items name = some blk ∧ blk.client = client ∧ blk.timeToAttempt = deadline ∧
    Budget.Left limit r blk.budget

variable {name : Str} {client : κ} {deadline itrTime : ℤ} {limit : UInt32} {r : ℕ}
  {items items' : ConnTable κ} {e : ConnEvent κ} {blk : ConServiceBlk κ} {v : ClientView}
  {l : List Action}

/-! ### One visit -/

lemma ConServiceBlk.verdict_budget (limit : UInt32) (b : ConServiceBlk κ) (now : ℤ) :
    b.budget.verdict limit now
      = if b.timeToAttempt < now then
          if b.spentAttempt < limit then .attempt
          else if b.spentAttempt = limit then .giveUp
          else .silent
        else .wait := rfl

lemma processClient_of_wait (hstate : v.state = .disconnected)
    (hverdict : blk.budget.verdict v.info.connectionAttempt itrTime = .wait) :
    processClient itrTime name v blk = (.does (.getState name .disconnected), blk) := by
  rw [ConServiceBlk.verdict_budget] at hverdict
  split_ifs at hverdict with hdue
  simp [processClient, hstate, hdue]

lemma processClient_of_silent (hstate : v.state = .disconnected)
    (hverdict : blk.budget.verdict v.info.connectionAttempt itrTime = .silent) :
    processClient itrTime name v blk = (.does (.getState name .disconnected),
      { blk with spentAttempt := blk.spentAttempt + 1 }) := by
  rw [ConServiceBlk.verdict_budget] at hverdict
  split_ifs at hverdict with hdue hlt heq
  simp [processClient, hstate, hdue, hlt, heq, Performed.does]

lemma connect_mem_processClient (hstate : v.state = .disconnected)
    (hverdict : blk.budget.verdict v.info.connectionAttempt itrTime = .attempt) :
    .connect name itrTime ∈ (processClient itrTime name v blk).1.effects := by
  rw [ConServiceBlk.verdict_budget] at hverdict
  split_ifs at hverdict with hdue hlt
  simp [processClient, hstate, hdue, hlt]

lemma processClient_of_giveUp (hstate : v.state = .disconnected)
    (hverdict : blk.budget.verdict v.info.connectionAttempt itrTime = .giveUp) :
    processClient itrTime name v blk = (⟨[.getState name .disconnected, exhausted name], none⟩,
      { blk with spentAttempt := blk.spentAttempt + 1 }) := by
  rw [ConServiceBlk.verdict_budget] at hverdict
  split_ifs at hverdict with hdue hlt heq
  simp only [processClient, hstate, if_pos hdue, if_neg hlt, if_pos heq]

lemma giveUp_of_exhausted (h : exhausted name ∈ (processClient itrTime name v blk).1.effects) :
    v.state = .disconnected ∧
      blk.budget.verdict v.info.connectionAttempt itrTime = .giveUp := by
  have hne : ∀ st, exhausted name ≠ .getState name st := fun st => nofun
  have hne' : exhausted name ≠ .connect name itrTime := nofun
  rw [ConServiceBlk.verdict_budget]
  simp only [processClient] at h
  split at h
  · rename_i hstate
    split_ifs at h ⊢ <;> simp [hne, hne'] at h ⊢
    exact hstate
  · simp [hne] at h
  · simp [hne] at h

lemma isFor_exhausted (name : Str) : (exhausted name).isFor name = true := by
  simp [exhausted, Action.isFor]

/-- Only what is done for the client can break its peace. -/
lemma forall_mem_iff_filter_isFor :
    (∀ a ∈ l, a.isConnect name = false ∧ a ≠ exhausted name) ↔
      ∀ a ∈ l.filter (·.isFor name), a.isConnect name = false ∧ a ≠ exhausted name := by
  constructor
  · exact fun h a ha => h a (List.mem_of_mem_filter ha)
  · intro h a ha
    by_cases hfor : a.isFor name = true
    · exact h a (List.mem_filter.mpr ⟨ha, hfor⟩)
    · constructor
      · cases a with
        | getState n st => rfl
        | connect n t => simpa [Action.isFor, Action.isConnect] using hfor
        | report level descr => rfl
      · rintro rfl
        exact hfor (isFor_exhausted name)

/-- One visit of an exhausted client. -/
lemma processClient_left (hstate : v.state = .disconnected) (hinfo : v.info.connectionAttempt = limit)
    (hleft : Budget.Left limit r blk.budget) :
    (¬ blk.timeToAttempt < itrTime ∧
      processClient itrTime name v blk = (.does (.getState name .disconnected), blk)) ∨
    (blk.timeToAttempt < itrTime ∧ ∃ r', r = r' + 1 ∧
      (processClient itrTime name v blk).1.effects = [.getState name .disconnected] ∧
      (processClient itrTime name v blk).2.client = blk.client ∧
      (processClient itrTime name v blk).2.timeToAttempt = blk.timeToAttempt ∧
      Budget.Left limit r' (processClient itrTime name v blk).2.budget) ∨
    (blk.timeToAttempt < itrTime ∧ r = 0 ∧
      (.connect name itrTime ∈ (processClient itrTime name v blk).1.effects ∨
        exhausted name ∈ (processClient itrTime name v blk).1.effects)) := by
  subst hinfo
  rcases hleft.verdict_cases itrTime with
    ⟨hdue, hverdict⟩ | ⟨hdue, r', rfl, hverdict, hleft'⟩ | ⟨hdue, rfl, hverdict⟩
  · exact .inl ⟨hdue, processClient_of_wait hstate hverdict⟩
  · refine .inr (.inl ⟨hdue, r', rfl, ?_⟩)
    rw [processClient_of_silent hstate hverdict]
    exact ⟨rfl, rfl, rfl, hleft'⟩
  · refine .inr (.inr ⟨hdue, rfl, ?_⟩)
    rcases hverdict with hverdict | hverdict
    · exact .inl (connect_mem_processClient hstate hverdict)
    · right
      rw [processClient_of_giveUp hstate hverdict]
      simp

lemma leftAlone_of_filter {es : List Action}
    (heffects : (e.perform items).1.filter (·.isFor name) = es)
    (hes : ∀ a ∈ es, ∃ st, a = .getState name st) : LeftAlone name (items, e) := by
  apply forall_mem_iff_filter_isFor.mpr
  rw [heffects]
  intro a ha
  obtain ⟨st, rfl⟩ := hes a ha
  exact ⟨rfl, by simp [exhausted]⟩

/-- One event in the life of an exhausted client. -/
lemma ConnStep.clientLeft (h : ConnStep items e items') (hkept : e ≠ .unsubscribe name)
    (hlimit : LimitIs client limit e) (hdisconnected : Disconnected name (e.perform items).1)
    (hleft : ClientLeft name client deadline limit r items) :
    (¬ Overdue name client deadline (items, e) ∧ LeftAlone name (items, e) ∧
      ClientLeft name client deadline limit r items') ∨
    (Overdue name client deadline (items, e) ∧ ∃ r', r = r' + 1 ∧ LeftAlone name (items, e) ∧
      ClientLeft name client deadline limit r' items') ∨
    (Overdue name client deadline (items, e) ∧ r = 0 ∧ ¬ LeftAlone name (items, e)) := by
  obtain ⟨blk, hblk, rfl, rfl, hbudget⟩ := hleft
  rcases h.client_cases hkept hblk with ⟨hnil, hsame, hunseen⟩ |
    ⟨itrTime, order, view, v, rfl, hvisited, hv, heffects, hafter⟩
  · left
    refine ⟨?_, leftAlone_of_filter hnil (by simp), blk, hsame, rfl, rfl, hbudget⟩
    cases e with
    | pass itrTime order view =>
      rintro ⟨hvisited, ⟨v, hv, -⟩, -⟩
      rw [hunseen itrTime order view rfl hvisited] at hv
      cases hv
    | subscribe n c => exact id
    | unsubscribe n => exact id
  · have hover : Overdue name blk.client blk.timeToAttempt (items, .pass itrTime order view) ↔
        v.state = .disconnected ∧ blk.timeToAttempt < itrTime := by
      simp [Overdue, hvisited, hv]
    rw [hover]
    cases hstate : v.state with
    | connecting =>
      left
      simp only [processClient, hstate] at heffects hafter
      exact ⟨fun h => absurd h.1 (by simp), leftAlone_of_filter heffects (by simp), blk, hafter,
        rfl, rfl, hbudget⟩
    | connected =>
      refine absurd ?_ hdisconnected
      simp only [processClient, hstate] at heffects
      have hfilter : .getState name .connected ∈
          ((ConnEvent.pass itrTime order view).perform items).1.filter (·.isFor name) := by
        rw [heffects]
        exact List.mem_singleton_self _
      exact List.mem_of_mem_filter hfilter
    | disconnected =>
      rcases processClient_left hstate (hlimit itrTime order view v rfl hv) hbudget with
        ⟨hdue, hsame⟩ | ⟨hdue, r', rfl, hsilent, hclient, hdeadline, hbudget'⟩ |
          ⟨hdue, rfl, hloud⟩
      · left
        rw [hsame] at heffects hafter
        exact ⟨fun h => hdue h.2, leftAlone_of_filter heffects (by simp), blk, hafter, rfl, rfl,
          hbudget⟩
      · right; left
        rw [hsilent] at heffects
        exact ⟨⟨rfl, hdue⟩, r', rfl, leftAlone_of_filter heffects (by simp), _, hafter, hclient,
          hdeadline, hbudget'⟩
      · right; right
        refine ⟨⟨rfl, hdue⟩, rfl, fun halone => ?_⟩
        have hquiet := forall_mem_iff_filter_isFor.mp halone
        rw [heffects] at hquiet
        rcases hloud with hloud | hloud
        · simpa [Action.isConnect] using (hquiet _ hloud).1
        · exact (hquiet _ hloud).2 rfl

/-- The pass that reports a client leaves its counter one above the limit. -/
lemma ConnStep.clientLeft_of_exhausted (h : ConnStep items e items')
    (hblk : items name = some blk) (hlimit : LimitIs blk.client limit e)
    (hexhausted : exhausted name ∈ (e.perform items).1) :
    ClientLeft name blk.client blk.timeToAttempt limit (2 ^ 32 - 1 - limit.toNat) items' := by
  have hkept : e ≠ .unsubscribe name := by
    rintro rfl
    exact List.not_mem_nil hexhausted
  have hfilter := List.mem_filter.mpr ⟨hexhausted, isFor_exhausted name⟩
  rcases h.client_cases hkept hblk with ⟨hnil, -, -⟩ |
    ⟨itrTime, order, view, v, rfl, -, hv, heffects, hafter⟩
  · rw [hnil] at hfilter
    exact absurd hfilter List.not_mem_nil
  · rw [heffects] at hfilter
    have hinfo := hlimit itrTime order view v rfl hv
    subst hinfo
    obtain ⟨hstate, hverdict⟩ := giveUp_of_exhausted hfilter
    rw [processClient_of_giveUp hstate hverdict] at hafter
    refine ⟨_, hafter, rfl, rfl, Budget.left_of_spent_eq (b := blk.budget) ?_⟩
    rw [ConServiceBlk.verdict_budget] at hverdict
    split_ifs at hverdict with _ _ heq
    exact heq

/-- A pass over `items` has reported the client, whose deadline this was, and after it came these
events, at which the client was not observed connected. -/
structure AfterReport (items : ConnTable κ) (name : Str) (client : κ) (limit : UInt32)
    (deadline : ℤ) (tr : List (ConnTable κ × ConnEvent κ)) : Prop where
  reported : ∃ e items' t blk, items name = some blk ∧ blk.client = client ∧
    blk.timeToAttempt = deadline ∧ ConnStep items e items' ∧
    exhausted name ∈ (e.perform items).1 ∧ LimitIs client limit e ∧ Run ConnStep items' tr t
  limitIs : ∀ p ∈ tr, LimitIs client limit p.2
  kept : ∀ p ∈ tr, p.2 ≠ .unsubscribe name
  disconnected : Disconnected name (actions tr)

/-- A client reported as exhausted is left alone just when the overdue passes are fewer than the
counter can count. -/
lemma leftAlone_iff {tr : List (ConnTable κ × ConnEvent κ)}
    (h : AfterReport items name client limit deadline tr) :
    (∀ p ∈ tr, LeftAlone name p) ↔
      tr.countP (Overdue name client deadline) < 2 ^ 32 - limit.toNat := by
  obtain ⟨⟨e, items', t, blk, hblk, rfl, rfl, hstep, hexhausted, hlimit, hrun⟩, hlimits, hkept,
    hdisconnected⟩ := h
  have hlt : limit.toNat < 2 ^ 32 := limit.toNat_lt
  rw [hrun.forall_iff_countP_le (ClientLeft name blk.client blk.timeToAttempt limit)
    (LeftAlone name) (Overdue name blk.client blk.timeToAttempt) _
    (hstep.clientLeft_of_exhausted hblk hlimit hexhausted)]
  · omega
  · intro p hp r b hleft hst
    apply hst.clientLeft (hkept p hp) (hlimits p hp) _ hleft
    exact fun hmem => hdisconnected (List.mem_flatMap.mpr ⟨p, hp, hmem⟩)

/-! ### A client that allows no attempts -/

/-- It is never up, and has no attempts to spend. -/
def downView : Unit → Option ClientView := fun _ => some ⟨.disconnected, ⟨0, 0, 0⟩, none⟩

def downTable : ConnTable Unit := KeyedMap.empty.emplace (str "mqtt") ⟨(), 0, 0⟩

abbrev downPass : ConnEvent Unit := .pass 10 [str "mqtt"] downView

lemma iterationOrder_downTable : downTable.IterationOrder [str "mqtt"] :=
  KeyedMap.iterationOrder_empty.emplace rfl

lemma run_downPass {items : ConnTable Unit} (horder : items.IterationOrder [str "mqtt"]) (n : ℕ) :
    ∃ tr t, Run ConnStep items tr t ∧ tr.length = n ∧ ∀ p ∈ tr, p.2 = downPass := by
  induction n generalizing items with
  | zero => exact ⟨[], items, .nil items, rfl, by simp⟩
  | succ n ih =>
    have hstep := ConnStep.pass 10 downView horder
    obtain ⟨tr, t, hrun, hlen, hall⟩ :=
      ih (iterationOrder_connectionHandler downView 10 [str "mqtt"] horder)
    exact ⟨_, t, .cons hstep hrun, by simp [hlen], List.forall_mem_cons.mpr ⟨rfl, hall⟩⟩

lemma disconnected_downPass (items : ConnTable Unit) :
    Disconnected (str "mqtt") (downPass.perform items).1 := by
  intro hmem
  simp only [ConnEvent.perform, connectionHandler] at hmem
  split at hmem
  · simp at hmem
  · rename_i blk _
    simp only [processItem, downView, processClient] at hmem
    split_ifs at hmem <;> simp [exhausted, Performed.andThen] at hmem

/-- After the report, any number of overdue passes. -/
lemma exists_afterReport (n : ℕ) :
    ∃ tr, AfterReport downTable (str "mqtt") () 0 0 tr ∧
      tr.countP (Overdue (str "mqtt") () 0) = n := by
  have hstep := ConnStep.pass 10 downView iterationOrder_downTable
  obtain ⟨tr, t, hrun, hlen, hall⟩ := run_downPass
    (iterationOrder_connectionHandler downView 10 [str "mqtt"] iterationOrder_downTable) n
  have hlimit : LimitIs () 0 downPass := by
    intro itrTime order view v he hv
    obtain ⟨-, -, rfl⟩ := ConnEvent.pass.inj he
    obtain rfl := Option.some.inj hv
    rfl
  refine ⟨tr, ⟨⟨_, _, t, ⟨(), 0, 0⟩, rfl, rfl, rfl, hstep, ?_, hlimit, hrun⟩, ?_, ?_, ?_⟩, ?_⟩
  · decide
  · exact fun p hp => (hall p hp).symm ▸ hlimit
  · exact fun p hp h => nomatch (hall p hp).symm.trans h
  · intro hmem
    obtain ⟨p, hp, hmem⟩ := List.mem_flatMap.mp hmem
    rw [hall p hp] at hmem
    exact disconnected_downPass _ hmem
  · rw [← hlen, List.countP_eq_length]
    intro p hp
    simp [Overdue, hall p hp, Skipped, downView]

end System
