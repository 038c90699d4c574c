import WirelessBridge.System.Interfaces
import WirelessBridge.Lib.AttemptBudget
import WirelessBridge.Lib.KeyedMap
import WirelessBridge.Lib.Performed

/-!
# The connection manager

`CConnMan` keeps a table of reconnectable clients, and every tenth of a second goes over it to
reconnect those that are down. What a client does of its own accord, its status above all, comes
from outside.
-/

namespace System

open Lib

/-- A weak pointer to a client is given by the client's identity. -/
structure ConServiceBlk (κ : Type*) where
  client : κ
  spentAttempt : UInt32
  timeToAttempt : ℤ
  deriving DecidableEq

abbrev ConnTable (κ : Type*) := KeyedMap Str (ConServiceBlk κ)

/-- What a client shows during one pass of the handler: its status, its parameters, and what
`connect()` throws, if it throws. -/
structure ClientView where
  state : EConnectionStatus
  info : ConnectionInfo
  connectThrows : Option StdException
  deriving DecidableEq

/-- What the manager does to others, under the name of the client it is done for. -/
inductive Action where
  | getState (name : Str) (status : EConnectionStatus)
  | connect (name : Str) (itrTime : ℤ)
  | report (level : ErrorLevel) (descr : Str)
  deriving DecidableEq

abbrev Handling := Performed Action StdException

def exhausted (name : Str) : Action :=
  .report .systemLevel (str "connection '" ++ name ++ str "' , all attempt exhausted !!!")

variable {κ : Type*}

/-- The part of the loop body for a client that is alive. When `connect()` throws, the counter and
the deadline have not been written yet. -/
def processClient (itrTime : ℤ) (name : Str) (v : ClientView) (blk : ConServiceBlk κ) :
    Handling × ConServiceBlk κ :=
  match v.state with
  | .disconnected =>
    if blk.timeToAttempt < itrTime then
      if blk.spentAttempt < v.info.connectionAttempt then
        (⟨[.getState name v.state, .connect name itrTime], v.connectThrows⟩,
          if v.connectThrows = none then
            { blk with
              spentAttempt := blk.spentAttempt + 1
              timeToAttempt := itrTime + v.info.connectionTimeout + v.info.connectionCycleTimeout }
          else blk)
      else
        (⟨.getState name v.state ::
            if blk.spentAttempt = v.info.connectionAttempt then [exhausted name] else [], none⟩,
          { blk with spentAttempt := blk.spentAttempt + 1 })
    else (.does (.getState name v.state), blk)
  | .connected => (.does (.getState name v.state), { blk with spentAttempt := 0 })
  | .connecting => (.does (.getState name v.state), blk)

/-- The loop body. `view` is `none` for a client that no longer exists. -/
def processItem (view : κ → Option ClientView) (itrTime : ℤ) (name : Str)
    (blk : ConServiceBlk κ) : Handling × ConServiceBlk κ :=
  match view blk.client with
  | some v => processClient itrTime name v blk
  | none => (.nothing, blk)

/-- The loop over the table, in the order of its iteration. An exception leaves the loop. -/
def connectionHandler (view : κ → Option ClientView) (itrTime : ℤ) :
    List Str → ConnTable κ → Handling × ConnTable κ
  | [], items => (.nothing, items)
  | name :: rest, items =>
    match items name with
    | none => connectionHandler view itrTime rest items
    | some blk =>
      let p := processItem view itrTime name blk
      let items' := items.modify name fun _ => p.2
      if p.1.fault = none then
        let q := connectionHandler view itrTime rest items'
        (p.1.andThen q.1, q.2)
      else (p.1, items')

def subscribe (name : Str) (client : κ) (items : ConnTable κ) : List Action × ConnTable κ :=
  if (items name).isSome then
    ([.report .systemLevel (str "CConnMan error - double insertion !")], items)
  else ([], items.emplace name ⟨client, 0, 0⟩)

def unsubscribe (name : Str) (items : ConnTable κ) : ConnTable κ := items.erase name

lemma subscribe_of_eq_some {items : ConnTable κ} {name : Str} {blk : ConServiceBlk κ}
    (h : items name = some blk) (n : Str) (client : κ) :
    (subscribe n client items).2 name = some blk := by
  simp only [subscribe]
  split_ifs
  · exact h
  · exact KeyedMap.emplace_of_eq_some h

/-! ### One client among the others -/

/-- The part of a list of actions that is done for `name`. -/
def Action.isFor (name : Str) : Action → Bool
  | .getState n _ => n = name
  | .connect n _ => n = name
  | a => a = exhausted name

def Action.isConnect (name : Str) : Action → Bool
  | .connect n _ => n = name
  | _ => false

variable {view : κ → Option ClientView} {itrTime : ℤ} {name name' : Str} {blk : ConServiceBlk κ}
  {items : ConnTable κ} {order : List Str}

lemma doubleInsertion_ne_exhausted (name : Str) :
    Action.report .systemLevel (str "CConnMan error - double insertion !") ≠ exhausted name := by
  intro h
  have htext := (Action.report.inj h).2
  have hfirst : some (67 : UInt8) = some 99 := congrArg List.head? htext
  exact absurd hfirst (by decide)

lemma mem_processItem {a : Action} (h : a ∈ (processItem view itrTime name blk).1.effects) :
    (∃ st, a = .getState name st) ∨ a = .connect name itrTime ∨ a = exhausted name := by
  simp only [processItem] at h
  split at h
  · simp only [processClient] at h
    split at h
    · split_ifs at h <;> simp at h <;> grind
    · exact .inl ⟨_, by simpa using h⟩
    · exact .inl ⟨_, by simpa using h⟩
  · simp at h

/-- What is done in the visit of a client is done for that client. -/
lemma filter_isFor_processItem :
    (processItem view itrTime name blk).1.effects.filter (·.isFor name')
      = if name = name' then (processItem view itrTime name blk).1.effects else [] := by
  have hfor : ∀ a ∈ (processItem view itrTime name blk).1.effects,
      a.isFor name' = decide (name = name') := by
    intro a ha
    rcases mem_processItem ha with ⟨st, rfl⟩ | rfl | rfl
    · rfl
    · rfl
    · simp only [exhausted, Action.isFor]
      simp
  split_ifs with h
  · rw [List.filter_eq_self]
    intro a ha
    rw [hfor a ha, decide_eq_true h]
  · rw [List.filter_eq_nil_iff]
    intro a ha
    simp [hfor a ha, h]

/-- A client that is not in the order is left alone. -/
lemma connectionHandler_of_notMem (h : name ∉ order) :
    (connectionHandler view itrTime order items).1.effects.filter (·.isFor name) = [] ∧
      (connectionHandler view itrTime order items).2 name = items name := by
  induction order generalizing items with
  | nil => exact ⟨rfl, rfl⟩
  | cons n rest ih =>
    simp only [List.mem_cons, not_or] at h
    obtain ⟨hne, hrest⟩ := h
    rw [connectionHandler]
    split
    · exact ih hrest
    · rename_i blk _
      have hsame : (items.modify n fun _ => (processItem view itrTime n blk).2) name = items name :=
        KeyedMap.modify_of_ne hne
      simp only
      split_ifs with hfault
      · obtain ⟨hnil, heq⟩ :=
          @ih (items.modify n fun _ => (processItem view itrTime n blk).2) hrest
        refine ⟨?_, heq.trans hsame⟩
        rw [Performed.andThen_of_fault_eq_none hfault, List.filter_append, hnil,
          filter_isFor_processItem, if_neg (Ne.symm hne), List.append_nil]
      · exact ⟨by rw [filter_isFor_processItem, if_neg (Ne.symm hne)], hsame⟩

/-- A pass neither adds clients nor drops any. -/
lemma isSome_connectionHandler :
    ((connectionHandler view itrTime order items).2 name).isSome = (items name).isSome := by
  induction order generalizing items with
  | nil => rfl
  | cons n rest ih =>
    rw [connectionHandler]
    split
    · exact ih
    · simp only
      split_ifs
      · exact ih.trans KeyedMap.isSome_modify
      · exact KeyedMap.isSome_modify

lemma iterationOrder_connectionHandler {order' : List Str} (view : κ → Option ClientView)
    (itrTime : ℤ) (order : List Str) (h : items.IterationOrder order') :
    (connectionHandler view itrTime order items).2.IterationOrder order' :=
  (KeyedMap.iterationOrder_congr fun _ => isSome_connectionHandler).mpr h

/-- The manager tries to connect the client, and `connect()` throws. -/
def Throws (view : κ → Option ClientView) (itrTime : ℤ) (blk : ConServiceBlk κ) : Prop :=
  ∃ v, view blk.client = some v ∧ v.state = .disconnected ∧ blk.timeToAttempt < itrTime ∧
    blk.spentAttempt < v.info.connectionAttempt ∧ v.connectThrows ≠ none

/-- This is the only way in which a visit fails. -/
lemma fault_processItem :
    (processItem view itrTime name blk).1.fault = none ↔ ¬ Throws view itrTime blk := by
  cases hview : view blk.client with
  | none => simp [processItem, Throws, hview]
  | some v =>
    cases hstate : v.state with
    | disconnected =>
      by_cases hdue : blk.timeToAttempt < itrTime
      · by_cases hattempt : blk.spentAttempt < v.info.connectionAttempt
        · simp [processItem, processClient, Throws, hview, hstate, hdue, hattempt]
        · simp [processItem, processClient, Throws, hview, hstate, hdue, hattempt]
      · simp [processItem, processClient, Throws, hview, hstate, hdue]
    | connecting => simp [processItem, processClient, Throws, hview, hstate]
    | connected => simp [processItem, processClient, Throws, hview, hstate]

/-- The visit of some client that comes before `name` ends in an exception. -/
def Skipped (view : κ → Option ClientView) (itrTime : ℤ) (order : List Str) (items : ConnTable κ)
    (name : Str) : Prop :=
  ∃ n ∈ order.takeWhile (· ≠ name), ∃ blk, items n = some blk ∧ Throws view itrTime blk

lemma skipped_cons {n : Str} (hne : n ≠ name) :
    Skipped view itrTime (n :: order) items name ↔
      (∃ blk, items n = some blk ∧ Throws view itrTime blk) ∨
        Skipped view itrTime order items name := by
  simp [Skipped, hne]

/-- Whether a client is skipped depends on the blocks that come before it. -/
lemma skipped_congr {items' : ConnTable κ} (h : ∀ n ∈ order, items' n = items n) :
    Skipped view itrTime order items' name ↔ Skipped view itrTime order items name := by
  have hmem : ∀ n ∈ order.takeWhile (· ≠ name), n ∈ order :=
    fun n hn => (List.takeWhile_prefix _).subset hn
  constructor
  · rintro ⟨n, hn, blk, hblk, hfault⟩
    exact ⟨n, hn, blk, by rw [← h n (hmem n hn), hblk], hfault⟩
  · rintro ⟨n, hn, blk, hblk, hfault⟩
    exact ⟨n, hn, blk, by rw [h n (hmem n hn), hblk], hfault⟩

/-- What a pass does for one client: it visits it, once, unless it is left before. -/
theorem connectionHandler_client (hnodup : order.Nodup) (hmem : name ∈ order)
    (hblk : items name = some blk) :
    let r := connectionHandler view itrTime order items
    (Skipped view itrTime order items name →
      r.1.effects.filter (·.isFor name) = [] ∧ r.2 name = some blk) ∧
    (¬ Skipped view itrTime order items name →
      r.1.effects.filter (·.isFor name) = (processItem view itrTime name blk).1.effects ∧
        r.2 name = some (processItem view itrTime name blk).2) := by
  induction order generalizing items with
  | nil => simp at hmem
  | cons n rest ih =>
    obtain ⟨hnotin, hrest⟩ := List.nodup_cons.mp hnodup
    by_cases hn : n = name
    · subst hn
      have hfirst : ¬ Skipped view itrTime (n :: rest) items n := by simp [Skipped]
      refine ⟨fun h => absurd h hfirst, fun _ => ?_⟩
      have hself : items.modify n (fun _ => (processItem view itrTime n blk).2) n
          = some (processItem view itrTime n blk).2 := by
        rw [KeyedMap.modify_self, hblk]
        rfl
      simp only [connectionHandler, hblk]
      split_ifs with hfault
      · obtain ⟨hnil, heq⟩ := @connectionHandler_of_notMem κ view itrTime n
          (items.modify n fun _ => (processItem view itrTime n blk).2) rest hnotin
        refine ⟨?_, heq.trans hself⟩
        rw [Performed.andThen_of_fault_eq_none hfault, List.filter_append, hnil,
          filter_isFor_processItem, if_pos rfl, List.append_nil]
      · exact ⟨by rw [filter_isFor_processItem, if_pos rfl], hself⟩
    · have hmem' : name ∈ rest := by simpa [Ne.symm hn] using hmem
      rw [skipped_cons hn]
      cases hitem : items n with
      | none =>
        simp only [connectionHandler, hitem]
        simpa using ih hrest hmem' hblk
      | some b =>
        have hother : ∀ n' ∈ rest, items.modify n
            (fun _ => (processItem view itrTime n b).2) n' = items n' := by
          intro n' hn'
          exact KeyedMap.modify_of_ne fun h => hnotin (h ▸ hn')
        have hsame := (hother name hmem').trans hblk
        simp only [connectionHandler, hitem]
        split_ifs with hfault
        · obtain ⟨hskip, hvisit⟩ := ih hrest hmem' hsame
          have hone : ¬ ∃ blk, some b = some blk ∧ Throws view itrTime blk := by
            rintro ⟨b', hb', h⟩
            obtain rfl := Option.some.inj hb'
            exact fault_processItem.mp hfault h
          rw [or_iff_right hone, ← skipped_congr hother]
          have heffects : (((processItem view itrTime n b).1.andThen (connectionHandler view itrTime
              rest (items.modify n fun _ => (processItem view itrTime n b).2)).1).effects.filter
                (·.isFor name)) = (connectionHandler view itrTime rest
                  (items.modify n fun _ => (processItem view itrTime n b).2)).1.effects.filter
                    (·.isFor name) := by
            rw [Performed.andThen_of_fault_eq_none hfault, List.filter_append,
              filter_isFor_processItem, if_neg hn, List.nil_append]
          simp only [heffects]
          exact ⟨hskip, hvisit⟩
        · have hone : ∃ blk, some b = some blk ∧ Throws view itrTime blk :=
            ⟨b, rfl, not_not.mp fun h => hfault (fault_processItem.mpr h)⟩
          refine ⟨fun _ => ⟨?_, hsame⟩, fun h => absurd (.inl hone) h⟩
          rw [filter_isFor_processItem, if_neg hn]

end System
