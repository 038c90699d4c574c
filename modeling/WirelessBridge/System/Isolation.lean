import WirelessBridge.System.ConnMan
import WirelessBridge.Mqtt.Connection

/-!
# Clients beside one another

An exception that a client's `connect()` throws leaves the pass, and the clients behind it are not
visited. We compare what happens to a client with what happens to it when it is the only one.
-/

namespace System

open Lib

structure Tick (κ : Type*) where
  itrTime : ℤ
  order : List Str
  view : κ → Option ClientView

variable {κ : Type*}

def Tick.handle (tk : Tick κ) (items : ConnTable κ) : Handling × ConnTable κ :=
  connectionHandler tk.view tk.itrTime tk.order items

def Tick.alone (name : Str) (tk : Tick κ) : Tick κ := { tk with order := [name] }

/-- The table that holds the entry of one client only. -/
def only (name : Str) (items : ConnTable κ) : ConnTable κ :=
  fun n => if n = name then items n else none

def afterTicks (items : ConnTable κ) (ticks : List (Tick κ)) : ConnTable κ :=
  ticks.foldl (fun items tk => (tk.handle items).2) items

/-- The `connect()` calls that a client receives. -/
def connects (name : Str) : ConnTable κ → List (Tick κ) → List Action
  | _, [] => []
  | items, tk :: ticks =>
    (tk.handle items).1.effects.filter (·.isConnect name) ++ connects name (tk.handle items).2 ticks

def ConServiceBlk.account (blk : ConServiceBlk κ) : UInt32 × ℤ :=
  (blk.spentAttempt, blk.timeToAttempt)

/-- The counter and the deadline of a client after each tick. -/
def accounts (name : Str) : ConnTable κ → List (Tick κ) → List (Option (UInt32 × ℤ))
  | _, [] => []
  | items, tk :: ticks =>
    ((tk.handle items).2 name).map ConServiceBlk.account :: accounts name (tk.handle items).2 ticks

/-- A visit would change the counter of the client. -/
def Due (view : κ → Option ClientView) (itrTime : ℤ) (blk : ConServiceBlk κ) : Prop :=
  ∃ v, view blk.client = some v ∧
    (v.state = .disconnected ∧ blk.timeToAttempt < itrTime ∨
      v.state = .connected ∧ blk.spentAttempt ≠ 0)

/-- The pass ends before it comes to the client, which is due. -/
def MissedWhenDue (name : Str) (items : ConnTable κ) (tk : Tick κ) : Prop :=
  ∃ blk, items name = some blk ∧ Skipped tk.view tk.itrTime tk.order items name ∧
    Due tk.view tk.itrTime blk

/-! ### What a visit changes -/

variable {name : Str} {items one : ConnTable κ} {blk : ConServiceBlk κ} {tk : Tick κ}
  {ticks : List (Tick κ)} {view : κ → Option ClientView} {itrTime : ℤ}

lemma uint32_add_one_ne (n : UInt32) : n + 1 ≠ n := by
  intro h
  simp at h

lemma client_processItem : (processItem view itrTime name blk).2.client = blk.client := by
  simp only [processItem]
  split
  · simp only [processClient]
    split <;> (try split_ifs) <;> rfl
  · rfl

lemma ext_account {blk' : ConServiceBlk κ} (hclient : blk.client = blk'.client)
    (haccount : blk.account = blk'.account) : blk = blk' := by
  obtain ⟨c, n, d⟩ := blk
  obtain ⟨c', n', d'⟩ := blk'
  obtain ⟨rfl, rfl⟩ := Prod.mk.inj haccount
  obtain rfl : c = c' := hclient
  rfl

/-- When its `connect()` does not throw, a visit changes the account of a client that is due, and
of no other. -/
lemma account_processItem (hown : ∀ v, view blk.client = some v → v.connectThrows = none) :
    (processItem view itrTime name blk).2.account = blk.account ↔ ¬ Due view itrTime blk := by
  cases hview : view blk.client with
  | none => simp [processItem, Due, hview]
  | some v =>
    have hthrows := hown v hview
    cases hstate : v.state with
    | disconnected =>
      by_cases hdue : blk.timeToAttempt < itrTime
      · have hne := uint32_add_one_ne blk.spentAttempt
        by_cases hattempt : blk.spentAttempt < v.info.connectionAttempt
        · simp [processItem, processClient, Due, ConServiceBlk.account, hview, hstate, hthrows,
            hdue, hattempt, hne]
        · simp [processItem, processClient, Due, ConServiceBlk.account, hview, hstate, hdue,
            hattempt, hne]
      · simp [processItem, processClient, Due, hview, hstate, hdue]
    | connecting => simp [processItem, processClient, Due, hview, hstate]
    | connected =>
      simp [processItem, processClient, Due, ConServiceBlk.account, hview, hstate, eq_comm]

/-- A client that is not due is not reconnected. -/
lemma connect_processItem (h : ¬ Due view itrTime blk) :
    (processItem view itrTime name blk).1.effects.filter (·.isConnect name) = [] := by
  cases hview : view blk.client with
  | none => simp [processItem, hview]
  | some v =>
    cases hstate : v.state with
    | disconnected =>
      have hwait : ¬ blk.timeToAttempt < itrTime := fun hdue => h ⟨v, hview, .inl ⟨hstate, hdue⟩⟩
      simp [processItem, processClient, hview, hstate, hwait, Action.isConnect]
    | connecting => simp [processItem, processClient, hview, hstate, Action.isConnect]
    | connected => simp [processItem, processClient, hview, hstate, Action.isConnect]

/-! ### One tick -/

/-- A `connect()` call is done for its client. -/
lemma filter_isConnect (l : List Action) :
    (l.filter (·.isFor name)).filter (·.isConnect name) = l.filter (·.isConnect name) := by
  rw [List.filter_filter]
  apply List.filter_congr
  intro a _
  cases a with
  | getState n st => simp [Action.isConnect]
  | connect n t => simp [Action.isConnect, Action.isFor]
  | report level descr => simp [Action.isConnect]

lemma handle_of_skipped (tk : Tick κ) (hnodup : tk.order.Nodup) (hmem : name ∈ tk.order)
    (hblk : items name = some blk) (hskip : Skipped tk.view tk.itrTime tk.order items name) :
    (tk.handle items).1.effects.filter (·.isConnect name) = [] ∧
      (tk.handle items).2 name = some blk := by
  obtain ⟨heffects, hsame⟩ := (connectionHandler_client hnodup hmem hblk).1 hskip
  refine ⟨?_, hsame⟩
  rw [← filter_isConnect, Tick.handle, heffects]
  rfl

lemma handle_of_not_skipped (tk : Tick κ) (hnodup : tk.order.Nodup) (hmem : name ∈ tk.order)
    (hblk : items name = some blk) (hskip : ¬ Skipped tk.view tk.itrTime tk.order items name) :
    (tk.handle items).1.effects.filter (·.isConnect name)
        = (processItem tk.view tk.itrTime name blk).1.effects.filter (·.isConnect name) ∧
      (tk.handle items).2 name = some (processItem tk.view tk.itrTime name blk).2 := by
  obtain ⟨heffects, hafter⟩ := (connectionHandler_client hnodup hmem hblk).2 hskip
  refine ⟨?_, hafter⟩
  rw [← filter_isConnect, Tick.handle, heffects]

/-- Nothing comes before a client that is alone. -/
lemma handle_alone (tk : Tick κ) (hone : one name = some blk) :
    ((tk.alone name).handle one).1.effects.filter (·.isConnect name)
        = (processItem tk.view tk.itrTime name blk).1.effects.filter (·.isConnect name) ∧
      ((tk.alone name).handle one).2 name = some (processItem tk.view tk.itrTime name blk).2 := by
  refine handle_of_not_skipped (tk.alone name) ?_ ?_ hone ?_
  · simp [Tick.alone]
  · simp [Tick.alone]
  · simp [Tick.alone, Skipped]

/-! ### All ticks -/

lemma forall_split_cons {α : Type*} {a : α} {l : List α} {P : List α → α → Prop} :
    (∀ pre b post, a :: l = pre ++ b :: post → P pre b) ↔
      P [] a ∧ ∀ pre b post, l = pre ++ b :: post → P (a :: pre) b := by
  constructor
  · intro h
    exact ⟨h [] a l rfl, fun pre b post hl => h (a :: pre) b post (by rw [hl, List.cons_append])⟩
  · rintro ⟨hfirst, hrest⟩ pre b post hl
    cases pre with
    | nil =>
      obtain ⟨rfl, rfl⟩ := List.cons.inj hl
      exact hfirst
    | cons c pre =>
      obtain ⟨rfl, rfl⟩ := List.cons.inj hl
      exact hrest pre b post rfl

/-- The two runs, `connects` and `accounts` of both, are told apart by nothing. -/
def Agree (name : Str) (items one : ConnTable κ) (ticks : List (Tick κ)) : Prop :=
  connects name items ticks = connects name one (ticks.map (Tick.alone name)) ∧
    accounts name items ticks = accounts name one (ticks.map (Tick.alone name))

lemma agree_cons {calls : List Action} {blk' : ConServiceBlk κ}
    (hcalls : (tk.handle items).1.effects.filter (·.isConnect name) = calls)
    (hcalls' : ((tk.alone name).handle one).1.effects.filter (·.isConnect name) = calls)
    (hafter : (tk.handle items).2 name = some blk')
    (hafter' : ((tk.alone name).handle one).2 name = some blk') :
    Agree name items one (tk :: ticks) ↔
      Agree name (tk.handle items).2 ((tk.alone name).handle one).2 ticks := by
  simp only [Agree, List.map_cons, connects, accounts, hcalls, hcalls', hafter, hafter',
    List.append_cancel_left_eq, List.cons.injEq, true_and]

lemma not_agree_cons {b b' : ConServiceBlk κ} (hafter : (tk.handle items).2 name = some b)
    (hafter' : ((tk.alone name).handle one).2 name = some b') (hne : b'.account ≠ b.account) :
    ¬ Agree name items one (tk :: ticks) := by
  rintro ⟨-, haccounts⟩
  simp only [List.map_cons, accounts, hafter, hafter'] at haccounts
  exact hne (Option.some.inj (List.cons.inj haccounts).1).symm

/-- The two runs start from the same block of the client, and no other entry of the second table
matters. -/
lemma agree_iff (hnodup : ∀ tk ∈ ticks, tk.order.Nodup) (hmem : ∀ tk ∈ ticks, name ∈ tk.order)
    (hown : ∀ tk ∈ ticks, ∀ v, tk.view blk.client = some v → v.connectThrows = none)
    (hblk : items name = some blk) (hone : one name = some blk) :
    Agree name items one ticks ↔
      ∀ pre tk post, ticks = pre ++ tk :: post →
        ¬ MissedWhenDue name (afterTicks items pre) tk := by
  induction ticks generalizing items one blk with
  | nil => simp [Agree, connects, accounts]
  | cons tk ticks ih =>
    obtain ⟨hn, hnodup⟩ := List.forall_mem_cons.mp hnodup
    obtain ⟨hm, hmem⟩ := List.forall_mem_cons.mp hmem
    obtain ⟨ho, hown⟩ := List.forall_mem_cons.mp hown
    obtain ⟨hcalls', hafter'⟩ := handle_alone tk hone
    have hmissed : MissedWhenDue name items tk ↔
        Skipped tk.view tk.itrTime tk.order items name ∧ Due tk.view tk.itrTime blk := by
      simp [MissedWhenDue, hblk]
    rw [forall_split_cons]
    show _ ↔ ¬ MissedWhenDue name items tk ∧ ∀ pre tk' post, ticks = pre ++ tk' :: post →
      ¬ MissedWhenDue name (afterTicks (tk.handle items).2 pre) tk'
    rw [hmissed]
    by_cases hskip : Skipped tk.view tk.itrTime tk.order items name
    · obtain ⟨hcalls, hafter⟩ := handle_of_skipped tk hn hm hblk hskip
      by_cases hdue : Due tk.view tk.itrTime blk
      · -- here the two accounts part
        have hne : (processItem tk.view tk.itrTime name blk).2.account ≠ blk.account :=
          fun h => (account_processItem ho).mp h hdue
        exact iff_of_false (not_agree_cons hafter hafter' hne) fun h => h.1 ⟨hskip, hdue⟩
      · have hsame : (processItem tk.view tk.itrTime name blk).2 = blk :=
          ext_account client_processItem ((account_processItem ho).mpr hdue)
        rw [hsame] at hafter'
        rw [connect_processItem hdue] at hcalls'
        rw [agree_cons hcalls hcalls' hafter hafter', ih hnodup hmem hown hafter hafter']
        exact (and_iff_right fun h => hdue h.2).symm
    · obtain ⟨hcalls, hafter⟩ := handle_of_not_skipped tk hn hm hblk hskip
      rw [agree_cons hcalls hcalls' hafter hafter']
      have hown' : ∀ tk' ∈ ticks, ∀ v,
          tk'.view (processItem tk.view tk.itrTime name blk).2.client = some v →
            v.connectThrows = none := by
        rw [client_processItem]
        exact hown
      rw [ih hnodup hmem hown' hafter hafter']
      exact (and_iff_right fun h => hskip h.1).symm

/-- A client whose own `connect()` does not throw gets the calls and has the account that it would
have alone, as long as no pass misses it while it is due, and only as long. -/
theorem isolated_iff (hblk : items name = some blk)
    (horder : ∀ tk ∈ ticks, items.IterationOrder tk.order)
    (hown : ∀ tk ∈ ticks, ∀ v, tk.view blk.client = some v → v.connectThrows = none) :
    (connects name items ticks = connects name (only name items) (ticks.map (Tick.alone name)) ∧
      accounts name items ticks = accounts name (only name items) (ticks.map (Tick.alone name))) ↔
    ∀ pre tk post, ticks = pre ++ tk :: post → ¬ MissedWhenDue name (afterTicks items pre) tk := by
  have hmem : ∀ tk ∈ ticks, name ∈ tk.order := by
    intro tk htk
    exact ((horder tk htk).mem_iff name).mpr (by simp [hblk])
  exact agree_iff (fun tk htk => (horder tk htk).nodup) hmem hown hblk (by simp [only, hblk])

/-- How a `CMqttConnection` in the given state shows itself to the manager, with the default
parameters. -/
def mqttView (state : EConnectionStatus) (cfg : Mqtt.MqttConfig) : ClientView :=
  ⟨state, {}, Mqtt.connectThrows cfg⟩

def portless : Mqtt.MqttConfig := ⟨str "localhost", str "mqtt"⟩

def ported : Mqtt.MqttConfig := ⟨str "localhost", str "1883"⟩

/-- Two clients, the first of which has a port that is not a number. -/
def pair : ConnTable Mqtt.MqttConfig :=
  (subscribe (str "a") portless (subscribe (str "b") ported KeyedMap.empty).2).2

/-- The first one is in the given state, the second one is down. -/
def pairView (state : EConnectionStatus) (cfg : Mqtt.MqttConfig) : Option ClientView :=
  some (mqttView (if cfg = portless then state else .disconnected) cfg)

lemma pair_order : pair.IterationOrder [str "a", str "b"] := by
  have hb : (KeyedMap.empty.emplace (str "b")
      (⟨ported, 0, 0⟩ : ConServiceBlk Mqtt.MqttConfig)).IterationOrder [str "b"] :=
    KeyedMap.iterationOrder_empty.emplace rfl
  refine KeyedMap.IterationOrder.emplace (k := str "a") (a := ⟨portless, 0, 0⟩) hb ?_
  rfl

/-- The second one never throws. -/
lemma pairView_ported (state : EConnectionStatus) {v : ClientView}
    (h : pairView state ported = some v) : v.connectThrows = none := by
  obtain rfl := Option.some.inj h
  show Mqtt.connectThrows ported = none
  decide

/-- The second one is tried while the first one is connecting, and still waits when the first one
throws. -/
theorem isolated_while_waiting :
    let ticks : List (Tick Mqtt.MqttConfig) := [⟨10, [str "a", str "b"], pairView .connecting⟩,
      ⟨20, [str "a", str "b"], pairView .disconnected⟩]
    connects (str "b") pair ticks
        = connects (str "b") (only (str "b") pair) (ticks.map (Tick.alone (str "b"))) ∧
      accounts (str "b") pair ticks
        = accounts (str "b") (only (str "b") pair) (ticks.map (Tick.alone (str "b"))) := by
  intro ticks
  have hown : ∀ tk ∈ ticks, ∀ v, tk.view ported = some v → v.connectThrows = none := by
    intro tk htk v hv
    simp only [ticks, List.mem_cons, List.not_mem_nil, or_false] at htk
    rcases htk with rfl | rfl <;> exact pairView_ported _ hv
  have horder : ∀ tk ∈ ticks, pair.IterationOrder tk.order := by
    simpa [ticks] using pair_order
  refine (@isolated_iff _ (str "b") pair ⟨ported, 0, 0⟩ ticks rfl horder hown).mpr ?_
  rw [forall_split_cons, forall_split_cons]
  refine ⟨?_, ?_, by simp⟩
  · rintro ⟨blk, -, ⟨n, hn, b, hb, v, hv, hdown, -⟩, -⟩
    have hfront : [str "a", str "b"].takeWhile (· ≠ str "b") = [str "a"] := by decide
    obtain rfl : n = str "a" := List.mem_singleton.mp (hfront ▸ hn)
    obtain rfl : (⟨portless, 0, 0⟩ : ConServiceBlk Mqtt.MqttConfig) = b := Option.some.inj hb
    obtain rfl := Option.some.inj hv
    simp [mqttView] at hdown
  · rintro ⟨blk, hblk, -, v, hv, hdue⟩
    obtain rfl : (⟨ported, 1, 6010⟩ : ConServiceBlk Mqtt.MqttConfig) = blk := Option.some.inj hblk
    obtain rfl := Option.some.inj hv
    revert hdue
    decide

/-- Once it is due, it gets no call, since the first one throws. -/
theorem not_isolated_behind_throwing :
    ¬ ∀ (κ : Type) (items : ConnTable κ) (ticks : List (Tick κ)) (name : Str)
        (blk : ConServiceBlk κ), items name = some blk →
        (∀ tk ∈ ticks, items.IterationOrder tk.order) →
        (∀ tk ∈ ticks, ∀ v, tk.view blk.client = some v → v.connectThrows = none) →
        connects name items ticks
            = connects name (only name items) (ticks.map (Tick.alone name)) ∧
          accounts name items ticks
            = accounts name (only name items) (ticks.map (Tick.alone name)) := by
  intro hclaim
  have hagree := (hclaim _ pair [⟨10, [str "a", str "b"], pairView .disconnected⟩] (str "b")
    ⟨ported, 0, 0⟩ rfl (by simpa using pair_order) (by simpa using fun v => pairView_ported _)).1
  exact absurd hagree (by decide)

end System
