import WirelessBridge.Mqtt.Connection
import WirelessBridge.Lib.Run
import Mathlib.Logic.Function.Basic

/-!
# Subscriptions and reconnects

Any number of threads call `subscribeTopic` while mosquitto's own thread runs the callbacks. A call
reads the status, subscribes if it read CONNECTED, and appends the topic; `on_connect` stores
CONNECTED and then walks through the topics that the list holds when the loop begins. The broker
forgets its subscriptions at a disconnect.
-/

namespace Mqtt

open Lib System

/-- The next step of a call of `subscribeTopic`. -/
inductive CallerPoint where
  | idle
  | readStatus (topic : Str)
  | subscribe (topic : Str)
  | append (topic : Str)
  deriving DecidableEq

/-- Where mosquitto's thread is in `on_connect`: the status stored, or some topics left. -/
inductive MosquittoPoint where
  | idle
  | stored
  | walking (rest : List Str)
  deriving DecidableEq

structure Session (ι : Type*) where
  callers : ι → CallerPoint
  mosquitto : MosquittoPoint
  conn : CMqttConnection
  /-- The topics subscribed at the broker since the latest `on_connect`. -/
  subscribed : List Str
  /-- The topics of the calls that have returned. -/
  completed : List Str

namespace Session

variable {ι : Type*}

inductive Event (ι : Type*) where
  | call (i : ι) (topic : Str)
  | readStatus (i : ι)
  | subscribe (i : ι)
  | append (i : ι)
  | connect
  | walkBegin
  | walkNext
  | walkEnd
  | disconnect

def init : Session ι := ⟨fun _ => .idle, .idle, .init, [], []⟩

/-- Caller `i` goes on to the point `p`. -/
def goTo [DecidableEq ι] (s : Session ι) (i : ι) (p : CallerPoint) : Session ι :=
  { s with callers := Function.update s.callers i p }

inductive Step [DecidableEq ι] : Session ι → Event ι → Session ι → Prop where
  | call {s : Session ι} {i : ι} (topic : Str) (h : s.callers i = .idle) :
      Step s (.call i topic) (s.goTo i (.readStatus topic))
  | readStatus {s : Session ι} {i : ι} {topic : Str} (h : s.callers i = .readStatus topic) :
      Step s (.readStatus i)
        (s.goTo i (if .connected = s.conn.connStatus then .subscribe topic else .append topic))
  -- what is sent while the connection is down gets nowhere
  | subscribe {s : Session ι} {i : ι} {topic : Str} (h : s.callers i = .subscribe topic) :
      Step s (.subscribe i)
        { s.goTo i (.append topic) with
          subscribed := s.subscribed ++ if .connected = s.conn.connStatus then [cStr topic] else [] }
  | append {s : Session ι} {i : ι} {topic : Str} (h : s.callers i = .append topic) :
      Step s (.append i)
        { s.goTo i .idle with
          conn := { s.conn with topicsList := s.conn.topicsList ++ [topic] }
          completed := s.completed ++ [topic] }
  | connect {s : Session ι} (h : s.mosquitto = .idle) :
      Step s .connect
        { s with
          mosquitto := .stored
          conn := { s.conn with connStatus := .connected }
          subscribed := [] }
  | walkBegin {s : Session ι} (h : s.mosquitto = .stored) :
      Step s .walkBegin { s with mosquitto := .walking s.conn.topicsList }
  | walkNext {s : Session ι} {topic : Str} {rest : List Str}
      (h : s.mosquitto = .walking (topic :: rest)) :
      Step s .walkNext
        { s with mosquitto := .walking rest, subscribed := s.subscribed ++ [cStr topic] }
  | walkEnd {s : Session ι} (h : s.mosquitto = .walking []) :
      Step s .walkEnd { s with mosquitto := .idle }
  | disconnect {s : Session ι} (h : s.mosquitto = .idle) :
      Step s .disconnect
        { s with conn := { s.conn with connStatus := .disconnected }, subscribed := [] }

/-- Connected, and neither a call nor a callback is under way. -/
structure Settled (s : Session ι) : Prop where
  connected : s.conn.connStatus = .connected
  callers : ∀ i, s.callers i = .idle
  mosquitto : s.mosquitto = .idle

/-- A call that has yet to read the status, or to subscribe. -/
def Pending (s : Session ι) (topic : Str) : Prop :=
  ∃ i t, (s.callers i = .readStatus t ∨ s.callers i = .subscribe t) ∧ cStr t = cStr topic

/-- No topic is about to be appended behind the back of a walk that begins now, unless it is
subscribed already, in the list already, or about to be subscribed by a call. -/
def WalkCovers (s : Session ι) : Prop :=
  ∀ i topic, s.callers i = .append topic →
    cStr topic ∈ s.subscribed ∨ cStr topic ∈ s.conn.topicsList.map cStr ∨ s.Pending topic

/-- The topic is subscribed, or will be by the walk or by a call. -/
def Covered (s : Session ι) (topic : Str) : Prop :=
  cStr topic ∈ s.subscribed ∨ (∃ rest, s.mosquitto = .walking rest ∧ cStr topic ∈ rest.map cStr) ∨
    s.Pending topic

structure Inv (s : Session ι) : Prop where
  stored : ∀ topic ∈ s.completed, topic ∈ s.conn.topicsList
  covered : s.conn.connStatus = .connected → s.mosquitto ≠ .stored →
    ∀ topic, (topic ∈ s.conn.topicsList ∨ ∃ i, s.callers i = .append topic) → s.Covered topic

variable {s s' : Session ι} {i : ι} {p : CallerPoint} {topic : Str} {e : Event ι}

/-- A topic stays covered while nothing is lost of what covers it. -/
lemma Covered.mono (h : s.Covered topic) (hsub : ∀ t ∈ s.subscribed, t ∈ s'.subscribed)
    (hwalk : s'.mosquitto = s.mosquitto)
    (hpending : s.Pending topic → s'.Pending topic ∨ cStr topic ∈ s'.subscribed) :
    s'.Covered topic := by
  rcases h with h | ⟨rest, hrest, h⟩ | h
  · exact .inl (hsub _ h)
  · exact .inr (.inl ⟨rest, hwalk.trans hrest, h⟩)
  · rcases hpending h with h | h
    · exact .inr (.inr h)
    · exact .inl h

lemma inv_init : (init : Session ι).Inv where
  stored := by simp [init]
  covered := by simp [init, CMqttConnection.init]

variable [DecidableEq ι]

lemma pending_goTo (h : s.Pending topic) (i : ι) (p : CallerPoint) :
    (s.goTo i p).Pending topic ∨
      ∃ t, (s.callers i = .readStatus t ∨ s.callers i = .subscribe t) ∧ cStr t = cStr topic := by
  obtain ⟨j, t, hj, ht⟩ := h
  by_cases hji : j = i
  · subst hji
    exact .inr ⟨t, hj, ht⟩
  · left
    exact ⟨j, t, by simpa [goTo, hji] using hj, ht⟩

lemma append_goTo {j : ι} (h : (s.goTo i p).callers j = .append topic) :
    p = .append topic ∨ s.callers j = .append topic := by
  by_cases hji : j = i
  · subst hji
    exact .inl (by simpa [goTo] using h)
  · exact .inr (by simpa [goTo, hji] using h)

/-! ### Undisturbed calls and callbacks -/

lemma callers_goTo (s : Session ι) (i : ι) (p : CallerPoint) : (s.goTo i p).callers i = p := by
  simp [goTo]

/-- The steps of a call that nothing comes between do what `subscribeTopic` does. -/
theorem run_subscribeTopic (h : s.callers i = .idle) (topic : Str) :
    ∃ tr, Run Step s tr
      { s with
        conn := (subscribeTopic s.conn topic).1
        subscribed := s.subscribed ++
          (subscribeTopic s.conn topic).2.filterMap Call.subscribed?
        completed := s.completed ++ [topic] } := by
  have hback : Function.update s.callers i .idle = s.callers := by
    rw [← h, Function.update_eq_self]
  by_cases hconn : .connected = s.conn.connStatus
  · have hread : Step (s.goTo i (.readStatus topic)) (.readStatus i)
        (s.goTo i (.subscribe topic)) := by
      simpa [goTo, hconn] using Step.readStatus (callers_goTo s i (.readStatus topic))
    obtain ⟨tr, hrun⟩ : ∃ tr, Run Step s tr _ :=
      ⟨_, .cons (.call topic h) (.cons hread (.cons (.subscribe (callers_goTo s i _))
        (.single (.append (callers_goTo (s.goTo i (.subscribe topic)) i (.append topic))))))⟩
    exact ⟨tr, by simpa [goTo, hback, subscribeTopic, hconn, Call.subscribed?] using hrun⟩
  · have hread : Step (s.goTo i (.readStatus topic)) (.readStatus i)
        (s.goTo i (.append topic)) := by
      simpa [goTo, hconn] using Step.readStatus (callers_goTo s i (.readStatus topic))
    obtain ⟨tr, hrun⟩ : ∃ tr, Run Step s tr _ :=
      ⟨_, .cons (.call topic h) (.cons hread (.single (.append (callers_goTo s i _))))⟩
    exact ⟨tr, by simpa [goTo, hback, subscribeTopic, hconn] using hrun⟩

lemma run_walk (rest : List Str) (h : s.mosquitto = .walking rest) :
    ∃ tr, Run Step s tr
      { s with mosquitto := .idle, subscribed := s.subscribed ++ rest.map cStr } := by
  induction rest generalizing s with
  | nil =>
    have hstep := Step.walkEnd h
    rw [List.map_nil, List.append_nil]
    exact ⟨_, .single hstep⟩
  | cons topic rest ih =>
    obtain ⟨tr, hrun⟩ := @ih
      { s with mosquitto := .walking rest, subscribed := s.subscribed ++ [cStr topic] } rfl
    rw [List.append_assoc] at hrun
    exact ⟨_, .cons (.walkNext h) hrun⟩

/-- And so do those of `on_connect`, in a session that begins with no subscription. -/
theorem run_onConnect (h : s.mosquitto = .idle) :
    ∃ tr, Run Step s tr
      { s with
        conn := (onConnect s.conn 0).1
        subscribed := (onConnect s.conn 0).2.filterMap Call.subscribed? } := by
  have hcalls : (onConnect s.conn 0).2.filterMap Call.subscribed?
      = s.conn.topicsList.map cStr := by
    simp [onConnect, Call.subscribed?, List.filterMap_map, Function.comp_def]
  obtain ⟨tr, hrun⟩ := @run_walk ι
    { s with
      mosquitto := .walking s.conn.topicsList
      conn := (onConnect s.conn 0).1
      subscribed := [] } _ s.conn.topicsList rfl
  rw [hcalls]
  rw [List.nil_append, ← h] at hrun
  exact ⟨_, .cons (.connect h) (.cons (.walkBegin rfl) hrun)⟩

/-! ### The invariant -/

/-- The topics that have to be covered: those in the list and those about to be appended. -/
lemma known_goTo (h : topic ∈ s.conn.topicsList ∨ ∃ j, (s.goTo i p).callers j = .append topic) :
    p = .append topic ∨ topic ∈ s.conn.topicsList ∨ ∃ j, s.callers j = .append topic := by
  rcases h with h | ⟨j, hj⟩
  · exact .inr (.inl h)
  · rcases append_goTo hj with h | h
    · exact .inl h
    · exact .inr (.inr ⟨j, h⟩)

/-- One step keeps the invariant, as long as a walk does not begin behind the back of a call. -/
lemma Step.inv (h : Step s e s') (hwalk : e = .walkBegin → s.WalkCovers) (hs : s.Inv) : s'.Inv := by
  cases h with
  | @call i t hi =>
    refine ⟨hs.stored, ?_⟩
    intro hconn hm topic htopic
    rcases known_goTo (s := s) htopic with h | hknown
    · simp at h
    · refine (hs.covered hconn hm topic hknown).mono (fun _ h => h) rfl fun hp => ?_
      rcases pending_goTo hp i (.readStatus t) with h | ⟨t', h, -⟩
      · exact .inl h
      · simp [hi] at h
  | @readStatus i t hi =>
    refine ⟨hs.stored, ?_⟩
    intro hconn hm topic htopic
    have hconn' : .connected = s.conn.connStatus := hconn.symm
    rw [if_pos hconn'] at htopic ⊢
    rcases known_goTo (s := s) htopic with h | hknown
    · simp at h
    · refine (hs.covered hconn hm topic hknown).mono (fun _ h => h) rfl fun hp => ?_
      rcases pending_goTo hp i (.subscribe t) with h | ⟨t', h, ht'⟩
      · exact .inl h
      · have hsame : t = t' := by simpa [hi] using h
        exact .inl ⟨i, t, .inr (by simp [goTo]), hsame ▸ ht'⟩
  | @subscribe i t hi =>
    refine ⟨hs.stored, ?_⟩
    intro hconn hm topic htopic
    have hconn' : .connected = s.conn.connStatus := hconn.symm
    rw [if_pos hconn']
    rcases known_goTo (s := s) htopic with h | hknown
    · obtain rfl : t = topic := by simpa using h
      exact .inl (by simp)
    · refine (hs.covered hconn hm topic hknown).mono (fun _ h => List.mem_append_left _ h) rfl
        fun hp => ?_
      rcases pending_goTo hp i (.append t) with h | ⟨t', h, ht'⟩
      · exact .inl h
      · have hsame : t = t' := by simpa [hi] using h
        right
        simp [hsame, ht']
  | @append i t hi =>
    refine ⟨?_, ?_⟩
    · intro topic htopic
      rcases List.mem_append.mp htopic with h | h
      · exact List.mem_append_left _ (hs.stored topic h)
      · exact List.mem_append_right _ h
    · intro hconn hm topic htopic
      have hknown : topic ∈ s.conn.topicsList ∨ ∃ j, s.callers j = .append topic := by
        rcases htopic with h | ⟨j, hj⟩
        · rcases List.mem_append.mp h with h | h
          · exact .inl h
          · obtain rfl : topic = t := by simpa using h
            exact .inr ⟨i, hi⟩
        · rcases append_goTo hj with h | h
          · simp at h
          · exact .inr ⟨j, h⟩
      refine (hs.covered hconn hm topic hknown).mono (fun _ h => h) rfl fun hp => ?_
      rcases pending_goTo hp i .idle with h | ⟨t', h, -⟩
      · exact .inl h
      · simp [hi] at h
  | connect h =>
    refine ⟨hs.stored, ?_⟩
    intro _ hm
    simp at hm
  | walkBegin h =>
    refine ⟨hs.stored, ?_⟩
    intro _ _ topic htopic
    rcases htopic with htopic | ⟨i, hi⟩
    · exact .inr (.inl ⟨_, rfl, List.mem_map_of_mem htopic⟩)
    · rcases hwalk rfl i topic hi with h | h | h
      · exact .inl h
      · exact .inr (.inl ⟨_, rfl, h⟩)
      · exact .inr (.inr h)
  | @walkNext t rest h =>
    refine ⟨hs.stored, ?_⟩
    intro hconn _ topic htopic
    rcases hs.covered hconn (by simp [h]) topic htopic with hc | ⟨rest', hrest', hc⟩ | hc
    · exact .inl (List.mem_append_left _ hc)
    · obtain rfl : t :: rest = rest' := by simpa [h] using hrest'
      rcases List.mem_cons.mp hc with hc | hc
      · exact .inl (by simp [hc])
      · exact .inr (.inl ⟨rest, rfl, hc⟩)
    · exact .inr (.inr hc)
  | walkEnd h =>
    refine ⟨hs.stored, ?_⟩
    intro hconn _ topic htopic
    rcases hs.covered hconn (by simp [h]) topic htopic with hc | ⟨rest, hrest, hc⟩ | hc
    · exact .inl hc
    · obtain rfl : [] = rest := by simpa [h] using hrest
      simp at hc
    · exact .inr (.inr hc)
  | disconnect h =>
    refine ⟨hs.stored, ?_⟩
    intro hconn
    simp at hconn

/-- A run in which every walk covers the calls under way loses no subscription: once all is quiet,
every topic of a completed call is subscribed in the session that is up. -/
theorem subscribed_of_walkCovers {tr : List (Session ι × Event ι)}
    (hrun : Run Step init tr s) (hwalk : ∀ p ∈ tr, p.2 = .walkBegin → p.1.WalkCovers)
    (hsettled : s.Settled) : ∀ topic ∈ s.completed, cStr topic ∈ s.subscribed := by
  have hinv : s.Inv := by
    apply hrun.preserves
    · intro a e b hmem ha hstep
      exact hstep.inv (hwalk (a, e) hmem) ha
    · exact inv_init
  intro topic htopic
  have hm : s.mosquitto ≠ .stored := by simp [hsettled.mosquitto]
  rcases hinv.covered hsettled.connected hm topic (.inl (hinv.stored topic htopic)) with
    h | ⟨rest, hrest, -⟩ | ⟨i, t, hi, -⟩
  · exact h
  · simp [hsettled.mosquitto] at hrest
  · simp [hsettled.callers i] at hi

/-- A call that is over before the connect. -/
theorem subscribed_after_connect :
    ∃ (tr : List (Session Unit × Event Unit)) (s : Session Unit), Run Step init tr s ∧
      s.completed = [str "in"] ∧ cStr (str "in") ∈ s.subscribed := by
  have h₁ := Run.single (Step.call (s := init) (i := ()) (str "in") rfl)
  have h₂ := h₁.append (.single (.readStatus (i := ()) rfl))
  have h₃ := h₂.append (.single (.append (i := ()) rfl))
  have h₄ := h₃.append (.single (.connect rfl))
  have h₅ := h₄.append (.single (.walkBegin rfl))
  have h₆ := h₅.append (.single (.walkNext rfl))
  have h₇ := h₆.append (.single (.walkEnd rfl))
  refine ⟨_, _, h₇, rfl, ?_⟩
  refine subscribed_of_walkCovers h₇ ?_ ⟨rfl, fun _ => rfl, rfl⟩ (str "in") (by decide)
  intro p hp hwalk i topic hi
  simp only [List.mem_append, List.mem_singleton] at hp
  rcases hp with ((((((rfl | rfl) | rfl) | rfl) | rfl) | rfl) | rfl) <;> simp at hwalk
  -- where the walk begins no call is under way
  cases hi

/-- The same call, with its topic appended behind the walk. -/
theorem subscription_lost :
    ¬ ∀ (ι : Type) (_ : DecidableEq ι) (tr : List (Session ι × Event ι)) (s : Session ι),
        Run Step init tr s → s.Settled → ∀ topic ∈ s.completed, cStr topic ∈ s.subscribed := by
  intro hclaim
  have h₁ := Run.single (Step.call (s := init) (i := ()) (str "in") rfl)
  have h₂ := h₁.append (.single (.readStatus (i := ()) rfl))
  have h₃ := h₂.append (.single (.connect rfl))
  have h₄ := h₃.append (.single (.walkBegin rfl))
  have h₅ := h₄.append (.single (.walkEnd rfl))
  have h₆ := h₅.append (.single (.append (i := ()) rfl))
  have hlost := hclaim Unit inferInstance _ _ h₆ ⟨rfl, fun _ => rfl, rfl⟩ (str "in") (by decide)
  revert hlost
  decide

end Session

end Mqtt
