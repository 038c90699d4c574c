import WirelessBridge.Bridge.Feedback
import WirelessBridge.Mqtt.Subscription
import WirelessBridge.System.ConnMan

/-!
# The first connection and the first subscriptions

The launcher starts the components one after another. The bridge subscribes its topics in its
`startComponent`; the executor creates its workers in its own, and only a worker runs the handler of
the connection manager, which has mosquitto connect. Which of the two names comes first decides
whether `on_connect` can meet a subscription under way.
-/

namespace System

open Lib Mqtt WBridge

/-- The names of two components, the device table, and the configuration of the connection. -/
structure Installation where
  bridge : Str
  executor : Str
  table : GwtTable
  mqttCfg : MqttConfig

/-- The launcher in its last loop, beside the connection manager and mosquitto. -/
structure Starting where
  /-- The components that are still to be started. -/
  remaining : List Str
  /-- The topics that the bridge has still to subscribe. -/
  topics : List Str
  /-- There are workers. -/
  executing : Bool
  items : ConnTable Unit
  /-- `connect_async` has been called. -/
  requested : Bool
  session : Session Unit

namespace Starting

def clientName : Str := str "MqttConnection"

/-- Every component is initialised, and the connection has subscribed to the manager. -/
def start (names : List Str) : Starting :=
  ⟨names, [], false, (System.subscribe clientName () KeyedMap.empty).2, false, Session.init⟩

/-- The launcher is not inside the `startComponent` of the bridge. -/
def Free (s : Starting) : Prop := s.topics = [] ∧ s.session.callers () = .idle

/-- A pass of `connectionHandler` at the status that the connection has by then. -/
def handled (inst : Installation) (itrTime : ℤ) (s : Starting) : Handling × ConnTable Unit :=
  connectionHandler
    (fun _ => some ⟨s.session.conn.connStatus, {}, Mqtt.connectThrows inst.mqttCfg⟩) itrTime
    [clientName] s.items

end Starting

inductive StartingEvent where
  | startComponent (name : Str)
  | session (e : Session.Event Unit)
  | pass (itrTime : ℤ)

/-- What mosquitto's thread does. -/
def isCallback : Session.Event Unit → Bool
  | .connect | .walkBegin | .walkNext | .walkEnd | .disconnect => true
  | _ => false

/-- What happens inside a call of `subscribeTopic`. -/
def isWithin : Session.Event Unit → Bool
  | .readStatus _ | .subscribe _ | .append _ => true
  | _ => false

/-- The calls of `subscribeTopic` are all made by the launcher, one topic after another. -/
inductive StartingStep (inst : Installation) : Starting → StartingEvent → Starting → Prop where
  | startComponent {s : Starting} {name : Str} {rest : List Str} (h : s.remaining = name :: rest)
      (hfree : s.Free) :
      StartingStep inst s (.startComponent name)
        { s with
          remaining := rest
          topics := if name = inst.bridge then mqttSubscribe inst.table else []
          executing := s.executing || name = inst.executor }
  | call {s : Starting} {topic : Str} {rest : List Str} {t : Session Unit}
      (h : s.topics = topic :: rest) (hstep : Session.Step s.session (.call () topic) t) :
      StartingStep inst s (.session (.call () topic)) { s with topics := rest, session := t }
  | within {s : Starting} {e : Session.Event Unit} {t : Session Unit} (he : isWithin e = true)
      (hstep : Session.Step s.session e t) :
      StartingStep inst s (.session e) { s with session := t }
  | callback {s : Starting} {e : Session.Event Unit} {t : Session Unit} (he : isCallback e = true)
      (hrequested : s.requested = true) (hstep : Session.Step s.session e t) :
      StartingStep inst s (.session e) { s with session := t }
  | pass {s : Starting} (itrTime : ℤ) (hexecuting : s.executing = true) :
      StartingStep inst s (.pass itrTime)
        { s with
          items := (s.handled inst itrTime).2
          requested := s.requested ||
            ((s.handled inst itrTime).1.fault = none ∧
              (s.handled inst itrTime).1.effects.any (·.isConnect Starting.clientName)) }

/-- Every component has been started. -/
def Starting.Finished (s : Starting) : Prop := s.remaining = [] ∧ s.Free

/-- A start loses no subscription: once it is over and all is quiet, every topic of the table is
subscribed in the session that is up. -/
def StartSubscribes (inst : Installation) (names : List Str) : Prop :=
  ∀ tr s, Run (StartingStep inst) (.start names) tr s → s.Finished → s.session.Settled →
    ∀ topic ∈ mqttSubscribe inst.table, cStr topic ∈ s.session.subscribed

/-- The topic of a call that is under way. -/
def inFlight : CallerPoint → List Str
  | .idle => []
  | .readStatus topic | .subscribe topic | .append topic => [topic]

variable {inst : Installation} {names : List Str} {s s' : Starting} {e : StartingEvent}

/-! ### The bridge before the executor -/

/-- There is no connection before there are workers, and there are none before the bridge has
subscribed all its topics. -/
structure BridgeFirst (inst : Installation) (names : List Str) (s : Starting) : Prop where
  suffix : s.remaining <:+ names
  unrequested : s.requested = false →
    s.session.mosquitto = .idle ∧ s.session.conn.connStatus = .disconnected
  unexecuting : s.executing = false → s.requested = false
  quiet : s.executing = true → inst.bridge ∉ s.remaining ∧ s.Free
  waiting : inst.bridge ∈ s.remaining → s.Free ∧ s.session.completed = []
  passed : inst.bridge ∉ s.remaining →
    s.session.completed ++ inFlight (s.session.callers ()) ++ s.topics = mqttSubscribe inst.table
  inv : s.session.Inv

lemma bridgeFirst_start (hb : inst.bridge ∈ names) : BridgeFirst inst names (.start names) where
  suffix := List.suffix_rfl
  unrequested _ := ⟨rfl, rfl⟩
  unexecuting _ := rfl
  quiet h := by cases h
  waiting _ := ⟨⟨rfl, rfl⟩, rfl⟩
  passed h := absurd hb h
  inv := Session.inv_init

/-- Callbacks have nothing to do with the calls. -/
lemma callback_frame {a b : Session Unit} {e : Session.Event Unit} (he : isCallback e = true)
    (hstep : Session.Step a e b) : b.callers = a.callers ∧ b.completed = a.completed := by
  cases hstep <;> first | exact ⟨rfl, rfl⟩ | cases he

/-- Inside a call the connection is left alone, and its topic kept. -/
lemma within_frame {a b : Session Unit} {e : Session.Event Unit} (he : isWithin e = true)
    (hstep : Session.Step a e b) :
    b.mosquitto = a.mosquitto ∧ b.conn.connStatus = a.conn.connStatus ∧
      b.completed ++ inFlight (b.callers ()) = a.completed ++ inFlight (a.callers ()) ∧
      a.callers () ≠ .idle := by
  cases hstep with
  | call | connect | walkBegin | walkNext | walkEnd | disconnect => cases he
  | @readStatus i topic h =>
    refine ⟨rfl, rfl, ?_, by simp [h]⟩
    show a.completed ++ inFlight ((a.goTo i _).callers i) = _
    rw [Session.callers_goTo, show a.callers () = .readStatus topic from h]
    split_ifs <;> rfl
  | @subscribe i topic h =>
    refine ⟨rfl, rfl, ?_, by simp [h]⟩
    show a.completed ++ inFlight ((a.goTo i (.append topic)).callers i) = _
    rw [Session.callers_goTo, show a.callers () = .subscribe topic from h]
    rfl
  | @append i topic h =>
    refine ⟨rfl, rfl, ?_, by simp [h]⟩
    show a.completed ++ [topic] ++ inFlight ((a.goTo i .idle).callers i) = _
    rw [Session.callers_goTo, show a.callers () = .append topic from h]
    simp [inFlight]

lemma call_frame {a b : Session Unit} {topic : Str} (hstep : Session.Step a (.call () topic) b) :
    b.mosquitto = a.mosquitto ∧ b.conn.connStatus = a.conn.connStatus ∧
      b.completed = a.completed ∧ a.callers () = .idle ∧ inFlight (b.callers ()) = [topic] := by
  cases hstep with
  | call topic h =>
    refine ⟨rfl, rfl, rfl, h, ?_⟩
    rw [Session.callers_goTo]
    rfl

/-- What the launcher does next keeps the order, if the executor comes behind the bridge. -/
lemma StartingStep.bridgeFirst (h : StartingStep inst s e s') (hnodup : names.Nodup)
    (hne : inst.bridge ≠ inst.executor)
    (hbefore : ∀ rest, inst.executor :: rest <:+ names → inst.bridge ∉ rest)
    (hs : BridgeFirst inst names s) : BridgeFirst inst names s' := by
  cases h with
  | @startComponent name rest h hfree =>
    have hsuffix : name :: rest <:+ names := h ▸ hs.suffix
    have hnew : name ∉ rest := (List.nodup_cons.mp (hnodup.sublist hsuffix.sublist)).1
    have hidle : inFlight (s.session.callers ()) = [] := by rw [hfree.2]; rfl
    by_cases hname : name = inst.bridge
    · -- The bridge begins to subscribe, and the executor is still to come.
      have hwaiting := hs.waiting (by rw [h, hname]; exact List.mem_cons_self)
      have hidling : s.executing = false := by
        apply Bool.eq_false_of_not_eq_true
        intro hexecuting
        exact (hs.quiet hexecuting).1 (by rw [h, hname]; exact List.mem_cons_self)
      refine ⟨(List.suffix_cons name rest).trans hsuffix, hs.unrequested, ?_, ?_, ?_, ?_, hs.inv⟩
      · intro _
        exact hs.unexecuting hidling
      · intro hexecuting
        simp [hidling, hname, hne] at hexecuting
      · intro hmem
        exact absurd (hname ▸ hmem) hnew
      · intro _
        simp [hwaiting.2, hidle, hname]
    · have hmem : inst.bridge ∈ s.remaining ↔ inst.bridge ∈ rest := by
        rw [h, List.mem_cons, or_iff_right (Ne.symm hname)]
      have hfree' : Starting.Free { s with
          remaining := rest
          topics := if name = inst.bridge then mqttSubscribe inst.table else []
          executing := s.executing || name = inst.executor } := ⟨if_neg hname, hfree.2⟩
      refine ⟨(List.suffix_cons name rest).trans hsuffix, hs.unrequested, ?_, ?_, ?_, ?_, hs.inv⟩
      · intro hexecuting
        exact hs.unexecuting (Bool.or_eq_false_iff.mp hexecuting).1
      · intro hexecuting
        refine ⟨?_, hfree'⟩
        rcases Bool.or_eq_true_iff.mp hexecuting with hold | hnow
        · exact hmem.not.mp (hs.quiet hold).1
        · exact hbefore rest (of_decide_eq_true hnow ▸ hsuffix)
      · intro hbridge
        exact ⟨hfree', (hs.waiting (hmem.mpr hbridge)).2⟩
      · intro hbridge
        have hpassed := hs.passed (hmem.not.mpr hbridge)
        rw [hfree.1] at hpassed
        simpa [hname] using hpassed
  | @call topic rest t h hstep =>
    obtain ⟨hmosquitto, hstatus, hcompleted, hidle, hflight⟩ := call_frame hstep
    have hbusy : ¬ s.Free := fun hfree => by simp [hfree.1] at h
    refine ⟨hs.suffix, ?_, hs.unexecuting, ?_, ?_, ?_, hstep.inv nofun hs.inv⟩
    · intro hrequested
      rw [hmosquitto, hstatus]
      exact hs.unrequested hrequested
    · intro hexecuting
      exact absurd (hs.quiet hexecuting).2 hbusy
    · intro hbridge
      exact absurd (hs.waiting hbridge).1 hbusy
    · intro hbridge
      have hpassed := hs.passed hbridge
      rw [hidle, h] at hpassed
      rw [hcompleted, hflight]
      simpa [inFlight] using hpassed
  | @within e t he hstep =>
    obtain ⟨hmosquitto, hstatus, hflight, hcalling⟩ := within_frame he hstep
    have hbusy : ¬ s.Free := fun hfree => hcalling hfree.2
    have hwalk : e = .walkBegin → s.session.WalkCovers := by
      rintro rfl
      cases he
    refine ⟨hs.suffix, ?_, hs.unexecuting, ?_, ?_, ?_, hstep.inv hwalk hs.inv⟩
    · intro hrequested
      rw [hmosquitto, hstatus]
      exact hs.unrequested hrequested
    · intro hexecuting
      exact absurd (hs.quiet hexecuting).2 hbusy
    · intro hbridge
      exact absurd (hs.waiting hbridge).1 hbusy
    · intro hbridge
      rw [hflight]
      exact hs.passed hbridge
  | @callback e t he hrequested hstep =>
    obtain ⟨hcallers, hcompleted⟩ := callback_frame he hstep
    have hexecuting : s.executing = true := by
      apply Bool.eq_true_of_not_eq_false
      intro hno
      rw [hs.unexecuting hno] at hrequested
      cases hrequested
    have hquiet := hs.quiet hexecuting
    -- No call is under way when a walk begins, so there is nothing that it could miss.
    have hwalk : e = .walkBegin → s.session.WalkCovers := by
      intro _ i topic hi
      rw [show s.session.callers i = .idle from hquiet.2.2] at hi
      cases hi
    have hfree : Starting.Free { s with session := t } :=
      ⟨hquiet.2.1, (congrFun hcallers ()).trans hquiet.2.2⟩
    refine ⟨hs.suffix, ?_, hs.unexecuting, fun _ => ⟨hquiet.1, hfree⟩, ?_, ?_,
      hstep.inv hwalk hs.inv⟩
    · intro hno
      rw [hno] at hrequested
      cases hrequested
    · intro hbridge
      exact absurd hbridge hquiet.1
    · intro hbridge
      rw [hcallers, hcompleted]
      exact hs.passed hbridge
  | pass itrTime hexecuting =>
    refine ⟨hs.suffix, ?_, ?_, hs.quiet, hs.waiting, hs.passed, hs.inv⟩
    · intro hrequested
      exact hs.unrequested (Bool.or_eq_false_iff.mp hrequested).1
    · intro hno
      rw [hexecuting] at hno
      cases hno

/-- What is known of a quiet session: every topic of the list is subscribed in it. -/
lemma subscribed_of_settled {a : Session Unit} (hinv : a.Inv) (hsettled : a.Settled) {topic : Str}
    (h : topic ∈ a.completed) : cStr topic ∈ a.subscribed := by
  have hm : a.mosquitto ≠ .stored := by simp [hsettled.mosquitto]
  rcases hinv.covered hsettled.connected hm topic (.inl (hinv.stored topic h)) with
    hcovered | ⟨rest, hrest, -⟩ | ⟨i, t, hi, -⟩
  · exact hcovered
  · simp [hsettled.mosquitto] at hrest
  · simp [hsettled.callers i] at hi

lemma startSubscribes_of_bridgeFirst (hnodup : names.Nodup) (hb : inst.bridge ∈ names)
    (hne : inst.bridge ≠ inst.executor)
    (hbefore : ∀ rest, inst.executor :: rest <:+ names → inst.bridge ∉ rest) :
    StartSubscribes inst names := by
  intro tr s hrun hfinished hsettled topic htopic
  have hfirst : BridgeFirst inst names s :=
    hrun.invariant (fun hstep ha => hstep.bridgeFirst hnodup hne hbefore ha) (bridgeFirst_start hb)
  have hpassed := hfirst.passed (by rw [hfinished.1]; exact List.not_mem_nil)
  rw [hfinished.2.1, hfinished.2.2] at hpassed
  refine subscribed_of_settled hfirst.inv hsettled ?_
  simpa [← hpassed, inFlight] using htopic

/-! ### The executor before the bridge -/

section

variable (inst)

/-- The launcher starts components other than the bridge. -/
lemma run_startComponents (pre rest : List Str) (hb : inst.bridge ∉ pre) (hfree : s.Free)
    (h : s.remaining = pre ++ rest) :
    ∃ tr, Run (StartingStep inst) s tr
      { s with
        remaining := rest
        executing := s.executing || decide (inst.executor ∈ pre) } := by
  induction pre generalizing s with
  | nil =>
    refine ⟨[], ?_⟩
    obtain rfl := h
    simpa using (.nil s : Run (StartingStep inst) s [] s)
  | cons name pre ih =>
    obtain ⟨hname, hpre⟩ := List.ne_and_not_mem_of_not_mem_cons hb
    have hstep : StartingStep inst s _ _ := .startComponent h hfree
    rw [if_neg (Ne.symm hname), ← hfree.1] at hstep
    obtain ⟨tr, hrun⟩ := @ih
      { s with remaining := pre ++ rest, executing := s.executing || name = inst.executor } hpre
      hfree rfl
    have hexecuting : (s.executing || decide (inst.executor ∈ name :: pre))
        = (s.executing || decide (name = inst.executor) || decide (inst.executor ∈ pre)) := by
      simp [Bool.or_assoc, eq_comm]
    rw [hexecuting]
    exact ⟨_, .cons hstep hrun⟩

/-- The session after calls that nothing has come between. -/
def afterCalls (a : Session Unit) (ts : List Str) : Session Unit :=
  { a with
    conn := { a.conn with topicsList := a.conn.topicsList ++ ts }
    subscribed := a.subscribed ++ if .connected = a.conn.connStatus then ts.map cStr else []
    completed := a.completed ++ ts }

lemma afterCalls_cons (a : Session Unit) (t : Str) (ts : List Str) :
    afterCalls (afterCalls a [t]) ts = afterCalls a (t :: ts) := by
  by_cases h : .connected = a.conn.connStatus <;> simp [afterCalls, h]

lemma run_call {topic : Str} {rest : List Str} (hidle : s.session.callers () = .idle)
    (h : s.topics = topic :: rest) :
    ∃ tr, Run (StartingStep inst) s tr
      { s with topics := rest, session := afterCalls s.session [topic] } := by
  have hback : Function.update s.session.callers () .idle = s.session.callers := by
    rw [← hidle, Function.update_eq_self]
  have hcall : StartingStep inst s _ _ := .call h (.call topic hidle)
  by_cases hconn : .connected = s.session.conn.connStatus
  · have hread : Session.Step (s.session.goTo () (.readStatus topic)) (.readStatus ())
        (s.session.goTo () (.subscribe topic)) := by
      simpa [Session.goTo, hconn] using
        Session.Step.readStatus (Session.callers_goTo s.session () (.readStatus topic))
    have hsubscribe := Session.Step.subscribe (Session.callers_goTo s.session () (.subscribe topic))
    have happend : Session.Step
        { (s.session.goTo () (.subscribe topic)).goTo () (.append topic) with
          subscribed := s.session.subscribed ++
            if .connected = s.session.conn.connStatus then [cStr topic] else [] }
        (.append ()) _ :=
      .append (Session.callers_goTo (s.session.goTo () (.subscribe topic)) () (.append topic))
    obtain ⟨tr, hrun⟩ : ∃ tr, Run (StartingStep inst) s tr _ :=
      ⟨_, .cons hcall (.cons (.within rfl hread) (.cons (.within rfl hsubscribe)
        (.single (.within rfl happend))))⟩
    exact ⟨tr, by simpa [Session.goTo, hback, afterCalls, hconn] using hrun⟩
  · have hread : Session.Step (s.session.goTo () (.readStatus topic)) (.readStatus ())
        (s.session.goTo () (.append topic)) := by
      simpa [Session.goTo, hconn] using
        Session.Step.readStatus (Session.callers_goTo s.session () (.readStatus topic))
    obtain ⟨tr, hrun⟩ : ∃ tr, Run (StartingStep inst) s tr _ :=
      ⟨_, .cons hcall (.cons (.within rfl hread)
        (.single (.within rfl (.append (Session.callers_goTo _ () _)))))⟩
    exact ⟨tr, by simpa [Session.goTo, hback, afterCalls, hconn] using hrun⟩

lemma run_calls (ts rest : List Str) (hidle : s.session.callers () = .idle)
    (h : s.topics = ts ++ rest) :
    ∃ tr, Run (StartingStep inst) s tr
      { s with topics := rest, session := afterCalls s.session ts } := by
  induction ts generalizing s with
  | nil =>
    obtain rfl := h
    refine ⟨[], ?_⟩
    simpa [afterCalls] using Run.nil s
  | cons t ts ih =>
    obtain ⟨tr, hrun⟩ := run_call inst hidle h
    obtain ⟨tr', hrun'⟩ := @ih
      { s with topics := ts ++ rest, session := afterCalls s.session [t] } hidle rfl
    rw [afterCalls_cons] at hrun'
    exact ⟨_, hrun.append hrun'⟩

lemma run_walk (rest : List Str) (hrequested : s.requested = true)
    (h : s.session.mosquitto = .walking rest) :
    ∃ tr, Run (StartingStep inst) s tr
      { s with
        session := { s.session with
          mosquitto := .idle
          subscribed := s.session.subscribed ++ rest.map cStr } } := by
  induction rest generalizing s with
  | nil =>
    rw [List.map_nil, List.append_nil]
    exact ⟨_, .single (.callback rfl hrequested (.walkEnd h))⟩
  | cons topic rest ih =>
    obtain ⟨tr, hrun⟩ := @ih
      { s with
        session := { s.session with
          mosquitto := .walking rest
          subscribed := s.session.subscribed ++ [cStr topic] } } hrequested rfl
    rw [List.append_assoc] at hrun
    exact ⟨_, .cons (.callback rfl hrequested (.walkNext h)) hrun⟩

/-- Mosquitto connects, and walks through the topics that are stored by then. -/
lemma run_connect (hrequested : s.requested = true) (hm : s.session.mosquitto = .idle) :
    ∃ tr, Run (StartingStep inst) s tr
      { s with
        session := { s.session with
          conn := { s.session.conn with connStatus := .connected }
          subscribed := s.session.conn.topicsList.map cStr } } := by
  obtain ⟨tr, hrun⟩ := run_walk inst s.session.conn.topicsList
    (s := { s with
      session := { s.session with
        mosquitto := .walking s.session.conn.topicsList
        conn := { s.session.conn with connStatus := .connected }
        subscribed := [] } }) hrequested rfl
  rw [List.nil_append, ← hm] at hrun
  exact ⟨_, .cons (.callback rfl hrequested (.connect hm))
    (.cons (.callback rfl hrequested (.walkBegin rfl)) hrun)⟩

/-- The first pass of the handler has mosquitto connect, if the port can be read. -/
lemma run_pass (hexecuting : s.executing = true)
    (hitems : s.items = (System.subscribe Starting.clientName () KeyedMap.empty).2)
    (hstatus : s.session.conn.connStatus = .disconnected)
    (hport : Mqtt.connectThrows inst.mqttCfg = none) :
    ∃ tr items, Run (StartingStep inst) s tr { s with items, requested := true } := by
  have hblk : s.items Starting.clientName = some ⟨(), 0, 0⟩ := by
    rw [hitems]
    rfl
  have hconnects : (s.handled inst 1).1
      = ⟨[.getState Starting.clientName .disconnected, .connect Starting.clientName 1], none⟩ := by
    simp only [Starting.handled, connectionHandler, hblk, processItem, processClient, hstatus,
      hport]
    rfl
  have hstep : StartingStep inst s _ _ := .pass 1 hexecuting
  have hrequested : (s.requested || decide ((s.handled inst 1).1.fault = none ∧
      (s.handled inst 1).1.effects.any (·.isConnect Starting.clientName) = true)) = true := by
    rw [hconnects]
    simp [Action.isConnect]
  rw [hrequested] at hstep
  exact ⟨_, _, .single hstep⟩

/-- A call that has read the status before the connect appends its topic behind the walk of
`on_connect`. -/
lemma run_overtaken (topic : Str) (rest : List Str) (h : s.topics = topic :: rest)
    (hidle : s.session.callers () = .idle) (hexecuting : s.executing = true)
    (hitems : s.items = (System.subscribe Starting.clientName () KeyedMap.empty).2)
    (hm : s.session.mosquitto = .idle) (hstatus : s.session.conn.connStatus = .disconnected)
    (hport : Mqtt.connectThrows inst.mqttCfg = none) :
    ∃ tr items, Run (StartingStep inst) s tr
      { s with
        topics := rest
        items
        requested := true
        session := { s.session with
          conn := ⟨.connected, s.session.conn.topicsList ++ [topic]⟩
          subscribed := s.session.conn.topicsList.map cStr
          completed := s.session.completed ++ [topic] } } := by
  have hback : Function.update s.session.callers () .idle = s.session.callers := by
    rw [← hidle, Function.update_eq_self]
  have hcall : StartingStep inst s _ _ := .call h (.call topic hidle)
  have hread : Session.Step (s.session.goTo () (.readStatus topic)) (.readStatus ())
      (s.session.goTo () (.append topic)) := by
    simpa [Session.goTo, hstatus] using
      Session.Step.readStatus (Session.callers_goTo s.session () (.readStatus topic))
  obtain ⟨tr₁, items, hpass⟩ := run_pass inst
    (s := { s with topics := rest, session := s.session.goTo () (.append topic) }) hexecuting hitems
    hstatus hport
  obtain ⟨tr₂, hconnect⟩ := run_connect inst
    (s := { s with
      topics := rest, items, requested := true, session := s.session.goTo () (.append topic) })
    rfl hm
  have happend : Session.Step
      { s.session.goTo () (.append topic) with
        conn := { s.session.conn with connStatus := .connected }
        subscribed := s.session.conn.topicsList.map cStr } (.append ()) _ :=
    .append (Session.callers_goTo s.session () (.append topic))
  obtain ⟨tr, hrun⟩ : ∃ tr, Run (StartingStep inst) s tr _ :=
    ⟨_, .cons hcall (.cons (.within rfl hread)
      (hpass.append (hconnect.append (.single (.within rfl happend)))))⟩
  exact ⟨tr, items, by simpa [Session.goTo, hback] using hrun⟩

lemma run_finish {tr : List (Starting × StartingEvent)} (hrun : Run (StartingStep inst) s tr s')
    (hfree : s'.Free) (hb : inst.bridge ∉ s'.remaining) :
    ∃ tr t, Run (StartingStep inst) s tr t ∧ t.Finished ∧ t.session = s'.session := by
  obtain ⟨tr', hrest⟩ := run_startComponents inst s'.remaining [] hb hfree
    (List.append_nil s'.remaining).symm
  exact ⟨_, _, hrun.append hrest, ⟨rfl, hfree⟩, rfl⟩

/-- Where the executor comes first, one topic may be lost while all the others are subscribed. -/
lemma exists_lost {before post ts₁ ts₂ : List Str} {topic : Str}
    (he : inst.executor ∈ before) (hb : inst.bridge ∉ before) (hb' : inst.bridge ∉ post)
    (htopics : mqttSubscribe inst.table = ts₁ ++ topic :: ts₂)
    (hport : Mqtt.connectThrows inst.mqttCfg = none) :
    ∃ tr s, Run (StartingStep inst) (.start (before ++ inst.bridge :: post)) tr s ∧ s.Finished ∧
      s.session.Settled ∧ s.session.subscribed = (ts₁ ++ ts₂).map cStr := by
  obtain ⟨tr₁, hbefore⟩ := run_startComponents inst before (inst.bridge :: post)
    (s := .start (before ++ inst.bridge :: post)) hb ⟨rfl, rfl⟩ rfl
  have hbridge : StartingStep inst
      { Starting.start (before ++ inst.bridge :: post) with
        remaining := inst.bridge :: post
        executing := false || decide (inst.executor ∈ before) } _ _ :=
    .startComponent rfl ⟨rfl, rfl⟩
  rw [if_pos rfl, htopics, decide_eq_true he] at hbridge
  rw [decide_eq_true he] at hbefore
  obtain ⟨tr₂, hfirst⟩ := run_calls inst ts₁ (topic :: ts₂)
    (s := { Starting.start (before ++ inst.bridge :: post) with
      remaining := post, topics := ts₁ ++ topic :: ts₂, executing := true }) rfl rfl
  obtain ⟨tr₃, items, hlost⟩ := run_overtaken inst topic ts₂
    (s := { Starting.start (before ++ inst.bridge :: post) with
      remaining := post, topics := topic :: ts₂, executing := true
      session := afterCalls Session.init ts₁ }) rfl rfl rfl rfl rfl rfl hport
  obtain ⟨tr₄, hrest⟩ := run_calls inst ts₂ []
    (s := { Starting.start (before ++ inst.bridge :: post) with
      remaining := post, topics := ts₂, executing := true, items, requested := true
      session := { afterCalls Session.init ts₁ with
        conn := ⟨.connected, (afterCalls Session.init ts₁).conn.topicsList ++ [topic]⟩
        subscribed := (afterCalls Session.init ts₁).conn.topicsList.map cStr
        completed := (afterCalls Session.init ts₁).completed ++ [topic] } })
    rfl (List.append_nil ts₂).symm
  have hrun := hbefore.append ((Run.single hbridge).append (hfirst.append (hlost.append hrest)))
  obtain ⟨tr, t, hpost, hfinished, hsession⟩ := run_finish inst hrun ⟨rfl, rfl⟩ hb'
  refine ⟨tr, t, hpost, hfinished, ?_, ?_⟩
  · rw [hsession]
    exact ⟨rfl, fun _ => rfl, rfl⟩
  · rw [hsession]
    simp [afterCalls, Session.init, CMqttConnection.init]

end

/-- The executor comes before the bridge, or behind it, in the order of the names. -/
lemma bridge_notMem_of_sorted (hsorted : names.Pairwise (· < ·)) (hlt : inst.bridge < inst.executor)
    {rest : List Str} (hsuffix : inst.executor :: rest <:+ names) : inst.bridge ∉ rest := by
  intro hmem
  have hrest := (List.pairwise_cons.mp (hsorted.sublist hsuffix.sublist)).1 _ hmem
  exact lt_asymm hlt hrest

/-- With a port that can be read, and a topic that the table subscribes once only, no start loses a
subscription if and only if the bridge comes before the executor in the order of the names. -/
theorem startSubscribes_iff (hsorted : names.Pairwise (· < ·)) (hb : inst.bridge ∈ names)
    (he : inst.executor ∈ names) (hne : inst.bridge ≠ inst.executor)
    (hport : Mqtt.connectThrows inst.mqttCfg = none)
    (honce : ∃ topic ∈ mqttSubscribe inst.table,
      ((mqttSubscribe inst.table).map cStr).count (cStr topic) = 1) :
    StartSubscribes inst names ↔ inst.bridge < inst.executor := by
  constructor
  · intro hsubscribes
    by_contra hlt
    obtain ⟨topic, htopic, hcount⟩ := honce
    obtain ⟨ts₁, ts₂, htopics⟩ := List.append_of_mem htopic
    obtain ⟨before, post, rfl⟩ := List.append_of_mem hb
    have hpair := List.pairwise_append.mp hsorted
    have hbefore : inst.bridge ∉ before := fun hmem =>
      lt_irrefl _ (hpair.2.2 _ hmem _ List.mem_cons_self)
    have hpost : inst.bridge ∉ post := fun hmem =>
      lt_irrefl _ ((List.pairwise_cons.mp hpair.2.1).1 _ hmem)
    have hfirst : inst.executor ∈ before := by
      rcases List.mem_append.mp he with hmem | hmem
      · exact hmem
      · rcases List.mem_cons.mp hmem with heq | hmem
        · exact absurd heq.symm hne
        · exact absurd ((List.pairwise_cons.mp hpair.2.1).1 _ hmem) hlt
    obtain ⟨tr, s, hrun, hfinished, hsettled, hsubscribed⟩ :=
      exists_lost inst hfirst hbefore hpost htopics hport
    have hmem := hsubscribes tr s hrun hfinished hsettled topic htopic
    rw [hsubscribed, List.map_append] at hmem
    rw [htopics, List.map_append, List.map_cons, List.count_append, List.count_cons_self] at hcount
    have hzero : (ts₁.map cStr ++ ts₂.map cStr).count (cStr topic) = 0 := by
      rw [List.count_append]
      omega
    exact List.count_eq_zero.mp hzero hmem
  · intro hlt
    exact startSubscribes_of_bridgeFirst (hsorted.imp ne_of_lt) hb hne
      fun rest hsuffix => bridge_notMem_of_sorted hsorted hlt hsuffix

/-- The names of the shipped configuration, and one device without channels. -/
def shipped : Installation where
  bridge := str "bridge"
  executor := str "executor"
  table := [{ devName := str "station", inputMqttTopic := str "in", outputMqttTopic := [],
              statusMqttTopic := str "status", nodeTimeoutInSec := 10, nodeConnectionAttempt := 1,
              inputMapping := [], outputMapping := [] }]
  mqttCfg := ⟨str "192.168.1.188", str "8097"⟩

/-- In the shipped configuration the bridge comes first. -/
theorem startSubscribes_shipped :
    StartSubscribes shipped
      [str "bridge", str "connman", str "executor", str "final_haven", str "mqttconn"] :=
  (startSubscribes_iff (by decide) (by decide) (by decide) (by decide) rfl
    ⟨str "in", by decide, by decide⟩).mpr (by decide)

end System
