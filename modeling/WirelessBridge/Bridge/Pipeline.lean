import WirelessBridge.Bridge.Delivery
import WirelessBridge.Bridge.Routing
import WirelessBridge.Bridge.Threads

/-!
# The bridge behind its queue

Mosquitto's thread pushes what arrives, the listener thread pops it and handles it, and any number
of workers go over the devices. What the threads of the bridge do in any interleaving with the queue
is what they do when the listener gets the messages one after the other, in the order of their
arrival.
-/

namespace WBridge

open Lib HBE System Mqtt Common

structure Pipeline where
  loop : EventLoop TMqttEventVariant
  threads : Threads
  /-- What a callback of mosquitto has still to call. -/
  callback : List Call

inductive PipelineEvent where
  | message (m : MosquittoMessage)
  | onConnect (rc : ℤ)
  | onDisconnect
  | call
  | listen (e : Common.LoopEvent TMqttEventVariant)
  | handle (clk : ℕ → ℤ)
  | returned
  | threads (d : ThreadEvent)

def sentEvent? : Call → Option TMqttEventVariant
  | .sendEvent ev => some ev
  | _ => none

/-- The steps within a call of the bridge. The others begin with a callback, or in the queue. -/
def ThreadEvent.isOwn : ThreadEvent → Bool
  | .effect | .tick _ _ _ | .watch _ => true
  | .handle _ _ _ | .onConnect _ | .onDisconnect => false

namespace Pipeline

def start (b : Bridge) : Pipeline := ⟨.start, .start b, []⟩

/-- A call out of a callback. What it asks of the broker is nothing to the bridge. -/
def perform (s : Pipeline) : Call → Pipeline
  | .sendEvent ev => { s with loop := { s.loop with queue := sendEvent s.loop.queue ev } }
  | _ => s

end Pipeline

/-- A step of a callback of mosquitto, one of which runs at a time, of the listener thread, or
within a call of the bridge. No exception comes out of the handling of an event. -/
inductive PipelineStep (table : GwtTable) : Pipeline → PipelineEvent → Pipeline → Prop where
  | message {s : Pipeline} {m : MosquittoMessage} {c : Call} (hidle : s.callback = [])
      (hcall : onMessage m = .ok c) :
      PipelineStep table s (.message m) { s with callback := [c] }
  | onConnect {s : Pipeline} (rc : ℤ) (hidle : s.callback = []) :
      PipelineStep table s (.onConnect rc)
        { s with
          threads.bridge.mqtt := (onConnect s.threads.bridge.mqtt rc).1
          callback := (onConnect s.threads.bridge.mqtt rc).2 }
  | onDisconnect {s : Pipeline} (hidle : s.callback = []) :
      PipelineStep table s .onDisconnect
        { s with
          threads.bridge.mqtt := (onDisconnect s.threads.bridge.mqtt).1
          callback := (onDisconnect s.threads.bridge.mqtt).2 }
  | call {s : Pipeline} {c : Call} {rest : List Call} (h : s.callback = c :: rest) :
      PipelineStep table s .call { s.perform c with callback := rest }
  | listen {s : Pipeline} {e : Common.LoopEvent TMqttEventVariant} {l : EventLoop TMqttEventVariant}
      (hturn : e.isTurn = true) (hreturn : ∀ r, e ≠ .return r)
      (hl : Common.Step (processed table) s.loop e l) (hcalled : called s.loop l = []) :
      PipelineStep table s (.listen e) { s with loop := l }
  | handle {s : Pipeline} {ev : TMqttEventVariant} {l : EventLoop TMqttEventVariant} (clk : ℕ → ℤ)
      (hl : Common.Step (processed table) s.loop .dispatch l) (hcalled : called s.loop l = [ev])
      (hdefined : (mqttEventProcessFunc s.threads.bridge.known table clk ev).fault = none) :
      PipelineStep table s (.handle clk)
        { s with
          loop := l
          threads.handler :=
            (mqttEventProcessFunc s.threads.bridge.known table clk ev).effects }
  | returned {s : Pipeline} {ev : TMqttEventVariant} (hpc : s.loop.pc = .processing ev)
      (hdone : s.threads.handler = []) :
      PipelineStep table s .returned { s with loop.pc := resume none }
  | threads {s : Pipeline} {d : ThreadEvent} {t : Threads} (hown : d.isOwn = true)
      (hstep : ThreadStep table s.threads d t) :
      PipelineStep table s (.threads d) { s with threads := t }

/-! ### What the threads of the bridge see -/

/-- What a step is to the threads of the bridge, if it is anything to them. -/
def seen : Pipeline × PipelineEvent → Option ThreadEvent
  | (_, .threads d) => some d
  | (_, .onConnect rc) => some (.onConnect rc)
  | (_, .onDisconnect) => some .onDisconnect
  | (s, .handle clk) =>
    match s.loop.pc with
    | .received (some (.topicUpdate topic msg)) => some (.handle topic msg clk)
    | _ => none
  | (_, .message _) | (_, .call) | (_, .listen _) | (_, .returned) => none

def threadSteps (tr : List (Pipeline × PipelineEvent)) : List (Threads × ThreadEvent) :=
  tr.filterMap fun p => (seen p).map fun d => (p.1.threads, d)

def ThreadEvent.message? : ThreadEvent → Option (Str × Str)
  | .handle topic msg _ => some (topic, msg)
  | _ => none

def eventMessage? : TMqttEventVariant → Option (Str × Str)
  | .topicUpdate topic msg => some (topic, msg)
  | .online _ => none

/-- What mosquitto hands over, as the strings that are made of it. -/
def PipelineEvent.arrival? : PipelineEvent → Option (Str × Str)
  | .message m => (onMessage m).toOption.bind fun c => (sentEvent? c).bind eventMessage?
  | _ => none

def arrived (tr : List (Pipeline × PipelineEvent)) : List (Str × Str) :=
  tr.filterMap (·.2.arrival?)

/-- The messages whose handling has begun, the last one perhaps not ended. -/
def begun (tr : List (Threads × ThreadEvent)) : List (Str × Str) := tr.filterMap (·.2.message?)

/-- The messages that have arrived and are not given to the bridge: those that the listener holds,
those in the queue, and the one in a callback. -/
def Pipeline.waiting (s : Pipeline) : List (Str × Str) :=
  (s.loop.pc.held ++ s.loop.queue.content.filterMap id ++ s.callback.filterMap sentEvent?).filterMap
    eventMessage?

/-- The bridge has something to do for a message only while the listener is inside its function. -/
def Pipeline.InCall (s : Pipeline) : Prop :=
  s.threads.handler = [] ∨ ∃ ev, s.loop.pc = .processing ev

variable {table : GwtTable} {s t : Pipeline} {e : PipelineEvent}
  {tr : List (Pipeline × PipelineEvent)}

lemma begun_cons (p : Threads × ThreadEvent) (tr : List (Threads × ThreadEvent)) :
    begun (p :: tr) = p.2.message?.toList ++ begun tr := by
  cases hm : p.2.message? <;> simp [begun, hm]

/-! ### One step -/

/-- The function is called with what the listener holds. -/
lemma dispatch_of_called {l l' : EventLoop TMqttEventVariant} {ev : TMqttEventVariant}
    (hl : Common.Step (processed table) l .dispatch l') (hcalled : called l l' = [ev]) :
    l.pc = .received (some ev) ∧ l' = { l with pc := .processing ev } := by
  cases hl with
  | @dispatch got hpc =>
    cases got with
    | none => simp [called, hpc, branch] at hcalled
    | some ev' =>
      obtain rfl : ev' = ev := by simpa [called, hpc, branch] using hcalled
      exact ⟨hpc, rfl⟩

lemma PipelineStep.inCall (h : PipelineStep table s e t) (hs : s.InCall) : t.InCall := by
  cases h with
  | message | onConnect | onDisconnect => exact hs
  | @call c rest h =>
    cases c <;> exact hs
  | listen hturn hreturn hl hcalled =>
    refine hs.imp_right ?_
    rintro ⟨ev, hpc⟩
    cases hl with
    | send | interrupt | releaseHolder => cases hturn
    | «return» => exact absurd rfl (hreturn _)
    | test hpc' | lockHolder hpc' | consume hpc' | wait hpc' | wake _ hpc' | dispatch hpc' =>
      cases hpc.symm.trans hpc'
  | handle clk hl hcalled hdefined =>
    obtain ⟨-, rfl⟩ := dispatch_of_called hl hcalled
    exact .inr ⟨_, rfl⟩
  | returned hpc hdone => exact .inl hdone
  | threads hown hstep =>
    rcases hs with hnil | hpc
    · cases hstep with
      | effect h => cases hnil.symm.trans h
      | tick | watch => exact .inl hnil
      | handle | onConnect | onDisconnect => cases hown
    · exact .inr hpc

lemma waiting_perform (s : Pipeline) (c : Call) (rest : List Call) (h : s.callback = c :: rest) :
    ({ s.perform c with callback := rest } : Pipeline).waiting = s.waiting := by
  rw [Pipeline.waiting, Pipeline.waiting, h]
  cases c with
  | sendEvent ev =>
    simp [Pipeline.perform, sendEvent, sentEvent?, List.filterMap_append, List.filterMap_cons]
  | publish | subscribe | connectAsync => simp [Pipeline.perform, sentEvent?, List.filterMap_cons]

/-- The callbacks about the connection carry no message. -/
lemma sentEvent_onConnect (c : CMqttConnection) (rc : ℤ) :
    ((onConnect c rc).2.filterMap sentEvent?).filterMap eventMessage? = [] := by
  have hnone : (c.topicsList.map fun topic => Call.subscribe (cStr topic) 1).filterMap sentEvent?
      = [] := by
    rw [List.filterMap_map, List.filterMap_eq_nil_iff]
    exact fun _ _ => rfl
  rw [onConnect]
  split
  · rw [List.filterMap_append, hnone]
    rfl
  · rfl

/-- A step of the listener moves the events towards their handling, and none past it. -/
lemma waiting_listen {le : Common.LoopEvent TMqttEventVariant} {l : EventLoop TMqttEventVariant}
    (hturn : le.isTurn = true) (hreturn : ∀ r, le ≠ .return r)
    (hl : Common.Step (processed table) s.loop le l) (hcalled : called s.loop l = []) :
    ({ s with loop := l } : Pipeline).waiting = s.waiting := by
  have hpop : ∀ q : Fifo (Option TMqttEventVariant),
      (consumeEvent q).1.toList ++ (consumeEvent q).2.content.filterMap id
        = q.content.filterMap id := by
    intro q
    simp only [consumeEvent, popInto, Fifo.front?, Fifo.pop]
    cases q.content with
    | nil => rfl
    | cons ev rest => cases ev <;> rfl
  rw [Pipeline.waiting, Pipeline.waiting]
  cases hl with
  | send | interrupt | releaseHolder => cases hturn
  | test hpc | lockHolder hpc =>
    rw [hpc]
    simp only
    split_ifs <;> rfl
  | wait hpc _ => rw [hpc]; rfl
  | consume hpc _ | wake _ hpc _ =>
    rw [hpc]
    simp only [Pc.held, hpop, List.nil_append]
  | @dispatch got hpc =>
    cases got with
    | none => rw [hpc]; rfl
    | some ev => simp [called, hpc, branch] at hcalled
  | «return» _ _ => exact absurd rfl (hreturn _)

/-- What arrives waits, and what the bridge is given has waited longest. -/
lemma PipelineStep.waiting_eq (h : PipelineStep table s e t) :
    s.waiting ++ e.arrival?.toList
      = ((seen (s, e)).bind ThreadEvent.message?).toList ++ t.waiting := by
  cases h with
  | @message m c hidle hcall =>
    rw [PipelineEvent.arrival?, hcall, Pipeline.waiting, Pipeline.waiting, hidle]
    cases c with
    | sendEvent ev =>
      cases ev <;> simp [seen, sentEvent?, eventMessage?, Except.toOption, List.filterMap_append]
    | publish | subscribe | connectAsync => simp [seen, sentEvent?, Except.toOption]
  | onConnect rc hidle =>
    have hnone := sentEvent_onConnect s.threads.bridge.mqtt rc
    simp only [Pipeline.waiting, hidle, List.filterMap_append, hnone]
    simp [seen, PipelineEvent.arrival?, ThreadEvent.message?]
  | onDisconnect hidle =>
    rw [Pipeline.waiting, Pipeline.waiting, hidle]
    simp [seen, PipelineEvent.arrival?, ThreadEvent.message?, Mqtt.onDisconnect, sentEvent?,
      eventMessage?]
  | call h =>
    rw [waiting_perform s _ _ h]
    simp [seen, PipelineEvent.arrival?]
  | listen hturn hreturn hl hcalled =>
    rw [waiting_listen hturn hreturn hl hcalled]
    simp [seen, PipelineEvent.arrival?]
  | @handle ev l clk hl hcalled hdefined =>
    obtain ⟨hpc, rfl⟩ := dispatch_of_called hl hcalled
    rw [Pipeline.waiting, Pipeline.waiting, seen, hpc]
    cases ev <;> simp [Pc.held, List.filterMap_cons, eventMessage?, ThreadEvent.message?,
      PipelineEvent.arrival?]
  | returned hpc hdone =>
    rw [Pipeline.waiting, Pipeline.waiting, hpc]
    simp [seen, PipelineEvent.arrival?, resume, Pc.held]
  | @threads d t hown hstep =>
    have hnone : d.message? = none := by
      cases d with
      | handle => cases hown
      | _ => rfl
    simp [seen, PipelineEvent.arrival?, hnone, Pipeline.waiting]

lemma PipelineStep.threadStep_of_seen {d : ThreadEvent} (h : PipelineStep table s e t)
    (hs : s.InCall) (hseen : seen (s, e) = some d) :
    ThreadStep table s.threads d t.threads := by
  cases h with
  | message | call | listen | returned => cases hseen
  | onConnect rc hidle =>
    cases hseen
    exact .onConnect s.threads rc
  | onDisconnect hidle =>
    cases hseen
    exact .onDisconnect s.threads
  | @handle ev l clk hl hcalled hdefined =>
    obtain ⟨hpc, rfl⟩ := dispatch_of_called hl hcalled
    have hidle : s.threads.handler = [] := by
      rcases hs with hnil | ⟨ev', hpc'⟩
      · exact hnil
      · cases hpc.symm.trans hpc'
    simp only [seen, hpc] at hseen
    cases ev with
    | online _ => cases hseen
    | topicUpdate topic msg =>
      cases hseen
      exact .handle topic msg clk hidle hdefined
  | threads hown hstep =>
    cases hseen
    exact hstep

lemma PipelineStep.threads_of_silent (h : PipelineStep table s e t) (hs : s.InCall)
    (hseen : seen (s, e) = none) : t.threads = s.threads := by
  cases h with
  | message | listen | returned => rfl
  | @call c rest h => cases c <;> rfl
  | onConnect | onDisconnect | threads => cases hseen
  | @handle ev l clk hl hcalled hdefined =>
    obtain ⟨hpc, rfl⟩ := dispatch_of_called hl hcalled
    simp only [seen, hpc] at hseen
    cases ev with
    | topicUpdate topic msg => cases hseen
    | online b =>
      -- an event about the connection gives the bridge nothing to do
      rcases hs with hnil | ⟨ev', hpc'⟩
      · exact congrArg (fun es => { s.threads with handler := es }) hnil.symm
      · cases hpc.symm.trans hpc'

/-! ### Whole runs -/

lemma waiting_of_run (hrun : Run (PipelineStep table) s tr t) :
    s.waiting ++ arrived tr = begun (threadSteps tr) ++ t.waiting := by
  have hbegun : begun (threadSteps tr)
      = tr.filterMap fun p => (seen p).bind ThreadEvent.message? := by
    rw [begun, threadSteps, List.filterMap_filterMap]
    apply List.filterMap_congr
    intro p _
    cases seen p <;> rfl
  rw [hbegun]
  exact hrun.queue Pipeline.waiting (·.2.arrival?) (fun p => (seen p).bind ThreadEvent.message?)
    PipelineStep.waiting_eq

lemma run_threadSteps {b : Bridge} (hrun : Run (PipelineStep table) (.start b) tr s) :
    Run (ThreadStep table) (.start b) (threadSteps tr) s.threads :=
  hrun.observe (P := Pipeline.InCall) Pipeline.threads seen PipelineStep.inCall
    PipelineStep.threads_of_silent PipelineStep.threadStep_of_seen (.inl rfl)

/-- Any interleaving of mosquitto's callbacks, the listener behind the event queue, and the workers,
down to single writes and settings, is a run of the threads of the bridge that leaves them in the
same state, and in which messages are given to the bridge one after the other, in the order of their
arrival. The messages that run lacks are those that still wait. -/
theorem refines_threads {b : Bridge} (hrun : Run (PipelineStep table) (.start b) tr s) :
    Run (ThreadStep table) (.start b) (threadSteps tr) s.threads ∧
      begun (threadSteps tr) ++ s.waiting = arrived tr :=
  ⟨run_threadSteps hrun, (waiting_of_run hrun).symm⟩

/-! ### A node with two fields -/

def roomTable : GwtTable := [roomNode [dimmerChannel, blindChannel]]

/-- The broker is there, and nothing has happened. -/
def roomStart : Pipeline := .start (.started roomTable (fun _ => 0) ⟨.connected, []⟩)

lemma iterationOrder_roomStart :
    roomStart.threads.bridge.deviceItems.IterationOrder [str "node"] :=
  KeyedMap.iterationOrder_empty.emplace rfl

/-- A worker reads the deadline, and a message resets the block before it counts an attempt. The
broker is lost between the two values of the message, the second of which is not published. Another
message waits in its callback. -/
theorem refines_threads_room :
    ∃ tr s, Run (PipelineStep roomTable) roomStart tr s ∧
      s.threads.bridge.published = [(str "room", str "50")] ∧
      s.waiting = [(str "in", str "1,70")] ∧
      Run (ThreadStep roomTable) roomStart.threads (threadSteps tr) s.threads ∧
      begun (threadSteps tr) ++ s.waiting = arrived tr := by
  have h₁ : Run (PipelineStep roomTable) roomStart _ _ :=
    .single (.threads rfl (.tick 0 100000 rfl iterationOrder_roomStart))
  have h₂ := h₁.append (.single (.message rfl
    (rfl : onMessage (.ofPayload (str "in") (str "0,50")) = .ok _)))
  have h₃ := h₂.append (.single (.call rfl))
  have h₄ := h₃.append (.single (.listen (e := .test) rfl nofun (.test rfl) rfl))
  have h₅ := h₄.append (.single (.listen (e := .lockHolder) rfl nofun (.lockHolder rfl) rfl))
  have h₆ := h₅.append (.single (.listen (e := .consume) rfl nofun
    (.consume rfl (by exact List.cons_ne_nil _ _)) rfl))
  have h₇ := h₆.append (.single (.handle (fun _ => 0) (.dispatch rfl) rfl rfl))
  have h₈ := h₇.append
    (.single (.threads rfl (.watch (i := 0) (by exact List.cons_ne_nil _ _) rfl)))
  have h₉ := h₈.append (.single (.threads rfl (.effect rfl)))
  have h₁₀ := h₉.append (.single (.threads rfl (.effect rfl)))
  have h₁₁ := h₁₀.append
    (.single (.threads rfl (.watch (i := 0) (by exact List.cons_ne_nil _ _) rfl)))
  have h₁₂ := h₁₁.append
    (.single (.threads rfl (.watch (i := 0) (by exact List.cons_ne_nil _ _) rfl)))
  have h₁₃ := h₁₂.append (.single (.threads rfl (.effect rfl)))
  have h₁₄ := h₁₃.append (.single (.onDisconnect rfl))
  have h₁₅ := h₁₄.append (.single (.call rfl))
  have h₁₆ := h₁₅.append (.single (.threads rfl (.effect rfl)))
  have h₁₇ := h₁₆.append (.single (.message rfl
    (rfl : onMessage (.ofPayload (str "in") (str "1,70")) = .ok _)))
  obtain ⟨hthreads, hmessages⟩ := refines_threads h₁₇
  exact ⟨_, _, h₁₇, rfl, rfl, hthreads, hmessages⟩

end WBridge
