import WirelessBridge.Bridge.Delivery
import WirelessBridge.Events.Spared

/-!
# The life of the bridge object

Members are constructed in the order of their declaration and destroyed in the reverse order.
`m_mqtt_listener`, whose constructor starts the listener thread, stands before `m_device_items`, and
its destructor, which ends the thread, comes after that of `m_device_items`.
-/

namespace WBridge

open Lib HBE Mqtt Common

/-- What has been constructed of the object, and what has not been destroyed. -/
inductive Phase where
  /-- The members before the listener. -/
  | begun
  /-- The listener too. -/
  | listening
  | whole
  /-- `m_device_items` is destroyed. -/
  | stripped
  /-- The destructor of the listener waits for the thread. -/
  | joining
  | joined
  deriving DecidableEq

def Phase.hasThread : Phase → Bool
  | .listening | .whole | .stripped | .joining => true
  | _ => false

structure CWirelessBridge where
  phase : Phase
  listener : EventLoop TMqttEventVariant
  /-- The entries that the loop of `processTopicUpdate` has not come to. -/
  entries : GwtTable

def CWirelessBridge.init : CWirelessBridge := ⟨.begun, .start, []⟩

/-- What a call of `mqttEventProcessFunc` has before it. -/
def entriesAhead (table : GwtTable) : Pc TMqttEventVariant → GwtTable
  | .processing (.topicUpdate _ _) => table
  | _ => []

/-- An exception ends the loop over the entries. -/
def entriesAfter (rest : GwtTable) : Option StdException → GwtTable
  | none => rest
  | some _ => []

inductive LifeEvent where
  | startListener
  | constructItems
  | destroyItems
  | interrupt
  | join
  | send (ev : TMqttEventVariant)
  | turn (e : LoopEvent TMqttEventVariant)
  | visit (known : Str → Bool) (now : ℤ)

/-- One step of the thread that constructs and destroys the object, of a sender, or of the listener
thread. The queue belongs to the connection, so senders need not wait for the object. -/
inductive LifeStep (table : GwtTable) : CWirelessBridge → LifeEvent → CWirelessBridge → Prop where
  | startListener {s : CWirelessBridge} (h : s.phase = .begun) :
      LifeStep table s .startListener { s with phase := .listening }
  | constructItems {s : CWirelessBridge} (h : s.phase = .listening) :
      LifeStep table s .constructItems { s with phase := .whole }
  | destroyItems {s : CWirelessBridge} (h : s.phase = .whole) :
      LifeStep table s .destroyItems { s with phase := .stripped }
  | interrupt {s : CWirelessBridge} {l : EventLoop TMqttEventVariant} (h : s.phase = .stripped)
      (hl : Common.Step (processed table) s.listener .interrupt l) :
      LifeStep table s .interrupt { s with phase := .joining, listener := l }
  | join {s : CWirelessBridge} (h : s.phase = .joining) (hleft : s.listener.pc = .left) :
      LifeStep table s .join { s with phase := .joined }
  | send {s : CWirelessBridge} {ev : TMqttEventVariant} {l : EventLoop TMqttEventVariant}
      (hl : Common.Step (processed table) s.listener (.send ev) l) :
      LifeStep table s (.send ev) { s with listener := l }
  | turn {s : CWirelessBridge} {e : LoopEvent TMqttEventVariant} {l : EventLoop TMqttEventVariant}
      (hthread : s.phase.hasThread = true) (hturn : e.isTurn = true) (hdone : s.entries = [])
      (hl : Common.Step (processed table) s.listener e l) :
      LifeStep table s (.turn e) { s with listener := l, entries := entriesAhead table l.pc }
  | visit {s : CWirelessBridge} {topic msg : Str} {r : RouterDeviceItem} {rest : GwtTable}
      (known : Str → Bool) (now : ℤ) (thrown : Option StdException)
      (hthread : s.phase.hasThread = true)
      (hpc : s.listener.pc = .processing (.topicUpdate topic msg)) (hentries : s.entries = r :: rest)
      (hfault : (processDevice known topic msg now r).fault = thrown.map .exception) :
      LifeStep table s (.visit known now) { s with entries := entriesAfter rest thrown }

/-- The step looks for a device in `m_device_items`: it comes to an entry that has the topic as its
input topic. -/
def TouchesItems (p : CWirelessBridge × LifeEvent) : Prop :=
  ∃ known now topic msg r rest, p.2 = .visit known now ∧
    p.1.listener.pc = .processing (.topicUpdate topic msg) ∧ p.1.entries = r :: rest ∧
    topic = r.inputMqttTopic

/-- The event is a message on the input topic of an entry. -/
def OnInputTopic (table : GwtTable) : TMqttEventVariant → Prop
  | .online _ => False
  | .topicUpdate topic _ => ∃ r ∈ table, topic = r.inputMqttTopic

/-- `mqttEventProcessFunc` will not touch `m_device_items` any more in the call it is in. -/
def NothingAhead (s : CWirelessBridge) : Prop :=
  ∀ topic msg, s.listener.pc = .processing (.topicUpdate topic msg) →
    ∀ r ∈ s.entries, topic ≠ r.inputMqttTopic

/-- Without `m_device_items`, the listener has no message on an input topic before it. -/
structure Idle (table : GwtTable) (s : CWirelessBridge) : Prop where
  spared : Spared (OnInputTopic table) s.listener
  nothingAhead : NothingAhead s

/-- A message on an input topic comes when `m_device_items` is there, or too late for the listener
to pop it; and `m_device_items` is destroyed when the listener has no such message before it. -/
def Guarded (table : GwtTable) (p : CWirelessBridge × LifeEvent) : Prop :=
  match p.2 with
  | .send ev => p.1.phase = .whole ∨ ¬ OnInputTopic table ev ∨
      some ev ∉ ({ p.1.listener with queue := sendEvent p.1.listener.queue ev } :
        EventLoop TMqttEventVariant).reach
  | .destroyItems => Idle table p.1
  | _ => True

variable {table : GwtTable} {s s' t : CWirelessBridge} {e : LifeEvent}
  {tr : List (CWirelessBridge × LifeEvent)}

lemma guarded_of_ne (hsend : ∀ ev, e ≠ .send ev) (hdestroy : e ≠ .destroyItems) :
    Guarded table (s, e) := by
  cases e with
  | send ev => exact absurd rfl (hsend ev)
  | destroyItems => exact absurd rfl hdestroy
  | startListener | constructItems | interrupt | join | turn | visit => trivial

lemma guarded_send_of_whole {ev : TMqttEventVariant} (h : s.phase = .whole) :
    Guarded table (s, .send ev) := .inl h

lemma idle_init : Idle table CWirelessBridge.init := by
  constructor
  · exact spared_start
  · intro topic msg hpc
    cases hpc

/-- A call with a message on no input topic does not come to `m_device_items`. -/
lemma nothingAhead_of_turn {le : LoopEvent TMqttEventVariant} {l : EventLoop TMqttEventVariant}
    (hl : Common.Step (processed table) s.listener le l) (hturn : le.isTurn = true)
    (hs : Spared (OnInputTopic table) s.listener) :
    NothingAhead { s with listener := l, entries := entriesAhead table l.pc } := by
  intro topic msg hpc r hr htopic
  have hheld := hl.processing hturn hpc
  apply hs.held _ hheld
  refine ⟨r, ?_, htopic⟩
  have hpc' : l.pc = .processing (.topicUpdate topic msg) := hpc
  simpa [hpc', entriesAhead] using hr

/-- As long as nothing else is sent or destroyed, an idle listener stays so. -/
lemma LifeStep.idle_of_idle (h : LifeStep table s e s') (hguard : Guarded table (s, e))
    (hphase : s.phase ≠ .whole) (hs : Idle table s) : Idle table s' := by
  cases h with
  | startListener | constructItems | join => exact ⟨hs.spared, hs.nothingAhead⟩
  | destroyItems h => exact absurd h hphase
  | interrupt h hl =>
    constructor
    · exact hl.spared hs.spared nofun
    · intro topic msg hpc
      cases hl
      exact hs.nothingAhead topic msg hpc
  | @send ev l hl =>
    constructor
    · apply hl.spared hs.spared
      intro ev' hev' hinput
      cases hev'
      cases hl
      rcases hguard with hwhole | hnot | hreach
      · exact absurd hwhole hphase
      · exact absurd hinput hnot
      · exact hreach
    · intro topic msg hpc
      cases hl
      exact hs.nothingAhead topic msg hpc
  | @turn le l hthread hturn hdone hl =>
    constructor
    · apply hl.spared hs.spared
      intro ev hev
      rw [hev] at hturn
      cases hturn
    · exact nothingAhead_of_turn hl hturn hs.spared
  | @visit _ msg r rest known now thrown hthread hpc hentries hfault =>
    refine ⟨hs.spared, ?_⟩
    intro topic' msg' hpc' r' hr'
    apply hs.nothingAhead topic' msg' hpc' r'
    cases thrown with
    | none => exact hentries ▸ List.mem_cons_of_mem r hr'
    | some x => cases hr'

/-- Where the object is not whole, the step before has left it so, or has destroyed the items. -/
lemma LifeStep.phase (h : LifeStep table s e s') (hphase : s'.phase ≠ .whole) :
    s.phase ≠ .whole ∨ e = .destroyItems := by
  cases h with
  | startListener h | constructItems h | interrupt h hl | join h hleft =>
    left
    rw [h]
    nofun
  | destroyItems h => exact .inr rfl
  | send | turn | visit => exact .inl hphase

lemma LifeStep.idle (h : LifeStep table s e s') (hguard : Guarded table (s, e))
    (hs : s.phase ≠ .whole → Idle table s) (hphase : s'.phase ≠ .whole) : Idle table s' := by
  rcases h.phase hphase with hold | rfl
  · exact h.idle_of_idle hguard hold (hs hold)
  · cases h
    exact ⟨hguard.spared, hguard.nothingAhead⟩

/-- If every step is guarded, `mqttEventProcessFunc` touches `m_device_items` only between its
construction and its destruction. -/
theorem whole_when_touched (hrun : Run (LifeStep table) .init tr s)
    (hguard : ∀ p ∈ tr, Guarded table p) : ∀ p ∈ tr, TouchesItems p → p.1.phase = .whole := by
  intro p hp htouch
  obtain ⟨before, after, rfl⟩ := List.append_of_mem hp
  obtain ⟨hbefore, -⟩ := hrun.split_at
  have hidle : p.1.phase ≠ .whole → Idle table p.1 := by
    apply hbefore.preserves (P := fun s => s.phase ≠ .whole → Idle table s)
    · intro a e b hmem ha hstep
      exact hstep.idle (hguard _ (List.mem_append_left _ hmem)) ha
    · intro _
      exact idle_init
  by_contra hphase
  obtain ⟨known, now, topic, msg, r, rest, -, hpc, hentries, htopic⟩ := htouch
  apply (hidle hphase).nothingAhead topic msg hpc r _ htopic
  rw [hentries]
  exact List.mem_cons_self

/-! ### A message in time, and one too late -/

def doorbell : RouterDeviceItem := ⟨str "doorbell", str "ring", [], str "status", 5, 3, [], []⟩

/-- A message that comes when the object is whole, and is handled at once. -/
theorem whole_when_touched_ring :
    ∃ tr s, Run (LifeStep [doorbell]) .init tr s ∧ (∃ p ∈ tr, TouchesItems p) ∧
      ∀ p ∈ tr, TouchesItems p → p.1.phase = .whole := by
  have h₁ := Run.single (.startListener rfl : LifeStep [doorbell] .init _ _)
  have h₂ := h₁.append (.single (.constructItems rfl))
  have h₃ := h₂.append (.single (.send (.send _ (.topicUpdate (str "ring") (str "1")))))
  have h₄ := h₃.append (.single (.turn rfl rfl rfl (.test rfl)))
  have h₅ := h₄.append (.single (.turn rfl rfl rfl (.lockHolder rfl)))
  have h₆ := h₅.append (.single (.turn rfl rfl rfl (.consume rfl (by exact List.cons_ne_nil _ _))))
  have h₇ := h₆.append (.single (.turn rfl rfl rfl (.dispatch rfl)))
  have h₈ := h₇.append (.single (.visit (fun _ => true) 0 none rfl rfl rfl (by decide)))
  refine ⟨_, _, h₈, ?_, whole_when_touched h₈ ?_⟩
  · refine ⟨_, List.mem_append_right _ (List.mem_singleton_self _), ?_⟩
    exact ⟨_, _, _, _, _, _, rfl, rfl, rfl, rfl⟩
  · simp only [List.cons_append, List.nil_append, List.forall_mem_cons]
    refine ⟨guarded_of_ne nofun nofun, guarded_of_ne nofun nofun, guarded_send_of_whole rfl,
      guarded_of_ne nofun nofun, guarded_of_ne nofun nofun, guarded_of_ne nofun nofun,
      guarded_of_ne nofun nofun, guarded_of_ne nofun nofun, List.forall_mem_nil _⟩

/-- A message that the listener has popped when the destructor begins. -/
theorem not_whole_when_touched :
    ¬ ∀ (table : GwtTable) (tr : List (CWirelessBridge × LifeEvent)) (s : CWirelessBridge),
        Run (LifeStep table) .init tr s → ∀ p ∈ tr, TouchesItems p → p.1.phase = .whole := by
  intro hclaim
  have h₁ := Run.single (.startListener rfl : LifeStep [doorbell] .init _ _)
  have h₂ := h₁.append (.single (.constructItems rfl))
  have h₃ := h₂.append (.single (.send (.send _ (.topicUpdate (str "ring") (str "1")))))
  have h₄ := h₃.append (.single (.turn rfl rfl rfl (.test rfl)))
  have h₅ := h₄.append (.single (.turn rfl rfl rfl (.lockHolder rfl)))
  have h₆ := h₅.append (.single (.turn rfl rfl rfl (.consume rfl (by exact List.cons_ne_nil _ _))))
  have h₇ := h₆.append (.single (.destroyItems rfl))
  have h₈ := h₇.append (.single (.turn rfl rfl rfl (.dispatch rfl)))
  have h₉ := h₈.append (.single (.visit (fun _ => true) 0 none rfl rfl rfl (by decide)))
  have hwhole := hclaim _ _ _ h₉ _ (List.mem_append_right _ (List.mem_singleton_self _))
    ⟨_, _, _, _, _, _, rfl, rfl, rfl, rfl⟩
  cases hwhole

end WBridge
