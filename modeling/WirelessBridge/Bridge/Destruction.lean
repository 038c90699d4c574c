import WirelessBridge.Bridge.Lifetime
import WirelessBridge.Bridge.Payload

/-!
# The way out of the destructor

The destructor of the listener sets the flag and waits for the thread. The thread tests the flag in
its loop only, and may be on its way to a pop when the flag is set. It is at the loop again after
one call of `mqttEventProcessFunc` at most, however many events are in the queue. By then
`m_device_items` is destroyed, and for a message on an input topic there is nothing to say.
-/

namespace Common

open Lib

variable {E : Type*} {outcome : E → Option StdException → Prop} {s t : EventLoop E}
  {e : LoopEvent E}

/-- The steps of an interrupted listener out of its loop, at most. -/
def Pc.behind : Pc E → ℕ
  | .left => 0
  | .test => 1
  | .processing _ => 2
  | .received _ => 3
  | .waiting => 4
  | .consume => 5
  | .lockHolder => 6

/-- The listener may call the function once more before it tests its flag. -/
def Pc.callsFirst : Pc E → Bool
  | .lockHolder | .consume | .waiting | .received _ => true
  | .test | .processing _ | .left => false

lemma Pc.behind_le (pc : Pc E) : pc.behind ≤ 6 := by
  cases pc <;> simp [Pc.behind]

lemma Step.interrupted (h : Step outcome s e t) (hint : s.interrupted = true) :
    t.interrupted = true := by
  cases h with
  | interrupt => rfl
  | _ => exact hint

lemma Step.behind (h : Step outcome s e t) (hturn : e.isTurn = true)
    (hint : s.interrupted = true) : t.pc.behind < s.pc.behind := by
  cases h with
  | send | interrupt | releaseHolder => cases hturn
  | test hpc => simp [hpc, hint, Pc.behind]
  | lockHolder hpc => cases hholder : s.holder <;> simp [hpc, Pc.behind]
  | consume hpc _ | wait hpc _ | wake _ hpc _ => simp [hpc, Pc.behind]
  | @dispatch ev hpc => cases ev <;> simp [hpc, branch, Pc.behind]
  | @«return» ev r hpc hr => cases r <;> simp [hpc, resume, Pc.behind]

/-- A call of the function uses up the one that may still come. -/
lemma Step.calls (h : Step outcome s e t) (hint : s.interrupted = true) :
    (called s t).length + (if t.pc.callsFirst then 1 else 0)
      ≤ if s.pc.callsFirst then 1 else 0 := by
  cases h with
  | send | interrupt | releaseHolder => simp [called_of_pc_eq]
  | test hpc => simp [called, hpc, hint, Pc.callsFirst]
  | lockHolder hpc => cases hholder : s.holder <;> simp [called, hpc, Pc.callsFirst]
  | consume hpc _ | wait hpc _ | wake _ hpc _ => simp [called, hpc, Pc.callsFirst]
  | @dispatch ev hpc => cases ev <;> simp [called, hpc, branch, Pc.callsFirst]
  | @«return» ev r hpc hr => cases r <;> simp [called, hpc, resume, Pc.callsFirst]

/-- The thread is inside the function since before the step, or called it there. -/
lemma Step.mem_called {ev : E} (h : Step outcome s e t) (hpc : t.pc = .processing ev) :
    s.pc = .processing ev ∨ ev ∈ called s t := by
  cases h with
  | send | interrupt | releaseHolder => exact .inl hpc
  | test | lockHolder =>
    simp only at hpc
    split_ifs at hpc
  | consume | wait | wake => cases hpc
  | @dispatch got hgot =>
    cases got with
    | none => cases hpc
    | some ev' =>
      obtain rfl := Pc.processing.inj hpc
      right
      simp [called, hgot, branch]
  | @«return» ev r hpc' hr => cases r <;> cases hpc

/-- Short of the end of its loop the listener can go on, if the function can return. -/
lemma exists_loopTurn (hreturns : ∀ ev, s.pc = .processing ev → ∃ r, outcome ev r)
    (hpc : s.pc ≠ .left) : ∃ e t, e.isTurn = true ∧ Step outcome s e t := by
  cases h : s.pc with
  | test => exact ⟨.test, _, rfl, .test h⟩
  | lockHolder => exact ⟨.lockHolder, _, rfl, .lockHolder h⟩
  | consume =>
    by_cases hempty : s.queue.content = []
    · exact ⟨.consume, _, rfl, .wait h hempty⟩
    · exact ⟨.consume, _, rfl, .consume h hempty⟩
  | waiting => exact ⟨.wake true, _, rfl, .wake true h (.inl rfl)⟩
  | received ev => exact ⟨.dispatch, _, rfl, .dispatch h⟩
  | processing ev =>
    obtain ⟨r, hr⟩ := hreturns ev h
    exact ⟨.return r, _, rfl, .return h hr⟩
  | left => exact absurd h hpc

end Common

namespace WBridge

open Lib Mqtt Common

/-- What `mqttEventProcessFunc` is called with in a run to `t`. -/
def lifeCalls (tr : List (CWirelessBridge × LifeEvent)) (t : CWirelessBridge) :
    List TMqttEventVariant :=
  transitions (fun a b => called a.listener b.listener) (tr.map (·.1)) t

/-- The step is one of the destructor or of the listener thread. -/
def LifeEvent.isOwn : LifeEvent → Bool
  | .send _ => false
  | _ => true

/-- The steps of the destructor and of the thread it waits for, at most. -/
def CWirelessBridge.ahead (table : GwtTable) (s : CWirelessBridge) : ℕ :=
  s.listener.pc.behind + s.entries.length +
    (if s.listener.pc.callsFirst then table.length else 0) + if s.phase = .joined then 0 else 1

def Phase.waits : Phase → Bool
  | .joining | .joined => true
  | _ => false

/-- A destructor that waits has set the flag, and entries are before the thread in a call only. -/
structure InCall (table : GwtTable) (s : CWirelessBridge) : Prop where
  interrupted : s.phase.waits = true → s.listener.interrupted = true
  suffix : s.entries <:+ table
  calling : s.entries ≠ [] → ∃ topic msg, s.listener.pc = .processing (.topicUpdate topic msg)

variable {table : GwtTable} {s s' t : CWirelessBridge} {e : LifeEvent}
  {tr tr' : List (CWirelessBridge × LifeEvent)} {known : Str → Bool} {topic msg : Str} {now : ℤ}

lemma entriesAfter_suffix (rest : GwtTable) (thrown : Option StdException) :
    entriesAfter rest thrown <:+ rest := by
  cases thrown with
  | none => exact List.suffix_refl _
  | some x => exact List.nil_suffix

lemma entriesAhead_cases (table : GwtTable) (pc : Pc TMqttEventVariant) :
    entriesAhead table pc = [] ∨
      entriesAhead table pc = table ∧ ∃ topic msg, pc = .processing (.topicUpdate topic msg) := by
  unfold entriesAhead
  split
  · exact .inr ⟨rfl, _, _, rfl⟩
  · exact .inl rfl

lemma LifeStep.inCall (h : LifeStep table s e s') (hs : InCall table s) : InCall table s' := by
  cases h with
  | startListener | constructItems | destroyItems => exact ⟨nofun, hs.suffix, hs.calling⟩
  | interrupt h hl =>
    cases hl
    exact ⟨fun _ => rfl, hs.suffix, hs.calling⟩
  | join h hleft => exact ⟨fun _ => hs.interrupted (by rw [h]; rfl), hs.suffix, hs.calling⟩
  | send hl =>
    cases hl
    exact ⟨hs.interrupted, hs.suffix, hs.calling⟩
  | @turn le l hthread hturn hdone hl =>
    refine ⟨fun hwaits => hl.interrupted (hs.interrupted hwaits), ?_, ?_⟩
    · rcases entriesAhead_cases table l.pc with hnone | ⟨hall, -⟩
      · rw [hnone]
        exact List.nil_suffix
      · exact ⟨[], by rw [hall, List.nil_append]⟩
    · intro hne
      rcases entriesAhead_cases table l.pc with hnone | ⟨-, hpc⟩
      · exact absurd hnone hne
      · exact hpc
  | @visit _ _ r rest known now thrown hthread hpc hentries hfault =>
    refine ⟨hs.interrupted, ?_, fun _ => ⟨_, _, hpc⟩⟩
    have hrest : rest <:+ table := (List.suffix_cons r rest).trans (hentries ▸ hs.suffix)
    exact (entriesAfter_suffix rest thrown).trans hrest

/-! ### One step of a destructor that waits -/

lemma LifeStep.waits (h : LifeStep table s e s') (hs : s.phase.waits = true) :
    s'.phase.waits = true := by
  cases h with
  | startListener h | constructItems h | destroyItems h | interrupt h =>
    rw [h] at hs
    cases hs
  | join => rfl
  | send | turn | visit => exact hs

/-- A turn goes on to a call with all entries only where a call was still to come. -/
lemma ahead_of_turn {l l' : EventLoop TMqttEventVariant} {le : LoopEvent TMqttEventVariant}
    (hl : Common.Step (processed table) l le l') (hint : l.interrupted = true)
    (hturn : le.isTurn = true) :
    (entriesAhead table l'.pc).length + (if l'.pc.callsFirst then table.length else 0)
      ≤ if l.pc.callsFirst then table.length else 0 := by
  cases hl with
  | send | interrupt | releaseHolder => cases hturn
  | test hpc => simp [hpc, hint, Pc.callsFirst, entriesAhead]
  | lockHolder hpc => cases hholder : l.holder <;> simp [hpc, Pc.callsFirst, entriesAhead]
  | consume hpc _ | wait hpc _ | wake _ hpc _ => simp [hpc, Pc.callsFirst, entriesAhead]
  | @dispatch ev hpc =>
    cases ev with
    | none => simp [hpc, branch, Pc.callsFirst, entriesAhead]
    | some ev => cases ev <;> simp [hpc, branch, Pc.callsFirst, entriesAhead]
  | @«return» ev r hpc hr => cases r <;> simp [hpc, resume, Pc.callsFirst, entriesAhead]

lemma LifeStep.ahead (h : LifeStep table s e s') (hs : InCall table s)
    (hwaits : s.phase.waits = true) :
    s'.ahead table + (if e.isOwn then 1 else 0) ≤ s.ahead table := by
  cases h with
  | startListener h | constructItems h | destroyItems h | interrupt h =>
    rw [h] at hwaits
    cases hwaits
  | join h hleft => simp [CWirelessBridge.ahead, h, LifeEvent.isOwn]
  | send hl =>
    cases hl
    exact le_rfl
  | @turn le l hthread hturn hdone hl =>
    have hint := hs.interrupted hwaits
    have hbehind := hl.behind hturn hint
    have hcall := ahead_of_turn hl hint hturn
    simp only [CWirelessBridge.ahead, hdone, List.length_nil, LifeEvent.isOwn, if_true]
    omega
  | @visit _ _ r rest known now thrown hthread hpc hentries hfault =>
    have hafter := (entriesAfter_suffix rest thrown).length_le
    simp only [CWirelessBridge.ahead, hentries, List.length_cons, LifeEvent.isOwn, if_true]
    omega

/-- The step leaves the listener alone, or is one of its loop or for it. -/
lemma LifeStep.listener_cases (h : LifeStep table s e s') :
    s'.listener = s.listener ∨ ∃ le, Common.Step (processed table) s.listener le s'.listener := by
  cases h with
  | startListener | constructItems | destroyItems | join | visit => exact .inl rfl
  | interrupt _ hl | send hl | turn _ _ _ hl => exact .inr ⟨_, hl⟩

lemma LifeStep.calls (h : LifeStep table s e s') (hs : InCall table s)
    (hwaits : s.phase.waits = true) :
    (called s.listener s'.listener).length + (if s'.listener.pc.callsFirst then 1 else 0)
      ≤ if s.listener.pc.callsFirst then 1 else 0 := by
  rcases h.listener_cases with hsame | ⟨le, hl⟩
  · rw [hsame, called_of_pc_eq rfl, List.length_nil, Nat.zero_add]
  · exact hl.calls (hs.interrupted hwaits)

/-! ### The end of the call and of the thread -/

/-- A message on no input topic is handled without a look at `m_device_items`. -/
lemma fault_processDevice_of_ne {r : RouterDeviceItem} (h : topic ≠ r.inputMqttTopic) :
    (processDevice known topic msg now r).fault = none := by
  rw [processDevice, if_neg h]
  exact updateOutputs_fault r topic msg r.outputMapping

lemma processed_of_not_onInputTopic {ev : TMqttEventVariant} (h : ¬ OnInputTopic table ev) :
    processed table ev none := by
  refine ⟨fun _ => false, fun _ => 0, ?_⟩
  cases ev with
  | online b => rfl
  | topicUpdate topic msg =>
    have hnone : ∀ (rest : GwtTable) (clk : ℕ → ℤ), rest <:+ table →
        (processTopicUpdate (fun _ => false) topic msg rest clk).fault = none := by
      intro rest
      induction rest with
      | nil => exact fun _ _ => rfl
      | cons r rest ih =>
        intro clk hsuffix
        have hne : topic ≠ r.inputMqttTopic :=
          fun heq => h ⟨r, hsuffix.subset List.mem_cons_self, heq⟩
        exact Performed.fault_andThen_eq_none.mpr
          ⟨fault_processDevice_of_ne hne, ih _ ((List.suffix_cons r rest).trans hsuffix)⟩
    simp only [mqttEventProcessFunc, catchAndReport, hnone table _ (List.suffix_refl _)]
    rfl

/-- A destructor that waits, or the thread it waits for, can go on. -/
lemma exists_own (hs : InCall table s) (hphase : s.phase = .joining)
    (hcurrent : ∀ ev, s.listener.pc = .processing ev → ¬ OnInputTopic table ev) :
    ∃ e t, e.isOwn = true ∧ ¬ TouchesItems (s, e) ∧ LifeStep table s e t := by
  have hthread : s.phase.hasThread = true := by rw [hphase]; rfl
  by_cases hleft : s.listener.pc = .left
  · exact ⟨.join, _, rfl, nofun, .join hphase hleft⟩
  · cases hentries : s.entries with
    | nil =>
      obtain ⟨le, l, hturn, hl⟩ :=
        exists_loopTurn (fun ev hev => ⟨none, processed_of_not_onInputTopic (hcurrent ev hev)⟩) hleft
      exact ⟨.turn le, _, rfl, nofun, .turn hthread hturn hentries hl⟩
    | cons r rest =>
      obtain ⟨topic, msg, hpc⟩ := hs.calling (by simp [hentries])
      have hmem : r ∈ table := hs.suffix.subset (hentries ▸ List.mem_cons_self)
      have hne : topic ≠ r.inputMqttTopic := fun heq => hcurrent _ hpc ⟨r, hmem, heq⟩
      refine ⟨.visit (fun _ => false) 0, _, rfl, ?_,
        .visit _ 0 none hthread hpc hentries (fault_processDevice_of_ne hne)⟩
      rintro ⟨-, -, topic', msg', r', rest', -, hpc', hentries', htopic⟩
      obtain ⟨rfl, rfl⟩ := TMqttEventVariant.topicUpdate.inj
        (Pc.processing.inj (hpc.symm.trans hpc'))
      obtain ⟨rfl, rfl⟩ := List.cons.inj (hentries.symm.trans hentries')
      exact hne htopic

/-! ### Runs -/

lemma InCall.ahead_le (hs : InCall table s) : s.ahead table ≤ table.length + 7 := by
  have hbehind := s.listener.pc.behind_le
  have hlength := hs.suffix.length_le
  rw [CWirelessBridge.ahead]
  by_cases hentries : s.entries = []
  · rw [hentries, List.length_nil]
    split_ifs <;> omega
  · obtain ⟨topic, msg, hpc⟩ := hs.calling hentries
    have htwo : s.listener.pc.behind = 2 := by rw [hpc]; rfl
    have hnone : (if s.listener.pc.callsFirst then table.length else 0) = 0 := by
      rw [hpc]
      rfl
    rw [htwo, hnone]
    split_ifs <;> omega

/-- What is being handled was so when the run began, or has been given since. -/
lemma processing_of_run (hrun : Run (LifeStep table) s tr t) {ev : TMqttEventVariant}
    (hpc : t.listener.pc = .processing ev) :
    s.listener.pc = .processing ev ∨ ev ∈ lifeCalls tr t := by
  have hhistory : ∀ ev, t.listener.pc = .processing ev →
      s.listener.pc = .processing ev ∨ ev ∈ [] ++ lifeCalls tr t := by
    apply hrun.history (Q := fun g a => ∀ ev, a.listener.pc = .processing ev →
      s.listener.pc = .processing ev ∨ ev ∈ g)
    · intro g a e b hstep ha ev hev
      rcases hstep.listener_cases with hsame | ⟨le, hl⟩
      · rw [hsame] at hev
        exact (ha ev hev).imp_right (List.mem_append_left _)
      · rcases hl.mem_called hev with hold | hnew
        · exact (ha ev hold).imp_right (List.mem_append_left _)
        · exact .inr (List.mem_append_right _ hnew)
    · exact fun _ hev => .inl hev
  exact hhistory ev hpc

/-- From the interrupt on the destructor returns, if no message on an input topic is handled any
more: it and the listener thread take seven steps and one for each entry of the table at most, one
event at most is given to `mqttEventProcessFunc`, whatever is in the queue or still sent, and until
the thread is joined one of the two can go on without a look at `m_device_items`. -/
theorem destructor_returns (hrun : Run (LifeStep table) .init tr s) (hphase : s.phase = .joining)
    (hnext : Run (LifeStep table) s tr' t)
    (hcurrent : ∀ ev, s.listener.pc = .processing ev → ¬ OnInputTopic table ev)
    (hhandled : ∀ ev ∈ lifeCalls tr' t, ¬ OnInputTopic table ev) :
    tr'.countP (fun p => p.2.isOwn) ≤ table.length + 7 ∧
    (lifeCalls tr' t).length ≤ 1 ∧
    (t.phase = .joined ∨
      ∃ e u, e.isOwn = true ∧ ¬ TouchesItems (t, e) ∧ LifeStep table t e u) := by
  have hs : InCall table s :=
    hrun.invariant LifeStep.inCall ⟨nofun, List.nil_suffix, fun hne => absurd rfl hne⟩
  have hwaits : s.phase.waits = true := by rw [hphase]; rfl
  have hkept : ∀ {a e b}, LifeStep table a e b →
      InCall table a ∧ a.phase.waits = true → InCall table b ∧ b.phase.waits = true :=
    fun hstep ha => ⟨hstep.inCall ha.1, hstep.waits ha.2⟩
  refine ⟨?_, ?_, ?_⟩
  · have hsteps := hnext.countP_add_le hkept (fun hstep ha => hstep.ahead ha.1 ha.2) ⟨hs, hwaits⟩
    have hahead := hs.ahead_le
    omega
  · have hcalls : (InCall table t ∧ t.phase.waits = true) ∧
        ([] ++ lifeCalls tr' t).length + (if t.listener.pc.callsFirst then 1 else 0)
          ≤ if s.listener.pc.callsFirst then 1 else 0 := by
      apply hnext.history (Q := fun g a => (InCall table a ∧ a.phase.waits = true) ∧
        g.length + (if a.listener.pc.callsFirst then 1 else 0)
          ≤ if s.listener.pc.callsFirst then 1 else 0)
      · rintro g a e b hstep ⟨ha, hg⟩
        have hstep' := hstep.calls ha.1 ha.2
        refine ⟨hkept hstep ha, ?_⟩
        rw [List.length_append]
        omega
      · exact ⟨⟨hs, hwaits⟩, by simp⟩
    have hlength := hcalls.2
    have hone : (if s.listener.pc.callsFirst then 1 else 0) ≤ 1 := by split_ifs <;> simp
    rw [List.nil_append] at hlength
    omega
  · have ht := hnext.invariant hkept ⟨hs, hwaits⟩
    have hnow : ∀ ev, t.listener.pc = .processing ev → ¬ OnInputTopic table ev := by
      intro ev hev
      rcases processing_of_run hnext hev with hold | hnew
      · exact hcurrent ev hold
      · exact hhandled ev hnew
    cases hjoined : t.phase with
    | joined => exact .inl rfl
    | joining => exact .inr (exists_own ht.1 hjoined hnow)
    | begun | listening | whole | stripped =>
      have hno := ht.2
      rw [hjoined] at hno
      cases hno

/-- The interrupt comes when the listener is on its way to the pop: it gives the message for the
lamp that it finds there, and leaves the other event. -/
theorem destructor_returns_lamp :
    ∃ tr tr' s t, Run (LifeStep [lamp]) .init tr s ∧ s.phase = .joining ∧
      Run (LifeStep [lamp]) s tr' t ∧ t.phase = .joined ∧
      lifeCalls tr' t = [.topicUpdate (str "room/lamp") (str "on")] ∧
      tr'.countP (fun p => p.2.isOwn) = 8 ∧ 8 ≤ [lamp].length + 7 := by
  have h₁ := Run.single (.startListener rfl : LifeStep [lamp] .init _ _)
  have h₂ := h₁.append (.single (.constructItems rfl))
  have h₃ := h₂.append (.single (.turn rfl rfl rfl (.test rfl)))
  have h₄ := h₃.append (.single (.destroyItems rfl))
  have h₅ := h₄.append (.single (.interrupt rfl (.interrupt _)))
  let s : CWirelessBridge := ⟨.joining, ⟨.empty, true, true, .lockHolder⟩, []⟩
  have k₁ : Run (LifeStep [lamp]) s _ _ := .single (.turn rfl rfl rfl (.lockHolder rfl))
  have k₂ := k₁.append (.single (.turn rfl rfl rfl (.wait rfl rfl)))
  have k₃ := k₂.append (.single (.send (.send _ (.topicUpdate (str "room/lamp") (str "on")))))
  have k₄ := k₃.append (.single (.send (.send _ (.online false))))
  have k₅ := k₄.append
    (.single (.turn rfl rfl rfl (.wake false rfl (.inr (by exact List.cons_ne_nil _ _)))))
  have k₆ := k₅.append (.single (.turn rfl rfl rfl (.dispatch rfl)))
  have k₇ := k₆.append (.single (.visit (fun _ => false) 0 none rfl rfl rfl (by decide)))
  have k₈ := k₇.append (.single (.turn rfl rfl rfl
    (.return (r := none) rfl ⟨fun _ => false, fun _ => 0, by decide⟩)))
  have k₉ := k₈.append (.single (.turn rfl rfl rfl (.test rfl)))
  have k := k₉.append (.single (.join rfl rfl))
  have hlamp : ∀ ev ∈ [TMqttEventVariant.topicUpdate (str "room/lamp") (str "on")],
      ¬ OnInputTopic [lamp] ev := by
    intro ev hev
    obtain rfl := List.mem_singleton.mp hev
    rintro ⟨r, hr, htopic⟩
    obtain rfl := List.mem_singleton.mp hr
    exact absurd htopic (by decide)
  obtain ⟨hsteps, -, -⟩ := destructor_returns h₅ rfl k (fun _ => nofun) hlamp
  exact ⟨_, _, s, _, h₅, rfl, k, rfl, rfl, rfl, hsteps⟩

end WBridge
