import WirelessBridge.Events.Listener

/-!
# What the listener will not come to

A listener that is interrupted may be on its way to a pop, which it still makes. Whatever it does
not pop then stays in the queue.
-/

namespace Common

open Lib

variable {E : Type*}

/-- From here the listener pops before it tests its flag again. -/
def Pc.popsFirst : Pc E → Bool
  | .lockHolder | .consume | .waiting => true
  | _ => false

/-- What the listener may still pop of the queue as it is. -/
def EventLoop.reach (l : EventLoop E) : List (Option E) :=
  if l.interrupted then
    if l.pc.popsFirst then l.queue.content.take 1 else []
  else l.queue.content

/-- The listener has not popped an event of this kind, and will not. -/
structure Spared (P : E → Prop) (l : EventLoop E) : Prop where
  held : ∀ ev ∈ l.pc.held, ¬ P ev
  reach : ∀ ev, some ev ∈ l.reach → ¬ P ev

variable {P : E → Prop} {outcome : E → Option StdException → Prop} {l l' : EventLoop E}
  {e : LoopEvent E} {ev : E}

lemma spared_start : Spared P (EventLoop.start : EventLoop E) :=
  ⟨fun _ hmem => absurd hmem List.not_mem_nil, fun _ hmem => absurd hmem List.not_mem_nil⟩

/-- A send extends the reach by its own event at most. -/
lemma mem_reach_of_send {x : Option E}
    (h : x ∈ ({ l with queue := sendEvent l.queue ev } : EventLoop E).reach) :
    x ∈ l.reach ∨ x = some ev := by
  simp only [EventLoop.reach, sendEvent, Fifo.push_content] at h ⊢
  split_ifs at h ⊢
  · cases hcontent : l.queue.content with
    | nil =>
      rw [hcontent] at h
      exact .inr (List.mem_singleton.mp h)
    | cons y rest =>
      rw [hcontent] at h
      exact .inl h
  · cases h
  · exact (List.mem_append.mp h).imp_right List.mem_singleton.mp

lemma reach_pop_subset (got : Option E) :
    ({ l with queue := (consumeEvent l.queue).2, pc := .received got } : EventLoop E).reach
      ⊆ l.reach := by
  cases hint : l.interrupted with
  | true => simp [EventLoop.reach, hint, Pc.popsFirst]
  | false =>
    simp only [EventLoop.reach, hint, Bool.false_eq_true, if_false]
    exact (List.tail_sublist _).subset

/-- Everything but a send lets the reach shrink. -/
lemma Step.reach_subset (h : Step outcome l e l') (hsend : e.sent? = none) :
    l'.reach ⊆ l.reach := by
  cases h with
  | send => cases hsend
  | interrupt =>
    simp only [EventLoop.reach, if_true]
    split_ifs with hpops hint
    · exact List.Subset.refl _
    · exact List.take_subset 1 _
    · exact List.nil_subset _
    · exact List.nil_subset _
  | releaseHolder => exact List.Subset.refl _
  | test hpc =>
    cases hint : l.interrupted with
    | true => simp [EventLoop.reach, hint, Pc.popsFirst]
    | false => simp [EventLoop.reach, hint]
  | lockHolder hpc =>
    cases hint : l.interrupted with
    | true => cases l.holder <;> simp [EventLoop.reach, hint, Pc.popsFirst, hpc]
    | false => simp [EventLoop.reach, hint]
  | consume hpc hready => exact reach_pop_subset _
  | wait hpc hempty => simp [EventLoop.reach, Pc.popsFirst, hpc]
  | wake timedOut hpc hawake => exact reach_pop_subset _
  | @dispatch ev hpc =>
    cases ev <;> simp [EventLoop.reach, Pc.popsFirst, hpc, branch]
  | @«return» ev r hpc hr => cases r <;> simp [EventLoop.reach, Pc.popsFirst, hpc, resume]

/-- What a pop brings was in reach. -/
lemma held_of_pop (hpc : l.pc.popsFirst = true) (hmem : ev ∈ (consumeEvent l.queue).1.toList) :
    some ev ∈ l.reach := by
  have hfront : l.queue.front? = some (some ev) := by
    cases hfront : l.queue.front? with
    | none => simp [consumeEvent, popInto, hfront] at hmem
    | some x =>
      simp only [consumeEvent, popInto, hfront, Option.getD_some, Option.mem_toList] at hmem
      rw [hmem]
  have hmem : some ev ∈ l.queue.content.take 1 := by
    rw [List.take_one]
    exact Option.mem_toList.mpr hfront
  simp only [EventLoop.reach, hpc, if_true]
  split_ifs
  · exact hmem
  · exact List.mem_of_mem_take hmem

lemma Step.held (h : Step outcome l e l') (hmem : ev ∈ l'.pc.held) :
    ev ∈ l.pc.held ∨ some ev ∈ l.reach := by
  cases h with
  | send | interrupt | releaseHolder => exact .inl hmem
  | test hpc =>
    simp only at hmem
    split_ifs at hmem <;> cases hmem
  | lockHolder hpc =>
    simp only at hmem
    split_ifs at hmem <;> cases hmem
  | consume hpc hready => exact .inr (held_of_pop (by simp [hpc, Pc.popsFirst]) hmem)
  | wait hpc hempty => cases hmem
  | wake timedOut hpc hawake => exact .inr (held_of_pop (by simp [hpc, Pc.popsFirst]) hmem)
  | @dispatch ev hpc => cases ev <;> cases hmem
  | @«return» ev r hpc hr => cases r <;> cases hmem

/-- A step spares the listener an event unless it sends one within its reach. -/
lemma Step.spared (h : Step outcome l e l') (hl : Spared P l)
    (hsent : ∀ ev, e = .send ev → P ev → some ev ∉ l'.reach) : Spared P l' := by
  constructor
  · intro ev hmem
    rcases h.held hmem with hheld | hreach
    · exact hl.held ev hheld
    · exact hl.reach ev hreach
  · intro ev hmem hP
    cases he : e.sent? with
    | none => exact hl.reach ev (h.reach_subset he hmem) hP
    | some ev' =>
      cases h with
      | send =>
        obtain rfl := Option.some.inj he
        rcases mem_reach_of_send hmem with hold | hnew
        · exact hl.reach ev hold hP
        · obtain rfl := Option.some.inj hnew
          exact hsent ev rfl hP hmem
      | _ => cases he

/-- The function is only called with an event that was held. -/
lemma Step.processing (h : Step outcome l e l') (hturn : e.isTurn = true)
    (hpc : l'.pc = .processing ev) : ev ∈ l.pc.held := by
  cases h with
  | send | interrupt | releaseHolder => cases hturn
  | test | lockHolder =>
    simp only at hpc
    split_ifs at hpc
  | consume | wait | wake => cases hpc
  | @dispatch got hgot =>
    rw [hgot]
    cases got with
    | none => cases hpc
    | some ev' =>
      obtain rfl := Pc.processing.inj hpc
      exact List.mem_singleton_self _
  | @«return» ev r hpc' hr => cases r <;> cases hpc

end Common
