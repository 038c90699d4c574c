import Mathlib.Algebra.Order.BigOperators.Group.Finset
import Mathlib.Data.Fintype.BigOperators
import WirelessBridge.Lib.Run

/-!
# Locks that are taken in order

Threads call routines that take and release locks, and access what the threads share. If every
routine takes its locks in increasing order, then no thread waits for ever, in whatever order the
threads take their steps. If every routine holds the lock that guards what it accesses, then no two
threads come to such an access at the same time. What an interrupt does is put a routine of its own
in front of what the thread was doing, and that routine may meet a lock which the thread itself
holds.
-/

namespace Lib

inductive LockOp (L V : Type*) where
  | acquire (l : L)
  | release (l : L)
  | access (v : V)
  deriving DecidableEq

/-- The locks a thread holds, the last one taken first, and what it has still to do. -/
structure LockThread (L V : Type*) where
  held : List L
  todo : List (LockOp L V)

abbrev LockState (ι L V : Type*) := ι → LockThread L V

inductive LockEvent (ι L V : Type*) where
  | call (i : ι) (p : List (LockOp L V))
  | op (i : ι)
  | interrupt (i : ι)

variable {ι L V : Type*} {guard : V → Option L} {held : List L} {p q : List (LockOp L V)} {l : L}

/-- With these locks held, only locks above all of them are taken, what a lock guards is accessed
when it is held, and all locks are released again, the last one taken first. -/
inductive Disciplined [LT L] (guard : V → Option L) : List L → List (LockOp L V) → Prop where
  | nil : Disciplined guard [] []
  | acquire {held : List L} {l : L} {p : List (LockOp L V)} (hbelow : ∀ m ∈ held, m < l)
      (hp : Disciplined guard (l :: held) p) : Disciplined guard held (.acquire l :: p)
  | release {held : List L} {l : L} {p : List (LockOp L V)} (hp : Disciplined guard held p) :
      Disciplined guard (l :: held) (.release l :: p)
  | access {held : List L} {v : V} {p : List (LockOp L V)} (hguard : ∀ l ∈ guard v, l ∈ held)
      (hp : Disciplined guard held p) : Disciplined guard held (.access v :: p)

lemma Disciplined.held_eq_nil [LT L] (h : Disciplined guard held ([] : List (LockOp L V))) :
    held = [] := by
  cases h
  rfl

lemma Disciplined.of_acquire [LT L] (h : Disciplined guard held (.acquire l :: p)) :
    (∀ m ∈ held, m < l) ∧ Disciplined guard (l :: held) p := by
  cases h with
  | acquire hbelow hp => exact ⟨hbelow, hp⟩

lemma Disciplined.of_release [LT L] [DecidableEq L] (h : Disciplined guard held (.release l :: p)) :
    Disciplined guard (held.erase l) p := by
  cases h with
  | release hp => rwa [List.erase_cons_head]

lemma Disciplined.of_access [LT L] {v : V} (h : Disciplined guard held (.access v :: p)) :
    (∀ l ∈ guard v, l ∈ held) ∧ Disciplined guard held p := by
  cases h with
  | access hguard hp => exact ⟨hguard, hp⟩

/-! ### Parts of routines -/

/-- A part of a routine that keeps the discipline and gives back the locks it takes. -/
def Balanced [LT L] (guard : V → Option L) (held : List L) (q : List (LockOp L V)) : Prop :=
  ∀ p, Disciplined guard held p → Disciplined guard held (q ++ p)

section

variable [LT L]

lemma balanced_nil : Balanced guard held ([] : List (LockOp L V)) := fun _ hp => hp

lemma Balanced.append (hp : Balanced guard held p) (hq : Balanced guard held q) :
    Balanced guard held (p ++ q) := by
  intro r hr
  rw [List.append_assoc]
  exact hp _ (hq r hr)

lemma balanced_access {v : V} (h : ∀ l ∈ guard v, l ∈ held) :
    Balanced guard held [(.access v : LockOp L V)] :=
  fun _ hp => .access h hp

lemma Balanced.block (hbelow : ∀ m ∈ held, m < l) (hq : Balanced guard (l :: held) q) :
    Balanced guard held (.acquire l :: (q ++ [.release l])) := by
  intro p hp
  apply Disciplined.acquire hbelow
  have hrest : Disciplined guard (l :: held) (q ++ ([.release l] ++ p)) := hq _ (.release hp)
  rwa [← List.append_assoc] at hrest

lemma balanced_flatMap {α : Type*} {f : α → List (LockOp L V)}
    (hf : ∀ a, Balanced guard held (f a)) (as : List α) : Balanced guard held (as.flatMap f) := by
  induction as with
  | nil => exact balanced_nil
  | cons a as ih => exact (hf a).append ih

lemma Balanced.disciplined (hq : Balanced guard [] q) : Disciplined guard [] q := by
  have h := hq [] .nil
  rwa [List.append_nil] at h

end

/-! ### Threads -/

/-- Every thread is at a point of a routine that keeps the discipline. -/
def LockOrdered [LT L] (guard : V → Option L) (s : LockState ι L V) : Prop :=
  ∀ i, Disciplined guard (s i).held (s i).todo

/-- No thread holds a lock or has anything to do. -/
def LockState.idle : LockState ι L V := fun _ => ⟨[], []⟩

lemma lockOrdered_idle [LT L] : LockOrdered guard (LockState.idle : LockState ι L V) :=
  fun _ => .nil

variable [DecidableEq ι]

lemma LockOrdered.update [LT L] {s : LockState ι L V} (hs : LockOrdered guard s) (i : ι)
    {th : LockThread L V} (hth : Disciplined guard th.held th.todo) :
    LockOrdered guard (Function.update s i th) := by
  intro j
  by_cases hij : j = i
  · subst hij
    rwa [Function.update_self]
  · rw [Function.update_of_ne hij]
    exact hs j

/-- The operations that are still to be done. -/
def remaining [Fintype ι] (s : LockState ι L V) : ℕ := ∑ i, (s i).todo.length

lemma remaining_update [Fintype ι] {s : LockState ι L V} {i : ι} {th : LockThread L V}
    (h : th.todo.length < (s i).todo.length) :
    remaining (Function.update s i th) < remaining s := by
  apply Finset.sum_lt_sum
  · intro j _
    by_cases hij : j = i
    · subst hij
      rw [Function.update_self]
      exact h.le
    · rw [Function.update_of_ne hij]
  · refine ⟨i, Finset.mem_univ i, ?_⟩
    rwa [Function.update_self]

variable [DecidableEq L]

/-- What the handler of an interrupt takes, and what it then accesses. -/
structure LockHandler (L V : Type*) where
  lock : L
  accesses : V

/-- What an interrupt puts in front of what the thread was doing. -/
def LockHandler.ops (handler : LockHandler L V) : List (LockOp L V) :=
  [.acquire handler.lock, .access handler.accesses, .release handler.lock]

/-- A call by a thread that has nothing to do, one operation, or an interrupt. A lock is taken when
no thread holds it. -/
inductive LockStep (calls : List (LockOp L V) → Prop) (handler : LockHandler L V) :
    LockState ι L V → LockEvent ι L V → LockState ι L V → Prop where
  | call {s : LockState ι L V} {i : ι} {p : List (LockOp L V)} (hidle : (s i).todo = [])
      (hp : calls p) : LockStep calls handler s (.call i p) (Function.update s i ⟨(s i).held, p⟩)
  | acquire {s : LockState ι L V} {i : ι} {l : L} {p : List (LockOp L V)}
      (htodo : (s i).todo = .acquire l :: p) (hfree : ∀ j, l ∉ (s j).held) :
      LockStep calls handler s (.op i) (Function.update s i ⟨l :: (s i).held, p⟩)
  | release {s : LockState ι L V} {i : ι} {l : L} {p : List (LockOp L V)}
      (htodo : (s i).todo = .release l :: p) :
      LockStep calls handler s (.op i) (Function.update s i ⟨(s i).held.erase l, p⟩)
  | access {s : LockState ι L V} {i : ι} {v : V} {p : List (LockOp L V)}
      (htodo : (s i).todo = .access v :: p) :
      LockStep calls handler s (.op i) (Function.update s i ⟨(s i).held, p⟩)
  | interrupt (s : LockState ι L V) (i : ι) :
      LockStep calls handler s (.interrupt i)
        (Function.update s i ⟨(s i).held, handler.ops ++ (s i).todo⟩)

variable {calls : List (LockOp L V) → Prop} {handler : LockHandler L V} {s t : LockState ι L V}
  {e : LockEvent ι L V} {tr : List (LockState ι L V × LockEvent ι L V)} {i j : ι}

/-- The interrupt does not meet a thread that holds the lock of the handler. -/
def Spares (top : L) (p : LockState ι L V × LockEvent ι L V) : Prop :=
  ∀ i, p.2 = .interrupt i → top ∉ (p.1 i).held

/-! ### In order, some thread goes on -/

section

variable [LT L]

lemma LockStep.lockOrdered (h : LockStep calls handler s e t)
    (hcalls : ∀ p, calls p → Disciplined guard [] p)
    (htop : ∀ l, l ≠ handler.lock → l < handler.lock)
    (hguard : guard handler.accesses = some handler.lock) (hspares : Spares handler.lock (s, e))
    (hs : LockOrdered guard s) : LockOrdered guard t := by
  cases h with
  | @call i p hidle hp =>
    apply hs.update
    have hheld : (s i).held = [] := (hidle ▸ hs i).held_eq_nil
    rw [hheld]
    exact hcalls p hp
  | @acquire i l p htodo _ =>
    apply hs.update
    exact (htodo ▸ hs i).of_acquire.2
  | @release i l p htodo =>
    apply hs.update
    exact (htodo ▸ hs i).of_release
  | @access i v p htodo =>
    apply hs.update
    exact (htodo ▸ hs i).of_access.2
  | interrupt i =>
    apply hs.update
    have hbelow : ∀ m ∈ (s i).held, m < handler.lock :=
      fun m hm => htop m (ne_of_mem_of_not_mem hm (hspares i rfl))
    have hheld : ∀ l ∈ guard handler.accesses, l ∈ handler.lock :: (s i).held := by
      intro l hl
      rw [hguard] at hl
      exact Option.some.inj hl ▸ List.mem_cons_self
    exact .acquire hbelow (.access hheld (.release (hs i)))

/-- The thread that holds the greatest lock that is waited for can go on. -/
lemma exists_op [WellFoundedGT L] (hs : LockOrdered guard s)
    (hbusy : (s i).todo ≠ []) : ∃ j t, LockStep calls handler s (.op j) t := by
  have hwaiting : ∀ l i p, (s i).todo = .acquire l :: p →
      ∃ j t, LockStep calls handler s (.op j) t := by
    intro l
    induction l using WellFoundedGT.induction with
    | ind l ih =>
      intro i p htodo
      by_cases hfree : ∀ j, l ∉ (s j).held
      · exact ⟨i, _, .acquire htodo hfree⟩
      · push Not at hfree
        obtain ⟨j, hj⟩ := hfree
        have hdisc := hs j
        cases hp : (s j).todo with
        | nil =>
          rw [hp] at hdisc
          rw [hdisc.held_eq_nil] at hj
          cases hj
        | cons o p' =>
          cases o with
          | acquire m =>
            rw [hp] at hdisc
            exact ih m (hdisc.of_acquire.1 l hj) j p' hp
          | release m => exact ⟨j, _, .release hp⟩
          | access v => exact ⟨j, _, .access hp⟩
  cases hp : (s i).todo with
  | nil => exact absurd hp hbusy
  | cons o p =>
    cases o with
    | acquire l => exact hwaiting l i p hp
    | release l => exact ⟨i, _, .release hp⟩
    | access v => exact ⟨i, _, .access hp⟩

end

/-! ### A thread that waits for itself -/

def Stuck (top : L) (s : LockState ι L V) (i : ι) : Prop :=
  top ∈ (s i).held ∧ ∃ p, (s i).todo = .acquire top :: p

lemma LockStep.stuck (h : LockStep calls handler s e t) (hs : Stuck handler.lock s i) :
    Stuck handler.lock t i := by
  obtain ⟨hheld, p, hp⟩ := hs
  have hother : ∀ (j : ι) (th : LockThread L V), j ≠ i →
      Stuck handler.lock (Function.update s j th) i := by
    intro j th hne
    rw [Stuck, Function.update_of_ne hne.symm]
    exact ⟨hheld, p, hp⟩
  cases h with
  | @call j _ hidle _ =>
    apply hother
    rintro rfl
    simp [hp] at hidle
  | @acquire j l _ htodo hfree =>
    apply hother
    rintro rfl
    rw [hp] at htodo
    obtain rfl := LockOp.acquire.inj (List.cons.inj htodo).1
    exact hfree _ hheld
  | @release j _ _ htodo | @access j _ _ htodo =>
    apply hother
    rintro rfl
    rw [hp] at htodo
    cases htodo
  | interrupt j =>
    by_cases hij : j = i
    · subst hij
      rw [Stuck, Function.update_self]
      exact ⟨hheld, _, rfl⟩
    · exact hother j _ hij

/-! ### Routines that complete -/

section

variable [Fintype ι]

lemma LockStep.remaining_lt (h : LockStep calls handler s (.op i) t) :
    remaining t < remaining s := by
  cases h with
  | acquire htodo _ => exact remaining_update (by simp [htodo])
  | release htodo => exact remaining_update (by simp [htodo])
  | access htodo => exact remaining_update (by simp [htodo])

/-- Nothing but operations, up to a state in which none is possible. -/
structure Played (calls : List (LockOp L V) → Prop) (handler : LockHandler L V)
    (s : LockState ι L V) (tr : List (LockState ι L V × LockEvent ι L V)) (t : LockState ι L V) :
    Prop where
  run : Run (LockStep calls handler) s tr t
  ops : ∀ p ∈ tr, ∃ i, p.2 = .op i
  last : ∀ i u, ¬ LockStep calls handler t (.op i) u

lemma exists_played (s : LockState ι L V) : ∃ tr t, Played calls handler s tr t := by
  induction hn : remaining s using Nat.strong_induction_on generalizing s with
  | _ n ih =>
    by_cases hop : ∃ i u, LockStep calls handler s (.op i) u
    · obtain ⟨i, u, hstep⟩ := hop
      obtain ⟨tr, t, hrun, hops, hlast⟩ := ih _ (hn ▸ hstep.remaining_lt) u rfl
      refine ⟨_, t, .cons hstep hrun, ?_, hlast⟩
      rw [List.forall_mem_cons]
      exact ⟨⟨i, rfl⟩, hops⟩
    · push Not at hop
      exact ⟨[], s, .nil s, List.forall_mem_nil _, hop⟩

/-- The number of steps is bounded by what there was to do. -/
lemma Played.length_le (h : Played calls handler s tr t) : tr.length ≤ remaining s := by
  obtain ⟨hrun, hops, -⟩ := h
  induction hrun with
  | nil s => exact Nat.zero_le _
  | @cons s u t e tr hstep _ ih =>
    obtain ⟨⟨i, rfl⟩, htail⟩ := List.forall_mem_cons.mp hops
    have hlt := hstep.remaining_lt
    have hle := ih htail
    rw [List.length_cons]
    omega

variable [LT L] [WellFoundedGT L]

/-- From an idle state, every way of going on completes every routine, just when no interrupt has
met a thread that holds the lock of the handler. -/
theorem completes_iff (hcalls : ∀ p, calls p → Disciplined guard [] p)
    (htop : ∀ l, l ≠ handler.lock → l < handler.lock)
    (hguard : guard handler.accesses = some handler.lock)
    (hrun : Run (LockStep calls handler) .idle tr s) :
    (∀ tr' t, Played calls handler s tr' t → ∀ i, (t i).todo = []) ↔
      ∀ p ∈ tr, Spares handler.lock p := by
  constructor
  · intro hcomplete p hp
    by_contra hbad
    rw [Spares] at hbad
    push Not at hbad
    obtain ⟨i, hint, hheld⟩ := hbad
    obtain ⟨a, b, rfl⟩ := List.append_of_mem hp
    obtain ⟨-, u, hstep, hrest⟩ := hrun.split_at
    obtain ⟨tr', t, hex⟩ : ∃ tr' t, Played calls handler s tr' t := exists_played s
    have hstuck : Stuck handler.lock u i := by
      rw [hint] at hstep
      cases hstep with
      | interrupt =>
        rw [Stuck, Function.update_self]
        exact ⟨hheld, _, rfl⟩
    have hend : Stuck handler.lock t i :=
      (hrest.append hex.run).invariant (fun hst => hst.stuck) hstuck
    obtain ⟨q, hq⟩ := hend.2
    exact absurd (hcomplete tr' t hex i) (by simp [hq])
  · intro hspares tr' t hex i
    have hs : LockOrdered guard s := hrun.preserves (fun _ _ _ hmem h hst =>
      hst.lockOrdered hcalls htop hguard (hspares _ hmem) h) lockOrdered_idle
    have ht : LockOrdered guard t := by
      refine hex.run.preserves (fun _ _ _ hmem h hst => hst.lockOrdered hcalls htop hguard ?_ h) hs
      obtain ⟨j, hj⟩ := hex.ops _ hmem
      intro k hk
      rw [hj] at hk
      cases hk
    by_contra hbusy
    obtain ⟨j, u, hstep⟩ : ∃ j u, LockStep calls handler t (.op j) u := exists_op ht hbusy
    exact hex.last j u hstep

end

/-! ### Accesses that exclude each other -/

/-- What is still to be accessed under a lock is accessed when it is held, and nothing is held in
the end. This asks for no order, so that an interrupt keeps it wherever it comes. -/
def Guarded (guard : V → Option L) : List L → List (LockOp L V) → Prop
  | held, [] => held = []
  | held, .acquire l :: p => Guarded guard (l :: held) p
  | held, .release l :: p => Guarded guard (held.erase l) p
  | held, .access v :: p => (∀ l ∈ guard v, l ∈ held) ∧ Guarded guard held p

lemma Disciplined.guarded [LT L] (h : Disciplined guard held p) : Guarded guard held p := by
  induction h with
  | nil => rfl
  | acquire _ _ ih => exact ih
  | release _ ih => rwa [Guarded, List.erase_cons_head]
  | access hguard _ ih => exact ⟨hguard, ih⟩

/-- No two threads hold the same lock, and each is at a point of a guarded routine. -/
structure Exclusive (guard : V → Option L) (s : LockState ι L V) : Prop where
  disjoint : ∀ i j, i ≠ j → ∀ l ∈ (s i).held, l ∉ (s j).held
  guarded : ∀ i, Guarded guard (s i).held (s i).todo

lemma Exclusive.update (hs : Exclusive guard s) (th : LockThread L V)
    (hheld : ∀ l ∈ th.held, ∀ j, j ≠ i → l ∉ (s j).held) (hth : Guarded guard th.held th.todo) :
    Exclusive guard (Function.update s i th) := by
  constructor
  · intro j k hjk l hj hk
    by_cases hji : j = i
    · subst hji
      rw [Function.update_self] at hj
      rw [Function.update_of_ne hjk.symm] at hk
      exact hheld l hj k hjk.symm hk
    · rw [Function.update_of_ne hji] at hj
      by_cases hki : k = i
      · subst hki
        rw [Function.update_self] at hk
        exact hheld l hk j hji hj
      · rw [Function.update_of_ne hki] at hk
        exact hs.disjoint j k hjk l hj hk
  · intro j
    by_cases hji : j = i
    · subst hji
      rwa [Function.update_self]
    · rw [Function.update_of_ne hji]
      exact hs.guarded j

lemma LockStep.exclusive (h : LockStep calls handler s e t)
    (hcalls : ∀ p, calls p → Guarded guard [] p)
    (hguard : guard handler.accesses = some handler.lock) (hs : Exclusive guard s) :
    Exclusive guard t := by
  have hkept : ∀ i, ∀ l ∈ (s i).held, ∀ j, j ≠ i → l ∉ (s j).held :=
    fun i l hl j hne => hs.disjoint i j hne.symm l hl
  cases h with
  | @call i p hidle hp =>
    apply hs.update ⟨(s i).held, p⟩ (hkept i)
    have hheld : (s i).held = [] := by
      have hi := hs.guarded i
      rwa [hidle] at hi
    rw [hheld]
    exact hcalls p hp
  | @acquire i l p htodo hfree =>
    apply hs.update ⟨l :: (s i).held, p⟩
    · intro m hm j hne
      rcases List.mem_cons.mp hm with rfl | hm
      · exact hfree j
      · exact hkept i m hm j hne
    · have hi := hs.guarded i
      rwa [htodo] at hi
  | @release i l p htodo =>
    apply hs.update ⟨(s i).held.erase l, p⟩
    · exact fun m hm => hkept i m (List.mem_of_mem_erase hm)
    · have hi := hs.guarded i
      rwa [htodo] at hi
  | @access i v p htodo =>
    apply hs.update ⟨(s i).held, p⟩ (hkept i)
    have hi := hs.guarded i
    rw [htodo] at hi
    exact hi.2
  | interrupt i =>
    apply hs.update ⟨(s i).held, handler.ops ++ (s i).todo⟩ (hkept i)
    refine ⟨?_, ?_⟩
    · intro l hl
      rw [hguard] at hl
      exact Option.some.inj hl ▸ List.mem_cons_self
    · show Guarded guard ((handler.lock :: (s i).held).erase handler.lock) (s i).todo
      rw [List.erase_cons_head]
      exact hs.guarded i

/-- In every run, two threads that are at an access each are not under the same lock. -/
theorem guard_ne_of_accesses {v w : V} {p q : List (LockOp L V)}
    (hcalls : ∀ p, calls p → Guarded guard [] p)
    (hguard : guard handler.accesses = some handler.lock)
    (hrun : Run (LockStep calls handler) .idle tr s) (hij : i ≠ j)
    (hi : (s i).todo = .access v :: p) (hj : (s j).todo = .access w :: q) (hl : guard v = some l) :
    guard w ≠ some l := by
  intro hw
  have hs : Exclusive guard s :=
    hrun.invariant (fun hstep ha => hstep.exclusive hcalls hguard ha)
      ⟨fun _ _ _ _ hl => absurd hl List.not_mem_nil, fun _ => rfl⟩
  have hgi := hs.guarded i
  have hgj := hs.guarded j
  rw [hi] at hgi
  rw [hj] at hgj
  exact hs.disjoint i j hij l (hgi.1 l hl) (hgj.1 l hw)

end Lib
