import Mathlib.Algebra.Order.Group.Nat
import Mathlib.Data.List.Perm.Basic
import Timewheel.Lib.Run

/-!
# Effects that are carried out later

A program that looks at its state under a lock, lets go of the lock and acts
only then does not act in the step in which it has looked. Between the two the
state may change, and what was right to decide may no longer be right when it
is done.

A machine whose steps look and decide is made into one that acts later: what a
step decides becomes due (`Program.decides`), and what is due may be carried
out at any time, in any order, or never. Nothing is assumed about when, so the
runs of this machine include those of a program that acts sooner.

Two rules bring results about the decisions over to the acts. A run, without
its acts, is a run of the machine underneath (`run_acts`). And what has been
done and what is still due grow together by no more than what has been decided
(`count_of_run`): so once nothing is decided any more, what is done later was
due before (`count_of_settled`).
-/

namespace Delayed

variable {S A E : Type*}

/-- A machine whose steps decide on effects. A step that ends the process loses
what is due. -/
structure Program (S A E : Type*) where
  step : S → A → Option S
  decides : S → A → S → List E
  ends : A → Bool

/-- The state of the machine, the effects that have been decided on, and those that
have been carried out. -/
structure State (S E : Type*) where
  base : S
  due : List E
  done : List E

/-- A step of the machine, or the carrying out of an effect that is due. -/
inductive Move (A : Type*) where
  | act (a : A)
  | carryOut (k : ℕ)
  deriving DecidableEq

/-- Nothing is due, and nothing has been done. -/
def State.idle (s : S) : State S E := ⟨s, [], []⟩

/-- How much of a kind has been done, or may still be. -/
def State.count (d : State S E) (P : E → Bool) : ℕ := d.done.countP P + d.due.countP P

namespace Program

/-- **The step function.** -/
def next (p : Program S A E) (d : State S E) : Move A → Option (State S E)
  | .act a =>
    (p.step d.base a).map (fun s' =>
      ⟨s', (if p.ends a then [] else d.due) ++ p.decides d.base a s', d.done⟩)
  | .carryOut k => d.due[k]?.map (fun e => ⟨d.base, d.due.eraseIdx k, d.done ++ [e]⟩)

end Program

/-- The steps of the machine underneath. -/
def acts : List (Move A) → List A
  | [] => []
  | .act a :: moves => a :: acts moves
  | .carryOut _ :: moves => acts moves

/-- The acts of two runs, one after the other. -/
theorem acts_append (moves more : List (Move A)) :
    acts (moves ++ more) = acts moves ++ acts more := by
  induction moves with
  | nil => rfl
  | cons move moves ih =>
    cases move with
    | act a => exact congrArg (a :: ·) ih
    | carryOut k => exact ih

theorem act_mem_of_mem_acts {moves : List (Move A)} {a : A} (h : a ∈ acts moves) :
    Move.act a ∈ moves := by
  induction moves with
  | nil => exact absurd h List.not_mem_nil
  | cons move moves ih =>
    cases move with
    | act b =>
      rcases List.mem_cons.mp h with rfl | h
      · exact List.mem_cons_self
      · exact List.mem_cons_of_mem _ (ih h)
    | carryOut k => exact List.mem_cons_of_mem _ (ih h)

variable {p : Program S A E} {d d' : State S E} {moves : List (Move A)} {P : E → Bool}
  {meter : S → ℕ}

theorem step_of_next {a : A} (h : p.next d (.act a) = some d') :
    p.step d.base a = some d'.base := by
  obtain ⟨s', hs, rfl⟩ := Option.map_eq_some_iff.mp h
  exact hs

/-- **The acts aside, a run is one of the machine underneath.** -/
theorem run_acts (hrun : Machine.run p.next d moves = some d') :
    Machine.run p.step d.base (acts moves) = some d'.base := by
  induction moves generalizing d with
  | nil =>
    obtain rfl := Option.some.inj hrun
    rfl
  | cons move moves ih =>
    rw [Machine.run_cons] at hrun
    obtain ⟨d₁, hstep, hrun⟩ := Option.bind_eq_some_iff.mp hrun
    cases move with
    | act a =>
      obtain ⟨s', hs, rfl⟩ := Option.map_eq_some_iff.mp hstep
      show Machine.run p.step d.base (a :: acts moves) = some d'.base
      rw [Machine.run_cons_of_step hs]
      exact ih hrun
    | carryOut k =>
      obtain ⟨e, -, rfl⟩ := Option.map_eq_some_iff.mp hstep
      exact @ih ⟨d.base, d.due.eraseIdx k, d.done ++ [e]⟩ hrun

/-- Carrying out an effect moves it from what is due to what is done. -/
theorem countP_carryOut (P : E → Bool) {due : List E} (done : List E) {k : ℕ} {e : E}
    (h : due[k]? = some e) :
    (done ++ [e]).countP P + (due.eraseIdx k).countP P = done.countP P + due.countP P := by
  obtain ⟨hk, rfl⟩ := List.getElem?_eq_some_iff.mp h
  have hperm : (due[k] :: due.eraseIdx k).Perm due := List.getElem_cons_eraseIdx_perm hk
  rw [List.countP_append, add_assoc, ← List.countP_append]
  exact congrArg (done.countP P + ·) (hperm.countP_eq P)

/-- **One move** decides what the meter counts, and loses what it ends. -/
theorem count_of_next
    (hmeter : ∀ s a s', p.step s a = some s' → meter s' = meter s + (p.decides s a s').countP P)
    {move : Move A} (hstep : p.next d move = some d') :
    d'.count P + meter d.base ≤ d.count P + meter d'.base := by
  unfold State.count
  cases move with
  | act a =>
    obtain ⟨s', hs, rfl⟩ := Option.map_eq_some_iff.mp hstep
    have hkept : (if p.ends a then [] else d.due).countP P ≤ d.due.countP P := by
      split_ifs
      · exact Nat.zero_le _
      · exact le_refl _
    show d.done.countP P + ((if p.ends a then [] else d.due) ++ p.decides d.base a s').countP P
      + meter d.base ≤ d.done.countP P + d.due.countP P + meter s'
    rw [hmeter d.base a s' hs, List.countP_append]
    omega
  | carryOut k =>
    obtain ⟨e, he, rfl⟩ := Option.map_eq_some_iff.mp hstep
    exact Nat.add_le_add_right (countP_carryOut P d.done he).le _

/-- **The meter rule.** When a meter of the machine underneath counts the decisions
of a kind, what has been done and what is due of that kind grow by no more than
the meter does. -/
theorem count_of_run
    (hmeter : ∀ s a s', p.step s a = some s' → meter s' = meter s + (p.decides s a s').countP P)
    (hrun : Machine.run p.next d moves = some d') :
    d'.count P + meter d.base ≤ d.count P + meter d'.base := by
  induction moves generalizing d with
  | nil =>
    obtain rfl := Option.some.inj hrun
    exact le_refl _
  | cons move moves ih =>
    rw [Machine.run_cons] at hrun
    obtain ⟨d₁, hstep, hrun⟩ := Option.bind_eq_some_iff.mp hrun
    have hone := count_of_next hmeter hstep
    have hrest := ih hrun
    omega

/-- **What is done after the last decision was due before it.** -/
theorem count_of_settled
    (hmeter : ∀ s a s', p.step s a = some s' → meter s' = meter s + (p.decides s a s').countP P)
    (hrun : Machine.run p.next d moves = some d') (hsettled : meter d'.base = meter d.base) :
    d'.count P ≤ d.count P := by
  have hcount := count_of_run hmeter hrun
  rw [hsettled] at hcount
  exact Nat.le_of_add_le_add_right hcount

/-- What is logged of a step, when logs only grow. -/
theorem countP_of_prefix {log log' : List E} (P : E → Bool) (h : log <+: log') :
    log'.countP P = log.countP P + (log'.drop log.length).countP P := by
  obtain ⟨more, rfl⟩ := h
  rw [List.drop_left, List.countP_append]

end Delayed
