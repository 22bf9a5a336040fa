import Mathlib.Data.List.Basic
import Mathlib.Tactic.Common

/-!
# A pipe of stages

What enters a pipe waits in a queue, is received into a batch, and comes out of
the batch, one item after the other or all at once. Each stage is first in,
first out, so whatever happens, what has come out, the batch and the queue are,
one after the other, what has entered: nothing is lost, doubled or overtaken
inside. What is not out is in one of the two other places.
-/

/-- The two places an item waits in, and what has come out. -/
structure Pipe (α : Type*) where
  queue : List α
  batch : List α
  out : List α
  deriving DecidableEq

namespace Pipe

variable {α : Type*} {p p' : Pipe α} {a : α}

/-- Nothing has entered. -/
def empty : Pipe α := ⟨[], [], []⟩

/-- `a` enters. -/
def push (p : Pipe α) (a : α) : Pipe α := { p with queue := p.queue ++ [a] }

/-- The first item of the queue is received. -/
def receive (p : Pipe α) : Option (Pipe α) :=
  match p.queue with
  | [] => none
  | a :: queue => some { p with queue := queue, batch := p.batch ++ [a] }

/-- The first item of the batch comes out. -/
def emit (p : Pipe α) : Option (Pipe α) :=
  match p.batch with
  | [] => none
  | a :: batch => some { p with batch := batch, out := p.out ++ [a] }

/-- The whole batch comes out. -/
def flush (p : Pipe α) : Pipe α := { p with batch := [], out := p.out ++ p.batch }

/-- Everything that has entered, in order. -/
def entered (p : Pipe α) : List α := p.out ++ p.batch ++ p.queue

@[simp] theorem entered_push (p : Pipe α) (a : α) : (p.push a).entered = p.entered ++ [a] := by
  unfold entered push
  dsimp only
  rw [List.append_assoc (p.out ++ p.batch)]

/-- Receiving hands nothing on, -/
theorem out_of_receive (h : p.receive = some p') : p'.out = p.out := by
  unfold receive at h
  cases hq : p.queue with
  | nil =>
    rw [hq] at h
    cases h
  | cons a queue =>
    rw [hq] at h
    exact Option.some.inj h ▸ rfl

/-- and it lets nothing in. -/
theorem entered_of_receive (h : p.receive = some p') : p'.entered = p.entered := by
  unfold receive at h
  cases hq : p.queue with
  | nil =>
    rw [hq] at h
    cases h
  | cons a queue =>
    rw [hq] at h
    obtain rfl := Option.some.inj h
    unfold entered
    rw [hq]
    simp

/-- Handing on does not either: it only moves the head of the batch out. -/
theorem entered_of_emit (h : p.emit = some p') : p'.entered = p.entered := by
  unfold emit at h
  cases hb : p.batch with
  | nil =>
    rw [hb] at h
    cases h
  | cons a batch =>
    rw [hb] at h
    obtain rfl := Option.some.inj h
    unfold entered
    rw [hb]
    simp

@[simp] theorem entered_flush (p : Pipe α) : p.flush.entered = p.entered := by
  unfold entered flush
  simp

/-- What has come out is the beginning of what has entered. -/
theorem out_prefix (p : Pipe α) : p.out <+: p.entered :=
  ⟨p.batch ++ p.queue, (List.append_assoc _ _ _).symm⟩

/-- All that has entered is out exactly if nothing waits. -/
theorem out_eq_entered_iff (p : Pipe α) : p.out = p.entered ↔ p.batch = [] ∧ p.queue = [] := by
  unfold entered
  rw [List.append_assoc, List.self_eq_append_right, List.append_eq_nil_iff]

end Pipe
