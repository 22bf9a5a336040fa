import Mathlib.Algebra.BigOperators.Group.List.Basic
import Mathlib.Algebra.Order.Group.Int
import Mathlib.Tactic.Ring

/-!
# Ledgers

Some parties share a resource, and each of them has on its account what it has
taken and not given back. `held` is what they have together. A party that
writes its account changes the sum by the difference (`held_set`); and where
nobody has given back more than it took, at most `held` parties have anything
(`countP_le_held`).
-/

namespace Ledger

variable {α : Type*} (f : α → ℤ)

/-- What the parties have together. -/
def held (l : List α) : ℤ := (l.map f).sum

@[simp] theorem held_nil : held f [] = 0 := rfl

theorem held_cons (a : α) (l : List α) : held f (a :: l) = f a + held f l := by
  rw [held, held, List.map_cons, List.sum_cons]

theorem held_append (l l' : List α) : held f (l ++ l') = held f l + held f l' := by
  rw [held, held, held, List.map_append, List.sum_append]

/-- Parties without anything on their accounts. -/
theorem held_eq_zero {l : List α} (h : ∀ a ∈ l, f a = 0) : held f l = 0 := by
  induction l with
  | nil => rfl
  | cons a l ih =>
    rw [held_cons, h a List.mem_cons_self, ih (fun b hb => h b (List.mem_cons_of_mem a hb))]
    rfl

/-- **One account is written.** -/
theorem held_set {l : List α} {i : ℕ} {a : α} (h : l[i]? = some a) (b : α) :
    held f (l.set i b) = held f l + (f b - f a) := by
  induction l generalizing i with
  | nil => simp at h
  | cons x l ih =>
    cases i with
    | zero =>
      obtain rfl : x = a := Option.some.inj h
      rw [List.set_cons_zero, held_cons, held_cons]
      ring
    | succ i =>
      rw [List.set_cons_succ, held_cons, held_cons, ih h]
      ring

/-- **At most as many parties have something as they have together.** -/
theorem countP_le_held {l : List α} (h : ∀ a ∈ l, 0 ≤ f a) :
    (l.countP (fun a => 0 < f a) : ℤ) ≤ held f l := by
  induction l with
  | nil => exact le_refl _
  | cons a l ih =>
    have hrest := ih (fun b hb => h b (List.mem_cons_of_mem a hb))
    have ha := h a List.mem_cons_self
    rw [held_cons, List.countP_cons]
    split_ifs with hpos
    · rw [decide_eq_true_eq] at hpos
      push_cast
      omega
    · push_cast
      omega

end Ledger
