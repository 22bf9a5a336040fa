import Mathlib.Data.List.Basic
import Mathlib.Tactic.Common

/-!
# Noninterference

A server answers its inputs one after the other: `step s i` is the answer to `i`
in the state `s`, and the next state. Some inputs are *low*. A relation between
states says what of a state a low input can tell.

The high inputs do not interfere when they leave this part of the state alone and
the low ones read nothing else (`Unwinds`); then the low inputs are answered as
if there had been no others (`Unwinds.purge`). The other way round, two servers
keep the rest of their states to themselves when all inputs keep the relation and
the low ones are answered alike (`Hides`); then the answers to low inputs do not
tell the servers apart (`Hides.answers`).
-/

namespace Noninterference

variable {S S' I O : Type*}

/-- The answers to some inputs. -/
def serve (step : S → I → O × S) : S → List I → List (I × O)
  | _, [] => []
  | s, i :: is => (i, (step s i).1) :: serve step (step s i).2 is

/-- The state after some inputs. -/
def after (step : S → I → O × S) (s : S) (is : List I) : S :=
  is.foldl (fun s i => (step s i).2) s

variable {step : S → I → O × S} {step' : S' → I → O × S'} {low : I → Prop} [DecidablePred low]
  {is : List I}

@[simp] theorem serve_cons (s : S) (i : I) (is : List I) :
    serve step s (i :: is) = (i, (step s i).1) :: serve step (step s i).2 is := rfl

@[simp] theorem after_cons (s : S) (i : I) (is : List I) :
    after step s (i :: is) = after step (step s i).2 is := rfl

/-- An answer is given in some state. -/
theorem mem_serve {s : S} {answer : I × O} (h : answer ∈ serve step s is) :
    ∃ s', answer.2 = (step s' answer.1).1 := by
  induction is generalizing s with
  | nil => simp [serve] at h
  | cons i is ih =>
    rw [serve_cons] at h
    rcases List.mem_cons.mp h with rfl | h
    · exact ⟨s, rfl⟩
    · exact ih h

/-! ## High inputs that do not interfere -/

/-- **The unwinding conditions**, for the inputs that satisfy `P`. -/
structure Unwinds (step : S → I → O × S) (P low : I → Prop) (R : S → S → Prop) : Prop where
  /-- A low input is answered alike in related states. -/
  sees : ∀ s s' i, R s s' → P i → low i →
    (step s i).1 = (step s' i).1 ∧ R (step s i).2 (step s' i).2
  /-- A high input is not seen. -/
  skips : ∀ s s' i, R s s' → P i → ¬ low i → R (step s i).2 s'

/-- **High inputs may be purged.** -/
theorem Unwinds.purge {P : I → Prop} {R : S → S → Prop} (h : Unwinds step P low R) {s s' : S}
    (hR : R s s') (hP : ∀ i ∈ is, P i) :
    (serve step s is).filter (fun answer => low answer.1) = serve step s' (is.filter low)
      ∧ R (after step s is) (after step s' (is.filter low)) := by
  induction is generalizing s s' with
  | nil => exact ⟨rfl, hR⟩
  | cons i is ih =>
    obtain ⟨hi, his⟩ := List.forall_mem_cons.mp hP
    by_cases hlow : low i
    · obtain ⟨hanswer, hnext⟩ := h.sees s s' i hR hi hlow
      obtain ⟨hserve, hafter⟩ := ih hnext his
      rw [serve_cons, List.filter_cons_of_pos (by simpa using hlow),
        List.filter_cons_of_pos (by simpa using hlow), serve_cons, hanswer, hserve]
      exact ⟨rfl, hafter⟩
    · rw [serve_cons, List.filter_cons_of_neg (by simpa using hlow),
        List.filter_cons_of_neg (by simpa using hlow)]
      exact ih (h.skips s s' i hR hi hlow) his

/-! ## States that are kept secret -/

/-- **Two servers answer low inputs alike** from related states, and stay
related. -/
structure Hides (step : S → I → O × S) (step' : S' → I → O × S') (low : I → Prop)
    (R : S → S' → Prop) : Prop where
  answer : ∀ s s' i, R s s' → low i → (step s i).1 = (step' s' i).1
  keep : ∀ s s' i, R s s' → R (step s i).2 (step' s' i).2

/-- **The answers to low inputs tell nothing.** -/
theorem Hides.answers {R : S → S' → Prop} (h : Hides step step' low R) {s : S} {s' : S'}
    (hR : R s s') :
    (serve step s is).filter (fun answer => low answer.1)
      = (serve step' s' is).filter (fun answer => low answer.1) := by
  induction is generalizing s s' with
  | nil => rfl
  | cons i is ih =>
    have hrest := ih (h.keep s s' i hR)
    by_cases hlow : low i
    · rw [serve_cons, serve_cons, List.filter_cons_of_pos (by simpa using hlow),
        List.filter_cons_of_pos (by simpa using hlow), h.answer s s' i hR hlow, hrest]
    · rw [serve_cons, serve_cons, List.filter_cons_of_neg (by simpa using hlow),
        List.filter_cons_of_neg (by simpa using hlow), hrest]

end Noninterference
