import Mathlib.Data.List.Basic
import Mathlib.Tactic.Common

/-!
# Runs of a machine

A machine is a partial step function `S → A → Option S`: in state `s` the
action `a` either is not possible or leads to one next state. A run is a list
of actions. What holds of a run is said of its transitions: `Each Q s as`
says that `Q` holds of every transition the actions `as` make from `s`.

Three rules carry the proofs about runs. `Each.of_invariant` is the usual
one: what one step preserves under a guard, and what it then guarantees,
holds along every guarded run. `each_iff_of_invariant` is the sharp form:
when the guard is also what a step *needs* to preserve the invariant, the
runs that keep the invariant are exactly the guarded ones. `iff_each_of_run`
is for a property of the last state that one kind of step decides.
-/

namespace Machine

variable {S A : Type*} (step : S → A → Option S)

/-- The state a list of actions leads to, if each is possible. -/
def run : S → List A → Option S
  | s, [] => some s
  | s, a :: as => (step s a).bind (fun s' => run s' as)

/-- `Q` holds of every transition the actions make. A run ends at the first
action that is not possible. -/
def Each (Q : S → A → S → Prop) : S → List A → Prop
  | _, [] => True
  | s, a :: as => ∀ s', step s a = some s' → Q s a s' ∧ Each Q s' as

variable {step}

@[simp] theorem run_nil (s : S) : run step s [] = some s := rfl

theorem run_cons (s : S) (a : A) (as : List A) :
    run step s (a :: as) = (step s a).bind (fun s' => run step s' as) := rfl

theorem run_cons_of_step {s s' : S} {a : A} (h : step s a = some s') (as : List A) :
    run step s (a :: as) = run step s' as := by
  rw [run_cons, h]
  rfl

/-- A run of a concatenation is a run of its two parts. -/
theorem run_append (s : S) (as bs : List A) :
    run step s (as ++ bs) = (run step s as).bind (fun s' => run step s' bs) := by
  induction as generalizing s with
  | nil => rfl
  | cons a as ih =>
    rw [List.cons_append, run_cons, run_cons]
    cases step s a with
    | none => rfl
    | some s' => exact ih s'

variable {Q R : S → A → S → Prop}

@[simp] theorem each_nil (s : S) : Each step Q s [] := trivial

/-- A run that takes its first step. -/
theorem each_cons_of_step {s t : S} {a : A} {as : List A} (h : step s a = some t) :
    Each step Q s (a :: as) ↔ Q s a t ∧ Each step Q t as := by
  refine ⟨fun hQ => hQ t h, fun hQ s' hs => ?_⟩
  obtain rfl := Option.some.inj (h.symm.trans hs)
  exact hQ

/-- What follows from `Q` at each transition follows along the run. -/
theorem Each.imp (h : ∀ s a s', Q s a s' → R s a s') {s : S} {as : List A}
    (hQ : Each step Q s as) : Each step R s as := by
  induction as generalizing s with
  | nil => trivial
  | cons a as ih => exact fun s' hs => ⟨h _ _ _ (hQ s' hs).1, ih (hQ s' hs).2⟩

/-- Two properties of the same run. -/
theorem Each.and {s : S} {as : List A} (hQ : Each step Q s as) (hR : Each step R s as) :
    Each step (fun s a s' => Q s a s' ∧ R s a s') s as := by
  induction as generalizing s with
  | nil => trivial
  | cons a as ih =>
    exact fun s' hs => ⟨⟨(hQ s' hs).1, (hR s' hs).1⟩, ih (hQ s' hs).2 (hR s' hs).2⟩

/-- What holds of every action holds along the run. -/
theorem each_of_forall {P : A → Prop} {s : S} {as : List A} (h : ∀ a ∈ as, P a) :
    Each step (fun _ a _ => P a) s as := by
  induction as generalizing s with
  | nil => trivial
  | cons a as ih =>
    exact fun s' _ => ⟨h a List.mem_cons_self, ih (fun b hb => h b (List.mem_cons_of_mem a hb))⟩

/-- The first part of a run, and the rest of it from where the first part
leads. -/
theorem each_append {s : S} {as bs : List A} :
    Each step Q s (as ++ bs)
      ↔ Each step Q s as ∧ ∀ s', run step s as = some s' → Each step Q s' bs := by
  induction as generalizing s with
  | nil => simp
  | cons a as ih =>
    constructor
    · intro h
      refine ⟨fun s' hs => ⟨(h s' hs).1, (ih.mp (h s' hs).2).1⟩, fun t ht => ?_⟩
      rw [run_cons] at ht
      obtain ⟨s', hs, ht⟩ := Option.bind_eq_some_iff.mp ht
      exact (ih.mp (h s' hs).2).2 t ht
    · rintro ⟨h, ht⟩ s' hs
      refine ⟨(h s' hs).1, ih.mpr ⟨(h s' hs).2, fun t hrun => ht t ?_⟩⟩
      rw [run_cons_of_step hs]
      exact hrun

/-- A failed transition somewhere in the run refutes `Each`. -/
theorem not_each_of_step {s t u : S} {as bs : List A} {a : A}
    (hrun : run step s as = some t) (hstep : step t a = some u) (hQ : ¬ Q t a u) :
    ¬ Each step Q s (as ++ a :: bs) :=
  fun h => hQ (((each_append.mp h).2 t hrun) u hstep).1

/-- **The invariant rule.** A step from an invariant state that meets the
guard `G` leads to an invariant state and makes a transition that satisfies
`Q`; then a run that meets `G` throughout satisfies `Q` throughout. -/
theorem Each.of_invariant {G : S → A → S → Prop} {Inv : S → Prop}
    (hstep : ∀ s a s', Inv s → G s a s' → step s a = some s' → Inv s' ∧ Q s a s')
    {s : S} {as : List A} (hs : Inv s) (hG : Each step G s as) : Each step Q s as := by
  induction as generalizing s with
  | nil => trivial
  | cons a as ih =>
    intro s' h
    obtain ⟨hg, hrest⟩ := hG s' h
    obtain ⟨hinv, hq⟩ := hstep s a s' hs hg h
    exact ⟨hq, ih hinv hrest⟩

/-- Where a run that meets the guard leads, the invariant holds. -/
theorem inv_of_run {G : S → A → S → Prop} {Inv : S → Prop}
    (hstep : ∀ s a s', Inv s → G s a s' → step s a = some s' → Inv s')
    {s t : S} {as : List A} (hs : Inv s) (hG : Each step G s as)
    (hrun : run step s as = some t) : Inv t := by
  induction as generalizing s with
  | nil =>
    obtain rfl := Option.some.inj hrun
    exact hs
  | cons a as ih =>
    rw [run_cons] at hrun
    obtain ⟨s', h, hrun⟩ := Option.bind_eq_some_iff.mp hrun
    obtain ⟨hg, hrest⟩ := hG s' h
    exact ih (hstep s a s' hs hg h) hrest hrun

/-- **The invariant rule with history**: the invariant may speak of the actions
that led to the state. -/
theorem inv_of_history {Inv : List A → S → Prop}
    (hstep : ∀ bs s a s', Inv bs s → step s a = some s' → Inv (bs ++ [a]) s') {s t : S}
    {bs as : List A} (hs : Inv bs s) (hrun : run step s as = some t) : Inv (bs ++ as) t := by
  induction as generalizing s bs with
  | nil =>
    obtain rfl := Option.some.inj hrun
    rwa [List.append_nil]
  | cons a as ih =>
    rw [run_cons] at hrun
    obtain ⟨s', h, hrun⟩ := Option.bind_eq_some_iff.mp hrun
    have ht := ih (hstep bs s a s' hs h) hrun
    rwa [List.append_assoc, List.singleton_append] at ht

/-- A property of transitions that can be decided can be decided along a
run. -/
instance Each.decidable [∀ s a s', Decidable (Q s a s')] :
    ∀ (s : S) (as : List A), Decidable (Each step Q s as)
  | _, [] => isTrue trivial
  | s, a :: as =>
    match h : step s a with
    | none => isTrue (fun s' hs => absurd (h.symm.trans hs) (Option.some_ne_none s').symm)
    | some s' =>
      have := Each.decidable s' as
      decidable_of_iff (Q s a s' ∧ Each step Q s' as)
        ⟨fun hq _ ht => Option.some.inj (h.symm.trans ht) ▸ hq, fun hq => hq s' h⟩

/-- What holds initially and after every transition holds where a run
leads. -/
theorem state_of_each {P : S → Prop} {s t : S} {as : List A} (hs : P s)
    (h : Each step (fun _ _ s' => P s') s as) (hrun : run step s as = some t) : P t := by
  have hstep : ∀ s a s', P s → P s' → step s a = some s' → P s' := fun _ _ _ _ hp _ => hp
  exact inv_of_run hstep hs h hrun

/-- **The sharp invariant rule.** When, from an invariant state, a step leads
to an invariant state exactly if it meets the guard, the runs whose
transitions satisfy `Q` are exactly the runs that meet the guard. `H` is known
of the runs in question. -/
theorem each_iff_along {H G : S → A → S → Prop} {Inv : S → Prop}
    (hkeep : ∀ s a s', H s a s' → Inv s → step s a = some s' → G s a s' → Inv s' ∧ Q s a s')
    (hneed : ∀ s a s', H s a s' → Inv s → step s a = some s' → Q s a s' → G s a s')
    {s : S} {as : List A} (hH : Each step H s as) (hs : Inv s) :
    Each step Q s as ↔ Each step G s as := by
  induction as generalizing s with
  | nil => exact Iff.rfl
  | cons a as ih =>
    constructor
    · intro h s' hstep
      obtain ⟨hh, hrest⟩ := hH s' hstep
      obtain ⟨hq, htail⟩ := h s' hstep
      have hg := hneed s a s' hh hs hstep hq
      exact ⟨hg, (ih hrest (hkeep s a s' hh hs hstep hg).1).mp htail⟩
    · intro h s' hstep
      obtain ⟨hh, hrest⟩ := hH s' hstep
      obtain ⟨hg, htail⟩ := h s' hstep
      obtain ⟨hinv, hq⟩ := hkeep s a s' hh hs hstep hg
      exact ⟨hq, (ih hrest hinv).mpr htail⟩

/-- **The sharp rule for a property of states** that hold beside an invariant:
when a step keeps `P` exactly if it meets the guard, the runs all of whose states
satisfy `P` are exactly the runs that meet the guard. -/
theorem each_state_iff {H G : S → A → S → Prop} {Inv P : S → Prop}
    (hinv : ∀ s a s', H s a s' → Inv s → step s a = some s' → Inv s')
    (hstep : ∀ s a s', H s a s' → Inv s → P s → step s a = some s' → (P s' ↔ G s a s'))
    {s : S} {as : List A} (hH : Each step H s as) (hs : Inv s) (hP : P s) :
    Each step (fun _ _ s' => P s') s as ↔ Each step G s as := by
  have hkeep : ∀ s a s', H s a s' → (Inv s ∧ P s) → step s a = some s' → G s a s' →
      (Inv s' ∧ P s') ∧ P s' := by
    rintro s a s' hh ⟨hi, hp⟩ h hg
    have hp' := (hstep s a s' hh hi hp h).mpr hg
    exact ⟨⟨hinv s a s' hh hi h, hp'⟩, hp'⟩
  have hneed : ∀ s a s', H s a s' → (Inv s ∧ P s) → step s a = some s' → P s' → G s a s' := by
    rintro s a s' hh ⟨hi, hp⟩ h hp'
    exact (hstep s a s' hh hi hp h).mp hp'
  exact each_iff_along hkeep hneed hH ⟨hs, hP⟩

/-- The same for runs made of actions that satisfy `P`. -/
theorem each_iff_of_invariant {P : A → Prop} {G : S → A → S → Prop} {Inv : S → Prop}
    (hkeep : ∀ s a s', P a → Inv s → step s a = some s' → G s a s' → Inv s' ∧ Q s a s')
    (hneed : ∀ s a s', P a → Inv s → step s a = some s' → Q s a s' → G s a s')
    {s : S} {as : List A} (has : ∀ a ∈ as, P a) (hs : Inv s) :
    Each step Q s as ↔ Each step G s as :=
  each_iff_along hkeep hneed (each_of_forall has) hs

/-- **The rule of the deciding step.** When a step keeps `D` exactly if it meets
the guard, `D` holds where a run leads exactly if it held at its beginning and
the run meets the guard. -/
theorem iff_each_of_run {D : S → Prop} {G : S → A → S → Prop} {Inv : S → Prop}
    (hinv : ∀ s a s', Inv s → step s a = some s' → Inv s')
    (hstep : ∀ s a s', Inv s → step s a = some s' → (D s' ↔ D s ∧ G s a s'))
    {s t : S} {as : List A} (hs : Inv s) (hrun : run step s as = some t) :
    D t ↔ D s ∧ Each step G s as := by
  induction as generalizing s with
  | nil =>
    obtain rfl := Option.some.inj hrun
    exact (and_iff_left trivial).symm
  | cons a as ih =>
    rw [run_cons] at hrun
    obtain ⟨s', h, hrun⟩ := Option.bind_eq_some_iff.mp hrun
    rw [ih (hinv s a s' hs h) hrun, hstep s a s' hs h, and_assoc]
    refine and_congr_right (fun _ => ⟨fun hg u hu => ?_, fun heach => heach s' h⟩)
    exact Option.some.inj (h.symm.trans hu) ▸ hg

end Machine
