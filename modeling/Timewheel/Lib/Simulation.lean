import Timewheel.Lib.Run

/-!
# Simulation

A specification is a labelled transition system: `next t l t'` says that in
`t` the label `l` may be observed on the way to `t'`. It may be
nondeterministic, and it need not be executable. A machine implements it when
each of its steps is matched by a step of the specification with the same
label (`Simulates`); what is observed along a run of the machine is then a
trace of the specification (`Simulates.trace`), and so an invariant of the
specification holds of every state a run of the machine is matched by.
-/

namespace Simulation

variable {S A L T : Type*}

/-! ## Traces -/

/-- `Trace next t ls u`: the labels `ls` may be observed from `t` to `u`. -/
inductive Trace (next : T → L → T → Prop) : T → List L → T → Prop where
  | nil (t : T) : Trace next t [] t
  | cons {t u v : T} {l : L} {ls : List L} (head : next t l u) (tail : Trace next u ls v) :
      Trace next t (l :: ls) v

variable {next : T → L → T → Prop} {t u v : T} {l : L} {ls ks : List L}

theorem trace_nil : Trace next t [] u ↔ t = u := by
  refine ⟨fun h => ?_, fun h => h ▸ .nil t⟩
  cases h with
  | nil => rfl

theorem trace_cons : Trace next t (l :: ls) v ↔ ∃ u, next t l u ∧ Trace next u ls v := by
  constructor
  · intro h
    cases h with
    | cons head tail => exact ⟨_, head, tail⟩
  · rintro ⟨u, head, tail⟩
    exact .cons head tail

/-- Traces compose. -/
theorem trace_append :
    Trace next t (ls ++ ks) v ↔ ∃ u, Trace next t ls u ∧ Trace next u ks v := by
  induction ls generalizing t with
  | nil => simp [trace_nil]
  | cons l ls ih =>
    simp only [List.cons_append, trace_cons, ih]
    constructor
    · rintro ⟨w, head, u, tail, rest⟩
      exact ⟨u, ⟨w, head, tail⟩, rest⟩
    · rintro ⟨u, ⟨w, head, tail⟩, rest⟩
      exact ⟨w, head, u, tail, rest⟩

/-- **The invariant rule.** -/
theorem Trace.inv {Inv : T → Prop} (hnext : ∀ t l u, Inv t → next t l u → Inv u)
    (h : Trace next t ls u) (ht : Inv t) : Inv u := by
  induction h with
  | nil => exact ht
  | cons head tail ih => exact ih (hnext _ _ _ ht head)

/-- A guarded step keeps the invariant; a trace whose labels meet the guard
does. -/
theorem Trace.inv_of_labels {Inv : T → Prop} {G : L → Prop}
    (hnext : ∀ t l u, Inv t → G l → next t l u → Inv u) (h : Trace next t ls u)
    (hG : ∀ l ∈ ls, G l) (ht : Inv t) : Inv u := by
  induction h with
  | nil => exact ht
  | cons head tail ih =>
    obtain ⟨hg, hrest⟩ := List.forall_mem_cons.mp hG
    exact ih hrest (hnext _ _ _ ht hg head)

/-- **A trace seen through a view.** When what a step does to the view is a trace
of another specification, so is what a trace does to it. `P` relates the labels
of a step to those of its view. -/
theorem Trace.view {U K : Type*} {next' : U → K → U → Prop} {view : T → U} {P : L → K → Prop}
    (hview : ∀ t l u, next t l u → ∃ ks, Trace next' (view t) ks (view u) ∧ ∀ k ∈ ks, P l k)
    (h : Trace next t ls u) :
    ∃ ks, Trace next' (view t) ks (view u) ∧ ∀ k ∈ ks, ∃ l ∈ ls, P l k := by
  induction h with
  | nil t => exact ⟨[], .nil _, fun k hk => absurd hk List.not_mem_nil⟩
  | cons head tail ih =>
    obtain ⟨ks, hks, hP⟩ := hview _ _ _ head
    obtain ⟨ks', hks', hP'⟩ := ih
    refine ⟨ks ++ ks', trace_append.mpr ⟨_, hks, hks'⟩, fun k hk => ?_⟩
    rcases List.mem_append.mp hk with hk | hk
    · exact ⟨_, List.mem_cons_self, hP k hk⟩
    · obtain ⟨l, hl, hp⟩ := hP' k hk
      exact ⟨l, List.mem_cons_of_mem _ hl, hp⟩

/-! ## Forward simulation -/

variable {step : S → A → Option S} {label : S → A → L} {G : S → A → S → Prop}
  {R : S → T → Prop} {s s' : S} {a : A} {as : List A}

/-- The labels observed along a run of a machine. -/
def labels (step : S → A → Option S) (label : S → A → L) : S → List A → List L
  | _, [] => []
  | s, a :: as =>
    match step s a with
    | none => []
    | some s' => label s a :: labels step label s' as

@[simp] theorem labels_nil : labels step label s [] = [] := rfl

/-- The label of a step that is taken comes first. -/
theorem labels_cons_of_step (h : step s a = some s') :
    labels step label s (a :: as) = label s a :: labels step label s' as := by
  rw [labels, h]

/-- A label that is observed is the label of an action of the run. -/
theorem mem_labels {l : L} (h : l ∈ labels step label s as) : ∃ s', ∃ a ∈ as, l = label s' a := by
  induction as generalizing s with
  | nil => exact absurd h List.not_mem_nil
  | cons a as ih =>
    rw [labels] at h
    split at h
    · exact absurd h List.not_mem_nil
    · rcases List.mem_cons.mp h with rfl | h
      · exact ⟨s, a, List.mem_cons_self, rfl⟩
      · obtain ⟨s', b, hb, rfl⟩ := ih h
        exact ⟨s', b, List.mem_cons_of_mem a hb, rfl⟩

/-- **Forward simulation**: a step of the machine that meets the guard `G` is
matched, from related states, by a step of the specification. -/
def Simulates (step : S → A → Option S) (label : S → A → L) (G : S → A → S → Prop)
    (next : T → L → T → Prop) (R : S → T → Prop) : Prop :=
  ∀ s a s' t, R s t → G s a s' → step s a = some s' → ∃ t', next t (label s a) t' ∧ R s' t'

/-- **A simulated run is a trace.** -/
theorem Simulates.trace (h : Simulates step label G next R) (hR : R s t)
    (hG : Machine.Each step G s as) {s' : S} (hrun : Machine.run step s as = some s') :
    ∃ t', Trace next t (labels step label s as) t' ∧ R s' t' := by
  induction as generalizing s t with
  | nil =>
    obtain rfl := Option.some.inj hrun
    exact ⟨t, .nil t, hR⟩
  | cons a as ih =>
    rw [Machine.run_cons] at hrun
    obtain ⟨s₁, hstep, hrun⟩ := Option.bind_eq_some_iff.mp hrun
    obtain ⟨hg, hrest⟩ := hG s₁ hstep
    obtain ⟨t₁, hnext, hR₁⟩ := h s a s₁ t hR hg hstep
    obtain ⟨t', htrace, hR'⟩ := ih hR₁ hrest hrun
    rw [labels_cons_of_step hstep]
    exact ⟨t', .cons hnext htrace, hR'⟩

end Simulation
