import Mathlib.Data.List.Nodup
import Mathlib.Data.List.Sort
import Mathlib.Logic.Equiv.Basic

/-!
# Windows of a sorted list

A list sorted by a key is one of several when keys repeat. A cut leaves the same
elements on either side in all of them exactly if it separates no two elements
of equal key, and then a window between two such cuts also has the same elements
in all of them.
-/

namespace Windows

variable {α K : Type*} [LinearOrder K] {key : α → K} {l l' : List α} {m n : ℕ}

/-- The keys descend. -/
def Descending (key : α → K) (l : List α) : Prop := l.Pairwise (fun x y => key y ≤ key x)

/-- **The cut separates no ties**: the elements before position `m` have other
keys than those from there on. -/
def CutsNoTie (key : α → K) (l : List α) (m : ℕ) : Prop :=
  ∀ x ∈ l.take m, ∀ y ∈ l.drop m, key x ≠ key y

/-- In a descending list, what is closed under greater keys comes first. -/
theorem Descending.filter_eq_take {p : α → Bool} (h : Descending key l)
    (hp : ∀ x y, key x ≤ key y → p x = true → p y = true) :
    l.filter p = l.take (l.countP p) := by
  induction l with
  | nil => rfl
  | cons x l ih =>
    obtain ⟨hx, hl⟩ := List.pairwise_cons.mp h
    cases hpx : p x with
    | true => rw [List.filter_cons_of_pos hpx, List.countP_cons_of_pos hpx, List.take_succ_cons,
        ih hl]
    | false =>
      have hnone : ∀ y ∈ x :: l, ¬ p y = true := by
        intro y hy hpy
        have hle : key y ≤ key x := by
          rcases List.mem_cons.mp hy with rfl | hy
          · exact le_rfl
          · exact hx y hy
        exact Bool.false_ne_true (hpx.symm.trans (hp y x hle hpy))
      rw [List.filter_eq_nil_iff.mpr hnone, List.countP_eq_zero.mpr hnone, List.take_zero]

/-- What comes before a cut of `l` that separates no ties, closed under greater
keys. -/
theorem Descending.take_eq_filter (h : Descending key l) (hcut : CutsNoTie key l m) :
    l.take m = l.filter (fun x => decide (∃ y ∈ l.take m, key y ≤ key x)) := by
  conv_rhs => rw [← List.take_append_drop m l]
  have hfront : (l.take m).filter
      (fun x => decide (∃ y ∈ (l.take m ++ l.drop m).take m, key y ≤ key x)) = l.take m := by
    rw [List.take_append_drop]
    exact List.filter_eq_self.mpr (fun x hx => decide_eq_true ⟨x, hx, le_rfl⟩)
  have hback : (l.drop m).filter
      (fun x => decide (∃ y ∈ (l.take m ++ l.drop m).take m, key y ≤ key x)) = [] := by
    rw [List.take_append_drop]
    refine List.filter_eq_nil_iff.mpr (fun x hx hp => ?_)
    obtain ⟨y, hy, hle⟩ := of_decide_eq_true hp
    have hge : key x ≤ key y := by
      rw [Descending, ← List.take_append_drop m l, List.pairwise_append] at h
      exact h.2.2 y hy x hx
    exact hcut y hy x hx (le_antisymm hle hge)
  rw [List.filter_append, hfront, hback, List.append_nil]

/-- **A cut that separates no ties leaves the same elements before it** in every
order in which the keys descend. -/
theorem Descending.take_perm (h : Descending key l) (h' : Descending key l') (hp : l'.Perm l)
    (hcut : CutsNoTie key l m) : (l'.take m).Perm (l.take m) := by
  let p : α → Bool := fun x => decide (∃ y ∈ l.take m, key y ≤ key x)
  have hup : ∀ x y, key x ≤ key y → p x = true → p y = true := by
    intro x y hxy hx
    obtain ⟨z, hz, hle⟩ := of_decide_eq_true hx
    exact decide_eq_true ⟨z, hz, hle.trans hxy⟩
  have hl : l.take m = l.filter p := h.take_eq_filter hcut
  have hl' : l'.take m = l'.filter p := by
    have hcount : l'.countP p = (l.take m).length := by
      rw [hp.countP_eq, List.countP_eq_length_filter, hl]
    rw [h'.filter_eq_take hup, hcount, List.length_take, ← hp.length_eq]
    exact List.take_eq_take_min
  rw [hl, hl']
  exact hp.filter p

/-- **A window between two such cuts** has the same elements in every order in
which the keys descend. -/
theorem Descending.window_perm (h : Descending key l) (h' : Descending key l') (hp : l'.Perm l)
    (hcut : CutsNoTie key l m) (hcut' : CutsNoTie key l (m + n)) :
    ((l'.drop m).take n).Perm ((l.drop m).take n) := by
  have hfront := h.take_perm h' hp hcut
  have hboth := h.take_perm h' hp hcut'
  rw [List.take_add, List.take_add] at hboth
  exact (List.perm_append_left_iff (l.take m)).mp ((hfront.symm.append_right _).trans hboth)

/-- The window of length `n` that an element is in, of those that start at the
multiples of `n`. -/
theorem mem_window {i : ℕ} {x : α} (h : l[i]? = some x) (hn : 0 < n) :
    x ∈ (l.drop (i / n * n)).take n := by
  refine List.mem_of_getElem? (i := i % n) ?_
  rw [List.getElem?_take_of_lt (Nat.mod_lt i hn), List.getElem?_drop, Nat.div_add_mod']
  exact h

section Swap

variable [DecidableEq α] {x y : α}

/-- Two elements of equal key can change places. -/
theorem Descending.map_swap (h : Descending key l) (hkey : key x = key y) :
    Descending key (l.map (Equiv.swap x y)) := by
  refine List.pairwise_map.mpr (h.imp (fun {a b} hab => ?_))
  rw [Equiv.apply_swap_eq_self hkey, Equiv.apply_swap_eq_self hkey]
  exact hab

theorem map_swap_perm (h : l.Nodup) (hx : x ∈ l) (hy : y ∈ l) :
    (l.map (Equiv.swap x y)).Perm l := by
  have hmem : ∀ z, Equiv.swap x y z ∈ l ↔ z ∈ l := fun z =>
    iff_of_eq (Equiv.apply_swap_eq_self (v := (· ∈ l)) (propext (iff_of_true hx hy)) z)
  refine (List.perm_ext_iff_of_nodup (h.map (Equiv.swap x y).injective) h).mpr (fun z => ?_)
  rw [List.mem_map]
  constructor
  · rintro ⟨w, hw, rfl⟩
    exact (hmem w).mpr hw
  · intro hz
    exact ⟨Equiv.swap x y z, (hmem z).mpr hz, Equiv.swap_apply_self x y z⟩

end Swap

end Windows
