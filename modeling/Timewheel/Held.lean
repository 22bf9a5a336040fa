import Timewheel.MultiLevel

/-!
# One ID in the three wheels

What the services see of the multi-level wheel is, for each ID, what the three
wheels hold under it. A call for an ID changes the first of them that holds
anything, and `AddTask` fills the place of the task's priority if the task is
admitted. Nothing is changed for any other ID (`Touches`).

So an ID is a function from the three levels to what is registered there, and
the calls act on such functions. There is one thing to keep in mind about
them. A call reaches one wheel, the first in the order high, normal, low, and
so an ID that two wheels hold is not quite gone after a `RemoveTask`, and not
quite paused after a `PauseTask`. `Single` excludes that, and the services see
to it as long as nothing else adds tasks.
-/

namespace Timewheel

open TimeWheel (AddEnv checkTask)

/-- What the three wheels hold under one ID. `none` stands for a wheel that does
not have it. -/
abbrev Held := Level → Option Registration

namespace Held

/-- The wheel a call for the ID reaches. The wheels are asked in their order. -/
def reached (h : Held) : Option Level := MultiLevelTimeWheel.levels.find? (fun l => (h l).isSome)

/-- Change what is held in the wheel that is reached. Nothing is changed where
nothing is held. -/
def change (h : Held) (f : Registration → Option Registration) : Held :=
  match h.reached with
  | none => h
  | some l => Function.update h l ((h l).bind f)

/-- After a successful `RemoveTask`, or a failed one. A failed one has changed
nothing. -/
def remove (h : Held) : Held := h.change (fun _ => none)

/-- After `PauseTask` or `ResumeTask`. The flag is written whatever it was. -/
def setPaused (h : Held) (b : Bool) : Held := h.change (fun r => some { r with paused := b })

/-- With a registration in the wheel of level `l`. What was there is lost, so
this is only done to a free place. -/
def put (h : Held) (l : Level) (r : Registration) : Held := Function.update h l (some r)

/-- No wheel is reached exactly if none holds the ID, -/
theorem reached_eq_none {h : Held} : h.reached = none ↔ ∀ l, h l = none := by
  unfold reached MultiLevelTimeWheel.levels
  rw [List.find?_eq_none]
  constructor
  · intro hnone l
    have := hnone l (by cases l <;> simp)
    simpa using this
  · intro hnone l _
    simp [hnone l]

/-- and the wheel that is reached holds it. -/
theorem of_reached {h : Held} {l : Level} (hl : h.reached = some l) : ∃ r, h l = some r := by
  have hsome : (h l).isSome = true := List.find?_some (p := fun l => (h l).isSome) hl
  exact Option.isSome_iff_exists.mp hsome

/-- When nothing is held, nothing changes. The call returns an error then. -/
theorem change_of_reached_none {h : Held} (hh : h.reached = none)
    (f : Registration → Option Registration) : h.change f = h := by
  unfold change
  rw [hh]

/-- A removal takes something out unless nothing is reached. So a removal that
succeeds can be seen. -/
theorem remove_eq_self {h : Held} : h.remove = h ↔ h.reached = none := by
  refine ⟨fun heq => ?_, fun hh => change_of_reached_none hh _⟩
  cases hr : h.reached with
  | none => rfl
  | some l =>
    obtain ⟨r, hl⟩ := of_reached hr
    have hnone : h.remove l = none := by
      unfold remove change
      rw [hr]
      dsimp only
      rw [Function.update_self, hl]
      rfl
    rw [heq, hl] at hnone
    cases hnone

/-- The only place that is filled is the one that is reached. It does not matter
which one it is. -/
theorem reached_put {l : Level} (r : Registration) {h : Held} (hh : ∀ l', h l' = none) :
    (h.put l r).reached = some l := by
  cases hr : (h.put l r).reached with
  | none =>
    have := reached_eq_none.mp hr l
    rw [put, Function.update_self] at this
    cases this
  | some l' =>
    obtain ⟨r', hr'⟩ := of_reached hr
    by_cases hl : l' = l
    · rw [hl]
    · rw [put, Function.update_of_ne hl, hh l'] at hr'
      cases hr'

/-- At most one wheel holds the ID. The invariant of a deployment, where an ID
has one row with one priority. -/
def Single (h : Held) : Prop := ∀ l l', h l ≠ none → h l' ≠ none → l = l'

/-- None is at most one. -/
theorem single_of_forall_none {h : Held} (hh : ∀ l, h l = none) : h.Single :=
  fun l _ hl => absurd (hh l) hl

/-- The one that is reached is the only one. So the order of the wheels does not
matter. -/
theorem Single.eq_none {h : Held} (hs : h.Single) {l l' : Level} (hl : h.reached = some l)
    (hne : l' ≠ l) : h l' = none := by
  obtain ⟨r, hr⟩ := of_reached hl
  by_contra hl'
  exact hne (hs l' l hl' (by rw [hr]; exact Option.some_ne_none r))

/-- A call then does to every wheel what it does to the one that is reached. -/
theorem Single.change {h : Held} (hs : h.Single) (f : Registration → Option Registration)
    (l : Level) : h.change f l = (h l).bind f := by
  unfold Held.change
  cases hr : h.reached with
  | none =>
    dsimp only
    rw [reached_eq_none.mp hr l, Option.bind_none]
  | some l' =>
    dsimp only
    by_cases hl : l = l'
    · subst hl
      rw [Function.update_self]
    · rw [Function.update_of_ne hl, hs.eq_none hr hl, Option.bind_none]

/-- Removing the only registration leaves none. Afterwards the ID is gone. -/
theorem Single.remove {h : Held} (hs : h.Single) (l : Level) : h.remove l = none := by
  rw [Held.remove, hs.change, Option.bind_fun_none]

/-- Afterwards it is paused wherever it is held, -/
theorem Single.setPaused {h : Held} (hs : h.Single) (b : Bool) (l : Level) :
    h.setPaused b l = (h l).map (fun r => { r with paused := b }) := by
  rw [Held.setPaused, hs.change, Option.map_eq_bind]
  rfl

/-- which is in one wheel as before. -/
theorem Single.single_setPaused {h : Held} (hs : h.Single) (b : Bool) :
    (h.setPaused b).Single := by
  intro l l' hl hl'
  rw [hs.setPaused, Ne, Option.map_eq_none_iff] at hl hl'
  exact hs l l' hl hl'

/-- What is held once the only registration is resumed or paused. So whether it
carries a given task afterwards depends on the task it carried before. -/
theorem Single.exists_setPaused_eq {h : Held} (hs : h.Single) {l : Level}
    (hl : h.reached = some l) {b : Bool} {t : Task} :
    (∃ l', h.setPaused b l' = some ⟨t, b⟩) ↔ ∀ l', ∀ r ∈ h l', r.task = t := by
  obtain ⟨r, hr⟩ := of_reached hl
  constructor
  · rintro ⟨l', hl'⟩ l₁ r₁ hr₁
    rw [hs.setPaused] at hl'
    obtain ⟨r', hr', heq⟩ := Option.map_eq_some_iff.mp hl'
    have hlevel : l₁ = l' := hs l₁ l' (ne_of_eq_of_ne hr₁ (Option.some_ne_none _))
      (ne_of_eq_of_ne hr' (Option.some_ne_none _))
    subst hlevel
    obtain rfl := Option.some.inj (hr₁.symm.trans hr')
    exact congrArg Registration.task heq
  · intro htask
    refine ⟨l, ?_⟩
    rw [hs.setPaused, hr, Option.map_some, htask l r hr]

/-- Filling one place of none gives one. -/
theorem single_put {h : Held} (hh : ∀ l, h l = none) (l : Level) (r : Registration) :
    (h.put l r).Single := by
  have key : ∀ l', h.put l r l' ≠ none → l' = l := by
    intro l' hl'
    by_contra hne
    rw [put, Function.update_of_ne hne] at hl'
    exact hl' (hh l')
  exact fun l₁ l₂ h₁ h₂ => (key l₁ h₁).trans (key l₂ h₂).symm

/-- What is held once one place is filled. The other places are empty. -/
theorem exists_put_eq {h : Held} (hh : ∀ l, h l = none) {l : Level} {r r' : Registration} :
    (∃ l', h.put l r l' = some r') ↔ r = r' := by
  constructor
  · rintro ⟨l', hl'⟩
    by_cases hl : l' = l
    · rw [put, hl, Function.update_self] at hl'
      exact Option.some.inj hl'
    · rw [put, Function.update_of_ne hl, hh] at hl'
      cases hl'
  · rintro rfl
    exact ⟨l, Function.update_self _ _ _⟩

/-! ### One change after another -/

/-- Which wheel is reached depends on which hold anything. What they hold does
not matter. -/
theorem reached_congr {h h' : Held} (hh : ∀ l, (h l).isSome = (h' l).isSome) :
    h.reached = h'.reached := by
  unfold reached
  rw [show (fun l => (h l).isSome) = fun l => (h' l).isSome from funext hh]

/-- The place that is filled holds what it was filled with, -/
@[simp] theorem put_self (h : Held) (l : Level) (r : Registration) : h.put l r l = some r :=
  Function.update_self _ _ _

/-- and the others hold what they held. -/
theorem put_of_ne (h : Held) {l l' : Level} (hl : l' ≠ l) (r : Registration) :
    h.put l r l' = h l' := Function.update_of_ne hl _ _

/-- Some wheel is reached then. -/
theorem reached_put_ne_none (h : Held) (l : Level) (r : Registration) :
    (h.put l r).reached ≠ none := by
  intro hnone
  have := reached_eq_none.mp hnone l
  rw [put_self] at this
  cases this

/-- A removal empties the place that is reached, -/
theorem remove_of_reached {h : Held} {l : Level} (hl : h.reached = some l) :
    h.remove = Function.update h l none := by
  obtain ⟨r, hr⟩ := of_reached hl
  unfold remove change
  rw [hl]
  dsimp only
  rw [hr]
  rfl

/-- and none otherwise. -/
theorem remove_of_reached_none {h : Held} (hh : h.reached = none) : h.remove = h :=
  change_of_reached_none hh _

/-- Pausing writes the flag there. -/
theorem setPaused_of_reached {h : Held} {l : Level} {r : Registration} (hl : h.reached = some l)
    (hr : h l = some r) (b : Bool) :
    h.setPaused b = Function.update h l (some { r with paused := b }) := by
  unfold setPaused change
  rw [hl]
  dsimp only
  rw [hr]
  rfl

/-- It does not change which wheel is reached, -/
@[simp] theorem reached_setPaused (h : Held) (b : Bool) : (h.setPaused b).reached = h.reached := by
  cases hr : h.reached with
  | none => rw [setPaused, change_of_reached_none hr, hr]
  | some l =>
    obtain ⟨r, hl⟩ := of_reached hr
    rw [setPaused_of_reached hr hl, ← hr]
    refine reached_congr (fun l' => ?_)
    by_cases heq : l' = l
    · rw [heq, Function.update_self, hl]
      rfl
    · rw [Function.update_of_ne heq]

/-- only the last one counts, -/
theorem setPaused_setPaused (h : Held) (b b' : Bool) :
    (h.setPaused b).setPaused b' = h.setPaused b' := by
  cases hr : h.reached with
  | none =>
    have hb : ∀ b, h.setPaused b = h := fun b => change_of_reached_none hr _
    rw [hb, hb]
  | some l =>
    obtain ⟨r, hl⟩ := of_reached hr
    have hl' : h.setPaused b l = some { r with paused := b } := by
      rw [setPaused_of_reached hr hl, Function.update_self]
    rw [setPaused_of_reached ((h.reached_setPaused b).trans hr) hl', setPaused_of_reached hr hl,
      setPaused_of_reached hr hl, Function.update_idem]

/-- and none of it counts after a removal. -/
theorem remove_setPaused (h : Held) (b : Bool) : (h.setPaused b).remove = h.remove := by
  cases hr : h.reached with
  | none => rw [show h.setPaused b = h from change_of_reached_none hr _]
  | some l =>
    obtain ⟨r, hl⟩ := of_reached hr
    rw [remove_of_reached ((h.reached_setPaused b).trans hr), remove_of_reached hr,
      setPaused_of_reached hr hl, Function.update_idem]

end Held

namespace MultiLevelTimeWheel

variable {m m' : MultiLevelTimeWheel} {id : String}

/-- What the wheels hold under the ID. This is what the registry says, read the
other way round. -/
def held (m : MultiLevelTimeWheel) (id : String) : Held := fun l => m.registry l id

/-- A call for `id` keeps the wheels in order, and what they hold under other
IDs. The wheels that run do so afterwards. -/
structure Touches (m : MultiLevelTimeWheel) (id : String) (m' : MultiLevelTimeWheel) : Prop where
  keyed : Keyed m'
  up : StaysUp m m'
  frame : ∀ id', id' ≠ id → m'.held id' = m.held id'

/-- Nothing at all, -/
theorem Touches.refl (h : Keyed m) (id : String) : Touches m id m := ⟨h, .refl m, fun _ _ => rfl⟩

/-- or two calls for the same ID. -/
theorem Touches.trans {m'' : MultiLevelTimeWheel} (h : Touches m id m')
    (h' : Touches m' id m'') : Touches m id m'' :=
  ⟨h'.keyed, h.up.trans h'.up,
    fun id' hid => (h'.frame id' hid).trans (h.frame id' hid)⟩

/-- The wheel a call reaches is the one that holds the ID. The code asks the
wheels, this asks what they hold. -/
theorem Keyed.reached_held (h : Keyed m) (id : String) : (m.held id).reached = m.holder id := by
  unfold Held.reached holder
  congr 1
  funext l
  by_cases hl : m.Registered l id
  · have hid : id ≠ "" := by
      rintro rfl
      exact (h.registered_iff l "").mp hl (h l).registry_empty
    have hsome : (m.held id l).isSome = true :=
      Option.isSome_iff_ne_none.mpr ((h.registered_iff l id).mp hl)
    simp [hl, hid, hsome]
  · have hnone := (h.registry_eq_none l id).mpr hl
    simp [hl, held, hnone]

/-- Writing one place of one ID. What the other wheels hold under it stays. -/
theorem held_update {l : Level} {v : Option Registration}
    (hreg : m'.registry = Function.update m.registry l (Function.update (m.registry l) id v)) :
    m'.held id = Function.update (m.held id) l v ∧ ∀ id', id' ≠ id → m'.held id' = m.held id' := by
  constructor
  · funext l'
    unfold held
    rw [hreg]
    by_cases hl : l' = l
    · subst hl
      rw [Function.update_self, Function.update_self, Function.update_self]
    · rw [Function.update_of_ne hl, Function.update_of_ne hl]
  · intro id' hid
    funext l'
    unfold held
    rw [hreg]
    by_cases hl : l' = l
    · subst hl
      rw [Function.update_self, Function.update_of_ne hid]
    · rw [Function.update_of_ne hl]

/-- A call for an ID, as a change of what is held under it. The error says
whether any wheel was reached. -/
theorem byID_spec (h : Keyed m) {f : Registration → Option Registration}
    {r : Option Err × MultiLevelTimeWheel} (hr : ByID m id f r) :
    Touches m id r.2 ∧ r.2.held id = (m.held id).change f
      ∧ (r.1 = none ↔ (m.held id).reached ≠ none) := by
  cases hr with
  | missing hnone =>
    have hreached := Held.reached_eq_none.mpr hnone
    refine ⟨.refl h id, (Held.change_of_reached_none hreached f).symm, ?_⟩
    exact ⟨fun herr => absurd herr (Option.some_ne_none _), fun hne => absurd hreached hne⟩
  | @done l r m' reached held keyed up registry =>
    obtain ⟨hself, hframe⟩ := held_update registry
    have hreached : (m.held id).reached = some l := (h.reached_held id).trans reached
    refine ⟨⟨keyed, up, hframe⟩, ?_, fun _ => ?_, fun _ => rfl⟩
    · unfold Held.change
      rw [hself, hreached]
      dsimp only
      rw [show m.held id l = some r from held]
      rfl
    · rw [hreached]
      exact Option.some_ne_none l

/-- **`RemoveTask`** takes the registration out that is reached, -/
theorem removeTask_spec (h : Keyed m) (id : String) :
    Touches m id (m.removeTask id).2 ∧ (m.removeTask id).2.held id = (m.held id).remove
      ∧ ((m.removeTask id).1 = none ↔ (m.held id).reached ≠ none) :=
  byID_spec h (removeTask_effect h id)

/-- **`PauseTask`** flags it, -/
theorem pauseTask_spec (h : Keyed m) (id : String) :
    Touches m id (m.pauseTask id).2 ∧ (m.pauseTask id).2.held id = (m.held id).setPaused true
      ∧ ((m.pauseTask id).1 = none ↔ (m.held id).reached ≠ none) :=
  byID_spec h (pauseTask_effect h id)

/-- and **`ResumeTask`** takes the flag away. -/
theorem resumeTask_spec (h : Keyed m) (id : String) (now : Time) :
    Touches m id (m.resumeTask id now).2
      ∧ (m.resumeTask id now).2.held id = (m.held id).setPaused false
      ∧ ((m.resumeTask id now).1 = none ↔ (m.held id).reached ≠ none) :=
  byID_spec h (resumeTask_effect h id now)

/-! ## Adding -/

/-- The task as the checks leave it. A task that is rejected is left as it is,
to have something. -/
def normalised (task : Task) : Task :=
  match acceptTask task with
  | .ok t' => t'
  | .error _ => task

/-- **`AddTask` admits the task**: the checks let it pass, the wheel of its
priority is running, and it holds nothing under the ID. The other wheels may
hold the ID: `AddTask` does not look there. -/
def Admits (m : MultiLevelTimeWheel) (task : Task) : Prop :=
  accepts task = true ∧ (m.wheel (levelOf task.priority)).running = true
    ∧ m.held task.id (levelOf task.priority) = none

instance (m : MultiLevelTimeWheel) (task : Task) : Decidable (m.Admits task) :=
  inferInstanceAs (Decidable (_ ∧ _ ∧ _))

/-- Whether a task is admitted depends on which wheels run and on what is held
under its ID. So an admitted task can be added also after calls for other IDs. -/
theorem admits_iff (hup : StaysUp m m') (t : Task) :
    m'.Admits t ↔ accepts t = true ∧ (m.wheel (levelOf t.priority)).running = true
      ∧ m'.held t.id (levelOf t.priority) = none := by
  unfold Admits
  rw [(hup (levelOf t.priority)).running]

/-- The pool of the wheel of the task's priority hands out a paused node. The
task will then be paused, though nobody has paused it. -/
def addsPaused (m : MultiLevelTimeWheel) (task : Task) (env : AddEnv) : Bool :=
  (m.wheel (levelOf task.priority)).handsOutPaused env.node

/-- Removing a task that is not paused makes the pools no worse. The node that
goes back to the pool is not paused. -/
theorem removeTask_addsPaused (h : Keyed m) (hp : ∀ l r, m.held id l = some r → r.paused = false)
    (task : Task) (env : AddEnv) :
    (m.removeTask id).2.addsPaused task env = m.addsPaused task env := by
  unfold removeTask
  rw [firstOf_withEntry (fun l => (removeTask_eq l.config (m.wheel l) id true).imp
    (fun _ hg => ⟨hg.1, fun n => (hg.2 n).1⟩))]
  cases hh : m.holder id with
  | none => rfl
  | some l =>
    obtain ⟨hid, hreg⟩ := registered_of_holder hh
    obtain ⟨n, hn⟩ := Option.ne_none_iff_exists'.mp hreg
    obtain ⟨t, ht, -⟩ := (h l).task id n hn
    obtain ⟨g, hg, hrel⟩ := removeTask_eq l.config (m.wheel l) id true
    have hpaused : ((m.wheel l).heap n).paused = false :=
      hp l ⟨t, _⟩ (registry_of_lookup hn ht)
    dsimp only
    rw [hg, withEntry_found hid hn]
    unfold addsPaused
    by_cases hl : levelOf task.priority = l
    · rw [hl, wheel_setWheel_self]
      exact (hrel n).2.handsOutPaused hpaused ((h l).not_pooled id n hn) env.node
    · rw [wheel_setWheel_of_ne m hl]

/-- **`AddTask`** fills the place of the task's priority if the task is
admitted, with the flag of the node it gets, and otherwise changes nothing under
its ID. -/
theorem addTask_spec (h : Keyed m) (task : Task) (env : AddEnv) :
    Touches m task.id (m.addTask (some task) env).2
      ∧ (m.addTask (some task) env).2.held task.id
        = (if m.Admits task then
            (m.held task.id).put (levelOf task.priority)
              ⟨normalised task, m.addsPaused task env⟩
          else m.held task.id)
      ∧ ((m.addTask (some task) env).1 = none ↔ m.Admits task) := by
  have hadd := addTask_effect h task env
  have hok : ∀ {t'}, acceptTask task = .ok t' → accepts task = true := by
    intro t' haccept
    unfold accepts
    rw [haccept]
  generalize m.addTask (some task) env = r at hadd ⊢
  cases hadd with
  | rejected reason =>
    have hnot : ¬ m.Admits task := by
      rintro ⟨haccept, hrun, -⟩
      cases reason with
      | check herr =>
        unfold accepts at haccept
        rw [herr] at haccept
        cases haccept
      | notRunning hfalse => cases hfalse.symm.trans hrun
    rw [if_neg hnot]
    exact ⟨.refl h _, rfl, fun herr => absurd herr (Option.some_ne_none _),
      fun hadm => absurd hadm hnot⟩
  | duplicate accepted taken keyed up registry =>
    have hnot : ¬ m.Admits task := fun hadm => taken hadm.2.2
    have hheld : ∀ id', held _ id' = m.held id' := fun id' =>
      funext (fun l => congrFun (congrFun registry l) id')
    rw [if_neg hnot]
    exact ⟨⟨keyed, up, fun id' _ => hheld id'⟩, hheld _,
      fun herr => absurd herr (Option.some_ne_none _), fun hadm => absurd hadm hnot⟩
  | @added t' m' accepted running new keyed up registry =>
    obtain ⟨hself, hframe⟩ := held_update registry
    have hadm : m.Admits task := ⟨hok accepted, running, new⟩
    have hnorm : normalised task = t' := by
      unfold normalised
      rw [accepted]
    rw [if_pos hadm, hnorm]
    exact ⟨⟨keyed, up, hframe⟩, hself, fun _ => hadm, fun _ => rfl⟩

end MultiLevelTimeWheel

end Timewheel
