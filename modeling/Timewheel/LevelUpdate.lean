import Timewheel.FreshStart
import Timewheel.OneRegistration

/-!
# Updating across the three wheels

`MultiLevelTimeWheel.UpdateTask` takes the ID out of the first wheel that has
it and then adds the argument to the wheel of its priority. Between the two
there is no way back: unlike `TimeWheel.UpdateTask` it keeps no copy, so when
the addition is refused the task is gone and the call returns the error. And
since it looks no further than the first wheel, a second registration of the
ID stays.

`updateTask_keeps_iff` says which updates do neither. It is about every state
of the three wheels, running or not; nothing is assumed of their lists and
maps.

The removal and the addition are described separately, each by what is
registered afterwards. What is registered determines whether the update has
kept its promise, so the condition can be read off the two descriptions.
-/

namespace Timewheel

open TimeWheel (AddEnv checkTask)
open MultiLevelTimeWheel

namespace MultiLevelTimeWheel

variable {m m' : MultiLevelTimeWheel} {id : String} {l : Level} {task : Task} {env : AddEnv}

/-! ## What is registered -/

/-- The definition a wheel has registered under an ID: nothing, or the task the
node carries. Two wheels may have different ones under the same ID. -/
def definition (m : MultiLevelTimeWheel) (l : Level) (id : String) : Option (Option Task) :=
  ((m.wheel l).lookup l.config id).map (fun n => ((m.wheel l).heap n).task)

/-- An ID that is not registered has none. -/
theorem definition_eq_none : m.definition l id = none ↔ ¬ m.Registered l id := by
  unfold definition Registered
  rw [Option.map_eq_none_iff, not_not]

/-- The argument of the call, as `AddTask` leaves it, is the only registration
of its ID. The checks may fill in defaults. -/
def OnlyRegistration (m : MultiLevelTimeWheel) (task : Task) : Prop :=
  ∃ t, checkTask task = .ok t ∧ ∀ l, m.definition l task.id
    = if l = levelOf task.priority then some (some t) else none

/-- **Nothing is lost**: an error leaves the registrations as they were, and a
success leaves the argument as the only one of its ID. Either the whole of the
update takes place, or nothing of it. -/
def UpdateKeeps (m : MultiLevelTimeWheel) (task : Task) (r : Option Err × MultiLevelTimeWheel) :
    Prop :=
  (r.1 ≠ none → r.2.definition = m.definition) ∧ (r.1 = none → r.2.OnlyRegistration task)

/-! ## Adding -/

/-- When `addTask` succeeds. All three conditions are on the state before the
call. -/
theorem addTaskInternal_eq_none :
    (m.addTaskInternal task env).1 = none
      ↔ rejects task = false ∧ (m.wheel (levelOf task.priority)).running = true
        ∧ ¬ m.Registered (levelOf task.priority) task.id := by
  unfold addTaskInternal Registered
  dsimp only
  cases hrun : (m.wheel (levelOf task.priority)).running with
  | false =>
    rw [if_pos rfl]
    exact ⟨fun h => (nomatch h), fun h => (nomatch h.2.1)⟩
  | true =>
    rw [if_neg (by exact Bool.noConfusion), not_not]
    exact addTask_eq_none_iff.trans (by rw [hrun])

/-- When it fails nothing has changed, or the ID is taken and a node has been
prepared in vain. The node goes back to the pool. -/
theorem addTaskInternal_error (h : (m.addTaskInternal task env).1 ≠ none) :
    (m.addTaskInternal task env).2 = m
      ∨ (m.Registered (levelOf task.priority) task.id
        ∧ ∀ l id, (m.addTaskInternal task env).2.Registered l id ↔ m.Registered l id) := by
  unfold addTaskInternal at h ⊢
  dsimp only at h ⊢
  split_ifs at h ⊢ with hrun
  · exact Or.inl rfl
  have hstep := addTask_step (levelOf task.priority).config (m.wheel (levelOf task.priority))
    (some task) env
  generalize (m.wheel (levelOf task.priority)).addTask (levelOf task.priority).config
    (some task) env = r at hstep h ⊢
  cases hstep with
  | rejected reason => exact Or.inl (setWheel_wheel m _)
  | @duplicate t t' n w₁ task_eq check taken got =>
    obtain rfl := Option.some.inj task_eq
    refine Or.inr ⟨(checkTask_ok check).2.2.id_eq ▸ taken, fun l id => ?_⟩
    unfold Registered
    by_cases hl : l = levelOf task.priority
    · subst hl
      rw [wheel_setWheel_self]
      rw [show (w₁.poolPut n).lookup (levelOf task.priority).config id
        = (m.wheel (levelOf task.priority)).lookup _ id from lookup_congr got.shards id]
    · rw [wheel_setWheel_of_ne m hl]
  | added task_eq check new got linked => exact absurd rfl h

/-- When it succeeds the task is what the wheel of its priority has registered,
and the other wheels have what they had. Nothing is said of other IDs, which are
not needed. -/
theorem addTaskInternal_definition (h : (m.addTaskInternal task env).1 = none) :
    ∃ t, checkTask task = .ok t ∧ ∀ l, (m.addTaskInternal task env).2.definition l task.id
      = if l = levelOf task.priority then some (some t) else m.definition l task.id := by
  obtain ⟨-, hrun, -⟩ := addTaskInternal_eq_none.mp h
  unfold addTaskInternal at h ⊢
  dsimp only at h ⊢
  rw [hrun, if_neg (by exact Bool.noConfusion)] at h ⊢
  obtain ⟨t, hcheck, -, hnew⟩ := addTask_eq_none h
  obtain ⟨w', hadd, hlookup, hself, -⟩ := addTask_payload hcheck hrun hnew env
  refine ⟨t, hcheck, fun l => ?_⟩
  rw [hadd]
  unfold definition
  by_cases hl : l = levelOf task.priority
  · subst hl
    have hid : task.id = t.id := (checkTask_ok hcheck).2.2.id_eq.symm
    rw [if_pos rfl, wheel_setWheel_self, hlookup, if_pos hid, Option.map_some]
    have htask := congrArg TaskSlot.task hself
    exact congrArg some htask
  · rw [if_neg hl, wheel_setWheel_of_ne m hl]

/-! ## Updating -/

/-- **The condition**: the ID is registered nowhere; or one wheel has it, the
wheel of the new priority is running, and the argument passes the checks. It can
be checked before the call. -/
def UpdateAdmitted (m : MultiLevelTimeWheel) (task : Task) : Prop :=
  m.holder task.id = none
    ∨ (rejects task = false ∧ (m.wheel (levelOf task.priority)).running = true
      ∧ ∀ l, m.Registered l task.id → m.holder task.id = some l)

instance (m : MultiLevelTimeWheel) (task : Task) : Decidable (m.UpdateAdmitted task) :=
  inferInstanceAs (Decidable (_ ∨ _))

/-- The removal takes the ID out of the wheel it reaches, and nothing else. The
other wheels are not asked any more. -/
theorem removeTask_reached (hl : m.holder id = some l) :
    ∃ m', m.removeTask id = (none, m') ∧ (∀ l', (m'.wheel l').running = (m.wheel l').running)
      ∧ m'.definition l id = none
      ∧ ∀ l', l' ≠ l → m'.definition l' id = m.definition l' id := by
  obtain ⟨hid, hreg⟩ := registered_of_holder hl
  obtain ⟨n, hn⟩ := Option.ne_none_iff_exists'.mp hreg
  obtain ⟨w', hremove, hrun, hlookup, -⟩ := removeTask_records hid hn true
  refine ⟨m.setWheel l w', ?_, fun l' => ?_, ?_, fun l' hl' => ?_⟩
  · unfold removeTask
    rw [firstOf_withEntry (fun l => (removeTask_eq l.config (m.wheel l) id true).imp
      (fun _ hg => ⟨hg.1, fun n => (hg.2 n).1⟩)), hl]
    dsimp only
    rw [hremove]
  · by_cases hl' : l' = l
    · subst hl'
      rw [wheel_setWheel_self, hrun]
    · rw [wheel_setWheel_of_ne m hl']
  · unfold definition
    rw [wheel_setWheel_self, hlookup, if_pos rfl]
    rfl
  · unfold definition
    rw [wheel_setWheel_of_ne m hl']

/-- An update of an ID that is registered nowhere is an addition. If it fails,
nothing has been removed either. -/
theorem updateKeeps_of_new (hh : m.holder task.id = none) {r : Option Err × MultiLevelTimeWheel}
    (h : m.updateTask (some task) env = some r) : m.UpdateKeeps task r := by
  have hremove : m.removeTask task.id = (some (missingErr task.id), m) := by
    unfold removeTask
    rw [firstOf_withEntry (fun l => (removeTask_eq l.config (m.wheel l) task.id true).imp
      (fun _ hg => ⟨hg.1, fun n => (hg.2 n).1⟩)), hh]
  obtain rfl := Option.some.inj h
  dsimp only
  rw [hremove]
  unfold missingErr
  by_cases hid : task.id = ""
  · rw [if_pos hid]
    exact ⟨fun _ => rfl, fun hnone => (nomatch hnone)⟩
  rw [if_neg hid]
  have hnot : ∀ l, ¬ m.Registered l task.id := (holder_eq_none.mp hh).resolve_left hid
  refine ⟨fun herr => ?_, fun hnone => ?_⟩
  · rcases addTaskInternal_error herr with hsame | ⟨htaken, -⟩
    · exact congrArg definition hsame
    · exact absurd htaken (hnot _)
  · obtain ⟨t, hcheck, hdef⟩ := addTaskInternal_definition hnone
    refine ⟨t, hcheck, fun l => (hdef l).trans ?_⟩
    rw [definition_eq_none.mpr (hnot l)]

/-- **An update of a registered ID** keeps it exactly if the addition succeeds
and no other wheel has the ID. If the addition fails, the task is gone; if
another wheel has the ID, it still has it. -/
theorem updateKeeps_of_registered (hl : m.holder task.id = some l)
    {r : Option Err × MultiLevelTimeWheel} (h : m.updateTask (some task) env = some r) :
    m.UpdateKeeps task r ↔ rejects task = false
      ∧ (m.wheel (levelOf task.priority)).running = true
      ∧ ∀ l', m.Registered l' task.id → l' = l := by
  obtain ⟨m₁, hremove, hrun, hgone, hother⟩ := removeTask_reached hl
  obtain rfl := Option.some.inj h
  dsimp only
  rw [hremove]
  dsimp only
  have hreg := (registered_of_holder hl).2
  have hreg₁ : ∀ l', m₁.Registered l' task.id ↔ l' ≠ l ∧ m.Registered l' task.id := by
    intro l'
    by_cases heq : l' = l
    · subst heq
      exact ⟨fun h => absurd h (definition_eq_none.mp hgone), fun h => absurd rfl h.1⟩
    · rw [← not_iff_not, ← definition_eq_none, hother l' heq, definition_eq_none]
      simp [heq]
  have hadd := @addTaskInternal_eq_none m₁ task env
  rw [hrun] at hadd
  constructor
  · rintro ⟨herr, hdone⟩
    -- the entry that was there has gone, so an error would have lost it
    have hnone : (m₁.addTaskInternal task env).1 = none := by
      by_contra hcon
      have hlost : ¬ (m₁.addTaskInternal task env).2.Registered l task.id := by
        rcases addTaskInternal_error hcon with hsame | ⟨-, hsame⟩
        · rw [hsame]
          exact definition_eq_none.mp hgone
        · rw [hsame]
          exact definition_eq_none.mp hgone
      refine hlost (not_not.mp (fun hnot => ?_))
      rw [← definition_eq_none, herr hcon, definition_eq_none] at hnot
      exact hnot hreg
    obtain ⟨hpass, hrunning, hfree⟩ := hadd.mp hnone
    refine ⟨hpass, hrunning, fun l' hl' => ?_⟩
    by_contra heq
    have htaken := (hreg₁ l').mpr ⟨heq, hl'⟩
    obtain ⟨_, _, hdef⟩ := addTaskInternal_definition hnone
    obtain ⟨_, _, honly⟩ := hdone hnone
    have hlevel : l' ≠ levelOf task.priority := fun h => hfree (h ▸ htaken)
    have hnone' := honly l'
    rw [hdef l', if_neg hlevel, if_neg hlevel, definition_eq_none] at hnone'
    exact hnone' htaken
  · rintro ⟨hpass, hrunning, honly⟩
    have hfree : ∀ l', ¬ m₁.Registered l' task.id :=
      fun l' hl' => ((hreg₁ l').mp hl').1 (honly l' ((hreg₁ l').mp hl').2)
    have hnone := hadd.mpr ⟨hpass, hrunning, hfree _⟩
    refine ⟨fun herr => absurd hnone herr, fun _ => ?_⟩
    obtain ⟨t, hcheck, hdef⟩ := addTaskInternal_definition hnone
    refine ⟨t, hcheck, fun l' => (hdef l').trans ?_⟩
    rw [definition_eq_none.mpr (hfree l')]

/-- **An update returns, and loses nothing, exactly if it is admitted.** So
exactly the other updates lose something, or leave a second registration. -/
theorem updateTask_keeps_iff (m : MultiLevelTimeWheel) (task : Task) (env : AddEnv) :
    (∃ r, m.updateTask (some task) env = some r ∧ m.UpdateKeeps task r)
      ↔ m.UpdateAdmitted task := by
  obtain ⟨r, hr⟩ : ∃ r, m.updateTask (some task) env = some r := ⟨_, rfl⟩
  have hkeeps : m.UpdateKeeps task r ↔ m.UpdateAdmitted task := by
    unfold UpdateAdmitted
    cases hh : m.holder task.id with
    | none => exact ⟨fun _ => Or.inl rfl, fun _ => updateKeeps_of_new hh hr⟩
    | some l =>
      rw [updateKeeps_of_registered hh hr, or_iff_right (Option.some_ne_none l)]
      simp only [Option.some_inj, eq_comm]
  rw [← hkeeps]
  constructor
  · rintro ⟨r', hr', hkeep⟩
    exact Option.some.inj (hr'.symm.trans hr) ▸ hkeep
  · exact fun hkeep => ⟨r, hr, hkeep⟩

end MultiLevelTimeWheel

/-- An update without a function, of a task that is registered. -/
theorem not_updateKeeps_of_refused :
    ¬ ∀ as s, Machine.run MultiLevelSystem.step freshSystem as = some s → ∀ task env r,
      s.timeWheel.updateTask (some task) env = some r → s.timeWheel.UpdateKeeps task r := by
  intro h
  let noRun : Task := { everySecond "a" 1 with run := none }
  have hrun : (Machine.run MultiLevelSystem.step freshSystem
      [.addTask (some (everySecond "a" 1)) newNodeEnv]).map (fun s =>
        (s.timeWheel.updateTask (some noRun) newNodeEnv).map (fun r =>
          (r.1.isSome, (r.2.definition .normal "a").isSome,
            (s.timeWheel.definition .normal "a").isSome)))
      = some (some (true, false, true)) := by
    decide +kernel
  obtain ⟨s, hs, hafter⟩ := Option.map_eq_some_iff.mp hrun
  obtain ⟨r, hr, hafter⟩ := Option.map_eq_some_iff.mp hafter
  obtain ⟨herr, hafter⟩ := Prod.mk.inj hafter
  obtain ⟨hgone, hthere⟩ := Prod.mk.inj hafter
  have hsame := (h _ s hs noRun newNodeEnv r hr).1 (Option.isSome_iff_ne_none.mp herr)
  rw [hsame, hthere] at hgone
  cases hgone

end Timewheel
