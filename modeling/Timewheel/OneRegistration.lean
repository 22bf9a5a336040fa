import Timewheel.MultiLevel

/-!
# One registration per ID

A wheel refuses an ID it has an entry for. The multi-level wheel asks only the
wheel of the task's priority, while the calls that take an ID go through all
three: the interface treats an ID as naming one task, and `AddTask` does not.

So an ID gets into two wheels as soon as it is added under a second priority,
and never otherwise (`oneRegistration_iff`). The system is the three wheels
under any sequence of calls, with their ticks and executions in between; an
execution can only lose an entry, so it does no harm here.

The invariant is that no ID is in two wheels (`UniqueIDs`). All calls but
`AddTask` can only lose entries (`Loses`), or, in the case of `UpdateTask`,
free the ID in every wheel before it is entered in one. What `AddTask` does to
the entries is `Adds`: it enters the ID in the wheel of the priority, if that
wheel has no entry for it yet, and does not ask the others.
-/

namespace Timewheel

open TimeWheel (AddEnv checkTask)
open MultiLevelTimeWheel

/-! ## The system -/

/-- The multi-level wheel and the executions of each of its wheels. The wheels
share nothing. -/
structure MultiLevelSystem where
  timeWheel : MultiLevelTimeWheel
  execs : Level → List Execution

/-- A call, or a step of the executions of one wheel. These are the methods of
the interface that change anything. -/
inductive MultiLevelAction where
  | addTask (task : Option Task) (env : AddEnv)
  | updateTask (task : Option Task) (env : AddEnv)
  | removeTask (taskID : String)
  | pauseTask (taskID : String)
  | resumeTask (taskID : String) (now : Time)
  | clearAllTasks (order : Level → List String) (now : Time)
  | background (l : Level) (a : Action)

namespace MultiLevelSystem

/-- One wheel with its executions; what was invoked is not recorded here. The
executions are those of its pool. -/
def scheduler (s : MultiLevelSystem) (l : Level) : Scheduler :=
  ⟨s.timeWheel.wheel l, s.execs l, [], []⟩

/-- The wheel of a level and its executions after a step of their own. The other
wheels stay. -/
def setScheduler (s : MultiLevelSystem) (l : Level) (t : Scheduler) : MultiLevelSystem where
  timeWheel := s.timeWheel.setWheel l t.wheel
  execs := Function.update s.execs l t.execs

/-- **The step function.** Actions of the background that are calls are not
steps, since calls come through the multi-level wheel. -/
def step (s : MultiLevelSystem) : MultiLevelAction → Option MultiLevelSystem
  | .addTask task env => some { s with timeWheel := (s.timeWheel.addTask task env).2 }
  | .updateTask task env =>
    (s.timeWheel.updateTask task env).map (fun r => { s with timeWheel := r.2 })
  | .removeTask taskID => some { s with timeWheel := (s.timeWheel.removeTask taskID).2 }
  | .pauseTask taskID => some { s with timeWheel := (s.timeWheel.pauseTask taskID).2 }
  | .resumeTask taskID now => some { s with timeWheel := (s.timeWheel.resumeTask taskID now).2 }
  | .clearAllTasks order now =>
    some { s with timeWheel := (s.timeWheel.clearAllTasks order now).2 }
  | .background l a =>
    if a.isCall then none
    else ((s.scheduler l).step l.config a).map (fun t => s.setScheduler l t)

/-- The system right after `NewMultiLevelTimeWheel` and `Start`. Nothing is
registered. -/
def Started (s : MultiLevelSystem) : Prop :=
  (∃ created now, (MultiLevelTimeWheel.new created).start now = some s.timeWheel)
    ∧ ∀ l, s.execs l = []

end MultiLevelSystem

/-! ## Losing entries -/

namespace MultiLevelTimeWheel

variable {m m' : MultiLevelTimeWheel} {id : String} {l : Level} {w : TimeWheel}

/-- From `m` to `m'` entries are lost at most. The wheels keep running. -/
structure Loses (m m' : MultiLevelTimeWheel) : Prop where
  up : StaysUp m m'
  registered : ∀ l id, m'.Registered l id → m.Registered l id

/-- This is reflexive -/
theorem Loses.refl (m : MultiLevelTimeWheel) : Loses m m := ⟨.refl m, fun _ _ h => h⟩

/-- and transitive, -/
theorem Loses.trans {m'' : MultiLevelTimeWheel} (h : Loses m m') (h' : Loses m' m'') :
    Loses m m'' :=
  ⟨h.up.trans h'.up, fun l id hr => h.registered l id (h'.registered l id hr)⟩

/-- and it cannot bring an ID into a second wheel. -/
theorem Loses.uniqueIDs (h : Loses m m') (hm : m.UniqueIDs) : m'.UniqueIDs :=
  fun id l l' hl hl' => hm id l l' (h.registered l id hl) (h.registered l' id hl')

/-- It is enough that the one wheel that changes gains no entry. -/
theorem loses_setWheel (hup : SameUp (m.wheel l) w)
    (hw : ∀ id, w.lookup l.config id ≠ none → m.Registered l id) : Loses m (m.setWheel l w) := by
  refine ⟨staysUp_setWheel hup, fun l' id h => ?_⟩
  unfold Registered at h ⊢
  by_cases hl : l' = l
  · subst hl
    rw [wheel_setWheel_self] at h
    exact hw id h
  · rwa [wheel_setWheel_of_ne m hl] at h

/-- A call that looks for an entry and changes at most flags. `PauseTask` and
`ResumeTask` are such calls. -/
theorem loses_firstOf {op : Level → TimeWheel → Option Err × TimeWheel}
    (hop : ∀ l, ∃ g, op l (m.wheel l) = withEntry l.config (m.wheel l) id g
      ∧ ∀ n, (g n).1 = none ∧ SameShards (m.wheel l) (g n).2) : Loses m (m.firstOf op).2 := by
  rw [firstOf_withEntry (fun l => (hop l).imp (fun _ hg => ⟨hg.1, fun n => (hg.2 n).1⟩))]
  cases hh : m.holder id with
  | none => exact .refl m
  | some l =>
    obtain ⟨hid, hreg⟩ := registered_of_holder hh
    obtain ⟨n, hn⟩ := Option.ne_none_iff_exists'.mp hreg
    obtain ⟨g, hg, hsame⟩ := hop l
    dsimp only
    rw [hg, withEntry_found hid hn]
    refine loses_setWheel (hsame n).2.up (fun id h => ?_)
    rwa [lookup_congr (hsame n).2.shards] at h

/-- **`RemoveTask`** succeeds if some wheel has an entry for the ID, and takes
it out of the one it reaches. The one it reaches is the first in the order of
the levels. -/
theorem removeTask_lookup (m : MultiLevelTimeWheel) (id : String) :
    (m.holder id = none ∧ m.removeTask id = (some (missingErr id), m))
      ∨ ∃ l m', m.holder id = some l ∧ m.removeTask id = (none, m') ∧ Loses m m'
        ∧ ¬ m'.Registered l id := by
  unfold removeTask
  rw [firstOf_withEntry (fun l => (removeTask_eq l.config (m.wheel l) id true).imp
    (fun _ hg => ⟨hg.1, fun n => (hg.2 n).1⟩))]
  cases hh : m.holder id with
  | none => exact Or.inl ⟨rfl, rfl⟩
  | some l =>
    obtain ⟨hid, hreg⟩ := registered_of_holder hh
    obtain ⟨n, hn⟩ := Option.ne_none_iff_exists'.mp hreg
    obtain ⟨g, hg, hrel⟩ := removeTask_eq l.config (m.wheel l) id true
    have hrel := (hrel n).2
    dsimp only
    rw [hg, withEntry_found hid hn]
    refine Or.inr ⟨l, _, rfl, rfl, loses_setWheel hrel.up (fun id' h => ?_), ?_⟩
    · rw [hrel.lookup] at h
      split_ifs at h with heq
      · exact absurd rfl h
      · exact h
    · unfold Registered
      rw [wheel_setWheel_self, hrel.lookup, if_pos rfl]
      exact fun h => h rfl

/-- When no ID is in two wheels, a removed ID is in none. The wheel that is
reached is the only one. -/
theorem not_registered_of_removeTask (hm : m.UniqueIDs) (hl : m.holder id = some l)
    (hloses : Loses m m') (hnot : ¬ m'.Registered l id) (l' : Level) : ¬ m'.Registered l' id := by
  intro hl'
  obtain rfl := hm id l' l (hloses.registered l' id hl') (registered_of_holder hl).2
  exact hnot hl'

/-- Clearing the wheels loses all entries. -/
theorem clearAllTasks_loses (m : MultiLevelTimeWheel) (order : Level → List String)
    (now : Time) : Loses m (m.clearAllTasks order now).2 := by
  have key := fun l => clearAllTasks_lookup l.config (m.wheel l) (order l) now
  refine ⟨fun l => ?_, fun l => ?_⟩
  · cases l <;> exact (key _).1
  · cases l <;> exact (key _).2

/-- `GetTask` finds an ID in the wheels that have an entry for it. It asks them
one after the other. -/
theorem getTask_eq_none (hup : m.Running) :
    (m.getTask id).1 = none ↔ ∀ l, ¬ m.Registered l id := by
  have hget : ∀ l, (m.wheel l).getTask l.config id = ((m.wheel l).lookup l.config id, m.wheel l) := by
    intro l
    unfold TimeWheel.getTask
    rw [(hup l).taskCache]
  have hhigh : m.highPriorityTW.getTask Level.high.config id = _ := hget .high
  have hnormal : m.normalPriorityTW.getTask Level.normal.config id = _ := hget .normal
  have hlow : m.lowPriorityTW.getTask Level.low.config id = _ := hget .low
  have hall : (∀ l, ¬ m.Registered l id) ↔ (m.wheel .high).lookup Level.high.config id = none
      ∧ (m.wheel .normal).lookup Level.normal.config id = none
      ∧ (m.wheel .low).lookup Level.low.config id = none := by
    simp only [Registered, not_not]
    exact ⟨fun h => ⟨h _, h _, h _⟩, fun h l => by cases l; exacts [h.1, h.2.1, h.2.2]⟩
  rw [hall]
  unfold getTask
  rw [hhigh, hnormal, hlow]
  cases (m.wheel .high).lookup Level.high.config id <;>
    cases (m.wheel .normal).lookup Level.normal.config id <;> simp

/-! ## Adding -/

/-- **Adding to the wheel of the priority**, as far as entries are concerned.
The three cases are told apart by the error. -/
inductive Adds (m : MultiLevelTimeWheel) (task : Task) :
    Option Err × MultiLevelTimeWheel → Prop where
  | rejected {err : Err} (check : checkTask task = .error err) : Adds m task (some err, m)
  | duplicate {m' : MultiLevelTimeWheel}
      (taken : m.Registered (levelOf task.priority) task.id) (loses : Loses m m') :
      Adds m task (some .taskAlreadyExists, m')
  | added {m' : MultiLevelTimeWheel} {t' : Task} (check : checkTask task = .ok t')
      (new : ¬ m.Registered (levelOf task.priority) task.id)
      (up : StaysUp m m')
      (registered : ∀ l id, m'.Registered l id
        ↔ (l = levelOf task.priority ∧ id = task.id) ∨ m.Registered l id) :
      Adds m task (none, m')

/-- **`addTask`** of the multi-level wheel hands the task to the wheel of its
priority. -/
theorem addTaskInternal_adds (hup : m.Running) (task : Task) (env : AddEnv) :
    Adds m task (m.addTaskInternal task env) := by
  unfold addTaskInternal
  dsimp only
  rw [if_neg (by rw [(hup _).running]; exact Bool.noConfusion)]
  have hstep := addTask_step (levelOf task.priority).config (m.wheel (levelOf task.priority))
    (some task) env
  generalize (m.wheel (levelOf task.priority)).addTask (levelOf task.priority).config
    (some task) env = r at hstep ⊢
  cases hstep with
  | rejected reason =>
    dsimp only
    rw [setWheel_wheel]
    cases reason with
    | check herr => exact .rejected herr
    | notRunning _ hrun => cases hrun.symm.trans (hup _).running
  | @duplicate t t' n w₁ task_eq check taken got =>
    obtain rfl := Option.some.inj task_eq
    obtain ⟨-, -, hchecked⟩ := checkTask_ok check
    refine .duplicate (hchecked.id_eq ▸ taken) (loses_setWheel
      ⟨got.up.running, got.up.taskCache⟩ (fun id h => ?_))
    -- the node that has been drawn goes back into the pool
    rwa [show (w₁.poolPut n).lookup (levelOf task.priority).config id
      = (m.wheel (levelOf task.priority)).lookup _ id from lookup_congr got.shards id] at h
  | @added t t' n w₁ w' task_eq check new got linked =>
    obtain rfl := Option.some.inj task_eq
    obtain ⟨-, -, hchecked⟩ := checkTask_ok check
    rw [hchecked.id_eq] at new linked
    -- the shard of the ID has one entry more, in this wheel alone
    have hlookup : ∀ id, w'.lookup (levelOf task.priority).config id
        = if id = task.id then some n
          else (m.wheel (levelOf task.priority)).lookup (levelOf task.priority).config id := by
      intro id
      rw [linked.lookup, insertEntry_lookup, lookup_congr got.shards]
    refine .added check (not_not.mpr new)
      (staysUp_setWheel (got.up.trans ⟨linked.up.running, linked.up.taskCache⟩)) (fun l id => ?_)
    unfold Registered
    by_cases hl : l = levelOf task.priority
    · subst hl
      rw [wheel_setWheel_self, hlookup]
      by_cases hid : id = task.id
      · simp [hid]
      · simp [hid]
    · rw [wheel_setWheel_of_ne m hl]
      simp [hl]

/-- `AddTask` of a task that the checks let pass. The checks of the multi-level
wheel come first. -/
theorem addTask_of_accepts (hup : m.Running) {task : Task} (env : AddEnv)
    (h : accepts task = true) :
    m.addTask (some task) env = m.addTaskInternal task env ∧ ∃ t', checkTask task = .ok t' := by
  unfold accepts at h
  cases haccept : acceptTask task with
  | error err => simp [haccept] at h
  | ok t' =>
    refine ⟨?_, t', checkTask_of_acceptTask haccept⟩
    rw [addTask_eq m task env (hup _).running, haccept]
    unfold addTaskInternal
    dsimp only
    rw [if_neg (by rw [(hup _).running]; exact Bool.noConfusion)]

/-- `AddTask` of a task that they do not. Nothing has been done then. -/
theorem addTask_of_not_accepts (hup : m.Running) {task : Task} (env : AddEnv)
    (h : accepts task = false) : ∃ err, m.addTask (some task) env = (some err, m) := by
  unfold accepts at h
  rw [addTask_eq m task env (hup _).running]
  cases haccept : acceptTask task with
  | error err => exact ⟨err, rfl⟩
  | ok t' => simp [haccept] at h

/-- A task added in the only wheel that may have an entry for its ID. The others
have had none before. -/
theorem uniqueIDs_of_registered {l : Level} (hm : m.UniqueIDs)
    (hl : ∀ l', m.Registered l' id → l' = l)
    (h : ∀ l' id', m'.Registered l' id' → (l' = l ∧ id' = id) ∨ m.Registered l' id') :
    m'.UniqueIDs := by
  intro id' l₁ l₂ h₁ h₂
  rcases h l₁ id' h₁ with ⟨rfl, rfl⟩ | h₁
  · rcases h l₂ id' h₂ with ⟨rfl, -⟩ | h₂
    · rfl
    · exact (hl l₂ h₂).symm
  · rcases h l₂ id' h₂ with ⟨rfl, rfl⟩ | h₂
    · exact hl l₁ h₁
    · exact hm id' l₁ l₂ h₁ h₂

/-- **`UpdateTask`** takes the ID out of every wheel before it adds it. It asks
every wheel, so no condition on the priority is needed. -/
theorem updateTask_uniqueIDs (hup : m.Running) (hm : m.UniqueIDs) {task : Option Task}
    {env : AddEnv} {r : Option Err × MultiLevelTimeWheel} (h : m.updateTask task env = some r) :
    r.2.Running ∧ r.2.UniqueIDs := by
  obtain ⟨task, rfl, rfl⟩ := Option.map_eq_some_iff.mp h
  -- adding an ID that is in no wheel
  have key : ∀ m₁ : MultiLevelTimeWheel, m₁.Running → m₁.UniqueIDs →
      (∀ l, ¬ m₁.Registered l task.id) →
      (m₁.addTaskInternal task env).2.Running
        ∧ (m₁.addTaskInternal task env).2.UniqueIDs := by
    intro m₁ hup₁ hm₁ hnot
    have hadds := addTaskInternal_adds hup₁ task env
    generalize m₁.addTaskInternal task env = r at hadds ⊢
    cases hadds with
    | rejected check => exact ⟨hup₁, hm₁⟩
    | duplicate taken loses => exact absurd taken (hnot _)
    | added check new up registered =>
      exact ⟨up.running hup₁, uniqueIDs_of_registered hm₁
        (fun l' hl' => absurd hl' (hnot l')) (fun l' id' hr => (registered l' id').mp hr)⟩
  rcases m.removeTask_lookup task.id with ⟨hh, hremove⟩ | ⟨l, m₁, hh, hremove, hloses, hnot⟩
  · rw [hremove]
    unfold missingErr
    by_cases hid : task.id = ""
    · rw [if_pos hid]
      exact ⟨hup, hm⟩
    · rw [if_neg hid]
      exact key m hup hm ((holder_eq_none.mp hh).resolve_left hid)
  · rw [hremove]
    exact key m₁ (hloses.up.running hup) (hloses.uniqueIDs hm)
      (not_registered_of_removeTask hm hh hloses hnot)

end MultiLevelTimeWheel

/-! ## Runs -/

namespace MultiLevelSystem

variable {s s' : MultiLevelSystem} {a : MultiLevelAction}

/-- **One registration per ID**, after the step and in what the step returned:
no ID is in two wheels; adding an ID that is registered fails, and with
`ErrTaskAlreadyExists` unless the task is rejected anyway; a removed ID is not
found any more. These are the properties a caller may count on if an ID is to
name one task. -/
def OneRegistration (s : MultiLevelSystem) (a : MultiLevelAction) (s' : MultiLevelSystem) :
    Prop :=
  s'.timeWheel.UniqueIDs ∧
    match a with
    | .addTask (some task) env =>
      (∃ l, s.timeWheel.Registered l task.id) →
        (s.timeWheel.addTask (some task) env).1 ≠ none
          ∧ (accepts task = true →
            (s.timeWheel.addTask (some task) env).1 = some .taskAlreadyExists)
    | .removeTask taskID =>
      (s.timeWheel.removeTask taskID).1 = none → (s'.timeWheel.getTask taskID).1 = none
    | _ => True

/-- A task that `AddTask` accepts has its ID in no wheel but the one of its
priority. It can be evaluated before the call. -/
def KeepsPriority (s : MultiLevelSystem) (a : MultiLevelAction) (_ : MultiLevelSystem) : Prop :=
  match a with
  | .addTask (some task) _ =>
    accepts task = true → ∀ l, s.timeWheel.Registered l task.id → l = levelOf task.priority
  | _ => True

/-- The invariant: the wheels are up, and no ID is in two of them. Both are kept
by every step that meets the condition. -/
structure Distinct (s : MultiLevelSystem) : Prop where
  up : s.timeWheel.Running
  uniqueIDs : s.timeWheel.UniqueIDs

/-- No wheel has an entry yet. -/
theorem distinct_of_started (h : s.Started) : s.Distinct := by
  obtain ⟨⟨created, now, hstart⟩, -⟩ := h
  exact ⟨fun l => (start_empty hstart l).1,
    fun id l l' hl => absurd ((start_empty hstart l).2.1 id) hl⟩

/-- A step that loses entries at most. Most steps are of this kind. -/
theorem Distinct.loses (h : s.Distinct) (hl : Loses s.timeWheel s'.timeWheel) : s'.Distinct :=
  ⟨hl.up.running h.up, hl.uniqueIDs h.uniqueIDs⟩

/-- **Adding under the priority the ID is registered with** keeps the invariant,
and a registered ID is refused. With the duplicate goes the error that says so. -/
theorem Distinct.addTask (h : s.Distinct) (task : Option Task) (env : AddEnv)
    (hkeep : s.KeepsPriority (.addTask task env) s') :
    Distinct { s with timeWheel := (s.timeWheel.addTask task env).2 }
      ∧ s.OneRegistration (.addTask task env)
        { s with timeWheel := (s.timeWheel.addTask task env).2 } := by
  cases task with
  | none => exact ⟨h, h.uniqueIDs, trivial⟩
  | some task =>
    cases haccept : accepts task with
    | false =>
      obtain ⟨err, hadd⟩ := addTask_of_not_accepts h.up env haccept
      unfold OneRegistration
      dsimp only
      rw [hadd]
      refine ⟨h, h.uniqueIDs, fun _ => ⟨Option.some_ne_none err, fun hacc => ?_⟩⟩
      exact absurd (haccept.symm.trans hacc) Bool.false_ne_true
    | true =>
      obtain ⟨hadd, t', hcheck⟩ := addTask_of_accepts h.up env haccept
      have hkeep := hkeep haccept
      have hadds := addTaskInternal_adds h.up task env
      unfold OneRegistration
      dsimp only
      rw [hadd]
      generalize s.timeWheel.addTaskInternal task env = r at hadds ⊢
      cases hadds with
      | rejected check => cases check.symm.trans hcheck
      | @duplicate m' taken loses =>
        have hs' : Distinct ⟨m', s.execs⟩ := h.loses loses
        exact ⟨hs', hs'.uniqueIDs, fun _ => ⟨Option.some_ne_none _, fun _ => rfl⟩⟩
      | @added m' t'' check new up registered =>
        have hunique := uniqueIDs_of_registered h.uniqueIDs hkeep
          (fun l' id' hr => (registered l' id').mp hr)
        refine ⟨⟨up.running h.up, hunique⟩, hunique, fun hreg => ?_⟩
        obtain ⟨l, hl⟩ := hreg
        exact absurd (hkeep l hl ▸ hl) new

/-- Adding under another priority puts the ID into two wheels. So the condition
is necessary. -/
theorem Distinct.keepsPriority (h : s.Distinct) (task : Option Task) (env : AddEnv)
    (hq : UniqueIDs (s.timeWheel.addTask task env).2) :
    s.KeepsPriority (.addTask task env) s' := by
  cases task with
  | none => trivial
  | some task =>
    intro haccept l hl
    obtain ⟨hadd, t', hcheck⟩ := addTask_of_accepts h.up env haccept
    have hadds := addTaskInternal_adds h.up task env
    rw [hadd] at hq
    generalize s.timeWheel.addTaskInternal task env = r at hadds hq
    cases hadds with
    | rejected check => cases check.symm.trans hcheck
    | duplicate taken loses => exact h.uniqueIDs task.id l _ hl taken
    | added check new up registered =>
      exact hq task.id l _ ((registered l _).mpr (Or.inr hl))
        ((registered _ _).mpr (Or.inl ⟨rfl, rfl⟩))

/-- **The step lemma.** The background can only lose entries. -/
theorem Distinct.step (h : s.Distinct) (hstep : s.step a = some s')
    (hkeep : s.KeepsPriority a s') : s'.Distinct ∧ s.OneRegistration a s' := by
  cases a with
  | addTask task env =>
    obtain rfl := Option.some.inj hstep
    exact h.addTask task env hkeep
  | updateTask task env =>
    obtain ⟨r, hr, rfl⟩ := Option.map_eq_some_iff.mp hstep
    obtain ⟨hup, hunique⟩ := updateTask_uniqueIDs h.up h.uniqueIDs hr
    exact ⟨⟨hup, hunique⟩, hunique, trivial⟩
  | removeTask taskID =>
    obtain rfl := Option.some.inj hstep
    unfold OneRegistration
    dsimp only
    rcases s.timeWheel.removeTask_lookup taskID with
      ⟨-, hremove⟩ | ⟨l, m', hh, hremove, hloses, hnot⟩
    · rw [hremove]
      exact ⟨h, h.uniqueIDs, fun herr => absurd herr (Option.some_ne_none _)⟩
    · rw [hremove]
      -- the wheel that had the ID has let it go, and no other one had it
      have hs' : Distinct ⟨m', s.execs⟩ := h.loses hloses
      exact ⟨hs', hs'.uniqueIDs, fun _ => (getTask_eq_none hs'.up).mpr
        (not_registered_of_removeTask h.uniqueIDs hh hloses hnot)⟩
  | pauseTask taskID =>
    obtain rfl := Option.some.inj hstep
    have hloses : Loses s.timeWheel (s.timeWheel.pauseTask taskID).2 :=
      loses_firstOf (fun l => pauseTask_eq l.config _ taskID)
    exact ⟨h.loses hloses, hloses.uniqueIDs h.uniqueIDs, trivial⟩
  | resumeTask taskID now =>
    obtain rfl := Option.some.inj hstep
    have hloses : Loses s.timeWheel (s.timeWheel.resumeTask taskID now).2 :=
      loses_firstOf (fun l => resumeTask_eq l.config _ taskID now)
    exact ⟨h.loses hloses, hloses.uniqueIDs h.uniqueIDs, trivial⟩
  | clearAllTasks order now =>
    obtain rfl := Option.some.inj hstep
    have hloses := clearAllTasks_loses s.timeWheel order now
    exact ⟨h.loses hloses, hloses.uniqueIDs h.uniqueIDs, trivial⟩
  | background l b =>
    simp only [MultiLevelSystem.step] at hstep
    split_ifs at hstep with hb
    obtain ⟨t, ht, rfl⟩ := Option.map_eq_some_iff.mp hstep
    -- an execution may end its task, and adds none
    obtain ⟨hup, hlookup⟩ := background_lookup (by simpa using hb) ht
    have hloses : Loses s.timeWheel (s.timeWheel.setWheel l t.wheel) := loses_setWheel hup hlookup
    exact ⟨h.loses hloses, hloses.uniqueIDs h.uniqueIDs, trivial⟩

end MultiLevelSystem

open MultiLevelSystem in
/-- **One registration per ID** is what a run guarantees exactly if each task it
adds goes to the wheel that has its ID, if any has. No assumption is made on the
order of calls, ticks and executions: they may interleave in any way. -/
theorem oneRegistration_iff {s : MultiLevelSystem} (hs : s.Started)
    (as : List MultiLevelAction) :
    Machine.Each MultiLevelSystem.step OneRegistration s as
      ↔ Machine.Each MultiLevelSystem.step KeepsPriority s as := by
  refine Machine.each_iff_of_invariant (P := fun _ => True)
    (fun s a s' _ hinv hstep hkeep => hinv.step hstep hkeep)
    (fun s a s' _ hinv hstep hq => ?_) (fun _ _ => trivial) (distinct_of_started hs)
  cases a with
  | addTask task env =>
    obtain rfl := Option.some.inj hstep
    exact hinv.keepsPriority task env hq.1
  | _ => trivial

/-! ### A system to run -/

/-- The wheel started at time 0, with no execution under way. -/
def freshSystem : MultiLevelSystem := ⟨freshMultiLevelWheel, fun _ => []⟩

theorem started_freshSystem : freshSystem.Started :=
  ⟨⟨_, _, start_freshMultiLevelWheel⟩, fun _ => rfl⟩

/-- A task to run every second, with a priority. -/
def everySecond (id : String) (priority : TaskPriority) : Task :=
  { Task.plain id .repeated (Duration.ofMilli 1000) with priority := priority }

instance (s : MultiLevelSystem) (a : MultiLevelAction) (s' : MultiLevelSystem) :
    Decidable (s.KeepsPriority a s') :=
  match a with
  | .addTask (some task) _ => inferInstanceAs (Decidable
      (accepts task = true → ∀ l, s.timeWheel.Registered l task.id → l = levelOf task.priority))
  | .addTask none _ => isTrue trivial
  | .updateTask _ _ => isTrue trivial
  | .removeTask _ => isTrue trivial
  | .pauseTask _ => isTrue trivial
  | .resumeTask _ _ => isTrue trivial
  | .clearAllTasks _ _ => isTrue trivial
  | .background _ _ => isTrue trivial

/-- An ID added twice under a priority below the range, moved to another
wheel by `UpdateTask`, added there again and removed. -/
theorem oneRegistration_of_update :
    Machine.Each MultiLevelSystem.step MultiLevelSystem.OneRegistration freshSystem
      [.addTask (some (everySecond "a" (-1))) newNodeEnv,
        .addTask (some (everySecond "a" 0)) newNodeEnv,
        .updateTask (some (everySecond "a" 7)) newNodeEnv,
        .addTask (some (everySecond "a" 2)) newNodeEnv,
        .removeTask "a"] :=
  (oneRegistration_iff started_freshSystem _).mpr (by decide +kernel)

/-- The same ID added under two priorities. -/
theorem not_oneRegistration_of_two_priorities :
    ¬ Machine.Each MultiLevelSystem.step MultiLevelSystem.OneRegistration freshSystem
      [.addTask (some (everySecond "a" 0)) newNodeEnv,
        .addTask (some (everySecond "a" 2)) newNodeEnv] := by
  intro h
  obtain ⟨-, h⟩ := h _ rfl
  obtain ⟨⟨hunique, -⟩, -⟩ := h _ rfl
  have hlevels := hunique "a" .high .low (by decide +kernel) (by decide +kernel)
  exact absurd hlevels (by decide)

end Timewheel
