import Timewheel.History
import Timewheel.Traces

/-!
# Three timetables

What the multi-level wheel is for, over the same tables as a single wheel: a
timetable for each level. A task is entered in the table of its priority; the
calls that take an ID go to the first table that has a timer under it; and
`UpdateTask` drops that timer before it enters the new one, so that a refused
update leaves the ID without it.

Each step of the three wheels with their executions is one of the three
tables, as long as each wheel is stepped with care, and so is every run
(`timetables_of_careful`). What a table guarantees of every trace then holds of
each level.

There is no new argument about nodes and lists here. A call on the multi-level
wheel is one or more steps of single wheels, for which the refinement of a
single wheel is used as it is (`Represented.step`), and what is left is which
wheel that is.
-/

namespace Timewheel

open DList TimeWheel Scheduler Simulation
open MultiLevelTimeWheel

/-! ## The system -/

/-- The three wheels, and what goes on in each of them. Each wheel has its own
pool. -/
structure Levels where
  timeWheel : MultiLevelTimeWheel
  activity : Level → Activity

namespace Levels

/-- One wheel with its executions. What is known of single wheels applies to it. -/
def scheduler (s : Levels) (l : Level) : Scheduler :=
  ⟨s.timeWheel.wheel l, (s.activity l).execs, (s.activity l).invoked, (s.activity l).panicked⟩

/-- One wheel has moved on. The others do not notice. -/
def setScheduler (s : Levels) (l : Level) (t : Scheduler) : Levels where
  timeWheel := s.timeWheel.setWheel l t.wheel
  activity := Function.update s.activity l ⟨t.execs, t.invoked, t.panicked⟩

/-- The system without the record of what was called. -/
def system (s : Levels) : MultiLevelSystem := ⟨s.timeWheel, fun l => (s.activity l).execs⟩

/-- **The step function.** Calls come through the multi-level wheel, so the
background of a level has none. -/
def step (s : Levels) : MultiLevelAction → Option Levels
  | .background l a =>
    if a.isCall then none
    else ((s.scheduler l).step l.config a).map (fun t => s.setScheduler l t)
  | a => (s.system.step a).map (fun t => { s with timeWheel := t.timeWheel })

/-- The system right after `NewMultiLevelTimeWheel` and `Start`. -/
def Started (s : Levels) : Prop := s.system.Started ∧ ∀ l, s.activity l = ⟨[], [], []⟩

/-- **The condition on a step**: the wheel that takes part in it is stepped with
care. Calls that take no node from the pool need no care. -/
def StepsCarefully (s : Levels) : MultiLevelAction → Prop
  | .addTask (some task) env =>
    Careful (levelOf task.priority).config (s.scheduler (levelOf task.priority))
      (.addTask (some task) env)
  | .updateTask (some task) env =>
    Careful (levelOf task.priority).config (s.scheduler (levelOf task.priority))
      (.addTask (some task) env)
  | .background l a => Careful l.config (s.scheduler l) a
  | _ => True

instance (s : Levels) : ∀ a, Decidable (s.StepsCarefully a)
  | .addTask (some task) env => inferInstanceAs (Decidable
      (Careful (levelOf task.priority).config (s.scheduler (levelOf task.priority))
        (.addTask (some task) env)))
  | .updateTask (some task) env => inferInstanceAs (Decidable
      (Careful (levelOf task.priority).config (s.scheduler (levelOf task.priority))
        (.addTask (some task) env)))
  | .background l a => inferInstanceAs (Decidable (Careful l.config (s.scheduler l) a))
  | .addTask none _ => isTrue trivial
  | .updateTask none _ => isTrue trivial
  | .removeTask _ => isTrue trivial
  | .pauseTask _ => isTrue trivial
  | .resumeTask _ _ => isTrue trivial
  | .clearAllTasks _ _ => isTrue trivial

end Levels

/-! ## The specification -/

/-- What is asked of the multi-level wheel, and what happens in its wheels. The
times are those at which the call reads the clock. -/
inductive LevelsRequest where
  | addTask (task : Option Task) (now : Time)
  | updateTask (task : Option Task) (now : Time)
  | removeTask (taskID : String)
  | pauseTask (taskID : String)
  | resumeTask (taskID : String) (now : Time)
  | clearAllTasks
  | background (l : Level) (r : Request)

/-- The ID a call is for, when it is all that the call is given. -/
def LevelsRequest.taskID : LevelsRequest → Option String
  | .removeTask taskID => some taskID
  | .pauseTask taskID => some taskID
  | .resumeTask taskID _ => some taskID
  | _ => none

/-- A table for each level. Each is a specification of its own; together they
are that of the multi-level wheel. -/
abbrev Timetables := Level → Timetable

namespace Timetables

variable (tts : Timetables)

/-- **The timer that a call for the ID reaches**: that of the first level that
has one. The levels are gone through in the order of their intervals. -/
structure First (id : String) (l : Level) (x : Timer) : Prop where
  held : (tts l).timers id = some x
  earlier : ∀ l', l'.interval < l.interval → (tts l').timers id = none

/-- The tables after `RemoveTask`, whatever it returns. At most one table
changes. -/
inductive Removed (id : String) : Timetables → Prop where
  | free (free : ∀ l, (tts l).timers id = none) : Removed id tts
  | first {l : Level} {x : Timer} (first : First tts id l x) :
      Removed id (Function.update tts l ((tts l).drop id))

/-- **The specification.** A label is a request together with what was returned,
so the answers are part of what is specified. -/
inductive Next : LevelsRequest × Response → Timetables → Prop where
  | addNil {now : Time} : Next (.addTask none now, .returned (some .invalidParam)) tts
  | addUnfit {task : Task} {now : Time} {err : Err} (check : acceptTask task = .error err) :
      Next (.addTask (some task) now, .returned (some err)) tts
  | addTask {task task' : Task} {now : Time} {err : Option Err} {t' : Timetable}
      (accepted : acceptTask task = .ok task')
      (add : Timetable.Adds (levelOf task.priority).config (tts (levelOf task.priority)) now
        (some task) err t') :
      Next (.addTask (some task) now, .returned err)
        (Function.update tts (levelOf task.priority) t')
  | updateInvalid {task : Task} {now : Time} (id_eq : task.id = "") :
      Next (.updateTask (some task) now, .returned (some .invalidParam)) tts
  /-- The timer is dropped first, also when the new task is refused. -/
  | updateTask {task : Task} {now : Time} {err : Option Err} {tts₁ : Timetables} {t' : Timetable}
      (id_ne : task.id ≠ "") (removed : Removed tts task.id tts₁)
      (add : Timetable.Adds (levelOf task.priority).config (tts₁ (levelOf task.priority)) now
        (some task) err t') :
      Next (.updateTask (some task) now, .returned err)
        (Function.update tts₁ (levelOf task.priority) t')
  | missing {r : LevelsRequest} {id : String} (call : r.taskID = some id)
      (free : ∀ l, (tts l).timers id = none) :
      Next (r, .returned (some (missingErr id))) tts
  | removeTask {id : String} {l : Level} {x : Timer} (first : First tts id l x) :
      Next (.removeTask id, .returned none) (Function.update tts l ((tts l).drop id))
  | pauseTask {id : String} {l : Level} {x : Timer} (first : First tts id l x) :
      Next (.pauseTask id, .returned none)
        (Function.update tts l ((tts l).put id { x with paused := true }))
  | resumeTask {id : String} {now : Time} {l : Level} {x : Timer} (first : First tts id l x) :
      Next (.resumeTask id now, .returned none)
        (Function.update tts l ((tts l).put id (x.resume now)))
  | clearAllTasks :
      Next (.clearAllTasks, .cleared ((levels.map (fun l => (tts l).ids.ncard)).sum))
        (fun l => (tts l).clear)
  | background {l : Level} {r : Request} {t' : Timetable} (call : r.isCall = false)
      (next : Timetable.Next l.config (tts l) (r, .silent) t') :
      Next (.background l r, .silent) (Function.update tts l t')

end Timetables

/-! ## What is observed -/

/-- What is asked, without what it leaves open. Left out is which node the pool
hands out, and in which order a map is iterated. -/
def MultiLevelAction.request : MultiLevelAction → LevelsRequest
  | .addTask task env => .addTask task env.now
  | .updateTask task env => .updateTask task env.now
  | .removeTask taskID => .removeTask taskID
  | .pauseTask taskID => .pauseTask taskID
  | .resumeTask taskID now => .resumeTask taskID now
  | .clearAllTasks _ _ => .clearAllTasks
  | .background l a => .background l a.request

namespace Levels

/-- What the calls return. The background returns nothing. -/
def response (s : Levels) : MultiLevelAction → Response
  | .addTask task env => .returned (s.timeWheel.addTask task env).1
  | .updateTask task env =>
    match s.timeWheel.updateTask task env with
    | some (err, _) => .returned err
    | none => .silent
  | .removeTask taskID => .returned (s.timeWheel.removeTask taskID).1
  | .pauseTask taskID => .returned (s.timeWheel.pauseTask taskID).1
  | .resumeTask taskID now => .returned (s.timeWheel.resumeTask taskID now).1
  | .clearAllTasks order now => .cleared (s.timeWheel.clearAllTasks order now).1
  | .background _ _ => .silent

/-- What is observed of a step. Traces are made of these. -/
def observed (s : Levels) (a : MultiLevelAction) : LevelsRequest × Response :=
  (a.request, s.response a)

variable {s s' : Levels} {a : MultiLevelAction} {l : Level} {id : String} {m : MultiLevelTimeWheel}
  {w : TimeWheel} {tts : Timetables} {task : Task} {env : AddEnv}

/-- The wheel that was set, -/
@[simp] theorem scheduler_setScheduler_self (s : Levels) (l : Level) (t : Scheduler) :
    (s.setScheduler l t).scheduler l = t := by
  unfold scheduler setScheduler
  simp

/-- and the others. -/
theorem scheduler_setScheduler_of_ne (s : Levels) {l l' : Level} (h : l' ≠ l) (t : Scheduler) :
    (s.setScheduler l t).scheduler l' = s.scheduler l' := by
  unfold scheduler setScheduler
  simp only [wheel_setWheel_of_ne _ h, Function.update_of_ne h]

/-- A wheel that changes by a call. The executions are the same. -/
theorem setWheel_eq (s : Levels) (l : Level) (w : TimeWheel) :
    { s with timeWheel := s.timeWheel.setWheel l w }
      = s.setScheduler l { s.scheduler l with wheel := w } := by
  unfold setScheduler scheduler
  simp only [Function.update_eq_self]

/-! ## The tables of the wheels -/

/-- Each table stands for the wheel of its level with its executions. This is
the relation of the simulation. -/
def Represented (s : Levels) (tts : Timetables) : Prop :=
  ∀ l, ∃ lists, Represents l.config (s.scheduler l) lists (tts l)

/-- One wheel and its table move on. The others stay represented. -/
theorem Represented.setScheduler (h : s.Represented tts) {t : Scheduler} {t' : Timetable}
    (ht : ∃ lists, Represents l.config t lists t') :
    (s.setScheduler l t).Represented (Function.update tts l t') := by
  intro l'
  by_cases hl : l' = l
  · subst hl
    simpa using ht
  · rw [scheduler_setScheduler_of_ne s hl, Function.update_of_ne hl]
    exact h l'

/-- **A step of one wheel**, careful as it is, is a step of its table. All that
a wheel does inside is settled by this. -/
theorem Represented.step (h : s.Represented tts) {a : Action} {t : Scheduler}
    (hcareful : Careful l.config (s.scheduler l) a)
    (hstep : (s.scheduler l).step l.config a = some t) :
    ∃ t', Timetable.Next l.config (tts l) (Timewheel.observed l.config (s.scheduler l) a) t'
      ∧ (s.setScheduler l t).Represented (Function.update tts l t') := by
  obtain ⟨lists, hl⟩ := h l
  obtain ⟨lists', t', hnext, ht'⟩ := represents_of_step hl hcareful hstep
  exact ⟨t', hnext, h.setScheduler ⟨lists', ht'⟩⟩

/-- A table has a timer under an ID exactly if the wheel has an entry, -/
theorem Represented.timers_eq_none (h : s.Represented tts) (l : Level) (id : String) :
    (tts l).timers id = none ↔ ¬ s.timeWheel.Registered l id := by
  obtain ⟨lists, hl⟩ := h l
  rw [Registered, not_not]
  exact ⟨hl.mirrors.lookup_eq_none, hl.mirrors.timer_eq_none⟩

/-- and represented wheels are running. -/
theorem Represented.running (h : s.Represented tts) (l : Level) :
    (s.timeWheel.wheel l).running = true := by
  obtain ⟨lists, hl⟩ := h l
  exact hl.mirrors.running

/-- No table has a timer under the empty ID. The wheels refuse it. -/
theorem Represented.timers_empty (h : s.Represented tts) (l : Level) :
    (tts l).timers "" = none := by
  obtain ⟨lists, hl⟩ := h l
  cases hx : (tts l).timers "" with
  | none => rfl
  | some x => exact absurd rfl (hl.mirrors.id_ne hx)

/-- No wheel has an entry for the ID. So no table has a timer. -/
theorem Represented.free_of_holder (h : s.Represented tts) (hh : s.timeWheel.holder id = none)
    (l : Level) : (tts l).timers id = none := by
  rcases holder_eq_none.mp hh with rfl | hnone
  · exact h.timers_empty l
  · exact (h.timers_eq_none l id).mpr (hnone l)

/-- The levels before the one that is found first. They have been asked in vain. -/
theorem not_registered_of_holder (hh : m.holder id = some l) {l' : Level}
    (hl : l'.interval < l.interval) : ¬ m.Registered l' id := by
  obtain ⟨hid, hreg⟩ := registered_of_holder hh
  unfold holder levels at hh
  intro hl'
  cases l <;> cases l' <;> first | exact absurd hl (by decide) | simp [hid, hl'] at hh

/-- The wheel that a call reaches has the first timer. The two orders are the
same. -/
theorem Represented.first_of_holder (h : s.Represented tts)
    (hh : s.timeWheel.holder id = some l) : ∃ x, tts.First id l x := by
  obtain ⟨hid, hreg⟩ := registered_of_holder hh
  obtain ⟨x, hx⟩ := Option.ne_none_iff_exists'.mp
    (fun hnone => (h.timers_eq_none l id).mp hnone hreg)
  exact ⟨x, hx, fun l' hl => (h.timers_eq_none l' id).mpr (not_registered_of_holder hh hl)⟩

/-! ## The calls -/

/-- A call that takes no node is careful. Care is about nodes that are handed
out while they are in use. -/
theorem careful_of_given {cfg : Config} {t : Scheduler} {a : Action} (hcall : a.isCall = true)
    (hgiven : a.given = ∅) : Careful cfg t a where
  idle := fun e _ => by
    rw [hgiven]
    exact Set.notMem_empty e.node
  own := fun i e ha _ => by
    subst ha
    exact absurd hcall Bool.false_ne_true

/-- **The calls that take an ID**: no table has a timer under it, or the first
one that has one makes the step. The three calls below are instances. -/
theorem Represented.firstOf (h : s.Represented tts)
    {op : Level → TimeWheel → Option Err × TimeWheel} {a : Action} (hcall : a.isCall = true)
    (hgiven : a.given = ∅)
    (hstep : ∀ l, (s.scheduler l).step l.config a
      = some { s.scheduler l with wheel := (op l (s.timeWheel.wheel l)).2 })
    (hresponse : ∀ l, (s.scheduler l).response l.config a
      = .returned (op l (s.timeWheel.wheel l)).1)
    (hop : ∀ l, ∃ g, op l (s.timeWheel.wheel l) = withEntry l.config (s.timeWheel.wheel l) id g
      ∧ ∀ n, (g n).1 = none) :
    ((∀ l, (tts l).timers id = none)
        ∧ s.timeWheel.firstOf op = (some (missingErr id), s.timeWheel))
      ∨ ∃ l x t', tts.First id l x ∧ (s.timeWheel.firstOf op).1 = none
        ∧ Timetable.Next l.config (tts l) (a.request, .returned none) t'
        ∧ Represented { s with timeWheel := (s.timeWheel.firstOf op).2 }
          (Function.update tts l t') := by
  rw [firstOf_withEntry hop]
  cases hh : s.timeWheel.holder id with
  | none => exact Or.inl ⟨h.free_of_holder hh, rfl⟩
  | some l =>
    obtain ⟨x, hx⟩ := h.first_of_holder hh
    obtain ⟨hid, hreg⟩ := registered_of_holder hh
    obtain ⟨n, hn⟩ := Option.ne_none_iff_exists'.mp hreg
    obtain ⟨g, hg, hnone⟩ := hop l
    have herr : (op l (s.timeWheel.wheel l)).1 = none := by
      rw [hg, withEntry_found hid hn]
      exact hnone n
    obtain ⟨t', hnext, ht'⟩ := h.step (careful_of_given hcall hgiven) (hstep l)
    unfold Timewheel.observed at hnext
    rw [hresponse l, herr] at hnext
    rw [← setWheel_eq] at ht'
    exact Or.inr ⟨l, x, t', hx, rfl, hnext, ht'⟩

/-- `RemoveTask` drops the first timer, -/
theorem Represented.removeTask (h : s.Represented tts) (id : String) :
    ((∀ l, (tts l).timers id = none)
        ∧ s.timeWheel.removeTask id = (some (missingErr id), s.timeWheel))
      ∨ ∃ l x, tts.First id l x ∧ (s.timeWheel.removeTask id).1 = none
        ∧ Represented { s with timeWheel := (s.timeWheel.removeTask id).2 }
          (Function.update tts l ((tts l).drop id)) := by
  have hop := fun l => (removeTask_eq l.config (s.timeWheel.wheel l) id true).imp
    (fun _ hg => And.intro hg.1 (fun n => (hg.2 n).1))
  rcases @Represented.firstOf s id tts h (fun l w => w.removeTask l.config id true)
      (.removeTask id true) rfl rfl (fun _ => rfl) (fun _ => rfl) hop
    with hfree | ⟨l, x, t', hx, herr, hnext, ht'⟩
  · exact Or.inl hfree
  · cases hnext with
    | removeTask held => exact Or.inr ⟨l, x, hx, herr, ht'⟩

/-- `PauseTask` pauses it, -/
theorem Represented.pauseTask (h : s.Represented tts) (id : String) :
    ((∀ l, (tts l).timers id = none)
        ∧ s.timeWheel.pauseTask id = (some (missingErr id), s.timeWheel))
      ∨ ∃ l x, tts.First id l x ∧ (s.timeWheel.pauseTask id).1 = none
        ∧ Represented { s with timeWheel := (s.timeWheel.pauseTask id).2 }
          (Function.update tts l ((tts l).put id { x with paused := true })) := by
  have hop := fun l => (pauseTask_eq l.config (s.timeWheel.wheel l) id).imp
    (fun _ hg => And.intro hg.1 (fun n => (hg.2 n).1))
  rcases @Represented.firstOf s id tts h (fun l w => w.pauseTask l.config id)
      (.pauseTask id) rfl rfl (fun _ => rfl) (fun _ => rfl) hop
    with hfree | ⟨l, x, t', hx, herr, hnext, ht'⟩
  · exact Or.inl hfree
  · cases hnext with
    | pauseTask held =>
      obtain rfl := Option.some.inj (held.symm.trans hx.held)
      exact Or.inr ⟨l, _, hx, herr, ht'⟩

/-- and `ResumeTask` sets it going again. -/
theorem Represented.resumeTask (h : s.Represented tts) (id : String) (now : Time) :
    ((∀ l, (tts l).timers id = none)
        ∧ s.timeWheel.resumeTask id now = (some (missingErr id), s.timeWheel))
      ∨ ∃ l x, tts.First id l x ∧ (s.timeWheel.resumeTask id now).1 = none
        ∧ Represented { s with timeWheel := (s.timeWheel.resumeTask id now).2 }
          (Function.update tts l ((tts l).put id (x.resume now))) := by
  have hop := fun l => (resumeTask_eq l.config (s.timeWheel.wheel l) id now).imp
    (fun _ hg => And.intro hg.1 (fun n => (hg.2 n).1))
  rcases @Represented.firstOf s id tts h (fun l w => w.resumeTask l.config id now)
      (.resumeTask id now) rfl rfl (fun _ => rfl) (fun _ => rfl) hop
    with hfree | ⟨l, x, t', hx, herr, hnext, ht'⟩
  · exact Or.inl hfree
  · cases hnext with
    | resumeTask held =>
      obtain rfl := Option.some.inj (held.symm.trans hx.held)
      exact Or.inr ⟨l, _, hx, herr, ht'⟩

/-- `addTask` enters the task in the table of its priority. This is the step of
the one wheel. -/
theorem Represented.addTaskInternal (h : s.Represented tts)
    (hcareful : Careful (levelOf task.priority).config (s.scheduler (levelOf task.priority))
      (.addTask (some task) env)) :
    ∃ t', Timetable.Adds (levelOf task.priority).config (tts (levelOf task.priority)) env.now
        (some task) (s.timeWheel.addTaskInternal task env).1 t'
      ∧ Represented { s with timeWheel := (s.timeWheel.addTaskInternal task env).2 }
        (Function.update tts (levelOf task.priority) t') := by
  obtain ⟨t', hnext, ht'⟩ := h.step hcareful rfl
  rw [← setWheel_eq] at ht'
  unfold MultiLevelTimeWheel.addTaskInternal
  dsimp only
  rw [if_neg (by simp [h.running])]
  cases hnext with
  | addTask add => exact ⟨t', add, ht'⟩

/-- `ClearAllTasks` clears each table. The numbers of tasks add up. -/
theorem Represented.clearAllTasks (h : s.Represented tts) (order : Level → List String)
    (now : Time) :
    (s.timeWheel.clearAllTasks order now).1 = (levels.map (fun l => (tts l).ids.ncard)).sum
      ∧ Represented { s with timeWheel := (s.timeWheel.clearAllTasks order now).2 }
        (fun l => (tts l).clear) := by
  have key : ∀ l, ((s.timeWheel.wheel l).clearAllTasks l.config (order l) now).1
        = (tts l).ids.ncard
      ∧ ∃ lists, Represents l.config { s.scheduler l with
          wheel := ((s.timeWheel.wheel l).clearAllTasks l.config (order l) now).2 } lists
        (tts l).clear := by
    intro l
    obtain ⟨lists, hl⟩ := h l
    obtain ⟨lists', t', hnext, ht'⟩ := @represents_of_step _ _ _ _ _
      (.clearAllTasks (order l) now) hl (careful_of_given rfl rfl) rfl
    generalize hcount : Timewheel.observed _ _ _ = o at hnext
    obtain ⟨-, hr⟩ := Prod.mk.inj hcount
    cases hnext with
    | clearAllTasks => exact ⟨Response.cleared.inj hr, lists', ht'⟩
    | _ => exact Response.noConfusion hr
  constructor
  · have hsum : (s.timeWheel.clearAllTasks order now).1 = (levels.map (fun l =>
        ((s.timeWheel.wheel l).clearAllTasks l.config (order l) now).1)).sum := by
      unfold MultiLevelTimeWheel.clearAllTasks levels
      simp only [List.map_cons, List.map_nil, List.sum_cons, List.sum_nil, Nat.add_zero,
        Nat.add_assoc]
      rfl
    rw [hsum]
    exact congrArg List.sum (List.map_congr_left (fun l _ => (key l).1))
  · intro l
    cases l <;> exact (key _).2

/-- **`AddTask`**, with the checks before it. -/
theorem Represented.addTask (h : s.Represented tts) {task : Option Task}
    (hcareful : s.StepsCarefully (.addTask task env)) :
    ∃ tts', tts.Next (s.observed (.addTask task env)) tts'
      ∧ Represented { s with timeWheel := (s.timeWheel.addTask task env).2 } tts' := by
  unfold observed response
  cases task with
  | none => exact ⟨tts, .addNil, h⟩
  | some task =>
    cases haccept : acceptTask task with
    | error err =>
      have hadd : s.timeWheel.addTask (some task) env = (some err, s.timeWheel) := by
        rw [addTask_eq _ task env (h.running _), haccept]
      dsimp only
      rw [hadd]
      exact ⟨tts, .addUnfit haccept, h⟩
    | ok task' =>
      have hadd : s.timeWheel.addTask (some task) env = s.timeWheel.addTaskInternal task env := by
        rw [addTask_eq _ task env (h.running _), haccept]
        unfold MultiLevelTimeWheel.addTaskInternal
        dsimp only
        rw [if_neg (by simp [h.running])]
      obtain ⟨t', add, ht'⟩ := h.addTaskInternal hcareful
      dsimp only
      rw [hadd]
      exact ⟨_, .addTask haccept add, ht'⟩

/-- The second half of `UpdateTask`. The wheel it adds to has perhaps just lost
the old task. -/
theorem Represented.addRemoved {tts₁ : Timetables}
    (h : Represented { s with timeWheel := m } tts₁)
    (hcareful : s.StepsCarefully (.updateTask (some task) env)) (hid : task.id ≠ "")
    (hremoved : tts.Removed task.id tts₁) :
    ∃ tts', tts.Next (.updateTask (some task) env.now, .returned (m.addTaskInternal task env).1) tts'
      ∧ Represented { s with timeWheel := (m.addTaskInternal task env).2 } tts' := by
  have hidle : Careful (levelOf task.priority).config
      (scheduler { s with timeWheel := m } (levelOf task.priority)) (.addTask (some task) env) :=
    ⟨hcareful.idle, fun i e ha => nomatch ha⟩
  obtain ⟨t', add, ht'⟩ := h.addTaskInternal hidle
  exact ⟨_, .updateTask hid hremoved add, ht'⟩

/-- **`UpdateTask`** drops the first timer of the ID, and enters the new one.
The two halves may concern two different tables. -/
theorem Represented.updateTask (h : s.Represented tts)
    (hcareful : s.StepsCarefully (.updateTask (some task) env))
    {r : Option Err × MultiLevelTimeWheel} (hr : s.timeWheel.updateTask (some task) env = some r) :
    ∃ tts', tts.Next (.updateTask (some task) env.now, .returned r.1) tts'
      ∧ Represented { s with timeWheel := r.2 } tts' := by
  obtain ⟨task', htask, rfl⟩ := Option.map_eq_some_iff.mp hr
  obtain rfl := Option.some.inj htask
  rcases h.removeTask task.id with ⟨hfree, heq⟩ | ⟨l, x, hx, herr, hremoved⟩
  · rw [heq]
    unfold missingErr
    by_cases hid : task.id = ""
    · rw [if_pos hid]
      exact ⟨tts, .updateInvalid hid, h⟩
    · rw [if_neg hid]
      exact addRemoved h hcareful hid (.free hfree)
  · generalize s.timeWheel.removeTask task.id = r at herr hremoved
    obtain ⟨err, m⟩ := r
    obtain rfl : err = none := herr
    refine addRemoved hremoved hcareful (fun hid => ?_) (.first hx)
    have hheld := hx.held
    rw [hid, h.timers_empty] at hheld
    exact absurd hheld (Option.some_ne_none x).symm

/-! ## Runs -/

/-- The answer of a step that is no call. It is not observed. -/
theorem response_of_not_isCall {cfg : Config} {t : Scheduler} {a : Action}
    (h : a.isCall = false) : t.response cfg a = .silent := by
  cases a <;> first | rfl | exact absurd h.symm Bool.false_ne_true

/-- Requests are calls when the actions are. -/
theorem request_isCall (a : Action) : a.request.isCall = a.isCall := by
  cases a <;> rfl

/-- **Each step of the three wheels is a step of the three tables.** -/
theorem simulates_of_stepsCarefully :
    Simulates Levels.step observed (fun s a _ => s.StepsCarefully a) Timetables.Next
      Represented := by
  intro s a s' tts h hcareful hstep
  unfold observed
  cases a with
  | addTask task env =>
    obtain rfl := Option.some.inj hstep
    exact h.addTask hcareful
  | updateTask task env =>
    obtain ⟨t, ht, rfl⟩ := Option.map_eq_some_iff.mp hstep
    obtain ⟨r, hr, rfl⟩ := Option.map_eq_some_iff.mp ht
    cases task with
    -- there is no task to update: the code panics
    | none => exact absurd hr (Option.some_ne_none r).symm
    | some task =>
      have hr' : s.timeWheel.updateTask (some task) env = some r := hr
      unfold response
      dsimp only
      rw [hr']
      exact h.updateTask hcareful hr'
  | removeTask taskID =>
    obtain rfl := Option.some.inj hstep
    unfold response
    dsimp only [system]
    -- no table has the ID, or the first one that has it takes the step
    rcases h.removeTask taskID with ⟨hfree, heq⟩ | ⟨l, x, hx, herr, ht⟩
    · rw [heq]
      exact ⟨tts, .missing rfl hfree, h⟩
    · rw [herr]
      exact ⟨_, .removeTask hx, ht⟩
  | pauseTask taskID =>
    obtain rfl := Option.some.inj hstep
    unfold response
    dsimp only [system]
    rcases h.pauseTask taskID with ⟨hfree, heq⟩ | ⟨l, x, hx, herr, ht⟩
    · rw [heq]
      exact ⟨tts, .missing rfl hfree, h⟩
    · rw [herr]
      exact ⟨_, .pauseTask hx, ht⟩
  | resumeTask taskID now =>
    obtain rfl := Option.some.inj hstep
    unfold response
    dsimp only [system]
    rcases h.resumeTask taskID now with ⟨hfree, heq⟩ | ⟨l, x, hx, herr, ht⟩
    · rw [heq]
      exact ⟨tts, .missing rfl hfree, h⟩
    · rw [herr]
      exact ⟨_, .resumeTask hx, ht⟩
  | clearAllTasks order now =>
    obtain rfl := Option.some.inj hstep
    obtain ⟨hcount, ht⟩ := h.clearAllTasks order now
    unfold response
    dsimp only [system]
    rw [hcount]
    exact ⟨_, .clearAllTasks, ht⟩
  | background l a =>
    unfold Levels.step at hstep
    dsimp only at hstep
    split_ifs at hstep with hcall
    -- a wheel steps by itself, and with it the table of its level
    obtain ⟨t, ht, rfl⟩ := Option.map_eq_some_iff.mp hstep
    have hcall := Bool.eq_false_iff.mpr hcall
    obtain ⟨t', hnext, ht'⟩ := h.step hcareful ht
    unfold Timewheel.observed at hnext
    rw [response_of_not_isCall hcall] at hnext
    exact ⟨_, .background ((request_isCall a).trans hcall) hnext, ht'⟩

/-- The tables of wheels that have just been started. -/
def startedTables (s : Levels) : Timetables := fun l => .empty (s.timeWheel.wheel l).currentSlot

/-- Wheels that have just been started are represented by empty tables. -/
theorem represented_of_started (h : s.Started) : s.Represented s.startedTables := by
  obtain ⟨⟨⟨created, now, hstart⟩, -⟩, hactivity⟩ := h
  intro l
  obtain ⟨created', now', hwheel⟩ := start_wheel hstart l
  have heq : s.scheduler l = ofWheel (s.timeWheel.wheel l) := by
    unfold scheduler ofWheel
    rw [hactivity]
  rw [heq]
  exact ⟨_, represents_of_started ⟨false, none, created', now', hwheel⟩⟩

/-- **The multi-level wheel is three timetables.** In every run of its calls with
the ticks and executions of the three wheels, in which each wheel is stepped
with care, what is asked and answered is a trace of the three tables, and the
tables it leads to show the wheels. -/
theorem timetables_of_careful (h : s.Started) {as : List MultiLevelAction}
    (hcareful : Machine.Each Levels.step (fun s a _ => s.StepsCarefully a) s as)
    (hrun : Machine.run Levels.step s as = some s') :
    ∃ tts, Trace Timetables.Next s.startedTables (labels Levels.step observed s as) tts
      ∧ ∀ l, Shows l.config (s'.scheduler l) (tts l) := by
  obtain ⟨tts, htrace, hs'⟩ :=
    simulates_of_stepsCarefully.trace (represented_of_started h) hcareful hrun
  exact ⟨tts, htrace, fun l => (hs' l).elim (fun _ hl => hl.shows)⟩

/-- The wheels started at time 0. -/
def fresh : Levels := ⟨freshMultiLevelWheel, fun _ => ⟨[], [], []⟩⟩

theorem started_fresh : fresh.Started := ⟨started_freshSystem, fun _ => rfl⟩

/-- A task to run at every tick of the fast wheel. -/
def everyTick (id : String) : Task :=
  { Task.plain id .repeated (Duration.ofMilli 10) with priority := 0 }

/-- A task is moved to another wheel while its function runs, and removed
there. -/
def movedRun : List MultiLevelAction :=
  [.addTask (some (everyTick "a")) newNodeEnv, .addTask (some (everySecond "b" 2)) newNodeEnv,
    .background .high (.tick (Time.ofMilli 10)), .background .high (.start 0),
    .updateTask (some (everySecond "a" 1)) newNodeEnv, .pauseTask "b",
    .background .high (.finish 0 .zero), .resumeTask "a" (Time.ofMilli 20), .removeTask "a",
    .removeTask "a"]

/-- A task moves to another level while it is executed, and another one is
paused on the way; the tables show all of it. -/
theorem timetables_of_moved : ∃ s tts, Machine.run Levels.step fresh movedRun = some s
    ∧ Trace Timetables.Next fresh.startedTables (labels Levels.step observed fresh movedRun) tts
    ∧ ∀ l, Shows l.config (s.scheduler l) (tts l) := by
  obtain ⟨s, hs⟩ : ∃ s, Machine.run Levels.step fresh movedRun = some s :=
    Option.isSome_iff_exists.mp (by decide +kernel)
  obtain ⟨tts, htrace, hshows⟩ := timetables_of_careful started_fresh (by decide +kernel) hs
  exact ⟨s, tts, hs, htrace, hshows⟩

end Levels

end Timewheel
