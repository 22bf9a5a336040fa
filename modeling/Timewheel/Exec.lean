import Timewheel.Calls
import Timewheel.Lib.Run

/-!
# Executions

A tick collects the due nodes of its slot and hands each of them to the
goroutine pool; from then on an execution holds a pointer to the node, the
time of the tick and the slot the tick handled, while the wheel goes on. The
system below is the wheel together with its executions, and interleaves

* the calls of the interface, each one atomic step,
* the collection of a tick,
* the start of an execution: `checkTaskState`, `copyTaskInfo` and the checks of
  `runTask`, after which the function of the task runs without any lock,
* the return of the function: `updateTaskResult` and the look at `node.task`,
* or a panic of it, which ends the execution,
* the section under the shard lock, which ends it too,
* and the refusal of the pool to run an execution at all.

Three of these steps are coarser than the code. `UpdateTask` and `ClearAllTasks`
let go of the locks between their parts, so that other calls may come in
between; here a call is over before the next one begins. The start of an
execution holds no lock from the checks to the call of the function, so that a
pause may come between the two; here the step lets the execution through, and
what is said of calls that are made later is said over this system by letting
them wait (`Scheduler.program`). And `node.executed++` is no atomic operation,
so that two executions of one node which return together may be counted once;
here each of them is counted.

`registration` and `invoked` only record what happened: the registration an
execution was collected for, which its context identifies, and the executions
that have been let through to the functions of their tasks.
-/

namespace Timewheel

open TimeWheel (AddEnv UpdateEnv)

/-! ## The system -/

/-- Where an execution stands. -/
inductive Stage where
  /-- Handed to the pool. -/
  | collected
  /-- The function of the task is running. -/
  | running (info : TaskInfo)
  /-- The function has returned; the locked section is next. -/
  | finished (info : TaskInfo) (result : AlarmResult)
  deriving DecidableEq, Repr

/-- An execution: the arguments of `executeTask`, the registration it was
collected for, and where it stands. -/
structure Execution where
  node : NodeRef
  registration : Option CtxRef
  now : Time
  currentSlot : ℕ
  stage : Stage
  deriving DecidableEq, Repr

/-- A call of the function of a task: for which registration the execution
was collected, and which registration's task was called. -/
structure Invocation where
  collectedFor : Option CtxRef
  registration : CtxRef
  task : Task
  deriving DecidableEq, Repr

/-- A wheel and its executions. -/
structure Scheduler where
  wheel : TimeWheel
  execs : List Execution
  invoked : List Invocation
  /-- The registrations whose function has panicked. -/
  panicked : List CtxRef

/-- One step. Executions are named by their place in the list. -/
inductive Action where
  | addTask (task : Option Task) (env : AddEnv)
  | removeTask (taskID : String) (deleteOk : Bool)
  | updateTask (task : Option Task) (env : UpdateEnv)
  | pauseTask (taskID : String)
  | resumeTask (taskID : String) (now : Time)
  | clearAllTasks (order : List String) (now : Time)
  | tick (now : Time)
  | reject (i : ℕ)
  | start (i : ℕ)
  | finish (i : ℕ) (result : AlarmResult)
  | panic (i : ℕ)
  | complete (i : ℕ)

namespace Scheduler

/-- A wheel without executions. -/
def ofWheel (w : TimeWheel) : Scheduler := ⟨w, [], [], []⟩

/-- The executions a tick submits. -/
def collect (cfg : Config) (w : TimeWheel) (now : Time) : List Execution :=
  let (current, due, _) := w.tick cfg now
  due.map (fun n => ⟨n, (w.heap n).ctx, now, current, .collected⟩)

/-- The start of the execution `e`, the `i`-th. -/
def start (s : Scheduler) (i : ℕ) (e : Execution) : Scheduler :=
  match s.wheel.checkTaskState e.node with
  | none => { s with execs := s.execs.eraseIdx i }
  | some task =>
    match s.wheel.runTaskCheck e.node task.copyTaskInfo with
    | some err =>
      -- `runTask` returns its error and the execution goes on with a zero result
      { s with
        wheel := s.wheel.updateTaskResult e.node AlarmResult.zero (some err)
        execs := s.execs.set i { e with stage := .finished task.copyTaskInfo AlarmResult.zero } }
    | none =>
      { s with
        execs := s.execs.set i { e with stage := .running task.copyTaskInfo }
        invoked := s.invoked
          ++ (s.wheel.heap e.node).ctx.toList.map (fun c => ⟨e.registration, c, task⟩) }

/-- The return of the function with `result`. -/
def finish (s : Scheduler) (i : ℕ) (e : Execution) (info : TaskInfo) (result : AlarmResult) :
    Scheduler :=
  let w := s.wheel.updateTaskResult e.node result none
  if (w.heap e.node).task = none then { s with wheel := w, execs := s.execs.eraseIdx i }
  else { s with wheel := w, execs := s.execs.set i { e with stage := .finished info result } }

/-- The locked section. -/
def complete (cfg : Config) (s : Scheduler) (i : ℕ) (e : Execution) (info : TaskInfo)
    (result : AlarmResult) : Scheduler :=
  { s with
    wheel := s.wheel.lockedSection cfg e.node info result e.now e.currentSlot
    execs := s.execs.eraseIdx i }

/-- **The step function.** -/
def step (cfg : Config) (s : Scheduler) : Action → Option Scheduler
  | .addTask task env => some { s with wheel := (s.wheel.addTask cfg task env).2 }
  | .removeTask taskID deleteOk =>
    some { s with wheel := (s.wheel.removeTask cfg taskID deleteOk).2 }
  | .updateTask task env => some { s with wheel := (s.wheel.updateTask cfg task env).2 }
  | .pauseTask taskID => some { s with wheel := (s.wheel.pauseTask cfg taskID).2 }
  | .resumeTask taskID now => some { s with wheel := (s.wheel.resumeTask cfg taskID now).2 }
  | .clearAllTasks order now =>
    some { s with wheel := (s.wheel.clearAllTasks cfg order now).2 }
  | .tick now =>
    some { s with
      wheel := (s.wheel.tick cfg now).2.2
      execs := s.execs ++ collect cfg s.wheel now }
  | .reject i =>
    match s.execs[i]? with
    | some ⟨_, _, _, _, .collected⟩ => some { s with execs := s.execs.eraseIdx i }
    | _ => none
  | .start i =>
    match s.execs[i]? with
    | some ⟨n, r, now, slot, .collected⟩ => some (s.start i ⟨n, r, now, slot, .collected⟩)
    | _ => none
  | .finish i result =>
    match s.execs[i]? with
    | some ⟨n, r, now, slot, .running info⟩ =>
      some (s.finish i ⟨n, r, now, slot, .running info⟩ info result)
    | _ => none
  | .panic i =>
    match s.execs[i]? with
    | some ⟨_, r, _, _, .running _⟩ =>
      some { s with execs := s.execs.eraseIdx i, panicked := r.toList ++ s.panicked }
    | _ => none
  | .complete i =>
    match s.execs[i]? with
    | some ⟨n, r, now, slot, .finished info result⟩ =>
      some (s.complete cfg i ⟨n, r, now, slot, .finished info result⟩ info result)
    | _ => none

end Scheduler

/-! ## What a step is -/

open Scheduler

variable {cfg : Config} {s s' : Scheduler}

/-- The nodes an action may take out of the pool. -/
def Action.given : Action → Set NodeRef
  | .addTask _ env => {m | env.node = some m}
  | .updateTask _ env => {m | env.add.node = some m ∨ env.rollback.node = some m}
  | _ => ∅

/-- The calls of the interface. -/
def Action.isCall : Action → Bool
  | .addTask _ _ => true
  | .removeTask _ _ => true
  | .updateTask _ _ => true
  | .pauseTask _ => true
  | .resumeTask _ _ => true
  | .clearAllTasks _ _ => true
  | _ => false

instance (a : Action) (m : NodeRef) : Decidable (m ∈ a.given) :=
  match a with
  | .addTask _ env => inferInstanceAs (Decidable (env.node = some m))
  | .updateTask _ env =>
    inferInstanceAs (Decidable (env.add.node = some m ∨ env.rollback.node = some m))
  | .removeTask _ _ => isFalse (Set.notMem_empty m)
  | .pauseTask _ => isFalse (Set.notMem_empty m)
  | .resumeTask _ _ => isFalse (Set.notMem_empty m)
  | .clearAllTasks _ _ => isFalse (Set.notMem_empty m)
  | .tick _ => isFalse (Set.notMem_empty m)
  | .reject _ => isFalse (Set.notMem_empty m)
  | .start _ => isFalse (Set.notMem_empty m)
  | .finish _ _ => isFalse (Set.notMem_empty m)
  | .panic _ => isFalse (Set.notMem_empty m)
  | .complete _ => isFalse (Set.notMem_empty m)

/-- The collection of a tick. -/
def Action.isTick : Action → Bool
  | .tick _ => true
  | _ => false

/-- **What a step can do.** A call changes the wheel; a tick adds executions;
the other steps belong to one execution. -/
inductive Stepped (cfg : Config) (s : Scheduler) : Action → Scheduler → Prop where
  | call {a : Action} {w : TimeWheel} (h : a.isCall = true)
      (hstep : step cfg s a = some { s with wheel := w }) :
      Stepped cfg s a { s with wheel := w }
  | tick (now : Time) :
      Stepped cfg s (.tick now)
        { s with
          wheel := (s.wheel.tick cfg now).2.2
          execs := s.execs ++ collect cfg s.wheel now }
  | reject {i : ℕ} {e : Execution} (he : s.execs[i]? = some e) (hs : e.stage = .collected) :
      Stepped cfg s (.reject i) { s with execs := s.execs.eraseIdx i }
  | start {i : ℕ} {e : Execution} (he : s.execs[i]? = some e) (hs : e.stage = .collected) :
      Stepped cfg s (.start i) (s.start i e)
  | finish {i : ℕ} {e : Execution} {info : TaskInfo} (he : s.execs[i]? = some e)
      (hs : e.stage = .running info) (result : AlarmResult) :
      Stepped cfg s (.finish i result) (s.finish i e info result)
  | panic {i : ℕ} {e : Execution} {info : TaskInfo} (he : s.execs[i]? = some e)
      (hs : e.stage = .running info) :
      Stepped cfg s (.panic i)
        { s with
          execs := s.execs.eraseIdx i
          panicked := e.registration.toList ++ s.panicked }
  | complete {i : ℕ} {e : Execution} {info : TaskInfo} {result : AlarmResult}
      (he : s.execs[i]? = some e) (hs : e.stage = .finished info result) :
      Stepped cfg s (.complete i) (s.complete cfg i e info result)

/-- The inversion of the step function. -/
theorem stepped_of_step {a : Action} (h : step cfg s a = some s') : Stepped cfg s a s' := by
  cases a with
  | addTask task env => exact Option.some.inj h ▸ .call rfl rfl
  | removeTask taskID deleteOk => exact Option.some.inj h ▸ .call rfl rfl
  | updateTask task env => exact Option.some.inj h ▸ .call rfl rfl
  | pauseTask taskID => exact Option.some.inj h ▸ .call rfl rfl
  | resumeTask taskID now => exact Option.some.inj h ▸ .call rfl rfl
  | clearAllTasks order now => exact Option.some.inj h ▸ .call rfl rfl
  | tick now => exact Option.some.inj h ▸ .tick now
  | reject i =>
    simp only [step] at h
    split at h
    · next he => exact Option.some.inj h ▸ .reject he rfl
    · cases h
  | start i =>
    simp only [step] at h
    split at h
    · next he => exact Option.some.inj h ▸ .start he rfl
    · cases h
  | finish i result =>
    simp only [step] at h
    split at h
    · next he => exact Option.some.inj h ▸ .finish he rfl result
    · cases h
  | panic i =>
    simp only [step] at h
    split at h
    · next he => exact Option.some.inj h ▸ .panic he rfl
    · cases h
  | complete i =>
    simp only [step] at h
    split at h
    · next he => exact Option.some.inj h ▸ .complete he rfl
    · cases h

/-- **What a call does** is one operation of the wheel. -/
inductive Called (cfg : Config) (w : TimeWheel) : Action → TimeWheel → Prop where
  | addTask (task : Option Task) (env : AddEnv) :
      Called cfg w (.addTask task env) (w.addTask cfg task env).2
  | removeTask (taskID : String) (deleteOk : Bool) :
      Called cfg w (.removeTask taskID deleteOk) (w.removeTask cfg taskID deleteOk).2
  | updateTask (task : Option Task) (env : UpdateEnv) :
      Called cfg w (.updateTask task env) (w.updateTask cfg task env).2
  | pauseTask (taskID : String) : Called cfg w (.pauseTask taskID) (w.pauseTask cfg taskID).2
  | resumeTask (taskID : String) (now : Time) :
      Called cfg w (.resumeTask taskID now) (w.resumeTask cfg taskID now).2
  | clearAllTasks (order : List String) (now : Time) :
      Called cfg w (.clearAllTasks order now) (w.clearAllTasks cfg order now).2

/-- The inversion of the step function for calls. -/
theorem called_of_step {a : Action} (hcall : a.isCall = true) (h : step cfg s a = some s') :
    Called cfg s.wheel a s'.wheel := by
  cases a with
  | addTask task env => exact Option.some.inj h ▸ .addTask task env
  | removeTask taskID deleteOk => exact Option.some.inj h ▸ .removeTask taskID deleteOk
  | updateTask task env => exact Option.some.inj h ▸ .updateTask task env
  | pauseTask taskID => exact Option.some.inj h ▸ .pauseTask taskID
  | resumeTask taskID now => exact Option.some.inj h ▸ .resumeTask taskID now
  | clearAllTasks order now => exact Option.some.inj h ▸ .clearAllTasks order now
  | _ => exact absurd hcall Bool.false_ne_true

/-- **The wheel a call leaves** has what its parts keep: an addition, a removal,
a node paused or resumed, an entry cleared, the cache replaced. -/
theorem wheel_of_call (P : TimeWheel → Prop) {a : Action} (hcall : a.isCall = true)
    (hstep : step cfg s a = some s') (hw : P s.wheel)
    (hadd : ∀ (w : TimeWheel) task env, P w → P (w.addTask cfg task env).2)
    (hremove : ∀ (w : TimeWheel) id deleteOk, P w → P (w.removeTask cfg id deleteOk).2)
    (hpaused : ∀ (w : TimeWheel) n, P w → P (w.setNode n { w.heap n with paused := true }))
    (hresumed : ∀ (w : TimeWheel) n runAt,
      P w → P (w.setNode n { w.heap n with paused := false, runAt := runAt }))
    (hclear : ∀ (w : TimeWheel) id, P w → P (w.clearTask cfg id))
    (hcache : ∀ (w : TimeWheel) f, P w → P { w with taskCache := w.taskCache.map f }) :
    P s'.wheel := by
  have hcalled := called_of_step hcall hstep
  generalize s'.wheel = w' at hcalled ⊢
  cases hcalled with
  | addTask task env =>
    exact hadd s.wheel task env hw
  | removeTask taskID deleteOk =>
    exact hremove s.wheel taskID deleteOk hw
  | updateTask task env =>
    exact updateTask_wheel P s.wheel task env hw (fun id => hremove s.wheel id env.deleteOk hw)
      (fun w' t _ => hadd w' (some t) env.add) (fun w' _ _ t _ _ => hadd w' (some t) env.rollback)
  | pauseTask taskID =>
    exact pauseTask_wheel P s.wheel taskID hw (fun n => hpaused s.wheel n hw)
  | resumeTask taskID now =>
    exact resumeTask_wheel P s.wheel taskID now hw (fun n runAt => hresumed s.wheel n runAt hw)
  | clearAllTasks order now =>
    exact clearAllTasks_wheel P s.wheel order now hw hclear hcache

end Timewheel
