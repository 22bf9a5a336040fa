import Timewheel.Held
import Timewheel.Lib.Run
import Timewheel.OneRegistration
import Timewheel.Service

/-!
# The table and the wheel in step

A live row that is enabled and not paused is to have a node in the wheel that
runs its task; one that is paused may have a paused node, and one that is
disabled none (`SyncAt`). The operations write the two sides one after the
other, and each of them trusts that the other side has followed.

`synced_iff` says which runs keep the two in step: those in which no operation
adds a task the wheel does not take as it is, and no task is resumed whose
definition has changed while it was paused. An operation for one ID leaves
everything else alone (`Settles`), so that all of this is about one row and
what the wheels hold under its ID.

Both services come to the same three steps on a task that has a row: read the
row, write it, and do something to the wheel. They differ in which of the
later steps they undo and which errors they return (`Service.rollsBack`,
`Service.reports`), and `performs_call` says that they differ in nothing else.
So each operation is looked at once, for both services, as what its three
steps leave under its ID (`Settles`), and the run rule turns these step lemmas
into the equivalence.
-/

namespace Timewheel

open TimeWheel (AddEnv)
open MultiLevelTimeWheel
open AtomicTaskService

/-! ## Being in step -/

/-- What the wheels hold fits the live row. An ID without a live row has nothing
in the wheels. A paused row allows for two states, since pausing leaves the node
and a restart does not bring it back; an enabled one for just one: a single
node, not paused, that carries the task of the row. -/
def SyncAt : Option TaskModel → Held → Prop
  | none, h => ∀ l, h l = none
  | some row, h =>
    if row.enabled = false then ∀ l, h l = none
    else if row.paused then ∀ l, ∀ r ∈ h l, r.paused = true
    else ∃ l, h l = some ⟨row.toTask, false⟩

instance : ∀ (row : Option TaskModel) (h : Held), Decidable (SyncAt row h)
  | none, h => inferInstanceAs (Decidable (∀ l, h l = none))
  | some row, h => inferInstanceAs (Decidable
      (if row.enabled = false then ∀ l, h l = none
        else if row.paused then ∀ l, ∀ r ∈ h l, r.paused = true
        else ∃ l, h l = some ⟨row.toTask, false⟩))

namespace ServiceState

/-- **The table and the wheel are in step.** All IDs count, those without a row
included: a node without a row would run a task that nobody has. -/
def Synced (s : ServiceState) : Prop :=
  ∀ id, SyncAt (s.tasks.live id) (s.timeWheel.held id)

/-- In step, with a running wheel that is in order. The other fields are what
each call needs to find and leaves as it was. `single` says that no two wheels
have the ID. -/
structure InSync (s : ServiceState) : Prop where
  keyed : s.timeWheel.Keyed
  running : s.timeWheel.Running
  tasks : s.tasks.Keyed
  single : ∀ id, (s.timeWheel.held id).Single
  synced : s.Synced

end ServiceState

/-! ## The system -/

/-- Which of the two services is called. The server is set up with the first;
the second implements the same interface, and has the repair besides. -/
inductive Service where
  | taskService
  | atomicTaskService
  deriving DecidableEq, Repr

/-- A call of the service. The result is dropped here, since the state is what
the invariant is about. -/
def Service.execute (g : Gorm) (s : ServiceState) (op : Operation) (env : ServiceEnv) :
    Service → ServiceState
  | .atomicTaskService => (op.execute g s env).2
  | .taskService =>
    match op with
    | .create req => (TaskService.create g s req env).2
    | .call id (.update req) => (TaskService.update g s id req env).2
    | .call id .enable => (TaskService.enable g s id env).2
    | .call id .disable => (TaskService.disable g s id env).2
    | .call id .pause => (TaskService.pause g s id env).2
    | .call id .resume => (TaskService.resume g s id env).2
    | .call id .delete => (TaskService.delete g s id env).2

/-- The same with the error that is returned. -/
def Service.call (g : Gorm) (s : ServiceState) (op : Operation) (env : ServiceEnv) :
    Service → Option Err × ServiceState
  | .atomicTaskService => errOnly (op.execute g s env)
  | .taskService =>
    match op with
    | .create req => errOnly (TaskService.create g s req env)
    | .call id (.update req) => errOnly (TaskService.update g s id req env)
    | .call id .enable => TaskService.enable g s id env
    | .call id .disable => TaskService.disable g s id env
    | .call id .pause => TaskService.pause g s id env
    | .call id .resume => TaskService.resume g s id env
    | .call id .delete => TaskService.delete g s id env

/-- Both readings of a call leave the same state. -/
theorem Service.call_snd (g : Gorm) (s : ServiceState) (op : Operation) (env : ServiceEnv)
    (svc : Service) : (svc.call g s op env).2 = svc.execute g s op env := by
  cases svc with
  | atomicTaskService => rfl
  | taskService =>
    cases op with
    | create req => rfl
    | call id c => cases c <;> rfl

/-- The services and the executions of the wheels. An execution belongs to one
wheel and knows its node there, not the row. -/
structure ServiceSystem where
  service : ServiceState
  execs : Level → List Execution

/-- A call of a service, or a step of the executions of one wheel. -/
inductive ServiceAction where
  | call (svc : Service) (op : Operation) (env : ServiceEnv)
  | background (l : Level) (a : Action)

namespace ServiceSystem

/-- The wheels with their executions, without the table and the log. -/
def wheels (s : ServiceSystem) : MultiLevelSystem := ⟨s.service.timeWheel, s.execs⟩

/-- The system with its wheels moved on. -/
def setWheels (s : ServiceSystem) (w : MultiLevelSystem) : ServiceSystem :=
  ⟨{ s.service with timeWheel := w.timeWheel }, w.execs⟩

/-- **The step function.** A call of either service is one step. The wheels may
take any step of theirs but one: no task completes, since a task that has run as
often as it should leaves its wheel without a word to its row. -/
def step (g : Gorm) (s : ServiceSystem) : ServiceAction → Option ServiceSystem
  | .call svc op env => some { s with service := svc.execute g s.service op env }
  | .background l a =>
    if (s.wheels.scheduler l).endsTask l.config a then none
    else (s.wheels.step (.background l a)).map s.setWheels

end ServiceSystem

/-- No call of the action meets a failure that is not up to the program.
Failures of the database and of the pools are the subject of other modules. -/
def ServiceAction.Calm : ServiceAction → Prop
  | .call _ _ env => env.Calm
  | .background _ _ => True

/-! ## The condition -/

/-- `AddTask` takes the task as it is: the checks neither reject nor change it,
and it gets a node that is not paused. A node from the pool keeps the `paused`
flag it was released with, and so a task may be added paused; that is the third
field. -/
structure TakesAsIs (m : MultiLevelTimeWheel) (task : Task) (env : AddEnv) : Prop where
  accepted : accepts task = true
  unchanged : normalised task = task
  notPaused : m.addsPaused task env = false

instance (m : MultiLevelTimeWheel) (task : Task) (env : AddEnv) : Decidable (TakesAsIs m task env) :=
  decidable_of_iff (accepts task = true ∧ normalised task = task ∧ m.addsPaused task env = false)
    ⟨fun h => ⟨h.1, h.2.1, h.2.2⟩, fun h => ⟨h.1, h.2, h.3⟩⟩

/-- The request as the service inserts it. The atomic service fills in an ID. -/
def Service.requestOf (req : TaskCreateRequest) (env : ServiceEnv) : Service → TaskCreateRequest
  | .taskService => req
  | .atomicTaskService => AtomicTaskService.requestOf req env

/-- **The call keeps the two in step.** A task that is added has to be taken as
it is; `Create`, `Enable` and the atomic `Resume` may also have it rejected,
`Update` and the other `Resume` may not. A node that is resumed has to carry the
task of the row. The conditions are on the state before the call: on the row it
finds, on the task it would add, and on what the wheels hold. Nothing is asked
of the calls that only take away. -/
def ServiceState.KeepsInStep (s : ServiceState) (op : Operation) (env : ServiceEnv)
    (svc : Service) : Prop :=
  match op with
  | .create req =>
    s.tasks (svc.requestOf req env).id = none → req.enabled = true →
      let task := (svc.requestOf req env).toTaskModel.withDefaults.toTask
      accepts task = true → TakesAsIs s.timeWheel task env.add
  | .call id (.update req) =>
    ∀ row ∈ s.tasks.live id, row.enabled = true → row.paused = false →
      TakesAsIs s.timeWheel (req.apply row).toTask env.add
  | .call id .enable =>
    ∀ row ∈ s.tasks.live id, row.enabled = false → row.paused = false →
      accepts row.toTask = true → TakesAsIs s.timeWheel row.toTask env.add
  | .call id .resume =>
    ∀ row ∈ s.tasks.live id, row.enabled = true → row.paused = true →
      (∀ l, ∀ r ∈ s.timeWheel.held id l, r.task = row.toTask)
        ∧ ((s.timeWheel.held id).reached = none →
          (svc = .taskService ∨ accepts row.toTask = true) →
            TakesAsIs s.timeWheel row.toTask env.add)
  | .call _ .disable => True
  | .call _ .pause => True
  | .call _ .delete => True

instance (s : ServiceState) (op : Operation) (env : ServiceEnv) (svc : Service) :
    Decidable (s.KeepsInStep op env svc) :=
  match op with
  | .create req => inferInstanceAs (Decidable
      (s.tasks (svc.requestOf req env).id = none → req.enabled = true →
        accepts (svc.requestOf req env).toTaskModel.withDefaults.toTask = true →
          TakesAsIs s.timeWheel (svc.requestOf req env).toTaskModel.withDefaults.toTask env.add))
  | .call id (.update req) => inferInstanceAs (Decidable
      (∀ row ∈ s.tasks.live id, row.enabled = true → row.paused = false →
        TakesAsIs s.timeWheel (req.apply row).toTask env.add))
  | .call id .enable => inferInstanceAs (Decidable
      (∀ row ∈ s.tasks.live id, row.enabled = false → row.paused = false →
        accepts row.toTask = true → TakesAsIs s.timeWheel row.toTask env.add))
  | .call id .resume => inferInstanceAs (Decidable
      (∀ row ∈ s.tasks.live id, row.enabled = true → row.paused = true →
        (∀ l, ∀ r ∈ s.timeWheel.held id l, r.task = row.toTask)
          ∧ ((s.timeWheel.held id).reached = none →
            (svc = .taskService ∨ accepts row.toTask = true) →
              TakesAsIs s.timeWheel row.toTask env.add)))
  | .call _ .disable => isTrue trivial
  | .call _ .pause => isTrue trivial
  | .call _ .delete => isTrue trivial

/-- The same of a step of the system. The wheels by themselves never break it. -/
def ServiceSystem.KeepsInStep (s : ServiceSystem) : ServiceAction → ServiceSystem → Prop
  | .call svc op env, _ => s.service.KeepsInStep op env svc
  | .background _ _, _ => True

instance (s : ServiceSystem) (a : ServiceAction) (s' : ServiceSystem) :
    Decidable (s.KeepsInStep a s') :=
  match a with
  | .call svc op env => inferInstanceAs (Decidable (s.service.KeepsInStep op env svc))
  | .background _ _ => isTrue trivial

/-! ## What a call for one ID leaves alone -/

variable {g : Gorm} {s s' : ServiceState} {id : String} {q : Prop} {env : ServiceEnv}
  {row row' : TaskModel} {m m' : MultiLevelTimeWheel} {h : Held}

/-- The two states differ in the log at most. The invariant does not look at the
log, so such states are as good as equal. -/
structure SameTables (s s' : ServiceState) : Prop where
  tasks : s'.tasks = s.tasks
  timeWheel : s'.timeWheel = s.timeWheel

/-- **A call for `id`** leaves everything else alone, and what it leaves under
`id` is in step exactly if `q`. The last field is an equivalence, because the
theorem about runs is: a call that breaks the condition must be shown to break
the invariant as well. -/
structure Settles (s : ServiceState) (id : String) (q : Prop) (s' : ServiceState) : Prop where
  tasks : s'.tasks.Keyed
  frame : ∀ id', id' ≠ id → s'.tasks id' = s.tasks id'
  wheel : Touches s.timeWheel id s'.timeWheel
  single : (s'.timeWheel.held id).Single
  sync : SyncAt (s'.tasks.live id) (s'.timeWheel.held id) ↔ q

namespace Settles

/-- **What a call settles keeps the whole state in step**: under its own ID
because `q` holds, and under every other one because nothing has changed there. -/
theorem inSync (h : Settles s id q s') (hs : s.InSync) (hq : q) : s'.InSync := by
  have key : ∀ id', id' ≠ id → s'.tasks.live id' = s.tasks.live id' := fun id' hid => by
    unfold TaskTable.live
    rw [h.frame id' hid]
  refine ⟨h.wheel.keyed, h.wheel.up.running hs.running, h.tasks, fun id' => ?_, fun id' => ?_⟩
  · by_cases hid : id' = id
    · exact hid ▸ h.single
    · rw [h.wheel.frame id' hid]
      exact hs.single id'
  · by_cases hid : id' = id
    · exact hid ▸ h.sync.mpr hq
    · rw [key id' hid, h.wheel.frame id' hid]
      exact hs.synced id'

/-- Nothing is done. -/
theorem refl (hs : s.InSync) (id : String) (hq : q) : Settles s id q s :=
  ⟨hs.tasks, fun _ _ => rfl, .refl hs.keyed id, hs.single id, iff_of_true (hs.synced id) hq⟩

/-- The condition may be put in other words. -/
theorem congr {q' : Prop} (h : Settles s id q s') (hq : q ↔ q') : Settles s id q' s' :=
  { h with sync := h.sync.trans hq }

/-- The log is not looked at. So a call may be looked at without what it writes
there. -/
theorem of_same {s'' : ServiceState} (h : Settles s id q s') (hsame : SameTables s' s'') :
    Settles s id q s'' := by
  obtain ⟨tasks, frame, wheel, single, sync⟩ := h
  rw [← hsame.tasks] at tasks frame sync
  rw [← hsame.timeWheel] at wheel single sync
  exact ⟨tasks, frame, wheel, single, sync⟩

end Settles

/-! ### One row and what is held -/

/-- A live row: three cases, by its two flags. -/
theorem syncAt_some : SyncAt (some row) h ↔
    if row.enabled = false then ∀ l, h l = none
    else if row.paused then ∀ l, ∀ r ∈ h l, r.paused = true
    else ∃ l, h l = some ⟨row.toTask, false⟩ := Iff.rfl

/-- A row that is enabled and not paused asks for its node, -/
theorem syncAt_scheduled (he : row.enabled = true) (hp : row.paused = false) :
    SyncAt (some row) h ↔ ∃ l, h l = some ⟨row.toTask, false⟩ := by
  simp [syncAt_some, he, hp]

/-- one that is paused allows for a paused node, -/
theorem syncAt_paused (he : row.enabled = true) (hp : row.paused = true) :
    SyncAt (some row) h ↔ ∀ l, ∀ r ∈ h l, r.paused = true := by
  simp [syncAt_some, he, hp]

/-- and one that is disabled for none. -/
theorem syncAt_disabled (he : row.enabled = false) :
    SyncAt (some row) h ↔ ∀ l, h l = none := by
  simp [syncAt_some, he]

/-- When nothing is held, the row must not ask for it. This is what a wheel step
that has failed leaves to be shown. -/
theorem syncAt_of_forall_none (hh : ∀ l, h l = none) :
    SyncAt (some row) h ↔ ¬ (row.enabled = true ∧ row.paused = false) := by
  cases he : row.enabled with
  | false => simp [syncAt_disabled he, hh]
  | true =>
    cases hp : row.paused with
    | false => simp [syncAt_scheduled he hp, hh]
    | true => simp [syncAt_paused he hp, hh]

/-- Only the two flags and the task of the row count. The names, the time stamps
and the counters of a row may be rewritten freely. -/
theorem syncAt_congr (he : row'.enabled = row.enabled) (hp : row'.paused = row.paused)
    (ht : row'.toTask = row.toTask) : SyncAt (some row') h ↔ SyncAt (some row) h := by
  rw [syncAt_some, syncAt_some, he, hp, ht]

/-- When no node is asked for, the task does not count either. -/
theorem syncAt_of_not_scheduled (hsched : (row.enabled && !row.paused) = false)
    (he : row'.enabled = row.enabled) (hp : row'.paused = row.paused) :
    SyncAt (some row') h ↔ SyncAt (some row) h := by
  rw [syncAt_some, syncAt_some, he, hp]
  cases hen : row.enabled with
  | false => exact Iff.rfl
  | true =>
    have hpa : row.paused = true := by simpa [hen] using hsched
    rw [hpa]
    exact Iff.rfl

/-- What is held for a scheduled row is not paused. -/
theorem not_paused_of_syncAt (hs : h.Single) (he : row.enabled = true) (hp : row.paused = false)
    (hsync : SyncAt (some row) h) {l : Level} {r : Registration} (hr : h l = some r) :
    r.paused = false := by
  obtain ⟨l', hl'⟩ := (syncAt_scheduled he hp).mp hsync
  have hlevel : l = l' := hs l l' (ne_of_eq_of_ne hr (Option.some_ne_none _))
    (ne_of_eq_of_ne hl' (Option.some_ne_none _))
  subst hlevel
  obtain rfl := Option.some.inj (hr.symm.trans hl')
  rfl

/-! ### The kinds of outcome -/

/-- A row is written, with whatever the wheels hold now. This is the general
case; the ones below say when the two fit. -/
theorem settles_write (hs : s.InSync) (row' : TaskModel) (hid : row'.id = id)
    (hw : Touches s.timeWheel id m') (hsingle : (m'.held id).Single) (log : List OperationLogModel)
    (hsync : SyncAt (TaskTable.live (Function.update s.tasks id (some row')) id) (m'.held id) ↔ q) :
    Settles s id q ⟨Function.update s.tasks id (some row'), m', log⟩ :=
  ⟨hs.tasks.update hid, fun _ hid' => Function.update_of_ne hid' _ _, hw, hsingle, hsync⟩

/-- The row is as good as before, and the wheels hold what they held. A rollback
writes the flags back, but not the time stamps. -/
theorem settles_restored (hs : s.InSync) (hlive : s.tasks.live id = some row)
    (row' : TaskModel) (hid : row'.id = row.id) (hdel : row'.deletedAt = none)
    (he : row'.enabled = row.enabled) (hp : row'.paused = row.paused) (ht : row'.toTask = row.toTask)
    (hw : Touches s.timeWheel id m') (hheld : m'.held id = s.timeWheel.held id)
    (log : List OperationLogModel) (hq : q) :
    Settles s id q ⟨Function.update s.tasks id (some row'), m', log⟩ := by
  have hkey := hs.tasks id row (TaskTable.live_eq_some.mp hlive).1
  refine settles_write hs row' (hid.trans hkey) hw (hheld ▸ hs.single id) log (iff_of_true ?_ hq)
  rw [TaskTable.live_update hdel, syncAt_congr he hp ht, hheld]
  exact hlive ▸ hs.synced id

/-- The same after the two writes of a call that rolls back. -/
theorem settles_rolledBack (hs : s.InSync) (hlive : s.tasks.live id = some row)
    {enabled paused : Bool} (he : enabled = row.enabled) (hp : paused = row.paused)
    (e p : Bool) (db rollback : DbEnv)
    (hw : Touches s.timeWheel id m') (hheld : m'.held id = s.timeWheel.held id)
    (log : List OperationLogModel) (hq : q) :
    Settles s id q ⟨Function.update s.tasks id
      (some ((row.written e p db).written enabled paused rollback)), m', log⟩ := by
  have hdel : row.deletedAt = none := (TaskTable.live_eq_some.mp hlive).2
  refine settles_restored hs hlive ((row.written e p db).written enabled paused rollback) rfl hdel
    he hp ?_ hw hheld log hq
  rw [TaskModel.toTask_written, TaskModel.toTask_written]

/-- A row that asks for nothing, when nothing is held. -/
theorem settles_idle (hs : s.InSync) (row' : TaskModel) (hid : row'.id = id)
    (hidle : row'.deletedAt = none → ¬ (row'.enabled = true ∧ row'.paused = false))
    (hw : Touches s.timeWheel id m') (hnone : ∀ l, m'.held id l = none)
    (log : List OperationLogModel) (hq : q) :
    Settles s id q ⟨Function.update s.tasks id (some row'), m', log⟩ := by
  refine settles_write hs row' hid hw (Held.single_of_forall_none hnone) log (iff_of_true ?_ hq)
  by_cases hdel : row'.deletedAt = none
  · rw [TaskTable.live_update hdel]
    exact (syncAt_of_forall_none hnone).mpr (hidle hdel)
  · rw [TaskTable.live_update_deleted hdel]
    exact hnone

/-- A row that asks for a node, when nothing is held. The invariant is broken,
so the condition must be too. -/
theorem settles_lost (hs : s.InSync) (row' : TaskModel) (hid : row'.id = id)
    (hdel : row'.deletedAt = none) (he : row'.enabled = true) (hp : row'.paused = false)
    (hw : Touches s.timeWheel id m') (hnone : ∀ l, m'.held id l = none)
    (log : List OperationLogModel) (hq : ¬ q) :
    Settles s id q ⟨Function.update s.tasks id (some row'), m', log⟩ := by
  refine settles_write hs row' hid hw (Held.single_of_forall_none hnone) log (iff_of_false ?_ hq)
  rw [TaskTable.live_update hdel, syncAt_of_forall_none hnone, not_not]
  exact ⟨he, hp⟩

/-- `AddTask` of a task that is rejected, where nothing is held. The wheel is as
it was, and the call knows it from the error. -/
theorem add_rejected (hm : m.Keyed) (hacc : accepts row.toTask = false) (e : AddEnv) :
    (addToTimeWheel m row e).1 ≠ none ∧ Touches m row.id (addToTimeWheel m row e).2
      ∧ (addToTimeWheel m row e).2.held row.id = m.held row.id := by
  obtain ⟨htouch, hheld, herr⟩ := addTask_spec hm row.toTask e
  have hadm : ¬ m.Admits row.toTask := fun hadm => by
    rw [hadm.1] at hacc
    cases hacc
  rw [if_neg hadm] at hheld
  exact ⟨herr.not.mpr hadm, htouch, hheld⟩

/-- `AddTask` of a task that is accepted, where nothing is held: the wheel
holds it as the checks leave it, on whatever node it got. -/
theorem add_accepted (hm : m.Keyed) (hrun : m.Running) (hnone : ∀ l, m.held row.id l = none)
    (hacc : accepts row.toTask = true) (e : AddEnv) :
    (addToTimeWheel m row e).1 = none ∧ Touches m row.id (addToTimeWheel m row e).2
      ∧ ((addToTimeWheel m row e).2.held row.id).Single
      ∧ ((∃ l, (addToTimeWheel m row e).2.held row.id l = some ⟨row.toTask, false⟩)
        ↔ TakesAsIs m row.toTask e) := by
  obtain ⟨htouch, hheld, herr⟩ := addTask_spec hm row.toTask e
  have hadm : m.Admits row.toTask := ⟨hacc, (hrun _).running, hnone _⟩
  rw [if_pos hadm] at hheld
  have hheld : (addToTimeWheel m row e).2.held row.id
      = (m.held row.id).put (levelOf row.priority)
        ⟨normalised row.toTask, m.addsPaused row.toTask e⟩ := hheld
  refine ⟨herr.mpr hadm, htouch, ?_, ?_⟩
  · rw [hheld]
    exact Held.single_put hnone _ _
  · rw [hheld, Held.exists_put_eq hnone, Registration.mk.injEq]
    exact ⟨fun h => ⟨hacc, h.1, h.2⟩, fun h => ⟨h.unchanged, h.notPaused⟩⟩

/-- The task of an enabled row is added where nothing is held. Here the
condition of the claim comes up for the first time: the row and the wheel fit
exactly if the wheel has taken the task as it is. -/
theorem settles_added (hs : s.InSync) (hid : row.id = id) (hw : Touches s.timeWheel id m)
    (hnone : ∀ l, m.held id l = none) (hacc : accepts row.toTask = true)
    (row' : TaskModel) (hid' : row'.id = id) (hdel : row'.deletedAt = none)
    (he : row'.enabled = true) (hp : row'.paused = false) (ht : row'.toTask = row.toTask) (e : AddEnv)
    (log : List OperationLogModel) :
    Settles s id (TakesAsIs m row.toTask e)
      ⟨Function.update s.tasks id (some row'), (addToTimeWheel m row e).2, log⟩ := by
  subst hid
  obtain ⟨-, htouch, hsingle, hsync⟩ :=
    add_accepted hw.keyed (hw.up.running hs.running) hnone hacc e
  refine settles_write hs row' hid' (hw.trans htouch) hsingle log ?_
  rw [TaskTable.live_update hdel, syncAt_scheduled he hp, ht]
  exact hsync

/-! ## The two services side by side -/

/-- What the three steps do to the two sides. A service that does not roll back
keeps what the database step wrote. The error of a rollback is ignored, as the
code ignores it. -/
def AtomicSteps.attempt (steps : AtomicSteps) (rollsBack : Bool) (s : ServiceState)
    (env : ServiceEnv) : ServiceState :=
  match steps.dbOp s.tasks env.db with
  | .error _ => s
  | .ok (task, tasks) =>
    match steps.twOp task s.timeWheel env with
    | (none, timeWheel) => { s with tasks := tasks, timeWheel := timeWheel }
    | (some _, timeWheel) =>
      { s with
        tasks := if rollsBack then ignoreErr tasks (steps.rollbackDB tasks env.rollback) else tasks
        timeWheel := timeWheel }

/-- The service undoes the database step when the wheel step fails. The plain
service does so for `Enable` only. -/
def Service.rollsBack (c : Call) : Service → Bool
  | .atomicTaskService => true
  | .taskService =>
    match c with
    | .enable => true
    | _ => false

/-- The service returns the error of the wheel step. The plain service logs the
error of `Update` and returns nil. -/
def Service.reports (c : Call) : Service → Bool
  | .atomicTaskService => true
  | .taskService =>
    match c with
    | .enable => true
    | .resume => true
    | _ => false

/-- The call returns no error. -/
def AtomicSteps.succeeds (steps : AtomicSteps) (reports : Bool) (s : ServiceState)
    (env : ServiceEnv) : Bool :=
  match steps.dbOp s.tasks env.db with
  | .error _ => false
  | .ok (task, _) => (steps.twOp task s.timeWheel env).1.isNone || !reports

/-- **A call does what its three steps come to.** -/
@[mk_iff] structure Performs (steps : AtomicSteps) (rollsBack reports : Bool) (s : ServiceState)
    (env : ServiceEnv) (r : Option Err × ServiceState) : Prop where
  same : SameTables (steps.attempt rollsBack s env) r.2
  succeeds : r.1 = none ↔ steps.succeeds reports s env = true

/-- `executeAtomically` carries the three steps out, undoes the first one when
the second fails, and reports it. -/
theorem performs_executeAtomically (hc : env.Calm) (s : ServiceState) (steps : AtomicSteps) :
    Performs steps true true s env (errOnly (executeAtomically s steps env)) := by
  have hmarshal : (if steps.oldState.isSome then env.marshalErr else none) = none := by
    rw [hc.marshal, ite_self]
  rw [performs_iff]
  unfold executeAtomically AtomicSteps.attempt AtomicSteps.succeeds
  rw [hmarshal, hc.log]
  cases hdb : steps.dbOp s.tasks env.db with
  | error err => exact ⟨⟨rfl, rfl⟩, by simp [errOnly, errOf]⟩
  | ok r =>
    dsimp only
    cases htw : steps.twOp r.1 s.timeWheel env with
    | mk err timeWheel =>
      cases err with
      | none => exact ⟨⟨rfl, rfl⟩, by simp [errOnly, errOf]⟩
      | some err =>
        dsimp only
        cases hrb : steps.rollbackDB r.2 env.rollback with
        | error rollbackErr => exact ⟨⟨rfl, rfl⟩, by simp [errOnly, errOf]⟩
        | ok tasks' => exact ⟨⟨rfl, rfl⟩, by simp [errOnly, errOf]⟩

/-- A call that has nothing to do. -/
theorem idle_call (svc : Service) {c : Call}
    (hget : repoGetByID g s.tasks id env.get = .ok row) (hsteps : c.steps g id row = none) :
    svc.call g s (.call id c) env = (none, s) := by
  cases svc with
  | atomicTaskService =>
    simp only [Service.call, Operation.execute, Call.execute, hget, Call.body, hsteps]
    rfl
  | taskService =>
    cases c with
    | update req => cases hsteps
    | delete => cases hsteps
    | enable =>
      have he : row.enabled = true := by simpa [Call.steps] using hsteps
      simp [Service.call, TaskService.enable, hget, he]
    | disable =>
      have he : row.enabled = false := by simpa [Call.steps] using hsteps
      simp [Service.call, TaskService.disable, hget, he]
    | pause =>
      have hp : row.paused = true := by simpa [Call.steps] using hsteps
      simp [Service.call, TaskService.pause, hget, hp]
    | resume =>
      have hp : row.paused = false := by simpa [Call.steps] using hsteps
      simp [Service.call, TaskService.resume, hget, hp]

/-- **`taskService` is the atomic service without most of its rollbacks**, and
without most of its errors. The plain service repeats the three steps in the
body of each method; so there is one case for each of them, and in each the code
is followed to the wheel step. -/
theorem performs_call (hg : g.Documented) (hc : env.Calm) (svc : Service) {c : Call}
    (hget : repoGetByID g s.tasks id env.get = .ok row) {steps : AtomicSteps}
    (hsteps : c.steps g id row = some steps) :
    Performs steps (svc.rollsBack c) (svc.reports c) s env (svc.call g s (.call id c) env) := by
  have hlive := ((repoGetByID_ok hg).mp hget).2
  cases svc with
  | atomicTaskService =>
    simp only [Service.call, Operation.execute, Call.execute, hget, Call.body, hsteps]
    exact performs_executeAtomically hc s steps
  | taskService =>
    rw [performs_iff]
    unfold AtomicSteps.attempt AtomicSteps.succeeds
    cases c with
    | update req =>
      obtain rfl := Option.some.inj hsteps
      simp only [Service.call, TaskService.update, hget, updateSteps, Service.rollsBack,
        Service.reports, Bool.false_eq_true, if_false]
      -- the write decides, then whether the row asks for a node, then the wheel
      cases repoUpdate g s.tasks (req.apply row) env.db with
      | error err => exact ⟨⟨rfl, rfl⟩, by simp [errOnly, errOf]⟩
      | ok r =>
        dsimp only
        cases r.1.enabled && !r.1.paused with
        | false => exact ⟨⟨rfl, rfl⟩, by simp [errOnly, errOf]⟩
        | true =>
          simp only [if_true]
          cases addToTimeWheel (s.timeWheel.removeTask id).2 r.1 env.add with
          | mk err timeWheel => cases err <;> exact ⟨⟨rfl, rfl⟩, by simp [errOnly, errOf]⟩
    | enable =>
      obtain ⟨he, rfl⟩ : row.enabled = false ∧ enableSteps g id row = steps := by
        simpa [Call.steps] using hsteps
      simp only [Service.call, TaskService.enable, hget, he, Bool.false_eq_true, if_false,
        enableSteps, Service.rollsBack, Service.reports]
      cases repoUpdateStatus g s.tasks id true row.paused env.db with
      | error err => exact ⟨⟨rfl, rfl⟩, by simp [Except.map]⟩
      | ok tasks =>
        dsimp only [Except.map]
        -- a paused row is enabled in the table only
        cases row.paused with
        | true => exact ⟨⟨rfl, rfl⟩, by simp⟩
        | false =>
          simp only [Bool.false_eq_true, if_false]
          cases addToTimeWheel s.timeWheel _ env.add with
          | mk err timeWheel => cases err <;> exact ⟨⟨rfl, rfl⟩, by simp⟩
    | disable =>
      obtain ⟨he, rfl⟩ : row.enabled = true ∧ disableSteps g id row = steps := by
        simpa [Call.steps] using hsteps
      simp only [Service.call, TaskService.disable, hget, he, Bool.true_eq_false, if_false,
        disableSteps, Service.rollsBack, Service.reports]
      -- the write succeeds on a calm database; what the wheel says is not returned
      rw [repoUpdateStatus_live hg hc.db hlive]
      dsimp only [Except.map]
      cases s.timeWheel.removeTask id with
      | mk err timeWheel => cases err <;> exact ⟨⟨rfl, rfl⟩, by simp⟩
    | pause =>
      obtain ⟨hp, rfl⟩ : row.paused = false ∧ pauseSteps g id row = steps := by
        simpa [Call.steps] using hsteps
      simp only [Service.call, TaskService.pause, hget, hp, Bool.false_eq_true, if_false,
        pauseSteps, Service.rollsBack, Service.reports]
      rw [repoUpdateStatus_live hg hc.db hlive]
      dsimp only [Except.map]
      cases s.timeWheel.pauseTask id with
      | mk err timeWheel => cases err <;> exact ⟨⟨rfl, rfl⟩, by simp⟩
    | resume =>
      obtain ⟨hp, rfl⟩ : row.paused = true ∧ resumeSteps g id row = steps := by
        simpa [Call.steps] using hsteps
      simp only [Service.call, TaskService.resume, hget, hp, Bool.true_eq_false, if_false,
        resumeSteps, Service.rollsBack, Service.reports]
      rw [repoUpdateStatus_live hg hc.db hlive]
      dsimp only [Except.map]
      cases row.enabled with
      | false => exact ⟨⟨rfl, rfl⟩, by simp⟩
      | true =>
        simp only [if_true]
        -- the node is resumed, or, if it is missing, added
        cases s.timeWheel.resumeTask id env.resumeAt with
        | mk err timeWheel =>
          cases err with
          | none => exact ⟨⟨rfl, rfl⟩, by simp⟩
          | some err =>
            dsimp only
            cases addToTimeWheel timeWheel row env.add with
            | mk err timeWheel => cases err <;> exact ⟨⟨rfl, rfl⟩, by simp⟩
    | delete =>
      obtain rfl := Option.some.inj hsteps
      simp only [Service.call, TaskService.delete, deleteSteps, Service.rollsBack, Service.reports]
      rw [(repoDelete_ok hg).mpr ⟨hc.db, rfl⟩]
      dsimp only [Except.map]
      cases s.timeWheel.removeTask id with
      | mk err timeWheel => cases err <;> exact ⟨⟨rfl, rfl⟩, by simp⟩

/-- `Create` from the request with its ID. -/
theorem create_eq (s : ServiceState) (req : TaskCreateRequest) (env : ServiceEnv) :
    AtomicTaskService.create g s req env
      = match repoGetByID g s.tasks (AtomicTaskService.requestOf req env).id env.get with
        | .ok _ => (.error (.text "task with this ID already exists"), s)
        | .error _ => executeAtomically s (createSteps g (AtomicTaskService.requestOf req env)) env :=
  rfl

/-- A key that is taken by a live row. -/
theorem create_taken (svc : Service) {req : TaskCreateRequest}
    (hget : repoGetByID g s.tasks (svc.requestOf req env).id env.get = .ok row) :
    (svc.call g s (.create req) env).1 ≠ none ∧ (svc.call g s (.create req) env).2 = s := by
  cases svc with
  | atomicTaskService =>
    have hget : repoGetByID g s.tasks (AtomicTaskService.requestOf req env).id env.get = .ok row :=
      hget
    simp [Service.call, Operation.execute, create_eq, hget, errOnly, errOf]
  | taskService =>
    have hget : repoGetByID g s.tasks req.id env.get = .ok row := hget
    simp [Service.call, TaskService.create, hget, errOnly, errOf]

/-- **`Create`** is the same in both. Both read the table for the ID first, and
both roll back. -/
theorem performs_create (hc : env.Calm) (svc : Service) {req : TaskCreateRequest} {err : Err}
    (hget : repoGetByID g s.tasks (svc.requestOf req env).id env.get = .error err) :
    Performs (createSteps g (svc.requestOf req env)) true true s env
      (svc.call g s (.create req) env) := by
  cases svc with
  | atomicTaskService =>
    have hget : repoGetByID g s.tasks (AtomicTaskService.requestOf req env).id env.get
        = .error err := hget
    simp only [Service.call, Operation.execute, create_eq, hget]
    exact performs_executeAtomically hc s _
  | taskService =>
    have hget : repoGetByID g s.tasks req.id env.get = .error err := hget
    change Performs (createSteps g req) true true s env _
    rw [performs_iff]
    simp only [Service.call, TaskService.create, hget, AtomicSteps.attempt, AtomicSteps.succeeds,
      createSteps]
    cases repoCreate g s.tasks req.toTaskModel env.db with
    | error err => exact ⟨⟨rfl, rfl⟩, by simp [errOnly, errOf]⟩
    | ok r =>
      dsimp only
      cases req.enabled with
      | false => exact ⟨⟨rfl, rfl⟩, by simp [errOnly, errOf]⟩
      | true =>
        simp only [if_true]
        cases addToTimeWheel s.timeWheel r.1 env.add with
        | mk err timeWheel => cases err <;> exact ⟨⟨rfl, rfl⟩, by simp [errOnly, errOf]⟩

/-- The two sides after a call on an existing task. Either the row asks for
nothing, or the three steps are attempted. -/
theorem sameTables_execute (hg : g.Documented) (hc : env.Calm) (svc : Service) (c : Call)
    (hget : repoGetByID g s.tasks id env.get = .ok row) :
    SameTables (match c.steps g id row with
      | none => s
      | some steps => steps.attempt (svc.rollsBack c) s env)
      (svc.execute g s (.call id c) env) := by
  rw [← Service.call_snd]
  cases hsteps : c.steps g id row with
  | none =>
    rw [idle_call svc hget hsteps]
    exact ⟨rfl, rfl⟩
  | some steps => exact (performs_call hg hc svc hget hsteps).same

/-- The two sides after `Create`. -/
theorem sameTables_create (hc : env.Calm) (svc : Service) (req : TaskCreateRequest) :
    SameTables (match repoGetByID g s.tasks (svc.requestOf req env).id env.get with
      | .ok _ => s
      | .error _ => (createSteps g (svc.requestOf req env)).attempt true s env)
      (svc.execute g s (.create req) env) := by
  rw [← Service.call_snd]
  cases hget : repoGetByID g s.tasks (svc.requestOf req env).id env.get with
  | ok row =>
    rw [(create_taken svc hget).2]
    exact ⟨rfl, rfl⟩
  | error err => exact (performs_create hc svc hget).same

/-- Without a row there is nothing to do, in the wheel neither. -/
theorem sameTables_missing (hg : g.Documented) (hs : s.InSync) (hc : env.Calm) (svc : Service)
    (c : Call) {err : Err} (hget : repoGetByID g s.tasks id env.get = .error err) :
    SameTables s (svc.execute g s (.call id c) env) := by
  have hlive := (repoGetByID_missing hg hc.get).mp ⟨err, hget⟩
  cases svc with
  | atomicTaskService =>
    simp only [Service.execute, Operation.execute, Call.execute, hget]
    exact ⟨rfl, rfl⟩
  | taskService =>
    cases c with
    | delete =>
      have hnone : ∀ l, s.timeWheel.held id l = none := by
        have := hs.synced id
        rwa [hlive] at this
      have hremove := MultiLevelTimeWheel.removeTask_effect hs.keyed id
      simp only [Service.execute, TaskService.delete]
      rw [(repoDelete_ok hg).mpr ⟨hc.db, (TaskTable.modifyLive_none hlive _).symm⟩]
      generalize s.timeWheel.removeTask id = r at hremove ⊢
      cases hremove with
      | missing _ => exact ⟨rfl, rfl⟩
      | done _ held _ _ _ => exact (nomatch held.symm.trans (hnone _))
    | update req => simp only [Service.execute, TaskService.update, hget]; exact ⟨rfl, rfl⟩
    | enable => simp only [Service.execute, TaskService.enable, hget]; exact ⟨rfl, rfl⟩
    | disable => simp only [Service.execute, TaskService.disable, hget]; exact ⟨rfl, rfl⟩
    | pause => simp only [Service.execute, TaskService.pause, hget]; exact ⟨rfl, rfl⟩
    | resume => simp only [Service.execute, TaskService.resume, hget]; exact ⟨rfl, rfl⟩

/-! ## The operations -/

/-- **A call on an existing task**, by the three steps it comes to. A call on a
missing row changes nothing, and the condition is vacuous. So it is enough to
look at a live row: at the calls that have nothing to do (`hskip`) and at those
that carry out their steps (`hsteps`). -/
theorem settles_call (hg : g.Documented) (hs : s.InSync) (hc : env.Calm) (svc : Service) (c : Call)
    {q : TaskModel → Prop}
    (hskip : ∀ row, s.tasks.live id = some row → c.steps g id row = none → q row)
    (hsteps : ∀ row steps, s.tasks.live id = some row → c.steps g id row = some steps →
      Settles s id (q row) (steps.attempt (svc.rollsBack c) s env)) :
    Settles s id (∀ row ∈ s.tasks.live id, q row) (svc.execute g s (.call id c) env) := by
  cases hget : repoGetByID g s.tasks id env.get with
  | ok row =>
    have hlive := ((repoGetByID_ok hg).mp hget).2
    have hq : q row ↔ ∀ row ∈ s.tasks.live id, q row :=
      ⟨fun h row' hrow' => Option.some.inj (hlive.symm.trans hrow') ▸ h, fun h => h row hlive⟩
    refine (Settles.of_same ?_ (sameTables_execute hg hc svc c hget)).congr hq
    cases hc' : c.steps g id row with
    | none => exact .refl hs id (hskip row hlive hc')
    | some steps => exact hsteps row steps hlive hc'
  | error err =>
    refine (Settles.refl hs id (fun row hlive => ?_)).of_same
      (sameTables_missing hg hs hc svc c hget)
    exact (nomatch ((repoGetByID_missing hg hc.get).mp ⟨err, hget⟩).symm.trans hlive)

/-- What is left if the wheel step succeeds or the service does not roll back,
and if it does. Each call below settles these two cases. -/
theorem settles_attempt {steps : AtomicSteps} {rollsBack : Bool} {task : TaskModel}
    {tasks₁ tasks₂ : TaskTable} (hdb : steps.dbOp s.tasks env.db = .ok (task, tasks₁))
    (hrb : steps.rollbackDB tasks₁ env.rollback = .ok tasks₂)
    {r : Option Err × MultiLevelTimeWheel} (htw : steps.twOp task s.timeWheel env = r)
    (hkept : r.1 = none ∨ rollsBack = false → Settles s id q ⟨tasks₁, r.2, s.opLog⟩)
    (hback : r.1 ≠ none → rollsBack = true → Settles s id q ⟨tasks₂, r.2, s.opLog⟩) :
    Settles s id q (steps.attempt rollsBack s env) := by
  unfold AtomicSteps.attempt
  rw [hdb]
  dsimp only
  rw [htw]
  obtain ⟨err, timeWheel⟩ := r
  cases err with
  | none => exact hkept (Or.inl rfl)
  | some err =>
    cases rollsBack with
    | false => exact hkept (Or.inr rfl)
    | true =>
      dsimp only
      rw [hrb]
      exact hback (Option.some_ne_none err) rfl

/-- The same for a change of the status. -/
theorem settles_status {steps : AtomicSteps} {enabled paused enabled' paused' rollsBack : Bool}
    (hg : g.Documented) (hc : env.Calm) (hlive : s.tasks.live id = some row)
    (hdb : ∀ tasks e, steps.dbOp tasks e
      = (repoUpdateStatus g tasks id enabled paused e).map (fun tasks => (row, tasks)))
    (hrb : ∀ tasks e, steps.rollbackDB tasks e
      = repoUpdateStatus g tasks id enabled' paused' e)
    {r : Option Err × MultiLevelTimeWheel} (htw : steps.twOp row s.timeWheel env = r)
    (hkept : r.1 = none ∨ rollsBack = false →
      Settles s id q ⟨Function.update s.tasks id (some (row.written enabled paused env.db)),
        r.2, s.opLog⟩)
    (hback : r.1 ≠ none → rollsBack = true →
      Settles s id q ⟨Function.update s.tasks id
        (some ((row.written enabled paused env.db).written enabled' paused' env.rollback)),
        r.2, s.opLog⟩) :
    Settles s id q (steps.attempt rollsBack s env) := by
  have hdel : (row.written enabled paused env.db).deletedAt = none :=
    (TaskTable.live_eq_some.mp hlive).2
  refine settles_attempt ?_ ?_ htw hkept hback
  · rw [hdb, repoUpdateStatus_live hg hc.db hlive]
    rfl
  · rw [hrb, repoUpdateStatus_update hg hc.rollback hdel]

/-- `Enable` adds the task of a row that is not paused. If the wheel rejects it,
both services take the row back. -/
theorem settles_enable (hg : g.Documented) (hs : s.InSync) (hc : env.Calm) (svc : Service) :
    Settles s id (s.KeepsInStep (.call id .enable) env svc)
      (svc.execute g s (.call id .enable) env) := by
  refine settles_call hg hs hc svc .enable (fun row _ hskip he => ?_)
    (fun row steps hlive hsteps => ?_)
  · simp [Call.steps, he] at hskip
  obtain ⟨hrow, hdel⟩ := TaskTable.live_eq_some.mp hlive
  have hid := hs.tasks id row hrow
  obtain ⟨he, rfl⟩ : row.enabled = false ∧ enableSteps g id row = steps := by
    simpa [Call.steps] using hsteps
  have hnone : ∀ l, s.timeWheel.held id l = none :=
    (syncAt_disabled he).mp (hlive ▸ hs.synced id)
  have htw : (enableSteps g id row).twOp row s.timeWheel env
      = if row.paused then (none, s.timeWheel) else addToTimeWheel s.timeWheel row env.add := rfl
  cases hp : row.paused with
  | true =>
    -- the row asks for nothing
    rw [hp, if_pos rfl] at htw
    refine settles_status hg hc hlive (fun _ _ => rfl) (fun _ _ => rfl) htw (fun _ => ?_)
      (fun h => absurd rfl h)
    exact settles_idle hs (row.written true row.paused env.db) hid
      (fun _ h => (nomatch hp.symm.trans h.2)) (.refl hs.keyed id) hnone s.opLog
      (fun _ h => (nomatch h))
  | false =>
    rw [hp, if_neg Bool.false_ne_true] at htw
    cases hacc : accepts row.toTask with
    | true =>
      have hok := (add_accepted hs.keyed hs.running (hid ▸ hnone) hacc env.add).1
      refine settles_status hg hc hlive (fun _ _ => rfl) (fun _ _ => rfl) htw (fun _ => ?_)
        (fun h => absurd hok h)
      exact (settles_added hs hid (.refl hs.keyed id) hnone hacc (row.written true row.paused env.db)
        hid hdel rfl hp rfl env.add s.opLog).congr (by simp [he])
    | false =>
      obtain ⟨hne, htouch, hheld⟩ := add_rejected hs.keyed hacc env.add
      rw [hid] at htouch hheld
      refine settles_status hg hc hlive (fun _ _ => rfl) (fun _ _ => rfl) htw (fun h => ?_)
        (fun _ _ => ?_)
      · rcases h with h | h
        · exact absurd h hne
        · cases svc <;> cases h
      · exact settles_rolledBack hs hlive he.symm rfl true row.paused env.db env.rollback htouch
          hheld s.opLog (fun _ _ h => (nomatch h))

/-- `Disable` writes the row and takes the node out, and neither can fail here. -/
theorem settles_disable (hg : g.Documented) (hs : s.InSync) (hc : env.Calm) (svc : Service) :
    Settles s id (s.KeepsInStep (.call id .disable) env svc)
      (svc.execute g s (.call id .disable) env) := by
  refine (settles_call (q := fun _ => True) hg hs hc svc .disable (fun _ _ _ => trivial)
    (fun row steps hlive hsteps => ?_)).congr (by simp [ServiceState.KeepsInStep])
  obtain ⟨hrow, hdel⟩ := TaskTable.live_eq_some.mp hlive
  have hid := hs.tasks id row hrow
  obtain ⟨he, rfl⟩ : row.enabled = true ∧ disableSteps g id row = steps := by
    simpa [Call.steps] using hsteps
  obtain ⟨htouch, hheld, herr⟩ := removeTask_spec hs.keyed id
  refine settles_status hg hc hlive (fun _ _ => rfl) (fun _ _ => rfl) rfl (fun _ => ?_)
    (fun hne _ => ?_)
  · exact settles_idle hs (row.written false row.paused env.db) hid (fun _ h => (nomatch h.1)) htouch
      (fun l => hheld ▸ (hs.single id).remove l) s.opLog trivial
  · have hsame : (s.timeWheel.removeTask id).2.held id = s.timeWheel.held id :=
      hheld.trans (Held.change_of_reached_none (not_not.mp (herr.not.mp hne)) _)
    exact settles_rolledBack hs hlive he.symm rfl false row.paused env.db env.rollback htouch hsame
      s.opLog trivial

/-- `Pause` writes the row and flags the node, if there is one. -/
theorem settles_pause (hg : g.Documented) (hs : s.InSync) (hc : env.Calm) (svc : Service) :
    Settles s id (s.KeepsInStep (.call id .pause) env svc)
      (svc.execute g s (.call id .pause) env) := by
  refine (settles_call (q := fun _ => True) hg hs hc svc .pause (fun _ _ _ => trivial)
    (fun row steps hlive hsteps => ?_)).congr (by simp [ServiceState.KeepsInStep])
  obtain ⟨hrow, hdel⟩ := TaskTable.live_eq_some.mp hlive
  have hid := hs.tasks id row hrow
  obtain ⟨hp, rfl⟩ : row.paused = false ∧ pauseSteps g id row = steps := by
    simpa [Call.steps] using hsteps
  obtain ⟨htouch, hheld, herr⟩ := pauseTask_spec hs.keyed id
  refine settles_status hg hc hlive (fun _ _ => rfl) (fun _ _ => rfl) rfl (fun _ => ?_)
    (fun hne _ => ?_)
  · -- whatever is held is paused now; a disabled row has nothing there
    refine settles_write hs (row.written row.enabled true env.db) hid htouch
      (hheld ▸ (hs.single id).single_setPaused true) s.opLog (iff_of_true ?_ trivial)
    rw [TaskTable.live_update
      (show (row.written row.enabled true env.db).deletedAt = none from hdel), hheld]
    cases he : row.enabled with
    | false =>
      have hnone := (syncAt_disabled he).mp (hlive ▸ hs.synced id)
      refine (syncAt_disabled rfl).mpr (fun l => ?_)
      rw [(hs.single id).setPaused, hnone, Option.map_none]
    | true =>
      refine (syncAt_paused rfl rfl).mpr (fun l r hr => ?_)
      rw [(hs.single id).setPaused] at hr
      obtain ⟨r', -, rfl⟩ := Option.map_eq_some_iff.mp hr
      rfl
  · have hsame : (s.timeWheel.pauseTask id).2.held id = s.timeWheel.held id :=
      hheld.trans (Held.change_of_reached_none (not_not.mp (herr.not.mp hne)) _)
    exact settles_rolledBack hs hlive rfl hp.symm row.enabled true env.db env.rollback htouch hsame
      s.opLog trivial

/-- `Delete` takes the node out whatever the row says. -/
theorem settles_delete (hg : g.Documented) (hs : s.InSync) (hc : env.Calm) (svc : Service) :
    Settles s id (s.KeepsInStep (.call id .delete) env svc)
      (svc.execute g s (.call id .delete) env) := by
  refine (settles_call (q := fun _ => True) hg hs hc svc .delete (fun _ _ _ => trivial)
    (fun row steps hlive hsteps => ?_)).congr (by simp [ServiceState.KeepsInStep])
  obtain ⟨hrow, hdel⟩ := TaskTable.live_eq_some.mp hlive
  have hid := hs.tasks id row hrow
  obtain rfl : deleteSteps g id row = steps := Option.some.inj hsteps
  obtain ⟨htouch, hheld, herr⟩ := removeTask_spec hs.keyed id
  let row₁ : TaskModel := { row with deletedAt := some env.db.stamp }
  let row₂ : TaskModel := { row₁ with deletedAt := none, updatedAt := env.rollback.stamp }
  have hdb : repoDelete g s.tasks id env.db = .ok (Function.update s.tasks id (some row₁)) := by
    refine (repoDelete_ok hg).mpr ⟨hc.db, ?_⟩
    rw [TaskTable.modifyLive_live hlive]
  have hrb : repoUndelete g (Function.update s.tasks id (some row₁)) row env.rollback
      = .ok (Function.update s.tasks id (some row₂)) := by
    refine (repoUndelete_ok hg).mpr ⟨hc.rollback, ?_⟩
    unfold TaskTable.modify
    rw [hid, Function.update_self, Function.update_idem]
    rfl
  have hdone : Settles s id True ⟨Function.update s.tasks id (some row₁),
      (s.timeWheel.removeTask id).2, s.opLog⟩ :=
    settles_idle hs row₁ hid (fun h => (nomatch h)) htouch
      (fun l => hheld ▸ (hs.single id).remove l) s.opLog trivial
  have hdb' : (deleteSteps g id row).dbOp s.tasks env.db
      = .ok (row, Function.update s.tasks id (some row₁)) := by
    show Except.map _ (repoDelete g s.tasks id env.db) = _
    rw [hdb]
    rfl
  refine settles_attempt (r := s.timeWheel.removeTask id) hdb' hrb rfl (fun _ => hdone)
    (fun hne _ => ?_)
  have hsame : (s.timeWheel.removeTask id).2.held id = s.timeWheel.held id :=
    hheld.trans (Held.change_of_reached_none (not_not.mp (herr.not.mp hne)) _)
  exact settles_restored hs hlive row₂ rfl rfl rfl rfl rfl htouch hsame s.opLog trivial

/-- `Resume` lifts the flag of the node if there is one, and adds the task if
there is none. A node that has kept its task while the definition was changed
resumes with the old one, and that is one of the two ways to get out of step. -/
theorem settles_resume (hg : g.Documented) (hs : s.InSync) (hc : env.Calm) (svc : Service) :
    Settles s id (s.KeepsInStep (.call id .resume) env svc)
      (svc.execute g s (.call id .resume) env) := by
  refine settles_call hg hs hc svc .resume (fun row _ hskip _ hp => ?_)
    (fun row steps hlive hsteps => ?_)
  · simp [Call.steps, hp] at hskip
  obtain ⟨hrow, hdel⟩ := TaskTable.live_eq_some.mp hlive
  have hid := hs.tasks id row hrow
  obtain ⟨hp, rfl⟩ : row.paused = true ∧ resumeSteps g id row = steps := by
    simpa [Call.steps] using hsteps
  cases he : row.enabled with
  | false =>
    -- a disabled row has no node, and none is asked for
    have hnone := (syncAt_disabled he).mp (hlive ▸ hs.synced id)
    have htw : (resumeSteps g id row).twOp row s.timeWheel env = (none, s.timeWheel) := by
      simp [resumeSteps, he]
    refine settles_status hg hc hlive (fun _ _ => rfl) (fun _ _ => rfl) htw (fun _ => ?_)
      (fun hne => absurd rfl hne)
    exact settles_idle hs (row.written row.enabled false env.db) hid
      (fun _ h => (nomatch he.symm.trans h.1)) (.refl hs.keyed id) hnone s.opLog
      (fun h => (nomatch h))
  | true =>
    have htw : (resumeSteps g id row).twOp row s.timeWheel env
        = match s.timeWheel.resumeTask id env.resumeAt with
          | (none, timeWheel) => (none, timeWheel)
          | (some _, timeWheel) => addToTimeWheel timeWheel row env.add := if_pos he
    obtain ⟨htouch, hheld, -⟩ := resumeTask_spec hs.keyed id env.resumeAt
    have heffect := MultiLevelTimeWheel.resumeTask_effect hs.keyed id env.resumeAt
    generalize s.timeWheel.resumeTask id env.resumeAt = r at htw htouch hheld heffect
    cases heffect with
    | done reached held _ _ _ =>
      -- the node is there: the two are in step if its task is that of the row
      have hreached := (hs.keyed.reached_held id).trans reached
      refine settles_status hg hc hlive (fun _ _ => rfl) (fun _ _ => rfl) htw (fun _ => ?_)
        (fun hne => absurd rfl hne)
      refine settles_write hs (row.written row.enabled false env.db) hid htouch
        (hheld ▸ (hs.single id).single_setPaused false) s.opLog ?_
      rw [TaskTable.live_update
        (show (row.written row.enabled false env.db).deletedAt = none from hdel), hheld,
        syncAt_scheduled (show (row.written row.enabled false env.db).enabled = true from he) rfl]
      refine ((hs.single id).exists_setPaused_eq hreached).trans ?_
      simp [hp, hreached]
    | missing hnone =>
      -- the node has been lost before, so it is added again, if the wheel takes it
      have hreached : (s.timeWheel.held id).reached = none := Held.reached_eq_none.mpr hnone
      have hq : (true = true → row.paused = true →
          (∀ l, ∀ r ∈ s.timeWheel.held id l, r.task = row.toTask)
            ∧ ((s.timeWheel.held id).reached = none →
              (svc = .taskService ∨ accepts row.toTask = true) →
                TakesAsIs s.timeWheel row.toTask env.add))
          ↔ ((svc = .taskService ∨ accepts row.toTask = true) →
            TakesAsIs s.timeWheel row.toTask env.add) := by
        simp [hp, hreached, show ∀ l, s.timeWheel.held id l = none from hnone]
      refine Settles.congr ?_ hq.symm
      dsimp only at htw
      cases hacc : accepts row.toTask with
      | true =>
        have hok := (add_accepted hs.keyed hs.running (hid ▸ hnone) hacc env.add).1
        refine settles_status hg hc hlive (fun _ _ => rfl) (fun _ _ => rfl) htw (fun _ => ?_)
          (fun h => absurd hok h)
        exact (settles_added hs hid (.refl hs.keyed id) hnone hacc
          (row.written row.enabled false env.db) hid hdel he rfl rfl env.add s.opLog).congr
            (by simp)
      | false =>
        obtain ⟨hne, htouch, hheld⟩ := add_rejected hs.keyed hacc env.add
        rw [hid] at htouch hheld
        refine settles_status hg hc hlive (fun _ _ => rfl) (fun _ _ => rfl) htw (fun h => ?_)
          (fun _ h => ?_)
        · -- the row has been resumed, and the wheel holds nothing
          have hsvc : svc = .taskService := by
            have hkept := h.resolve_left hne
            cases svc with
            | taskService => rfl
            | atomicTaskService => cases hkept
          have hnone' : ∀ l, (addToTimeWheel s.timeWheel row env.add).2.held id l = none :=
            fun l => (congrFun hheld l).trans (hnone l)
          refine settles_lost hs (row.written row.enabled false env.db) hid hdel he rfl htouch hnone'
            s.opLog (fun h => ?_)
          exact (nomatch hacc.symm.trans (h (Or.inl hsvc)).accepted)
        -- the atomic service has undone its write
        · have hsvc : svc = .atomicTaskService := by
            cases svc with
            | taskService => cases h
            | atomicTaskService => rfl
          refine settles_rolledBack hs hlive rfl hp.symm row.enabled false env.db env.rollback
            htouch hheld s.opLog (fun h => ?_)
          rcases h with h | h
          · exact absurd (hsvc.symm.trans h) (by decide)
          · cases h

/-- Saving the row of a scheduled task takes its node out, and puts one in for
the new definition if the wheel takes it. The other one is here: the old node is
gone before the new task is checked, and neither service brings it back. -/
theorem settles_update (hg : g.Documented) (hs : s.InSync) (hc : env.Calm) (svc : Service)
    (req : TaskUpdateRequest) :
    Settles s id (s.KeepsInStep (.call id (.update req)) env svc)
      (svc.execute g s (.call id (.update req)) env) := by
  refine settles_call hg hs hc svc (.update req) (fun row _ hskip => (nomatch hskip))
    (fun row steps hlive hsteps => ?_)
  obtain rfl : updateSteps g id req row = steps := Option.some.inj hsteps
  obtain ⟨hrow, hdel⟩ := TaskTable.live_eq_some.mp hlive
  have hid := hs.tasks id row hrow
  have hsync : SyncAt (some row) (s.timeWheel.held id) := hlive ▸ hs.synced id
  have hstored : s.tasks.live (req.apply row).id ≠ none :=
    ne_of_eq_of_ne (hid ▸ hlive : s.tasks.live row.id = some row) (Option.some_ne_none row)
  by_cases hkey : id = ""
  · -- a row without key is not saved, and nothing is held for it
    have hfail : ∀ r, repoUpdate g s.tasks (req.apply row) env.db ≠ .ok r := fun r hr =>
      ((repoUpdate_ok hg hstored).mp hr).2.1 (hid.trans hkey)
    have hsame : (updateSteps g id req row).attempt (svc.rollsBack (.update req)) s env = s := by
      unfold AtomicSteps.attempt updateSteps
      dsimp only
      cases hu : repoUpdate g s.tasks (req.apply row) env.db with
      | error err => rfl
      | ok r => exact absurd hu (hfail r)
    rw [hsame]
    refine .refl hs id (fun he hp => ?_)
    obtain ⟨l, hl⟩ := (syncAt_scheduled he hp).mp hsync
    rw [hkey] at hl
    exact (nomatch (hs.keyed l).registry_empty.symm.trans hl)
  let row₁ : TaskModel := (req.apply row).touched env.db.stamp
  let row₂ : TaskModel := row.touched env.rollback.stamp
  have hdb : (updateSteps g id req row).dbOp s.tasks env.db
      = .ok (row₁, Function.update s.tasks id (some row₁)) := by
    refine (repoUpdate_ok hg hstored).mpr ⟨hc.db, fun h => hkey (hid.symm.trans h), rfl, ?_⟩
    rw [show (req.apply row).id = id from hid]
  have hrb : (updateSteps g id req row).rollbackDB (Function.update s.tasks id (some row₁))
      env.rollback = .ok (Function.update s.tasks id (some row₂)) := by
    have hstored₁ : TaskTable.live (Function.update s.tasks id (some row₁)) row.id ≠ none := by
      rw [hid, TaskTable.live_update (show row₁.deletedAt = none from hdel)]
      exact Option.some_ne_none row₁
    have hsave : repoUpdate g (Function.update s.tasks id (some row₁)) row env.rollback
        = .ok (row₂, Function.update (Function.update s.tasks id (some row₁)) row.id (some row₂)) :=
      (repoUpdate_ok hg hstored₁).mpr ⟨hc.rollback, fun h => hkey (hid.symm.trans h), rfl, rfl⟩
    show Except.map Prod.snd (repoUpdate g _ row env.rollback) = _
    rw [hsave, hid, Function.update_idem]
    rfl
  have htw : (updateSteps g id req row).twOp row₁ s.timeWheel env
      = if row.enabled && !row.paused then
          addToTimeWheel (s.timeWheel.removeTask id).2 row₁ env.add
        else (none, s.timeWheel) := rfl
  cases hsched : row.enabled && !row.paused with
  | false =>
    -- no node is asked for, whatever the definition
    rw [hsched, if_neg Bool.false_ne_true] at htw
    refine settles_attempt hdb hrb htw (fun _ => ?_) (fun hne => absurd rfl hne)
    refine settles_write hs row₁ hid (.refl hs.keyed id) (hs.single id) s.opLog
      (iff_of_true ?_ (fun he hp => ?_))
    · rw [TaskTable.live_update (show row₁.deletedAt = none from hdel)]
      exact (syncAt_of_not_scheduled hsched (show row₁.enabled = row.enabled from rfl) rfl).mpr hsync
    · rw [he, hp] at hsched
      cases hsched
  | true =>
    rw [hsched, if_pos rfl] at htw
    obtain ⟨he, hp⟩ : row.enabled = true ∧ row.paused = false := by simpa using hsched
    obtain ⟨htouch, hheld, -⟩ := removeTask_spec hs.keyed id
    have hnone : ∀ l, (s.timeWheel.removeTask id).2.held id l = none :=
      fun l => hheld ▸ (hs.single id).remove l
    have htakes : TakesAsIs (s.timeWheel.removeTask id).2 row₁.toTask env.add
        ↔ (row.enabled = true → row.paused = false →
          TakesAsIs s.timeWheel (req.apply row).toTask env.add) := by
      have hpool := removeTask_addsPaused hs.keyed (fun _ _ hr =>
        not_paused_of_syncAt (hs.single id) he hp hsync hr) (req.apply row).toTask env.add
      simp only [he, hp, true_implies]
      exact ⟨fun h => ⟨h.accepted, h.unchanged, hpool ▸ h.notPaused⟩,
        fun h => ⟨h.accepted, h.unchanged, hpool ▸ h.notPaused⟩⟩
    cases hacc : accepts row₁.toTask with
    | true =>
      have hok := (add_accepted htouch.keyed (htouch.up.running hs.running) (hid ▸ hnone) hacc
        env.add).1
      refine settles_attempt hdb hrb htw (fun _ => ?_) (fun hne => absurd hok hne)
      exact (settles_added hs (show row₁.id = id from hid) htouch hnone hacc row₁ hid hdel he hp rfl
        env.add s.opLog).congr htakes
    | false =>
      -- the old task is gone, and no new one has come
      obtain ⟨hne, htouch', hheld'⟩ := add_rejected htouch.keyed hacc env.add
      rw [show row₁.id = id from hid] at htouch' hheld'
      have hnone' : ∀ l, (addToTimeWheel (s.timeWheel.removeTask id).2 row₁ env.add).2.held id l
          = none := fun l => (congrFun hheld' l).trans (hnone l)
      have hq : ¬ (row.enabled = true → row.paused = false →
          TakesAsIs s.timeWheel (req.apply row).toTask env.add) := fun h =>
        (nomatch hacc.symm.trans (h he hp).accepted)
      refine settles_attempt hdb hrb htw (fun _ => ?_) (fun _ _ => ?_)
      · exact settles_lost hs row₁ hid hdel he hp (htouch.trans htouch') hnone' s.opLog hq
      · exact settles_lost hs row₂ hid hdel he hp (htouch.trans htouch') hnone' s.opLog hq

/-- `Create` of an ID that has a row, live or soft-deleted, changes nothing.
Otherwise the new row asks for a node if the request is enabled, and a rejected
task is taken back with its row. -/
theorem settles_create (hg : g.Documented) (hs : s.InSync) (hc : env.Calm) (svc : Service)
    (req : TaskCreateRequest) :
    Settles s (svc.requestOf req env).id (s.KeepsInStep (.create req) env svc)
      (svc.execute g s (.create req) env) := by
  have hen : (svc.requestOf req env).enabled = req.enabled := by
    cases svc with
    | taskService => rfl
    | atomicTaskService =>
      unfold Service.requestOf AtomicTaskService.requestOf
      split_ifs <;> rfl
  refine Settles.of_same ?_ (sameTables_create hc svc req)
  unfold ServiceState.KeepsInStep
  dsimp only
  rw [← hen]
  generalize svc.requestOf req env = req'
  cases hget : repoGetByID g s.tasks req'.id env.get with
  | ok row =>
    have hrow := (TaskTable.live_eq_some.mp ((repoGetByID_ok hg).mp hget).2).1
    exact .refl hs _ (fun h => (nomatch h.symm.trans hrow))
  | error err =>
    cases hkey : s.tasks req'.id with
    | some row =>
      -- a soft-deleted row still has the key
      have hsame : (createSteps g req').attempt true s env = s := by
        have hfail : ∀ r, repoCreate g s.tasks req'.toTaskModel env.db ≠ .ok r := fun r hr =>
          (nomatch hkey.symm.trans ((repoCreate_ok hg).mp hr).2.1)
        unfold AtomicSteps.attempt createSteps
        dsimp only
        cases hr : repoCreate g s.tasks req'.toTaskModel env.db with
        | error err => rfl
        | ok r => exact absurd hr (hfail r)
      show Settles s req'.id _ ((createSteps g req').attempt true s env)
      rw [hsame]
      exact .refl hs _ (fun h => (nomatch h))
    | none =>
      let row := req'.toTaskModel.created env.db.stamp
      let row₂ : TaskModel := { row with deletedAt := some env.rollback.stamp }
      have hlive : s.tasks.live req'.id = none := by
        unfold TaskTable.live
        rw [hkey]
        rfl
      have hnone : ∀ l, s.timeWheel.held req'.id l = none := by
        have := hs.synced req'.id
        rwa [hlive] at this
      have hdb : (createSteps g req').dbOp s.tasks env.db
          = .ok (row, Function.update s.tasks req'.id (some row)) :=
        (repoCreate_ok hg).mpr ⟨hc.db, hkey, rfl, rfl⟩
      have hrb : (createSteps g req').rollbackDB (Function.update s.tasks req'.id (some row))
          env.rollback = .ok (Function.update s.tasks req'.id (some row₂)) :=
        repoDelete_update hg hc.rollback (show row.deletedAt = none from rfl)
      have htw : (createSteps g req').twOp row s.timeWheel env
          = if req'.enabled then addToTimeWheel s.timeWheel row env.add
            else (none, s.timeWheel) := rfl
      show Settles s req'.id _ ((createSteps g req').attempt true s env)
      cases he : req'.enabled with
      | false =>
        rw [he, if_neg Bool.false_ne_true] at htw
        refine settles_attempt hdb hrb htw (fun _ => ?_) (fun hne => absurd rfl hne)
        exact settles_idle hs row rfl (fun _ h => (nomatch he.symm.trans h.1)) (.refl hs.keyed _)
          hnone s.opLog (fun _ h => (nomatch h))
      | true =>
        rw [he, if_pos rfl] at htw
        cases hacc : accepts row.toTask with
        | true =>
          have hok := (add_accepted hs.keyed hs.running hnone hacc env.add).1
          refine settles_attempt hdb hrb htw (fun _ => ?_) (fun hne => absurd hok hne)
          refine (settles_added hs (show row.id = req'.id from rfl) (.refl hs.keyed _) hnone hacc row
            rfl rfl he rfl rfl env.add s.opLog).congr ⟨fun h _ _ _ => h, fun h => h rfl rfl hacc⟩
        | false =>
          obtain ⟨hne, htouch, hheld⟩ := add_rejected hs.keyed hacc env.add
          refine settles_attempt hdb hrb htw (fun h => ?_) (fun _ _ => ?_)
          · exact absurd (h.resolve_left hne) (by decide)
          · exact settles_idle hs row₂ rfl (fun h => (nomatch h)) htouch
              (fun l => (congrFun hheld l).trans (hnone l)) s.opLog
              (fun _ _ h => (nomatch hacc.symm.trans h))

/-- **Every call.** The ID is that of the operation, filled in for `Create`. -/
theorem settles_execute (hg : g.Documented) (hs : s.InSync) (hc : env.Calm) (svc : Service)
    (op : Operation) : ∃ id, Settles s id (s.KeepsInStep op env svc) (svc.execute g s op env) := by
  cases op with
  | create req => exact ⟨_, settles_create hg hs hc svc req⟩
  | call id c =>
    refine ⟨id, ?_⟩
    cases c with
    | update req => exact settles_update hg hs hc svc req
    | enable => exact settles_enable hg hs hc svc
    | disable => exact settles_disable hg hs hc svc
    | pause => exact settles_pause hg hs hc svc
    | resume => exact settles_resume hg hs hc svc
    | delete => exact settles_delete hg hs hc svc

/-! ## Runs -/

/-- A step of the wheels that ends no task changes nothing that is looked
at. -/
theorem background_kept {s s' : ServiceSystem} {l : Level} {a : Action}
    (hm : s.service.timeWheel.Keyed) (hstep : s.step g (.background l a) = some s') :
    s'.service.tasks = s.service.tasks ∧ s'.service.timeWheel.Keyed
      ∧ StaysUp s.service.timeWheel s'.service.timeWheel
      ∧ ∀ id, s'.service.timeWheel.held id = s.service.timeWheel.held id := by
  unfold ServiceSystem.step at hstep
  dsimp only at hstep
  split_ifs at hstep with hends
  unfold MultiLevelSystem.step at hstep
  dsimp only at hstep
  split_ifs at hstep with hcall
  · cases hstep
  rw [Option.map_map] at hstep
  obtain ⟨t, ht, rfl⟩ := Option.map_eq_some_iff.mp hstep
  have hsame := background_same (Bool.eq_false_iff.mpr hcall) ht (Bool.eq_false_iff.mpr hends)
  refine ⟨rfl, hm.setWheel (hsame.entries (hm l)), staysUp_setWheel hsame.up, fun id => ?_⟩
  show (s.service.timeWheel.setWheel l t.wheel).held id = _
  funext l'
  unfold held
  rw [registry_setWheel]
  by_cases hl : l' = l
  · subst hl
    rw [Function.update_self, hsame.registry]
    rfl
  · rw [Function.update_of_ne hl]

/-- So it keeps the two in step. -/
theorem inSync_background {s s' : ServiceSystem} {l : Level} {a : Action}
    (hs : s.service.InSync) (hstep : s.step g (.background l a) = some s') : s'.service.InSync := by
  obtain ⟨htasks, hkeyed, hup, hheld⟩ := background_kept hs.keyed hstep
  exact {
    keyed := hkeyed
    running := hup.running hs.running
    tasks := htasks.symm ▸ hs.tasks
    single := fun id => (hheld id).symm ▸ hs.single id
    synced := fun id => by
      rw [htasks, hheld id]
      exact hs.synced id }

/-- **Exactly the runs that keep the two in step.** Along a run of calls of both
services and of steps of the wheels, from any state that is in step, every state
reached is in step if and only if every call meets its condition when it is
made. One direction is the invariant; the other one says that the condition is
not stronger than it need be, call by call. -/
theorem synced_iff (hg : g.Documented) {s : ServiceSystem} (hs : s.service.InSync)
    {as : List ServiceAction} (has : ∀ a ∈ as, a.Calm) :
    Machine.Each (ServiceSystem.step g) (fun _ _ s' => s'.service.Synced) s as
      ↔ Machine.Each (ServiceSystem.step g) ServiceSystem.KeepsInStep s as := by
  refine Machine.each_iff_of_invariant
    (fun s a s' hcalm (hinv : s.service.InSync) hstep hkeep => ?_)
    (fun s a s' hcalm hinv hstep hsync => ?_) has hs
  · cases a with
    | call svc op env =>
      obtain rfl := Option.some.inj hstep
      obtain ⟨id, hsettles⟩ := settles_execute hg hinv hcalm svc op
      have hs' := hsettles.inSync hinv hkeep
      exact ⟨hs', hs'.synced⟩
    | background l a =>
      have hs' := inSync_background hinv hstep
      exact ⟨hs', hs'.synced⟩
  · cases a with
    | call svc op env =>
      obtain rfl := Option.some.inj hstep
      obtain ⟨id, hsettles⟩ := settles_execute hg hinv hcalm svc op
      exact hsettles.sync.mp (hsync id)
    | background l a => trivial

/-! ### Two runs -/

/-- A wheel that has just been started is in step with a table of rows that ask
for nothing. -/
theorem inSync_of_start {created now : Level → Time}
    (hstart : (MultiLevelTimeWheel.new created).start now = some s.timeWheel)
    (htasks : s.tasks.Keyed) (hidle : ∀ id row, s.tasks.live id = some row →
      ¬ (row.enabled = true ∧ row.paused = false)) : s.InSync := by
  have hkeyed := keyed_of_start hstart
  have hnone : ∀ id l, s.timeWheel.held id l = none := fun id l =>
    ((hkeyed l).registry_eq_none id).mpr ((start_empty hstart l).2.1 id)
  refine ⟨hkeyed, fun l => (start_empty hstart l).1, htasks,
    fun id => Held.single_of_forall_none (hnone id), fun id => ?_⟩
  cases hlive : s.tasks.live id with
  | none => exact hnone id
  | some row => exact (syncAt_of_forall_none (hnone id)).mpr (hidle id row hlive)

/-- An empty table and a wheel that has just been started. -/
def freshService : ServiceSystem := ⟨⟨fun _ => none, freshMultiLevelWheel, []⟩, fun _ => []⟩

/-- There is no row and no node, so there is nothing to compare. -/
theorem inSync_freshService : freshService.service.InSync :=
  inSync_of_start start_freshMultiLevelWheel TaskTable.keyed_empty (fun _ _ h => (nomatch h))

/-- A task is created, paused, resumed, given another interval, disabled,
enabled and deleted, by the two services in turn. -/
theorem synced_of_lifecycle :
    Machine.Each (ServiceSystem.step tableGorm) (fun _ _ s' => s'.service.Synced) freshService
      [.call .taskService (.create (everySecondRequest "a")) (calmEnv 0),
        .call .atomicTaskService (.call "a" .pause) (calmEnv 1),
        .call .taskService (.call "a" .resume) (calmEnv 2),
        .call .atomicTaskService (.call "a"
          (.update { TaskUpdateRequest.keep with intervalMs := some 2000 })) (calmEnv 3),
        .call .taskService (.call "a" .disable) (calmEnv 4),
        .call .atomicTaskService (.call "a" .enable) (calmEnv 5),
        .call .taskService (.call "a" .delete) (calmEnv 6)] :=
  (synced_iff documented_tableGorm inSync_freshService
    (by simp [ServiceAction.Calm, calm_calmEnv])).mpr (by decide +kernel)

/-- A task that gets another interval while it is paused. -/
def changedWhilePaused (svc : Service) : List ServiceAction :=
  [.call svc (.create (everySecondRequest "a")) (calmEnv 0),
    .call svc (.call "a" .pause) (calmEnv 1),
    .call svc (.call "a" (.update { TaskUpdateRequest.keep with intervalMs := some 2000 }))
      (calmEnv 2),
    .call svc (.call "a" .resume) (calmEnv 3)]

/-- Once resumed it runs with the old interval, whichever service is called. -/
theorem not_synced_of_changedWhilePaused :
    ¬ Machine.Each (ServiceSystem.step tableGorm) (fun _ _ s' => s'.service.Synced) freshService
        (changedWhilePaused .taskService)
      ∧ ¬ Machine.Each (ServiceSystem.step tableGorm) (fun _ _ s' => s'.service.Synced) freshService
        (changedWhilePaused .atomicTaskService) := by
  constructor
  all_goals
    intro h
    obtain ⟨-, h⟩ := h _ rfl
    obtain ⟨-, h⟩ := h _ rfl
    obtain ⟨-, h⟩ := h _ rfl
    have hsync := (h _ rfl).1 "a"
    revert hsync
    decide +kernel

end Timewheel
