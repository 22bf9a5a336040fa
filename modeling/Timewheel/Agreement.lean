import Timewheel.Steps
import Timewheel.Sync

/-!
# The two services side by side

`taskService` and `atomicTaskService` are given the same calls, each with a
table and a wheel of its own. Nothing distinguishes them until a wheel step
fails. The atomic service then rolls back and returns the error; the plain one
mostly ignores it, so that the call succeeds and the row is written. A row with
nothing in the wheel is enough for that: `Delete`, `Disable` and `Pause` fail in
the one service and not in the other.

`agree_iff` says for which runs the two agree: those in which every wheel step
succeeds, the one of `Enable` or `Create` apart, nothing is deleted that is not
there, and the pools hand out paused nodes alike.

What a call comes to is a function of three things: the row under its ID, what
the wheels hold under it, and whether the pool hands out a paused node
(`Call.outcome`). The service is a parameter of this function, and the code of
either is shown to compute it (`serves_call`, `serves_create`). The comparison
is then one of two values of one function, and the question when these are the
same is settled by going through the seven calls once (`Call.sameLive_iff`).
-/

namespace Timewheel

open TimeWheel (AddEnv)
open MultiLevelTimeWheel
open AtomicTaskService

/-! ## What a call comes to -/

/-- Whether a call succeeds, the row it leaves, less the time stamps, and what
is held then. Time stamps are left out because the two services write at
different times. -/
abbrev Outcome := Bool × Option TaskModel × Held

/-- The row, unless it is soft-deleted. What `GetByID` finds. -/
def liveRow (row : Option TaskModel) : Option TaskModel :=
  row.filter (fun row => row.deletedAt.isNone)

/-- **A call on an existing task**, from what it finds under the ID. Without a
live row every call fails, but for the plain `Delete`. With one, the wheel step
decides, and the service says whether its failure is reported and rolled back. -/
def AtomicTaskService.Call.outcome (svc : Service) (c : Call) (row : Option TaskModel) (h : Held)
    (paused : Bool) : Outcome :=
  match liveRow row with
  | none =>
    match svc, c with
    | .taskService, .delete => (true, row, h.remove)
    | _, _ => (false, row, h)
  | some r =>
    if c.idle r then (true, row, h)
    else
      let o := c.wheelStep r h paused
      (o.1 || !svc.reports c, some (if o.1 || !svc.rollsBack c then c.rowAfter r else r), o.2)

/-- **`Create`**, in either service. A rejected task leaves a soft-deleted row. -/
def TaskCreateRequest.outcome (req : TaskCreateRequest) (row : Option TaskModel) (h : Held)
    (paused : Bool) : Outcome :=
  match row with
  | some _ => (false, row, h)
  | none =>
    let new := req.toTaskModel.withDefaults.timeless
    if req.enabled then
      let o := h.add new.toTask paused
      (o.1, some (if o.1 then new else { new with deletedAt := some Time.zero }), o.2)
    else (true, some new, h)

/-- A service whose wheels run. The row with the empty key is not excluded. -/
structure ServiceState.Works (s : ServiceState) : Prop where
  keyed : s.timeWheel.Keyed
  running : s.timeWheel.Running
  tasks : s.tasks.Keyed

/-- The two sides of a service that has been started. No row has the empty key,
which an update would take for an insertion. -/
structure ServiceState.Ordered (s : ServiceState) : Prop where
  keyed : s.timeWheel.Keyed
  running : s.timeWheel.Running
  tasks : s.tasks.Keyed
  noKey : s.tasks "" = none

/-- What is looked at under an ID: the row less its time stamps. -/
def ServiceState.row (s : ServiceState) (id : String) : Option TaskModel :=
  (s.tasks id).map TaskModel.timeless

/-- **A call for `id` comes to the outcome**, and leaves everything else alone.
All of it is about the final state, so that the order of the steps inside a call
does not matter. -/
structure Answers (s : ServiceState) (id : String) (o : Outcome)
    (r : Option Err × ServiceState) : Prop where
  works : r.2.Works
  frame : ∀ id', id' ≠ id →
    r.2.tasks id' = s.tasks id' ∧ r.2.timeWheel.held id' = s.timeWheel.held id'
  row : r.2.row id = o.2.1
  held : r.2.timeWheel.held id = o.2.2
  succeeds : r.1 = none ↔ o.1 = true

/-- The same where every row has a key. This is the form the two runs are
compared in. -/
structure Serves (s : ServiceState) (id : String) (o : Outcome)
    (r : Option Err × ServiceState) : Prop where
  ordered : r.2.Ordered
  frame : ∀ id', id' ≠ id →
    r.2.tasks id' = s.tasks id' ∧ r.2.timeWheel.held id' = s.timeWheel.held id'
  row : r.2.row id = o.2.1
  held : r.2.timeWheel.held id = o.2.2
  succeeds : r.1 = none ↔ o.1 = true

variable {g : Gorm} {s : ServiceState} {id : String} {row : TaskModel} {env : ServiceEnv}
  {h : Held} {b b' : Bool}

/-- What is looked at includes whether the row is live. -/
theorem liveRow_row (s : ServiceState) (id : String) :
    liveRow (s.row id) = (s.tasks.live id).map TaskModel.timeless := s.tasks.live_timeless id

/-- One condition less. -/
theorem ServiceState.Ordered.works (hs : s.Ordered) : s.Works := ⟨hs.keyed, hs.running, hs.tasks⟩

/-- A call that leaves no row without a key. The row of the call's ID is the
only one that changes. -/
theorem Answers.serves {o : Outcome} {r : Option Err × ServiceState} (h : Answers s id o r)
    (hs : s.Ordered) (hnone : id = "" → o.2.1 = none) : Serves s id o r where
  ordered := {
    keyed := h.works.keyed
    running := h.works.running
    tasks := h.works.tasks
    noKey := by
      by_cases hid : id = ""
      · have hrow := h.row
        rw [hnone hid] at hrow
        subst hid
        exact Option.map_eq_none_iff.mp hrow
      · exact (h.frame "" (Ne.symm hid)).1.trans hs.noKey }
  frame := h.frame
  row := h.row
  held := h.held
  succeeds := h.succeeds

/-- Nothing is done. The tables are the same before and after. -/
theorem answers_nothing (hs : s.Works) (id : String) {ok : Bool} {r : Option Err × ServiceState}
    (hsame : SameTables s r.2) (hok : r.1 = none ↔ ok = true) :
    Answers s id (ok, s.row id, s.timeWheel.held id) r := by
  obtain ⟨err, tasks, timeWheel, log⟩ := r
  obtain ⟨rfl, rfl⟩ := hsame
  exact ⟨⟨hs.keyed, hs.running, hs.tasks⟩, fun _ _ => ⟨rfl, rfl⟩, rfl, rfl, hok⟩

/-- The row of `id` is written, and the wheel is called for `id`. Then the
outcome can be read off the two. -/
theorem answers_write (hs : s.Works) {row' : TaskModel} (hid : row'.id = id)
    {o : Bool × Held} {r : Option Err × MultiLevelTimeWheel} (hw : Does s.timeWheel id o r)
    {err : Option Err} {s' : ServiceState}
    (htasks : s'.tasks = Function.update s.tasks id (some row')) (hwheel : s'.timeWheel = r.2)
    {ok : Bool} (hok : err = none ↔ ok = true) :
    Answers s id (ok, some row'.timeless, o.2) (err, s') where
  works := {
    keyed := hwheel ▸ hw.touches.keyed
    running := hwheel ▸ hw.touches.up.running hs.running
    tasks := htasks ▸ hs.tasks.update hid }
  frame := fun id' hid' => by
    rw [htasks, hwheel, Function.update_of_ne hid']
    exact ⟨rfl, hw.touches.frame id' hid'⟩
  row := by
    unfold ServiceState.row
    rw [htasks, Function.update_self]
    rfl
  held := by rw [hwheel, hw.held]
  succeeds := hok

/-- The steps of a call whose database step fails. Nothing has been done yet. -/
theorem answers_failed {steps : AtomicSteps} {rollsBack reports : Bool}
    {r : Option Err × ServiceState} (hs : s.Works)
    (hrun : Performs steps rollsBack reports s env r) {err : Err}
    (herr : steps.dbOp s.tasks env.db = .error err) (id : String) :
    Answers s id (false, s.row id, s.timeWheel.held id) r := by
  obtain ⟨hsame, hok⟩ := hrun
  unfold AtomicSteps.attempt at hsame
  unfold AtomicSteps.succeeds at hok
  rw [herr] at hsame hok
  exact answers_nothing hs id hsame hok

/-- The steps of a call, once they are known to amount to `wheelStep`. The last
two flags say what the service makes of a wheel step that fails: it rolls back,
or it reports, or neither. -/
theorem answers_performs {steps : AtomicSteps} {rollsBack reports : Bool}
    {r : Option Err × ServiceState} (hs : s.Works)
    (hrun : Performs steps rollsBack reports s env r) {task row₁ row₂ : TaskModel} {o : Bool × Held}
    (hdb : steps.dbOp s.tasks env.db = .ok (task, Function.update s.tasks id (some row₁)))
    (hw : Does s.timeWheel id o (steps.twOp task s.timeWheel env))
    (hrb : steps.rollbackDB (Function.update s.tasks id (some row₁)) env.rollback
      = .ok (Function.update s.tasks id (some row₂)))
    (hid₁ : row₁.id = id) (hid₂ : row₂.id = id) :
    Answers s id (o.1 || !reports,
      some (if o.1 || !rollsBack then row₁.timeless else row₂.timeless), o.2) r := by
  obtain ⟨⟨htasks, hwheel⟩, hok⟩ := hrun
  unfold AtomicSteps.attempt at htasks hwheel
  unfold AtomicSteps.succeeds at hok
  rw [hdb] at htasks hwheel hok
  dsimp only at htasks hwheel hok
  obtain ⟨err, s'⟩ := r
  have hsucc := hw.succeeds
  cases htw : steps.twOp task s.timeWheel env with
  | mk e m =>
    rw [htw] at htasks hwheel hok hw hsucc
    cases e with
    | none =>
      rw [hsucc.mp rfl]
      exact answers_write hs hid₁ hw htasks hwheel hok
    | some e =>
      have hfail : o.1 = false := Bool.eq_false_iff.mpr (fun ho => (nomatch hsucc.mpr ho))
      rw [hfail]
      cases rollsBack with
      | false => exact answers_write hs hid₁ hw htasks hwheel hok
      | true =>
        dsimp only at htasks
        rw [hrb] at htasks
        exact answers_write hs hid₂ hw htasks hwheel hok

/-! ### Calls on an existing task -/

namespace AtomicTaskService

/-- The time stamps do not count. No call decides by them. -/
theorem Call.idle_timeless (c : Call) (row : TaskModel) : c.idle row.timeless = c.idle row := by
  cases c <;> rfl

/-- Nor does the wheel, which is given the schedule and not the stamps. -/
theorem Call.wheelStep_timeless (c : Call) (row : TaskModel) (h : Held) (b : Bool) :
    c.wheelStep row.timeless h b = c.wheelStep row h b := by
  cases c <;> rfl

/-- The pool looks at neither. -/
theorem Call.addsPaused_timeless (c : Call) (m : MultiLevelTimeWheel) (id : String)
    (row : TaskModel) (e : AddEnv) :
    c.addsPaused m id row.timeless e = c.addsPaused m id row e := by
  cases c <;> rfl

end AtomicTaskService

/-- The pool hands out a paused node for the wheel step of a call. Without a
live row nothing is added. -/
def ServiceState.addsPaused (s : ServiceState) (id : String) (c : Call) (env : ServiceEnv) : Bool :=
  match liveRow (s.row id) with
  | none => false
  | some row => c.addsPaused s.timeWheel id row env.add

/-- Without a live row, only the plain `Delete` does anything. It deletes no row
and removes the ID from the wheels. -/
theorem answers_missing (hg : g.Documented) (hs : s.Works) (hc : env.Calm) (svc : Service)
    (c : Call) (hlive : s.tasks.live id = none) :
    Answers s id (c.outcome svc (s.row id) (s.timeWheel.held id) b)
      (svc.call g s (.call id c) env) := by
  have hnone : liveRow (s.row id) = none := by
    rw [liveRow_row, hlive]
    rfl
  obtain ⟨err, hget⟩ := (repoGetByID_missing hg hc.get).mpr hlive
  have hfail : some err = none ↔ false = true := by simp
  unfold Call.outcome
  rw [hnone]
  cases svc with
  | atomicTaskService =>
    simp only [Service.call, Operation.execute, Call.execute, hget]
    exact answers_nothing hs id ⟨rfl, rfl⟩ hfail
  | taskService =>
    cases c with
    | update req =>
      simp only [Service.call, TaskService.update, hget]
      exact answers_nothing hs id ⟨rfl, rfl⟩ hfail
    | enable =>
      simp only [Service.call, TaskService.enable, hget]
      exact answers_nothing hs id ⟨rfl, rfl⟩ hfail
    | disable =>
      simp only [Service.call, TaskService.disable, hget]
      exact answers_nothing hs id ⟨rfl, rfl⟩ hfail
    | pause =>
      simp only [Service.call, TaskService.pause, hget]
      exact answers_nothing hs id ⟨rfl, rfl⟩ hfail
    | resume =>
      simp only [Service.call, TaskService.resume, hget]
      exact answers_nothing hs id ⟨rfl, rfl⟩ hfail
    | delete =>
      have hw := does_removeTask hs.keyed id
      simp only [Service.call, TaskService.delete]
      rw [(repoDelete_ok hg).mpr ⟨hc.db, (TaskTable.modifyLive_none hlive _).symm⟩]
      exact {
        works := ⟨hw.touches.keyed, hw.touches.up.running hs.running, hs.tasks⟩
        frame := fun id' hid' => ⟨rfl, hw.touches.frame id' hid'⟩
        row := rfl
        held := hw.held
        succeeds := iff_of_true rfl rfl }

/-- A call on an existing task comes to its outcome. An update has to be of a
row with a key. The mapper takes a row without a key for an insertion. -/
theorem answers_call (hg : g.Documented) (hs : s.Works) (hc : env.Calm) (svc : Service)
    {c : Call} (hkey : ∀ req, c = .update req → id ≠ "") :
    Answers s id (c.outcome svc (s.row id) (s.timeWheel.held id) (s.addsPaused id c env))
      (svc.call g s (.call id c) env) := by
  cases hlive : s.tasks.live id with
  | none => exact answers_missing hg hs hc svc c hlive
  | some row =>
    have hid := hs.tasks id row (TaskTable.live_eq_some.mp hlive).1
    have hsome : liveRow (s.row id) = some row.timeless := by
      rw [liveRow_row, hlive]
      rfl
    have hget : repoGetByID g s.tasks id env.get = .ok row :=
      (repoGetByID_ok hg).mpr ⟨hc.get, hlive⟩
    unfold Call.outcome ServiceState.addsPaused
    rw [hsome]
    dsimp only
    rw [c.idle_timeless, c.wheelStep_timeless, c.addsPaused_timeless]
    cases hsteps : c.steps g id row with
    | none =>
      rw [if_pos (Call.steps_eq_none.mp hsteps), idle_call svc hget hsteps]
      exact answers_nothing hs id ⟨rfl, rfl⟩ (iff_of_true rfl rfl)
    | some steps =>
      have hidle : ¬ c.idle row = true := fun hi =>
        (nomatch (Call.steps_eq_none.mpr hi).symm.trans hsteps)
      obtain ⟨task, row₁, row₂, hdb, hwritten, hw, hrb, hrestored⟩ :=
        Call.steps_spec hg hc hs.keyed hs.running hid hlive hkey hsteps
      have hid₁ : row₁.id = id := by
        have hafter : (c.rowAfter row.timeless).id = row.id := by cases c <;> rfl
        rw [← row₁.timeless_id, hwritten, hafter, hid]
      have hid₂ : row₂.id = id := by
        rw [← row₂.timeless_id, hrestored, row.timeless_id, hid]
      have hanswers := answers_performs hs (performs_call hg hc svc hget hsteps) hdb hw hrb
        hid₁ hid₂
      rw [hwritten, hrestored] at hanswers
      rw [if_neg hidle]
      exact hanswers

/-- **A call on an existing task** comes to its outcome. In either service. -/
theorem serves_call (hg : g.Documented) (hs : s.Ordered) (hc : env.Calm) (svc : Service)
    (c : Call) (id : String) :
    Serves s id (c.outcome svc (s.row id) (s.timeWheel.held id) (s.addsPaused id c env))
      (svc.call g s (.call id c) env) := by
  by_cases hid : id = ""
  · subst hid
    have hrow : s.row "" = none := congrArg _ hs.noKey
    have hlive : s.tasks.live "" = none := by
      unfold TaskTable.live
      rw [hs.noKey]
      rfl
    refine (answers_missing hg hs.works hc svc c hlive).serves hs (fun _ => ?_)
    rw [hrow]
    cases svc <;> cases c <;> rfl
  · exact (answers_call hg hs.works hc svc (fun _ _ => hid)).serves hs (fun h => absurd h hid)

/-! ### `Create` -/

/-- A request with an ID keeps it. Only the atomic service makes one up when it
is missing. -/
theorem requestOf_eq {req : TaskCreateRequest} (hkey : req.id ≠ "") (svc : Service) :
    svc.requestOf req env = req := by
  cases svc with
  | taskService => rfl
  | atomicTaskService => exact if_neg hkey

/-- `Create` comes to the outcome of the request with its ID. A failed wheel
step deletes the new row again, in both services. -/
theorem answers_create (hg : g.Documented) (hs : s.Works) (hc : env.Calm) (svc : Service)
    {req req' : TaskCreateRequest} (hreq : svc.requestOf req' env = req) :
    Answers s req.id (req.outcome (s.row req.id) (s.timeWheel.held req.id)
        (s.timeWheel.addsPaused req.toTaskModel.withDefaults.toTask env.add))
      (svc.call g s (.create req') env) := by
  have htaken : ∀ row, s.tasks req.id = some row → ∀ b,
      req.outcome (s.row req.id) (s.timeWheel.held req.id) b
        = (false, s.row req.id, s.timeWheel.held req.id) := by
    intro row hrow b
    have hsome : s.row req.id = some row.timeless := congrArg _ hrow
    rw [hsome]
    rfl
  cases hget : repoGetByID g s.tasks req.id env.get with
  | ok row =>
    obtain ⟨hrow, -⟩ := TaskTable.live_eq_some.mp ((repoGetByID_ok hg).mp hget).2
    rw [← hreq] at hget
    obtain ⟨hfail, hsame⟩ := create_taken svc hget
    rw [htaken row hrow]
    refine answers_nothing hs _ ?_ (iff_of_false hfail Bool.false_ne_true)
    rw [hsame]
    exact ⟨rfl, rfl⟩
  | error err =>
    rw [← hreq] at hget
    have hperf := performs_create hc svc hget
    rw [hreq] at hperf
    cases hrow : s.tasks req.id with
    | some row =>
      -- a soft-deleted row still has the key
      obtain ⟨err', herr⟩ : ∃ err', (createSteps g req).dbOp s.tasks env.db = .error err' :=
        hg.create_taken _ _ _ (ne_of_eq_of_ne hrow (Option.some_ne_none row))
      rw [htaken row hrow]
      exact answers_failed hs hperf herr req.id
    | none =>
      have hnone : s.row req.id = none := congrArg _ hrow
      unfold TaskCreateRequest.outcome
      rw [hnone]
      dsimp only
      let row₁ := req.toTaskModel.created env.db.stamp
      let row₂ : TaskModel := { row₁ with deletedAt := some env.rollback.stamp }
      have hdb : (createSteps g req).dbOp s.tasks env.db
          = .ok (row₁, Function.update s.tasks req.id (some row₁)) :=
        (repoCreate_ok hg).mpr ⟨hc.db, hrow, rfl, rfl⟩
      have hrb : (createSteps g req).rollbackDB (Function.update s.tasks req.id (some row₁))
          env.rollback = .ok (Function.update s.tasks req.id (some row₂)) :=
        repoDelete_update hg hc.rollback (show row₁.deletedAt = none from rfl)
      have htw : (createSteps g req).twOp row₁ s.timeWheel env
          = if req.enabled then addToTimeWheel s.timeWheel row₁ env.add
            else (none, s.timeWheel) := rfl
      by_cases he : req.enabled = true
      · rw [if_pos he] at htw ⊢
        have hw := does_addToTimeWheel hs.keyed hs.running row₁ env.add
        rw [← htw] at hw
        have hanswers := answers_performs hs hperf hdb hw hrb rfl rfl
        rw [Bool.not_true, Bool.or_false] at hanswers
        exact hanswers
      · rw [if_neg he] at htw ⊢
        have hw := does_nothing hs.keyed req.id
        rw [← htw] at hw
        exact answers_performs hs hperf hdb hw hrb rfl rfl

/-- **`Create`** comes to its outcome. Here the two services do the same. -/
theorem serves_create (hg : g.Documented) (hs : s.Ordered) (hc : env.Calm) (svc : Service)
    {req : TaskCreateRequest} (hkey : req.id ≠ "") :
    Serves s req.id (req.outcome (s.row req.id) (s.timeWheel.held req.id)
        (s.timeWheel.addsPaused req.toTaskModel.withDefaults.toTask env.add))
      (svc.call g s (.create req) env) :=
  (answers_create hg hs.works hc svc (requestOf_eq hkey svc)).serves hs (fun h => absurd h hkey)

/-! ## When the outcomes are the same -/

/-- The two calls succeed or fail together, and leave the same live row and the
same registrations. Rows that are soft-deleted may differ. -/
def SameLive (o o' : Outcome) : Prop :=
  o.1 = o'.1 ∧ liveRow o.2.1 = liveRow o'.2.1 ∧ o.2.2 = o'.2.2

namespace AtomicTaskService

/-- The call the two services differ in even without a live row. -/
def Call.isDelete : Call → Bool
  | .delete => true
  | _ => false

/-- **The wheel step succeeds**, or it is one that both services take back; and
what it adds does not differ. `b` and `b'` say whether the two pools hand out a
paused node. The wheel step of `Enable` is rolled back by both services, so it
may also fail. -/
def Call.Agrees (c : Call) (row : TaskModel) (h : Held) (b b' : Bool) : Prop :=
  match c with
  | .update req =>
    row.enabled = true → row.paused = false → h.remove.Takes (req.apply row).toTask ∧ b = b'
  | .enable => row.paused = false → h.Takes row.toTask → b = b'
  | .disable => h.reached ≠ none
  | .pause => h.reached ≠ none
  | .resume => row.enabled = true → h.reached = none → h.Takes row.toTask ∧ b = b'
  | .delete => h.reached ≠ none

instance (c : Call) (row : TaskModel) (h : Held) (b b' : Bool) : Decidable (c.Agrees row h b b') :=
  match c with
  | .update _ => inferInstanceAs (Decidable (_ → _ → _))
  | .enable => inferInstanceAs (Decidable (_ → _ → _))
  | .disable => inferInstanceAs (Decidable (_ ≠ _))
  | .pause => inferInstanceAs (Decidable (_ ≠ _))
  | .resume => inferInstanceAs (Decidable (_ → _ → _))
  | .delete => inferInstanceAs (Decidable (_ ≠ _))

/-- The same of a call on an ID. Without a live row, the atomic `Delete` fails
and the plain one does not. A call that finds the row as it should be does
nothing in either service. -/
def Call.AgreesAt (c : Call) (row : Option TaskModel) (h : Held) (b b' : Bool) : Prop :=
  (liveRow row = none → c.isDelete = false)
    ∧ ∀ r ∈ liveRow row, c.idle r = false → c.Agrees r h b b'

instance (c : Call) (row : Option TaskModel) (h : Held) (b b' : Bool) :
    Decidable (c.AgreesAt row h b b') := inferInstanceAs (Decidable (_ ∧ _))

/-- The wheel step of an `AddTask`. It succeeds and does not depend on the pool
exactly if the wheel takes the task and the pools agree. -/
theorem add_agrees (h : Held) (task : Task) :
    ((h.add task b).1 = true ∧ h.add task b = h.add task b') ↔ h.Takes task ∧ b = b' := by
  rw [Held.add_fst]
  exact and_congr_right (fun ht => Held.add_eq_add ht)

/-- **The condition, from the wheel step**: it succeeds or is rolled back by the
plain service too, and comes to the same with either pool. -/
theorem Call.agrees_iff (c : Call) (row : TaskModel) (h : Held) (b b' : Bool) :
    c.Agrees row h b b' ↔ ((c.wheelStep row h b).1 = true ∨ Service.taskService.rollsBack c = true)
      ∧ c.wheelStep row h b = c.wheelStep row h b' := by
  cases c with
  | update req =>
    simp only [Call.Agrees, Call.wheelStep, Service.rollsBack, Bool.false_eq_true, or_false]
    cases row.enabled with
    | false => simp
    | true =>
      cases row.paused with
      | true => simp
      | false => simpa using (add_agrees _ _).symm
  | enable =>
    simp only [Call.Agrees, Call.wheelStep, Service.rollsBack, or_true, true_and]
    cases row.paused with
    | true => simp
    | false =>
      simp only [Bool.false_eq_true, if_false, true_implies]
      by_cases ht : h.Takes row.toTask
      · rw [Held.add_eq_add ht]
        exact ⟨fun hb => hb ht, fun hb _ => hb⟩
      · rw [Held.add_of_not_takes ht, Held.add_of_not_takes ht]
        exact iff_of_true (fun h' => absurd h' ht) rfl
  | resume =>
    simp only [Call.Agrees, Call.wheelStep, Service.rollsBack, Bool.false_eq_true, or_false]
    cases row.enabled with
    | false => simp
    | true =>
      cases h.reached with
      | some l => simp
      | none => simpa using (add_agrees _ _).symm
  | disable => simp [Call.Agrees, Call.wheelStep, Service.rollsBack, Option.isSome_iff_ne_none]
  | pause => simp [Call.Agrees, Call.wheelStep, Service.rollsBack, Option.isSome_iff_ne_none]
  | delete => simp [Call.Agrees, Call.wheelStep, Service.rollsBack, Option.isSome_iff_ne_none]

/-- Whether the wheel step succeeds does not depend on the pool. A paused node
is added like any other. -/
theorem Call.wheelStep_fst (c : Call) (row : TaskModel) (h : Held) (b b' : Bool) :
    (c.wheelStep row h b).1 = (c.wheelStep row h b').1 := by
  have hadd : ∀ (h : Held) task, (h.add task b).1 = (h.add task b').1 := fun h task => by
    rw [Bool.eq_iff_iff, Held.add_fst, Held.add_fst]
  cases c <;> simp only [Call.wheelStep] <;> split_ifs <;> first | rfl | exact hadd _ _

/-- **The outcomes agree** exactly if the wheel steps do, and then they are the
same. A condition that is only sufficient would not do here: it is also needed,
as the differences show in the outcome. -/
theorem Call.sameLive_iff (c : Call) (row : Option TaskModel) (h : Held) (b b' : Bool) :
    (SameLive (c.outcome .taskService row h b) (c.outcome .atomicTaskService row h b')
        ↔ c.AgreesAt row h b b')
      ∧ (c.AgreesAt row h b b' →
        c.outcome .taskService row h b = c.outcome .atomicTaskService row h b') := by
  unfold Call.outcome Call.AgreesAt
  cases hlive : liveRow row with
  | none => cases c <;> simp [SameLive, Call.isDelete]
  | some r =>
    have hdel : r.deletedAt = none := Option.isNone_iff_eq_none.mp
      (Option.filter_eq_some_iff.mp hlive).2
    have hguard : ((some r = none → c.isDelete = false)
        ∧ ∀ r' ∈ some r, c.idle r' = false → c.Agrees r' h b b')
          ↔ (c.idle r = false → c.Agrees r h b b') := by simp
    rw [hguard]
    dsimp only
    cases hidle : c.idle r with
    | true => simp [SameLive]
    | false =>
      rw [if_neg Bool.false_ne_true, if_neg Bool.false_ne_true, c.agrees_iff]
      simp only [true_implies, Service.reports, Service.rollsBack, Bool.not_true, Bool.or_false]
      have hfst := c.wheelStep_fst r h b b'
      generalize c.wheelStep r h b = w at hfst
      generalize c.wheelStep r h b' = w' at hfst
      obtain ⟨ok, h₁⟩ := w
      obtain ⟨ok', h₂⟩ := w'
      obtain rfl : ok = ok' := hfst
      cases ok with
      | true => simp [SameLive]
      | false =>
        -- the wheel step fails in both
        cases c with
        | enable => simp [SameLive]
        | resume =>
          have hpaused : r.paused = true := by simpa [Call.idle] using hidle
          have hne : ¬ liveRow (some { r with paused := false }) = liveRow (some r) := by
            intro heq
            unfold liveRow at heq
            rw [Option.filter_some, Option.filter_some, hdel] at heq
            have := congrArg TaskModel.paused (Option.some.inj heq)
            exact Bool.false_ne_true (this.trans hpaused)
          simp [SameLive, Call.rowAfter, hne]
        | update req => simp [SameLive]
        | disable => simp [SameLive]
        | pause => simp [SameLive]
        | delete => simp [SameLive]

end AtomicTaskService

/-- **`Create`**, which is the same in both. Only the pools can make a
difference. -/
theorem TaskCreateRequest.sameLive_iff (req : TaskCreateRequest) (row : Option TaskModel) (h : Held)
    (b b' : Bool) :
    (SameLive (req.outcome row h b) (req.outcome row h b')
        ↔ (row = none → req.enabled = true →
          h.Takes req.toTaskModel.withDefaults.toTask → b = b'))
      ∧ ((row = none → req.enabled = true →
          h.Takes req.toTaskModel.withDefaults.toTask → b = b') →
        req.outcome row h b = req.outcome row h b') := by
  unfold TaskCreateRequest.outcome
  cases row with
  | some row => simp [SameLive]
  | none =>
    dsimp only
    cases req.enabled with
    | false => simp [SameLive]
    | true =>
      simp only [if_true, TaskModel.timeless_toTask, true_implies]
      generalize req.toTaskModel.withDefaults = new
      by_cases ht : h.Takes new.toTask
      · have heq := @Held.add_eq_add h new.toTask b b' ht
        rw [Held.add_of_takes ht, Held.add_of_takes ht, Prod.mk.injEq] at heq
        simpa [SameLive, Held.add_of_takes ht, ht] using And.intro heq heq.mpr
      · simp [SameLive, Held.add_of_not_takes ht, ht]

/-! ## The two runs -/

/-- The two services, each with a table, a wheel and executions of its own. -/
structure ServicePair where
  plain : ServiceSystem
  atomic : ServiceSystem

/-- Both services are called, or the wheels of one of them go on. The background
of the two is independent: the wheels of one may tick when those of the other do
not. -/
inductive PairAction where
  | call (op : Operation) (plain atomic : ServiceEnv)
  | background (svc : Service) (l : Level) (a : Action)

/-- No call meets a failure that is not up to the program, and `Create` is
called with an ID. An ID that is made up would differ between the services. -/
def PairAction.Calm : PairAction → Prop
  | .call (.create req) e e' => e.Calm ∧ e'.Calm ∧ req.id ≠ ""
  | .call (.call _ _) e e' => e.Calm ∧ e'.Calm
  | .background _ _ _ => True

namespace ServicePair

/-- **The step function.** No task completes in either wheel. -/
def step (g : Gorm) (s : ServicePair) : PairAction → Option ServicePair
  | .call op e e' =>
    (s.plain.step g (.call .taskService op e)).bind (fun p =>
      (s.atomic.step g (.call .atomicTaskService op e')).map (fun a => ⟨p, a⟩))
  | .background .taskService l a =>
    (s.plain.step g (.background l a)).map (fun p => { s with plain := p })
  | .background .atomicTaskService l a =>
    (s.atomic.step g (.background l a)).map (fun a => { s with atomic := a })

/-- The live rows, less their time stamps, and the contents of the wheels are
the same. This is all that clients and executions can tell apart. -/
def SameContents (s : ServicePair) : Prop :=
  ∀ id, (s.plain.service.tasks.live id).map TaskModel.timeless
      = (s.atomic.service.tasks.live id).map TaskModel.timeless
    ∧ s.plain.service.timeWheel.held id = s.atomic.service.timeWheel.held id

/-- **The two agree** on a step. Both calls succeed or both fail, and afterwards
the contents are the same. -/
def Agree (g : Gorm) (s : ServicePair) (a : PairAction) (s' : ServicePair) : Prop :=
  (match a with
    | .call op e e' => (Service.taskService.call g s.plain.service op e).1 = none
        ↔ (Service.atomicTaskService.call g s.atomic.service op e').1 = none
    | .background _ _ _ => True)
  ∧ s'.SameContents

/-- **What it takes**, of the state a step starts from. It can be evaluated
before the step. -/
def AgreesOn (s : ServicePair) (a : PairAction) (_ : ServicePair) : Prop :=
  match a with
  | .call (.create req) e e' =>
    let task := req.toTaskModel.withDefaults.toTask
    s.plain.service.row req.id = none → req.enabled = true →
      (s.plain.service.timeWheel.held req.id).Takes task →
        s.plain.service.timeWheel.addsPaused task e.add
          = s.atomic.service.timeWheel.addsPaused task e'.add
  | .call (.call id c) e e' =>
    c.AgreesAt (s.plain.service.row id) (s.plain.service.timeWheel.held id)
      (s.plain.service.addsPaused id c e) (s.atomic.service.addsPaused id c e')
  | .background _ _ _ => True

instance (s : ServicePair) (a : PairAction) (s' : ServicePair) : Decidable (s.AgreesOn a s') :=
  match a with
  | .call (.create _) _ _ => inferInstanceAs (Decidable (_ → _ → _ → _))
  | .call (.call _ _) _ _ => inferInstanceAs (Decidable (Call.AgreesAt _ _ _ _ _))
  | .background _ _ _ => isTrue trivial

/-- The two cannot be told apart. This is the invariant; it is more than
`SameContents`, since it speaks of soft-deleted rows as well. -/
structure Matched (s : ServicePair) : Prop where
  plain : s.plain.service.Ordered
  atomic : s.atomic.service.Ordered
  rows : ∀ id, s.plain.service.row id = s.atomic.service.row id
  held : ∀ id, s.plain.service.timeWheel.held id = s.atomic.service.timeWheel.held id

/-- Rows that are the same are live or not alike. -/
theorem Matched.sameContents {s : ServicePair} (h : s.Matched) : s.SameContents := fun id =>
  ⟨by rw [← liveRow_row, ← liveRow_row, h.rows id], h.held id⟩

variable {s s' : ServicePair} {o o' : Outcome} {r r' : Option Err × ServiceState}

/-- Calls with the same outcome. They lead to states that cannot be told apart
either. -/
theorem Matched.serves (h : s.Matched) (hp : Serves s.plain.service id o r)
    (ha : Serves s.atomic.service id o r') (execs execs' : Level → List Execution) :
    Matched ⟨⟨r.2, execs⟩, ⟨r'.2, execs'⟩⟩ where
  plain := hp.ordered
  atomic := ha.ordered
  rows := fun id' => by
    by_cases hid : id' = id
    · subst hid
      exact hp.row.trans ha.row.symm
    · have hrows := h.rows id'
      unfold ServiceState.row at hrows ⊢
      rw [(hp.frame id' hid).1, (ha.frame id' hid).1, hrows]
  held := fun id' => by
    by_cases hid : id' = id
    · subst hid
      exact hp.held.trans ha.held.symm
    · exact ((hp.frame id' hid).2.trans (h.held id')).trans (ha.frame id' hid).2.symm

/-- Where the contents are the same, so are the outcomes, as far as can be seen.
This is the direction that makes the condition necessary. -/
theorem sameLive_of_serves (hp : Serves s.plain.service id o r)
    (ha : Serves s.atomic.service id o' r') (hok : r.1 = none ↔ r'.1 = none)
    {execs execs' : Level → List Execution}
    (hsame : SameContents ⟨⟨r.2, execs⟩, ⟨r'.2, execs'⟩⟩) : SameLive o o' := by
  obtain ⟨hlive, hheld⟩ := hsame id
  refine ⟨Bool.eq_iff_iff.mpr ((hp.succeeds.symm.trans hok).trans ha.succeeds), ?_, ?_⟩
  · rw [← hp.row, ← ha.row, liveRow_row, liveRow_row]
    exact hlive
  · rw [← hp.held, ← ha.held]
    exact hheld

/-- **A call of both services**, whose outcomes are the same exactly if `q`. The
two directions of the step, for a call. -/
theorem agree_call (h : s.Matched) {q : Prop} (hp : Serves s.plain.service id o r)
    (ha : Serves s.atomic.service id o' r') (hq : (SameLive o o' ↔ q) ∧ (q → o = o'))
    (execs execs' : Level → List Execution) :
    (q → Matched ⟨⟨r.2, execs⟩, ⟨r'.2, execs'⟩⟩ ∧ (r.1 = none ↔ r'.1 = none))
      ∧ ((r.1 = none ↔ r'.1 = none) → SameContents ⟨⟨r.2, execs⟩, ⟨r'.2, execs'⟩⟩ → q) := by
  refine ⟨fun hq' => ?_, fun hok hsame => hq.1.mp (sameLive_of_serves hp ha hok hsame)⟩
  obtain rfl := hq.2 hq'
  exact ⟨h.serves hp ha execs execs', hp.succeeds.trans ha.succeeds.symm⟩

/-- The wheels of one service go on. This changes no row and nothing that is
held. -/
theorem ordered_background {p p' : ServiceSystem} {l : Level} {a : Action}
    (hs : p.service.Ordered) (hstep : p.step g (.background l a) = some p') :
    p'.service.Ordered ∧ (∀ id, p'.service.row id = p.service.row id)
      ∧ ∀ id, p'.service.timeWheel.held id = p.service.timeWheel.held id := by
  obtain ⟨htasks, hkeyed, hup, hheld⟩ := background_kept hs.keyed hstep
  refine ⟨⟨hkeyed, hup.running hs.running, htasks.symm ▸ hs.tasks, htasks ▸ hs.noKey⟩,
    fun id => ?_, hheld⟩
  unfold ServiceState.row
  rw [htasks]

/-- So the other service need not follow. -/
theorem Matched.background (h : s.Matched) {svc : Service} {l : Level} {a : Action}
    (hstep : s.step g (.background svc l a) = some s') : s'.Matched := by
  cases svc with
  | taskService =>
    obtain ⟨p, hp, rfl⟩ := Option.map_eq_some_iff.mp hstep
    obtain ⟨hordered, hrow, hheld⟩ := ordered_background h.plain hp
    exact ⟨hordered, h.atomic, fun id => (hrow id).trans (h.rows id),
      fun id => (hheld id).trans (h.held id)⟩
  | atomicTaskService =>
    obtain ⟨p, hp, rfl⟩ := Option.map_eq_some_iff.mp hstep
    obtain ⟨hordered, hrow, hheld⟩ := ordered_background h.atomic hp
    exact ⟨h.plain, hordered, fun id => (h.rows id).trans (hrow id).symm,
      fun id => (h.held id).trans (hheld id).symm⟩

/-- **One step.** From states that cannot be told apart, the two agree exactly
if the condition is met, and then they still cannot. The induction over runs
needs no more. -/
theorem agree_step (hg : g.Documented) {a : PairAction} (hcalm : a.Calm) (h : s.Matched)
    (hstep : s.step g a = some s') :
    (s.AgreesOn a s' → s'.Matched ∧ s.Agree g a s') ∧ (s.Agree g a s' → s.AgreesOn a s') := by
  cases a with
  | background svc l a =>
    have hs' := h.background hstep
    exact ⟨fun _ => ⟨hs', trivial, hs'.sameContents⟩, fun _ => trivial⟩
  | call op e e' =>
    have hs' : ⟨⟨Service.taskService.execute g s.plain.service op e, s.plain.execs⟩,
        ⟨Service.atomicTaskService.execute g s.atomic.service op e', s.atomic.execs⟩⟩ = s' :=
      Option.some.inj hstep
    rw [← Service.call_snd, ← Service.call_snd] at hs'
    subst hs'
    cases op with
    | create req =>
      obtain ⟨hc, hc', hkey⟩ := hcalm
      have hp := serves_create hg h.plain hc .taskService hkey
      have ha := serves_create hg h.atomic hc' .atomicTaskService hkey
      rw [← h.rows, ← h.held] at ha
      obtain ⟨hkeep, hneed⟩ := agree_call h hp ha (req.sameLive_iff _ _ _ _) s.plain.execs
        s.atomic.execs
      refine ⟨fun hq => ?_, fun hagree => hneed hagree.1 hagree.2⟩
      obtain ⟨hmatched, hok⟩ := hkeep hq
      exact ⟨hmatched, hok, hmatched.sameContents⟩
    | call id c =>
      obtain ⟨hc, hc'⟩ := hcalm
      have hp := serves_call hg h.plain hc .taskService c id
      have ha := serves_call hg h.atomic hc' .atomicTaskService c id
      rw [← h.rows, ← h.held] at ha
      obtain ⟨hkeep, hneed⟩ := agree_call h hp ha (c.sameLive_iff _ _ _ _) s.plain.execs
        s.atomic.execs
      refine ⟨fun hq => ?_, fun hagree => hneed hagree.1 hagree.2⟩
      obtain ⟨hmatched, hok⟩ := hkeep hq
      exact ⟨hmatched, hok, hmatched.sameContents⟩

end ServicePair

/-- An empty table, and a wheel that has just been started. Both services start
like this. -/
structure ServiceState.Fresh (s : ServiceState) : Prop where
  tasks : s.tasks = fun _ => none
  started : ∃ created now, (MultiLevelTimeWheel.new created).start now = some s.timeWheel

/-- Nothing is stored or held. -/
theorem ServiceState.Fresh.ordered (h : s.Fresh) : s.Ordered := by
  obtain ⟨htasks, created, now, hstart⟩ := h
  refine ⟨keyed_of_start hstart, fun l => (start_empty hstart l).1, ?_, congrFun htasks ""⟩
  rw [htasks]
  exact TaskTable.keyed_empty

/-- Two services without contents cannot be told apart. -/
theorem ServicePair.matched_of_fresh {s : ServicePair} (hp : s.plain.service.Fresh)
    (ha : s.atomic.service.Fresh) : s.Matched := by
  have hnone : ∀ {s : ServiceState}, s.Fresh → ∀ id, s.timeWheel.held id = fun _ => none := by
    intro s hs id
    obtain ⟨-, created, now, hstart⟩ := hs
    exact funext (fun l => ((keyed_of_start hstart l).registry_eq_none id).mpr
      ((start_empty hstart l).2.1 id))
  refine ⟨hp.ordered, ha.ordered, fun id => ?_, fun id => (hnone hp id).trans (hnone ha id).symm⟩
  unfold ServiceState.row
  rw [hp.tasks, ha.tasks]

/-- **Exactly the runs in which the two services agree.** On the left stands
what the calls answer and what is stored and held after every step; on the right
a condition on the calls and on the states they find. No run in which the
services agree is left out. -/
theorem agree_iff (hg : g.Documented) {s : ServicePair} (hp : s.plain.service.Fresh)
    (ha : s.atomic.service.Fresh) {as : List PairAction} (has : ∀ a ∈ as, a.Calm) :
    Machine.Each (ServicePair.step g) (ServicePair.Agree g) s as
      ↔ Machine.Each (ServicePair.step g) ServicePair.AgreesOn s as :=
  Machine.each_iff_of_invariant
    (fun _ _ _ hcalm hinv hstep hq => (ServicePair.agree_step hg hcalm hinv hstep).1 hq)
    (fun _ _ _ hcalm hinv hstep hq => (ServicePair.agree_step hg hcalm hinv hstep).2 hq)
    has (ServicePair.matched_of_fresh hp ha)

/-- Two services that have just been started. -/
def freshPair : ServicePair := ⟨freshService, freshService⟩

/-- They are as `agree_iff` wants them. -/
theorem fresh_freshService : freshService.service.Fresh := ⟨rfl, _, _, start_freshMultiLevelWheel⟩

/-- A task is created, paused and resumed, given another interval, disabled,
enabled and deleted. -/
theorem agree_of_lifecycle :
    Machine.Each (ServicePair.step tableGorm) (ServicePair.Agree tableGorm) freshPair
      [.call (.create (everySecondRequest "a")) (calmEnv 0) (calmEnv 0),
        .call (.call "a" .pause) (calmEnv 1) (calmEnv 1),
        .call (.call "a" .resume) (calmEnv 2) (calmEnv 3),
        .call (.call "a" (.update { TaskUpdateRequest.keep with intervalMs := some 2000 }))
          (calmEnv 3) (calmEnv 4),
        .call (.call "a" .disable) (calmEnv 4) (calmEnv 5),
        .call (.call "a" .enable) (calmEnv 5) (calmEnv 6),
        .call (.call "a" .delete) (calmEnv 6) (calmEnv 7)] :=
  (agree_iff documented_tableGorm fresh_freshService fresh_freshService
    (by simp [PairAction.Calm, calm_calmEnv, everySecondRequest])).mpr (by decide +kernel)

/-- A disabled task is created and deleted again. -/
def deletedWhileDisabled : List PairAction :=
  [.call (.create { everySecondRequest "a" with enabled := false }) (calmEnv 0) (calmEnv 0),
    .call (.call "a" .delete) (calmEnv 1) (calmEnv 1)]

/-- The plain service deletes it. The atomic one does not, since there is
nothing to take out of the wheel, and returns an error. -/
theorem not_agree_of_deletedWhileDisabled :
    ¬ Machine.Each (ServicePair.step tableGorm) (ServicePair.Agree tableGorm) freshPair
        deletedWhileDisabled := by
  intro h
  obtain ⟨-, h⟩ := h _ rfl
  have hok := (h _ rfl).1.1
  revert hok
  decide +kernel

end Timewheel
