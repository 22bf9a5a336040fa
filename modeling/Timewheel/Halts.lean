import Timewheel.Deployment

/-!
# Stopped tasks in the table

A task is stopped by deleting, disabling or pausing it. Its row says so, and
goes on saying so whatever is called for it, except `Enable` if it was disabled
and `Resume` if it was paused (`Halted.call`). A rollback makes no exception:
it only takes back what its own call has written.

Both services write the row in the same steps (`Wrote`), so each call is looked
at once.

A call is one step in this module, and so the table and the rows are looked at
between calls only. That is the granularity of the services: one call writes
the row of its ID at most twice, and what another call might read in between
is the subject of `Timewheel.Snapshot`.
-/

namespace Timewheel

open TaskTable (Writes)

/-- The three calls that stop a task. -/
inductive Halt where
  | delete
  | disable
  | pause

namespace Halt

/-- The call that does it. -/
def call : Halt → AtomicTaskService.Call
  | .delete => .delete
  | .disable => .disable
  | .pause => .pause

/-- What the row says afterwards. A row that is marked in one of these ways is
not put into a wheel by a repair or a restart. -/
def Marked : Halt → TaskModel → Prop
  | .delete, row => row.deletedAt ≠ none
  | .disable, row => row.enabled = false
  | .pause, row => row.paused = true

/-- The call that starts the task again. Nothing lifts a deletion: `Enable` and
`Resume` do not find the row. -/
def Lifts : Halt → AtomicTaskService.Call → Prop
  | .disable, .enable => True
  | .pause, .resume => True
  | _, _ => False

variable {k : Halt} {row row' : TaskModel}

/-- What a row says depends on its status. So whatever an update does to the
definition of a row, the mark stays. -/
theorem Marked.congr (h : k.Marked row) (hd : row'.deletedAt = row.deletedAt)
    (he : row'.enabled = row.enabled) (hp : row'.paused = row.paused) : k.Marked row' := by
  cases k with
  | delete => exact ne_of_eq_of_ne hd h
  | disable => exact he.trans h
  | pause => exact hp.trans h

/-- A live row is marked as disabled or paused, if it is marked at all. -/
theorem Marked.ne_delete (h : k.Marked row) (hlive : row.deletedAt = none) : k ≠ .delete := by
  rintro rfl
  exact h hlive

end Halt

namespace TaskTable

variable {t t' : TaskTable} {id : String} {k : Halt} {row : TaskModel} {g : Gorm} {env : DbEnv}

/-- **The row of the ID says** that the task has been stopped. A row that has
been deleted is still there: the deletion is soft. -/
def Halted (t : TaskTable) (id : String) (k : Halt) : Prop :=
  ∃ row, t id = some row ∧ k.Marked row

/-- A live row that says so. So a call that finds the row finds the mark. -/
theorem Halted.of_live (h : t.Halted id k) (hlive : t.live id = some row) :
    k.Marked row ∧ k ≠ .delete := by
  obtain ⟨row', hrow', hmarked⟩ := h
  obtain ⟨hrow, hdel⟩ := live_eq_some.mp hlive
  obtain rfl := Option.some.inj (hrow.symm.trans hrow')
  exact ⟨hmarked, hmarked.ne_delete hdel⟩

/-- A marked row is written. -/
theorem halted_update (hmarked : k.Marked row) : Halted (Function.update t id (some row)) id k :=
  ⟨row, Function.update_self _ _ _, hmarked⟩

/-- The row is rewritten. What is written keeps the mark. -/
theorem Halted.modify (h : t.Halted id k) {f : TaskModel → TaskModel}
    (hf : ∀ row, k.Marked row → k.Marked (f row)) : (t.modify id f).Halted id k := by
  obtain ⟨row, hrow, hmarked⟩ := h
  exact ⟨f row, by rw [modify_self, hrow, Option.map_some], hf row hmarked⟩

/-- The same of a statement that leaves deleted rows alone; a row marked as
deleted is not reached by it at all. -/
theorem Halted.modifyLive (h : t.Halted id k) {f : TaskModel → TaskModel}
    (hf : ∀ row, k.Marked row → k.Marked (f row)) : (t.modifyLive id f).Halted id k :=
  h.modify (fun row hmarked => by
    split_ifs
    · exact hf row hmarked
    · exact hmarked)

/-- `UpdateStatus` keeps a mark if it writes the flag the mark is about, -/
theorem Halted.updateStatus (hg : g.Documented) (h : t.Halted id k) {enabled paused : Bool}
    (he : k = .disable → enabled = false) (hp : k = .pause → paused = true)
    (hok : repoUpdateStatus g t id enabled paused env = .ok t') : t'.Halted id k := by
  rw [((repoUpdateStatus_ok hg).mp hok).2]
  refine h.modifyLive (fun row hmarked => ?_)
  cases k with
  | delete => exact hmarked
  | disable => exact he rfl
  | pause => exact hp rfl

/-- a deletion keeps any, -/
theorem Halted.delete (hg : g.Documented) (h : t.Halted id k)
    (hok : repoDelete g t id env = .ok t') : t'.Halted id k := by
  rw [((repoDelete_ok hg).mp hok).2]
  refine h.modifyLive (fun row hmarked => ?_)
  cases k with
  | delete => exact Option.some_ne_none _
  | disable => exact hmarked
  | pause => exact hmarked

/-- and taking a deletion back keeps those of the other two kinds. Only the call
that has deleted the row does that. -/
theorem Halted.undelete (hg : g.Documented) (h : t.Halted id k) (hk : k ≠ .delete)
    (hid : row.id = id) (hok : repoUndelete g t row env = .ok t') : t'.Halted id k := by
  rw [((repoUndelete_ok hg).mp hok).2, hid]
  refine h.modify (fun row hmarked => ?_)
  cases k with
  | delete => exact absurd rfl hk
  | disable => exact hmarked
  | pause => exact hmarked

end TaskTable

/-! ## The calls of both services -/

open AtomicTaskService TaskTable

section Calls

variable {g : Gorm} {s : ServiceState} {id : String} {env : ServiceEnv} {row : TaskModel}
  {c : Call} {k : Halt}

/-- **What a call writes to the table**, once it has read the row: nothing; what
its database step writes; or that, undone again. The wheel has no part in it.
Whatever it answers only decides whether the write is left, or undone, and which
error comes back. -/
inductive Wrote (g : Gorm) (s : ServiceState) (id : String) (row : TaskModel) (c : Call)
    (env : ServiceEnv) : Option Err → TaskTable → Prop where
  | refused (err : Err) : Wrote g s id row c env (some err) s.tasks
  | idle (done : c.steps g id row = none) : Wrote g s id row c env none s.tasks
  | written {steps : AtomicSteps} {task : TaskModel} {tasks : TaskTable} (err : Option Err)
      (toDo : c.steps g id row = some steps) (db : steps.dbOp s.tasks env.db = .ok (task, tasks)) :
      Wrote g s id row c env err tasks
  | undone {steps : AtomicSteps} {task : TaskModel} {tasks : TaskTable} (err : Err)
      (toDo : c.steps g id row = some steps) (db : steps.dbOp s.tasks env.db = .ok (task, tasks)) :
      Wrote g s id row c env (some err) (ignoreErr tasks (steps.rollbackDB tasks env.rollback))

/-- The outcomes of an attempt, as writes. -/
theorem wrote_of_attempted {steps : AtomicSteps} {r : Except Err TaskModel × ServiceState}
    (h : Attempted steps s env r) (hsteps : c.steps g id row = some steps) :
    Wrote g s id row c env (errOf r.1) r.2.tasks := by
  cases h with
  | refused err log => exact .refused err
  | done log db tw => exact .written none hsteps db
  | undone err log db tw => exact .undone err hsteps db

/-- A database step that keeps the row it is given. -/
theorem map_ok {r : Except Err TaskTable} {tasks : TaskTable} (h : r = .ok tasks) :
    r.map (fun tasks => (row, tasks)) = .ok (row, tasks) := by
  rw [h]
  rfl

/-- **The plain service** writes in the same steps. It does so in the body of
each method, so each is followed up to its write; the rest of the method, which
is about the wheel, does not matter. -/
theorem wrote_of_plain (hg : g.Documented) (hlive : s.tasks.live id = some row) (c : Call) :
    Wrote g s id row c env (Service.taskService.call g s (.call id c) env).1
      (Service.taskService.call g s (.call id c) env).2.tasks := by
  unfold Service.call
  dsimp only
  cases c with
  | delete =>
    -- the only method that writes before it reads
    show Wrote g s id row .delete env (TaskService.delete g s id env).1
      (TaskService.delete g s id env).2.tasks
    unfold TaskService.delete
    dsimp only
    cases hdb : repoDelete g s.tasks id env.db with
    | error err => exact .refused err
    | ok tasks => exact .written none rfl (map_ok hdb)
  | update req =>
    dsimp only
    unfold TaskService.update errOnly
    cases hget : repoGetByID g s.tasks id env.get with
    | error err => exact .refused err
    | ok row' =>
      obtain rfl := Option.some.inj (hlive.symm.trans ((repoGetByID_ok hg).mp hget).2)
      dsimp only
      cases hdb : repoUpdate g s.tasks (req.apply row) env.db with
      | error err => exact .refused err
      | ok r =>
        dsimp only
        -- whether the row asks for a node is decided after the write
        split_ifs
        · exact .written none rfl hdb
        · exact .written none rfl hdb
  | enable =>
    dsimp only
    unfold TaskService.enable
    cases hget : repoGetByID g s.tasks id env.get with
    | error err => exact .refused err
    | ok row' =>
      obtain rfl := Option.some.inj (hlive.symm.trans ((repoGetByID_ok hg).mp hget).2)
      dsimp only
      split_ifs with he hp
      · exact .idle (if_pos he)
      · cases hdb : repoUpdateStatus g s.tasks id true row.paused env.db with
        | error err => exact .refused err
        | ok tasks => exact .written none (if_neg he) (map_ok hdb)
      · have hsteps : Call.enable.steps g id row = some (enableSteps g id row) := if_neg he
        cases hdb : repoUpdateStatus g s.tasks id true row.paused env.db with
        | error err => exact .refused err
        | ok tasks =>
          dsimp only
          -- a task the wheel does not take is the one write this service undoes
          cases addToTimeWheel s.timeWheel { row with enabled := true } env.add with
          | mk err m =>
            cases err with
            | none => exact .written none hsteps (map_ok hdb)
            | some err => exact .undone err hsteps (map_ok hdb)
  | disable =>
    dsimp only
    unfold TaskService.disable
    cases hget : repoGetByID g s.tasks id env.get with
    | error err => exact .refused err
    | ok row' =>
      obtain rfl := Option.some.inj (hlive.symm.trans ((repoGetByID_ok hg).mp hget).2)
      dsimp only
      split_ifs with he
      · exact .idle (if_pos he)
      · cases hdb : repoUpdateStatus g s.tasks id false row.paused env.db with
        | error err => exact .refused err
        | ok tasks => exact .written none (if_neg he) (map_ok hdb)
  | pause =>
    dsimp only
    unfold TaskService.pause
    cases hget : repoGetByID g s.tasks id env.get with
    | error err => exact .refused err
    | ok row' =>
      obtain rfl := Option.some.inj (hlive.symm.trans ((repoGetByID_ok hg).mp hget).2)
      dsimp only
      split_ifs with hp
      · exact .idle (if_pos hp)
      · cases hdb : repoUpdateStatus g s.tasks id row.enabled true env.db with
        | error err => exact .refused err
        | ok tasks => exact .written none (if_neg hp) (map_ok hdb)
  | resume =>
    dsimp only
    unfold TaskService.resume
    cases hget : repoGetByID g s.tasks id env.get with
    | error err => exact .refused err
    | ok row' =>
      obtain rfl := Option.some.inj (hlive.symm.trans ((repoGetByID_ok hg).mp hget).2)
      dsimp only
      split_ifs with hp he
      · exact .idle (if_pos hp)
      · cases hdb : repoUpdateStatus g s.tasks id row.enabled false env.db with
        | error err => exact .refused err
        | ok tasks =>
          dsimp only
          cases s.timeWheel.resumeTask id env.resumeAt with
          | mk err m =>
            cases err with
            | none => exact .written none (if_neg hp) (map_ok hdb)
            -- the node was gone, and the task is added: whatever comes of it, the row
            -- stays as written
            | some err => exact .written _ (if_neg hp) (map_ok hdb)
      · cases hdb : repoUpdateStatus g s.tasks id row.enabled false env.db with
        | error err => exact .refused err
        | ok tasks => exact .written none (if_neg hp) (map_ok hdb)

/-- The atomic service does. There the steps are carried out by
`executeAtomically`, so one lemma does for all calls. -/
theorem wrote_of_atomic (hg : g.Documented) (hlive : s.tasks.live id = some row) (c : Call) :
    Wrote g s id row c env (Service.atomicTaskService.call g s (.call id c) env).1
      (Service.atomicTaskService.call g s (.call id c) env).2.tasks := by
  show Wrote g s id row c env (errOf (c.execute g s id env).1) (c.execute g s id env).2.tasks
  unfold Call.execute
  cases hget : repoGetByID g s.tasks id env.get with
  | error err => exact .refused err
  | ok row' =>
    obtain rfl := Option.some.inj (hlive.symm.trans ((repoGetByID_ok hg).mp hget).2)
    dsimp only
    unfold Call.body
    cases hsteps : c.steps g id row with
    | none => exact .idle hsteps
    | some steps => exact wrote_of_attempted (attempted_executeAtomically steps s env) hsteps

/-- **Either service.** -/
theorem wrote_of_call (hg : g.Documented) (hlive : s.tasks.live id = some row) (svc : Service)
    (c : Call) :
    Wrote g s id row c env (svc.call g s (.call id c) env).1
      (svc.call g s (.call id c) env).2.tasks := by
  cases svc with
  | taskService => exact wrote_of_plain hg hlive c
  | atomicTaskService => exact wrote_of_atomic hg hlive c

/-- Without a live row the table stays. Nothing but `Delete` of the plain
service writes before it has read, and that writes to live rows only. -/
theorem tasks_of_not_live (hg : g.Documented) (hlive : s.tasks.live id = none) (svc : Service)
    (c : Call) : (svc.call g s (.call id c) env).2.tasks = s.tasks := by
  obtain ⟨err, hget⟩ := hg.first_none s.tasks id env.get hlive
  have hget : repoGetByID g s.tasks id env.get = .error err := hget
  cases svc with
  | atomicTaskService =>
    show (c.execute g s id env).2.tasks = s.tasks
    unfold Call.execute
    rw [hget]
  | taskService =>
    cases c with
    | delete =>
      -- no statement of the method reaches a row that is deleted
      show (TaskService.delete g s id env).2.tasks = s.tasks
      unfold TaskService.delete
      dsimp only
      cases hdb : repoDelete g s.tasks id env.db with
      | error err => rfl
      | ok tasks => exact ((repoDelete_ok hg).mp hdb).2.trans (TaskTable.modifyLive_none hlive _)
    | update req =>
      show (TaskService.update g s id req env).2.tasks = s.tasks
      unfold TaskService.update
      rw [hget]
    | enable =>
      show (TaskService.enable g s id env).2.tasks = s.tasks
      unfold TaskService.enable
      rw [hget]
    | disable =>
      show (TaskService.disable g s id env).2.tasks = s.tasks
      unfold TaskService.disable
      rw [hget]
    | pause =>
      show (TaskService.pause g s id env).2.tasks = s.tasks
      unfold TaskService.pause
      rw [hget]
    | resume =>
      show (TaskService.resume g s id env).2.tasks = s.tasks
      unfold TaskService.resume
      rw [hget]

/-- **What a step writes says it still**, and so does what its rollback writes.
The calls differ in the flags they write, and in those their rollback writes
back. A call that writes against the mark would be the one that lifts it; a
rollback writes what the row said before, and that had the mark. -/
theorem halted_of_steps (hg : g.Documented) (hkeyed : s.tasks.Keyed)
    (hlive : s.tasks.live id = some row) (h : s.tasks.Halted id k) (hc : ¬ k.Lifts c)
    {steps : AtomicSteps} (hsteps : c.steps g id row = some steps) {task : TaskModel}
    {tasks : TaskTable} (hdb : steps.dbOp s.tasks env.db = .ok (task, tasks)) :
    tasks.Halted id k
      ∧ ∀ tasks', steps.rollbackDB tasks env.rollback = .ok tasks' → tasks'.Halted id k := by
  obtain ⟨hmarked, hk⟩ := h.of_live hlive
  obtain ⟨hrow, hdel⟩ := TaskTable.live_eq_some.mp hlive
  have hid : row.id = id := hkeyed id row hrow
  -- a step that writes the status, and takes it back
  have hstatus : ∀ e p e' p', (k = .disable → e = false ∧ e' = false) →
      (k = .pause → p = true ∧ p' = true) →
      (repoUpdateStatus g s.tasks id e p env.db).map (fun tasks => (row, tasks)) = .ok (task, tasks) →
      tasks.Halted id k ∧ ∀ tasks', repoUpdateStatus g tasks id e' p' env.rollback = .ok tasks' →
        tasks'.Halted id k := by
    intro e p e' p' he hp hdb
    obtain ⟨tasks₁, hok, heq⟩ := Server.exceptMap_ok hdb
    obtain ⟨-, rfl⟩ := Prod.mk.inj heq
    have hdone := h.updateStatus hg (fun hk => (he hk).1) (fun hk => (hp hk).1) hok
    exact ⟨hdone, fun tasks' hok' =>
      hdone.updateStatus hg (fun hk => (he hk).2) (fun hk => (hp hk).2) hok'⟩
  cases c with
  | update req =>
    obtain rfl := Option.some.inj hsteps
    obtain ⟨-, rfl⟩ := Server.update_ok hg (ne_of_eq_of_ne hlive (Option.some_ne_none row))
      (show (req.apply row).id = id from hid) hdb
    have hlive' := TaskTable.live_update
      (show ((req.apply row).touched env.db.stamp).deletedAt = none from hdel) s.tasks id
    refine ⟨halted_update (hmarked.congr rfl rfl rfl), fun tasks' hok => ?_⟩
    obtain ⟨⟨row', tasks₁⟩, hupdate, rfl⟩ := Server.exceptMap_ok hok
    obtain ⟨-, htasks⟩ :=
      Server.update_ok hg (ne_of_eq_of_ne hlive' (Option.some_ne_none _)) hid hupdate
    rw [htasks]
    exact halted_update (hmarked.congr rfl rfl rfl)
  | delete =>
    obtain rfl := Option.some.inj hsteps
    obtain ⟨tasks₁, hok, heq⟩ := Server.exceptMap_ok hdb
    obtain ⟨-, rfl⟩ := Prod.mk.inj heq
    exact ⟨h.delete hg hok, fun tasks' hok' => (h.delete hg hok).undelete hg hk hid hok'⟩
  | enable =>
    unfold Call.steps at hsteps
    dsimp only at hsteps
    split_ifs at hsteps with he
    obtain rfl := Option.some.inj hsteps
    -- `Enable` writes the flag of a disabled row, and is what lifts that mark
    refine hstatus true row.paused false row.paused (fun hk => ?_) (fun hk => ?_) hdb
    · subst hk
      exact absurd trivial hc
    · subst hk
      exact ⟨hmarked, hmarked⟩
  | disable =>
    unfold Call.steps at hsteps
    dsimp only at hsteps
    split_ifs at hsteps with he
    obtain rfl := Option.some.inj hsteps
    refine hstatus false row.paused true row.paused (fun hk => ?_) (fun hk => ?_) hdb
    · subst hk
      exact absurd hmarked he
    · subst hk
      exact ⟨hmarked, hmarked⟩
  | pause =>
    unfold Call.steps at hsteps
    dsimp only at hsteps
    split_ifs at hsteps with hp
    obtain rfl := Option.some.inj hsteps
    refine hstatus row.enabled true row.enabled false (fun hk => ?_) (fun hk => ?_) hdb
    · subst hk
      exact ⟨hmarked, hmarked⟩
    · subst hk
      exact absurd hmarked hp
  | resume =>
    unfold Call.steps at hsteps
    dsimp only at hsteps
    split_ifs at hsteps with hp
    obtain rfl := Option.some.inj hsteps
    -- `Resume` likewise, for a paused row
    refine hstatus row.enabled false row.enabled true (fun hk => ?_) (fun hk => ?_) hdb
    · subst hk
      exact ⟨hmarked, hmarked⟩
    · subst hk
      exact absurd trivial hc

/-- **A stopped task stays stopped**, whatever is called for it but the call
that starts it again. It is enough to look at what is written, by either
service, and at calls that find no live row and write nothing. -/
theorem TaskTable.Halted.call (hg : g.Documented) (hkeyed : s.tasks.Keyed) (h : s.tasks.Halted id k)
    (svc : Service) (hc : ¬ k.Lifts c) :
    (svc.call g s (.call id c) env).2.tasks.Halted id k := by
  cases hlive : s.tasks.live id with
  | none => rwa [tasks_of_not_live hg hlive]
  | some row =>
    -- the call is replaced by what it writes, and the cases are those of `Wrote`
    have hwrote : Wrote g s id row c env _ _ := wrote_of_call hg hlive svc c
    generalize (svc.call g s (.call id c) env).1 = err at hwrote
    generalize (svc.call g s (.call id c) env).2.tasks = tasks at hwrote ⊢
    cases hwrote with
    | refused err => exact h
    | idle done => exact h
    | written err toDo db => exact (halted_of_steps hg hkeyed hlive h hc toDo db).1
    | @undone steps task tasks err toDo db =>
      obtain ⟨hdone, hback⟩ := halted_of_steps hg hkeyed hlive h hc toDo db
      cases hrb : steps.rollbackDB tasks env.rollback with
      | error err => exact hdone
      | ok tasks' => exact hback tasks' hrb

/-- Only `Delete` of the plain service does not read the row first. So a call
that has returned nil has found a live row, or was this one. -/
theorem call_fails_of_not_live (hg : g.Documented) (hlive : s.tasks.live id = none) (svc : Service)
    (hk : k ≠ .delete) : (svc.call g s (.call id k.call) env).1 ≠ none := by
  obtain ⟨err, hget⟩ := hg.first_none s.tasks id env.get hlive
  have hget : repoGetByID g s.tasks id env.get = .error err := hget
  cases svc with
  | atomicTaskService =>
    show errOf (k.call.execute g s id env).1 ≠ none
    unfold Call.execute
    rw [hget]
    exact Option.some_ne_none err
  | taskService =>
    cases k with
    | delete => exact absurd rfl hk
    | disable =>
      show (TaskService.disable g s id env).1 ≠ none
      unfold TaskService.disable
      rw [hget]
      exact Option.some_ne_none err
    | pause =>
      show (TaskService.pause g s id env).1 ≠ none
      unfold TaskService.pause
      rw [hget]
      exact Option.some_ne_none err

/-- What the call writes, when there is something to do. Each of the three
writes its mark. -/
theorem halted_of_written (hg : g.Documented) (hlive : s.tasks.live id = some row)
    {steps : AtomicSteps} (hsteps : k.call.steps g id row = some steps) {task : TaskModel}
    {tasks : TaskTable} (hdb : steps.dbOp s.tasks env.db = .ok (task, tasks)) :
    tasks.Halted id k := by
  cases k with
  | delete =>
    obtain rfl := Option.some.inj hsteps
    obtain ⟨tasks₁, hok, heq⟩ := Server.exceptMap_ok hdb
    obtain ⟨-, rfl⟩ := Prod.mk.inj heq
    rw [((repoDelete_ok hg).mp hok).2, TaskTable.modifyLive_live hlive]
    exact halted_update (Option.some_ne_none _)
  | disable =>
    have hsteps : Call.disable.steps g id row = some steps := hsteps
    unfold Call.steps at hsteps
    dsimp only at hsteps
    split_ifs at hsteps
    obtain rfl := Option.some.inj hsteps
    obtain ⟨-, rfl, -⟩ := Server.updateStatus_ok hg hlive hdb
    exact halted_update rfl
  | pause =>
    have hsteps : Call.pause.steps g id row = some steps := hsteps
    unfold Call.steps at hsteps
    dsimp only at hsteps
    split_ifs at hsteps
    obtain rfl := Option.some.inj hsteps
    obtain ⟨-, rfl, -⟩ := Server.updateStatus_ok hg hlive hdb
    exact halted_update rfl

/-- There is nothing to do when the row says so. Then the call returns nil at
once, and the mark is there already. -/
theorem marked_of_idle (h : k.call.steps g id row = none) : k.Marked row := by
  cases k with
  | delete => exact nomatch h
  | disable =>
    by_contra hmarked
    have hmarked : ¬ row.enabled = false := hmarked
    exact Option.some_ne_none _ ((if_neg hmarked).symm.trans h)
  | pause =>
    by_contra hmarked
    have hmarked : ¬ row.paused = true := hmarked
    exact Option.some_ne_none _ ((if_neg hmarked).symm.trans h)

/-- **A call that stops a task**, and has returned without an error. The row may
have been there as a deleted one, for `Delete` of the plain service, and then it
was marked before. -/
theorem halted_of_call (hg : g.Documented) (hrow : s.tasks id ≠ none) (svc : Service)
    (hok : (svc.call g s (.call id k.call) env).1 = none) :
    (svc.call g s (.call id k.call) env).2.tasks.Halted id k := by
  obtain ⟨row, hrow⟩ := Option.ne_none_iff_exists'.mp hrow
  cases hlive : s.tasks.live id with
  | none =>
    -- only `Delete` answers nil here
    by_cases hk : k = .delete
    · subst hk
      rw [tasks_of_not_live hg hlive]
      exact ⟨row, hrow, fun hdel =>
        absurd ((live_eq_some.mpr ⟨hrow, hdel⟩).symm.trans hlive) (Option.some_ne_none row)⟩
    · exact absurd hok (call_fails_of_not_live hg hlive svc hk)
  | some row' =>
    obtain rfl := Option.some.inj ((live_eq_some.mp hlive).1.symm.trans hrow)
    have hwrote : Wrote g s id row' k.call env _ _ := wrote_of_call hg hlive svc k.call
    rw [hok] at hwrote
    generalize (svc.call g s (.call id k.call) env).2.tasks = tasks at hwrote ⊢
    cases hwrote with
    | idle done => exact ⟨row', hrow, marked_of_idle done⟩
    | written _ toDo db => exact halted_of_written hg hlive toDo db

end Calls

end Timewheel
