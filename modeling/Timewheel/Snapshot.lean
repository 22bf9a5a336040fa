import Timewheel.Entry
import Timewheel.Steps
import Timewheel.Sync

/-!
# What a call does with what it has read

A call of `atomicTaskService` on an existing task reads the row, and then, under
the lock of the task, does the rest with what it has read, though the row may
meanwhile have changed. `becomes_body` says what the rest comes to when nothing
fails from outside: it does to the row and the registration what `Call.act`
does to an entry, whatever has become of them. So `Call.act` is not a second
account of the calls but what the first one does, seen from one ID.

The reason to keep the two apart is the lock. It is taken after the row has
been read, so between the two steps of a call another one may write the row,
bring it back, or delete it; the second step writes its own view over that.
Each of the six calls is therefore looked at with a row as it was read
(`snap`) and a row as it is now (`row`), of which only the ID is the same.
-/

namespace Timewheel

open TimeWheel (AddEnv)
open MultiLevelTimeWheel
open AtomicTaskService

/-! ## The entry of an ID -/

/-- A row without its flags and the time stamps: what a user has asked for, and
what the task of the row is made of. -/
def TaskModel.definition (row : TaskModel) : TaskModel :=
  { row.timeless with enabled := false, paused := false, deletedAt := none }

/-- A row and what the wheels hold under its ID. This is all that matters for
the ID: the two flags, whether the row is deleted, the definition, and the
registrations. -/
def entryOf (row : TaskModel) (held : Held) : Entry :=
  ⟨row.enabled, row.paused, row.deletedAt.isSome, row.definition, held⟩

/-- The entry of an ID that has a row. -/
def ServiceState.entry (s : ServiceState) (id : String) : Option Entry :=
  (s.tasks id).map (fun row => entryOf row (s.timeWheel.held id))

/-- The checks and the wheel of its priority let the task pass. A wheel that has
been stopped takes nothing. -/
def MultiLevelTimeWheel.takes (m : MultiLevelTimeWheel) (task : Task) : Bool :=
  accepts task && (m.wheel (levelOf task.priority)).running

/-- Whether the pools hand out a paused node to the call. An update takes the
node of the old task out first, so the pools it draws from are those after the
removal. -/
def AtomicTaskService.Call.pool (m : MultiLevelTimeWheel) (id : String) (env : ServiceEnv)
    (c : Call) (l : Level) : Bool :=
  match c with
  | .update _ => ((m.removeTask id).2.wheel l).handsOutPaused env.add.node
  | _ => (m.wheel l).handsOutPaused env.add.node

variable {g : Gorm} {s s' : ServiceState} {id : String} {env : ServiceEnv} {row snap : TaskModel}
  {m m' : MultiLevelTimeWheel} {c : Call} {x y : Entry}

/-- The multi-level wheel admits a task exactly if the entry of its ID has room
for it and its own wheel takes it. -/
theorem admits_iff_fits {task : Task} :
    m.Admits task ↔ (m.held task.id).Fits m.takes task := by
  unfold Admits Held.Fits takes
  rw [Bool.and_eq_true, and_assoc]

/-- What a wheel takes does not depend on what it holds, only on whether it
runs. -/
theorem takes_congr (h : StaysUp m m') : m'.takes = m.takes := by
  funext task
  unfold takes
  rw [(h _).running]

/-- The definition has the task of the row. So a definition can stand for a row
where the wheel is concerned. -/
theorem toTask_definition (row : TaskModel) : row.definition.toTask = row.toTask := rfl

/-- A live row has a live entry, -/
theorem deleted_entryOf (hdel : row.deletedAt = none) (h : Held) :
    (entryOf row h).deleted = false := by
  unfold entryOf
  rw [hdel]
  rfl

/-- and a row is all it takes to have one. -/
theorem entry_eq_some (h : s.tasks id = some row) :
    s.entry id = some (entryOf row (s.timeWheel.held id)) := by
  unfold ServiceState.entry
  rw [h]
  rfl

/-! ## What the second step of a call does -/

/-- **A call for `id`** leaves the entry `x` under it, and the tables and the
wheels in order. -/
structure Becomes (s : ServiceState) (id : String) (x : Entry) (s' : ServiceState) : Prop where
  entry : s'.entry id = some x
  tasks : s'.tasks.Keyed
  wheel : Touches s.timeWheel id s'.timeWheel

/-- What differs in the log only has become the same, -/
theorem Becomes.of_same {s'' : ServiceState} (h : Becomes s id x s') (hsame : SameTables s' s'') :
    Becomes s id x s'' := by
  refine ⟨?_, hsame.tasks ▸ h.tasks, hsame.timeWheel ▸ h.wheel⟩
  have hentry := h.entry
  unfold ServiceState.entry at hentry ⊢
  rw [hsame.tasks, hsame.timeWheel]
  exact hentry

/-- and a call that does nothing leaves the entry as it is. -/
theorem Becomes.refl (hm : s.timeWheel.Keyed) (ht : s.tasks.Keyed) (h : s.entry id = some x) :
    Becomes s id x s := ⟨h, ht, .refl hm id⟩

/-- A row is written, and the wheels do something for its ID. Everything a call
does has this form. -/
theorem becomes_write (ht : s.tasks.Keyed) {row' : TaskModel} (hid : row'.id = id)
    (hw : Touches s.timeWheel id m') (log : List OperationLogModel)
    (hx : entryOf row' (m'.held id) = x) :
    Becomes s id x ⟨Function.update s.tasks id (some row'), m', log⟩ := by
  refine ⟨?_, ht.update hid, hw⟩
  rw [entry_eq_some (Function.update_self _ _ _)]
  exact congrArg some hx

/-- The three steps of a call. The wheel step succeeds, or it fails and is
undone. The two cases leave different tables, and each call below says what the
entry is in either. -/
theorem becomes_attempt {steps : AtomicSteps} {task : TaskModel} {tasks₁ tasks₂ : TaskTable}
    (hdb : steps.dbOp s.tasks env.db = .ok (task, tasks₁))
    (hrb : steps.rollbackDB tasks₁ env.rollback = .ok tasks₂)
    {r : Option Err × MultiLevelTimeWheel} (htw : steps.twOp task s.timeWheel env = r)
    (hdone : r.1 = none → Becomes s id x ⟨tasks₁, r.2, s.opLog⟩)
    (hundone : r.1 ≠ none → Becomes s id x ⟨tasks₂, r.2, s.opLog⟩) :
    Becomes s id x (steps.attempt true s env) := by
  unfold AtomicSteps.attempt
  rw [hdb]
  dsimp only
  rw [htw]
  obtain ⟨err, timeWheel⟩ := r
  cases err with
  | none => exact hdone rfl
  | some err =>
    dsimp only
    rw [hrb]
    exact hundone (Option.some_ne_none err)

/-- A soft-deleted row is not rewritten. The soft deletion hides it from every
statement but `Save`. -/
theorem TaskTable.modifyLive_deleted {tasks : TaskTable} (hrow : tasks id = some row)
    (hdel : row.deletedAt ≠ none) (f : TaskModel → TaskModel) :
    tasks.modifyLive id f = Function.update tasks id (some row) := by
  have hnot : ¬ row.deletedAt.isNone = true := fun h => hdel (Option.isNone_iff_eq_none.mp h)
  unfold TaskTable.modifyLive TaskTable.modify
  rw [hrow, Option.map_some, if_neg hnot]

/-- `UpdateStatus` writes what `Entry.status` says. On a soft-deleted row it
writes nothing, which `Entry.status` says too. -/
theorem status_update (hg : g.Documented) {e : DbEnv} (hf : e.fault = false) {tasks : TaskTable}
    (hrow : tasks id = some row) (enabled paused : Bool) :
    ∃ row', repoUpdateStatus g tasks id enabled paused e
        = .ok (Function.update tasks id (some row'))
      ∧ row'.id = row.id ∧ ∀ h, entryOf row' h = (entryOf row h).status enabled paused := by
  by_cases hdel : row.deletedAt = none
  · refine ⟨row.written enabled paused e, ?_, rfl, fun h => ?_⟩
    · exact repoUpdateStatus_live hg hf (TaskTable.live_eq_some.mpr ⟨hrow, hdel⟩) enabled paused
    · have hlive : (row.written enabled paused e).deletedAt = none := hdel
      unfold Entry.status entryOf
      dsimp only
      rw [hlive, hdel]
      rfl
  · refine ⟨row, (repoUpdateStatus_ok hg).mpr ⟨hf, ?_⟩, rfl, fun h => ?_⟩
    · rw [TaskTable.modifyLive_deleted hrow hdel]
    · unfold Entry.status
      exact (if_pos (Option.isSome_iff_ne_none.mpr hdel)).symm

/-- A soft deletion. -/
theorem delete_update (hg : g.Documented) {e : DbEnv} (hf : e.fault = false) {tasks : TaskTable}
    (hrow : tasks id = some row) :
    ∃ row', repoDelete g tasks id e = .ok (Function.update tasks id (some row'))
      ∧ row'.id = row.id ∧ ∀ h, entryOf row' h = { entryOf row h with deleted := true } := by
  by_cases hdel : row.deletedAt = none
  · refine ⟨{ row with deletedAt := some e.stamp }, (repoDelete_ok hg).mpr ⟨hf, ?_⟩, rfl,
      fun h => rfl⟩
    rw [TaskTable.modifyLive_live (TaskTable.live_eq_some.mpr ⟨hrow, hdel⟩)]
  · refine ⟨row, (repoDelete_ok hg).mpr ⟨hf, ?_⟩, rfl, fun h => ?_⟩
    · rw [TaskTable.modifyLive_deleted hrow hdel]
    · unfold entryOf
      rw [Option.isSome_iff_ne_none.mpr hdel]

/-- What `Save` makes of a row: in the place of a soft-deleted one it fills in
the defaults. The defaults replace explicit zeros, as they do on an insertion. -/
def TaskModel.savedOver (new old : TaskModel) : TaskModel :=
  if old.deletedAt.isSome then new.withDefaults else new

/-- `Save` writes the row as it is given, soft-deleted before or not. So it
brings a deleted row back, with the view the call has of it; this is what makes
an update that overlaps a deletion special. -/
theorem save_update (hg : g.Documented) {e : DbEnv} (hf : e.fault = false) {tasks : TaskTable}
    (hrow : tasks id = some row) {new : TaskModel} (hid : new.id = id) (hne : id ≠ "")
    (hdel : new.deletedAt = none) :
    ∃ var row', repoUpdate g tasks new e = .ok (var, Function.update tasks id (some row'))
      ∧ var.enabled = new.enabled ∧ var.paused = new.paused
      ∧ var.toTask = (new.savedOver row).toTask ∧ row'.id = id ∧ row'.deletedAt = none
      ∧ ∀ h, entryOf row' h
        = ⟨new.enabled, new.paused, false, (new.savedOver row).definition, h⟩ := by
  subst hid
  unfold TaskModel.savedOver
  by_cases hold : row.deletedAt = none
  · have hlive : tasks.live new.id = some row := TaskTable.live_eq_some.mpr ⟨hrow, hold⟩
    refine ⟨new.touched e.stamp, new.touched e.stamp,
      (repoUpdate_ok hg (ne_of_eq_of_ne hlive (Option.some_ne_none _))).mpr ⟨hf, hne, rfl, rfl⟩,
      rfl, rfl, ?_, rfl, hdel, fun h => ?_⟩
    · rw [hold]
      rfl
    · have hdel' : (new.touched e.stamp).deletedAt = none := hdel
      unfold entryOf
      rw [hold, hdel']
      rfl
  · have hsome := Option.isSome_iff_ne_none.mpr hold
    refine ⟨_, _, hg.save_deleted tasks new row e hf hne hrow hold, rfl, rfl, ?_, rfl, hdel,
      fun h => ?_⟩
    · rw [if_pos hsome]
    · have hdel' : new.withDefaults.deletedAt = none := hdel
      unfold entryOf
      dsimp only
      rw [if_pos hsome, hdel']
      rfl

/-- The four calls that change the status. They write the two flags, do
something to the wheel, and write the flags back if that fails; the definition
stays. What is left to show for each is what the wheel step does to the
registration. -/
theorem becomes_status (hg : g.Documented) (hc : env.Calm) (ht : s.tasks.Keyed)
    (hrow : s.tasks id = some row) {steps : AtomicSteps} {enabled paused enabled' paused' : Bool}
    (hdb : ∀ tasks e, steps.dbOp tasks e
      = (repoUpdateStatus g tasks id enabled paused e).map (fun tasks => (snap, tasks)))
    (hrb : ∀ tasks e, steps.rollbackDB tasks e
      = repoUpdateStatus g tasks id enabled' paused' e)
    {r : Option Err × MultiLevelTimeWheel} (htw : steps.twOp snap s.timeWheel env = r)
    (hw : Touches s.timeWheel id r.2) (hx : x = entryOf row (s.timeWheel.held id))
    (hdone : r.1 = none → (x.status enabled paused).hold (r.2.held id) = y)
    (hundone : r.1 ≠ none →
      ((x.status enabled paused).status enabled' paused').hold (r.2.held id) = y) :
    Becomes s id y (steps.attempt true s env) := by
  have hid : row.id = id := ht id row hrow
  obtain ⟨row₁, hok₁, hid₁, hentry₁⟩ := status_update hg hc.db hrow enabled paused
  obtain ⟨row₂, hok₂, hid₂, hentry₂⟩ := status_update hg hc.rollback
    (Function.update_self id (some row₁) s.tasks) enabled' paused'
  rw [Function.update_idem] at hok₂
  have hhold : ∀ (row' : TaskModel) (h h' : Held), entryOf row' h' = (entryOf row' h).hold h' :=
    fun _ _ _ => rfl
  have hdb' : steps.dbOp s.tasks env.db = .ok (snap, Function.update s.tasks id (some row₁)) := by
    rw [hdb, hok₁]
    rfl
  have hrb' : steps.rollbackDB (Function.update s.tasks id (some row₁)) env.rollback
      = .ok (Function.update s.tasks id (some row₂)) := by
    rw [hrb, hok₂]
  refine becomes_attempt hdb' hrb' htw (fun hnone => ?_) (fun hsome => ?_)
  · refine becomes_write ht (hid₁.trans hid) hw _ ?_
    rw [← hdone hnone, hx, ← hentry₁]
    exact hhold _ _ _
  · refine becomes_write ht (hid₂.trans (hid₁.trans hid)) hw _ ?_
    rw [← hundone hsome, hx, ← hentry₁, ← hentry₂]
    exact hhold _ _ _

/-- What a call does, once its steps are known. The log entry of the call is not
looked at. -/
theorem becomes_steps (hc : env.Calm) {steps : AtomicSteps}
    (hsteps : c.steps g id snap = some steps) (h : Becomes s id x (steps.attempt true s env)) :
    Becomes s id x (c.body g s id snap env).2 := by
  have hsame := (performs_executeAtomically hc s steps).same
  unfold Call.body
  rw [hsteps]
  exact h.of_same hsame

/-- A call that has nothing to do. It returns after it has read the row, and so
whatever has become of it. -/
theorem becomes_idle (hm : s.timeWheel.Keyed) (ht : s.tasks.Keyed) (hrow : s.tasks id = some row)
    (hsteps : c.steps g id snap = none) :
    Becomes s id (entryOf row (s.timeWheel.held id)) (c.body g s id snap env).2 := by
  unfold Call.body
  rw [hsteps]
  exact .refl hm ht (entry_eq_some hrow)

/-- An update without a key is an insertion, and the key is taken. The insertion
fails, and with it the call, before the wheel is reached. -/
theorem attempt_noKey (hg : g.Documented) (hrow : s.tasks id = some row) (hid : snap.id = id)
    (hne : id = "") (req : TaskUpdateRequest) (env : ServiceEnv) :
    (updateSteps g id req snap).attempt true s env = s := by
  have hid' : (req.apply snap).id = id := hid
  obtain ⟨err, herr⟩ := hg.create_taken s.tasks (req.apply snap) env.db
    (ne_of_eq_of_ne (by rw [hid', hrow]) (Option.some_ne_none row))
  have hdb : (updateSteps g id req snap).dbOp s.tasks env.db = .error err :=
    (hg.save_noKey s.tasks _ env.db (hid'.trans hne)).trans herr
  unfold AtomicSteps.attempt
  rw [hdb]

/-- `AddTask` of the task of a row. It fails if the entry has no room for the
task, and otherwise enters it as the checks leave it, paused if the pool hands
out a paused node. -/
theorem add_spec (hm : m.Keyed) (hid : row.id = id) (e : AddEnv) :
    Touches m id (m.addTask (some row.toTask) e).2
      ∧ ((m.addTask (some row.toTask) e).1 = none ↔ (m.held id).Fits m.takes row.toTask)
      ∧ ((m.held id).Fits m.takes row.toTask → (m.addTask (some row.toTask) e).2.held id
        = (m.held id).enter (fun l => (m.wheel l).handsOutPaused e.node) row.toTask)
      ∧ (¬ (m.held id).Fits m.takes row.toTask →
        (m.addTask (some row.toTask) e).2.held id = m.held id) := by
  obtain ⟨htouch, hheld, herr⟩ := addTask_spec hm row.toTask e
  have hid' : row.toTask.id = id := hid
  have hadm : m.Admits row.toTask ↔ (m.held id).Fits m.takes row.toTask := by
    rw [admits_iff_fits, hid']
  rw [hid'] at htouch hheld
  refine ⟨htouch, herr.trans hadm, fun hfits => ?_, fun hnot => ?_⟩
  · rw [hheld, if_pos (hadm.mpr hfits)]
    rfl
  · rw [hheld, if_neg (fun h => hnot (hadm.mp h))]

section Body

variable (hg : g.Documented) (hc : env.Calm) (hm : s.timeWheel.Keyed) (ht : s.tasks.Keyed)
  (hrow : s.tasks id = some row) (hid : snap.id = id)

include hg hc hm ht hrow

include hid in
/-- `Enable`: the flag of the row that was read is written, with its `paused`
flag, and the task of that row is added unless it is paused. -/
theorem becomes_enable (he : snap.enabled = false) :
    Becomes s id (Call.enable.act s.timeWheel.takes false snap.paused snap.definition
      (Call.enable.pool s.timeWheel id env) (entryOf row (s.timeWheel.held id)))
      (Call.enable.body g s id snap env).2 := by
  refine becomes_steps hc (if_neg (ne_true_of_eq_false he)) ?_
  obtain ⟨htouch, herr, hin, hout⟩ := add_spec hm hid env.add
  cases hp : snap.paused with
  | true =>
    refine becomes_status hg hc ht hrow (fun _ _ => rfl) (fun _ _ => rfl)
      (r := (none, s.timeWheel)) (if_pos hp) (.refl hm id) rfl (fun _ => ?_)
      (fun h => absurd rfl h)
    rw [hp]
    exact Entry.hold_of_held (Entry.held_status _ _ _)
  | false =>
    refine becomes_status hg hc ht hrow (fun _ _ => rfl) (fun _ _ => rfl)
      (r := s.timeWheel.addTask (some snap.toTask) env.add) (if_neg (ne_true_of_eq_false hp))
      htouch rfl (fun hnone => ?_) (fun hsome => ?_)
    · have hfits := herr.mp hnone
      rw [hp, hin hfits]
      exact (if_pos hfits).symm
    · have hnot := fun hfits => hsome (herr.mpr hfits)
      rw [hp, hout hnot, Entry.hold_of_held (by simp; rfl)]
      exact (if_neg hnot).symm

/-- `Disable`: the flags are written, and the node is taken out, if there is
one. -/
theorem becomes_disable (he : snap.enabled = true) :
    Becomes s id (Call.disable.act s.timeWheel.takes true snap.paused snap.definition
      (Call.disable.pool s.timeWheel id env) (entryOf row (s.timeWheel.held id)))
      (Call.disable.body g s id snap env).2 := by
  refine becomes_steps hc (if_neg (ne_false_of_eq_true he)) ?_
  obtain ⟨htouch, hheld, herr⟩ := removeTask_spec hm id
  refine becomes_status hg hc ht hrow (fun _ _ => rfl) (fun _ _ => rfl)
    (r := s.timeWheel.removeTask id) rfl htouch rfl (fun hnone => ?_) (fun hsome => ?_)
  · rw [hheld]
    exact (if_neg (herr.mp hnone)).symm
  · have hr := not_not.mp (fun h => hsome (herr.mpr h))
    rw [hheld, Held.remove_of_reached_none hr, Entry.hold_of_held (by simp; rfl)]
    exact (if_pos hr).symm

/-- `Pause`: the flags are written, and the node is flagged, if there is one. -/
theorem becomes_pause (hp : snap.paused = false) :
    Becomes s id (Call.pause.act s.timeWheel.takes snap.enabled false snap.definition
      (Call.pause.pool s.timeWheel id env) (entryOf row (s.timeWheel.held id)))
      (Call.pause.body g s id snap env).2 := by
  refine becomes_steps hc (if_neg (ne_true_of_eq_false hp)) ?_
  obtain ⟨htouch, hheld, herr⟩ := pauseTask_spec hm id
  refine becomes_status hg hc ht hrow (fun _ _ => rfl) (fun _ _ => rfl)
    (r := s.timeWheel.pauseTask id) rfl htouch rfl (fun hnone => ?_) (fun hsome => ?_)
  · rw [hheld]
    exact (if_neg (herr.mp hnone)).symm
  · have hr := not_not.mp (fun h => hsome (herr.mpr h))
    rw [hheld, Held.setPaused, Held.change_of_reached_none hr, Entry.hold_of_held (by simp; rfl)]
    exact (if_pos hr).symm

include hid in
/-- `Resume`: the flags are written, and the node is resumed if there is one;
otherwise the task that was read is added. A failure is undone in the row alone. -/
theorem becomes_resume (hp : snap.paused = true) :
    Becomes s id (Call.resume.act s.timeWheel.takes snap.enabled true snap.definition
      (Call.resume.pool s.timeWheel id env) (entryOf row (s.timeWheel.held id)))
      (Call.resume.body g s id snap env).2 := by
  refine becomes_steps hc (if_neg (ne_false_of_eq_true hp)) ?_
  cases he : snap.enabled with
  | false =>
    refine becomes_status hg hc ht hrow (fun _ _ => rfl) (fun _ _ => rfl)
      (r := (none, s.timeWheel)) (if_neg (ne_true_of_eq_false he)) (.refl hm id) rfl
      (fun _ => ?_) (fun h => absurd rfl h)
    rw [he]
    exact Entry.hold_of_held (Entry.held_status _ _ _)
  | true =>
    have htw : (resumeSteps g id snap).twOp snap s.timeWheel env = _ := if_pos he
    obtain ⟨htouch, hheld, -⟩ := resumeTask_spec hm id env.resumeAt
    have heffect := MultiLevelTimeWheel.resumeTask_effect hm id env.resumeAt
    generalize s.timeWheel.resumeTask id env.resumeAt = r at htw htouch hheld heffect
    cases heffect with
    | done reached held _ _ _ =>
      -- the node that is there is resumed, whatever definition it has
      have hr : (s.timeWheel.held id).reached ≠ none := by
        rw [hm.reached_held id, reached]
        exact Option.some_ne_none _
      refine becomes_status hg hc ht hrow (fun _ _ => rfl) (fun _ _ => rfl) htw htouch rfl
        (fun _ => ?_) (fun hsome => absurd rfl hsome)
      rw [he, hheld]
      exact (if_neg hr).symm
    | missing hnone =>
      have hr : (s.timeWheel.held id).reached = none := Held.reached_eq_none.mpr hnone
      obtain ⟨htouch, herr, hin, hout⟩ := add_spec hm hid env.add
      refine becomes_status hg hc ht hrow (fun _ _ => rfl) (fun _ _ => rfl)
        (r := s.timeWheel.addTask (some snap.toTask) env.add) htw htouch rfl
        (fun hnone => ?_) (fun hsome => ?_)
      · have hfits := herr.mp hnone
        rw [he, hin hfits]
        exact ((if_pos hr).trans (if_pos hfits)).symm
      -- rejected: the wheel is left, and so is the row after the rollback
      · have hnot := fun hfits => hsome (herr.mpr hfits)
        rw [he, hout hnot, Entry.hold_of_held (by simp; rfl)]
        exact ((if_pos hr).trans (if_neg hnot)).symm

include hid in
/-- `Delete`: the row is soft-deleted, and the node is taken out. -/
theorem becomes_delete :
    Becomes s id (Call.delete.act s.timeWheel.takes snap.enabled snap.paused snap.definition
      (Call.delete.pool s.timeWheel id env) (entryOf row (s.timeWheel.held id)))
      (Call.delete.body g s id snap env).2 := by
  refine becomes_steps hc rfl ?_
  obtain ⟨htouch, hheld, herr⟩ := removeTask_spec hm id
  have hkey : row.id = id := ht id row hrow
  obtain ⟨row₁, hok, hid₁, hentry₁⟩ := delete_update hg hc.db hrow
  let row₂ : TaskModel := { row₁ with deletedAt := none, updatedAt := env.rollback.stamp }
  have hdb : (deleteSteps g id snap).dbOp s.tasks env.db
      = .ok (snap, Function.update s.tasks id (some row₁)) := by
    show (repoDelete g s.tasks id env.db).map _ = _
    rw [hok]
    rfl
  have hrb : (deleteSteps g id snap).rollbackDB (Function.update s.tasks id (some row₁))
      env.rollback = .ok (Function.update s.tasks id (some row₂)) := by
    refine (repoUndelete_ok hg).mpr ⟨hc.rollback, ?_⟩
    unfold TaskTable.modify
    rw [hid, Function.update_self, Function.update_idem]
    rfl
  have hid₂ : row₂.id = id := hid₁.trans hkey
  have hentry₂ : ∀ h, entryOf row₂ h = { entryOf row₁ h with deleted := false } := fun _ => rfl
  refine becomes_attempt hdb hrb (r := s.timeWheel.removeTask id) rfl (fun hnone => ?_)
    (fun hsome => ?_)
  · refine becomes_write ht (hid₁.trans hkey) htouch _ ?_
    rw [hentry₁, hheld]
    exact (if_neg (herr.mp hnone)).symm
  · have hr := not_not.mp (fun h => hsome (herr.mpr h))
    refine becomes_write ht hid₂ htouch _ ?_
    rw [hentry₂, hentry₁, hheld, Held.remove_of_reached_none hr]
    exact (if_pos hr).symm

include hid in
/-- `Save` may bring back a row that has been deleted. The definition that is
saved is that of the request applied to the row that was read, so a change that
came in between is lost. If the row asks for a node, the old one is taken out
and the new task is added; when it is rejected, the old definition is written
back, but the old node is not put back. -/
theorem becomes_update (req : TaskUpdateRequest) (hdel : snap.deletedAt = none) :
    Becomes s id ((Call.update req).act s.timeWheel.takes snap.enabled snap.paused snap.definition
      ((Call.update req).pool s.timeWheel id env) (entryOf row (s.timeWheel.held id)))
      ((Call.update req).body g s id snap env).2 := by
  refine becomes_steps hc rfl ?_
  by_cases hne : id = ""
  · -- without a key `Save` inserts, and the insertion fails
    rw [attempt_noKey hg hrow hid hne]
    refine .refl hm ht ?_
    rw [entry_eq_some hrow]
    exact congrArg some (if_pos (hid.trans hne)).symm
  have hidNew : (req.apply snap).id = id := hid
  obtain ⟨var, row₁, hok₁, hen, hp, htask, hid₁, hdel₁, hentry₁⟩ :=
    save_update hg hc.db hrow hidNew hne hdel
  obtain ⟨_, row₂, hok₂, -, -, -, hid₂, -, hentry₂⟩ :=
    save_update hg hc.rollback (Function.update_self id (some row₁) s.tasks) hid hne hdel
  rw [Function.update_idem] at hok₂
  have hover : snap.savedOver row₁ = snap := by
    unfold TaskModel.savedOver
    rw [hdel₁]
    rfl
  rw [hover] at hentry₂
  have hrb : (updateSteps g id req snap).rollbackDB (Function.update s.tasks id (some row₁))
      env.rollback = .ok (Function.update s.tasks id (some row₂)) := by
    show (repoUpdate g _ snap env.rollback).map Prod.snd = _
    rw [hok₂]
    rfl
  have hidOver : ((req.apply snap).savedOver row).id = id := by
    unfold TaskModel.savedOver
    split_ifs <;> exact hid
  have hdef : ((req.apply snap).savedOver row).definition
      = if row.deletedAt.isSome then (req.apply snap.definition).withDefaults
        else req.apply snap.definition := by
    unfold TaskModel.savedOver
    split_ifs <;> rfl
  generalize (req.apply snap).savedOver row = new at htask hentry₁ hidOver hdef
  -- what the entry comes to, with the cases the code goes through
  have hact : (Call.update req).act s.timeWheel.takes snap.enabled snap.paused snap.definition
      ((Call.update req).pool s.timeWheel id env) (entryOf row (s.timeWheel.held id))
      = if snap.enabled && !snap.paused then
          if (s.timeWheel.held id).remove.Fits s.timeWheel.takes new.toTask then
            ⟨snap.enabled, snap.paused, false, new.definition, (s.timeWheel.held id).remove.enter
              ((Call.update req).pool s.timeWheel id env) new.toTask⟩
          else ⟨snap.enabled, snap.paused, false, snap.definition, (s.timeWheel.held id).remove⟩
        else ⟨snap.enabled, snap.paused, false, new.definition, s.timeWheel.held id⟩ := by
    refine (if_neg (ne_of_eq_of_ne hid hne)).trans ?_
    rw [← toTask_definition new, hdef]
    rfl
  rw [hact]
  have htw : (updateSteps g id req snap).twOp var s.timeWheel env
      = if snap.enabled && !snap.paused then
          (s.timeWheel.removeTask id).2.addTask (some new.toTask) env.add
        else (none, s.timeWheel) := by
    rw [← htask, ← show var.enabled = snap.enabled from hen,
      ← show var.paused = snap.paused from hp]
    rfl
  cases hsched : snap.enabled && !snap.paused with
  | false =>
    rw [hsched] at htw
    refine becomes_attempt hok₁ hrb htw (fun _ => ?_) (fun hsome => absurd rfl hsome)
    exact becomes_write ht hid₁ (.refl hm id) _ (hentry₁ _)
  | true =>
    rw [hsched] at htw
    obtain ⟨htouch₁, hheld₁, -⟩ := removeTask_spec hm id
    obtain ⟨htouch₂, herr, hin, hout⟩ := add_spec htouch₁.keyed hidOver env.add
    rw [takes_congr htouch₁.up, hheld₁] at herr hin hout
    refine becomes_attempt hok₁ hrb htw (fun hnone => ?_) (fun hsome => ?_)
    · have hfits := herr.mp hnone
      refine becomes_write ht hid₁ (htouch₁.trans htouch₂) _ ?_
      rw [hentry₁, if_pos rfl, if_pos hfits, show _ = _ from hin hfits]
      rfl
    · have hnot := fun hfits => hsome (herr.mpr hfits)
      refine becomes_write ht hid₂ (htouch₁.trans htouch₂) _ ?_
      rw [hentry₂, if_pos rfl, if_neg hnot, show _ = _ from hout hnot]

omit hrow in
include hid in
/-- **The second step of a call**, on the row it has read. Nothing is assumed of
the row as it is now, beyond that there is one: it may have been written,
disabled, paused or deleted since it was read. -/
theorem becomes_body (c : Call) (hdel : snap.deletedAt = none) (hx : s.entry id = some x) :
    Becomes s id (c.act s.timeWheel.takes snap.enabled snap.paused snap.definition
      (c.pool s.timeWheel id env) x) (c.body g s id snap env).2 := by
  obtain ⟨row, hrow, rfl⟩ := Option.map_eq_some_iff.mp hx
  cases c with
  | update req => exact becomes_update hg hc hm ht hrow hid req hdel
  | enable =>
    cases he : snap.enabled with
    | true => exact becomes_idle hm ht hrow (if_pos he)
    | false => exact becomes_enable hg hc hm ht hrow hid he
  | disable =>
    cases he : snap.enabled with
    | true => exact becomes_disable hg hc hm ht hrow he
    | false => exact becomes_idle hm ht hrow (if_pos he)
  | pause =>
    cases hp : snap.paused with
    | true => exact becomes_idle hm ht hrow (if_pos hp)
    | false => exact becomes_pause hg hc hm ht hrow hp
  | resume =>
    cases hp : snap.paused with
    | true => exact becomes_resume hg hc hm ht hrow hid hp
    | false => exact becomes_idle hm ht hrow (if_pos hp)
  | delete => exact becomes_delete hg hc hm ht hrow hid

omit hrow in
/-- **A call as a whole**, on the row it finds. Both steps come at once, so the
row that was read is the row as it is. -/
theorem becomes_execute (c : Call) (hx : s.entry id = some x) :
    Becomes s id (c.whole s.timeWheel.takes (c.pool s.timeWheel id env) x)
      (c.execute g s id env).2 := by
  obtain ⟨row, hrow, rfl⟩ := Option.map_eq_some_iff.mp hx
  unfold Call.execute Call.whole
  by_cases hdel : row.deletedAt = none
  · have hget : repoGetByID g s.tasks id env.get = .ok row :=
      (repoGetByID_ok hg).mpr ⟨hc.get, TaskTable.live_eq_some.mpr ⟨hrow, hdel⟩⟩
    rw [hget, if_neg (ne_true_of_eq_false (deleted_entryOf hdel _))]
    exact becomes_body hg hc hm ht (ht id row hrow) c hdel hx
  · have hdeleted : (entryOf row (s.timeWheel.held id)).deleted = true :=
      Option.isSome_iff_ne_none.mpr hdel
    rw [if_pos hdeleted]
    cases hget : repoGetByID g s.tasks id env.get with
    | error err => exact .refl hm ht hx
    | ok row' =>
      obtain ⟨hrow', hdel'⟩ := TaskTable.live_eq_some.mp ((repoGetByID_ok hg).mp hget).2
      obtain rfl := Option.some.inj (hrow.symm.trans hrow')
      exact absurd hdel' hdel

end Body

/-! ### What it leaves alone -/

/-- A call that has nothing to do leaves the tables and the wheels as they are.
Two of the calls are idle on a row that already says so. -/
theorem sameTables_of_doesNothing (hg : g.Documented) (hc : env.Calm) (hrow : s.tasks id = some row)
    (hid : row.id = id) (hidle : c.DoesNothing (entryOf row (s.timeWheel.held id))) :
    SameTables s (c.body g s id row env).2 := by
  have hskip : c.steps g id row = none → SameTables s (c.body g s id row env).2 := by
    intro hnone
    unfold Call.body
    rw [hnone]
    exact ⟨rfl, rfl⟩
  cases c with
  | update req =>
    have hsame := (performs_executeAtomically hc s (updateSteps g id req row)).same
    rw [attempt_noKey hg hrow hid (hid.symm.trans hidle)] at hsame
    exact hsame
  | enable => exact hskip (if_pos hidle)
  | disable => exact hskip (if_pos hidle)
  | pause => exact hskip (if_pos hidle)
  | resume => exact hskip (if_pos hidle)
  | delete => exact hidle.elim

/-- An update of a row that asks for no node leaves the wheels as they are. Only
the row changes; the node of a paused task keeps its old task. -/
theorem timeWheel_of_unscheduled (hg : g.Documented) (hc : env.Calm) (hrow : s.tasks id = some row)
    (hid : row.id = id) (hdel : row.deletedAt = none) (req : TaskUpdateRequest)
    (hs : ¬ (row.enabled = true ∧ row.paused = false)) :
    ((Call.update req).body g s id row env).2.timeWheel = s.timeWheel := by
  have hsame := (performs_executeAtomically hc s (updateSteps g id req row)).same
  by_cases hne : id = ""
  · rw [attempt_noKey hg hrow hid hne] at hsame
    exact hsame.timeWheel
  have hidNew : (req.apply row).id = id := hid
  obtain ⟨var, row₁, hok, hen, hp, -⟩ := save_update hg hc.db hrow hidNew hne hdel
  have hdb : (updateSteps g id req row).dbOp s.tasks env.db
      = .ok (var, Function.update s.tasks id (some row₁)) := hok
  have htw : (updateSteps g id req row).twOp var s.timeWheel env = (none, s.timeWheel) := by
    refine if_neg ?_
    rw [show var.enabled = row.enabled from hen, show var.paused = row.paused from hp]
    simpa using hs
  have hattempt : ((updateSteps g id req row).attempt true s env).timeWheel = s.timeWheel := by
    unfold AtomicSteps.attempt
    rw [hdb]
    dsimp only
    rw [htw]
  exact hsame.timeWheel.trans hattempt

/-- The node `RemoveTask` releases can be handed out again as it was. With the
flag it was released with, so that a task added right after it may come out
paused. -/
theorem removeTask_handsBack (hm : m.Keyed) {l : Level} {r : Registration}
    (hl : (m.held id).reached = some l) (hr : m.held id l = some r) :
    ∃ node, ((m.removeTask id).2.wheel l).handsOutPaused node = r.paused := by
  have hh : m.holder id = some l := (hm.reached_held id).symm.trans hl
  obtain ⟨hid, -⟩ := registered_of_holder hh
  obtain ⟨n, hn, -, hp⟩ := lookup_of_registry hr
  obtain ⟨f, hf, hrel⟩ := removeTask_eq l.config (m.wheel l) id true
  refine ⟨some n, ?_⟩
  unfold removeTask
  rw [firstOf_withEntry (fun l => (removeTask_eq l.config (m.wheel l) id true).imp
    (fun _ hg => ⟨hg.1, fun n => (hg.2 n).1⟩)), hh]
  dsimp only
  rw [hf, withEntry_found hid hn, wheel_setWheel_self]
  show (decide (n ∈ (f n).2.taskPool) && ((f n).2.heap n).paused) = r.paused
  rw [(hrel n).2.taskPool, (hrel n).2.paused, hp]
  simp

end Timewheel
