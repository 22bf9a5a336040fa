import Timewheel.Standstill

/-!
# The deployed server

Everything at once: the two services over the table and the three wheels, the
executions of the wheels, repairs and restarts. A call of a service is one step,
with its reads and writes of the table and the call of the wheel it makes, and
so is a repair; between two of them the executions move on. In whatever order
these steps come, and whatever fails in the database, what the wheels hold has
been put there for a row: a timer is one of a live row that is enabled, it is
paused if the row is, and no other wheel has a timer under its ID
(`Scheduled`).

This module shows that every call keeps that invariant (`Governed`). The idea is
the same for all of them: a call names one ID, so it may write one row, and
leave the tables of the wheels as they are but for the timers under this ID
(`Moves`). What has to be seen of each call is only that what the wheels hold
under the ID in the end fits the row as it was written, also when a step has
failed and what came before it has been rolled back.

One thing is asked of the pools: that they hand out no node which an execution
of the same wheel still holds (`HandsOutIdle`). Without that an execution of
one task could end on the node of another one, and take that out.
-/

namespace Timewheel

open DList TimeWheel Scheduler Simulation
open MultiLevelTimeWheel

/-! ## What the tables have under an ID -/

namespace Timetables

variable {tts tts' : Timetables} {id : String} {l : Level} {x : Timer} {t' : Timetable}

/-- No table has a timer under the ID. This is how a row that is disabled or
deleted should be met. -/
def Free (tts : Timetables) (id : String) : Prop := ∀ l, (tts l).timers id = none

/-- One table at most has a timer under the ID. A call that takes an ID goes to
the first wheel that has it, so with two it would leave one of them alone. -/
def One (tts : Timetables) (id : String) : Prop :=
  ∀ l l' x y, (tts l).timers id = some x → (tts l').timers id = some y → l = l'

/-- The timers of the other IDs stay. Every call has one ID. -/
def Frame (tts : Timetables) (id : String) (tts' : Timetables) : Prop :=
  ∀ id', id' ≠ id → ∀ l, (tts' l).timers id' = (tts l).timers id'

/-- None is at most one. -/
theorem Free.one (h : tts.Free id) : tts.One id :=
  fun l _ x _ hx => absurd (hx.symm.trans (h l)) (Option.some_ne_none x)

/-- Tables that have not changed, -/
theorem frame_refl (tts : Timetables) (id : String) : tts.Frame id tts := fun _ _ _ => rfl

/-- and two changes for the same ID. -/
theorem Frame.trans {tts'' : Timetables} (h : tts.Frame id tts') (h' : tts'.Frame id tts'') :
    tts.Frame id tts'' := fun id' hid l => (h' id' hid l).trans (h id' hid l)

/-- One table changes, under one ID. The other tables have not changed at all. -/
theorem frame_update (h : ∀ id', id' ≠ id → t'.timers id' = (tts l).timers id') :
    tts.Frame id (Function.update tts l t') := by
  intro id' hid l'
  by_cases hl : l' = l
  · subst hl
    rw [Function.update_self]
    exact h id' hid
  · rw [Function.update_of_ne hl]

/-- The only table with a timer under the ID changes. Afterwards there is what
this table has then. -/
theorem timers_update_of_one (hone : tts.One id) (hx : (tts l).timers id = some x) (l' : Level) :
    (Function.update tts l t' l').timers id = if l' = l then t'.timers id else none := by
  by_cases hl : l' = l
  · subst hl
    rw [Function.update_self, if_pos rfl]
  · rw [Function.update_of_ne hl, if_neg hl]
    exact Option.eq_none_iff_forall_ne_some.mpr (fun y hy => hl (hone l' l y x hy hx))

/-- The tables stay valid. Each step of the three is a step of one of them, or
of none. -/
theorem Next.valid {lbl : LevelsRequest × Response} (h : tts.Next lbl tts')
    (ht : ∀ l, (tts l).Valid) (l : Level) : (tts' l).Valid := by
  obtain ⟨ks, htrace, -⟩ := h.view l
  exact htrace.inv (fun _ _ _ hv hnext => hnext.valid hv) (ht l)

end Timetables

/-! ## The calls -/

namespace Levels

open Timetables

variable {s : Levels} {tts : Timetables} {id : String} {m m' : MultiLevelTimeWheel}
  {P Q : Timetables → Prop} {task : Task} {env : AddEnv}

/-- The tables stand for the wheels, and are valid. Validity is what the
timetables guarantee by themselves. -/
structure Stands (s : Levels) (tts : Timetables) : Prop where
  represented : s.Represented tts
  valid : ∀ l, (tts l).Valid

/-- **What a call for an ID leaves**: the tables of the wheels it leaves have
what they had under the other IDs, and satisfy `P`. The properties are those of
the lemmas below: what is left is free, or one timer, or one that is paused. -/
def Leaves (s : Levels) (tts : Timetables) (id : String) (m : MultiLevelTimeWheel)
    (P : Timetables → Prop) : Prop :=
  ∃ tts', Stands { s with timeWheel := m } tts' ∧ tts.Frame id tts' ∧ P tts'

/-- A call that does nothing. -/
theorem Stands.leaves (h : s.Stands tts) (id : String) (hP : P tts) :
    s.Leaves tts id s.timeWheel P := ⟨tts, h, frame_refl tts id, hP⟩

/-- Less may be said, -/
theorem Leaves.imp (h : s.Leaves tts id m P) (hPQ : ∀ tts', P tts' → Q tts') :
    s.Leaves tts id m Q := by
  obtain ⟨tts', hs, hframe, hP⟩ := h
  exact ⟨tts', hs, hframe, hPQ tts' hP⟩

/-- One call after another. The second starts from what the first has left. -/
theorem Leaves.trans (h : s.Leaves tts id m P)
    (h' : ∀ tts', Stands { s with timeWheel := m } tts' → P tts' →
      Leaves { s with timeWheel := m } tts' id m' Q) : s.Leaves tts id m' Q := by
  obtain ⟨tts', hs, hframe, hP⟩ := h
  obtain ⟨tts'', hs', hframe', hQ⟩ := h' tts' hs hP
  exact ⟨tts'', hs', hframe.trans hframe', hQ⟩

/-- `RemoveTask` leaves nothing. There was one timer at most, and the call has
gone to the table that had it. -/
theorem Stands.removeTask (h : s.Stands tts) (hone : tts.One id) :
    s.Leaves tts id (s.timeWheel.removeTask id).2 (fun tts' => tts'.Free id) := by
  rcases h.represented.removeTask id with ⟨hfree, heq⟩ | ⟨l, x, hx, -, hs'⟩
  · rw [heq]
    exact h.leaves id hfree
  · refine ⟨_, ⟨hs', Next.valid (.removeTask hx) h.valid⟩,
      frame_update (fun id' hid => Timetable.timers_drop_of_ne _ _ hid), fun l' => ?_⟩
    rw [timers_update_of_one hone hx.held]
    split_ifs
    · exact Timetable.timers_drop_self _ _
    · rfl

/-- `PauseTask` leaves what there was, paused. If the call fails, there was
none. -/
theorem Stands.pauseTask (h : s.Stands tts) (hone : tts.One id) :
    s.Leaves tts id (s.timeWheel.pauseTask id).2 (fun tts' => tts'.One id
      ∧ (∀ l x, (tts' l).timers id = some x → x.paused = true ∧ (tts l).timers id ≠ none)
      ∧ ((s.timeWheel.pauseTask id).1 ≠ none → tts'.Free id)) := by
  rcases h.represented.pauseTask id with ⟨hfree, heq⟩ | ⟨l, x, hx, herr, hs'⟩
  · rw [heq]
    exact h.leaves id ⟨hone, fun l x hx => absurd (hx.symm.trans (hfree l)) (Option.some_ne_none x),
      fun _ => hfree⟩
  · have htimers : ∀ l' y, (Function.update tts l ((tts l).put id { x with paused := true })
        l').timers id = some y → l' = l ∧ y.paused = true := by
      intro l' y hy
      rw [timers_update_of_one hone hx.held] at hy
      split_ifs at hy with hl
      rw [Timetable.timers_put_self] at hy
      exact ⟨hl, Option.some.inj hy ▸ rfl⟩
    refine ⟨_, ⟨hs', Next.valid (.pauseTask hx) h.valid⟩,
      frame_update (fun id' hid => Timetable.timers_put_of_ne _ _ _ hid), ?_, fun l' y hy => ?_,
      fun hne => absurd herr hne⟩
    · exact fun l₁ l₂ y z hy hz => (htimers l₁ y hy).1.trans (htimers l₂ z hz).1.symm
    · obtain ⟨rfl, hpaused⟩ := htimers l' y hy
      exact ⟨hpaused, ne_of_eq_of_ne hx.held (Option.some_ne_none x)⟩

/-- `ResumeTask` leaves what there was. It may be paused or not; and if the call
fails, there was none. -/
theorem Stands.resumeTask (h : s.Stands tts) (hone : tts.One id) (now : Time) :
    s.Leaves tts id (s.timeWheel.resumeTask id now).2 (fun tts' => tts'.One id
      ∧ (∀ l x, (tts' l).timers id = some x → (tts l).timers id ≠ none)
      ∧ ((s.timeWheel.resumeTask id now).1 ≠ none → tts'.Free id)) := by
  rcases h.represented.resumeTask id now with ⟨hfree, heq⟩ | ⟨l, x, hx, herr, hs'⟩
  · rw [heq]
    exact h.leaves id ⟨hone, fun l x hx => absurd (hx.symm.trans (hfree l)) (Option.some_ne_none x),
      fun _ => hfree⟩
  · have htimers : ∀ l' y, (Function.update tts l ((tts l).put id (x.resume now)) l').timers id
        = some y → l' = l := by
      intro l' y hy
      rw [timers_update_of_one hone hx.held] at hy
      split_ifs at hy with hl
      exact hl
    refine ⟨_, ⟨hs', Next.valid (.resumeTask hx) h.valid⟩,
      frame_update (fun id' hid => Timetable.timers_put_of_ne _ _ _ hid), ?_, fun l' y hy => ?_,
      fun hne => absurd herr hne⟩
    · exact fun l₁ l₂ y z hy hz => (htimers l₁ y hy).trans (htimers l₂ z hz).symm
    · rw [htimers l' y hy]
      exact ne_of_eq_of_ne hx.held (Option.some_ne_none x)

/-- `AddTask` under an ID without timers leaves one timer, or none if it fails.
The node it is put on must not be held by an execution (`hidle`). -/
theorem Stands.addTask (h : s.Stands tts) (hfree : tts.Free task.id)
    (hidle : ∀ e ∈ (s.activity (levelOf task.priority)).execs, env.node ≠ some e.node) :
    s.Leaves tts task.id (s.timeWheel.addTask (some task) env).2 (fun tts' => tts'.One task.id
      ∧ ((s.timeWheel.addTask (some task) env).1 ≠ none → tts'.Free task.id)) := by
  have hcareful : s.StepsCarefully (.addTask (some task) env) := ⟨hidle, fun i e ha => nomatch ha⟩
  obtain ⟨tts', hnext, hs'⟩ := h.represented.addTask hcareful
  have hvalid := Next.valid hnext h.valid
  have hnext : tts.Next (.addTask (some task) env.now,
    .returned (s.timeWheel.addTask (some task) env).1) tts' := hnext
  generalize s.timeWheel.addTask (some task) env = r at hnext hs' ⊢
  obtain ⟨err, m'⟩ := r
  cases hnext with
  | addUnfit check => exact ⟨tts, ⟨hs', hvalid⟩, frame_refl tts task.id, hfree.one, fun _ => hfree⟩
  | missing call free => exact nomatch call
  | @addTask _ _ _ _ t' accepted add =>
    refine ⟨_, ⟨hs', hvalid⟩, frame_update (fun id' hid => add.timers_of_ne (fun heq => hid ?_)),
      ?_, fun hne => ?_⟩
    · exact (Option.some.inj heq).symm
    · have htimers : ∀ l y, (Function.update tts (levelOf task.priority) t' l).timers task.id
          = some y → l = levelOf task.priority := by
        intro l y hy
        by_contra hl
        rw [Function.update_of_ne hl, hfree l] at hy
        exact absurd hy (Option.some_ne_none y).symm
      exact fun l₁ l₂ y z hy hz => (htimers l₁ y hy).trans (htimers l₂ z hz).symm
    · -- a failed addition changes no table
      cases add with
      | unfit check => rwa [Function.update_eq_self]
      | taken check held => rwa [Function.update_eq_self]
      | added check free fresh clean => exact absurd rfl hne

/-! ### The calls of the services -/

variable {row : TaskModel}

/-- What an addition leaves: one timer at most, and none if it has failed. -/
def Added (id : String) (err : Option Err) (tts : Timetables) : Prop :=
  tts.One id ∧ (err ≠ none → tts.Free id)

/-- `addToTimeWheel` of a row, where nothing is held. -/
theorem Stands.addRow (h : s.Stands tts) (hid : row.id = id) (hfree : tts.Free id)
    (hidle : ∀ e ∈ (s.activity (levelOf row.priority)).execs, env.node ≠ some e.node) :
    s.Leaves tts id (addToTimeWheel s.timeWheel row env).2
      (Added id (addToTimeWheel s.timeWheel row env).1) := by
  subst hid
  exact h.addTask hfree hidle

/-- `Update` takes the old task out and adds the new one. So nothing is held
when the new one is added. -/
theorem Stands.replaceRow (h : s.Stands tts) (hid : row.id = id) (hone : tts.One id)
    (hidle : ∀ e ∈ (s.activity (levelOf row.priority)).execs, env.node ≠ some e.node) :
    s.Leaves tts id (addToTimeWheel (s.timeWheel.removeTask id).2 row env).2
      (Added id (addToTimeWheel (s.timeWheel.removeTask id).2 row env).1) :=
  (h.removeTask hone).trans (fun _ hs hfree => hs.addRow hid hfree hidle)

/-- `Resume` adds the task when the wheel does not have it. The error of
`ResumeTask` is not looked at. -/
def resumeOrAdd (m : MultiLevelTimeWheel) (id : String) (now : Time) (row : TaskModel)
    (env : AddEnv) : Option Err × MultiLevelTimeWheel :=
  match m.resumeTask id now with
  | (none, m') => (none, m')
  | (some _, m') => addToTimeWheel m' row env

/-- If it fails, nothing was held, so the task may be added. -/
theorem Stands.resumeRow (h : s.Stands tts) (hid : row.id = id) (hone : tts.One id)
    (hidle : ∀ e ∈ (s.activity (levelOf row.priority)).execs, env.node ≠ some e.node) (now : Time) :
    s.Leaves tts id (resumeOrAdd s.timeWheel id now row env).2
      (Added id (resumeOrAdd s.timeWheel id now row env).1) := by
  have hresume := h.resumeTask hone now
  unfold resumeOrAdd
  generalize s.timeWheel.resumeTask id now = r at hresume ⊢
  obtain ⟨err, m'⟩ := r
  cases err with
  | none => exact hresume.imp (fun tts' hP => ⟨hP.1, fun hne => absurd rfl hne⟩)
  | some err =>
    exact hresume.trans (fun _ hs hP => hs.addRow hid (hP.2.2 (Option.some_ne_none err)) hidle)

end Levels

/-! ## The table -/

namespace TaskTable

variable {t t' t'' : TaskTable} {id : String} {row : TaskModel} {g : Gorm} {env : DbEnv}

/-- **At most the row of the key is written**, and it keeps its key. Primary
keys are not changed by anything. -/
structure Writes (t : TaskTable) (id : String) (t' : TaskTable) : Prop where
  keyed : t'.Keyed
  frame : ∀ id', id' ≠ id → t' id' = t id'

/-- Nothing is written, -/
theorem writes_refl (ht : t.Keyed) (id : String) : t.Writes id t := ⟨ht, fun _ _ => rfl⟩

/-- or twice, under the same key. -/
theorem Writes.trans (h : t.Writes id t') (h' : t'.Writes id t'') : t.Writes id t'' :=
  ⟨h'.keyed, fun id' hid => (h'.frame id' hid).trans (h.frame id' hid)⟩

/-- The rows of the other keys are live or not as before. -/
theorem Writes.live (h : t.Writes id t') {id' : String} (hid : id' ≠ id) :
    t'.live id' = t.live id' := by
  unfold TaskTable.live
  rw [h.frame id' hid]

/-- The statements the repository makes: an insertion or a `Save`, -/
theorem writes_update (ht : t.Keyed) (hid : row.id = id) :
    t.Writes id (Function.update t id (some row)) :=
  ⟨ht.update hid, fun _ hne => Function.update_of_ne hne _ _⟩

/-- an `Updates` of a row, -/
theorem writes_modify (ht : t.Keyed) {f : TaskModel → TaskModel}
    (hf : ∀ row, (f row).id = row.id) : t.Writes id (t.modify id f) := by
  unfold modify
  cases hrow : t id with
  | none =>
    rw [Option.map_none, ← hrow, Function.update_eq_self]
    exact writes_refl ht id
  | some row => exact writes_update ht ((hf row).trans (ht id row hrow))

/-- and one that leaves soft-deleted rows alone. -/
theorem writes_modifyLive (ht : t.Keyed) {f : TaskModel → TaskModel}
    (hf : ∀ row, (f row).id = row.id) : t.Writes id (t.modifyLive id f) :=
  writes_modify ht (fun row => by split_ifs <;> simp [hf])

/-- So does each of its functions: `Delete`, -/
theorem writes_delete (hg : g.Documented) (ht : t.Keyed)
    (h : repoDelete g t id env = .ok t') : t.Writes id t' := by
  rw [((repoDelete_ok hg).mp h).2]
  exact writes_modifyLive ht (fun _ => rfl)

/-- `UpdateStatus`, -/
theorem writes_updateStatus (hg : g.Documented) (ht : t.Keyed) {enabled paused : Bool}
    (h : repoUpdateStatus g t id enabled paused env = .ok t') : t.Writes id t' := by
  rw [((repoUpdateStatus_ok hg).mp h).2]
  exact writes_modifyLive ht (fun _ => rfl)

/-- and the statement that takes a deletion back. -/
theorem writes_undelete (hg : g.Documented) (ht : t.Keyed) (hid : row.id = id)
    (h : repoUndelete g t row env = .ok t') : t.Writes id t' := by
  rw [((repoUndelete_ok hg).mp h).2, hid]
  exact writes_modify ht (fun _ => rfl)

/-- A call whose error is ignored. If it fails, nothing has been written. -/
theorem writes_ignoreErr (ht : t.Keyed) {r : Except Err TaskTable}
    (h : ∀ t', r = .ok t' → t.Writes id t') : t.Writes id (ignoreErr t r) := by
  cases r with
  | error err => exact writes_refl ht id
  | ok t' => exact h t' rfl

end TaskTable

/-! ## What is scheduled -/

open TaskTable (Writes)

/-- **What the wheels hold under an ID is there for its row**: each timer is one
of a live row that is enabled, it is paused if the row is, and there is only
one. A row that asks for a timer need not have one: additions may fail, and a
restart may lose what the wheel has refused. -/
structure Scheduled (row : Option TaskModel) (tts : Timetables) (id : String) : Prop where
  row : ∀ l x, (tts l).timers id = some x →
    ∃ r, row = some r ∧ r.enabled = true ∧ (r.paused = true → x.paused = true)
  one : tts.One id

section Scheduled

variable {row : Option TaskModel} {r : TaskModel} {tts : Timetables} {id : String}

/-- No timer needs no row, -/
theorem scheduled_of_free (h : tts.Free id) (row : Option TaskModel) : Scheduled row tts id :=
  ⟨fun l x hx => absurd (hx.symm.trans (h l)) (Option.some_ne_none x), h.one⟩

/-- and a row that is enabled and not paused allows for one timer, paused or
not. -/
theorem scheduled_of_one (h : tts.One id) (hrow : row = some r) (he : r.enabled = true)
    (hp : r.paused = false) : Scheduled row tts id :=
  ⟨fun _ _ _ => ⟨r, hrow, he, fun hpaused => absurd (hp.symm.trans hpaused) Bool.false_ne_true⟩, h⟩

/-- Nothing is held for a row that is not live, or not enabled. This is the
state a call may start from that adds a task. -/
theorem Scheduled.free (h : Scheduled row tts id) (hrow : ∀ r, row = some r → r.enabled = false) :
    tts.Free id := by
  intro l
  refine Option.eq_none_iff_forall_ne_some.mpr (fun x hx => ?_)
  obtain ⟨r, hr, he, -⟩ := h.row l x hx
  exact absurd ((hrow r hr).symm.trans he) Bool.false_ne_true

/-- Another row with the same status. Definitions do not matter here. -/
theorem Scheduled.congr (h : Scheduled (some r) tts id) {r' : TaskModel}
    (he : r'.enabled = r.enabled) (hp : r'.paused = r.paused) : Scheduled (some r') tts id where
  row := fun l x hx => by
    obtain ⟨r₀, hr, henabled, hpaused⟩ := h.row l x hx
    obtain rfl := Option.some.inj hr
    exact ⟨r', rfl, he.trans henabled, fun h => hpaused (hp.symm.trans h)⟩
  one := h.one

end Scheduled

/-! ## The server -/

namespace Server

/-- The wheels with what goes on in them. The table is left out. -/
def toLevels (s : Server) : Levels := ⟨s.service.timeWheel, s.activity⟩

/-- **The invariant.** It relates the server to three tables, one for each
wheel, and the rows to what they have. -/
structure Governed (s : Server) (tts : Timetables) : Prop where
  stands : s.toLevels.Stands tts
  keyed : s.service.tasks.Keyed
  scheduled : ∀ id, Scheduled (s.service.tasks.live id) tts id

variable {g : Gorm} {s : Server} {tts : Timetables} {id : String} {env : ServiceEnv}
  {m : MultiLevelTimeWheel} {tasks : TaskTable} {row : TaskModel}

/-- **A call for one ID** leaves the server in order, and the rows of the other
IDs alone. The tables of the wheels are not named, since a call may choose them. -/
def Moves (s : Server) (id : String) (service : ServiceState) : Prop :=
  (∃ tts, Governed { s with service := service } tts)
    ∧ s.service.tasks.Writes id service.tasks

/-- A call that does nothing. -/
theorem Governed.moves (h : s.Governed tts) (id : String) : s.Moves id s.service :=
  ⟨⟨tts, h⟩, TaskTable.writes_refl h.keyed id⟩

/-- What the wheels and the table have under the other IDs fits as before. Only
the ID of the call has to be looked at. -/
theorem Governed.frame (h : s.Governed tts) (hw : s.service.tasks.Writes id tasks)
    {tts' : Timetables} (hs : Levels.Stands { s.toLevels with timeWheel := m } tts')
    (hframe : tts.Frame id tts') (hid : Scheduled (tasks.live id) tts' id)
    (log : List OperationLogModel) : Governed { s with service := ⟨tasks, m, log⟩ } tts' := by
  refine ⟨hs, hw.keyed, fun id' => ?_⟩
  by_cases heq : id' = id
  · exact heq ▸ hid
  · obtain ⟨hrow, hone⟩ := h.scheduled id'
    have hsame := hframe id' heq
    show Scheduled (tasks.live id') tts' id'
    rw [hw.live heq]
    refine ⟨fun l x hx => hrow l x ((hsame l).symm.trans hx), fun l l' x y hx hy => ?_⟩
    exact hone l l' x y ((hsame l).symm.trans hx) ((hsame l').symm.trans hy)

/-- So a call is in order if what it leaves under its ID fits the row it leaves. -/
theorem Governed.leaves (h : s.Governed tts) (hw : s.service.tasks.Writes id tasks)
    (hl : s.toLevels.Leaves tts id m (fun tts' => Scheduled (tasks.live id) tts' id))
    (log : List OperationLogModel) : s.Moves id ⟨tasks, m, log⟩ := by
  obtain ⟨tts', hs, hframe, hid⟩ := hl
  exact ⟨⟨tts', h.frame hw hs hframe hid log⟩, hw⟩

/-- Nothing is written but the log. The invariant does not read it. -/
theorem Governed.moves_log (h : s.Governed tts) (id : String) (log : List OperationLogModel) :
    s.Moves id { s.service with opLog := log } :=
  ⟨⟨tts, h.stands, h.keyed, h.scheduled⟩, TaskTable.writes_refl h.keyed id⟩

/-! ### The atomic service -/

/-- **A wheel step for an ID** that fits the table: when it succeeds, what the
wheels hold is there for the row, and when it fails they hold nothing. The
second half is what makes a rollback harmless: whatever the row says in the end,
nothing is held for it. -/
def FitsTable (s : Server) (tts : Timetables) (id : String) (tasks : TaskTable)
    (r : Option Err × MultiLevelTimeWheel) : Prop :=
  s.toLevels.Leaves tts id r.2 (fun tts' =>
    (r.1 = none → Scheduled (tasks.live id) tts' id) ∧ (r.1 ≠ none → tts'.Free id))

/-- **What the three steps do for an ID**, once the first of them has succeeded.
The rollback may fail as well, and then its write is missing. -/
structure Fits (s : Server) (tts : Timetables) (id : String) (steps : AtomicSteps)
    (env : ServiceEnv) (task : TaskModel) (tasks : TaskTable) : Prop where
  written : s.service.tasks.Writes id tasks
  undone : tasks.Writes id (ignoreErr tasks (steps.rollbackDB tasks env.rollback))
  wheel : s.FitsTable tts id tasks (steps.twOp task s.service.timeWheel env)

/-- **A failed wheel step holds nothing**, so whatever the rollback leaves is in
order. `executeAtomically` ends in one of three ways: the database step has
failed, all has gone well, or the wheel step has failed and the first has been
undone, or not. -/
theorem Governed.attempted (h : s.Governed tts) (id : String) {steps : AtomicSteps}
    {r : Except Err TaskModel × ServiceState} (hatt : Attempted steps s.service env r)
    (hfits : ∀ task tasks, steps.dbOp s.service.tasks env.db = .ok (task, tasks) →
      s.Fits tts id steps env task tasks) : s.Moves id r.2 := by
  cases hatt with
  | refused err log => exact h.moves_log id log
  | done log db tw =>
    obtain ⟨hw, -, hl⟩ := hfits _ _ db
    rw [tw] at hl
    exact h.leaves hw (hl.imp (fun _ hP => hP.1 rfl)) log
  | @undone task tasks timeWheel twErr err log db tw =>
    obtain ⟨hw, hundone, hl⟩ := hfits _ _ db
    rw [tw] at hl
    exact h.leaves (hw.trans hundone)
      (hl.imp (fun _ hP => scheduled_of_free (hP.2 (Option.some_ne_none twErr)) _)) log

section Steps

open AtomicTaskService

variable {task : TaskModel} {req : TaskCreateRequest}

/-- A result that has been mapped and is fine was fine before. -/
theorem exceptMap_ok {α β : Type} {x : Except Err α} {f : α → β} {b : β}
    (h : x.map f = .ok b) : ∃ a, x = .ok a ∧ f a = b := by
  cases x with
  | error err => exact nomatch h
  | ok a => exact ⟨a, rfl, Except.ok.inj h⟩

/-- After an addition the row is to be enabled and not paused. Then one timer is
what it allows for. -/
theorem fitsTable_of_added {r : Option Err × MultiLevelTimeWheel}
    (h : s.toLevels.Leaves tts id r.2 (Levels.Added id r.1)) (hlive : tasks.live id = some row)
    (he : row.enabled = true) (hp : row.paused = false) : s.FitsTable tts id tasks r :=
  h.imp (fun _ hadded => ⟨fun _ => scheduled_of_one hadded.1 hlive he hp, hadded.2⟩)

/-- A removal fits every table. Nothing is held for whatever row there is. -/
theorem fitsTable_of_free {r : Option Err × MultiLevelTimeWheel}
    (h : s.toLevels.Leaves tts id r.2 (fun tts' => tts'.Free id)) : s.FitsTable tts id tasks r :=
  h.imp (fun _ hfree => ⟨fun _ => scheduled_of_free hfree _, fun _ => hfree⟩)

/-- `Create` writes a new row, and adds its task if it is enabled; a new row is
not paused. -/
theorem Governed.fits_create (hg : g.Documented) (h : s.Governed tts)
    (hidle : s.HandsOutIdle (levelOf req.toTaskModel.withDefaults.priority) env.add)
    (hdb : (createSteps g req).dbOp s.service.tasks env.db = .ok (task, tasks)) :
    s.Fits tts req.id (createSteps g req) env task tasks := by
  obtain ⟨-, hnone, rfl, rfl⟩ := (repoCreate_ok hg).mp hdb
  have hw := TaskTable.writes_update h.keyed
    (show (req.toTaskModel.created env.db.stamp).id = req.id from rfl)
  have hfree : tts.Free req.id := (h.scheduled req.id).free (fun r hr =>
    absurd ((TaskTable.live_eq_some.mp hr).1.symm.trans hnone) (Option.some_ne_none r))
  refine ⟨hw, TaskTable.writes_ignoreErr hw.keyed (fun _ => TaskTable.writes_delete hg hw.keyed), ?_⟩
  show s.FitsTable tts req.id _ (if req.enabled then _ else _)
  cases he : req.enabled with
  | false => exact fitsTable_of_free (h.stands.leaves req.id hfree)
  | true =>
    exact fitsTable_of_added (h.stands.addRow rfl hfree hidle) (TaskTable.live_update rfl _ _) he rfl

/-- What `UpdateStatus` has written. The row was live, so it has been written. -/
theorem updateStatus_ok (hg : g.Documented) {t : TaskTable} {denv : DbEnv} {enabled paused : Bool}
    (hlive : t.live id = some row)
    (hdb : (repoUpdateStatus g t id enabled paused denv).map (fun tasks => (row, tasks))
      = .ok (task, tasks)) :
    task = row ∧ tasks = Function.update t id (some (row.written enabled paused denv))
      ∧ tasks.live id = some (row.written enabled paused denv) := by
  obtain ⟨tasks', hok, heq⟩ := exceptMap_ok hdb
  obtain ⟨rfl, rfl⟩ := Prod.mk.inj heq
  obtain ⟨-, rfl⟩ := (repoUpdateStatus_ok hg).mp hok
  rw [TaskTable.modifyLive_live hlive]
  refine ⟨rfl, rfl, TaskTable.live_update ?_ t id⟩
  exact (TaskTable.live_eq_some.mp hlive).2

/-- The two writes of an operation that changes the status. Both are writes of
one row. -/
theorem Governed.writes_status (hg : g.Documented) (h : s.Governed tts)
    (hlive : s.service.tasks.live id = some row) {enabled paused : Bool} {denv : DbEnv}
    (htasks : tasks
      = Function.update s.service.tasks id (some (row.written enabled paused denv))) :
    s.service.tasks.Writes id tasks ∧ ∀ enabled' paused' denv', tasks.Writes id
      (ignoreErr tasks (repoUpdateStatus g tasks id enabled' paused' denv')) := by
  have hid : row.id = id := h.keyed id row (TaskTable.live_eq_some.mp hlive).1
  have hw : s.service.tasks.Writes id tasks := htasks ▸ TaskTable.writes_update h.keyed hid
  exact ⟨hw, fun _ _ _ => TaskTable.writes_ignoreErr hw.keyed
    (fun _ => TaskTable.writes_updateStatus hg hw.keyed)⟩

/-- `Enable`: nothing is held for a row that is not enabled, and its task is
added unless it is paused. -/
theorem Governed.fits_enable (hg : g.Documented) (h : s.Governed tts)
    (hlive : s.service.tasks.live id = some row) (he : row.enabled = false)
    (hidle : s.HandsOutIdle (levelOf row.priority) env.add)
    (hdb : (enableSteps g id row).dbOp s.service.tasks env.db = .ok (task, tasks)) :
    s.Fits tts id (enableSteps g id row) env task tasks := by
  obtain ⟨rfl, htasks, hlive'⟩ := updateStatus_ok hg hlive hdb
  obtain ⟨hw, hundone⟩ := h.writes_status hg hlive htasks
  have hfree : tts.Free id := (h.scheduled id).free (fun r hr => by
    rwa [← Option.some.inj (hlive.symm.trans hr)])
  refine ⟨hw, hundone _ _ _, ?_⟩
  show s.FitsTable tts id tasks (if task.paused then _ else _)
  cases hp : task.paused with
  | true => exact fitsTable_of_free (h.stands.leaves id hfree)
  | false =>
    have hid : task.id = id := h.keyed id task (TaskTable.live_eq_some.mp hlive).1
    exact fitsTable_of_added (h.stands.addRow hid hfree hidle) hlive' rfl hp

/-- `Delete` and `Disable` take the task out of the wheel. If they fail, it was
not there. -/
theorem Governed.removed (h : s.Governed tts) (id : String) :
    s.toLevels.Leaves tts id (s.service.timeWheel.removeTask id).2 (fun tts' => tts'.Free id) :=
  h.stands.removeTask (h.scheduled id).one

/-- `Disable` and -/
theorem Governed.fits_disable (hg : g.Documented) (h : s.Governed tts)
    (hlive : s.service.tasks.live id = some row)
    (hdb : (disableSteps g id row).dbOp s.service.tasks env.db = .ok (task, tasks)) :
    s.Fits tts id (disableSteps g id row) env task tasks := by
  obtain ⟨rfl, htasks, -⟩ := updateStatus_ok hg hlive hdb
  obtain ⟨hw, hundone⟩ := h.writes_status hg hlive htasks
  exact ⟨hw, hundone _ _ _, fitsTable_of_free (h.removed id)⟩

/-- `Delete` leave nothing, which fits every row. -/
theorem Governed.fits_delete (hg : g.Documented) (h : s.Governed tts)
    (hlive : s.service.tasks.live id = some row)
    (hdb : (deleteSteps g id row).dbOp s.service.tasks env.db = .ok (task, tasks)) :
    s.Fits tts id (deleteSteps g id row) env task tasks := by
  obtain ⟨tasks', hok, heq⟩ := exceptMap_ok hdb
  obtain ⟨rfl, rfl⟩ := Prod.mk.inj heq
  have hid : row.id = id := h.keyed id row (TaskTable.live_eq_some.mp hlive).1
  have hw := TaskTable.writes_delete hg h.keyed hok
  exact ⟨hw, TaskTable.writes_ignoreErr hw.keyed
    (fun _ => TaskTable.writes_undelete hg hw.keyed hid), fitsTable_of_free (h.removed id)⟩

/-- Pausing, for a row that has been written as paused. If it fails there was no
timer, and none is needed. -/
theorem Governed.paused (h : s.Governed tts) (hlive : s.service.tasks.live id = some row)
    {row' : TaskModel} (hlive' : tasks.live id = some row') (he : row'.enabled = row.enabled) :
    s.toLevels.Leaves tts id (s.service.timeWheel.pauseTask id).2 (fun tts' =>
      Scheduled (tasks.live id) tts' id
        ∧ ((s.service.timeWheel.pauseTask id).1 ≠ none → tts'.Free id)) := by
  refine (h.stands.pauseTask (h.scheduled id).one).imp (fun tts' hP => ⟨⟨fun l x hx => ?_, hP.1⟩,
    hP.2.2⟩)
  obtain ⟨hpaused, hheld⟩ := hP.2.1 l x hx
  obtain ⟨y, hy⟩ := Option.ne_none_iff_exists'.mp hheld
  obtain ⟨r, hr, henabled, -⟩ := (h.scheduled id).row l y hy
  obtain rfl := Option.some.inj (hlive.symm.trans hr)
  exact ⟨row', hlive', he.trans henabled, fun _ => hpaused⟩

/-- `Pause` writes the flag of the row and that of the timer. -/
theorem Governed.fits_pause (hg : g.Documented) (h : s.Governed tts)
    (hlive : s.service.tasks.live id = some row)
    (hdb : (pauseSteps g id row).dbOp s.service.tasks env.db = .ok (task, tasks)) :
    s.Fits tts id (pauseSteps g id row) env task tasks := by
  obtain ⟨rfl, htasks, hlive'⟩ := updateStatus_ok hg hlive hdb
  obtain ⟨hw, hundone⟩ := h.writes_status hg hlive htasks
  exact ⟨hw, hundone _ _ _, (h.paused hlive hlive' rfl).imp (fun _ hP => ⟨fun _ => hP.1, hP.2⟩)⟩

/-- `Resume` of a row that is enabled resumes its timer or adds its task; for
one that is not enabled nothing is held. -/
theorem Governed.fits_resume (hg : g.Documented) (h : s.Governed tts)
    (hlive : s.service.tasks.live id = some row)
    (hidle : s.HandsOutIdle (levelOf row.priority) env.add)
    (hdb : (resumeSteps g id row).dbOp s.service.tasks env.db = .ok (task, tasks)) :
    s.Fits tts id (resumeSteps g id row) env task tasks := by
  obtain ⟨rfl, htasks, hlive'⟩ := updateStatus_ok hg hlive hdb
  obtain ⟨hw, hundone⟩ := h.writes_status hg hlive htasks
  have hid : task.id = id := h.keyed id task (TaskTable.live_eq_some.mp hlive).1
  refine ⟨hw, hundone _ _ _, ?_⟩
  show s.FitsTable tts id tasks
    (if task.enabled then Levels.resumeOrAdd _ id env.resumeAt task env.add else _)
  cases he : task.enabled with
  | false =>
    have hfree : tts.Free id := (h.scheduled id).free (fun r hr => by
      rwa [← Option.some.inj (hlive.symm.trans hr)])
    exact fitsTable_of_free (h.stands.leaves id hfree)
  | true =>
    exact fitsTable_of_added (h.stands.resumeRow hid (h.scheduled id).one hidle env.resumeAt)
      hlive' he rfl

/-- What `repoUpdate` has written. `Save` writes all columns of a row that is
live. -/
theorem update_ok (hg : g.Documented) {t : TaskTable} {denv : DbEnv} {row' : TaskModel}
    (hlive : t.live id ≠ none) (hid : row.id = id)
    (hdb : repoUpdate g t row denv = .ok (row', tasks)) :
    row' = row.touched denv.stamp ∧ tasks = Function.update t id (some (row.touched denv.stamp)) := by
  subst hid
  exact ((repoUpdate_ok hg hlive).mp hdb).2.2

/-- Rewriting a row, for what the wheels hold under its ID. The status has
stayed, and with it what the row allows for. -/
theorem Governed.rewritten (h : s.Governed tts) (hlive : s.service.tasks.live id = some row)
    {row' : TaskModel} (hlive' : tasks.live id = some row') (he : row'.enabled = row.enabled)
    (hp : row'.paused = row.paused) : Scheduled (tasks.live id) tts id := by
  have hold := h.scheduled id
  rw [hlive] at hold
  rw [hlive']
  exact hold.congr he hp

/-- `Update` of a row that asks for a timer takes the old one out and adds the
new task; of another row it leaves the wheels alone. -/
theorem Governed.fits_update (hg : g.Documented) (h : s.Governed tts)
    (hlive : s.service.tasks.live id = some row) {upd : TaskUpdateRequest}
    (hidle : s.HandsOutIdle (levelOf (upd.apply row).priority) env.add)
    (hdb : (updateSteps g id upd row).dbOp s.service.tasks env.db = .ok (task, tasks)) :
    s.Fits tts id (updateSteps g id upd row) env task tasks := by
  obtain ⟨hrow, hdel⟩ := TaskTable.live_eq_some.mp hlive
  have hid : row.id = id := h.keyed id row hrow
  have hdb : repoUpdate g s.service.tasks (upd.apply row) env.db = .ok (task, tasks) := hdb
  obtain ⟨rfl, rfl⟩ := update_ok hg (ne_of_eq_of_ne hlive (Option.some_ne_none row))
    (show (upd.apply row).id = id from hid) hdb
  have hlive' := TaskTable.live_update
    (show ((upd.apply row).touched env.db.stamp).deletedAt = none from hdel) s.service.tasks id
  have hw : s.service.tasks.Writes id _ := TaskTable.writes_update h.keyed
    (show ((upd.apply row).touched env.db.stamp).id = id from hid)
  refine ⟨hw, TaskTable.writes_ignoreErr hw.keyed (fun tasks' hok => ?_), ?_⟩
  · obtain ⟨⟨row', tasks₁⟩, hupdate, rfl⟩ := exceptMap_ok hok
    obtain ⟨-, htasks⟩ :=
      update_ok hg (ne_of_eq_of_ne hlive' (Option.some_ne_none _)) hid hupdate
    rw [htasks]
    exact TaskTable.writes_update hw.keyed hid
  · show s.FitsTable tts id _ (if row.enabled && !row.paused then
      addToTimeWheel (s.service.timeWheel.removeTask id).2 _ env.add else _)
    cases hsched : row.enabled && !row.paused with
    | false =>
      exact h.stands.leaves id ⟨fun _ => h.rewritten hlive hlive' rfl rfl,
        fun hne => absurd rfl hne⟩
    | true =>
      obtain ⟨he, hp⟩ : row.enabled = true ∧ row.paused = false := by simpa using hsched
      exact fitsTable_of_added (h.stands.replaceRow hid (h.scheduled id).one hidle) hlive' he hp

end Steps

/-- The ID a call is for. The atomic service makes one up if the request has
none. -/
def idOf (svc : Service) (op : AtomicTaskService.Operation) (env : ServiceEnv) : String :=
  match op with
  | .create req => (svc.requestOf req env).id
  | .call id _ => id

/-- The rows whose tasks a call may add to the wheel. They say which wheel's
pool has to hand out an idle node. -/
def addedRow (t : TaskTable) (svc : Service) (op : AtomicTaskService.Operation) (env : ServiceEnv) :
    Option TaskModel :=
  match op with
  | .create req => some (svc.requestOf req env).toTaskModel.withDefaults
  | .call id (.update req) => (t.live id).map req.apply
  | .call id .enable => t.live id
  | .call id .resume => t.live id
  | .call _ _ => none

/-- A call of the atomic service. `Create` and the six others are attempts of
their three steps, once the row has been read. -/
theorem Governed.atomic (hg : g.Documented) (h : s.Governed tts)
    (op : AtomicTaskService.Operation)
    (hidle : ∀ row ∈ addedRow s.service.tasks .atomicTaskService op env,
      s.HandsOutIdle (levelOf row.priority) env.add) :
    s.Moves (idOf .atomicTaskService op env) (op.execute g s.service env).2 := by
  cases op with
  | create req =>
    show s.Moves _ (AtomicTaskService.create g s.service req env).2
    rw [create_eq]
    cases repoGetByID g s.service.tasks (AtomicTaskService.requestOf req env).id env.get with
    | ok _ => exact h.moves _
    | error err =>
      -- the row is new, so no wheel has its ID
      exact h.attempted _ (attempted_executeAtomically _ _ _)
        (fun _ _ hdb => h.fits_create hg (hidle _ rfl) hdb)
  | call id c =>
    show s.Moves id (c.execute g s.service id env).2
    unfold AtomicTaskService.Call.execute
    cases hget : repoGetByID g s.service.tasks id env.get with
    | error err => exact h.moves _
    | ok row =>
      have hlive := ((repoGetByID_ok hg).mp hget).2
      dsimp only
      unfold AtomicTaskService.Call.body
      cases hsteps : c.steps g id row with
      | none => exact h.moves _
      | some steps =>
        refine h.attempted id (attempted_executeAtomically _ _ _) (fun task tasks hdb => ?_)
        -- what is left is that the write and the wheel step of each call fit together
        cases c with
        | update req =>
          obtain rfl := Option.some.inj hsteps
          refine h.fits_update hg hlive (hidle _ ?_) hdb
          show req.apply row ∈ (s.service.tasks.live id).map req.apply
          rw [hlive]
          rfl
        | enable =>
          unfold AtomicTaskService.Call.steps at hsteps
          dsimp only at hsteps
          split_ifs at hsteps with he
          obtain rfl := Option.some.inj hsteps
          exact h.fits_enable hg hlive (Bool.eq_false_iff.mpr he) (hidle _ hlive) hdb
        | disable =>
          unfold AtomicTaskService.Call.steps at hsteps
          dsimp only at hsteps
          split_ifs at hsteps
          obtain rfl := Option.some.inj hsteps
          exact h.fits_disable hg hlive hdb
        | pause =>
          unfold AtomicTaskService.Call.steps at hsteps
          dsimp only at hsteps
          split_ifs at hsteps
          obtain rfl := Option.some.inj hsteps
          exact h.fits_pause hg hlive hdb
        | resume =>
          unfold AtomicTaskService.Call.steps at hsteps
          dsimp only at hsteps
          split_ifs at hsteps
          obtain rfl := Option.some.inj hsteps
          exact h.fits_resume hg hlive (hidle _ hlive) hdb
        | delete =>
          obtain rfl := Option.some.inj hsteps
          exact h.fits_delete hg hlive hdb

/-! ### The plain service -/

/-- The task is taken out of the wheel, whatever is written then. Nothing held
fits every row, so this may come before or after the write. -/
theorem Governed.remove (h : s.Governed tts) (hw : s.service.tasks.Writes id tasks) :
    s.Moves id ⟨tasks, (s.service.timeWheel.removeTask id).2, s.service.opLog⟩ :=
  h.leaves hw ((h.removed id).imp (fun _ hfree => scheduled_of_free hfree _)) _

/-- `Update` of the plain service logs the error of the wheel; the row has been
written then, and nothing is held. -/
theorem Governed.plain_update (hg : g.Documented) (h : s.Governed tts) (id : String)
    (req : TaskUpdateRequest)
    (hidle : ∀ row ∈ (s.service.tasks.live id).map req.apply,
      s.HandsOutIdle (levelOf row.priority) env.add) :
    s.Moves id (TaskService.update g s.service id req env).2 := by
  unfold TaskService.update
  cases hget : repoGetByID g s.service.tasks id env.get with
  | error err => exact h.moves _
  | ok row =>
    have hlive := ((repoGetByID_ok hg).mp hget).2
    obtain ⟨hrow, hdel⟩ := TaskTable.live_eq_some.mp hlive
    have hid : row.id = id := h.keyed id row hrow
    dsimp only
    cases hdb : repoUpdate g s.service.tasks (req.apply row) env.db with
    | error err => exact h.moves _
    | ok r =>
      obtain ⟨row', tasks⟩ := r
      obtain ⟨rfl, rfl⟩ := update_ok hg (ne_of_eq_of_ne hlive (Option.some_ne_none row))
        (show (req.apply row).id = id from hid) hdb
      have hlive' := TaskTable.live_update
        (show ((req.apply row).touched env.db.stamp).deletedAt = none from hdel) s.service.tasks id
      have hid : ((req.apply row).touched env.db.stamp).id = id := hid
      have hw := TaskTable.writes_update h.keyed hid
      have hidle := hidle (req.apply row) (by rw [hlive]; rfl)
      dsimp only
      split_ifs with hsched
      · obtain ⟨he, hp⟩ : row.enabled = true ∧ row.paused = false := by
          simpa [TaskUpdateRequest.apply, TaskModel.touched] using hsched
        exact h.leaves hw ((h.stands.replaceRow hid (h.scheduled id).one hidle).imp
          (fun _ hadded => scheduled_of_one hadded.1 hlive' he hp)) _
      · exact h.leaves hw (h.stands.leaves id (h.rewritten hlive hlive' rfl rfl)) _

/-- `Enable` of a disabled row is the three steps in the plain service too. It
is the only call of the plain service that rolls back. -/
theorem attempted_enable {s : ServiceState} (hget : repoGetByID g s.tasks id env.get = .ok row)
    (he : row.enabled = false) : ∃ r, Attempted (AtomicTaskService.enableSteps g id row) s env
      (r, (TaskService.enable g s id env).2) := by
  unfold TaskService.enable
  rw [hget]
  dsimp only
  rw [if_neg (by rw [he]; exact Bool.false_ne_true)]
  cases hdb : repoUpdateStatus g s.tasks id true row.paused env.db with
  | error err => exact ⟨.error err, .refused _ s.opLog⟩
  | ok tasks =>
    have hdb : (AtomicTaskService.enableSteps g id row).dbOp s.tasks env.db = .ok (row, tasks) := by
      show Except.map _ (repoUpdateStatus g s.tasks id true row.paused env.db) = _
      rw [hdb]
      rfl
    have htw : (AtomicTaskService.enableSteps g id row).twOp row s.timeWheel env
        = if row.paused then (none, s.timeWheel)
          else addToTimeWheel s.timeWheel { row with enabled := true } env.add := rfl
    dsimp only
    by_cases hp : row.paused = true
    · rw [if_pos hp] at htw ⊢
      exact ⟨.ok row, .done s.opLog hdb htw⟩
    · rw [if_neg hp] at htw ⊢
      cases hadd : addToTimeWheel s.timeWheel { row with enabled := true } env.add with
      | mk err timeWheel =>
        cases err with
        | none => exact ⟨.ok row, .done s.opLog hdb (htw.trans hadd)⟩
        | some twErr => exact ⟨.error twErr, .undone _ s.opLog hdb (htw.trans hadd)⟩

/-- So `Enable` is as in the atomic service. -/
theorem Governed.plain_enable (hg : g.Documented) (h : s.Governed tts) (id : String)
    (hidle : ∀ row ∈ s.service.tasks.live id, s.HandsOutIdle (levelOf row.priority) env.add) :
    s.Moves id (TaskService.enable g s.service id env).2 := by
  cases hget : repoGetByID g s.service.tasks id env.get with
  | error err =>
    unfold TaskService.enable
    rw [hget]
    exact h.moves _
  | ok row =>
    have hlive := ((repoGetByID_ok hg).mp hget).2
    cases he : row.enabled with
    | true =>
      unfold TaskService.enable
      rw [hget]
      dsimp only
      rw [if_pos he]
      exact h.moves _
    | false =>
      obtain ⟨r, hatt⟩ := attempted_enable hget he
      exact h.attempted id hatt
        (fun _ _ hdb => h.fits_enable hg hlive he (hidle row hlive) hdb)

/-- `Disable` takes the node out and does not care whether there was one. -/
theorem Governed.plain_disable (hg : g.Documented) (h : s.Governed tts) (id : String) :
    s.Moves id (TaskService.disable g s.service id env).2 := by
  unfold TaskService.disable
  cases repoGetByID g s.service.tasks id env.get with
  | error err => exact h.moves _
  | ok row =>
    dsimp only
    split_ifs
    · exact h.moves _
    · cases hdb : repoUpdateStatus g s.service.tasks id false row.paused env.db with
      | error err => exact h.remove (TaskTable.writes_refl h.keyed id)
      | ok tasks => exact h.remove (TaskTable.writes_updateStatus hg h.keyed hdb)

/-- Nor does `Delete`, which does not read the row at all. -/
theorem Governed.plain_delete (hg : g.Documented) (h : s.Governed tts) (id : String) :
    s.Moves id (TaskService.delete g s.service id env).2 := by
  unfold TaskService.delete
  dsimp only
  cases hdb : repoDelete g s.service.tasks id env.db with
  | error err => exact h.remove (TaskTable.writes_refl h.keyed id)
  | ok tasks => exact h.remove (TaskTable.writes_delete hg h.keyed hdb)

/-- `Pause` writes the row first, so the timer of a paused row is flagged or
there is none. -/
theorem Governed.plain_pause (hg : g.Documented) (h : s.Governed tts) (id : String) :
    s.Moves id (TaskService.pause g s.service id env).2 := by
  unfold TaskService.pause
  cases hget : repoGetByID g s.service.tasks id env.get with
  | error err => exact h.moves _
  | ok row =>
    have hlive := ((repoGetByID_ok hg).mp hget).2
    dsimp only
    split_ifs
    · exact h.moves _
    · cases hdb : repoUpdateStatus g s.service.tasks id row.enabled true env.db with
      | error err => exact h.moves _
      | ok tasks =>
        have hlive' : tasks.live id = some (row.written row.enabled true env.db) :=
          (updateStatus_ok hg hlive (by rw [hdb]; rfl)).2.2
        exact h.leaves (TaskTable.writes_updateStatus hg h.keyed hdb)
          ((h.paused hlive hlive' rfl).imp (fun _ hP => hP.1)) _

/-- `Resume` adds the task if the wheel does not have it, and returns its error
without taking the row back. -/
theorem Governed.plain_resume (hg : g.Documented) (h : s.Governed tts) (id : String)
    (hidle : ∀ row ∈ s.service.tasks.live id, s.HandsOutIdle (levelOf row.priority) env.add) :
    s.Moves id (TaskService.resume g s.service id env).2 := by
  unfold TaskService.resume
  cases hget : repoGetByID g s.service.tasks id env.get with
  | error err => exact h.moves _
  | ok row =>
    have hlive := ((repoGetByID_ok hg).mp hget).2
    have hid : row.id = id := h.keyed id row (TaskTable.live_eq_some.mp hlive).1
    dsimp only
    by_cases hp : row.paused = false
    · rw [if_pos hp]
      exact h.moves _
    · rw [if_neg hp]
      cases hdb : repoUpdateStatus g s.service.tasks id row.enabled false env.db with
      | error err => exact h.moves _
      | ok tasks =>
        have hlive' : tasks.live id = some (row.written row.enabled false env.db) :=
          (updateStatus_ok hg hlive (by rw [hdb]; rfl)).2.2
        have hw := TaskTable.writes_updateStatus hg h.keyed hdb
        dsimp only
        by_cases he : row.enabled = true
        · rw [if_pos he]
          have hl := (h.stands.resumeRow hid (h.scheduled id).one (hidle row hlive)
            env.resumeAt).imp (fun _ hadded => scheduled_of_one hadded.1 hlive' he rfl)
          have hdone := h.leaves hw hl s.service.opLog
          unfold Levels.resumeOrAdd toLevels at hdone
          dsimp only at hdone
          cases hresume : s.service.timeWheel.resumeTask id env.resumeAt with
          | mk err m =>
            rw [hresume] at hdone
            cases err with
            | none => exact hdone
            | some err => exact hdone
        · rw [if_neg he]
          have hfree : tts.Free id := (h.scheduled id).free (fun r hr => by
            rw [← Option.some.inj (hlive.symm.trans hr)]
            exact Bool.eq_false_iff.mpr he)
          exact h.leaves hw (h.stands.leaves id (scheduled_of_free hfree _)) _

/-- **A call of either service.** With a pool that hands out idle nodes, every
call of either service keeps the invariant and writes the row of its own ID at
most, whatever fails on the way. -/
theorem Governed.call (hg : g.Documented) (h : s.Governed tts) (svc : Service)
    (op : AtomicTaskService.Operation)
    (hidle : ∀ row ∈ addedRow s.service.tasks svc op env,
      s.HandsOutIdle (levelOf row.priority) env.add) :
    s.Moves (idOf svc op env) (svc.execute g s.service op env) := by
  cases svc with
  | atomicTaskService => exact h.atomic hg op hidle
  | taskService =>
    cases op with
    | create req =>
      show s.Moves req.id (TaskService.create g s.service req env).2
      cases hget : repoGetByID g s.service.tasks req.id env.get with
      | ok row =>
        unfold TaskService.create
        rw [hget]
        exact h.moves _
      | error err =>
        exact h.attempted req.id (attempted_create hget)
          (fun _ _ hdb => h.fits_create hg (hidle _ rfl) hdb)
    | call id c =>
      cases c with
      | update req => exact h.plain_update hg id req hidle
      | enable => exact h.plain_enable hg id hidle
      | disable => exact h.plain_disable hg id
      | pause => exact h.plain_pause hg id
      | resume => exact h.plain_resume hg id hidle
      | delete => exact h.plain_delete hg id

end Server

end Timewheel
