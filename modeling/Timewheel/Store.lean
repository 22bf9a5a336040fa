import Timewheel.Types

/-!
# The table of tasks

`TaskModel` is a row of the table `tasks`, and `TaskTable` is the table: its
rows by primary key, the soft-deleted ones included. The repository reaches it
through an object-relational mapper that is not part of the program. That is
the parameter `Gorm`, and `Gorm.Documented` says what the repository relies
on: how a statement that reaches the database changes the table, that one that
fails changes nothing, and what the mapper fills in by itself – the defaults
of a new row, which also replace explicit zeros, and the time stamps.

The database behind it is one that compares keys exactly and returns every value
as it was written. SQLite is such a database. MySQL, which the server is
configured with, is not in every respect: its collation takes keys for equal that
differ in case, and its `DATETIME` columns cut times. What is proved with
`Gorm.Documented` is therefore about the code on a database of the first kind.
-/

namespace Timewheel

/-! ## Rows -/

/-- `TaskModel`. Columns of an integer type are integers; a `*time.Time` is an
`Option Time`, and `gorm.DeletedAt` too. -/
structure TaskModel where
  id : String
  name : String
  description : String
  mode : ℤ
  intervalMs : ℤ
  times : ℤ
  priority : ℤ
  timeoutMs : ℤ
  severity : ℤ
  forDurationMs : ℤ
  repeatIntervalMs : ℤ
  labels : StringMap
  annotations : StringMap
  enabled : Bool
  paused : Bool
  enabledAt : Option Time
  pausedAt : Option Time
  executedCount : ℤ
  lastExecutedAt : Option Time
  lastResultValue : UInt64
  lastIsFiring : Bool
  alertState : ℤ
  pendingSince : Option Time
  lastFiredAt : Option Time
  createdAt : Time
  updatedAt : Time
  deletedAt : Option Time
  deriving DecidableEq, Repr

namespace TaskModel

/-- The column defaults that are not the zero value, in place of a zero. -/
def withDefaults (row : TaskModel) : TaskModel :=
  { row with
    priority := if row.priority = 0 then 1 else row.priority
    severity := if row.severity = 0 then 1 else row.severity }

/-- The row an insertion at `stamp` makes of `row`. -/
def created (row : TaskModel) (stamp : Time) : TaskModel :=
  { row.withDefaults with
    createdAt := if row.createdAt.isZero then stamp else row.createdAt
    updatedAt := if row.updatedAt.isZero then stamp else row.updatedAt }

/-- `autoUpdateTime`. -/
def touched (row : TaskModel) (stamp : Time) : TaskModel := { row with updatedAt := stamp }

/-- The columns `UpdateStatus` writes. -/
def withStatus (row : TaskModel) (enabled paused : Bool) (now : Time) : TaskModel :=
  { row with
    enabled := enabled
    paused := paused
    enabledAt := if enabled then some now else row.enabledAt
    pausedAt := if paused then some now else row.pausedAt }

end TaskModel

/-! ## The table -/

/-- The rows by primary key. -/
abbrev TaskTable := String → Option TaskModel

namespace TaskTable

/-- The row of a key, unless it is soft-deleted. -/
def live (t : TaskTable) (id : String) : Option TaskModel :=
  (t id).filter (fun row => row.deletedAt.isNone)

/-- Rewrite the row of a key. -/
def modify (t : TaskTable) (id : String) (f : TaskModel → TaskModel) : TaskTable :=
  Function.update t id ((t id).map f)

/-- Rewrite the row of a key, unless it is soft-deleted. -/
def modifyLive (t : TaskTable) (id : String) (f : TaskModel → TaskModel) : TaskTable :=
  t.modify id (fun row => if row.deletedAt.isNone then f row else row)

theorem live_eq_some {t : TaskTable} {id : String} {row : TaskModel} :
    t.live id = some row ↔ t id = some row ∧ row.deletedAt = none := by
  unfold live
  rw [Option.filter_eq_some_iff, Option.isNone_iff_eq_none]

@[simp] theorem modify_self (t : TaskTable) (id : String) (f : TaskModel → TaskModel) :
    t.modify id f id = (t id).map f := Function.update_self _ _ _

/-- A live row is rewritten. -/
theorem modifyLive_live {t : TaskTable} {id : String} {row : TaskModel}
    (h : t.live id = some row) (f : TaskModel → TaskModel) :
    t.modifyLive id f = Function.update t id (some (f row)) := by
  obtain ⟨hrow, hdel⟩ := live_eq_some.mp h
  unfold modifyLive modify
  rw [hrow, Option.map_some, if_pos (by rw [hdel]; rfl)]

/-- Without a live row nothing is. -/
theorem modifyLive_none {t : TaskTable} {id : String} (h : t.live id = none)
    (f : TaskModel → TaskModel) : t.modifyLive id f = t := by
  unfold modifyLive modify
  cases hrow : t id with
  | none => rw [Option.map_none, ← hrow, Function.update_eq_self]
  | some row =>
    have hdel : ¬ row.deletedAt.isNone = true := by
      intro hdel
      have := live_eq_some.mpr ⟨hrow, Option.isNone_iff_eq_none.mp hdel⟩
      rw [h] at this
      cases this
    rw [Option.map_some, if_neg hdel, ← hrow, Function.update_eq_self]

/-- A row that has just been written. -/
theorem live_update {row : TaskModel} (h : row.deletedAt = none) (t : TaskTable) (id : String) :
    live (Function.update t id (some row)) id = some row :=
  live_eq_some.mpr ⟨Function.update_self _ _ _, h⟩

theorem live_update_deleted {row : TaskModel} (h : row.deletedAt ≠ none) (t : TaskTable)
    (id : String) : live (Function.update t id (some row)) id = none := by
  unfold live
  rw [Function.update_self]
  simpa [Option.filter] using h

/-- The key of a row is its ID. -/
def Keyed (t : TaskTable) : Prop := ∀ id row, t id = some row → row.id = id

theorem keyed_empty : Keyed (fun _ => none) := fun _ _ h => (nomatch h)

theorem Keyed.update {t : TaskTable} (h : t.Keyed) {id : String} {row : TaskModel}
    (hid : row.id = id) : Keyed (Function.update t id (some row)) := by
  intro id' row' hrow
  by_cases heq : id' = id
  · subst heq
    rw [Function.update_self] at hrow
    rw [← Option.some.inj hrow, hid]
  · rw [Function.update_of_ne heq] at hrow
    exact h id' row' hrow

end TaskTable

/-! ## The mapper -/

/-- What one call of the database leaves open. -/
structure DbEnv where
  /-- `time.Now()` in the repository. -/
  now : Time
  /-- The clock the mapper stamps rows with. -/
  stamp : Time
  /-- The call fails, for a reason outside the program. -/
  fault : Bool

/-- A row as `UpdateStatus` leaves it. -/
def TaskModel.written (row : TaskModel) (enabled paused : Bool) (env : DbEnv) : TaskModel :=
  (row.withStatus enabled paused env.now).touched env.stamp

/-- **The calls the repository makes.** A call that inserts or saves a row also
returns the row as it leaves it in the caller's variable. `updates` rewrites the
columns of the row of a key by a function, soft-deleted or not if it is
`Unscoped`. -/
structure Gorm where
  create : TaskTable → TaskModel → DbEnv → Except Err (TaskModel × TaskTable)
  first : TaskTable → String → DbEnv → Except Err TaskModel
  save : TaskTable → TaskModel → DbEnv → Except Err (TaskModel × TaskTable)
  delete : TaskTable → String → DbEnv → Except Err TaskTable
  updates : Bool → TaskTable → String → (TaskModel → TaskModel) → DbEnv → Except Err TaskTable

/-- **What is documented of them**, on a database that is case-sensitive and stores
every value exactly. The fields take the statements one after the other: a fault
of the database is an error of the statement and changes nothing, and otherwise
the row comes back, or the table is left, as described. -/
structure Gorm.Documented (g : Gorm) : Prop where
  create_fault : ∀ t row env, env.fault = true → ∃ err, g.create t row env = .error err
  first_fault : ∀ t id env, env.fault = true → ∃ err, g.first t id env = .error err
  save_fault : ∀ t row env, env.fault = true → ∃ err, g.save t row env = .error err
  delete_fault : ∀ t id env, env.fault = true → ∃ err, g.delete t id env = .error err
  updates_fault : ∀ b t id f env, env.fault = true → ∃ err, g.updates b t id f env = .error err
  /-- An insertion fills in defaults and time stamps. -/
  create_new : ∀ t row env, env.fault = false → t row.id = none →
    g.create t row env = .ok (row.created env.stamp,
      Function.update t row.id (some (row.created env.stamp)))
  /-- A primary key is unique, among soft-deleted rows too. -/
  create_taken : ∀ t row env, t row.id ≠ none → ∃ err, g.create t row env = .error err
  /-- `First` leaves soft-deleted rows out. -/
  first_live : ∀ t id row env, env.fault = false → TaskTable.live t id = some row →
    g.first t id env = .ok row
  first_none : ∀ t id env, TaskTable.live t id = none → ∃ err, g.first t id env = .error err
  /-- `Save` of a row without primary key is an insertion. -/
  save_noKey : ∀ t row env, row.id = "" → g.save t row env = g.create t row env
  /-- `Save` writes all columns of the row, if there is one, -/
  save_live : ∀ t row env, env.fault = false → row.id ≠ "" → TaskTable.live t row.id ≠ none →
    g.save t row env = .ok (row.touched env.stamp,
      Function.update t row.id (some (row.touched env.stamp)))
  /-- inserts it if there is none, -/
  save_new : ∀ t row env, env.fault = false → row.id ≠ "" → t row.id = none →
    g.save t row env = g.create t row env
  /-- and takes the place of a soft-deleted row as an insertion would. -/
  save_deleted : ∀ t row old env, env.fault = false → row.id ≠ "" → t row.id = some old →
    old.deletedAt ≠ none →
    g.save t row env = .ok (row.withDefaults,
      Function.update t row.id
        (some { row.withDefaults with createdAt := old.createdAt, updatedAt := env.stamp }))
  /-- `Delete` of a model with `DeletedAt` is a soft deletion. -/
  delete_ok : ∀ t id env, env.fault = false →
    g.delete t id env = .ok (TaskTable.modifyLive t id
      (fun row => { row with deletedAt := some env.stamp }))
  /-- `Updates` writes the given columns and the time stamp. -/
  updates_ok : ∀ t id f env, env.fault = false →
    g.updates false t id f env
      = .ok (TaskTable.modifyLive t id (fun row => (f row).touched env.stamp))
  updates_unscoped : ∀ t id f env, env.fault = false →
    g.updates true t id f env
      = .ok (TaskTable.modify t id (fun row => (f row).touched env.stamp))

/-! ### A mapper that is as documented -/

/-- An insertion into a table in memory. -/
def tableCreate (t : TaskTable) (row : TaskModel) (env : DbEnv) :
    Except Err (TaskModel × TaskTable) :=
  if env.fault then .error (.text "connection refused")
  else
    match t row.id with
    | some _ => .error (.text "UNIQUE constraint failed: tasks.id")
    | none =>
      .ok (row.created env.stamp, Function.update t row.id (some (row.created env.stamp)))

/-- The mapper that does what is documented, on a table in memory. -/
def tableGorm : Gorm :=
  { create := tableCreate
    first := fun t id env =>
      if env.fault then .error (.text "connection refused")
      else
        match TaskTable.live t id with
        | some row => .ok row
        | none => .error (.text "record not found")
    save := fun t row env =>
      if env.fault then .error (.text "connection refused")
      else if row.id = "" then tableCreate t row env
      else
        match t row.id with
        | none => tableCreate t row env
        | some old =>
          if old.deletedAt.isNone then
            .ok (row.touched env.stamp,
              Function.update t row.id (some (row.touched env.stamp)))
          else
            .ok (row.withDefaults, Function.update t row.id
              (some { row.withDefaults with createdAt := old.createdAt, updatedAt := env.stamp }))
    delete := fun t id env =>
      if env.fault then .error (.text "connection refused")
      else .ok (TaskTable.modifyLive t id (fun row => { row with deletedAt := some env.stamp }))
    updates := fun unscoped t id f env =>
      if env.fault then .error (.text "connection refused")
      else if unscoped then
        .ok (TaskTable.modify t id (fun row => (f row).touched env.stamp))
      else .ok (TaskTable.modifyLive t id (fun row => (f row).touched env.stamp)) }

/-- **A table behaves as the mapper is documented to**: it keeps rows exactly,
by their IDs, and lets a fault of the database through as an error. So the
assumptions can be met. -/
theorem documented_tableGorm : tableGorm.Documented where
  create_fault := fun t row env h => ⟨_, if_pos h⟩
  first_fault := fun t id env h => ⟨_, if_pos h⟩
  save_fault := fun t row env h => ⟨_, if_pos h⟩
  delete_fault := fun t id env h => ⟨_, if_pos h⟩
  updates_fault := fun b t id f env h => ⟨_, if_pos h⟩
  create_new := fun t row env h hrow => by
    show (if env.fault = true then _ else _) = _
    rw [h, if_neg Bool.false_ne_true, hrow]
  create_taken := fun t row env hrow => by
    show ∃ err, (if env.fault = true then _ else _) = _
    obtain ⟨old, hold⟩ := Option.ne_none_iff_exists'.mp hrow
    split_ifs
    · exact ⟨_, rfl⟩
    · rw [hold]
      exact ⟨_, rfl⟩
  first_live := fun t id row env h hrow => by
    show (if env.fault = true then _ else _) = _
    rw [h, if_neg Bool.false_ne_true, hrow]
  first_none := fun t id env hrow => by
    show ∃ err, (if env.fault = true then _ else _) = _
    split_ifs
    · exact ⟨_, rfl⟩
    · rw [hrow]
      exact ⟨_, rfl⟩
  save_noKey := fun t row env hid => by
    show (if env.fault = true then _ else _) = tableCreate t row env
    split_ifs with h
    · exact (if_pos h).symm
    · rfl
  save_live := fun t row env h hid hrow => by
    show (if env.fault = true then _ else _) = _
    obtain ⟨old, hold⟩ := Option.ne_none_iff_exists'.mp hrow
    obtain ⟨hold, hdel⟩ := TaskTable.live_eq_some.mp hold
    rw [h, if_neg Bool.false_ne_true, if_neg hid, hold]
    exact if_pos (by rw [hdel]; rfl)
  save_new := fun t row env h hid hrow => by
    show (if env.fault = true then _ else _) = _
    rw [h, if_neg Bool.false_ne_true, if_neg hid, hrow]
    rfl
  save_deleted := fun t row old env h hid hold hdel => by
    show (if env.fault = true then _ else _) = _
    rw [h, if_neg Bool.false_ne_true, if_neg hid, hold]
    exact if_neg (fun hnone => hdel (Option.isNone_iff_eq_none.mp hnone))
  delete_ok := fun t id env h => by
    show (if env.fault = true then _ else _) = _
    rw [h, if_neg Bool.false_ne_true]
  updates_ok := fun t id f env h => by
    show (if env.fault = true then _ else _) = _
    rw [h, if_neg Bool.false_ne_true, if_neg Bool.false_ne_true]
  updates_unscoped := fun t id f env h => by
    show (if env.fault = true then _ else _) = _
    rw [h, if_neg Bool.false_ne_true, if_pos rfl]

/-! ## The repository -/

section Repository

variable (g : Gorm)

/-- `Create`. -/
def repoCreate (t : TaskTable) (task : TaskModel) (env : DbEnv) :
    Except Err (TaskModel × TaskTable) := g.create t task env

/-- `GetByID`. -/
def repoGetByID (t : TaskTable) (id : String) (env : DbEnv) : Except Err TaskModel :=
  g.first t id env

/-- `Update`. -/
def repoUpdate (t : TaskTable) (task : TaskModel) (env : DbEnv) :
    Except Err (TaskModel × TaskTable) := g.save t task env

/-- `Delete`. -/
def repoDelete (t : TaskTable) (id : String) (env : DbEnv) : Except Err TaskTable :=
  g.delete t id env

/-- `Undelete`. -/
def repoUndelete (t : TaskTable) (task : TaskModel) (env : DbEnv) : Except Err TaskTable :=
  g.updates true t task.id (fun row => { row with deletedAt := none }) env

/-- `UpdateStatus`. -/
def repoUpdateStatus (t : TaskTable) (id : String) (enabled paused : Bool) (env : DbEnv) :
    Except Err TaskTable :=
  g.updates false t id (fun row => row.withStatus enabled paused env.now) env

end Repository

/-! ### When a call succeeds -/

section Succeeds

variable {g : Gorm} {t t' : TaskTable} {id : String} {row row' : TaskModel} {env : DbEnv}

/-- A call that fails on a fault and otherwise returns `b` succeeds with `b`
alone. -/
theorem ok_iff_of_fault {α : Type} {x : Except Err α} {b a : α}
    (hfault : env.fault = true → ∃ err, x = .error err) (hok : env.fault = false → x = .ok b) :
    x = .ok a ↔ env.fault = false ∧ a = b := by
  cases hf : env.fault with
  | true =>
    obtain ⟨err, herr⟩ := hfault hf
    rw [herr]
    exact ⟨fun h => (nomatch h), fun h => (nomatch h.1)⟩
  | false =>
    rw [hok hf]
    exact ⟨fun h => ⟨rfl, (Except.ok.inj h).symm⟩, fun h => by rw [h.2]⟩

theorem repoGetByID_ok (hg : g.Documented) :
    repoGetByID g t id env = .ok row ↔ env.fault = false ∧ t.live id = some row := by
  unfold repoGetByID
  cases hlive : t.live id with
  | none =>
    obtain ⟨err, herr⟩ := hg.first_none t id env hlive
    rw [herr]
    exact ⟨fun h => (nomatch h), fun h => (nomatch h.2)⟩
  | some row' =>
    rw [ok_iff_of_fault (hg.first_fault t id env)
      (fun hf => hg.first_live t id row' env hf hlive)]
    exact ⟨fun h => ⟨h.1, by rw [h.2]⟩, fun h => ⟨h.1, (Option.some.inj h.2).symm⟩⟩

/-- What is not found is not live. -/
theorem repoGetByID_missing (hg : g.Documented) (hf : env.fault = false) :
    (∃ err, repoGetByID g t id env = .error err) ↔ t.live id = none := by
  constructor
  · rintro ⟨err, herr⟩
    refine Option.eq_none_iff_forall_ne_some.mpr (fun row hlive => ?_)
    exact (nomatch herr.symm.trans ((repoGetByID_ok hg).mpr ⟨hf, hlive⟩))
  · exact hg.first_none t id env

theorem repoCreate_ok (hg : g.Documented) :
    repoCreate g t row env = .ok (row', t') ↔ env.fault = false ∧ t row.id = none
      ∧ row' = row.created env.stamp
      ∧ t' = Function.update t row.id (some (row.created env.stamp)) := by
  unfold repoCreate
  cases hrow : t row.id with
  | none =>
    rw [ok_iff_of_fault (hg.create_fault t row env) (fun hf => hg.create_new t row env hf hrow)]
    simp
  | some old =>
    obtain ⟨err, herr⟩ := hg.create_taken t row env (by rw [hrow]; exact Option.some_ne_none old)
    rw [herr]
    simp

/-- `Update` of a live row. -/
theorem repoUpdate_ok (hg : g.Documented) (hlive : t.live row.id ≠ none) :
    repoUpdate g t row env = .ok (row', t') ↔ env.fault = false ∧ row.id ≠ ""
      ∧ row' = row.touched env.stamp
      ∧ t' = Function.update t row.id (some (row.touched env.stamp)) := by
  unfold repoUpdate
  by_cases hid : row.id = ""
  · -- without a key it is an insertion, and the key is taken
    have htaken : t row.id ≠ none := by
      obtain ⟨old, hold⟩ := Option.ne_none_iff_exists'.mp hlive
      rw [(TaskTable.live_eq_some.mp hold).1]
      exact Option.some_ne_none old
    obtain ⟨err, herr⟩ := hg.create_taken t row env htaken
    rw [hg.save_noKey t row env hid, herr]
    exact ⟨fun h => (nomatch h), fun h => absurd hid h.2.1⟩
  · rw [ok_iff_of_fault (hg.save_fault t row env)
      (fun hf => hg.save_live t row env hf hid hlive), Prod.mk.injEq]
    simp [hid]

theorem repoDelete_ok (hg : g.Documented) :
    repoDelete g t id env = .ok t' ↔ env.fault = false
      ∧ t' = t.modifyLive id (fun row => { row with deletedAt := some env.stamp }) :=
  ok_iff_of_fault (hg.delete_fault t id env) (hg.delete_ok t id env)

theorem repoUndelete_ok (hg : g.Documented) :
    repoUndelete g t row env = .ok t' ↔ env.fault = false
      ∧ t' = t.modify row.id (fun row => { row with deletedAt := none, updatedAt := env.stamp }) :=
  ok_iff_of_fault (hg.updates_fault true t row.id _ env) (hg.updates_unscoped t row.id _ env)

theorem repoUpdateStatus_ok (hg : g.Documented) {enabled paused : Bool} :
    repoUpdateStatus g t id enabled paused env = .ok t' ↔ env.fault = false
      ∧ t' = t.modifyLive id
        (fun row => (row.withStatus enabled paused env.now).touched env.stamp) :=
  ok_iff_of_fault (hg.updates_fault false t id _ env) (hg.updates_ok t id _ env)

/-- `UpdateStatus` of a live row. -/
theorem repoUpdateStatus_live (hg : g.Documented) (hf : env.fault = false)
    (hlive : t.live id = some row) (enabled paused : Bool) :
    repoUpdateStatus g t id enabled paused env
      = .ok (Function.update t id (some (row.written enabled paused env))) := by
  refine (repoUpdateStatus_ok hg).mpr ⟨hf, ?_⟩
  rw [TaskTable.modifyLive_live hlive]
  rfl

/-- `UpdateStatus` of a row that has just been written. -/
theorem repoUpdateStatus_update (hg : g.Documented) (hf : env.fault = false)
    (hdel : row.deletedAt = none) (enabled paused : Bool) :
    repoUpdateStatus g (Function.update t id (some row)) id enabled paused env
      = .ok (Function.update t id (some (row.written enabled paused env))) := by
  rw [repoUpdateStatus_live hg hf (TaskTable.live_update hdel t id), Function.update_idem]

/-- `Delete` of a row that has just been written. -/
theorem repoDelete_update (hg : g.Documented) (hf : env.fault = false)
    (hdel : row.deletedAt = none) :
    repoDelete g (Function.update t id (some row)) id env
      = .ok (Function.update t id (some { row with deletedAt := some env.stamp })) := by
  refine (repoDelete_ok hg).mpr ⟨hf, ?_⟩
  rw [TaskTable.modifyLive_live (TaskTable.live_update hdel t id), Function.update_idem]

end Succeeds

end Timewheel
