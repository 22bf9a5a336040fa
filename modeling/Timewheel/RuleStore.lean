import Timewheel.Rollback
import Timewheel.Service

/-!
# The store of the rules

`GormTaskStore` keeps a task as a row of `alert_rules`, with the durations in
milliseconds and the two maps as texts. A wheel with automatic restoring loads
the enabled rows when it is started and hands each task to `AddTask`.

Of what was saved, `loadEnabled_perm` says what comes back: the same tasks, in
some order, with their durations cut to milliseconds and without the function
to run, for which the table has no column. `AddTask` refuses a task without a
function, and `restored_iff` draws the consequence.

The database and `encoding/json` are not part of the program. The table is a
list of rows that are found as they were written, in any order, and what the
store needs of `json` is a parameter.
-/

namespace Timewheel.TaskStore

open TimeWheel (AddEnv checkTask)

/-! ## Rows -/

/-- `AlertRuleModel`, without the times of creation and of the last update,
which nothing reads. -/
structure AlertRuleModel where
  id : String
  mode : ℤ
  intervalMs : ℤ
  priority : ℤ
  severity : ℤ
  forDurationMs : ℤ
  repeatIntervalMs : ℤ
  times : ℤ
  timeoutMs : ℤ
  description : String
  labels : String
  annotations : String
  enabled : ℤ
  deriving DecidableEq, Repr

/-- What the store uses of `encoding/json`, for maps of strings. `unmarshal` is
what the map holds after the text has been decoded into it, whether or not that
ended in an error, which is only logged. -/
structure Json where
  marshal : StringMap → Except Err String
  unmarshal : String → StringMap → StringMap

/-- The map is read back as it was written, into a map that is empty. -/
def Json.RoundTrips (json : Json) (m : StringMap) : Prop :=
  ∃ text, json.marshal m = .ok text ∧ text ≠ "" ∧ json.unmarshal text (some []) = m

/-- The `int` a mode is. -/
def modeInt : TaskMode → ℤ
  | .repeated => 0
  | .once => 1
  | .fixedTimes => 2
  | .other n => n

/-- The model `Save` makes of a task, with the texts of its maps. -/
def toModel (task : Task) (labels annotations : String) : AlertRuleModel where
  id := task.id
  mode := modeInt task.mode
  intervalMs := task.interval.milliseconds
  priority := task.priority
  severity := task.severity
  forDurationMs := task.forDuration.milliseconds
  repeatIntervalMs := task.repeatInterval.milliseconds
  times := task.times
  timeoutMs := task.timeout.milliseconds
  description := task.description
  labels := labels
  annotations := annotations
  enabled := 1

/-- `db.Save`: the row with the primary key of the model is overwritten, and if
there is none the row is inserted. -/
def upsert (rows : List AlertRuleModel) (m : AlertRuleModel) : List AlertRuleModel :=
  if m.id ∈ rows.map AlertRuleModel.id then rows.map (fun r => if r.id = m.id then m else r)
  else rows ++ [m]

/-- `GormTaskStore.Save`; a nil task is `none`, and so is a nil error. `dbErr`
is the error of the database. -/
def save (json : Json) (rows : List AlertRuleModel) (task : Option Task) (dbErr : Option Err) :
    Option Err × List AlertRuleModel :=
  match task with
  | none => (some .invalidParam, rows)
  | some task =>
    match json.marshal task.labels with
    | .error err => (some (.wrap ("marshal labels for task " ++ task.id) err), rows)
    | .ok labels =>
      match json.marshal task.annotations with
      | .error err => (some (.wrap ("marshal annotations for task " ++ task.id) err), rows)
      | .ok annotations =>
        match dbErr with
        | some err => (some err, rows)
        | none => (none, upsert rows (toModel task labels annotations))

/-- A call of `Save` that returns nil. -/
def saveStep (json : Json) (rows : List AlertRuleModel) (task : Task) :
    Option (List AlertRuleModel) :=
  match save json rows (some task) none with
  | (none, rows) => some rows
  | (some _, _) => none

/-- `found` answers the query of `loadTasks`. -/
def Query (enabledOnly : Bool) (rows found : List AlertRuleModel) : Prop :=
  found.Perm (if enabledOnly then rows.filter (fun m => m.enabled = 1) else rows)

/-- The map `loadTasks` reads from a text; it starts with an empty one. -/
def readMap (json : Json) (text : String) : StringMap :=
  if text ≠ "" then json.unmarshal text (some []) else some []

/-- The task `loadTasks` makes of a row. -/
def loadTask (json : Json) (m : AlertRuleModel) : Task where
  id := m.id
  mode := TaskMode.ofInt m.mode
  priority := m.priority
  interval := durationOfMs m.intervalMs
  times := m.times
  run := none
  description := m.description
  timeout := durationOfMs m.timeoutMs
  severity := m.severity
  forDuration := durationOfMs m.forDurationMs
  repeatInterval := durationOfMs m.repeatIntervalMs
  labels := readMap json m.labels
  annotations := readMap json m.annotations

/-- `loadTasks`, for what the database answers. -/
def loadTasks (json : Json) (found : Except Err (List AlertRuleModel)) : Except Err (List Task) :=
  match found with
  | .error err => .error err
  | .ok models => .ok (models.map (loadTask json))

/-! ## Restoring -/

/-- `restoreTasks`: what `LoadEnabled` returned is added, task by task. What a
call of `AddTask` returns is only logged. -/
def restoreTasks (cfg : Config) (w : TimeWheel) (loaded : Except Err (List Task))
    (envs : ℕ → AddEnv) : TimeWheel :=
  match loaded with
  | .error _ => w
  | .ok tasks =>
    tasks.zipIdx.foldl (fun w p => (w.addTask cfg (some p.1) (envs p.2)).2) w

/-- `w` is a wheel that was started with automatic restoring, after the tasks
had been saved to an empty store and each `Save` had returned nil. -/
def Restarted (json : Json) (cfg : Config) (tasks : List Task) (w : TimeWheel) : Prop :=
  ∃ rows found w₀ envs, Machine.run (saveStep json) [] tasks = some rows
    ∧ Query true rows found ∧ Started cfg w₀
    ∧ w = restoreTasks cfg w₀ (loadTasks json (.ok found)) envs

/-- Two tasks have the same settings. -/
structure SameSettings (t t' : Task) : Prop where
  mode : t'.mode = t.mode
  interval : t'.interval = t.interval
  times : t'.times = t.times
  priority : t'.priority = t.priority
  timeout : t'.timeout = t.timeout
  severity : t'.severity = t.severity
  forDuration : t'.forDuration = t.forDuration
  repeatInterval : t'.repeatInterval = t.repeatInterval
  description : t'.description = t.description
  labels : t'.labels = t.labels
  annotations : t'.annotations = t.annotations

/-- **The saved tasks are back**: their IDs are the ones registered, each for a
task with the settings that were saved. -/
structure Restored (cfg : Config) (tasks : List Task) (w : TimeWheel) : Prop where
  ids : ∀ id, w.lookup cfg id ≠ none ↔ id ∈ tasks.map Task.id
  settings : ∀ t ∈ tasks, ∃ n t', w.lookup cfg t.id = some n ∧ (w.heap n).task = some t'
    ∧ SameSettings t t'

variable {json : Json} {cfg : Config} {w : TimeWheel} {t : Task} {tasks : List Task}
  {rows rows' found : List AlertRuleModel} {m : AlertRuleModel} {d : ℤ}

/-! ## What the table holds -/

/-- `m` is the row of the task. -/
def RowOf (json : Json) (t : Task) (m : AlertRuleModel) : Prop :=
  ∃ labels annotations, json.marshal t.labels = .ok labels
    ∧ json.marshal t.annotations = .ok annotations ∧ m = toModel t labels annotations

theorem RowOf.id_eq (h : RowOf json t m) : m.id = t.id := by
  obtain ⟨_, _, -, -, rfl⟩ := h
  rfl

theorem RowOf.enabled_eq (h : RowOf json t m) : m.enabled = 1 := by
  obtain ⟨_, _, -, -, rfl⟩ := h
  rfl

/-- A `Save` that returns nil writes the row of the task. -/
theorem saveStep_eq (h : saveStep json rows t = some rows') :
    ∃ m, RowOf json t m ∧ rows' = upsert rows m := by
  unfold saveStep save at h
  dsimp only at h
  cases hlabels : json.marshal t.labels with
  | error err =>
    rw [hlabels] at h
    cases h
  | ok labels =>
    rw [hlabels] at h
    dsimp only at h
    cases hannotations : json.marshal t.annotations with
    | error err =>
      rw [hannotations] at h
      cases h
    | ok annotations =>
      rw [hannotations] at h
      obtain rfl := Option.some.inj h
      exact ⟨_, ⟨labels, annotations, hlabels, hannotations, rfl⟩, rfl⟩

/-- **A row for each task**, in the order they were saved: with distinct IDs no
row is overwritten. -/
theorem rows_of_saved (hids : (tasks.map Task.id).Nodup)
    (hnew : ∀ t ∈ tasks, t.id ∉ rows.map AlertRuleModel.id)
    (h : Machine.run (saveStep json) rows tasks = some rows') :
    ∃ new, rows' = rows ++ new ∧ List.Forall₂ (RowOf json) tasks new := by
  induction tasks generalizing rows with
  | nil =>
    obtain rfl := Option.some.inj h
    exact ⟨[], (List.append_nil _).symm, .nil⟩
  | cons t tasks ih =>
    rw [Machine.run_cons] at h
    obtain ⟨rows₁, hstep, hrun⟩ := Option.bind_eq_some_iff.mp h
    obtain ⟨m, hrow, rfl⟩ := saveStep_eq hstep
    have hinsert : upsert rows m = rows ++ [m] := by
      unfold upsert
      rw [if_neg (hrow.id_eq ▸ hnew t List.mem_cons_self)]
    rw [hinsert] at hrun
    rw [List.map_cons, List.nodup_cons] at hids
    have hnew' : ∀ u ∈ tasks, u.id ∉ (rows ++ [m]).map AlertRuleModel.id := by
      intro u hu hmem
      rw [List.map_append, List.mem_append] at hmem
      rcases hmem with hmem | hmem
      · exact hnew u (List.mem_cons_of_mem _ hu) hmem
      · have huid : u.id = m.id := List.mem_singleton.mp hmem
        exact hids.1 (hrow.id_eq ▸ huid ▸ List.mem_map_of_mem hu)
    obtain ⟨new, rfl, hnew⟩ := ih hids.2 hnew' hrun
    exact ⟨m :: new, by rw [List.append_assoc, List.singleton_append], .cons hrow hnew⟩

/-! ## What is loaded -/

/-- A duration as the store gives it back. -/
def storedDuration (d : Duration) : Duration := durationOfMs d.milliseconds

/-- A task as the store gives it back. -/
def stored (t : Task) : Task :=
  { t with
    mode := TaskMode.ofInt (modeInt t.mode)
    interval := storedDuration t.interval
    timeout := storedDuration t.timeout
    forDuration := storedDuration t.forDuration
    repeatInterval := storedDuration t.repeatInterval
    run := none }

/-- A `time.Duration` has 64 bits. -/
def Fits (d : ℤ) : Prop := -2 ^ 63 ≤ d ∧ d < 2 ^ 63

/-- Of a duration of 64 bits the whole milliseconds are left. -/
theorem storedDuration_eq (hd : Fits d) : storedDuration d = d.tdiv 1000000 * 1000000 := by
  obtain ⟨hlo, hhi⟩ := hd
  have habs : (d.tdiv 1000000 * 1000000).natAbs ≤ d.natAbs := by
    rw [Int.natAbs_mul, Int.natAbs_tdiv]
    exact Nat.div_mul_le_self _ _
  -- `-2 ^ 63` has no positive counterpart: the sign is kept as well
  have hsign : d ≤ 0 → d.tdiv 1000000 * 1000000 ≤ 0 := by
    intro hd
    have hneg : 0 ≤ (-d).tdiv 1000000 := Int.tdiv_nonneg (by omega) (by decide)
    rw [Int.neg_tdiv] at hneg
    omega
  unfold storedDuration durationOfMs Duration.milliseconds
  show (d.tdiv 1000000 * 1000000).bmod (2 ^ 64) = _
  generalize d.tdiv 1000000 * 1000000 = e at habs hsign
  rw [Int.bmod_eq_iff (by decide)]
  push_cast
  omega

/-- **A duration comes back exactly if it is in whole milliseconds.** -/
theorem storedDuration_eq_iff (hd : Fits d) :
    storedDuration d = d ↔ Duration.millisecond ∣ d := by
  rw [storedDuration_eq hd]
  constructor
  · intro h
    exact ⟨d.tdiv 1000000, by rw [Int.mul_comm]; exact h.symm⟩
  · intro h
    exact Int.tdiv_mul_cancel h

/-- A map that has been marshalled is read back. -/
theorem readMap_of_marshal {s : StringMap} {text : String} (hmap : json.RoundTrips s)
    (h : json.marshal s = .ok text) : readMap json text = s := by
  obtain ⟨text', hmarshal, hne, hunmarshal⟩ := hmap
  obtain rfl := Except.ok.inj (hmarshal.symm.trans h)
  unfold readMap
  rw [if_pos hne, hunmarshal]

/-- The task loaded from a row. -/
theorem RowOf.loadTask (h : RowOf json t m) (hlabels : json.RoundTrips t.labels)
    (hannotations : json.RoundTrips t.annotations) : loadTask json m = stored t := by
  obtain ⟨labels, annotations, hl, ha, rfl⟩ := h
  unfold TaskStore.loadTask toModel stored storedDuration
  dsimp only
  rw [readMap_of_marshal hlabels hl, readMap_of_marshal hannotations ha]

/-- **What `LoadEnabled` gives back**: of tasks with distinct IDs each once, as
stored. -/
theorem loadEnabled_perm (hids : (tasks.map Task.id).Nodup)
    (hmaps : ∀ t ∈ tasks, json.RoundTrips t.labels ∧ json.RoundTrips t.annotations)
    (hsaved : Machine.run (saveStep json) [] tasks = some rows) (hfound : Query true rows found) :
    ∃ loaded, loadTasks json (.ok found) = .ok loaded ∧ loaded.Perm (tasks.map stored) := by
  refine ⟨_, rfl, (hfound.map (loadTask json)).trans ?_⟩
  obtain ⟨new, hnew, hrows⟩ := rows_of_saved hids (fun _ _ => List.not_mem_nil) hsaved
  rw [List.nil_append] at hnew
  subst hnew
  rw [if_pos rfl]
  clear hids hsaved hfound
  induction hrows with
  | nil => exact .nil
  | @cons t m tasks new hrow hrest ih =>
    obtain ⟨hlabels, hannotations⟩ := hmaps t List.mem_cons_self
    rw [List.filter_cons_of_pos (by rw [hrow.enabled_eq]; decide), List.map_cons, List.map_cons,
      hrow.loadTask hlabels hannotations]
    exact (ih (fun t ht => hmaps t (List.mem_cons_of_mem _ ht))).cons _

/-- **A task comes back with its settings exactly if its durations are in whole
milliseconds**; its mode is one of the three once `AddTask` has seen it. -/
theorem sameSettings_stored_iff (hmode : ∀ n, t.mode ≠ .other n) (hinterval : Fits t.interval)
    (htimeout : Fits t.timeout) (hfor : Fits t.forDuration) (hrepeat : Fits t.repeatInterval) :
    SameSettings t (stored t) ↔ Duration.millisecond ∣ t.interval
      ∧ Duration.millisecond ∣ t.timeout ∧ Duration.millisecond ∣ t.forDuration
      ∧ Duration.millisecond ∣ t.repeatInterval := by
  have hback : TaskMode.ofInt (modeInt t.mode) = t.mode := by
    cases hm : t.mode with
    | repeated => rfl
    | once => rfl
    | fixedTimes => rfl
    | other n => exact absurd hm (hmode n)
  rw [← storedDuration_eq_iff hinterval, ← storedDuration_eq_iff htimeout,
    ← storedDuration_eq_iff hfor, ← storedDuration_eq_iff hrepeat]
  constructor
  · intro h
    exact ⟨h.interval, h.timeout, h.forDuration, h.repeatInterval⟩
  · rintro ⟨hi, ht, hf, hr⟩
    exact ⟨hback, hi, rfl, rfl, ht, rfl, hf, hr, rfl, rfl, rfl⟩

/-! ## What is restored -/

/-- `AddTask` refuses a task without a function. -/
theorem addTask_of_run_none (hrun : t.run = none) (env : AddEnv) :
    w.addTask cfg (some t) env = (some .invalidParam, w) := by
  have hcheck : checkTask t = .error .invalidParam := by
    unfold checkTask
    by_cases hid : t.id = ""
    · rw [if_pos hid]
    · rw [if_neg hid, if_pos hrun]
  unfold TimeWheel.addTask
  dsimp only
  rw [hcheck]

/-- **Restoring changes nothing**, whatever the table holds. -/
theorem restoreTasks_eq (found : Except Err (List AlertRuleModel)) (envs : ℕ → AddEnv) :
    restoreTasks cfg w (loadTasks json found) envs = w := by
  cases found with
  | error err => rfl
  | ok models =>
    unfold restoreTasks loadTasks
    dsimp only
    generalize 0 = i
    induction models generalizing i with
    | nil => rfl
    | cons m models ih =>
      rw [List.map_cons, List.zipIdx_cons, List.foldl_cons, addTask_of_run_none rfl]
      exact ih (i + 1)

/-- After a restart no task is registered. -/
theorem Restarted.lookup (h : Restarted json cfg tasks w) (id : String) :
    w.lookup cfg id = none := by
  obtain ⟨rows, found, w₀, envs, -, -, hstarted, rfl⟩ := h
  rw [restoreTasks_eq]
  exact lookup_of_started hstarted id

/-! ### An example -/

/-- `encoding/json` on a map that is nil or empty. -/
def jsonOfEmpty : Json where
  marshal m := .ok (if m = none then "null" else "{}")
  unmarshal text m := if text = "null" then none else m

/-- A task without labels, every 10 ms. -/
def everyTenMs : Task := Task.plain "a" .repeated (Duration.ofMilli 10)

/-- The small wheel, started on the store of these tasks. -/
theorem restarted_fourSlotWheel
    (h : Machine.run (saveStep jsonOfEmpty) [] tasks = some rows)
    (henabled : rows.filter (fun m => m.enabled = 1) = rows) :
    Restarted jsonOfEmpty fourSlots tasks fourSlotWheel :=
  ⟨rows, rows, fourSlotWheel, fun _ => ⟨Time.zero, none, ⟨Time.zero, [], []⟩, true⟩, h,
    .of_eq (by rw [if_pos rfl, henabled]), started_fourSlotWheel, (restoreTasks_eq _ _).symm⟩

/-! ## Which tasks are restored -/

/-- **The saved tasks are back exactly if there are none.** -/
theorem restored_iff (h : Restarted json cfg tasks w) : Restored cfg tasks w ↔ tasks = [] := by
  constructor
  · intro hback
    cases tasks with
    | nil => rfl
    | cons t tasks =>
      obtain ⟨n, _, hlookup, -, -⟩ := hback.settings t List.mem_cons_self
      rw [h.lookup] at hlookup
      cases hlookup
  · rintro rfl
    refine ⟨fun id => ⟨fun hid => absurd (h.lookup id) hid, ?_⟩, fun _ ht => ?_⟩
    · exact fun hid => absurd hid List.not_mem_nil
    · exact absurd ht List.not_mem_nil

/-- With nothing saved, nothing is registered. -/
theorem restored_of_noneSaved :
    Restarted jsonOfEmpty fourSlots [] fourSlotWheel ∧ Restored fourSlots [] fourSlotWheel :=
  ⟨restarted_fourSlotWheel rfl rfl, (restored_iff (restarted_fourSlotWheel rfl rfl)).mpr rfl⟩

/-- An accepted task is saved, its maps are read back as they were written, its
durations are in whole milliseconds, and it is not registered after the
restart. -/
theorem not_restored_of_saved :
    rejects everyTenMs = false
      ∧ jsonOfEmpty.RoundTrips everyTenMs.labels ∧ jsonOfEmpty.RoundTrips everyTenMs.annotations
      ∧ SameSettings everyTenMs (stored everyTenMs)
      ∧ Restarted jsonOfEmpty fourSlots [everyTenMs] fourSlotWheel
      ∧ fourSlotWheel.lookup fourSlots "a" = none
      ∧ ¬ Restored fourSlots [everyTenMs] fourSlotWheel := by
  have hlookup : fourSlotWheel.lookup fourSlots "a" = none :=
    lookup_of_started started_fourSlotWheel "a"
  refine ⟨by decide, ⟨"null", rfl, by decide, rfl⟩, ⟨"null", rfl, by decide, rfl⟩,
    ⟨rfl, rfl, rfl, rfl, rfl, rfl, rfl, rfl, rfl, rfl, rfl⟩,
    restarted_fourSlotWheel (by decide : _ = some [toModel everyTenMs "null" "null"]) rfl,
    hlookup, ?_⟩
  intro h
  exact (h.ids "a").mpr List.mem_cons_self hlookup

end Timewheel.TaskStore
