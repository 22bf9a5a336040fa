import Timewheel.HistoryStore

/-!
# The history manager

`AlertHistoryManager` keeps the alert history in memory and in one file. The
file is read once, when the manager is made; it is written as a whole, by
`Close` and by every `Record` from the thousandth record on, without the records
that have expired. `Record` drops the oldest record when there are `maxSize` of
them.

Two things go wrong. JSON has no numbers for NaN and the infinities, and one
record with such a value keeps the whole history from being written:
`survives_iff` says that a history survives a restart exactly if it holds no such
record when it is closed. And nothing limits what is read from the file, while
`Record` drops one record for every one it adds: `bounded_iff` says which files
leave more than `maxSize` records in memory.

The manager and its file form the state of the runs, and three properties are
invariants of the calls: the settings stay as they are, the file is one that a
manager has written, and the history is bounded by what was read
(`inv_of_historyStep` is the rule they share). What a restart brings back is
then a matter of one `Close`.
-/

namespace Timewheel

/-! ## Records and their texts -/

/-- The float is neither NaN nor an infinity. The exponent has all its bits set
otherwise. -/
def isFinite (bits : UInt64) : Bool := (bits >>> 52) &&& 0x7FF != 0x7FF

/-- The record has a JSON text. JSON has no others. -/
def HistoryStore.AlertHistory.encodable (h : HistoryStore.AlertHistory) : Bool :=
  isFinite h.value && isFinite h.threshold

/-- What the manager uses of the libraries: `json.Marshal` of a map of strings,
`json.MarshalIndent` and `json.Unmarshal` of a history, and `AddDate(0, 0,
-days)` in the zone of the clock. What a file holds is of the type `T`. None of
them is modelled any further. -/
structure HistoryLibs (T : Type) where
  marshal : StringMap → Option String
  marshalIndent : List HistoryStore.AlertHistory → Option T
  unmarshal : T → Option (List HistoryStore.AlertHistory)
  daysBefore : ℤ → Time → Time

/-- What is documented of them: the only histories without a text are those with
a float that is not a number, and a text is read back as what it was made of.
Nothing is assumed of texts that no manager has written. -/
structure HistoryLibs.Documented {T : Type} (libs : HistoryLibs T) : Prop where
  fails : ∀ history, libs.marshalIndent history = none ↔ ∃ h ∈ history, h.encodable = false
  roundTrip : ∀ history text, libs.marshalIndent history = some text →
    libs.unmarshal text = some history

/-- What the manager writes to its file. Other programs may have written
something else to it. -/
def HistoryLibs.Writes {T : Type} (libs : HistoryLibs T) (text : T) : Prop :=
  ∃ history, libs.marshalIndent history = some text

/-- The record has not expired at `now`. The comparison is the strict one of the
code. -/
def HistoryLibs.keeps {T : Type} (libs : HistoryLibs T) (retentionDays : ℤ) (now : Time)
    (h : HistoryStore.AlertHistory) : Bool :=
  libs.daysBefore retentionDays now < h.timestamp

/-! ## The manager -/

/-- `DefaultMaxHistorySize`. -/
def defaultMaxHistorySize : ℕ := 10000

/-- `AutoPersistThreshold`. -/
def autoPersistThreshold : ℕ := 1000

/-- `AlertHistoryManager`. The flag says that the file has been read or
written. -/
structure AlertHistoryManager where
  history : List HistoryStore.AlertHistory
  filePath : String
  retentionDays : ℤ
  persisted : Bool
  maxSize : ℤ
  deriving DecidableEq, Repr

/-- The arguments of `Record`, and what the clock says in it and, if the history
is written, when it is. The two readings of the clock may differ. -/
structure RecordCall where
  taskID : String
  oldState : ℤ
  newState : ℤ
  result : AlarmResult
  severity : Severity
  labels : StringMap
  annotations : StringMap
  now : Time
  persistNow : Time

section Manager

variable {T : Type} (libs : HistoryLibs T)

/-- The record `Record` makes. Labels that cannot be marshalled are stored as an
empty map. -/
def RecordCall.alertHistory (c : RecordCall) : HistoryStore.AlertHistory where
  taskID := c.taskID
  state := c.newState
  oldState := c.oldState
  timestamp := c.now
  value := c.result.value
  threshold := c.result.threshold
  isFiring := c.result.isFiring
  severity := c.severity
  labels := (libs.marshal c.labels).getD "{}"
  annotations := (libs.marshal c.annotations).getD "{}"

namespace AlertHistoryManager

/-- `load`; `none` is a file that cannot be read. A file that is not a history
counts as an empty one. -/
def load (m : AlertHistoryManager) (file : Option T) : AlertHistoryManager :=
  if m.filePath = "" then m
  else
    match file with
    | none => m
    | some text =>
      match libs.unmarshal text with
      | none => { m with history := [], persisted := true }
      | some history => { m with history := history, persisted := true }

/-- `persist`: the manager and the file. When it cannot be written, the expired
records are gone from memory all the same. -/
def persist (m : AlertHistoryManager) (file : Option T) (now : Time) :
    AlertHistoryManager × Option T :=
  if m.filePath = "" then (m, file)
  else
    let m := { m with
      persisted := true
      history := m.history.filter (libs.keeps m.retentionDays now) }
    match libs.marshalIndent m.history with
    | none => (m, file)
    | some text => (m, some text)

/-- The part of `Record` that adds the record. One record is dropped for one
that is added, however many there are. -/
def appended (m : AlertHistoryManager) (record : HistoryStore.AlertHistory) : AlertHistoryManager :=
  let history := if m.maxSize > 0 ∧ m.history.length ≥ m.maxSize then m.history.tail else m.history
  { m with history := history ++ [record] }

/-- `Record`. -/
def record (m : AlertHistoryManager) (file : Option T) (c : RecordCall) :
    AlertHistoryManager × Option T :=
  let m := m.appended (c.alertHistory libs)
  if m.history.length ≥ autoPersistThreshold then m.persist libs file c.persistNow else (m, file)

/-- `GetHistory`. The newest ones are kept if there is a limit. -/
def getHistory (m : AlertHistoryManager) (taskID : String) (limit : ℤ) :
    List HistoryStore.AlertHistory :=
  let result := m.history.filter (fun h => taskID == "" || h.taskID == taskID)
  if limit > 0 ∧ result.length > limit then result.drop (result.length - limit.toNat) else result

/-- `Close`. -/
def close (m : AlertHistoryManager) (file : Option T) (now : Time) :
    AlertHistoryManager × Option T :=
  m.persist libs file now

/-- `Count`. -/
def count (m : AlertHistoryManager) : ℕ := m.history.length

/-- What is got of a history is part of it, in its order. No record is made up. -/
theorem getHistory_sublist (m : AlertHistoryManager) (taskID : String) (limit : ℤ) :
    (m.getHistory taskID limit).Sublist m.history := by
  unfold getHistory
  dsimp only
  split
  · exact (List.drop_sublist _ _).trans List.filter_sublist
  · exact List.filter_sublist

end AlertHistoryManager

/-- `NewAlertHistoryManager`. The size is the default. -/
def newAlertHistoryManager (filePath : String) (retentionDays : ℤ) (file : Option T) :
    AlertHistoryManager :=
  let mgr : AlertHistoryManager := ⟨[], filePath, retentionDays, false, defaultMaxHistorySize⟩
  if filePath ≠ "" then mgr.load libs file else mgr

/-! ### Runs -/

/-- A call of the manager. Each takes the lock of the manager. -/
inductive HistoryCall where
  | record (c : RecordCall)
  | getHistory (taskID : String) (limit : ℤ)
  | close (now : Time)

/-- A manager and its file. -/
structure HistoryState (T : Type) where
  manager : AlertHistoryManager
  file : Option T

/-- The state in which a manager has just been made. -/
def HistoryState.new (filePath : String) (retentionDays : ℤ) (file : Option T) : HistoryState T :=
  ⟨newAlertHistoryManager libs filePath retentionDays file, file⟩

/-- One call. Reading the history changes nothing. -/
def HistoryState.step (s : HistoryState T) : HistoryCall → Option (HistoryState T)
  | .record c =>
    let r := s.manager.record libs s.file c
    some ⟨r.1, r.2⟩
  | .getHistory _ _ => some s
  | .close now =>
    let r := s.manager.close libs s.file now
    some ⟨r.1, r.2⟩

variable {libs} {m : AlertHistoryManager} {file : Option T} {filePath : String}
  {retentionDays : ℤ} {s s' : HistoryState T}

/-! ## What the calls do -/

/-- **What `persist` does**: the expired records go, and the file is written if
what is left has a text. This is all it does. -/
theorem persist_eq (hpath : m.filePath ≠ "") (now : Time) :
    m.persist libs file now
      = ({ m with
            persisted := true
            history := m.history.filter (libs.keeps m.retentionDays now) },
          (libs.marshalIndent (m.history.filter (libs.keeps m.retentionDays now))).or file) := by
  unfold AlertHistoryManager.persist
  rw [if_neg hpath]
  dsimp only
  cases libs.marshalIndent (m.history.filter (libs.keeps m.retentionDays now)) <;> rfl

/-- Without a file there is nothing to do. -/
theorem persist_of_no_path (hpath : m.filePath = "") (now : Time) :
    m.persist libs file now = (m, file) := if_pos hpath

/-- What a new manager has read. A file that cannot be read leaves it empty. -/
theorem new_history (hpath : filePath ≠ "") :
    (newAlertHistoryManager libs filePath retentionDays file).history
      = (file.bind libs.unmarshal).getD [] := by
  unfold newAlertHistoryManager AlertHistoryManager.load
  dsimp only
  rw [if_pos hpath, if_neg hpath]
  cases file with
  | none => rfl
  | some text =>
    rw [Option.bind_some]
    dsimp only
    cases libs.unmarshal text <;> rfl

/-- **The rule of the calls**: what adding a record and `persist` keep is kept
by every call. `Record` and `Close` are made of these two. -/
theorem inv_of_historyStep {P : AlertHistoryManager → Option T → Prop}
    (happend : ∀ m file record, P m file → P (m.appended record) file)
    (hpersist : ∀ m file now, P m file →
      P (m.persist libs file now).1 (m.persist libs file now).2)
    {call : HistoryCall} (h : P s.manager s.file) (hstep : s.step libs call = some s') :
    P s'.manager s'.file := by
  cases call with
  | record c =>
    obtain rfl := Option.some.inj hstep
    have hadded := happend s.manager s.file (c.alertHistory libs) h
    unfold AlertHistoryManager.record
    dsimp only
    split
    · exact hpersist _ _ _ hadded
    · exact hadded
  | getHistory taskID limit =>
    obtain rfl := Option.some.inj hstep
    exact h
  | close now =>
    obtain rfl := Option.some.inj hstep
    exact hpersist _ _ _ h

/-- The settings of a manager. -/
structure AlertHistoryManager.Configured (m : AlertHistoryManager) (filePath : String)
    (retentionDays : ℤ) : Prop where
  filePath : m.filePath = filePath
  retentionDays : m.retentionDays = retentionDays
  maxSize : m.maxSize = defaultMaxHistorySize

/-- A new manager has the settings it was made with, -/
theorem configured_newManager :
    (newAlertHistoryManager libs filePath retentionDays file).Configured filePath
      retentionDays := by
  have hload : ∀ m : AlertHistoryManager, m.Configured filePath retentionDays →
      (m.load libs file).Configured filePath retentionDays := by
    intro m h
    unfold AlertHistoryManager.load
    split
    · exact h
    · split
      · exact h
      · split <;> exact ⟨h.filePath, h.retentionDays, h.maxSize⟩
  unfold newAlertHistoryManager
  dsimp only
  split
  · exact hload _ ⟨rfl, rfl, rfl⟩
  · exact ⟨rfl, rfl, rfl⟩

/-- so has a state with a new manager, -/
theorem configured_new :
    (HistoryState.new libs filePath retentionDays file).manager.Configured filePath
      retentionDays := configured_newManager

/-- and writing the file leaves them as they are. -/
theorem configured_persist (h : m.Configured filePath retentionDays) (now : Time) :
    (m.persist libs file now).1.Configured filePath retentionDays := by
  by_cases hpath : m.filePath = ""
  · rw [persist_of_no_path hpath]
    exact h
  · rw [persist_eq hpath]
    exact ⟨h.filePath, h.retentionDays, h.maxSize⟩

/-- No call changes the settings. -/
theorem configured_step {call : HistoryCall} (h : s.manager.Configured filePath retentionDays)
    (hstep : s.step libs call = some s') : s'.manager.Configured filePath retentionDays :=
  inv_of_historyStep (P := fun m _ => m.Configured filePath retentionDays)
    (fun _ _ _ h => ⟨h.filePath, h.retentionDays, h.maxSize⟩)
    (fun _ _ now h => configured_persist h now) h hstep

/-- The file is one a manager has written, if there is one. -/
def HistoryLibs.Wrote (libs : HistoryLibs T) (file : Option T) : Prop :=
  ∀ text ∈ file, libs.Writes text

/-- This holds when there is no file, -/
theorem wrote_none : libs.Wrote none := fun text h => absurd h (Option.not_mem_none text)

/-- and stays so when the file is written. -/
theorem wrote_persist (h : libs.Wrote file) (now : Time) :
    libs.Wrote (m.persist libs file now).2 := by
  by_cases hpath : m.filePath = ""
  · rw [persist_of_no_path hpath]
    exact h
  · rw [persist_eq hpath]
    intro text htext
    rcases Option.or_eq_some_iff.mp htext with hwritten | ⟨-, hold⟩
    · exact ⟨_, hwritten⟩
    · exact h text hold

/-- No call makes it another's. What is written is always a history. -/
theorem wrote_step {call : HistoryCall} (h : libs.Wrote s.file)
    (hstep : s.step libs call = some s') : libs.Wrote s'.file :=
  inv_of_historyStep (P := fun _ file => libs.Wrote file) (fun _ _ _ h => h)
    (fun _ _ now h => wrote_persist h now) h hstep

/-! ## A restart -/

/-- What is written has no record without a text. It would have had no text
then. -/
theorem encodable_of_wrote (hlibs : libs.Documented) (h : libs.Wrote file) :
    ∀ h ∈ (file.bind libs.unmarshal).getD [], h.encodable = true := by
  cases file with
  | none => exact fun _ hmem => absurd hmem List.not_mem_nil
  | some text =>
    obtain ⟨history, htext⟩ := h text rfl
    rw [Option.bind_some, hlibs.roundTrip history text htext]
    intro h hmem
    by_contra hne
    have hnone := (hlibs.fails history).mpr ⟨h, hmem, Bool.eq_false_of_not_eq_true hne⟩
    rw [htext] at hnone
    exact Option.some_ne_none text hnone

/-- **What a new manager reads after `Close`** is what was left at `Close`
exactly if all of it has a text. If one record has no text, the file stays as it
was before. -/
theorem survives_close_iff (hlibs : libs.Documented) (hpath : filePath ≠ "")
    (hm : m.Configured filePath retentionDays) (hfile : libs.Wrote file) (now : Time) :
    (newAlertHistoryManager libs filePath retentionDays (m.close libs file now).2).history
        = m.history.filter (libs.keeps retentionDays now)
      ↔ ∀ h ∈ m.history, libs.keeps retentionDays now h = true → h.encodable = true := by
  rw [new_history hpath, AlertHistoryManager.close, persist_eq (hm.filePath ▸ hpath),
    hm.retentionDays]
  dsimp only
  cases htext : libs.marshalIndent (m.history.filter (libs.keeps retentionDays now)) with
  | some text =>
    rw [Option.some_or, Option.bind_some, hlibs.roundTrip _ text htext]
    refine iff_of_true rfl (fun h hmem hkeeps => ?_)
    by_contra hne
    have hnone := (hlibs.fails _).mpr
      ⟨h, List.mem_filter.mpr ⟨hmem, hkeeps⟩, Bool.eq_false_of_not_eq_true hne⟩
    rw [htext] at hnone
    exact Option.some_ne_none text hnone
  | none =>
    obtain ⟨h, hmem, hnot⟩ := (hlibs.fails _).mp htext
    rw [Option.none_or]
    refine iff_of_false (fun heq => ?_) (fun hall => ?_)
    · have hok := encodable_of_wrote hlibs hfile h (heq.symm ▸ hmem)
      exact Bool.false_ne_true (hnot.symm.trans hok)
    · obtain ⟨hin, hkeeps⟩ := List.mem_filter.mp hmem
      exact Bool.false_ne_true (hnot.symm.trans (hall h hin hkeeps))

/-- **Exactly the histories that survive a restart**, after any calls of a
manager that finds no file or one that a manager has written. On the left stands
what the next manager reads, and on the right a condition on each record that
has not expired. -/
theorem survives_iff (hlibs : libs.Documented) (hpath : filePath ≠ "") (hfile : libs.Wrote file)
    {calls : List HistoryCall}
    (hrun : Machine.run (HistoryState.step libs) (HistoryState.new libs filePath retentionDays file)
      calls = some s) (now : Time) :
    (newAlertHistoryManager libs filePath retentionDays (s.manager.close libs s.file now).2).history
        = s.manager.history.filter (libs.keeps retentionDays now)
      ↔ ∀ h ∈ s.manager.history, libs.keeps retentionDays now h = true → h.encodable = true := by
  have hkeep : ∀ (s : HistoryState T) (call : HistoryCall) (s' : HistoryState T),
      s.manager.Configured filePath retentionDays ∧ libs.Wrote s.file → True →
        s.step libs call = some s' →
          s'.manager.Configured filePath retentionDays ∧ libs.Wrote s'.file :=
    fun _ _ _ h _ hstep => ⟨configured_step h.1 hstep, wrote_step h.2 hstep⟩
  have hinv := Machine.inv_of_run hkeep ⟨configured_new, hfile⟩
    (Machine.each_of_forall (fun _ _ => trivial)) hrun
  exact survives_close_iff hlibs hpath hinv.1 hinv.2 now

end Manager

/-! ### A record that is not a number -/

/-- Libraries for files that are taken for what they stand for, a history or
nothing that can be read, and for a clock without daylight saving time. -/
def plainLibs : HistoryLibs (Option (List HistoryStore.AlertHistory)) where
  marshal := fun labels => if labels.isNone then some "null" else some "{}"
  marshalIndent := fun history =>
    if history.all HistoryStore.AlertHistory.encodable then some (some history) else none
  unmarshal := fun text => text
  daysBefore := fun days now => ((now : ℤ) - days * 86400000000000).toNat

/-- They are as documented. -/
theorem documented_plainLibs : plainLibs.Documented where
  fails := fun history => by
    show (if history.all HistoryStore.AlertHistory.encodable then some (some history) else none)
        = none ↔ _
    rw [ite_eq_right_iff]
    simp
  roundTrip := fun history text htext => by
    obtain ⟨-, hsome⟩ := Option.ite_none_right_eq_some.mp htext
    exact (Option.some.inj hsome).symm

/-- A record of a value, made a number of days after the epoch. -/
def recordOn (day : ℕ) (value : UInt64) : HistoryCall :=
  .record ⟨"a", 0, 1, ⟨value, 0, true⟩, 1, none, none,
    Time.unixEpoch + day * 86400000000000, Time.unixEpoch + day * 86400000000000⟩

/-- `math.NaN()`. -/
def nanBits : UInt64 := 0x7FF8000000000001

/-- The record without a text has expired when the manager is closed. -/
theorem survives_of_expired :
    ∃ s, Machine.run (HistoryState.step plainLibs)
        (HistoryState.new plainLibs "history.json" 30 none)
        [recordOn 10 nanBits, recordOn 50 0] = some s
      ∧ (newAlertHistoryManager plainLibs "history.json" 30
          (s.manager.close plainLibs s.file (Time.unixEpoch + 60 * 86400000000000)).2).history
        = s.manager.history.filter
          (plainLibs.keeps 30 (Time.unixEpoch + 60 * 86400000000000)) := by
  obtain ⟨s, hrun⟩ : ∃ s, Machine.run (HistoryState.step plainLibs)
      (HistoryState.new plainLibs "history.json" 30 none)
      [recordOn 10 nanBits, recordOn 50 0] = some s := ⟨_, rfl⟩
  refine ⟨s, hrun, (survives_iff documented_plainLibs (by decide) wrote_none hrun _).mpr ?_⟩
  obtain rfl := Option.some.inj hrun
  decide +kernel

/-- **One record that is not a number takes the others with it.** -/
theorem not_survives_of_nan :
    plainLibs.Documented ∧ plainLibs.Wrote none
      ∧ ∃ s, Machine.run (HistoryState.step plainLibs)
          (HistoryState.new plainLibs "history.json" 30 none)
          [recordOn 50 0, recordOn 50 nanBits] = some s
        ∧ (newAlertHistoryManager plainLibs "history.json" 30
            (s.manager.close plainLibs s.file (Time.unixEpoch + 60 * 86400000000000)).2).history
          ≠ s.manager.history.filter
            (plainLibs.keeps 30 (Time.unixEpoch + 60 * 86400000000000)) := by
  obtain ⟨s, hrun⟩ : ∃ s, Machine.run (HistoryState.step plainLibs)
      (HistoryState.new plainLibs "history.json" 30 none)
      [recordOn 50 0, recordOn 50 nanBits] = some s := ⟨_, rfl⟩
  refine ⟨documented_plainLibs, wrote_none, s, hrun, ?_⟩
  obtain rfl := Option.some.inj hrun
  decide +kernel

section Manager

variable {T : Type} {libs : HistoryLibs T} {m : AlertHistoryManager} {file : Option T}
  {filePath : String} {retentionDays : ℤ} {s s' : HistoryState T}

/-! ## The size of the history -/

/-- **After every `Record` at most `maxSize` records are held.** -/
def HistoryState.Bounded (_ : HistoryState T) (call : HistoryCall) (s' : HistoryState T) : Prop :=
  match call with
  | .record _ => s'.manager.count ≤ s'.manager.maxSize
  | _ => True

/-- **There is room for what was read from the file** by the time of the first
`Record`: at most `maxSize` records are left by then, or this `Record`, which
drops the oldest one, finds that no more than that many are still to be kept. -/
def FitsAtFirst (libs : HistoryLibs T) (retentionDays : ℤ) :
    List HistoryStore.AlertHistory → List HistoryCall → Prop
  | _, [] => True
  | history, .record c :: _ =>
    history.length ≤ defaultMaxHistorySize
      ∨ (history.tail ++ [c.alertHistory libs]).countP (libs.keeps retentionDays c.persistNow)
        ≤ defaultMaxHistorySize
  | history, .getHistory _ _ :: calls => FitsAtFirst libs retentionDays history calls
  | history, .close now :: calls =>
    FitsAtFirst libs retentionDays (history.filter (libs.keeps retentionDays now)) calls

/-- What is few stays few. -/
theorem fitsAtFirst_of_le {history : List HistoryStore.AlertHistory}
    (h : history.length ≤ defaultMaxHistorySize) (calls : List HistoryCall) :
    FitsAtFirst libs retentionDays history calls := by
  induction calls generalizing history with
  | nil => trivial
  | cons call calls ih =>
    cases call with
    | record c => exact Or.inl h
    | getHistory taskID limit => exact ih h
    | close now => exact ih ((List.length_filter_le _ _).trans h)

/-- Writing the file only drops records, -/
theorem count_persist_le (m : AlertHistoryManager) (file : Option T) (now : Time) :
    (m.persist libs file now).1.count ≤ m.count := by
  by_cases hpath : m.filePath = ""
  · rw [persist_of_no_path hpath]
  · rw [persist_eq hpath]
    exact List.length_filter_le _ _

/-- A record takes the place of the oldest one when there is no room. -/
theorem count_appended_le (hm : m.maxSize = defaultMaxHistorySize)
    (h : m.count ≤ defaultMaxHistorySize) (record : HistoryStore.AlertHistory) :
    (m.appended record).count ≤ defaultMaxHistorySize := by
  unfold AlertHistoryManager.count at h ⊢
  unfold AlertHistoryManager.appended
  rw [List.length_append, List.length_singleton, hm]
  have hpos : (defaultMaxHistorySize : ℤ) > 0 := by decide
  split
  next hfull =>
    rw [List.length_tail]
    omega
  next hroom =>
    have hlt : ¬ (m.history.length : ℤ) ≥ defaultMaxHistorySize := fun hge => hroom ⟨hpos, hge⟩
    omega

/-- The history of the manager is small. -/
structure AlertHistoryManager.Small (m : AlertHistoryManager) (filePath : String)
    (retentionDays : ℤ) : Prop where
  configured : m.Configured filePath retentionDays
  count : m.count ≤ defaultMaxHistorySize

/-- **Once it is small, the history stays small.** -/
theorem small_step {call : HistoryCall} (h : s.manager.Small filePath retentionDays)
    (hstep : s.step libs call = some s') : s'.manager.Small filePath retentionDays :=
  inv_of_historyStep (P := fun m _ => m.Small filePath retentionDays)
    (fun _ _ record h => ⟨⟨h.configured.filePath, h.configured.retentionDays, h.configured.maxSize⟩,
      count_appended_le h.configured.maxSize h.count record⟩)
    (fun m file now h => ⟨configured_persist h.configured now,
      (count_persist_le m file now).trans h.count⟩) h hstep

/-- so a small history stays within the bound, -/
theorem AlertHistoryManager.Small.bounded (h : s'.manager.Small filePath retentionDays)
    (call : HistoryCall) : s.Bounded call s' := by
  cases call with
  | record c =>
    show (s'.manager.count : ℤ) ≤ s'.manager.maxSize
    rw [h.configured.maxSize]
    exact Int.ofNat_le.mpr h.count
  | getHistory taskID limit => trivial
  | close now => trivial

/-- call after call. -/
theorem each_bounded_of_small (h : s.manager.Small filePath retentionDays)
    (calls : List HistoryCall) :
    Machine.Each (HistoryState.step libs) HistoryState.Bounded s calls := by
  have hkeep : ∀ (s : HistoryState T) (call : HistoryCall) (s' : HistoryState T),
      s.manager.Small filePath retentionDays → True → s.step libs call = some s' →
        s'.manager.Small filePath retentionDays ∧ s.Bounded call s' :=
    fun _ call _ h _ hstep => ⟨small_step h hstep, (small_step h hstep).bounded call⟩
  exact Machine.Each.of_invariant hkeep h (Machine.each_of_forall (fun _ _ => trivial))

/-- **A `Record` when there are too many records** drops the oldest one and the
expired ones. -/
theorem count_record_of_large (hm : m.Configured filePath retentionDays) (hpath : filePath ≠ "")
    (hlarge : defaultMaxHistorySize < m.count) (c : RecordCall) :
    (m.record libs file c).1.count
      = (m.history.tail ++ [c.alertHistory libs]).countP
        (libs.keeps retentionDays c.persistNow) := by
  have happended : m.appended (c.alertHistory libs)
      = { m with history := m.history.tail ++ [c.alertHistory libs] } := by
    unfold AlertHistoryManager.appended
    rw [if_pos ⟨hm.maxSize ▸ (by decide), hm.maxSize ▸ Int.ofNat_le.mpr hlarge.le⟩]
  have hlong : (m.history.tail ++ [c.alertHistory libs]).length ≥ autoPersistThreshold := by
    rw [List.length_append, List.length_tail, List.length_singleton]
    have hle : autoPersistThreshold ≤ defaultMaxHistorySize := by decide
    have hpos : 0 < m.history.length := (Nat.zero_le _).trans_lt hlarge
    exact (hle.trans hlarge.le).trans (Nat.sub_add_cancel hpos).ge
  unfold AlertHistoryManager.record
  rw [happended]
  dsimp only
  rw [if_pos hlong, persist_eq (by exact hm.filePath ▸ hpath)]
  dsimp only
  rw [hm.retentionDays, List.countP_eq_length_filter]
  rfl

/-- What decides a run is the room at the first `Record`. -/
theorem each_bounded_iff (hm : s.manager.Configured filePath retentionDays) (hpath : filePath ≠ "")
    (calls : List HistoryCall) :
    Machine.Each (HistoryState.step libs) HistoryState.Bounded s calls
      ↔ FitsAtFirst libs retentionDays s.manager.history calls := by
  induction calls generalizing s with
  | nil => exact Iff.rfl
  | cons call calls ih =>
    rcases Nat.lt_or_ge defaultMaxHistorySize s.manager.count with hlarge | hsmall
    · cases call with
      | record c =>
        have hstep : s.step libs (.record c) = some ⟨(s.manager.record libs s.file c).1,
          (s.manager.record libs s.file c).2⟩ := rfl
        have hm' := configured_step hm hstep
        have hcount : (s.manager.record libs s.file c).1.count = _ :=
          count_record_of_large hm hpath hlarge c
        rw [Machine.each_cons_of_step hstep]
        constructor
        · rintro ⟨hbound, -⟩
          have hle : ((s.manager.record libs s.file c).1.count : ℤ)
              ≤ (s.manager.record libs s.file c).1.maxSize := hbound
          rw [hm'.maxSize, hcount] at hle
          exact Or.inr (Int.ofNat_le.mp hle)
        · rintro (hfew | hfew)
          · exact absurd hlarge (not_lt.mpr hfew)
          · have hsmall : (s.manager.record libs s.file c).1.Small filePath retentionDays :=
              ⟨hm', hcount.trans_le hfew⟩
            exact ⟨hsmall.bounded _, each_bounded_of_small hsmall calls⟩
      | getHistory taskID limit =>
        have hstep : s.step libs (.getHistory taskID limit) = some s := rfl
        rw [Machine.each_cons_of_step hstep, ih hm]
        exact and_iff_right trivial
      | close now =>
        have hstep : s.step libs (.close now) = some ⟨(s.manager.close libs s.file now).1,
          (s.manager.close libs s.file now).2⟩ := rfl
        have hclosed : (s.manager.close libs s.file now).1.history
            = s.manager.history.filter (libs.keeps retentionDays now) := by
          rw [AlertHistoryManager.close, persist_eq (hm.filePath ▸ hpath), hm.retentionDays]
        rw [Machine.each_cons_of_step hstep, ih (configured_step hm hstep), hclosed]
        exact and_iff_right trivial
    · exact iff_of_true (each_bounded_of_small ⟨hm, hsmall⟩ _) (fitsAtFirst_of_le hsmall _)

/-- **Exactly the runs in which the history is bounded.** -/
theorem bounded_iff (libs : HistoryLibs T) (filePath : String) (retentionDays : ℤ)
    (file : Option T) (calls : List HistoryCall) :
    Machine.Each (HistoryState.step libs) HistoryState.Bounded
        (HistoryState.new libs filePath retentionDays file) calls
      ↔ FitsAtFirst libs retentionDays
        (newAlertHistoryManager libs filePath retentionDays file).history calls := by
  by_cases hpath : filePath = ""
  · have hsmall : (newAlertHistoryManager libs filePath retentionDays file).Small filePath
        retentionDays := by
      refine ⟨configured_newManager, ?_⟩
      rw [newAlertHistoryManager, if_neg (not_not.mpr hpath)]
      exact Nat.zero_le _
    exact iff_of_true (each_bounded_of_small hsmall calls) (fitsAtFirst_of_le hsmall.count calls)
  · exact each_bounded_iff configured_new hpath calls

end Manager

/-- A history of one record more than there is room for. -/
def largeHistory : List HistoryStore.AlertHistory :=
  List.replicate (defaultMaxHistorySize + 1)
    ⟨"a", 1, 0, Time.unixEpoch, 0, 0, true, 1, "null", "null"⟩

/-- **A file with more than `maxSize` records**: a `Record` drops one of them and
adds one. -/
theorem not_bounded_of_large_file :
    ¬ Machine.Each (HistoryState.step plainLibs) HistoryState.Bounded
      (HistoryState.new plainLibs "history.json" 30 (some (some largeHistory)))
      [recordOn 10 0] := by
  intro h
  have hm : (HistoryState.new plainLibs "history.json" 30
      (some (some largeHistory))).manager.Configured "history.json" 30 := configured_new
  have hfits := (each_bounded_iff hm (by decide) _).mp h
  have hloaded : (newAlertHistoryManager plainLibs "history.json" 30
      (some (some largeHistory))).history = largeHistory := new_history (by decide)
  rw [HistoryState.new, hloaded] at hfits
  rcases hfits with hlen | hcount
  · rw [largeHistory, List.length_replicate] at hlen
    exact Nat.not_succ_le_self _ hlen
  · rw [largeHistory, List.tail_replicate, List.countP_append, List.countP_replicate,
      if_pos (by decide +kernel), List.countP_singleton, if_pos (by decide +kernel)] at hcount
    exact Nat.not_succ_le_self _ hcount

end Timewheel
