import Timewheel.Types
import Timewheel.Lib.Pipe
import Timewheel.Lib.Run

/-!
# The history store

`GormHistoryStore` writes the alert history behind the back of the scheduler:
`Record` puts a record into a channel, and a writer of its own collects records
into a batch and creates the rows of a batch at once, when it is full, when the
ticker fires, and when the store is closed. The writer's `select` may choose the
closing of the store while records wait in the channel; it flushes the batch
then, and the channel is forgotten.

The database, its `json` and the convention by which it fills in the time of
creation are not part of the program and are parameters here, with what is
documented of them in `Documented`. What a column gives back of a value is a
parameter too, and nothing is assumed of it: SQLite keeps a time but has no NaN,
which comes back as zero, and a column of MySQL cuts a time to milliseconds. So
whether a record can be read back depends on its values (`Returns`).

`nothingLost_iff` says which runs write exactly what was accepted before the
store was closed. Two things decide, and nothing else: what the writer leaves in
the channel when it stops, and whether the database can keep the values of what
it has been given.
-/

namespace Timewheel.HistoryStore

/-! ## Records and rows -/

/-- `AlertHistory`: states and severity as the ints they are. -/
structure AlertHistory where
  taskID : String
  state : ℤ
  oldState : ℤ
  timestamp : Time
  value : UInt64
  threshold : UInt64
  isFiring : Bool
  severity : Severity
  labels : String
  annotations : String
  deriving DecidableEq, Repr

/-- `AlertHistoryModel`, without its own ID. -/
structure AlertHistoryModel where
  taskID : String
  oldState : ℤ
  newState : ℤ
  value : UInt64
  threshold : UInt64
  isFiring : ℤ
  severity : ℤ
  labels : String
  annotations : String
  createdAt : Time
  deriving DecidableEq, Repr

/-- What the store uses of the libraries: `json.Marshal` and `json.Unmarshal`
of the labels, what a field named `CreatedAt` is given when a row is created
at the time `now`, and what the columns of the database give back of a text, a
float, and a time. -/
structure Database where
  marshal : String → Option String
  unmarshal : String → Option String
  autoCreateTime : Time → Time → Time
  text : String → String
  real : UInt64 → UInt64
  time : Time → Time

namespace Database

variable (db : Database)

/-- What is documented of the libraries: a time of creation is filled in when it is
zero and only then, so that a zero is never what is read back. Of `json` and the
columns nothing is assumed. -/
structure Documented : Prop where
  created : ∀ now t, t ≠ Time.zero → db.autoCreateTime now t = t
  filledIn : ∀ now, db.time (db.autoCreateTime now Time.zero) ≠ Time.zero

/-- The text `flush` makes of the labels. -/
def json (s : String) : String := (db.marshal s).getD "{}"

/-- The model `flush` makes of a record. -/
def toModel (h : AlertHistory) : AlertHistoryModel where
  taskID := h.taskID
  oldState := h.oldState
  newState := h.state
  value := h.value
  threshold := h.threshold
  isFiring := if h.isFiring then 1 else 0
  severity := h.severity
  labels := db.json h.labels
  annotations := db.json h.annotations
  createdAt := h.timestamp

/-- `Create` of one row: the time of creation is filled in, and from then on the
row is what its columns give back. Columns of integers keep every integer. -/
def create (now : Time) (m : AlertHistoryModel) : AlertHistoryModel where
  taskID := db.text m.taskID
  oldState := m.oldState
  newState := m.newState
  value := db.real m.value
  threshold := db.real m.threshold
  isFiring := m.isFiring
  severity := m.severity
  labels := db.text m.labels
  annotations := db.text m.annotations
  createdAt := db.time (db.autoCreateTime now m.createdAt)

/-- What `GetHistory` makes of a text; one it cannot read leaves the field
empty. -/
def readText (s : String) : String := if s ≠ "" then (db.unmarshal s).getD "" else ""

/-- The record `GetHistory` makes of a row. -/
def fromModel (m : AlertHistoryModel) : AlertHistory where
  taskID := m.taskID
  state := m.newState
  oldState := m.oldState
  timestamp := m.createdAt
  value := m.value
  threshold := m.threshold
  isFiring := m.isFiring ≠ 0
  severity := m.severity
  labels := db.readText m.labels
  annotations := db.readText m.annotations

/-- **The database gives back the values of the record**: each of them fits its
column, and the labels are read from what is left of their JSON. A time of zero
does not, since another one is filled in. -/
structure Returns (h : AlertHistory) : Prop where
  taskID : db.text h.taskID = h.taskID
  value : db.real h.value = h.value
  threshold : db.real h.threshold = h.threshold
  labels : db.readText (db.text (db.json h.labels)) = h.labels
  annotations : db.readText (db.text (db.json h.annotations)) = h.annotations
  timed : h.timestamp ≠ Time.zero
  time : db.time h.timestamp = h.timestamp

end Database

instance (db : Database) (h : AlertHistory) : Decidable (db.Returns h) :=
  decidable_of_iff (db.text h.taskID = h.taskID ∧ db.real h.value = h.value
      ∧ db.real h.threshold = h.threshold
      ∧ db.readText (db.text (db.json h.labels)) = h.labels
      ∧ db.readText (db.text (db.json h.annotations)) = h.annotations
      ∧ h.timestamp ≠ Time.zero ∧ db.time h.timestamp = h.timestamp)
    ⟨fun ⟨h₁, h₂, h₃, h₄, h₅, h₆, h₇⟩ => ⟨h₁, h₂, h₃, h₄, h₅, h₆, h₇⟩,
      fun h => ⟨h.taskID, h.value, h.threshold, h.labels, h.annotations, h.timed, h.time⟩⟩

/-- `found` is an answer to the query of `GetHistory`: the rows of the task, or
all of them, the latest first, and no more than the limit. -/
def Query (rows : List AlertHistoryModel) (taskID : String) (limit : ℤ)
    (found : List AlertHistoryModel) : Prop :=
  ∃ sorted : List AlertHistoryModel,
    sorted.Perm (rows.filter (fun m => taskID = "" ∨ m.taskID = taskID))
      ∧ sorted.Pairwise (fun a b => b.createdAt ≤ a.createdAt)
      ∧ found = if limit > 0 then sorted.take limit.toNat else sorted

/-! ## The store and its writer -/

/-- `DefaultRecordChannelSize`. -/
def defaultRecordChannelSize : ℕ := 1000

/-- `GormHistoryStore` and its writer: the channel and the batch, the rows
created, and whether `Close` has been called and the writer has stopped.
`accepted` and `late` are the records for which `Record` has returned nil,
before `Close` was called and since then. -/
structure GormHistoryStore where
  pipe : Pipe AlertHistory
  rows : List AlertHistoryModel
  closed : Bool
  stopped : Bool
  accepted : List AlertHistory
  late : List AlertHistory

/-- A step of a caller or of the writer. -/
inductive Action where
  | record (record : AlertHistory)
  | receive (now : Time)
  | timer (now : Time)
  | stop (now : Time)
  | close
  deriving DecidableEq

def Action.isStop : Action → Bool
  | .stop _ => true
  | _ => false

namespace GormHistoryStore

/-- A store that has just been opened. -/
def start : GormHistoryStore := ⟨.empty, [], false, false, [], []⟩

/-- `flush`. -/
def flush (db : Database) (now : Time) (s : GormHistoryStore) : GormHistoryStore :=
  { s with
    pipe := s.pipe.flush
    rows := s.rows ++ s.pipe.batch.map (fun h => db.create now (db.toModel h)) }

/-- `Record` returns nil. -/
def accept (s : GormHistoryStore) (h : AlertHistory) : GormHistoryStore :=
  if s.closed then { s with pipe := s.pipe.push h, late := s.late ++ [h] }
  else { s with pipe := s.pipe.push h, accepted := s.accepted ++ [h] }

/-- **The step function.** A full channel turns a record away. -/
def step (db : Database) (s : GormHistoryStore) : Action → Option GormHistoryStore
  | .record h =>
    if s.pipe.queue.length < defaultRecordChannelSize then some (s.accept h) else some s
  | .receive now =>
    if s.stopped then none
    else s.pipe.receive.map (fun pipe =>
      let s := { s with pipe := pipe }
      if pipe.batch.length ≥ 100 then s.flush db now else s)
  | .timer now => if s.stopped then none else some (s.flush db now)
  | .stop now =>
    if s.closed = true ∧ s.stopped = false then some { s.flush db now with stopped := true }
    else none
  | .close => if s.closed then none else some { s with closed := true }

/-- **Nothing is lost**: the rows are, each once and in order, the records
accepted before `Close`, and reading them back gives those records. -/
structure NothingLost (db : Database) (s : GormHistoryStore) : Prop where
  rows : s.rows.map db.fromModel = s.accepted
  history : ∀ found, Query s.rows "" 0 found → (found.map db.fromModel).Perm s.accepted

/-- **What the writer must find when it stops**: nothing in the channel but what
came after `Close`, and all of that still there. And the database must be able
to give back the values of every record accepted before. -/
def Drained (db : Database) (s : GormHistoryStore) : Prop :=
  s.pipe.queue = s.late ∧ ∀ h ∈ s.accepted, db.Returns h

instance (db : Database) (s : GormHistoryStore) : Decidable (s.Drained db) :=
  inferInstanceAs (Decidable (_ ∧ _))

end GormHistoryStore

/-! ## Rows -/

open GormHistoryStore

variable {db : Database} {s s' t : GormHistoryStore} {a : Action}

/-- `m` is the row of the record `h`. -/
def RowOf (db : Database) (h : AlertHistory) (m : AlertHistoryModel) : Prop :=
  ∃ now, m = db.create now (db.toModel h)

/-- The row of a record reads back as what the columns leave of it. -/
theorem fromModel_create (db : Database) (now : Time) (h : AlertHistory) :
    db.fromModel (db.create now (db.toModel h))
      = { h with
          taskID := db.text h.taskID
          value := db.real h.value
          threshold := db.real h.threshold
          labels := db.readText (db.text (db.json h.labels))
          annotations := db.readText (db.text (db.json h.annotations))
          timestamp := db.time (db.autoCreateTime now h.timestamp) } := by
  unfold Database.fromModel Database.create Database.toModel
  dsimp only
  cases h.isFiring with
  | true => rfl
  | false => rfl

/-- **A row reads back as its record** exactly if the database gives back the
values of the record. A record without a time is filled in, and that shows;
otherwise each field is left to its column. -/
theorem fromModel_eq_iff (hdb : db.Documented) {h : AlertHistory} {m : AlertHistoryModel}
    (hm : RowOf db h m) : db.fromModel m = h ↔ db.Returns h := by
  obtain ⟨now, rfl⟩ := hm
  rw [fromModel_create]
  constructor
  · intro heq
    have htime : db.time (db.autoCreateTime now h.timestamp) = h.timestamp :=
      congrArg AlertHistory.timestamp heq
    have htimed : h.timestamp ≠ Time.zero := by
      intro hzero
      rw [hzero] at htime
      exact hdb.filledIn now htime
    rw [hdb.created now _ htimed] at htime
    exact {
      taskID := congrArg AlertHistory.taskID heq
      value := congrArg AlertHistory.value heq
      threshold := congrArg AlertHistory.threshold heq
      labels := congrArg AlertHistory.labels heq
      annotations := congrArg AlertHistory.annotations heq
      timed := htimed
      time := htime }
  · intro hret
    rw [hdb.created now _ hret.timed, hret.taskID, hret.value, hret.threshold, hret.labels,
      hret.annotations, hret.time]

/-- The same for the rows of several records. -/
theorem map_fromModel_eq_iff (hdb : db.Documented) {hs : List AlertHistory}
    {ms : List AlertHistoryModel} (h : List.Forall₂ (RowOf db) hs ms) :
    ms.map db.fromModel = hs ↔ ∀ h ∈ hs, db.Returns h := by
  induction h with
  | nil => simp
  | cons hm _ ih =>
    rw [List.map_cons, List.cons.injEq, fromModel_eq_iff hdb hm, ih, List.forall_mem_cons]

/-- `GetHistory` finds every row. -/
theorem query_all {rows found : List AlertHistoryModel} (h : Query rows "" 0 found) :
    found.Perm rows := by
  obtain ⟨sorted, hperm, -, rfl⟩ := h
  simpa using hperm

/-! ## What holds along a run -/

/-- The invariant of the store. -/
structure Sound (db : Database) (s : GormHistoryStore) : Prop where
  entered : s.pipe.entered = s.accepted ++ s.late
  rows : List.Forall₂ (RowOf db) s.pipe.out s.rows
  early : s.closed = false → s.late = []
  stopped : s.stopped = true → s.closed = true ∧ s.pipe.batch = []

/-- Flushing keeps the invariant. -/
theorem Sound.flush (h : Sound db s) (now : Time) : Sound db (s.flush db now) where
  entered := (Pipe.entered_flush s.pipe).trans h.entered
  rows := by
    refine List.rel_append h.rows ?_
    rw [List.forall₂_map_right_iff, List.forall₂_same]
    exact fun _ _ => ⟨now, rfl⟩
  early := h.early
  stopped := fun hs => ⟨(h.stopped hs).1, rfl⟩

/-- Receiving keeps it. -/
theorem Sound.receive (h : Sound db s) (hs : s.stopped = false) {pipe : Pipe AlertHistory}
    (hpipe : s.pipe.receive = some pipe) : Sound db { s with pipe := pipe } where
  entered := (Pipe.entered_of_receive hpipe).trans h.entered
  rows := (Pipe.out_of_receive hpipe).symm ▸ h.rows
  early := h.early
  stopped := fun hstopped => nomatch hs.symm.trans hstopped

/-- Accepting a record keeps it. -/
theorem Sound.accept (h : Sound db s) (r : AlertHistory) : Sound db (s.accept r) := by
  obtain ⟨hentered, hrows, hearly, hstopped⟩ := h
  unfold GormHistoryStore.accept
  by_cases hc : s.closed = true
  · rw [if_pos hc]
    refine ⟨?_, hrows, fun hn => absurd (hc.symm.trans hn) (by decide), hstopped⟩
    dsimp only
    rw [Pipe.entered_push, hentered, List.append_assoc]
  · rw [if_neg hc]
    have hnil := hearly (Bool.eq_false_iff.mpr hc)
    refine ⟨?_, hrows, fun _ => hnil, hstopped⟩
    dsimp only
    rw [Pipe.entered_push, hentered, hnil, List.append_nil, List.append_nil]

/-- **What a step can do.** -/
inductive Stepped (db : Database) (s : GormHistoryStore) : Action → GormHistoryStore → Prop where
  | accepted {r : AlertHistory} : Stepped db s (.record r) (s.accept r)
  /-- The channel is full. -/
  | refused {r : AlertHistory} : Stepped db s (.record r) s
  | received {now : Time} {pipe : Pipe AlertHistory} (hs : s.stopped = false)
      (hpipe : s.pipe.receive = some pipe) : Stepped db s (.receive now) { s with pipe := pipe }
  /-- The record received fills the batch. -/
  | filled {now : Time} {pipe : Pipe AlertHistory} (hs : s.stopped = false)
      (hpipe : s.pipe.receive = some pipe) :
      Stepped db s (.receive now) ({ s with pipe := pipe }.flush db now)
  | ticked {now : Time} (hs : s.stopped = false) : Stepped db s (.timer now) (s.flush db now)
  | stopped {now : Time} (hc : s.closed = true) (hs : s.stopped = false) :
      Stepped db s (.stop now) { s.flush db now with stopped := true }
  | closed (hc : s.closed = false) : Stepped db s .close { s with closed := true }

/-- The inversion of the step function. -/
theorem stepped_of_step (h : step db s a = some s') : Stepped db s a s' := by
  cases a with
  | record r =>
    unfold step at h
    dsimp only at h
    split_ifs at h
    · exact Option.some.inj h ▸ .accepted
    · exact Option.some.inj h ▸ .refused
  | receive now =>
    unfold step at h
    dsimp only at h
    split_ifs at h with hs
    obtain ⟨pipe, hpipe, rfl⟩ := Option.map_eq_some_iff.mp h
    split_ifs
    · exact .filled (Bool.eq_false_iff.mpr hs) hpipe
    · exact .received (Bool.eq_false_iff.mpr hs) hpipe
  | timer now =>
    unfold step at h
    dsimp only at h
    split_ifs at h with hs
    exact Option.some.inj h ▸ .ticked (Bool.eq_false_iff.mpr hs)
  | stop now =>
    unfold step at h
    dsimp only at h
    split_ifs at h with hs
    exact Option.some.inj h ▸ .stopped hs.1 hs.2
  | close =>
    unfold step at h
    dsimp only at h
    split_ifs at h with hc
    exact Option.some.inj h ▸ .closed (Bool.eq_false_iff.mpr hc)

/-- **A step keeps the invariant.** -/
theorem Sound.of_step (h : Sound db s) (hstep : step db s a = some s') : Sound db s' := by
  cases stepped_of_step hstep with
  | @accepted r => exact h.accept r
  | refused => exact h
  | received hs hpipe => exact h.receive hs hpipe
  | @filled now pipe hs hpipe => exact (h.receive hs hpipe).flush now
  | @ticked now hs => exact h.flush now
  | @stopped now hc hs =>
    obtain ⟨hentered, hrows, hearly, -⟩ := h.flush now
    exact ⟨hentered, hrows, hearly, fun _ => ⟨hc, rfl⟩⟩
  | closed hc =>
    exact ⟨h.entered, h.rows, fun hn => (nomatch hn), fun hs => ⟨rfl, (h.stopped hs).2⟩⟩

/-- **With an empty batch** the question is what the channel holds. -/
theorem nothingLost_iff_drained (hdb : db.Documented) (h : Sound db s)
    (hbatch : s.pipe.batch = []) : s.NothingLost db ↔ s.Drained db := by
  have hentered := h.entered
  unfold Pipe.entered at hentered
  rw [hbatch, List.append_nil] at hentered
  constructor
  · intro hn
    have hlength : s.pipe.out.length = s.accepted.length := by
      rw [h.rows.length_eq, ← hn.rows, List.length_map]
    obtain ⟨hout, hqueue⟩ := List.append_inj hentered hlength
    have hrows := h.rows
    rw [hout] at hrows
    exact ⟨hqueue, (map_fromModel_eq_iff hdb hrows).mp hn.rows⟩
  · rintro ⟨hqueue, htimes⟩
    rw [hqueue] at hentered
    have hrows := h.rows
    rw [List.append_cancel_right hentered] at hrows
    have hback := (map_fromModel_eq_iff hdb hrows).mpr htimes
    exact ⟨hback, fun found hfound => hback ▸ (query_all hfound).map db.fromModel⟩

/-- **The step that stops the writer decides**: later records change neither
the rows nor what had to be written. -/
theorem nothingLost_of_step (hdb : db.Documented) (h : Sound db s)
    (hstep : step db s a = some s') :
    (s'.stopped = true → s'.NothingLost db)
      ↔ (s.stopped = true → s.NothingLost db) ∧ (a.isStop = true → s.Drained db) := by
  have h' := h.of_step hstep
  -- a step of a writer that has not stopped, and does not stop now
  have hrunning : s.stopped = false → s'.stopped = false → a.isStop = false →
      ((s'.stopped = true → s'.NothingLost db)
        ↔ (s.stopped = true → s.NothingLost db) ∧ (a.isStop = true → s.Drained db)) := by
    intro hs hs' ha
    rw [hs, hs', ha]
    exact ⟨fun _ => ⟨fun hn => (nomatch hn), fun hn => nomatch hn⟩, fun _ hn => nomatch hn⟩
  -- a step that changes neither the rows nor, once the store is closed, what is to be written
  have hsame : s'.stopped = s.stopped → s'.rows = s.rows →
      (s.closed = true → s'.accepted = s.accepted) → a.isStop = false →
      ((s'.stopped = true → s'.NothingLost db)
        ↔ (s.stopped = true → s.NothingLost db) ∧ (a.isStop = true → s.Drained db)) := by
    intro hstopped hrows haccepted ha
    rw [hstopped, ha, and_iff_left (fun hn => nomatch hn)]
    refine forall_congr' (fun hs => ?_)
    have hacc := haccepted (h.stopped hs).1
    constructor
    · rintro ⟨h₁, h₂⟩
      rw [hrows, hacc] at h₁ h₂
      exact ⟨h₁, h₂⟩
    · rintro ⟨h₁, h₂⟩
      rw [← hrows, ← hacc] at h₁ h₂
      exact ⟨h₁, h₂⟩
  cases stepped_of_step hstep with
  | @accepted r =>
    unfold GormHistoryStore.accept at hsame ⊢
    split_ifs at hsame ⊢ with hc
    · exact hsame rfl rfl (fun _ => rfl) rfl
    · exact hsame rfl rfl (fun hn => absurd hn hc) rfl
  | refused => exact hsame rfl rfl (fun _ => rfl) rfl
  | received hs hpipe => exact hrunning hs hs rfl
  | filled hs hpipe => exact hrunning hs hs rfl
  | ticked hs => exact hrunning hs hs rfl
  | @stopped now hc hs =>
    rw [hs, and_iff_right (fun hn => nomatch hn)]
    exact forall_congr' (fun _ => nothingLost_iff_drained hdb h' rfl)
  | closed hc =>
    have hfalse : s.stopped = false :=
      Bool.eq_false_iff.mpr (fun hs => nomatch hc.symm.trans (h.stopped hs).1)
    exact hrunning hfalse hfalse rfl

/-- A store that has just been opened. -/
theorem sound_start (db : Database) : Sound db start :=
  ⟨rfl, .nil, fun _ => rfl, fun hn => nomatch hn⟩

/-- A float that is not a number: all bits of the exponent are set, and some of
the mantissa. -/
def isNaN (bits : UInt64) : Bool :=
  bits &&& 0x7FF0000000000000 == 0x7FF0000000000000 && bits &&& 0x000FFFFFFFFFFFFF != 0

/-- SQLite, with the quotes of `json` as it writes texts without special
characters. It stores a NaN as a NULL, which is read as zero. -/
def quoting : Database where
  marshal := fun s => some (String.ofList (Char.ofNat 34 :: (s.toList ++ [Char.ofNat 34])))
  unmarshal := fun t => some (String.ofList t.toList.tail.dropLast)
  autoCreateTime := fun now t => if t.isZero then max now 1 else t
  text := fun s => s
  real := fun bits => if isNaN bits then 0 else bits
  time := fun t => t

/-- This database has the properties that are assumed. -/
theorem documented_quoting : quoting.Documented where
  created := by
    intro now t ht
    show (if t.isZero then max now 1 else t) = t
    rw [if_neg (fun h => ht ((Time.isZero_iff t).mp h))]
  filledIn := by
    intro now
    exact (lt_of_lt_of_le Nat.zero_lt_one (le_max_right now 1)).ne'

/-- A record of an alert that fires. -/
def firingRecord : AlertHistory where
  taskID := "a"
  state := 1
  oldState := 0
  timestamp := Time.ofMilli 0
  value := 2
  threshold := 1
  isFiring := true
  severity := 0
  labels := ""
  annotations := ""

end Timewheel.HistoryStore
