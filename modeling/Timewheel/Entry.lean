import Timewheel.Held
import Timewheel.Service

/-!
# A call as a function of one entry

What a call of `atomicTaskService` does under its own ID, when nothing fails
from outside, depends on little: the two flags and the definition it has read,
and what it finds – the row, less its time stamps, and what the wheels hold
(`Entry`). `Call.act` is that function. It leaves out the table, the wheels and
the log, and which node of the pool a task is put on is an answer it is given.

Two calls that have both read the row before either writes come to one `act`
after the other, the second on what has meanwhile become of the entry. Nothing
is lost when the first leaves the row as it is, when the second has nothing to
do, or when the two happen to be compatible; `Call.Harmless.explained` says which
order of the two explains the outcome.

The condition under which nothing is lost is found by going through the pairs.
It looks long because there are six calls and so thirty-six pairs; each line
says for one pair what the entry must be like. Where a line says `False`, the
second call always undoes the first.
-/

namespace Timewheel

open MultiLevelTimeWheel

/-! ## Entries -/

/-- The row of an ID, as flags and a definition, and what the wheels hold. The
definition is the row without its flags and its time stamps. -/
structure Entry where
  enabled : Bool
  paused : Bool
  deleted : Bool
  definition : TaskModel
  held : Held

/-- There is a place for the task, which the checks and the wheel of its
priority let pass if `takes` says so. The place is the wheel of its priority,
and it is free if that wheel does not have the ID. -/
def Held.Fits (takes : Task → Bool) (h : Held) (task : Task) : Prop :=
  takes task = true ∧ h (levelOf task.priority) = none

instance (takes : Task → Bool) (h : Held) (task : Task) : Decidable (h.Fits takes task) :=
  inferInstanceAs (Decidable (_ ∧ _))

/-- Nothing fits that the wheel does not take. -/
theorem Held.not_fits_of_takes {takes : Task → Bool} {task : Task} (ht : takes task = false)
    (h : Held) : ¬ h.Fits takes task := fun hf => (nomatch hf.1.symm.trans ht)

/-- What is held with the task in its place, on a node that `pool` says is
paused or not. The task is entered as the checks leave it. -/
def Held.enter (pool : Level → Bool) (h : Held) (task : Task) : Held :=
  h.put (levelOf task.priority) ⟨normalised task, pool (levelOf task.priority)⟩

namespace Entry

/-- `UpdateStatus`. A row that is deleted is not written. -/
def status (x : Entry) (enabled paused : Bool) : Entry :=
  if x.deleted then x else { x with enabled := enabled, paused := paused }

/-- With other registrations. The row stays as it is. -/
def hold (x : Entry) (h : Held) : Entry := { x with held := h }

/-- Writing the flags of the row does not touch the wheels. -/
@[simp] theorem held_status (x : Entry) (enabled paused : Bool) :
    (x.status enabled paused).held = x.held := by
  unfold status
  split_ifs <;> rfl

/-- What is held already. Nothing changes. -/
theorem hold_of_held {x : Entry} {h : Held} (hx : x.held = h) : x.hold h = x := by
  subst hx
  rfl

end Entry

namespace AtomicTaskService

/-- **What a call does that has read the flags `e` and `p` and the definition
`d`**. The answers of the pools are `pool`. A failed wheel step is followed by
its rollback at once, so that an entry is only seen before and after; within a
call nobody else has the lock. -/
def Call.act (takes : Task → Bool) (e p : Bool) (d : TaskModel) (pool : Level → Bool)
    (x : Entry) : Call → Entry
  | .update req =>
    if d.id = "" then x
    else
      let new := if x.deleted then (req.apply d).withDefaults else req.apply d
      if e && !p then
        if x.held.remove.Fits takes new.toTask then
          ⟨e, p, false, new, x.held.remove.enter pool new.toTask⟩
        else ⟨e, p, false, d, x.held.remove⟩
      else ⟨e, p, false, new, x.held⟩
  | .enable =>
    if e then x
    else if p then x.status true p
    else if x.held.Fits takes d.toTask then (x.status true p).hold (x.held.enter pool d.toTask)
    else (x.status true p).status false p
  | .disable =>
    if e = false then x
    else if x.held.reached = none then (x.status false p).status true p
    else (x.status false p).hold x.held.remove
  | .pause =>
    if p then x
    else if x.held.reached = none then (x.status e true).status e false
    else (x.status e true).hold (x.held.setPaused true)
  | .resume =>
    if p = false then x
    else if e = false then x.status e false
    else if x.held.reached = none then
      if x.held.Fits takes d.toTask then (x.status e false).hold (x.held.enter pool d.toTask)
      else (x.status e false).status e true
    else (x.status e false).hold (x.held.setPaused false)
  | .delete =>
    if x.held.reached = none then { x with deleted := false }
    else { x with deleted := true, held := x.held.remove }

/-- The call as a whole: it reads the entry it finds. A deleted row is not
found. -/
def Call.whole (takes : Task → Bool) (pool : Level → Bool) (x : Entry) (c : Call) : Entry :=
  if x.deleted then x else c.act takes x.enabled x.paused x.definition pool x

end AtomicTaskService

/-! ## The condition -/

/-- The same task in the same place. What is entered for the one is what is
entered for the other. -/
def SameNode (t t' : Task) : Prop :=
  levelOf t.priority = levelOf t'.priority ∧ normalised t = normalised t'

instance (t t' : Task) : Decidable (SameNode t t') := inferInstanceAs (Decidable (_ ∧ _))

namespace Entry

/-- The task of the row. -/
def task (x : Entry) : Task := x.definition.toTask

/-- The task of the row after an update. Where it belongs may have changed with
the priority. -/
def updated (x : Entry) (req : TaskUpdateRequest) : Task := (req.apply x.definition).toTask

/-- The row asks for a node. It is enabled and not paused. -/
def Scheduled (x : Entry) : Prop := x.enabled = true ∧ x.paused = false

/-- At most one wheel holds the ID. A removal takes the ID out of the wheel that
is reached, so none is reached then. -/
def Last (x : Entry) : Prop := x.held.remove.reached = none

instance (x : Entry) : Decidable x.Scheduled := inferInstanceAs (Decidable (_ ∧ _))

instance (x : Entry) : Decidable x.Last := inferInstanceAs (Decidable (_ = none))

end Entry

namespace AtomicTaskService

/-- The call has nothing to do. It returns once it has read the row. -/
def Call.DoesNothing (x : Entry) : Call → Prop
  | .update _ => x.definition.id = ""
  | .enable => x.enabled = true
  | .disable => x.enabled = false
  | .pause => x.paused = true
  | .resume => x.paused = false
  | .delete => False

/-- **The call leaves the row as it is**: it has nothing to do, or its wheel
step fails and it is rolled back, or it updates the row to what it is. It may
still do something to the wheels, as an update does that loses its node. -/
def Call.LeavesRow (takes : Task → Bool) (x : Entry) : Call → Prop
  | .update req => x.definition.id = "" ∨ req.apply x.definition = x.definition
      ∨ (x.Scheduled ∧ ¬ x.held.remove.Fits takes (x.updated req))
  | .enable => x.enabled = true ∨ (x.paused = false ∧ ¬ x.held.Fits takes x.task)
  | .disable => x.enabled = false ∨ x.held.reached = none
  | .pause => x.paused = true ∨ x.held.reached = none
  | .resume => x.paused = false
      ∨ (x.enabled = true ∧ x.held.reached = none ∧ takes x.task = false)
  | .delete => x.held.reached = none

/-- An update over an update of a row that asks for a node. The first has put a
node in; the second takes one out, and puts in its own. What the first one wrote
is overwritten, in the row and in the wheel. -/
structure Covers (takes : Task → Bool) (x : Entry) (q₁ q₂ : TaskUpdateRequest) : Prop where
  overwrites : q₂.apply (q₁.apply x.definition) = q₂.apply x.definition
  takes : takes (x.updated q₂) = true
  free : ∀ r, (x.held.remove.put (levelOf (x.updated q₁).priority) r).remove
    (levelOf (x.updated q₂).priority) = none

/-- An update of nothing over an update to the same task, when the wheel that is
reached is another one. Both end in the same task in the same place, and the
other wheel has lost its node. -/
structure Repeats (takes : Task → Bool) (x : Entry) (q₁ q₂ : TaskUpdateRequest) : Prop where
  nothing : q₂.apply x.definition = x.definition
  takes : takes x.task = true
  same : SameNode (x.updated q₁) x.task
  taken : ∀ r, (x.held.remove.put (levelOf x.task.priority) r).remove
    (levelOf x.task.priority) ≠ none

/-- The wheel that is reached first once the task of the row is added already
holds the task of the update. -/
structure AlreadyHeld (takes : Task → Bool) (x : Entry) (q : TaskUpdateRequest) : Prop where
  takes : takes (x.updated q) = true
  other : levelOf (x.updated q).priority ≠ levelOf x.task.priority
  reached : ∀ r, (x.held.put (levelOf x.task.priority) r).reached
    = some (levelOf (x.updated q).priority)
  held : ∃ b, x.held (levelOf (x.updated q).priority) = some ⟨normalised (x.updated q), b⟩

/-- **Nothing is lost**, of two calls that change the row: what the second does
is what it would do after the first, or the first after the second. -/
def Call.Compatible (takes : Task → Bool) (x : Entry) : Call → Call → Prop
  | .delete, .delete => False
  | _, .delete => True
  | .update q₁, .update q₂ =>
    if x.enabled = true ∧ x.paused = false then Covers takes x q₁ q₂ ∨ Repeats takes x q₁ q₂
    else q₂.apply (q₁.apply x.definition) = q₂.apply x.definition
  | .delete, .update q => x.Scheduled ∧ x.Last ∧ takes (x.updated q) = false
      ∧ takes (q.apply x.definition).withDefaults.toTask = false
  | _, .update q => x.Scheduled ∧ x.Last ∧ takes (x.updated q) = false
  | .update q, .enable => x.paused = true ∨ (x.held.Fits takes x.task →
      (x.held.Fits takes (x.updated q) ∧ SameNode (x.updated q) x.task) ∨ AlreadyHeld takes x q)
  | .update q, .resume => x.enabled = false ∨ x.held.reached ≠ none ∨ (takes x.task = true →
      takes (x.updated q) = true ∧ SameNode (x.updated q) x.task)
  | .update _, _ => True
  | .enable, .enable => x.paused = true
  | .enable, .resume => ¬ x.held.Fits takes x.task
  | .enable, .pause => False
  | .enable, .disable => True
  | .disable, _ => False
  | .pause, .pause => True
  | .pause, .disable => x.Last
  | .pause, .enable => False
  | .pause, .resume => True
  | .resume, .resume => True
  | .resume, .enable => x.held.reached = none ∧ takes x.task = false
  | .resume, .disable => False
  | .resume, .pause => True
  | .delete, .enable => x.paused = true ∨ ¬ x.held.remove.Fits takes x.task
  | .delete, .disable => x.Last
  | .delete, .pause => x.held.remove.setPaused true = x.held.remove
  | .delete, .resume => x.enabled = false ∨ (x.held.remove.setPaused false = x.held.remove
      ∧ (x.Last → takes x.task = false))

/-- **Harmless**: of two calls that have both read the entry, `c₁` writes first,
and nothing is lost. The three cases do not exclude each other. -/
def Call.Harmless (takes : Task → Bool) (x : Entry) (c₁ c₂ : Call) : Prop :=
  c₁.LeavesRow takes x ∨ c₂.DoesNothing x ∨ c₁.Compatible takes x c₂

end AtomicTaskService

/-! ## What one call does -/

/-- The entries have the same row. The wheels may hold different things. -/
structure Entry.SameRow (x y : Entry) : Prop where
  enabled : y.enabled = x.enabled
  paused : y.paused = x.paused
  deleted : y.deleted = x.deleted
  definition : y.definition = x.definition

namespace AtomicTaskService

section Act

variable {takes : Task → Bool} {b : Level → Bool} {e p e' p' : Bool} {d d' : TaskModel} {h : Held}

/-! ### On a live row -/

/-- An update of a live row, in the four cases of the code. -/
theorem act_update (req : TaskUpdateRequest) (hid : d.id ≠ "") :
    (Call.update req).act takes e p d b ⟨e', p', false, d', h⟩
      = if e = true ∧ p = false then
          if h.remove.Fits takes (req.apply d).toTask then
            ⟨true, false, false, req.apply d, h.remove.enter b (req.apply d).toTask⟩
          else ⟨true, false, false, d, h.remove⟩
        else ⟨e, p, false, req.apply d, h⟩ := by
  unfold Call.act
  dsimp only
  rw [if_neg hid]
  cases e <;> cases p <;> rfl

/-- With a place for the new task, -/
theorem act_update_fits {req : TaskUpdateRequest} (hid : d.id ≠ "")
    (hfits : h.remove.Fits takes (req.apply d).toTask) :
    (Call.update req).act takes true false d b ⟨e', p', false, d', h⟩
      = ⟨true, false, false, req.apply d, h.remove.enter b (req.apply d).toTask⟩ := by
  rw [act_update req hid, if_pos ⟨rfl, rfl⟩, if_pos hfits]

/-- without one, -/
theorem act_update_not_fits {req : TaskUpdateRequest} (hid : d.id ≠ "")
    (hfits : ¬ h.remove.Fits takes (req.apply d).toTask) :
    (Call.update req).act takes true false d b ⟨e', p', false, d', h⟩
      = ⟨true, false, false, d, h.remove⟩ := by
  rw [act_update req hid, if_pos ⟨rfl, rfl⟩, if_neg hfits]

/-- and without a need for one. -/
theorem act_update_unscheduled {req : TaskUpdateRequest} (hid : d.id ≠ "")
    (hs : ¬ (e = true ∧ p = false)) :
    (Call.update req).act takes e p d b ⟨e', p', false, d', h⟩
      = ⟨e, p, false, req.apply d, h⟩ := by
  rw [act_update req hid, if_neg hs]

/-- `Enable` with a place for the task, -/
theorem act_enable_fits (hfits : h.Fits takes d.toTask) :
    Call.enable.act takes false false d b ⟨e', p', false, d', h⟩
      = ⟨true, false, false, d', h.enter b d.toTask⟩ := if_pos hfits

/-- and without one, where it is rolled back. -/
theorem act_enable_not_fits (hfits : ¬ h.Fits takes d.toTask) :
    Call.enable.act takes false false d b ⟨e', p', false, d', h⟩
      = ⟨false, false, false, d', h⟩ := if_neg hfits

/-- `Disable` of a task that a wheel has, -/
theorem act_disable_reached (hr : h.reached ≠ none) :
    Call.disable.act takes true p d b ⟨e', p', false, d', h⟩
      = ⟨false, p, false, d', h.remove⟩ := if_neg hr

/-- and of one that none has, where it is rolled back. -/
theorem act_disable_not_reached (hr : h.reached = none) :
    Call.disable.act takes true p d b ⟨e', p', false, d', h⟩
      = ⟨true, p, false, d', h⟩ := if_pos hr

/-- The same for `Pause`: -/
theorem act_pause_reached (hr : h.reached ≠ none) :
    Call.pause.act takes e false d b ⟨e', p', false, d', h⟩
      = ⟨e, true, false, d', h.setPaused true⟩ := if_neg hr

/-- without a node it fails and is rolled back. -/
theorem act_pause_not_reached (hr : h.reached = none) :
    Call.pause.act takes e false d b ⟨e', p', false, d', h⟩
      = ⟨e, false, false, d', h⟩ := if_pos hr

/-- `Resume` of a task that a wheel has, -/
theorem act_resume_reached (hr : h.reached ≠ none) :
    Call.resume.act takes true true d b ⟨e', p', false, d', h⟩
      = ⟨true, false, false, d', h.setPaused false⟩ := if_neg hr

/-- of one that none has, with a place for it, -/
theorem act_resume_fits (hr : h.reached = none) (hfits : h.Fits takes d.toTask) :
    Call.resume.act takes true true d b ⟨e', p', false, d', h⟩
      = ⟨true, false, false, d', h.enter b d.toTask⟩ := (if_pos hr).trans (if_pos hfits)

/-- and without one. -/
theorem act_resume_not_fits (hr : h.reached = none) (hfits : ¬ h.Fits takes d.toTask) :
    Call.resume.act takes true true d b ⟨e', p', false, d', h⟩
      = ⟨true, true, false, d', h⟩ := (if_pos hr).trans (if_neg hfits)

/-- `Delete` of a task that a wheel has, -/
theorem act_delete_reached (hr : h.reached ≠ none) :
    Call.delete.act takes e p d b ⟨e', p', false, d', h⟩
      = ⟨e', p', true, d', h.remove⟩ := if_neg hr

/-- and of one that none has, where the deletion is taken back. -/
theorem act_delete_not_reached (hr : h.reached = none) :
    Call.delete.act takes e p d b ⟨e', p', false, d', h⟩
      = ⟨e', p', false, d', h⟩ := if_pos hr

/-! ### On a deleted row -/

/-- On a deleted row an update inserts, with the defaults, and brings the row
back. -/
theorem act_update_deleted (req : TaskUpdateRequest) (hid : d.id ≠ "") :
    (Call.update req).act takes e p d b ⟨e', p', true, d', h⟩
      = if e = true ∧ p = false then
          if h.remove.Fits takes (req.apply d).withDefaults.toTask then
            ⟨true, false, false, (req.apply d).withDefaults,
              h.remove.enter b (req.apply d).withDefaults.toTask⟩
          else ⟨true, false, false, d, h.remove⟩
        else ⟨e, p, false, (req.apply d).withDefaults, h⟩ := by
  unfold Call.act
  dsimp only
  rw [if_neg hid]
  cases e <;> cases p <;> rfl

/-- `Enable` cannot write the row, but adds the task all the same; -/
theorem act_enable_deleted : Call.enable.act takes false p d b ⟨e', p', true, d', h⟩
    = if p = false ∧ h.Fits takes d.toTask then ⟨e', p', true, d', h.enter b d.toTask⟩
      else ⟨e', p', true, d', h⟩ := by
  unfold Call.act
  cases p with
  | true => rfl
  | false => simp [Entry.status, Entry.hold]

/-- `Disable` takes the node out, -/
theorem act_disable_deleted : Call.disable.act takes true p d b ⟨e', p', true, d', h⟩
    = ⟨e', p', true, d', h.remove⟩ := by
  unfold Call.act
  by_cases hr : h.reached = none
  · simp [Entry.status, hr, Held.remove_of_reached_none hr]
  · simp [Entry.status, Entry.hold, hr]

/-- `Pause` flags it, -/
theorem act_pause_deleted : Call.pause.act takes e false d b ⟨e', p', true, d', h⟩
    = ⟨e', p', true, d', h.setPaused true⟩ := by
  unfold Call.act
  by_cases hr : h.reached = none
  · have hsame : h.setPaused true = h := Held.change_of_reached_none hr _
    simp [Entry.status, hr, hsame]
  · simp [Entry.status, Entry.hold, hr]

/-- and `Resume` lifts the flag or adds the task. None of them brings the row
back. -/
theorem act_resume_deleted : Call.resume.act takes e true d b ⟨e', p', true, d', h⟩
    = if e = false then ⟨e', p', true, d', h⟩
      else if h.reached = none then
        if h.Fits takes d.toTask then ⟨e', p', true, d', h.enter b d.toTask⟩
        else ⟨e', p', true, d', h⟩
      else ⟨e', p', true, d', h.setPaused false⟩ := by
  cases e <;> rfl

end Act

variable {takes : Task → Bool} {x : Entry} {c c₁ c₂ : Call} {b b₁ b₂ : Level → Bool}

/-- A live row is read as it is. This is where reading and acting come apart. -/
theorem Call.whole_of_live (hx : x.deleted = false) (b : Level → Bool) (c : Call) :
    c.whole takes b x = c.act takes x.enabled x.paused x.definition b x :=
  if_neg (by rw [hx]; exact Bool.false_ne_true)

/-- So a call reads the same of entries with the same row. What the wheels hold
is not read beforehand. -/
theorem Call.whole_of_sameRow {y : Entry} (h : x.SameRow y) (hx : x.deleted = false)
    (b : Level → Bool) (c : Call) :
    c.whole takes b y = c.act takes x.enabled x.paused x.definition b y := by
  rw [Call.whole_of_live (h.deleted.trans hx), h.enabled, h.paused, h.definition]

/-- A call that has nothing to do. Whatever has become of the entry, since it
goes by what it has read. -/
theorem Call.DoesNothing.act (h : c.DoesNothing x) (y : Entry) (b : Level → Bool) :
    c.act takes x.enabled x.paused x.definition b y = y := by
  cases c with
  | update req => exact if_pos h
  | enable => exact if_pos h
  | disable => exact if_pos h
  | pause => exact if_pos h
  | resume => exact if_pos h
  | delete => exact h.elim

/-- A call that leaves the row as it is. One case for each call, and in each the
flags are written and written back, or not at all. -/
theorem Call.LeavesRow.sameRow (hx : x.deleted = false) (h : c.LeavesRow takes x)
    (b : Level → Bool) : x.SameRow (c.act takes x.enabled x.paused x.definition b x) := by
  obtain ⟨e, p, del, d, held⟩ := x
  obtain rfl : del = false := hx
  cases c with
  | update req =>
    -- the row asks for a node that it gets, for one it does not get, or for none
    by_cases hid : d.id = ""
    · have hidle : (Call.update req).DoesNothing ⟨e, p, false, d, held⟩ := hid
      rw [hidle.act]
      exact ⟨rfl, rfl, rfl, rfl⟩
    dsimp only
    rw [act_update req hid]
    split_ifs with he hfits
    · refine ⟨he.1.symm, he.2.symm, rfl, ?_⟩
      rcases h with h | h | ⟨-, h⟩
      · exact absurd h hid
      · exact h
      · exact absurd hfits h
    · exact ⟨he.1.symm, he.2.symm, rfl, rfl⟩
    · refine ⟨rfl, rfl, rfl, ?_⟩
      rcases h with h | h | ⟨h, -⟩
      · exact absurd h hid
      · exact h
      · exact absurd h he
  | enable =>
    cases e with
    | true => exact ⟨rfl, rfl, rfl, rfl⟩
    | false =>
      obtain ⟨rfl, hfits⟩ : p = false ∧ ¬ held.Fits takes d.toTask :=
        h.resolve_left Bool.false_ne_true
      dsimp only
      rw [act_enable_not_fits hfits]
      exact ⟨rfl, rfl, rfl, rfl⟩
  | disable =>
    cases e with
    | false => exact ⟨rfl, rfl, rfl, rfl⟩
    | true =>
      have hr : held.reached = none := h.resolve_left (Bool.noConfusion)
      dsimp only
      rw [act_disable_not_reached hr]
      exact ⟨rfl, rfl, rfl, rfl⟩
  | pause =>
    cases p with
    | true => exact ⟨rfl, rfl, rfl, rfl⟩
    | false =>
      have hr : held.reached = none := h.resolve_left Bool.false_ne_true
      dsimp only
      rw [act_pause_not_reached hr]
      exact ⟨rfl, rfl, rfl, rfl⟩
  | resume =>
    cases p with
    | false => exact ⟨rfl, rfl, rfl, rfl⟩
    | true =>
      obtain ⟨rfl, hr, hnot⟩ : e = true ∧ held.reached = none ∧ takes d.toTask = false :=
        h.resolve_left (Bool.noConfusion)
      have hfits : ¬ held.Fits takes d.toTask := fun hf => (nomatch hf.1.symm.trans hnot)
      dsimp only
      rw [act_resume_not_fits hr hfits]
      exact ⟨rfl, rfl, rfl, rfl⟩
  | delete =>
    have hr : held.reached = none := h
    dsimp only
    rw [act_delete_not_reached hr]
    exact ⟨rfl, rfl, rfl, rfl⟩


/-! ## Two calls that have read the same row -/

/-- What the second of two calls leaves that have both read the entry. The
second one acts on the entry as it has become, with the row as it was. -/
def Call.stale (takes : Task → Bool) (b₁ b₂ : Level → Bool) (x : Entry) (c₁ c₂ : Call) : Entry :=
  c₂.act takes x.enabled x.paused x.definition b₂
    (c₁.act takes x.enabled x.paused x.definition b₁ x)

/-- **One of the two orders explains the outcome `y`**, if the pools give the
right answers. There are six ways to be explained. The last three are about
single pairs in which the answers of the pools have to be chosen: a pool may
hand out a node that is paused, and the two orders draw from it in different
states. -/
inductive Explained (takes : Task → Bool) (x : Entry) (b₁ b₂ : Level → Bool) (y : Entry) :
    Call → Call → Prop
  | inOrder {c₁ c₂ : Call} (h : y = c₂.whole takes b₂ (c₁.whole takes b₁ x)) :
      Explained takes x b₁ b₂ y c₁ c₂
  | reversed {c₁ c₂ : Call}
      (h : ∀ b₁' b₂', y = c₁.whole takes b₁' (c₂.whole takes b₂' x)) :
      Explained takes x b₁ b₂ y c₁ c₂
  | idle {c₁ c₂ : Call} (idle : c₂.DoesNothing x) (h : y = c₁.whole takes b₁ x) :
      Explained takes x b₁ b₂ y c₁ c₂
  | unpaused (h : ∀ b, y = Call.resume.whole takes b (Call.resume.whole takes (fun _ => false) x)) :
      Explained takes x b₁ b₂ y .resume .resume
  | repeats {q₁ q₂ : TaskUpdateRequest}
      (h : ∀ b, y = (Call.update q₁).whole takes b ((Call.update q₂).whole takes b₁ x)) :
      Explained takes x b₁ b₂ y (.update q₁) (.update q₂)
  | alreadyHeld {q : TaskUpdateRequest} {l : Level} {r : Registration}
      (unscheduled : ¬ x.Scheduled) (reached : (Call.enable.whole takes b₂ x).held.reached = some l)
      (held : (Call.enable.whole takes b₂ x).held l = some r)
      (h : ∀ b, b l = r.paused →
        y = (Call.update q).whole takes b (Call.enable.whole takes b₂ x)) :
      Explained takes x b₁ b₂ y (.update q) .enable

/-- A second call that does what it would have done if it had read the row the
first one leaves. That is the plain case: what it has read stale is what it
would read fresh. -/
theorem Explained.of_live {x₁ : Entry} (hx : x.deleted = false)
    (h₁ : c₁.act takes x.enabled x.paused x.definition b₁ x = x₁) (hlive : x₁.deleted = false)
    (h : c₂.act takes x.enabled x.paused x.definition b₂ x₁
      = c₂.act takes x₁.enabled x₁.paused x₁.definition b₂ x₁) :
    Explained takes x b₁ b₂ (Call.stale takes b₁ b₂ x c₁ c₂) c₁ c₂ := by
  refine .inOrder ?_
  unfold Call.stale
  rw [Call.whole_of_live hx, h₁, Call.whole_of_live hlive, h]

/-- A second call that does what it would have done if it had come first, when
the first then does what it would have done after it. Then the two might as well
have come the other way round. -/
theorem Explained.of_reversed {x₁ x₂ y : Entry} (hx : x.deleted = false)
    (h₁ : c₁.act takes x.enabled x.paused x.definition b₁ x = x₁)
    (h₂ : ∀ b, c₂.act takes x.enabled x.paused x.definition b x = x₂) (hlive : x₂.deleted = false)
    (hstale : c₂.act takes x.enabled x.paused x.definition b₂ x₁ = y)
    (hback : ∀ b, c₁.act takes x₂.enabled x₂.paused x₂.definition b x₂ = y) :
    Explained takes x b₁ b₂ (Call.stale takes b₁ b₂ x c₁ c₂) c₁ c₂ := by
  refine .reversed (fun b₁' b₂' => ?_)
  unfold Call.stale
  rw [Call.whole_of_live hx, h₂, Call.whole_of_live hlive, h₁, hstale, hback]

/-- The first call leaves the row. The second has read what it would have read
anyway. -/
theorem Call.LeavesRow.explained (hx : x.deleted = false) (h : c₁.LeavesRow takes x) :
    Explained takes x b₁ b₂ (Call.stale takes b₁ b₂ x c₁ c₂) c₁ c₂ := by
  have hsame := h.sameRow hx b₁
  refine .inOrder ?_
  rw [Call.whole_of_live hx b₁, Call.whole_of_sameRow hsame hx]
  rfl

/-- The second has nothing to do. It changes nothing, in whatever order. -/
theorem Call.DoesNothing.explained (hx : x.deleted = false) (h : c₂.DoesNothing x) :
    Explained takes x b₁ b₂ (Call.stale takes b₁ b₂ x c₁ c₂) c₁ c₂ := by
  refine .idle h ?_
  unfold Call.stale
  rw [h.act, Call.whole_of_live hx]

/-- Whatever the second call is, if it is a deletion of a row that is live. A
deletion does not go by what it has read. -/
theorem Explained.of_delete {x₁ : Entry} (hx : x.deleted = false)
    (h₁ : c₁.act takes x.enabled x.paused x.definition b₁ x = x₁) (hlive : x₁.deleted = false) :
    Explained takes x b₁ b₂ (Call.stale takes b₁ b₂ x c₁ .delete) c₁ .delete :=
  .of_live hx h₁ hlive rfl

section Explained

variable {e p : Bool} {d : TaskModel} {h : Held} {q : TaskUpdateRequest}

/-- The first call is an update of a row that asks for a node. The first call
has put its node in; what the second does with it is looked at for each call it
may be. -/
theorem explained_update_scheduled (hid : d.id ≠ "")
    (hfits : h.remove.Fits takes (q.apply d).toTask)
    (hc : (Call.update q).Compatible takes ⟨true, false, false, d, h⟩ c₂)
    (hidle : ¬ c₂.DoesNothing ⟨true, false, false, d, h⟩) :
    Explained takes ⟨true, false, false, d, h⟩ b₁ b₂
      (Call.stale takes b₁ b₂ ⟨true, false, false, d, h⟩ (.update q) c₂) (.update q) c₂ := by
  have h₁ : (Call.update q).act takes true false d b₁ ⟨true, false, false, d, h⟩
      = ⟨true, false, false, q.apply d, h.remove.enter b₁ (q.apply d).toTask⟩ :=
    act_update_fits hid hfits
  cases c₂ with
  | update q₂ =>
    rcases hc with hcovers | hrepeats
    · refine .of_live rfl h₁ rfl ?_
      have hover : q₂.apply (q.apply d) = q₂.apply d := hcovers.overwrites
      have hfits₂ : (h.remove.enter b₁ (q.apply d).toTask).remove.Fits takes (q₂.apply d).toTask :=
        ⟨hcovers.takes, hcovers.free _⟩
      dsimp only
      rw [act_update_fits hid hfits₂, act_update_fits (d := q.apply d) hid (hover.symm ▸ hfits₂),
        hover]
    · refine .repeats (fun b => ?_)
      obtain ⟨hnothing, htakes, ⟨hlevel, hnorm⟩, htaken⟩ := hrepeats
      have hnothing : q₂.apply d = d := hnothing
      have hlevel : levelOf (q.apply d).toTask.priority = levelOf d.toTask.priority := hlevel
      have hnorm : normalised (q.apply d).toTask = normalised d.toTask := hnorm
      have hsame : h.remove.enter b₁ (q.apply d).toTask = h.remove.enter b₁ d.toTask := by
        unfold Held.enter
        rw [hlevel, hnorm]
      have hfits₂ : h.remove.Fits takes (q₂.apply d).toTask := by
        rw [hnothing]
        exact ⟨htakes, hlevel ▸ hfits.2⟩
      -- the node the first update puts in is not the one the second takes out
      have hnot : ∀ t : Task, levelOf t.priority = levelOf d.toTask.priority →
          ¬ (h.remove.enter b₁ d.toTask).remove.Fits takes t :=
        fun t ht hf => htaken _ (ht ▸ hf.2)
      have h₂ : (Call.update q₂).whole takes b₁ ⟨true, false, false, d, h⟩
          = ⟨true, false, false, d, h.remove.enter b₁ d.toTask⟩ := by
        rw [Call.whole_of_live rfl]
        dsimp only
        rw [act_update_fits hid hfits₂, hnothing]
      rw [h₂, Call.whole_of_live rfl]
      unfold Call.stale
      dsimp only
      rw [h₁, hsame, act_update_not_fits hid (hnot _ (hnothing.symm ▸ rfl)),
        act_update_not_fits hid (hnot _ hlevel)]
  | enable => exact absurd rfl hidle
  | disable => exact .of_live rfl h₁ rfl rfl
  | pause => exact .of_live rfl h₁ rfl rfl
  | resume => exact absurd rfl hidle
  | delete => exact .of_delete rfl h₁ rfl

/-- It is one of a row that does not. The wheels are left alone by the first
call, and only the definition has changed. -/
theorem explained_update_unscheduled (hid : d.id ≠ "") (hs : ¬ (e = true ∧ p = false))
    (hc : (Call.update q).Compatible takes ⟨e, p, false, d, h⟩ c₂)
    (hidle : ¬ c₂.DoesNothing ⟨e, p, false, d, h⟩) :
    Explained takes ⟨e, p, false, d, h⟩ b₁ b₂
      (Call.stale takes b₁ b₂ ⟨e, p, false, d, h⟩ (.update q) c₂) (.update q) c₂ := by
  have h₁ : ∀ b' h', (Call.update q).act takes e p d b' ⟨e, p, false, d, h'⟩
      = ⟨e, p, false, q.apply d, h'⟩ := fun _ _ => act_update_unscheduled hid hs
  cases c₂ with
  | update q₂ =>
    -- both updates write the whole row, so the later one has to write all the earlier one did
    have hover : q₂.apply (q.apply d) = q₂.apply d := by
      have hif : ite (e = true ∧ p = false) _ _ := hc
      rwa [if_neg hs] at hif
    refine .of_live rfl (h₁ _ _) rfl ?_
    dsimp only
    rw [act_update_unscheduled hid hs, act_update_unscheduled (d := q.apply d) hid hs, hover]
  | enable =>
    obtain rfl : e = false := Bool.eq_false_iff.mpr hidle
    cases p with
    | true => exact .of_live rfl (h₁ _ _) rfl rfl
    | false =>
      have hc : h.Fits takes d.toTask → _ ∨ AlreadyHeld takes ⟨false, false, false, d, h⟩ q :=
        hc.resolve_left Bool.false_ne_true
      by_cases hfits : h.Fits takes d.toTask
      -- the enabling call took the old definition into the wheel: either the new one
      -- makes the same node, or the node the new one would get is there already
      · rcases hc hfits with ⟨hfits', hlevel, hnorm⟩ | ⟨htakes, hother, hreached, b, hheld⟩
        · refine .of_live rfl (h₁ _ _) rfl ?_
          have hfits' : h.Fits takes (q.apply d).toTask := hfits'
          have hlevel : levelOf (q.apply d).toTask.priority = levelOf d.toTask.priority := hlevel
          have hnorm : normalised (q.apply d).toTask = normalised d.toTask := hnorm
          have hsame : h.enter b₂ (q.apply d).toTask = h.enter b₂ d.toTask := by
            unfold Held.enter
            rw [hlevel, hnorm]
          dsimp only
          rw [act_enable_fits hfits, act_enable_fits (d := q.apply d) hfits', hsame]
        · have h₂ : Call.enable.whole takes b₂ ⟨false, false, false, d, h⟩
              = ⟨true, false, false, d, h.enter b₂ d.toTask⟩ := by
            rw [Call.whole_of_live rfl]
            dsimp only
            rw [act_enable_fits hfits]
          refine .alreadyHeld (fun hs => (nomatch hs.1)) (by rw [h₂]; exact hreached _)
            (by rw [h₂]; exact (Held.put_of_ne h hother _).trans hheld) (fun b' hb' => ?_)
          have hr : (h.enter b₂ d.toTask).reached = some (levelOf (q.apply d).toTask.priority) :=
            hreached _
          have hfits' : (h.enter b₂ d.toTask).remove.Fits takes (q.apply d).toTask := by
            refine ⟨htakes, ?_⟩
            rw [Held.remove_of_reached hr, Function.update_self]
          have hback : (h.enter b₂ d.toTask).remove.enter b' (q.apply d).toTask
              = h.enter b₂ d.toTask := by
            have hl : h.enter b₂ d.toTask (levelOf (q.apply d).toTask.priority)
                = some ⟨normalised (q.apply d).toTask, b⟩ := (Held.put_of_ne h hother _).trans hheld
            rw [Held.remove_of_reached hr, Held.enter, Held.put, Function.update_idem,
              show b' (levelOf (q.apply d).toTask.priority) = b from hb', ← hl,
              Function.update_eq_self]
          rw [h₂, Call.whole_of_live rfl]
          unfold Call.stale
          dsimp only
          rw [h₁, act_update_fits hid hfits', hback, act_enable_fits hfits]
      -- neither is taken, so the row is as if `Enable` had come first
      · exact .of_reversed rfl (h₁ _ _) (fun _ => act_enable_not_fits hfits) rfl
          (act_enable_not_fits hfits) (fun b => h₁ b h)
  | disable => exact .of_live rfl (h₁ _ _) rfl rfl
  | pause => exact .of_live rfl (h₁ _ _) rfl rfl
  | resume =>
    obtain rfl : p = true := Bool.eq_true_of_not_eq_false hidle
    cases e with
    | false => exact .of_live rfl (h₁ _ _) rfl rfl
    | true =>
      have hc : h.reached ≠ none ∨ (takes d.toTask = true →
          takes (q.apply d).toTask = true ∧ SameNode (q.apply d).toTask d.toTask) :=
        hc.resolve_left (Bool.noConfusion)
      -- with a node in reach `Resume` lifts its flag and does not look at the definition
      by_cases hr : h.reached = none
      · have hfree : ∀ l, h l = none := Held.reached_eq_none.mp hr
        cases htakes : takes d.toTask with
        | true =>
          obtain ⟨htakes', hlevel, hnorm⟩ := hc.resolve_left (not_not_intro hr) htakes
          refine .of_live rfl (h₁ _ _) rfl ?_
          have hsame : h.enter b₂ (q.apply d).toTask = h.enter b₂ d.toTask := by
            unfold Held.enter
            rw [hlevel, hnorm]
          have hfits : h.Fits takes d.toTask := ⟨htakes, hfree _⟩
          have hfits' : h.Fits takes (q.apply d).toTask := ⟨htakes', hfree _⟩
          dsimp only
          rw [act_resume_fits hr hfits, act_resume_fits (d := q.apply d) hr hfits', hsame]
        | false =>
          have hnot := Held.not_fits_of_takes htakes h
          exact .of_reversed rfl (h₁ _ _) (fun _ => act_resume_not_fits hr hnot) rfl
            (act_resume_not_fits hr hnot) (fun b => h₁ b h)
      · refine .of_live rfl (h₁ _ _) rfl ?_
        dsimp only
        rw [act_resume_reached hr, act_resume_reached hr]
  | delete => exact .of_delete rfl (h₁ _ _) rfl

/-- The second call is an update to a task that is rejected, of a row that asks
for a node. It takes out the node that is reached, and the first call fails if
that was the last one. -/
theorem explained_rejected {x₁ : Entry} (hid : d.id ≠ "")
    (htakes : takes (q.apply d).toTask = false)
    (h₁ : c₁.act takes true false d b₁ ⟨true, false, false, d, h⟩ = x₁)
    (hstale : (Call.update q).act takes true false d b₂ x₁ = ⟨true, false, false, d, h.remove⟩)
    (hback : ∀ b, c₁.act takes true false d b ⟨true, false, false, d, h.remove⟩
      = ⟨true, false, false, d, h.remove⟩) :
    Explained takes ⟨true, false, false, d, h⟩ b₁ b₂
      (Call.stale takes b₁ b₂ ⟨true, false, false, d, h⟩ c₁ (.update q)) c₁ (.update q) :=
  .of_reversed rfl h₁ (fun _ => act_update_not_fits hid (Held.not_fits_of_takes htakes _)) rfl
    hstale hback

/-- The first call is an `Enable` that goes through. -/
theorem explained_enable (henter : p = true ∨ h.Fits takes d.toTask)
    (hc : Call.enable.Compatible takes ⟨false, p, false, d, h⟩ c₂)
    (hidle : ¬ c₂.DoesNothing ⟨false, p, false, d, h⟩) :
    Explained takes ⟨false, p, false, d, h⟩ b₁ b₂
      (Call.stale takes b₁ b₂ ⟨false, p, false, d, h⟩ .enable c₂) .enable c₂ := by
  cases c₂ with
  | update q => exact absurd hc.1.1 Bool.false_ne_true
  | enable =>
    obtain rfl : p = true := hc
    exact .inOrder rfl
  | disable => exact absurd rfl hidle
  | pause => exact hc.elim
  | resume =>
    obtain rfl : p = true := Bool.eq_true_of_not_eq_false hidle
    exact .of_reversed rfl rfl (fun _ => rfl) rfl rfl (fun _ => act_enable_not_fits hc)
  | delete =>
    cases p with
    | true => exact .of_delete rfl rfl rfl
    | false => exact .of_delete rfl (act_enable_fits (henter.resolve_left Bool.false_ne_true)) rfl

/-- It is a `Disable` that goes through: the node is gone, and the row says
disabled. -/
theorem explained_disable (hr : h.reached ≠ none)
    (hc : Call.disable.Compatible takes ⟨true, p, false, d, h⟩ c₂)
    (hidle : ¬ c₂.DoesNothing ⟨true, p, false, d, h⟩) :
    Explained takes ⟨true, p, false, d, h⟩ b₁ b₂
      (Call.stale takes b₁ b₂ ⟨true, p, false, d, h⟩ .disable c₂) .disable c₂ := by
  have h₁ : Call.disable.act takes true p d b₁ ⟨true, p, false, d, h⟩
      = ⟨false, p, false, d, h.remove⟩ := act_disable_reached hr
  cases c₂ with
  | update q =>
    obtain ⟨⟨-, hp⟩, hlast, htakes⟩ := hc
    obtain rfl : p = false := hp
    have hlast : h.remove.reached = none := hlast
    refine explained_rejected hidle htakes h₁ ?_ (fun _ => act_disable_not_reached hlast)
    rw [act_update_not_fits hidle (Held.not_fits_of_takes htakes _),
      Held.remove_of_reached_none hlast]
  | enable => exact hc.elim
  | disable => exact hc.elim
  | pause => exact hc.elim
  | resume => exact hc.elim
  | delete => exact .of_delete rfl h₁ rfl

/-- It is a `Pause` that goes through: the node is flagged. -/
theorem explained_pause (hr : h.reached ≠ none)
    (hc : Call.pause.Compatible takes ⟨e, false, false, d, h⟩ c₂)
    (hidle : ¬ c₂.DoesNothing ⟨e, false, false, d, h⟩) :
    Explained takes ⟨e, false, false, d, h⟩ b₁ b₂
      (Call.stale takes b₁ b₂ ⟨e, false, false, d, h⟩ .pause c₂) .pause c₂ := by
  have h₁ : Call.pause.act takes e false d b₁ ⟨e, false, false, d, h⟩
      = ⟨e, true, false, d, h.setPaused true⟩ := act_pause_reached hr
  have hr' : (h.setPaused true).reached ≠ none := by rwa [Held.reached_setPaused]
  cases c₂ with
  | update q =>
    obtain ⟨⟨he, -⟩, hlast, htakes⟩ := hc
    obtain rfl : e = true := he
    refine explained_rejected hidle htakes h₁ ?_ (fun _ => act_pause_not_reached hlast)
    rw [act_update_not_fits hidle (Held.not_fits_of_takes htakes _), Held.remove_setPaused]
  | enable => exact hc.elim
  | disable =>
    obtain rfl : e = true := Bool.eq_true_of_not_eq_false hidle
    refine .of_reversed rfl h₁ (fun _ => act_disable_reached hr) rfl ?_
      (fun _ => act_pause_not_reached hc)
    dsimp only
    rw [act_disable_reached hr', Held.remove_setPaused]
  | pause =>
    have h₂ : Call.pause.act takes e false d b₂ ⟨e, true, false, d, h.setPaused true⟩
        = ⟨e, true, false, d, h.setPaused true⟩ := by
      rw [act_pause_reached hr', Held.setPaused_setPaused]
    exact .of_live rfl h₁ rfl h₂
  | resume => exact absurd rfl hidle
  | delete => exact .of_delete rfl h₁ rfl

/-- It is a `Resume` that goes through. -/
theorem explained_resume (hadds : e = true → h.reached = none → h.Fits takes d.toTask)
    (hc : Call.resume.Compatible takes ⟨e, true, false, d, h⟩ c₂)
    (hidle : ¬ c₂.DoesNothing ⟨e, true, false, d, h⟩) :
    Explained takes ⟨e, true, false, d, h⟩ b₁ b₂
      (Call.stale takes b₁ b₂ ⟨e, true, false, d, h⟩ .resume c₂) .resume c₂ := by
  cases c₂ with
  | update q => exact absurd hc.1.2.symm Bool.false_ne_true
  | enable =>
    obtain rfl : e = false := Bool.eq_false_iff.mpr hidle
    obtain ⟨hr, htakes⟩ := hc
    exact .of_reversed rfl rfl (fun _ => rfl) rfl rfl
      (fun _ => act_resume_not_fits hr (Held.not_fits_of_takes htakes h))
  | disable => exact hc.elim
  | pause => exact absurd rfl hidle
  | resume =>
    cases e with
    | false => exact .of_live rfl rfl rfl rfl
    | true =>
      by_cases hr : h.reached = none
      · have hfits := hadds rfl hr
        have h₁ : ∀ b, Call.resume.act takes true true d b ⟨true, true, false, d, h⟩
            = ⟨true, false, false, d, h.enter b d.toTask⟩ := fun b => act_resume_fits hr hfits
        -- the second call clears the flag the pool may have set
        have hclear : (h.enter b₁ d.toTask).setPaused false
            = h.enter (fun _ => false) d.toTask := by
          unfold Held.enter
          rw [Held.setPaused_of_reached (Held.reached_put _ (Held.reached_eq_none.mp hr))
            (Held.put_self _ _ _), Held.put, Function.update_idem]
          rfl
        have hfirst : Call.resume.whole takes (fun _ => false) ⟨true, true, false, d, h⟩
            = ⟨true, false, false, d, h.enter (fun _ => false) d.toTask⟩ :=
          (Call.whole_of_live rfl _ _).trans (h₁ _)
        refine .unpaused (fun b => ?_)
        rw [hfirst, Call.whole_of_live rfl]
        unfold Call.stale
        dsimp only
        have hreached : (h.enter b₁ d.toTask).reached ≠ none := Held.reached_put_ne_none _ _ _
        rw [h₁, act_resume_reached hreached, hclear]
        rfl
      · have hr' : (h.setPaused false).reached ≠ none := by rwa [Held.reached_setPaused]
        refine .of_live rfl (act_resume_reached hr) rfl ?_
        dsimp only
        rw [act_resume_reached hr', Held.setPaused_setPaused]
        rfl
  | delete =>
    cases e with
    | false => exact .of_delete rfl rfl rfl
    | true =>
      by_cases hr : h.reached = none
      · exact .of_delete rfl (act_resume_fits hr (hadds rfl hr)) rfl
      · exact .of_delete rfl (act_resume_reached hr) rfl

/-- Nothing is done by a call that finds the row deleted, so a second call that
has read it before must do nothing either. -/
theorem Explained.of_deleted {x₁ : Entry} (hx : x.deleted = false)
    (h₁ : c₁.act takes x.enabled x.paused x.definition b₁ x = x₁) (hdel : x₁.deleted = true)
    (h₂ : c₂.act takes x.enabled x.paused x.definition b₂ x₁ = x₁) :
    Explained takes x b₁ b₂ (Call.stale takes b₁ b₂ x c₁ c₂) c₁ c₂ := by
  refine .inOrder ?_
  unfold Call.stale
  rw [Call.whole_of_live hx, h₁, h₂]
  exact (if_pos hdel).symm

/-- It is a `Delete` that goes through. -/
theorem explained_delete (hr : h.reached ≠ none)
    (hc : Call.delete.Compatible takes ⟨e, p, false, d, h⟩ c₂)
    (hidle : ¬ c₂.DoesNothing ⟨e, p, false, d, h⟩) :
    Explained takes ⟨e, p, false, d, h⟩ b₁ b₂
      (Call.stale takes b₁ b₂ ⟨e, p, false, d, h⟩ .delete c₂) .delete c₂ := by
  have h₁ : Call.delete.act takes e p d b₁ ⟨e, p, false, d, h⟩
      = ⟨e, p, true, d, h.remove⟩ := act_delete_reached hr
  cases c₂ with
  | update q =>
    -- the row is gone, and the update finds nothing to take out and adds nothing
    obtain ⟨⟨he, hp⟩, hlast, htakes, htakes'⟩ := hc
    obtain rfl : e = true := he
    obtain rfl : p = false := hp
    have hlast : h.remove.reached = none := hlast
    refine explained_rejected hidle htakes h₁ ?_ (fun _ => act_delete_not_reached hlast)
    rw [act_update_deleted q hidle, if_pos ⟨rfl, rfl⟩,
      if_neg (Held.not_fits_of_takes htakes' _), Held.remove_of_reached_none hlast]
  | enable =>
    obtain rfl : e = false := Bool.eq_false_iff.mpr hidle
    refine .of_deleted rfl h₁ rfl ?_
    rw [act_enable_deleted, if_neg]
    rintro ⟨rfl, hfits⟩
    exact hc.resolve_left Bool.false_ne_true hfits
  | disable =>
    obtain rfl : e = true := Bool.eq_true_of_not_eq_false hidle
    refine .of_deleted rfl h₁ rfl ?_
    rw [act_disable_deleted, Held.remove_of_reached_none hc]
  | pause =>
    obtain rfl : p = false := Bool.eq_false_iff.mpr hidle
    refine .of_deleted rfl h₁ rfl ?_
    rw [act_pause_deleted, show h.remove.setPaused true = h.remove from hc]
  | resume =>
    obtain rfl : p = true := Bool.eq_true_of_not_eq_false hidle
    refine .of_deleted rfl h₁ rfl ?_
    rw [act_resume_deleted]
    rcases hc with he | ⟨hpaused, htakes⟩
    · exact if_pos he
    · cases e with
      | false => rfl
      | true =>
        rw [if_neg (Bool.noConfusion)]
        by_cases hlast : h.remove.reached = none
        · have hrejected : takes d.toTask = false := htakes hlast
          rw [if_pos hlast]
          exact if_neg (Held.not_fits_of_takes hrejected _)
        · rw [if_neg hlast, show h.remove.setPaused false = h.remove from hpaused]
  | delete => exact hc.elim

end Explained

/-- **A harmless pair of calls is explained by one of the two orders.** Row by
row of the condition, one of the six ways is given. -/
theorem Call.Harmless.explained (hx : x.deleted = false) (h : c₁.Harmless takes x c₂)
    (b₁ b₂ : Level → Bool) :
    Explained takes x b₁ b₂ (Call.stale takes b₁ b₂ x c₁ c₂) c₁ c₂ := by
  by_cases hleaves : c₁.LeavesRow takes x
  · exact hleaves.explained hx
  by_cases hidle : c₂.DoesNothing x
  · exact hidle.explained hx
  -- both calls have something to do, so the condition is the one on the pair
  have hc := (h.resolve_left hleaves).resolve_left hidle
  obtain ⟨e, p, del, d, held⟩ := x
  obtain rfl : del = false := hx
  cases c₁ with
  | update q =>
    have hid : d.id ≠ "" := fun hid => hleaves (.inl hid)
    by_cases hs : e = true ∧ p = false
    · obtain ⟨rfl, rfl⟩ := hs
      have hfits : held.remove.Fits takes (q.apply d).toTask := by
        by_contra hfits
        exact hleaves (.inr (.inr ⟨⟨rfl, rfl⟩, hfits⟩))
      exact explained_update_scheduled hid hfits hc hidle
    · exact explained_update_unscheduled hid hs hc hidle
  | enable =>
    obtain rfl : e = false := Bool.eq_false_iff.mpr (fun he => hleaves (.inl he))
    have henter : p = true ∨ held.Fits takes d.toTask := by
      by_contra hnot
      obtain ⟨hp, hfits⟩ := not_or.mp hnot
      exact hleaves (.inr ⟨Bool.eq_false_iff.mpr hp, hfits⟩)
    exact explained_enable henter hc hidle
  | disable =>
    obtain rfl : e = true := Bool.eq_true_of_not_eq_false (fun he => hleaves (.inl he))
    exact explained_disable (fun hr => hleaves (.inr hr)) hc hidle
  | pause =>
    obtain rfl : p = false := Bool.eq_false_iff.mpr (fun hp => hleaves (.inl hp))
    exact explained_pause (fun hr => hleaves (.inr hr)) hc hidle
  | resume =>
    obtain rfl : p = true := Bool.eq_true_of_not_eq_false (fun hp => hleaves (.inl hp))
    have hadds : e = true → held.reached = none → held.Fits takes d.toTask := by
      refine fun he hr => ⟨?_, Held.reached_eq_none.mp hr _⟩
      by_contra htakes
      exact hleaves (.inr ⟨he, hr, Bool.eq_false_iff.mpr htakes⟩)
    exact explained_resume hadds hc hidle
  | delete => exact explained_delete hleaves hc hidle

end AtomicTaskService

end Timewheel
