import Timewheel.Agreement

/-!
# Free IDs

`Create` decides twice whether an ID is taken. It asks `GetByID` first, which
leaves out soft-deleted rows, and then inserts the row, where the primary key
counts, which a soft-deleted row still has. Such rows are left by `Delete` and
by `Create` itself, when the wheel rejects the task and the row is deleted
again.

`creatable_iff` says in which runs an ID can be created whenever it is not
found: those in which no row with that ID is soft-deleted. The wheel is not in
the way, since it holds nothing that has no live row (`Backed`).

The proof goes by outcomes, as in `Agreement`: what a call makes of the row
and of what is held under its ID. Two facts about outcomes are enough. What is
held still has a live row that is enabled (`backed_outcome`, `backed_create`),
and the row is soft-deleted afterwards exactly if the call has deleted it
(`softDeleted_outcome`, `softDeleted_create`).
-/

namespace Timewheel

open TimeWheel (checkTask)
open MultiLevelTimeWheel
open AtomicTaskService

/-! ## The property and the condition -/

/-- The wheel accepts the task of the request, if it is asked. A request that is
not enabled does not ask it. -/
def TaskCreateRequest.Accepted (req : TaskCreateRequest) : Prop :=
  req.enabled = true → accepts req.toTaskModel.withDefaults.toTask = true

instance (req : TaskCreateRequest) : Decidable req.Accepted := inferInstanceAs (Decidable (_ → _))

/-- **A free ID can be created**: when `GetByID` does not find it, a request
with that ID which the wheel accepts succeeds, in either service. The property
speaks of all requests with that ID, whatever their other fields. -/
def ServiceState.Creatable (g : Gorm) (id : String) (s : ServiceState) : Prop :=
  ∀ (svc : Service) (req : TaskCreateRequest) (e : DbEnv) (env : ServiceEnv), e.fault = false →
    env.Calm → req.id = id → (∃ err, repoGetByID g s.tasks id e = .error err) → req.Accepted →
      (svc.call g s (.create req) env).1 = none

/-- **The call deletes no row of the ID.** A creation deletes the row it has
inserted when the wheel rejects the task; the atomic `Delete` puts the row back
when the wheels hold nothing. Everything here can be known before the call. -/
def ServiceState.Spares (s : ServiceState) (id : String) (op : Operation) (env : ServiceEnv)
    (svc : Service) : Prop :=
  match op with
  | .create req =>
    (svc.requestOf req env).id = id → s.tasks id = none → (svc.requestOf req env).Accepted
  | .call id' .delete => id' = id → s.tasks.live id ≠ none →
      svc = .atomicTaskService ∧ (s.timeWheel.held id).reached = none
  | .call _ (.update _) => True
  | .call _ .enable => True
  | .call _ .disable => True
  | .call _ .pause => True
  | .call _ .resume => True

instance (s : ServiceState) (id : String) (op : Operation) (env : ServiceEnv) (svc : Service) :
    Decidable (s.Spares id op env svc) :=
  match op with
  | .create req => inferInstanceAs (Decidable
      ((svc.requestOf req env).id = id → s.tasks id = none → (svc.requestOf req env).Accepted))
  | .call id' .delete => inferInstanceAs (Decidable (id' = id → s.tasks.live id ≠ none →
      svc = .atomicTaskService ∧ (s.timeWheel.held id).reached = none))
  | .call _ (.update _) => isTrue trivial
  | .call _ .enable => isTrue trivial
  | .call _ .disable => isTrue trivial
  | .call _ .pause => isTrue trivial
  | .call _ .resume => isTrue trivial

/-- The same of a step of the system. What the wheels do in the background
deletes no rows. -/
def ServiceSystem.Spares (id : String) (s : ServiceSystem) : ServiceAction → ServiceSystem → Prop
  | .call svc op env, _ => s.service.Spares id op env svc
  | .background _ _, _ => True

instance (id : String) (s : ServiceSystem) (a : ServiceAction) (s' : ServiceSystem) :
    Decidable (s.Spares id a s') :=
  match a with
  | .call svc op env => inferInstanceAs (Decidable (s.service.Spares id op env svc))
  | .background _ _ => isTrue trivial

/-! ## What the wheels hold has a row -/

variable {g : Gorm} {s : ServiceState} {id : String} {row : Option TaskModel} {r : TaskModel}
  {env : ServiceEnv} {h : Held}

/-- What is held under an ID is held in one wheel, and has a live row that is
enabled. So when there is no live row, nothing is in the way of a new one. -/
structure Backed (row : Option TaskModel) (h : Held) : Prop where
  single : h.Single
  enabled : h.reached ≠ none → ∃ r ∈ liveRow row, r.enabled = true

/-- A row is live if it is there and not deleted. -/
theorem liveRow_eq_some : liveRow row = some r ↔ row = some r ∧ r.deletedAt = none := by
  unfold liveRow
  rw [Option.filter_eq_some_iff, Option.isNone_iff_eq_none]

/-- Nothing is held. Then there is nothing to be said. -/
theorem backed_of_reached_none (hh : h.reached = none) (row : Option TaskModel) : Backed row h :=
  ⟨Held.single_of_forall_none (Held.reached_eq_none.mp hh), fun hne => absurd hh hne⟩

/-- A live row that is enabled backs one registration. -/
theorem backed_of_enabled (hs : h.Single) (hdel : r.deletedAt = none) (he : r.enabled = true) :
    Backed (some r) h := ⟨hs, fun _ => ⟨r, liveRow_eq_some.mpr ⟨rfl, hdel⟩, he⟩⟩

/-- Without a live row nothing is held. This is what a creation needs to know. -/
theorem Backed.reached_of_missing (hb : Backed row h) (hnone : liveRow row = none) :
    h.reached = none := by
  by_contra hne
  obtain ⟨r, hr, -⟩ := hb.enabled hne
  exact (nomatch hnone.symm.trans hr)

/-- For a row that is disabled neither. Disabling takes the task out of the
wheels. -/
theorem Backed.reached_of_disabled (hb : Backed row h) (hlive : liveRow row = some r)
    (he : r.enabled = false) : h.reached = none := by
  by_contra hne
  obtain ⟨r', hr', he'⟩ := hb.enabled hne
  obtain rfl := Option.some.inj (hlive.symm.trans hr')
  exact Bool.false_ne_true (he.symm.trans he')

/-- Removing the only registration leaves none. -/
theorem Held.Single.reached_remove (hs : h.Single) : h.remove.reached = none :=
  Held.reached_eq_none.mpr hs.remove

/-- Adding where nothing is held leaves one registration or none. None if the
wheel rejects it. -/
theorem single_add (hh : h.reached = none) (task : Task) (b : Bool) : (h.add task b).2.Single := by
  have hnone := Held.reached_eq_none.mp hh
  by_cases ht : h.Takes task
  · rw [Held.add_of_takes ht]
    exact Held.single_put hnone _ _
  · rw [Held.add_of_not_takes ht]
    exact Held.single_of_forall_none hnone

/-- A row that is written as it was, as far as the two flags go, for what is
held in the same wheels. Other columns are free to change. -/
theorem Backed.congr {h' : Held} {r' : TaskModel} (hb : Backed row h) (hlive : liveRow row = some r)
    (hs : h'.Single) (hreached : h'.reached = h.reached) (hdel : r'.deletedAt = none)
    (he : r'.enabled = r.enabled) : Backed (some r') h' := by
  refine ⟨hs, fun hne => ?_⟩
  obtain ⟨r₀, hr₀, he₀⟩ := hb.enabled (hreached ▸ hne)
  obtain rfl := Option.some.inj (hlive.symm.trans hr₀)
  exact ⟨r', liveRow_eq_some.mpr ⟨rfl, hdel⟩, he.trans he₀⟩

/-- A call that changes neither flag leaves either row as it was. It may be
written or rolled back. -/
theorem rowAfter_kept {c : Call} (hdel : (c.rowAfter r).deletedAt = r.deletedAt)
    (he : (c.rowAfter r).enabled = r.enabled) (b : Bool) :
    (if b then c.rowAfter r else r).deletedAt = r.deletedAt
      ∧ (if b then c.rowAfter r else r).enabled = r.enabled := by
  cases b with
  | false => exact ⟨rfl, rfl⟩
  | true => exact ⟨hdel, he⟩

/-- **A call on an existing task** keeps it so. Each call either leaves the
wheels alone, or leaves one registration of a row that is enabled, or none. -/
theorem backed_outcome (hb : Backed row h) (svc : Service) (c : Call) (b : Bool) :
    Backed (c.outcome svc row h b).2.1 (c.outcome svc row h b).2.2 := by
  unfold Call.outcome
  cases hlive : liveRow row with
  | none =>
    -- there is no live row: only `Delete` of the plain service still reaches the wheels
    cases svc with
    | atomicTaskService => exact hb
    | taskService =>
      cases c with
      | delete => exact backed_of_reached_none hb.single.reached_remove row
      | _ => exact hb
  | some r =>
    obtain ⟨rfl, hdel⟩ := liveRow_eq_some.mp hlive
    dsimp only
    by_cases hidle : c.idle r = true
    · rw [if_pos hidle]
      exact hb
    rw [if_neg hidle]
    dsimp only
    cases c with
    | update req =>
      obtain ⟨hdel', he⟩ := rowAfter_kept (r := r) (c := .update req) rfl rfl
        ((Call.wheelStep (.update req) r h b).1 || !svc.rollsBack (.update req))
      unfold Call.wheelStep at hdel' he ⊢
      by_cases hsched : (r.enabled && !r.paused) = true
      · -- the new definition takes the place of the old one
        simp only [if_pos hsched] at hdel' he ⊢
        have hen := (Bool.and_eq_true_iff.mp hsched).1
        exact backed_of_enabled (single_add hb.single.reached_remove _ _) (hdel'.trans hdel)
          (he.trans hen)
      · simp only [if_neg hsched] at hdel' he ⊢
        exact hb.congr hlive hb.single rfl (hdel'.trans hdel) he
    | enable =>
      have hnone := hb.reached_of_disabled hlive (Bool.eq_false_iff.mpr hidle)
      unfold Call.wheelStep
      by_cases hp : r.paused = true
      · simp only [if_pos hp]
        exact backed_of_reached_none hnone _
      · simp only [if_neg hp]
        -- a task that is not taken leaves the wheels as they are, and the row is
        -- enabled or not
        by_cases ht : h.Takes r.toTask
        · have hsingle := single_add hnone r.toTask b
          rw [Held.add_of_takes ht] at hsingle ⊢
          exact backed_of_enabled hsingle hdel rfl
        · rw [Held.add_of_not_takes ht]
          exact backed_of_reached_none hnone _
    | disable => exact backed_of_reached_none hb.single.reached_remove _
    | pause =>
      obtain ⟨hdel', he⟩ := rowAfter_kept (r := r) (c := .pause) rfl rfl
        (h.reached.isSome || !svc.rollsBack .pause)
      exact hb.congr hlive (hb.single.single_setPaused true) (h.reached_setPaused true)
        (hdel'.trans hdel) he
    | resume =>
      obtain ⟨hdel', he⟩ := rowAfter_kept (r := r) (c := .resume) rfl rfl
        ((Call.wheelStep .resume r h b).1 || !svc.rollsBack .resume)
      unfold Call.wheelStep at hdel' he ⊢
      by_cases hen : r.enabled = true
      · simp only [if_pos hen] at hdel' he ⊢
        by_cases hreached : h.reached.isSome = true
        · simp only [if_pos hreached] at hdel' he ⊢
          exact hb.congr hlive (hb.single.single_setPaused false) (h.reached_setPaused false)
            (hdel'.trans hdel) he
        · -- the task was not there, and is added
          simp only [if_neg hreached] at hdel' he ⊢
          have hnone : h.reached = none := Option.not_isSome_iff_eq_none.mp hreached
          exact backed_of_enabled (single_add hnone _ _) (hdel'.trans hdel) (he.trans hen)
      · simp only [if_neg hen] at hdel' he ⊢
        exact hb.congr hlive hb.single rfl (hdel'.trans hdel) he
    | delete => exact backed_of_reached_none hb.single.reached_remove _

/-- Where nothing is held only the checks count. There is no duplicate to be
found. -/
theorem takes_iff (hh : h.reached = none) (task : Task) : h.Takes task ↔ accepts task = true :=
  and_iff_left (Held.reached_eq_none.mp hh _)

/-- **`Create`** keeps it so. The new row is enabled if its task has been added. -/
theorem backed_create (hb : Backed row h) (req : TaskCreateRequest) (b : Bool) :
    Backed (req.outcome row h b).2.1 (req.outcome row h b).2.2 := by
  unfold TaskCreateRequest.outcome
  cases row with
  | some r => exact hb
  | none =>
    have hnone := hb.reached_of_missing rfl
    dsimp only
    by_cases hen : req.enabled = true
    · rw [if_pos hen]
      by_cases ht : h.Takes req.toTaskModel.withDefaults.timeless.toTask
      · have hsingle := single_add hnone req.toTaskModel.withDefaults.timeless.toTask b
        rw [Held.add_of_takes ht] at hsingle ⊢
        exact backed_of_enabled hsingle rfl hen
      · rw [Held.add_of_not_takes ht]
        exact backed_of_reached_none hnone _
    · rw [if_neg hen]
      exact backed_of_reached_none hnone _

/-! ## Soft-deleted rows -/

/-- The row is there, and soft-deleted. Such a row is invisible to `GetByID`,
and still has its key. -/
def SoftDeleted (row : Option TaskModel) : Prop := ∃ r ∈ row, r.deletedAt ≠ none

/-- A row is soft-deleted if it has a time of deletion, -/
theorem softDeleted_some : SoftDeleted (some r) ↔ r.deletedAt ≠ none :=
  ⟨fun ⟨_, hr, hdel⟩ => Option.some.inj hr ▸ hdel, fun hdel => ⟨r, rfl, hdel⟩⟩

/-- and no row is not. -/
theorem not_softDeleted_none : ¬ SoftDeleted none := fun ⟨_, hr, _⟩ => (nomatch hr)

/-- A row that is there and not live. This is how the code comes to disagree
with itself: the first check sees no row, the insertion does. -/
theorem softDeleted_iff : SoftDeleted row ↔ row ≠ none ∧ liveRow row = none := by
  cases row with
  | none => exact iff_of_false not_softDeleted_none (fun h => h.1 rfl)
  | some r =>
    rw [softDeleted_some]
    unfold liveRow
    cases hdel : r.deletedAt with
    | none => simp [Option.filter_some, hdel]
    | some t => simp [Option.filter_some, hdel]

/-- **A call on an existing task** deletes its row if it is a deletion that is
not taken back. The atomic service puts the row back if the wheels had nothing
to remove. -/
theorem softDeleted_outcome (hrow : ¬ SoftDeleted row) (svc : Service) (c : Call) (b : Bool) :
    SoftDeleted (c.outcome svc row h b).2.1
      ↔ c.isDelete = true ∧ liveRow row ≠ none ∧ (svc = .taskService ∨ h.reached ≠ none) := by
  unfold Call.outcome
  cases hlive : liveRow row with
  | none =>
    refine iff_of_false ?_ (fun h => h.2.1 rfl)
    cases svc with
    | atomicTaskService => exact hrow
    | taskService => cases c <;> exact hrow
  | some r =>
    obtain ⟨rfl, hdel⟩ := liveRow_eq_some.mp hlive
    dsimp only
    cases hc : c.isDelete with
    | false =>
      refine iff_of_false ?_ (fun h => (nomatch h.1))
      have hafter : (c.rowAfter r).deletedAt = none := by
        cases c with
        | delete => cases hc
        | _ => exact hdel
      split_ifs
      · exact hrow
      · exact fun h => softDeleted_some.mp h hafter
      · exact hrow
    | true =>
      obtain rfl : c = .delete := by
        cases c with
        | delete => rfl
        | _ => cases hc
      rw [if_neg (show ¬ Call.delete.idle r = true from Bool.false_ne_true), softDeleted_some]
      have hrow' : (if h.reached.isSome || !svc.rollsBack .delete then Call.delete.rowAfter r
          else r).deletedAt ≠ none ↔ h.reached.isSome || !svc.rollsBack .delete := by
        split_ifs with hdone
        · exact iff_of_true (Option.some_ne_none _) hdone
        · exact iff_of_false (fun hne => hne hdel) hdone
      refine hrow'.trans ?_
      cases svc with
      | taskService => simp [Service.rollsBack]
      | atomicTaskService => simp [Service.rollsBack, Option.isSome_iff_ne_none]

/-- **`Create`** does if the wheel rejects the task. The row it has inserted is
deleted again, and stays as a soft-deleted one. -/
theorem softDeleted_create (hb : Backed row h) (hrow : ¬ SoftDeleted row) (req : TaskCreateRequest)
    (b : Bool) : SoftDeleted (req.outcome row h b).2.1 ↔ row = none ∧ ¬ req.Accepted := by
  unfold TaskCreateRequest.outcome TaskCreateRequest.Accepted
  cases row with
  | some r => exact iff_of_false hrow (fun h => (nomatch h.1))
  | none =>
    have hnone := hb.reached_of_missing rfl
    have htakes : h.Takes req.toTaskModel.withDefaults.timeless.toTask
        ↔ accepts req.toTaskModel.withDefaults.toTask = true := takes_iff hnone _
    dsimp only
    by_cases hen : req.enabled = true
    · rw [if_pos hen]
      by_cases ht : h.Takes req.toTaskModel.withDefaults.timeless.toTask
      · rw [Held.add_of_takes ht]
        exact iff_of_false (fun h => softDeleted_some.mp h rfl)
          (fun h => h.2 (fun _ => htakes.mp ht))
      · rw [Held.add_of_not_takes ht]
        refine iff_of_true (softDeleted_some.mpr (Option.some_ne_none _)) ⟨rfl, fun hacc => ?_⟩
        exact ht (htakes.mpr (hacc hen))
    · rw [if_neg hen]
      exact iff_of_false (fun h => softDeleted_some.mp h rfl)
        (fun h => h.2 (fun he => absurd he hen))

/-! ## The calls -/

/-- A service whose wheels run, and hold nothing that has no row. The invariant
of the runs. -/
structure ServiceState.Sound (s : ServiceState) : Prop where
  works : s.Works
  backed : ∀ id, Backed (s.row id) (s.timeWheel.held id)

/-- Time stamps do not decide whether there is a row, -/
theorem row_eq_none : s.row id = none ↔ s.tasks id = none := Option.map_eq_none_iff

/-- or a live one. -/
theorem liveRow_row_eq_none : liveRow (s.row id) = none ↔ s.tasks.live id = none := by
  rw [liveRow_row, Option.map_eq_none_iff]

/-- A task to run every second is accepted under any ID. So there is always a
request to try an ID with. -/
theorem accepted_everySecondRequest (hid : id ≠ "") : (everySecondRequest id).Accepted := by
  intro _
  let task := (everySecondRequest id).toTaskModel.withDefaults.toTask
  have hpos : ¬ task.interval ≤ 0 := by
    show ¬ (everySecondRequest "a").toTaskModel.withDefaults.toTask.interval ≤ 0
    decide +kernel
  have hcheck : checkTask task = .ok task := by
    unfold checkTask
    rw [if_neg (show task.id ≠ "" from hid),
      if_neg (show task.run ≠ none from Option.some_ne_none _),
      show task.mode = .repeated from rfl]
    exact if_neg hpos
  show accepts task = true
  unfold accepts acceptTask
  rw [if_neg (show task.id ≠ "" from hid),
    if_neg (show task.run ≠ none from Option.some_ne_none _), if_neg hpos, hcheck]

/-- **An ID can be created when it is free** if its row is not soft-deleted. If
it is, the request above is the one that fails; if not, the insertion goes
through, and nothing in the wheels stands in the way. -/
theorem creatable_iff_not_softDeleted (hg : g.Documented) (hs : s.Sound) (hid : id ≠ "") :
    s.Creatable g id ↔ ¬ SoftDeleted (s.row id) := by
  constructor
  · intro hcreate hdel
    obtain ⟨hne, hlive⟩ := softDeleted_iff.mp hdel
    have hfound : ∃ err, repoGetByID g s.tasks id (calmEnv 0).get = .error err :=
      (repoGetByID_missing hg rfl).mpr (liveRow_row_eq_none.mp hlive)
    have hok := hcreate .taskService (everySecondRequest id) (calmEnv 0).get (calmEnv 0) rfl
      (calm_calmEnv 0) rfl hfound (accepted_everySecondRequest hid)
    have hanswers := answers_create hg hs.works (calm_calmEnv 0) .taskService
      (show Service.taskService.requestOf (everySecondRequest id) (calmEnv 0)
        = everySecondRequest id from rfl)
    -- the key is taken
    obtain ⟨r, hr⟩ := Option.ne_none_iff_exists'.mp hne
    have hfirst := hanswers.succeeds.mp hok
    unfold TaskCreateRequest.outcome at hfirst
    rw [show s.row (everySecondRequest id).id = some r from hr] at hfirst
    cases hfirst
  · intro hdel svc req e env he hc hreq hfound hacc
    subst hreq
    have hlive := liveRow_row_eq_none.mpr ((repoGetByID_missing hg he).mp hfound)
    have hrow : s.row req.id = none := by
      by_contra hne
      exact hdel (softDeleted_iff.mpr ⟨hne, hlive⟩)
    have hnone := (hs.backed req.id).reached_of_missing hlive
    refine (answers_create hg hs.works hc svc (requestOf_eq hid svc)).succeeds.mpr ?_
    unfold TaskCreateRequest.outcome
    rw [hrow]
    dsimp only
    by_cases hen : req.enabled = true
    · rw [if_pos hen]
      exact (Held.add_fst _ _ _).mpr ((takes_iff hnone _).mpr (hacc hen))
    · rw [if_neg hen]

/-- An update of a row without a key does nothing. The mapper takes it for an
insertion. If there is such a row, inserting another one fails; if there is
none, so does reading it. -/
theorem answers_update_noKey (hg : g.Documented) (hs : s.Works) (hc : env.Calm) (svc : Service)
    (req : TaskUpdateRequest) :
    Answers s "" (false, s.row "", s.timeWheel.held "")
      (svc.call g s (.call "" (.update req)) env) := by
  cases hlive : s.tasks.live "" with
  | none =>
    have hanswers := answers_missing (b := false) hg hs hc svc (.update req) hlive
    unfold Call.outcome at hanswers
    rw [liveRow_row_eq_none.mpr hlive] at hanswers
    cases svc with
    | taskService => exact hanswers
    | atomicTaskService => exact hanswers
  | some row =>
    have hget : repoGetByID g s.tasks "" env.get = .ok row :=
      (repoGetByID_ok hg).mpr ⟨hc.get, hlive⟩
    have hrow := (TaskTable.live_eq_some.mp hlive).1
    have hid : (req.apply row).id = "" := hs.tasks "" row hrow
    obtain ⟨err, herr⟩ : ∃ err, (updateSteps g "" req row).dbOp s.tasks env.db = .error err := by
      show ∃ err, g.save s.tasks (req.apply row) env.db = .error err
      rw [hg.save_noKey _ _ _ hid]
      refine hg.create_taken _ _ _ ?_
      rw [hid, hrow]
      exact Option.some_ne_none row
    exact answers_failed hs (performs_call hg hc svc hget rfl) herr ""

/-- **Every call** comes to an outcome in which what is held has a row. It
leaves a row that is not soft-deleted so exactly if it spares it. Both facts
about outcomes, for whatever call it is. -/
theorem exists_answers (hg : g.Documented) (hs : s.Sound) (hc : env.Calm) (svc : Service)
    (op : Operation) : ∃ id' o, Answers s id' o (svc.call g s op env) ∧ Backed o.2.1 o.2.2
      ∧ ∀ id, ¬ SoftDeleted (s.row id) →
        ((id' = id → ¬ SoftDeleted o.2.1) ↔ s.Spares id op env svc) := by
  cases op with
  | create req =>
    refine ⟨_, _, answers_create hg hs.works hc svc rfl, backed_create (hs.backed _) _ _,
      fun id hrow => forall_congr' (fun hid => ?_)⟩
    subst hid
    rw [softDeleted_create (hs.backed _) hrow, row_eq_none]
    exact ⟨fun h hnone => by_contra (fun hacc => h ⟨hnone, hacc⟩), fun h hdel => hdel.2 (h hdel.1)⟩
  | call id' c =>
    by_cases hkey : ∀ req, c = .update req → id' ≠ ""
    · refine ⟨id', _, answers_call hg hs.works hc svc hkey, backed_outcome (hs.backed id') svc c _,
        fun id hrow => ?_⟩
      have hdel := fun hid : id' = id =>
        softDeleted_outcome (h := s.timeWheel.held id') (hid ▸ hrow) svc c
          (s.addsPaused id' c env)
      cases c with
      | delete =>
        refine forall_congr' (fun hid => ?_)
        rw [hdel hid]
        subst hid
        rw [Ne, liveRow_row_eq_none]
        cases svc with
        | taskService => simp [Call.isDelete]
        | atomicTaskService => simp [Call.isDelete]
      | update _ | enable | disable | pause | resume =>
        refine iff_of_true (fun hid h => ?_) trivial
        cases ((hdel hid).mp h).1
    · push Not at hkey
      obtain ⟨req, rfl, rfl⟩ := hkey
      exact ⟨"", _, answers_update_noKey hg hs.works hc svc req, hs.backed "",
        fun id hrow => iff_of_true (fun hid => hid ▸ hrow) trivial⟩

/-! ## Runs -/

/-- An outcome with what is held backed keeps the service sound. -/
theorem Answers.sound {o : Outcome} {r : Option Err × ServiceState} (ha : Answers s id o r)
    (hb : Backed o.2.1 o.2.2) (hs : s.Sound) : r.2.Sound where
  works := ha.works
  backed := fun id' => by
    by_cases hid : id' = id
    · subst hid
      rw [ha.row, ha.held]
      exact hb
    · have hback := hs.backed id'
      unfold ServiceState.row at hback ⊢
      rw [(ha.frame id' hid).1, (ha.frame id' hid).2]
      exact hback

/-- **One step** leaves a row that is not soft-deleted so exactly if it spares
it. The background changes no row. -/
theorem sound_step (hg : g.Documented) {s s' : ServiceSystem} {a : ServiceAction} (hc : a.Calm)
    (hs : s.service.Sound) (hrow : ¬ SoftDeleted (s.service.row id))
    (hstep : s.step g a = some s') :
    s'.service.Sound ∧ (¬ SoftDeleted (s'.service.row id) ↔ s.Spares id a s') := by
  cases a with
  | call svc op env =>
    obtain rfl := Option.some.inj hstep
    obtain ⟨id', o, ha, hb, hspares⟩ := exists_answers hg hs hc svc op
    have hsound := ha.sound hb hs
    have hrows : ¬ SoftDeleted ((svc.call g s.service op env).2.row id)
        ↔ (id' = id → ¬ SoftDeleted o.2.1) := by
      by_cases hid : id' = id
      · subst hid
        rw [ha.row]
        exact ⟨fun h _ => h, fun h => h rfl⟩
      · unfold ServiceState.row at hrow ⊢
        rw [(ha.frame id (Ne.symm hid)).1]
        exact iff_of_true hrow (fun h => absurd h hid)
    rw [Service.call_snd] at hsound hrows
    exact ⟨hsound, hrows.trans (hspares id hrow)⟩
  | background l a =>
    obtain ⟨htasks, hkeyed, hup, hheld⟩ := background_kept hs.works.keyed hstep
    have hrows : ∀ id, s'.service.row id = s.service.row id := fun id => by
      unfold ServiceState.row
      rw [htasks]
    have hworks : s'.service.Works :=
      ⟨hkeyed, hup.running hs.works.running, htasks.symm ▸ hs.works.tasks⟩
    refine ⟨⟨hworks, fun id => ?_⟩, ?_⟩
    · rw [hrows, hheld]
      exact hs.backed id
    · rw [hrows]
      exact iff_of_true hrow trivial

/-- There is nothing to begin with. -/
theorem ServiceState.Fresh.sound (hs : s.Fresh) : s.Sound ∧ ∀ id, ¬ SoftDeleted (s.row id) := by
  obtain ⟨hkeyed, hrunning, htasks, -⟩ := hs.ordered
  obtain ⟨hnone, created, now, hstart⟩ := hs
  have hheld : ∀ id l, s.timeWheel.held id l = none := fun id l =>
    ((hkeyed l).registry_eq_none id).mpr ((start_empty hstart l).2.1 id)
  refine ⟨⟨⟨hkeyed, hrunning, htasks⟩, fun id => ?_⟩, fun id hdel => ?_⟩
  · exact backed_of_reached_none (Held.reached_eq_none.mpr (hheld id)) _
  · rw [row_eq_none.mpr (congrFun hnone id)] at hdel
    exact not_softDeleted_none hdel

/-- **Exactly the runs in which an ID can be created whenever it is free.** On
the left: in every state of the run, an ID that is not found can be created. On
the right: no call of the run has deleted a row with this ID for good. -/
theorem creatable_iff (hg : g.Documented) {s : ServiceSystem} (hs : s.service.Fresh)
    (hid : id ≠ "") {as : List ServiceAction} (has : ∀ a ∈ as, a.Calm) :
    Machine.Each (ServiceSystem.step g) (fun _ _ s' => s'.service.Creatable g id) s as
      ↔ Machine.Each (ServiceSystem.step g) (ServiceSystem.Spares id) s as := by
  refine Machine.each_iff_of_invariant
    (fun s a s' hcalm (hinv : s.service.Sound ∧ ¬ SoftDeleted (s.service.row id)) hstep hspares =>
      ?_)
    (fun s a s' hcalm hinv hstep hcreate => ?_) has ⟨hs.sound.1, hs.sound.2 id⟩
  · obtain ⟨hsound, hiff⟩ := sound_step hg hcalm hinv.1 hinv.2 hstep
    exact ⟨⟨hsound, hiff.mpr hspares⟩,
      (creatable_iff_not_softDeleted hg hsound hid).mpr (hiff.mpr hspares)⟩
  · obtain ⟨hsound, hiff⟩ := sound_step hg hcalm hinv.1 hinv.2 hstep
    exact hiff.mp ((creatable_iff_not_softDeleted hg hsound hid).mp hcreate)

/-! ### Two runs -/

/-- Another ID is deleted, and a task that is disabled is not, by the atomic
service. -/
theorem creatable_of_spared :
    Machine.Each (ServiceSystem.step tableGorm) (fun _ _ s' => s'.service.Creatable tableGorm "a")
      freshService
      [.call .taskService (.create (everySecondRequest "b")) (calmEnv 0),
        .call .taskService (.call "b" .delete) (calmEnv 1),
        .call .atomicTaskService (.create { everySecondRequest "a" with enabled := false })
          (calmEnv 2),
        .call .atomicTaskService (.call "a" .delete) (calmEnv 3)] :=
  (creatable_iff documented_tableGorm fresh_freshService (by decide)
    (by simp [ServiceAction.Calm, calm_calmEnv])).mpr (by decide +kernel)

/-- A task is created and deleted. -/
def createdAndDeleted (svc : Service) : List ServiceAction :=
  [.call svc (.create (everySecondRequest "a")) (calmEnv 0),
    .call svc (.call "a" .delete) (calmEnv 1)]

/-- Its ID is free, and cannot be created, whichever service is called. -/
theorem not_creatable_of_deleted :
    ¬ Machine.Each (ServiceSystem.step tableGorm)
        (fun _ _ s' => s'.service.Creatable tableGorm "a") freshService
        (createdAndDeleted .taskService)
      ∧ ¬ Machine.Each (ServiceSystem.step tableGorm)
        (fun _ _ s' => s'.service.Creatable tableGorm "a") freshService
        (createdAndDeleted .atomicTaskService) := by
  constructor
  all_goals
    intro h
    obtain ⟨-, h⟩ := h _ rfl
    have hok := (h _ rfl).1 .taskService (everySecondRequest "a") (calmEnv 2).get (calmEnv 2) rfl
      (calm_calmEnv 2) rfl ((repoGetByID_missing documented_tableGorm rfl).mpr (by decide +kernel))
      (accepted_everySecondRequest (by decide))
    revert hok
    decide +kernel

end Timewheel
