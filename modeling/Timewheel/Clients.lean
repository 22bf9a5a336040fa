import Timewheel.TaskApi

/-!
# What a client may rely on

A client sees its own requests, the answers to them, and whatever other clients
let it know. From the answers alone it can tell what the interface will say next.

What a success has told of an ID is what a later `Get` finds, as long as no
request in between may have written the ID (`told_of_serve`). And an ID is good
for one task only: once a task has been deleted, no request for its ID succeeds
any more, except that it may be deleted again (`gone_of_serve`).

The first of these needs a database that returns a row as it was written, to the
last fraction of its time stamps, as SQLite does; a column that keeps less would
return less than the answer to the request that wrote it. The second rests on the
key of a deleted row alone.

These are the results a client can use, and so they speak of requests and
answers only: the table, the wheel and the registry appear in the proofs and
not in the statements.
-/

namespace Timewheel.TaskHandler

open Middleware

/-! ## What answers tell -/

/-- The ID a request is about. -/
def Endpoint.named (input : Input) : Endpoint → Option String
  | .create =>
    match input.createBody with
    | .ok req => some req.id
    | .error _ => none
  | .list => none
  | _ => some input.id

/-- **What a success tells** of the ID it is about. -/
def Endpoint.Told (body : Body Data) (entry : Entry) : Endpoint → Prop
  | .create | .get | .update =>
    ∃ row, entry = .task row ∧ body = successResponse (some (.task row.toTaskResponse))
  | .delete => ∀ row, entry ≠ .task row
  | .enable => ∃ row, entry = .task row ∧ row.enabled = true
  | .disable => ∃ row, entry = .task row ∧ row.enabled = false
  | .pause => ∃ row, entry = .task row ∧ row.paused = true
  | .resume => ∃ row, entry = .task row ∧ row.paused = false
  | .list => True

/-- What `Get` answers. -/
def Entry.answer : Entry → Answer
  | .task row => success (some (.task row.toTaskResponse))
  | _ => failure 404 "Task not found"

/-- The request may have written the ID: it is not a read, and it has been answered
with a success or with an error of the service. -/
def Writes (id : String) : Label → Prop
  | some (req, some resp) =>
    ∃ e, endpointOf req = some e ∧ e ≠ .get ∧ e.named req.input = some id
      ∧ (resp.status = 200 ∨ resp.status = 500)
  | _ => False

/-- The ID stands for the entry. -/
def StandsFor (id : String) (entry : Entry) (R : Registry) : Prop := R id = entry

/-- The ID is not free. -/
def Used (id : String) (R : Registry) : Prop := R id ≠ .unused

/-- A request to the endpoint for the ID is answered so. -/
def Answered (e : Endpoint) (id : String) (answer : Answer) (l : Label) : Prop :=
  ∃ req resp, l = some (req, some resp) ∧ endpointOf req = some e
    ∧ e.named req.input = some id ∧ (resp.status, resp.body) = answer

variable {R R' : Registry} {input : Input} {e : Endpoint} {answer : Answer} {id : String}
  {body : Body Data} {l : Label} {ls : List Label} {L : Registry → Input → Answer → Prop}

/-! ## One request -/

/-- The endpoints for the status name an ID, and are no reads. -/
theorem status_of_does {row : TaskModel} {st : Bool × Bool} (h : e.status row = some st) :
    e ≠ .get ∧ e.named input = some input.id := by
  cases e with
  | enable | disable | pause | resume => exact ⟨nofun, rfl⟩
  | _ => cases h

/-- **The frame of a request.** Answers with other statuses have changed
nothing. -/
theorem does_frame (h : Does L R input e answer R')
    (hid : e ≠ .get → e.named input = some id → answer.1 ≠ 200 ∧ answer.1 ≠ 500) :
    R' id = R id := by
  have hother : ∀ {id'} {entry : Entry}, e ≠ .get → e.named input = some id' →
      (answer.1 = 200 ∨ answer.1 = 500) → Function.update R id' entry id = R id := by
    intro id' entry hget hnamed hstatus
    refine Function.update_of_ne (fun heq => ?_) _ _
    obtain ⟨h200, h500⟩ := hid hget (heq ▸ hnamed)
    exact hstatus.elim h200 h500
  have hcreate : ∀ {req}, input.createBody = .ok req →
      Endpoint.named input .create = some req.id := by
    intro req hreq
    show (match input.createBody with | .ok req => some req.id | .error _ => none) = _
    rw [hreq]
  cases h with
  | created hreq _ _ => exact hother nofun (hcreate hreq) (.inl rfl)
  | unscheduled _ hreq _ _ _ _ => exact hother nofun (hcreate hreq) (.inr rfl)
  | stranded _ hreq _ _ _ _ => exact hother nofun (hcreate hreq) (.inr rfl)
  | updated _ _ _ => exact hother nofun rfl (.inl rfl)
  | deleted _ _ => exact hother nofun rfl (.inl rfl)
  | changed _ _ hstatus _ =>
    obtain ⟨hget, hnamed⟩ := status_of_does hstatus
    exact hother hget hnamed (.inl rfl)
  | disabledAgain _ _ _ _ _ _ => exact hother nofun rfl (.inr rfl)
  | enabledAnyway _ _ _ _ _ _ => exact hother nofun rfl (.inr rfl)
  | resumedAnyway _ _ _ _ _ => exact hother nofun rfl (.inr rfl)
  | _ => rfl

/-- **A success tells the truth.** Each success is one constructor of `Does`. -/
theorem told_of_does (h : Does L R input e (200, body) R') (hid : e.named input = some id) :
    e.Told body (R' id) := by
  generalize hanswer : ((200, body) : Answer) = answer at h
  have hself : ∀ {entry : Entry}, Function.update R input.id entry input.id = entry :=
    Function.update_self _ _ _
  cases h with
  | list => trivial
  | found _ h =>
    obtain rfl := Option.some.inj hid
    exact ⟨_, h, congrArg Prod.snd hanswer⟩
  | created hreq _ _ =>
    obtain rfl : _ = id := by simpa [Endpoint.named, hreq] using hid
    exact ⟨_, Function.update_self _ _ _, congrArg Prod.snd hanswer⟩
  | updated _ _ _ =>
    obtain rfl := Option.some.inj hid
    exact ⟨_, hself, congrArg Prod.snd hanswer⟩
  | deleted _ _ =>
    obtain rfl := Option.some.inj hid
    intro row hrow
    rw [hself] at hrow
    cases hrow
  | nothingDeleted _ h =>
    obtain rfl := Option.some.inj hid
    exact h
  | already _ h hstatus =>
    obtain rfl : _ = id := Option.some.inj ((status_of_does hstatus).2.symm.trans hid)
    -- only the four calls of a flag end this way
    cases e with
    | enable | disable | pause | resume =>
      obtain ⟨henabled, hpaused⟩ := Prod.mk.inj (Option.some.inj hstatus)
      exact ⟨_, h, by first | exact henabled.symm | exact hpaused.symm⟩
    | _ => cases hstatus
  | changed _ _ hstatus _ =>
    obtain rfl : _ = id := Option.some.inj ((status_of_does hstatus).2.symm.trans hid)
    cases e with
    | enable | disable | pause | resume =>
      obtain ⟨henabled, hpaused⟩ := Prod.mk.inj (Option.some.inj hstatus)
      exact ⟨_, hself, by first | exact henabled.symm | exact hpaused.symm⟩
    | _ => cases hstatus
  | _ => cases congrArg Prod.fst hanswer

/-- Other successes than that of `Delete` tell of a task. So the ID stands for a
task then. -/
theorem Endpoint.Told.exists_task {entry : Entry} (h : e.Told body entry) (he : e ≠ .delete)
    (hid : e.named input = some id) : ∃ row, entry = .task row := by
  cases e with
  | delete => exact absurd rfl he
  | list => cases hid
  | _ =>
    obtain ⟨row, hrow, -⟩ := h
    exact ⟨row, hrow⟩

/-- What is not free does not become free again. Rows are never taken out of the
table. -/
theorem used_of_does (h : Does L R input e answer R') (hid : R id ≠ .unused) : R' id ≠ .unused := by
  have hother : ∀ {id'} {entry : Entry}, entry ≠ .unused →
      Function.update R id' entry id ≠ .unused := by
    intro id' entry hentry
    by_cases heq : id = id'
    · subst heq
      rwa [Function.update_self]
    · rwa [Function.update_of_ne heq]
  cases h with
  | created | unscheduled | stranded | updated | deleted | changed | disabledAgain | enabledAnyway
  | resumedAnyway => exact hother nofun
  | _ => exact hid

/-- A task that is gone does not come back. No call clears the time of deletion
of a row that it finds deleted. -/
theorem gone_of_does (h : Does L R input e answer R') (hid : R id = .gone) : R' id = .gone := by
  have hother : ∀ {id'} {entry : Entry}, R id' ≠ .gone →
      Function.update R id' entry id = .gone := by
    intro id' entry hne
    rwa [Function.update_of_ne (fun heq : id = id' => hne (heq ▸ hid))]
  have htask : ∀ {id'} {row : TaskModel}, R id' = .task row → R id' ≠ .gone := by
    intro id' row hrow
    rw [hrow]
    exact nofun
  have hunused : ∀ {id'}, R id' = .unused → R id' ≠ .gone := by
    intro id' hnone
    rw [hnone]
    exact nofun
  cases h with
  | created _ _ h | unscheduled _ _ _ _ _ h | stranded _ _ _ _ _ h => exact hother (hunused h)
  | updated _ _ h | deleted _ h | changed _ h | disabledAgain _ _ _ h | enabledAnyway _ _ _ h
  | resumedAnyway _ _ h => exact hother (htask h)
  | _ => exact hid

/-- What `Get` finds, if the database works. This is how the entry becomes
visible. -/
theorem answer_of_get (h : Does L R input .get answer R') (hbad : answer.1 ≠ 400)
    (hfault : input.env.get.fault = false) : answer = (R input.id).answer := by
  cases h with
  | noID => exact absurd rfl hbad
  | found _ h => rw [h]; rfl
  | notFound h =>
    have hnone := h.resolve_left (by simp [hfault])
    cases hentry : R input.id with
    | task row => exact absurd hentry (hnone row)
    | unused => rfl
    | gone => rfl
  | already _ _ hstatus => cases hstatus
  | changed _ _ hstatus _ => cases hstatus
  | notChanged _ he => simp at he

/-! ## Runs -/

/-- A step that is answered for an endpoint. Answers of the middlewares have
other statuses. -/
theorem does_of_next {st : ℕ} (h : Next L R l R') (hl : Answered e id (st, body) l)
    (hst : st = 200 ∨ st = 404) :
    ∃ req, l = some req ∧ endpointOf req.1 = some e ∧ e.named req.1.input = some id
      ∧ Does L R req.1.input e (st, body) R' := by
  obtain ⟨req, resp, rfl, he, hid, hanswer⟩ := hl
  obtain ⟨rfl, rfl⟩ := Prod.mk.inj hanswer
  refine ⟨_, rfl, he, hid, ?_⟩
  cases h with
  | refused h => omega
  | other h => exact (nomatch he.symm.trans h)
  | served he' does =>
    obtain rfl := Option.some.inj (he.symm.trans he')
    exact does

/-- Who does not write an ID leaves it alone. By the frame of a request. -/
theorem next_frame (h : Next L R l R') (hl : ¬ Writes id l) : R' id = R id := by
  cases h with
  | background => rfl
  | refused => rfl
  | other => rfl
  | served he does =>
    refine does_frame does (fun hget hnamed => ⟨fun h200 => hl ?_, fun h500 => hl ?_⟩)
    · exact ⟨_, he, hget, hnamed, .inl h200⟩
    · exact ⟨_, he, hget, hnamed, .inr h500⟩

/-- A used ID stays used along the run, -/
theorem used_of_next (hid : Used id R) (h : Next L R l R') : Used id R' := by
  cases h with
  | served _ does => exact used_of_does does hid
  | _ => exact hid

/-- and one that is gone stays gone. -/
theorem gone_of_next (hid : StandsFor id .gone R) (h : Next L R l R') :
    StandsFor id .gone R' := by
  cases h with
  | served _ does => exact gone_of_does does hid
  | _ => exact hid

/-- **What is told holds until somebody writes.** By the frame, step after step. -/
theorem told_of_trace {w r : Label} {ls after : List Label} {read : Answer}
    (htrace : Simulation.Trace (Next L) R (w :: (ls ++ r :: after)) R')
    (hw : Answered e id (200, body) w) (hls : ∀ l ∈ ls, ¬ Writes id l)
    (hr : Answered .get id read r)
    (hstatus : read.1 = 200 ∨ read.1 = 404)
    (hfault : ∀ req ∈ r, req.1.input.env.get.fault = false) :
    ∃ entry, e.Told body entry ∧ read = entry.answer := by
  obtain ⟨R₁, hnext, hrest⟩ := Simulation.trace_cons.mp htrace
  obtain ⟨R₂, hls', hlast⟩ := Simulation.trace_append.mp hrest
  obtain ⟨R₃, hget, -⟩ := Simulation.trace_cons.mp hlast
  obtain ⟨req, -, -, hid, hdoes⟩ := does_of_next hnext hw (.inl rfl)
  have hkeep : ∀ R l R', StandsFor id (R₁ id) R → ¬ Writes id l → Next L R l R' →
      StandsFor id (R₁ id) R' := fun _ _ _ h hl hnext => (next_frame hnext hl).trans h
  have hsame : StandsFor id (R₁ id) R₂ := hls'.inv_of_labels hkeep hls rfl
  obtain ⟨st, body'⟩ := read
  obtain ⟨req', rfl, -, hid', hdoes'⟩ := does_of_next hget hr hstatus
  obtain rfl : req'.1.input.id = id := Option.some.inj hid'
  refine ⟨R₁ req'.1.input.id, told_of_does hdoes hid, ?_⟩
  rw [← show R₂ req'.1.input.id = _ from hsame]
  refine answer_of_get hdoes' (fun hbad => ?_) (hfault _ rfl)
  dsimp only at hbad hstatus
  omega

/-- **A deleted task is gone for good.** The first success shows that the ID was
used, and the deletion that it is gone. -/
theorem gone_of_trace {w d q : Label} {ls ks after : List Label} {read : Answer} {e' : Endpoint}
    {body' : Body Data}
    (htrace : Simulation.Trace (Next L) R (w :: (ls ++ d :: (ks ++ q :: after))) R')
    (hw : Answered e id (200, body) w) (he : e ≠ .delete)
    (hd : Answered .delete id (200, body') d) (hq : Answered e' id read q) (he' : e' ≠ .delete) :
    read.1 ≠ 200 := by
  obtain ⟨R₁, hnext, hrest⟩ := Simulation.trace_cons.mp htrace
  obtain ⟨R₂, hls, hrest⟩ := Simulation.trace_append.mp hrest
  obtain ⟨R₃, hdelete, hrest⟩ := Simulation.trace_cons.mp hrest
  obtain ⟨R₄, hks, hlast⟩ := Simulation.trace_append.mp hrest
  obtain ⟨R₅, hagain, -⟩ := Simulation.trace_cons.mp hlast
  obtain ⟨req, -, -, hid, hdoes⟩ := does_of_next hnext hw (.inl rfl)
  obtain ⟨row, hrow⟩ := (told_of_does hdoes hid).exists_task he hid
  have hused : Used id R₁ := fun hunused => nomatch hrow.symm.trans hunused
  have hused : Used id R₃ :=
    used_of_next (hls.inv (fun _ _ _ h hnext => used_of_next h hnext) hused) hdelete
  obtain ⟨req', -, -, hid', hdoes'⟩ := does_of_next hdelete hd (.inl rfl)
  have hgone : StandsFor id .gone R₃ := by
    unfold StandsFor
    cases hentry : R₃ id with
    | unused => exact absurd hentry hused
    | task row => exact absurd hentry (told_of_does hdoes' hid' row)
    | gone => rfl
  have hgone : StandsFor id .gone R₄ := hks.inv (fun _ _ _ h hnext => gone_of_next h hnext) hgone
  intro hstatus
  obtain ⟨st, body''⟩ := read
  obtain rfl : st = 200 := hstatus
  obtain ⟨req'', -, -, hid'', hdoes''⟩ := does_of_next hagain hq (.inl rfl)
  obtain ⟨row, hrow⟩ := (told_of_does hdoes'' hid'').exists_task he' hid''
  exact (nomatch hrow.symm.trans (gone_of_next hgone hagain))

section Serve

variable {parse : Parser} {cfg : Middleware.Config} {g : Gorm} {f : GormFind}
  {others : HttpRequest Input → ServiceState → Middleware.Outcome Data}
  {gw gw' : Gateway ServiceState} {es : List Event} {before after ks : List Label} {w d r : Label}

/-- What is observed is a trace of the registry. The results above then apply to
every run of the code. -/
theorem trace_of_labels (hg : g.Documented) (hkeyed : gw.service.tasks.Keyed)
    (hrun : Machine.run (step parse cfg g f others) gw es = some gw')
    (hlabels : Simulation.labels (step parse cfg g f others) (label parse cfg g f others) gw es
      = ls) : ∃ R R', Simulation.Trace (Next anyPage) R ls R' := by
  have hlists : ∀ (gw : Gateway ServiceState) (a : Event) (gw' : Gateway ServiceState),
      True → ListsAs anyPage f gw a := fun _ a _ _ => by cases a <;> trivial
  obtain ⟨R', htrace, -⟩ := (simulates_next hg).trace ⟨hkeyed, rfl⟩
    ((Machine.each_of_forall (P := fun _ => True) (fun _ _ => trivial)).imp hlists) hrun
  rw [hlabels] at htrace
  exact ⟨_, R', htrace⟩

/-- **What a client is told it finds.** In every run of the server, whatever
fails and whatever the wheel does: after a success that names an ID, a `Get` for
it finds what the success has told, unless a request that may have written the
ID has been answered in between, or the database does not answer the `Get`. The
condition on what happens in between is one on the answers, so the client can
check it if all requests are its own. -/
theorem told_of_serve (hg : g.Documented) (hkeyed : gw.service.tasks.Keyed)
    (hrun : Machine.run (step parse cfg g f others) gw es = some gw')
    (hlabels : Simulation.labels (step parse cfg g f others) (label parse cfg g f others) gw es
      = before ++ w :: (ls ++ r :: after))
    (hw : Answered e id (200, body) w) (hls : ∀ l ∈ ls, ¬ Writes id l)
    (hr : Answered .get id answer r) (hstatus : answer.1 = 200 ∨ answer.1 = 404)
    (hfault : ∀ req ∈ r, req.1.input.env.get.fault = false) :
    ∃ entry, e.Told body entry ∧ answer = entry.answer := by
  obtain ⟨_, _, htrace⟩ := trace_of_labels hg hkeyed hrun hlabels
  obtain ⟨R, -, hrest⟩ := Simulation.trace_append.mp htrace
  exact told_of_trace hrest hw hls hr hstatus hfault

/-- A task is created and asked for. -/
theorem told_of_create :
    ∃ answer entry, Answered .get "a" answer
        ((Simulation.labels openStep openLabel emptyServer
          [.request createTask, .background freshMultiLevelWheel, .request getTask]).getLastD none)
      ∧ answer.1 = 200 ∧ Endpoint.Told answer.2 entry .create ∧ answer = entry.answer := by
  let task := ({ everySecondRequest "a" with enabled := false }.toTaskModel.created
    (Time.ofMilli 1)).toTaskResponse
  obtain ⟨entry, htold, hanswer⟩ := @told_of_serve .create (success (some (.task task))) "a"
    (successResponse (some (.task task))) [none] (fun _ _ _ => .ok false) openConfig tableGorm
    (tableFind ["a"]) (fun _ _ => .panicked none) emptyServer _
    [.request createTask, .background freshMultiLevelWheel, .request getTask] [] [] _ _
    documented_tableGorm TaskTable.keyed_empty rfl rfl ⟨_, _, rfl, rfl, rfl, rfl⟩
    (fun l hl => by rw [List.mem_singleton.mp hl]; exact id) ⟨_, _, rfl, rfl, rfl, rfl⟩ (.inl rfl)
    (fun req hreq => by rw [← Option.some.inj hreq]; rfl)
  exact ⟨_, entry, ⟨_, _, rfl, rfl, rfl, rfl⟩, rfl, htold, hanswer⟩

/-- **An ID is good for one task.** In every run of the server: once a success
has told of a task and the task has been deleted, no request that names its ID
succeeds any more, except another `Delete`. The row stays in the table with its
key, so creating the ID again fails. -/
theorem gone_of_serve (hg : g.Documented) (hkeyed : gw.service.tasks.Keyed)
    (hrun : Machine.run (step parse cfg g f others) gw es = some gw') {e' : Endpoint}
    {body' : Body Data}
    (hlabels : Simulation.labels (step parse cfg g f others) (label parse cfg g f others) gw es
      = before ++ w :: (ls ++ d :: (ks ++ r :: after)))
    (hw : Answered e id (200, body) w) (he : e ≠ .delete)
    (hd : Answered .delete id (200, body') d) (hr : Answered e' id answer r)
    (he' : e' ≠ .delete) : answer.1 ≠ 200 := by
  obtain ⟨_, _, htrace⟩ := trace_of_labels hg hkeyed hrun hlabels
  obtain ⟨R, -, hrest⟩ := Simulation.trace_append.mp htrace
  exact gone_of_trace hrest hw he hd hr he'

/-- A task is created and deleted, and cannot be created again. -/
theorem gone_of_delete :
    ∃ answer, Answered .create "a" answer
        ((Simulation.labels openStep openLabel emptyServer
          [.request createTask, .request deleteTask, .request createTask]).getLastD none)
      ∧ answer.1 ≠ 200 := by
  let task := ({ everySecondRequest "a" with enabled := false }.toTaskModel.created
    (Time.ofMilli 1)).toTaskResponse
  have hanswer := @gone_of_serve .create
    (failure 500 "UNIQUE constraint failed: tasks.id") "a" (successResponse (some (.task task))) []
    (fun _ _ _ => .ok false) openConfig tableGorm (tableFind ["a"]) (fun _ _ => .panicked none)
    emptyServer _
    [.request createTask, .request deleteTask, .request createTask] [] [] [] _ _ _
    documented_tableGorm TaskTable.keyed_empty rfl .create (successResponse none) rfl
    ⟨_, _, rfl, rfl, rfl, rfl⟩ nofun ⟨_, _, rfl, rfl, rfl, rfl⟩ ⟨_, _, rfl, rfl, rfl, rfl⟩ nofun
  exact ⟨_, ⟨_, _, rfl, rfl, rfl, rfl⟩, hanswer⟩

end Serve

end Timewheel.TaskHandler
