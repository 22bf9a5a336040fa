import Timewheel.AllOrNothing
import Timewheel.Snapshot

/-!
# Two calls at once

A call of `atomicTaskService` on an existing task takes two atomic steps: it
reads the row, and then, under the lock of the task, does the rest with what it
has read. Two calls for one task can therefore both read before either goes on,
and the second then works on a row that is no longer there.

`serialised_of_sparing` says when this does no harm: when, of two calls that
have both read the row, the one that goes on first is harmless for the other
(`Call.Harmless`), one after the other they would have left the same.

The invariant is `Traced`: it says how far the two calls have come, and what
the state of the services is then. Its last constructor is what is to be
shown, and the only transition that needs an argument is the one where a call
goes on although the other has gone on since it read. There the algebra of
calls decides (`Call.Harmless`), which says when an order exists that explains
the outcome.
-/

namespace Timewheel

open MultiLevelTimeWheel
open AtomicTaskService

/-! ## The machine -/

/-- One of the two calls. -/
inductive Party where
  | first
  | second
  deriving DecidableEq, Repr

/-- The other one. -/
def Party.other : Party → Party
  | .first => .second
  | .second => .first

/-- How far a call has come. A call that has read keeps what it has read, even
if the row changes. -/
inductive Progress where
  | waiting
  | hasRead (result : Except Err TaskModel)
  | finished

/-- Two calls for one task, and what each of them leaves open. -/
structure TwoCalls where
  id : String
  call : Party → Call
  env : Party → ServiceEnv

/-- The state of the services while the two calls are under way. The lock of the
task is not part of it, since each of the two steps is atomic. -/
structure TwoCallsState where
  service : ServiceState
  progress : Party → Progress

namespace TwoCalls

variable (g : Gorm) (w : TwoCalls)

/-- `repo.GetByID` at the beginning of a call. It takes no lock. -/
def read (s : ServiceState) (a : Party) : Except Err TaskModel :=
  repoGetByID g s.tasks w.id (w.env a).get

/-- The rest of a call. It works on the row as it was read. -/
def proceed (s : ServiceState) (a : Party) : Except Err TaskModel → ServiceState
  | .error _ => s
  | .ok task => ((w.call a).body g s w.id task (w.env a)).2

/-- One of the calls takes its next step. A run is a list of parties, and any
list is a possible order. -/
def step (p : TwoCallsState) (a : Party) : Option TwoCallsState :=
  match p.progress a with
  | .waiting =>
    some ⟨p.service, Function.update p.progress a (.hasRead (w.read g p.service a))⟩
  | .hasRead result =>
    some ⟨w.proceed g p.service a result, Function.update p.progress a .finished⟩
  | .finished => none

/-- Neither call has begun. -/
def start (s : ServiceState) : TwoCallsState := ⟨s, fun _ => .waiting⟩

/-- The two states have the same row, less its time stamps, and the same
registration. Time stamps differ from run to run in any case. -/
structure SameEntry (id : String) (s s' : ServiceState) : Prop where
  entry : s'.entry id = s.entry id
  held : s'.timeWheel.held id = s.timeWheel.held id

/-- `t` is what the calls `c₁` and `c₂` leave in turn, the pools and the clocks
having answered in some way. What the pools answer may differ from order to
order, so an outcome is compared with all answers they could have given. -/
def LeftInTurn (id : String) (c₁ c₂ : Call) (s t : ServiceState) : Prop :=
  ∃ env₁ env₂ : ServiceEnv, env₁.Calm ∧ env₂.Calm
    ∧ SameEntry id (c₂.execute g (c₁.execute g s id env₁).2 id env₂).2 t

/-- **The outcome `t` is that of one of the two serial orders.** This is what
the callers may expect of two calls. -/
def Serialised (s t : ServiceState) : Prop :=
  ∃ a : Party, LeftInTurn g w.id (w.call a) (w.call a.other) s t

/-- Both calls have ended. -/
def Finished (p : TwoCallsState) : Prop := ∀ a, p.progress a = .finished

/-- **The guard**: a call that goes on while the other one has read the row is
harmless for it. It is evaluated before the step, on what is there. -/
def Sparing (p : TwoCallsState) (a : Party) : Prop :=
  ∀ task task', p.progress a = .hasRead (.ok task) → p.progress a.other = .hasRead (.ok task') →
    ∀ x ∈ p.service.entry w.id, (w.call a).Harmless p.service.timeWheel.takes x (w.call a.other)

end TwoCalls

/-! ## One order explains the outcome -/

variable {g : Gorm} {w : TwoCalls} {s t : ServiceState} {id : String} {env : ServiceEnv}
  {row : TaskModel} {a : Party}

open TwoCalls

/-- There are two calls: -/
@[simp] theorem Party.other_other (a : Party) : a.other.other = a := by
  cases a <;> rfl

/-- they differ, -/
@[simp] theorem Party.other_ne (a : Party) : a.other ≠ a := by
  cases a <;> exact fun h => (nomatch h)

/-- and there is no third. -/
theorem Party.eq_or_eq_other (a b : Party) : b = a ∨ b = a.other := by
  cases a <;> cases b <;> simp [Party.other]

/-- A call on a live row reads it, and goes on. -/
theorem execute_of_live (hg : g.Documented) (hc : env.Calm) (hlive : s.tasks.live id = some row)
    (c : Call) : c.execute g s id env = c.body g s id row env := by
  unfold Call.execute
  rw [(repoGetByID_ok hg).mpr ⟨hc.get, hlive⟩]

/-- Other pools do not make a call fail. -/
theorem calm_withAdd (hc : env.Calm) (add : TimeWheel.AddEnv) :
    ({ env with add := add } : ServiceEnv).Calm :=
  ⟨hc.get, hc.db, hc.rollback, hc.marshal, hc.log⟩

/-- An entry tells what is held, -/
theorem held_of_entry {x : Entry} (h : s.entry id = some x) : s.timeWheel.held id = x.held := by
  obtain ⟨row, -, rfl⟩ := Option.map_eq_some_iff.mp h
  rfl

/-- so two states with the same entry are the same for our purposes. -/
theorem sameEntry_of_eq_some {x : Entry} (hs : s.entry id = some x) (ht : t.entry id = some x) :
    SameEntry id s t :=
  ⟨ht.trans hs.symm, (held_of_entry ht).trans (held_of_entry hs).symm⟩

/-- What two calls in turn leave. Each is a function on entries, and the two are
composed. -/
theorem entry_inTurn (hg : g.Documented) (hm : s.timeWheel.Keyed) (ht : s.tasks.Keyed)
    {env₁ env₂ : ServiceEnv} (hc₁ : env₁.Calm) (hc₂ : env₂.Calm) {x : Entry}
    (hx : s.entry id = some x) (c₁ c₂ : Call) :
    (c₂.execute g (c₁.execute g s id env₁).2 id env₂).2.entry id
      = some (c₂.whole s.timeWheel.takes
        (c₂.pool (c₁.execute g s id env₁).2.timeWheel id env₂)
        (c₁.whole s.timeWheel.takes (c₁.pool s.timeWheel id env₁) x)) := by
  have h₁ := becomes_execute hg hc₁ hm ht c₁ hx
  have h₂ := becomes_execute hg hc₂ h₁.wheel.keyed h₁.tasks c₂ h₁.entry
  rw [takes_congr h₁.wheel.up] at h₂
  exact h₂.entry

/-- **The pools can give the answers** that explain an outcome. Each answer that
is needed is one that a pool can give: a new node, the one that the other call was
given, or one that has just been released. -/
theorem leftInTurn_of_explained (hg : g.Documented) (hm : s.timeWheel.Keyed) (ht : s.tasks.Keyed)
    {env₁ env₂ : ServiceEnv} (hc₁ : env₁.Calm) (hc₂ : env₂.Calm) {c₁ c₂ : Call}
    (hlive : s.tasks.live id = some row) {y : Entry} (hy : t.entry id = some y)
    (h : Explained s.timeWheel.takes (entryOf row (s.timeWheel.held id))
      (c₁.pool s.timeWheel id env₁)
      (c₂.pool (c₁.body g s id row env₁).2.timeWheel id env₂) y c₁ c₂) :
    LeftInTurn g id c₁ c₂ s t ∨ LeftInTurn g id c₂ c₁ s t := by
  obtain ⟨hrow, hdel⟩ := TaskTable.live_eq_some.mp hlive
  have hid : row.id = id := ht id row hrow
  have hx := entry_eq_some hrow
  cases h with
  | inOrder h =>
    refine .inl ⟨env₁, env₂, hc₁, hc₂,
      sameEntry_of_eq_some (entry_inTurn hg hm ht hc₁ hc₂ hx c₁ c₂) ?_⟩
    rw [hy, h, execute_of_live hg hc₁ hlive]
  | reversed h =>
    refine .inr ⟨env₂, env₁, hc₂, hc₁,
      sameEntry_of_eq_some (entry_inTurn hg hm ht hc₂ hc₁ hx c₂ c₁) ?_⟩
    rw [hy, h]
  | idle hidle h =>
    have hsame : SameTables s (c₂.body g s id row env₂).2 :=
      sameTables_of_doesNothing hg hc₂ hrow hid hidle
    refine .inr ⟨env₂, env₁, hc₂, hc₁,
      sameEntry_of_eq_some (entry_inTurn hg hm ht hc₂ hc₁ hx c₂ c₁) ?_⟩
    rw [hy, h, execute_of_live hg hc₂ hlive, hsame.timeWheel,
      Call.whole_of_live (deleted_entryOf hdel _) _ c₂, hidle.act]
  | unpaused h =>
    -- a node that is not from the pool is not paused
    have hc : ({ env₁ with add := { env₁.add with node := none } } : ServiceEnv).Calm :=
      calm_withAdd hc₁ _
    refine .inl ⟨_, env₂, hc, hc₂,
      sameEntry_of_eq_some (entry_inTurn hg hm ht hc hc₂ hx .resume .resume) ?_⟩
    rw [hy, h]
    rfl
  | @repeats q₁ q₂ h =>
    -- the second call is given the node the first one was given
    have hc : ({ env₂ with add := env₁.add } : ServiceEnv).Calm := calm_withAdd hc₂ _
    refine .inr ⟨_, env₁, hc, hc₁,
      sameEntry_of_eq_some (entry_inTurn hg hm ht hc hc₁ hx (.update q₂) (.update q₁)) ?_⟩
    rw [hy, h]
    rfl
  | @alreadyHeld q l r hs hreached hheld h =>
    -- the update is given the node it has just released
    have htw : ((Call.update q).body g s id row env₁).2.timeWheel = s.timeWheel :=
      timeWheel_of_unscheduled hg hc₁ hrow hid hdel q hs
    rw [htw] at hreached hheld h
    have hfirst := becomes_execute hg hc₂ hm ht .enable hx
    have hnow := held_of_entry hfirst.entry
    obtain ⟨node, hnode⟩ := removeTask_handsBack hfirst.wheel.keyed (by rw [hnow]; exact hreached)
      (by rw [hnow]; exact hheld)
    have hc : ({ env₁ with add := { env₁.add with node := node } } : ServiceEnv).Calm :=
      calm_withAdd hc₁ _
    refine .inr ⟨env₂, _, hc₂, hc,
      sameEntry_of_eq_some (entry_inTurn hg hm ht hc₂ hc hx .enable (.update q)) ?_⟩
    rw [hy, h ((Call.update q).pool (Call.enable.execute g s id env₂).2.timeWheel id
      { env₁ with add := { env₁.add with node := node } }) hnode]

/-- **A call that is harmless for the other one** may go on before it. The order
that explains it need not be the one in which they went on. -/
theorem serialised_of_harmless (hg : g.Documented) (hm : s.timeWheel.Keyed) (ht : s.tasks.Keyed)
    (hcalm : ∀ a, (w.env a).Calm) (hlive : s.tasks.live w.id = some row)
    (hharmless : (w.call a).Harmless s.timeWheel.takes
      (entryOf row (s.timeWheel.held w.id)) (w.call a.other)) :
    w.Serialised g s ((w.call a.other).body g
      ((w.call a).body g s w.id row (w.env a)).2 w.id row (w.env a.other)).2 := by
  obtain ⟨hrow, hdel⟩ := TaskTable.live_eq_some.mp hlive
  have hid : row.id = w.id := ht w.id row hrow
  have hx := entry_eq_some hrow
  have h₁ := becomes_body hg (hcalm a) hm ht hid (w.call a) hdel hx
  have h₂ := becomes_body hg (hcalm a.other) h₁.wheel.keyed h₁.tasks hid (w.call a.other) hdel
    h₁.entry
  rw [takes_congr h₁.wheel.up] at h₂
  have hexplained := hharmless.explained (deleted_entryOf hdel _)
    ((w.call a).pool s.timeWheel w.id (w.env a))
    ((w.call a.other).pool ((w.call a).body g s w.id row (w.env a)).2.timeWheel w.id
      (w.env a.other))
  rcases leftInTurn_of_explained hg hm ht (hcalm a) (hcalm a.other) hlive h₂.entry hexplained
    with hturn | hturn
  · exact ⟨a, hturn⟩
  · exact ⟨a.other, by rwa [Party.other_other]⟩

/-! ## Every interleaving -/

/-- A call that goes on with what is there has been executed as a whole. Nobody
has come in between. -/
theorem proceed_read (g : Gorm) (w : TwoCalls) (s : ServiceState) (a : Party) :
    w.proceed g s a (w.read g s a) = ((w.call a).execute g s w.id (w.env a)).2 := by
  unfold TwoCalls.proceed TwoCalls.read Call.execute
  cases repoGetByID g s.tasks w.id (w.env a).get <;> rfl

/-- A live row is read as it is. -/
theorem read_of_live (hg : g.Documented) (hcalm : ∀ a, (w.env a).Calm)
    (hlive : s.tasks.live w.id = some row) (a : Party) : w.read g s a = .ok row :=
  (repoGetByID_ok hg).mpr ⟨(hcalm a).get, hlive⟩

/-- Without a live row there is nothing to do. The read fails, and with it the
call. -/
theorem proceed_of_not_live (hg : g.Documented) (hlive : s.tasks.live w.id = none) (a : Party)
    (s' : ServiceState) : w.proceed g s' a (w.read g s a) = s' := by
  unfold TwoCalls.proceed
  cases hread : w.read g s a with
  | error err => rfl
  | ok task =>
    rw [((repoGetByID_ok hg).mp hread).2] at hlive
    cases hlive

/-- **What is known on the way** from the state `s`. The constructors follow the
possible orders of four steps. -/
inductive Traced (g : Gorm) (w : TwoCalls) (s : ServiceState) (p : TwoCallsState) : Prop
  | waiting (service : p.service = s) (progress : ∀ a, p.progress a = .waiting)
  | oneRead (a : Party) (service : p.service = s)
      (mine : p.progress a = .hasRead (w.read g s a)) (other : p.progress a.other = .waiting)
  | bothRead (service : p.service = s) (progress : ∀ a, p.progress a = .hasRead (w.read g s a))
  | oneFinished (a : Party) (service : p.service = ((w.call a).execute g s w.id (w.env a)).2)
      (mine : p.progress a = .finished) (other : p.progress a.other = .waiting)
  | inTurn (a : Party) (service : p.service = ((w.call a).execute g s w.id (w.env a)).2)
      (mine : p.progress a = .finished)
      (other : p.progress a.other = .hasRead (w.read g p.service a.other))
  | overtaken (a : Party) (service : p.service = w.proceed g s a (w.read g s a))
      (mine : p.progress a = .finished) (other : p.progress a.other = .hasRead (w.read g s a.other))
      (harmless : ∀ row, s.tasks.live w.id = some row → (w.call a).Harmless s.timeWheel.takes
        (entryOf row (s.timeWheel.held w.id)) (w.call a.other))
  | finished (progress : ∀ a, p.progress a = .finished) (serial : w.Serialised g s p.service)

/-- Both calls have ended. The other cases have a call that has not ended. -/
theorem Traced.serialised {p : TwoCallsState} (h : Traced g w s p) (hp : TwoCalls.Finished p) :
    w.Serialised g s p.service := by
  cases h with
  | waiting _ progress => exact (nomatch (hp .first).symm.trans (progress .first))
  | oneRead a _ _ other => exact (nomatch (hp a.other).symm.trans other)
  | bothRead _ progress => exact (nomatch (hp .first).symm.trans (progress .first))
  | oneFinished a _ _ other => exact (nomatch (hp a.other).symm.trans other)
  | inTurn a _ _ other => exact (nomatch (hp a.other).symm.trans other)
  | overtaken a _ _ other => exact (nomatch (hp a.other).symm.trans other)
  | finished _ serial => exact serial

/-- The second of two calls has gone on with what it had read before the first.
If there is no live row, nothing is written at all. -/
theorem serialised_of_overtaken (hg : g.Documented) (hm : s.timeWheel.Keyed) (ht : s.tasks.Keyed)
    (hcalm : ∀ a, (w.env a).Calm)
    (hharmless : ∀ row, s.tasks.live w.id = some row → (w.call a).Harmless s.timeWheel.takes
      (entryOf row (s.timeWheel.held w.id)) (w.call a.other)) :
    w.Serialised g s
      (w.proceed g (w.proceed g s a (w.read g s a)) a.other (w.read g s a.other)) := by
  cases hlive : s.tasks.live w.id with
  | none =>
    rw [proceed_of_not_live hg hlive, proceed_of_not_live hg hlive]
    have hexec : ∀ b, ((w.call b).execute g s w.id (w.env b)).2 = s := fun b => by
      rw [← proceed_read, proceed_of_not_live hg hlive]
    refine ⟨a, w.env a, w.env a.other, hcalm a, hcalm a.other, ?_⟩
    rw [hexec, hexec]
    exact ⟨rfl, rfl⟩
  | some row =>
    rw [read_of_live hg hcalm hlive, read_of_live hg hcalm hlive]
    exact serialised_of_harmless hg hm ht hcalm hlive (hharmless row hlive)

/-- **What a step does**: it reads, or it goes on with what has been read. The
other call stays where it is. -/
theorem step_cases {p p' : TwoCallsState} {b : Party} (h : w.step g p b = some p') :
    p'.progress b.other = p.progress b.other
      ∧ ((p.progress b = .waiting ∧ p'.service = p.service
          ∧ p'.progress b = .hasRead (w.read g p.service b))
        ∨ ∃ r, p.progress b = .hasRead r ∧ p'.service = w.proceed g p.service b r
          ∧ p'.progress b = .finished) := by
  unfold TwoCalls.step at h
  cases hb : p.progress b with
  | waiting =>
    rw [hb] at h
    obtain rfl := Option.some.inj h
    exact ⟨Function.update_of_ne b.other_ne _ _, .inl ⟨rfl, rfl, Function.update_self _ _ _⟩⟩
  | hasRead r =>
    rw [hb] at h
    obtain rfl := Option.some.inj h
    exact ⟨Function.update_of_ne b.other_ne _ _, .inr ⟨r, rfl, rfl, Function.update_self _ _ _⟩⟩
  | finished =>
    rw [hb] at h
    cases h

/-- Two cases make all parties. -/
theorem forall_party {P : Party → Prop} (a : Party) (h : P a) (hother : P a.other) (b : Party) :
    P b := by
  rcases a.eq_or_eq_other b with rfl | rfl
  · exact h
  · exact hother

/-- **A sparing step** keeps to what is known. The cases are those of the
invariant, by who takes the step. -/
theorem Traced.of_step (hg : g.Documented) (hm : s.timeWheel.Keyed) (ht : s.tasks.Keyed)
    (hcalm : ∀ a, (w.env a).Calm) {p p' : TwoCallsState} {b : Party} (h : Traced g w s p)
    (hsparing : w.Sparing p b) (hstep : w.step g p b = some p') : Traced g w s p' := by
  obtain ⟨hother, ⟨hb, hservice, hb'⟩ | ⟨r, hb, hservice, hb'⟩⟩ := step_cases hstep
  · -- a call reads
    cases h with
    | waiting service progress =>
      exact .oneRead b (hservice.trans service) (by rw [hb', service])
        (hother.trans (progress _))
    | oneRead a service mine other =>
      rcases a.eq_or_eq_other b with rfl | rfl
      · exact (nomatch hb.symm.trans mine)
      · rw [Party.other_other] at hother
        exact .bothRead (hservice.trans service)
          (forall_party a (hother.trans mine) (by rw [hb', service]))
    | bothRead _ progress => exact (nomatch hb.symm.trans (progress b))
    | oneFinished a service mine other =>
      rcases a.eq_or_eq_other b with rfl | rfl
      · exact (nomatch hb.symm.trans mine)
      · rw [Party.other_other] at hother
        exact .inTurn a (hservice.trans service) (hother.trans mine) (by rw [hb', hservice])
    | inTurn a _ mine other =>
      rcases a.eq_or_eq_other b with rfl | rfl
      · exact (nomatch hb.symm.trans mine)
      · exact (nomatch hb.symm.trans other)
    | overtaken a _ mine other =>
      rcases a.eq_or_eq_other b with rfl | rfl
      · exact (nomatch hb.symm.trans mine)
      · exact (nomatch hb.symm.trans other)
    | finished progress => exact (nomatch hb.symm.trans (progress b))
  · -- a call goes on
    cases h with
    | waiting _ progress => exact (nomatch hb.symm.trans (progress b))
    | oneRead a service mine other =>
      rcases a.eq_or_eq_other b with rfl | rfl
      · obtain rfl := Progress.hasRead.inj (hb.symm.trans mine)
        exact .oneFinished b (by rw [hservice, service, proceed_read]) hb' (hother.trans other)
      · exact (nomatch hb.symm.trans other)
    | bothRead service progress =>
      obtain rfl := Progress.hasRead.inj (hb.symm.trans (progress b))
      -- the first one to go on overtakes the other; this is where it has to be harmless
      refine .overtaken b (by rw [hservice, service]) hb' (hother.trans (progress _))
        (fun row hlive => ?_)
      have hread := read_of_live hg hcalm hlive
      have hrow := (TaskTable.live_eq_some.mp hlive).1
      rw [← service]
      -- both have read the row, and the row is still what they have read
      refine hsparing row row ?_ ?_ _ ?_
      · rw [progress, hread]
      · rw [progress, hread]
      · rw [service]
        exact entry_eq_some hrow
    | oneFinished a service mine other =>
      rcases a.eq_or_eq_other b with rfl | rfl
      · exact (nomatch hb.symm.trans mine)
      · exact (nomatch hb.symm.trans other)
    | inTurn a service mine other =>
      rcases a.eq_or_eq_other b with rfl | rfl
      · exact (nomatch hb.symm.trans mine)
      · obtain rfl := Progress.hasRead.inj (hb.symm.trans other)
        rw [Party.other_other] at hother
        refine .finished (forall_party a (hother.trans mine) hb')
          ⟨a, w.env a, w.env a.other, hcalm a, hcalm a.other, ?_⟩
        rw [hservice, proceed_read, service]
        exact ⟨rfl, rfl⟩
    | overtaken a service mine other harmless =>
      rcases a.eq_or_eq_other b with rfl | rfl
      · exact (nomatch hb.symm.trans mine)
      · obtain rfl := Progress.hasRead.inj (hb.symm.trans other)
        rw [Party.other_other] at hother
        refine .finished (forall_party a (hother.trans mine) hb') ?_
        rw [hservice, service]
        exact serialised_of_overtaken hg hm ht hcalm harmless
    | finished progress => exact (nomatch hb.symm.trans (progress b))

/-- **Two calls for one task are serialisable if they are sparing**: when a call
that goes on while the other one has read the row is harmless for it, the row
and the registration are in the end what one of the two orders leaves. The run
may be any order of the steps; the guard only speaks of the moments at which
both calls have read. -/
theorem serialised_of_sparing (hg : g.Documented) (hm : s.timeWheel.Keyed) (ht : s.tasks.Keyed)
    (hcalm : ∀ a, (w.env a).Calm) {as : List Party}
    (hsparing : Machine.Each (w.step g) (fun p a _ => w.Sparing p a) (start s) as) :
    Machine.Each (w.step g) (fun _ _ p' => Finished p' → w.Serialised g s p'.service)
      (start s) as := by
  have hkeep : ∀ p a p', Traced g w s p → w.Sparing p a → w.step g p a = some p' →
      Traced g w s p' ∧ (Finished p' → w.Serialised g s p'.service) := by
    intro p a p' h hs hstep
    have h' := h.of_step hg hm ht hcalm hs hstep
    exact ⟨h', h'.serialised⟩
  exact Machine.Each.of_invariant hkeep (.waiting rfl (fun _ => rfl)) hsparing

/-! ## A lost pause -/

/-- An update of the name. -/
def rename : TaskUpdateRequest := { TaskUpdateRequest.keep with name := some "other" }

/-- A task is given another name and paused. -/
def renameAndPause : TwoCalls where
  id := "a"
  call
    | .first => .update rename
    | .second => .pause
  env := fun _ => calmEnv 1

theorem calm_renameAndPause (a : Party) : (renameAndPause.env a).Calm := calm_calmEnv 1

/-- The tables and the wheels are in order once a task has been created. So the
theorem applies to it. -/
theorem keyed_scheduled : scheduled.timeWheel.Keyed ∧ scheduled.tasks.Keyed := by
  obtain ⟨_, hsettles⟩ := settles_execute documented_tableGorm inSync_freshService (calm_calmEnv 0)
    .atomicTaskService (.create (everySecondRequest "a"))
  exact ⟨hsettles.wheel.keyed, hsettles.tasks⟩

/-- When both have read the row and the update goes on first, nothing is lost.
The pause then works on a row that has the old name, and writes no name. -/
theorem serialised_of_updateFirst :
    Machine.Each (renameAndPause.step tableGorm)
      (fun _ _ p' => Finished p' → renameAndPause.Serialised tableGorm scheduled p'.service)
      (start scheduled) [.first, .second, .first, .second] := by
  refine serialised_of_sparing documented_tableGorm keyed_scheduled.1 keyed_scheduled.2
    calm_renameAndPause ?_
  intro p₁ h₁
  obtain rfl := Option.some.inj h₁
  refine ⟨fun _ _ h _ => (nomatch h), fun p₂ h₂ => ?_⟩
  obtain rfl := Option.some.inj h₂
  refine ⟨fun _ _ h _ => (nomatch h), fun p₃ h₃ => ?_⟩
  obtain rfl := Option.some.inj h₃
  refine ⟨fun _ _ _ _ _ _ => .inr (.inr trivial), fun p₄ h₄ => ?_⟩
  obtain rfl := Option.some.inj h₄
  exact ⟨fun _ _ _ h => (nomatch h), trivial⟩

/-- In either order, the task is paused in the end. -/
theorem paused_inTurn {takes : Task → Bool} {d : TaskModel} {h : Held} {q : TaskUpdateRequest}
    (hid : d.id ≠ "") (hr : h.reached ≠ none) (hfits : h.remove.Fits takes (q.apply d).toTask)
    (b b' : Level → Bool) :
    ((Call.update q).whole takes b'
        (Call.pause.whole takes b ⟨true, false, false, d, h⟩)).paused = true
      ∧ (Call.pause.whole takes b
        ((Call.update q).whole takes b' ⟨true, false, false, d, h⟩)).paused = true := by
  have hpause : Call.pause.whole takes b ⟨true, false, false, d, h⟩
      = ⟨true, true, false, d, h.setPaused true⟩ :=
    (Call.whole_of_live rfl b .pause).trans (act_pause_reached hr)
  have hupdate : (Call.update q).whole takes b' ⟨true, false, false, d, h⟩
      = ⟨true, false, false, q.apply d, h.remove.enter b' (q.apply d).toTask⟩ :=
    (Call.whole_of_live rfl b' (.update q)).trans (act_update_fits hid hfits)
  have hreached : (h.remove.enter b' (q.apply d).toTask).reached ≠ none :=
    Held.reached_put_ne_none _ _ _
  have hpaused : ¬ (true = true ∧ true = false) := fun h => (nomatch h.2)
  rw [hpause, hupdate, Call.whole_of_live rfl, Call.whole_of_live rfl]
  dsimp only
  rw [act_update_unscheduled hid hpaused, act_pause_reached hreached]
  exact ⟨rfl, rfl⟩

/-- The task is running, and there is a place for it under its new name. -/
theorem exists_entry_scheduled :
    ∃ d h, scheduled.entry "a" = some ⟨true, false, false, d, h⟩ ∧ d.id ≠ "" ∧ h.reached ≠ none
      ∧ h.remove.Fits scheduled.timeWheel.takes (rename.apply d).toTask := by
  have hrow : (scheduled.tasks "a").map (fun row => (row.enabled, row.paused, row.deletedAt, row.id,
      decide ((scheduled.timeWheel.held "a").remove.Fits scheduled.timeWheel.takes
        (rename.apply row).toTask))) = some (true, false, none, "a", true) := by
    decide +kernel
  obtain ⟨row, hrow, hfacts⟩ := Option.map_eq_some_iff.mp hrow
  simp only [Prod.mk.injEq, decide_eq_true_eq] at hfacts
  obtain ⟨hen, hp, hdel, hid, hfits⟩ := hfacts
  refine ⟨row.definition, scheduled.timeWheel.held "a", ?_, ?_, by decide +kernel, hfits⟩
  · rw [entry_eq_some hrow]
    unfold entryOf
    rw [hen, hp, hdel]
    rfl
  · rw [show row.definition.id = "a" from hid]
    decide

/-- **A lost pause**: when the pause goes on first, the update writes back the
row it has read, which is not paused. -/
theorem not_serialised_of_pauseFirst :
    ¬ Machine.Each (renameAndPause.step tableGorm)
      (fun _ _ p' => Finished p' → renameAndPause.Serialised tableGorm scheduled p'.service)
      (start scheduled) [.first, .second, .second, .first] := by
  intro hall
  have hrun : (Machine.run (renameAndPause.step tableGorm) (start scheduled)
      [.first, .second, .second, .first]).map
        (fun p => (p.service.entry "a").map Entry.paused) = some (some false) := by
    decide +kernel
  obtain ⟨p, hp, hpaused⟩ := Option.map_eq_some_iff.mp hrun
  have hfinished : Finished p := by
    obtain rfl := Option.some.inj hp
    intro a
    cases a <;> rfl
  have hstart : Finished (start scheduled) →
      renameAndPause.Serialised tableGorm scheduled (start scheduled).service := by
    intro h
    have hnot : Progress.waiting = Progress.finished := h .first
    cases hnot
  obtain ⟨a, env₁, env₂, hc₁, hc₂, hentry, -⟩ := Machine.state_of_each
    (P := fun p => Finished p → renameAndPause.Serialised tableGorm scheduled p.service)
    hstart hall hp hfinished
  obtain ⟨d, h, hx, hid, hr, hfits⟩ := exists_entry_scheduled
  have hturn := entry_inTurn documented_tableGorm keyed_scheduled.1 keyed_scheduled.2 hc₁ hc₂ hx
    (renameAndPause.call a) (renameAndPause.call a.other)
  rw [show p.service.entry "a" = _ from hentry.trans hturn] at hpaused
  have hboth := paused_inTurn hid hr hfits
  have hlost : ∀ y : Entry, y.paused = true → some y.paused ≠ some false := fun y hy h =>
    Bool.false_ne_true ((Option.some.inj h).symm.trans hy)
  cases a with
  | first => exact hlost _ (hboth _ _).2 hpaused
  | second => exact hlost _ (hboth _ _).1 hpaused

end Timewheel
