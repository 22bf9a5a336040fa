import Mathlib.Data.Fintype.Defs
import Mathlib.Data.List.Range
import Mathlib.Data.Nat.Init
import Mathlib.Logic.Function.Basic
import Mathlib.Tactic.Ring
import Timewheel.Lib.Run

/-!
# Polling with a deadline

Clients of a shared machine that wait by asking again. A call looks whether it
has been cancelled or its deadline has passed, makes an attempt, and if that is
refused sleeps for an interval and starts over. The attempts of all the clients
and the other actions of the machine come in any order, and time passes between
any two of them.

An attempt is an action of the machine like any other, so what the machine
guarantees it guarantees its clients (`each_lifted_iff`). For the rest only the
clock counts. A call keeps the times of its attempts, and two things are said of
them. They are an interval apart, or more, however the steps of the clients are
mixed, and so there are not many (`timely_of_run`); and if the call is never
held up they are exactly an interval apart (`prompt_of_run`).

Neither says anything of what the other calls do, and so neither needs an
invariant of the machine. Both are cases of one rule, which looks at one call at
a time and asks what each part of its loop keeps, and the passing of time
(`Keeps.of_run`).
-/

namespace Polling

variable {S A C R F E : Type*}

/-- How a call ends. -/
inductive Ended (E : Type*) where
  | done
  | cancelled
  | timedOut
  | failed (err : E)

/-- Where a call is. -/
inductive Phase where
  | checking
  | trying
  | sleeping (wake : ℕ)
  deriving DecidableEq

/-- A call under way: what it asks for, when it began and by when it has to be
done, the times of the attempts it has made so far, and where it is. -/
structure Poll (R : Type*) where
  request : R
  startedAt : ℕ
  deadline : ℕ
  times : List ℕ
  phase : Phase

/-- A call that has returned: how, and when. -/
structure Return (C R E : Type*) where
  client : C
  poll : Poll R
  ended : Ended E
  time : ℕ

/-- The machine the clients share, its clock, and their attempts: the action an
attempt is, and what the client is told about it. `F` is what decides about an
attempt besides the state, say a fault on the way. -/
structure Protocol (S A C R F E : Type*) where
  step : S → A → Option S
  clock : S → ℕ
  attempt : C → R → F → A
  outcome : S → C → R → F → Except E Bool
  interval : ℕ

/-- The clients that keep to the actions `W` and to requests whose attempts are
such. -/
def Protocol.restrict (P : Protocol S A C R F E) (W : A → Prop) (V : R → Prop)
    (h : ∀ c r f, V r → W (P.attempt c r f)) : Protocol S {a // W a} C {r // V r} F E where
  step := fun s a => P.step s a.1
  clock := P.clock
  attempt := fun c r f => ⟨P.attempt c r.1 f, h c r.1 f r.2⟩
  outcome := fun s c r f => P.outcome s c r.1 f
  interval := P.interval

/-- The machine with the calls under way, and those that have returned. -/
structure Waiting (S C R E : Type*) where
  base : S
  polls : C → Option (Poll R)
  returns : List (Return C R E)

/-- A step of a call, or an action of the machine. -/
inductive Action (A C R F : Type*) where
  | call (c : C) (request : R) (timeout : ℕ)
  | check (c : C) (cancelled : Bool)
  | attempt (c : C) (f : F)
  | wake (c : C)
  | other (a : A)

namespace Poll

/-- The beginning of the loop: a call that has been cancelled, or whose deadline
has passed, returns without another attempt. -/
def check (p : Poll R) (now : ℕ) (cancelled : Bool) : Poll R × Option (Ended E) :=
  if cancelled then (p, some .cancelled)
  else if p.deadline < now then (p, some .timedOut)
  else ({ p with phase := .trying }, none)

/-- The rest of it, after the attempt. A call that is refused goes to sleep. -/
def attempted (p : Poll R) (now interval : ℕ) (result : Except E Bool) :
    Poll R × Option (Ended E) :=
  ({ p with times := p.times ++ [now], phase := .sleeping (now + interval) },
    match result with
    | .error err => some (.failed err)
    | .ok true => some .done
    | .ok false => none)

end Poll

namespace Waiting

variable [DecidableEq C]

/-- The call of `c` goes on, or returns. -/
def put (s : Waiting S C R E) (c : C) (now : ℕ) : Poll R × Option (Ended E) → Waiting S C R E
  | (p, none) => { s with polls := Function.update s.polls c (some p) }
  | (p, some ended) =>
    { s with
      polls := Function.update s.polls c none
      returns := s.returns ++ [⟨c, p, ended, now⟩] }

/-- **The step function.** Every part of a call's loop is a step of its own, so
that the clients and the machine may come in between; only the attempt is one
step with what it does to the machine. A call may be woken late, but not
early. -/
def step (P : Protocol S A C R F E) (s : Waiting S C R E) :
    Action A C R F → Option (Waiting S C R E)
  | .call c request timeout =>
    match s.polls c with
    | some _ => none
    | none => some { s with
        polls := Function.update s.polls c
          (some ⟨request, P.clock s.base, P.clock s.base + timeout, [], .checking⟩) }
  | .check c cancelled =>
    (s.polls c).bind (fun p =>
      if p.phase = .checking then
        some (s.put c (P.clock s.base) (p.check (P.clock s.base) cancelled))
      else none)
  | .attempt c f =>
    (s.polls c).bind (fun p =>
      if p.phase = .trying then
        (P.step s.base (P.attempt c p.request f)).map (fun base =>
          put { s with base := base } c (P.clock base)
            (p.attempted (P.clock base) P.interval (P.outcome s.base c p.request f)))
      else none)
  | .wake c =>
    (s.polls c).bind (fun p =>
      match p.phase with
      | .sleeping wake =>
        if wake ≤ P.clock s.base then
          some { s with polls := Function.update s.polls c (some { p with phase := .checking }) }
        else none
      | _ => none)
  | .other a => (P.step s.base a).map (fun base => { s with base := base })

/-- No call is under way. -/
def start (base : S) : Waiting S C R E := ⟨base, fun _ => none, []⟩

end Waiting

/-- The action of the machine in a step. -/
def Action.base (P : Protocol S A C R F E) (s : Waiting S C R E) : Action A C R F → Option A
  | .attempt c f => (s.polls c).map (fun p => P.attempt c p.request f)
  | .other a => some a
  | _ => none

section Steps

variable [DecidableEq C] {P : Protocol S A C R F E} {s s' : Waiting S C R E}
  {a : Action A C R F}

@[simp] theorem base_put (s : Waiting S C R E) (c : C) (now : ℕ)
    (r : Poll R × Option (Ended E)) : (s.put c now r).base = s.base := by
  obtain ⟨p, ended⟩ := r
  cases ended <;> rfl

/-- **A step moves the machine by its action**, or not at all. -/
theorem base_of_step (h : s.step P a = some s') :
    (∃ b, a.base P s = some b ∧ P.step s.base b = some s'.base)
      ∨ (a.base P s = none ∧ s'.base = s.base) := by
  cases a with
  | call c request timeout =>
    unfold Waiting.step at h
    dsimp only at h
    split at h
    · cases h
    · obtain rfl := Option.some.inj h
      exact Or.inr ⟨rfl, rfl⟩
  | check c cancelled =>
    obtain ⟨p, -, h⟩ := Option.bind_eq_some_iff.mp h
    split_ifs at h
    obtain rfl := Option.some.inj h
    exact Or.inr ⟨rfl, base_put _ _ _ _⟩
  | attempt c f =>
    obtain ⟨p, hp, h⟩ := Option.bind_eq_some_iff.mp h
    split_ifs at h
    obtain ⟨base, hbase, rfl⟩ := Option.map_eq_some_iff.mp h
    refine Or.inl ⟨P.attempt c p.request f, ?_, ?_⟩
    · exact congrArg (Option.map _) hp
    · rw [base_put]
      exact hbase
  | wake c =>
    obtain ⟨p, -, h⟩ := Option.bind_eq_some_iff.mp h
    split at h
    · split_ifs at h
      obtain rfl := Option.some.inj h
      exact Or.inr ⟨rfl, rfl⟩
    · cases h
  | other b =>
    obtain ⟨base, hbase, rfl⟩ := Option.map_eq_some_iff.mp h
    exact Or.inl ⟨b, rfl, hbase⟩

/-- A property of transitions of the machine, for those of its clients. -/
def Lifted (P : Protocol S A C R F E) (Q : S → A → S → Prop) (s : Waiting S C R E)
    (a : Action A C R F) (s' : Waiting S C R E) : Prop :=
  ∀ b, a.base P s = some b → Q s.base b s'.base

instance {Q : S → A → S → Prop} [∀ s a s', Decidable (Q s a s')] :
    Decidable (Lifted P Q s a s') :=
  match h : a.base P s with
  | none => isTrue (fun _ hb => nomatch h.symm.trans hb)
  | some b => decidable_of_iff (Q s.base b s'.base)
      ⟨fun hQ _ hb => Option.some.inj (h.symm.trans hb) ▸ hQ, fun hall => hall b h⟩

/-- **What the machine guarantees exactly under a guard, it guarantees its clients
exactly under that guard.** An attempt is a step of the machine, and the other
parts of a call do not touch it, so an invariant of the machine holds between
any two steps of the clients. `T` holds of every step. -/
theorem each_lifted_iff {G Q : S → A → S → Prop} {Inv : S → Prop}
    {T : Waiting S C R E → Action A C R F → Waiting S C R E → Prop}
    (hkeep : ∀ s a s', Inv s → P.step s a = some s' → G s a s' → Inv s' ∧ Q s a s')
    (hneed : ∀ s a s', Inv s → P.step s a = some s' → Q s a s' → G s a s')
    (hT : ∀ s a s', Waiting.step P s a = some s' → T s a s') (hs : Inv s.base)
    (as : List (Action A C R F)) :
    Machine.Each (Waiting.step P) (fun s a s' => Lifted P Q s a s' ∧ T s a s') s as
      ↔ Machine.Each (Waiting.step P) (Lifted P G) s as := by
  have keep : ∀ (s : Waiting S C R E) (a : Action A C R F) s', True → Inv s.base →
      s.step P a = some s' → Lifted P G s a s' →
      Inv s'.base ∧ Lifted P Q s a s' ∧ T s a s' := by
    intro s a s' _ hs h hG
    rcases base_of_step h with ⟨b, hb, hbase⟩ | ⟨hb, hbase⟩
    · obtain ⟨hinv, hQ⟩ := hkeep s.base b s'.base hs hbase (hG b hb)
      refine ⟨hinv, fun b' hb' => ?_, hT s a s' h⟩
      obtain rfl := Option.some.inj (hb.symm.trans hb')
      exact hQ
    · exact ⟨hbase ▸ hs, fun b hb' => (nomatch hb.symm.trans hb'), hT s a s' h⟩
  have need : ∀ (s : Waiting S C R E) (a : Action A C R F) s', True → Inv s.base →
      s.step P a = some s' → (Lifted P Q s a s' ∧ T s a s') → Lifted P G s a s' := by
    intro s a s' _ hs h hQ b hb
    rcases base_of_step h with ⟨b', hb', hbase⟩ | ⟨hb', -⟩
    · obtain rfl := Option.some.inj (hb'.symm.trans hb)
      exact hneed s.base b' s'.base hs hbase (hQ.1 b' hb')
    · exact (nomatch hb'.symm.trans hb)
  exact Machine.each_iff_of_invariant keep need (fun _ _ => trivial) hs

/-! ### What a call decides -/

/-- **A call that is done has acquired what it asked for**, in its last step; in
any other step a call leaves the machine as it is. -/
structure Decides (P : Protocol S A C R F E) (Acquired : S → C → R → Prop) (s : Waiting S C R E)
    (a : Action A C R F) (s' : Waiting S C R E) : Prop where
  done : ∀ r, s'.returns = s.returns ++ [r] → r.ended = .done →
    r.time = P.clock s'.base ∧ Acquired s'.base r.client r.poll.request
  undone : (∀ b, a ≠ .other b) → (∀ r, s'.returns = s.returns ++ [r] → r.ended ≠ .done) →
    s'.base = s.base

/-- What a part of the loop leaves. -/
theorem Decides.of_put {Acquired : S → C → R → Prop} {base : S} {c : C} {p p' : Poll R}
    {ended : Option (Ended E)} (hp : p'.request = p.request)
    (hdone : ended = some .done → Acquired base c p.request)
    (hundone : ended ≠ some .done → base = s.base) :
    Decides P Acquired s a (Waiting.put { s with base := base } c (P.clock base) (p', ended)) := by
  cases ended with
  | none =>
    exact ⟨fun r hr => absurd hr (by simp [Waiting.put]), fun _ _ => hundone nofun⟩
  | some ended =>
    refine ⟨fun r hr hend => ?_, fun _ hall => hundone (fun heq => ?_)⟩
    · obtain rfl := List.singleton_inj.mp (List.append_cancel_left hr)
      exact ⟨rfl, hp ▸ hdone (congrArg some hend)⟩
    · exact hall _ rfl (Option.some.inj heq)

/-- **A step decides nothing but its own call.** Attempts that acquire are what
`htrue` says, and any other part of the loop leaves the world as it is; what
others do is theirs. -/
theorem decides_of_step {Acquired : S → C → R → Prop}
    (htrue : ∀ s c r f s', P.outcome s c r f = .ok true →
      P.step s (P.attempt c r f) = some s' → Acquired s' c r)
    (hfalse : ∀ s c r f s', P.outcome s c r f ≠ .ok true →
      P.step s (P.attempt c r f) = some s' → s' = s)
    (h : s.step P a = some s') : Decides P Acquired s a s' := by
  cases a with
  | call c request timeout =>
    unfold Waiting.step at h
    dsimp only at h
    split at h
    · cases h
    · obtain rfl := Option.some.inj h
      exact ⟨fun r hr => absurd hr (by simp), fun _ _ => rfl⟩
  | check c cancelled =>
    obtain ⟨p, -, h⟩ := Option.bind_eq_some_iff.mp h
    split_ifs at h
    obtain rfl := Option.some.inj h
    unfold Poll.check
    split_ifs
    · exact .of_put rfl nofun (fun _ => rfl)
    · exact .of_put rfl nofun (fun _ => rfl)
    · exact .of_put rfl nofun (fun _ => rfl)
  | attempt c f =>
    obtain ⟨p, -, h⟩ := Option.bind_eq_some_iff.mp h
    split_ifs at h
    obtain ⟨base, hbase, rfl⟩ := Option.map_eq_some_iff.mp h
    -- an attempt that has not acquired has done nothing
    have hno := fun hne => hfalse s.base c p.request f base hne hbase
    cases hresult : P.outcome s.base c p.request f with
    | error err =>
      exact .of_put (p := p) rfl nofun (fun _ => hno (by rw [hresult]; nofun))
    | ok b =>
      cases b with
      | true =>
        exact .of_put rfl (fun _ => htrue s.base c p.request f base hresult hbase)
          (fun hne => absurd rfl hne)
      | false => exact .of_put (p := p) rfl nofun (fun _ => hno (by rw [hresult]; nofun))
  | wake c =>
    obtain ⟨p, -, h⟩ := Option.bind_eq_some_iff.mp h
    split at h
    · split_ifs at h
      obtain rfl := Option.some.inj h
      exact ⟨fun r hr => absurd hr (by simp), fun _ _ => rfl⟩
    · cases h
  | other b =>
    obtain ⟨base, hbase, rfl⟩ := Option.map_eq_some_iff.mp h
    exact ⟨fun r hr => absurd hr (by simp), fun hb => absurd rfl (hb b)⟩

end Steps

/-! ## One call at a time -/

section Calls

variable {I : ℕ → Poll R → Prop} {J : Return C R E → Prop} {Passes : ℕ → Poll R → ℕ → Prop}

/-- What is known of a call after a part of the loop. -/
def After (I : ℕ → Poll R → Prop) (J : Return C R E → Prop) (c : C) (now : ℕ) :
    Poll R × Option (Ended E) → Prop
  | (p, none) => I now p
  | (p, some ended) => J ⟨c, p, ended, now⟩

/-- **What is to be shown of one call**, for `I` to hold of every call under way
and `J` of those that have returned: each part of the loop keeps it, and so does
the time that may pass for it. -/
structure Keeps (interval : ℕ) (Passes : ℕ → Poll R → ℕ → Prop) (I : ℕ → Poll R → Prop)
    (J : Return C R E → Prop) : Prop where
  start : ∀ request now timeout, I now ⟨request, now, now + timeout, [], .checking⟩
  check : ∀ c p now cancelled, I now p → p.phase = .checking →
    After I J c now (p.check now cancelled)
  attempted : ∀ c p now result, I now p → p.phase = .trying →
    After I J c now (p.attempted now interval result)
  wake : ∀ p now wake, I now p → p.phase = .sleeping wake → wake ≤ now →
    I now { p with phase := .checking }
  pass : ∀ p now now', I now p → Passes now p now' → I now' p

variable [DecidableEq C] {P : Protocol S A C R F E} {s s' : Waiting S C R E}
  {a : Action A C R F}

/-- `I` and `J` hold. -/
structure Holds (P : Protocol S A C R F E) (I : ℕ → Poll R → Prop) (J : Return C R E → Prop)
    (s : Waiting S C R E) : Prop where
  polls : ∀ c p, s.polls c = some p → I (P.clock s.base) p
  returns : ∀ r ∈ s.returns, J r

/-- The time that passes in a step may pass for the calls under way. -/
def Passing (P : Protocol S A C R F E) (Passes : ℕ → Poll R → ℕ → Prop) (s : Waiting S C R E)
    (_ : Action A C R F) (s' : Waiting S C R E) : Prop :=
  ∀ c, ∀ p ∈ s.polls c, Passes (P.clock s.base) p (P.clock s'.base)

instance [Fintype C] [∀ now p now', Decidable (Passes now p now')] :
    Decidable (Passing P Passes s a s') :=
  inferInstanceAs (Decidable (∀ c, ∀ p ∈ s.polls c,
    Passes (P.clock s.base) p (P.clock s'.base)))

/-- A step that writes the state of one call keeps what holds of the others. -/
theorem Holds.write (h : Holds P I J s) {c : C} {p : Poll R} (hp : I (P.clock s.base) p) :
    Holds P I J { s with polls := Function.update s.polls c (some p) } where
  polls := fun d q hq => by
    by_cases hd : d = c
    · subst hd
      dsimp only at hq
      rw [Function.update_self] at hq
      exact Option.some.inj hq ▸ hp
    · dsimp only at hq
      rw [Function.update_of_ne hd] at hq
      exact h.polls d q hq
  returns := h.returns

/-- The call goes on, or returns. -/
theorem Holds.put (h : Holds P I J s) {c : C} {r : Poll R × Option (Ended E)}
    (hr : After I J c (P.clock s.base) r) : Holds P I J (s.put c (P.clock s.base) r) := by
  obtain ⟨p, ended⟩ := r
  cases ended with
  | none => exact h.write hr
  | some ended =>
    refine ⟨fun d q hq => ?_, fun r hr' => ?_⟩
    · have hq : Function.update s.polls c none d = some q := hq
      by_cases hd : d = c
      · subst hd
        rw [Function.update_self] at hq
        cases hq
      · rw [Function.update_of_ne hd] at hq
        exact h.polls d q hq
    · have hr' : r ∈ s.returns ++ [⟨c, p, ended, P.clock s.base⟩] := hr'
      rcases List.mem_append.mp hr' with hr' | hr'
      · exact h.returns r hr'
      · rw [List.mem_singleton.mp hr']
        exact hr

omit [DecidableEq C] in
/-- Time passes. -/
theorem Holds.pass (hk : Keeps P.interval Passes I J) (h : Holds P I J s) {base : S}
    (hpass : ∀ c p, s.polls c = some p → Passes (P.clock s.base) p (P.clock base)) :
    Holds P I J { s with base := base } :=
  ⟨fun c p hp => hk.pass p _ _ (h.polls c p hp) (hpass c p hp), h.returns⟩

/-- **One step.** -/
theorem Holds.of_step (hk : Keeps P.interval Passes I J) (h : Holds P I J s)
    (hpass : Passing P Passes s a s') (hstep : s.step P a = some s') : Holds P I J s' := by
  cases a with
  | call c request timeout =>
    unfold Waiting.step at hstep
    dsimp only at hstep
    split at hstep
    · cases hstep
    · obtain rfl := Option.some.inj hstep
      exact h.write (hk.start request _ timeout)
  | check c cancelled =>
    obtain ⟨p, hp, hstep⟩ := Option.bind_eq_some_iff.mp hstep
    split_ifs at hstep with hphase
    obtain rfl := Option.some.inj hstep
    exact h.put (hk.check c p _ cancelled (h.polls c p hp) hphase)
  | attempt c f =>
    obtain ⟨p, hp, hstep⟩ := Option.bind_eq_some_iff.mp hstep
    split_ifs at hstep with hphase
    obtain ⟨base, hbase, rfl⟩ := Option.map_eq_some_iff.mp hstep
    have hpass : ∀ c p, s.polls c = some p → Passes (P.clock s.base) p (P.clock base) := by
      intro c' p' hp'
      have hp'' := hpass c' p' hp'
      rwa [base_put] at hp''
    have h' := h.pass hk hpass
    exact h'.put (hk.attempted c p _ _ (h'.polls c p hp) hphase)
  | wake c =>
    obtain ⟨p, hp, hstep⟩ := Option.bind_eq_some_iff.mp hstep
    split at hstep
    · rename_i wake hphase
      split_ifs at hstep with hwake
      obtain rfl := Option.some.inj hstep
      exact h.write (hk.wake p _ wake (h.polls c p hp) hphase hwake)
    · cases hstep
  | other b =>
    obtain ⟨base, hbase, rfl⟩ := Option.map_eq_some_iff.mp hstep
    exact h.pass hk hpass

/-- **The rule for runs.** -/
theorem Keeps.of_run (hk : Keeps P.interval Passes I J) {base : S} {as : List (Action A C R F)}
    (hpass : Machine.Each (Waiting.step P) (Passing P Passes) (.start base) as)
    (hrun : Machine.run (Waiting.step P) (.start base) as = some s) : Holds P I J s := by
  have hstep : ∀ (s : Waiting S C R E) (a : Action A C R F) (s' : Waiting S C R E),
      Holds P I J s → Passing P Passes s a s' → s.step P a = some s' → Holds P I J s' :=
    fun _ _ _ h hpass hstep => h.of_step hk hpass hstep
  exact Machine.inv_of_run hstep
    ⟨fun _ p hp => absurd hp.symm (Option.some_ne_none p),
      fun _ hr => absurd hr List.not_mem_nil⟩ hpass hrun

end Calls

/-! ## The attempts of a call -/

section Attempts

variable {interval now : ℕ} {p : Poll R}

/-! ### However long it takes -/

/-- **The attempts of a call are spaced**: an interval apart, or more. The second
field counts them: all but one of the intervals they take fit before the
deadline. -/
structure Poll.Spaced (interval : ℕ) (p : Poll R) : Prop where
  apart : p.times.Pairwise (fun t t' => t + interval ≤ t')
  fit : p.startedAt + p.times.length * interval ≤ p.deadline + interval

/-- At `t` an interval has passed for each attempt, and one since each of them. -/
structure Poll.Rested (interval : ℕ) (p : Poll R) (t : ℕ) : Prop where
  all : p.startedAt + p.times.length * interval ≤ t
  each : ∀ t' ∈ p.times, t' + interval ≤ t

/-- What has been waited for stays waited for. -/
theorem Poll.Rested.mono {t t' : ℕ} (h : p.Rested interval t) (hle : t ≤ t') :
    p.Rested interval t' :=
  ⟨h.all.trans hle, fun u hu => (h.each u hu).trans hle⟩

/-- An attempt of a call that has rested. -/
theorem Poll.Spaced.attempt (h : p.Spaced interval) (hrested : p.Rested interval now)
    (hfit : p.startedAt + p.times.length * interval ≤ p.deadline) (phase : Phase) :
    Poll.Spaced interval { p with times := p.times ++ [now], phase := phase } where
  apart := by
    refine List.pairwise_append.mpr ⟨h.apart, List.pairwise_singleton _ _, ?_⟩
    intro t ht t' ht'
    rw [List.mem_singleton.mp ht']
    exact hrested.each t ht
  fit := by
    show p.startedAt + (p.times ++ [now]).length * interval ≤ p.deadline + interval
    rw [List.length_append, List.length_singleton, Nat.succ_mul, ← Nat.add_assoc]
    exact Nat.add_le_add_right hfit interval

/-- An interval later it has rested again. -/
theorem Poll.Rested.attempt (h : p.Rested interval now) (phase : Phase) :
    Poll.Rested interval { p with times := p.times ++ [now], phase := phase }
      (now + interval) where
  all := by
    show p.startedAt + (p.times ++ [now]).length * interval ≤ now + interval
    rw [List.length_append, List.length_singleton, Nat.succ_mul, ← Nat.add_assoc]
    exact Nat.add_le_add_right h.all interval
  each := fun t ht => by
    rcases List.mem_append.mp ht with ht | ht
    · exact (h.each t ht).trans (Nat.le_add_right _ _)
    · rw [List.mem_singleton.mp ht]

/-- The invariant of the loop. A call that is about to look at the clock, or to
make an attempt, has rested; one that sleeps will have when it is woken. What
the deadline allows is settled by the check, and so before an attempt the next
interval is paid for as well. -/
structure Poll.Timely (interval now : ℕ) (p : Poll R) : Prop where
  spaced : p.Spaced interval
  rested : match p.phase with
    | .checking => p.Rested interval now
    | .trying => p.Rested interval now
        ∧ p.startedAt + p.times.length * interval ≤ p.deadline
    | .sleeping wake => p.Rested interval wake

/-- What this says of a call that has returned. -/
structure Return.Timely (interval : ℕ) (r : Return C R E) : Prop where
  spaced : r.poll.Spaced interval
  timedOut : r.ended = .timedOut → r.poll.deadline < r.time

/-- **The loop keeps its distances.** Of the time that may pass nothing is asked
but that it does not run backwards: an attempt comes after a sleep, and a sleep
takes an interval at least. -/
theorem keeps_timely (interval : ℕ) :
    Keeps (C := C) (E := E) interval (fun now (_ : Poll R) now' => now ≤ now')
      (Poll.Timely interval) (Return.Timely interval) where
  start := fun request now timeout => by
    refine ⟨⟨List.Pairwise.nil, ?_⟩, ?_, fun t ht => absurd ht List.not_mem_nil⟩
    · show now + 0 * interval ≤ now + timeout + interval
      omega
    · show now + 0 * interval ≤ now
      omega
  check := fun c p now cancelled h hphase => by
    obtain ⟨hspaced, hrested⟩ := h
    simp only [hphase] at hrested
    unfold Poll.check
    split_ifs with hc hd
    · exact ⟨hspaced, fun hended => nomatch hended⟩
    · exact ⟨hspaced, fun _ => hd⟩
    · -- the check has passed, so what has been waited for so far is within the deadline
      exact ⟨⟨hspaced.apart, hspaced.fit⟩, ⟨hrested.all, hrested.each⟩,
        hrested.all.trans (not_lt.mp hd)⟩
  attempted := fun c p now result h hphase => by
    obtain ⟨hspaced, hrested⟩ := h
    simp only [hphase] at hrested
    obtain ⟨hrested, hfit⟩ := hrested
    have hspaced' := hspaced.attempt hrested hfit (.sleeping (now + interval))
    unfold Poll.attempted
    cases result with
    | error err => exact ⟨hspaced', fun hended => nomatch hended⟩
    | ok b =>
      cases b with
      | true => exact ⟨hspaced', fun hended => nomatch hended⟩
      | false => exact ⟨hspaced', hrested.attempt (.sleeping (now + interval))⟩
  wake := fun p now wake h hphase hwake => by
    obtain ⟨hspaced, hrested⟩ := h
    simp only [hphase] at hrested
    have hrested := hrested.mono hwake
    exact ⟨⟨hspaced.apart, hspaced.fit⟩, ⟨hrested.all, hrested.each⟩⟩
  pass := fun p now now' h hle => by
    obtain ⟨hspaced, hrested⟩ := h
    refine ⟨hspaced, ?_⟩
    cases hphase : p.phase with
    | checking =>
      simp only [hphase] at hrested ⊢
      exact hrested.mono hle
    | trying =>
      simp only [hphase] at hrested ⊢
      exact ⟨hrested.1.mono hle, hrested.2⟩
    | sleeping wake =>
      simp only [hphase] at hrested ⊢
      exact hrested

/-- **The attempts of a run**, when time does not run backwards. The attempts of
every call, whether it is under way or has returned, are an interval apart or
more, all but one of the intervals they take fit before the deadline, and a
timeout is only reported past it. -/
theorem timely_of_run [DecidableEq C] {P : Protocol S A C R F E} {base : S}
    {as : List (Action A C R F)} {s : Waiting S C R E}
    (hclock : ∀ s a s', P.step s a = some s' → P.clock s ≤ P.clock s')
    (hrun : Machine.run (Waiting.step P) (.start base) as = some s) :
    (∀ c p, s.polls c = some p → p.Spaced P.interval)
      ∧ ∀ r ∈ s.returns, r.Timely P.interval := by
  have hpass : Machine.Each (Waiting.step P)
      (Passing P (fun now _ now' => now ≤ now')) (.start base) as := by
    have key : ∀ (s : Waiting S C R E) (a : Action A C R F) s', True → True →
        s.step P a = some s' → True ∧ Passing P (fun now _ now' => now ≤ now') s a s' := by
      intro s a s' _ _ h
      refine ⟨trivial, fun _ _ _ => ?_⟩
      rcases base_of_step h with ⟨b, -, hb⟩ | ⟨-, hb⟩
      · exact hclock _ _ _ hb
      · exact hb ▸ le_refl _
    exact Machine.Each.of_invariant key trivial (Machine.each_of_forall (fun _ _ => trivial))
  have h := (keeps_timely P.interval).of_run hpass hrun
  exact ⟨fun c p hp => (h.polls c p hp).spaced, h.returns⟩

/-! ### When nothing holds it up -/

/-- **A call is not held up**: no time passes for it but while it sleeps, and it is
woken in time. -/
def Prompt (now : ℕ) (p : Poll R) (now' : ℕ) : Prop :=
  now' = now ∨ ∃ wake, p.phase = .sleeping wake ∧ now ≤ now' ∧ now' ≤ wake

instance (now : ℕ) (p : Poll R) (now' : ℕ) : Decidable (Prompt now p now') :=
  match hphase : p.phase with
  | .sleeping wake => decidable_of_iff (now' = now ∨ now ≤ now' ∧ now' ≤ wake)
      (by simp [Prompt, hphase])
  | .checking => decidable_of_iff (now' = now) (by simp [Prompt, hphase])
  | .trying => decidable_of_iff (now' = now) (by simp [Prompt, hphase])

/-- The time of attempt `k`, if each comes an interval after the one before and the
first at once. -/
def Poll.due (interval : ℕ) (p : Poll R) (k : ℕ) : ℕ := p.startedAt + k * interval

/-- **The attempts of a call are regular**: each comes exactly when it is due, and
all of them before the deadline. -/
structure Poll.Regular (interval : ℕ) (p : Poll R) : Prop where
  times : p.times = (List.range p.times.length).map (p.due interval)
  fit : ∀ t ∈ p.times, t ≤ p.deadline

/-- An attempt that comes when it is due. -/
theorem Poll.Regular.attempt (h : p.Regular interval)
    (hnow : now = p.due interval p.times.length) (hfit : now ≤ p.deadline) (phase : Phase) :
    Poll.Regular interval { p with times := p.times ++ [now], phase := phase } where
  times := by
    show p.times ++ [now] = (List.range (p.times ++ [now]).length).map (p.due interval)
    rw [List.length_append, List.length_singleton, List.range_succ, List.map_append, ← h.times,
      hnow]
    rfl
  fit := fun t ht => by
    rcases List.mem_append.mp ht with ht | ht
    · exact h.fit t ht
    · rw [List.mem_singleton.mp ht]
      exact hfit

/-- The attempt after those made so far comes an interval after the last one, and
so at most an interval past the deadline. -/
theorem Poll.Regular.due_le (h : p.Regular interval) (hstart : p.startedAt ≤ p.deadline) :
    p.due interval p.times.length ≤ p.deadline + interval := by
  cases hlen : p.times.length with
  | zero =>
    show p.startedAt + 0 * interval ≤ p.deadline + interval
    omega
  | succ k =>
    have hmem : p.due interval k ∈ p.times := by
      rw [h.times, hlen]
      exact List.mem_map_of_mem List.self_mem_range_succ
    show p.startedAt + (k + 1) * interval ≤ p.deadline + interval
    rw [Nat.succ_mul, ← Nat.add_assoc]
    exact Nat.add_le_add_right (h.fit _ hmem) interval

/-- The invariant of the loop of a call that is not held up: the next attempt is
due now, or when the call is woken. -/
structure Poll.Punctual (interval now : ℕ) (p : Poll R) : Prop where
  regular : p.Regular interval
  startedAt : p.startedAt ≤ p.deadline
  next : match p.phase with
    | .checking => now = p.due interval p.times.length
    | .trying => now = p.due interval p.times.length ∧ now ≤ p.deadline
    | .sleeping wake => wake = p.due interval p.times.length ∧ now ≤ wake

/-- What this says of a call that has returned: it has when the next attempt was
due, having looked at the clock for the last time, or with its last attempt. It
does so before another interval has passed since its deadline. -/
structure Return.Punctual (interval : ℕ) (r : Return C R E) : Prop where
  regular : r.poll.Regular interval
  timedOut : r.ended = .timedOut → r.time = r.poll.due interval r.poll.times.length
    ∧ r.poll.deadline < r.time
  cancelled : r.ended = .cancelled → r.time = r.poll.due interval r.poll.times.length
  tried : r.ended ≠ .timedOut → r.ended ≠ .cancelled → r.poll.times.getLast? = some r.time
  time_le : r.time ≤ r.poll.deadline + interval

/-- **The loop keeps its times** if time passes for it in its sleeps only. Then
each attempt comes exactly when it is due, by induction on the attempts before
it. -/
theorem keeps_punctual (interval : ℕ) :
    Keeps (C := C) (E := E) interval Prompt (Poll.Punctual (R := R) interval)
      (Return.Punctual interval) where
  start := fun request now timeout => by
    refine ⟨⟨rfl, fun t ht => absurd ht List.not_mem_nil⟩, Nat.le_add_right _ _, ?_⟩
    show now = now + 0 * interval
    omega
  check := fun c p now cancelled h hphase => by
    obtain ⟨hregular, hstart, hnow⟩ := h
    simp only [hphase] at hnow
    have hle : now ≤ p.deadline + interval := hnow ▸ hregular.due_le hstart
    unfold Poll.check
    split_ifs with hc hd
    · exact ⟨hregular, fun hended => (nomatch hended), fun _ => hnow,
        fun _ hended => absurd rfl hended, hle⟩
    · exact ⟨hregular, fun _ => ⟨hnow, hd⟩, fun hended => (nomatch hended),
        fun hended => absurd rfl hended, hle⟩
    · exact ⟨⟨hregular.times, hregular.fit⟩, hstart, hnow, not_lt.mp hd⟩
  attempted := fun c p now result h hphase => by
    obtain ⟨hregular, hstart, hnow⟩ := h
    simp only [hphase] at hnow
    obtain ⟨hnow, hfit⟩ := hnow
    have hregular' := hregular.attempt hnow hfit (.sleeping (now + interval))
    -- a call that ends with an attempt ends at the time of it
    have htried : ∀ ended : Ended E, ended ≠ .timedOut → ended ≠ .cancelled →
        Return.Punctual interval (⟨c, { p with
          times := p.times ++ [now]
          phase := .sleeping (now + interval) }, ended, now⟩ : Return C R E) :=
      fun ended ht hc => ⟨hregular', fun hended => absurd hended ht,
        fun hended => absurd hended hc, fun _ _ => List.getLast?_concat,
        hfit.trans (Nat.le_add_right _ _)⟩
    unfold Poll.attempted
    cases result with
    | error err => exact htried _ nofun nofun
    | ok b =>
      cases b with
      | true => exact htried _ nofun nofun
      | false =>
        refine ⟨hregular', hstart, ?_, Nat.le_add_right _ _⟩
        show now + interval = p.startedAt + (p.times ++ [now]).length * interval
        rw [List.length_append, List.length_singleton, Nat.succ_mul, ← Nat.add_assoc]
        exact congrArg (· + interval) hnow
  wake := fun p now wake h hphase hwake => by
    obtain ⟨hregular, hstart, hnow⟩ := h
    simp only [hphase] at hnow
    obtain ⟨hdue, hle⟩ := hnow
    exact ⟨⟨hregular.times, hregular.fit⟩, hstart, (le_antisymm hle hwake).trans hdue⟩
  pass := fun p now now' h hpass => by
    rcases hpass with rfl | ⟨wake, hphase, hle, hwake⟩
    · exact h
    -- it is asleep, and time passes up to its wake at most
    · obtain ⟨hregular, hstart, hnow⟩ := h
      refine ⟨hregular, hstart, ?_⟩
      simp only [hphase] at hnow ⊢
      exact ⟨hnow.1, hwake⟩

/-- **The attempts of a run in which no call is held up**: at the beginning of the
call and then exactly an interval after each other, as long as the deadline has
not passed. -/
theorem prompt_of_run [DecidableEq C] {P : Protocol S A C R F E} {base : S}
    {as : List (Action A C R F)} {s : Waiting S C R E}
    (hprompt : Machine.Each (Waiting.step P) (Passing P Prompt) (.start base) as)
    (hrun : Machine.run (Waiting.step P) (.start base) as = some s) :
    (∀ c p, s.polls c = some p → p.Regular P.interval)
      ∧ ∀ r ∈ s.returns, r.Punctual P.interval := by
  have h := (keeps_punctual P.interval).of_run hprompt hrun
  exact ⟨fun c p hp => (h.polls c p hp).regular, h.returns⟩

end Attempts

end Polling
