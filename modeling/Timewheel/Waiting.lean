import Timewheel.RedisLock
import Timewheel.Lib.Polling

/-!
# Waiting for a lock

`Lock` of `RedisLock` waits for a lock by calling `TryLock` every 100 ms until its
timeout. Any number of clients wait at the same time, among others that call
`TryLock`, `Unlock` and `Renew`, and locks expire while they sleep.

Nobody is handed a lock: whoever asks first after it is free has it. Still the
waiting goes no further than the lock does. It excludes exactly if nobody calls
`Unlock` or `Renew` while the lock is somebody else's, and a `Lock` that returns
nil leaves its caller the lock for the whole time to live, while one that returns
an error has left no trace (`excludes_iff`). How many attempts it makes, and
when, depends on the clock alone (`lock_keepsTime`).

The server is that of `Timewheel.RedisLock`: each command is one step at the
server, one that fails has not got there, and a key expires at the time to live
after it was set or renewed. One thing is added to it. What the server is asked
for is not what the caller of go-redis has asked for: the library rounds, to
whole milliseconds for `SET` and to whole seconds for `EXPIRE`. A client that
renews its lock for 1.9 s counts on them, and the server keeps the key for one.
So the library is a parameter (`GoRedis`), and the first of the two results is
about clients that ask for what can be sent (`LockAction.Whole`).
-/

namespace Distributed

open Polling

variable {C : Type*} [DecidableEq C]

/-! ## The library -/

/-- go-redis: the time to live a command asks the server for, by the one the
caller has asked for. -/
structure GoRedis where
  setNX : ℕ+ → ℕ+
  expire : ℕ+ → ℕ+

/-- One millisecond, in nanoseconds. -/
def millisecond : ℕ+ := 1000000

/-- One second, in nanoseconds. -/
def second : ℕ+ := 1000000000

/-- **What go-redis documents**: `SET` is sent with a precision of milliseconds, and
`EXPIRE` with one of seconds. -/
structure GoRedis.Documented (client : GoRedis) : Prop where
  setNX : ∀ ttl, millisecond ∣ ttl → client.setNX ttl = ttl
  expire : ∀ ttl, second ∣ ttl → client.expire ttl = ttl

/-- Cut to whole units, but not to none. -/
def truncated (unit ttl : ℕ+) : ℕ+ :=
  ⟨max 1 (ttl / unit : ℕ) * unit,
    Nat.mul_pos (Nat.lt_of_lt_of_le Nat.zero_lt_one (le_max_left _ _)) unit.pos⟩

/-- The library as it is. -/
def GoRedis.truncating : GoRedis := ⟨truncated millisecond, truncated second⟩

/-- A time to live of whole units is sent unchanged. -/
theorem truncated_of_dvd {unit ttl : ℕ+} (h : unit ∣ ttl) : truncated unit ttl = ttl := by
  obtain ⟨k, rfl⟩ := h
  refine PNat.eq ?_
  show max 1 ((unit * k : ℕ+) / unit : ℕ) * unit = unit * k
  rw [PNat.mul_coe, Nat.mul_div_cancel_left _ unit.pos, max_eq_right k.pos, Nat.mul_comm]

/-- So this library is one of those that are documented. -/
theorem GoRedis.documented_truncating : GoRedis.truncating.Documented :=
  ⟨fun _ => truncated_of_dvd, fun _ => truncated_of_dvd⟩

/-- **The step function**, with the library in between. The server goes by the time
it is sent, and a client that acquires or renews by the one it has asked for. -/
def GoRedis.step (client : GoRedis) (rl : RedisLock) (key : String) (s : Clients C) :
    LockAction C → Option (Clients C)
  | .tryLock c ttl fault =>
    let (result, redis) := rl.tryLock s.redis s.now key (client.setNX ttl) fault
    match result with
    | .ok true =>
      some { s with redis := redis, lease := Function.update s.lease c (some (s.now + ttl)) }
    | _ => some { s with redis := redis }
  | .renew c ttl fault =>
    let (result, redis) := rl.renew s.redis s.now key (client.expire ttl) fault
    match result with
    | .ok () =>
      some { s with
        redis := redis
        lease := Function.update s.lease c ((s.lease c).map (fun _ => s.now + ttl)) }
    | .error _ => some { s with redis := redis }
  | a => lockStep rl key s a

/-- The time to live can be sent as it is. -/
def LockAction.Whole : LockAction C → Prop
  | .tryLock _ ttl _ => millisecond ∣ ttl
  | .renew _ ttl _ => second ∣ ttl
  | _ => True

/-! ## The loop -/

/-- `retryInterval`, in nanoseconds. -/
def retryInterval : ℕ := 100 * 1000000

namespace RedisLock

variable (rl : RedisLock) (client : GoRedis) (key : String)

/-- **`Lock`**: the loop around `TryLock`. -/
def lock : Protocol (Clients C) (LockAction C) C ℕ+ (Option String) LockErr where
  step := client.step rl key
  clock := Clients.now
  attempt := fun c ttl fault => .tryLock c ttl fault
  outcome := fun s _ ttl fault => (rl.tryLock s.redis s.now key (client.setNX ttl) fault).1
  interval := retryInterval

/-- `Lock`, among clients that ask for what can be sent. -/
def lockWhole : Protocol (Clients C) {a : LockAction C // a.Whole} C {ttl // millisecond ∣ ttl}
    (Option String) LockErr :=
  (rl.lock client key).restrict LockAction.Whole (fun ttl => millisecond ∣ ttl)
    (fun _ _ _ h => h)

/-- The text of the error `Lock` returns. -/
def lockErr (ctxErr : String) : Ended LockErr → Option String
  | .done => none
  | .cancelled => some ctxErr
  | .timedOut => some ("lock acquisition timeout for key: " ++ rl.lockKey key)
  | .failed err => some err.error

/-- The client has the lock for its whole time to live, and the server knows. -/
def Granted (s : Clients C) (c : C) (ttl : ℕ+) : Prop :=
  s.lease c = some (s.now + ttl) ∧ s.redis (rl.lockKey key) = some (s.now + ttl)

end RedisLock

section Clients

variable {rl : RedisLock} {client : GoRedis} {key : String} {s s' : Clients C} {c : C}
  {a : LockAction C} {ttl : ℕ+} {fault : Option String}

/-! ### A step -/

/-- **Whoever asks for what can be sent has the lock he counts on**: the library
makes no difference. -/
theorem GoRedis.Documented.step_eq (h : client.Documented) (ha : a.Whole) :
    client.step rl key s a = lockStep rl key s a := by
  cases a with
  | tryLock c ttl fault =>
    unfold GoRedis.step
    dsimp only
    rw [h.setNX ttl ha]
    rfl
  | renew c ttl fault =>
    unfold GoRedis.step
    dsimp only
    rw [h.expire ttl ha]
    rfl
  | unlock c fault => rfl
  | advance d => rfl

/-- What `TryLock` returns says what it has done. -/
theorem granted_of_tryLock (hok : (rl.tryLock s.redis s.now key ttl fault).1 = .ok true)
    (hstep : lockStep rl key s (.tryLock c ttl fault) = some s') : rl.Granted key s' c ttl := by
  cases fault with
  | some err => exact nomatch hok
  | none =>
    rw [lockStep_tryLock] at hstep
    obtain rfl := Option.some.inj hstep
    unfold RedisLock.tryLock Redis.setNX at hok
    dsimp only at hok
    split_ifs at hok ⊢ with hlive
    · cases hok
    · exact ⟨Function.update_self _ _ _, Function.update_self _ _ _⟩

/-- A client that is refused, or whose command fails, leaves no trace. -/
theorem unchanged_of_tryLock (hok : (rl.tryLock s.redis s.now key ttl fault).1 ≠ .ok true)
    (hstep : lockStep rl key s (.tryLock c ttl fault) = some s') : s' = s := by
  cases fault with
  | some err => exact (Option.some.inj hstep).symm
  | none =>
    rw [lockStep_tryLock] at hstep
    obtain rfl := Option.some.inj hstep
    unfold RedisLock.tryLock Redis.setNX at hok
    dsimp only at hok
    split_ifs at hok ⊢ with hlive
    · rfl
    · exact absurd rfl hok

/-- Time does not run backwards, whatever the library sends. -/
theorem now_le_of_step (hstep : client.step rl key s a = some s') : s.now ≤ s'.now := by
  cases a with
  | tryLock c ttl fault =>
    unfold GoRedis.step at hstep
    dsimp only at hstep
    split at hstep
    all_goals
      obtain rfl := Option.some.inj hstep
      exact le_refl _
  | unlock c fault =>
    obtain rfl := Option.some.inj hstep
    exact le_refl _
  | renew c ttl fault =>
    unfold GoRedis.step at hstep
    dsimp only at hstep
    split at hstep
    all_goals
      obtain rfl := Option.some.inj hstep
      exact le_refl _
  | advance d =>
    obtain rfl := Option.some.inj hstep
    exact Nat.le_add_right _ _

/-! ### Exclusion -/

/-- **Exactly the runs in which every `Unlock` and `Renew` is in time exclude**, with
any number of clients waiting in `Lock`. And what `Lock` returns says what it
has done: after nil its caller has the lock for the whole time to live, and an
error has changed nothing. The clients ask for times to live that can be sent,
and the server may hold anything at the beginning. -/
theorem excludes_iff (rl : RedisLock) (client : GoRedis) (hclient : client.Documented)
    (key : String) (redis : Redis) (now : ℕ)
    (as : List (Action {a : LockAction C // a.Whole} C {ttl // millisecond ∣ ttl}
      (Option String))) :
    Machine.Each (Waiting.step (rl.lockWhole client key))
        (fun s a s' =>
          Lifted (rl.lockWhole client key) (fun s a s' => Exclusive rl key s a.1 s') s a s'
            ∧ Decides (rl.lockWhole client key) (fun s c ttl => rl.Granted key s c ttl.1) s a s')
        (.start ⟨redis, now, fun _ => none⟩) as
      ↔ Machine.Each (Waiting.step (rl.lockWhole client key))
        (Lifted (rl.lockWhole client key) (fun s a _ => InTime s a.1))
        (.start ⟨redis, now, fun _ => none⟩) as := by
  have hsent : ∀ (s : Clients C) (a : {a : LockAction C // a.Whole}) s',
      client.step rl key s a.1 = some s' → lockStep rl key s a.1 = some s' :=
    fun s a s' hstep => (hclient.step_eq a.2).symm.trans hstep
  have hkeep : ∀ (s : Clients C) (a : {a : LockAction C // a.Whole}) s', Backed rl key s →
      client.step rl key s a.1 = some s' → InTime s a.1 →
      Backed rl key s' ∧ Exclusive rl key s a.1 s' := by
    intro s a s' h hstep ha
    have h' := h.of_step ha (hsent s a s' hstep)
    exact ⟨h', h'.atMostOne, leavesOthers_of_inTime ha (hsent s a s' hstep)⟩
  have hneed : ∀ (s : Clients C) (a : {a : LockAction C // a.Whole}) s', Backed rl key s →
      client.step rl key s a.1 = some s' → Exclusive rl key s a.1 s' → InTime s a.1 :=
    fun s a s' h hstep hq => inTime_of_leavesOthers h (hsent s a s' hstep) hq.others
  refine each_lifted_iff hkeep hneed (fun s a s' h => ?_) ?_ as
  · -- what an attempt returns is decided by the time that is sent, which is the one asked for
    have hresult : ∀ (s : Clients C) (ttl : {ttl // millisecond ∣ ttl}) fault,
        (rl.tryLock s.redis s.now key (client.setNX ttl.1) fault).1
          = (rl.tryLock s.redis s.now key ttl.1 fault).1 :=
      fun s ttl fault => by rw [hclient.setNX ttl.1 ttl.2]
    exact decides_of_step
      (fun s c ttl fault s' hok hstep => granted_of_tryLock ((hresult s ttl fault).symm.trans hok)
        (hsent s ⟨.tryLock c ttl.1 fault, ttl.2⟩ s' hstep))
      (fun s c ttl fault s' hok hstep => unchanged_of_tryLock
        (fun heq => hok ((hresult s ttl fault).trans heq))
        (hsent s ⟨.tryLock c ttl.1 fault, ttl.2⟩ s' hstep)) h
  · exact ⟨fun _ _ he => (nomatch he), fun _ _ ⟨_, he, _⟩ => (nomatch he)⟩

end Clients

instance (s : Clients C) (c : C) : Decidable (s.Holds c) :=
  match h : s.lease c with
  | none => isFalse (fun ⟨_, he, _⟩ => nomatch h.symm.trans he)
  | some e => decidable_of_iff (s.now < e)
      ⟨fun hlt => ⟨e, h, hlt⟩, fun ⟨_, he, hlt⟩ => Option.some.inj (h.symm.trans he) ▸ hlt⟩

instance [Fintype C] (s : Clients C) : (a : LockAction C) → Decidable (InTime s a)
  | .unlock c none => inferInstanceAs (Decidable (∀ d, s.Holds d → d = c))
  | .renew c _ none => inferInstanceAs (Decidable (∀ d, s.Holds d → d = c))
  | .unlock _ (some _) => isTrue trivial
  | .renew _ _ (some _) => isTrue trivial
  | .tryLock _ _ _ => isTrue trivial
  | .advance _ => isTrue trivial

theorem millisecond_dvd_second : millisecond ∣ second := PNat.dvd_iff.mpr (by decide)

/-- One client acquires the lock, renews it and gives it up, and another one that
has been waiting for it acquires it. -/
def handedOver : List (Action {a : LockAction Bool // a.Whole} Bool {ttl // millisecond ∣ ttl}
    (Option String)) :=
  [.call true ⟨second, millisecond_dvd_second⟩ 0, .check true false, .attempt true none,
    .call false ⟨second, millisecond_dvd_second⟩ 150000000, .check false false, .attempt false none,
    .other ⟨.renew true second none, dvd_refl second⟩, .other ⟨.unlock true none, trivial⟩,
    .other ⟨.advance retryInterval, trivial⟩, .wake false, .check false false,
    .attempt false none]

/-- The lock is given up before the other client asks again, so the condition is
met in every step. -/
theorem excludes_of_handedOver :
    Machine.Each (Waiting.step (RedisLock.lockWhole ⟨"lock"⟩ .truncating "job"))
      (fun s a s' =>
        Lifted (RedisLock.lockWhole ⟨"lock"⟩ .truncating "job")
            (fun s a s' => Exclusive ⟨"lock"⟩ "job" s a.1 s') s a s'
          ∧ Decides (RedisLock.lockWhole ⟨"lock"⟩ .truncating "job")
            (fun s c ttl => RedisLock.Granted ⟨"lock"⟩ "job" s c ttl.1) s a s')
      (.start ⟨fun _ => none, 0, fun _ => none⟩) handedOver :=
  (excludes_iff ⟨"lock"⟩ .truncating GoRedis.documented_truncating "job" (fun _ => none) 0
    handedOver).mpr (by decide +kernel)

/-! ## The clock -/

/-- **`Lock` keeps time.** In every run and for every call of `Lock`, under way or
returned, any two attempts are at least 100 ms apart and all but one of the
intervals they take fit before its deadline; a timeout is only reported past the
deadline. If no call is held up, the attempts come exactly every 100 ms from the
beginning of the call on and all before its deadline, and it returns within
100 ms of that. -/
structure KeepsTime {S A F : Type*} (P : Protocol S A C ℕ+ F LockErr) (base : S)
    (as : List (Action A C ℕ+ F)) (s : Waiting S C ℕ+ LockErr) : Prop where
  polls : ∀ c p, s.polls c = some p → p.Spaced retryInterval
  returns : ∀ r ∈ s.returns, r.Timely retryInterval
  promptPolls : Machine.Each (Waiting.step P) (Passing P Prompt) (.start base) as →
    ∀ c p, s.polls c = some p → p.Regular retryInterval
  promptReturns : Machine.Each (Waiting.step P) (Passing P Prompt) (.start base) as →
    ∀ r ∈ s.returns, r.Punctual retryInterval

/-- **The attempts of `Lock` in every run.** Whatever the other clients do, and
whatever the library makes of the times to live: only the calls' own loops
count. -/
theorem lock_keepsTime (rl : RedisLock) (client : GoRedis) (key : String) (base : Clients C)
    (as : List (Action (LockAction C) C ℕ+ (Option String)))
    (s : Waiting (Clients C) C ℕ+ LockErr)
    (hrun : Machine.run (Waiting.step (rl.lock client key)) (.start base) as = some s) :
    KeepsTime (rl.lock client key) base as s := by
  obtain ⟨hpolls, hreturns⟩ := timely_of_run (fun _ _ _ h => now_le_of_step h) hrun
  exact ⟨hpolls, hreturns, fun hprompt => (prompt_of_run hprompt hrun).1,
    fun hprompt => (prompt_of_run hprompt hrun).2⟩

/-- One client acquires the lock for a second, and another one waits 150 ms for
it. -/
def contended : List (Action (LockAction Bool) Bool ℕ+ (Option String)) :=
  [.call true second 0, .check true false, .attempt true none,
    .call false second 150000000, .check false false, .attempt false none,
    .other (.advance retryInterval), .wake false, .check false false, .attempt false none,
    .other (.advance retryInterval), .wake false, .check false false]

/-- It has tried twice when it is told that its time is up. -/
theorem lock_keepsTime_of_contended :
    ∃ s, Machine.run (Waiting.step (RedisLock.lock ⟨"lock"⟩ .truncating "job"))
        (.start ⟨fun _ => none, 0, fun _ => none⟩) contended = some s
      ∧ s.returns.map (fun r => (r.poll.times, r.time))
        = [([0], 0), ([0, 100000000], 200000000)]
      ∧ KeepsTime (RedisLock.lock ⟨"lock"⟩ .truncating "job") ⟨fun _ => none, 0, fun _ => none⟩
        contended s
      ∧ ∀ r ∈ s.returns, r.Punctual retryInterval := by
  have hrun : (Machine.run (Waiting.step (RedisLock.lock ⟨"lock"⟩ .truncating "job"))
      (.start ⟨fun _ => none, 0, fun _ => none⟩) contended).map
        (fun s => s.returns.map (fun r => (r.poll.times, r.time)))
      = some [([0], 0), ([0, 100000000], 200000000)] := by decide +kernel
  obtain ⟨s, hs, hreturns⟩ := Option.map_eq_some_iff.mp hrun
  have hkeeps := lock_keepsTime ⟨"lock"⟩ .truncating "job" ⟨fun _ => none, 0, fun _ => none⟩
    contended s hs
  exact ⟨s, hs, hreturns, hkeeps, hkeeps.promptReturns (by decide +kernel)⟩

end Distributed
