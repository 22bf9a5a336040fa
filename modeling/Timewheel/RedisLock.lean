import Mathlib
import Timewheel.Lib.Run

/-!
# The Redis lock

`RedisLock` keeps a lock as a key of a Redis server: `TryLock` sets the key
unless it is there, with a time to live, `Unlock` deletes it, and `Renew` gives
it a new time to live. The value is always `"1"`. So the server knows that the
lock is held but not by whom, and neither `Unlock` nor `Renew` asks.

A client that is late therefore releases, or renews, the lock of the client
that has acquired it since. `exclusive_iff` says that nothing else can go
wrong: along a run the lock excludes exactly if nobody calls `Unlock` or
`Renew` while the lock is somebody else's.

What a client believes, its lease, is compared with what the server has. The
invariant says that the server backs every lease (`Backed`), and the condition
is just what keeps it so.
-/

namespace Distributed

/-! ## The server -/

/-- A Redis server: the time at which each key expires. Values are not kept,
since the lock always writes the same one. Keys that have expired may still be
in it; they count as not there. -/
abbrev Redis := String → Option ℕ

namespace Redis

/-- The key is there. -/
def live (r : Redis) (now : ℕ) (key : String) : Bool := (r key).any (fun expiry => now < expiry)

/-- `SET key 1 NX` with a time to live. An expired key is overwritten. -/
def setNX (r : Redis) (now : ℕ) (key : String) (ttl : ℕ+) : Bool × Redis :=
  if r.live now key then (false, r) else (true, Function.update r key (some (now + ttl)))

/-- `DEL key`: the number of keys deleted. -/
def del (r : Redis) (now : ℕ) (key : String) : ℕ × Redis :=
  (if r.live now key then 1 else 0, Function.update r key none)

/-- `EXPIRE key`. A key that is not there is left alone. -/
def expire (r : Redis) (now : ℕ) (key : String) (ttl : ℕ+) : Bool × Redis :=
  if r.live now key then (true, Function.update r key (some (now + ttl))) else (false, r)

end Redis

/-! ## The lock -/

/-- The errors of the lock. The texts of the first three come from the server. -/
inductive LockErr where
  | acquire (err : String)
  | release (err : String)
  | renew (err : String)
  | notExist (fullKey : String)
  deriving DecidableEq, Repr

/-- `err.Error()`. -/
def LockErr.error : LockErr → String
  | acquire err => "failed to acquire lock: " ++ err
  | release err => "failed to release lock: " ++ err
  | renew err => "failed to renew lock: " ++ err
  | notExist fullKey => "lock does not exist: " ++ fullKey

/-- `RedisLock`. -/
structure RedisLock where
  keyPrefix : String

namespace RedisLock

variable (rl : RedisLock) (r : Redis) (now : ℕ) (key : String)

/-- `lockKey`. So different prefixes do not interfere. -/
def lockKey : String := rl.keyPrefix ++ ":" ++ key

/-- `TryLock`; with a fault the command does not get to the server. -/
def tryLock (ttl : ℕ+) (fault : Option String) : Except LockErr Bool × Redis :=
  match fault with
  | some err => (.error (.acquire err), r)
  | none =>
    let (ok, r) := r.setNX now (rl.lockKey key) ttl
    (.ok ok, r)

/-- `Unlock`. It does not matter whether the key was there. -/
def unlock (fault : Option String) : Except LockErr Unit × Redis :=
  match fault with
  | some err => (.error (.release err), r)
  | none => (.ok (), (r.del now (rl.lockKey key)).2)

/-- `Renew`. -/
def renew (ttl : ℕ+) (fault : Option String) : Except LockErr Unit × Redis :=
  match fault with
  | some err => (.error (.renew err), r)
  | none =>
    let (ok, r) := r.expire now (rl.lockKey key) ttl
    if ok then (.ok (), r) else (.error (.notExist (rl.lockKey key)), r)

end RedisLock

/-! ## Its clients -/

section Clients

variable {C : Type*} [DecidableEq C]

/-- The server, the time, and the clients of one key, which know until when they
hold the lock: from a `TryLock` that returned true until its time to live, as
extended by their own `Renew`, runs out or they call `Unlock`. A client counts
from when its call was made. -/
structure Clients (C : Type*) where
  redis : Redis
  now : ℕ
  lease : C → Option ℕ

/-- A call of a client, or the passing of time. Calls of different clients come
in any order. -/
inductive LockAction (C : Type*) where
  | tryLock (c : C) (ttl : ℕ+) (fault : Option String)
  | unlock (c : C) (fault : Option String)
  | renew (c : C) (ttl : ℕ+) (fault : Option String)
  | advance (d : ℕ)

/-- The client `c` holds the lock. -/
def Clients.Holds (s : Clients C) (c : C) : Prop := ∃ expiry, s.lease c = some expiry ∧ s.now < expiry

/-- **The step function.** -/
def lockStep (rl : RedisLock) (key : String) (s : Clients C) : LockAction C → Option (Clients C)
  | .tryLock c ttl fault =>
    let (result, redis) := rl.tryLock s.redis s.now key ttl fault
    match result with
    | .ok true =>
      some { s with redis := redis, lease := Function.update s.lease c (some (s.now + ttl)) }
    | _ => some { s with redis := redis }
  | .unlock c fault =>
    let (_, redis) := rl.unlock s.redis s.now key fault
    some { s with redis := redis, lease := Function.update s.lease c none }
  | .renew c ttl fault =>
    let (result, redis) := rl.renew s.redis s.now key ttl fault
    match result with
    | .ok () =>
      -- a client that has a lease takes it to be extended
      some { s with
        redis := redis
        lease := Function.update s.lease c ((s.lease c).map (fun _ => s.now + ttl)) }
    | .error _ => some { s with redis := redis }
  | .advance d => some { s with now := s.now + d }

/-- **Nobody else is affected** by an `Unlock` or a `Renew` of `c`: while
another client holds the lock, it leaves the key alone, and a renewal fails.
What a `TryLock` does to others is the subject of the other field below. -/
def LeavesOthers (rl : RedisLock) (key : String) (s : Clients C) (a : LockAction C)
    (s' : Clients C) : Prop :=
  match a with
  | .unlock c _ => (∃ d, d ≠ c ∧ s.Holds d) → s'.redis (rl.lockKey key) = s.redis (rl.lockKey key)
  | .renew c ttl fault =>
    (∃ d, d ≠ c ∧ s.Holds d) → s'.redis (rl.lockKey key) = s.redis (rl.lockKey key)
      ∧ (rl.renew s.redis s.now key ttl fault).1 ≠ .ok ()
  | _ => True

/-- **The lock excludes**: at most one client holds it after the step, and the
step has not taken it from anybody. -/
structure Exclusive (rl : RedisLock) (key : String) (s : Clients C) (a : LockAction C)
    (s' : Clients C) : Prop where
  atMostOne : ∀ c d, s'.Holds c → s'.Holds d → c = d
  others : LeavesOthers rl key s a s'

/-- **Nobody calls `Unlock` or `Renew` while the lock is somebody else's**, as
far as the call gets to the server. A call that does not get to the server does
no harm. -/
def InTime (s : Clients C) : LockAction C → Prop
  | .unlock c none => ∀ d, s.Holds d → d = c
  | .renew c _ none => ∀ d, s.Holds d → d = c
  | _ => True

/-! ## What holds along a run -/

variable {rl : RedisLock} {key : String} {s s' : Clients C} {a : LockAction C} {c d : C}

/-- **The server backs every lease**: whoever holds the lock does so until the
key expires, and nobody else does. -/
structure Backed (rl : RedisLock) (key : String) (s : Clients C) : Prop where
  expiry : ∀ c e, s.lease c = some e → s.now < e → s.redis (rl.lockKey key) = some e
  atMostOne : ∀ c d, s.Holds c → s.Holds d → c = d

omit [DecidableEq C] in
/-- A client that holds the lock has its key on the server. -/
theorem Backed.live (h : Backed rl key s) (hc : s.Holds c) :
    s.redis.live s.now (rl.lockKey key) = true := by
  obtain ⟨e, he, hlt⟩ := hc
  unfold Redis.live
  rw [h.expiry c e he hlt, Option.any_some]
  exact decide_eq_true hlt

omit [DecidableEq C] in
/-- Nobody holds the lock when the key is not there. -/
theorem Backed.not_holds (h : Backed rl key s)
    (hlive : s.redis.live s.now (rl.lockKey key) = false) (c : C) : ¬ s.Holds c :=
  fun hc => Bool.false_ne_true (hlive.symm.trans (h.live hc))

/-! ### The steps -/

/-- The three calls, as they are when the server is reached: `TryLock`, -/
theorem lockStep_tryLock (rl : RedisLock) (key : String) (s : Clients C) (c : C) (ttl : ℕ+) :
    lockStep rl key s (.tryLock c ttl none)
      = some (if s.redis.live s.now (rl.lockKey key) then s
        else { s with
          redis := Function.update s.redis (rl.lockKey key) (some (s.now + ttl))
          lease := Function.update s.lease c (some (s.now + ttl)) }) := by
  unfold lockStep RedisLock.tryLock Redis.setNX
  dsimp only
  cases s.redis.live s.now (rl.lockKey key) with
  | true => rfl
  | false => rfl

/-- `Unlock`, -/
theorem lockStep_unlock (rl : RedisLock) (key : String) (s : Clients C) (c : C) :
    lockStep rl key s (.unlock c none)
      = some { s with
        redis := Function.update s.redis (rl.lockKey key) none
        lease := Function.update s.lease c none } := rfl

/-- and `Renew`. -/
theorem lockStep_renew (rl : RedisLock) (key : String) (s : Clients C) (c : C) (ttl : ℕ+) :
    lockStep rl key s (.renew c ttl none)
      = some (if s.redis.live s.now (rl.lockKey key) then
          { s with
            redis := Function.update s.redis (rl.lockKey key) (some (s.now + ttl))
            lease := Function.update s.lease c ((s.lease c).map (fun _ => s.now + ttl)) }
        else s) := by
  unfold lockStep RedisLock.renew Redis.expire
  dsimp only
  cases s.redis.live s.now (rl.lockKey key) with
  | true => rfl
  | false => rfl

omit [DecidableEq C] in
/-- Who holds the lock later has held it before. -/
theorem Clients.Holds.of_advance {t : ℕ} (h : Clients.Holds { s with now := s.now + t } c) :
    s.Holds c := by
  obtain ⟨e, he, hlt⟩ := h
  exact ⟨e, he, lt_of_le_of_lt (Nat.le_add_right _ _) hlt⟩

/-- **Writing the key and the lease of `c`**, while nobody else holds the lock.
This covers the steps that succeed. -/
theorem Backed.write {entry lease : Option ℕ} (hlease : ∀ e, lease = some e → entry = some e)
    (hothers : ∀ d, d ≠ c → ¬ s.Holds d) :
    Backed rl key
      { s with
        redis := Function.update s.redis (rl.lockKey key) entry
        lease := Function.update s.lease c lease } := by
  have honly : ∀ d, Clients.Holds
      { s with
        redis := Function.update s.redis (rl.lockKey key) entry
        lease := Function.update s.lease c lease } d → d = c := by
    rintro d ⟨e, he, hlt⟩
    by_contra hd
    dsimp only at he
    rw [Function.update_of_ne hd] at he
    exact hothers d hd ⟨e, he, hlt⟩
  refine ⟨fun d e he hlt => ?_, fun d d' hd hd' => (honly d hd).trans (honly d' hd').symm⟩
  obtain rfl := honly d ⟨e, he, hlt⟩
  dsimp only at he ⊢
  rw [Function.update_self] at he ⊢
  exact hlease e he

/-- Giving up a lease. -/
theorem Backed.release (h : Backed rl key s) (c : C) :
    Backed rl key { s with lease := Function.update s.lease c none } := by
  have hback : ∀ d e, Function.update s.lease c none d = some e → s.lease d = some e := by
    intro d e he
    by_cases hd : d = c
    · subst hd
      rw [Function.update_self] at he
      cases he
    · rwa [Function.update_of_ne hd] at he
  refine ⟨fun d e he hlt => h.expiry d e (hback d e he) hlt, fun d d' hd hd' => ?_⟩
  obtain ⟨e, he, hlt⟩ := hd
  obtain ⟨e', he', hlt'⟩ := hd'
  exact h.atMostOne d d' ⟨e, hback d e he, hlt⟩ ⟨e', hback d' e' he', hlt'⟩

/-- **A step in time keeps every lease backed.** By the actions. -/
theorem Backed.of_step (h : Backed rl key s) (ha : InTime s a)
    (hstep : lockStep rl key s a = some s') : Backed rl key s' := by
  cases a with
  | tryLock c ttl fault =>
    cases fault with
    | some err => exact Option.some.inj hstep ▸ h
    | none =>
      rw [lockStep_tryLock] at hstep
      obtain rfl := Option.some.inj hstep
      cases hlive : s.redis.live s.now (rl.lockKey key) with
      | true =>
        rw [if_pos rfl]
        exact h
      | false =>
        rw [if_neg Bool.false_ne_true]
        exact Backed.write (fun _ he => he) (fun d _ => h.not_holds hlive d)
  | unlock c fault =>
    cases fault with
    | some err => exact Option.some.inj hstep ▸ h.release c
    | none =>
      obtain rfl := Option.some.inj ((lockStep_unlock rl key s c).symm.trans hstep)
      exact Backed.write (fun _ he => nomatch he) (fun d hd hholds => hd (ha d hholds))
  | renew c ttl fault =>
    cases fault with
    | some err => exact Option.some.inj hstep ▸ h
    | none =>
      rw [lockStep_renew] at hstep
      obtain rfl := Option.some.inj hstep
      split_ifs
      · refine Backed.write (fun e he => ?_) (fun d hd hholds => hd (ha d hholds))
        obtain ⟨_, -, rfl⟩ := Option.map_eq_some_iff.mp he
        rfl
      · exact h
  | advance t =>
    obtain rfl := Option.some.inj hstep
    exact ⟨fun d e he hlt => h.expiry d e he (lt_of_le_of_lt (Nat.le_add_right _ _) hlt),
      fun d d' hd hd' => h.atMostOne d d' hd.of_advance hd'.of_advance⟩

/-- A step in time affects nobody else. -/
theorem leavesOthers_of_inTime (ha : InTime s a) (hstep : lockStep rl key s a = some s') :
    LeavesOthers rl key s a s' := by
  cases a with
  | tryLock c ttl fault => trivial
  | unlock c fault =>
    cases fault with
    | some err =>
      obtain rfl := Option.some.inj hstep
      exact fun _ => rfl
    | none => exact fun ⟨d, hne, hd⟩ => absurd (ha d hd) hne
  | renew c ttl fault =>
    cases fault with
    | some err =>
      obtain rfl := Option.some.inj hstep
      exact fun _ => ⟨rfl, fun h => nomatch h⟩
    | none => exact fun ⟨d, hne, hd⟩ => absurd (ha d hd) hne
  | advance t => trivial

/-- **A late call affects the client that holds the lock.** So the condition is
necessary, call by call. -/
theorem inTime_of_leavesOthers (h : Backed rl key s) (hstep : lockStep rl key s a = some s')
    (hleaves : LeavesOthers rl key s a s') : InTime s a := by
  cases a with
  | tryLock c ttl fault => trivial
  | unlock c fault =>
    cases fault with
    | some err => trivial
    | none =>
      intro d hd
      by_contra hne
      obtain rfl := Option.some.inj ((lockStep_unlock rl key s c).symm.trans hstep)
      have hsame := hleaves ⟨d, hne, hd⟩
      obtain ⟨e, he, hlt⟩ := hd
      dsimp only at hsame
      rw [h.expiry d e he hlt, Function.update_self] at hsame
      cases hsame
  | renew c ttl fault =>
    cases fault with
    | some err => trivial
    | none =>
      intro d hd
      by_contra hne
      refine (hleaves ⟨d, hne, hd⟩).2 ?_
      unfold RedisLock.renew Redis.expire
      dsimp only
      rw [h.live hd, if_pos rfl]
      rfl
  | advance t => trivial

/-- **Exactly the runs in which every call is in time exclude.** Whatever the
server holds at the beginning. The run may have any number of clients, calls and
faults. -/
theorem exclusive_iff (rl : RedisLock) (key : String) (redis : Redis) (now : ℕ)
    (as : List (LockAction C)) :
    Machine.Each (lockStep rl key) (Exclusive rl key) ⟨redis, now, fun _ => none⟩ as
      ↔ Machine.Each (lockStep rl key) (fun s a _ => InTime s a) ⟨redis, now, fun _ => none⟩ as := by
  have hkeep : ∀ (s : Clients C) a s', True → Backed rl key s → lockStep rl key s a = some s' →
      InTime s a → Backed rl key s' ∧ Exclusive rl key s a s' := by
    intro s a s' _ h hstep ha
    have h' := h.of_step ha hstep
    exact ⟨h', h'.atMostOne, leavesOthers_of_inTime ha hstep⟩
  have hneed : ∀ (s : Clients C) a s', True → Backed rl key s → lockStep rl key s a = some s' →
      Exclusive rl key s a s' → InTime s a :=
    fun s a s' _ h hstep hq => inTime_of_leavesOthers h hstep hq.others
  exact Machine.each_iff_of_invariant hkeep hneed (fun _ _ => trivial)
    ⟨fun _ _ he => (nomatch he), fun _ _ ⟨_, he, _⟩ => (nomatch he)⟩

end Clients

/-- **A late `Unlock`.** The first client's lease has run out and the second
has acquired the lock; then the first releases it, and a third acquires it while
the second holds it. -/
theorem not_exclusive_of_lateUnlock :
    ¬ Machine.Each (lockStep ⟨"lock"⟩ "job") (Exclusive ⟨"lock"⟩ "job")
      (⟨fun _ => none, 0, fun _ => none⟩ : Clients ℕ)
      [.tryLock 1 10 none, .advance 10, .tryLock 2 10 none, .unlock 1 none,
        .tryLock 3 10 none] := by
  intro h
  have hrun : (Machine.run (lockStep ⟨"lock"⟩ "job")
      (⟨fun _ => none, 0, fun _ => none⟩ : Clients ℕ)
      [.tryLock 1 10 none, .advance 10, .tryLock 2 10 none, .unlock 1 none,
        .tryLock 3 10 none]).map (fun s => (s.now, s.lease 2, s.lease 3))
      = some (10, some 20, some 20) := by decide +kernel
  obtain ⟨t, ht, hvalues⟩ := Option.map_eq_some_iff.mp hrun
  simp only [Prod.mk.injEq] at hvalues
  obtain ⟨hnow, h₂, h₃⟩ := hvalues
  have hone := Machine.state_of_each (P := fun s : Clients ℕ => ∀ c d, s.Holds c → s.Holds d → c = d)
    (fun _ _ ⟨_, he, _⟩ => (nomatch he)) (h.imp (fun _ _ _ hq => hq.atMostOne)) ht
  exact absurd (hone 2 3 ⟨20, h₂, by omega⟩ ⟨20, h₃, by omega⟩) (by decide)

end Distributed
