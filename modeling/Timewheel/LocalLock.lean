import Timewheel.RedisLock

/-!
# The local lock

`LocalLock` is the lock of a single machine: a map from keys to the times at
which they expire. An expired entry stays in the map until `TryLock` overwrites
it or the sweep of `cleanup` comes by.

`TryLock` compares the entry it finds with the clock, and so it does not matter
when the sweep comes. `Renew` only asks whether there is an entry. It revives a
lock that has expired, where `RedisLock` reports that it does not exist.
`sameResult_iff` says that the two locks differ in nothing else.

Both locks are compared by what is left of an entry at the present time
(`unexpired`). An expired entry of the map and a missing one are the same in
this respect, and that is the relation of the simulation (`Alike`).
-/

namespace Distributed

/-! ## The code -/

/-- `LocalLock`. A key that is not in the map has never been locked, or has been
swept. -/
structure LocalLock where
  locks : String → Option ℕ

namespace LocalLock

variable (ll : LocalLock) (now : ℕ) (key : String)

/-- `TryLock`. An entry that has expired counts for nothing. -/
def tryLock (ttl : ℕ+) : Except LockErr Bool × LocalLock :=
  let expiry := now + ttl
  match ll.locks key with
  | some expiryTime =>
    if now < expiryTime then (.ok false, ll)
    else (.ok true, ⟨Function.update ll.locks key (some expiry)⟩)
  | none => (.ok true, ⟨Function.update ll.locks key (some expiry)⟩)

/-- `Unlock`. -/
def unlock : Except LockErr Unit × LocalLock :=
  (.ok (), ⟨Function.update ll.locks key none⟩)

/-- `Renew`. It does not look at the clock. -/
def renew (ttl : ℕ+) : Except LockErr Unit × LocalLock :=
  match ll.locks key with
  | none => (.error (.notExist key), ll)
  | some _ => (.ok (), ⟨Function.update ll.locks key (some (now + ttl))⟩)

/-- `cleanup` at one key of the map, with the reading of its tick. The reading
may be an old one by then. -/
def sweep (tick : ℕ) : LocalLock :=
  match ll.locks key with
  | some expiry => if expiry < tick then ⟨Function.update ll.locks key none⟩ else ll
  | none => ll

/-- There is an entry, which has expired. -/
def Stale : Prop := ∃ expiry, ll.locks key = some expiry ∧ expiry ≤ now

end LocalLock

/-! ## Side by side -/

/-- Both locks, the time, and the last reading of the sweep. The calls of the
two are made at the same time. -/
structure Locks where
  loc : LocalLock
  redis : Redis
  now : ℕ
  tick : ℕ

/-- A call, which both get; the passing of time; a tick of the sweep, and the
sweep at one key. The sweep takes its time: it may come by any key, in any
order, between any calls. -/
inductive LocksAction where
  | tryLock (key : String) (ttl : ℕ+)
  | unlock (key : String)
  | renew (key : String) (ttl : ℕ+)
  | advance (d : ℕ)
  | tick
  | sweep (key : String)

/-- **The step function.** -/
def locksStep (rl : RedisLock) (s : Locks) : LocksAction → Option Locks
  | .tryLock key ttl =>
    some { s with
      loc := (s.loc.tryLock s.now key ttl).2
      redis := (rl.tryLock s.redis s.now key ttl none).2 }
  | .unlock key =>
    some { s with
      loc := (s.loc.unlock key).2
      redis := (rl.unlock s.redis s.now key none).2 }
  | .renew key ttl =>
    some { s with
      loc := (s.loc.renew s.now key ttl).2
      redis := (rl.renew s.redis s.now key ttl none).2 }
  | .advance d => some { s with now := s.now + d }
  | .tick => some { s with tick := s.now }
  | .sweep key => some { s with loc := s.loc.sweep key s.tick }

/-- **The call returns the same**: the same value, or an error in both. The
texts of errors may differ. -/
def SameResult (rl : RedisLock) (s : Locks) : LocksAction → Prop
  | .tryLock key ttl =>
    (s.loc.tryLock s.now key ttl).1.toOption = (rl.tryLock s.redis s.now key ttl none).1.toOption
  | .unlock key =>
    (s.loc.unlock key).1.toOption = (rl.unlock s.redis s.now key none).1.toOption
  | .renew key ttl =>
    (s.loc.renew s.now key ttl).1.toOption = (rl.renew s.redis s.now key ttl none).1.toOption
  | _ => True

instance (rl : RedisLock) (s : Locks) : ∀ a, Decidable (SameResult rl s a)
  | .tryLock _ _ => inferInstanceAs (Decidable (_ = _))
  | .unlock _ => inferInstanceAs (Decidable (_ = _))
  | .renew _ _ => inferInstanceAs (Decidable (_ = _))
  | .advance _ => isTrue trivial
  | .tick => isTrue trivial
  | .sweep _ => isTrue trivial

/-- `Renew` does not find an expired entry. The other calls need no condition. -/
def NotStale (s : Locks) : LocksAction → Prop
  | .renew key _ => ¬ s.loc.Stale s.now key
  | _ => True

/-- Neither lock is held. -/
def Locks.start (now : ℕ) : Locks := ⟨⟨fun _ => none⟩, fun _ => none, now, now⟩

/-! ## What is left of an entry -/

/-- An entry that has not expired yet. This is all that the callers can see of
it. -/
def unexpired (now : ℕ) (entry : Option ℕ) : Option ℕ := entry.filter (fun expiry => now < expiry)

variable {rl : RedisLock} {s s' : Locks} {a : LocksAction} {key : String} {now : ℕ}
  {entry entry' : Option ℕ}

/-- Later there is less left. -/
theorem unexpired_later {later : ℕ} (hle : now ≤ later)
    (h : unexpired now entry = unexpired now entry') :
    unexpired later entry = unexpired later entry' := by
  have hagain : ∀ e, unexpired later e = unexpired later (unexpired now e) := by
    intro e
    unfold unexpired
    rw [Option.filter_filter]
    refine congrArg (Option.filter · e) (funext (fun expiry => ?_))
    by_cases hlater : later < expiry
    · simp [hlater, lt_of_le_of_lt hle hlater]
    · simp [hlater]
  rw [hagain entry, hagain entry', h]

/-- Nothing is left of an entry that has expired. -/
theorem unexpired_of_le {expiry : ℕ} (h : expiry ≤ now) : unexpired now (some expiry) = none :=
  Option.filter_some_neg (by simpa using h)

/-- A key of the server is there if something of it is left. The server looks at
the clock in every command. -/
theorem live_eq_isSome (r : Redis) (now : ℕ) (key : String) :
    r.live now key = (unexpired now (r key)).isSome := by
  unfold Redis.live unexpired
  cases h : r key with
  | none => rfl
  | some expiry =>
    by_cases hlt : now < expiry
    · simp [hlt]
    · simp [hlt]

namespace LocalLock

/-- `TryLock` asks for what is left of the entry. -/
theorem tryLock_eq (ll : LocalLock) (now : ℕ) (key : String) (ttl : ℕ+) :
    ll.tryLock now key ttl
      = if (unexpired now (ll.locks key)).isSome then (.ok false, ll)
        else (.ok true, ⟨Function.update ll.locks key (some (now + ttl))⟩) := by
  unfold tryLock unexpired
  dsimp only
  cases h : ll.locks key with
  | none => rfl
  | some expiry =>
    by_cases hlt : now < expiry
    · simp [hlt]
    · simp [hlt]

/-- The sweep takes nothing that is left. Its reading is not later than the
present time. -/
theorem unexpired_sweep (ll : LocalLock) {tick : ℕ} (htick : tick ≤ now) (key k : String) :
    unexpired now ((ll.sweep key tick).locks k) = unexpired now (ll.locks k) := by
  unfold sweep
  cases h : ll.locks key with
  | none => rfl
  | some expiry =>
    dsimp only
    split_ifs with hexpired
    · by_cases hk : k = key
      · subst hk
        dsimp only
        rw [Function.update_self, h, unexpired_of_le (hexpired.le.trans htick)]
        rfl
      · dsimp only
        rw [Function.update_of_ne hk]
    · rfl

/-- Without an expired entry all of it is left. -/
theorem unexpired_of_not_stale {ll : LocalLock} (h : ¬ ll.Stale now key) :
    unexpired now (ll.locks key) = ll.locks key := by
  cases hentry : ll.locks key with
  | none => rfl
  | some expiry =>
    refine Option.filter_some_pos (decide_eq_true (not_le.mp (fun hle => ?_)))
    exact h ⟨expiry, hentry, hle⟩

end LocalLock

/-! ## The relation between the two -/

/-- **The same is left of every entry**, and the sweep looks back. -/
structure Alike (rl : RedisLock) (s : Locks) : Prop where
  unexpired : ∀ key, unexpired s.now (s.loc.locks key) = unexpired s.now (s.redis (rl.lockKey key))
  tick_le : s.tick ≤ s.now

/-- Keys of the server come from one key each. -/
theorem lockKey_inj {k : String} (h : rl.lockKey k = rl.lockKey key) : k = key := by
  unfold RedisLock.lockKey at h
  exact String.append_right_inj _ |>.mp h

/-- What is there for one lock is there for the other. -/
theorem Alike.live (h : Alike rl s) (key : String) :
    s.redis.live s.now (rl.lockKey key) = (Distributed.unexpired s.now (s.loc.locks key)).isSome := by
  rw [live_eq_isSome, h.unexpired key]

/-- **Writing the same entry in both.** The others are as before. -/
theorem Alike.write (h : Alike rl s) (key : String) (entry : Option ℕ) :
    Alike rl { s with
      loc := ⟨Function.update s.loc.locks key entry⟩
      redis := Function.update s.redis (rl.lockKey key) entry } := by
  refine ⟨fun k => ?_, h.tick_le⟩
  dsimp only
  by_cases hk : k = key
  · subst hk
    rw [Function.update_self, Function.update_self]
  · rw [Function.update_of_ne hk, Function.update_of_ne (fun heq => hk (lockKey_inj heq))]
    exact h.unexpired k

/-- **A step that revives nothing keeps them alike**, and returns the same. By
the actions. -/
theorem Alike.of_step (h : Alike rl s) (ha : NotStale s a) (hstep : locksStep rl s a = some s') :
    Alike rl s' ∧ SameResult rl s a := by
  cases a with
  | tryLock key ttl =>
    obtain rfl := Option.some.inj hstep
    unfold SameResult RedisLock.tryLock Redis.setNX
    dsimp only
    rw [LocalLock.tryLock_eq, h.live key]
    split_ifs
    · exact ⟨h, rfl⟩
    · exact ⟨h.write key _, rfl⟩
  | unlock key =>
    obtain rfl := Option.some.inj hstep
    exact ⟨h.write key none, rfl⟩
  | renew key ttl =>
    obtain rfl := Option.some.inj hstep
    have hlive := h.live key
    rw [LocalLock.unexpired_of_not_stale ha] at hlive
    unfold SameResult RedisLock.renew Redis.expire LocalLock.renew
    dsimp only
    rw [hlive]
    cases s.loc.locks key with
    | none => exact ⟨h, rfl⟩
    | some expiry => exact ⟨h.write key _, rfl⟩
  | advance d =>
    obtain rfl := Option.some.inj hstep
    exact ⟨⟨fun key => unexpired_later (Nat.le_add_right _ _) (h.unexpired key),
      h.tick_le.trans (Nat.le_add_right _ _)⟩, trivial⟩
  | tick =>
    obtain rfl := Option.some.inj hstep
    exact ⟨⟨h.unexpired, le_refl _⟩, trivial⟩
  | sweep key =>
    obtain rfl := Option.some.inj hstep
    exact ⟨⟨fun k => (s.loc.unexpired_sweep h.tick_le key k).trans (h.unexpired k), h.tick_le⟩,
      trivial⟩

/-- **`Renew` of an expired entry returns something else.** -/
theorem Alike.notStale (h : Alike rl s) (hsame : SameResult rl s a) : NotStale s a := by
  cases a with
  | renew key ttl =>
    rintro ⟨expiry, hentry, hle⟩
    have hlive := h.live key
    rw [hentry, unexpired_of_le hle] at hlive
    unfold SameResult RedisLock.renew Redis.expire LocalLock.renew at hsame
    dsimp only at hsame
    rw [hentry, hlive] at hsame
    cases hsame
  | _ => trivial

/-! ## The comparison -/

/-- **The two locks return the same exactly in the runs in which `Renew` never
finds an expired entry**, whenever the sweep comes by. -/
theorem sameResult_iff (rl : RedisLock) (now : ℕ) (as : List LocksAction) :
    Machine.Each (locksStep rl) (fun s a _ => SameResult rl s a) (.start now) as
      ↔ Machine.Each (locksStep rl) (fun s a _ => NotStale s a) (.start now) as := by
  have hkeep : ∀ s a s', True → Alike rl s → locksStep rl s a = some s' → NotStale s a →
      Alike rl s' ∧ SameResult rl s a := fun _ _ _ _ h hstep ha => h.of_step ha hstep
  have hneed : ∀ s a s', True → Alike rl s → locksStep rl s a = some s' → SameResult rl s a →
      NotStale s a := fun _ _ _ _ h _ hsame => h.notStale hsame
  exact Machine.each_iff_of_invariant hkeep hneed (fun _ _ => trivial)
    ⟨fun _ => rfl, le_refl now⟩

/-- **A lock that has expired is renewed.** `Renew` comes after the time to live
and before the sweep: the local lock is held again, while the other does not
exist. -/
theorem not_sameResult_of_renew :
    ¬ Machine.Each (locksStep ⟨"lock"⟩) (fun s a _ => SameResult ⟨"lock"⟩ s a) (.start 0)
      [.tryLock "job" 10, .advance 10, .renew "job" 10] := by decide +kernel

end Distributed
