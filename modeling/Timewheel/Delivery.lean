import Timewheel.Webhook

/-!
# What the client reports as sent

`Send` makes one attempt for a payload, and `SendWithRetry` repeats it until an
attempt succeeds, the attempts are used up, or the context is done while it waits.
What the network does is a sequence of replies, one for each attempt; the float
multiplication of the interval is the parameter `scale`.

All this is seen from the side of the client. An attempt is one call of
`http.Client.Do`, and what is known of it is what that call returns. The call
follows redirects on its own, and it gives up after `cfg.Timeout`: a receiver may
so be sent a payload several times in one attempt, and may take one that the
client repeats because the answer came too late. Neither is visible here, and
nothing is said of what a receiver counts.

`sendWithRetry_ends` says of every sequence of replies which attempts are made,
how long the waits between them are, and what is returned. Behind the queue of a
`BatchSender` with one loop this gives what the client reports of a whole run:
`Send` succeeds for the accepted payloads in the order of their acceptance, for
each of them once at most, and is called for each of them `MaxAttempts` times at
most (`acknowledged_of_run`).
-/

namespace Webhook

/-! ## The code -/

/-- The errors of `Send`. -/
inductive SendErr where
  /-- `failed to marshal payload` -/
  | marshal (cause : String)
  /-- `failed to create request` -/
  | request (cause : String)
  /-- `failed to send request` -/
  | send (cause : String)
  /-- `webhook returned status %d: %s` -/
  | status (code : ℤ) (body : String)
  deriving DecidableEq, Repr

/-- The errors of `SendWithRetry`. -/
inductive RetryErr where
  /-- `ctx.Err()` -/
  | contextDone
  /-- `webhook failed after %d attempts`, with the last error -/
  | exhausted (maxAttempts : ℤ) (lastErr : Option SendErr)
  deriving DecidableEq, Repr

/-- What one attempt leads to: an error before anything is sent, the error that
`http.Client.Do` returns, which may come from the network, from a redirect or from
the timeout, or the response it returns. -/
inductive Exchange where
  | marshalFailed (cause : String)
  | requestFailed (cause : String)
  | sendFailed (cause : String)
  | response (statusCode : ℤ) (body : String)
  deriving DecidableEq, Repr

/-- `Send`. -/
def send : Exchange → Option SendErr
  | .marshalFailed cause => some (.marshal cause)
  | .requestFailed cause => some (.request cause)
  | .sendFailed cause => some (.send cause)
  | .response statusCode body => if statusCode ≥ 400 then some (.status statusCode body) else none

/-- `WebhookRetryConfig`; `scale` multiplies an interval by `Multiplier`. -/
structure RetryConfig where
  maxAttempts : ℤ
  initialInterval : ℤ
  maxInterval : ℤ
  scale : ℤ → ℤ

/-- What an attempt meets: the exchange, and whether the context is done before
the wait after it is over. -/
structure Reply where
  exchange : Exchange
  done : Bool
  deriving DecidableEq, Repr

/-- What `SendWithRetry` has done: its attempts, the waits it has waited out, and
what it returns. -/
structure Outcome where
  attempts : List Exchange
  waits : List ℤ
  err : Option RetryErr
  deriving DecidableEq, Repr

/-- The interval after the next one. -/
def RetryConfig.next (cfg : RetryConfig) (interval : ℤ) : ℤ :=
  if cfg.scale interval > cfg.maxInterval then cfg.maxInterval else cfg.scale interval

/-- The loop of `SendWithRetry`, with `left` attempts to go; `k` have been
made. -/
def retryLoop (cfg : RetryConfig) (replies : ℕ → Reply) : ℕ → ℕ → ℤ → Option SendErr → Outcome
  | 0, _, _, lastErr => ⟨[], [], some (.exhausted cfg.maxAttempts lastErr)⟩
  | left + 1, k, interval, _ =>
    match send (replies k).exchange with
    | none => ⟨[(replies k).exchange], [], none⟩
    | some err =>
      if (replies k).done then ⟨[(replies k).exchange], [], some .contextDone⟩
      else
        let rest := retryLoop cfg replies left (k + 1) (cfg.next interval) (some err)
        ⟨(replies k).exchange :: rest.attempts, interval :: rest.waits, rest.err⟩

/-- `SendWithRetry`. -/
def sendWithRetry (cfg : RetryConfig) (replies : ℕ → Reply) : Outcome :=
  retryLoop cfg replies cfg.maxAttempts.toNat 0 cfg.initialInterval none

/-! ## What an attempt leads to -/

/-- The waits, if nothing ends them. -/
def RetryConfig.backoff (cfg : RetryConfig) : ℕ → ℤ
  | 0 => cfg.initialInterval
  | k + 1 => cfg.next (cfg.backoff k)

/-- The attempt fails, and the wait after it is waited out. -/
def Reply.Fails (r : Reply) : Prop := send r.exchange ≠ none ∧ r.done = false

/-- **How the loop ends** with `n` attempts to go, the `k`-th reply being the next
one, after the error `lastErr`. -/
inductive Ends (cfg : RetryConfig) (replies : ℕ → Reply) (n k : ℕ) (lastErr : Option SendErr) :
    Outcome → Prop where
  /-- The attempt after `j` that have failed succeeds. -/
  | acknowledged (j : ℕ) (hj : j < n) (failed : ∀ i < j, (replies (k + i)).Fails)
      (ack : send (replies (k + j)).exchange = none) :
      Ends cfg replies n k lastErr ⟨(List.range (j + 1)).map (fun i => (replies (k + i)).exchange),
        (List.range j).map (fun i => cfg.backoff (k + i)), none⟩
  /-- The context is done during the wait after a failed attempt. -/
  | contextDone (j : ℕ) (hj : j < n) (failed : ∀ i < j, (replies (k + i)).Fails)
      (last : send (replies (k + j)).exchange ≠ none) (done : (replies (k + j)).done = true) :
      Ends cfg replies n k lastErr ⟨(List.range (j + 1)).map (fun i => (replies (k + i)).exchange),
        (List.range j).map (fun i => cfg.backoff (k + i)), some .contextDone⟩
  /-- All attempts have failed, and the wait after the last one is over too. -/
  | exhausted (failed : ∀ i < n, (replies (k + i)).Fails) :
      Ends cfg replies n k lastErr ⟨(List.range n).map (fun i => (replies (k + i)).exchange),
        (List.range n).map (fun i => cfg.backoff (k + i)),
        some (.exhausted cfg.maxAttempts
          (if n = 0 then lastErr else send (replies (k + (n - 1))).exchange))⟩

variable {cfg : RetryConfig} {replies : ℕ → Reply} {n k : ℕ} {lastErr lastErr' : Option SendErr}
  {o : Outcome}

/-- A failed attempt before the rest of the loop. -/
theorem map_range_succ_add {α : Type*} (f : ℕ → α) (n k : ℕ) :
    (List.range (n + 1)).map (fun i => f (k + i))
      = f k :: (List.range n).map (fun i => f (k + 1 + i)) := by
  rw [List.range_succ_eq_map, List.map_cons, List.map_map, Nat.add_zero]
  refine congrArg (f k :: ·) (List.map_congr_left (fun i _ => ?_))
  show f (k + (i + 1)) = f (k + 1 + i)
  rw [Nat.add_assoc, Nat.add_comm 1 i]

/-- The attempts up to here have failed. -/
theorem fails_succ {j : ℕ} (hk : (replies k).Fails)
    (failed : ∀ i < j, (replies (k + 1 + i)).Fails) : ∀ i < j + 1, (replies (k + i)).Fails := by
  intro i hi
  cases i with
  | zero => exact hk
  | succ i =>
    have hfail := failed i (Nat.lt_of_succ_lt_succ hi)
    rwa [Nat.add_assoc, Nat.add_comm 1 i] at hfail

/-- One attempt that fails. -/
theorem Ends.cons (hk : (replies k).Fails)
    (h : Ends cfg replies n (k + 1) (send (replies k).exchange) o) :
    Ends cfg replies (n + 1) k lastErr
      ⟨(replies k).exchange :: o.attempts, cfg.backoff k :: o.waits, o.err⟩ := by
  cases h with
  | acknowledged j hj failed ack =>
    rw [← map_range_succ_add (fun i => (replies i).exchange), ← map_range_succ_add cfg.backoff]
    refine .acknowledged (j + 1) (Nat.succ_lt_succ hj) (fails_succ hk failed) ?_
    rwa [Nat.add_assoc, Nat.add_comm 1 j] at ack
  | contextDone j hj failed last done =>
    rw [← map_range_succ_add (fun i => (replies i).exchange), ← map_range_succ_add cfg.backoff]
    rw [Nat.add_assoc, Nat.add_comm 1 j] at last done
    exact .contextDone (j + 1) (Nat.succ_lt_succ hj) (fails_succ hk failed) last done
  | exhausted failed =>
    rw [← map_range_succ_add (fun i => (replies i).exchange), ← map_range_succ_add cfg.backoff]
    have hlast : (if n = 0 then send (replies k).exchange
          else send (replies (k + 1 + (n - 1))).exchange)
        = if n + 1 = 0 then lastErr else send (replies (k + (n + 1 - 1))).exchange := by
      rw [if_neg (Nat.succ_ne_zero n)]
      split_ifs with hn
      · rw [hn]
        rfl
      · congr 3
        omega
    rw [hlast]
    exact .exhausted (fails_succ hk failed)

/-- **What the loop does.** -/
theorem retryLoop_ends (cfg : RetryConfig) (replies : ℕ → Reply) (n k : ℕ)
    (lastErr : Option SendErr) :
    Ends cfg replies n k lastErr (retryLoop cfg replies n k (cfg.backoff k) lastErr) := by
  induction n generalizing k lastErr with
  | zero => exact .exhausted (fun i hi => absurd hi (Nat.not_lt_zero i))
  | succ n ih =>
    unfold retryLoop
    cases hsend : send (replies k).exchange with
    | none =>
      exact .acknowledged 0 (Nat.succ_pos n) (fun i hi => absurd hi (Nat.not_lt_zero i)) hsend
    | some err =>
      dsimp only
      have hne : send (replies k).exchange ≠ none := by
        rw [hsend]
        exact Option.some_ne_none err
      cases hdone : (replies k).done with
      | true =>
        rw [if_pos rfl]
        exact .contextDone 0 (Nat.succ_pos n) (fun i hi => absurd hi (Nat.not_lt_zero i)) hne hdone
      | false =>
        rw [if_neg Bool.false_ne_true]
        exact Ends.cons ⟨hne, hdone⟩ (hsend ▸ ih (k + 1) (some err))

/-- The waits after the first one are bounded. -/
theorem backoff_succ_le (cfg : RetryConfig) (k : ℕ) : cfg.backoff (k + 1) ≤ cfg.maxInterval := by
  show (if _ then _ else _) ≤ _
  split_ifs with h
  · exact le_refl _
  · exact not_lt.mp h

/-- The waits are the backoffs in turn, from the one the loop begins with. How
many there are depends on the way it ends. -/
theorem Ends.waits_eq (h : Ends cfg replies n k lastErr o) :
    ∃ j, o.waits = (List.range j).map (fun i => cfg.backoff (k + i)) := by
  cases h with
  | acknowledged j => exact ⟨j, rfl⟩
  | contextDone j => exact ⟨j, rfl⟩
  | exhausted => exact ⟨n, rfl⟩

/-- There are as many attempts as the loop may make, at most. -/
theorem Ends.length_le (h : Ends cfg replies n k lastErr o) : o.attempts.length ≤ n := by
  cases h with
  | acknowledged j hj => simpa using hj
  | contextDone j hj => simpa using hj
  | exhausted => simp

/-- The attempt is acknowledged, as far as the client can tell: `Send` returns nil. -/
def Exchange.acknowledged (x : Exchange) : Bool := (send x).isNone

/-- Attempts that fail are not acknowledged. -/
theorem filter_acknowledged_of_fails {j : ℕ} (failed : ∀ i < j, (replies (k + i)).Fails) :
    ((List.range j).map (fun i => (replies (k + i)).exchange)).filter Exchange.acknowledged
      = [] := by
  rw [List.filter_eq_nil_iff]
  intro x hx hack
  obtain ⟨i, hi, rfl⟩ := List.mem_map.mp hx
  exact (failed i (List.mem_range.mp hi)).1 (Option.isNone_iff_eq_none.mp hack)

/-- One attempt at most is acknowledged. -/
theorem Ends.length_acknowledged_le (h : Ends cfg replies n k lastErr o) :
    (o.attempts.filter Exchange.acknowledged).length ≤ 1 := by
  have hlast : ∀ (j : ℕ), (∀ i < j, (replies (k + i)).Fails) →
      (((List.range (j + 1)).map (fun i => (replies (k + i)).exchange)).filter
        Exchange.acknowledged).length ≤ 1 := by
    intro j failed
    rw [List.range_succ, List.map_append, List.filter_append,
      filter_acknowledged_of_fails failed, List.nil_append]
    exact List.length_filter_le _ _
  cases h with
  | acknowledged j hj failed => exact hlast j failed
  | contextDone j hj failed => exact hlast j failed
  | exhausted failed =>
    rw [filter_acknowledged_of_fails failed]
    exact Nat.zero_le 1

/-- The loop of `SendWithRetry`, from its first attempt. -/
theorem attempts_ends (cfg : RetryConfig) (replies : ℕ → Reply) :
    Ends cfg replies cfg.maxAttempts.toNat 0 none (sendWithRetry cfg replies) :=
  retryLoop_ends cfg replies cfg.maxAttempts.toNat 0 none

/-- **What `SendWithRetry` does**, whatever the replies: the attempts it makes, the
waits between them, and what it returns. The first wait is `InitialInterval`, and
the later ones are at most `MaxInterval`. -/
theorem sendWithRetry_ends (cfg : RetryConfig) (replies : ℕ → Reply) :
    Ends cfg replies cfg.maxAttempts.toNat 0 none (sendWithRetry cfg replies)
      ∧ ∀ i d, (sendWithRetry cfg replies).waits[i + 1]? = some d → d ≤ cfg.maxInterval := by
  have hends := attempts_ends cfg replies
  refine ⟨hends, fun i d hd => ?_⟩
  obtain ⟨j, hj⟩ := hends.waits_eq
  rw [hj, List.getElem?_map] at hd
  obtain ⟨m, hm, rfl⟩ := Option.map_eq_some_iff.mp hd
  obtain ⟨hlt, rfl⟩ := List.getElem?_eq_some_iff.mp hm
  rw [List.getElem_range, Nat.zero_add]
  exact backoff_succ_le cfg i

/-! ## Behind the queue -/

variable {P : Type*}

/-- A `BatchSender`, and the attempts its loop has made. -/
structure Sender (P : Type*) where
  sender : BatchSender P
  log : List (P × Exchange)

/-- A step of the sender. With `send` its loop hands the next payload on to
`SendWithRetry`, which meets the replies. -/
inductive Move (P : Type*) where
  | batch (a : Action P)
  | send (replies : ℕ → Reply)

namespace Sender

/-- A sender that has just started. -/
def start : Sender P := ⟨.start, []⟩

/-- **The step function.** -/
def step (size : ℕ) (cfg : RetryConfig) (s : Sender P) : Move P → Option (Sender P)
  | .batch .send => none
  | .batch a => (s.sender.step size a).map (fun sender => { s with sender := sender })
  | .send replies =>
    match s.sender.pipe.batch with
    | [] => none
    | payload :: _ =>
      (s.sender.step size .send).map (fun sender =>
        { sender := sender
          log := s.log ++ (sendWithRetry cfg replies).attempts.map (fun x => (payload, x)) })

/-- The payloads for which `Send` has returned nil, one for each time. -/
def acknowledged (log : List (P × Exchange)) : List P :=
  (log.filter (fun entry => entry.2.acknowledged)).map Prod.fst

theorem acknowledged_append (log more : List (P × Exchange)) :
    acknowledged (log ++ more) = acknowledged log ++ acknowledged more := by
  unfold acknowledged
  rw [List.filter_append, List.map_append]

/-- The attempts for some payloads, one payload after the other. -/
inductive Logged (cfg : RetryConfig) : List P → List (P × Exchange) → Prop where
  | nil : Logged cfg [] []
  | sent {payloads : List P} {log : List (P × Exchange)} (payload : P) (replies : ℕ → Reply)
      (before : Logged cfg payloads log) :
      Logged cfg (payloads ++ [payload])
        (log ++ (sendWithRetry cfg replies).attempts.map (fun x => (payload, x)))

/-- `Send` succeeds for each payload once at most, in order. -/
theorem Logged.acknowledged {cfg : RetryConfig} {payloads : List P} {log : List (P × Exchange)}
    (h : Logged cfg payloads log) : (Sender.acknowledged log).Sublist payloads := by
  induction h with
  | nil => exact .slnil
  | @sent payloads log payload replies before ih =>
    rw [acknowledged_append]
    refine ih.append ?_
    have hle := (attempts_ends cfg replies).length_acknowledged_le
    have hmap : Sender.acknowledged ((sendWithRetry cfg replies).attempts.map
          (fun x => (payload, x)))
        = ((sendWithRetry cfg replies).attempts.filter Exchange.acknowledged).map
          (fun _ => payload) := by
      unfold Sender.acknowledged
      rw [List.filter_map, List.map_map]
      rfl
    rw [hmap, List.map_const']
    exact List.replicate_sublist_replicate payload |>.mpr hle

/-- The attempts for each payload are bounded. -/
theorem Logged.countP_le {cfg : RetryConfig} {payloads : List P} {log : List (P × Exchange)}
    (h : Logged cfg payloads log) (p : P → Bool) :
    log.countP (fun entry => p entry.1) ≤ cfg.maxAttempts.toNat * payloads.countP p := by
  induction h with
  | nil => exact Nat.zero_le _
  | @sent payloads log payload replies before ih =>
    rw [List.countP_append, List.countP_append, List.countP_map, List.countP_singleton]
    have hle := (attempts_ends cfg replies).length_le
    have hcount : (sendWithRetry cfg replies).attempts.countP
          ((fun entry => p entry.1) ∘ fun x => (payload, x))
        ≤ cfg.maxAttempts.toNat * (if p payload then 1 else 0) := by
      cases hp : p payload with
      | true =>
        rw [if_pos rfl, Nat.mul_one]
        exact (List.countP_le_length).trans hle
      | false =>
        refine le_of_eq_of_le (List.countP_eq_zero.mpr (fun x _ => ?_)) (Nat.zero_le _)
        exact Bool.eq_false_iff.mp hp
    rw [Nat.mul_add]
    exact Nat.add_le_add ih hcount

/-- The invariant of the sender: what its loop has handed on is what the log has
the attempts of. -/
structure Sound (cfg : RetryConfig) (s : Sender P) : Prop where
  sender : Webhook.Sound s.sender
  logged : Logged cfg (s.sender.handed.map Prod.fst) s.log

/-- Only `send` hands payloads on. -/
theorem handed_of_step {size : ℕ} {s s' : BatchSender P} {a : Action P} (ha : a ≠ .send)
    (hstep : s.step size a = some s') : s'.handed = s.handed := by
  cases stepped_of_step hstep with
  | accepted =>
    unfold BatchSender.accept
    split_ifs
    · rfl
    · rfl
  | moved => rfl
  | handedOn => exact absurd rfl ha
  | cancelled => rfl

theorem step_batch {size : ℕ} {cfg : RetryConfig} {s : Sender P} {a : Action P} (ha : a ≠ .send) :
    step size cfg s (.batch a)
      = (s.sender.step size a).map (fun sender => { s with sender := sender }) := by
  cases a with
  | send => exact absurd rfl ha
  | _ => rfl

/-- **A step keeps the invariant.** -/
theorem Sound.of_step {size : ℕ} {cfg : RetryConfig} {s s' : Sender P} {m : Move P}
    (h : Sound cfg s) (hstep : step size cfg s m = some s') : Sound cfg s' := by
  cases m with
  | batch a =>
    by_cases ha : a = .send
    · subst ha
      cases hstep
    · rw [step_batch ha] at hstep
      obtain ⟨sender, hsender, rfl⟩ := Option.map_eq_some_iff.mp hstep
      refine ⟨h.sender.of_step hsender, ?_⟩
      dsimp only
      rw [handed_of_step ha hsender]
      exact h.logged
  | send replies =>
    unfold step at hstep
    dsimp only at hstep
    cases hbatch : s.sender.pipe.batch with
    | nil =>
      rw [hbatch] at hstep
      cases hstep
    | cons payload rest =>
      rw [hbatch] at hstep
      dsimp only at hstep
      obtain ⟨sender, hsender, rfl⟩ := Option.map_eq_some_iff.mp hstep
      refine ⟨h.sender.of_step hsender, ?_⟩
      have hhanded : sender.handed = s.sender.handed ++ [(payload, s.sender.cancelled)] := by
        unfold BatchSender.step at hsender
        dsimp only at hsender
        split at hsender
        · next payload' batch' hphase hbatch' =>
          obtain ⟨pipe, -, rfl⟩ := Option.map_eq_some_iff.mp hsender
          obtain ⟨rfl, -⟩ := List.cons.inj (hbatch.symm.trans hbatch')
          rfl
        · cases hsender
      dsimp only
      rw [hhanded, List.map_append]
      exact h.logged.sent payload replies

/-- **What the client reports of a run**: whatever the attempts lead to, and however
the callers, the loop and the cancellation interleave, `Send` returns nil for
accepted payloads only, in the order of their acceptance, and for none of them
more often than it has been accepted; and it is called for each of them
`MaxAttempts` times at most.

There is one loop, and it makes one attempt after the other. An attempt that
succeeds is the last one for its payload, and the queue hands payloads on in the
order in which it has taken them, so what is left to count are the attempts for one
payload. -/
theorem acknowledged_of_run (size : ℕ) (cfg : RetryConfig) {ms : List (Move P)} {s : Sender P}
    (hrun : Machine.run (step size cfg) start ms = some s) :
    (acknowledged s.log).Sublist (s.sender.accepted ++ s.sender.late)
      ∧ ∀ p : P → Bool, s.log.countP (fun entry => p entry.1)
        ≤ cfg.maxAttempts.toNat * (s.sender.accepted ++ s.sender.late).countP p := by
  have hsound : Sound cfg s := Machine.inv_of_run (G := fun _ _ _ => True)
    (fun s m s' h _ hstep => Sound.of_step h hstep) ⟨sound_start, .nil⟩
    (Machine.each_of_forall (P := fun _ => True) (fun _ _ => trivial)) hrun
  have honce := hsound.sender.once.sublist
  refine ⟨hsound.logged.acknowledged.trans honce, fun p => (hsound.logged.countP_le p).trans ?_⟩
  exact Nat.mul_le_mul_left _ (honce.countP_le)

/-- The network is down once. -/
def flaky : ℕ → Reply
  | 0 => ⟨.sendFailed "connection refused", false⟩
  | _ => ⟨.response 200 "", false⟩

/-- The first payload is acknowledged at the second attempt, and the second one
waits in the queue. -/
theorem acknowledged_of_flaky : ∃ s : Sender ℕ,
    Machine.run (step 1 ⟨3, 1000, 5000, fun d => 2 * d⟩) start
      [.batch (.enqueue 7 false), .batch .receive, .send flaky, .batch .endBatch,
        .batch (.enqueue 8 false)] = some s
      ∧ s.log.length = 2 ∧ acknowledged s.log = [7]
      ∧ (acknowledged s.log).Sublist (s.sender.accepted ++ s.sender.late) := by
  have hrun : (Machine.run (step 1 ⟨3, 1000, 5000, fun d => 2 * d⟩) (start : Sender ℕ)
      [.batch (.enqueue 7 false), .batch .receive, .send flaky, .batch .endBatch,
        .batch (.enqueue 8 false)]).map (fun s => (s.log.length, acknowledged s.log))
      = some (2, [7]) := by decide +kernel
  obtain ⟨s, hs, heq⟩ := Option.map_eq_some_iff.mp hrun
  obtain ⟨hlength, hack⟩ : s.log.length = 2 ∧ acknowledged s.log = [7] := by simpa using heq
  exact ⟨s, hs, hlength, hack, (acknowledged_of_run 1 _ hs).1⟩

end Sender

end Webhook
