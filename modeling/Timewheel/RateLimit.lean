import Timewheel.Types
import Timewheel.Lib.TokenBucket

/-!
# The rate limiter

The middleware `RateLimit` keeps a token bucket for each client, or one for
all of them, and turns a request away when its bucket has no whole token left.
The arithmetic of the tokens is read over the rationals here.

A bucket only ever sees the requests with its own key (`serve_filter`), and of
these it makes what a bucket of the library makes (`map_serve`). So the bound of
the library is a bound for each client, `rateLimit_bounded`.

The requests come one after the other, under the mutex of the handler, and the
clock does not run backwards between them. Nothing is assumed of who makes
them.
-/

namespace Timewheel.Middleware

/-! ## The code -/

/-- `RateLimitConfig`, as far as it is read. -/
structure RateLimitConfig where
  enabled : Bool
  requestsPerSecond : ℚ
  burst : ℤ
  byIP : Bool

/-- `d.Seconds()`. -/
def seconds (d : Duration) : ℚ := d / 1000000000

/-- `client`. It is created, full, with the first request under its key. -/
structure Client where
  tokens : ℚ
  lastCheck : Time

/-- The variables the handler captures. -/
structure RateLimiter where
  limit : ℚ
  burst : ℚ
  byIP : Bool

/-- `RateLimit`; without a handler of its own the middleware passes every
request on. -/
def rateLimit (cfg : RateLimitConfig) : Option RateLimiter :=
  if cfg.enabled then some ⟨cfg.requestsPerSecond, cfg.burst, cfg.byIP⟩ else none

/-- A request: what `ClientIP` returns, and when it is handled. -/
structure Request where
  clientIP : String
  now : Time
  deriving DecidableEq

/-- The map of clients. -/
abbrev Clients := String → Option Client

namespace RateLimiter

variable (rl : RateLimiter)

/-- The key a request is counted under. -/
def key (clientIP : String) : String := if rl.byIP then clientIP else "global"

/-- The handler: whether the request is passed on, and the map it leaves. The
map is written whether the request is passed on or not. -/
def handle (clients : Clients) (req : Request) : Bool × Clients :=
  let key := rl.key req.clientIP
  let cl := match clients key with
    | some cl => cl
    | none => ⟨rl.burst, req.now⟩
  let elapsed := seconds (req.now.sub cl.lastCheck)
  let tokens := cl.tokens + elapsed * rl.limit
  let tokens := if tokens > rl.burst then rl.burst else tokens
  if tokens < 1 then (false, Function.update clients key (some ⟨tokens, req.now⟩))
  else (true, Function.update clients key (some ⟨tokens - 1, req.now⟩))

/-- What is decided about a sequence of requests. Each request is paired with
the decision. -/
def serve : Clients → List Request → List (Request × Bool)
  | _, [] => []
  | clients, req :: reqs =>
    (req, (rl.handle clients req).1) :: serve (rl.handle clients req).2 reqs

/-- The map after a sequence of requests. -/
def after (clients : Clients) (reqs : List Request) : Clients :=
  reqs.foldl (fun clients req => (rl.handle clients req).2) clients

end RateLimiter

/-- No client has been seen yet. -/
def noClients : Clients := fun _ => none

/-- The number of requests of a client that were passed on from `s` to `t`. Both
ends of the window count. -/
def passedOn (clientIP : String) (s t : ℚ) (ds : List (Request × Bool)) : ℕ :=
  ds.countP (fun d => d.1.clientIP = clientIP ∧ d.2 = true ∧ s ≤ seconds d.1.now
    ∧ seconds d.1.now ≤ t)

/-! ## One key -/

variable {rl : RateLimiter} {clients clients' : Clients} {req : Request} {reqs : List Request}
  {k : String}

/-- A client as a bucket. The limit and the burst are not part of it, as all
clients share them. -/
def Client.toBucket (cl : Client) : Bucket ℚ := ⟨cl.tokens, seconds cl.lastCheck⟩

/-- Seconds respect differences of times -/
theorem seconds_sub (t u : Time) : seconds (t.sub u) = seconds t - seconds u := by
  unfold seconds Time.sub
  push_cast
  ring

/-- and their order. -/
theorem seconds_mono {t u : Time} (h : t ≤ u) : seconds t ≤ seconds u := by
  have hle : ((t : ℤ) : ℚ) ≤ ((u : ℤ) : ℚ) := by exact_mod_cast h
  unfold seconds
  linarith

/-- The cap of the handler is a minimum. -/
theorem cap_eq_min (burst tokens : ℚ) :
    (if tokens > burst then burst else tokens) = min burst tokens := by
  by_cases h : tokens > burst
  · rw [if_pos h, min_eq_left h.le]
  · rw [if_neg h, min_eq_right (not_lt.mp h)]

/-- What the handler refills is what the bucket refills. -/
theorem toBucket_refill (cl : Client) (limit burst : ℚ) (now : Time) :
    ((cl.toBucket.refill limit burst (seconds now)).tokens : ℚ)
      = min burst (cl.tokens + seconds (now.sub cl.lastCheck) * limit) := by
  rw [seconds_sub]
  rfl

/-- **A request and the bucket of its key**: the handler decides as the bucket
does. This is the refinement of the handler by the library's bucket, for one
request. -/
theorem handle_bucket (rl : RateLimiter) (clients : Clients) (req : Request) :
    (rl.handle clients req).1
        = (Bucket.request rl.limit rl.burst (seconds req.now)
            ((clients (rl.key req.clientIP)).map Client.toBucket)).1
      ∧ ((rl.handle clients req).2 (rl.key req.clientIP)).map Client.toBucket
        = some (Bucket.request rl.limit rl.burst (seconds req.now)
            ((clients (rl.key req.clientIP)).map Client.toBucket)).2 := by
  have hfound : ((clients (rl.key req.clientIP)).map Client.toBucket).getD
      ⟨rl.burst, seconds req.now⟩
      = ((clients (rl.key req.clientIP)).getD ⟨rl.burst, req.now⟩).toBucket := by
    cases clients (rl.key req.clientIP) with
    | none => rfl
    | some cl => rfl
  have hclient : (match clients (rl.key req.clientIP) with
      | some cl => cl
      | none => ⟨rl.burst, req.now⟩) = (clients (rl.key req.clientIP)).getD ⟨rl.burst, req.now⟩ := by
    cases clients (rl.key req.clientIP) with
    | none => rfl
    | some cl => rfl
  unfold RateLimiter.handle Bucket.request
  simp only [hfound, hclient, cap_eq_min, toBucket_refill]
  split_ifs
  · dsimp only
    rw [Function.update_self]
    exact ⟨rfl, congrArg some (Bucket.ext (toBucket_refill _ _ _ _).symm rfl)⟩
  · dsimp only
    rw [Function.update_self]
    exact ⟨rfl, congrArg some (Bucket.ext rfl rfl)⟩

/-- The handler asks only for the client of its key. So the other clients may be
anything. -/
theorem handle_congr (h : clients (rl.key req.clientIP) = clients' (rl.key req.clientIP)) :
    (rl.handle clients req).1 = (rl.handle clients' req).1
      ∧ (rl.handle clients req).2 (rl.key req.clientIP)
        = (rl.handle clients' req).2 (rl.key req.clientIP) := by
  unfold RateLimiter.handle
  dsimp only
  rw [h]
  split_ifs
  all_goals exact ⟨rfl,
    (Function.update_self _ _ clients).trans (Function.update_self _ _ clients').symm⟩

/-- A request leaves the other keys alone. Together the two lemmas separate the
keys. -/
theorem handle_of_ne (h : k ≠ rl.key req.clientIP) : (rl.handle clients req).2 k = clients k := by
  unfold RateLimiter.handle
  dsimp only
  split_ifs
  all_goals exact Function.update_of_ne h _ _

/-! ## All requests -/

/-- The first request, and then the others. -/
theorem serve_cons :
    rl.serve clients (req :: reqs)
      = (req, (rl.handle clients req).1) :: rl.serve (rl.handle clients req).2 reqs := rfl

/-- **The requests of one key are decided by themselves.** By induction on the
requests, whoever makes the others. -/
theorem serve_filter (h : clients k = clients' k) :
    (rl.serve clients reqs).filter (fun d => rl.key d.1.clientIP = k)
      = rl.serve clients' (reqs.filter (fun req => rl.key req.clientIP = k)) := by
  induction reqs generalizing clients clients' with
  | nil => rfl
  | cons req reqs ih =>
    rw [serve_cons]
    by_cases hkey : rl.key req.clientIP = k
    · obtain ⟨hdecided, hleft⟩ := handle_congr (hkey ▸ h : clients (rl.key req.clientIP) = _)
      rw [List.filter_cons_of_pos (by simpa using hkey),
        List.filter_cons_of_pos (by simpa using hkey), serve_cons, hdecided, ih (hkey ▸ hleft)]
    · rw [List.filter_cons_of_neg (by simpa using hkey),
        List.filter_cons_of_neg (by simpa using hkey)]
      exact ih ((handle_of_ne (Ne.symm hkey)).trans h)

/-- **The requests of one key are decided as the bucket decides.** This is where
the library takes over. -/
theorem map_serve (hkey : ∀ req ∈ reqs, rl.key req.clientIP = k) :
    (rl.serve clients reqs).map (fun d => (seconds d.1.now, d.2))
      = Bucket.decisions rl.limit rl.burst ((clients k).map Client.toBucket)
          (reqs.map (fun req => seconds req.now)) := by
  induction reqs generalizing clients with
  | nil => rfl
  | cons req reqs ih =>
    obtain ⟨rfl, hkeys⟩ := List.forall_mem_cons.mp hkey
    obtain ⟨hdecided, hleft⟩ := handle_bucket rl clients req
    rw [serve_cons, List.map_cons, List.map_cons, Bucket.decisions_cons, ih hkeys, hleft, hdecided]

/-- The requests of a client are among those of its key. When all clients share
a key, the key has more requests. -/
theorem passedOn_le_admitted (rl : RateLimiter) (ds : List (Request × Bool)) {clientIP : String}
    {s t : ℚ} :
    passedOn clientIP s t ds
      ≤ admitted s t ((ds.filter (fun d => rl.key d.1.clientIP = rl.key clientIP)).map
          (fun d => (seconds d.1.now, d.2))) := by
  unfold passedOn admitted
  rw [List.countP_map, List.countP_filter]
  refine List.countP_mono_left (fun d _ hd => ?_)
  simp only [decide_eq_true_eq, Function.comp_apply, Bool.and_eq_true] at hd ⊢
  exact ⟨hd.2, congrArg rl.key hd.1⟩

/-- The clients are in bounds at `now`. Every bucket is ready for a request at
that time. -/
def InBounds (rl : RateLimiter) (clients : Clients) (now : ℚ) : Prop :=
  ∀ k, Bucket.Ready rl.burst now ((clients k).map Client.toBucket)

/-- **A request keeps the clients in bounds.** -/
theorem InBounds.handle (hlimit : 0 ≤ rl.limit) (hburst : 0 ≤ rl.burst)
    (h : InBounds rl clients (seconds req.now)) :
    InBounds rl (rl.handle clients req).2 (seconds req.now) := by
  intro k
  by_cases hk : k = rl.key req.clientIP
  · subst hk
    rw [(handle_bucket rl clients req).2]
    exact Bucket.ready_request hlimit hburst (h _)
  · rw [handle_of_ne hk]
    exact h k

/-- The tokens of every client, whatever was requested. They never go below zero
or above the burst. -/
theorem tokens_after (hlimit : 0 ≤ rl.limit) (hburst : 0 ≤ rl.burst)
    (hmono : reqs.Pairwise (fun req req' => req.now ≤ req'.now)) {now : ℚ}
    (h : InBounds rl clients now) (hfirst : ∀ req ∈ reqs, now ≤ seconds req.now) {cl : Client}
    (hcl : rl.after clients reqs k = some cl) : 0 ≤ cl.tokens ∧ cl.tokens ≤ rl.burst := by
  induction reqs generalizing clients now with
  | nil =>
    have hcl : (clients k).map Client.toBucket = some cl.toBucket := congrArg _ hcl
    exact ⟨(h k).nonneg _ hcl, (h k).le_capacity _ hcl⟩
  | cons req reqs ih =>
    obtain ⟨hle, hmono⟩ := List.pairwise_cons.mp hmono
    have hnow : InBounds rl clients (seconds req.now) :=
      fun k => (h k).later (hfirst req List.mem_cons_self)
    exact ih hmono (hnow.handle hlimit hburst) (fun req' hmem => seconds_mono (hle req' hmem)) hcl

/-- The requests of one client are decided as if nobody else asked. This is the
isolation of clients from each other. -/
theorem serve_byIP (hbyIP : rl.byIP = true) (clientIP : String) :
    (rl.serve clients reqs).filter (fun d => d.1.clientIP = clientIP)
      = rl.serve clients (reqs.filter (fun req => req.clientIP = clientIP)) := by
  have hkey : ∀ ip, rl.key ip = ip := fun ip => if_pos hbyIP
  have h := @serve_filter rl clients clients reqs clientIP rfl
  simpa only [hkey] using h

/-! ## The bound -/

/-- The requests of a client that are passed on in a window. -/
theorem passedOn_le (hlimit : 0 ≤ rl.limit) (hburst : 0 ≤ rl.burst)
    (hmono : reqs.Pairwise (fun req req' => req.now ≤ req'.now)) (clientIP : String) {s t : ℚ}
    (hst : s ≤ t) :
    (passedOn clientIP s t (rl.serve noClients reqs) : ℚ) ≤ rl.burst + rl.limit * (t - s) := by
  have htimes : ((reqs.filter (fun req => rl.key req.clientIP = rl.key clientIP)).map
      (fun req => seconds req.now)).Pairwise (· ≤ ·) :=
    List.pairwise_map.mpr ((hmono.filter _).imp seconds_mono)
  have hdecided := @map_serve rl noClients
    (reqs.filter (fun req => rl.key req.clientIP = rl.key clientIP)) (rl.key clientIP)
    (fun req hmem => of_decide_eq_true (List.mem_filter.mp hmem).2)
  have hcount : passedOn clientIP s t (rl.serve noClients reqs)
      ≤ admitted s t (Bucket.decisions rl.limit rl.burst none
          ((reqs.filter (fun req => rl.key req.clientIP = rl.key clientIP)).map
            (fun req => seconds req.now))) := by
    refine (passedOn_le_admitted rl _).trans_eq (congrArg _ ?_)
    rw [@serve_filter rl noClients noClients reqs (rl.key clientIP) rfl, hdecided]
    rfl
  calc (passedOn clientIP s t (rl.serve noClients reqs) : ℚ)
      ≤ admitted s t (Bucket.decisions rl.limit rl.burst none
          ((reqs.filter (fun req => rl.key req.clientIP = rl.key clientIP)).map
            (fun req => seconds req.now))) := by exact_mod_cast hcount
    _ ≤ rl.burst + (t - s) * rl.limit :=
        Bucket.admitted_le hlimit hburst hst htimes (fun _ _ => Bucket.ready_none)
    _ = rl.burst + rl.limit * (t - s) := by rw [mul_comm]

/-- **The rate limiter bounds what it passes on.** For any configuration and
any requests at nondecreasing times, the tokens of every client stay between
zero and the burst. In any window a client gets at most the burst and what the
rate gives in the window. By IP, a client is served as if it were alone. -/
theorem rateLimit_bounded (cfg : RateLimitConfig) (rl : RateLimiter)
    (hrl : rateLimit cfg = some rl) (hlimit : 0 ≤ cfg.requestsPerSecond) (hburst : 0 ≤ cfg.burst)
    (reqs : List Request) (hmono : reqs.Pairwise (fun req req' => req.now ≤ req'.now)) :
    (∀ key cl, rl.after noClients reqs key = some cl → 0 ≤ cl.tokens ∧ cl.tokens ≤ cfg.burst)
      ∧ (∀ clientIP (s t : ℚ), s ≤ t →
          (passedOn clientIP s t (rl.serve noClients reqs) : ℚ)
            ≤ cfg.burst + cfg.requestsPerSecond * (t - s))
      ∧ (cfg.byIP = true → ∀ clientIP,
          (rl.serve noClients reqs).filter (fun d => d.1.clientIP = clientIP)
            = rl.serve noClients (reqs.filter (fun req => req.clientIP = clientIP))) := by
  unfold rateLimit at hrl
  split_ifs at hrl
  obtain rfl := Option.some.inj hrl
  have hburst : (0 : ℚ) ≤ cfg.burst := by exact_mod_cast hburst
  refine ⟨fun key cl hcl => ?_, fun clientIP s t hst => ?_, fun hbyIP clientIP => ?_⟩
  · have hnone : InBounds ⟨cfg.requestsPerSecond, cfg.burst, cfg.byIP⟩ noClients 0 :=
      fun _ => Bucket.ready_none
    exact tokens_after hlimit hburst hmono hnone
      (fun req _ => div_nonneg (by exact_mod_cast Nat.zero_le req.now) (by norm_num)) hcl
  · exact passedOn_le hlimit hburst hmono clientIP hst
  · exact serve_byIP hbyIP clientIP

/-- Three requests of one client within a second, at one request a second with
a burst of two, between which another client asks. -/
theorem rateLimit_bounded_of_three :
    ∃ rl, rateLimit ⟨true, 1, 2, true⟩ = some rl
      ∧ rl.serve noClients [⟨"10.0.0.1", 0⟩, ⟨"10.0.0.2", 0⟩, ⟨"10.0.0.1", 250000000⟩,
          ⟨"10.0.0.1", 500000000⟩]
        = [(⟨"10.0.0.1", 0⟩, true), (⟨"10.0.0.2", 0⟩, true), (⟨"10.0.0.1", 250000000⟩, true),
          (⟨"10.0.0.1", 500000000⟩, false)]
      ∧ (passedOn "10.0.0.1" 0 1 (rl.serve noClients [⟨"10.0.0.1", 0⟩, ⟨"10.0.0.2", 0⟩,
          ⟨"10.0.0.1", 250000000⟩, ⟨"10.0.0.1", 500000000⟩]) : ℚ) ≤ (2 : ℤ) + 1 * (1 - 0) := by
  refine ⟨⟨1, 2, true⟩, rfl, by decide +kernel, ?_⟩
  exact (rateLimit_bounded ⟨true, 1, 2, true⟩ ⟨1, 2, true⟩ rfl (by norm_num) (by norm_num)
    [⟨"10.0.0.1", 0⟩, ⟨"10.0.0.2", 0⟩, ⟨"10.0.0.1", 250000000⟩, ⟨"10.0.0.1", 500000000⟩]
    (by decide)).2.1 "10.0.0.1" 0 1 (by norm_num)

end Timewheel.Middleware
