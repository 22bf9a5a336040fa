import Timewheel.Lib.Noninterference
import Timewheel.RateLimit

/-!
# The gateway

`Setup` puts six middlewares in front of every route: the request ID, CORS, the
logger, the recovery from panics, the rate limiter, and the authentication. A
middleware is given what comes after it, and calls it or answers the request by
itself. What a route does to the service behind the gateway is a parameter here,
as is the library that checks tokens.

The limiter comes before the authentication, so a request without credentials
uses up tokens. Nothing else of it gets through: with a configuration that
`validate` accepts and the authentication enabled, the service has seen only
requests with credentials, and the answers to the others do not depend on it
(`guarded_of_validate`). If the limiter counts by IP, the requests from an
address that never shows credentials might as well not have been made.

Requests are served one after another. A route may panic after it has written
an answer; `Recovery` then writes its own document behind it, and the status
stays what it was.
-/

namespace Timewheel.Middleware

open Noninterference

/-! ## The code -/

/-- The body of an answer: a `CommonResponse`, something else, or one document
written after another. -/
inductive Body (D : Type*) where
  | empty
  | common (code : ℤ) (message : String) (data : Option D)
  | other (data : D)
  | both (first second : Body D)
  deriving DecidableEq

/-- `SuccessResponse`. -/
def successResponse {D : Type*} (data : Option D) : Body D := .common 0 "success" data

/-- `ErrorResponse`. -/
def errorResponse {D : Type*} (code : ℤ) (message : String) : Body D := .common code message none

/-- The answer to a request, as far as there is one. What has been written cannot be
taken back. -/
structure Response (D : Type*) where
  header : List (String × String)
  status : ℕ
  body : Body D
  written : Bool
  deriving DecidableEq

namespace Response

variable {D : Type*} (r : Response D)

/-- Nothing has been written. -/
def start : Response D := ⟨[], 200, .empty, false⟩

/-- `c.Header`. -/
def setHeader (name value : String) : Response D :=
  { r with header := r.header.filter (fun field => field.1 ≠ name) ++ [(name, value)] }

/-- `c.JSON`. A second document keeps the status of the first one, and comes after
it. -/
def json (status : ℕ) (body : Body D) : Response D :=
  match r.written with
  | false => { r with status := status, body := body, written := true }
  | true => { r with body := .both r.body body }

/-- `c.AbortWithStatusJSON` with an `ErrorResponse` of the same code. -/
def abort (status : ℕ) (message : String) : Response D :=
  r.json status (errorResponse status message)

end Response

/-- `JWTConfig`, as far as it is read. -/
structure JWTConfig where
  secret : String

/-- `APIKeyEntry`. -/
structure APIKeyEntry where
  name : String
  key : String

/-- `APIKeyConfig`. -/
structure APIKeyConfig where
  header : String
  keys : List APIKeyEntry

/-- `AuthConfig`. -/
structure AuthConfig where
  enabled : Bool
  type : String
  jwt : JWTConfig
  apiKey : APIKeyConfig

/-- `Config`, as far as `validate` and the middlewares read it. -/
structure Config where
  mode : String
  redisEnabled : Bool
  databaseType : String
  auth : AuthConfig
  rateLimit : RateLimitConfig

/-- `validate`. -/
def validate (cfg : Config) : Option String :=
  if cfg.mode ≠ "standalone" ∧ cfg.mode ≠ "cluster" then
    some ("invalid mode: " ++ cfg.mode ++ ", must be standalone or cluster")
  else if cfg.mode = "cluster" ∧ cfg.redisEnabled = false then
    some "redis must be enabled in cluster mode"
  else if cfg.databaseType ≠ "mysql" ∧ cfg.databaseType ≠ "sqlite" then
    some ("invalid database type: " ++ cfg.databaseType ++ ", must be mysql or sqlite")
  else if cfg.auth.enabled = true ∧ cfg.auth.type ≠ "jwt" ∧ cfg.auth.type ≠ "api_key" then
    some ("invalid auth type: " ++ cfg.auth.type ++ ", must be jwt or api_key")
  else none

/-- A request, as the middlewares read it: `header` is `c.GetHeader`, `now` the
time at the limiter, `parsedAt` the time at which a token is checked, and
`requestID` what `generateRequestID` would return. The rest of it, for the routes,
is in `input`. -/
structure HttpRequest (E : Type*) where
  method : String
  header : String → String
  clientIP : String
  now : Time
  parsedAt : Time
  requestID : String
  input : E

/-- The limiter's clients, and the service behind the gateway. -/
structure Gateway (S : Type*) where
  clients : Clients
  service : S

/-- How a handler ends: with an answer, or with a panic that leaves what has been
written so far. -/
inductive Ended (D : Type*) where
  | returned (r : Response D)
  | panicked (r : Response D)

/-- The answer, unless the panic has reached the server. -/
def Ended.answer {D : Type*} : Ended D → Option (Response D)
  | .returned r => some r
  | .panicked _ => none

/-- What handles a request from here on. -/
abbrev Handler (D S : Type*) := Response D → Gateway S → Ended D × Gateway S

/-- What a route does: it writes a status and a body, or it panics, and may have
written something before that. -/
inductive Outcome (D : Type*) where
  | wrote (status : ℕ) (body : Body D)
  | panicked (before : Option (ℕ × Body D))

/-- A route. -/
abbrev Route (E D S : Type*) := HttpRequest E → S → Outcome D × S

/-- `jwt.Parse`, at a time and with a secret: an error, or the flag `Valid` of the
token. The time decides whether the token is valid yet, and still is. -/
abbrev Parser := Time → String → String → Except String Bool

/-- `strings.SplitN` with a blank and 2. -/
def splitN2 (s : String) : List String :=
  match s.toList.span (· ≠ ' ') with
  | (_, []) => [s]
  | (before, _ :: rest) => [String.ofList before, String.ofList rest]

section Handlers

variable {E D S : Type*}

/-- `RequestID`. -/
def requestID (req : HttpRequest E) (next : Handler D S) : Handler D S := fun r gw =>
  let requestID := req.header "X-Request-ID"
  next (r.setHeader "X-Request-ID" (if requestID = "" then req.requestID else requestID)) gw

/-- The headers `CORS` sets. -/
def Response.allowOrigins (r : Response D) : Response D :=
  let r := r.setHeader "Access-Control-Allow-Origin" "*"
  let r := r.setHeader "Access-Control-Allow-Methods" "GET, POST, PUT, DELETE, OPTIONS"
  let r := r.setHeader "Access-Control-Allow-Headers"
    "Origin, Content-Type, Authorization, X-API-Key"
  let r := r.setHeader "Access-Control-Expose-Headers" "Content-Length, Content-Type"
  r.setHeader "Access-Control-Max-Age" "86400"

/-- `CORS`. -/
def cors (req : HttpRequest E) (next : Handler D S) : Handler D S := fun r gw =>
  if req.method = "OPTIONS" then (.returned (r.allowOrigins.json 204 .empty), gw)
  else next r.allowOrigins gw

/-- `Logger`. It only logs. -/
def logger (next : Handler D S) : Handler D S := next

/-- `Recovery`. -/
def recovery (next : Handler D S) : Handler D S := fun r gw =>
  match next r gw with
  | (.returned r', gw') => (.returned r', gw')
  | (.panicked r', gw') => (.returned (r'.abort 500 "Internal server error"), gw')

/-- `RateLimit`, with the map of clients in the gateway. -/
def limited (cfg : RateLimitConfig) (req : HttpRequest E) (next : Handler D S) : Handler D S :=
  fun r gw =>
    match rateLimit cfg with
    | none => next r gw
    | some rl =>
      match rl.handle gw.clients ⟨req.clientIP, req.now⟩ with
      | (false, clients) =>
        (.returned (r.abort 429 "Rate limit exceeded"), { gw with clients := clients })
      | (true, clients) => next r { gw with clients := clients }

/-- `jwtAuth`. -/
def jwtAuth (parse : Parser) (cfg : JWTConfig) (req : HttpRequest E) (next : Handler D S) :
    Handler D S := fun r gw =>
  let authHeader := req.header "Authorization"
  if authHeader = "" then (.returned (r.abort 401 "Missing authorization header"), gw)
  else
    match splitN2 authHeader with
    | [scheme, tokenString] =>
      if scheme.toLower ≠ "bearer" then (.returned (r.abort 401 "Invalid authorization format"), gw)
      else
        match parse req.parsedAt cfg.secret tokenString with
        | .error _ => (.returned (r.abort 401 "Invalid token"), gw)
        | .ok false => (.returned (r.abort 401 "Invalid token"), gw)
        | .ok true => next r gw
    | _ => (.returned (r.abort 401 "Invalid authorization format"), gw)

/-- `apiKeyAuth`. -/
def apiKeyAuth (cfg : APIKeyConfig) (req : HttpRequest E) (next : Handler D S) : Handler D S :=
  fun r gw =>
    let apiKey := req.header cfg.header
    if apiKey = "" then (.returned (r.abort 401 "Missing API key"), gw)
    else if cfg.keys.any (fun entry => entry.key == apiKey) then next r gw
    else (.returned (r.abort 401 "Invalid API key"), gw)

/-- `Auth`. -/
def auth (parse : Parser) (cfg : AuthConfig) (req : HttpRequest E) (next : Handler D S) :
    Handler D S :=
  if cfg.enabled = false then next
  else if cfg.type = "jwt" then jwtAuth parse cfg.jwt req next
  else if cfg.type = "api_key" then apiKeyAuth cfg.apiKey req next
  else next

/-- The handler of a route. -/
def handle (route : Route E D S) (req : HttpRequest E) : Handler D S := fun r gw =>
  match route req gw.service with
  | (.wrote status body, service) => (.returned (r.json status body), { gw with service := service })
  | (.panicked none, service) => (.panicked r, { gw with service := service })
  | (.panicked (some (status, body)), service) =>
    (.panicked (r.json status body), { gw with service := service })

/-- The middlewares of `Setup`. -/
def middlewares (parse : Parser) (cfg : Config) (req : HttpRequest E) :
    List (Handler D S → Handler D S) :=
  [requestID req, cors req, logger, recovery, limited cfg.rateLimit req, auth parse cfg.auth req]

/-- **The server**: the answer to a request, and the gateway after it. -/
def respond (parse : Parser) (cfg : Config) (route : Route E D S) (gw : Gateway S)
    (req : HttpRequest E) : Option (Response D) × Gateway S :=
  let r := (middlewares parse cfg req).foldr (fun middleware next => middleware next)
    (handle route req) .start gw
  (r.1.answer, r.2)

end Handlers

/-! ## What the chain comes to -/

section Chain

variable {E D S S' : Type*} {parse : Parser} {cfg : Config}
  {route : Route E D S} {route' : Route E D S'} {gw gw' : Gateway S} {req : HttpRequest E}
  {reqs : List (HttpRequest E)}

/-- The answer to a request before anything is decided. -/
def headed (req : HttpRequest E) : Response D :=
  (Response.start.setHeader "X-Request-ID"
    (if req.header "X-Request-ID" = "" then req.requestID
    else req.header "X-Request-ID")).allowOrigins

/-- What the limiter decides, and the clients it leaves. -/
def limit (cfg : RateLimitConfig) (clients : Clients) (req : HttpRequest E) : Bool × Clients :=
  match rateLimit cfg with
  | none => (true, clients)
  | some rl => rl.handle clients ⟨req.clientIP, req.now⟩

/-- Answer with the reason, if there is one. -/
def refuse (reason : Option String) (next : Handler D S) : Handler D S := fun r gw =>
  match reason with
  | none => next r gw
  | some message => (.returned (r.abort 401 message), gw)

/-- Why `jwtAuth` refuses a request, if it does. -/
def jwtRefusal (parse : Parser) (cfg : JWTConfig) (req : HttpRequest E) : Option String :=
  if req.header "Authorization" = "" then some "Missing authorization header"
  else
    match splitN2 (req.header "Authorization") with
    | [scheme, tokenString] =>
      if scheme.toLower ≠ "bearer" then some "Invalid authorization format"
      else
        match parse req.parsedAt cfg.secret tokenString with
        | .ok true => none
        | _ => some "Invalid token"
    | _ => some "Invalid authorization format"

/-- Why `apiKeyAuth` refuses a request, if it does. -/
def apiKeyRefusal (cfg : APIKeyConfig) (req : HttpRequest E) : Option String :=
  if req.header cfg.header = "" then some "Missing API key"
  else if cfg.keys.any (fun entry => entry.key == req.header cfg.header) then none
  else some "Invalid API key"

/-- Why `Auth` refuses a request, if it does. -/
def refusal (parse : Parser) (cfg : AuthConfig) (req : HttpRequest E) : Option String :=
  if cfg.enabled = false then none
  else if cfg.type = "jwt" then jwtRefusal parse cfg.jwt req
  else if cfg.type = "api_key" then apiKeyRefusal cfg.apiKey req
  else none

/-- **The request carries credentials**: a valid token with the scheme `Bearer`, or
a key of the configuration. -/
def authenticated (parse : Parser) (cfg : AuthConfig) (req : HttpRequest E) : Bool :=
  if cfg.type = "jwt" then
    match splitN2 (req.header "Authorization") with
    | [scheme, tokenString] =>
      scheme.toLower == "bearer"
        && (match parse req.parsedAt cfg.jwt.secret tokenString with
          | .ok true => true
          | _ => false)
    | _ => false
  else req.header cfg.apiKey.header != ""
    && cfg.apiKey.keys.any (fun entry => entry.key == req.header cfg.apiKey.header)

theorem jwtAuth_eq (cfg : JWTConfig) (req : HttpRequest E) (next : Handler D S) :
    jwtAuth parse cfg req next = refuse (jwtRefusal parse cfg req) next := by
  funext r gw
  unfold jwtAuth refuse jwtRefusal
  dsimp only
  split_ifs
  · rfl
  · split
    · split_ifs
      · rfl
      · split
        all_goals simp [*]
    · rfl

theorem apiKeyAuth_eq (cfg : APIKeyConfig) (req : HttpRequest E) (next : Handler D S) :
    apiKeyAuth cfg req next = refuse (apiKeyRefusal cfg req) next := by
  funext r gw
  unfold apiKeyAuth refuse apiKeyRefusal
  dsimp only
  split_ifs
  all_goals rfl

/-- `Auth` refuses a request, or does nothing. -/
theorem auth_eq (cfg : AuthConfig) (req : HttpRequest E) (next : Handler D S) :
    auth parse cfg req next = refuse (refusal parse cfg req) next := by
  unfold auth refusal
  split_ifs
  · rfl
  · exact jwtAuth_eq cfg.jwt req next
  · exact apiKeyAuth_eq cfg.apiKey req next
  · rfl

/-- A bearer of a valid token is let through. -/
theorem jwtRefusal_eq_none_iff (cfg : AuthConfig) (htype : cfg.type = "jwt")
    (req : HttpRequest E) :
    jwtRefusal parse cfg.jwt req = none ↔ authenticated parse cfg req = true := by
  have hempty : splitN2 "" = [""] := rfl
  unfold jwtRefusal authenticated
  rw [if_pos htype]
  split_ifs with hmissing
  · simp [hmissing, hempty]
  · split
    · split_ifs with hscheme
      · simp [hscheme]
      · split
        all_goals simp_all
    · simp

/-- **`Auth` lets through what carries credentials**, if it knows its type. -/
theorem refusal_eq_none_iff {cfg : AuthConfig} (henabled : cfg.enabled = true)
    (htype : cfg.type = "jwt" ∨ cfg.type = "api_key") (req : HttpRequest E) :
    refusal parse cfg req = none ↔ authenticated parse cfg req = true := by
  unfold refusal
  rw [if_neg (by simp [henabled])]
  by_cases hjwt : cfg.type = "jwt"
  · rw [if_pos hjwt]
    exact jwtRefusal_eq_none_iff cfg hjwt req
  · rw [if_neg hjwt, if_pos (htype.resolve_left hjwt)]
    unfold apiKeyRefusal authenticated
    rw [if_neg hjwt]
    split_ifs with hmissing hkey
    · simp [hmissing]
    · simp [hmissing, hkey]
    · simp [hkey]

/-- What `Recovery` makes of the answer of a route, or of its panic. -/
def Response.finish (r : Response D) : Outcome D → Response D
  | .wrote status body => r.json status body
  | .panicked none => r.abort 500 "Internal server error"
  | .panicked (some (status, body)) => (r.json status body).abort 500 "Internal server error"

theorem limit_of_none {cfg : RateLimitConfig} (h : rateLimit cfg = none) (clients : Clients)
    (req : HttpRequest E) : limit cfg clients req = (true, clients) := by
  unfold limit
  rw [h]

theorem limit_of_some {cfg : RateLimitConfig} {rl : RateLimiter} (h : rateLimit cfg = some rl)
    (clients : Clients) (req : HttpRequest E) :
    limit cfg clients req = rl.handle clients ⟨req.clientIP, req.now⟩ := by
  unfold limit
  rw [h]

/-- The limiter by its decision. -/
theorem limited_eq (cfg : RateLimitConfig) (req : HttpRequest E) (next : Handler D S)
    (r : Response D) (gw : Gateway S) :
    limited cfg req next r gw
      = if (limit cfg gw.clients req).1 = false then
          (.returned (r.abort 429 "Rate limit exceeded"), ⟨(limit cfg gw.clients req).2, gw.service⟩)
        else next r ⟨(limit cfg gw.clients req).2, gw.service⟩ := by
  unfold limited
  cases hrl : rateLimit cfg with
  | none =>
    rw [limit_of_none hrl]
    rfl
  | some rl =>
    rw [limit_of_some hrl]
    dsimp only
    rcases rl.handle gw.clients ⟨req.clientIP, req.now⟩ with ⟨_ | _, clients⟩
    · rfl
    · rfl

/-- The limiter under `Recovery`. -/
theorem recovery_limited (cfg : RateLimitConfig) (req : HttpRequest E) (next : Handler D S)
    (r : Response D) (gw : Gateway S) :
    recovery (limited cfg req next) r gw
      = if (limit cfg gw.clients req).1 = false then
          (.returned (r.abort 429 "Rate limit exceeded"), ⟨(limit cfg gw.clients req).2, gw.service⟩)
        else recovery next r ⟨(limit cfg gw.clients req).2, gw.service⟩ := by
  unfold recovery
  rw [limited_eq]
  split_ifs
  · rfl
  · rfl

/-- The last two handlers under `Recovery`. -/
theorem recovery_refuse (reason : Option String) (req : HttpRequest E) (r : Response D)
    (gw : Gateway S) :
    recovery (refuse reason (handle route req)) r gw
      = match reason with
        | some message => (.returned (r.abort 401 message), gw)
        | none =>
          (.returned (r.finish (route req gw.service).1),
            ⟨gw.clients, (route req gw.service).2⟩) := by
  unfold recovery refuse handle
  cases reason with
  | some message => rfl
  | none =>
    dsimp only
    rcases route req gw.service with ⟨⟨status, body⟩ | ⟨_ | ⟨status, body⟩⟩, service⟩
    · rfl
    · rfl
    · rfl

/-- **The server in one expression.** -/
theorem respond_eq (gw : Gateway S) (req : HttpRequest E) :
    respond parse cfg route gw req
      = if req.method = "OPTIONS" then (some ((headed req).json 204 .empty), gw)
        else if (limit cfg.rateLimit gw.clients req).1 = false then
          (some ((headed req).abort 429 "Rate limit exceeded"),
            ⟨(limit cfg.rateLimit gw.clients req).2, gw.service⟩)
        else
          match refusal parse cfg.auth req with
          | some message =>
            (some ((headed req).abort 401 message),
              ⟨(limit cfg.rateLimit gw.clients req).2, gw.service⟩)
          | none =>
            (some ((headed req).finish (route req gw.service).1),
              ⟨(limit cfg.rateLimit gw.clients req).2, (route req gw.service).2⟩) := by
  have hchain : respond parse cfg route gw req
      = (fun r : Ended D × Gateway S => (r.1.answer, r.2))
        (if req.method = "OPTIONS" then (.returned ((headed req).json 204 .empty), gw)
        else recovery (limited cfg.rateLimit req (auth parse cfg.auth req (handle route req)))
          (headed req) gw) := rfl
  rw [hchain, auth_eq, recovery_limited, recovery_refuse]
  split_ifs
  · rfl
  · rfl
  · cases refusal parse cfg.auth req with
    | some message => rfl
    | none => rfl

/-! ## What gets through -/

/-- Every request is answered. -/
theorem respond_ne_none (gw : Gateway S) (req : HttpRequest E) :
    (respond parse cfg route gw req).1 ≠ none := by
  rw [respond_eq]
  split_ifs
  · simp
  · simp
  · cases refusal parse cfg.auth req with
    | some message => simp
    | none => simp

/-- The clients after a request. -/
theorem respond_clients (gw : Gateway S) (req : HttpRequest E) :
    (respond parse cfg route gw req).2.clients
      = if req.method = "OPTIONS" then gw.clients
        else (limit cfg.rateLimit gw.clients req).2 := by
  rw [respond_eq]
  split_ifs
  · rfl
  · rfl
  · cases refusal parse cfg.auth req with
    | some message => rfl
    | none => rfl

/-- The service after a request: a route has been taken, or nothing has
happened. -/
theorem respond_service (gw : Gateway S) (req : HttpRequest E) :
    (respond parse cfg route gw req).2.service = gw.service
      ∨ refusal parse cfg.auth req = none
        ∧ (respond parse cfg route gw req).2.service = (route req gw.service).2 := by
  rw [respond_eq]
  split_ifs
  · exact .inl rfl
  · exact .inl rfl
  · cases refusal parse cfg.auth req with
    | some message => exact .inl rfl
    | none => exact .inr ⟨rfl, rfl⟩

/-- A refused request is answered without the service. -/
theorem respond_of_refused (h : refusal parse cfg.auth req ≠ none) (gw : Gateway S)
    (gw' : Gateway S') (hclients : gw.clients = gw'.clients) :
    (respond parse cfg route gw req).1 = (respond parse cfg route' gw' req).1
      ∧ (respond parse cfg route gw req).2.service = gw.service := by
  obtain ⟨message, hmessage⟩ := Option.ne_none_iff_exists'.mp h
  rw [respond_eq, respond_eq, hmessage, hclients]
  split_ifs
  · exact ⟨rfl, rfl⟩
  · exact ⟨rfl, rfl⟩
  · exact ⟨rfl, rfl⟩

/-- A configuration that is loaded has a type of authentication. -/
theorem auth_type_of_validate (hvalid : validate cfg = none) (henabled : cfg.auth.enabled = true) :
    cfg.auth.type = "jwt" ∨ cfg.auth.type = "api_key" := by
  unfold validate at hvalid
  split_ifs at hvalid with _ _ _ hauth
  by_contra htype
  exact hauth ⟨henabled, not_or.mp htype⟩

/-- Who is let through carries credentials. -/
theorem authenticated_of_validate (hvalid : validate cfg = none)
    (henabled : cfg.auth.enabled = true) (req : HttpRequest E) :
    refusal parse cfg.auth req = none ↔ authenticated parse cfg.auth req = true :=
  refusal_eq_none_iff henabled (auth_type_of_validate hvalid henabled) req

/-- **What the service has seen.** -/
theorem service_after (hvalid : validate cfg = none) (henabled : cfg.auth.enabled = true)
    (gw : Gateway S) :
    ∃ served : List (HttpRequest E), served.Sublist (reqs.filter (authenticated parse cfg.auth))
      ∧ (after (respond parse cfg route) gw reqs).service
        = served.foldl (fun service req => (route req service).2) gw.service := by
  induction reqs generalizing gw with
  | nil => exact ⟨[], .slnil, rfl⟩
  | cons req reqs ih =>
    obtain ⟨served, hsub, hafter⟩ := ih (respond parse cfg route gw req).2
    rw [after_cons, hafter]
    rcases @respond_service E D S parse cfg route gw req with hsame | ⟨hlet, htaken⟩
    · rw [hsame]
      exact ⟨served, hsub.trans ((List.sublist_cons_self req reqs).filter _), rfl⟩
    · have hauth := (authenticated_of_validate hvalid henabled req).mp hlet
      refine ⟨req :: served, ?_, by rw [htaken]; rfl⟩
      rw [List.filter_cons_of_pos hauth]
      exact hsub.cons_cons req

/-! ### Addresses -/

/-- The limiter tells addresses apart, if there is one. -/
def SeparatesIPs (cfg : RateLimitConfig) : Prop := cfg.enabled = false ∨ cfg.byIP = true

/-- The decision about a request depends on the tokens of its address. -/
theorem limit_congr {cfg : RateLimitConfig} (hip : SeparatesIPs cfg) {clients clients' : Clients}
    (h : clients req.clientIP = clients' req.clientIP) :
    (limit cfg clients req).1 = (limit cfg clients' req).1
      ∧ (limit cfg clients req).2 req.clientIP = (limit cfg clients' req).2 req.clientIP := by
  cases hrl : rateLimit cfg with
  | none =>
    rw [limit_of_none hrl, limit_of_none hrl]
    exact ⟨rfl, h⟩
  | some rl =>
    have hkey : rl.key req.clientIP = req.clientIP := by
      unfold rateLimit at hrl
      split_ifs at hrl with henabled
      obtain rfl := Option.some.inj hrl
      exact if_pos (hip.resolve_left (by simp [henabled]))
    rw [limit_of_some hrl, limit_of_some hrl]
    simpa only [hkey] using @handle_congr rl clients clients' ⟨req.clientIP, req.now⟩
      (by simpa only [hkey] using h)

/-- The tokens of other addresses stay. -/
theorem limit_of_ne {cfg : RateLimitConfig} (hip : SeparatesIPs cfg) {clients : Clients}
    {ip : String} (h : ip ≠ req.clientIP) : (limit cfg clients req).2 ip = clients ip := by
  cases hrl : rateLimit cfg with
  | none => rw [limit_of_none hrl]
  | some rl =>
    have hkey : rl.key req.clientIP = req.clientIP := by
      unfold rateLimit at hrl
      split_ifs at hrl with henabled
      obtain rfl := Option.some.inj hrl
      exact if_pos (hip.resolve_left (by simp [henabled]))
    rw [limit_of_some hrl]
    exact handle_of_ne (by simpa only [hkey] using h)

/-- A request is answered by the service and the tokens of its address. -/
theorem respond_congr (hip : SeparatesIPs cfg.rateLimit) (hservice : gw.service = gw'.service)
    (hclients : gw.clients req.clientIP = gw'.clients req.clientIP) :
    (respond parse cfg route gw req).1 = (respond parse cfg route gw' req).1
      ∧ (respond parse cfg route gw req).2.service
        = (respond parse cfg route gw' req).2.service := by
  rw [respond_eq, respond_eq, hservice, (limit_congr hip hclients).1]
  split_ifs
  · exact ⟨rfl, hservice⟩
  · exact ⟨rfl, rfl⟩
  · cases refusal parse cfg.auth req with
    | some message => exact ⟨rfl, rfl⟩
    | none => exact ⟨rfl, rfl⟩

/-- The tokens of an address after a request that is not from there. -/
theorem clients_of_ne (hip : SeparatesIPs cfg.rateLimit) {ip : String} (h : ip ≠ req.clientIP) :
    (respond parse cfg route gw req).2.clients ip = gw.clients ip := by
  rw [respond_clients]
  split_ifs
  · rfl
  · exact limit_of_ne hip h

/-- The tokens of the address of a request. -/
theorem clients_congr (hip : SeparatesIPs cfg.rateLimit)
    (h : gw.clients req.clientIP = gw'.clients req.clientIP) :
    (respond parse cfg route gw req).2.clients req.clientIP
      = (respond parse cfg route gw' req).2.clients req.clientIP := by
  rw [respond_clients, respond_clients]
  split_ifs
  · exact h
  · exact (limit_congr hip h).2

/-- One of the requests comes from the address and carries credentials. -/
def known (parse : Parser) (cfg : AuthConfig) (reqs : List (HttpRequest E)) (ip : String) : Bool :=
  reqs.any (fun req => authenticated parse cfg req && req.clientIP == ip)

/-- The same service, and the same tokens for some addresses. -/
structure Alike (p : String → Bool) (gw gw' : Gateway S) : Prop where
  service : gw.service = gw'.service
  clients : ∀ ip, p ip = true → gw.clients ip = gw'.clients ip

theorem Alike.refl (p : String → Bool) (gw : Gateway S) : Alike p gw gw := ⟨rfl, fun _ _ => rfl⟩

/-- **The unwinding conditions of the gateway.** -/
theorem unwinds_known (hvalid : validate cfg = none) (henabled : cfg.auth.enabled = true)
    (hip : SeparatesIPs cfg.rateLimit) (route : Route E D S) (reqs : List (HttpRequest E)) :
    Unwinds (respond parse cfg route) (· ∈ reqs)
      (fun req => known parse cfg.auth reqs req.clientIP = true)
      (Alike (known parse cfg.auth reqs)) where
  sees := by
    intro gw gw' req h _ hknown
    have hanswer := @respond_congr E D S parse cfg route gw gw' req hip h.service
      (h.clients _ hknown)
    refine ⟨hanswer.1, hanswer.2, fun ip hip' => ?_⟩
    by_cases heq : ip = req.clientIP
    · subst heq
      exact clients_congr hip (h.clients _ hknown)
    · rw [clients_of_ne hip heq, clients_of_ne hip heq]
      exact h.clients ip hip'
  skips := by
    intro gw gw' req h hmem hunknown
    have hrefused : refusal parse cfg.auth req ≠ none := by
      intro hlet
      refine hunknown (List.any_eq_true.mpr ⟨req, hmem, ?_⟩)
      simp [(authenticated_of_validate hvalid henabled req).mp hlet]
    have hanswer := @respond_of_refused E D S S parse cfg route route req hrefused gw gw rfl
    refine ⟨hanswer.2.trans h.service, fun ip hip' => ?_⟩
    rw [clients_of_ne hip (fun heq => hunknown (heq ▸ hip'))]
    exact h.clients ip hip'

/-- The service is hidden from requests without credentials. -/
theorem hides_service (hvalid : validate cfg = none) (henabled : cfg.auth.enabled = true) :
    Hides (respond parse cfg route) (respond parse cfg route')
      (fun req : HttpRequest E => authenticated parse cfg.auth req = false)
      (fun (gw : Gateway S) (gw' : Gateway S') => gw.clients = gw'.clients) where
  answer := by
    intro gw gw' req hclients hauth
    refine (respond_of_refused (fun hlet => ?_) gw gw' hclients).1
    rw [(authenticated_of_validate hvalid henabled req).mp hlet] at hauth
    cases hauth
  keep := by
    intro gw gw' req hclients
    rw [respond_clients, respond_clients, hclients]

end Chain

/-! ### Two clients -/

/-- A configuration with one key. -/
def oneKey : Config where
  mode := "standalone"
  redisEnabled := false
  databaseType := "sqlite"
  auth := ⟨true, "api_key", ⟨""⟩, ⟨"X-API-Key", [⟨"ops", "k1"⟩]⟩⟩
  rateLimit := ⟨true, 1, 1, true⟩

/-- A request to add a number, with a key. -/
def addRequest (clientIP key : String) (n : ℕ) : HttpRequest ℕ where
  method := "POST"
  header := fun name => if name = "X-API-Key" then key else ""
  clientIP := clientIP
  now := 0
  parsedAt := 0
  requestID := "r"
  input := n

/-- A service that adds. -/
def adds : Route ℕ ℕ ℕ := fun req total =>
  (.wrote 200 (successResponse (some (total + req.input))), total + req.input)

end Timewheel.Middleware
