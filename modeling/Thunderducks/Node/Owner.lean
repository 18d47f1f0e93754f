import Mathlib.Data.List.MinMax
import Thunderducks.Event.Room
import Thunderducks.Lib.Runs
import Thunderducks.Node.RateLimit

/-!
# Owner — owner sessions and the gate in front of the RPC routes (`td-node/src/rpc.rs`)

On a node that requires an owner, `authn_rate_middleware` lets a request through to a route that is
not public only with a token of a live owner session.  Sessions come from `claim_node` and
`recovery_login` and go by logout, by expiry and by eviction.
-/

namespace Thunderducks
namespace Node

open Lib Event

/-! ## Requests -/

/-- Header values by lower-case name, in the order received. -/
abbrev HeaderMap : Type := List (String × Bytes)

namespace HeaderMap

/-- `HeaderMap::get`: the first value under a name. -/
def get (headers : HeaderMap) (name : String) : Option Bytes :=
  (headers.find? fun h => h.1 = name).map Prod.snd

/-- `HeaderValue::to_str`: visible ASCII and tabs only. -/
def toStr (value : Bytes) : Option String :=
  if value.all fun b => b = 9 ∨ (32 ≤ b ∧ b < 127) then
    some (String.ofList (value.map fun b => Char.ofNat b.toNat))
  else
    none

end HeaderMap

structure Request where
  ip : String
  method : String
  path : String
  query : Option String
  headers : HeaderMap
  body : Bytes

/-- Paths that stay reachable without owner session even when `require_owner` is on. -/
def isPublicPath (method path : String) : Bool :=
  (Text.toAsciiUppercase method, path) ∈
    [("GET", "/health"),
      ("GET", "/v1/status"),
      ("GET", "/v1/claim"),
      -- handler rejects if already claimed
      ("POST", "/v1/claim"),
      ("POST", "/v1/recovery/login"),
      ("GET", "/v1/owner/session"),
      ("DELETE", "/v1/owner/session"),
      ("POST", "/v1/pair/redeem"),
      -- Lightweight discovery (no secrets)
      ("GET", "/v1/p2p"),
      ("GET", "/v1/remote")]

/-! ## Where a token may stand -/

def extractBearer (headers : HeaderMap) : Option String :=
  match (headers.get "authorization").bind HeaderMap.toStr with
  | none => none
  | some auth =>
      match (Text.stripPrefix "Bearer " auth).or (Text.stripPrefix "bearer " auth) with
      | none => none
      | some rest => Text.trimmed rest

def extractOwnerToken (headers : HeaderMap) : Option String :=
  match extractBearer headers with
  | some t => some t
  | none => ((headers.get "x-td-owner-token").bind HeaderMap.toStr).bind Text.trimmed

/-- Extract owner token from headers, or `owner_token` query (SSE EventSource). -/
def extractOwnerTokenFlexible (headers : HeaderMap) (queryToken : Option String) : Option String :=
  match extractOwnerToken headers with
  | some t => some t
  | none => queryToken.bind Text.trimmed

/-- The value of the first `owner_token` pair of a query string. -/
def queryOwnerToken (query : String) : Option String :=
  (Text.split '&' query).findSome? fun pair =>
    let (k, v) := (Text.splitOnce '=' pair.toList).getD (pair.toList, [])
    if String.ofList k = "owner_token" then some (String.ofList v) else none

/-- The request carries the token in one of the three places. -/
def Carries (req : Request) (token : String) : Prop :=
  extractBearer req.headers = some token ∨
    ((req.headers.get "x-td-owner-token").bind HeaderMap.toStr).bind Text.trimmed = some token ∨
    (req.query.bind queryOwnerToken).bind Text.trimmed = some token

/-! ## Sessions -/

structure OwnerSession where
  source : String
  createdMs : Nat
  expiresAt : Instant
  deriving DecidableEq

/-- Pond first-run claim (owner display name + recovery code hash). -/
structure ClaimState where
  claimed : Bool
  displayName : Option String
  /-- blake3 hex of recovery code (never store plaintext). -/
  recoveryHash : Option String
  claimedAtMs : Option Nat
  deriving DecidableEq

def ClaimState.default : ClaimState :=
  { claimed := false
    displayName := none
    recoveryHash := none
    claimedAtMs := none }

/-- The fields of `NodeSession` that the owner routes use. -/
structure OwnerState where
  deviceId : DeviceId
  claim : ClaimState
  ownerSessions : HashMap String OwnerSession
  recoveryFailures : Nat
  recoveryLockUntil : Option Instant

/-- What a handler draws from outside: the clocks, the randomness, the order in which the session
map is listed, and whether the claim could be written. -/
structure Draw where
  now : Instant
  nowMs : Nat
  token : Bytes
  code : Bytes
  order : IterOrder (String × OwnerSession)
  persist : Except String Unit

namespace OwnerState

def new (deviceId : DeviceId) (claim : ClaimState) : OwnerState :=
  { deviceId := deviceId
    claim := claim
    ownerSessions := ∅
    recoveryFailures := 0
    recoveryLockUntil := none }

def purgeExpiredOwnerSessions (st : OwnerState) (now : Instant) : OwnerState :=
  { st with ownerSessions := st.ownerSessions.retain fun _ s => s.expiresAt > now }

/-- Cap concurrent owner sessions: drop the oldest of sixteen or more. -/
def evictOldest (st : OwnerState) (o : IterOrder (String × OwnerSession)) : OwnerState :=
  if st.ownerSessions.entries.length ≥ 16 then
    let listed := o.run (st.ownerSessions.entries.map fun e => (e.1, e.2))
    match listed.argmin fun e => e.2.createdMs with
    | none => st
    | some oldest => { st with ownerSessions := st.ownerSessions.erase oldest.1 }
  else
    st

/-- 24h -/
def ttlSecs : Nat := 86400

def mintOwnerSession (st : OwnerState) (draw : Draw) (source : String) :
    (String × Nat) × OwnerState :=
  let st := (st.purgeExpiredOwnerSessions draw.now).evictOldest draw.order
  let token := Text.hexEncode draw.token
  let session : OwnerSession :=
    { source := source
      createdMs := draw.nowMs
      expiresAt := draw.now + Instant.secs ttlSecs }
  ((token, ttlSecs), { st with ownerSessions := st.ownerSessions.insert token session })

def ownerSessionValid (st : OwnerState) (now : Instant) (token : String) : Bool × OwnerState :=
  let st := st.purgeExpiredOwnerSessions now
  match st.ownerSessions.lookup token with
  | none => (false, st)
  | some s => (s.expiresAt > now, st)

def revokeOwnerSession (st : OwnerState) (token : String) : Bool × OwnerState :=
  (token ∈ st.ownerSessions, { st with ownerSessions := st.ownerSessions.erase token })

def recoveryLocked (st : OwnerState) (now : Instant) : Option Nat :=
  match st.recoveryLockUntil with
  | none => none
  | some lockUntil =>
      if lockUntil > now then
        some (max 1 (Instant.asSecs (Instant.since lockUntil now)))
      else
        none

def noteRecoveryFailure (st : OwnerState) (now : Instant) : OwnerState :=
  let failures := min (st.recoveryFailures + 1) (2 ^ 32 - 1)
  if failures ≥ 5 then
    { st with recoveryLockUntil := some (now + Instant.secs 60), recoveryFailures := 0 }
  else
    { st with recoveryFailures := failures }

def noteRecoverySuccess (st : OwnerState) : OwnerState :=
  { st with recoveryFailures := 0, recoveryLockUntil := none }

end OwnerState

/-! ## Handlers -/

/-- The JSON extractor of the web framework: `none` answers the request before the handler runs. -/
class JsonBody (α : Type) where
  extract : HeaderMap → Bytes → Option α

/-- `str::to_uppercase`, over all of Unicode. -/
class Unicode where
  toUppercase : String → String

structure ClaimRequest where
  displayName : String
  recoveryCode : Option String

structure RecoveryLoginRequest where
  recoveryCode : String

structure ClaimResponse where
  displayName : String
  recoveryCode : String
  deviceId : String
  claimedAtMs : Nat
  ownerToken : String
  expiresInSecs : Nat
  deriving DecidableEq

structure RecoveryLoginResponse where
  ownerToken : String
  expiresInSecs : Nat
  displayName : Option String
  deviceId : String
  deriving DecidableEq

structure OwnerSessionStatus where
  authenticated : Bool
  source : Option String
  expiresInSecs : Option Nat
  claimed : Bool
  displayName : Option String
  deriving DecidableEq

inductive Response
  | error (status : Nat) (message : String) (retryAfter : Option Nat)
  | claim (body : ClaimResponse)
  | login (body : RecoveryLoginResponse)
  | session (body : OwnerSessionStatus)
  | logout (revoked : Bool)
  /-- The extractor refused the body. -/
  | unprocessable
  /-- The answer of a handler that has no part in owner sessions. -/
  | answered
  deriving DecidableEq

/-- The token a successful claim or login hands out. -/
def Response.minted : Response → Option String
  | .claim body => some body.ownerToken
  | .login body => some body.ownerToken
  | _ => none

def hex32 (b : Bytes32) : String :=
  Text.hexEncode b.toList

/-- `random_token_hex(10)` cut into four groups of five. -/
def recoveryCodeNew (code : Bytes) : String :=
  let raw := (Text.hexEncode code).toList
  String.ofList (raw.take 5 ++ '-' :: (raw.drop 5).take 5 ++ '-' :: (raw.drop 10).take 5 ++
    '-' :: (raw.drop 15).take 5)

def hashRecovery [Primitives] [Unicode] (code : String) : String :=
  let norm := (Unicode.toUppercase (Text.trim code)).toList.filter fun c => c ≠ ' ' ∧ c ≠ '_'
  hex32 (Primitives.blake3 (utf8Bytes (String.ofList norm)))

/-- Constant-time-ish compare on hex strings. -/
def sameHash (got expected : String) : Bool :=
  let a := utf8Bytes got
  let b := utf8Bytes expected
  a.length = b.length ∧ (a.zip b).foldl (fun acc p => acc ||| (p.1 ^^^ p.2)) 0 = (0 : UInt8)

namespace OwnerState

variable [Primitives] [Unicode]

def claimNode (st : OwnerState) (draw : Draw) (req : ClaimRequest) : Response × OwnerState :=
  let name := Text.trim req.displayName
  if name = "" ∨ name.utf8ByteSize > 64 then
    (.error 400 "display_name required (1-64 chars)" none, st)
  else if st.claim.claimed then
    (.error 409 "node already claimed" none, st)
  else
    let code := (req.recoveryCode.bind Text.trimmed).getD (recoveryCodeNew draw.code)
    if code.utf8ByteSize < 8 then
      (.error 400 "recovery_code too short" none, st)
    else
      match draw.persist with
      | .error e =>
          -- Roll back in-memory claim so a retry can succeed.
          (.error 500 e none, { st with claim := ClaimState.default })
      | .ok () =>
          let claim : ClaimState :=
            { claimed := true
              displayName := some name
              recoveryHash := some (hashRecovery code)
              claimedAtMs := some draw.nowMs }
          let ((ownerToken, expiresInSecs), st) :=
            { st with claim := claim }.mintOwnerSession draw "claim"
          (.claim
            { displayName := name
              recoveryCode := code
              deviceId := hex32 st.deviceId.bytes
              claimedAtMs := draw.nowMs
              ownerToken := ownerToken
              expiresInSecs := expiresInSecs }, st)

def recoveryLogin (st : OwnerState) (draw : Draw) (req : RecoveryLoginRequest) :
    Response × OwnerState :=
  let code := Text.trim req.recoveryCode
  if code.utf8ByteSize < 8 then
    (.error 400 "recovery_code required" none, st)
  else
    match st.recoveryLocked draw.now with
    | some secs =>
        (.error 429 ("too many failed attempts; retry in " ++ toString secs ++ "s")
          (some (max secs 1)), st)
    | none =>
        if st.claim.claimed = false then
          (.error 409 "node not claimed" none, st)
        else
          match st.claim.recoveryHash with
          | none => (.error 409 "recovery login not configured" none, st)
          | some expected =>
              if sameHash (hashRecovery code) expected = false then
                (.error 401 "invalid recovery code" none, st.noteRecoveryFailure draw.now)
              else
                let ((ownerToken, expiresInSecs), st) :=
                  st.noteRecoverySuccess.mintOwnerSession draw "recovery"
                (.login
                  { ownerToken := ownerToken
                    expiresInSecs := expiresInSecs
                    displayName := st.claim.displayName
                    deviceId := hex32 st.deviceId.bytes }, st)

def ownerSessionStatus (st : OwnerState) (now : Instant) (headers : HeaderMap) :
    Response × OwnerState :=
  let signedOut : OwnerSessionStatus :=
    { authenticated := false
      source := none
      expiresInSecs := none
      claimed := st.claim.claimed
      displayName := st.claim.displayName }
  match extractOwnerToken headers with
  | none => (.session signedOut, st)
  | some token =>
      match st.ownerSessionValid now token with
      | (false, st) => (.session signedOut, st)
      | (true, st) =>
          let session := st.ownerSessions.lookup token
          (.session
            { signedOut with
              authenticated := true
              source := session.map OwnerSession.source
              expiresInSecs := session.map fun s => Instant.asSecs (Instant.since s.expiresAt now) },
            st)

def ownerLogout (st : OwnerState) (headers : HeaderMap) : Response × OwnerState :=
  match extractOwnerToken headers with
  | none => (.error 400 "owner token required" none, st)
  | some token =>
      let (revoked, st) := st.revokeOwnerSession token
      (.logout revoked, st)

/-- `require_owner_token` (and `require_owner`): the refusal, if there is one. -/
def requireOwnerToken (st : OwnerState) (now : Instant) (token : Option String) :
    Option Response × OwnerState :=
  match token with
  | none =>
      (some (.error 401 "owner session required (Authorization: Bearer <token>)" none), st)
  | some token =>
      match st.ownerSessionValid now token with
      | (false, st) => (some (.error 401 "invalid or expired owner session" none), st)
      | (true, st) => (none, st)

end OwnerState

/-! ## Routes -/

/-- The handlers by their part in owner sessions. -/
inductive Handler
  | claimNode
  | recoveryLogin
  | ownerSessionStatus
  | ownerLogout
  /-- Calls `require_owner` or `require_owner_if_remote` itself. -/
  | guarded
  | plain
  deriving DecidableEq

def routes : List (String × String × Handler) :=
  [("GET", "/health", .plain),
    ("GET", "/v1/status", .plain),
    ("GET", "/v1/claim", .plain),
    ("POST", "/v1/claim", .claimNode),
    ("POST", "/v1/recovery/login", .recoveryLogin),
    ("GET", "/v1/owner/session", .ownerSessionStatus),
    ("DELETE", "/v1/owner/session", .ownerLogout),
    ("GET", "/v1/pair", .plain),
    ("POST", "/v1/pair", .guarded),
    ("POST", "/v1/pair/redeem", .plain),
    ("GET", "/v1/devices", .plain),
    ("POST", "/v1/devices/link-secondary", .guarded),
    ("POST", "/v1/passkeys/register/begin", .plain),
    ("POST", "/v1/passkeys/register/finish", .plain),
    ("POST", "/v1/passkeys/auth/begin", .plain),
    ("POST", "/v1/passkeys/auth/finish", .plain),
    ("GET", "/v1/passkeys", .plain),
    ("POST", "/v1/peers", .guarded),
    ("POST", "/v1/rooms", .plain),
    ("POST", "/v1/messages", .plain),
    ("POST", "/v1/messages/list", .plain),
    ("POST", "/v1/messages/wait", .plain),
    ("GET", "/v1/messages/stream", .plain),
    ("POST", "/v1/sync/offer", .plain),
    ("POST", "/v1/sync/ingest", .plain),
    ("POST", "/v1/sync/peer", .plain),
    ("GET", "/v1/e2ee/olm-keys", .plain),
    ("POST", "/v1/e2ee/trust-keys", .guarded),
    ("POST", "/v1/e2ee/export-session", .plain),
    ("POST", "/v1/e2ee/import-session", .plain),
    ("POST", "/v1/e2ee/import-olm", .plain),
    ("POST", "/v1/e2ee/share-session", .plain),
    ("GET", "/v1/p2p", .plain),
    ("GET", "/v1/remote", .plain),
    ("POST", "/v1/relay/poll", .guarded),
    ("POST", "/v1/relay/push", .guarded),
    ("GET", "/v1/wifi", .plain),
    ("POST", "/v1/wifi/scan", .guarded),
    ("POST", "/v1/wifi/apply", .guarded),
    ("GET", "/v1/ota", .plain),
    ("POST", "/v1/ota/check", .guarded),
    ("POST", "/v1/ota/apply", .guarded),
    ("POST", "/v1/ota/rollback", .guarded)]

/-- The handler of a request; a `GET` route answers `HEAD` as well. -/
def route (method path : String) : Option Handler :=
  (routes.find? fun r => r.2.1 = path ∧
    (r.1 = method ∨ r.1 = "GET" ∧ method = "HEAD")).map fun r => r.2.2

/-- A request with what its handling draws; `checks` says whether a guarded handler gets as far as its
own owner check. -/
structure Arrival where
  req : Request
  draw : Draw
  checks : Bool

structure RpcState where
  inner : OwnerState
  /-- When true, non-public routes require owner session. -/
  requireOwner : Bool
  rateLimits : RateLimitBook
  rateLimitEnabled : Bool

inductive Reply
  /-- The middleware answers. -/
  | refused (resp : Response)
  /-- The request reaches its handler. -/
  | reached (resp : Response)
  deriving DecidableEq

section Serve

variable [Primitives] [Unicode] [JsonBody ClaimRequest] [JsonBody RecoveryLoginRequest]

def OwnerState.handle (st : OwnerState) (a : Arrival) : Response × OwnerState :=
  match route a.req.method a.req.path with
  | none => (.error 404 "" none, st)
  | some .claimNode =>
      match JsonBody.extract a.req.headers a.req.body with
      | none => (.unprocessable, st)
      | some req => st.claimNode a.draw req
  | some .recoveryLogin =>
      match JsonBody.extract a.req.headers a.req.body with
      | none => (.unprocessable, st)
      | some req => st.recoveryLogin a.draw req
  | some .ownerSessionStatus => st.ownerSessionStatus a.draw.now a.req.headers
  | some .ownerLogout => st.ownerLogout a.req.headers
  | some .guarded =>
      if a.checks then
        match st.requireOwnerToken a.draw.now (extractOwnerToken a.req.headers) with
        | (some resp, st) => (resp, st)
        | (none, st) => (.answered, st)
      else
        (.answered, st)
  | some .plain => (.answered, st)

/-- Rate limit first (including public routes). -/
def RpcState.checkRate (st : RpcState) (now : Instant) (req : Request) :
    Option Response × RpcState :=
  if st.rateLimitEnabled then
    match st.rateLimits.check now req.ip req.path (rateRuleFor req.path req.method) with
    | (.error retry, book) =>
        let secs := max 1 (Instant.asSecs retry)
        (some (.error 429 ("rate limit exceeded; retry in ~" ++ toString secs ++ "s") (some secs)),
          { st with rateLimits := book })
    | (.ok (), book) => (none, { st with rateLimits := book })
  else
    (none, st)

/-- Full owner authn when non-loopback gate is on. -/
def RpcState.checkOwner (st : RpcState) (now : Instant) (req : Request) :
    Option Response × RpcState :=
  if st.requireOwner = true ∧ isPublicPath req.method req.path = false then
    -- Allow owner_token query for EventSource (cannot set Authorization).
    let token := extractOwnerTokenFlexible req.headers (req.query.bind queryOwnerToken)
    let (refusal, inner) := st.inner.requireOwnerToken now token
    (refusal, { st with inner := inner })
  else
    (none, st)

/-- `authn_rate_middleware`, and the handler when it lets the request through. -/
def RpcState.serve (st : RpcState) (a : Arrival) : Reply × RpcState :=
  match st.checkRate a.draw.now a.req with
  | (some resp, st) => (.refused resp, st)
  | (none, st) =>
      match st.checkOwner a.draw.now a.req with
      | (some resp, st) => (.refused resp, st)
      | (none, st) =>
          let (resp, inner) := st.inner.handle a
          (.reached resp, { st with inner := inner })

end Serve

end Node
end Thunderducks
