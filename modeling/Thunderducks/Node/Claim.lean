import Thunderducks.Lib.Files
import Thunderducks.Lib.JsonPretty
import Thunderducks.Node.OwnerSessions

/-!
# Claim — the claim of a node in memory and in `claim.json` (`td-node/src/rpc.rs`, `persist.rs`)

`claim_node` sets the claim in memory, writes `claim.json` and takes the claim back when the write
fails; every boot reads the file again.  `Kept` says that the file and the memory of the running process
hold one claim.  Every request keeps it, whatever file call fails and wherever the process dies, so the
claim of a data dir is written once (`claim_node_once`).
-/

namespace Thunderducks
namespace Node

open Lib Event

/-! ## The document -/

/-- On-disk claim document. Recovery code plaintext is never stored. -/
structure ClaimDisk where
  claimed : Bool
  displayName : Option String
  recoveryHash : Option String
  claimedAtMs : Option Nat
  deriving DecidableEq

namespace ClaimDisk

def ofState (c : ClaimState) : ClaimDisk :=
  { claimed := c.claimed
    displayName := c.displayName
    recoveryHash := c.recoveryHash
    claimedAtMs := c.claimedAtMs }

def toState (d : ClaimDisk) : ClaimState :=
  { claimed := d.claimed
    displayName := d.displayName
    recoveryHash := d.recoveryHash
    claimedAtMs := d.claimedAtMs }

@[simp] theorem toState_ofState (c : ClaimState) : toState (ofState c) = c :=
  rfl

/-- A field that is skipped when it is `None`. -/
def optional (k : String) : Option Json → List (String × Json)
  | none => []
  | some v => [(k, v)]

def fields (d : ClaimDisk) : List (String × Json) :=
  ("claimed", .bool d.claimed) ::
    (optional "display_name" (d.displayName.map Json.str) ++
      optional "recovery_hash" (d.recoveryHash.map Json.str) ++
      optional "claimed_at_ms" (d.claimedAtMs.map Json.num))

instance : Serialize ClaimDisk where
  toJson d := .obj d.fields

theorem fields_ne_nil (d : ClaimDisk) : d.fields ≠ [] := by
  simp [fields]

theorem optional_scalar {k : String} {v : Option Json} (h : ∀ w ∈ v, w.Scalar) :
    ∀ f ∈ optional k v, f.2.Scalar := by
  intro f hf
  cases v with
  | none => cases hf
  | some w =>
      rw [List.mem_singleton.1 hf]
      exact h w rfl

theorem fields_scalar (d : ClaimDisk) : ∀ f ∈ d.fields, f.2.Scalar := by
  intro f hf
  simp only [fields, List.mem_cons, List.mem_append] at hf
  rcases hf with rfl | (hname | hhash) | hms
  · trivial
  · refine optional_scalar (fun w hw => ?_) f hname
    rcases Option.map_eq_some_iff.1 hw with ⟨s, _, rfl⟩
    trivial
  · refine optional_scalar (fun w hw => ?_) f hhash
    rcases Option.map_eq_some_iff.1 hw with ⟨s, _, rfl⟩
    trivial
  · refine optional_scalar (fun w hw => ?_) f hms
    rcases Option.map_eq_some_iff.1 hw with ⟨n, _, rfl⟩
    trivial

/-- The value of a field of a document. -/
theorem lookup_fields (d : ClaimDisk) :
    d.fields.lookup "claimed" = some (.bool d.claimed) ∧
      d.fields.lookup "display_name" = d.displayName.map Json.str ∧
      d.fields.lookup "recovery_hash" = d.recoveryHash.map Json.str ∧
      d.fields.lookup "claimed_at_ms" = d.claimedAtMs.map Json.num := by
  rcases d with ⟨claimed, name, hash, ms⟩
  cases name <;> cases hash <;> cases ms <;> simp [fields, optional, List.lookup_cons]

/-- The fields tell the documents apart. -/
theorem fields_injective {a b : ClaimDisk} (h : a.fields = b.fields) : a = b := by
  rcases lookup_fields a with ⟨hclaimed, hname, hhash, hms⟩
  rcases lookup_fields b with ⟨hclaimed', hname', hhash', hms'⟩
  rw [← h] at hclaimed' hname' hhash' hms'
  have hstr : Function.Injective Json.str := fun _ _ heq => Json.str.inj heq
  have hnum : Function.Injective Json.num := fun _ _ heq => Json.num.inj heq
  have h1 : a.claimed = b.claimed :=
    Json.bool.inj (Option.some.inj (hclaimed.symm.trans hclaimed'))
  have h2 : a.displayName = b.displayName := Option.map_injective hstr (hname.symm.trans hname')
  have h3 : a.recoveryHash = b.recoveryHash := Option.map_injective hstr (hhash.symm.trans hhash')
  have h4 : a.claimedAtMs = b.claimedAtMs := Option.map_injective hnum (hms.symm.trans hms')
  cases a
  cases b
  simp only at h1 h2 h3 h4
  rw [h1, h2, h3, h4]

/-- The time is a `u64`. -/
def Fits (d : ClaimDisk) : Prop :=
  ∀ ms ∈ d.claimedAtMs, ms < 2 ^ 64

end ClaimDisk

def claimFile : String := "claim.json"

def claimTmp : String := "claim.json.tmp"

/-- What `claim.json` holds after `save_claim`. -/
def claimText (claim : ClaimState) : Bytes :=
  terminated (toVecPretty (ClaimDisk.ofState claim))

/-- `serde_json::from_str` reads a document that was written. -/
class ReadsDocument [Deserialize ClaimDisk] : Prop where
  read : ∀ d : ClaimDisk, d.Fits → Deserialize.fromSlice (terminated (toVecPretty d)) = some d

namespace NodeDataDir

/-- The file calls of `save_claim`. -/
def saveClaim (claim : ClaimState) : List FileOp :=
  .createDirAll :: atomicWriteBytes claimTmp claimFile (toVecPretty (ClaimDisk.ofState claim))

/-- `load_claim`, where a file that is there may turn out not to be readable. -/
def loadClaim [Deserialize ClaimDisk] (files : Files) (readable : Bool) : Option ClaimState :=
  match files claimFile with
  | none => some ClaimState.default
  | some bs => if readable then (Deserialize.fromSlice bs).map ClaimDisk.toState else none

/-- The other documents that are written the same way. -/
inductive SideFile
  | metaFile
  | e2eeFile

def SideFile.path : SideFile → String
  | .metaFile => "meta.json"
  | .e2eeFile => "e2ee.json"

def SideFile.tmp : SideFile → String
  | .metaFile => "meta.json.tmp"
  | .e2eeFile => "e2ee.json.tmp"

/-- The file calls of `save_meta` and `save_e2ee`. -/
def saveSide (side : SideFile) (body : Bytes) : List FileOp :=
  .createDirAll :: atomicWriteBytes side.tmp side.path body

section Save

variable {files : Files} {claim : ClaimState} {fault : Option Fault}

theorem saveClaim_ok (h : (FileOp.perform files (saveClaim claim) fault).1 = .ok ()) :
    (FileOp.perform files (saveClaim claim) fault).2 claimFile = some (claimText claim) :=
  perform_atomicWriteBytes_ok [.createDirAll] (by decide) h

theorem saveClaim_error {e : String}
    (h : (FileOp.perform files (saveClaim claim) fault).1 = .error e) :
    (FileOp.perform files (saveClaim claim) fault).2 claimFile = files claimFile := by
  have hbefore : ∀ op ∈ [FileOp.createDirAll], op.Spares claimFile := by
    intro op hop
    rw [List.mem_singleton.1 hop]
    trivial
  exact perform_atomicWriteBytes_error [.createDirAll] (by decide) hbefore h

theorem saveSide_claimFile (side : SideFile) (body : Bytes) :
    (FileOp.perform files (saveSide side body) fault).2 claimFile = files claimFile := by
  have htmp : side.tmp ≠ claimFile := by
    cases side <;> decide
  have hpath : side.path ≠ claimFile := by
    cases side <;> decide
  refine FileOp.perform_spares fun op hop => ?_
  rcases List.mem_cons.1 hop with rfl | hop'
  · trivial
  · exact atomicWriteBytes_spares htmp hpath op hop'

end Save

end NodeDataDir

/-! ## A request and the file -/

namespace OwnerState

section Memory

variable {st : OwnerState} {draw : Draw} {files : Files} {fault : Option Fault}
  {req : ClaimRequest}

theorem claim_of_purged {st' : OwnerState} {now : Instant}
    (h : st' = st.purgeExpiredOwnerSessions now) : st'.claim = st.claim := by
  rw [h]
  rfl

/-- Minting a session leaves the claim alone. -/
theorem mint_claim (source : String) : (st.mintOwnerSession draw source).2.claim = st.claim := by
  unfold mintOwnerSession evictOldest
  dsimp only
  split
  · split <;> rfl
  · rfl

/-- `persist_claim`: the outcome and the files. -/
def persistClaim (st : OwnerState) (files : Files) (fault : Option Fault) :
    Except String Unit × Files :=
  match FileOp.perform files (NodeDataDir.saveClaim st.claim) fault with
  | (.error e, files) => (.error ("persist claim: io: " ++ e), files)
  | (.ok (), files) => (.ok (), files)

theorem persistClaim_ok {files' : Files} (h : st.persistClaim files fault = (.ok (), files')) :
    files' claimFile = some (claimText st.claim) := by
  unfold persistClaim at h
  split at h
  · cases h
  next files'' hout =>
    cases h
    have hok := @NodeDataDir.saveClaim_ok files st.claim fault
    rw [hout] at hok
    exact hok rfl

theorem persistClaim_error {e : String} {files' : Files}
    (h : st.persistClaim files fault = (.error e, files')) :
    files' claimFile = files claimFile := by
  unfold persistClaim at h
  split at h
  next e' files'' hout =>
    cases h
    have herr := @NodeDataDir.saveClaim_error files st.claim fault e'
    rw [hout] at herr
    exact herr rfl
  · cases h

/-- What `claim_node` checks before it touches the claim: the answer, or the name and the code. -/
def claimAsked (st : OwnerState) (draw : Draw) (req : ClaimRequest) :
    Except Response (String × String) :=
  let name := Text.trim req.displayName
  if name = "" ∨ name.utf8ByteSize > 64 then
    .error (.error 400 "display_name required (1-64 chars)" none)
  else if st.claim.claimed then
    .error (.error 409 "node already claimed" none)
  else
    let code := (req.recoveryCode.bind Text.trimmed).getD (recoveryCodeNew draw.code)
    if code.utf8ByteSize < 8 then
      .error (.error 400 "recovery_code too short" none)
    else
      .ok (name, code)

/-- What is answered before the write is no success. -/
theorem claimAsked_error {resp : Response} (h : st.claimAsked draw req = .error resp)
    (body : ClaimResponse) : resp ≠ .claim body := by
  unfold claimAsked at h
  dsimp only at h
  intro hresp
  subst hresp
  split at h
  · cases h
  · split at h
    · cases h
    · split at h <;> cases h

end Memory

section Persist

variable [Primitives] [Unicode]

/-- The claim of a name and a code. -/
def claimOf (draw : Draw) (name code : String) : ClaimState :=
  { claimed := true
    displayName := some name
    recoveryHash := some (hashRecovery code)
    claimedAtMs := some draw.nowMs }

/-- `claim_node` with the file it writes. -/
def claimNodeAt (st : OwnerState) (files : Files) (draw : Draw) (fault : Option Fault)
    (req : ClaimRequest) : Response × OwnerState × Files :=
  match st.claimAsked draw req with
  | .error resp => (resp, st, files)
  | .ok (name, code) =>
      let st := { st with claim := claimOf draw name code }
      match st.persistClaim files fault with
      | (.error e, files) =>
          -- Roll back in-memory claim so a retry can succeed.
          (.error 500 e none, { st with claim := ClaimState.default }, files)
      | (.ok (), files) =>
          let ((ownerToken, expiresInSecs), st) := st.mintOwnerSession draw "claim"
          (.claim
            { displayName := name
              recoveryCode := code
              deviceId := hex32 st.deviceId.bytes
              claimedAtMs := draw.nowMs
              ownerToken := ownerToken
              expiresInSecs := expiresInSecs }, st, files)

/-- The claim that a request to `claim_node` writes, if it gets that far. -/
def claimToSave (st : OwnerState) (draw : Draw) (req : ClaimRequest) : Option ClaimState :=
  match st.claimAsked draw req with
  | .error _ => none
  | .ok (name, code) => some (claimOf draw name code)

variable {st : OwnerState} {files : Files} {draw : Draw} {fault : Option Fault} {req : ClaimRequest}

/-- How the write of a request went. -/
def claimPersisted (st : OwnerState) (files : Files) (draw : Draw) (fault : Option Fault)
    (req : ClaimRequest) : Except String Unit :=
  match st.claimToSave draw req with
  | none => .ok ()
  | some claim => ({ st with claim := claim }.persistClaim files fault).1

/-- The handler with its file is the handler that is told how the write went. -/
theorem claimNodeAt_eq_claimNode :
    let drawn := { draw with persist := st.claimPersisted files draw fault req }
    (st.claimNodeAt files draw fault req).1 = (st.claimNode drawn req).1 ∧
      (st.claimNodeAt files draw fault req).2.1 = (st.claimNode drawn req).2 := by
  dsimp only
  unfold claimNodeAt claimNode claimPersisted claimToSave claimAsked
  dsimp only
  by_cases hname : Text.trim req.displayName = "" ∨ (Text.trim req.displayName).utf8ByteSize > 64
  · simp only [if_pos hname, and_self]
  · by_cases hclaimed : st.claim.claimed = true
    · simp only [if_neg hname, if_pos hclaimed, and_self]
    · by_cases hcode : ((req.recoveryCode.bind Text.trimmed).getD
          (recoveryCodeNew draw.code)).utf8ByteSize < 8
      · simp only [if_neg hname, if_neg hclaimed, if_pos hcode, and_self]
      · simp only [if_neg hname, if_neg hclaimed, if_neg hcode]
        split
        next e files' hout => simp only [hout, and_self]
        next files' hout => 
          simp only [hout]
          exact ⟨rfl, rfl⟩

/-- Only a node that is not claimed writes a claim. -/
theorem claimToSave_spec {claim : ClaimState} (h : st.claimToSave draw req = some claim) :
    st.claim.claimed = false ∧ ∃ name code, claim = claimOf draw name code := by
  unfold claimToSave claimAsked at h
  dsimp only at h
  split at h
  · cases h
  next name code hasked =>
    split at hasked
    · cases hasked
    · split at hasked
      · cases hasked
      next hclaimed =>
        cases h
        exact ⟨by simpa using hclaimed, name, code, rfl⟩

/-- What `claim_node` may do to the claim and its file. -/
inductive ClaimTurn (st : OwnerState) (files : Files) (draw : Draw) (saved : Option ClaimState) :
    Response → OwnerState → Files → Prop
  /-- It answers before it touches the claim, or another handler answers. -/
  | stays {resp : Response} {st' : OwnerState} : saved = none → (∀ body, resp ≠ .claim body) →
      st'.claim = st.claim → ClaimTurn st files draw saved resp st' files
  /-- The write fails and the claim is taken back. -/
  | fails {e : String} {files' : Files} : saved = none →
      st.claim.claimed = false → files' claimFile = files claimFile →
      ClaimTurn st files draw saved (.error 500 e none) { st with claim := ClaimState.default } files'
  /-- The claim is written and a session minted. -/
  | claims {body : ClaimResponse} {st' : OwnerState} {files' : Files} :
      saved = some (claimOf draw body.displayName body.recoveryCode) → st.claim.claimed = false →
      body.claimedAtMs = draw.nowMs → st'.claim = claimOf draw body.displayName body.recoveryCode →
      files' claimFile = some (claimText (claimOf draw body.displayName body.recoveryCode)) →
      ClaimTurn st files draw saved (.claim body) st' files'

/-- The claim whose write is completed. -/
def claimSaved (st : OwnerState) (files : Files) (draw : Draw) (fault : Option Fault)
    (req : ClaimRequest) : Option ClaimState :=
  match st.claimToSave draw req with
  | none => none
  | some claim =>
      match ({ st with claim := claim }.persistClaim files fault).1 with
      | .error _ => none
      | .ok () => some claim

namespace ClaimTurn

variable {files' : Files} {saved : Option ClaimState} {resp : Response} {st' : OwnerState}

theorem saved_eq_none (h : ClaimTurn st files draw saved resp st' files')
    (hclaimed : st.claim.claimed = true) : saved = none := by
  cases h with
  | stays hsaved _ _ => exact hsaved
  | fails hsaved _ _ => exact hsaved
  | claims _ hfree _ _ _ =>
      rw [hclaimed] at hfree
      cases hfree

theorem saved_of_success {body : ClaimResponse}
    (h : ClaimTurn st files draw saved (.claim body) st' files') :
    saved = some (claimOf draw body.displayName body.recoveryCode) ∧
      body.claimedAtMs = draw.nowMs := by
  cases h with
  | stays _ hresp _ => exact absurd rfl (hresp body)
  | claims hsaved _ hms _ _ => exact ⟨hsaved, hms⟩

/-- Without success everything is as it was, the rollback included. -/
theorem unchanged (h : ClaimTurn st files draw saved resp st' files')
    (hdefault : st.claim.claimed = false → st.claim = ClaimState.default)
    (hresp : ∀ body, resp ≠ .claim body) :
    files' claimFile = files claimFile ∧ st'.claim = st.claim := by
  cases h with
  | stays _ _ hclaim => exact ⟨rfl, hclaim⟩
  | fails _ hfree hfile => exact ⟨hfile, (hdefault hfree).symm⟩
  | claims _ _ _ _ _ => exact absurd rfl (hresp _)

end ClaimTurn

theorem claimNodeAt_turn :
    ClaimTurn st files draw (st.claimSaved files draw fault req)
      (st.claimNodeAt files draw fault req).1 (st.claimNodeAt files draw fault req).2.1
      (st.claimNodeAt files draw fault req).2.2 := by
  have hspec := @claimToSave_spec _ _ st draw req
  unfold claimSaved claimNodeAt
  unfold claimToSave at hspec ⊢
  cases hasked : st.claimAsked draw req with
  | error resp =>
      exact ClaimTurn.stays rfl (claimAsked_error hasked) rfl
  | ok asked =>
      rcases asked with ⟨name, code⟩
      rw [hasked] at hspec
      have hfree : st.claim.claimed = false := (hspec rfl).1
      dsimp only
      cases hout : { st with claim := claimOf draw name code }.persistClaim files fault with
      | mk outcome files' =>
          cases outcome with
          | error e => exact ClaimTurn.fails rfl hfree (persistClaim_error hout)
          | ok u =>
              have hfile := persistClaim_ok hout
              exact ClaimTurn.claims rfl hfree rfl (mint_claim "claim") hfile

end Persist

/-! ## All requests -/

section Handle

variable [Primitives] [Unicode] [JsonBody ClaimRequest] [JsonBody RecoveryLoginRequest]

/-- A request to any route, with the file that `claim_node` writes. -/
def handleAt (st : OwnerState) (files : Files) (a : Arrival) (fault : Option Fault) :
    Response × OwnerState × Files :=
  if route a.req.method a.req.path = some .claimNode then
    match JsonBody.extract a.req.headers a.req.body with
    | none => (.unprocessable, st, files)
    | some req => st.claimNodeAt files a.draw fault req
  else
    let (resp, st) := st.handle a
    (resp, st, files)

/-- The claim whose write a request completes. -/
def savedAt (st : OwnerState) (files : Files) (a : Arrival) (fault : Option Fault) :
    Option ClaimState :=
  if route a.req.method a.req.path = some .claimNode then
    (JsonBody.extract a.req.headers a.req.body).bind fun req =>
      st.claimSaved files a.draw fault req
  else
    none

variable {st : OwnerState}

omit [JsonBody ClaimRequest] [JsonBody RecoveryLoginRequest] in
theorem recoveryLogin_claim {draw : Draw} {req : RecoveryLoginRequest} :
    (st.recoveryLogin draw req).2.claim = st.claim ∧
      ∀ body, (st.recoveryLogin draw req).1 ≠ .claim body := by
  unfold recoveryLogin
  dsimp only
  split
  · exact ⟨rfl, fun _ h => by cases h⟩
  · split
    · exact ⟨rfl, fun _ h => by cases h⟩
    · split
      · exact ⟨rfl, fun _ h => by cases h⟩
      · split
        · exact ⟨rfl, fun _ h => by cases h⟩
        · split
          · refine ⟨?_, fun _ h => by cases h⟩
            unfold noteRecoveryFailure
            dsimp only
            split <;> rfl
          · exact ⟨mint_claim "recovery", fun _ h => by cases h⟩

omit [Primitives] [Unicode] [JsonBody ClaimRequest] [JsonBody RecoveryLoginRequest] in
theorem ownerSessionStatus_claim {now : Instant} {headers : HeaderMap} :
    (st.ownerSessionStatus now headers).2.claim = st.claim ∧
      ∀ body, (st.ownerSessionStatus now headers).1 ≠ .claim body := by
  unfold ownerSessionStatus
  dsimp only
  split
  · exact ⟨rfl, fun _ h => by cases h⟩
  next token _ =>
    have hpurge := (ownerSessionValid_spec st now token).1
    split
    next st' hvalid =>
      rw [hvalid] at hpurge
      exact ⟨claim_of_purged hpurge, fun _ h => by cases h⟩
    next st' hvalid =>
      rw [hvalid] at hpurge
      exact ⟨claim_of_purged hpurge, fun _ h => by cases h⟩

omit [Primitives] [Unicode] [JsonBody ClaimRequest] [JsonBody RecoveryLoginRequest] in
theorem requireOwnerToken_claim {now : Instant} {token : Option String} :
    (st.requireOwnerToken now token).2.claim = st.claim ∧
      ∀ body, (st.requireOwnerToken now token).1 ≠ some (.claim body) := by
  have hst := (requireOwnerToken_spec st now token).1
  constructor
  · rcases hst with hsame | hpurge
    · exact congrArg OwnerState.claim hsame
    · exact claim_of_purged hpurge
  · intro body
    unfold requireOwnerToken
    split
    · exact fun h => by cases h
    · split
      · exact fun h => by cases h
      · exact fun h => by cases h

/-- Only `claim_node` sets the claim. -/
theorem handle_claim {a : Arrival} (h : route a.req.method a.req.path ≠ some .claimNode) :
    (st.handle a).2.claim = st.claim ∧ ∀ body, (st.handle a).1 ≠ .claim body := by
  unfold handle
  split
  · exact ⟨rfl, fun _ h => by cases h⟩
  next hroute => exact absurd hroute h
  · split
    · exact ⟨rfl, fun _ h => by cases h⟩
    · exact recoveryLogin_claim
  · exact ownerSessionStatus_claim
  · unfold ownerLogout
    split
    · exact ⟨rfl, fun _ h => by cases h⟩
    · exact ⟨rfl, fun _ h => by cases h⟩
  · split
    · have hclaim := @requireOwnerToken_claim st a.draw.now (extractOwnerToken a.req.headers)
      split
      next resp st' hreq =>
        rw [hreq] at hclaim
        exact ⟨hclaim.1, fun body h => hclaim.2 body (congrArg some h)⟩
      next st' hreq =>
        rw [hreq] at hclaim
        exact ⟨hclaim.1, fun _ h => by cases h⟩
    · exact ⟨rfl, fun _ h => by cases h⟩
  · exact ⟨rfl, fun _ h => by cases h⟩

theorem handleAt_turn (st : OwnerState) (files : Files) (a : Arrival) (fault : Option Fault) :
    ClaimTurn st files a.draw (st.savedAt files a fault) (st.handleAt files a fault).1
      (st.handleAt files a fault).2.1 (st.handleAt files a fault).2.2 := by
  unfold savedAt handleAt
  by_cases hroute : route a.req.method a.req.path = some .claimNode
  · simp only [if_pos hroute]
    cases JsonBody.extract (α := ClaimRequest) a.req.headers a.req.body with
    | none => exact ClaimTurn.stays rfl (fun _ h => by cases h) rfl
    | some req =>
        rw [Option.bind_some]
        dsimp only
        exact claimNodeAt_turn
  · simp only [if_neg hroute]
    rcases handle_claim hroute with ⟨hclaim, hresp⟩
    exact ClaimTurn.stays rfl hresp hclaim

end Handle

end OwnerState

/-! ## A data dir and its process -/

/-- The data dir, and the process that runs on it. -/
structure Pond where
  files : Files
  running : Option OwnerState

/-- What may happen next.  A request holds the session's lock until it is answered, so requests come one
after the other; only the process can die in the middle of one. -/
inductive Action
  /-- A request, with the file call that fails. -/
  | request (a : Arrival) (fault : Option Fault)
  /-- The process dies inside a request: after the file calls before the fault, or after all of them. -/
  | died (a : Arrival) (fault : Option Fault)
  | stop
  /-- `load_from_data_dir`: `others` says whether the other files could be loaded. -/
  | boot (deviceId : DeviceId) (readable others : Bool)
  /-- Another handler writes one of the other documents. -/
  | save (side : NodeDataDir.SideFile) (body : Bytes) (fault : Option Fault)

/-- The clock of a request is a `u64`. -/
def Action.Timely : Action → Prop
  | .request a _ => a.draw.nowMs < 2 ^ 64
  | .died a _ => a.draw.nowMs < 2 ^ 64
  | _ => True

namespace Pond

/-- A data dir that no process has run on. -/
def Fresh (p : Pond) : Prop :=
  p.files claimFile = none ∧ p.running = none

/-- The file and the memory hold one claim. -/
structure Kept (p : Pond) (claim : ClaimState) : Prop where
  file : p.files claimFile = none ∧ claim = ClaimState.default ∨
    p.files claimFile = some (claimText claim) ∧ claim.claimed = true ∧
      (ClaimDisk.ofState claim).Fits
  memory : ∀ st ∈ p.running, st.claim = claim

namespace Kept

variable {p : Pond} {claim : ClaimState}

theorem eq_default (h : Kept p claim) (hfree : claim.claimed = false) :
    claim = ClaimState.default := by
  rcases h.file with ⟨_, hclaim⟩ | ⟨_, hclaimed, _⟩
  · exact hclaim
  · rw [hfree] at hclaimed
    cases hclaimed

theorem fresh (h : p.Fresh) : Kept p ClaimState.default :=
  ⟨Or.inl ⟨h.1, rfl⟩, by simp [h.2]⟩

/-- Where the file is the old one and the process holds the old claim or is gone. -/
theorem same (h : Kept p claim) {q : Pond} (hfile : q.files claimFile = p.files claimFile)
    (hmem : ∀ st ∈ q.running, st.claim = claim) : Kept q claim := by
  refine ⟨?_, hmem⟩
  rw [hfile]
  exact h.file

/-- A process that dies leaves the file. -/
theorem dead (h : Kept p claim) : Kept { p with running := none } claim :=
  h.same rfl (by simp)

variable [Primitives] [Unicode]

/-- A request keeps the claim or, on a node without one, sets it in both places. -/
theorem turn (h : Kept p claim) {st st' : OwnerState} {draw : Draw} {saved : Option ClaimState}
    {resp : Response} {files' : Files} (hst : p.running = some st) (htime : draw.nowMs < 2 ^ 64)
    (hturn : OwnerState.ClaimTurn st p.files draw saved resp st' files') :
    Kept { files := files', running := some st' } (saved.getD claim) := by
  have hmem : st.claim = claim := h.memory st hst
  cases hturn with
  | stays hsaved hresp hclaim =>
      subst hsaved
      refine h.same rfl fun s hs => ?_
      cases hs
      exact hclaim.trans hmem
  | fails hsaved hfree hfile =>
      subst hsaved
      have hdefault : claim = ClaimState.default := h.eq_default (by rw [← hmem]; exact hfree)
      refine h.same hfile fun s hs => ?_
      cases hs
      exact hdefault.symm
  | claims hsaved hfree hms hclaim hfile =>
      subst hsaved
      refine ⟨Or.inr ⟨hfile, rfl, ?_⟩, fun s hs => ?_⟩
      · intro ms hmsmem
        cases hmsmem
        exact htime
      · cases hs
        exact hclaim

end Kept

section System

variable [Primitives] [Unicode] [JsonBody ClaimRequest] [JsonBody RecoveryLoginRequest]

/-- The answer to a request. -/
def response (p : Pond) : Action → Option Response
  | .request a fault => p.running.map fun st => (st.handleAt p.files a fault).1
  | _ => none

/-- The claim whose write an action completes. -/
def saved (p : Pond) : Action → Option ClaimState
  | .request a fault => p.running.bind fun st => st.savedAt p.files a fault
  | .died a fault => p.running.bind fun st => st.savedAt p.files a fault
  | _ => none

variable [Deserialize ClaimDisk]

def step (p : Pond) : Action → Pond
  | .request a fault =>
      match p.running with
      | none => p
      | some st =>
          let (_, st, files) := st.handleAt p.files a fault
          { files := files, running := some st }
  | .died a fault =>
      match p.running with
      | none => p
      | some st =>
          let (_, _, files) := st.handleAt p.files a fault
          { files := files, running := none }
  | .stop => { p with running := none }
  | .boot deviceId readable others =>
      if others then
        { p with
          running := (NodeDataDir.loadClaim p.files readable).map (OwnerState.new deviceId) }
      else
        { p with running := none }
  | .save side body fault =>
      match p.running with
      | none => p
      | some _ =>
          { p with files := (FileOp.perform p.files (NodeDataDir.saveSide side body) fault).2 }

/-- The state after a run. -/
abbrev after (p : Pond) (as : List Action) : Pond :=
  Runs.run step p as

/-- The last claim written in a run. -/
def lastSaved (p : Pond) : List Action → ClaimState → ClaimState
  | [], claim => claim
  | act :: as, claim => lastSaved (p.step act) as ((p.saved act).getD claim)

section Runs

variable [ReadsDocument] {p : Pond} {claim : ClaimState} {act : Action}

omit [Primitives] [Unicode] [JsonBody ClaimRequest] [JsonBody RecoveryLoginRequest] in
/-- A boot reads back the claim that is kept. -/
theorem Kept.load (h : Kept p claim) : NodeDataDir.loadClaim p.files true = some claim := by
  unfold NodeDataDir.loadClaim
  rcases h.file with ⟨hfile, hclaim⟩ | ⟨hfile, _, hfits⟩
  · rw [hfile, hclaim]
  · have hread : Deserialize.fromSlice (claimText claim) = some (ClaimDisk.ofState claim) :=
      ReadsDocument.read _ hfits
    simp only [hfile, if_true, hread, Option.map_some, ClaimDisk.toState_ofState]

omit [Primitives] [Unicode] [JsonBody ClaimRequest] [JsonBody RecoveryLoginRequest] in
/-- A boot that cannot read the file starts nothing. -/
theorem Kept.load_mem (h : Kept p claim) {readable : Bool} {loaded : ClaimState}
    (hload : NodeDataDir.loadClaim p.files readable = some loaded) : loaded = claim := by
  cases readable with
  | true => exact (Option.some.inj (h.load.symm.trans hload)).symm
  | false =>
      unfold NodeDataDir.loadClaim at hload
      rcases h.file with ⟨hfile, hclaim⟩ | ⟨hfile, _, _⟩
      · simp only [hfile, Option.some.injEq] at hload
        rw [hclaim, hload]
      · simp [hfile] at hload

/-- What one action does: it keeps the claim, or it writes the first one. -/
theorem Kept.step (h : Kept p claim) (htime : act.Timely) :
    Kept (p.step act) ((p.saved act).getD claim) := by
  cases act with
  | request a fault =>
      cases hst : p.running with
      | none =>
          simp only [Pond.step, saved, hst, Option.bind_none, Option.getD_none]
          exact h
      | some st =>
          simp only [Pond.step, saved, hst, Option.bind_some]
          exact h.turn hst htime (st.handleAt_turn p.files a fault)
  | died a fault =>
      cases hst : p.running with
      | none =>
          simp only [Pond.step, saved, hst, Option.bind_none, Option.getD_none]
          exact h
      | some st =>
          simp only [Pond.step, saved, hst, Option.bind_some]
          exact (h.turn hst htime (st.handleAt_turn p.files a fault)).dead
  -- a process that is gone leaves the file
  | stop => exact h.dead
  | boot deviceId readable others =>
      unfold Pond.step
      cases others with
      | false => exact h.dead
      | true =>
          refine h.same rfl fun st hst => ?_
          rcases Option.map_eq_some_iff.1 hst with ⟨loaded, hload, rfl⟩
          exact h.load_mem hload
  | save side body fault =>
      cases hst : p.running with
      | none =>
          simp only [Pond.step, hst]
          exact h
      | some st =>
          simp only [Pond.step, hst]
          refine h.same (NodeDataDir.saveSide_claimFile side body) fun s hs => ?_
          exact h.memory s (hst.trans hs)

theorem Kept.after (h : Kept p claim) (as : List Action) (htime : ∀ act ∈ as, act.Timely) :
    Kept (p.after as) (p.lastSaved as claim) := by
  induction as generalizing p claim with
  | nil => exact h
  | cons act as ih =>
      have hstep : Kept (p.step act) ((p.saved act).getD claim) := h.step (htime act (by simp))
      exact ih hstep fun a ha => htime a (List.mem_cons_of_mem _ ha)

omit [Deserialize ClaimDisk] [ReadsDocument] in
/-- Nothing is written over a claim. -/
theorem Kept.saved_eq_none (h : Kept p claim) (hclaimed : claim.claimed = true) :
    p.saved act = none := by
  have hturn : ∀ (a : Arrival) (fault : Option Fault),
      (p.running.bind fun st => st.savedAt p.files a fault) = none := by
    intro a fault
    cases hst : p.running with
    | none => rfl
    | some st =>
        have hmem : st.claim = claim := h.memory st hst
        have hst' : st.claim.claimed = true := by
          rw [hmem]
          exact hclaimed
        exact (st.handleAt_turn p.files a fault).saved_eq_none hst'
  cases act with
  | request a fault => exact hturn a fault
  | died a fault => exact hturn a fault
  | _ => rfl

/-- A claim stays as it is for the rest of the run. -/
theorem Kept.lastSaved_eq (h : Kept p claim) (hclaimed : claim.claimed = true)
    (as : List Action) (htime : ∀ act ∈ as, act.Timely) : p.lastSaved as claim = claim := by
  induction as generalizing p with
  | nil => rfl
  | cons act as ih =>
      have hnone : p.saved act = none := h.saved_eq_none hclaimed
      have hstep := h.step (htime act (by simp))
      unfold lastSaved
      rw [hnone, Option.getD_none] at hstep ⊢
      exact ih hstep fun a ha => htime a (List.mem_cons_of_mem _ ha)

omit [ReadsDocument] [Deserialize ClaimDisk] in
/-- A success has written the claim that it answers. -/
theorem saved_of_success {body : ClaimResponse} (h : p.response act = some (.claim body)) :
    ∃ draw : Draw, p.saved act = some (OwnerState.claimOf draw body.displayName body.recoveryCode) ∧
      body.claimedAtMs = draw.nowMs := by
  cases act with
  | request a fault =>
      rcases Option.map_eq_some_iff.1 h with ⟨st, hst, hresp⟩
      have hturn := st.handleAt_turn p.files a fault
      rw [hresp] at hturn
      refine ⟨a.draw, ?_, hturn.saved_of_success.2⟩
      unfold saved
      rw [hst]
      exact hturn.saved_of_success.1
  | _ => cases h

/-- After a success the claim it answered is kept for the rest of the run. -/
theorem Kept.after_success (h : Kept p claim) {body : ClaimResponse} (hact : act.Timely)
    (hresp : p.response act = some (.claim body)) :
    ∃ kept : ClaimState, kept.claimed = true ∧ kept.displayName = some body.displayName ∧
      kept.recoveryHash = some (hashRecovery body.recoveryCode) ∧
      kept.claimedAtMs = some body.claimedAtMs ∧
      ∀ mid, (∀ a ∈ mid, a.Timely) → Kept (p.after (act :: mid)) kept := by
  rcases saved_of_success hresp with ⟨draw, hsaved, hms⟩
  have hstep := h.step hact
  rw [hsaved, Option.getD_some] at hstep
  refine ⟨OwnerState.claimOf draw body.displayName body.recoveryCode, rfl, rfl, rfl, ?_, ?_⟩
  · rw [hms]
    rfl
  · intro mid hmid
    have hafter := hstep.after mid hmid
    rw [hstep.lastSaved_eq rfl mid hmid] at hafter
    exact hafter

omit [ReadsDocument] in
/-- A request without success leaves the claim in both places. -/
theorem Kept.unchanged (h : Kept p claim) {a : Arrival} {fault : Option Fault} {resp : Response}
    (hresp : p.response (.request a fault) = some resp) (hno : ∀ body, resp ≠ .claim body) :
    (p.step (.request a fault)).files claimFile = p.files claimFile ∧
      (p.step (.request a fault)).running.map OwnerState.claim =
        p.running.map OwnerState.claim := by
  rcases Option.map_eq_some_iff.1 hresp with ⟨st, hst, rfl⟩
  have hdefault : st.claim.claimed = false → st.claim = ClaimState.default := by
    rw [h.memory st hst]
    exact h.eq_default
  rcases (st.handleAt_turn p.files a fault).unchanged hdefault hno with ⟨hfile, hclaim⟩
  simp only [Pond.step, hst]
  exact ⟨hfile, congrArg some hclaim⟩

/-- For every run of requests, failed writes, deaths of the process and boots over a fresh data dir: at
most one claim succeeds; from then on `claim.json` and the memory hold the claim it answered; a request
without success leaves both as they were; and a boot reads the last claim written. -/
theorem claim_node_once (p : Pond) (hfresh : p.Fresh) (as : List Action)
    (htime : ∀ act ∈ as, act.Timely) :
    (∀ before act mid act' later, as = before ++ act :: mid ++ act' :: later →
      ∀ body body', (p.after before).response act = some (.claim body) →
        (p.after (before ++ act :: mid)).response act' ≠ some (.claim body')) ∧
    (∀ before act later body, as = before ++ act :: later →
      (p.after before).response act = some (.claim body) →
      ∃ claim : ClaimState, claim.claimed = true ∧ claim.displayName = some body.displayName ∧
        claim.recoveryHash = some (hashRecovery body.recoveryCode) ∧
        claim.claimedAtMs = some body.claimedAtMs ∧
        ∀ mid rest, later = mid ++ rest →
          (p.after (before ++ act :: mid)).files claimFile = some (claimText claim) ∧
          ∀ st ∈ (p.after (before ++ act :: mid)).running, st.claim = claim) ∧
    (∀ before a fault later resp, as = before ++ .request a fault :: later →
      (p.after before).response (.request a fault) = some resp → (∀ body, resp ≠ .claim body) →
      (p.after (before ++ [.request a fault])).files claimFile = (p.after before).files claimFile ∧
        (p.after (before ++ [.request a fault])).running.map OwnerState.claim =
          (p.after before).running.map OwnerState.claim) ∧
    NodeDataDir.loadClaim (p.after as).files true = some (p.lastSaved as ClaimState.default) ∧
    ∀ deviceId, ((p.after as).step (.boot deviceId true true)).running =
      some (OwnerState.new deviceId (p.lastSaved as ClaimState.default)) := by
  have hkept : ∀ before, (∀ act ∈ before, act.Timely) →
      Kept (p.after before) (p.lastSaved before ClaimState.default) := fun before hbefore =>
    (Kept.fresh hfresh).after before hbefore
  -- a claim that succeeded is the one kept from then on
  have hsucceeded : ∀ {before act later body}, as = before ++ act :: later →
      (p.after before).response act = some (.claim body) →
      ∃ kept : ClaimState, kept.claimed = true ∧ kept.displayName = some body.displayName ∧
        kept.recoveryHash = some (hashRecovery body.recoveryCode) ∧
        kept.claimedAtMs = some body.claimedAtMs ∧
        ∀ mid rest, later = mid ++ rest → Kept (p.after (before ++ act :: mid)) kept := by
    intro before act later body has hresp
    subst has
    have hbefore := hkept before fun a ha => htime a (by simp [ha])
    rcases hbefore.after_success (htime act (by simp)) hresp with
      ⟨kept, hclaimed, hname, hhash, hms, hafter⟩
    refine ⟨kept, hclaimed, hname, hhash, hms, fun mid rest hsplit => ?_⟩
    have hmid := hafter mid fun a ha => htime a (by simp [hsplit, ha])
    rw [after, Runs.run_append]
    exact hmid
  refine ⟨?_, ?_, ?_, ?_, ?_⟩
  · intro before act mid act' later has body body' hresp hresp'
    have has' : as = before ++ act :: (mid ++ act' :: later) := by
      rw [has, List.append_assoc, List.cons_append]
    rcases hsucceeded has' hresp with ⟨kept, hclaimed, _, _, _, hafter⟩
    -- a second success would have saved another claim
    rcases saved_of_success hresp' with ⟨draw, hsaved, _⟩
    rw [(hafter mid (act' :: later) rfl).saved_eq_none hclaimed] at hsaved
    cases hsaved
  · intro before act later body has hresp
    rcases hsucceeded has hresp with ⟨kept, hclaimed, hname, hhash, hms, hafter⟩
    refine ⟨kept, hclaimed, hname, hhash, hms, fun mid rest hsplit => ?_⟩
    have hmid := hafter mid rest hsplit
    refine ⟨?_, hmid.memory⟩
    rcases hmid.file with ⟨_, hdefault⟩ | ⟨hfile, _, _⟩
    · rw [hdefault] at hclaimed
      cases hclaimed
    · exact hfile
  · intro before a fault later resp has hresp hno
    have hbefore := hkept before fun act ha => htime act (by simp [has, ha])
    rw [after, Runs.run_append_singleton]
    exact hbefore.unchanged hresp hno
  · exact (hkept as htime).load
  · intro deviceId
    simp only [Pond.step, if_true, (hkept as htime).load, Option.map_some]

end Runs

end System

section Restarted

attribute [local instance] Checksum.primitives RpcState.asciiUppercase RpcState.claimBody
  RpcState.noLogin

/-- The text of the document tells its fields. -/
theorem terminated_pretty_injective :
    Function.Injective fun d : ClaimDisk => terminated (toVecPretty d) := by
  intro a b h
  have hform : ∀ d : ClaimDisk, terminated (toVecPretty d) = toVecPretty d ++ [10] := by
    intro d
    have hlast : (toVecPretty d).getLast? = some 125 := Json.getLast?_pretty_obj 0 d.fields
    unfold terminated
    rw [hlast]
    exact if_neg (by decide)
  have hbody : toVecPretty a = toVecPretty b := by
    have happend : toVecPretty a ++ [10] = toVecPretty b ++ [10] := by
      rw [← hform a, ← hform b]
      exact h
    exact List.append_cancel_right happend
  exact ClaimDisk.fields_injective (Json.pretty_obj_injective a.fields_ne_nil b.fields_ne_nil
    a.fields_scalar b.fields_scalar hbody)

/-- A reader of the documents that were written. -/
@[reducible] noncomputable def writtenClaims : Deserialize ClaimDisk :=
  Deserialize.ofForm fun d => terminated (toVecPretty d)

attribute [local instance] writtenClaims

theorem reads_writtenClaims : ReadsDocument :=
  ⟨fun d _ => read_ofForm terminated_pretty_injective d⟩

def fresh : Pond :=
  { files := fun _ => none
    running := none }

def start : Action :=
  .boot (Checksum.device 1) true true

/-- The rename fails. -/
def failing : Action :=
  .request RpcState.claim (some { done := 5, part := 0, error := "no space" })

def claiming : Action :=
  .request RpcState.claim none

def adaBody : ClaimResponse :=
  { displayName := "Ada"
    recoveryCode := "09090-90909-09090-90909"
    deviceId := hex32 (Checksum.device 1).bytes
    claimedAtMs := 1000
    ownerToken := Text.hexEncode (List.replicate 32 7)
    expiresInSecs := 86400 }

/-- The first write fails, the second does not, and the process is started again. -/
theorem claim_node_once_restart :
    (fresh.after [start, failing]).response claiming = some (.claim adaBody) ∧
      ∃ claim : ClaimState, claim.displayName = some "Ada" ∧
        ∀ st ∈ (fresh.after [start, failing, claiming, .stop, start]).running, st.claim = claim := by
  have hresp : (fresh.after [start, failing]).response claiming = some (.claim adaBody) := by
    decide +kernel
  refine ⟨hresp, ?_⟩
  let _ := reads_writtenClaims
  have htime : ∀ act ∈ [start, failing, claiming, .stop, start], act.Timely := by
    have hnow : RpcState.claim.draw.nowMs < 2 ^ 64 := by
      decide +kernel
    intro act hact
    simp only [List.mem_cons, List.not_mem_nil, or_false] at hact
    rcases hact with rfl | rfl | rfl | rfl | rfl
    · trivial
    · exact hnow
    · exact hnow
    · trivial
    · trivial
  have honce := claim_node_once fresh ⟨rfl, rfl⟩ [start, failing, claiming, .stop, start] htime
  rcases honce.2.1 [start, failing] claiming [.stop, start] adaBody rfl hresp with
    ⟨claim, _, hname, _, _, hkept⟩
  exact ⟨claim, hname, (hkept [.stop, start] [] rfl).2⟩

end Restarted

end Pond

end Node
end Thunderducks
