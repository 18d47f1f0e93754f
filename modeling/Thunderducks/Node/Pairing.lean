import Thunderducks.Node.Link
import Thunderducks.Node.OwnerSessions

/-!
# Pairing — pair tokens and the devices they add (`td-node/src/rpc.rs`)

The owner mints a token, and whoever redeems it in time gets a device linked.  A token in the map was
made by `pair_create` and keeps its expiry (`stored_of_create`); once redeemed it is never free again
(`Spent`).  With fresh tokens and keys a token adds one device or none (`pair_redeem_once`).
-/

namespace Thunderducks
namespace Node

open Lib Event

/-! ## Tokens -/

structure PairToken where
  label : String
  expiresAt : Instant
  createdMs : Nat
  redeemedBy : Option String
  deriving DecidableEq

/-- The fields of `NodeSession` that the pairing routes use. -/
structure PairState where
  owner : OwnerState
  pairTokens : HashMap String PairToken
  link : LinkRegistry
  rpcBase : Option String
  p2pUri : Option String

structure PairCreateRequest where
  label : Option String
  ttlSecs : Option Nat

structure PairRedeemRequest where
  token : String
  deviceLabel : Option String

structure PairCreateResponse where
  token : String
  label : String
  expiresInSecs : Nat
  pairPath : String
  rpcBase : Option String
  deriving DecidableEq

structure PairRedeemResponse where
  label : String
  pondName : Option String
  deviceId : String
  rpcBase : Option String
  p2pUri : Option String
  deriving DecidableEq

structure PairListItem where
  tokenPrefix : String
  label : String
  expiresInSecs : Nat
  redeemed : Bool
  createdMs : Nat
  deriving DecidableEq

/-- What the status route answers about owner and devices. -/
structure PairStatus where
  deviceId : String
  linkedDevices : List String
  rpcBase : Option String
  p2pUri : Option String
  claimed : Bool
  displayName : Option String
  claimedAtMs : Option Nat
  pairTokensActive : Nat
  deriving DecidableEq

inductive PairResponse
  | error (status : Nat) (message : String)
  /-- The owner check refuses. -/
  | refused (resp : Response)
  | created (body : PairCreateResponse)
  | redeemed (body : PairRedeemResponse)
  | listed (claimed : Bool) (items : List PairListItem)
  | status (body : PairStatus)
  deriving DecidableEq

/-- `.chars().take(n).collect()` -/
def takeChars (n : Nat) (s : String) : String :=
  String.ofList (s.toList.take n)

/-- The life of a token: 600 s where none is asked for, from a minute to an hour. -/
def pairTtl (req : PairCreateRequest) : Nat :=
  max 60 (min (req.ttlSecs.getD 600) 3600)

section Handlers

variable [Primitives]

/-- What a pairing handler draws from outside: the clock when it checks the owner, when it purges and
after that, the randomness, and the orders in which maps are listed. -/
structure PairDraw where
  checked : Instant
  purged : Instant
  now : Instant
  nowMs : Nat
  token : Bytes
  generated : DeviceKeypair
  tokens : IterOrder (String × PairToken)
  linked : IterOrder DeviceId

namespace PairState

def purgeExpiredPairTokens (st : PairState) (now : Instant) : PairState :=
  { st with pairTokens := st.pairTokens.retain fun _ t => t.expiresAt > now }

def pairCreate (st : PairState) (draw : PairDraw) (headers : HeaderMap) (req : PairCreateRequest) :
    PairResponse × PairState :=
  if st.owner.claim.claimed = false then
    (.error 409 "claim node before minting pair tokens", st)
  else
    match st.owner.requireOwnerToken draw.checked (extractOwnerToken headers) with
    | (some refusal, owner) => (.refused refusal, { st with owner := owner })
    | (none, owner) =>
        let st := { st with owner := owner }.purgeExpiredPairTokens draw.purged
        let ttl := pairTtl req
        let label := takeChars 32 ((req.label.bind Text.trimmed).getD "device")
        let token := Text.hexEncode draw.token
        let entry : PairToken :=
          { label := label
            expiresAt := draw.now + Instant.secs ttl
            createdMs := draw.nowMs
            redeemedBy := none }
        (.created
          { token := token
            label := label
            expiresInSecs := ttl
            pairPath := "?pair=" ++ token
            rpcBase := st.rpcBase }, { st with pairTokens := st.pairTokens.insert token entry })

def pairRedeem (st : PairState) (draw : PairDraw) (req : PairRedeemRequest) :
    PairResponse × PairState :=
  let token := Text.trim req.token
  if token = "" then
    (.error 400 "token required", st)
  else if st.owner.claim.claimed = false then
    (.error 409 "node not claimed", st)
  else
    let st := st.purgeExpiredPairTokens draw.purged
    let missing : PairResponse × PairState :=
      (.error 404 "invalid or expired pair token",
        { st with pairTokens := st.pairTokens.erase token })
    match st.pairTokens.lookup token with
    | none => missing
    | some entry =>
        if entry.expiresAt ≤ draw.now then
          missing
        else if entry.redeemedBy.isSome then
          (.error 409 "pair token already used", st)
        else
          let label := ((req.deviceLabel.bind Text.trimmed).map (takeChars 32)).getD entry.label
          let secondary := draw.generated
          let redeemed : PairToken :=
            { entry with
              redeemedBy := some (hex32 secondary.deviceId.bytes)
              label := label }
          (.redeemed
            { label := label
              pondName := st.owner.claim.displayName
              deviceId := hex32 st.owner.deviceId.bytes
              rpcBase := st.rpcBase
              p2pUri := st.p2pUri },
            { st with
              link := st.link.trustLocal secondary
              pairTokens := st.pairTokens.insert token redeemed })

def pairList (st : PairState) (draw : PairDraw) : PairResponse × PairState :=
  let st := st.purgeExpiredPairTokens draw.purged
  let items := (draw.tokens.run st.pairTokens.pairs).map fun (tok, info) =>
    { tokenPrefix := takeChars 8 tok
      label := info.label
      expiresInSecs := Instant.asSecs (Instant.since info.expiresAt draw.now)
      redeemed := info.redeemedBy.isSome
      createdMs := info.createdMs : PairListItem }
  (.listed st.owner.claim.claimed items, st)

def status (st : PairState) (draw : PairDraw) : PairResponse × PairState :=
  let linked := (draw.linked.run st.link.linkedDevices).map fun d => hex32 d.bytes
  let st := st.purgeExpiredPairTokens draw.purged
  (.status
    { deviceId := hex32 st.owner.deviceId.bytes
      linkedDevices := linked
      rpcBase := st.rpcBase
      p2pUri := st.p2pUri
      claimed := st.owner.claim.claimed
      displayName := st.owner.claim.displayName
      claimedAtMs := st.owner.claim.claimedAtMs
      pairTokensActive := st.pairTokens.values.countP fun t => t.redeemedBy.isNone }, st)

/-! ## What a handler does to a token -/

variable {st st' : PairState} {draw : PairDraw} {tok : String}

/-- The tokens after are tokens from before, with their expiry; what was redeemed is. -/
def Keeps (st st' : PairState) (tok : String) : Prop :=
  ∀ e', st'.pairTokens.lookup tok = some e' → ∃ e, st.pairTokens.lookup tok = some e ∧
    e'.expiresAt = e.expiresAt ∧ (e.redeemedBy.isSome = true → e'.redeemedBy.isSome = true)

omit [Primitives] in
theorem Keeps.of_sub (h : ∀ e, st'.pairTokens.lookup tok = some e →
    st.pairTokens.lookup tok = some e) : Keeps st st' tok :=
  fun e' he' => ⟨e', h e' he', rfl, fun hr => hr⟩

omit [Primitives] in
theorem lookup_purge {now : Instant} {e : PairToken} :
    (st.purgeExpiredPairTokens now).pairTokens.lookup tok = some e ↔
      st.pairTokens.lookup tok = some e ∧ now < e.expiresAt := by
  simp only [purgeExpiredPairTokens, HashMap.lookup_retain, gt_iff_lt, decide_eq_true_eq]

omit [Primitives] in
theorem keeps_purge (st : PairState) (now : Instant) (tok : String) :
    Keeps st (st.purgeExpiredPairTokens now) tok :=
  Keeps.of_sub fun _ he => (lookup_purge.1 he).1

/-- The owner of a claimed node asked for a token. -/
structure OwnerAsked (st : PairState) (draw : PairDraw) (headers : HeaderMap) : Prop where
  claimed : st.owner.claim.claimed = true
  session : ∃ token s, extractOwnerToken headers = some token ∧
    st.owner.ownerSessions.lookup token = some s ∧ draw.checked < s.expiresAt

/-- A token is made for the owner and for nobody else. -/
theorem pairCreate_cases (st : PairState) (draw : PairDraw) (headers : HeaderMap)
    (req : PairCreateRequest) :
    ((∀ body, (st.pairCreate draw headers req).1 ≠ .created body) ∧
        (st.pairCreate draw headers req).2.pairTokens = st.pairTokens ∧
        (st.pairCreate draw headers req).2.link = st.link) ∨
      ∃ body : PairCreateResponse, (st.pairCreate draw headers req).1 = .created body ∧
        body.token = Text.hexEncode draw.token ∧ body.expiresInSecs = pairTtl req ∧
        OwnerAsked st draw headers ∧ (st.pairCreate draw headers req).2.link = st.link ∧
        ∃ entry : PairToken, entry.expiresAt = draw.now + Instant.secs (pairTtl req) ∧
          (st.pairCreate draw headers req).2.pairTokens =
            (st.purgeExpiredPairTokens draw.purged).pairTokens.insert
              (Text.hexEncode draw.token) entry := by
  have hgate := (OwnerState.requireOwnerToken_spec st.owner draw.checked
    (extractOwnerToken headers)).2.2
  unfold pairCreate
  by_cases hclaimed : st.owner.claim.claimed = false
  · rw [if_pos hclaimed]
    exact Or.inl ⟨(fun _ h => by cases h), rfl, rfl⟩
  · rw [if_neg hclaimed]
    rcases hreq : st.owner.requireOwnerToken draw.checked (extractOwnerToken headers) with
      ⟨refusal, owner⟩
    rw [hreq] at hgate
    cases refusal with
    | some resp => exact Or.inl ⟨(fun _ h => by cases h), rfl, rfl⟩
    | none =>
        exact Or.inr ⟨_, rfl, rfl, rfl, ⟨by simpa using hclaimed, hgate rfl⟩, rfl, _, rfl, rfl⟩

/-- A token is redeemed before it expires and links one device; nothing else does. -/
theorem pairRedeem_cases (st : PairState) (draw : PairDraw) (req : PairRedeemRequest) :
    ((∀ body, (st.pairRedeem draw req).1 ≠ .redeemed body) ∧
        (st.pairRedeem draw req).2.link = st.link ∧
        ∀ tok, Keeps st (st.pairRedeem draw req).2 tok) ∨
      ∃ (entry redeemed : PairToken) (body : PairRedeemResponse),
        (st.pairRedeem draw req).1 = .redeemed body ∧
        st.pairTokens.lookup (Text.trim req.token) = some entry ∧
        draw.now < entry.expiresAt ∧ entry.redeemedBy = none ∧
        (st.pairRedeem draw req).2.link = st.link.trustLocal draw.generated ∧
        (st.pairRedeem draw req).2.pairTokens =
          (st.purgeExpiredPairTokens draw.purged).pairTokens.insert (Text.trim req.token)
            redeemed ∧
        redeemed.expiresAt = entry.expiresAt ∧ redeemed.redeemedBy.isSome = true := by
  have hmissing : ∀ tok, Keeps st { st.purgeExpiredPairTokens draw.purged with
      pairTokens := (st.purgeExpiredPairTokens draw.purged).pairTokens.erase
        (Text.trim req.token) } tok := by
    intro tok
    refine Keeps.of_sub fun e he => ?_
    dsimp only at he
    rw [HashMap.lookup_erase_eq] at he
    split at he
    · cases he
    · exact (lookup_purge.1 he).1
  unfold pairRedeem
  dsimp only
  split
  · exact Or.inl ⟨(fun _ h => by cases h), rfl, fun tok => Keeps.of_sub fun _ he => he⟩
  split
  · exact Or.inl ⟨(fun _ h => by cases h), rfl, fun tok => Keeps.of_sub fun _ he => he⟩
  split
  · exact Or.inl ⟨(fun _ h => by cases h), rfl, hmissing⟩
  -- a token of the table: it has expired, was redeemed, or is redeemed now
  next entry hentry =>
    split
    · exact Or.inl ⟨(fun _ h => by cases h), rfl, hmissing⟩
    next hlive =>
      split
      · exact Or.inl ⟨(fun _ h => by cases h), rfl, keeps_purge st draw.purged⟩
      next hfree =>
        refine Or.inr ⟨entry, _, _, rfl, (lookup_purge.1 hentry).1, Nat.lt_of_not_le hlive, ?_, rfl,
          rfl, rfl, rfl⟩
        simpa using hfree

end PairState

/-! ## Runs -/

/-- A request that the server handles; each holds the session's lock until it is answered. -/
inductive PairCall
  | create (draw : PairDraw) (headers : HeaderMap) (req : PairCreateRequest)
  | redeem (draw : PairDraw) (req : PairRedeemRequest)
  | list (draw : PairDraw)
  | status (draw : PairDraw)
  /-- A request to one of the owner routes, where sessions come and go. -/
  | owner (a : Arrival)

namespace PairCall

/-- The randomness of a token. -/
def drawn : PairCall → Option Bytes
  | .create draw _ _ => some draw.token
  | _ => none

/-- The device of a generated key. -/
def generated : PairCall → Option DeviceId
  | .redeem draw _ => some draw.generated.deviceId
  | _ => none

end PairCall

namespace PairState

/-- Tokens are never drawn again, and no generated key is that of another device. -/
structure Fresh (st : PairState) (calls : List PairCall) : Prop where
  tokens : (calls.filterMap PairCall.drawn).Nodup
  keys : (calls.filterMap PairCall.generated).Nodup
  unlinked : ∀ id ∈ calls.filterMap PairCall.generated, id ∉ st.link.linkedDevices

section Draws

variable {st : PairState} {before later : List PairCall} {call : PairCall}

/-- What is drawn in a list of calls is drawn by one of them only. -/
theorem nodup_split {α : Type} {f : PairCall → Option α} {x : α}
    (h : ((before ++ call :: later).filterMap f).Nodup) (hx : f call = some x) :
    x ∉ before.filterMap f ∧ x ∉ later.filterMap f := by
  rw [List.filterMap_append, List.filterMap_cons_some hx] at h
  have hsplit := List.nodup_middle.1 h
  have hnot := (List.nodup_cons.1 hsplit).1
  rw [List.mem_append, not_or] at hnot
  exact hnot

/-- The token of a creation is not made again. -/
theorem Fresh.not_drawn {draw : PairDraw} {headers : HeaderMap} {req : PairCreateRequest}
    (h : st.Fresh (before ++ .create draw headers req :: later)) :
    ∀ bytes ∈ later.filterMap PairCall.drawn, Text.hexEncode bytes ≠ Text.hexEncode draw.token := by
  intro bytes hb heq
  have hdec : Text.hexDecode (Text.hexEncode bytes).toList = some draw.token := by
    rw [heq]
    exact Text.hexDecode_hexEncode draw.token
  rw [Text.hexDecode_hexEncode] at hdec
  have hsame : bytes = draw.token := Option.some.inj hdec
  exact (nodup_split h.tokens rfl).2 (hsame ▸ hb)

end Draws

variable [Unicode] [JsonBody ClaimRequest] [JsonBody RecoveryLoginRequest]

def step (st : PairState) : PairCall → PairState
  | .create draw headers req => (st.pairCreate draw headers req).2
  | .redeem draw req => (st.pairRedeem draw req).2
  | .list draw => (st.pairList draw).2
  | .status draw => (st.status draw).2
  | .owner a => { st with owner := (st.owner.handle a).2 }

/-- The state after a run. -/
abbrev after (st : PairState) (calls : List PairCall) : PairState :=
  Runs.run step st calls

theorem after_redeem (st : PairState) (before mid : List PairCall) (draw : PairDraw)
    (req : PairRedeemRequest) :
    st.after (before ++ .redeem draw req :: mid) = ((st.after before).pairRedeem draw req).2.after mid := by
  simp only [after, Runs.run, List.foldl_append, List.foldl_cons, step]

/-- The call makes the token with this expiry. -/
def Makes (st : PairState) (tok : String) (expiresAt : Instant) (call : PairCall) : Prop :=
  ∃ draw headers req body, call = .create draw headers req ∧
    (st.pairCreate draw headers req).1 = .created body ∧ body.token = tok ∧
    tok = Text.hexEncode draw.token ∧ body.expiresInSecs = pairTtl req ∧
    OwnerAsked st draw headers ∧ expiresAt = draw.now + Instant.secs (pairTtl req)

section Steps

variable {st : PairState} {call : PairCall} {tok : String}

/-- A token after a call was there before, or the call made it. -/
theorem step_token {e' : PairToken} (h : (st.step call).pairTokens.lookup tok = some e') :
    (∃ e, st.pairTokens.lookup tok = some e ∧ e'.expiresAt = e.expiresAt ∧
      (e.redeemedBy.isSome = true → e'.redeemedBy.isSome = true)) ∨
      st.Makes tok e'.expiresAt call := by
  cases call with
  | create draw headers req =>
      unfold step at h
      rcases pairCreate_cases st draw headers req with
        ⟨_, htokens, _⟩ | ⟨body, hbody, htok, httl, hasked, _, entry, hexp, htokens⟩
      · simp only [htokens] at h
        exact Or.inl ⟨e', h, rfl, fun hr => hr⟩
      · simp only [htokens] at h
        rw [HashMap.lookup_insert_eq] at h
        split at h
        -- the token that is asked about is the one just made
        next heq =>
          have he' : entry = e' := Option.some.inj h
          subst he'
          exact Or.inr ⟨draw, headers, req, body, rfl, hbody, htok.trans heq.symm, heq, httl, hasked,
            hexp⟩
        · exact Or.inl (keeps_purge st draw.purged tok e' h)
  | redeem draw req =>
      unfold step at h
      rcases pairRedeem_cases st draw req with
        ⟨_, _, hkeeps⟩ | ⟨entry, redeemed, _, _, hentry, _, hfree, _, htokens, hexp, hred⟩
      · exact Or.inl (hkeeps tok e' h)
      · simp only [htokens] at h
        rw [HashMap.lookup_insert_eq] at h
        split at h
        -- it is the one just redeemed, with its time as it was
        next heq =>
          have he' : redeemed = e' := Option.some.inj h
          subst he'
          rw [heq]
          exact Or.inl ⟨entry, hentry, hexp, fun _ => hred⟩
        · exact Or.inl (keeps_purge st draw.purged tok e' h)
  | list draw => exact Or.inl (keeps_purge st draw.purged tok e' h)
  | status draw => exact Or.inl (keeps_purge st draw.purged tok e' h)
  | owner a => exact Or.inl ⟨e', h, rfl, fun hr => hr⟩

/-- The token is not to be redeemed any more. -/
def Spent (st : PairState) (tok : String) : Prop :=
  ∀ e, st.pairTokens.lookup tok = some e → e.redeemedBy.isSome = true

/-- A spent token stays spent for as long as it is not made again. -/
theorem Spent.step (h : st.Spent tok) (hnew : ∀ bytes ∈ call.drawn, Text.hexEncode bytes ≠ tok) :
    (st.step call).Spent tok := by
  intro e' he'
  rcases step_token he' with ⟨e, he, _, hred⟩ | ⟨draw, _, _, _, rfl, _, _, htok, _⟩
  · exact hred (h e he)
  · exact absurd htok.symm (hnew draw.token rfl)

theorem Spent.after (h : st.Spent tok) (calls : List PairCall)
    (hnew : ∀ bytes ∈ calls.filterMap PairCall.drawn, Text.hexEncode bytes ≠ tok) :
    (st.after calls).Spent tok := by
  induction calls generalizing st with
  | nil => exact h
  | cons call calls ih =>
      have hcall : ∀ bytes ∈ call.drawn, Text.hexEncode bytes ≠ tok := fun bytes hb =>
        hnew bytes (List.mem_filterMap.2 ⟨call, by simp, hb⟩)
      refine ih (h.step hcall) fun bytes hb => ?_
      rcases List.mem_filterMap.1 hb with ⟨c, hc, hdrawn⟩
      exact hnew bytes (List.mem_filterMap.2 ⟨c, List.mem_cons_of_mem _ hc, hdrawn⟩)

/-- Only a redeemed token adds a device. -/
theorem step_link : (st.step call).link = st.link ∨
    ∃ draw req, call = .redeem draw req ∧
      (st.step call).link = st.link.trustLocal draw.generated := by
  cases call with
  | create draw headers req =>
      unfold step
      rcases pairCreate_cases st draw headers req with
        ⟨_, _, hlink⟩ | ⟨_, _, _, _, _, hlink, _⟩
      · exact Or.inl hlink
      · exact Or.inl hlink
  | redeem draw req =>
      unfold step
      rcases pairRedeem_cases st draw req with ⟨_, hlink, _⟩ | ⟨_, _, _, _, _, _, _, hlink, _⟩
      · exact Or.inl hlink
      · exact Or.inr ⟨draw, req, rfl, hlink⟩
  | list draw => exact Or.inl rfl
  | status draw => exact Or.inl rfl
  | owner a => exact Or.inl rfl

/-- A linked device was linked at the start or was generated in the run. -/
theorem mem_linked_after {id : DeviceId} (calls : List PairCall)
    (h : id ∈ (st.after calls).link.linkedDevices) :
    id ∈ st.link.linkedDevices ∨ id ∈ calls.filterMap PairCall.generated := by
  induction calls generalizing st with
  | nil => exact Or.inl h
  | cons call calls ih =>
      rcases ih h with hstep | hgen
      · rcases @step_link _ _ _ _ st call with hlink | ⟨draw, req, rfl, hlink⟩
        · rw [hlink] at hstep
          exact Or.inl hstep
        · rw [hlink] at hstep
          rw [LinkRegistry.linkedDevices_trustLocal] at hstep
          rcases List.mem_cons.1 hstep with heq | hold
          · refine Or.inr (List.mem_filterMap.2 ⟨.redeem draw req, by simp, ?_⟩)
            rw [heq]
            rfl
          · exact Or.inl (List.mem_of_mem_erase hold)
      · rcases List.mem_filterMap.1 hgen with ⟨c, hc, heq⟩
        exact Or.inr (List.mem_filterMap.2 ⟨c, List.mem_cons_of_mem _ hc, heq⟩)

/-- A token in the map was made by an earlier call, with the expiry it has. -/
theorem stored_of_create {calls : List PairCall} {e : PairToken} (hinit : st.pairTokens = ∅)
    (h : (st.after calls).pairTokens.lookup tok = some e) :
    ∃ first call rest, calls = first ++ call :: rest ∧ (st.after first).Makes tok e.expiresAt call := by
  have hstep : ∀ (s : PairState) (call : PairCall) (r : String × Instant),
      (∃ e, (s.step call).pairTokens.lookup r.1 = some e ∧ e.expiresAt = r.2) →
        ((∃ e, s.pairTokens.lookup r.1 = some e ∧ e.expiresAt = r.2) ∧ ¬ False) ∨
          s.Makes r.1 r.2 call := by
    rintro s call ⟨tok, exp⟩ ⟨e', he', hexp⟩
    rcases step_token he' with ⟨e, he, hsame, _⟩ | hmade
    · exact Or.inl ⟨⟨e, he, hsame.symm.trans hexp⟩, not_false⟩
    · rw [hexp] at hmade
      exact Or.inr hmade
  have hnone : ∀ r : String × Instant,
      ¬ ∃ e, st.pairTokens.lookup r.1 = some e ∧ e.expiresAt = r.2 := by
    rintro r ⟨e, he, _⟩
    rw [hinit, AList.lookup_empty] at he
    cases he
  rcases @Runs.provenance _ _ step _
    (fun s r => ∃ e, s.pairTokens.lookup r.1 = some e ∧ e.expiresAt = r.2)
    (fun s call r => s.Makes r.1 r.2 call) (fun _ _ _ => False) hstep st hnone calls
    (tok, e.expiresAt) ⟨e, h, rfl⟩ with ⟨first, call, rest, hsplit, hmade, _⟩
  exact ⟨first, call, rest, hsplit, hmade⟩

omit [Unicode] [JsonBody ClaimRequest] [JsonBody RecoveryLoginRequest] in
/-- What a successful redemption finds and does. -/
theorem redeemed_spec {draw : PairDraw} {req : PairRedeemRequest} {body : PairRedeemResponse}
    (h : (st.pairRedeem draw req).1 = .redeemed body) :
    (∃ entry, st.pairTokens.lookup (Text.trim req.token) = some entry ∧
      draw.now < entry.expiresAt ∧ entry.redeemedBy = none) ∧
      (st.pairRedeem draw req).2.link = st.link.trustLocal draw.generated ∧
      (st.pairRedeem draw req).2.Spent (Text.trim req.token) := by
  rcases pairRedeem_cases st draw req with
    ⟨hno, _, _⟩ | ⟨entry, redeemed, _, _, hentry, hlive, hfree, hlink, htokens, _, hred⟩
  · exact absurd h (hno body)
  · refine ⟨⟨entry, hentry, hlive, hfree⟩, hlink, fun e he => ?_⟩
    rw [htokens, AList.lookup_insert] at he
    rw [← Option.some.inj he]
    exact hred

omit [Unicode] [JsonBody ClaimRequest] [JsonBody RecoveryLoginRequest] in
/-- A spent token is not redeemed. -/
theorem Spent.not_redeemed {draw : PairDraw} {req : PairRedeemRequest}
    (h : st.Spent (Text.trim req.token)) (body : PairRedeemResponse) :
    (st.pairRedeem draw req).1 ≠ .redeemed body := by
  intro hresp
  rcases (redeemed_spec hresp).1 with ⟨entry, hentry, _, hfree⟩
  have hspent := h entry hentry
  rw [hfree] at hspent
  cases hspent

end Steps

/-- Whatever is asked in whatever order, with tokens and keys that do not repeat: who redeems a token
uses one that the owner of the claimed node was given before, strictly before it expires; nobody redeems it
again; the device is one more in the registry; and who fails adds none. -/
theorem pair_redeem_once (st : PairState) (hinit : st.pairTokens = ∅) (calls : List PairCall)
    (hfresh : st.Fresh calls) :
    (∀ before draw req later body, calls = before ++ .redeem draw req :: later →
      ((st.after before).pairRedeem draw req).1 = .redeemed body →
      (∃ first cdraw headers creq rest created, before = first ++ .create cdraw headers creq :: rest ∧
        ((st.after first).pairCreate cdraw headers creq).1 = .created created ∧
        created.token = Text.trim req.token ∧ OwnerAsked (st.after first) cdraw headers ∧
        created.expiresInSecs = max 60 (min (creq.ttlSecs.getD 600) 3600) ∧
        draw.now < cdraw.now + Instant.secs created.expiresInSecs) ∧
      (∀ mid draw' req' rest body', later = mid ++ .redeem draw' req' :: rest →
        Text.trim req'.token = Text.trim req.token →
        ((st.after (before ++ .redeem draw req :: mid)).pairRedeem draw' req').1 ≠
          .redeemed body') ∧
      draw.generated.deviceId ∉ (st.after before).link.linkedDevices ∧
      (st.after (before ++ [.redeem draw req])).link.linkedDevices =
        draw.generated.deviceId :: (st.after before).link.linkedDevices) ∧
    ∀ before draw req later, calls = before ++ .redeem draw req :: later →
      (∀ body, ((st.after before).pairRedeem draw req).1 ≠ .redeemed body) →
      (st.after (before ++ [.redeem draw req])).link = (st.after before).link := by
  refine ⟨?_, ?_⟩
  · intro before draw req later body hsplit hresp
    rcases redeemed_spec hresp with ⟨⟨entry, hentry, hlive, _⟩, hlink, hspent⟩
    rcases stored_of_create hinit hentry with ⟨first, call, rest, hbefore, hmade⟩
    rcases hmade with ⟨cdraw, headers, creq, created, rfl, hcreated, htok, hhex, httl, hasked, hexp⟩
    rw [hexp] at hlive
    have hunlinked : draw.generated.deviceId ∉ (st.after before).link.linkedDevices := by
      have hgen : draw.generated.deviceId ∈ calls.filterMap PairCall.generated :=
        List.mem_filterMap.2 ⟨.redeem draw req, by rw [hsplit]; simp, rfl⟩
      have hkeys := hfresh.keys
      rw [hsplit] at hkeys
      intro hmem
      rcases mem_linked_after before hmem with hold | hnew
      · exact hfresh.unlinked _ hgen hold
      · exact (nodup_split hkeys rfl).1 hnew
    refine ⟨⟨first, cdraw, headers, creq, rest, created, hbefore, hcreated, htok, hasked, httl, ?_⟩,
      ?_, hunlinked, ?_⟩
    · rw [httl]
      exact hlive
    · -- nothing after the creation makes the token again, so it stays spent
      intro mid draw' req' rest' body' hlater htok'
      have hdrawn : ∀ bytes ∈ mid.filterMap PairCall.drawn,
          Text.hexEncode bytes ≠ Text.trim req.token := by
        intro bytes hb
        rw [hhex]
        have hcalls : calls = first ++ .create cdraw headers creq :: (rest ++ .redeem draw req ::
            (mid ++ .redeem draw' req' :: rest')) := by
          rw [hsplit, hbefore, hlater]
          simp
        rw [hcalls] at hfresh
        rcases List.mem_filterMap.1 hb with ⟨c, hc, hdrawn⟩
        exact hfresh.not_drawn bytes (List.mem_filterMap.2 ⟨c, by simp [hc], hdrawn⟩)
      have hafter := hspent.after mid hdrawn
      rw [after_redeem]
      rw [← htok'] at hafter
      exact hafter.not_redeemed body'
    · rw [after_redeem, after, Runs.run, List.foldl_nil]
      rw [hlink, LinkRegistry.linkedDevices_trustLocal, List.erase_of_not_mem hunlinked]
  · intro before draw req later _ hno
    rw [after_redeem, after, Runs.run, List.foldl_nil]
    rcases pairRedeem_cases (st.after before) draw req with ⟨_, hlink, _⟩ | hredeemed
    · exact hlink
    · rcases hredeemed with ⟨_, _, body, hbody, _⟩
      exact absurd hbody (hno body)

end PairState

end Handlers

/-! ## A token used twice -/

namespace PairState

attribute [local instance] Checksum.primitives RpcState.asciiUppercase RpcState.claimBody
  RpcState.noLogin

/-- A claimed node whose owner is signed in. -/
def owned : PairState :=
  { owner :=
      { deviceId := Checksum.device 1
        claim :=
          { claimed := true
            displayName := some "Ada"
            recoveryHash := none
            claimedAtMs := some 1000 }
        ownerSessions := (∅ : HashMap String OwnerSession).insert "owner"
          { source := "claim"
            createdMs := 1000
            expiresAt := Instant.secs 86400 }
        recoveryFailures := 0
        recoveryLockUntil := none }
    pairTokens := ∅
    link := LinkRegistry.new.trustLocal (LinkCall.keypair 1)
    rpcBase := none
    p2pUri := none }

def pairDraw (now : Instant) (n : Nat) : PairDraw :=
  { checked := now
    purged := now
    now := now
    nowMs := 1000
    token := List.replicate 16 7
    generated := LinkCall.keypair n
    tokens := IterOrder.stored
    linked := IterOrder.stored }

def creating : PairCall :=
  .create (pairDraw 0 1) [("x-td-owner-token", utf8Bytes "owner")]
    { label := none
      ttlSecs := some 5 }

def tokenAsked : PairRedeemRequest :=
  { token := Text.hexEncode (List.replicate 16 7) ++ " "
    deviceLabel := some "phone" }

def redeemedBody : PairRedeemResponse :=
  { label := "phone"
    pondName := some "Ada"
    deviceId := hex32 (Checksum.device 1).bytes
    rpcBase := none
    p2pUri := none }

/-- Redeemed in the last second of its minute, and then once more. -/
theorem pair_redeem_once_twice :
    ((owned.after [creating]).pairRedeem (pairDraw (Instant.secs 59) 2) tokenAsked).1 =
        .redeemed redeemedBody ∧
      (∀ body, ((owned.after [creating, .redeem (pairDraw (Instant.secs 59) 2) tokenAsked]).pairRedeem
        (pairDraw (Instant.secs 59) 3) tokenAsked).1 ≠ .redeemed body) ∧
      (owned.after [creating, .redeem (pairDraw (Instant.secs 59) 2) tokenAsked]).link.linkedDevices =
        [Checksum.device 2, Checksum.device 1] := by
  have hfresh : owned.Fresh [creating, .redeem (pairDraw (Instant.secs 59) 2) tokenAsked,
      .redeem (pairDraw (Instant.secs 59) 3) tokenAsked] := by
    refine ⟨?_, ?_, ?_⟩ <;> decide +kernel
  have hfirst : ((owned.after [creating]).pairRedeem (pairDraw (Instant.secs 59) 2) tokenAsked).1 =
      .redeemed redeemedBody := by
    decide +kernel
  have honce := (pair_redeem_once owned rfl _ hfresh).1 [creating] (pairDraw (Instant.secs 59) 2)
    tokenAsked [.redeem (pairDraw (Instant.secs 59) 3) tokenAsked] redeemedBody rfl hfirst
  have hstart : (owned.after [creating]).link.linkedDevices = [Checksum.device 1] := by
    decide +kernel
  refine ⟨hfirst, fun body => honce.2.1 [] (pairDraw (Instant.secs 59) 3) tokenAsked [] body rfl rfl,
    ?_⟩
  rw [← hstart]
  exact honce.2.2.2

end PairState

end Node
end Thunderducks
