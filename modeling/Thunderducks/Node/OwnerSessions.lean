import Thunderducks.Event.Checksum
import Thunderducks.Node.Owner

/-!
# OwnerSessions — where live sessions come from

`Accounts` is what any handler may do to the session map: keep a session, drop it, or mint one in a
successful claim or login.  Over whole runs of requests it gives `reached_carries_live_token`: what
reaches a route that is not public carries a token minted less than 24 hours before and not logged
out since.
-/

namespace Thunderducks
namespace Node

open Lib Event

/-! ## The session map -/

namespace OwnerState

variable {st : OwnerState} {draw : Draw} {token : String} {s : OwnerSession}

/-- How many sessions there are. -/
def size (st : OwnerState) : Nat :=
  st.ownerSessions.entries.length

theorem size_eq_keys (st : OwnerState) : st.size = st.ownerSessions.keys.length := by
  simp [size, AList.keys, List.keys]

theorem lookup_purge {now : Instant} :
    (st.purgeExpiredOwnerSessions now).ownerSessions.lookup token = some s ↔
      st.ownerSessions.lookup token = some s ∧ now < s.expiresAt := by
  simp [purgeExpiredOwnerSessions, HashMap.lookup_retain]

theorem size_purge (now : Instant) : (st.purgeExpiredOwnerSessions now).size ≤ st.size :=
  HashMap.length_retain_le _ _

theorem lookup_evictOldest {o : IterOrder (String × OwnerSession)}
    (h : (st.evictOldest o).ownerSessions.lookup token = some s) :
    st.ownerSessions.lookup token = some s := by
  unfold evictOldest at h
  split at h
  · dsimp only at h
    split at h
    · exact h
    · rw [HashMap.lookup_erase_eq] at h
      split at h
      · cases h
      · exact h
  · exact h

/-- There is room for one more session after an eviction. -/
theorem size_evictOldest (o : IterOrder (String × OwnerSession)) (h : st.size ≤ 16) :
    (st.evictOldest o).size ≤ 15 := by
  unfold evictOldest
  split
  next hfull =>
    dsimp only
    split
    next hnone =>
      -- a map of sixteen has an oldest entry
      have hnil := List.argmin_eq_none.1 hnone
      have hlen := (o.perm (st.ownerSessions.entries.map fun e => (e.1, e.2))).length_eq
      rw [hnil, List.length_map] at hlen
      simp only [List.length_nil] at hlen
      omega
    next oldest hold =>
      have hmem : oldest.1 ∈ st.ownerSessions.keys := by
        have hl := o.mem_run.1 (List.argmin_mem hold)
        rcases List.mem_map.1 hl with ⟨e, he, heq⟩
        have hkey : oldest.1 = e.1 := by
          rw [← heq]
        rw [hkey]
        exact List.mem_map_of_mem he
      rw [size_eq_keys, AList.keys_erase, List.length_erase_of_mem hmem, ← size_eq_keys]
      omega
  next hroom =>
    have : st.size < 16 := Nat.lt_of_not_le hroom
    omega

theorem lookup_mint {source : String}
    (h : (st.mintOwnerSession draw source).2.ownerSessions.lookup token = some s) :
    st.ownerSessions.lookup token = some s ∨
      (st.mintOwnerSession draw source).1.1 = token ∧
        s.expiresAt = draw.now + Instant.secs ttlSecs := by
  simp only [mintOwnerSession, HashMap.lookup_insert_eq] at h ⊢
  split at h
  next htok =>
    cases h
    exact Or.inr ⟨htok.symm, rfl⟩
  · exact Or.inl (lookup_purge.1 (lookup_evictOldest h)).1

theorem size_mint (source : String) (h : st.size ≤ 16) :
    (st.mintOwnerSession draw source).2.size ≤ 16 := by
  have hpurged : (st.purgeExpiredOwnerSessions draw.now).size ≤ 16 :=
    Nat.le_trans (size_purge draw.now) h
  have hroom := size_evictOldest draw.order hpurged
  rw [size_eq_keys] at hroom
  rw [size_eq_keys]
  simp only [mintOwnerSession, AList.keys_insert, List.length_cons]
  have := List.length_erase_le (a := Text.hexEncode draw.token)
    (l := ((st.purgeExpiredOwnerSessions draw.now).evictOldest draw.order).ownerSessions.keys)
  omega

/-- A valid token is that of a live session. -/
theorem ownerSessionValid_spec (st : OwnerState) (now : Instant) (token : String) :
    (st.ownerSessionValid now token).2 = st.purgeExpiredOwnerSessions now ∧
      ((st.ownerSessionValid now token).1 = true →
        ∃ s, st.ownerSessions.lookup token = some s ∧ now < s.expiresAt) := by
  unfold ownerSessionValid
  dsimp only
  cases hl : (st.purgeExpiredOwnerSessions now).ownerSessions.lookup token with
  | none => simp
  | some s =>
      refine ⟨rfl, fun _ => ⟨s, ?_⟩⟩
      exact lookup_purge.1 hl

/-- A check changes nothing but what expiry removes, and passes only with a live session. -/
theorem requireOwnerToken_spec (st : OwnerState) (now : Instant) (token : Option String) :
    ((st.requireOwnerToken now token).2 = st ∨
      (st.requireOwnerToken now token).2 = st.purgeExpiredOwnerSessions now) ∧
    (∀ resp, (st.requireOwnerToken now token).1 = some resp →
      ∀ revoked, resp ≠ .logout revoked) ∧
    ((st.requireOwnerToken now token).1 = none →
      ∃ t s, token = some t ∧ st.ownerSessions.lookup t = some s ∧ now < s.expiresAt) := by
  unfold requireOwnerToken
  cases token with
  | none => simp
  | some t =>
      have hspec := ownerSessionValid_spec st now t
      rcases hvalid : st.ownerSessionValid now t with ⟨ok, st'⟩
      rw [hvalid] at hspec
      simp only [hvalid]
      cases ok with
      | false => exact ⟨Or.inr hspec.1, by simp, by simp⟩
      | true =>
          refine ⟨Or.inr hspec.1, by simp, fun _ => ?_⟩
          rcases hspec.2 rfl with ⟨s, hl, hlive⟩
          exact ⟨t, s, rfl, hl, hlive⟩

end OwnerState

/-! ## What a handler does to it -/

/-- Every session after a handler was there before, and the handler is no logout of it, or it was
minted by the handler; and the cap is kept. -/
structure Accounts (a : Arrival) (resp : Response) (before after : OwnerState) : Prop where
  origin : ∀ {token s}, after.ownerSessions.lookup token = some s →
    (before.ownerSessions.lookup token = some s ∧
      ∀ revoked, resp = .logout revoked → extractOwnerToken a.req.headers ≠ some token) ∨
    (resp.minted = some token ∧ s.expiresAt = a.draw.now + Instant.secs OwnerState.ttlSecs)
  cap : before.size ≤ 16 → after.size ≤ 16

namespace Accounts

variable {a : Arrival} {resp : Response} {st st' : OwnerState}

/-- A handler that leaves the map alone. -/
theorem same (hresp : ∀ revoked, resp ≠ .logout revoked)
    (h : st'.ownerSessions = st.ownerSessions) : Accounts a resp st st' := by
  refine ⟨?_, ?_⟩
  · intro token s hl
    rw [h] at hl
    exact Or.inl ⟨hl, fun revoked heq => absurd heq (hresp revoked)⟩
  · intro hcap
    simpa [OwnerState.size, h] using hcap

theorem purged (hresp : ∀ revoked, resp ≠ .logout revoked) (now : Instant) :
    Accounts a resp st (st.purgeExpiredOwnerSessions now) := by
  refine ⟨?_, ?_⟩
  · intro token s hl
    exact Or.inl ⟨(OwnerState.lookup_purge.1 hl).1, fun revoked heq => absurd heq (hresp revoked)⟩
  · intro hcap
    exact Nat.le_trans (OwnerState.size_purge now) hcap

theorem minted {source : String} (hsame : st'.ownerSessions = st.ownerSessions)
    (hresp : resp.minted = some (st'.mintOwnerSession a.draw source).1.1) :
    Accounts a resp st (st'.mintOwnerSession a.draw source).2 := by
  have hno : ∀ revoked, resp ≠ .logout revoked := by
    intro revoked heq
    rw [heq] at hresp
    cases hresp
  refine ⟨?_, ?_⟩
  · intro token s hl
    rcases OwnerState.lookup_mint hl with hold | ⟨htok, hexp⟩
    · rw [hsame] at hold
      exact Or.inl ⟨hold, fun revoked heq => absurd heq (hno revoked)⟩
    · exact Or.inr ⟨by rw [hresp, htok], hexp⟩
  · intro hcap
    refine OwnerState.size_mint source ?_
    simpa [OwnerState.size, hsame] using hcap

section Handlers

variable [Primitives] [Unicode]

theorem claimNode (st : OwnerState) (req : ClaimRequest) :
    Accounts a (st.claimNode a.draw req).1 st (st.claimNode a.draw req).2 := by
  unfold OwnerState.claimNode
  dsimp only
  split
  · exact same (by simp) rfl
  · split
    · exact same (by simp) rfl
    · split
      · exact same (by simp) rfl
      · split
        · exact same (by simp) rfl
        · exact minted rfl rfl

theorem recoveryLogin (st : OwnerState) (req : RecoveryLoginRequest) :
    Accounts a (st.recoveryLogin a.draw req).1 st (st.recoveryLogin a.draw req).2 := by
  unfold OwnerState.recoveryLogin
  dsimp only
  split
  · exact same (by simp) rfl
  · split
    · exact same (by simp) rfl
    · split
      · exact same (by simp) rfl
      · split
        · exact same (by simp) rfl
        · split
          · refine same (by simp) ?_
            unfold OwnerState.noteRecoveryFailure
            dsimp only
            split <;> rfl
          · exact minted rfl rfl

omit [Primitives] [Unicode] in
theorem ownerSessionStatus (st : OwnerState) :
    Accounts a (st.ownerSessionStatus a.draw.now a.req.headers).1 st
      (st.ownerSessionStatus a.draw.now a.req.headers).2 := by
  unfold OwnerState.ownerSessionStatus
  dsimp only
  split
  · exact same (by simp) rfl
  next token _ =>
    have hpurge := (OwnerState.ownerSessionValid_spec st a.draw.now token).1
    rcases hvalid : st.ownerSessionValid a.draw.now token with ⟨ok, st'⟩
    rw [hvalid] at hpurge
    simp only at hpurge
    subst hpurge
    cases ok with
    | false => exact purged (by simp) a.draw.now
    | true => exact purged (by simp) a.draw.now

omit [Primitives] [Unicode] in
theorem ownerLogout (st : OwnerState) :
    Accounts a (st.ownerLogout a.req.headers).1 st (st.ownerLogout a.req.headers).2 := by
  unfold OwnerState.ownerLogout
  cases htok : extractOwnerToken a.req.headers with
  | none => exact same (by simp) rfl
  | some token =>
      refine ⟨?_, ?_⟩
      · intro t s hl
        simp only [OwnerState.revokeOwnerSession, HashMap.lookup_erase_eq] at hl
        split at hl
        · cases hl
        next hne =>
          refine Or.inl ⟨hl, fun _ _ heq => hne ?_⟩
          rw [htok] at heq
          exact (Option.some.inj heq).symm
      · intro hcap
        rw [OwnerState.size_eq_keys] at hcap ⊢
        simp only [OwnerState.revokeOwnerSession, AList.keys_erase]
        exact Nat.le_trans List.length_erase_le hcap

variable [JsonBody ClaimRequest] [JsonBody RecoveryLoginRequest]

theorem handle (st : OwnerState) (a : Arrival) :
    Accounts a (st.handle a).1 st (st.handle a).2 := by
  unfold OwnerState.handle
  split
  · exact same (by simp) rfl
  · split
    · exact same (by simp) rfl
    · exact claimNode st _
  · split
    · exact same (by simp) rfl
    · exact recoveryLogin st _
  · exact ownerSessionStatus st
  · exact ownerLogout st
  · split
    · rcases OwnerState.requireOwnerToken_spec st a.draw.now (extractOwnerToken a.req.headers) with
        ⟨hst, hresp, _⟩
      rcases hreq : st.requireOwnerToken a.draw.now (extractOwnerToken a.req.headers) with
        ⟨refusal, st'⟩
      rw [hreq] at hst hresp
      have hacc : ∀ {resp : Response}, (∀ revoked, resp ≠ .logout revoked) →
          Accounts a resp st st' := by
        intro resp hno
        rcases hst with rfl | rfl
        · exact same hno rfl
        · exact purged hno a.draw.now
      cases refusal with
      | none => exact hacc (by simp)
      | some resp => exact hacc (hresp resp rfl)
    · exact same (by simp) rfl
  · exact same (by simp) rfl

end Handlers

end Accounts

/-! ## One request -/

theorem carries_of_flexible {req : Request} {token : String}
    (h : extractOwnerTokenFlexible req.headers (req.query.bind queryOwnerToken) = some token) :
    Carries req token := by
  unfold extractOwnerTokenFlexible extractOwnerToken at h
  unfold Carries
  cases hb : extractBearer req.headers with
  | some t =>
      rw [hb] at h
      exact Or.inl h
  | none =>
      rw [hb] at h
      dsimp only at h
      split at h
      next t ht => exact Or.inr (Or.inl (ht.trans h))
      · exact Or.inr (Or.inr h)

namespace RpcState

section Serve

variable [Primitives] [Unicode] [JsonBody ClaimRequest] [JsonBody RecoveryLoginRequest]

/-- The request mints the token: it reaches `claim_node` or `recovery_login` and succeeds. -/
def Mints (st : RpcState) (a : Arrival) (token : String) : Prop :=
  ∃ resp, (st.serve a).1 = .reached resp ∧ resp.minted = some token

/-- The request reaches `owner_logout` with the token. -/
def LogsOut (st : RpcState) (a : Arrival) (token : String) : Prop :=
  ∃ revoked, (st.serve a).1 = .reached (.logout revoked) ∧
    extractOwnerToken a.req.headers = some token

/-- What serving one request does to the sessions, and what it takes to get through. -/
structure Served (st : RpcState) (a : Arrival) : Prop where
  gate : ∀ resp, (st.serve a).1 = .reached resp → st.requireOwner = true →
    isPublicPath a.req.method a.req.path = false →
    ∃ token s, Carries a.req token ∧ st.inner.ownerSessions.lookup token = some s ∧
      a.draw.now < s.expiresAt
  origin : ∀ {token s}, (st.serve a).2.inner.ownerSessions.lookup token = some s →
    (st.inner.ownerSessions.lookup token = some s ∧ ¬ st.LogsOut a token) ∨
    (st.Mints a token ∧ s.expiresAt = a.draw.now + Instant.secs OwnerState.ttlSecs)
  cap : st.inner.size ≤ 16 → (st.serve a).2.inner.size ≤ 16
  requireOwner : (st.serve a).2.requireOwner = st.requireOwner

omit [Primitives] [Unicode] [JsonBody ClaimRequest] [JsonBody RecoveryLoginRequest] in
theorem checkRate_frame (st : RpcState) (now : Instant) (req : Request) :
    (st.checkRate now req).2.inner = st.inner ∧
      (st.checkRate now req).2.requireOwner = st.requireOwner := by
  unfold checkRate
  split
  · split <;> exact ⟨rfl, rfl⟩
  · exact ⟨rfl, rfl⟩

omit [Primitives] [Unicode] [JsonBody ClaimRequest] [JsonBody RecoveryLoginRequest] in
theorem checkOwner_spec (st : RpcState) (now : Instant) (req : Request) :
    ((st.checkOwner now req).2.inner = st.inner ∨
      (st.checkOwner now req).2.inner = st.inner.purgeExpiredOwnerSessions now) ∧
    (st.checkOwner now req).2.requireOwner = st.requireOwner ∧
    ((st.checkOwner now req).1 = none → st.requireOwner = true →
      isPublicPath req.method req.path = false →
      ∃ token s, Carries req token ∧ st.inner.ownerSessions.lookup token = some s ∧
        now < s.expiresAt) := by
  unfold checkOwner
  split
  · rcases OwnerState.requireOwnerToken_spec st.inner now
      (extractOwnerTokenFlexible req.headers (req.query.bind queryOwnerToken)) with
      ⟨hst, _, hpass⟩
    refine ⟨hst, rfl, fun hnone _ _ => ?_⟩
    rcases hpass hnone with ⟨t, s, htok, hl, hlive⟩
    exact ⟨t, s, carries_of_flexible htok, hl, hlive⟩
  next hgate =>
    refine ⟨Or.inl rfl, rfl, fun _ hown hpub => ?_⟩
    exact absurd ⟨hown, hpub⟩ hgate

/-- A request that the middleware answers leaves the sessions alone, but for expiry. -/
theorem Served.refused {st st' : RpcState} {a : Arrival} {resp : Response}
    (heq : st.serve a = (.refused resp, st'))
    (hinner : st'.inner = st.inner ∨ st'.inner = st.inner.purgeExpiredOwnerSessions a.draw.now)
    (hown : st'.requireOwner = st.requireOwner) : st.Served a := by
  have hno : ∀ resp', (st.serve a).1 ≠ .reached resp' := by
    intro resp'
    rw [heq]
    simp
  refine ⟨fun resp' h => absurd h (hno resp'), ?_, ?_, by rw [heq]; exact hown⟩
  · intro token s hl
    rw [heq] at hl
    refine Or.inl ⟨?_, fun ⟨revoked, h, _⟩ => hno _ h⟩
    rcases hinner with hinner | hinner
    · rwa [hinner] at hl
    · rw [hinner] at hl
      exact (OwnerState.lookup_purge.1 hl).1
  · intro hcap
    rw [heq]
    rcases hinner with hinner | hinner
    · rwa [hinner]
    · rw [hinner]
      exact Nat.le_trans (OwnerState.size_purge _) hcap

theorem served (st : RpcState) (a : Arrival) : st.Served a := by
  have hframe := checkRate_frame st a.draw.now a.req
  rcases hrate : st.checkRate a.draw.now a.req with ⟨refusal, st₁⟩
  rw [hrate] at hframe
  rcases hframe with ⟨hinner₁, hown₁⟩
  cases refusal with
  | some resp =>
      have heq : st.serve a = (.refused resp, st₁) := by
        simp [serve, hrate]
      exact Served.refused heq (Or.inl hinner₁) hown₁
  | none =>
      have hcheck := checkOwner_spec st₁ a.draw.now a.req
      rcases howner : st₁.checkOwner a.draw.now a.req with ⟨refusal, st₂⟩
      rw [howner] at hcheck
      rcases hcheck with ⟨hinner₂, hown₂, hpass⟩
      rw [hinner₁] at hinner₂ hpass
      cases refusal with
      | some resp =>
          have heq : st.serve a = (.refused resp, st₂) := by
            simp [serve, hrate, howner]
          exact Served.refused heq hinner₂ (hown₂.trans hown₁)
      | none =>
          have heq : st.serve a =
              (.reached (st₂.inner.handle a).1, { st₂ with inner := (st₂.inner.handle a).2 }) := by
            simp [serve, hrate, howner]
          have hacc := Accounts.handle st₂.inner a
          -- the handler sees the sessions, or those the check left of them
          have hback : ∀ {token s}, st₂.inner.ownerSessions.lookup token = some s →
              st.inner.ownerSessions.lookup token = some s := by
            intro token s hl
            rcases hinner₂ with hinner | hinner
            · rwa [hinner] at hl
            · rw [hinner] at hl
              exact (OwnerState.lookup_purge.1 hl).1
          refine ⟨?_, ?_, ?_, ?_⟩
          · intro resp _ hown hpub
            exact hpass rfl (hown₁.trans hown) hpub
          · intro token s hl
            rw [heq] at hl
            rcases hacc.origin hl with ⟨hold, hkept⟩ | ⟨hmint, hexp⟩
            · refine Or.inl ⟨hback hold, ?_⟩
              rintro ⟨revoked, hlog, htok⟩
              rw [heq] at hlog
              exact hkept revoked (Reply.reached.inj hlog) htok
            · exact Or.inr ⟨⟨_, by rw [heq], hmint⟩, hexp⟩
          · intro hcap
            rw [heq]
            refine hacc.cap ?_
            rcases hinner₂ with hinner | hinner
            · rwa [hinner]
            · rw [hinner]
              exact Nat.le_trans (OwnerState.size_purge _) hcap
          · rw [heq]
            exact hown₂.trans hown₁

/-! ## Whole runs -/

/-- The server after a sequence of requests. -/
def after (st : RpcState) (as : List Arrival) : RpcState :=
  Runs.run (fun st a => (st.serve a).2) st as

/-- The flag never changes and the cap always holds. -/
theorem after_invariant (st : RpcState) (as : List Arrival) (hcap : st.inner.size ≤ 16) :
    (st.after as).requireOwner = st.requireOwner ∧ (st.after as).inner.size ≤ 16 := by
  induction as generalizing st with
  | nil => exact ⟨rfl, hcap⟩
  | cons a as ih =>
      have hstep := served st a
      rcases ih (st.serve a).2 (hstep.cap hcap) with ⟨hown, hsize⟩
      exact ⟨hown.trans hstep.requireOwner, hsize⟩

/-- On a node that requires an owner and starts without sessions, at most sixteen tokens are live
after any requests; and a request that reaches a route that is not public carries a token that an
earlier claim or login minted less than 24 hours before and that no logout in between named. -/
theorem reached_carries_live_token (st : RpcState) (hfresh : st.inner.ownerSessions = ∅)
    (hown : st.requireOwner = true) (as : List Arrival) :
    (st.after as).inner.ownerSessions.entries.length ≤ 16 ∧
    ∀ (a : Arrival) (resp : Response), ((st.after as).serve a).1 = .reached resp →
      isPublicPath a.req.method a.req.path = false →
      ∃ token, Carries a.req token ∧ ∃ before b later, as = before ++ b :: later ∧
        (st.after before).Mints b token ∧ a.draw.now < b.draw.now + Instant.secs 86400 ∧
        ∀ mid c rest, later = mid ++ c :: rest →
          ¬ (st.after (before ++ b :: mid)).LogsOut c token := by
  have hinv := after_invariant st as (by simp [OwnerState.size, hfresh])
  refine ⟨hinv.2, ?_⟩
  intro a resp hreach hpub
  rcases (served (st.after as) a).gate resp hreach (hinv.1.trans hown) hpub with
    ⟨token, s, hcarry, hl, hlive⟩
  -- trace the pair of token and session; its expiry dates the minting
  let has : RpcState → String × OwnerSession → Prop := fun st r =>
    st.inner.ownerSessions.lookup r.1 = some r.2
  let makes : RpcState → Arrival → String × OwnerSession → Prop := fun st b r =>
    st.Mints b r.1 ∧ r.2.expiresAt = b.draw.now + Instant.secs OwnerState.ttlSecs
  let destroys : RpcState → Arrival → String × OwnerSession → Prop := fun st c r =>
    st.LogsOut c r.1
  have hstep : ∀ st b r, has (st.serve b).2 r → (has st r ∧ ¬ destroys st b r) ∨ makes st b r :=
    fun st b _ h => (served st b).origin h
  have hinit : ∀ r, ¬ has st r := by
    intro r
    simp [has, hfresh]
  have hhas : has (st.after as) (token, s) := hl
  rcases Runs.provenance hstep hinit as hhas with
    ⟨before, b, later, hsplit, ⟨hmint, hexp⟩, hkept⟩
  refine ⟨token, hcarry, before, b, later, hsplit, hmint, ?_, hkept⟩
  rw [hexp] at hlive
  exact hlive

end Serve

section Claimed

attribute [local instance] Checksum.primitives

/-- Names in ASCII need no more. -/
@[reducible] def asciiUppercase : Unicode :=
  { toUppercase := Text.toAsciiUppercase }

/-- The one body that `claim` sends. -/
def claimText : String :=
  "\x7b\"display_name\":\"Ada\"\x7d"

@[reducible] def claimBody : JsonBody ClaimRequest :=
  { extract := fun headers body =>
      if headers.get "content-type" = some (utf8Bytes "application/json") ∧
          body = utf8Bytes claimText then
        some { displayName := "Ada", recoveryCode := none }
      else
        none }

/-- Nothing here logs in. -/
@[reducible] def noLogin : JsonBody RecoveryLoginRequest :=
  { extract := fun _ _ => none }

attribute [local instance] asciiUppercase claimBody noLogin

def unclaimed : RpcState :=
  { inner := OwnerState.new (Checksum.device 1) ClaimState.default
    requireOwner := true
    rateLimits := RateLimitBook.empty
    rateLimitEnabled := true }

def drawAt (now : Instant) : Draw :=
  { now := now
    nowMs := 1000
    token := List.replicate 32 7
    code := List.replicate 10 9
    order := IterOrder.stored
    persist := .ok () }

def claim : Arrival :=
  { req :=
      { ip := "10.0.0.2"
        method := "POST"
        path := "/v1/claim"
        query := none
        headers := [("content-type", utf8Bytes "application/json")]
        body := utf8Bytes claimText }
    draw := drawAt 0
    checks := false }

/-- The owner lists the devices a minute later. -/
def listDevices : Arrival :=
  { req :=
      { ip := "10.0.0.2"
        method := "GET"
        path := "/v1/devices"
        query := none
        headers := [("authorization",
          utf8Bytes ("Bearer " ++ Text.hexEncode (List.replicate 32 7)))]
        body := [] }
    draw := drawAt (Instant.secs 60)
    checks := false }

theorem reached_carries_live_token_devices :
    (((unclaimed.after [claim]).serve listDevices).1 = .reached .answered ∧
      isPublicPath listDevices.req.method listDevices.req.path = false) ∧
    ∃ token, Carries listDevices.req token ∧ ∃ before b later, [claim] = before ++ b :: later ∧
      (unclaimed.after before).Mints b token ∧ Instant.secs 60 < b.draw.now + Instant.secs 86400 ∧
      ∀ mid c rest, later = mid ++ c :: rest →
        ¬ (unclaimed.after (before ++ b :: mid)).LogsOut c token := by
  have hreach : ((unclaimed.after [claim]).serve listDevices).1 = .reached .answered := by
    decide +kernel
  have hpub : isPublicPath listDevices.req.method listDevices.req.path = false := by
    decide +kernel
  exact ⟨⟨hreach, hpub⟩,
    (reached_carries_live_token unclaimed rfl rfl [claim]).2 listDevices .answered hreach hpub⟩

end Claimed

end RpcState

end Node
end Thunderducks
