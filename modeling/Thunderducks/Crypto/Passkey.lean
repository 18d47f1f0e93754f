import Mathlib.Data.List.GetD
import Thunderducks.Crypto.Base64
import Thunderducks.Crypto.Origin
import Thunderducks.Event.Checksum
import Thunderducks.Lib.HashMap
import Thunderducks.Lib.JsonRead

/-!
# Passkey — registering and asserting passkeys (`td-crypto/src/passkey.rs`)

A registry mints challenges, takes each of them back at the first `finish` call that names it, and keeps
credentials.  The two `finish` calls check the client data alike; what `finish_registration` checks of the
authenticator data, `finish_authentication` does not: `authenticatesSoundly_iff` says when that matters.
-/

namespace Thunderducks
namespace Crypto

open Lib Event Base64

/-! ## Data -/

inductive PasskeyError where
  | unknownChallenge
  | challengeMismatch
  | clientData (text : String)
  | authData (text : String)
  | unknownCredential
  | signature (text : String)
  | codec (text : String)
  | unsupportedKey
  deriving DecidableEq

structure RelyingParty where
  id : String
  name : String

structure UserEntity where
  id : String
  name : String
  displayName : String

structure PubKeyCredParam where
  type : String
  alg : Int

structure PublicKeyCredentialCreationOptions where
  challenge : String
  rp : RelyingParty
  user : UserEntity
  pubKeyCredParams : List PubKeyCredParam
  timeoutMs : UInt32
  attestation : String

structure AllowCredential where
  type : String
  id : String

structure PublicKeyCredentialRequestOptions where
  challenge : String
  rpId : String
  timeoutMs : UInt32
  allowCredentials : List AllowCredential

structure StoredCredential where
  credentialId : Bytes
  publicKeySpki : Bytes
  userHandle : Bytes
  signCount : UInt32
  label : String
  deriving DecidableEq

inductive ChallengePurpose where
  | register
  | authenticate
  deriving DecidableEq

structure ChallengeRecord where
  purpose : ChallengePurpose
  userHandle : Bytes

structure PasskeyRegistry where
  challenges : HashMap String ChallengeRecord
  creds : HashMap Bytes StoredCredential
  rpId : String
  rpName : String
  origin : String

structure ClientData where
  type : String
  challenge : String
  origin : String

/-- The arguments of `finish_registration`. -/
structure FinishRegistration where
  challenge : String
  credentialIdB64 : String
  clientDataJsonB64 : String
  authenticatorDataB64 : String
  publicKeySpkiB64 : String
  label : String

/-- The arguments of `finish_authentication`. -/
structure FinishAuthentication where
  challenge : String
  credentialIdB64 : String
  clientDataJsonB64 : String
  authenticatorDataB64 : String
  signatureB64 : String

/-- What is used of `sha2`, `p256` and `serde_json`.  The errors are their texts. -/
class WebAuthn where
  sha256 : Bytes → Bytes32
  VerifyingKey : Type
  Signature : Type
  fromPublicKeyDer : Bytes → Except String VerifyingKey
  signatureFromDer : Bytes → Except String Signature
  signatureFromSlice : Bytes → Except String Signature
  verify : VerifyingKey → Bytes → Signature → Except String Unit
  /-- `serde_json::from_slice::<ClientData>` -/
  clientData : Bytes → Except String ClientData

/-! ## Parsing -/

def b64urlDecode (s : String) : Except PasskeyError Bytes :=
  (base64DecodeConfig s true).mapError PasskeyError.codec

/-- `signCount` in `authData` bytes 33..37, if they are there. -/
def signCountOf (authData : Bytes) : Option UInt32 :=
  match authData.drop 33 with
  | b0 :: b1 :: b2 :: b3 :: _ =>
      some (b0.toUInt32 <<< 24 ||| b1.toUInt32 <<< 16 ||| b2.toUInt32 <<< 8 ||| b3.toUInt32)
  | _ => none

/-- A counter that is not zero is stored. -/
def StoredCredential.counted (cred : StoredCredential) (authData : Bytes) : StoredCredential :=
  match signCountOf authData with
  | none => cred
  | some sc => if 0 < sc then { cred with signCount := sc } else cred

section Checks

variable [WebAuthn]

def parseClientData (raw : Bytes) : Except PasskeyError ClientData :=
  (WebAuthn.clientData raw).mapError PasskeyError.clientData

/-- The client data of either ceremony: of a type, for a challenge, from an origin that is allowed. -/
def clientDataOf (challenge clientDataJsonB64 type origin : String) (refusal : String → String) :
    Except PasskeyError Bytes := do
  let clientRaw ← b64urlDecode clientDataJsonB64
  let client ← parseClientData clientRaw
  ensure (client.challenge = challenge) PasskeyError.challengeMismatch
  ensure (client.type = type) (PasskeyError.clientData ("expected " ++ type ++ ", got " ++ client.type))
  ensure (originOk client.origin origin = true) (PasskeyError.clientData (refusal client.origin))
  .ok clientRaw

/-- The authenticator data of a registration: the 127.0.0.1 rpId hash is allowed as well. -/
def checkAuthData (rpId : String) (authData : Bytes) : Except PasskeyError Unit := do
  ensure (37 ≤ authData.length) (PasskeyError.authData "too short")
  ensure (authData.take 32 = (WebAuthn.sha256 (rpId.toList.flatMap String.utf8EncodeChar)).toList ∨
      authData.take 32 = (WebAuthn.sha256 ("127.0.0.1".toList.flatMap String.utf8EncodeChar)).toList)
    (PasskeyError.authData "rpIdHash mismatch")
  ensure (authData.getD 32 0 &&& 1 ≠ 0) (PasskeyError.authData "UP flag not set")

/-- WebAuthn uses ASN.1 DER signatures commonly; the other form is tried next. -/
def signatureOf (sig : Bytes) : Except PasskeyError WebAuthn.Signature :=
  match WebAuthn.signatureFromDer sig with
  | .ok signature => .ok signature
  | .error _ => (WebAuthn.signatureFromSlice sig).mapError PasskeyError.signature

def verifyingKeyOf (spki : Bytes) : Except PasskeyError WebAuthn.VerifyingKey :=
  (WebAuthn.fromPublicKeyDer spki).mapError PasskeyError.codec

/-- What an authenticator signs. -/
def signedMessage (authData clientRaw : Bytes) : Bytes :=
  authData ++ (WebAuthn.sha256 clientRaw).toList

end Checks

/-! ## The calls -/

namespace PasskeyRegistry

def new (rpId rpName origin : String) : PasskeyRegistry :=
  { challenges := ∅
    creds := ∅
    rpId := rpId
    rpName := rpName
    origin := origin }

def localhostDefault : PasskeyRegistry :=
  -- WebAuthn requires secure context; localhost is allowed.
  new "localhost" "Thunderducks" localhostOrigin

/-- `raw` is drawn at random. -/
def mintChallenge (reg : PasskeyRegistry) (raw : Bytes32) (purpose : ChallengePurpose) (userHandle : Bytes) :
    String × PasskeyRegistry :=
  let ch := b64url raw.toList
  (ch, { reg with challenges := reg.challenges.insert ch { purpose := purpose, userHandle := userHandle } })

def beginRegistration (reg : PasskeyRegistry) (handle : Vector UInt8 16) (raw : Bytes32)
    (userName displayName : String) : PublicKeyCredentialCreationOptions × PasskeyRegistry :=
  let (challenge, reg) := reg.mintChallenge raw .register handle.toList
  ({ challenge := challenge
     rp := { id := reg.rpId, name := reg.rpName }
     user := { id := b64url handle.toList, name := userName, displayName := displayName }
     pubKeyCredParams := [{ type := "public-key", alg := -7 }]
     timeoutMs := 60000
     attestation := "none" }, reg)

/-- The credentials are listed in the order of the map. -/
def beginAuthentication (reg : PasskeyRegistry) (raw : Bytes32) (order : IterOrder Bytes) :
    PublicKeyCredentialRequestOptions × PasskeyRegistry :=
  let (challenge, reg) := reg.mintChallenge raw .authenticate []
  ({ challenge := challenge
     rpId := reg.rpId
     timeoutMs := 60000
     allowCredentials := (order.run reg.creds.keys).map fun id => { type := "public-key", id := b64url id } },
   reg)

/-- `challenges.remove` -/
def takeChallenge (reg : PasskeyRegistry) (challenge : String) : Option ChallengeRecord × PasskeyRegistry :=
  (reg.challenges.lookup challenge, { reg with challenges := reg.challenges.erase challenge })

section Finish

variable [WebAuthn]

/-- The credential that a registration stores. -/
def registered (reg : PasskeyRegistry) (record : ChallengeRecord) (req : FinishRegistration) :
    Except PasskeyError StoredCredential := do
  ensure (record.purpose = .register) PasskeyError.challengeMismatch
  let _ ← clientDataOf req.challenge req.clientDataJsonB64 "webauthn.create" reg.origin
    fun origin => "origin " ++ origin ++ " not allowed for " ++ reg.origin
  let authData ← b64urlDecode req.authenticatorDataB64
  checkAuthData reg.rpId authData
  let credId ← b64urlDecode req.credentialIdB64
  let spki ← b64urlDecode req.publicKeySpkiB64
  -- validate parseable ES256 key
  let _ ← verifyingKeyOf spki
  .ok
    { credentialId := credId
      publicKeySpki := spki
      userHandle := record.userHandle
      signCount := 0
      label := req.label }

def finishRegistration (reg : PasskeyRegistry) (req : FinishRegistration) :
    Except PasskeyError StoredCredential × PasskeyRegistry :=
  let (record, reg) := reg.takeChallenge req.challenge
  -- the challenge is gone from here on, whatever fails below
  match record with
  | none => (.error .unknownChallenge, reg)
  | some record =>
      match reg.registered record req with
      | .error e => (.error e, reg)
      | .ok stored => (.ok stored, { reg with creds := reg.creds.insert stored.credentialId stored })

/-- What an assertion names: the credential, under its id, and the authenticator data. -/
def asserted (reg : PasskeyRegistry) (record : ChallengeRecord) (req : FinishAuthentication) :
    Except PasskeyError (Bytes × StoredCredential × Bytes) := do
  ensure (record.purpose = .authenticate) PasskeyError.challengeMismatch
  let clientRaw ← clientDataOf req.challenge req.clientDataJsonB64 "webauthn.get" reg.origin
    fun origin => "origin " ++ origin ++ " not allowed"
  let credId ← b64urlDecode req.credentialIdB64
  let cred ← okOr (reg.creds.lookup credId) PasskeyError.unknownCredential
  -- a registration checks what it decodes here, an assertion does not
  let authData ← b64urlDecode req.authenticatorDataB64
  let sig ← b64urlDecode req.signatureB64
  let vk ← verifyingKeyOf cred.publicKeySpki
  let signature ← signatureOf sig
  (WebAuthn.verify vk (signedMessage authData clientRaw) signature).mapError PasskeyError.signature
  .ok (credId, cred, authData)

def finishAuthentication (reg : PasskeyRegistry) (req : FinishAuthentication) :
    Except PasskeyError String × PasskeyRegistry :=
  let (record, reg) := reg.takeChallenge req.challenge
  match record with
  | none => (.error .unknownChallenge, reg)
  | some record =>
      match reg.asserted record req with
      | .error e => (.error e, reg)
      | .ok (credId, cred, authData) =>
          (.ok (b64url cred.credentialId),
            { reg with creds := reg.creds.insert credId (cred.counted authData) })

end Finish

end PasskeyRegistry

/-! ## What the calls check -/

section Passes

variable [WebAuthn]

/-- The client data decodes to `clientRaw`, of this type, naming this challenge, from an origin that is
allowed. -/
structure ClientDataOk (challenge clientDataJsonB64 type origin : String) (clientRaw : Bytes) : Prop where
  decodes : base64DecodeConfig clientDataJsonB64 true = .ok clientRaw
  parses : ∃ client, WebAuthn.clientData clientRaw = .ok client ∧ client.challenge = challenge ∧
    client.type = type ∧ originOk client.origin origin = true

/-- What `finish_registration` asks of the authenticator data. -/
structure AuthDataOk (rpId : String) (authData : Bytes) : Prop where
  long : 37 ≤ authData.length
  rpIdHash : authData.take 32 = (WebAuthn.sha256 (rpId.toList.flatMap String.utf8EncodeChar)).toList ∨
    authData.take 32 = (WebAuthn.sha256 ("127.0.0.1".toList.flatMap String.utf8EncodeChar)).toList
  userPresent : authData.getD 32 0 &&& 1 ≠ 0

/-- A signature over the data verifies under the key. -/
def SignatureOk (spki authData clientRaw : Bytes) (signatureB64 : String) : Prop :=
  ∃ sig vk signature, base64DecodeConfig signatureB64 true = .ok sig ∧
    WebAuthn.fromPublicKeyDer spki = .ok vk ∧ signatureOf sig = .ok signature ∧
      WebAuthn.verify vk (signedMessage authData clientRaw) signature = .ok ()

omit [WebAuthn] in
theorem b64urlDecode_ok_iff {s : String} {bs : Bytes} :
    b64urlDecode s = .ok bs ↔ base64DecodeConfig s true = .ok bs :=
  mapError_ok_iff

theorem clientDataOf_ok_iff {challenge json type origin : String} {refusal : String → String}
    {clientRaw : Bytes} :
    clientDataOf challenge json type origin refusal = .ok clientRaw ↔
      ClientDataOk challenge json type origin clientRaw := by
  unfold clientDataOf
  simp only [bind_ok_iff, ensure_ok_iff, b64urlDecode_ok_iff, parseClientData, mapError_ok_iff]
  constructor
  · rintro ⟨raw, hdec, client, hparse, _, hch, _, htype, _, horigin, hraw⟩
    cases hraw
    exact ⟨hdec, client, hparse, hch, htype, horigin⟩
  · rintro ⟨hdec, client, hparse, hch, htype, horigin⟩
    exact ⟨clientRaw, hdec, client, hparse, (), hch, (), htype, (), horigin, rfl⟩

theorem checkAuthData_ok_iff {rpId : String} {authData : Bytes} {u : Unit} :
    checkAuthData rpId authData = .ok u ↔ AuthDataOk rpId authData := by
  unfold checkAuthData
  simp only [bind_ok_iff, ensure_ok_iff]
  constructor
  · rintro ⟨_, hlong, _, hhash, hup⟩
    exact ⟨hlong, hhash, hup⟩
  · rintro ⟨hlong, hhash, hup⟩
    exact ⟨(), hlong, (), hhash, hup⟩

namespace PasskeyRegistry

variable {reg : PasskeyRegistry}

/-- The challenge is outstanding, for this ceremony. -/
def Outstanding (reg : PasskeyRegistry) (challenge : String) (purpose : ChallengePurpose)
    (userHandle : Bytes) : Prop :=
  reg.challenges.lookup challenge = some { purpose := purpose, userHandle := userHandle }

/-- A registration that passes, and the credential it stores. -/
structure Registers (reg : PasskeyRegistry) (req : FinishRegistration) (stored : StoredCredential) : Prop where
  outstanding : reg.Outstanding req.challenge .register stored.userHandle
  client : ∃ clientRaw,
    ClientDataOk req.challenge req.clientDataJsonB64 "webauthn.create" reg.origin clientRaw
  authenticator : ∃ authData, base64DecodeConfig req.authenticatorDataB64 true = .ok authData ∧
    AuthDataOk reg.rpId authData
  names : base64DecodeConfig req.credentialIdB64 true = .ok stored.credentialId
  spki : base64DecodeConfig req.publicKeySpkiB64 true = .ok stored.publicKeySpki
  key : ∃ vk, WebAuthn.fromPublicKeyDer stored.publicKeySpki = .ok vk
  signCount : stored.signCount = 0
  label : stored.label = req.label

/-- An assertion that passes, the credential it names, and its authenticator data. -/
structure Asserts (reg : PasskeyRegistry) (req : FinishAuthentication) (credId : Bytes)
    (cred : StoredCredential) (authData : Bytes) : Prop where
  outstanding : ∃ userHandle, reg.Outstanding req.challenge .authenticate userHandle
  names : base64DecodeConfig req.credentialIdB64 true = .ok credId
  known : reg.creds.lookup credId = some cred
  authenticator : base64DecodeConfig req.authenticatorDataB64 true = .ok authData
  signed : ∃ clientRaw, ClientDataOk req.challenge req.clientDataJsonB64 "webauthn.get" reg.origin clientRaw ∧
    SignatureOk cred.publicKeySpki authData clientRaw req.signatureB64

theorem registered_ok_iff {record : ChallengeRecord} (req : FinishRegistration) (stored : StoredCredential)
    (hrec : reg.challenges.lookup req.challenge = some record) :
    (reg.takeChallenge req.challenge).2.registered record req = .ok stored ↔ reg.Registers req stored := by
  unfold registered
  simp only [bind_ok_iff, ensure_ok_iff, b64urlDecode_ok_iff, clientDataOf_ok_iff, checkAuthData_ok_iff,
    verifyingKeyOf, mapError_ok_iff]
  constructor
  · rintro ⟨_, hpurpose, raw, hclient, authData, hauth, _, hok, credId, hcred, spki, hspki, vk, hvk, hstored⟩
    cases hstored
    refine ⟨?_, ⟨raw, hclient⟩, ⟨authData, hauth, hok⟩, hcred, hspki, ⟨vk, hvk⟩, rfl, rfl⟩
    rw [Outstanding, hrec, ← hpurpose]
  · rintro ⟨hout, ⟨raw, hclient⟩, ⟨authData, hauth, hok⟩, hcred, hspki, ⟨vk, hvk⟩, hcount, hlabel⟩
    rw [Outstanding, hrec, Option.some.injEq] at hout
    subst hout
    refine ⟨(), rfl, raw, hclient, authData, hauth, (), hok, _, hcred, _, hspki, vk, hvk, ?_⟩
    rw [← hlabel, ← hcount]

theorem asserted_ok_iff {record : ChallengeRecord} (req : FinishAuthentication) (credId authData : Bytes)
    (cred : StoredCredential) (hrec : reg.challenges.lookup req.challenge = some record) :
    (reg.takeChallenge req.challenge).2.asserted record req = .ok (credId, cred, authData) ↔
      reg.Asserts req credId cred authData := by
  unfold asserted
  simp only [bind_ok_iff, ensure_ok_iff, b64urlDecode_ok_iff, clientDataOf_ok_iff, okOr_ok_iff, verifyingKeyOf,
    mapError_ok_iff]
  constructor
  · rintro ⟨_, hpurpose, raw, hclient, id, hid, c, hc, auth, hauth, sig, hsig, vk, hvk, signature, hsignature,
      _, hverify, heq⟩
    cases heq
    refine ⟨⟨record.userHandle, ?_⟩, hid, hc, hauth, raw, hclient, sig, vk, signature, hsig, hvk, hsignature,
      hverify⟩
    rw [Outstanding, hrec, ← hpurpose]
  · rintro ⟨⟨handle, hout⟩, hid, hc, hauth, raw, hclient, sig, vk, signature, hsig, hvk, hsignature, hverify⟩
    rw [Outstanding, hrec, Option.some.injEq] at hout
    subst hout
    exact ⟨(), rfl, raw, hclient, credId, hid, cred, hc, authData, hauth, sig, hsig, vk, hvk, signature,
      hsignature, (), hverify, rfl⟩

/-- The registry without the challenge. -/
def without (reg : PasskeyRegistry) (challenge : String) : PasskeyRegistry :=
  { reg with challenges := reg.challenges.erase challenge }

/-- A registration passes and stores its credential, or it fails; the challenge is gone. -/
theorem finishRegistration_cases (reg : PasskeyRegistry) (req : FinishRegistration) :
    (∃ stored, reg.Registers req stored ∧ reg.finishRegistration req =
      (.ok stored, { reg.without req.challenge with creds := reg.creds.insert stored.credentialId stored })) ∨
    (∃ e, (∀ stored, ¬ reg.Registers req stored) ∧
      reg.finishRegistration req = (.error e, reg.without req.challenge)) := by
  unfold finishRegistration
  dsimp only [takeChallenge]
  cases hrec : reg.challenges.lookup req.challenge with
  | none =>
      refine Or.inr ⟨.unknownChallenge, ?_, rfl⟩
      intro stored h
      have := h.outstanding
      rw [Outstanding, hrec] at this
      cases this
  | some record =>
      -- the checks read the registry without the challenge, `Registers` speaks of the one before
      have hiff := fun stored => reg.registered_ok_iff req stored hrec
      dsimp only [takeChallenge] at hiff ⊢
      cases hreg : PasskeyRegistry.registered { reg with challenges := reg.challenges.erase req.challenge }
          record req with
      | error e =>
          refine Or.inr ⟨e, ?_, rfl⟩
          intro stored h
          rw [← hiff, hreg] at h
          cases h
      | ok stored => exact Or.inl ⟨stored, (hiff stored).1 hreg, rfl⟩

/-- An assertion passes and counts, or it fails; the challenge is gone. -/
theorem finishAuthentication_cases (reg : PasskeyRegistry) (req : FinishAuthentication) :
    (∃ credId cred authData, reg.Asserts req credId cred authData ∧ reg.finishAuthentication req =
      (.ok (b64url cred.credentialId),
        { reg.without req.challenge with creds := reg.creds.insert credId (cred.counted authData) })) ∨
    (∃ e, (∀ credId cred authData, ¬ reg.Asserts req credId cred authData) ∧
      reg.finishAuthentication req = (.error e, reg.without req.challenge)) := by
  unfold finishAuthentication
  dsimp only [takeChallenge]
  cases hrec : reg.challenges.lookup req.challenge with
  | none =>
      refine Or.inr ⟨.unknownChallenge, ?_, rfl⟩
      intro credId cred authData h
      rcases h.outstanding with ⟨handle, hout⟩
      rw [Outstanding, hrec] at hout
      cases hout
  | some record =>
      have hiff := fun credId cred authData => reg.asserted_ok_iff req credId authData cred hrec
      dsimp only [takeChallenge] at hiff ⊢
      cases hreg : PasskeyRegistry.asserted { reg with challenges := reg.challenges.erase req.challenge }
          record req with
      | error e =>
          refine Or.inr ⟨e, ?_, rfl⟩
          intro credId cred authData h
          rw [← hiff, hreg] at h
          cases h
      | ok found =>
          rcases found with ⟨credId, cred, authData⟩
          exact Or.inl ⟨credId, cred, authData, (hiff credId cred authData).1 hreg, rfl⟩

theorem Registers.finish {req : FinishRegistration} {stored : StoredCredential}
    (h : reg.Registers req stored) : reg.finishRegistration req = (.ok stored,
      { reg.without req.challenge with creds := reg.creds.insert stored.credentialId stored }) := by
  rcases reg.finishRegistration_cases req with ⟨stored', h', hrun⟩ | ⟨e, hno, _⟩
  · have hsame := (registered_ok_iff req stored h.outstanding).2 h
    rw [(registered_ok_iff req stored' h.outstanding).2 h', Except.ok.injEq] at hsame
    rw [hrun, hsame]
  · exact absurd h (hno stored)

theorem Asserts.finish {req : FinishAuthentication} {credId authData : Bytes} {cred : StoredCredential}
    (h : reg.Asserts req credId cred authData) :
    reg.finishAuthentication req = (.ok (b64url cred.credentialId),
      { reg.without req.challenge with creds := reg.creds.insert credId (cred.counted authData) }) := by
  rcases reg.finishAuthentication_cases req with ⟨credId', cred', authData', h', hrun⟩ | ⟨e, hno, _⟩
  · rcases h.outstanding with ⟨userHandle, hout⟩
    have hsame := (asserted_ok_iff req credId authData cred hout).2 h
    rw [(asserted_ok_iff req credId' authData' cred' hout).2 h'] at hsame
    cases hsame
    exact hrun
  · exact absurd h (hno credId cred authData)

/-! ## What a success of an assertion stands for -/

/-- What a successful assertion is to have: authenticator data that a registration would take, client data
of its type for its challenge, and a signature of the stored key over both. -/
def AuthenticatesSoundly (reg : PasskeyRegistry) (req : FinishAuthentication) : Prop :=
  ∀ id, (reg.finishAuthentication req).1 = .ok id → ∃ authData clientRaw credId cred,
    base64DecodeConfig req.authenticatorDataB64 true = .ok authData ∧ AuthDataOk reg.rpId authData ∧
      ClientDataOk req.challenge req.clientDataJsonB64 "webauthn.get" reg.origin clientRaw ∧
        base64DecodeConfig req.credentialIdB64 true = .ok credId ∧ reg.creds.lookup credId = some cred ∧
          SignatureOk cred.publicKeySpki authData clientRaw req.signatureB64

theorem finishAuthentication_ok_iff {req : FinishAuthentication} :
    (∃ id, (reg.finishAuthentication req).1 = .ok id) ↔
      ∃ credId cred authData, reg.Asserts req credId cred authData := by
  rcases reg.finishAuthentication_cases req with ⟨credId, cred, authData, h, hrun⟩ | ⟨e, hno, hrun⟩
  · rw [hrun]
    exact iff_of_true ⟨_, rfl⟩ ⟨credId, cred, authData, h⟩
  · rw [hrun]
    refine iff_of_false ?_ ?_
    · rintro ⟨id, hid⟩
      cases hid
    · rintro ⟨credId, cred, authData, h⟩
      exact hno credId cred authData h

/-- All of it but the authenticator data is checked. -/
theorem authenticatesSoundly_iff (reg : PasskeyRegistry) (req : FinishAuthentication) :
    reg.AuthenticatesSoundly req ↔
      ∀ credId cred authData, reg.Asserts req credId cred authData → AuthDataOk reg.rpId authData := by
  constructor
  · -- an assertion that passes succeeds, and the data decodes in one way
    intro h credId cred authData hass
    rcases finishAuthentication_ok_iff.2 ⟨credId, cred, authData, hass⟩ with ⟨id, hid⟩
    rcases h id hid with ⟨authData', _, _, _, hdec, hok, _⟩
    have hsame : authData' = authData := by
      rw [hass.authenticator] at hdec
      exact (Except.ok.inj hdec).symm
    rwa [← hsame]
  · intro h id hid
    rcases finishAuthentication_ok_iff.1 ⟨id, hid⟩ with ⟨credId, cred, authData, hass⟩
    rcases hass.signed with ⟨clientRaw, hclient, hsig⟩
    exact ⟨authData, clientRaw, credId, cred, hass.authenticator, h credId cred authData hass, hclient,
      hass.names, hass.known, hsig⟩

end PasskeyRegistry

end Passes

/-! ## A registry to run -/

namespace PasskeyRegistry

/-- A field of an object that is a string. -/
def stringField (fields : List (String × Json)) (key : String) : Except String String :=
  match fields.lookup key with
  | some (.str s) => .ok s
  | _ => .error ("missing field " ++ key)

/-- The signature of a message under the key `spki`. -/
def checksumSignature (spki msg : Bytes) : Bytes :=
  (Checksum.spread 64 (Checksum.poly (spki ++ msg))).toList

theorem length_checksumSignature {spki msg : Bytes} : (checksumSignature spki msg).length = 64 :=
  Vector.length_toList

/-- Checksums for hashes and signatures, and client data in compact JSON. -/
@[reducible] def checksumWebAuthn : WebAuthn :=
  { sha256 := fun bs => Checksum.spread 32 (Checksum.poly bs)
    VerifyingKey := Bytes
    Signature := Bytes
    fromPublicKeyDer := fun spki => if spki.length = 32 then .ok spki else .error "malformed key"
    signatureFromDer := fun sig => if sig.length = 64 then .ok sig else .error "malformed signature"
    signatureFromSlice := fun sig => if sig.length = 64 then .ok sig else .error "malformed signature"
    verify := fun vk msg sig =>
      if sig = checksumSignature vk msg then .ok () else .error "signature error"
    clientData := fun raw =>
      match Json.read raw with
      | some (.obj fields) => do
          let type ← stringField fields "type"
          let challenge ← stringField fields "challenge"
          let origin ← stringField fields "origin"
          .ok { type := type, challenge := challenge, origin := origin }
      | _ => .error "not an object" }

section Enrolled

attribute [local instance] checksumWebAuthn

def clientBytes (type challenge : String) : Bytes :=
  Json.render (.obj [("type", .str type), ("challenge", .str challenge), ("origin", .str localhostOrigin)])

/-- The challenge drawn from `n`. -/
def challengeText (n : Nat) : String :=
  b64url (Checksum.spread 32 n).toList

/-- The rpId hash, the flags and a counter. -/
def authenticatorData (counter : UInt8) : Bytes :=
  (WebAuthn.sha256 ("localhost".toList.flatMap String.utf8EncodeChar)).toList ++ [5, 0, 0, 0, counter]

def credentialName : Bytes :=
  [99, 114, 101, 100, 45, 49]

/-- For the challenge drawn from `n`. -/
def registrationOf (n : Nat) (spki : Bytes) : FinishRegistration :=
  { challenge := challengeText n
    credentialIdB64 := b64url credentialName
    clientDataJsonB64 := b64url (clientBytes "webauthn.create" (challengeText n))
    authenticatorDataB64 := b64url (authenticatorData 0)
    publicKeySpkiB64 := b64url spki
    label := "primary" }

def credentialOf (spki userHandle : Bytes) : StoredCredential :=
  { credentialId := credentialName
    publicKeySpki := spki
    userHandle := userHandle
    signCount := 0
    label := "primary" }

/-- Signed over this authenticator data. -/
def assertionOf (n : Nat) (spki authData : Bytes) : FinishAuthentication :=
  let clientRaw := clientBytes "webauthn.get" (challengeText n)
  { challenge := challengeText n
    credentialIdB64 := b64url credentialName
    clientDataJsonB64 := b64url clientRaw
    authenticatorDataB64 := b64url authData
    signatureB64 := b64url (checksumSignature spki (signedMessage authData clientRaw)) }

theorem clientDataOk_clientBytes (type challenge : String) :
    ClientDataOk challenge (b64url (clientBytes type challenge)) type localhostOrigin
      (clientBytes type challenge) := by
  have hparse : WebAuthn.clientData (clientBytes type challenge) =
      .ok { type := type, challenge := challenge, origin := localhostOrigin } := by
    unfold clientBytes
    dsimp only [WebAuthn.clientData]
    rw [Json.read_render]
    rfl
  exact ⟨base64DecodeConfig_b64url _, _, hparse, rfl, rfl, by simp [originOk]⟩

theorem authDataOk_authenticatorData (counter : UInt8) :
    AuthDataOk "localhost" (authenticatorData counter) := by
  have hlen : (WebAuthn.sha256 ("localhost".toList.flatMap String.utf8EncodeChar)).toList.length = 32 :=
    Vector.length_toList ..
  refine ⟨?_, Or.inl ?_, ?_⟩
  · rw [authenticatorData, List.length_append, hlen]
    exact Nat.le_refl 37
  · exact List.take_left' hlen
  · rw [authenticatorData, List.getD_append_right _ _ _ _ (Nat.le_of_eq hlen), hlen]
    exact (by decide : (5 : UInt8) &&& 1 ≠ 0)

theorem fromPublicKeyDer_ok {spki : Bytes} (h : spki.length = 32) :
    WebAuthn.fromPublicKeyDer spki = .ok spki :=
  if_pos h

theorem signatureOf_ok {sig : Bytes} (h : sig.length = 64) : signatureOf sig = .ok sig := by
  unfold signatureOf
  dsimp only [WebAuthn.signatureFromDer]
  rw [if_pos h]

/-- A registration for an outstanding challenge passes. -/
theorem registers_registrationOf {reg : PasskeyRegistry} {n : Nat} {spki userHandle : Bytes}
    (hout : reg.Outstanding (challengeText n) .register userHandle) (hrp : reg.rpId = "localhost")
    (horigin : reg.origin = localhostOrigin) (hlen : spki.length = 32) :
    reg.Registers (registrationOf n spki) (credentialOf spki userHandle) := by
  have hclient := clientDataOk_clientBytes "webauthn.create" (challengeText n)
  have hdata := authDataOk_authenticatorData 0
  rw [← horigin] at hclient
  rw [← hrp] at hdata
  exact ⟨hout, ⟨_, hclient⟩, ⟨_, base64DecodeConfig_b64url _, hdata⟩, base64DecodeConfig_b64url _,
    base64DecodeConfig_b64url _, ⟨spki, fromPublicKeyDer_ok hlen⟩, rfl, rfl⟩

/-- So does an assertion for a credential of this key, whatever authenticator data it carries. -/
theorem asserts_assertionOf {reg : PasskeyRegistry} {n : Nat} {spki userHandle authData : Bytes}
    {cred : StoredCredential} (hout : reg.Outstanding (challengeText n) .authenticate userHandle)
    (horigin : reg.origin = localhostOrigin) (hcred : reg.creds.lookup credentialName = some cred)
    (hkey : cred.publicKeySpki = spki) (hlen : spki.length = 32) :
    reg.Asserts (assertionOf n spki authData) credentialName cred authData := by
  subst hkey
  have hclient := clientDataOk_clientBytes "webauthn.get" (challengeText n)
  rw [← horigin] at hclient
  exact ⟨⟨userHandle, hout⟩, base64DecodeConfig_b64url _, hcred, base64DecodeConfig_b64url _, _, hclient, _,
    _, _, base64DecodeConfig_b64url _, fromPublicKeyDer_ok hlen, signatureOf_ok length_checksumSignature,
    if_pos rfl⟩

def exampleKey : Bytes :=
  List.replicate 32 7

def exampleHandle : Vector UInt8 16 :=
  Vector.replicate 16 1

/-- Before the registration: a challenge is outstanding. -/
def enrolling : PasskeyRegistry :=
  (localhostDefault.beginRegistration exampleHandle (Checksum.spread 32 1) "mike" "Mike").2

/-- After it, with a challenge to authenticate with. -/
def enrolled : PasskeyRegistry :=
  ((enrolling.finishRegistration (registrationOf 1 exampleKey)).2.beginAuthentication (Checksum.spread 32 2)
    IterOrder.stored).2

theorem enrolling_registers :
    enrolling.Registers (registrationOf 1 exampleKey) (credentialOf exampleKey exampleHandle.toList) :=
  registers_registrationOf (AList.lookup_insert _) rfl rfl rfl

theorem enrolled_outstanding : enrolled.Outstanding (challengeText 2) .authenticate [] := by
  unfold enrolled
  rw [enrolling_registers.finish]
  exact AList.lookup_insert _

theorem enrolled_lookup :
    enrolled.creds.lookup credentialName = some (credentialOf exampleKey exampleHandle.toList) := by
  unfold enrolled
  rw [enrolling_registers.finish]
  exact AList.lookup_insert _

theorem enrolled_origin : enrolled.origin = localhostOrigin := by
  unfold enrolled
  rw [enrolling_registers.finish]
  rfl

/-- Empty authenticator data, signed. -/
theorem authenticatesSoundly_empty : ¬ enrolled.AuthenticatesSoundly (assertionOf 2 exampleKey []) := by
  intro h
  have hass : enrolled.Asserts (assertionOf 2 exampleKey []) credentialName
      (credentialOf exampleKey exampleHandle.toList) [] :=
    asserts_assertionOf enrolled_outstanding enrolled_origin enrolled_lookup rfl List.length_replicate
  rcases h _ (congrArg Prod.fst hass.finish) with ⟨authData, _, _, _, hdec, hdata, _⟩
  rw [hass.authenticator] at hdec
  rw [← Except.ok.inj hdec] at hdata
  exact absurd hdata.long (by decide)

end Enrolled

end PasskeyRegistry

end Crypto
end Thunderducks
