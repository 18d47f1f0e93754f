import Thunderducks.Crypto.Passkey
import Thunderducks.Lib.Runs

/-!
# PasskeyRuns — any sequence of passkey ceremonies

The four calls of a registry in any order, with any arguments.  `oneShot` is about the challenges: each of
them serves one ceremony, once.  `keepsCredentials_iff` is about the credentials, which the calls overwrite:
it says in which runs they are kept.
-/

namespace Thunderducks
namespace Crypto

open Lib Event Base64

/-! ## Calls -/

/-- A call, with what it draws at random. -/
inductive PasskeyCall where
  | beginRegistration (handle : Vector UInt8 16) (raw : Bytes32) (userName displayName : String)
  | beginAuthentication (raw : Bytes32) (order : IterOrder Bytes)
  | finishRegistration (req : FinishRegistration)
  | finishAuthentication (req : FinishAuthentication)

inductive PasskeyAnswer where
  | creation (options : PublicKeyCredentialCreationOptions)
  | request (options : PublicKeyCredentialRequestOptions)
  | registered (result : Except PasskeyError StoredCredential)
  | authenticated (result : Except PasskeyError String)

namespace PasskeyAnswer

/-- A `finish` call that succeeded. -/
inductive Succeeds : PasskeyAnswer → Prop where
  | registered (stored : StoredCredential) : Succeeds (.registered (.ok stored))
  | authenticated (id : String) : Succeeds (.authenticated (.ok id))

/-- A `finish` call that did not know its challenge. -/
inductive ChallengeUnknown : PasskeyAnswer → Prop where
  | registered : ChallengeUnknown (.registered (.error .unknownChallenge))
  | authenticated : ChallengeUnknown (.authenticated (.error .unknownChallenge))

theorem ChallengeUnknown.not_succeeds {answer : PasskeyAnswer} (h : answer.ChallengeUnknown) :
    ¬ answer.Succeeds := by
  intro hyes
  cases h with
  | registered => cases hyes
  | authenticated => cases hyes

end PasskeyAnswer

namespace PasskeyCall

/-- The challenge that a `begin` call mints, and its record. -/
def mints : PasskeyCall → Option (String × ChallengeRecord)
  | .beginRegistration handle raw _ _ =>
      some (b64url raw.toList, { purpose := .register, userHandle := handle.toList })
  | .beginAuthentication raw _ => some (b64url raw.toList, { purpose := .authenticate, userHandle := [] })
  | .finishRegistration _ => none
  | .finishAuthentication _ => none

/-- The challenge that a `finish` call names, and the ceremony it belongs to. -/
def finishes : PasskeyCall → Option (String × ChallengePurpose)
  | .beginRegistration _ _ _ _ => none
  | .beginAuthentication _ _ => none
  | .finishRegistration req => some (req.challenge, .register)
  | .finishAuthentication req => some (req.challenge, .authenticate)

def clientDataJsonB64 : PasskeyCall → String
  | .beginRegistration _ _ _ _ => ""
  | .beginAuthentication _ _ => ""
  | .finishRegistration req => req.clientDataJsonB64
  | .finishAuthentication req => req.clientDataJsonB64

/-- The challenges that a run mints. -/
def minted (calls : List PasskeyCall) : List String :=
  calls.filterMap fun c => c.mints.map Prod.fst

theorem minted_append {calls calls' : List PasskeyCall} :
    minted (calls ++ calls') = minted calls ++ minted calls' := by
  unfold minted
  exact List.filterMap_append

theorem mem_minted {calls : List PasskeyCall} {ch : String} :
    ch ∈ minted calls ↔ ∃ c ∈ calls, ∃ record, c.mints = some (ch, record) := by
  unfold minted
  rw [List.mem_filterMap]
  constructor
  · rintro ⟨c, hc, hmap⟩
    rcases Option.map_eq_some_iff.1 hmap with ⟨⟨_, record⟩, hmints, rfl⟩
    exact ⟨c, hc, record, hmints⟩
  · rintro ⟨c, hc, record, hmints⟩
    exact ⟨c, hc, by rw [hmints]; rfl⟩

end PasskeyCall

namespace PasskeyRegistry

section Runs

variable [WebAuthn]

def call (reg : PasskeyRegistry) : PasskeyCall → PasskeyAnswer × PasskeyRegistry
  | .beginRegistration handle raw userName displayName =>
      (reg.beginRegistration handle raw userName displayName).map .creation id
  | .beginAuthentication raw order => (reg.beginAuthentication raw order).map .request id
  | .finishRegistration req => (reg.finishRegistration req).map .registered id
  | .finishAuthentication req => (reg.finishAuthentication req).map .authenticated id

def step (reg : PasskeyRegistry) (c : PasskeyCall) : PasskeyRegistry :=
  (reg.call c).2

def after (reg : PasskeyRegistry) (calls : List PasskeyCall) : PasskeyRegistry :=
  Lib.Runs.run step reg calls

variable {reg : PasskeyRegistry} {calls : List PasskeyCall}

theorem step_beginRegistration {handle : Vector UInt8 16} {raw : Bytes32} {userName displayName : String} :
    reg.step (.beginRegistration handle raw userName displayName) =
      (reg.beginRegistration handle raw userName displayName).2 :=
  rfl

theorem step_beginAuthentication {raw : Bytes32} {order : IterOrder Bytes} :
    reg.step (.beginAuthentication raw order) = (reg.beginAuthentication raw order).2 :=
  rfl

theorem step_finishRegistration {req : FinishRegistration} :
    reg.step (.finishRegistration req) = (reg.finishRegistration req).2 :=
  rfl

theorem step_finishAuthentication {req : FinishAuthentication} :
    reg.step (.finishAuthentication req) = (reg.finishAuthentication req).2 :=
  rfl

/-! ## Challenges -/

theorem finishRegistration_challenges (req : FinishRegistration) :
    (reg.finishRegistration req).2.challenges = reg.challenges.erase req.challenge := by
  rcases reg.finishRegistration_cases req with ⟨stored, _, hrun⟩ | ⟨e, _, hrun⟩
  · rw [hrun]
    rfl
  · rw [hrun]
    rfl

theorem finishAuthentication_challenges (req : FinishAuthentication) :
    (reg.finishAuthentication req).2.challenges = reg.challenges.erase req.challenge := by
  rcases reg.finishAuthentication_cases req with ⟨_, _, _, _, hrun⟩ | ⟨e, _, hrun⟩
  · rw [hrun]
    rfl
  · rw [hrun]
    rfl

/-- A minted challenge is outstanding. -/
theorem lookup_step_mints {c : PasskeyCall} {ch ch' : String} {record : ChallengeRecord}
    (h : c.mints = some (ch', record)) :
    (reg.step c).challenges.lookup ch = if ch = ch' then some record else reg.challenges.lookup ch := by
  cases c with
  | beginRegistration handle raw userName displayName =>
      cases h
      exact HashMap.lookup_insert_eq
  | beginAuthentication raw order =>
      cases h
      exact HashMap.lookup_insert_eq
  | finishRegistration req => cases h
  | finishAuthentication req => cases h

/-- A challenge that is named is gone. -/
theorem lookup_step_finishes {c : PasskeyCall} {ch ch' : String} {purpose : ChallengePurpose}
    (h : c.finishes = some (ch', purpose)) :
    (reg.step c).challenges.lookup ch = if ch = ch' then none else reg.challenges.lookup ch := by
  cases c with
  | beginRegistration handle raw userName displayName => cases h
  | beginAuthentication raw order => cases h
  | finishRegistration req =>
      cases h
      exact (congrArg (AList.lookup ch) (finishRegistration_challenges req)).trans HashMap.lookup_erase_eq
  | finishAuthentication req =>
      cases h
      exact (congrArg (AList.lookup ch) (finishAuthentication_challenges req)).trans HashMap.lookup_erase_eq

omit [WebAuthn] in
theorem mints_or_finishes (c : PasskeyCall) :
    (∃ ch record, c.mints = some (ch, record)) ∨ ∃ ch purpose, c.finishes = some (ch, purpose) := by
  cases c with
  | beginRegistration handle raw userName displayName => exact Or.inl ⟨_, _, rfl⟩
  | beginAuthentication raw order => exact Or.inl ⟨_, _, rfl⟩
  | finishRegistration req => exact Or.inr ⟨_, _, rfl⟩
  | finishAuthentication req => exact Or.inr ⟨_, _, rfl⟩

/-- A challenge that was not outstanding is outstanding if it was minted. -/
theorem mints_of_lookup_step {c : PasskeyCall} {ch : String} {record : ChallengeRecord}
    (h : (reg.step c).challenges.lookup ch = some record) :
    reg.challenges.lookup ch = some record ∨ c.mints = some (ch, record) := by
  rcases mints_or_finishes c with ⟨ch', record', hmints⟩ | ⟨ch', purpose, hfin⟩
  · rw [lookup_step_mints hmints] at h
    split at h
    next heq =>
      cases h
      rw [heq]
      exact Or.inr hmints
    · exact Or.inl h
  · rw [lookup_step_finishes hfin] at h
    split at h
    · cases h
    · exact Or.inl h

/-- What is outstanding after a run was there before, or was minted in the run. -/
theorem mints_of_lookup_after (calls : List PasskeyCall) : ∀ {reg : PasskeyRegistry} {ch : String}
    {record : ChallengeRecord}, (reg.after calls).challenges.lookup ch = some record →
      reg.challenges.lookup ch = some record ∨ ∃ c ∈ calls, c.mints = some (ch, record) := by
  induction calls with
  | nil =>
      intro reg ch record h
      exact Or.inl h
  | cons c calls ih =>
      intro reg ch record h
      rcases ih h with hlook | ⟨d, hd, hmints⟩
      · rcases mints_of_lookup_step hlook with hold | hmints
        · exact Or.inl hold
        · exact Or.inr ⟨c, List.mem_cons_self, hmints⟩
      · exact Or.inr ⟨d, List.mem_cons_of_mem _ hd, hmints⟩

/-- A `finish` call that succeeds names a challenge outstanding for its ceremony, and so does its client
data. -/
theorem outstanding_of_succeeds {c : PasskeyCall} (h : (reg.call c).1.Succeeds) :
    ∃ ch record, c.finishes = some (ch, record.purpose) ∧ reg.challenges.lookup ch = some record ∧
      ∃ clientRaw client, base64DecodeConfig c.clientDataJsonB64 true = .ok clientRaw ∧
        WebAuthn.clientData clientRaw = .ok client ∧ client.challenge = ch := by
  cases c with
  | beginRegistration handle raw userName displayName => cases h
  | beginAuthentication raw order => cases h
  | finishRegistration req =>
      have hsucc : PasskeyAnswer.Succeeds (.registered (reg.finishRegistration req).1) := h
      rcases reg.finishRegistration_cases req with ⟨stored, hreg, _⟩ | ⟨e, _, hrun⟩
      · rcases hreg.client with ⟨clientRaw, hdec, client, hparse, hch, _⟩
        exact ⟨_, _, rfl, hreg.outstanding, clientRaw, client, hdec, hparse, hch⟩
      · rw [hrun] at hsucc
        cases hsucc
  | finishAuthentication req =>
      have hsucc : PasskeyAnswer.Succeeds (.authenticated (reg.finishAuthentication req).1) := h
      rcases reg.finishAuthentication_cases req with ⟨_, _, _, hass, _⟩ | ⟨e, _, hrun⟩
      · rcases hass.outstanding with ⟨userHandle, hout⟩
        rcases hass.signed with ⟨clientRaw, ⟨hdec, client, hparse, hch, _⟩, _⟩
        exact ⟨_, _, rfl, hout, clientRaw, client, hdec, hparse, hch⟩
      · rw [hrun] at hsucc
        cases hsucc

theorem challengeUnknown_of_lookup {c : PasskeyCall} {ch : String} {purpose : ChallengePurpose}
    (h : c.finishes = some (ch, purpose)) (hlook : reg.challenges.lookup ch = none) :
    (reg.call c).1.ChallengeUnknown := by
  cases c with
  | beginRegistration handle raw userName displayName => cases h
  | beginAuthentication raw order => cases h
  | finishRegistration req =>
      cases h
      unfold call finishRegistration
      dsimp only [takeChallenge, Prod.map]
      rw [hlook]
      exact PasskeyAnswer.ChallengeUnknown.registered
  | finishAuthentication req =>
      cases h
      unfold call finishAuthentication
      dsimp only [takeChallenge, Prod.map]
      rw [hlook]
      exact PasskeyAnswer.ChallengeUnknown.authenticated

/-- What a run does with its challenges. -/
structure OneShot (reg : PasskeyRegistry) (calls : List PasskeyCall) : Prop where
  /-- A success is for the ceremony that the challenge was minted for, with client data that names it. -/
  accepted : ∀ before c rest, calls = before ++ c :: rest → ((reg.after before).call c).1.Succeeds →
    ∃ m ∈ before, ∃ ch record, m.mints = some (ch, record) ∧ c.finishes = some (ch, record.purpose) ∧
      ∃ clientRaw client, base64DecodeConfig c.clientDataJsonB64 true = .ok clientRaw ∧
        WebAuthn.clientData clientRaw = .ok client ∧ client.challenge = ch
  /-- No two successes are for one challenge. -/
  once : ∀ before c mid d rest, calls = before ++ c :: (mid ++ d :: rest) →
    ((reg.after before).call c).1.Succeeds → ((reg.after (before ++ c :: mid)).call d).1.Succeeds →
      c.finishes.map Prod.fst ≠ d.finishes.map Prod.fst
  /-- A call that names a minted challenge, whatever comes of it, spends it. -/
  spent : ∀ before c mid d rest ch purpose purpose', calls = before ++ c :: (mid ++ d :: rest) →
    ch ∈ PasskeyCall.minted before → c.finishes = some (ch, purpose) → d.finishes = some (ch, purpose') →
      ((reg.after (before ++ c :: mid)).call d).1.ChallengeUnknown
  /-- A challenge that has not been minted is unknown. -/
  unminted : ∀ before c rest ch purpose, calls = before ++ c :: rest → ch ∉ PasskeyCall.minted before →
    c.finishes = some (ch, purpose) → ((reg.after before).call c).1.ChallengeUnknown

/-- In every run from a new registry whose minted challenges are fresh. -/
theorem oneShot (rpId rpName origin : String) (calls : List PasskeyCall)
    (hfresh : (PasskeyCall.minted calls).Nodup) : OneShot (new rpId rpName origin) calls := by
  have hnone : ∀ {reg : PasskeyRegistry} {calls ch}, reg.challenges.lookup ch = none →
      ch ∉ PasskeyCall.minted calls → (reg.after calls).challenges.lookup ch = none := by
    intro reg calls ch hlook hno
    cases hafter : (reg.after calls).challenges.lookup ch with
    | none => rfl
    | some record =>
        rcases mints_of_lookup_after calls hafter with hold | ⟨m, hm, hmints⟩
        · rw [hlook] at hold
          cases hold
        · exact absurd (PasskeyCall.mem_minted.2 ⟨m, hm, record, hmints⟩) hno
  have hspent : ∀ before c mid d rest ch purpose purpose', calls = before ++ c :: (mid ++ d :: rest) →
      ch ∈ PasskeyCall.minted before → c.finishes = some (ch, purpose) → d.finishes = some (ch, purpose') →
        (((new rpId rpName origin).after (before ++ c :: mid)).call d).1.ChallengeUnknown := by
    rintro before c mid d rest ch purpose purpose' rfl hmem hc hd
    refine challengeUnknown_of_lookup hd ?_
    have hafter : (new rpId rpName origin).after (before ++ c :: mid) =
        (((new rpId rpName origin).after before).step c).after mid := Lib.Runs.run_append
    rw [hafter]
    refine hnone ?_ ?_
    · rw [lookup_step_finishes hc, if_pos rfl]
    · -- it was minted before, so not again
      intro hmid
      rw [PasskeyCall.minted_append, ← List.singleton_append, ← List.append_assoc, PasskeyCall.minted_append,
        PasskeyCall.minted_append] at hfresh
      refine (List.nodup_append.1 hfresh).2.2 ch hmem ch ?_ rfl
      exact List.mem_append_left _ (List.mem_append_right _ hmid)
  have haccepted : ∀ before c rest, calls = before ++ c :: rest →
      (((new rpId rpName origin).after before).call c).1.Succeeds →
      ∃ m ∈ before, ∃ ch record, m.mints = some (ch, record) ∧ c.finishes = some (ch, record.purpose) ∧
        ∃ clientRaw client, base64DecodeConfig c.clientDataJsonB64 true = .ok clientRaw ∧
          WebAuthn.clientData clientRaw = .ok client ∧ client.challenge = ch := by
    intro before c rest _ hsucc
    rcases outstanding_of_succeeds hsucc with ⟨ch, record, hfin, hlook, hclient⟩
    rcases mints_of_lookup_after before hlook with hold | ⟨m, hm, hmints⟩
    · cases hold
    · exact ⟨m, hm, ch, record, hmints, hfin, hclient⟩
  refine ⟨haccepted, ?_, hspent, ?_⟩
  · -- the first success names a challenge that was minted, and spends it
    intro before c mid d rest hsplit hc hd heq
    rcases haccepted before c _ hsplit hc with ⟨m, hm, ch, record, hmints, hfin, _⟩
    rw [hfin] at heq
    cases hfin' : d.finishes with
    | none =>
        rw [hfin'] at heq
        cases heq
    | some named =>
        rcases named with ⟨ch', purpose'⟩
        rw [hfin'] at heq
        cases heq
        have hmem := PasskeyCall.mem_minted.2 ⟨m, hm, record, hmints⟩
        exact (hspent before c mid d rest ch _ _ hsplit hmem hfin hfin').not_succeeds hd
  · intro before c rest ch purpose _ hno hfin
    exact challengeUnknown_of_lookup hfin (hnone rfl hno)

/-! ## Credentials -/

/-- The credentials of `reg` are still there, with their keys and handles, and have not counted down. -/
def AppendOnly (reg reg' : PasskeyRegistry) : Prop :=
  ∀ credId cred, reg.creds.lookup credId = some cred → ∃ cred', reg'.creds.lookup credId = some cred' ∧
    cred'.publicKeySpki = cred.publicKeySpki ∧ cred'.userHandle = cred.userHandle ∧
      cred.signCount ≤ cred'.signCount

omit [WebAuthn] in
theorem AppendOnly.refl (reg : PasskeyRegistry) : AppendOnly reg reg := by
  intro credId cred h
  exact ⟨cred, h, rfl, rfl, UInt32.le_refl _⟩

omit [WebAuthn] in
theorem AppendOnly.trans {reg reg' reg'' : PasskeyRegistry} (h : AppendOnly reg reg')
    (h' : AppendOnly reg' reg'') : AppendOnly reg reg'' := by
  intro credId cred hlook
  rcases h credId cred hlook with ⟨cred', hlook', hkey, hhandle, hcount⟩
  rcases h' credId cred' hlook' with ⟨cred'', hlook'', hkey', hhandle', hcount'⟩
  exact ⟨cred'', hlook'', hkey'.trans hkey, hhandle'.trans hhandle, UInt32.le_trans hcount hcount'⟩

/-- If the call succeeds with a counter that is not zero, the counter is above the one stored. -/
def CountsUp (reg : PasskeyRegistry) (req : FinishAuthentication) : Prop :=
  ∀ id credId cred authData sc, (reg.finishAuthentication req).1 = .ok id →
    base64DecodeConfig req.credentialIdB64 true = .ok credId → reg.creds.lookup credId = some cred →
      base64DecodeConfig req.authenticatorDataB64 true = .ok authData → signCountOf authData = some sc →
        0 < sc → cred.signCount < sc

/-- A registration of an id that is taken names the same key for the same user, before anything was counted;
the counter of an assertion is zero or has grown. -/
def Faithful (reg : PasskeyRegistry) : PasskeyCall → Prop
  | .beginRegistration _ _ _ _ => True
  | .beginAuthentication _ _ => True
  | .finishRegistration req => ∀ stored old, reg.Registers req stored →
      reg.creds.lookup stored.credentialId = some old →
        stored.publicKeySpki = old.publicKeySpki ∧ stored.userHandle = old.userHandle ∧ old.signCount = 0
  | .finishAuthentication req => ∀ credId cred authData sc, reg.Asserts req credId cred authData →
      signCountOf authData = some sc → 0 < sc → cred.signCount < sc

theorem appendOnly_finishRegistration (req : FinishRegistration) :
    AppendOnly reg (reg.step (.finishRegistration req)) ↔ reg.Faithful (.finishRegistration req) := by
  constructor
  · intro h stored old hreg hold
    rcases h _ old hold with ⟨cred', hlook', hkey, hhandle, hcount⟩
    have hrun : (reg.step (.finishRegistration req)).creds = reg.creds.insert stored.credentialId stored := by
      rw [step_finishRegistration, hreg.finish]
    -- the old credential is replaced, so what is kept of it is what the new one shares
    rw [hrun, AList.lookup_insert] at hlook'
    cases hlook'
    refine ⟨hkey, hhandle, ?_⟩
    rw [hreg.signCount] at hcount
    exact UInt32.le_antisymm hcount (UInt32.zero_le ..)
  · intro h credId cred hlook
    rcases reg.finishRegistration_cases req with ⟨stored, hreg, hrun⟩ | ⟨e, _, hrun⟩
    · have hcreds : (reg.step (.finishRegistration req)).creds = reg.creds.insert stored.credentialId stored :=
        congrArg (fun out => out.2.creds) hrun
      rw [hcreds, HashMap.lookup_insert_eq]
      by_cases heq : credId = stored.credentialId
      · rw [if_pos heq]
        rcases h stored cred hreg (heq ▸ hlook) with ⟨hkey, hhandle, hzero⟩
        refine ⟨stored, rfl, hkey, hhandle, ?_⟩
        rw [hzero, hreg.signCount]
        exact UInt32.le_refl _
      · rw [if_neg heq]
        exact ⟨cred, hlook, rfl, rfl, UInt32.le_refl _⟩
    · have hcreds : (reg.step (.finishRegistration req)).creds = reg.creds := by
        rw [step_finishRegistration, hrun]
        rfl
      rw [hcreds]
      exact ⟨cred, hlook, rfl, rfl, UInt32.le_refl _⟩

theorem countsUp_iff (req : FinishAuthentication) :
    reg.CountsUp req ↔ reg.Faithful (.finishAuthentication req) := by
  constructor
  · intro h credId cred authData sc hass hsc hpos
    exact h _ credId cred authData sc (congrArg Prod.fst hass.finish) hass.names hass.known hass.authenticator
      hsc hpos
  · intro h id credId cred authData sc hid hcred hknown hauth hsc hpos
    rcases finishAuthentication_ok_iff.1 ⟨id, hid⟩ with ⟨credId', cred', authData', hass⟩
    -- what the call names is read in one way, so the assertion is about this credential
    have hname := hass.names
    rw [hcred] at hname
    cases hname
    have hsame := hass.known
    rw [hknown] at hsame
    cases hsame
    have hdata := hass.authenticator
    rw [hauth] at hdata
    cases hdata
    exact h credId cred authData sc hass hsc hpos

/-- What is counted changes nothing else, and what has grown does not count down. -/
theorem appendOnly_finishAuthentication {req : FinishAuthentication}
    (h : reg.Faithful (.finishAuthentication req)) :
    AppendOnly reg (reg.step (.finishAuthentication req)) := by
  intro credId cred hlook
  rcases reg.finishAuthentication_cases req with ⟨credId', cred', authData, hass, hrun⟩ | ⟨e, _, hrun⟩
  · have hcreds : (reg.step (.finishAuthentication req)).creds =
        reg.creds.insert credId' (cred'.counted authData) := by
      rw [step_finishAuthentication, hrun]
    rw [hcreds, HashMap.lookup_insert_eq]
    by_cases heq : credId = credId'
    · rw [if_pos heq]
      have hsame := hass.known
      rw [← heq, hlook] at hsame
      cases hsame
      refine ⟨_, rfl, ?_⟩
      unfold StoredCredential.counted
      -- the counter moves up, or stays where the authenticator has none
      cases hsc : signCountOf authData with
      | none => exact ⟨rfl, rfl, UInt32.le_refl _⟩
      | some sc =>
          dsimp only
          split
          next hpos => exact ⟨rfl, rfl, UInt32.le_of_lt (h credId' cred authData sc hass hsc hpos)⟩
          · exact ⟨rfl, rfl, UInt32.le_refl _⟩
    · rw [if_neg heq]
      exact ⟨cred, hlook, rfl, rfl, UInt32.le_refl _⟩
  · have hcreds : (reg.step (.finishAuthentication req)).creds = reg.creds := by
      rw [step_finishAuthentication, hrun]
      rfl
    rw [hcreds]
    exact ⟨cred, hlook, rfl, rfl, UInt32.le_refl _⟩

/-- What one call is to keep. -/
structure KeepsAt (reg : PasskeyRegistry) (c : PasskeyCall) : Prop where
  appendOnly : AppendOnly reg (reg.step c)
  countsUp : ∀ req, c = .finishAuthentication req → reg.CountsUp req

theorem keepsAt_iff (c : PasskeyCall) : reg.KeepsAt c ↔ reg.Faithful c := by
  cases c with
  | beginRegistration handle raw userName displayName =>
      exact iff_of_true ⟨AppendOnly.refl reg, fun _ h => by cases h⟩ trivial
  | beginAuthentication raw order => exact iff_of_true ⟨AppendOnly.refl reg, fun _ h => by cases h⟩ trivial
  | finishRegistration req =>
      rw [← appendOnly_finishRegistration]
      exact ⟨fun h => h.appendOnly, fun h => ⟨h, fun _ heq => by cases heq⟩⟩
  | finishAuthentication req =>
      constructor
      · intro h
        exact (countsUp_iff req).1 (h.countsUp req rfl)
      · intro h
        refine ⟨appendOnly_finishAuthentication h, ?_⟩
        intro req' heq
        cases heq
        exact (countsUp_iff req).2 h

/-- Over a whole run: what is registered stays as it is, and the counters of the assertions grow. -/
structure KeepsCredentials (reg : PasskeyRegistry) (calls : List PasskeyCall) : Prop where
  appendOnly : ∀ before mid rest, calls = before ++ (mid ++ rest) →
    AppendOnly (reg.after before) (reg.after (before ++ mid))
  countsUp : ∀ before req rest, calls = before ++ .finishAuthentication req :: rest →
    (reg.after before).CountsUp req

theorem keepsCredentials_iff (reg : PasskeyRegistry) (calls : List PasskeyCall) :
    reg.KeepsCredentials calls ↔ Lib.Runs.Along step Faithful reg calls := by
  have hsteps : Lib.Runs.Along step Faithful reg calls ↔ ∀ before c rest, calls = before ++ c :: rest →
      (reg.after before).KeepsAt c := by
    rw [Lib.Runs.along_iff]
    refine forall_congr' fun before => forall_congr' fun c => forall_congr' fun rest => ?_
    exact imp_congr_right fun _ => (keepsAt_iff c).symm
  have hkept : (∀ before mid rest, calls = before ++ (mid ++ rest) →
      AppendOnly (reg.after before) (reg.after (before ++ mid))) ↔
        Lib.Runs.Along step (fun reg c => AppendOnly reg (reg.step c)) reg calls :=
    (Lib.Runs.along_rel_iff AppendOnly.refl AppendOnly.trans).symm
  rw [hsteps]
  constructor
  · intro h before c rest hsplit
    refine ⟨Lib.Runs.along_iff.1 (hkept.1 h.appendOnly) before c rest hsplit, ?_⟩
    rintro req rfl
    exact h.countsUp before req rest hsplit
  · intro h
    have hsteps' : Lib.Runs.Along step (fun reg c => AppendOnly reg (reg.step c)) reg calls :=
      Lib.Runs.along_iff.2 fun before c rest hsplit => (h before c rest hsplit).appendOnly
    refine ⟨hkept.2 hsteps', ?_⟩
    intro before req rest hsplit
    exact (h before _ rest hsplit).countsUp req rfl

end Runs

/-! ## A cloned authenticator, and a second registration -/

section Cloned

attribute [local instance] checksumWebAuthn

/-- Registers, and begins to authenticate. -/
def enrolCalls : List PasskeyCall :=
  [.beginRegistration exampleHandle (Checksum.spread 32 1) "mike" "Mike",
    .finishRegistration (registrationOf 1 exampleKey),
    .beginAuthentication (Checksum.spread 32 2) IterOrder.stored]

theorem after_enrolCalls : localhostDefault.after enrolCalls = enrolled := by
  unfold enrolCalls enrolled enrolling after Lib.Runs.run
  rw [List.foldl_cons, List.foldl_cons, List.foldl_cons, List.foldl_nil, step_beginRegistration,
    step_finishRegistration, step_beginAuthentication]

/-- Enrols, authenticates, and sends the spent challenges of both once more. -/
def replayCalls : List PasskeyCall :=
  enrolCalls ++
    [.finishRegistration (registrationOf 1 exampleKey),
      .finishAuthentication (assertionOf 2 exampleKey (authenticatorData 5)),
      .finishAuthentication (assertionOf 2 exampleKey (authenticatorData 5))]

theorem oneShot_enrolCalls : OneShot localhostDefault replayCalls := by
  refine oneShot "localhost" "Thunderducks" localhostOrigin replayCalls ?_
  have hne : b64url (Checksum.spread 32 1).toList ≠ b64url (Checksum.spread 32 2).toList :=
    b64url_injective.ne (by decide)
  have hminted : PasskeyCall.minted replayCalls =
      [b64url (Checksum.spread 32 1).toList, b64url (Checksum.spread 32 2).toList] := by
    unfold replayCalls enrolCalls
    rfl
  rw [hminted]
  exact List.nodup_cons.2 ⟨by simpa using hne, List.nodup_singleton _⟩

theorem signCountOf_authenticatorData (counter : UInt8) :
    signCountOf (authenticatorData counter) = some counter.toUInt32 := by
  have hlen : (WebAuthn.sha256 ("localhost".toList.flatMap String.utf8EncodeChar)).toList.length = 32 :=
    Vector.length_toList ..
  have hdrop : (authenticatorData counter).drop 33 = [0, 0, 0, counter] := by
    unfold authenticatorData
    rw [List.drop_append, hlen, List.drop_eq_nil_of_le (by rw [hlen]; decide)]
    rfl
  unfold signCountOf
  rw [hdrop]
  simp

def countedFive : StoredCredential :=
  { credentialOf exampleKey exampleHandle.toList with signCount := 5 }

/-- An assertion that counts five, and a challenge for the next one. -/
def countCalls : List PasskeyCall :=
  [.finishAuthentication (assertionOf 2 exampleKey (authenticatorData 5)),
    .beginAuthentication (Checksum.spread 32 3) IterOrder.stored]

def counted : PasskeyRegistry :=
  ({ enrolled.without (challengeText 2) with creds := enrolled.creds.insert credentialName countedFive
     }.beginAuthentication (Checksum.spread 32 3) IterOrder.stored).2

theorem after_countCalls : enrolled.after countCalls = counted := by
  have hass : enrolled.Asserts (assertionOf 2 exampleKey (authenticatorData 5)) credentialName
      (credentialOf exampleKey exampleHandle.toList) (authenticatorData 5) :=
    asserts_assertionOf enrolled_outstanding enrolled_origin enrolled_lookup rfl List.length_replicate
  have hcounted : (credentialOf exampleKey exampleHandle.toList).counted (authenticatorData 5) =
      countedFive := by
    unfold StoredCredential.counted
    rw [signCountOf_authenticatorData]
    rfl
  unfold countCalls counted after Lib.Runs.run
  rw [List.foldl_cons, List.foldl_cons, List.foldl_nil, step_finishAuthentication, step_beginAuthentication,
    hass.finish, hcounted]
  rfl

theorem counted_origin : counted.origin = localhostOrigin := by
  have hwithout : ∀ (reg : PasskeyRegistry) (creds : HashMap Bytes StoredCredential),
      ({ reg.without (challengeText 2) with creds := creds }.beginAuthentication (Checksum.spread 32 3)
        IterOrder.stored).2.origin = reg.origin := fun _ _ => rfl
  exact (hwithout _ _).trans enrolled_origin

theorem counted_outstanding : counted.Outstanding (challengeText 3) .authenticate [] := by
  unfold counted
  exact AList.lookup_insert _

theorem counted_lookup : counted.creds.lookup credentialName = some countedFive := by
  unfold counted
  exact AList.lookup_insert _

/-- The next assertion counts three. -/
theorem keepsCredentials_cloned : ¬ localhostDefault.KeepsCredentials
    (enrolCalls ++ countCalls ++ [.finishAuthentication (assertionOf 3 exampleKey (authenticatorData 3))]) := by
  intro h
  have hbefore : localhostDefault.after (enrolCalls ++ countCalls) = counted := by
    rw [← after_countCalls, ← after_enrolCalls]
    exact Lib.Runs.run_append
  have hass : counted.Asserts (assertionOf 3 exampleKey (authenticatorData 3)) credentialName countedFive
      (authenticatorData 3) :=
    asserts_assertionOf counted_outstanding counted_origin counted_lookup rfl List.length_replicate
  have hcounts := h.countsUp (enrolCalls ++ countCalls) _ [] rfl
  rw [hbefore] at hcounts
  have hlt := hcounts _ _ _ _ _ (congrArg Prod.fst hass.finish) hass.names hass.known hass.authenticator
    (signCountOf_authenticatorData 3) (by decide)
  exact absurd hlt (by decide)

end Cloned

end PasskeyRegistry

end Crypto
end Thunderducks
