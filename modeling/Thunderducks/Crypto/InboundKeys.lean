import Thunderducks.Crypto.Symbolic

/-!
# InboundKeys — what a device can decrypt after importing session keys

`import_group_session_key` never replaces an inbound session, so the first key that arrives for a session
decides from which index on the device can decrypt.  `decryptsImported_iff` says for which sequences of
imports that is every index one of the keys covers.
-/

namespace Thunderducks
namespace Crypto

open Lib Event

section Imports

variable [Olm]

inductive KeyImport
  | groupSessionKey (sessionKeyB64 : Encoded SessionKey)
  | roomOutbound (pkg : RoomOutboundPackage)

namespace KeyImport

def run (dev : E2eeDevice) : KeyImport → Except E2eeError String × E2eeDevice
  | .groupSessionKey sessionKeyB64 => dev.importGroupSessionKey sessionKeyB64
  | .roomOutbound pkg => dev.importRoomOutbound pkg

omit [Olm] in
/-- The session key the call brings. -/
def key : KeyImport → Option SessionKey
  | .groupSessionKey sessionKeyB64 => sessionKeyB64.decode
  | .roomOutbound pkg => pkg.sessionKeyB64.decode

end KeyImport

/-- The device after a sequence of imports. -/
def importAll (dev : E2eeDevice) (imports : List KeyImport) : E2eeDevice :=
  imports.foldl (fun dev imp => (imp.run dev).2) dev

/-- Every import of the sequence succeeds. -/
def AllImported : E2eeDevice → List KeyImport → Prop
  | _, [] => True
  | dev, imp :: imports => (∃ sid, (imp.run dev).1 = .ok sid) ∧ AllImported (imp.run dev).2 imports

omit [Olm] in
/-- The keys of a sequence of imports, in order. -/
def importedKeys (imports : List KeyImport) : List SessionKey :=
  imports.filterMap KeyImport.key

omit [Olm] in
/-- A ciphertext of session `sid` at index `i`. -/
def ciphertextAt (sender : DeviceId) (sid : String) (i : Nat) (plaintext : Bytes) :
    MegolmCiphertext :=
  { senderDevice := sender
    sessionId := sid
    ciphertextB64 := .of { sessionId := sid, messageIndex := i, plaintext := plaintext } }

/-- The device decrypts what was encrypted at index `i` of session `sid`. -/
def Decrypts (dev : E2eeDevice) (sid : String) (i : Nat) : Prop :=
  ∀ sender plaintext, dev.megolmDecrypt (ciphertextAt sender sid i plaintext) = .ok plaintext

/-- Inbound sessions are kept under their own ids, as every operation puts them there. -/
def InboundKeyed (dev : E2eeDevice) : Prop :=
  ∀ sid s, dev.inboundMegolm.lookup sid = some s → s.sessionId = sid

/-- After the imports the device decrypts exactly what the session it held, or one of the imported keys,
reaches back to. -/
def DecryptsImported (dev : E2eeDevice) (imports : List KeyImport) : Prop :=
  ∀ sid i, Decrypts (importAll dev imports) sid i ↔
    (∃ s, dev.inboundMegolm.lookup sid = some s ∧ s.firstKnownIndex ≤ i) ∨
      ∃ key ∈ importedKeys imports, key.sessionId = sid ∧ key.messageIndex ≤ i

/-- The session the device held, or else the first key imported for it. -/
def firstInbound (dev : E2eeDevice) (imports : List KeyImport) (sid : String) :
    Option InboundGroupSession :=
  (dev.inboundMegolm.lookup sid).or
    (((importedKeys imports).find? fun key => key.sessionId = sid).map InboundGroupSession.new)

/-- For every session, the one held or the first key imported reaches back as far as every key
imported for it. -/
def OldestFirst (dev : E2eeDevice) (imports : List KeyImport) : Prop :=
  ∀ key ∈ importedKeys imports, ∀ s, firstInbound dev imports key.sessionId = some s →
    s.firstKnownIndex ≤ key.messageIndex

/-! ## One import -/

theorem importGroupSessionKey_inbound (dev : E2eeDevice) {sessionKeyB64 : Encoded SessionKey}
    {key : SessionKey} (hkey : sessionKeyB64.decode = some key) (sid : String) :
    (dev.importGroupSessionKey sessionKeyB64).2.inboundMegolm.lookup sid =
      (dev.inboundMegolm.lookup sid).or
        (if sid = key.sessionId then some (InboundGroupSession.new key) else none) := by
  simp only [E2eeDevice.importGroupSessionKey, hkey]
  by_cases hmem : key.sessionId ∈ dev.inboundMegolm
  · rw [if_pos hmem]
    rcases HashMap.mem_iff_lookup.1 hmem with ⟨s, hs⟩
    by_cases hsid : sid = key.sessionId
    · subst hsid
      simp [hs]
    · simp [hsid]
  · rw [if_neg hmem]
    have hnone : dev.inboundMegolm.lookup key.sessionId = none := AList.lookup_eq_none.2 hmem
    simp only [HashMap.lookup_insert_eq]
    by_cases hsid : sid = key.sessionId
    · subst hsid
      simp [hnone]
    · simp [hsid]

/-- What follows the key in `import_room_outbound` leaves the inbound sessions. -/
theorem importRoomOutbound_inbound (dev : E2eeDevice) {pkg : RoomOutboundPackage} {sid : String}
    (hok : (dev.importRoomOutbound pkg).1 = .ok sid) :
    (dev.importRoomOutbound pkg).2.inboundMegolm =
        (dev.importGroupSessionKey pkg.sessionKeyB64).2.inboundMegolm ∧
      ∃ key, pkg.sessionKeyB64.decode = some key := by
  unfold E2eeDevice.importRoomOutbound at hok ⊢
  split at hok
  · cases hok
  next hv =>
    rw [if_neg hv]
    cases hkey : pkg.sessionKeyB64.decode with
    | none =>
        have heq : dev.importGroupSessionKey pkg.sessionKeyB64 =
            (.error (.codec "session key"), dev) := by
          simp [E2eeDevice.importGroupSessionKey, hkey]
        rw [heq] at hok
        cases hok
    | some key =>
        refine ⟨?_, key, rfl⟩
        cases himp : dev.importGroupSessionKey pkg.sessionKeyB64 with
        | mk res dev' =>
            cases res with
            | error e => rfl
            -- the checks that follow touch the outbound sessions only
            | ok sid' =>
                dsimp only
                cases pkg.pickleB64.decode with
                | none => rfl
                | some session =>
                    dsimp only
                    split
                    · rfl
                    · split
                      · split
                        · rfl
                        · split <;> rfl
                      · rfl

/-- A successful import adds its key, if the device has none for the session. -/
theorem KeyImport.run_inbound (dev : E2eeDevice) {imp : KeyImport} {sid : String}
    (hok : (imp.run dev).1 = .ok sid) : ∃ key, imp.key = some key ∧ ∀ r,
      (imp.run dev).2.inboundMegolm.lookup r = (dev.inboundMegolm.lookup r).or
        (if r = key.sessionId then some (InboundGroupSession.new key) else none) := by
  cases imp with
  | groupSessionKey sessionKeyB64 =>
      cases hkey : sessionKeyB64.decode with
      | none => simp [KeyImport.run, E2eeDevice.importGroupSessionKey, hkey] at hok
      | some key => exact ⟨key, hkey, fun r => importGroupSessionKey_inbound dev hkey r⟩
  | roomOutbound pkg =>
      rcases importRoomOutbound_inbound dev hok with ⟨hsame, key, hkey⟩
      refine ⟨key, hkey, fun r => ?_⟩
      simp only [KeyImport.run, hsame]
      exact importGroupSessionKey_inbound dev hkey r

/-! ## A sequence of imports -/

/-- After the imports each session is the one held, or the first key imported for it. -/
theorem importAll_inbound (imports : List KeyImport) : ∀ {dev : E2eeDevice},
    AllImported dev imports → ∀ sid,
    (importAll dev imports).inboundMegolm.lookup sid = firstInbound dev imports sid := by
  induction imports with
  | nil =>
      intro dev _ sid
      simp [importAll, firstInbound, importedKeys]
  | cons imp imports ih =>
      intro dev hok sid
      rcases hok with ⟨⟨sid', hres⟩, hrest⟩
      rcases KeyImport.run_inbound dev hres with ⟨key, hkey, hrun⟩
      have htail := ih hrest sid
      have hcons : importAll dev (imp :: imports) = importAll (imp.run dev).2 imports := rfl
      rw [hcons, htail, firstInbound, hrun, firstInbound]
      have hkeys : importedKeys (imp :: imports) = key :: importedKeys imports := by
        simp [importedKeys, hkey]
      rw [hkeys, List.find?_cons]
      cases dev.inboundMegolm.lookup sid with
      | some s => simp
      | none =>
          by_cases hsid : sid = key.sessionId
          · simp [hsid]
          · have hne : ¬ key.sessionId = sid := fun h => hsid h.symm
            simp [hsid, hne]

theorem firstInbound_keyed {dev : E2eeDevice} (h : InboundKeyed dev) {imports : List KeyImport}
    {sid : String} {s : InboundGroupSession} (hs : firstInbound dev imports sid = some s) :
    s.sessionId = sid := by
  unfold firstInbound at hs
  cases hl : dev.inboundMegolm.lookup sid with
  | some s' =>
      rw [hl] at hs
      cases hs
      exact h sid s hl
  | none =>
      rw [hl, Option.none_or, Option.map_eq_some_iff] at hs
      rcases hs with ⟨key, hfind, rfl⟩
      have hsid : key.sessionId = sid := by
        simpa using List.find?_some hfind
      exact hsid

theorem decrypts_iff {dev : E2eeDevice} {sid : String}
    (h : ∀ s, dev.inboundMegolm.lookup sid = some s → s.sessionId = sid) (i : Nat) :
    Decrypts dev sid i ↔ ∃ s, dev.inboundMegolm.lookup sid = some s ∧ s.firstKnownIndex ≤ i := by
  cases hl : dev.inboundMegolm.lookup sid with
  | none =>
      refine iff_of_false ?_ (by simp)
      intro hd
      have hbad := hd ⟨Vector.replicate 32 0⟩ []
      simp [E2eeDevice.megolmDecrypt, ciphertextAt, hl] at hbad
  | some s =>
      have hsid : s.sessionId = sid := h s hl
      constructor
      · intro hd
        refine ⟨s, rfl, ?_⟩
        by_contra hlt
        have hbad := hd ⟨Vector.replicate 32 0⟩ []
        simp [E2eeDevice.megolmDecrypt, ciphertextAt, hl, InboundGroupSession.decrypt, hsid,
          Nat.lt_of_not_le hlt] at hbad
      · rintro ⟨s', hs', hle⟩ sender plaintext
        cases hs'
        simp [E2eeDevice.megolmDecrypt, ciphertextAt, hl, InboundGroupSession.decrypt, hsid,
          Nat.not_lt.2 hle]

/-- For every device and every sequence of successful imports, what the device can decrypt is what its
keys cover exactly when the oldest key of each session is there first. -/
theorem decryptsImported_iff {dev : E2eeDevice} (hkeyed : InboundKeyed dev)
    (imports : List KeyImport) (hok : AllImported dev imports) :
    DecryptsImported dev imports ↔ OldestFirst dev imports := by
  have hdec : ∀ sid i, Decrypts (importAll dev imports) sid i ↔
      ∃ s, firstInbound dev imports sid = some s ∧ s.firstKnownIndex ≤ i := by
    intro sid i
    rw [decrypts_iff, importAll_inbound imports hok]
    intro s hs
    rw [importAll_inbound imports hok] at hs
    exact firstInbound_keyed hkeyed hs
  constructor
  · intro h key hkey s hs
    have hcan : Decrypts (importAll dev imports) key.sessionId key.messageIndex :=
      (h key.sessionId key.messageIndex).2 (Or.inr ⟨key, hkey, rfl, Nat.le_refl _⟩)
    rcases (hdec _ _).1 hcan with ⟨s', hs', hle⟩
    rw [hs] at hs'
    cases hs'
    exact hle
  · intro h sid i
    rw [hdec]
    constructor
    · rintro ⟨s, hs, hle⟩
      -- the first session is the one held or one of the keys
      unfold firstInbound at hs
      cases hl : dev.inboundMegolm.lookup sid with
      | some s' =>
          rw [hl] at hs
          cases hs
          exact Or.inl ⟨s, rfl, hle⟩
      | none =>
          rw [hl, Option.none_or, Option.map_eq_some_iff] at hs
          rcases hs with ⟨key, hfind, rfl⟩
          refine Or.inr ⟨key, List.mem_of_find?_eq_some hfind, ?_, hle⟩
          simpa using List.find?_some hfind
    · rintro (⟨s, hs, hle⟩ | ⟨key, hkey, rfl, hle⟩)
      · exact ⟨s, by simp [firstInbound, hs], hle⟩
      · cases hs : firstInbound dev imports key.sessionId with
        | some s => exact ⟨s, rfl, Nat.le_trans (h key hkey s hs) hle⟩
        | none =>
            -- a key imported for the session leaves one there
            simp only [firstInbound, Option.or_eq_none_iff, Option.map_eq_none_iff,
              List.find?_eq_none] at hs
            exact absurd (hs.2 key hkey) (by simp)

end Imports

/-! ## The newer package arrives first -/

section Example

@[reducible] def quietOlm : Olm :=
  Symbolic.olm []

attribute [local instance] quietOlm

def peer : E2eeDevice :=
  E2eeDevice.new ⟨Vector.replicate 32 2⟩ { identity := "id" }

/-- The package that `send_message` exports for the message at index `i`. -/
def packageAt (i : Nat) : RoomOutboundPackage :=
  let session : GroupSession := { sessionId := "session", messageIndex := i }
  { v := 1
    roomId := "room"
    sessionId := "session"
    messageIndex := i
    pickleB64 := .of session
    sessionKeyB64 := .of session.sessionKey
    ownerDevice := ⟨Vector.replicate 32 1⟩ }

theorem inboundKeyed_peer : InboundKeyed peer := by
  intro sid s h
  cases h

theorem imports_lose_index :
    ¬ ∀ (dev : E2eeDevice) (imports : List KeyImport), InboundKeyed dev →
      AllImported dev imports → DecryptsImported dev imports := by
  intro h
  let imports : List KeyImport := [.roomOutbound (packageAt 1), .roomOutbound (packageAt 0)]
  have hok : AllImported peer imports := by
    refine ⟨⟨"session", ?_⟩, ⟨"session", ?_⟩, trivial⟩
    · decide +kernel
    · decide +kernel
  -- the second package covers index 0, and its key is dropped
  have hcan : Decrypts (importAll peer imports) "session" 0 := by
    refine (h peer imports inboundKeyed_peer hok "session" 0).2 (Or.inr ?_)
    exact ⟨(GroupSession.new "session").sessionKey, by decide +kernel, rfl, Nat.le_refl _⟩
  have hfail : (importAll peer imports).megolmDecrypt
      (ciphertextAt ⟨Vector.replicate 32 1⟩ "session" 0 [1]) =
        .error (.decrypt "unknown message index") := by
    decide +kernel
  have hplain := hcan ⟨Vector.replicate 32 1⟩ [1]
  rw [hfail] at hplain
  cases hplain

/-- In the order they were exported the packages cover both messages. -/
theorem decryptsImported_iff_inOrder :
    DecryptsImported peer [.roomOutbound (packageAt 0), .roomOutbound (packageAt 1)] := by
  refine (decryptsImported_iff inboundKeyed_peer _ ?_).2 ?_
  · refine ⟨⟨"session", ?_⟩, ⟨"session", ?_⟩, trivial⟩
    · decide +kernel
    · decide +kernel
  · have hall : ∀ key ∈ importedKeys [.roomOutbound (packageAt 0), .roomOutbound (packageAt 1)],
        firstInbound peer [.roomOutbound (packageAt 0), .roomOutbound (packageAt 1)] key.sessionId =
          some { sessionId := "session", firstKnownIndex := 0 } := by
      decide +kernel
    intro key hkey s hs
    rw [hall key hkey] at hs
    cases hs
    exact Nat.zero_le _

end Example

end Crypto
end Thunderducks
