import Thunderducks.Lib.HashMap
import Thunderducks.Event.Event
import Thunderducks.Crypto.Vodozemac

/-!
# E2ee — a device's Olm and Megolm state (`td-crypto/src/e2ee.rs`)
-/

namespace Thunderducks
namespace Crypto

open Lib Event

inductive E2eeError
  | sessionCreation (msg : String)
  | encrypt (msg : String)
  | decrypt (msg : String)
  | missingOlm (d : DeviceId)
  | missingMegolm (key : String)
  | invalidKey
  | codec (msg : String)
  | pickle
  deriving DecidableEq

/-- Portable outbound Megolm state for a room (B2 shared room session).  The field `message_index` is a `u32`, so
that a package that decodes holds at most 4294967295 there. -/
structure RoomOutboundPackage where
  v : Nat
  roomId : String
  sessionId : String
  messageIndex : Nat
  pickleB64 : Encoded GroupSession
  sessionKeyB64 : Encoded SessionKey
  ownerDevice : DeviceId
  deriving DecidableEq

/-- Public Olm identity material for a device (Curve25519 sender key + one OTK). -/
structure OlmDeviceKeys where
  deviceId : DeviceId
  curve25519B64 : String
  oneTimeKeyB64 : String
  deriving DecidableEq

/-- Wire envelope for an Olm ciphertext (1:1 or key fanout). -/
structure OlmCiphertext where
  senderDevice : DeviceId
  recipientDevice : DeviceId
  messageJson : String
  deriving DecidableEq

/-- Wire envelope for a Megolm room message. -/
structure MegolmCiphertext where
  senderDevice : DeviceId
  sessionId : String
  ciphertextB64 : Encoded MegolmMessage
  deriving DecidableEq

variable [Olm]

/-- A device's E2EE state: Olm account + sessions + outbound/inbound Megolm. -/
structure E2eeDevice where
  deviceId : DeviceId
  account : Olm.Account
  olmSessions : HashMap DeviceId Olm.Session
  outboundMegolm : HashMap String GroupSession
  inboundMegolm : HashMap String InboundGroupSession

namespace E2eeDevice

def new (deviceId : DeviceId) (account : Olm.Account) : E2eeDevice :=
  { deviceId := deviceId
    account := account
    olmSessions := ∅
    outboundMegolm := ∅
    inboundMegolm := ∅ }

/-! ## Olm -/

def hasOlmSession (dev : E2eeDevice) (peer : DeviceId) : Bool :=
  peer ∈ dev.olmSessions

/-- Establish outbound Olm using the peer's published keys.
No-op if a session with this peer already exists. -/
def establishOlmOutbound (dev : E2eeDevice) (their : OlmDeviceKeys) :
    Except E2eeError Unit × E2eeDevice :=
  if their.deviceId ∈ dev.olmSessions then
    (.ok (), dev)
  else
    match Olm.curveFromBase64 their.curve25519B64, Olm.curveFromBase64 their.oneTimeKeyB64 with
    | some idKey, some otk =>
        match Olm.createOutboundSession dev.account idKey otk with
        | (.error e, account) => (.error (.sessionCreation e), { dev with account := account })
        | (.ok session, account) =>
            (.ok (),
              { dev with
                account := account
                olmSessions := dev.olmSessions.insert their.deviceId session })
    | _, _ => (.error .invalidKey, dev)

/-- Encrypt bytes to a peer via Olm (creates pre-key message on first use). -/
def olmEncrypt (dev : E2eeDevice) (peer : DeviceId) (plaintext : Bytes) :
    Except E2eeError OlmCiphertext × E2eeDevice :=
  match dev.olmSessions.lookup peer with
  | none => (.error (.missingOlm peer), dev)
  | some session =>
      match Olm.encrypt session plaintext with
      | (.error e, session) =>
          (.error (.encrypt e), { dev with olmSessions := dev.olmSessions.insert peer session })
      | (.ok msg, session) =>
          (.ok
            { senderDevice := dev.deviceId
              recipientDevice := peer
              messageJson := Olm.messageToJson msg },
            { dev with olmSessions := dev.olmSessions.insert peer session })

/-- Decrypt an Olm ciphertext.  Establishes inbound session on first pre-key message. -/
def olmDecrypt (dev : E2eeDevice) (theirIdentityB64 : String) (ct : OlmCiphertext) :
    Except E2eeError Bytes × E2eeDevice :=
  if ct.recipientDevice ≠ dev.deviceId then
    (.error (.decrypt "not addressed to this device"), dev)
  else
    match Olm.messageFromJson ct.messageJson with
    | none => (.error (.codec "message_json"), dev)
    | some msg =>
        match dev.olmSessions.lookup ct.senderDevice with
        | some session =>
            -- Prefer existing session
            match Olm.decrypt session msg with
            | (.error e, session) =>
                (.error (.decrypt e),
                  { dev with olmSessions := dev.olmSessions.insert ct.senderDevice session })
            | (.ok plain, session) =>
                (.ok plain,
                  { dev with olmSessions := dev.olmSessions.insert ct.senderDevice session })
        | none =>
            -- Establish inbound from pre-key
            if Olm.isPreKey msg then
              match Olm.curveFromBase64 theirIdentityB64 with
              | none => (.error .invalidKey, dev)
              | some theirId =>
                  match Olm.createInboundSession dev.account theirId msg with
                  | (.error e, account) =>
                      (.error (.sessionCreation e), { dev with account := account })
                  | (.ok (session, plain), account) =>
                      (.ok plain,
                        { dev with
                          account := account
                          olmSessions := dev.olmSessions.insert ct.senderDevice session })
            else
              (.error (.missingOlm ct.senderDevice), dev)

/-! ## Megolm -/

def groupSessionId (dev : E2eeDevice) (roomKey : String) : Option String :=
  (dev.outboundMegolm.lookup roomKey).map GroupSession.sessionId

def hasOutbound (dev : E2eeDevice) (roomKey : String) : Bool :=
  roomKey ∈ dev.outboundMegolm

/-- Create outbound Megolm for a room; `freshId` is the id a new session would draw.
No-op if this device already has an outbound session for the room (B2). -/
def createGroupSession (dev : E2eeDevice) (roomKey freshId : String) : String × E2eeDevice :=
  match dev.groupSessionId roomKey with
  | some sid => (sid, dev)
  | none =>
      let session := GroupSession.new freshId
      (freshId,
        { dev with
          outboundMegolm := dev.outboundMegolm.insert roomKey session
          -- also keep inbound for self-read
          inboundMegolm :=
            dev.inboundMegolm.insert freshId (InboundGroupSession.new session.sessionKey) })

/-- Export full outbound room session (pickle) for shared-room ownership (B2). -/
def exportRoomOutbound (dev : E2eeDevice) (roomKey : String) :
    Except E2eeError RoomOutboundPackage :=
  match dev.outboundMegolm.lookup roomKey with
  | none => .error (.missingMegolm roomKey)
  | some out =>
      .ok
        { v := 1
          roomId := roomKey
          sessionId := out.sessionId
          messageIndex := out.messageIndex
          pickleB64 := .of out
          sessionKeyB64 := .of out.sessionKey
          ownerDevice := dev.deviceId }

/-- Never overwrites an existing inbound: a later export is advanced past already-sent indices. -/
def importGroupSessionKey (dev : E2eeDevice) (sessionKeyB64 : Encoded SessionKey) :
    Except E2eeError String × E2eeDevice :=
  match sessionKeyB64.decode with
  | none => (.error (.codec "session key"), dev)
  | some key =>
      let inbound := InboundGroupSession.new key
      if key.sessionId ∈ dev.inboundMegolm then
        (.ok key.sessionId, dev)
      else
        (.ok key.sessionId,
          { dev with inboundMegolm := dev.inboundMegolm.insert key.sessionId inbound })

/-- Import shared room outbound (B2).  Keeps the local session when it is another one or ahead. -/
def importRoomOutbound (dev : E2eeDevice) (pkg : RoomOutboundPackage) :
    Except E2eeError String × E2eeDevice :=
  if pkg.v ≠ 1 then
    (.error (.codec ("unsupported room outbound v=" ++ toString pkg.v)), dev)
  else
    match dev.importGroupSessionKey pkg.sessionKeyB64 with
    | (.error e, dev) => (.error e, dev)
    | (.ok _, dev) =>
        match pkg.pickleB64.decode with
        | none => (.error .pickle, dev)
        | some session =>
            if session.sessionId ≠ pkg.sessionId then
              (.error (.codec "pickle session_id mismatch"), dev)
            else
              match dev.outboundMegolm.lookup pkg.roomId with
              | some loc =>
                  if loc.sessionId ≠ pkg.sessionId then
                    -- Different room session already owned locally: first-writer wins.
                    (.ok loc.sessionId, dev)
                  else if loc.messageIndex > pkg.messageIndex then
                    -- Local ratchet is ahead; keep local.
                    (.ok loc.sessionId, dev)
                  else
                    (.ok pkg.sessionId,
                      { dev with
                        outboundMegolm := dev.outboundMegolm.insert pkg.roomId session })
              | none =>
                  (.ok pkg.sessionId,
                    { dev with outboundMegolm := dev.outboundMegolm.insert pkg.roomId session })

/-- Encrypt room plaintext with Megolm (shared room outbound when present). -/
def megolmEncrypt (dev : E2eeDevice) (roomKey : String) (plaintext : Bytes) :
    Except E2eeError MegolmCiphertext × E2eeDevice :=
  match dev.outboundMegolm.lookup roomKey with
  | none => (.error (.missingMegolm roomKey), dev)
  | some out =>
      let (msg, out) := out.encrypt plaintext
      (.ok
        { senderDevice := dev.deviceId
          sessionId := out.sessionId
          ciphertextB64 := .of msg },
        { dev with outboundMegolm := dev.outboundMegolm.insert roomKey out })

def megolmDecrypt (dev : E2eeDevice) (ct : MegolmCiphertext) : Except E2eeError Bytes :=
  match dev.inboundMegolm.lookup ct.sessionId with
  | none => .error (.missingMegolm ct.sessionId)
  | some inbound =>
      match ct.ciphertextB64.decode with
      | none => .error (.codec "megolm message")
      | some msg =>
          match inbound.decrypt msg with
          | .error e => .error (.decrypt e)
          | .ok plaintext => .ok plaintext

/-! ## What an import does to the outbound sessions -/

/-- Importing a session key leaves the outbound sessions. -/
theorem importGroupSessionKey_outbound (dev : E2eeDevice) (key : Encoded SessionKey) :
    (dev.importGroupSessionKey key).2.outboundMegolm = dev.outboundMegolm := by
  unfold importGroupSessionKey
  split
  · rfl
  · dsimp only
    split <;> rfl

/-- A session key is stored exactly if it can be read. -/
theorem importGroupSessionKey_ok_iff {dev : E2eeDevice} {key : Encoded SessionKey} :
    (∃ sid, (dev.importGroupSessionKey key).1 = .ok sid) ↔ key.decode ≠ none := by
  unfold importGroupSessionKey
  cases hkey : key.decode with
  | none => simp
  | some k =>
      refine iff_of_true ?_ (by simp)
      dsimp only
      split
      · exact ⟨_, rfl⟩
      · exact ⟨_, rfl⟩

/-- The package passes the checks of `import_room_outbound` that look at nothing else, and its pickle holds
`session`. -/
structure PackageHolds (pkg : RoomOutboundPackage) (session : GroupSession) : Prop where
  version : pkg.v = 1
  key : pkg.sessionKeyB64.decode ≠ none
  pickle : pkg.pickleB64.decode = some session
  named : session.sessionId = pkg.sessionId

/-- An import leaves the outbound sessions, because the package fails a check or the room has another session
or one that is ahead, or installs the pickle. -/
theorem importRoomOutbound_cases (dev : E2eeDevice) (pkg : RoomOutboundPackage) :
    ((∀ session, PackageHolds pkg session → ∃ loc, dev.outboundMegolm.lookup pkg.roomId = some loc ∧
        (loc.sessionId = pkg.sessionId → pkg.messageIndex < loc.messageIndex)) ∧
      (dev.importRoomOutbound pkg).2.outboundMegolm = dev.outboundMegolm) ∨
    ∃ session, PackageHolds pkg session ∧
      (∀ loc, dev.outboundMegolm.lookup pkg.roomId = some loc →
        loc.sessionId = pkg.sessionId ∧ loc.messageIndex ≤ pkg.messageIndex) ∧
      (dev.importRoomOutbound pkg).2.outboundMegolm = dev.outboundMegolm.insert pkg.roomId session := by
  unfold importRoomOutbound
  split
  next hv => exact Or.inl ⟨fun _ h => absurd h.version hv, rfl⟩
  next hv =>
  have hout := dev.importGroupSessionKey_outbound pkg.sessionKeyB64
  have hok : (∃ sid, (dev.importGroupSessionKey pkg.sessionKeyB64).1 = .ok sid) ↔
      pkg.sessionKeyB64.decode ≠ none := importGroupSessionKey_ok_iff
  rcases hrun : dev.importGroupSessionKey pkg.sessionKeyB64 with ⟨res, dev'⟩
  rw [hrun] at hout hok
  cases res with
  | error e =>
      refine Or.inl ⟨fun _ h => ?_, hout⟩
      rcases hok.2 h.key with ⟨sid, hsid⟩
      cases hsid
  | ok sid =>
      dsimp only
      cases hpickle : pkg.pickleB64.decode with
      | none =>
          refine Or.inl ⟨fun _ h => ?_, hout⟩
          have hsome := h.pickle
          rw [hpickle] at hsome
          cases hsome
      | some session =>
          -- the pickle decodes in one way, so what holds of it is about this session
          have huniq : ∀ {session'}, PackageHolds pkg session' → session' = session := by
            intro session' h
            exact Option.some.inj (h.pickle.symm.trans hpickle)
          dsimp only
          split
          next hname => exact Or.inl ⟨fun _ h => absurd (huniq h ▸ h.named) hname, hout⟩
          next hname =>
          have hholds : PackageHolds pkg session := ⟨not_not.1 hv, hok.1 ⟨sid, rfl⟩, hpickle, not_not.1 hname⟩
          rw [hout]
          cases hloc : dev.outboundMegolm.lookup pkg.roomId with
          | none =>
              refine Or.inr ⟨session, hholds, ?_, rfl⟩
              intro loc' h
              cases h
          | some loc =>
              dsimp only
              split
              next hsid => exact Or.inl ⟨fun _ _ => ⟨loc, rfl, fun hsame => absurd hsame hsid⟩, hout⟩
              next hsid =>
              split
              next hahead => exact Or.inl ⟨fun _ _ => ⟨loc, rfl, fun _ => hahead⟩, hout⟩
              next hbehind =>
                  refine Or.inr ⟨session, hholds, ?_, rfl⟩
                  intro loc' h
                  cases h
                  exact ⟨not_not.1 hsid, Nat.le_of_not_gt hbehind⟩

end E2eeDevice

end Crypto
end Thunderducks
