import Thunderducks.Crypto.Durable
import Thunderducks.Crypto.Ratchet
import Thunderducks.Node.RelayPoll
import Thunderducks.Node.RelayPush
import Thunderducks.Node.Restart

/-!
# E2eeRequests — requests that touch the ratchets, and the file they are kept in (`td-node/src/rpc.rs`)

`send_message` writes the file after it has encrypted, and `ensure_room_e2ee` after it has made a room
session.  No other request writes it, although most of them change the Olm or Megolm state.
`survives_run` says along which runs a restart finds everything in the file.
-/

namespace Thunderducks
namespace Node

open Lib Event Crypto Net Relay

/-! ## Requests -/

/-- The answer of a peer to `GET /v1/e2ee/olm-keys`. -/
structure OlmKeysHttp where
  deviceId : String
  curve25519B64 : String
  oneTimeKeyB64 : String
  deriving DecidableEq

structure TrustOlmKeysRequest where
  deviceId : String
  curve25519B64 : String
  oneTimeKeyB64 : String
  /-- Optional peer name to stamp the device id onto. -/
  peerName : Option String
  deriving DecidableEq

section Requests

variable [Olm]

/-- Remember peer Olm keys for per-recipient relay seal. -/
def NodeSession.rememberPeerOlm (s : NodeSession) (keys : OlmDeviceKeys) : NodeSession :=
  { s with peerOlmKeys := s.peerOlmKeys.insert keys.deviceId keys }

/-- The device id of the peer, where the peer is known by name. -/
def NodeSession.stampPeer (s : NodeSession) (peerName : Option String) (peerDev : DeviceId) : NodeSession :=
  match peerName with
  | none => s
  | some name =>
      match s.peers.lookup name with
      | none => s
      | some ep =>
          { s with peers := s.peers.insert name { ep with deviceId := some (hex32 peerDev.bytes) } }

/-- A session with the file `e2ee.json` of its data dir. -/
structure Served where
  session : NodeSession
  file : Option E2eeDurablePackage

namespace Served

def withE2ee (s : Served) (e2ee : E2eeDevice) : Served :=
  { s with session := { s.session with e2ee := e2ee } }

/-- `persist_e2ee`; the write succeeds. -/
def persistE2ee (o : DurableOrder) (s : Served) : Served :=
  { s with file := some (s.session.e2ee.exportDurable o) }

/-- Ensure we can encrypt for this room.  B2: one shared outbound Megolm per room. -/
def ensureRoom (o : DurableOrder) (s : Served) (roomHex freshId : String) : Served :=
  if s.session.e2ee.hasOutbound roomHex then
    s
  else
    (s.withE2ee (s.session.e2ee.createGroupSession roomHex freshId).2).persistE2ee o

/-- Establish Olm to peer and wrap the room outbound (B2) for it; the post to the peer comes after. -/
def shareMegolmOlmToPeer [Serialize RoomOutboundPackage] (o : DurableOrder) (s : Served)
    (roomHex freshId : String) (preExported : Option RoomOutboundPackage)
    (reply : Except String OlmKeysHttp) : Served :=
  match reply with
  | .error _ => s
  | .ok keys =>
      match NodeSession.parseCryptoDeviceId keys.deviceId with
      | .error _ => s
      | .ok peerDev =>
          let their : OlmDeviceKeys :=
            { deviceId := peerDev
              curve25519B64 := keys.curve25519B64
              oneTimeKeyB64 := keys.oneTimeKeyB64 }
          let s := s.ensureRoom o roomHex freshId
          let s := { s with session := s.session.rememberPeerOlm their }
          match s.session.e2ee.establishOlmOutbound their with
          | (.error _, e2ee) => s.withE2ee e2ee
          | (.ok (), e2ee) =>
              let s := s.withE2ee e2ee
              let body : Except E2eeError RoomOutboundPackage :=
                match preExported with
                | some pkg => .ok pkg
                | none => s.session.e2ee.exportRoomOutbound roomHex
              match body with
              | .error _ => s
              | .ok pkg => s.withE2ee (s.session.e2ee.olmEncrypt peerDev (toVec pkg)).2

/-- Register a peer's Olm identity keys for per-recipient relay seal (v2). -/
def trustOlmKeys (s : Served) (req : TrustOlmKeysRequest) : Served :=
  match NodeSession.parseCryptoDeviceId req.deviceId with
  | .error _ => s
  | .ok peerDev =>
      let keys : OlmDeviceKeys :=
        { deviceId := peerDev
          curve25519B64 := req.curve25519B64
          oneTimeKeyB64 := req.oneTimeKeyB64 }
      match s.session.e2ee.establishOlmOutbound keys with
      | (.error _, e2ee) => s.withE2ee e2ee
      | (.ok (), e2ee) =>
          { s with session :=
              ({ s.session with e2ee := e2ee }.rememberPeerOlm keys).stampPeer req.peerName peerDev }

def olmKeysGet [OneTimeKeys] (s : Served) : Served :=
  s.withE2ee s.session.e2ee.publishKeys.2

def importSession (s : Served) (sessionKeyB64 : Option (Encoded SessionKey)) : Served :=
  match sessionKeyB64 with
  | none => s
  | some key => s.withE2ee (s.session.e2ee.importGroupSessionKey key).2

/-- B2 preferred: a room outbound package.  Legacy: a Megolm session key (inbound only). -/
def importSessionOlm [Deserialize RoomOutboundPackage] [Deserialize (Encoded SessionKey)] (s : Served)
    (senderCurve25519B64 : String) (olm : OlmCiphertext) : Served :=
  match s.session.e2ee.olmDecrypt senderCurve25519B64 olm with
  | (.error _, e2ee) => s.withE2ee e2ee
  | (.ok plain, e2ee) =>
      match Deserialize.fromSlice (α := RoomOutboundPackage) plain with
      | some pkg => s.withE2ee (e2ee.importRoomOutbound pkg).2
      | none =>
          match Deserialize.fromSlice (α := Encoded SessionKey) plain with
          | none => s.withE2ee e2ee
          | some key => s.withE2ee (e2ee.importGroupSessionKey key).2

section Send

variable [Primitives] [Deserialize CreateRoomPayload] [Deserialize MembershipPayload]
  [Serialize RoomOutboundPackage]

/-- `send_message`: the file is written once the message is encrypted, then the message is committed, and
the package from before the encryption goes to each peer that has an RPC address. -/
def sendMessage (b64 : Encoded MegolmMessage → String) (sk : Primitives.SigningKey) (o : DurableOrder)
    (s : Served) (roomId : RoomId) (text freshId : String) (ts : UInt64)
    (replies : List (Except String OlmKeysHttp)) : Served :=
  let roomHex := hex32 roomId.bytes
  let roomOutbound := (sendMegolm s.session.e2ee roomHex freshId (NodeSession.plaintextOf text)).1.toOption
  let (res, session) := s.session.sendMessage b64 sk roomId text freshId ts
  match res with
  | .error (.room _) => s
  | .error (.encrypt _) => { s.ensureRoom o roomHex freshId with session := session }
  | .error _ => { s with session := session }.persistE2ee o
  | .ok _ =>
      replies.foldl (fun s reply => s.shareMegolmOlmToPeer o roomHex freshId roomOutbound reply)
        ({ s with session := session }.persistE2ee o)

end Send

end Served

/-! ## Runs -/

variable [Primitives] [Aead] [OneTimeKeys] [Serialize RoomOutboundPackage] [Deserialize RoomOutboundPackage]
  [Deserialize (Encoded SessionKey)] [Deserialize RelayOlmWire] [Deserialize SignedEvent]
  [Deserialize CreateRoomPayload] [Deserialize MembershipPayload]

/-- The requests, and the restart.  `o` is the order in which a write lists the maps; a restart comes back
with the node and the rooms it loads, and with `account` if there is no file. -/
inductive E2eeRequest
  | sendMessage (o : DurableOrder) (roomId : RoomId) (text freshId : String) (ts : UInt64)
      (replies : List (Except String OlmKeysHttp))
  | importSession (sessionKeyB64 : Option (Encoded SessionKey))
  | importSessionOlm (senderCurve25519B64 : String) (olm : OlmCiphertext)
  | shareSession (o : DurableOrder) (roomHex freshId : String) (reply : Except String OlmKeysHttp)
  | trustOlmKeys (req : TrustOlmKeysRequest)
  | olmKeysGet
  | relayPoll (env : PollEnv) (relay : RelayState)
  | relayPush (env : PushEnv)
  | restart (verifyingKey : Bytes32) (node : DeviceNode) (rooms : RoomRegistry) (account : Olm.Account)

namespace E2eeRequest

variable (b64 : Encoded MegolmMessage → String) (sk : Primitives.SigningKey)

def step (s : Served) : E2eeRequest → Served
  | .sendMessage o roomId text freshId ts replies => s.sendMessage b64 sk o roomId text freshId ts replies
  | .importSession key => s.importSession key
  | .importSessionOlm curve olm => s.importSessionOlm curve olm
  | .shareSession o roomHex freshId reply => s.shareMegolmOlmToPeer o roomHex freshId none reply
  | .trustOlmKeys req => s.trustOlmKeys req
  | .olmKeysGet => s.olmKeysGet
  | .relayPoll env relay => { s with session := (pollRelayOnce env s.session relay).session }
  | .relayPush env => { s with session := (pushOutboxToRelay env s.session).session }
  | .restart verifyingKey node rooms account =>
      match loadE2ee s.session.deviceId account s.file with
      -- the node does not come up
      | .error _ => s
      | .ok e2ee =>
          { s with session := NodeSession.fromParts ⟨s.session.deviceId, verifyingKey⟩ node e2ee rooms }

end E2eeRequest

/-! ## What a restart must find -/

/-- Whatever account a new device would draw, a restart now loads a device that can do what the one in
memory can. -/
def Served.Survives (s : Served) : Prop :=
  ∀ account, ∃ dev, loadE2ee s.session.deviceId account s.file = .ok dev ∧ s.session.e2ee.Covers dev

/-- A node that has just been started on a data dir without the file. -/
def Served.Started (s : Served) : Prop :=
  s.file = none ∧ ∃ account, OneTimeKeys.published account = [] ∧
    s.session.e2ee = E2eeDevice.new s.session.deviceId account

/-! ### Requests that leave the ratchets alone -/

/-- `establish_olm_outbound` has nothing to do, or keys it cannot read. -/
def EstablishIdle (dev : E2eeDevice) (their : OlmDeviceKeys) : Prop :=
  their.deviceId ∈ dev.olmSessions ∨ Olm.curveFromBase64 their.curve25519B64 = none ∨
    Olm.curveFromBase64 their.oneTimeKeyB64 = none

/-- `olm_decrypt` refuses the ciphertext before it touches a session or the account. -/
def DecryptIdle (dev : E2eeDevice) (theirIdentityB64 : String) (ct : OlmCiphertext) : Prop :=
  ct.recipientDevice ≠ dev.deviceId ∨ Olm.messageFromJson ct.messageJson = none ∨
    (ct.senderDevice ∉ dev.olmSessions ∧
      ((∀ msg, Olm.messageFromJson ct.messageJson = some msg → Olm.isPreKey msg = false) ∨
        Olm.curveFromBase64 theirIdentityB64 = none))

/-- The envelope is not an Olm one, or its ciphertext is refused. -/
def OpenIdle (dev : E2eeDevice) (sealed : Bytes) : Prop :=
  ∀ rest wire, sealed = relaySealV2Olm :: rest →
    Deserialize.fromSlice (α := RelayOlmWire) rest = some wire → wire.v = 1 →
    DecryptIdle dev wire.senderCurve25519B64 wire.olm

/-- Events for this recipient are sealed with the shared key, or not at all. -/
def SealIdle (s : NodeSession) (recip : DeviceId) : Prop :=
  recip ∉ s.e2ee.olmSessions ∧
    ∀ keys, s.peerOlmKeys.lookup recip = some keys → EstablishIdle s.e2ee keys

/-- The peer does not answer with keys that give a session. -/
def ReplyIdle (dev : E2eeDevice) (reply : Except String OlmKeysHttp) : Prop :=
  ∀ keys peerDev, reply = .ok keys → NodeSession.parseCryptoDeviceId keys.deviceId = .ok peerDev →
    peerDev ∉ dev.olmSessions ∧ (Olm.curveFromBase64 keys.curve25519B64 = none ∨
      Olm.curveFromBase64 keys.oneTimeKeyB64 = none)

namespace E2eeRequest

/-- An account that is drawn has published no key yet. -/
def Allowed (_ : Served) : E2eeRequest → Prop
  | .restart _ _ _ account => OneTimeKeys.published account = []
  | _ => True

/-- The request changes nothing in the ratchets that it does not write to the file: `send_message` reaches no
peer with usable keys, an imported session key is known or cannot be read, an Olm ciphertext is refused, keys
to trust are of a peer with a session or cannot be read, no keys are published, and the relay has no Olm
envelope to open and no recipient to seal one for. -/
def Keeps (s : Served) : E2eeRequest → Prop
  | .sendMessage _ _ _ _ _ replies => ∀ reply ∈ replies, ReplyIdle s.session.e2ee reply
  | .importSession key => ∀ k, key = some (.of k) → k.sessionId ∈ s.session.e2ee.inboundMegolm
  | .importSessionOlm curve olm => DecryptIdle s.session.e2ee curve olm
  | .shareSession _ _ _ reply => ReplyIdle s.session.e2ee reply
  | .trustOlmKeys req => ∀ peerDev, NodeSession.parseCryptoDeviceId req.deviceId = .ok peerDev →
      EstablishIdle s.session.e2ee
        { deviceId := peerDev
          curve25519B64 := req.curve25519B64
          oneTimeKeyB64 := req.oneTimeKeyB64 }
  | .olmKeysGet => False
  | .relayPoll env relay => ∀ item ∈ polledItems env s.session relay, OpenIdle s.session.e2ee item.ciphertext
  | .relayPush env => s.session.relayUri = none ∨ s.session.node.outbox = [] ∨
      ∀ recip ∈ s.session.relayRecipients env.order, SealIdle s.session recip
  | .restart _ _ _ _ => True

end E2eeRequest

/-! ### They do leave them alone -/

section Idle

variable {dev : E2eeDevice}

omit [Primitives] [Aead] [OneTimeKeys] [Serialize RoomOutboundPackage] [Deserialize RoomOutboundPackage]
  [Deserialize (Encoded SessionKey)] [Deserialize RelayOlmWire] [Deserialize SignedEvent]
  [Deserialize CreateRoomPayload] [Deserialize MembershipPayload]

theorem establishOlmOutbound_idle {their : OlmDeviceKeys} (h : EstablishIdle dev their) :
    (dev.establishOlmOutbound their).2 = dev := by
  unfold E2eeDevice.establishOlmOutbound
  split
  · rfl
  next hnew =>
    rcases h with hin | hnone | hnone
    · exact absurd hin hnew
    · simp [hnone]
    · simp [hnone]

theorem olmDecrypt_idle {theirIdentityB64 : String} {ct : OlmCiphertext}
    (h : DecryptIdle dev theirIdentityB64 ct) :
    ∃ e, dev.olmDecrypt theirIdentityB64 ct = (.error e, dev) := by
  unfold E2eeDevice.olmDecrypt
  by_cases hto : ct.recipientDevice ≠ dev.deviceId
  · rw [if_pos hto]
    exact ⟨_, rfl⟩
  · rw [if_neg hto]
    cases hmsg : Olm.messageFromJson ct.messageJson with
    | none => exact ⟨_, rfl⟩
    | some msg =>
        rcases h with hbad | hbad | ⟨hnone, hrest⟩
        · exact absurd hbad hto
        · rw [hmsg] at hbad
          cases hbad
        · dsimp only
          rw [AList.lookup_eq_none.2 hnone]
          dsimp only
          rcases hrest with hnormal | hkey
          · rw [hnormal msg hmsg]
            exact ⟨_, rfl⟩
          · rw [hkey]
            cases Olm.isPreKey msg with
            | true => exact ⟨_, rfl⟩
            | false => exact ⟨_, rfl⟩

theorem openBytesAuto_idle [Aead] [Deserialize RelayOlmWire] {key : Option Bytes32} {sealed : Bytes}
    (h : OpenIdle dev sealed) : (openBytesAuto dev key sealed).2 = dev := by
  unfold openBytesAuto
  cases hs : sealed with
  | nil => rfl
  | cons v rest =>
      dsimp only [List.head?_cons]
      split
      -- an Olm envelope: its ratchet is not there, or it does not decrypt
      next hv =>
        subst hv
        unfold openBytesOlm
        dsimp only
        rw [if_neg (by simp)]
        cases hwire : Deserialize.fromSlice (α := RelayOlmWire) rest with
        | none => rfl
        | some wire =>
            dsimp only
            split
            · rfl
            next hone =>
              push Not at hone
              rcases olmDecrypt_idle (h rest wire hs hwire hone) with ⟨e, heq⟩
              rw [heq]
      -- the shared key leaves the ratchets alone
      next hv =>
        split
        · cases key with
          | none => rfl
          | some key => rfl
        · rfl

theorem afterOpening_idle [Aead] [Primitives] [Deserialize RelayOlmWire] [Deserialize SignedEvent]
    (key : Bytes32) (items : List RelayEnvelope) (h : ∀ item ∈ items, OpenIdle dev item.ciphertext) :
    afterOpening key dev items = dev := by
  induction items with
  | nil => rfl
  | cons item items ih =>
      have hopen : (DeviceNode.openFromRelayAuto dev (some key) item.ciphertext).2 = dev := by
        have hidle := @openBytesAuto_idle _ dev _ _ (some key) item.ciphertext (h item (by simp))
        unfold DeviceNode.openFromRelayAuto
        rcases hrun : openBytesAuto dev (some key) item.ciphertext with ⟨res, dev'⟩
        rw [hrun] at hidle
        cases res with
        | error e => exact hidle
        | ok raw => exact hidle
      unfold afterOpening
      rw [hopen]
      exact ih fun i hi => h i (List.mem_cons_of_mem _ hi)

theorem sealEventForRecipient_idle [Aead] {s : NodeSession} {recip : DeviceId} (h : SealIdle s recip)
    (nonce : Bytes) (ev : SignedEvent) : (s.sealEventForRecipient nonce ev recip).2 = s := by
  rcases h with ⟨hnone, hkeys⟩
  -- no session, and none can be made
  have hensure : (s.ensureOlmTo recip).2 = s := by
    unfold NodeSession.ensureOlmTo E2eeDevice.hasOlmSession
    rw [if_neg (by simpa using hnone)]
    cases hl : s.peerOlmKeys.lookup recip with
    | none => rfl
    | some keys =>
        have hidle := establishOlmOutbound_idle (hkeys keys hl)
        dsimp only
        rcases hrun : s.e2ee.establishOlmOutbound keys with ⟨res, e2ee⟩
        rw [hrun] at hidle
        dsimp only at hidle
        subst hidle
        cases res with
        | error e => rfl
        | ok u => rfl
  unfold NodeSession.sealEventForRecipient
  rcases hrun : s.ensureOlmTo recip with ⟨res, s'⟩
  rw [hrun] at hensure
  dsimp only at hensure
  subst hensure
  cases res with
  | ok u =>
      have hseal : DeviceNode.sealForRelayOlm s'.e2ee recip ev =
          (.error (.relaySeal (.olm (.missingOlm recip))), s'.e2ee) := by
        unfold DeviceNode.sealForRelayOlm sealBytesOlm E2eeDevice.olmEncrypt
        rw [AList.lookup_eq_none.2 hnone]
      dsimp only
      rw [hseal]
  -- the shared key is the way out
  | error e =>
      dsimp only
      cases DeviceNode.sealForRelay ev s'.relayKey nonce with
      | error e => rfl
      | ok ct => rfl

theorem sealJobs_idle [Aead] (nonce : Nat → Bytes) {s : NodeSession} (todo : List Job)
    (h : ∀ job ∈ todo, SealIdle s job.recip) : ∀ sealed, (sealJobs nonce s todo sealed).2 = s := by
  induction todo with
  | nil =>
      intro sealed
      rfl
  | cons job todo ih =>
      intro sealed
      have hidle := sealEventForRecipient_idle (h job (by simp)) (nonce sealed.length) job.ev
      unfold sealJobs
      rcases hrun : s.sealEventForRecipient (nonce sealed.length) job.ev job.recip with ⟨res, s'⟩
      rw [hrun] at hidle
      dsimp only at hidle
      subst hidle
      cases res with
      | error e => rfl
      | ok out => exact ih (fun j hj => h j (List.mem_cons_of_mem _ hj)) _

omit [Olm] in
theorem mem_jobs_recip {events : List SignedEvent} {recipients : List DeviceId} {job : Job}
    (h : job ∈ jobs events recipients) : job.recip ∈ recipients := by
  unfold jobs at h
  rcases List.mem_flatMap.1 h with ⟨e, _, hjob⟩
  rcases List.mem_map.1 hjob with ⟨recip, hrecip, rfl⟩
  exact hrecip

end Idle

/-! ### The file and the memory -/

section Filed

variable {s : Served}

omit [Primitives] [Aead] [Serialize RoomOutboundPackage] [Deserialize RoomOutboundPackage]
  [Deserialize (Encoded SessionKey)] [Deserialize RelayOlmWire] [Deserialize SignedEvent]
  [Deserialize CreateRoomPayload] [Deserialize MembershipPayload]

/-- The file holds what is in memory; without a file there is nothing to hold. -/
structure Filed (s : Served) : Prop where
  own : s.session.e2ee.deviceId = s.session.deviceId
  filed : match s.file with
    | none => s.session.e2ee.Bare
    | some pkg => ∃ o dev, pkg = E2eeDevice.exportDurable o dev ∧ dev.Same s.session.e2ee

theorem Filed.of_none (hown : s.session.e2ee.deviceId = s.session.deviceId) (hfile : s.file = none)
    (hbare : s.session.e2ee.Bare) : Filed s := by
  refine ⟨hown, ?_⟩
  rw [hfile]
  exact hbare

theorem Filed.of_some {o : DurableOrder} {dev : E2eeDevice}
    (hown : s.session.e2ee.deviceId = s.session.deviceId) (hfile : s.file = some (dev.exportDurable o))
    (hsame : dev.Same s.session.e2ee) : Filed s := by
  refine ⟨hown, ?_⟩
  rw [hfile]
  exact ⟨o, dev, rfl, hsame⟩

/-- What the file of a node gives back. -/
theorem Filed.loads (h : Filed s) (account : Olm.Account) :
    (s.file = none ∧ s.session.e2ee.Bare ∧
      loadE2ee s.session.deviceId account s.file = .ok (E2eeDevice.new s.session.deviceId account)) ∨
    ∃ o written dev, s.file = some (E2eeDevice.exportDurable o written) ∧ written.Same s.session.e2ee ∧
      loadE2ee s.session.deviceId account s.file = .ok dev ∧ s.session.e2ee.Same dev := by
  have hfiled := h.filed
  cases hfile : s.file with
  | none =>
      rw [hfile] at hfiled
      exact Or.inl ⟨rfl, hfiled, rfl⟩
  | some pkg =>
      rw [hfile] at hfiled
      rcases hfiled with ⟨o, written, rfl, hsame⟩
      rcases importDurable_exportDurable o written with ⟨dev, hload, hback⟩
      have hid : written.deviceId = s.session.deviceId := hsame.deviceId.symm.trans h.own
      rw [hid] at hload
      exact Or.inr ⟨o, written, dev, rfl, hsame, hload, hsame.symm.trans hback⟩

theorem Filed.survives (h : Filed s) : s.Survives := by
  intro account
  rcases h.loads account with ⟨_, hbare, hload⟩ | ⟨_, _, dev, _, _, hload, hsame⟩
  · exact ⟨_, hload, hbare.covers _⟩
  · exact ⟨dev, hload, hsame.covers⟩

theorem Filed.started (h : s.Started) : Filed s := by
  rcases h with ⟨hfile, account, hkeys, hdev⟩
  have hbare : s.session.e2ee.Bare := by
    rw [hdev]
    exact E2eeDevice.bare_new _ hkeys
  have hown : s.session.e2ee.deviceId = s.session.deviceId := by
    rw [hdev]
    rfl
  exact Filed.of_none hown hfile hbare

theorem Filed.persistE2ee (o : DurableOrder) (hown : s.session.e2ee.deviceId = s.session.deviceId) :
    Filed (s.persistE2ee o) :=
  Filed.of_some hown rfl (E2eeDevice.Same.refl _)

/-- Only the file, the ratchets and the identity matter. -/
theorem Filed.congr {s' : Served} (h : Filed s) (hfile : s'.file = s.file)
    (he2ee : s'.session.e2ee = s.session.e2ee) (hid : s'.session.deviceId = s.session.deviceId) : Filed s' := by
  refine ⟨by rw [he2ee, hid]; exact h.own, ?_⟩
  rw [hfile, he2ee]
  exact h.filed

theorem Filed.withE2ee {e2ee : E2eeDevice} (h : Filed s) (hsame : e2ee = s.session.e2ee) :
    Filed (s.withE2ee e2ee) :=
  h.congr rfl hsame rfl

omit [OneTimeKeys] in
theorem createGroupSession_frame (dev : E2eeDevice) (roomKey freshId : String) :
    (dev.createGroupSession roomKey freshId).2.deviceId = dev.deviceId ∧
      (dev.createGroupSession roomKey freshId).2.olmSessions = dev.olmSessions := by
  unfold E2eeDevice.createGroupSession
  split
  · exact ⟨rfl, rfl⟩
  · exact ⟨rfl, rfl⟩

/-- A room session that is made is written at once. -/
theorem Filed.ensureRoom (h : Filed s) (o : DurableOrder) (roomHex freshId : String) :
    Filed (s.ensureRoom o roomHex freshId) ∧
      (s.ensureRoom o roomHex freshId).session.e2ee.olmSessions = s.session.e2ee.olmSessions := by
  unfold Served.ensureRoom
  split
  · exact ⟨h, rfl⟩
  · rcases createGroupSession_frame s.session.e2ee roomHex freshId with ⟨hid, holm⟩
    exact ⟨Filed.persistE2ee o (hid.trans h.own), holm⟩

theorem Filed.share [Serialize RoomOutboundPackage] (h : Filed s) (o : DurableOrder)
    (roomHex freshId : String) (preExported : Option RoomOutboundPackage)
    {reply : Except String OlmKeysHttp} (hidle : ReplyIdle s.session.e2ee reply) :
    Filed (s.shareMegolmOlmToPeer o roomHex freshId preExported reply) ∧
      (s.shareMegolmOlmToPeer o roomHex freshId preExported reply).session.e2ee.olmSessions =
        s.session.e2ee.olmSessions := by
  unfold Served.shareMegolmOlmToPeer
  cases reply with
  | error e => exact ⟨h, rfl⟩
  | ok keys =>
      dsimp only
      cases hparse : NodeSession.parseCryptoDeviceId keys.deviceId with
      | error e => exact ⟨h, rfl⟩
      | ok peerDev =>
          rcases hidle keys peerDev rfl hparse with ⟨hnone, hkeys⟩
          rcases h.ensureRoom o roomHex freshId with ⟨hroom, holm⟩
          -- the keys cannot be read and there is no session, so establishing fails
          let their : OlmDeviceKeys :=
            { deviceId := peerDev
              curve25519B64 := keys.curve25519B64
              oneTimeKeyB64 := keys.oneTimeKeyB64 }
          have hfails : (s.ensureRoom o roomHex freshId).session.e2ee.establishOlmOutbound their =
              (.error .invalidKey, (s.ensureRoom o roomHex freshId).session.e2ee) := by
            unfold E2eeDevice.establishOlmOutbound
            rw [holm, if_neg hnone]
            rcases hkeys with hbad | hbad
            · simp [their, hbad]
            · simp [their, hbad]
          have hrun : ({ s.ensureRoom o roomHex freshId with
              session := (s.ensureRoom o roomHex freshId).session.rememberPeerOlm their } :
                Served).session.e2ee.establishOlmOutbound their =
              (.error .invalidKey, (s.ensureRoom o roomHex freshId).session.e2ee) := hfails
          dsimp only
          rw [hrun]
          exact ⟨hroom.congr rfl rfl rfl, holm⟩

theorem Filed.shares [Serialize RoomOutboundPackage] (o : DurableOrder) (roomHex freshId : String)
    (preExported : Option RoomOutboundPackage) (replies : List (Except String OlmKeysHttp)) :
    ∀ {s : Served}, Filed s → (∀ reply ∈ replies, ReplyIdle s.session.e2ee reply) →
      Filed (replies.foldl (fun s reply => s.shareMegolmOlmToPeer o roomHex freshId preExported reply) s) := by
  induction replies with
  | nil =>
      intro s h _
      exact h
  | cons reply replies ih =>
      intro s h hidle
      rcases h.share o roomHex freshId preExported (hidle reply (by simp)) with ⟨hfiled, holm⟩
      refine ih hfiled ?_
      intro reply' hreply' keys peerDev hok hparse
      rw [holm]
      exact hidle reply' (List.mem_cons_of_mem _ hreply') keys peerDev hok hparse

end Filed

/-! ### `send_message` -/

section Sends

omit [Aead] [OneTimeKeys] [Serialize RoomOutboundPackage] [Deserialize RoomOutboundPackage]
  [Deserialize (Encoded SessionKey)] [Deserialize RelayOlmWire] [Deserialize SignedEvent]

omit [Primitives] [Deserialize CreateRoomPayload] [Deserialize MembershipPayload] in
theorem sendMegolm_frame (e2ee : E2eeDevice) (roomHex freshId : String) (plain : Bytes) :
    (sendMegolm e2ee roomHex freshId plain).2.2.deviceId = e2ee.deviceId ∧
      (sendMegolm e2ee roomHex freshId plain).2.2.olmSessions = e2ee.olmSessions := by
  have hensure : (ensureRoomE2ee e2ee roomHex freshId).deviceId = e2ee.deviceId ∧
      (ensureRoomE2ee e2ee roomHex freshId).olmSessions = e2ee.olmSessions := by
    unfold ensureRoomE2ee
    split
    · exact ⟨rfl, rfl⟩
    · exact createGroupSession_frame e2ee roomHex freshId
  have hencrypt : ∀ dev : E2eeDevice, (dev.megolmEncrypt roomHex plain).2.deviceId = dev.deviceId ∧
      (dev.megolmEncrypt roomHex plain).2.olmSessions = dev.olmSessions := by
    intro dev
    unfold E2eeDevice.megolmEncrypt
    split
    · exact ⟨rfl, rfl⟩
    · exact ⟨rfl, rfl⟩
  rcases hencrypt (ensureRoomE2ee e2ee roomHex freshId) with ⟨hid, holm⟩
  exact ⟨hid.trans hensure.1, holm.trans hensure.2⟩

/-- A message changes no Olm session and not the identity, and it is always encrypted. -/
theorem sendInRoom_frame (b64 : Encoded MegolmMessage → String) (s : NodeSession) (sk : Primitives.SigningKey)
    (roomId : RoomId) (text freshId : String) (ts : UInt64) :
    (s.sendInRoom b64 sk roomId text freshId ts).2.deviceId = s.deviceId ∧
    (s.sendInRoom b64 sk roomId text freshId ts).2.e2ee.deviceId = s.e2ee.deviceId ∧
    (s.sendInRoom b64 sk roomId text freshId ts).2.e2ee.olmSessions = s.e2ee.olmSessions ∧
    ∀ e, (s.sendInRoom b64 sk roomId text freshId ts).1 ≠ .error (.encrypt e) := by
  rcases sendMegolm_frame s.e2ee (hex32 roomId.bytes) freshId (NodeSession.plaintextOf text) with
    ⟨hid, holm⟩
  rcases sendMegolm_spec s.e2ee (hex32 roomId.bytes) freshId (NodeSession.plaintextOf text) with
    ⟨dev, e2ee', heq, _⟩
  unfold NodeSession.sendInRoom
  dsimp only
  rw [heq] at hid holm ⊢
  dsimp only at hid holm ⊢
  split
  · exact ⟨rfl, hid, holm, by simp⟩
  next signed _ =>
    rcases s.node.commitLocal signed with ⟨res, node⟩
    cases res with
    | error e => exact ⟨rfl, hid, holm, by simp⟩
    | ok b => exact ⟨rfl, hid, holm, by simp⟩

theorem sendMessage_frame (b64 : Encoded MegolmMessage → String) (s : NodeSession) (sk : Primitives.SigningKey)
    (roomId : RoomId) (text freshId : String) (ts : UInt64) :
    (s.sendMessage b64 sk roomId text freshId ts).2.deviceId = s.deviceId ∧
    (s.sendMessage b64 sk roomId text freshId ts).2.e2ee.deviceId = s.e2ee.deviceId ∧
    (s.sendMessage b64 sk roomId text freshId ts).2.e2ee.olmSessions = s.e2ee.olmSessions ∧
    ∀ e, (s.sendMessage b64 sk roomId text freshId ts).1 ≠ .error (.encrypt e) := by
  have hroom := sendInRoom_frame b64 s sk roomId text freshId ts
  unfold NodeSession.sendMessage
  split
  · exact hroom
  · split
    · exact ⟨rfl, rfl, rfl, by simp⟩
    · exact hroom

variable [OneTimeKeys] [Serialize RoomOutboundPackage]

theorem Filed.sendMessage {s : Served} (h : Filed s) (b64 : Encoded MegolmMessage → String)
    (sk : Primitives.SigningKey) (o : DurableOrder) (roomId : RoomId) (text freshId : String) (ts : UInt64)
    {replies : List (Except String OlmKeysHttp)}
    (hidle : ∀ reply ∈ replies, ReplyIdle s.session.e2ee reply) :
    Filed (s.sendMessage b64 sk o roomId text freshId ts replies) := by
  rcases sendMessage_frame b64 s.session sk roomId text freshId ts with ⟨hid, hdev, holm, hok⟩
  unfold Served.sendMessage
  rcases hrun : s.session.sendMessage b64 sk roomId text freshId ts with ⟨res, session⟩
  rw [hrun] at hid hdev holm hok
  dsimp only at hid hdev holm hok ⊢
  -- the ratchet has moved and the file with it
  have hsaved : Filed (Served.persistE2ee o { s with session := session }) := by
    refine Filed.persistE2ee o ?_
    change session.e2ee.deviceId = session.deviceId
    rw [hdev, hid]
    exact h.own
  cases res with
  | error e =>
      cases e with
      | room e => exact h
      | encrypt e => exact absurd rfl (hok e)
      | sign e => exact hsaved
      | commit e => exact hsaved
  | ok signed =>
      refine Filed.shares o _ _ _ replies hsaved ?_
      intro reply hreply keys peerDev hrep hparse
      change peerDev ∉ session.e2ee.olmSessions ∧ _
      rw [holm]
      exact hidle reply hreply keys peerDev hrep hparse

end Sends

/-! ### Every request -/

section Steps

variable {s : Served}

omit [Primitives] [Aead] [Serialize RoomOutboundPackage] [Deserialize RoomOutboundPackage]
  [Deserialize (Encoded SessionKey)] [Deserialize RelayOlmWire] [Deserialize SignedEvent]
  [Deserialize CreateRoomPayload] [Deserialize MembershipPayload]

theorem Filed.restart [Primitives] (h : Filed s) (verifyingKey : Bytes32) (node : DeviceNode)
    (rooms : RoomRegistry) {account : Olm.Account} (hkeys : OneTimeKeys.published account = [])
    {e2ee : E2eeDevice} (hload : loadE2ee s.session.deviceId account s.file = .ok e2ee) :
    Filed { s with session := NodeSession.fromParts ⟨s.session.deviceId, verifyingKey⟩ node e2ee rooms } := by
  rcases h.loads account with ⟨hfile, _, hnew⟩ | ⟨o, written, dev, hfile, hwritten, hback, hsame⟩
  · cases hload.symm.trans hnew
    exact Filed.of_none rfl hfile (E2eeDevice.bare_new _ hkeys)
  · cases hload.symm.trans hback
    exact Filed.of_some (hsame.deviceId.trans h.own) hfile (hwritten.trans hsame)

theorem Filed.importSession (h : Filed s) {key : Option (Encoded SessionKey)}
    (hknown : ∀ k, key = some (.of k) → k.sessionId ∈ s.session.e2ee.inboundMegolm) :
    Filed (s.importSession key) := by
  cases key with
  | none => exact h
  | some key =>
      apply h.withE2ee
      unfold E2eeDevice.importGroupSessionKey
      cases key with
      | malformed => rfl
      | of k =>
          have hin : k.sessionId ∈ s.session.e2ee.inboundMegolm := hknown k rfl
          dsimp only [Encoded.decode]
          rw [if_pos hin]

theorem Filed.importSessionOlm [Deserialize RoomOutboundPackage] [Deserialize (Encoded SessionKey)]
    (h : Filed s) {curve : String} {olm : OlmCiphertext} (hidle : DecryptIdle s.session.e2ee curve olm) :
    Filed (s.importSessionOlm curve olm) := by
  rcases olmDecrypt_idle hidle with ⟨e, heq⟩
  unfold Served.importSessionOlm
  rw [heq]
  exact h.withE2ee rfl

omit [OneTimeKeys] in
theorem stampPeer_frame (s : NodeSession) (peerName : Option String) (peerDev : DeviceId) :
    (s.stampPeer peerName peerDev).e2ee = s.e2ee ∧ (s.stampPeer peerName peerDev).deviceId = s.deviceId := by
  unfold NodeSession.stampPeer
  split
  · exact ⟨rfl, rfl⟩
  · split
    · exact ⟨rfl, rfl⟩
    · exact ⟨rfl, rfl⟩

theorem Filed.trustOlmKeys (h : Filed s) {req : TrustOlmKeysRequest}
    (hidle : ∀ peerDev, NodeSession.parseCryptoDeviceId req.deviceId = .ok peerDev →
      EstablishIdle s.session.e2ee
        { deviceId := peerDev
          curve25519B64 := req.curve25519B64
          oneTimeKeyB64 := req.oneTimeKeyB64 }) : Filed (s.trustOlmKeys req) := by
  unfold Served.trustOlmKeys
  cases hparse : NodeSession.parseCryptoDeviceId req.deviceId with
  | error e => exact h
  | ok peerDev =>
      have hsame := establishOlmOutbound_idle (hidle peerDev hparse)
      dsimp only
      rcases hrun : s.session.e2ee.establishOlmOutbound
        { deviceId := peerDev
          curve25519B64 := req.curve25519B64
          oneTimeKeyB64 := req.oneTimeKeyB64 } with ⟨res, e2ee⟩
      rw [hrun] at hsame
      cases res with
      | error e => exact h.withE2ee hsame
      | ok u =>
          dsimp only at hsame ⊢
          rcases stampPeer_frame ({ s.session with e2ee := e2ee }.rememberPeerOlm
            { deviceId := peerDev
              curve25519B64 := req.curve25519B64
              oneTimeKeyB64 := req.oneTimeKeyB64 }) req.peerName peerDev with ⟨he2ee, hid⟩
          exact h.congr rfl (he2ee.trans hsame) hid

theorem Filed.relayPoll [Primitives] [Aead] [Deserialize RelayOlmWire] [Deserialize SignedEvent]
    [Deserialize CreateRoomPayload] [Deserialize MembershipPayload] (h : Filed s) (env : PollEnv)
    (relay : RelayState)
    (hidle : ∀ item ∈ polledItems env s.session relay, OpenIdle s.session.e2ee item.ciphertext) :
    Filed { s with session := (pollRelayOnce env s.session relay).session } := by
  have hpolled := pollRelayOnce_polled env s.session relay
  exact h.congr rfl (hpolled.e2ee.trans (afterOpening_idle _ _ hidle)) hpolled.deviceId

omit [OneTimeKeys] in
theorem sendSealed_session [Primitives] (env : PushEnv) (uri : String) (s : NodeSession) (sealed : List Sealed) :
    (sendSealed env uri s sealed).session = s := by
  unfold sendSealed
  split
  · rfl
  · split
    · rfl
    · split
      · rfl
      · rfl

omit [OneTimeKeys] in
/-- A push that seals nothing with Olm takes events from the outbox and leaves the rest. -/
theorem pushOutboxToRelay_idle [Primitives] [Aead] (env : PushEnv) (s : NodeSession)
    (hidle : s.relayUri = none ∨ s.node.outbox = [] ∨
      ∀ recip ∈ s.relayRecipients env.order, SealIdle s recip) :
    (pushOutboxToRelay env s).session.e2ee = s.e2ee ∧
      (pushOutboxToRelay env s).session.deviceId = s.deviceId := by
  unfold pushOutboxToRelay
  cases huri : s.relayUri with
  | none => exact ⟨rfl, rfl⟩
  | some uri =>
      dsimp only
      rw [DeviceNode.popEvents_eq]
      dsimp only
      split
      · exact ⟨rfl, rfl⟩
      next hsome =>
        push Not at hsome
        -- something is pushed, so every recipient is idle
        have hseals : ∀ recip ∈ s.relayRecipients env.order, SealIdle s recip := by
          rcases hidle with hnone | hempty | hseals
          · rw [huri] at hnone
            cases hnone
          · exact absurd (by simp [hempty]) hsome.1
          · exact hseals
        have hjobs := sealJobs_idle env.nonce
          (s := s.withNode { s.node with outbox := s.node.outbox.drop 16 })
          (jobs (s.node.outbox.take 16) (s.relayRecipients env.order))
          (fun job hjob => hseals job.recip (mem_jobs_recip hjob)) []
        rcases hrun : sealJobs env.nonce (s.withNode { s.node with outbox := s.node.outbox.drop 16 })
          (jobs (s.node.outbox.take 16) (s.relayRecipients env.order)) [] with ⟨res, s'⟩
        rw [hrun] at hjobs
        dsimp only at hjobs
        subst hjobs
        cases res with
        | error e => exact ⟨rfl, rfl⟩
        | ok sealed =>
            dsimp only
            rw [sendSealed_session]
            exact ⟨rfl, rfl⟩

end Steps

section Whole

variable {b64 : Encoded MegolmMessage → String} {sk : Primitives.SigningKey} {s : Served}

/-- One request whose changes all reach the file. -/
theorem Filed.step (h : Filed s) {req : E2eeRequest} (hok : req.Allowed s) (hkeeps : req.Keeps s) :
    Filed (req.step b64 sk s) := by
  cases req with
  | sendMessage o roomId text freshId ts replies => exact h.sendMessage b64 sk o roomId text freshId ts hkeeps
  | importSession key => exact h.importSession hkeeps
  | importSessionOlm curve olm => exact h.importSessionOlm hkeeps
  | shareSession o roomHex freshId reply => exact (h.share o roomHex freshId none hkeeps).1
  | trustOlmKeys req => exact h.trustOlmKeys hkeeps
  | olmKeysGet => exact hkeeps.elim
  | relayPoll env relay => exact h.relayPoll env relay hkeeps
  | relayPush env =>
      rcases pushOutboxToRelay_idle env s.session hkeeps with ⟨he2ee, hid⟩
      exact h.congr rfl he2ee hid
  | restart verifyingKey node rooms account =>
      unfold E2eeRequest.step
      dsimp only
      cases hload : loadE2ee s.session.deviceId account s.file with
      | error e => exact h
      | ok e2ee => exact h.restart verifyingKey node rooms hok hload

/-- As long as every request keeps to what it writes, a restart finds all the keys, whenever it comes. -/
theorem survives_run (hs : s.Started) (reqs : List E2eeRequest)
    (hok : Runs.Along (E2eeRequest.step b64 sk) E2eeRequest.Allowed s reqs)
    (hkeeps : Runs.Along (E2eeRequest.step b64 sk) E2eeRequest.Keeps s reqs) :
    Runs.Always (E2eeRequest.step b64 sk) Served.Survives s reqs :=
  Runs.always_of_invariant (fun _ _ h hreq => Filed.step h hreq.1 hreq.2) (fun _ h => Filed.survives h) reqs
    (Filed.started hs) (hok.and hkeeps)

end Whole

end Requests

/-! ## A key that is imported -/

section Example

open Checksum RoomRegistry

attribute [local instance] Checksum.primitives Symbolic.aead Ratchet.olm Ratchet.oneTimeKeys
  createReader membershipReader eventReader noWires

/-- No package is sent here, so its texts do not matter. -/
@[reducible] def packageWriter : Serialize RoomOutboundPackage :=
  { toJson := fun pkg => .obj [("v", .num pkg.v), ("room_id", .str pkg.roomId)] }

@[reducible] def noPackages : Deserialize RoomOutboundPackage :=
  { fromSlice := fun _ => none }

@[reducible] def noKeys : Deserialize (Encoded SessionKey) :=
  { fromSlice := fun _ => none }

attribute [local instance] packageWriter noPackages noKeys

/-- The account of a new device: ten one-time keys, none of them published. -/
def newAccount : Ratchet.Account :=
  { identity := 1
    drawn := 10
    unpublished := List.range 10
    published := [] }

/-- Device 1 has its room and no keys yet. -/
def newcomer : Served :=
  { session := NodeSession.fromParts ⟨device 1, key 1⟩ (DeviceNode.new (device 1))
      (E2eeDevice.new (device 1) newAccount) (RoomRegistry.new.applyEvent createPond).2
    file := none }

theorem started_newcomer : newcomer.Started :=
  ⟨rfl, newAccount, rfl, rfl⟩

/-- The key of a room session is imported, the request reports its id, and a restart does not know it. -/
theorem import_forgotten :
    ¬ ∀ (s : Served) (reqs : List E2eeRequest), s.Started →
      Runs.Along (E2eeRequest.step noText (key 1)) E2eeRequest.Allowed s reqs →
      Runs.Always (E2eeRequest.step noText (key 1)) Served.Survives s reqs := by
  intro h
  have hall := (h newcomer [.importSession (some (.of ⟨"megolm", 0⟩))] started_newcomer
    ⟨trivial, trivial⟩).final
  rcases hall newAccount with ⟨dev, hload, hcovers⟩
  have hnew : dev = E2eeDevice.new (device 1) newAccount := by
    cases hload
    rfl
  have hkept : (Runs.run (E2eeRequest.step noText (key 1)) newcomer
      [.importSession (some (.of ⟨"megolm", 0⟩))]).session.e2ee.inboundMegolm.lookup "megolm" =
        some ⟨"megolm", 0⟩ := by
    decide +kernel
  rcases hcovers.inbound hkept with ⟨session, hlookup, _⟩
  rw [hnew] at hlookup
  cases hlookup

/-- A message is sent, the key of its session comes back, and the node restarts. -/
def oneMessage : List E2eeRequest :=
  [.sendMessage .stored (room 1) "hello" "megolm" 1 [], .importSession (some (.of ⟨"megolm", 0⟩)),
    .restart (key 1) (DeviceNode.new (device 1)) RoomRegistry.new newAccount]

/-- The node goes on at position 1. -/
theorem survives_oneMessage :
    Runs.Always (E2eeRequest.step noText (key 1)) Served.Survives newcomer oneMessage ∧
      (Runs.run (E2eeRequest.step noText (key 1)) newcomer oneMessage).session.e2ee.outboundMegolm.values =
        [⟨"megolm", 1⟩] := by
  have hrun : "megolm" ∈ (E2eeRequest.step noText (key 1) newcomer
      (.sendMessage .stored (room 1) "hello" "megolm" 1 [])).session.e2ee.inboundMegolm ∧
      (Runs.run (E2eeRequest.step noText (key 1)) newcomer oneMessage).session.e2ee.outboundMegolm.values =
        [⟨"megolm", 1⟩] := by
    decide +kernel
  refine ⟨survives_run started_newcomer oneMessage ⟨trivial, trivial, rfl, trivial⟩ ?_, hrun.2⟩
  refine ⟨?_, ?_, trivial, trivial⟩
  · intro reply hreply
    cases hreply
  · intro k hk
    cases hk
    exact hrun.1

end Example

end Node
end Thunderducks
