import Thunderducks.Crypto.Symbolic
import Thunderducks.Event.Room
import Thunderducks.Net.RelayProto
import Thunderducks.Node.Sync

/-!
# Session — the state behind the RPC server (`NodeSession` in `td-node/src/rpc.rs`)

The fields the relay paths read and write, and the operations on them.  A `HashMap` may list its
entries in any order; `SessionOrder` fixes one for each map that is iterated.
-/

namespace Thunderducks
namespace Node

open Lib Event Crypto Net

section Session

/-! ## State -/

structure DeviceBundle where
  deviceId : DeviceId
  verifyingKey : Bytes32
  deriving DecidableEq

/-- The devices trusted as linked (`td-crypto/src/link.rs`). -/
structure LinkRegistry where
  trusted : HashMap DeviceId DeviceBundle

def LinkRegistry.linkedDevices (link : LinkRegistry) : List DeviceId :=
  link.trusted.keys

/-- Known peer endpoints.  HTTP RPC = reliable share+delta; P2P = best-effort. -/
structure PeerEndpoint where
  name : String
  p2p : Option String
  rpc : Option String
  /-- Optional remote device id (hex) for relay Olm fanout targeting. -/
  deviceId : Option String
  deriving DecidableEq

/-- Why a relay poll or push failed. -/
inductive RelayFailure
  | noRelay
  | uri (e : PeerError)
  | client (msg : String)
  | seal (e : SyncError)
  | openEnvelope (e : SyncError)
  deriving DecidableEq

variable [Olm]

structure NodeSession where
  /-- `keypair.device_id()` -/
  deviceId : DeviceId
  node : DeviceNode
  rooms : RoomRegistry
  /-- peer name -> endpoints (P2P and/or HTTP RPC) -/
  peers : HashMap String PeerEndpoint
  link : LinkRegistry
  e2ee : E2eeDevice
  /-- Cached peer Olm identity keys for per-recipient relay seal (v2). -/
  peerOlmKeys : HashMap DeviceId OlmDeviceKeys
  /-- Configured untrusted assist relay. -/
  relayUri : Option String
  /-- Production AEAD relay seal key. -/
  relayKey : Bytes32
  /-- Last relay poll summary (best-effort). -/
  relayLastFetchMs : Option Nat
  relayLastError : Option RelayFailure
  relayLastFetched : Nat

/-- The orders in which the maps of a session are listed. -/
structure SessionOrder where
  linked : IterOrder DeviceId
  peers : IterOrder PeerEndpoint
  olm : IterOrder DeviceId

def SessionOrder.stored : SessionOrder :=
  { linked := .stored
    peers := .stored
    olm := .stored }

namespace NodeSession

/-- A session without a data dir: the device trusts itself and knows nobody else. -/
def new [Primitives] (bundle : DeviceBundle) (account : Olm.Account) : NodeSession :=
  { deviceId := bundle.deviceId
    node := DeviceNode.new bundle.deviceId
    rooms := RoomRegistry.new
    peers := ∅
    link := { trusted := (∅ : HashMap DeviceId DeviceBundle).insert bundle.deviceId bundle }
    e2ee := E2eeDevice.new bundle.deviceId account
    peerOlmKeys := ∅
    relayUri := none
    relayKey := deriveRelayKey defaultRelayKeyMaterial
    relayLastFetchMs := none
    relayLastError := none
    relayLastFetched := 0 }

/-! ## Recipients -/

omit [Olm] in
theorem size_toArray_of_length {b : Bytes} (h : b.length = 32) : b.toArray.size = 32 :=
  List.size_toArray.trans h

def parseCryptoDeviceId (s : String) : Except String DeviceId :=
  match Text.hexDecode s.toList with
  | none => .error "invalid hex"
  | some b =>
      if h : b.length = 32 then
        .ok ⟨⟨b.toArray, size_toArray_of_length h⟩⟩
      else
        .error "device_id must be 32 bytes hex"

/-- `if id != self_id && !out.contains(&id) { out.push(id) }` -/
def pushRecipient (self : DeviceId) (out : List DeviceId) (id : DeviceId) : List DeviceId :=
  if id ≠ self ∧ id ∉ out then out ++ [id] else out

/-- Relay fanout recipients: linked secondaries + peers with known device_id + olm cache. -/
def relayRecipients (s : NodeSession) (o : SessionOrder) : List DeviceId :=
  let out := (o.linked.run s.link.linkedDevices).filter fun d => d ≠ s.deviceId
  let out := (o.peers.run s.peers.values).foldl (fun out ep =>
    match ep.deviceId with
    | none => out
    | some hexId =>
        match parseCryptoDeviceId hexId with
        | .error _ => out
        | .ok id => pushRecipient s.deviceId out id) out
  (o.olm.run s.peerOlmKeys.keys).foldl (pushRecipient s.deviceId) out

/-! ## Sealing -/

inductive EnsureOlmError
  | noKeys (peer : DeviceId)
  | e2ee (e : E2eeError)
  deriving DecidableEq

/-- Ensure outbound Olm to peer using cached keys (no network). -/
def ensureOlmTo (s : NodeSession) (peer : DeviceId) : Except EnsureOlmError Unit × NodeSession :=
  if s.e2ee.hasOlmSession peer then
    (.ok (), s)
  else
    match s.peerOlmKeys.lookup peer with
    | none => (.error (.noKeys peer), s)
    | some keys =>
        match s.e2ee.establishOlmOutbound keys with
        | (.error e, e2ee) => (.error (.e2ee e), { s with e2ee := e2ee })
        | (.ok (), e2ee) => (.ok (), { s with e2ee := e2ee })

inductive SealMode
  | olmV2
  | aeadV1
  deriving DecidableEq

/-- Seal one event for one recipient: Olm v2 preferred, AEAD v1 fallback. -/
def sealEventForRecipient [Aead] (s : NodeSession) (nonce : Bytes) (ev : SignedEvent)
    (recip : DeviceId) : Except SyncError (Bytes × SealMode) × NodeSession :=
  match s.ensureOlmTo recip with
  | (.ok (), s) =>
      match DeviceNode.sealForRelayOlm s.e2ee recip ev with
      | (.error e, e2ee) => (.error e, { s with e2ee := e2ee })
      | (.ok ct, e2ee) => (.ok (ct, .olmV2), { s with e2ee := e2ee })
  | (.error _, s) =>
      match DeviceNode.sealForRelay ev s.relayKey nonce with
      | .error e => (.error e, s)
      | .ok ct => (.ok (ct, .aeadV1), s)

/-! ## Ingest -/

section Ingest

variable [Primitives] [Deserialize CreateRoomPayload] [Deserialize MembershipPayload]

/-- Ingest a remote signed event into DAG + room registry. -/
def ingestRemote (s : NodeSession) (ev : SignedEvent) : Except SyncError Bool × NodeSession :=
  match s.node.commitRemote ev with
  | (.error e, node) => (.error e, { s with node := node })
  | (.ok inserted, node) =>
      let s := { s with node := node }
      if ev.kind = .createRoom ∨ ev.kind = .membership then
        (.ok inserted, { s with rooms := (s.rooms.applyEvent ev).2 })
      else
        (.ok inserted, s)

end Ingest

end NodeSession

end Session

/-! ## A session to run -/

section Example

open Checksum

attribute [local instance] Checksum.primitives

/-- The session of device `n`, with a relay configured. -/
def relaySession (book : List Bytes) (n : Nat) : @NodeSession (Symbolic.olm book) :=
  letI := Symbolic.olm book
  { NodeSession.new ⟨device n, key n⟩ ⟨"curve"⟩ with relayUri := some "td://relay:7700" }

end Example

end Node
end Thunderducks
