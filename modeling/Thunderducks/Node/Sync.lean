import Mathlib.Data.List.Sort
import Thunderducks.Event.Dag
import Thunderducks.Event.Store
import Thunderducks.Crypto.RelaySeal

/-!
# Sync — one device's event log, room DAGs, outbox and inbox (`td-node/src/sync.rs`)

`DeviceNode.ingestEvent` accepts an event whose parents are all in the log and parks any other in
the inbox; `DeviceNode.drainInbox` then accepts parked events until a whole pass makes no progress.
A call returns its result together with the node it leaves behind, also when the result is an
error.
-/

namespace Thunderducks
namespace Node

open Lib Event Crypto

inductive SyncError
  | event (e : EventError)
  | dag (e : DagError)
  | store (e : StoreError)
  | decode
  | relaySeal (e : RelaySealError)
  deriving DecidableEq

/-- Wire bundle for tip-based catch-up (plaintext at device boundary only). -/
structure SyncOffer where
  fromDevice : DeviceId
  roomId : RoomId
  tips : List EventId
  haveIds : List EventId

structure SyncResponse where
  roomId : RoomId
  missing : List SignedEvent

/-- Local node view for one device: event log + room DAGs + outbox/inbox. -/
structure DeviceNode where
  deviceId : DeviceId
  /-- All accepted events by id (verified). -/
  events : HashMap EventId SignedEvent
  dags : HashMap RoomId RoomDag
  outbox : List SignedEvent
  inbox : List SignedEvent
  /-- Optional durable SQLite log (`none` = pure in-memory). -/
  durable : Option SqliteStore
  deriving DecidableEq

namespace DeviceNode

def new (deviceId : DeviceId) : DeviceNode :=
  { deviceId := deviceId
    events := ∅
    dags := ∅
    outbox := []
    inbox := []
    durable := none }

/-! ## Reading the node -/

/-- The DAG of a room, empty when the room has none yet. -/
def dagOf (node : DeviceNode) (room : RoomId) : RoomDag :=
  (node.dags.lookup room).getD (RoomDag.new room)

def inboxLen (node : DeviceNode) : Nat :=
  node.inbox.length

def tips (node : DeviceNode) (room : RoomId) : List EventId :=
  ((node.dags.lookup room).map RoomDag.tips).getD []

/-- The accepted events of a room. -/
def roomEvents (node : DeviceNode) (room : RoomId) : List SignedEvent :=
  node.events.values.filter fun e => e.roomId = room

def roomEventIds (node : DeviceNode) (room : RoomId) : List EventId :=
  (node.roomEvents room).map SignedEvent.id

def roomIds (node : DeviceNode) : List RoomId :=
  node.dags.keys

/-! ## Accepting events -/

section Accept

variable [Primitives]

/-- `self.dags.entry(room).or_insert_with(RoomDag::new)` followed by `dag.ingest(ev)`. -/
def dagIngest (node : DeviceNode) (ev : SignedEvent) : Except DagError Bool × DeviceNode :=
  let (res, dag) := (node.dagOf ev.roomId).ingest ev
  (res, { node with dags := node.dags.insert ev.roomId dag })

/-- `self.events.insert` followed by the write to the durable store, if there is one. -/
def record (node : DeviceNode) (ev : SignedEvent) : Except StoreError Unit × DeviceNode :=
  let node := { node with events := node.events.insert ev.id ev }
  match node.durable with
  | none => (.ok (), node)
  | some store =>
      match store.put ev with
      | (.error e, store) => (.error e, { node with durable := some store })
      | (.ok _, store) => (.ok (), { node with durable := some store })

/-- All parents are in the node-wide log. -/
def parentsOk (node : DeviceNode) (ev : SignedEvent) : Bool :=
  ev.parents.all fun p => p ∈ node.events

/-- The inner `while let Some(ev) = self.inbox.pop_front()` of `drain_inbox`: `queue` is what is
left of the inbox, `rest` what this pass has kept so far. -/
def drainPass : DeviceNode → (queue rest : List SignedEvent) → (progress : Bool) →
    Except SyncError Bool × DeviceNode
  | node, [], rest, progress => (.ok progress, { node with inbox := rest })
  | node, ev :: queue, rest, progress =>
      if ev.id ∈ node.events then
        drainPass node queue rest progress
      else if node.parentsOk ev = false then
        drainPass node queue (rest ++ [ev]) progress
      else
        match node.dagIngest ev with
        -- `?` leaves the pass: the popped event and `rest` are not put back
        | (.error e, node) => (.error (.dag e), { node with inbox := queue })
        | (.ok false, node) => drainPass node queue rest progress
        | (.ok true, node) =>
            match node.record ev with
            | (.error e, node) => (.error (.store e), { node with inbox := queue })
            | (.ok (), node) => drainPass node queue rest true

/-- The outer `while progress` of `drain_inbox`, for at most `fuel` passes. -/
def drainLoop : (fuel : Nat) → DeviceNode → Except SyncError Unit × DeviceNode
  | 0, node => (.ok (), node)
  | fuel + 1, node =>
      match node.drainPass node.inbox [] false with
      | (.error e, node) => (.error e, node)
      | (.ok true, node) => drainLoop fuel node
      | (.ok false, node) => (.ok (), node)

/-- A pass that makes progress shortens the inbox, so one pass more than its length is enough. -/
def drainInbox (node : DeviceNode) : Except SyncError Unit × DeviceNode :=
  drainLoop (node.inbox.length + 1) node

/-- Park an event whose parents are not all here, unless it is parked already. -/
def park (node : DeviceNode) (ev : SignedEvent) : DeviceNode :=
  if node.inbox.any (fun e => e.id = ev.id) then
    node
  else
    { node with inbox := node.inbox ++ [ev] }

def ingestEvent (node : DeviceNode) (ev : SignedEvent) (toOutbox : Bool) :
    Except SyncError Bool × DeviceNode :=
  if ev.id ∈ node.events then
    (.ok false, node)
  else if node.parentsOk ev = false then
    (.ok false, node.park ev)
  else
    match node.dagIngest ev with
    | (.error e, node) => (.error (.dag e), node)
    | (.ok false, node) => (.ok false, node)
    | (.ok true, node) =>
        match node.record ev with
        | (.error e, node) => (.error (.store e), node)
        | (.ok (), node) =>
            let node := if toOutbox then { node with outbox := node.outbox ++ [ev] } else node
            match node.drainInbox with
            | (.error e, node) => (.error e, node)
            | (.ok (), node) => (.ok true, node)

/-- The common body of `commit_local` and `commit_remote`. -/
def commit (node : DeviceNode) (ev : SignedEvent) (toOutbox : Bool) :
    Except SyncError Bool × DeviceNode :=
  match verifyEvent ev with
  | .error e => (.error (.event e), node)
  | .ok () => node.ingestEvent ev toOutbox

/-- Author a local event: append to DAG, store, queue outbox. -/
def commitLocal (node : DeviceNode) (ev : SignedEvent) : Except SyncError Bool × DeviceNode :=
  node.commit ev true

/-- Apply a remote event (P2P or decrypted relay payload). -/
def commitRemote (node : DeviceNode) (ev : SignedEvent) : Except SyncError Bool × DeviceNode :=
  node.commit ev false

def popOutbox (node : DeviceNode) : Option SignedEvent × DeviceNode :=
  match node.outbox with
  | [] => (none, node)
  | ev :: outbox => (some ev, { node with outbox := outbox })

end Accept

/-! ## Catch-up between two nodes -/

section CatchUp

/-- parent-before-child order (simple Kahn-ish by parent count then ts) -/
def causalLe (a b : SignedEvent) : Prop :=
  a.parents.length < b.parents.length ∨
    (a.parents.length = b.parents.length ∧ a.tsMs ≤ b.tsMs)

instance : DecidableRel causalLe := fun a b =>
  inferInstanceAs (Decidable (a.parents.length < b.parents.length ∨
    (a.parents.length = b.parents.length ∧ a.tsMs ≤ b.tsMs)))

/-- Events this node has that `peerHave` lacks, for a room.  The log is listed in the order `o`
before the (stable) sort. -/
def missingForPeer (o : IterOrder SignedEvent) (node : DeviceNode) (room : RoomId)
    (peerHave : List EventId) : List SignedEvent :=
  ((o.run node.events.values).filter fun e => e.roomId = room ∧ e.id ∉ peerHave).insertionSort
    causalLe

def buildOffer (node : DeviceNode) (room : RoomId) : SyncOffer :=
  { fromDevice := node.deviceId
    roomId := room
    tips := node.tips room
    haveIds := node.roomEventIds room }

def respondToOffer (o : IterOrder SignedEvent) (node : DeviceNode) (offer : SyncOffer) :
    SyncResponse :=
  { roomId := offer.roomId
    missing := node.missingForPeer o offer.roomId offer.haveIds }

variable [Primitives]

/-- The loop of `apply_sync_response`; the first error ends it. -/
def applyMissing : DeviceNode → List SignedEvent → (n : Nat) → Except SyncError Nat × DeviceNode
  | node, [], n => (.ok n, node)
  | node, ev :: missing, n =>
      match node.commitRemote ev with
      | (.error e, node) => (.error e, node)
      | (.ok true, node) => applyMissing node missing (n + 1)
      | (.ok false, node) => applyMissing node missing n

def applySyncResponse (node : DeviceNode) (resp : SyncResponse) :
    Except SyncError Nat × DeviceNode :=
  node.applyMissing resp.missing 0

/-- Bidirectional sync helper: each side sends missing events to the other.  `oa` and `ob` are the
orders in which the two logs are listed. -/
def convergeWith (oa ob : IterOrder SignedEvent) (a b : DeviceNode) (room : RoomId) :
    Except SyncError Unit × DeviceNode × DeviceNode :=
  let offerA := a.buildOffer room
  let offerB := b.buildOffer room
  let respForA := b.respondToOffer ob offerA
  let respForB := a.respondToOffer oa offerB
  match a.applySyncResponse respForA with
  | (.error e, a) => (.error e, a, b)
  | (.ok _, a) =>
      match b.applySyncResponse respForB with
      | (.error e, b) => (.error e, a, b)
      | (.ok _, b) => (.ok (), a, b)

end CatchUp

/-! ## Relay envelopes -/

section RelaySeal

/-- Encode a signed event as opaque relay ciphertext (v1 shared-key AEAD) under the nonce drawn. -/
def sealForRelay [Aead] (ev : SignedEvent) (key : Bytes32) (nonce : Bytes) :
    Except SyncError Bytes :=
  match sealBytes key nonce (toVec ev) with
  | .error e => .error (.relaySeal e)
  | .ok ct => .ok ct

/-- What the opened bytes must be: a signed event that verifies. -/
def decodeEvent [Primitives] [Deserialize SignedEvent] (raw : Bytes) :
    Except SyncError SignedEvent :=
  match Deserialize.fromSlice (α := SignedEvent) raw with
  | none => .error .decode
  | some ev =>
      match verifyEvent ev with
      | .error e => .error (.event e)
      | .ok () => .ok ev

/-- Open sealed relay ciphertext (v1 AEAD only) and verify the signed event. -/
def openFromRelay [Aead] [Primitives] [Deserialize SignedEvent] (ciphertext : Bytes) (key : Bytes32) :
    Except SyncError SignedEvent :=
  match openBytes key ciphertext with
  | .error e => .error (.relaySeal e)
  | .ok raw => decodeEvent raw

/-- Nothing is opened that does not verify. -/
theorem decodeEvent_verified [Primitives] [Deserialize SignedEvent] {raw : Bytes} {ev : SignedEvent}
    (h : decodeEvent raw = .ok ev) : Verified ev := by
  unfold decodeEvent at h
  split at h
  · cases h
  next ev' _ =>
  split at h
  · cases h
  next hv =>
  cases h
  exact hv

variable [Olm]

/-- Per-recipient Olm wrap (v2). -/
def sealForRelayOlm (e2ee : E2eeDevice) (recip : DeviceId) (ev : SignedEvent) :
    Except SyncError Bytes × E2eeDevice :=
  match sealBytesOlm e2ee recip (toVec ev) with
  | (.error e, e2ee) => (.error (.relaySeal e), e2ee)
  | (.ok ct, e2ee) => (.ok ct, e2ee)

/-- Open v1 or v2 relay ciphertext.  v2 uses Olm; v1 needs `aeadKey`. -/
def openFromRelayAuto [Primitives] [Aead] [Deserialize RelayOlmWire] [Deserialize SignedEvent]
    (e2ee : E2eeDevice) (aeadKey : Option Bytes32) (ciphertext : Bytes) :
    Except SyncError SignedEvent × E2eeDevice :=
  match openBytesAuto e2ee aeadKey ciphertext with
  | (.error e, e2ee) => (.error (.relaySeal e), e2ee)
  | (.ok raw, e2ee) => (decodeEvent raw, e2ee)

end RelaySeal

end DeviceNode

end Node
end Thunderducks
