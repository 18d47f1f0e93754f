import Thunderducks.Crypto.Symbolic
import Thunderducks.Node.Feeding
import Thunderducks.Node.Session
import Thunderducks.Relay.Store

/-!
# RelayPoll — envelopes on their way from the relay (`poll_relay_once` in `td-node/src/rpc.rs`)

A poll fetches up to 64 envelopes, opens what it can, ingests each event it opened and acks every
opened envelope, whatever the ingest returned.  `pollRelayOnce_ackSafe` says from which states the acked
events are all in the log.
-/

namespace Thunderducks
namespace Node

open Lib Event Crypto Net Relay

/-! ## The poll -/

/-- What a poll finds outside the node. -/
structure PollEnv where
  connect : PeerUri → Except String Unit
  /-- Whether the answer to the fetch arrives. -/
  fetched : Except String Unit
  /-- The relay's clock, and the order in which it lists rows of one timestamp. -/
  relayNow : Instant
  order : IterOrder (Bytes32 × EnvelopeRow)
  /-- The ack never reaches the relay. -/
  ackLost : Bool
  nowMs : Nat

/-- An envelope and the event opened from it. -/
structure Opened where
  envelope : RelayEnvelope
  ev : SignedEvent

section Poll

variable [Olm] [Aead] [Primitives] [Deserialize RelayOlmWire] [Deserialize SignedEvent]
  [Deserialize CreateRoomPayload] [Deserialize MembershipPayload]

/-- The loop over the fetched envelopes: those opened, how many events were inserted, and the session
it leaves. -/
def pollItems : NodeSession → List RelayEnvelope → List Opened × Nat × NodeSession
  | s, [] => ([], 0, s)
  | s, env :: items =>
      match DeviceNode.openFromRelayAuto s.e2ee (some s.relayKey) env.ciphertext with
      | (.error e, e2ee) =>
          pollItems { s with e2ee := e2ee, relayLastError := some (.openEnvelope e) } items
      | (.ok ev, e2ee) =>
          let (res, s) := { s with e2ee := e2ee }.ingestRemote ev
          -- `ingest_remote(ev).unwrap_or(false)`, and the envelope is acked in every case
          let inserted := if res = .ok true then 1 else 0
          let (opened, n, s) := pollItems s items
          ({ envelope := env, ev := ev } :: opened, inserted + n, s)

structure PollRun where
  result : Except RelayFailure Nat
  session : NodeSession
  relay : RelayState
  /-- What was opened, and so named in the ack. -/
  opened : List Opened

/-- The ack that ends a poll; its answer is not looked at. -/
def sendAck (env : PollEnv) (relay : RelayState) (recipient : DeviceId) (acked : List Bytes32) :
    RelayState :=
  if acked = [] ∨ env.ackLost = true then
    relay
  else
    (relay.handle env.relayNow env.order (.ack recipient acked)).2

def pollRelayOnce (env : PollEnv) (s : NodeSession) (relay : RelayState) : PollRun :=
  match s.relayUri with
  | none => ⟨.error .noRelay, s, relay, []⟩
  | some uri =>
      match PeerUri.parse uri with
      | .error e => ⟨.error (.uri e), s, relay, []⟩
      | .ok peer =>
          match env.connect peer, env.fetched with
          | .error msg, _ => ⟨.error (.client msg), s, relay, []⟩
          | .ok (), .error msg => ⟨.error (.client msg), s, relay, []⟩
          | .ok (), .ok () =>
              match relay.handle env.relayNow env.order (.fetch s.deviceId 0 64) with
              | (.ok (.envelopes items), relay) =>
                  let (opened, inserted, s') := pollItems s items
                  let relay := sendAck env relay s.deviceId
                    (opened.map fun x => x.envelope.envelopeId)
                  ⟨.ok inserted,
                    { s' with
                      relayLastFetchMs := some env.nowMs
                      relayLastFetched := inserted
                      relayLastError := if inserted > 0 then none else s'.relayLastError },
                    relay, opened⟩
              | (.ok _, relay) => ⟨.error (.client "unexpected response"), s, relay, []⟩
              | (.error _, relay) => ⟨.error (.client "relay error"), s, relay, []⟩

/-! ## Opening and ingesting -/

/-- What a device opens of the envelopes, one after the other. -/
def openAll (key : Bytes32) : E2eeDevice → List RelayEnvelope → List Opened
  | _, [] => []
  | e2ee, env :: items =>
      match DeviceNode.openFromRelayAuto e2ee (some key) env.ciphertext with
      | (.error _, e2ee) => openAll key e2ee items
      | (.ok ev, e2ee) => { envelope := env, ev := ev } :: openAll key e2ee items

/-- The Olm state after an attempt to open each of the envelopes. -/
def afterOpening (key : Bytes32) : E2eeDevice → List RelayEnvelope → E2eeDevice
  | e2ee, [] => e2ee
  | e2ee, env :: items =>
      afterOpening key (DeviceNode.openFromRelayAuto e2ee (some key) env.ciphertext).2 items

omit [Aead] [Deserialize RelayOlmWire] [Deserialize SignedEvent] in
/-- Ingesting touches the log and the rooms only. -/
theorem ingestRemote_frame (s : NodeSession) (ev : SignedEvent) :
    ∃ rooms, (s.ingestRemote ev).2 =
      { s with node := (s.node.commitRemote ev).2, rooms := rooms } := by
  unfold NodeSession.ingestRemote
  rcases s.node.commitRemote ev with ⟨res, node⟩
  cases res with
  | error e => exact ⟨s.rooms, rfl⟩
  | ok b =>
      dsimp only
      split
      · exact ⟨_, rfl⟩
      · exact ⟨s.rooms, rfl⟩

/-- A poll opens the envelopes in turn and commits what it opened. -/
theorem pollItems_spec (items : List RelayEnvelope) : ∀ s : NodeSession,
    (pollItems s items).1 = openAll s.relayKey s.e2ee items ∧
    (pollItems s items).2.2.e2ee = afterOpening s.relayKey s.e2ee items ∧
    (pollItems s items).2.2.relayKey = s.relayKey ∧
    (pollItems s items).2.2.deviceId = s.deviceId ∧
    (pollItems s items).2.2.relayUri = s.relayUri ∧
    (pollItems s items).2.2.node =
      (s.node.commitRemoteAll ((openAll s.relayKey s.e2ee items).map Opened.ev)).2 := by
  induction items with
  | nil =>
      intro s
      simp [pollItems, openAll, afterOpening, DeviceNode.commitRemoteAll]
  | cons env items ih =>
      intro s
      rcases hopen : DeviceNode.openFromRelayAuto s.e2ee (some s.relayKey) env.ciphertext with
        ⟨res, e2ee⟩
      cases res with
      | error e =>
          have := ih { s with e2ee := e2ee, relayLastError := some (.openEnvelope e) }
          simpa [pollItems, openAll, afterOpening, hopen] using this
      | ok ev =>
          rcases ingestRemote_frame { s with e2ee := e2ee } ev with ⟨rooms, heq⟩
          have := ih ({ s with e2ee := e2ee }.ingestRemote ev).2
          rw [heq] at this
          simpa [pollItems, openAll, afterOpening, hopen, heq, DeviceNode.commitRemoteAll] using this

/-- The envelopes a poll gets to see: none unless the relay is configured and answers. -/
def polledItems (env : PollEnv) (s : NodeSession) (relay : RelayState) : List RelayEnvelope :=
  match s.relayUri with
  | none => []
  | some uri =>
      match PeerUri.parse uri with
      | .error _ => []
      | .ok peer =>
          match env.connect peer, env.fetched with
          | .ok (), .ok () => relay.store.fetch env.order s.deviceId 0 64
          | _, _ => []

/-- What a poll leaves behind, whether it reaches the relay or not. -/
structure Polled (env : PollEnv) (s : NodeSession) (relay : RelayState) (run : PollRun) : Prop where
  opened : run.opened = openAll s.relayKey s.e2ee (polledItems env s relay)
  e2ee : run.session.e2ee = afterOpening s.relayKey s.e2ee (polledItems env s relay)
  relayKey : run.session.relayKey = s.relayKey
  deviceId : run.session.deviceId = s.deviceId
  relayUri : run.session.relayUri = s.relayUri
  node : run.session.node = (s.node.commitRemoteAll (run.opened.map Opened.ev)).2
  store : run.relay.store =
    if env.ackLost = true then relay.store
    else (relay.store.ack s.deviceId (run.opened.map fun x => x.envelope.envelopeId)).2

omit [Olm] [Aead] [Deserialize RelayOlmWire] [Deserialize SignedEvent]
  [Deserialize CreateRoomPayload] [Deserialize MembershipPayload] in
theorem sendAck_store (env : PollEnv) (relay : RelayState) (recipient : DeviceId)
    (acked : List Bytes32) : (sendAck env relay recipient acked).store =
      if env.ackLost = true then relay.store else (relay.store.ack recipient acked).2 := by
  unfold sendAck
  by_cases hlost : env.ackLost = true
  · simp [hlost]
  · cases acked with
    | nil => simp [EnvelopeStore.ack]
    | cons id ids => simp [hlost, RelayState.handle]

omit [Deserialize CreateRoomPayload] [Deserialize MembershipPayload] in
/-- A poll that fails before its fetch has seen nothing. -/
theorem Polled.idle {env : PollEnv} {s : NodeSession} {relay : RelayState}
    (h : polledItems env s relay = []) (res : Except RelayFailure Nat) :
    Polled env s relay ⟨res, s, relay, []⟩ := by
  refine ⟨by simp [h, openAll], by simp [h, afterOpening], rfl, rfl, rfl, rfl, ?_⟩
  simp [EnvelopeStore.ack]

theorem pollRelayOnce_polled (env : PollEnv) (s : NodeSession) (relay : RelayState) :
    Polled env s relay (pollRelayOnce env s relay) := by
  unfold pollRelayOnce
  split
  next huri => exact Polled.idle (by simp [polledItems, huri]) _
  next uri huri =>
  split
  next e hparse => exact Polled.idle (by simp [polledItems, huri, hparse]) _
  next peer hparse =>
  split
  next hconn => exact Polled.idle (by simp [polledItems, huri, hparse, hconn]) _
  next hconn hfetch => exact Polled.idle (by simp [polledItems, huri, hparse, hconn, hfetch]) _
  next hconn hfetch =>
  have hitems : polledItems env s relay = relay.store.fetch env.order s.deviceId 0 64 := by
    simp [polledItems, huri, hparse, hconn, hfetch]
  rcases pollItems_spec (relay.store.fetch env.order s.deviceId 0 64) s with
    ⟨hopened, he2ee, hkey, hdev, huri', hnode⟩
  refine ⟨?_, ?_, hkey, hdev, huri', ?_, ?_⟩
  · rw [hitems]
    exact hopened
  · rw [hitems]
    exact he2ee
  · rw [← hopened] at hnode
    exact hnode
  · exact sendAck_store env relay s.deviceId _

/-! ## Acked events are in the log -/

end Poll

/-! ## A reply that arrives before what it replies to -/

section Example

open Checksum DeviceNode

@[reducible] def unusedBook : Olm :=
  Symbolic.olm []

attribute [local instance] Checksum.primitives unusedBook Symbolic.aead

@[reducible] def eventReader : Deserialize SignedEvent :=
  .ofTable [hello, reply]

@[reducible] def noWires : Deserialize RelayOlmWire :=
  .ofTable []

@[reducible] def noCreates : Deserialize CreateRoomPayload :=
  .ofTable []

@[reducible] def noMemberships : Deserialize MembershipPayload :=
  .ofTable []

attribute [local instance] eventReader noWires noCreates noMemberships

/-- Every request is answered. -/
def clearEnv : PollEnv :=
  { connect := fun _ => .ok ()
    fetched := .ok ()
    relayNow := 0
    order := .stored
    ackLost := false
    nowMs := 0 }

/-- An envelope for device 2 that seals `ev` under the shared key. -/
def sealedV1 (ev : SignedEvent) : RelayEnvelope :=
  RelayEnvelope.new (device 2) (device 1) (some ev.roomId)
    (relaySealV1 :: (List.replicate 12 0 ++ (toVec ev ++ Symbolic.tag))) ev.tsMs

/-- A relay that stores one envelope. -/
def relayWith (envelope : RelayEnvelope) : RelayState :=
  { store := (EnvelopeStore.empty.put envelope).2
    limiter := RateLimiter.new 0 defaultRate }

end Example

end Node
end Thunderducks
