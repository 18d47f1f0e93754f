import Thunderducks.Event.ContentAddress
import Thunderducks.Node.Owner
import Thunderducks.Node.RoomE2ee
import Thunderducks.Node.Session

/-!
# Handlers — `create_room` and `send_message` (`td-node/src/rpc.rs`)

Both sign an event with the node's key and hand it to the room registry first and to the node's log
second; `ingest_remote` does it the other way round.  `SessionCall` gathers the three, and
`SessionCall.Brings` says which event a call brings.  The time that `next_ts` draws is data of the call.
-/

namespace Thunderducks
namespace Node

open Lib Event Crypto

section Handlers

variable [Olm] [Primitives] [Deserialize CreateRoomPayload] [Deserialize MembershipPayload]

/-- Why a request of the node's own user is refused. -/
inductive RequestError
  | room (e : RoomError)
  | encrypt (e : E2eeError)
  | sign (e : EventError)
  | commit (e : SyncError)
  deriving DecidableEq

namespace NodeSession

def createRoom (s : NodeSession) (sk : Primitives.SigningKey) (name : String) (ts : UInt64) :
    Except RequestError SignedEvent × NodeSession :=
  match s.rooms.createRoom sk s.deviceId name ts with
  | (.error e, rooms) => (.error (.room e), { s with rooms := rooms })
  | (.ok (_, signed), rooms) =>
      match s.node.commitLocal signed with
      | (.error e, node) => (.error (.commit e), { s with rooms := rooms, node := node })
      | (.ok _, node) => (.ok signed, { s with rooms := rooms, node := node })

/-- `serde_json::json!({ "text": … })`. -/
def plaintextOf (text : String) : Bytes :=
  (Json.obj [("text", .str text)]).render

/-- The payload of a message; `b64` writes a ciphertext as text. -/
def messagePayload (b64 : Encoded MegolmMessage → String) (ct : MegolmCiphertext) : Bytes :=
  (Json.obj
    [("ciphertext_b64", .str (b64 ct.ciphertextB64)),
      ("enc", .str "megolm"),
      ("sender_device", .str (hex32 ct.senderDevice.bytes)),
      ("session_id", .str ct.sessionId),
      ("v", .num 1)]).render

/-- The event `send_message` signs: its parents are the tips of the node's own DAG. -/
def messageEvent (b64 : Encoded MegolmMessage → String) (s : NodeSession) (roomId : RoomId)
    (ct : MegolmCiphertext) (ts : UInt64) : UnsignedEvent :=
  { roomId := roomId
    parents := s.node.tips roomId
    kind := .message
    payload := messagePayload b64 ct
    authorDevice := s.deviceId
    tsMs := ts }

/-- `send_message` once the room is found, up to the commit; the fan-out to the peers follows it. -/
def sendInRoom (b64 : Encoded MegolmMessage → String) (s : NodeSession) (sk : Primitives.SigningKey)
    (roomId : RoomId) (text freshId : String) (ts : UInt64) :
    Except RequestError SignedEvent × NodeSession :=
  let sent := sendMegolm s.e2ee (hex32 roomId.bytes) freshId (plaintextOf text)
  match sent.2.1 with
  | .error e => (.error (.encrypt e), { s with e2ee := sent.2.2 })
  | .ok ct =>
      match signEvent sk (s.messageEvent b64 roomId ct ts) with
      | .error e => (.error (.sign e), { s with e2ee := sent.2.2 })
      | .ok signed =>
          -- keep room registry DAG tips current
          let rooms := (s.rooms.applyEvent signed).2
          match s.node.commitLocal signed with
          | (.error e, node) =>
              (.error (.commit e), { s with e2ee := sent.2.2, rooms := rooms, node := node })
          | (.ok _, node) => (.ok signed, { s with e2ee := sent.2.2, rooms := rooms, node := node })

/-- If the room only lives in the node DAG (imported), author messages are still allowed. -/
def sendMessage (b64 : Encoded MegolmMessage → String) (s : NodeSession) (sk : Primitives.SigningKey)
    (roomId : RoomId) (text freshId : String) (ts : UInt64) :
    Except RequestError SignedEvent × NodeSession :=
  match s.rooms.assertCanMessage roomId s.deviceId with
  | .ok () => s.sendInRoom b64 sk roomId text freshId ts
  | .error e =>
      if (s.node.roomEventIds roomId).isEmpty then
        (.error (.room e), s)
      else
        s.sendInRoom b64 sk roomId text freshId ts

end NodeSession

/-! ## The calls that bring events -/

inductive SessionCall
  | createRoom (name : String) (ts : UInt64)
  | sendMessage (roomId : RoomId) (text freshId : String) (ts : UInt64)
  | ingestRemote (ev : SignedEvent)

namespace SessionCall

variable (b64 : Encoded MegolmMessage → String) (sk : Primitives.SigningKey)

/-- The session a call leaves, whatever it answers. -/
def step (s : NodeSession) : SessionCall → NodeSession
  | .createRoom name ts => (s.createRoom sk name ts).2
  | .sendMessage roomId text freshId ts => (s.sendMessage b64 sk roomId text freshId ts).2
  | .ingestRemote ev => (s.ingestRemote ev).2

/-- The event that a call signs or is given. -/
def Brings (s : NodeSession) : SessionCall → SignedEvent → Prop
  | .createRoom name ts, ev =>
      signEvent sk
        { roomId := RoomRegistry.roomIdFromParts s.deviceId name ts
          parents := []
          kind := .createRoom
          payload := toVec { creator := s.deviceId, name := name : CreateRoomPayload }
          authorDevice := s.deviceId
          tsMs := ts } = .ok ev
  | .sendMessage roomId text freshId ts, ev =>
      ¬ (s.rooms.assertCanMessage roomId s.deviceId ≠ .ok () ∧ (s.node.roomEventIds roomId).isEmpty) ∧
        ∃ ct, (sendMegolm s.e2ee (hex32 roomId.bytes) freshId (NodeSession.plaintextOf text)).2.1 = .ok ct ∧
          signEvent sk (s.messageEvent b64 roomId ct ts) = .ok ev
  | .ingestRemote ev', ev => ev = ev'

variable {b64 sk} {s : NodeSession}

/-- The registry comes first: the log sees the event only if the registry took it or knew it. -/
theorem createRoom_cases (name : String) (ts : UInt64) :
    (s.createRoom sk name ts).2 = s ∨
    ∃ ev, Brings b64 sk s (.createRoom name ts) ev ∧ ev.kind = .createRoom ∧ ev.parents = [] ∧
      ((∃ e, (s.rooms.applyEvent ev).1 = .error e) ∧
          (s.createRoom sk name ts).2 = { s with rooms := (s.rooms.applyEvent ev).2 } ∨
        (∃ b, (s.rooms.applyEvent ev).1 = .ok b) ∧
          (s.createRoom sk name ts).2 = { s with
            rooms := (s.rooms.applyEvent ev).2
            node := (s.node.commitLocal ev).2 }) := by
  unfold NodeSession.createRoom RoomRegistry.createRoom
  dsimp only
  cases hsign : signEvent sk
    { roomId := RoomRegistry.roomIdFromParts s.deviceId name ts
      parents := []
      kind := .createRoom
      payload := toVec { creator := s.deviceId, name := name : CreateRoomPayload }
      authorDevice := s.deviceId
      tsMs := ts } with
  | error e => exact Or.inl rfl
  | ok ev =>
      have hfields := signEvent_unsigned hsign
      refine Or.inr ⟨ev, hsign, congrArg UnsignedEvent.kind hfields,
        congrArg UnsignedEvent.parents hfields, ?_⟩
      dsimp only
      rcases happ : s.rooms.applyEvent ev with ⟨res, rooms⟩
      cases res with
      -- refused by the registry: the log never sees it
      | error e => exact Or.inl ⟨⟨e, rfl⟩, rfl⟩
      | ok b =>
          refine Or.inr ⟨⟨b, rfl⟩, ?_⟩
          dsimp only
          rcases s.node.commitLocal ev with ⟨res', node⟩
          cases res' <;> rfl

theorem sendInRoom_cases (roomId : RoomId) (text freshId : String) (ts : UInt64) :
    ((s.sendInRoom b64 sk roomId text freshId ts).2.rooms = s.rooms ∧
      (s.sendInRoom b64 sk roomId text freshId ts).2.node = s.node) ∨
    ∃ ct ev, (sendMegolm s.e2ee (hex32 roomId.bytes) freshId (NodeSession.plaintextOf text)).2.1 = .ok ct ∧
      signEvent sk (s.messageEvent b64 roomId ct ts) = .ok ev ∧
      (s.sendInRoom b64 sk roomId text freshId ts).2.rooms = (s.rooms.applyEvent ev).2 ∧
      (s.sendInRoom b64 sk roomId text freshId ts).2.node = (s.node.commitLocal ev).2 := by
  unfold NodeSession.sendInRoom
  dsimp only
  cases hct : (sendMegolm s.e2ee (hex32 roomId.bytes) freshId (NodeSession.plaintextOf text)).2.1 with
  | error e => exact Or.inl ⟨rfl, rfl⟩
  | ok ct =>
      dsimp only
      cases hsign : signEvent sk (s.messageEvent b64 roomId ct ts) with
      | error e => exact Or.inl ⟨rfl, rfl⟩
      | ok ev =>
          refine Or.inr ⟨ct, ev, rfl, hsign, ?_⟩
          dsimp only
          rcases s.node.commitLocal ev with ⟨res, node⟩
          cases res <;> exact ⟨rfl, rfl⟩

/-- A message goes to both stores, with the tips of the node's DAG as its parents. -/
theorem sendMessage_cases (roomId : RoomId) (text freshId : String) (ts : UInt64) :
    ((s.sendMessage b64 sk roomId text freshId ts).2.rooms = s.rooms ∧
      (s.sendMessage b64 sk roomId text freshId ts).2.node = s.node) ∨
    ∃ ev, Brings b64 sk s (.sendMessage roomId text freshId ts) ev ∧ ev.kind = .message ∧
      ev.roomId = roomId ∧ ev.parents = s.node.tips roomId ∧
      (s.sendMessage b64 sk roomId text freshId ts).2.rooms = (s.rooms.applyEvent ev).2 ∧
      (s.sendMessage b64 sk roomId text freshId ts).2.node = (s.node.commitLocal ev).2 := by
  have hopen : ¬ (s.rooms.assertCanMessage roomId s.deviceId ≠ .ok () ∧
      (s.node.roomEventIds roomId).isEmpty) →
      s.sendMessage b64 sk roomId text freshId ts = s.sendInRoom b64 sk roomId text freshId ts := by
    intro hgate
    unfold NodeSession.sendMessage
    cases hcan : s.rooms.assertCanMessage roomId s.deviceId with
    | ok u => rfl
    | error e =>
        dsimp only
        rw [if_neg]
        intro hempty
        exact hgate ⟨by simp [hcan], hempty⟩
  -- no member, and no events here that would say otherwise
  by_cases hgate : s.rooms.assertCanMessage roomId s.deviceId ≠ .ok () ∧
      (s.node.roomEventIds roomId).isEmpty
  · have hclosed : ∃ e, s.sendMessage b64 sk roomId text freshId ts = (.error (.room e), s) := by
      unfold NodeSession.sendMessage
      cases hcan : s.rooms.assertCanMessage roomId s.deviceId with
      | ok u => exact absurd hcan hgate.1
      | error e => exact ⟨e, by simp [hgate.2]⟩
    rcases hclosed with ⟨e, heq⟩
    rw [heq]
    exact Or.inl ⟨rfl, rfl⟩
  · rw [hopen hgate]
    rcases sendInRoom_cases roomId text freshId ts with hquiet | ⟨ct, ev, hct, hsign, hrooms, hnode⟩
    · exact Or.inl hquiet
    · have hfields := signEvent_unsigned hsign
      exact Or.inr ⟨ev, ⟨hgate, ct, hct, hsign⟩, congrArg UnsignedEvent.kind hfields,
        congrArg UnsignedEvent.roomId hfields, congrArg UnsignedEvent.parents hfields, hrooms, hnode⟩

/-- The log is offered the event, and its answer given, whatever becomes of the registry. -/
theorem ingestRemote_commit (s : NodeSession) (ev : SignedEvent) :
    (s.ingestRemote ev).1 = (s.node.commit ev false).1 ∧
      (s.ingestRemote ev).2.node = (s.node.commit ev false).2 := by
  change _ = (s.node.commitRemote ev).1 ∧ _ = (s.node.commitRemote ev).2
  unfold NodeSession.ingestRemote
  rcases s.node.commitRemote ev with ⟨res, node⟩
  cases res with
  | error e => exact ⟨rfl, rfl⟩
  | ok b =>
      dsimp only
      split <;> exact ⟨rfl, rfl⟩

theorem ingestRemote_node (s : NodeSession) (ev : SignedEvent) :
    (s.ingestRemote ev).2.node = (s.node.commit ev false).2 :=
  (ingestRemote_commit s ev).2

/-- A call shows the registry at most one event and commits at most one, one that it brings. -/
theorem step_stores (call : SessionCall) :
    ((call.step b64 sk s).rooms = s.rooms ∨
      ∃ ev, (call.step b64 sk s).rooms = (s.rooms.applyEvent ev).2) ∧
    ((call.step b64 sk s).node = s.node ∨
      ∃ ev toOutbox, call.Brings b64 sk s ev ∧
        (call.step b64 sk s).node = (s.node.commit ev toOutbox).2) := by
  cases call with
  | createRoom name ts =>
      have hstep : (createRoom name ts).step b64 sk s = (s.createRoom sk name ts).2 := rfl
      rw [hstep]
      rcases @createRoom_cases _ _ _ _ b64 sk s name ts with hquiet | ⟨ev, hev, _, _, ⟨_, heq⟩ | ⟨_, heq⟩⟩
      · rw [hquiet]
        exact ⟨Or.inl rfl, Or.inl rfl⟩
      · rw [heq]
        exact ⟨Or.inr ⟨ev, rfl⟩, Or.inl rfl⟩
      · rw [heq]
        exact ⟨Or.inr ⟨ev, rfl⟩, Or.inr ⟨ev, true, hev, rfl⟩⟩
  | sendMessage roomId text freshId ts =>
      rcases @sendMessage_cases _ _ _ _ b64 sk s roomId text freshId ts with
        ⟨hrooms, hnode⟩ | ⟨ev, hev, _, _, _, hrooms, hnode⟩
      · exact ⟨Or.inl hrooms, Or.inl hnode⟩
      · exact ⟨Or.inr ⟨ev, hrooms⟩, Or.inr ⟨ev, true, hev, hnode⟩⟩
  | ingestRemote ev =>
      have hstep : (ingestRemote ev).step b64 sk s = (s.ingestRemote ev).2 := rfl
      rw [hstep]
      -- the log first, and the registry where the log took the event
      refine ⟨?_, Or.inr ⟨ev, false, rfl, ingestRemote_node s ev⟩⟩
      unfold NodeSession.ingestRemote
      rcases s.node.commitRemote ev with ⟨res, node⟩
      cases res with
      | error e => exact Or.inl rfl
      | ok b =>
          dsimp only
          split
          · exact Or.inr ⟨ev, rfl⟩
          · exact Or.inl rfl

end SessionCall

end Handlers

end Node
end Thunderducks
