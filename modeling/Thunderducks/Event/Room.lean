import Thunderducks.Event.Dag
import Thunderducks.Event.Checksum

/-!
# Room — rooms and membership as signed events (`td-event/src/room.rs`)

Two paths decide membership: `membershipEvent` checks the actor before it signs an event, and
`applyEvent` folds any verified event, its own or a peer's, into the member table.  The reader of the
JSON payloads is a parameter.
-/

namespace Thunderducks
namespace Event

open Lib

/-! ## Payloads and state -/

inductive RoomError
  | event (e : EventError)
  | dag (e : DagError)
  | serde
  | notMember (d : DeviceId)
  | unknownRoom
  | invalidTransition
  | unauthorized
  deriving DecidableEq

inductive MembershipAction
  | join
  | invite
  | leave
  | ban
  deriving DecidableEq, Repr

structure CreateRoomPayload where
  creator : DeviceId
  name : String
  deriving DecidableEq

structure MembershipPayload where
  target : DeviceId
  action : MembershipAction
  actor : DeviceId
  deriving DecidableEq

def MembershipAction.toJson : MembershipAction → Json
  | .join => .str "join"
  | .invite => .str "invite"
  | .leave => .str "leave"
  | .ban => .str "ban"

instance : Serialize CreateRoomPayload where
  toJson p := .obj [("creator", p.creator.bytes.toJson), ("name", .str p.name)]

instance : Serialize MembershipPayload where
  toJson p :=
    .obj [("target", p.target.bytes.toJson), ("action", p.action.toJson),
      ("actor", p.actor.bytes.toJson)]

inductive MemberState
  | invited
  | joined
  | left
  | banned
  deriving DecidableEq, Repr

structure RoomState where
  roomId : RoomId
  name : String
  creator : DeviceId
  members : HashMap DeviceId MemberState
  dag : RoomDag
  tips : List EventId
  deriving DecidableEq

namespace RoomState

def memberState (room : RoomState) (d : DeviceId) : Option MemberState :=
  room.members.lookup d

def isJoined (room : RoomState) (d : DeviceId) : Bool :=
  room.memberState d = some .joined

end RoomState

/-- In-memory room registry folding membership from the event DAG. -/
structure RoomRegistry where
  rooms : HashMap RoomId RoomState
  deriving DecidableEq

/-- `str::as_bytes`. -/
def utf8Bytes (s : String) : Bytes :=
  s.toList.flatMap String.utf8EncodeChar

namespace RoomRegistry

def new : RoomRegistry :=
  { rooms := ∅ }

def get (reg : RoomRegistry) (roomId : RoomId) : Option RoomState :=
  reg.rooms.lookup roomId

/-- The member state of a device in a room, `none` when either is unknown. -/
def memberState (reg : RoomRegistry) (roomId : RoomId) (d : DeviceId) : Option MemberState :=
  (reg.get roomId).bind fun room => room.memberState d

def assertCanMessage (reg : RoomRegistry) (roomId : RoomId) (author : DeviceId) :
    Except RoomError Unit :=
  match reg.get roomId with
  | none => .error .unknownRoom
  | some room => if room.isJoined author then .ok () else .error (.notMember author)

/-! ## Applying events -/

/-- The member table after `action` on `target`; a banned device is neither invited nor joined. -/
def fold (action : MembershipAction) (members : HashMap DeviceId MemberState)
    (target : DeviceId) : Except RoomError (HashMap DeviceId MemberState) :=
  match action with
  | .invite =>
      if members.lookup target = some .banned then
        .error .invalidTransition
      else
        .ok (members.insert target .invited)
  | .join =>
      if members.lookup target = some .banned then
        .error .invalidTransition
      else
        .ok (members.insert target .joined)
  | .leave => .ok (members.insert target .left)
  | .ban => .ok (members.insert target .banned)

section Apply

variable [Primitives] [Deserialize CreateRoomPayload] [Deserialize MembershipPayload]

/-- The `CreateRoom` branch of `apply_event`. -/
def applyCreate (reg : RoomRegistry) (ev : SignedEvent) : Except RoomError Bool × RoomRegistry :=
  match Deserialize.fromSlice ev.payload with
  | none => (.error .serde, reg)
  | some (payload : CreateRoomPayload) =>
      match reg.rooms.lookup ev.roomId with
      | some room =>
          -- idempotent if same create
          match room.dag.ingest ev with
          | (.error e, dag) =>
              (.error (.dag e), { reg with rooms := reg.rooms.insert ev.roomId { room with dag := dag } })
          | (.ok inserted, dag) =>
              let tips := if inserted then dag.tips else room.tips
              let room := { room with dag := dag, tips := tips }
              (.ok inserted, { reg with rooms := reg.rooms.insert ev.roomId room })
      | none =>
          match (RoomDag.new ev.roomId).ingest ev with
          | (.error e, _) => (.error (.dag e), reg)
          | (.ok _, dag) =>
              let room : RoomState :=
                { roomId := ev.roomId
                  name := payload.name
                  creator := payload.creator
                  members := (∅ : HashMap DeviceId MemberState).insert payload.creator .joined
                  dag := dag
                  tips := dag.tips }
              (.ok true, { reg with rooms := reg.rooms.insert ev.roomId room })

/-- The `Membership` branch of `apply_event`. -/
def applyMembership (reg : RoomRegistry) (ev : SignedEvent) :
    Except RoomError Bool × RoomRegistry :=
  match Deserialize.fromSlice ev.payload with
  | none => (.error .serde, reg)
  | some (payload : MembershipPayload) =>
      match reg.rooms.lookup ev.roomId with
      | none => (.error .unknownRoom, reg)
      | some room =>
          match room.dag.ingest ev with
          | (.error e, dag) =>
              (.error (.dag e), { reg with rooms := reg.rooms.insert ev.roomId { room with dag := dag } })
          | (.ok false, dag) =>
              (.ok false, { reg with rooms := reg.rooms.insert ev.roomId { room with dag := dag } })
          | (.ok true, dag) =>
              match fold payload.action room.members payload.target with
              -- the event stays in the DAG, the tips are not refreshed
              | .error e =>
                  (.error e, { reg with rooms := reg.rooms.insert ev.roomId { room with dag := dag } })
              | .ok members =>
                  let room := { room with dag := dag, members := members, tips := dag.tips }
                  (.ok true, { reg with rooms := reg.rooms.insert ev.roomId room })

/-- The branch of `apply_event` for the other kinds: they attach to the DAG if the author is in. -/
def applyOther (reg : RoomRegistry) (ev : SignedEvent) : Except RoomError Bool × RoomRegistry :=
  match reg.rooms.lookup ev.roomId with
  | none => (.error .unknownRoom, reg)
  | some room =>
      if room.isJoined ev.authorDevice = false then
        (.error (.notMember ev.authorDevice), reg)
      else
        match room.dag.ingest ev with
        | (.error e, dag) =>
            (.error (.dag e), { reg with rooms := reg.rooms.insert ev.roomId { room with dag := dag } })
        | (.ok inserted, dag) =>
            let tips := if inserted then dag.tips else room.tips
            let room := { room with dag := dag, tips := tips }
            (.ok inserted, { reg with rooms := reg.rooms.insert ev.roomId room })

def applyEvent (reg : RoomRegistry) (ev : SignedEvent) : Except RoomError Bool × RoomRegistry :=
  match verifyEvent ev with
  | .error e => (.error (.event e), reg)
  | .ok () =>
      match ev.kind with
      | .createRoom => reg.applyCreate ev
      | .membership => reg.applyMembership ev
      | _ => reg.applyOther ev

/-! ## Authoring events -/

/-- Deterministic room id: blake3(creator || name || ts). -/
def roomIdFromParts (creator : DeviceId) (name : String) (tsMs : UInt64) : RoomId :=
  ⟨Primitives.blake3 (creator.bytes.toList ++ utf8Bytes name ++ leBytes tsMs)⟩

def createRoom (reg : RoomRegistry) (sk : Primitives.SigningKey) (creator : DeviceId)
    (name : String) (tsMs : UInt64) :
    Except RoomError (RoomId × SignedEvent) × RoomRegistry :=
  let roomId := roomIdFromParts creator name tsMs
  let payload : CreateRoomPayload := { creator := creator, name := name }
  let unsigned : UnsignedEvent :=
    { roomId := roomId
      parents := []
      kind := .createRoom
      payload := toVec payload
      authorDevice := creator
      tsMs := tsMs }
  match signEvent sk unsigned with
  | .error e => (.error (.event e), reg)
  | .ok signed =>
      match reg.applyEvent signed with
      | (.error e, reg) => (.error e, reg)
      | (.ok _, reg) => (.ok (roomId, signed), reg)

/-- The authorization match of `membership_event`: only joined members can invite or ban, a device
joins or leaves for itself. -/
def authorize (room : RoomState) (actor target : DeviceId) (action : MembershipAction) :
    Except RoomError Unit :=
  match action with
  | .invite | .ban =>
      if room.isJoined actor = false then .error .unauthorized else .ok ()
  | .join =>
      if actor ≠ target then
        .error .unauthorized
      else if room.memberState target = some .invited ∨ room.memberState target = some .joined then
        .ok ()
      else
        .error .invalidTransition
  | .leave =>
      if actor ≠ target ∨ ¬ (room.memberState target = some .joined ∨
          room.memberState target = some .invited) then
        .error .unauthorized
      else
        .ok ()

def membershipEvent (reg : RoomRegistry) (sk : Primitives.SigningKey) (roomId : RoomId)
    (actor target : DeviceId) (action : MembershipAction) (tsMs : UInt64) :
    Except RoomError SignedEvent × RoomRegistry :=
  match reg.rooms.lookup roomId with
  | none => (.error .unknownRoom, reg)
  | some room =>
      match authorize room actor target action with
      | .error e => (.error e, reg)
      | .ok () =>
          let payload : MembershipPayload := { target := target, action := action, actor := actor }
          let unsigned : UnsignedEvent :=
            { roomId := roomId
              parents := room.tips
              kind := .membership
              payload := toVec payload
              authorDevice := actor
              tsMs := tsMs }
          match signEvent sk unsigned with
          | .error e => (.error (.event e), reg)
          | .ok signed =>
              match reg.applyEvent signed with
              | (.error e, reg) => (.error e, reg)
              | (.ok _, reg) => (.ok signed, reg)

end Apply

end RoomRegistry

end Event
end Thunderducks
