import Thunderducks.Lib.Text
import Thunderducks.Event.Event

/-!
# RelayProto — what travels between a node and an assist relay

The opaque envelopes and requests of `td-net/src/relay_proto.rs`, and the peer addresses of
`td-net/src/peer.rs`.
-/

namespace Thunderducks
namespace Net

open Lib Event

/-! ## Peer addresses -/

structure PeerUri where
  host : String
  port : UInt16
  /-- When true, dial/accept should use the Noise transport. -/
  noise : Bool
  /-- When true, dial/accept should use QUIC. -/
  quic : Bool
  deriving DecidableEq

inductive PeerError
  | invalidUri (s : String)
  deriving DecidableEq

def PeerError.toString : PeerError → String
  | .invalidUri s => "invalid peer uri: " ++ s

/-- The text after the scheme, with the transport the scheme asks for. -/
def PeerUri.scheme (s : String) : String × Bool × Bool :=
  match Text.stripPrefix "td-quic://" s with
  | some r => (r, false, true)
  | none =>
      match Text.stripPrefix "td-noise://" s with
      | some r => (r, true, false)
      | none =>
          match Text.stripPrefix "td://" s with
          | some r => (r, false, false)
          | none => (s, false, false)

/-- `td://host:port | td-noise://host:port | td-quic://host:port | host:port` -/
def PeerUri.parse (s : String) : Except PeerError PeerUri :=
  let (rest, noise, quic) := PeerUri.scheme s
  match Text.rsplitOnce ':' rest.toList with
  | none => .error (.invalidUri s)
  | some (host, portS) =>
      match Text.parseU16 portS with
      | none => .error (.invalidUri s)
      | some port =>
          .ok
            { host := String.ofList host
              port := port
              noise := noise
              quic := quic }

/-! ## Envelopes and requests -/

/-- Opaque ciphertext envelope.  Relay treats `ciphertext` as an uninterpreted blob. -/
structure RelayEnvelope where
  envelopeId : Bytes32
  recipientDevice : DeviceId
  senderDevice : DeviceId
  /-- Optional routing hint only — not opened by relay. -/
  roomId : Option RoomId
  ciphertext : Bytes
  tsMs : UInt64
  deriving DecidableEq

section Envelope

variable [Primitives]

/-- Content id = blake3(ciphertext || recipient || sender || ts). -/
def RelayEnvelope.new (recipient sender : DeviceId) (roomId : Option RoomId) (ciphertext : Bytes)
    (tsMs : UInt64) : RelayEnvelope :=
  let material := ciphertext ++ recipient.bytes.toList ++ sender.bytes.toList ++ leBytes tsMs
  { envelopeId := Primitives.blake3 material
    recipientDevice := recipient
    senderDevice := sender
    roomId := roomId
    ciphertext := ciphertext
    tsMs := tsMs }

end Envelope

inductive RelayRequest
  /-- Deposit an opaque envelope for later fetch by recipient. -/
  | put (envelope : RelayEnvelope)
  /-- Fetch envelopes for a recipient with ts >= since_ts (exclusive of acked). -/
  | fetch (recipient : DeviceId) (sinceTs : UInt64) (limit : UInt32)
  /-- Drop envelopes after successful local ingest (best-effort on relay). -/
  | ack (recipient : DeviceId) (envelopeIds : List Bytes32)

inductive RelayResponse
  | ok
  | envelopes (items : List RelayEnvelope)
  | err (message : String)

/-! ## JSON -/

def roomHintJson : Option RoomId → Json
  | none => .null
  | some roomId => roomId.bytes.toJson

instance : Serialize RelayEnvelope where
  toJson env :=
    .obj
      [("envelope_id", env.envelopeId.toJson),
        ("recipient_device", env.recipientDevice.bytes.toJson),
        ("sender_device", env.senderDevice.bytes.toJson),
        ("room_id", roomHintJson env.roomId),
        ("ciphertext", Json.bytes env.ciphertext),
        ("ts_ms", .num env.tsMs.toNat)]

instance : Serialize RelayRequest where
  toJson
    | .put envelope => .obj [("op", .str "put"), ("envelope", Serialize.toJson envelope)]
    | .fetch recipient sinceTs limit =>
        .obj
          [("op", .str "fetch"),
            ("recipient", recipient.bytes.toJson),
            ("since_ts", .num sinceTs.toNat),
            ("limit", .num limit.toNat)]
    | .ack recipient ids =>
        .obj
          [("op", .str "ack"),
            ("recipient", recipient.bytes.toJson),
            ("envelope_ids", .arr (ids.map Bytes32.toJson))]

instance : Serialize RelayResponse where
  toJson
    | .ok => .obj [("op", .str "ok")]
    | .envelopes items =>
        .obj [("op", .str "envelopes"), ("items", .arr (items.map Serialize.toJson))]
    | .err message => .obj [("op", .str "err"), ("message", .str message)]

end Net
end Thunderducks
