import Thunderducks.Lib.Json

/-!
# Event — signed, content-addressed events (`td-event/src/event.rs`)

An event is signed over `bodyBytes` and named by the blake3 hash of `canonicalBytes`, which adds
the signature.  Hashing and signing are third-party code and enter as the parameter `Primitives`; the
two encodings are written out.
-/

namespace Thunderducks
namespace Event

open Lib

/-! ## Identifiers -/

abbrev Bytes32 : Type := Vector UInt8 32

abbrev Bytes64 : Type := Vector UInt8 64

/-- 32-byte content-addressed event id (blake3). -/
structure EventId where
  bytes : Bytes32
  deriving DecidableEq

structure RoomId where
  bytes : Bytes32
  deriving DecidableEq

structure DeviceId where
  bytes : Bytes32
  deriving DecidableEq

/-! ## Third-party primitives -/

/-- `blake3::hash` and the `ed25519_dalek` operations.  A verifying key is its 32 bytes;
`validKey` says which byte strings `VerifyingKey::from_bytes` accepts. -/
class Primitives where
  blake3 : Bytes → Bytes32
  SigningKey : Type
  verifyingKey : SigningKey → Bytes32
  validKey : Bytes32 → Bool
  sign : SigningKey → Bytes → Bytes64
  verify : Bytes32 → Bytes → Bytes64 → Bool

/-! ## Events -/

inductive EventKind
  | createRoom
  | membership
  | message
  | deviceLink
  | custom
  deriving DecidableEq, Repr

structure UnsignedEvent where
  roomId : RoomId
  parents : List EventId
  kind : EventKind
  payload : Bytes
  authorDevice : DeviceId
  tsMs : UInt64
  deriving DecidableEq

structure SignedEvent where
  id : EventId
  roomId : RoomId
  parents : List EventId
  kind : EventKind
  payload : Bytes
  authorDevice : DeviceId
  tsMs : UInt64
  authorVk : Bytes32
  signature : Bytes
  deriving DecidableEq

inductive EventError
  | serde
  | invalidVerifyingKey
  | invalidSignature
  | idMismatch
  | authorMismatch
  deriving DecidableEq, Repr

/-! ## Encodings -/

def Bytes32.toJson (b : Bytes32) : Json :=
  Json.bytes b.toList

/-- The `snake_case` names serde gives the kinds. -/
def EventKind.toJson : EventKind → Json
  | .createRoom => .str "create_room"
  | .membership => .str "membership"
  | .message => .str "message"
  | .deviceLink => .str "device_link"
  | .custom => .str "custom"

/-- The fields `Body` and `Canon` share, in declaration order. -/
def UnsignedEvent.bodyFields (ev : UnsignedEvent) (authorVk : Bytes32) : List (String × Json) :=
  [("room_id", ev.roomId.bytes.toJson),
    ("parents", .arr (ev.parents.map fun p => p.bytes.toJson)),
    ("kind", ev.kind.toJson),
    ("payload", Json.bytes ev.payload),
    ("author_device", ev.authorDevice.bytes.toJson),
    ("ts_ms", .num ev.tsMs.toNat),
    ("author_vk", authorVk.toJson)]

def SignedEvent.unsigned (ev : SignedEvent) : UnsignedEvent :=
  { roomId := ev.roomId
    parents := ev.parents
    kind := ev.kind
    payload := ev.payload
    authorDevice := ev.authorDevice
    tsMs := ev.tsMs }

instance : Serialize SignedEvent where
  toJson ev :=
    .obj (("id", ev.id.bytes.toJson) ::
      (ev.unsigned.bodyFields ev.authorVk ++ [("signature", Json.bytes ev.signature)]))

def bodyBytes (ev : UnsignedEvent) (authorVk : Bytes32) : Bytes :=
  (Json.obj (ev.bodyFields authorVk)).render

/-- Full canonical encoding including signature (for content id). -/
def canonicalBytes (ev : SignedEvent) : Bytes :=
  (Json.obj (ev.unsigned.bodyFields ev.authorVk ++ [("signature", Json.bytes ev.signature)])).render

/-! ## Signing and verification -/

variable [Primitives]

def eventIdFromBytes (bs : Bytes) : EventId :=
  ⟨Primitives.blake3 bs⟩

/-- Device id = blake3(verifying_key_bytes) for stable addressing. -/
def DeviceId.fromVerifyingKey (vk : Bytes32) : DeviceId :=
  ⟨Primitives.blake3 vk.toList⟩

def signEvent (sk : Primitives.SigningKey) (unsigned : UnsignedEvent) :
    Except EventError SignedEvent :=
  let authorVk := Primitives.verifyingKey sk
  if unsigned.authorDevice ≠ DeviceId.fromVerifyingKey authorVk then
    .error .authorMismatch
  else
    let signed : SignedEvent :=
      { id := ⟨Vector.replicate 32 0⟩
        roomId := unsigned.roomId
        parents := unsigned.parents
        kind := unsigned.kind
        payload := unsigned.payload
        authorDevice := unsigned.authorDevice
        tsMs := unsigned.tsMs
        authorVk := authorVk
        signature := (Primitives.sign sk (bodyBytes unsigned authorVk)).toList }
    .ok { signed with id := eventIdFromBytes (canonicalBytes signed) }

/-- `signature.as_slice().try_into()`: the signature as 64 bytes, if it has that length. -/
def SignedEvent.signature64 (ev : SignedEvent) : Option Bytes64 :=
  if h : ev.signature.length = 64 then
    some ⟨ev.signature.toArray, by simpa using h⟩
  else
    none

def verifyEvent (ev : SignedEvent) : Except EventError Unit :=
  if Primitives.validKey ev.authorVk = false then
    .error .invalidVerifyingKey
  else if DeviceId.fromVerifyingKey ev.authorVk ≠ ev.authorDevice then
    .error .authorMismatch
  else
    match ev.signature64 with
    | none => .error .invalidSignature
    | some sig =>
        if Primitives.verify ev.authorVk (bodyBytes ev.unsigned ev.authorVk) sig = false then
          .error .invalidSignature
        else if eventIdFromBytes (canonicalBytes ev) ≠ ev.id then
          .error .idMismatch
        else
          .ok ()

/-- The event passes `verify_event`. -/
def Verified (ev : SignedEvent) : Prop :=
  verifyEvent ev = .ok ()

instance (ev : SignedEvent) : Decidable (Verified ev) :=
  match h : verifyEvent ev with
  | .ok () => isTrue h
  | .error e => isFalse (by simp [Verified, h])

/-- Ids identify events, as content addressing makes them do. -/
def IdsIdentify (evs : Set SignedEvent) : Prop :=
  ∀ e ∈ evs, ∀ e' ∈ evs, e.id = e'.id → e = e'

end Event
end Thunderducks
