import Thunderducks.Lib.Json

/-!
# Vodozemac — the ratchets as the crates see them

The library is third-party code.  A Megolm session is its id and its position: `encrypt` uses the
current index and moves on, a pickle copies the session, and a session key lets its holder decrypt
from its own index.  Base64 texts and pickles that cross the wire are `Encoded`: either the
encoding of a value or a text that does not decode.

The Olm ratchet stays abstract, as the parameter `Olm`.
-/

namespace Thunderducks
namespace Crypto

open Lib

/-- A text that should be the encoding of an `α`. -/
inductive Encoded (α : Type)
  | of (a : α)
  | malformed
  deriving DecidableEq

namespace Encoded

def decode {α : Type} : Encoded α → Option α
  | .of a => some a
  | .malformed => none

@[simp] theorem decode_of {α : Type} (a : α) : (Encoded.of a).decode = some a := rfl

end Encoded

/-! ## Megolm -/

/-- What an exported session key decrypts: the messages of `sessionId` from `messageIndex` on. -/
structure SessionKey where
  sessionId : String
  messageIndex : Nat
  deriving DecidableEq

structure MegolmMessage where
  sessionId : String
  messageIndex : Nat
  plaintext : Bytes
  deriving DecidableEq

/-- An outbound Megolm session.  The crate counts in a `u32`; what it does at the last index is in `RoomRatchet`. -/
structure GroupSession where
  sessionId : String
  messageIndex : Nat
  deriving DecidableEq

namespace GroupSession

/-- `GroupSession::new`, given the session id its random key pair yields. -/
def new (sessionId : String) : GroupSession :=
  { sessionId := sessionId
    messageIndex := 0 }

def sessionKey (s : GroupSession) : SessionKey :=
  { sessionId := s.sessionId
    messageIndex := s.messageIndex }

def encrypt (s : GroupSession) (plaintext : Bytes) : MegolmMessage × GroupSession :=
  ({ sessionId := s.sessionId, messageIndex := s.messageIndex, plaintext := plaintext },
    { s with messageIndex := s.messageIndex + 1 })

end GroupSession

/-- An inbound Megolm session: the lowest index it can decrypt from. -/
structure InboundGroupSession where
  sessionId : String
  firstKnownIndex : Nat
  deriving DecidableEq

namespace InboundGroupSession

def new (key : SessionKey) : InboundGroupSession :=
  { sessionId := key.sessionId
    firstKnownIndex := key.messageIndex }

/-- The message must be signed by this session, and its index known. -/
def decrypt (s : InboundGroupSession) (msg : MegolmMessage) : Except String Bytes :=
  if msg.sessionId ≠ s.sessionId then
    .error "signature"
  else if msg.messageIndex < s.firstKnownIndex then
    .error "unknown message index"
  else
    .ok msg.plaintext

end InboundGroupSession

/-! ## Olm -/

/-- The Olm operations the crates call.  A state that an operation returns includes whatever
randomness it has left. -/
class Olm where
  Account : Type
  Session : Type
  Message : Type
  CurveKey : Type
  curveFromBase64 : String → Option CurveKey
  /-- `curve25519_key().to_base64()` -/
  identityKey : Account → String
  messageToJson : Message → String
  messageFromJson : String → Option Message
  isPreKey : Message → Bool
  createOutboundSession : Account → CurveKey → CurveKey → Except String Session × Account
  createInboundSession : Account → CurveKey → Message → Except String (Session × Bytes) × Account
  encrypt : Session → Bytes → Except String Message × Session
  decrypt : Session → Message → Except String Bytes × Session

end Crypto
end Thunderducks
