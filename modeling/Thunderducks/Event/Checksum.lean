import Thunderducks.Event.Event

/-!
# Checksum — signing and verifying agree, and a primitive set to run

`signEvent_verified` says what `sign_event` returns passes `verify_event`, for any primitives whose
signatures verify.  `checksum` is such a set of primitives that evaluates quickly: a polynomial
checksum for the hash, and a signature that is the checksum of key and message.  The concrete runs of
this development use it.
-/

namespace Thunderducks
namespace Event

open Lib

/-- Every signature made with a key verifies under it. -/
class SignsVerify [Primitives] : Prop where
  valid : ∀ sk : Primitives.SigningKey, Primitives.validKey (Primitives.verifyingKey sk) = true
  verifies : ∀ (sk : Primitives.SigningKey) (msg : Bytes),
    Primitives.verify (Primitives.verifyingKey sk) msg (Primitives.sign sk msg) = true

section Signing

theorem signature64_toList (ev : SignedEvent) (sig : Bytes64) (h : ev.signature = sig.toList) :
    ev.signature64 = some sig := by
  have hlen : ev.signature.length = 64 := by
    simp [h]
  unfold SignedEvent.signature64
  rw [dif_pos hlen, Option.some.injEq]
  apply Vector.toArray_inj.1
  simp only [h]
  exact Array.toArray_toList

variable [Primitives]

/-- What `sign_event` returns, `verify_event` accepts. -/
theorem signEvent_verified [SignsVerify] {sk : Primitives.SigningKey} {unsigned : UnsignedEvent}
    {ev : SignedEvent} (h : signEvent sk unsigned = .ok ev) : Verified ev := by
  unfold signEvent at h
  dsimp only at h
  split at h
  · cases h
  next hauth =>
  push Not at hauth
  cases h
  unfold Verified verifyEvent
  rw [if_neg (by simp [SignsVerify.valid]), if_neg (by simpa using hauth.symm),
    signature64_toList _ _ rfl]
  dsimp only
  have hver := SignsVerify.verifies sk (bodyBytes unsigned (Primitives.verifyingKey sk))
  rw [if_neg (by simpa [SignedEvent.unsigned] using hver), if_neg]
  simp [canonicalBytes, SignedEvent.unsigned]

end Signing

/-! ## A set of primitives -/

namespace Checksum

/-- A polynomial checksum of a byte string. -/
def poly (bs : Bytes) : Nat :=
  bs.foldl (fun acc b => (acc * 257 + b.toNat + 1) % 1000000007) 7

/-- A number as a byte string of a fixed length, low byte first. -/
def spread (n : Nat) (x : Nat) : Vector UInt8 n :=
  Vector.ofFn fun i : Fin n => UInt8.ofNat (x / 256 ^ (i : Nat))

@[reducible] def primitives : Primitives :=
  { blake3 := fun bs => spread 32 (poly bs)
    SigningKey := Bytes32
    verifyingKey := fun sk => sk
    validKey := fun _ => true
    sign := fun sk msg => spread 64 (poly (sk.toList ++ msg))
    verify := fun vk msg sig => sig = spread 64 (poly (vk.toList ++ msg)) }

attribute [local instance] primitives

instance signsVerify : SignsVerify where
  valid := fun _ => rfl
  verifies := fun sk msg => by simp [Primitives.verify, Primitives.sign, Primitives.verifyingKey]

/-- The key pair with number `n`. -/
def key (n : Nat) : Bytes32 :=
  spread 32 n

def device (n : Nat) : DeviceId :=
  DeviceId.fromVerifyingKey (key n)

def room (n : Nat) : RoomId :=
  ⟨spread 32 n⟩

/-- An event that device `n` signs. -/
def event (n : Nat) (roomId : RoomId) (parents : List EventId) (kind : EventKind) (payload : Bytes)
    (tsMs : UInt64) : SignedEvent :=
  let unsigned : UnsignedEvent :=
    { roomId := roomId
      parents := parents
      kind := kind
      payload := payload
      authorDevice := device n
      tsMs := tsMs }
  let signed : SignedEvent :=
    { id := ⟨Vector.replicate 32 0⟩
      roomId := roomId
      parents := parents
      kind := kind
      payload := payload
      authorDevice := device n
      tsMs := tsMs
      authorVk := key n
      signature := (Primitives.sign (key n) (bodyBytes unsigned (key n))).toList }
  { signed with id := eventIdFromBytes (canonicalBytes signed) }

theorem event_verified (n : Nat) (roomId : RoomId) (parents : List EventId) (kind : EventKind)
    (payload : Bytes) (tsMs : UInt64) : Verified (event n roomId parents kind payload tsMs) := by
  have hsign : signEvent (key n)
      { roomId := roomId
        parents := parents
        kind := kind
        payload := payload
        authorDevice := device n
        tsMs := tsMs } = .ok (event n roomId parents kind payload tsMs) := by
    simp [signEvent, event, device, Primitives.verifyingKey]
  exact signEvent_verified hsign

end Checksum

end Event
end Thunderducks
