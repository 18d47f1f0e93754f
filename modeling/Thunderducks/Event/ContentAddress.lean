import Thunderducks.Lib.JsonUnique
import Thunderducks.Event.Checksum

/-!
# ContentAddress — an id names one event

`canonicalBytes` leaves out the id and nothing else, and the JSON form can be read in one way only.  So
two events that pass `verify_event` under one id are the same event, unless their canonical bytes are a
collision of the hash.
-/

namespace Thunderducks
namespace Event

open Lib

/-! ## The encoding -/

theorem Bytes32.toJson_injective {a b : Bytes32} (h : a.toJson = b.toJson) : a = b := by
  have hlist : a.toList = b.toList := Json.bytes_injective h
  exact Vector.toList_inj.1 hlist

theorem EventKind.toJson_injective {a b : EventKind} (h : a.toJson = b.toJson) : a = b := by
  have hname : ∀ {s t : String}, Json.str s = Json.str t → s = t := Json.str.inj
  cases a <;> cases b <;> first | rfl | exact absurd (hname h) (by decide)

theorem parents_toJson_injective {ps qs : List EventId}
    (h : Json.arr (ps.map fun p => p.bytes.toJson) = Json.arr (qs.map fun p => p.bytes.toJson)) :
    ps = qs := by
  refine List.map_injective_iff.2 ?_ (Json.arr.inj h)
  intro p q hpq
  have hbytes : p.bytes = q.bytes := Bytes32.toJson_injective hpq
  cases p
  cases q
  simpa using hbytes

/-- The canonical bytes hold every field of an event but its id. -/
theorem canonicalBytes_injective {a b : SignedEvent} (h : canonicalBytes a = canonicalBytes b) :
    { a with id := b.id } = b := by
  have hfields := Json.obj.inj (Json.render_injective h)
  simp only [UnsignedEvent.bodyFields, SignedEvent.unsigned, List.cons_append, List.nil_append,
    List.cons.injEq, Prod.mk.injEq, true_and, and_true] at hfields
  rcases hfields with ⟨hroom, hparents, hkind, hpayload, hdevice, hts, hvk, hsig⟩
  have hroom' : a.roomId.bytes = b.roomId.bytes := Bytes32.toJson_injective hroom
  have hdevice' : a.authorDevice.bytes = b.authorDevice.bytes := Bytes32.toJson_injective hdevice
  have hts' : a.tsMs = b.tsMs := UInt64.toNat_inj.1 (Json.num.inj hts)
  rcases a with ⟨_, ⟨_⟩, _, _, _, ⟨_⟩, _, _, _⟩
  rcases b with ⟨_, ⟨_⟩, _, _, _, ⟨_⟩, _, _, _⟩
  simp only [SignedEvent.mk.injEq, RoomId.mk.injEq, DeviceId.mk.injEq, true_and]
  exact ⟨hroom', parents_toJson_injective hparents, EventKind.toJson_injective hkind,
    Json.bytes_injective hpayload, hdevice', hts', Bytes32.toJson_injective hvk,
    Json.bytes_injective hsig⟩

/-- The stored form holds every field. -/
theorem SignedEvent.toJson_injective (a b : SignedEvent)
    (h : Serialize.toJson a = Serialize.toJson b) : a = b := by
  have hfields := List.cons.inj (Json.obj.inj h)
  have hid : a.id.bytes = b.id.bytes := Bytes32.toJson_injective (Prod.mk.inj hfields.1).2
  have hid' : a.id = b.id := by
    cases ha : a.id
    cases hb : b.id
    simpa [ha, hb] using hid
  have hcanonical : canonicalBytes a = canonicalBytes b := by
    unfold canonicalBytes
    rw [hfields.2]
  have hsame := canonicalBytes_injective hcanonical
  rwa [← hid'] at hsame

section Signing

variable [Primitives]

/-! ## Ids -/

theorem id_of_verified {ev : SignedEvent} (h : Verified ev) :
    ev.id = eventIdFromBytes (canonicalBytes ev) := by
  unfold Verified verifyEvent at h
  split at h
  · cases h
  split at h
  · cases h
  split at h
  · cases h
  split at h
  · cases h
  split at h
  · cases h
  next hid =>
  push Not at hid
  exact hid.symm

/-- The two inputs are no collision of the hash. -/
def CollisionFree (x y : Bytes) : Prop :=
  Primitives.blake3 x = Primitives.blake3 y → x = y

theorem eq_of_id {a b : SignedEvent} (ha : Verified a) (hb : Verified b)
    (hcf : CollisionFree (canonicalBytes a) (canonicalBytes b)) (hid : a.id = b.id) : a = b := by
  have hhash : eventIdFromBytes (canonicalBytes a) = eventIdFromBytes (canonicalBytes b) := by
    rw [← id_of_verified ha, ← id_of_verified hb, hid]
  have hbytes : canonicalBytes a = canonicalBytes b := hcf (EventId.mk.inj hhash)
  have hsame := canonicalBytes_injective hbytes
  rw [← hid] at hsame
  exact hsame

/-! ## Signing -/

theorem signEvent_ok_iff (sk : Primitives.SigningKey) (unsigned : UnsignedEvent) :
    (∃ ev, signEvent sk unsigned = .ok ev) ↔
      unsigned.authorDevice = DeviceId.fromVerifyingKey (Primitives.verifyingKey sk) := by
  unfold signEvent
  dsimp only
  split
  next hne =>
    refine iff_of_false ?_ hne
    rintro ⟨ev, hev⟩
    cases hev
  next heq =>
    push Not at heq
    exact iff_of_true ⟨_, rfl⟩ heq

theorem signEvent_unsigned {sk : Primitives.SigningKey} {unsigned : UnsignedEvent}
    {ev : SignedEvent} (h : signEvent sk unsigned = .ok ev) : ev.unsigned = unsigned := by
  unfold signEvent at h
  dsimp only at h
  split at h
  · cases h
  · cases h
    rfl

/-- Signing succeeds for the key's own device, keeps what was to be signed and verifies; the encoding is
injective up to the id; and over inputs on which the hash has no collision an id names one event. -/
theorem signed_events_contentAddressed [SignsVerify] :
    (∀ (sk : Primitives.SigningKey) (unsigned : UnsignedEvent),
      ((∃ ev, signEvent sk unsigned = .ok ev) ↔
        unsigned.authorDevice = DeviceId.fromVerifyingKey (Primitives.verifyingKey sk)) ∧
      ∀ ev, signEvent sk unsigned = .ok ev → ev.unsigned = unsigned ∧ Verified ev) ∧
    (∀ a b : SignedEvent, canonicalBytes a = canonicalBytes b → { a with id := b.id } = b) ∧
    ∀ a b : SignedEvent, Verified a → Verified b →
      CollisionFree (canonicalBytes a) (canonicalBytes b) → a.id = b.id → a = b := by
  refine ⟨?_, fun a b h => canonicalBytes_injective h, fun a b ha hb hcf hid => eq_of_id ha hb hcf hid⟩
  intro sk unsigned
  refine ⟨signEvent_ok_iff sk unsigned, ?_⟩
  intro ev hev
  exact ⟨signEvent_unsigned hev, signEvent_verified hev⟩

end Signing

section Example

open Checksum

attribute [local instance] Checksum.primitives

/-- A message of device 1. -/
def quack : UnsignedEvent :=
  { roomId := room 1
    parents := []
    kind := .message
    payload := [113]
    authorDevice := device 1
    tsMs := 1 }

/-- The same message, signed. -/
def quacked : SignedEvent :=
  event 1 (room 1) [] .message [113] 1

theorem signed_events_contentAddressed_quack :
    (∃ ev, signEvent (key 1) quack = .ok ev ∧ ev.unsigned = quack ∧ Verified ev) ∧
      ∀ ev, Verified ev → CollisionFree (canonicalBytes ev) (canonicalBytes quacked) →
        ev.id = quacked.id → ev = quacked := by
  have hthm := signed_events_contentAddressed
  have hown : quack.authorDevice = DeviceId.fromVerifyingKey (Primitives.verifyingKey (key 1)) := by
    simp [quack, device, Primitives.verifyingKey]
  have hv : Verified quacked := event_verified _ _ _ _ _ _
  refine ⟨?_, fun ev hev hcf hid => hthm.2.2 ev quacked hev hv hcf hid⟩
  rcases (hthm.1 (key 1) quack).1.2 hown with ⟨ev, hev⟩
  exact ⟨ev, hev, (hthm.1 (key 1) quack).2 ev hev⟩

end Example

end Event
end Thunderducks
