import Thunderducks.Lib.Runs
import Thunderducks.Event.Applied

/-!
# Founding — who a room id belongs to

`create_room` derives the room id from its creator, the name and the time, and `sign_event` ties the
creator to the signing key.  `apply_event` checks neither when a `CreateRoom` event arrives:
`always_founded_iff` says which runs keep every room with an event in its DAG that proves its
founder.
-/

namespace Thunderducks
namespace Event
namespace RoomRegistry

open Lib

section Founding

variable [Primitives] [Deserialize CreateRoomPayload] [Deserialize MembershipPayload]

/-- `apply_event`, its result dropped. -/
def apply (reg : RoomRegistry) (ev : SignedEvent) : RoomRegistry :=
  (reg.applyEvent ev).2

/-- A `CreateRoom` event in the DAG, by the recorded creator and with the recorded name, from which the
room id is derived. -/
def ProvesFounder (r : RoomId) (room : RoomState) (ev : SignedEvent) : Prop :=
  room.dag.events.lookup ev.id = some ev ∧ ev.kind = .createRoom ∧
    ev.authorDevice = room.creator ∧
    (∃ payload : CreateRoomPayload,
      Deserialize.fromSlice ev.payload = some payload ∧ payload.name = room.name) ∧
    r = roomIdFromParts room.creator room.name ev.tsMs

/-- Every room has its founder proved. -/
def Founded (reg : RoomRegistry) : Prop :=
  ∀ r room, reg.get r = some room → ∃ ev, ProvesFounder r room ev

/-- If the event makes a room, its signer is the creator it names and the room id is the derived
one. -/
def Authentic (reg : RoomRegistry) (ev : SignedEvent) : Prop :=
  ∀ payload, Founds reg ev payload →
    ev.authorDevice = payload.creator ∧
      ev.roomId = roomIdFromParts payload.creator payload.name ev.tsMs

section Step

variable {reg : RoomRegistry} {ev : SignedEvent}

/-- A room that takes one more event keeps its founder. -/
theorem ProvesFounder.attach {room : RoomState} {r : RoomId} {e : SignedEvent}
    (h : ProvesFounder r room e) (hnew : ev.id ∉ room.dag.events) :
    ProvesFounder r (RoomRegistry.attach room ev).2 e := by
  rcases h with ⟨hmem, hkind, hauthor, hname, hid⟩
  have hne : e.id ≠ ev.id := by
    intro heq
    exact hnew (heq ▸ HashMap.mem_of_lookup hmem)
  refine ⟨?_, hkind, by simpa using hauthor, by simpa using hname, by simpa using hid⟩
  rw [attach_dag, RoomDag.events_inserted, AList.lookup_insert_ne hne]
  exact hmem

omit [Deserialize MembershipPayload] in
/-- The only event of a room that has just been made. -/
theorem provesFounder_founded {payload : CreateRoomPayload} (hf : Founds reg ev payload) :
    (∃ e, ProvesFounder ev.roomId (founded ev payload) e) ↔
      ev.authorDevice = payload.creator ∧
        ev.roomId = roomIdFromParts payload.creator payload.name ev.tsMs := by
  have hevents : (founded ev payload).dag.events = (∅ : HashMap EventId SignedEvent).insert ev.id ev :=
    rfl
  constructor
  · rintro ⟨e, hmem, _, hauthor, _, hid⟩
    rw [hevents, HashMap.lookup_insert_eq] at hmem
    split at hmem
    · cases hmem
      exact ⟨hauthor, hid⟩
    · cases hmem
  · rintro ⟨hauthor, hid⟩
    refine ⟨ev, ?_, hf.kind, hauthor, ⟨payload, hf.decoded, rfl⟩, hid⟩
    rw [hevents]
    exact AList.lookup_insert _

/-- One event keeps every founder proved exactly when it is authentic. -/
theorem founded_apply_iff (h : reg.WellFormed) (ev : SignedEvent) (hp : reg.Founded) :
    (reg.apply ev).Founded ↔ Authentic reg ev := by
  unfold apply
  rcases applyEvent_effect h ev with ⟨payload, hf, _, heq⟩ | ⟨room, ha, _, heq⟩ |
    ⟨hno, _, _, hsame⟩
  -- a new room: its founder is proved if the event is authentic
  · have huniq : ∀ payload', Founds reg ev payload' → payload' = payload := by
      intro payload' hf'
      exact Option.some.inj (hf'.decoded.symm.trans hf.decoded)
    rw [heq]
    constructor
    · intro hall payload' hf'
      rw [huniq payload' hf']
      refine (provesFounder_founded hf).1 (hall ev.roomId _ ?_)
      simp [get_setRoom]
    · intro hauth r room hl
      rw [get_setRoom] at hl
      split at hl
      next hr =>
        cases hl
        rw [hr]
        exact (provesFounder_founded hf).2 (hauth payload hf)
      · exact hp r room hl
  · have hnot : ∀ payload, ¬ Founds reg ev payload := by
      intro payload hf
      have hnone := hf.unknown
      rw [ha.known] at hnone
      cases hnone
    rw [heq]
    refine iff_of_true ?_ (fun payload hf => absurd hf (hnot payload))
    intro r room' hl
    rw [get_setRoom] at hl
    split at hl
    next hr =>
      cases hl
      -- a known room keeps the event that proves its founder
      rcases hp r room (hr ▸ ha.known) with ⟨e, he⟩
      exact ⟨e, he.attach ha.admitted.2.1⟩
    · exact hp r room' hl
  · refine iff_of_true ?_ (fun payload hf => absurd hf (hno payload))
    intro r room hl
    rw [hsame] at hl
    exact hp r room hl

end Step

/-- In every run of `apply_event` from the empty registry, every room of every state has its founder
proved exactly when each event of the run that makes a room is authentic. -/
theorem always_founded_iff (evs : List SignedEvent) :
    Runs.Always apply Founded RoomRegistry.new evs ↔
      Runs.Along apply Authentic RoomRegistry.new evs := by
  refine Runs.always_iff_along_of_inv (fun reg ev h => h.applyEvent ev)
    (fun reg ev h hp => founded_apply_iff h ev hp) evs wellFormed_new ?_
  intro r room h
  cases h

end Founding

/-! ## A room founded in another's name -/

section Example

open Checksum

attribute [local instance] Checksum.primitives createReader membershipReader

/-- Device 2 makes room 1 and says that device 1 did. -/
def impostorPond : SignedEvent :=
  event 2 (room 1) [] .createRoom (toVec pond) 1

theorem apply_founds_impostor :
    ¬ ∀ evs : List SignedEvent, (∀ e ∈ evs, Verified e) →
      Runs.Always apply Founded RoomRegistry.new evs := by
  intro h
  have hv : Verified impostorPond := event_verified _ _ _ _ _ _
  have hread : Deserialize.fromSlice impostorPond.payload = some pond := by
    decide +kernel
  have hempty : RoomRegistry.new.Founded := by
    intro r room hr
    cases hr
  have hafter : (RoomRegistry.new.apply impostorPond).Founded := by
    have hall := h [impostorPond] (by simpa using hv)
    exact hall.2
  -- the impostor would have to be the creator it names
  have hauthor : impostorPond.authorDevice = pond.creator :=
    ((founded_apply_iff wellFormed_new impostorPond hempty).1 hafter pond
      ⟨hv, rfl, hread, rfl, rfl⟩).1
  have hne : impostorPond.authorDevice ≠ pond.creator := by
    decide +kernel
  exact hne hauthor

end Example

end RoomRegistry
end Event
end Thunderducks
