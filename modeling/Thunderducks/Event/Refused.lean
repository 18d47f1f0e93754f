import Thunderducks.Event.Founding

/-!
# Refused — what a failed `apply_event` leaves behind (`td-event/src/room.rs`)

Every check of `apply_event` but one comes before the event enters the DAG of its room.  The fold of a
membership action comes after, and its refusal leaves the event in the DAG and the stored tips as they
were.  Such an event is `Barred`; `Atomic` says of a call that its failure changes no room, `TipsCurrent` of
a registry that the stored tips are those of the DAGs.  Both fail at the barred events and nowhere else.
-/

namespace Thunderducks
namespace Event
namespace RoomRegistry

open Lib

/-- The stored tips of every room are, as a set, the tips of its DAG. -/
def TipsCurrent (reg : RoomRegistry) : Prop :=
  ∀ r room, reg.get r = some room → ∀ i, i ∈ room.tips ↔ i ∈ room.dag.tips

section Refusal

variable [Primitives] [Deserialize CreateRoomPayload] [Deserialize MembershipPayload]

/-- If the call fails, every room is what it was. -/
def Atomic (reg : RoomRegistry) (ev : SignedEvent) : Prop :=
  ∀ e, (reg.applyEvent ev).1 = .error e → SameRooms reg (reg.applyEvent ev).2

/-- The event invites or joins a device that its room has banned, and the DAG of the room takes it. -/
def Barred (reg : RoomRegistry) (ev : SignedEvent) : Prop :=
  ∃ room payload, Attaches reg ev room ∧ payloadOf ev = some payload ∧
    payload.action.Refuses (room.memberState payload.target)

variable {reg : RoomRegistry} {ev : SignedEvent} {room : RoomState}

omit [Primitives] [Deserialize CreateRoomPayload] in
/-- Attaching fails exactly when the fold refuses the action of the event. -/
theorem attach_error_iff (room : RoomState) (ev : SignedEvent) :
    (∃ e, (attach room ev).1 = .error e) ↔
      ∃ payload, payloadOf ev = some payload ∧ payload.action.Refuses (room.memberState payload.target) := by
  unfold attach
  cases hpay : payloadOf ev with
  | none =>
      constructor
      · rintro ⟨e, he⟩
        cases he
      · rintro ⟨payload, hp, _⟩
        cases hp
  | some payload =>
      -- only the fold can refuse
      have hfold := fold_eq payload.action room.members payload.target
      by_cases href : payload.action.Refuses (room.memberState payload.target)
      · have hfold' : fold payload.action room.members payload.target = .error .invalidTransition := by
          rw [hfold]
          exact if_pos href
        refine iff_of_true ?_ ⟨payload, rfl, href⟩
        simp only [hfold']
        exact ⟨.invalidTransition, rfl⟩
      · have hfold' : fold payload.action room.members payload.target =
            .ok (room.members.insert payload.target payload.action.result) := by
          rw [hfold]
          exact if_neg href
        refine iff_of_false ?_ ?_
        · simp only [hfold']
          rintro ⟨e, he⟩
          cases he
        · rintro ⟨payload', hp, href'⟩
          cases hp
          exact href href'

/-- An event that enters the DAG of its room is barred exactly when attaching it fails. -/
theorem barred_iff (ha : Attaches reg ev room) :
    Barred reg ev ↔ ∃ e, (attach room ev).1 = .error e := by
  rw [attach_error_iff]
  constructor
  · rintro ⟨room', payload, ha', hpay, href⟩
    have heq : room = room' := Option.some.inj (ha.known.symm.trans ha'.known)
    subst heq
    exact ⟨payload, hpay, href⟩
  · rintro ⟨payload, hpay, href⟩
    exact ⟨room, payload, ha, hpay, href⟩

theorem not_barred_of_founds {payload : CreateRoomPayload} (hf : Founds reg ev payload) :
    ¬ Barred reg ev := by
  rintro ⟨room, _, ha, _, _⟩
  have hknown := ha.known
  rw [hf.unknown] at hknown
  cases hknown

/-- The event is in the DAG afterwards and was not before, so its room has changed. -/
theorem not_sameRooms_attach (ha : Attaches reg ev room) :
    ¬ SameRooms reg (reg.setRoom ev.roomId (attach room ev).2) := by
  intro hsame
  have hroom := hsame ev.roomId
  rw [get_setRoom, if_pos rfl, ha.known] at hroom
  have hdag : room.dag.inserted ev = room.dag := by
    rw [← attach_dag]
    exact congrArg RoomState.dag (Option.some.inj hroom)
  have hnew := ha.admitted.2.1
  rw [← hdag] at hnew
  exact hnew ((AList.mem_insert _).2 (Or.inl rfl))

/-- A failed call changes a room exactly when its event is barred. -/
theorem atomic_iff (h : reg.WellFormed) (ev : SignedEvent) : Atomic reg ev ↔ ¬ Barred reg ev := by
  unfold Atomic
  rcases applyEvent_effect h ev with ⟨payload, hf, hres, _⟩ | ⟨room, ha, hres, heq⟩ | ⟨_, hno, _, hsame⟩
  · refine iff_of_true ?_ (not_barred_of_founds hf)
    intro e he
    rw [hres] at he
    cases he
  · rw [hres, heq, barred_iff ha]
    constructor
    · rintro hatomic ⟨e, he⟩
      exact not_sameRooms_attach ha (hatomic e he)
    · intro hok e he
      exact absurd ⟨e, he⟩ hok
  · refine iff_of_true (fun _ _ => hsame) ?_
    rintro ⟨room, _, ha, _, _⟩
    exact hno room ha

omit [Primitives] [Deserialize CreateRoomPayload] [Deserialize MembershipPayload] in
/-- Putting a room in its place keeps the tips current exactly when those of the room are. -/
theorem tipsCurrent_setRoom (h : reg.TipsCurrent) (r : RoomId) (room : RoomState) :
    (reg.setRoom r room).TipsCurrent ↔ ∀ i, i ∈ room.tips ↔ i ∈ room.dag.tips := by
  constructor
  · intro hset
    exact hset r room (by rw [get_setRoom, if_pos rfl])
  · intro hroom r' room' hl
    rw [get_setRoom] at hl
    split at hl
    · cases hl
      exact hroom
    · exact h r' room' hl

omit [Primitives] [Deserialize CreateRoomPayload] [Deserialize MembershipPayload] in
/-- An event that has just entered a well-formed DAG is one of its tips. -/
theorem mem_tips_inserted {r : RoomId} {dag : RoomDag} (h : dag.WellFormed r) (hroom : ev.roomId = r)
    (hadm : dag.Admits ev) : ev.id ∈ (dag.inserted ev).tips := by
  have hwf := h.inserted hroom hadm.2.1 hadm.2.2
  rw [hwf.tips_iff]
  refine ⟨(AList.mem_insert _).2 (Or.inl rfl), ?_⟩
  intro c e hl hparent
  rw [RoomDag.events_inserted, HashMap.lookup_insert_eq] at hl
  split at hl
  · cases hl
    exact hadm.2.1 (hadm.2.2 _ hparent)
  · exact hadm.2.1 (h.closed hl _ hparent)

/-- A call keeps the stored tips current exactly when its event is not barred. -/
theorem tipsCurrent_apply_iff (h : reg.WellFormed) (ev : SignedEvent) (hp : reg.TipsCurrent) :
    (reg.apply ev).TipsCurrent ↔ ¬ Barred reg ev := by
  unfold apply
  rcases applyEvent_effect h ev with ⟨payload, hf, _, heq⟩ | ⟨room, ha, _, heq⟩ | ⟨_, hno, _, hsame⟩
  · rw [heq, tipsCurrent_setRoom hp]
    exact iff_of_true (fun _ => Iff.rfl) (not_barred_of_founds hf)
  · rw [heq, tipsCurrent_setRoom hp, barred_iff ha, attach_dag]
    rcases attach_cases room ev with ⟨members, hok⟩ | ⟨e, herr⟩
    · rw [hok]
      refine iff_of_true (fun _ => Iff.rfl) ?_
      rintro ⟨e, he⟩
      cases he
    · -- the tips are those of the DAG without the event
      rw [herr]
      refine iff_of_false ?_ (fun hok => hok ⟨e, rfl⟩)
      intro hcurrent
      have htip := (hcurrent ev.id).2 (mem_tips_inserted (h.dag ha.known) rfl ha.admitted)
      exact ha.admitted.2.1 (h.tips ha.known ev.id htip)
  · refine iff_of_true ?_ ?_
    · intro r room hl
      rw [hsame] at hl
      exact hp r room hl
    · rintro ⟨room, _, ha, _, _⟩
      exact hno room ha

theorem wellFormed_run (evs : List SignedEvent) : (Runs.run apply RoomRegistry.new evs).WellFormed :=
  Runs.run_invariant (fun _ ev h => h.applyEvent ev) evs wellFormed_new

/-- The run of an event that founds a room and one that attaches to it. -/
theorem run_pair {first : SignedEvent} {payload : CreateRoomPayload}
    (hf : Founds RoomRegistry.new first payload)
    (ha : Attaches (RoomRegistry.new.setRoom first.roomId (founded first payload)) ev
      (founded first payload)) :
    Runs.run apply RoomRegistry.new [first, ev] =
      (RoomRegistry.new.setRoom first.roomId (founded first payload)).setRoom ev.roomId
        (attach (founded first payload) ev).2 := by
  have hfirst : RoomRegistry.new.apply first =
      RoomRegistry.new.setRoom first.roomId (founded first payload) :=
    congrArg Prod.snd (applyEvent_founds wellFormed_new hf)
  have hwf : (RoomRegistry.new.setRoom first.roomId (founded first payload)).WellFormed := by
    rw [← hfirst]
    exact wellFormed_new.applyEvent first
  calc
    Runs.run apply RoomRegistry.new [first, ev]
        = (RoomRegistry.new.apply first).apply ev := rfl
    _ = (RoomRegistry.new.setRoom first.roomId (founded first payload)).apply ev := by rw [hfirst]
    _ = (RoomRegistry.new.setRoom first.roomId (founded first payload)).setRoom ev.roomId
          (attach (founded first payload) ev).2 := congrArg Prod.snd (applyEvent_attaches hwf ha)

/-- In every registry that a run has built, the failure of a call leaves every room as it was exactly when
the event of the call is not barred; and in every state of the run the stored tips are those of the DAGs
exactly when no event of the run was. -/
theorem applyEvent_atomic_iff (evs : List SignedEvent) :
    (∀ ev, Atomic (Runs.run apply RoomRegistry.new evs) ev ↔
      ¬ Barred (Runs.run apply RoomRegistry.new evs) ev) ∧
    (Runs.Always apply TipsCurrent RoomRegistry.new evs ↔
      Runs.Along apply (fun reg ev => ¬ Barred reg ev) RoomRegistry.new evs) := by
  refine ⟨fun ev => atomic_iff (wellFormed_run evs) ev, ?_⟩
  refine Runs.always_iff_along_of_inv (fun reg ev h => h.applyEvent ev)
    (fun reg ev h hp => tipsCurrent_apply_iff h ev hp) evs wellFormed_new ?_
  intro r room h
  cases h

end Refusal

/-! ## A banned device joins -/

section Example

open Checksum

attribute [local instance] Checksum.primitives createReader membershipReader

/-- The creator bans device 2, which is not in the room. -/
def expel : SignedEvent :=
  event 1 (room 1) [createPond.id] .membership (toVec expulsion) 2

/-- The room with device 2 banned, before that device joins. -/
def expelled : RoomState :=
  (attach (founded createPond pond) expel).2

theorem read_payloads :
    (Deserialize.fromSlice createPond.payload : Option CreateRoomPayload) = some pond ∧
      (Deserialize.fromSlice expel.payload : Option MembershipPayload) = some expulsion ∧
      (Deserialize.fromSlice intrude.payload : Option MembershipPayload) = some intrusion := by
  decide +kernel

theorem pond_ids : expel.id ≠ createPond.id ∧ intrude.id ≠ createPond.id ∧ intrude.id ≠ expel.id := by
  decide +kernel

theorem founds_createPond : Founds RoomRegistry.new createPond pond :=
  ⟨event_verified _ _ _ _ _ _, rfl, read_payloads.1, rfl, rfl⟩

theorem attaches_expel :
    Attaches (RoomRegistry.new.setRoom createPond.roomId (founded createPond pond)) expel
      (founded createPond pond) := by
  refine ⟨event_verified _ _ _ _ _ _, ?_, ⟨_, read_payloads.2.1⟩, ?_, ?_, ?_⟩
  · exact (get_setRoom _ _ _ _).trans (if_pos rfl)
  · intro rid hrid
    exact (Option.some.inj hrid).symm
  · intro hin
    rcases (AList.mem_insert _).1 hin with heq | hin
    · exact pond_ids.1 heq
    · exact AList.notMem_empty _ hin
  · intro p hp
    exact (AList.mem_insert _).2 (Or.inl (List.mem_singleton.1 hp))

theorem barred_intrude : Barred (Runs.run apply RoomRegistry.new [createPond, expel]) intrude := by
  have hattach : attach (founded createPond pond) expel =
      (.ok true,
        { founded createPond pond with
          dag := (founded createPond pond).dag.inserted expel
          members := (founded createPond pond).members.insert (device 2) .banned
          tips := ((founded createPond pond).dag.inserted expel).tips }) := by
    have hpay : payloadOf expel = some expulsion := read_payloads.2.1
    simp only [attach, hpay]
    rfl
  have hexpelled : expelled =
      { founded createPond pond with
        dag := (founded createPond pond).dag.inserted expel
        members := (founded createPond pond).members.insert (device 2) .banned
        tips := ((founded createPond pond).dag.inserted expel).tips } := congrArg Prod.snd hattach
  refine ⟨expelled, intrusion, ⟨event_verified _ _ _ _ _ _, ?_, ⟨_, read_payloads.2.2⟩, ?_, ?_, ?_⟩,
    read_payloads.2.2, Or.inr rfl, ?_⟩
  · rw [run_pair founds_createPond attaches_expel]
    exact (get_setRoom _ _ _ _).trans (if_pos rfl)
  · intro rid hrid
    rw [hexpelled] at hrid
    exact (Option.some.inj hrid).symm
  · rw [hexpelled]
    intro hin
    rcases (AList.mem_insert _).1 hin with heq | hin
    · exact pond_ids.2.2 heq
    · rcases (AList.mem_insert _).1 hin with heq | hin
      · exact pond_ids.2.1 heq
      · exact AList.notMem_empty _ hin
  · rw [hexpelled]
    intro p hp
    exact (AList.mem_insert _).2 (Or.inr ((AList.mem_insert _).2 (Or.inl (List.mem_singleton.1 hp))))
  · rw [hexpelled]
    exact AList.lookup_insert _

/-- Device 2, banned, joins: the call fails, and the event is in the DAG. -/
theorem apply_barred_not_atomic :
    ¬ ∀ (evs : List SignedEvent) (ev : SignedEvent),
      Atomic (Runs.run apply RoomRegistry.new evs) ev ∧
        Runs.Always apply TipsCurrent RoomRegistry.new (evs ++ [ev]) := by
  intro h
  have hatomic := (h [createPond, expel] intrude).1
  exact (atomic_iff (wellFormed_run _) intrude).1 hatomic barred_intrude

end Example

end RoomRegistry
end Event
end Thunderducks
