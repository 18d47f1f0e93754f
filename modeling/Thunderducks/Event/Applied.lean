import Thunderducks.Event.Arrival

/-!
# Applied — what one `apply_event` does to a registry

A registry that `apply_event` has built is `WellFormed`: every room has a well-formed DAG and its
stored tips are events of it.  From such a registry an event founds its room (`Founds`), enters the DAG of
a room that is there (`Attaches`), or leaves every room as it was; `applyEvent_cases` says which.
-/

namespace Thunderducks
namespace Event
namespace RoomRegistry

open Lib

/-! ## Well-formed registries -/

structure WellFormed (reg : RoomRegistry) : Prop where
  dag : ∀ {r room}, reg.get r = some room → room.dag.WellFormed r
  tips : ∀ {r room}, reg.get r = some room → ∀ t ∈ room.tips, t ∈ room.dag.events

/-- Put a room in its place. -/
def setRoom (reg : RoomRegistry) (r : RoomId) (room : RoomState) : RoomRegistry :=
  { reg with rooms := reg.rooms.insert r room }

theorem get_setRoom (reg : RoomRegistry) (r r' : RoomId) (room : RoomState) :
    (reg.setRoom r room).get r' = if r' = r then some room else reg.get r' :=
  HashMap.lookup_insert_eq

theorem wellFormed_new : RoomRegistry.new.WellFormed := by
  refine ⟨?_, ?_⟩
  · intro r room h
    cases h
  · intro r room h
    cases h

theorem WellFormed.setRoom {reg : RoomRegistry} (h : reg.WellFormed) {r : RoomId} {room : RoomState}
    (hdag : room.dag.WellFormed r) (htips : ∀ t ∈ room.tips, t ∈ room.dag.events) :
    (reg.setRoom r room).WellFormed := by
  refine ⟨?_, ?_⟩
  · intro r' room' hl
    rw [get_setRoom] at hl
    split at hl
    next heq =>
      cases hl
      rw [heq]
      exact hdag
    · exact h.dag hl
  · intro r' room' hl
    rw [get_setRoom] at hl
    split at hl
    · cases hl
      exact htips
    · exact h.tips hl

theorem mem_events_of_mem_tips {dag : RoomDag} {i : EventId} (h : i ∈ dag.tips) :
    i ∈ dag.events :=
  AList.mem_keys.2 (List.mem_filter.1 h).1

section Apply

variable [Primitives] [Deserialize CreateRoomPayload] [Deserialize MembershipPayload]
variable {reg : RoomRegistry} {ev : SignedEvent} {room : RoomState}

/-! ## The two ways in -/

omit [Deserialize MembershipPayload] in
/-- A `CreateRoom` event that makes its room. -/
structure Founds (reg : RoomRegistry) (ev : SignedEvent) (payload : CreateRoomPayload) : Prop where
  verified : Verified ev
  kind : ev.kind = .createRoom
  decoded : Deserialize.fromSlice ev.payload = some payload
  unknown : reg.get ev.roomId = none
  root : ev.parents = []

omit [Primitives] in
/-- The payload of a `CreateRoom` or `Membership` event can be read. -/
def Readable (ev : SignedEvent) : Prop :=
  (ev.kind = .createRoom → ∃ payload : CreateRoomPayload, Deserialize.fromSlice ev.payload = some payload) ∧
    (ev.kind = .membership → ∃ payload : MembershipPayload, Deserialize.fromSlice ev.payload = some payload)

omit [Primitives] in
theorem readable_of_create {payload : CreateRoomPayload} (hk : ev.kind = .createRoom)
    (hdec : Deserialize.fromSlice ev.payload = some payload) : Readable ev := by
  refine ⟨fun _ => ⟨payload, hdec⟩, fun hm => ?_⟩
  rw [hk] at hm
  cases hm

omit [Primitives] in
/-- What `apply_event` asks of an event of this kind before it shows it to the DAG. -/
def Eligible (room : RoomState) (ev : SignedEvent) : Prop :=
  match ev.kind with
  | .createRoom => ∃ payload : CreateRoomPayload, Deserialize.fromSlice ev.payload = some payload
  | .membership => ∃ payload : MembershipPayload, Deserialize.fromSlice ev.payload = some payload
  | _ => room.isJoined ev.authorDevice = true

omit [Primitives] in
theorem Eligible.readable (h : Eligible room ev) : Readable ev := by
  refine ⟨fun hc => ?_, fun hm => ?_⟩
  · simpa [Eligible, hc] using h
  · simpa [Eligible, hm] using h

omit [Primitives] in
/-- Being read is all that is asked of a `CreateRoom` or `Membership` event. -/
theorem Readable.eligible (h : Readable ev) (hk : ev.kind = .createRoom ∨ ev.kind = .membership) :
    Eligible room ev := by
  rcases hk with hk | hk
  · simpa [Eligible, hk] using h.1 hk
  · simpa [Eligible, hk] using h.2 hk

omit [Primitives] in
/-- An event of another kind needs an author who is in. -/
theorem eligible_other (hc : ev.kind ≠ .createRoom) (hm : ev.kind ≠ .membership) :
    Eligible room ev ↔ room.memberState ev.authorDevice = some .joined := by
  cases hk : ev.kind <;> simp_all [Eligible, RoomState.isJoined]

/-- An event that enters the DAG of a room the registry knows. -/
structure Attaches (reg : RoomRegistry) (ev : SignedEvent) (room : RoomState) : Prop where
  verified : Verified ev
  known : reg.get ev.roomId = some room
  eligible : Eligible room ev
  admitted : room.dag.Admits ev

omit [Primitives] [Deserialize CreateRoomPayload] [Deserialize MembershipPayload] in
/-- The room a `CreateRoom` event makes. -/
def founded (ev : SignedEvent) (payload : CreateRoomPayload) : RoomState :=
  let dag := (RoomDag.new ev.roomId).inserted ev
  { roomId := ev.roomId
    name := payload.name
    creator := payload.creator
    members := (∅ : HashMap DeviceId MemberState).insert payload.creator .joined
    dag := dag
    tips := dag.tips }

omit [Primitives] [Deserialize CreateRoomPayload] in
/-- The room with the event in its DAG.  A refused action leaves the members and the tips. -/
def attach (room : RoomState) (ev : SignedEvent) : Except RoomError Bool × RoomState :=
  let dag := room.dag.inserted ev
  match payloadOf ev with
  | none => (.ok true, { room with dag := dag, tips := dag.tips })
  | some payload =>
      match fold payload.action room.members payload.target with
      | .error e => (.error e, { room with dag := dag })
      | .ok members => (.ok true, { room with dag := dag, members := members, tips := dag.tips })

/-! ## What attaching keeps -/

omit [Primitives] [Deserialize CreateRoomPayload] in
/-- The action is taken or there is none, or it is refused. -/
theorem attach_cases (room : RoomState) (ev : SignedEvent) :
    (∃ members, attach room ev =
      (.ok true,
        { room with
          dag := room.dag.inserted ev
          members := members
          tips := (room.dag.inserted ev).tips })) ∨
    ∃ e, attach room ev = (.error e, { room with dag := room.dag.inserted ev }) := by
  unfold attach
  cases payloadOf ev with
  | none => exact Or.inl ⟨room.members, rfl⟩
  | some payload =>
      dsimp only
      cases fold payload.action room.members payload.target with
      | error e => exact Or.inr ⟨e, rfl⟩
      | ok members => exact Or.inl ⟨members, rfl⟩

omit [Primitives] [Deserialize CreateRoomPayload] in
/-- Whatever becomes of the action, the event is in the DAG and the room keeps its name and creator. -/
theorem attach_frame (room : RoomState) (ev : SignedEvent) :
    (attach room ev).2.dag = room.dag.inserted ev ∧ (attach room ev).2.name = room.name ∧
      (attach room ev).2.creator = room.creator := by
  rcases attach_cases room ev with ⟨members, heq⟩ | ⟨e, heq⟩
  · rw [heq]
    exact ⟨rfl, rfl, rfl⟩
  · rw [heq]
    exact ⟨rfl, rfl, rfl⟩

omit [Primitives] [Deserialize CreateRoomPayload] in
@[simp] theorem attach_dag (room : RoomState) (ev : SignedEvent) :
    (attach room ev).2.dag = room.dag.inserted ev :=
  (attach_frame room ev).1

omit [Primitives] [Deserialize CreateRoomPayload] in
@[simp] theorem attach_name (room : RoomState) (ev : SignedEvent) :
    (attach room ev).2.name = room.name :=
  (attach_frame room ev).2.1

omit [Primitives] [Deserialize CreateRoomPayload] in
@[simp] theorem attach_creator (room : RoomState) (ev : SignedEvent) :
    (attach room ev).2.creator = room.creator :=
  (attach_frame room ev).2.2

omit [Primitives] [Deserialize CreateRoomPayload] in
/-- The stored tips are those of the new DAG, or the old ones. -/
theorem attach_tips (room : RoomState) (ev : SignedEvent) :
    (attach room ev).2.tips = (room.dag.inserted ev).tips ∨ (attach room ev).2.tips = room.tips := by
  rcases attach_cases room ev with ⟨members, heq⟩ | ⟨e, heq⟩
  · rw [heq]
    exact Or.inl rfl
  · rw [heq]
    exact Or.inr rfl

/-! ## The case analysis -/

omit [Deserialize CreateRoomPayload] [Deserialize MembershipPayload] in
/-- A well-formed DAG takes the event, or is left as it was. -/
theorem ingest_wellFormed {r : RoomId} {dag : RoomDag} (h : dag.WellFormed r) (hv : Verified ev) :
    (dag.Admits ev ∧ dag.ingest ev = (.ok true, dag.inserted ev)) ∨
    (¬ dag.Admits ev ∧ ((∃ e, dag.ingest ev = (.error e, dag)) ∨ dag.ingest ev = (.ok false, dag))) := by
  rcases @RoomDag.ingest_cases _ dag ev r h.ofRoom with ⟨e, hbad, _⟩ | ⟨_, hne, heq⟩ |
    ⟨_, _, hmem, heq⟩ | ⟨_, _, _, q, hq, hno, heq⟩ | ⟨_, hroom, hnew, hp, heq⟩
  · rw [show verifyEvent ev = .ok () from hv] at hbad
    cases hbad
  · refine Or.inr ⟨?_, Or.inl ⟨_, heq⟩⟩
    rintro ⟨hr, _⟩
    exact hne (hr r h.ofRoom).symm
  · exact Or.inr ⟨fun ha => ha.2.1 hmem, Or.inr heq⟩
  · exact Or.inr ⟨fun ha => hno (ha.2.2 q hq), Or.inl ⟨_, heq⟩⟩
  · refine Or.inl ⟨⟨?_, hnew, hp⟩, heq⟩
    intro rid hrid
    rw [h.ofRoom] at hrid
    rw [← Option.some.inj hrid, hroom]

/-- Every room is what it was. -/
def SameRooms (reg reg' : RoomRegistry) : Prop :=
  ∀ r, reg'.get r = reg.get r

omit [Primitives] [Deserialize CreateRoomPayload] [Deserialize MembershipPayload] in
theorem sameRooms_setRoom (h : reg.get ev.roomId = some room) :
    SameRooms reg (reg.setRoom ev.roomId room) := by
  intro r
  rw [get_setRoom]
  split
  next heq => rw [heq, h]
  · rfl

/-- The event founds its room, enters the DAG of a known one, or is no new event for any room. -/
def Effect (reg : RoomRegistry) (ev : SignedEvent) (res : Except RoomError Bool)
    (reg' : RoomRegistry) : Prop :=
  (∃ payload, Founds reg ev payload ∧ res = .ok true ∧
    reg' = reg.setRoom ev.roomId (founded ev payload)) ∨
  (∃ room, Attaches reg ev room ∧ res = (attach room ev).1 ∧
    reg' = reg.setRoom ev.roomId (attach room ev).2) ∨
  ((∀ payload, ¬ Founds reg ev payload) ∧ (∀ room, ¬ Attaches reg ev room) ∧ res ≠ .ok true ∧
    SameRooms reg reg')

/-- An event that finds no room and makes none. -/
theorem Effect.none_known {res : Except RoomError Bool} (hknown : reg.get ev.roomId = none)
    (hfounds : ∀ payload, ¬ Founds reg ev payload) (hres : res ≠ .ok true) :
    Effect reg ev res reg := by
  refine Or.inr (Or.inr ⟨hfounds, ?_, hres, fun _ => rfl⟩)
  intro room ha
  have hsome := ha.known
  rw [hknown] at hsome
  cases hsome

/-- An event that does not pass the checks of its room. -/
theorem Effect.ineligible {res : Except RoomError Bool} (hroom : reg.get ev.roomId = some room)
    (hno : ¬ (Eligible room ev ∧ room.dag.Admits ev)) (hres : res ≠ .ok true) {reg' : RoomRegistry}
    (hsame : SameRooms reg reg') : Effect reg ev res reg' := by
  refine Or.inr (Or.inr ⟨?_, ?_, hres, hsame⟩)
  · intro payload hf
    have hnone := hf.unknown
    rw [hroom] at hnone
    cases hnone
  · intro room' ha
    have hsome := ha.known
    rw [hroom] at hsome
    cases hsome
    exact hno ⟨ha.eligible, ha.admitted⟩

/-- An event that the DAG of its room does not take. -/
theorem Effect.refused (hroom : reg.get ev.roomId = some room) (hno : ¬ room.dag.Admits ev)
    {out : Except RoomError Bool × RoomRegistry}
    (hout : (∃ e, out = (.error e, reg.setRoom ev.roomId room)) ∨
      out = (.ok false, reg.setRoom ev.roomId room)) : Effect reg ev out.1 out.2 := by
  have hboth : ¬ (Eligible room ev ∧ room.dag.Admits ev) := fun h => hno h.2
  rcases hout with ⟨e, rfl⟩ | rfl
  · exact Effect.ineligible hroom hboth (by simp) (sameRooms_setRoom hroom)
  · exact Effect.ineligible hroom hboth (by simp) (sameRooms_setRoom hroom)

theorem effect_unverified (hv : ¬ Verified ev) : Effect reg ev (reg.applyEvent ev).1
    (reg.applyEvent ev).2 := by
  have heq : ∃ e, reg.applyEvent ev = (.error (.event e), reg) := by
    cases hver : verifyEvent ev with
    | ok u => exact absurd hver hv
    | error e => exact ⟨e, by simp [applyEvent, hver]⟩
  rcases heq with ⟨e, heq⟩
  rw [heq]
  exact Or.inr (Or.inr ⟨fun _ hf => hv hf.verified, fun _ ha => hv ha.verified, by simp,
    fun _ => rfl⟩)

theorem effect_create (h : reg.WellFormed) (hv : Verified ev) (hk : ev.kind = .createRoom) :
    Effect reg ev (reg.applyEvent ev).1 (reg.applyEvent ev).2 := by
  rw [applyEvent_create hv hk]
  cases hroom : reg.get ev.roomId with
  | none =>
      have hroom' : reg.rooms.lookup ev.roomId = none := hroom
      cases hdec : (Deserialize.fromSlice ev.payload : Option CreateRoomPayload) with
      | none =>
          have heq : reg.applyCreate ev = (.error .serde, reg) := by
            simp [applyCreate, hdec]
          rw [heq]
          refine Effect.none_known hroom (fun payload hf => ?_) (by simp)
          have hsome := hf.decoded
          rw [hdec] at hsome
          cases hsome
      | some payload =>
          rcases ingest_wellFormed (RoomDag.wellFormed_new ev.roomId) hv with
            ⟨hadm, hing⟩ | ⟨hno, hing⟩
          · have hroot : ev.parents = [] := by
              refine List.eq_nil_iff_forall_not_mem.2 fun p hp => ?_
              exact AList.notMem_empty p (hadm.2.2 p hp)
            refine Or.inl ⟨payload, ⟨hv, hk, hdec, hroom, hroot⟩, ?_, ?_⟩
            · simp [applyCreate, hdec, hroom', hing]
            · simp [applyCreate, hdec, hroom', hing, setRoom, founded]
          · -- only a parent can keep an event out of an empty DAG
            have hparents : ev.parents ≠ [] := by
              intro hnil
              refine hno ⟨?_, AList.notMem_empty _, by simp [hnil]⟩
              intro rid hrid
              exact (Option.some.inj hrid).symm
            have hfounds : ∀ payload, ¬ Founds reg ev payload := fun _ hf => hparents hf.root
            rcases List.exists_mem_of_ne_nil _ hparents with ⟨p, hp⟩
            rcases @RoomDag.ingest_missing _ (RoomDag.new ev.roomId) ev p hv rfl
              (AList.notMem_empty _) hp (AList.notMem_empty _) with ⟨q, _, _, hing'⟩
            have heq : reg.applyCreate ev = (.error (.dag (.missingParent q)), reg) := by
              simp [applyCreate, hdec, hroom', hing']
            rw [heq]
            exact Effect.none_known hroom hfounds (by simp)
  | some room =>
      -- the room is known: the event is one more of its events
      have hroom' : reg.rooms.lookup ev.roomId = some room := hroom
      cases hdec : (Deserialize.fromSlice ev.payload : Option CreateRoomPayload) with
      | none =>
          have heq : reg.applyCreate ev = (.error .serde, reg) := by
            simp [applyCreate, hdec]
          rw [heq]
          refine Effect.ineligible hroom ?_ (by simp) (fun _ => rfl)
          rintro ⟨hel, _⟩
          simp [Eligible, hk, hdec] at hel
      | some payload =>
          have hel : Eligible room ev := by
            simp [Eligible, hk, hdec]
          have hpay : payloadOf ev = none := by
            simp [payloadOf, hk]
          rcases ingest_wellFormed (h.dag hroom) hv with ⟨hadm, hing⟩ | ⟨hno, hing⟩
          · refine Or.inr (Or.inl ⟨room, ⟨hv, hroom, hel, hadm⟩, ?_, ?_⟩)
            · simp [applyCreate, hdec, hroom', hing, attach, hpay]
            · simp [applyCreate, hdec, hroom', hing, attach, hpay, setRoom]
          · apply Effect.refused hroom hno
            rcases hing with ⟨e, hing⟩ | hing
            · exact Or.inl ⟨.dag e, by simp [applyCreate, hdec, hroom', hing, setRoom]⟩
            · exact Or.inr (by simp [applyCreate, hdec, hroom', hing, setRoom])

theorem effect_membership (h : reg.WellFormed) (hv : Verified ev) (hk : ev.kind = .membership) :
    Effect reg ev (reg.applyEvent ev).1 (reg.applyEvent ev).2 := by
  rw [applyEvent_membership hv hk]
  have hfounds : ∀ payload, ¬ Founds reg ev payload := by
    intro payload hf
    have hkind := hf.kind
    rw [hk] at hkind
    cases hkind
  cases hroom : reg.get ev.roomId with
  | none =>
      have hroom' : reg.rooms.lookup ev.roomId = none := hroom
      have heq : ∃ e, reg.applyMembership ev = (.error e, reg) := by
        unfold applyMembership
        rw [hroom']
        split
        · exact ⟨_, rfl⟩
        · exact ⟨_, rfl⟩
      rcases heq with ⟨e, heq⟩
      rw [heq]
      exact Effect.none_known hroom hfounds (by simp)
  | some room =>
      have hroom' : reg.rooms.lookup ev.roomId = some room := hroom
      cases hdec : (Deserialize.fromSlice ev.payload : Option MembershipPayload) with
      | none =>
          have heq : reg.applyMembership ev = (.error .serde, reg) := by
            simp [applyMembership, hdec]
          rw [heq]
          refine Effect.ineligible hroom ?_ (by simp) (fun _ => rfl)
          rintro ⟨hel, _⟩
          simp [Eligible, hk, hdec] at hel
      | some payload =>
          have hel : Eligible room ev := by
            simp [Eligible, hk, hdec]
          have hpay : payloadOf ev = some payload := by
            simp [payloadOf, hk, hdec]
          rcases ingest_wellFormed (h.dag hroom) hv with ⟨hadm, hing⟩ | ⟨hno, hing⟩
          -- admitted: the room is stored whether the fold refuses or not
          · have heq : reg.applyMembership ev =
                ((attach room ev).1, reg.setRoom ev.roomId (attach room ev).2) := by
              cases hfold : fold payload.action room.members payload.target with
              | error e => simp [applyMembership, hdec, hroom', hing, attach, hpay, hfold, setRoom]
              | ok members => simp [applyMembership, hdec, hroom', hing, attach, hpay, hfold, setRoom]
            rw [heq]
            exact Or.inr (Or.inl ⟨room, ⟨hv, hroom, hel, hadm⟩, rfl, rfl⟩)
          · apply Effect.refused hroom hno
            rcases hing with ⟨e, hing⟩ | hing
            · exact Or.inl ⟨.dag e, by simp [applyMembership, hdec, hroom', hing, setRoom]⟩
            · exact Or.inr (by simp [applyMembership, hdec, hroom', hing, setRoom])

theorem effect_other (h : reg.WellFormed) (hv : Verified ev) (hc : ev.kind ≠ .createRoom)
    (hm : ev.kind ≠ .membership) :
    Effect reg ev (reg.applyEvent ev).1 (reg.applyEvent ev).2 := by
  rw [applyEvent_other hv hc hm]
  have hfounds : ∀ payload, ¬ Founds reg ev payload := fun _ hf => hc hf.kind
  cases hroom : reg.get ev.roomId with
  | none =>
      have hroom' : reg.rooms.lookup ev.roomId = none := hroom
      have heq : reg.applyOther ev = (.error .unknownRoom, reg) := by
        simp [applyOther, hroom']
      rw [heq]
      exact Effect.none_known hroom hfounds (by simp)
  | some room =>
      have hroom' : reg.rooms.lookup ev.roomId = some room := hroom
      have hel : Eligible room ev ↔ room.isJoined ev.authorDevice = true := by
        cases hk : ev.kind <;> simp_all [Eligible]
      have hpay : payloadOf ev = none := by
        simp [payloadOf, hm]
      cases hj : room.isJoined ev.authorDevice with
      -- the author is no member
      | false =>
          have heq : reg.applyOther ev = (.error (.notMember ev.authorDevice), reg) := by
            simp [applyOther, hroom', hj]
          rw [heq]
          refine Effect.ineligible hroom ?_ (by simp) (fun _ => rfl)
          rintro ⟨hyes, _⟩
          rw [hel, hj] at hyes
          cases hyes
      | true =>
          rcases ingest_wellFormed (h.dag hroom) hv with ⟨hadm, hing⟩ | ⟨hno, hing⟩
          · refine Or.inr (Or.inl ⟨room, ⟨hv, hroom, hel.2 hj, hadm⟩, ?_, ?_⟩)
            · simp [applyOther, hroom', hj, hing, attach, hpay]
            · simp [applyOther, hroom', hj, hing, attach, hpay, setRoom]
          · apply Effect.refused hroom hno
            rcases hing with ⟨e, hing⟩ | hing
            · exact Or.inl ⟨.dag e, by simp [applyOther, hroom', hj, hing, setRoom]⟩
            · exact Or.inr (by simp [applyOther, hroom', hj, hing, setRoom])

/-- What `apply_event` does to a well-formed registry, for every event. -/
theorem applyEvent_effect (h : reg.WellFormed) (ev : SignedEvent) :
    Effect reg ev (reg.applyEvent ev).1 (reg.applyEvent ev).2 := by
  by_cases hv : Verified ev
  · by_cases hc : ev.kind = .createRoom
    · exact effect_create h hv hc
    · by_cases hm : ev.kind = .membership
      · exact effect_membership h hv hm
      · exact effect_other h hv hc hm
  · exact effect_unverified hv

theorem applyEvent_founds (h : reg.WellFormed) {payload : CreateRoomPayload} (hf : Founds reg ev payload) :
    reg.applyEvent ev = (.ok true, reg.setRoom ev.roomId (founded ev payload)) := by
  rcases applyEvent_effect h ev with ⟨payload', hf', hres, heq⟩ | ⟨room, ha, _, _⟩ | ⟨hno, _, _, _⟩
  · have hpay : payload' = payload := Option.some.inj (hf'.decoded.symm.trans hf.decoded)
    rw [hpay] at heq
    exact Prod.ext hres heq
  · have hknown := ha.known
    rw [hf.unknown] at hknown
    cases hknown
  · exact absurd hf (hno payload)

theorem applyEvent_attaches (h : reg.WellFormed) (ha : Attaches reg ev room) :
    reg.applyEvent ev = ((attach room ev).1, reg.setRoom ev.roomId (attach room ev).2) := by
  rcases applyEvent_effect h ev with ⟨payload, hf, _, _⟩ | ⟨room', ha', hres, heq⟩ | ⟨_, hno, _, _⟩
  · have hknown := ha.known
    rw [hf.unknown] at hknown
    cases hknown
  · have hroom : room' = room := Option.some.inj (ha'.known.symm.trans ha.known)
    rw [hroom] at hres heq
    exact Prod.ext hres heq
  · exact absurd ha (hno room)

/-! ## Whole runs stay well formed -/

theorem WellFormed.applyEvent (h : reg.WellFormed) (ev : SignedEvent) :
    (reg.applyEvent ev).2.WellFormed := by
  rcases applyEvent_effect h ev with ⟨payload, hf, _, heq⟩ | ⟨room, ha, _, heq⟩ | ⟨_, _, _, hsame⟩
  · rw [heq]
    refine h.setRoom ?_ (fun t ht => mem_events_of_mem_tips ht)
    exact (RoomDag.wellFormed_new ev.roomId).inserted rfl (AList.notMem_empty _) (by simp [hf.root])
  · rw [heq]
    refine h.setRoom ?_ ?_
    · rw [attach_dag]
      exact (h.dag ha.known).inserted rfl ha.admitted.2.1 ha.admitted.2.2
    · intro t ht
      rw [attach_dag]
      rcases attach_tips room ev with hnew | hold
      · rw [hnew] at ht
        exact mem_events_of_mem_tips ht
      · rw [hold] at ht
        exact (AList.mem_insert _).2 (Or.inr (h.tips ha.known t ht))
  · refine ⟨?_, ?_⟩
    · intro r room hl
      rw [hsame] at hl
      exact h.dag hl
    · intro r room hl
      rw [hsame] at hl
      exact h.tips hl

end Apply

end RoomRegistry
end Event
end Thunderducks
