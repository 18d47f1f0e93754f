import Thunderducks.Lib.Causal
import Thunderducks.Event.MemberFold

/-!
# Arrival — membership and the order in which events arrive

`apply_event` folds each event as it comes.  Parent links order some of the events of a room and leave
others concurrent, and a registry may see the concurrent ones in any order.  `Folded` follows the registry
through a causal order, given which events enter its DAG: what is left is the fold over the actions on each
device.
-/

namespace Thunderducks
namespace Event
namespace RoomRegistry

open Lib Extension

section Arrival

variable [Primitives] [Deserialize CreateRoomPayload] [Deserialize MembershipPayload]

/-- Apply events one by one; an error is skipped. -/
def applyAll (reg : RoomRegistry) (evs : List SignedEvent) : RoomRegistry :=
  evs.foldl (fun reg ev => (reg.applyEvent ev).2) reg

/-! ## The events of one room and their orders -/

omit [Deserialize CreateRoomPayload] [Deserialize MembershipPayload] in
/-- Verified events of one room, with one `CreateRoom` among them. -/
structure RoomEvents (roomId : RoomId) (evs : List SignedEvent) (create : SignedEvent) : Prop where
  nodup : evs.Nodup
  verified : ∀ e ∈ evs, Verified e
  inRoom : ∀ e ∈ evs, e.roomId = roomId
  ids : IdsIdentify {e | e ∈ evs}
  create_mem : create ∈ evs
  create_kind : create.kind = .createRoom
  create_one : ∀ e ∈ evs, e.kind = .createRoom → e = create

/-- An order of `evs` in which each event comes after all its parents. -/
structure CausalOrder (evs l : List SignedEvent) : Prop where
  perm : l.Perm evs
  parentsFirst : ∀ x ∈ evs, ∀ y ∈ evs, y.id ∈ x.parents → l.idxOf y < l.idxOf x

/-- The member states do not depend on the order of arrival. -/
def ArrivalIndependent (roomId : RoomId) (evs : List SignedEvent) : Prop :=
  ∀ l l', CausalOrder evs l → CausalOrder evs l' → ∀ d,
    (RoomRegistry.new.applyAll l).memberState roomId d =
      (RoomRegistry.new.applyAll l').memberState roomId d

/-- `x` is an ancestor of `y` through the events of `evs`. -/
def Before (evs : List SignedEvent) (x y : SignedEvent) : Prop :=
  Causal.Ancestor SignedEvent.id SignedEvent.parents {e | e ∈ evs} y.id x.id

section Order

variable {evs l : List SignedEvent} {x y z : SignedEvent}

omit [Primitives] [Deserialize CreateRoomPayload] [Deserialize MembershipPayload]

theorem Before.trans (h₁ : Before evs x y) (h₂ : Before evs y z) : Before evs x z :=
  Relation.TransGen.trans h₂ h₁

theorem Before.parent (hx : x ∈ evs) (hp : y.id ∈ x.parents) : Before evs y x :=
  Relation.TransGen.single ⟨x, hx, rfl, hp⟩

/-- Ancestors stand before their descendants. -/
theorem CausalOrder.idxOf_lt (h : CausalOrder evs l) (hids : IdsIdentify {e | e ∈ evs})
    (hx : x ∈ evs) (hy : y ∈ evs) (hr : Before evs x y) : l.idxOf x < l.idxOf y := by
  have key : ∀ {i p}, Causal.Ancestor SignedEvent.id SignedEvent.parents {e | e ∈ evs} i p →
      ∀ y ∈ evs, y.id = i → ∀ x ∈ evs, x.id = p → l.idxOf x < l.idxOf y := by
    intro i p ha
    induction ha with
    | single hstep =>
        rintro y hy rfl x hx rfl
        rcases hstep with ⟨z, hz, hid, hp⟩
        have hEq : z = y := hids z hz y hy hid
        subst hEq
        exact h.parentsFirst z hz x hx hp
    | tail _ hstep ih =>
        rintro y hy rfl x hx rfl
        rcases hstep with ⟨z, hz, rfl, hp⟩
        exact (h.parentsFirst z hz x hx hp).trans (ih y hy rfl z hz rfl)
  exact key hr y hy rfl x hx rfl

theorem CausalOrder.irrefl (h : CausalOrder evs l) (hids : IdsIdentify {e | e ∈ evs})
    (x : SignedEvent) : ¬ Before evs x x := by
  intro hr
  -- a cycle passes through an event of the set with this id
  have hmem : ∃ z ∈ evs, z.id = x.id := by
    rcases Relation.TransGen.head'_iff.1 hr with ⟨_, ⟨z, hz, hid, _⟩, _⟩
    exact ⟨z, hz, hid⟩
  rcases hmem with ⟨z, hz, hid⟩
  have hrz : Before evs z z := by
    unfold Before
    rw [hid]
    exact hr
  exact Nat.lt_irrefl _ (h.idxOf_lt hids hz hz hrz)

/-- An order that respects the parent links is causal. -/
theorem CausalOrder.of_respects (hperm : l.Perm evs) (hself : ∀ x ∈ evs, x.id ∉ x.parents)
    (hresp : Respects (fun y x => y.id ∈ x.parents) l) : CausalOrder evs l := by
  refine ⟨hperm, ?_⟩
  intro x hx y hy hp
  have hne : y ≠ x := by
    rintro rfl
    exact hself y hy hp
  exact hresp.idxOf_lt (hperm.mem_iff.2 hy) (hperm.mem_iff.2 hx) hne hp

theorem CausalOrder.respects (h : CausalOrder evs l) (hnd : evs.Nodup)
    (hids : IdsIdentify {e | e ∈ evs}) : Respects (Before evs) l := by
  refine Respects.of_idxOf (h.perm.nodup_iff.2 hnd) ?_
  intro x hx y hy hr
  exact h.idxOf_lt hids (h.perm.mem_iff.1 hx) (h.perm.mem_iff.1 hy) hr

end Order

/-! ## What an event says of a member -/

omit [Primitives] [Deserialize CreateRoomPayload] in
/-- The payload of a membership event, if it can be read. -/
def payloadOf (ev : SignedEvent) : Option MembershipPayload :=
  if ev.kind = .membership then Deserialize.fromSlice ev.payload else none

omit [Primitives] [Deserialize CreateRoomPayload] in
def Targets (ev : SignedEvent) (d : DeviceId) : Prop :=
  ∃ payload, payloadOf ev = some payload ∧ payload.target = d

omit [Primitives] [Deserialize CreateRoomPayload] in
def actionOf (ev : SignedEvent) : MembershipAction :=
  ((payloadOf ev).map MembershipPayload.action).getD .invite

omit [Primitives] [Deserialize CreateRoomPayload] in
theorem Targets.kind {ev : SignedEvent} {d : DeviceId} (h : Targets ev d) : ev.kind = .membership := by
  rcases h with ⟨payload, hp, _⟩
  by_contra hk
  simp [payloadOf, hk] at hp

/-! ## What one event does to its room -/

section Effects

variable {reg : RoomRegistry} {ev : SignedEvent} {room : RoomState}

/-- The room has the same members and, but for `ev` if `took` says so, the same events. -/
structure Attached (room : RoomState) (ev : SignedEvent) (took : Prop) (room' : RoomState) :
    Prop where
  roomId : room'.dag.roomId = some ev.roomId
  events : ∀ i, i ∈ room'.dag.events ↔ i ∈ room.dag.events ∨ (took ∧ i = ev.id)

theorem applyEvent_create (hv : Verified ev) (hk : ev.kind = .createRoom) :
    reg.applyEvent ev = reg.applyCreate ev := by
  have hv' : verifyEvent ev = .ok () := hv
  simp [applyEvent, hv', hk]

theorem applyEvent_other (hv : Verified ev) (hc : ev.kind ≠ .createRoom)
    (hm : ev.kind ≠ .membership) : reg.applyEvent ev = reg.applyOther ev := by
  have hv' : verifyEvent ev = .ok () := hv
  cases hk : ev.kind <;> simp_all [applyEvent]

omit [Deserialize CreateRoomPayload] [Deserialize MembershipPayload] in
theorem attached_ingest (hv : Verified ev) (hrid : room.dag.roomId = some ev.roomId)
    {room' : RoomState} (hdag : room'.dag = (room.dag.ingest ev).2) :
    Attached room ev (room.dag.Admits ev) room' := by
  refine ⟨?_, ?_⟩
  · rw [hdag]
    exact RoomDag.ingest_roomId ev hrid
  · intro i
    rw [hdag]
    rcases @RoomDag.ingest_admits _ room.dag ev hv with ⟨hadm, dag', hing, hev⟩ | ⟨hno, _, hev⟩
    · rw [hing, hev, AList.mem_insert]
      tauto
    · rw [hev]
      tauto

omit [Deserialize CreateRoomPayload] in
/-- A membership event whose payload is read enters the DAG if that admits it, and then acts on its
target. -/
theorem applyMembership_room (hv : Verified ev) {payload : MembershipPayload}
    (hdec : Deserialize.fromSlice ev.payload = some payload)
    (hroom : reg.get ev.roomId = some room) (hrid : room.dag.roomId = some ev.roomId) :
    ∃ room', (reg.applyMembership ev).2.get ev.roomId = some room' ∧
      Attached room ev (room.dag.Admits ev) room' ∧
      (room.dag.Admits ev → room'.memberState payload.target =
        payload.action.step (room.memberState payload.target)) ∧
      ∀ d, (room.dag.Admits ev → d ≠ payload.target) → room'.memberState d = room.memberState d := by
  have hroom' : reg.rooms.lookup ev.roomId = some room := hroom
  have hatt : ∀ {room' : RoomState}, room'.dag = (room.dag.ingest ev).2 →
      Attached room ev (room.dag.Admits ev) room' := fun h => attached_ingest hv hrid h
  rcases @RoomDag.ingest_admits _ room.dag ev hv with ⟨hadm, dag', hing, _⟩ | ⟨hno, hres, _⟩
  · by_cases href : payload.action.Refuses (room.members.lookup payload.target)
    -- refused by the fold: the event is in the DAG and no member changes
    · refine ⟨{ room with dag := dag' }, ?_, hatt (by rw [hing]), fun _ => ?_, fun d _ => rfl⟩
      · simp [applyMembership, hdec, hroom', hing, fold_eq, href, get]
      · have hstep : payload.action.step (room.memberState payload.target) =
            room.memberState payload.target := if_pos href
        rw [hstep]
        rfl
    · let room' : RoomState :=
        { room with
          dag := dag'
          members := room.members.insert payload.target payload.action.result
          tips := dag'.tips }
      refine ⟨room', ?_, hatt (by rw [hing]), fun _ => ?_, fun d hd => ?_⟩
      · simp [applyMembership, hdec, hroom', hing, fold_eq, href, get, room']
      · have hstep : payload.action.step (room.memberState payload.target) =
            some payload.action.result := if_neg href
        rw [hstep]
        exact AList.lookup_insert _
      · exact AList.lookup_insert_ne (hd hadm)
  · refine ⟨{ room with dag := (room.dag.ingest ev).2 }, ?_, hatt rfl, fun h => absurd h hno,
      fun d _ => rfl⟩
    -- the DAG refuses it or knows it, and the members are not looked at
    cases hing : room.dag.ingest ev with
    | mk res dag' =>
        rw [hing] at hres
        cases res with
        | error e => simp [applyMembership, hdec, hroom', hing, get]
        | ok b =>
            cases b with
            | false => simp [applyMembership, hdec, hroom', hing, get]
            | true => exact absurd rfl hres

omit [Deserialize CreateRoomPayload] [Deserialize MembershipPayload] in
/-- An event of another kind enters the DAG if its author is joined and the DAG admits it. -/
theorem applyOther_room (hv : Verified ev) (hroom : reg.get ev.roomId = some room)
    (hrid : room.dag.roomId = some ev.roomId) :
    ∃ room', (reg.applyOther ev).2.get ev.roomId = some room' ∧
      Attached room ev (room.memberState ev.authorDevice = some .joined ∧ room.dag.Admits ev) room' ∧
      ∀ d, room'.memberState d = room.memberState d := by
  have hroom' : reg.rooms.lookup ev.roomId = some room := hroom
  by_cases hj : room.memberState ev.authorDevice = some .joined
  · have hatt := fun room' h => @attached_ingest _ ev room hv hrid room' h
    cases hing : room.dag.ingest ev with
    | mk res dag' =>
        cases res with
        | error e =>
            refine ⟨{ room with dag := dag' }, ?_, ?_, fun d => rfl⟩
            · simp [applyOther, hroom', RoomState.isJoined, hj, hing, get]
            · simpa [hj] using hatt { room with dag := dag' } (by rw [hing])
        | ok b =>
            refine ⟨{ room with dag := dag', tips := if b then dag'.tips else room.tips }, ?_, ?_,
              fun d => rfl⟩
            · simp [applyOther, hroom', RoomState.isJoined, hj, hing, get]
            · simpa [hj] using
                hatt { room with dag := dag', tips := if b then dag'.tips else room.tips } (by rw [hing])
  · refine ⟨room, ?_, ⟨hrid, ?_⟩, fun d => rfl⟩
    · simp [applyOther, hroom', RoomState.isJoined, hj, get]
    · intro i
      simp [hj]

omit [Deserialize MembershipPayload] in
/-- A `CreateRoom` without parents makes the room, its creator joined. -/
theorem applyCreate_room (hv : Verified ev) {payload : CreateRoomPayload}
    (hdec : Deserialize.fromSlice ev.payload = some payload) (hparents : ev.parents = [])
    (hnone : reg.get ev.roomId = none) :
    ∃ room', (reg.applyCreate ev).2.get ev.roomId = some room' ∧
      room'.dag.roomId = some ev.roomId ∧ (∀ i, i ∈ room'.dag.events ↔ i = ev.id) ∧
      ∀ d, room'.memberState d = if d = payload.creator then some .joined else none := by
  have hnone' : reg.rooms.lookup ev.roomId = none := hnone
  have hing : (RoomDag.new ev.roomId).ingest ev = (.ok true, (RoomDag.new ev.roomId).inserted ev) :=
    RoomDag.ingest_new hv rfl (AList.notMem_empty _) (by simp [hparents])
  refine ⟨_, by simp [applyCreate, hdec, hnone', hing, get]; rfl, rfl, ?_, ?_⟩
  · intro i
    rw [RoomDag.events_inserted, AList.mem_insert]
    exact ⟨fun h => h.resolve_right (AList.notMem_empty i), Or.inl⟩
  · intro d
    change ((∅ : HashMap DeviceId MemberState).insert payload.creator .joined).lookup d = _
    rw [HashMap.lookup_insert_eq, AList.lookup_empty]

omit [Deserialize MembershipPayload] in
/-- A `CreateRoom` that names parents, or cannot be read, makes no room. -/
theorem applyCreate_dead (hv : Verified ev) (hnone : reg.get ev.roomId = none)
    (hdead : ev.parents ≠ [] ∨ (Deserialize.fromSlice ev.payload : Option CreateRoomPayload) = none) :
    (reg.applyCreate ev).2 = reg := by
  have hnone' : reg.rooms.lookup ev.roomId = none := hnone
  cases hdec : (Deserialize.fromSlice ev.payload : Option CreateRoomPayload) with
  | none => simp [applyCreate, hdec]
  | some payload =>
      rcases hdead with hpar | hnot
      · rcases List.exists_mem_of_ne_nil _ hpar with ⟨p, hp⟩
        rcases @RoomDag.ingest_missing _ (RoomDag.new ev.roomId) ev p hv rfl (AList.notMem_empty _) hp
          (AList.notMem_empty _) with ⟨q, _, _, hing⟩
        simp [applyCreate, hdec, hnone', hing]
      · rw [hdec] at hnot
        cases hnot

omit [Primitives] [Deserialize CreateRoomPayload] in
/-- A room takes an event that its DAG admits, if its payload can be read or, for an event that is no membership
event, its author is joined. -/
def Takes (room : RoomState) (ev : SignedEvent) : Prop :=
  room.dag.Admits ev ∧ (ev.kind = .membership → ∃ payload, payloadOf ev = some payload) ∧
    (ev.kind ≠ .membership → room.memberState ev.authorDevice = some .joined)

omit [Primitives] [Deserialize CreateRoomPayload] [Deserialize MembershipPayload] in
theorem Attached.congr {took took' : Prop} {room' : RoomState} (h : Attached room ev took room')
    (hiff : took ↔ took') : Attached room ev took' room' := by
  refine ⟨h.roomId, fun i => ?_⟩
  rw [h.events, hiff]

/-- An event other than a `CreateRoom` enters the DAG of its room if the room takes it, and acts on its
target then. -/
theorem applyEvent_room (hv : Verified ev) (hc : ev.kind ≠ .createRoom) (hroom : reg.get ev.roomId = some room)
    (hrid : room.dag.roomId = some ev.roomId) :
    ∃ room', (reg.applyEvent ev).2.get ev.roomId = some room' ∧ Attached room ev (Takes room ev) room' ∧
      (∀ d, Takes room ev → Targets ev d →
        room'.memberState d = (actionOf ev).step (room.memberState d)) ∧
      ∀ d, ¬ (Takes room ev ∧ Targets ev d) → room'.memberState d = room.memberState d := by
  by_cases hm : ev.kind = .membership
  · rw [applyEvent_membership hv hm]
    cases hdec : (Deserialize.fromSlice ev.payload : Option MembershipPayload) with
    | none =>
        -- an unread payload is refused before the DAG sees the event
        have hpay : payloadOf ev = none := by
          simp [payloadOf, hm, hdec]
        have hnot : ¬ Takes room ev := by
          rintro ⟨_, hread, _⟩
          rcases hread hm with ⟨payload, hp⟩
          rw [hpay] at hp
          cases hp
        have hsame : (reg.applyMembership ev).2 = reg := by
          simp [applyMembership, hdec]
        rw [hsame]
        exact ⟨room, hroom, ⟨hrid, fun i => by simp [hnot]⟩, fun _ ht => absurd ht hnot, fun _ _ => rfl⟩
    | some payload =>
        have hpay : payloadOf ev = some payload := by
          simp [payloadOf, hm, hdec]
        have htakes : room.dag.Admits ev ↔ Takes room ev :=
          ⟨fun ha => ⟨ha, fun _ => ⟨payload, hpay⟩, fun hno => absurd hm hno⟩, fun ht => ht.1⟩
        rcases applyMembership_room hv hdec hroom hrid with ⟨room', hget, hatt, htarget, hother⟩
        refine ⟨room', hget, hatt.congr htakes, ?_, ?_⟩
        · rintro d ht ⟨payload', hp, rfl⟩
          have hEq : payload = payload' := Option.some.inj (hpay.symm.trans hp)
          subst hEq
          rw [htarget ht.1]
          simp [actionOf, hpay]
        · intro d hno
          refine hother d fun ha hd => ?_
          exact hno ⟨htakes.1 ha, payload, hpay, hd.symm⟩
  · rw [applyEvent_other hv hc hm]
    have htakes : room.memberState ev.authorDevice = some .joined ∧ room.dag.Admits ev ↔ Takes room ev :=
      ⟨fun h => ⟨h.2, fun hk => absurd hk hm, fun _ => h.1⟩, fun h => ⟨h.2.2 hm, h.1⟩⟩
    rcases applyOther_room hv hroom hrid with ⟨room', hget, hatt, hsame⟩
    exact ⟨room', hget, hatt.congr htakes, fun d _ htgt => absurd htgt.kind hm, fun d _ => hsame d⟩

end Effects

/-! ## Which events take part -/

omit [Primitives] [Deserialize CreateRoomPayload] [Deserialize MembershipPayload] in
/-- Some membership event is, or descends from, the event. -/
def Bears (evs : List SignedEvent) (e : SignedEvent) : Prop :=
  ∃ x ∈ evs, x.kind = .membership ∧ (x = e ∨ Before evs e x)

omit [Primitives] [Deserialize CreateRoomPayload] [Deserialize MembershipPayload] in
/-- All parents of the event are among the live events. -/
def ParentsLive (evs : List SignedEvent) (live : Set SignedEvent) (e : SignedEvent) : Prop :=
  ∀ p ∈ e.parents, ∃ y ∈ evs, y.id = p ∧ y ∈ live

omit [Primitives] [Deserialize CreateRoomPayload] in
/-- The live events that act on a device. -/
def acting (evs : List SignedEvent) (live : Set SignedEvent) (d : DeviceId) : Set SignedEvent :=
  {x | x ∈ evs ∧ x ∈ live ∧ Targets x d}

omit [Primitives] [Deserialize CreateRoomPayload] [Deserialize MembershipPayload] in
/-- The member states right after the room is made. -/
def initial (creator d : DeviceId) : Option MemberState :=
  if d = creator then some .joined else none

omit [Primitives] [Deserialize CreateRoomPayload] [Deserialize MembershipPayload] in
theorem initial_ne_banned (creator d : DeviceId) : initial creator d ≠ some .banned := by
  unfold initial
  split <;> simp

omit [Primitives] [Deserialize CreateRoomPayload] [Deserialize MembershipPayload] in
/-- A set of events that has all membership events, and with an event its parents. -/
structure Relevant (evs : List SignedEvent) (rel : Set SignedEvent) : Prop where
  membership : ∀ e ∈ evs, e.kind = .membership → e ∈ rel
  parent : ∀ e ∈ evs, e ∈ rel → ∀ y ∈ evs, y.id ∈ e.parents → y ∈ rel

section Run

variable {roomId : RoomId} {evs : List SignedEvent} {create : SignedEvent} {creator : DeviceId}
  {rel live : Set SignedEvent}

omit [Primitives] [Deserialize CreateRoomPayload] [Deserialize MembershipPayload] in
theorem relevant_bears (evs : List SignedEvent) : Relevant evs {e | Bears evs e} := by
  refine ⟨fun e he hk => ⟨e, he, hk, Or.inl rfl⟩, ?_⟩
  rintro e he ⟨x, hx, hk, rfl | hr⟩ y _ hp
  · exact ⟨x, hx, hk, Or.inr (Before.parent he hp)⟩
  · exact ⟨x, hx, hk, Or.inr ((Before.parent he hp).trans hr)⟩

open Classical in
/-- The actions on `d` of the live events of `l`, in order. -/
noncomputable def actions (live : Set SignedEvent) (d : DeviceId) (l : List SignedEvent) :
    List SignedEvent :=
  l.filter fun x => x ∈ live ∧ Targets x d

omit [Primitives] [Deserialize CreateRoomPayload] in
theorem mem_actions {d : DeviceId} {l : List SignedEvent} {x : SignedEvent} :
    x ∈ actions live d l ↔ x ∈ l ∧ x ∈ live ∧ Targets x d := by
  simp [actions]

omit [Primitives] [Deserialize CreateRoomPayload] in
theorem actions_append (d : DeviceId) (l l' : List SignedEvent) :
    actions live d (l ++ l') = actions live d l ++ actions live d l' := by
  simp [actions, List.filter_append]

omit [Primitives] [Deserialize CreateRoomPayload] in
theorem actions_singleton {d : DeviceId} {e : SignedEvent} (h : e ∈ live ∧ Targets e d) :
    actions live d [e] = [e] := by
  simp [actions, h]

omit [Primitives] [Deserialize CreateRoomPayload] in
theorem actions_eq_nil {d : DeviceId} {l : List SignedEvent} (h : ∀ e ∈ l, ¬ (e ∈ live ∧ Targets e d)) :
    actions live d l = [] := by
  refine List.filter_eq_nil_iff.2 fun e he => ?_
  simpa using h e he

/-- What a registry looks like after the events of `l`, the first part of some causal order. -/
structure Folded (roomId : RoomId) (evs : List SignedEvent) (create : SignedEvent)
    (creator : DeviceId) (rel live : Set SignedEvent) (l : List SignedEvent) (reg : RoomRegistry) :
    Prop where
  notYet : create ∉ l → reg.get roomId = none ∧ ∀ e ∈ l, e ∈ rel → e ∉ live
  made : create ∈ l → ∃ room, reg.get roomId = some room ∧ room.dag.roomId = some roomId ∧
    (∀ e ∈ evs, e = create ∨ e ∈ rel → (e.id ∈ room.dag.events ↔ e ∈ l ∧ e ∈ live)) ∧
    (∀ i ∈ room.dag.events, ∃ e ∈ l, e.id = i) ∧
    ∀ d, room.memberState d = foldActions (initial creator d) ((actions live d l).map actionOf)

/-- The event enters the DAG of its room when it comes. -/
def Enters (reg : RoomRegistry) (e : SignedEvent) : Prop :=
  ∃ room, (reg.applyEvent e).2.get e.roomId = some room ∧ e.id ∈ room.dag.events

omit [Primitives] [Deserialize CreateRoomPayload] [Deserialize MembershipPayload] in
/-- `e` comes next, after the events of `l`, in some causal order. -/
structure Next (evs l : List SignedEvent) (e : SignedEvent) : Prop where
  mem : e ∈ evs
  fresh : e ∉ l
  sub : ∀ x ∈ l, x ∈ evs
  before : ∀ x ∈ evs, Before evs x e → x ∈ l
  closed : ∀ x ∈ l, ∀ y ∈ evs, Before evs y x → y ∈ l
  after : ∀ x ∈ l, ¬ Before evs e x
  nodup : l.Nodup
  respects : Respects (Before evs) l

omit [Deserialize CreateRoomPayload] [Deserialize MembershipPayload] in
theorem CausalOrder.next (hR : RoomEvents roomId evs create) {l rest : List SignedEvent}
    {e : SignedEvent} (h : CausalOrder evs (l ++ e :: rest)) : Next evs l e := by
  have hnd : (l ++ e :: rest).Nodup := h.perm.nodup_iff.2 hR.nodup
  have hresp := h.respects hR.nodup hR.ids
  have hfresh : e ∉ l := fun he => List.disjoint_of_nodup_append hnd he (by simp)
  have hbefore : ∀ x ∈ evs, Before evs x e → x ∈ l := by
    intro x hx hr
    rcases List.mem_append.1 (h.perm.mem_iff.2 hx) with hl | hl
    · exact hl
    · rcases List.mem_cons.1 hl with rfl | hl
      · exact absurd hr (h.irrefl hR.ids x)
      · exact absurd hr (hresp.after hl)
  have hclosed : ∀ x ∈ l, ∀ y ∈ evs, Before evs y x → y ∈ l := by
    intro x hx y hy hr
    rcases List.mem_append.1 (h.perm.mem_iff.2 hy) with hl | hl
    · exact hl
    · exact absurd hr ((List.pairwise_append.1 hresp).2.2 x hx y hl)
  exact
    { mem := h.perm.mem_iff.1 (by simp)
      fresh := hfresh
      sub := fun x hx => h.perm.mem_iff.1 (by simp [hx])
      before := hbefore
      closed := hclosed
      after := fun x hx => hresp.before hx
      nodup := (List.nodup_append.1 hnd).1
      respects := hresp.sublist (List.sublist_append_left l (e :: rest)) }

/-- Before the room is made, only its `CreateRoom` does anything. -/
theorem applyEvent_noRoom {reg : RoomRegistry} {ev : SignedEvent} (hv : Verified ev)
    (hk : ev.kind ≠ .createRoom) (hnone : reg.get ev.roomId = none) :
    (reg.applyEvent ev).2 = reg := by
  have hnone' : reg.rooms.lookup ev.roomId = none := hnone
  by_cases hm : ev.kind = .membership
  · rw [applyEvent_membership hv hm]
    cases hdec : (Deserialize.fromSlice ev.payload : Option MembershipPayload) with
    | none => simp [applyMembership, hdec]
    | some payload => simp [applyMembership, hdec, hnone']
  · rw [applyEvent_other hv hk hm]
    simp [applyOther, hnone']

/-! ### One event -/

section Step

variable {l : List SignedEvent} {e : SignedEvent} {room : RoomState} {reg : RoomRegistry}

omit [Primitives] [Deserialize CreateRoomPayload] [Deserialize MembershipPayload] in
theorem admits_iff_parentsLive (hids : IdsIdentify {e | e ∈ evs}) (hrel : Relevant evs rel)
    (hn : Next evs l e) (he : e ∈ rel) (hrid : room.dag.roomId = some e.roomId)
    (hdag : ∀ x ∈ evs, x = create ∨ x ∈ rel → (x.id ∈ room.dag.events ↔ x ∈ l ∧ x ∈ live))
    (hfrom : ∀ i ∈ room.dag.events, ∃ x ∈ l, x.id = i) :
    room.dag.Admits e ↔ ParentsLive evs live e := by
  constructor
  · rintro ⟨_, _, hps⟩ p hp
    rcases hfrom p (hps p hp) with ⟨y, hy, rfl⟩
    have hyrel : y ∈ rel := hrel.parent e hn.mem he y (hn.sub y hy) hp
    exact ⟨y, hn.sub y hy, rfl, ((hdag y (hn.sub y hy) (Or.inr hyrel)).1 (hps y.id hp)).2⟩
  · intro hps
    refine ⟨?_, ?_, ?_⟩
    · intro rid hr
      rw [hrid] at hr
      exact (Option.some.inj hr).symm
    · intro hin
      rcases hfrom e.id hin with ⟨x, hx, hid⟩
      have hEq : x = e := hids x (hn.sub x hx) e hn.mem hid
      exact hn.fresh (hEq ▸ hx)
    · intro p hp
      rcases hps p hp with ⟨y, hy, rfl, hlive⟩
      exact (hdag y hy (Or.inr (hrel.parent e hn.mem he y hy hp))).2
        ⟨hn.before y hy (Before.parent hn.mem hp), hlive⟩

omit [Primitives] [Deserialize CreateRoomPayload] [Deserialize MembershipPayload] in
/-- The DAG after a relevant event that enters it exactly when it is live. -/
theorem dag_step (hids : IdsIdentify {e | e ∈ evs}) (hn : Next evs l e) (hne : e ≠ create)
    (hdag : ∀ x ∈ evs, x = create ∨ x ∈ rel → (x.id ∈ room.dag.events ↔ x ∈ l ∧ x ∈ live))
    (hfrom : ∀ i ∈ room.dag.events, ∃ x ∈ l, x.id = i) {took : Prop} {room' : RoomState}
    (hatt : Attached room e took room') (htook : e ∈ rel → (took ↔ e ∈ live)) :
    (∀ x ∈ evs, x = create ∨ x ∈ rel → (x.id ∈ room'.dag.events ↔ x ∈ l ++ [e] ∧ x ∈ live)) ∧
    ∀ i ∈ room'.dag.events, ∃ x ∈ l ++ [e], x.id = i := by
  refine ⟨?_, ?_⟩
  · intro x hx hin
    rw [hatt.events, hdag x hx hin]
    by_cases hxe : x = e
    · subst hxe
      simp [hn.fresh, htook (hin.resolve_left hne)]
    · have hid : x.id ≠ e.id := fun hid => hxe (hids x hx e hn.mem hid)
      simp [hid, hxe]
  · intro i hi
    rcases (hatt.events i).1 hi with hold | ⟨_, rfl⟩
    · rcases hfrom i hold with ⟨x, hx, hid⟩
      exact ⟨x, by simp [hx], hid⟩
    · exact ⟨e, by simp, rfl⟩

/-- The `CreateRoom` makes the room. -/
theorem enters_create (hR : RoomEvents roomId evs create) {payload : CreateRoomPayload}
    (hdec : Deserialize.fromSlice create.payload = some payload) (hpar : create.parents = [])
    (hnone : reg.get roomId = none) : Enters reg create := by
  have hroom : create.roomId = roomId := hR.inRoom create hR.create_mem
  rcases applyCreate_room (hR.verified create hR.create_mem) hdec hpar (by rw [hroom]; exact hnone) with
    ⟨room, hget, _, hdag, _⟩
  unfold Enters
  rw [applyEvent_create (hR.verified create hR.create_mem) hR.create_kind]
  exact ⟨room, hget, (hdag create.id).2 rfl⟩

/-- Any other event that comes before the room is made is refused. -/
theorem applyEvent_early (hR : RoomEvents roomId evs create) (he : e ∈ evs) (hne : e ≠ create)
    (hnone : reg.get roomId = none) : (reg.applyEvent e).2 = reg ∧ ¬ Enters reg e := by
  have hk : e.kind ≠ .createRoom := fun hk => hne (hR.create_one e he hk)
  rw [← hR.inRoom e he] at hnone
  have hsame := applyEvent_noRoom (hR.verified e he) hk hnone
  refine ⟨hsame, ?_⟩
  rintro ⟨room, hget, _⟩
  rw [hsame, hnone] at hget
  cases hget

/-- Once the room is made, a relevant event enters the DAG if its parents did and, for a membership event, its
payload can be read, for any other, its author is joined. -/
theorem Folded.enters_iff (hR : RoomEvents roomId evs create) (hrel : Relevant evs rel) (hn : Next evs l e)
    (hne : e ≠ create) (he : e ∈ rel) (hin : create ∈ l)
    (h : Folded roomId evs create creator rel live l reg) :
    Enters reg e ↔ ParentsLive evs live e ∧ (e.kind = .membership → ∃ payload, payloadOf e = some payload) ∧
      (e.kind ≠ .membership → foldActions (initial creator e.authorDevice)
        ((actions live e.authorDevice l).map actionOf) = some .joined) := by
  have hk : e.kind ≠ .createRoom := fun hk => hne (hR.create_one e hn.mem hk)
  have hroomId : e.roomId = roomId := hR.inRoom e hn.mem
  rcases h.made hin with ⟨room, hget, hrid, hdag, hfrom, hmem⟩
  rcases applyEvent_room (hR.verified e hn.mem) hk (by rw [hroomId]; exact hget) (by rw [hrid, hroomId]) with
    ⟨room', hget', hatt, _, _⟩
  have hadm := admits_iff_parentsLive hR.ids hrel hn he (by rw [hrid, hroomId]) hdag hfrom
  have hnew : e.id ∉ room.dag.events := by
    intro hid
    exact hn.fresh ((hdag e hn.mem (Or.inr he)).1 hid).1
  have htakes : Enters reg e ↔ Takes room e := by
    unfold Enters
    constructor
    · rintro ⟨room'', hget'', hid⟩
      rw [hget'] at hget''
      cases hget''
      exact (((hatt.events e.id).1 hid).resolve_left hnew).1
    · intro ht
      exact ⟨room', hget', (hatt.events e.id).2 (Or.inr ⟨ht, rfl⟩)⟩
  rw [htakes, Takes, hadm, hmem]

/-- The room is made, and nothing that acts on anyone has come before. -/
theorem Folded.create_step (hR : RoomEvents roomId evs create) (hrel : Relevant evs rel)
    {payload : CreateRoomPayload} (hdec : Deserialize.fromSlice create.payload = some payload)
    (hcr : payload.creator = creator) (hpar : create.parents = []) (hn : Next evs l create)
    (hlive : Enters reg create ↔ create ∈ live) (h : Folded roomId evs create creator rel live l reg) :
    Folded roomId evs create creator rel live (l ++ [create]) (reg.applyEvent create).2 := by
  have hv : Verified create := hR.verified create hn.mem
  have hroomId : create.roomId = roomId := hR.inRoom create hn.mem
  rcases h.notYet hn.fresh with ⟨hnone, hdead⟩
  have hcreate : create ∈ live := hlive.1 (enters_create hR hdec hpar hnone)
  rw [applyEvent_create hv hR.create_kind]
  rcases applyCreate_room hv hdec hpar (by rw [hroomId]; exact hnone) with ⟨room, hget, hrid, hdag, hmem⟩
  rw [hroomId] at hget hrid
  refine ⟨fun hno => absurd (by simp) hno, fun _ => ⟨room, hget, hrid, ?_, ?_, ?_⟩⟩
  · intro x hx hin
    rw [hdag]
    constructor
    · intro hid
      have hEq : x = create := hR.ids x hx create hn.mem hid
      subst hEq
      exact ⟨by simp, hcreate⟩
    · rintro ⟨hxl, hxlive⟩
      rcases List.mem_append.1 hxl with hold | hlast
      · rcases hin with rfl | hxrel
        · exact absurd hold hn.fresh
        · exact absurd hxlive (hdead x hold hxrel)
      · rw [List.mem_singleton.1 hlast]
  · intro i hi
    exact ⟨create, by simp, ((hdag i).1 hi).symm⟩
  · intro d
    have hnil : actions live d (l ++ [create]) = [] := by
      refine actions_eq_nil ?_
      rintro x hx ⟨hxlive, htgt⟩
      rcases List.mem_append.1 hx with hx | hx
      · exact hdead x hx (hrel.membership x (hn.sub x hx) htgt.kind) hxlive
      · have hk := htgt.kind
        rw [List.mem_singleton.1 hx, hR.create_kind] at hk
        cases hk
    rw [hmem, hnil, hcr]
    rfl

/-- An event that comes before the room is refused. -/
theorem Folded.early_step (hR : RoomEvents roomId evs create) (hn : Next evs l e) (hne : e ≠ create)
    (hin : create ∉ l) (hlive : e ∈ rel → (Enters reg e ↔ e ∈ live))
    (h : Folded roomId evs create creator rel live l reg) :
    Folded roomId evs create creator rel live (l ++ [e]) (reg.applyEvent e).2 := by
  rcases h.notYet hin with ⟨hnone, hdead⟩
  rcases applyEvent_early hR hn.mem hne hnone with ⟨hsame, hrefused⟩
  rw [hsame]
  refine ⟨fun _ => ⟨hnone, ?_⟩, fun hmem => ?_⟩
  · intro x hx hxrel
    rcases List.mem_append.1 hx with hx | hx
    · exact hdead x hx hxrel
    · rw [List.mem_singleton.1 hx] at hxrel ⊢
      exact fun hx => hrefused ((hlive hxrel).2 hx)
  · rcases List.mem_append.1 hmem with hmem | hmem
    · exact absurd hmem hin
    · exact absurd (List.mem_singleton.1 hmem).symm hne

/-- One more event of the order. -/
theorem Folded.step (hR : RoomEvents roomId evs create) (hrel : Relevant evs rel) {payload : CreateRoomPayload}
    (hdec : Deserialize.fromSlice create.payload = some payload) (hcr : payload.creator = creator)
    (hpar : create.parents = []) (hn : Next evs l e)
    (hlive : e = create ∨ e ∈ rel → (Enters reg e ↔ e ∈ live))
    (h : Folded roomId evs create creator rel live l reg) :
    Folded roomId evs create creator rel live (l ++ [e]) (reg.applyEvent e).2 := by
  have hv : Verified e := hR.verified e hn.mem
  have hroomId : e.roomId = roomId := hR.inRoom e hn.mem
  by_cases hne : e = create
  · subst hne
    exact h.create_step hR hrel hdec hcr hpar hn (hlive (Or.inl rfl))
  by_cases hin : create ∈ l
  swap
  · exact h.early_step hR hn hne hin fun he => hlive (Or.inr he)
  have hk : e.kind ≠ .createRoom := fun hk => hne (hR.create_one e hn.mem hk)
  rcases h.made hin with ⟨room, hget, hrid, hdag, hfrom, hmem⟩
  rcases applyEvent_room hv hk (by rw [hroomId]; exact hget) (by rw [hrid, hroomId]) with
    ⟨room', hget', hatt, hacts, hkeeps⟩
  have hfresh : e.id ∉ room.dag.events := by
    intro hid
    rcases hfrom e.id hid with ⟨x, hx, hxe⟩
    exact hn.fresh (hR.ids x (hn.sub x hx) e hn.mem hxe ▸ hx)
  have htook : e ∈ rel → (Takes room e ↔ e ∈ live) := by
    intro he
    rw [← hlive (Or.inr he)]
    constructor
    · intro ht
      exact ⟨room', hget', (hatt.events e.id).2 (Or.inr ⟨ht, rfl⟩)⟩
    · rintro ⟨room'', hget'', hid⟩
      rw [hget'] at hget''
      cases hget''
      exact (((hatt.events e.id).1 hid).resolve_left hfresh).1
  rcases dag_step hR.ids hn hne hdag hfrom hatt htook with ⟨hdag', hfrom'⟩
  rw [hroomId] at hget'
  refine ⟨fun hno => absurd (by simp [hin]) hno,
    fun _ => ⟨room', hget', hroomId ▸ hatt.roomId, hdag', hfrom', fun d => ?_⟩⟩
  by_cases hact : e ∈ live ∧ Targets e d
  · have ht : Takes room e := (htook (hrel.membership e hn.mem hact.2.kind)).2 hact.1
    rw [hacts d ht hact.2, hmem, actions_append, actions_singleton hact, List.map_append, foldActions_append]
    rfl
  · have hnot : ¬ (Takes room e ∧ Targets e d) := by
      rintro ⟨ht, htgt⟩
      exact hact ⟨(htook (hrel.membership e hn.mem htgt.kind)).1 ht, htgt⟩
    rw [hkeeps d hnot, hmem, actions_append, actions_eq_nil (l := [e]) (by simpa using hact), List.append_nil]

end Step

/-! ### A whole order -/

/-- Every first part of a causal order leaves the registry as `Folded` says, if `live` are the events that enter
the DAG when they come. -/
theorem applyAll_folded (hR : RoomEvents roomId evs create) (hrel : Relevant evs rel)
    {payload : CreateRoomPayload} (hdec : Deserialize.fromSlice create.payload = some payload)
    (hcr : payload.creator = creator) (hpar : create.parents = []) {L : List SignedEvent}
    (hord : CausalOrder evs L)
    (hlive : ∀ l e rest, L = l ++ e :: rest →
      Folded roomId evs create creator rel live l (RoomRegistry.new.applyAll l) → e = create ∨ e ∈ rel →
      (Enters (RoomRegistry.new.applyAll l) e ↔ e ∈ live)) (l : List SignedEvent) :
    ∀ rest, L = l ++ rest → Folded roomId evs create creator rel live l (RoomRegistry.new.applyAll l) := by
  induction l using List.reverseRecOn with
  | nil =>
      intro rest _
      refine ⟨fun _ => ⟨?_, by simp⟩, fun h => absurd h (by simp)⟩
      simp [applyAll, RoomRegistry.new, get]
  | append_singleton l e ih =>
      intro rest hsplit
      rw [List.append_assoc] at hsplit
      have hfold := ih (e :: rest) hsplit
      have hn : Next evs l e := CausalOrder.next hR (hsplit ▸ hord)
      have hrun : RoomRegistry.new.applyAll (l ++ [e]) = ((RoomRegistry.new.applyAll l).applyEvent e).2 := by
        simp [applyAll]
      rw [hrun]
      exact hfold.step hR hrel hdec hcr hpar hn (hlive l e rest hsplit hfold)

omit [Primitives] [Deserialize CreateRoomPayload] in
/-- The member states after a causal order. -/
theorem Folded.memberState {L : List SignedEvent} {reg : RoomRegistry}
    (h : Folded roomId evs create creator rel live L reg) (hin : create ∈ L) (d : DeviceId) :
    reg.memberState roomId d = foldActions (initial creator d) ((actions live d L).map actionOf) := by
  rcases h.made hin with ⟨room, hget, _, _, _, hmem⟩
  rw [RoomRegistry.memberState, hget]
  exact hmem d

omit [Deserialize CreateRoomPayload] in
theorem CausalOrder.orders (hR : RoomEvents roomId evs create) {l : List SignedEvent}
    (hord : CausalOrder evs l) (d : DeviceId) :
    Orders (Before evs) (acting evs live d) (actions live d l) := by
  refine ⟨?_, (hord.respects hR.nodup hR.ids).sublist List.filter_sublist⟩
  intro x
  rw [mem_actions, hord.perm.mem_iff]
  rfl

end Run

end Arrival

end RoomRegistry
end Event
end Thunderducks
