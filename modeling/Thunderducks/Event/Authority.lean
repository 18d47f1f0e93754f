import Thunderducks.Event.Room

/-!
# Authority — who may change whose membership

`membership_event` refuses to author what `authorize` does not allow.  `apply_event` has no such check:
whatever a verified event says about its target is folded into the member table as soon as the DAG
admits the event.  `changesOnlyAuthorized_iff` says for which registries and events the fold stays
within what the authoring path allows.
-/

namespace Thunderducks
namespace Event

open Lib

namespace MembershipAction

/-- The member state an action gives its target. -/
def result : MembershipAction → MemberState
  | .join => .joined
  | .invite => .invited
  | .leave => .left
  | .ban => .banned

/-- The fold refuses the action on a target in this state. -/
def Refuses (action : MembershipAction) (state : Option MemberState) : Prop :=
  (action = .invite ∨ action = .join) ∧ state = some .banned

instance (action : MembershipAction) (state : Option MemberState) :
    Decidable (action.Refuses state) :=
  inferInstanceAs (Decidable ((action = .invite ∨ action = .join) ∧ state = some .banned))

end MembershipAction

namespace RoomRegistry

theorem fold_eq (action : MembershipAction) (members : HashMap DeviceId MemberState)
    (target : DeviceId) :
    fold action members target = if action.Refuses (members.lookup target) then
      .error .invalidTransition
    else
      .ok (members.insert target action.result) := by
  cases action <;> simp [fold, MembershipAction.Refuses, MembershipAction.result]

/-- Replacing a room changes the member states of that room only. -/
theorem memberState_insert (reg : RoomRegistry) (room : RoomState) (r r' : RoomId) (d : DeviceId) :
    { reg with rooms := reg.rooms.insert r room }.memberState r' d =
      if r' = r then room.memberState d else reg.memberState r' d := by
  unfold memberState get
  rw [HashMap.lookup_insert_eq]
  by_cases h : r' = r <;> simp [h]

/-- A room that keeps its members keeps every member state. -/
theorem memberState_sameMembers {reg : RoomRegistry} {room : RoomState} {r : RoomId}
    (room' : RoomState) (hroom : reg.rooms.lookup r = some room) (hmem : room'.members = room.members)
    (r' : RoomId) (d : DeviceId) :
    { reg with rooms := reg.rooms.insert r room' }.memberState r' d = reg.memberState r' d := by
  rw [memberState_insert]
  by_cases h : r' = r
  · subst h
    simp [memberState, get, hroom, RoomState.memberState, hmem]
  · simp [h]

section Fold

variable [Primitives] [Deserialize CreateRoomPayload] [Deserialize MembershipPayload]

/-- The payload of a membership event is folded into the table of `room`. -/
structure Folds (reg : RoomRegistry) (ev : SignedEvent) (payload : MembershipPayload)
    (room : RoomState) : Prop where
  decoded : Deserialize.fromSlice ev.payload = some payload
  known : reg.rooms.lookup ev.roomId = some room
  admitted : room.dag.Admits ev
  allowed : ¬ payload.action.Refuses (room.memberState payload.target)

variable {reg : RoomRegistry} {ev : SignedEvent}

theorem applyEvent_membership (hv : Verified ev) (hk : ev.kind = .membership) :
    reg.applyEvent ev = reg.applyMembership ev := by
  have hv' : verifyEvent ev = .ok () := hv
  simp [applyEvent, hv', hk]

omit [Deserialize CreateRoomPayload] in
/-- The member states after a membership event: the payload is folded in, or nothing changes. -/
theorem memberState_applyMembership (hv : Verified ev) :
    (∃ payload room, Folds reg ev payload room ∧ ∀ r d,
      (reg.applyMembership ev).2.memberState r d =
        if r = ev.roomId ∧ d = payload.target then some payload.action.result
        else reg.memberState r d) ∨
    ((∀ payload room, ¬ Folds reg ev payload room) ∧
      ∀ r d, (reg.applyMembership ev).2.memberState r d = reg.memberState r d) := by
  cases hdec : (Deserialize.fromSlice ev.payload : Option MembershipPayload) with
  | none =>
      refine Or.inr ⟨fun payload room hf => ?_, by simp [applyMembership, hdec]⟩
      have hsome := hf.decoded
      rw [hdec] at hsome
      cases hsome
  | some payload =>
      cases hroom : reg.rooms.lookup ev.roomId with
      | none =>
          refine Or.inr ⟨fun payload' room hf => ?_, by simp [applyMembership, hdec, hroom]⟩
          have hsome := hf.known
          rw [hroom] at hsome
          cases hsome
      | some room =>
          -- what `Folds` can only be about
          have huniq : ∀ {payload' room'}, Folds reg ev payload' room' →
              payload' = payload ∧ room' = room := by
            intro payload' room' hf
            have h₁ := hf.decoded
            have h₂ := hf.known
            rw [hdec] at h₁
            rw [hroom] at h₂
            exact ⟨(Option.some.inj h₁).symm, (Option.some.inj h₂).symm⟩
          rcases @RoomDag.ingest_admits _ room.dag ev hv with
            ⟨hadm, dag', hing, _⟩ | ⟨hno, hres, _⟩
          · by_cases href : payload.action.Refuses (room.memberState payload.target)
            · refine Or.inr ⟨fun payload' room' hf => ?_, fun r d => ?_⟩
              · rcases huniq hf with ⟨rfl, rfl⟩
                exact hf.allowed href
              · have href' : payload.action.Refuses (room.members.lookup payload.target) := href
                simp only [applyMembership, hdec, hroom, hing, fold_eq, if_pos href']
                exact memberState_sameMembers { room with dag := dag' } hroom rfl r d
            · refine Or.inl ⟨payload, room, ⟨hdec, hroom, hadm, href⟩, fun r d => ?_⟩
              have href' : ¬ payload.action.Refuses (room.members.lookup payload.target) := href
              simp only [applyMembership, hdec, hroom, hing, fold_eq, if_neg href']
              rw [memberState_insert]
              by_cases hr : r = ev.roomId
              · subst hr
                simp [memberState, get, hroom, RoomState.memberState, HashMap.lookup_insert_eq]
              · simp [hr]
          · refine Or.inr ⟨fun payload' room' hf => ?_, fun r d => ?_⟩
            · rcases huniq hf with ⟨rfl, rfl⟩
              exact hno hf.admitted
            · cases hing : room.dag.ingest ev with
              | mk res dag' =>
                  rw [hing] at hres
                  cases res with
                  | error e =>
                      simp only [applyMembership, hdec, hroom, hing]
                      exact memberState_sameMembers { room with dag := dag' } hroom rfl r d
                  | ok b =>
                      cases b with
                      | false =>
                          simp only [applyMembership, hdec, hroom, hing]
                          exact memberState_sameMembers { room with dag := dag' } hroom rfl r d
                      | true => exact absurd rfl hres

/-! ## The fold and the authoring path -/

/-- Every change the event makes is one that `membership_event` would have authored for the device
that signed the event. -/
def ChangesOnlyAuthorized (reg : RoomRegistry) (ev : SignedEvent) : Prop :=
  ∀ r d, (reg.applyEvent ev).2.memberState r d ≠ reg.memberState r d →
    ∃ (payload : MembershipPayload) (room : RoomState),
      Deserialize.fromSlice ev.payload = some payload ∧ reg.rooms.lookup ev.roomId = some room ∧
      ev.authorDevice = payload.actor ∧
      authorize room payload.actor payload.target payload.action = .ok ()

omit [Primitives] [Deserialize CreateRoomPayload] [Deserialize MembershipPayload] in
/-- What the signer must be for the fold to be harmless: a joined member for an invitation or a
ban, the invited target itself for a join, the target itself, joined or invited, for a leave. -/
def Entitled (room : RoomState) (signer target : DeviceId) : MembershipAction → Prop
  | .invite | .ban => room.memberState signer = some .joined
  | .join => signer = target ∧ room.memberState target = some .invited
  | .leave => signer = target ∧
      (room.memberState target = some .joined ∨ room.memberState target = some .invited)

omit [Primitives] [Deserialize CreateRoomPayload] [Deserialize MembershipPayload] in
theorem authorize_iff {room : RoomState} {actor target : DeviceId} {action : MembershipAction}
    (hnew : room.memberState target ≠ some action.result) :
    authorize room actor target action = .ok () ↔ Entitled room actor target action := by
  cases action with
  | invite => simp [authorize, Entitled, RoomState.isJoined]
  | ban => simp [authorize, Entitled, RoomState.isJoined]
  | join =>
      have hnot : room.memberState target ≠ some .joined := hnew
      by_cases hself : actor = target
      · simp [authorize, Entitled, hself, hnot]
      · simp [authorize, Entitled, hself]
  | leave =>
      by_cases hself : actor = target
      · by_cases hst : room.memberState target = some .joined ∨
            room.memberState target = some .invited <;>
          simp [authorize, Entitled, hself, hst]
      · simp [authorize, Entitled, hself]

/-- The fold of a verified membership event stays within the authoring path exactly when every
payload it folds in, and that says something new of its target, names its signer as the actor and
the signer is entitled to it. -/
theorem changesOnlyAuthorized_iff (reg : RoomRegistry) (ev : SignedEvent) (hv : Verified ev)
    (hk : ev.kind = .membership) :
    ChangesOnlyAuthorized reg ev ↔ ∀ payload room, Folds reg ev payload room →
      room.memberState payload.target ≠ some payload.action.result →
      ev.authorDevice = payload.actor ∧
        Entitled room ev.authorDevice payload.target payload.action := by
  unfold ChangesOnlyAuthorized
  rw [applyEvent_membership hv hk]
  rcases @memberState_applyMembership _ _ reg ev hv with ⟨payload, room, hf, hafter⟩ | ⟨hno, hafter⟩
  -- the event is folded, with one payload into one room
  · have huniq : ∀ {payload' room'}, Deserialize.fromSlice ev.payload = some payload' →
        reg.rooms.lookup ev.roomId = some room' → payload' = payload ∧ room' = room := by
      intro payload' room' h₁ h₂
      rw [hf.decoded] at h₁
      rw [hf.known] at h₂
      exact ⟨(Option.some.inj h₁).symm, (Option.some.inj h₂).symm⟩
    have hbefore : reg.memberState ev.roomId payload.target = room.memberState payload.target := by
      simp [memberState, get, hf.known]
    constructor
    · intro hauth payload' room' hf' hnew
      rcases huniq hf'.decoded hf'.known with ⟨rfl, rfl⟩
      have hchange : (reg.applyMembership ev).2.memberState ev.roomId payload'.target ≠
          reg.memberState ev.roomId payload'.target := by
        rw [hafter, hbefore]
        simpa using hnew.symm
      rcases hauth _ _ hchange with ⟨p, rm, hp, hrm, hactor, hok⟩
      rcases huniq hp hrm with ⟨rfl, rfl⟩
      refine ⟨hactor, ?_⟩
      rw [hactor]
      exact (authorize_iff hnew).1 hok
    · intro hent r d hchange
      rw [hafter] at hchange
      by_cases hat : r = ev.roomId ∧ d = payload.target
      · rcases hat with ⟨rfl, rfl⟩
        have hnew : room.memberState payload.target ≠ some payload.action.result := by
          rw [← hbefore]
          simpa using hchange.symm
        rcases hent payload room hf hnew with ⟨hactor, hentitled⟩
        refine ⟨payload, room, hf.decoded, hf.known, hactor, ?_⟩
        rw [← hactor]
        exact (authorize_iff hnew).2 hentitled
      · simp [hat] at hchange
  -- nothing is folded, so nothing changes
  · refine iff_of_true ?_ ?_
    · intro r d hchange
      exact absurd (hafter r d) hchange
    · intro payload room hf
      exact absurd hf (hno payload room)

end Fold

/-! ## An outsider lets itself in -/

section Example

open Checksum

attribute [local instance] Checksum.primitives

def pond : CreateRoomPayload :=
  { creator := device 1
    name := "pond" }

/-- Device 2 joins without having been invited. -/
def intrusion : MembershipPayload :=
  { target := device 2
    action := .join
    actor := device 2 }

/-- The creator invites device 2. -/
def invitation : MembershipPayload :=
  { target := device 2
    action := .invite
    actor := device 1 }

/-- Device 2 leaves. -/
def departure : MembershipPayload :=
  { target := device 2
    action := .leave
    actor := device 2 }

/-- The creator bans device 2. -/
def expulsion : MembershipPayload :=
  { target := device 2
    action := .ban
    actor := device 1 }

@[reducible] def createReader : Deserialize CreateRoomPayload :=
  Deserialize.ofTable [pond]

@[reducible] def membershipReader : Deserialize MembershipPayload :=
  Deserialize.ofTable [intrusion, invitation, departure, expulsion]

attribute [local instance] createReader membershipReader

def createPond : SignedEvent :=
  event 1 (room 1) [] .createRoom (toVec pond) 1

def intrude : SignedEvent :=
  event 2 (room 1) [createPond.id] .membership (toVec intrusion) 2

def invite : SignedEvent :=
  event 1 (room 1) [createPond.id] .membership (toVec invitation) 2

def leave : SignedEvent :=
  event 2 (room 1) [invite.id] .membership (toVec departure) 3

def ban : SignedEvent :=
  event 1 (room 1) [invite.id] .membership (toVec expulsion) 3

/-- The registry of a node that has seen the room created. -/
def created : RoomRegistry :=
  (RoomRegistry.new.applyEvent createPond).2

theorem apply_admits_intruder :
    ¬ ∀ (reg : RoomRegistry) (ev : SignedEvent), Verified ev → ev.kind = .membership →
      ChangesOnlyAuthorized reg ev := by
  intro h
  have hrun : created.memberState (room 1) (device 2) = none ∧
      (created.applyEvent intrude).2.memberState (room 1) (device 2) = some .joined ∧
      Deserialize.fromSlice intrude.payload = some intrusion := by
    decide +kernel
  rcases hrun with ⟨hbefore, hafter, hread⟩
  rcases h created intrude (event_verified _ _ _ _ _ _) rfl (room 1) (device 2)
    (by rw [hbefore, hafter]; simp) with ⟨payload, rm, hp, hrm, _, hok⟩
  have hpay : intrusion = payload := Option.some.inj (hread.symm.trans hp)
  have hst : rm.memberState (device 2) = none := by
    have hrm' : created.rooms.lookup (room 1) = some rm := hrm
    simpa [memberState, get, hrm'] using hbefore
  subst hpay
  simp [authorize, intrusion, hst] at hok

theorem read_invite : Deserialize.fromSlice invite.payload = some invitation := by
  decide +kernel

/-- The creator's invitation is within what the authoring path allows. -/
theorem changesOnlyAuthorized_iff_invite : ChangesOnlyAuthorized created invite := by
  refine (changesOnlyAuthorized_iff created invite (event_verified _ _ _ _ _ _) rfl).2 ?_
  intro payload rm hf _
  have hpay : invitation = payload := Option.some.inj (read_invite.symm.trans hf.decoded)
  have hjoined : created.memberState (room 1) (device 1) = some .joined := by
    decide +kernel
  have hst : rm.memberState (device 1) = some .joined := by
    have hrm : created.rooms.lookup (room 1) = some rm := hf.known
    simpa [memberState, get, hrm] using hjoined
  subst hpay
  exact ⟨rfl, hst⟩

end Example

end RoomRegistry

end Event
end Thunderducks
