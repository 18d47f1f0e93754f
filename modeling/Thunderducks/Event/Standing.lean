import Thunderducks.Event.Invited

/-!
# Standing — how a joined device stops being joined

The fold writes the state of the target whatever it was, unless it was banned.  A device leaves for itself
and is banned by a member, and it also stops being joined when a member invites it once more:
`keepsStanding_iff` says that this is the only other way, and `standing_along_iff` says it of whole runs.
-/

namespace Thunderducks
namespace Event
namespace RoomRegistry

open Lib

section Standing

variable [Primitives] [Deserialize CreateRoomPayload] [Deserialize MembershipPayload]
variable {reg : RoomRegistry}

/-- The event that `membership_event` signs. -/
def membershipUnsigned (room : RoomState) (roomId : RoomId) (actor target : DeviceId)
    (action : MembershipAction) (tsMs : UInt64) : UnsignedEvent :=
  { roomId := roomId
    parents := room.tips
    kind := .membership
    payload := toVec { target := target, action := action, actor := actor : MembershipPayload }
    authorDevice := actor
    tsMs := tsMs }

/-- A call of `membership_event` comes to sign an event: the room is known and the actor may make the call. -/
structure Authors (reg : RoomRegistry) (sk : Primitives.SigningKey) (roomId : RoomId)
    (actor target : DeviceId) (action : MembershipAction) (tsMs : UInt64) (room : RoomState)
    (ev : SignedEvent) : Prop where
  known : reg.get roomId = some room
  authorized : authorize room actor target action = .ok ()
  signed : signEvent sk (membershipUnsigned room roomId actor target action tsMs) = .ok ev

/-- The event is folded: it verifies, it enters the DAG, and the fold does not refuse it. -/
structure TakesEffect (reg : RoomRegistry) (sk : Primitives.SigningKey) (roomId : RoomId)
    (actor target : DeviceId) (action : MembershipAction) (tsMs : UInt64) (room : RoomState)
    (ev : SignedEvent) : Prop extends Authors reg sk roomId actor target action tsMs room ev where
  verified : Verified ev
  admitted : room.dag.Admits ev
  allowed : ¬ action.Refuses (room.memberState target)

/-- The call bans the device, or the device leaves, and the call succeeds. -/
def Departs (reg : RoomRegistry) (call : AuthorCall) (r : RoomId) (d : DeviceId) : Prop :=
  (∃ ev, (call.run reg).1 = .ok ev) ∧
    ((∃ sk tsMs, call = .membershipEvent sk r d d .leave tsMs) ∨
      ∃ sk actor tsMs, call = .membershipEvent sk r actor d .ban tsMs)

/-- A device that is joined stays so unless it departs. -/
def KeepsStanding (reg : RoomRegistry) (call : AuthorCall) : Prop :=
  ∀ r d, reg.memberState r d = some .joined → (authorStep reg call).memberState r d ≠ some .joined →
    Departs reg call r d

/-- The call invites a device that is joined, and takes effect. -/
def Reinvites (reg : RoomRegistry) (call : AuthorCall) : Prop :=
  ∃ sk roomId actor target tsMs room ev, call = .membershipEvent sk roomId actor target .invite tsMs ∧
    TakesEffect reg sk roomId actor target .invite tsMs room ev ∧ room.memberState target = some .joined

section Calls

variable {sk : Primitives.SigningKey} {roomId : RoomId} {actor target : DeviceId} {action : MembershipAction}
variable {tsMs : UInt64} {room room' : RoomState} {ev ev' : SignedEvent}

omit [Deserialize CreateRoomPayload] [Deserialize MembershipPayload] in
theorem Authors.unique (h : Authors reg sk roomId actor target action tsMs room ev)
    (h' : Authors reg sk roomId actor target action tsMs room' ev') : room' = room ∧ ev' = ev := by
  have hroom := h'.known
  rw [h.known, Option.some.injEq] at hroom
  subst hroom
  have hev := h'.signed
  rw [h.signed, Except.ok.injEq] at hev
  exact ⟨rfl, hev.symm⟩

/-- The registry is that of applying the event, or the call fails and leaves it. -/
theorem membershipEvent_cases (reg : RoomRegistry) (sk : Primitives.SigningKey) (roomId : RoomId)
    (actor target : DeviceId) (action : MembershipAction) (tsMs : UInt64) :
    (∃ room ev, Authors reg sk roomId actor target action tsMs room ev ∧
      (reg.membershipEvent sk roomId actor target action tsMs).2 = (reg.applyEvent ev).2) ∨
    ((∀ room ev, ¬ Authors reg sk roomId actor target action tsMs room ev) ∧
      (reg.membershipEvent sk roomId actor target action tsMs).2 = reg) := by
  unfold membershipEvent
  split
  next hroom =>
    -- without the room nothing is authored
    refine Or.inr ⟨fun room ev h => ?_, rfl⟩
    have hknown : reg.rooms.lookup roomId = some room := h.known
    rw [hroom] at hknown
    cases hknown
  next room hroom =>
    split
    next e hauth =>
      refine Or.inr ⟨fun room' ev h => ?_, rfl⟩
      have hknown : reg.rooms.lookup roomId = some room' := h.known
      rw [hroom, Option.some.injEq] at hknown
      rw [hknown, h.authorized] at hauth
      cases hauth
    -- allowed, and then it is signed or not
    next hauth =>
      dsimp only
      split
      next e hsign =>
        refine Or.inr ⟨fun room' ev h => ?_, rfl⟩
        have hknown : reg.rooms.lookup roomId = some room' := h.known
        rw [hroom, Option.some.injEq] at hknown
        have hsigned := h.signed
        unfold membershipUnsigned at hsigned
        rw [← hknown, hsign] at hsigned
        cases hsigned
      next ev hsign =>
        refine Or.inl ⟨room, ev, ⟨hroom, hauth, hsign⟩, ?_⟩
        rcases reg.applyEvent ev with ⟨res, reg'⟩
        cases res with
        | error e => rfl
        | ok b => rfl

variable [RoundTrips MembershipPayload]

/-- What takes effect sets the state of the target, and nothing else is changed. -/
theorem memberState_membershipEvent (reg : RoomRegistry) (sk : Primitives.SigningKey) (roomId : RoomId)
    (actor target : DeviceId) (action : MembershipAction) (tsMs : UInt64) :
    (∃ room ev, TakesEffect reg sk roomId actor target action tsMs room ev ∧ ∀ r d,
      (reg.membershipEvent sk roomId actor target action tsMs).2.memberState r d =
        if r = roomId ∧ d = target then some action.result else reg.memberState r d) ∨
    ((∀ room ev, ¬ TakesEffect reg sk roomId actor target action tsMs room ev) ∧ ∀ r d,
      (reg.membershipEvent sk roomId actor target action tsMs).2.memberState r d = reg.memberState r d) := by
  rcases membershipEvent_cases reg sk roomId actor target action tsMs with ⟨room, ev, h, hrun⟩ | ⟨hno, hrun⟩
  · rw [hrun]
    have hfields := signEvent_unsigned h.signed
    have hrid : ev.roomId = roomId := congrArg UnsignedEvent.roomId hfields
    have hkind : ev.kind = .membership := congrArg UnsignedEvent.kind hfields
    have hpayload : ev.payload =
        toVec { target := target, action := action, actor := actor : MembershipPayload } :=
      congrArg UnsignedEvent.payload hfields
    have hdec : Deserialize.fromSlice ev.payload =
        some { target := target, action := action, actor := actor : MembershipPayload } := by
      rw [hpayload, RoundTrips.read]
    by_cases hv : Verified ev
    · rw [applyEvent_membership hv hkind]
      rcases @memberState_applyMembership _ _ reg ev hv with ⟨payload, room', hf, hstates⟩ | ⟨hno, hstates⟩
      · -- the fold reads back the payload that was signed
        have hpay := hf.decoded
        rw [hdec, Option.some.injEq] at hpay
        subst hpay
        have hknown : reg.get ev.roomId = some room' := hf.known
        rw [hrid, h.known, Option.some.injEq] at hknown
        subst hknown
        rw [hrid] at hstates
        exact Or.inl ⟨room, ev, ⟨h, hv, hf.admitted, hf.allowed⟩, hstates⟩
      · refine Or.inr ⟨fun room' ev' h' => ?_, hstates⟩
        rcases h.unique h'.toAuthors with ⟨rfl, rfl⟩
        exact hno _ room' ⟨hdec, by rw [hrid]; exact h.known, h'.admitted, h'.allowed⟩
    · refine Or.inr ⟨fun room' ev' h' => ?_, fun r d => ?_⟩
      · rcases h.unique h'.toAuthors with ⟨rfl, rfl⟩
        exact hv h'.verified
      · unfold applyEvent
        cases hver : verifyEvent ev with
        | error e => rfl
        | ok u => exact absurd hver hv
  · rw [hrun]
    exact Or.inr ⟨fun room ev h => hno room ev h.toAuthors, fun _ _ => rfl⟩

end Calls

section Runs

variable [RoundTrips CreateRoomPayload] [RoundTrips MembershipPayload]

/-- Only an invitation of a device that is joined takes its place away. -/
theorem keepsStanding_iff (h : reg.WellFormed) (call : AuthorCall) :
    reg.KeepsStanding call ↔ ¬ reg.Reinvites call := by
  constructor
  -- such an invitation writes `invited` over `joined`
  · rintro hkeeps ⟨sk, roomId, actor, target, tsMs, room, ev, rfl, heffect, hjoined⟩
    have hbefore : reg.memberState roomId target = some .joined := by
      rw [memberState_of_get heffect.known, hjoined]
    have hafter : (authorStep reg (.membershipEvent sk roomId actor target .invite tsMs)).memberState roomId
        target = some .invited := by
      rcases memberState_membershipEvent reg sk roomId actor target .invite tsMs with
        ⟨_, _, _, hstates⟩ | ⟨hno, _⟩
      · exact (hstates roomId target).trans (if_pos ⟨rfl, rfl⟩)
      · exact absurd heffect (hno room ev)
    rcases hkeeps roomId target hbefore (by rw [hafter]; simp) with ⟨_, ⟨_, _, hcall⟩ | ⟨_, _, _, hcall⟩⟩
    · cases hcall
    · cases hcall
  · intro hno r d hjoined hlost
    have hchange := call.change h
    unfold authorStep at hlost
    generalize hrun : call.run reg = out at hchange hlost
    rcases out with ⟨res, reg'⟩
    cases hchange with
    | quiet hsame =>
        rw [hsame.states] at hlost
        exact absurd hjoined hlost
    | @founds sk creator name tsMs ev _ r₀ hnone _ hstates =>
        have hne : r ≠ r₀ := by
          rintro rfl
          simp [memberState, hnone] at hjoined
        rw [hstates, if_neg hne] at hlost
        exact absurd hjoined hlost
    | @folds sk roomId actor target action tsMs ev _ room hroom hauth href _ hstates =>
        by_cases hat : r = roomId ∧ d = target
        · rcases hat with ⟨rfl, rfl⟩
          rw [hstates, if_pos ⟨rfl, rfl⟩] at hlost
          have hok : ∃ ev, ((AuthorCall.membershipEvent sk r actor d action tsMs).run reg).1 = .ok ev :=
            ⟨ev, by rw [hrun]⟩
          cases action with
          | invite =>
              rcases memberState_membershipEvent reg sk r actor d .invite tsMs with
                ⟨room', ev', heffect, _⟩ | ⟨_, hsame⟩
              · have hstanding : room'.memberState d = some .joined := by
                  rw [← memberState_of_get heffect.known, hjoined]
                exact absurd ⟨sk, r, actor, d, tsMs, room', ev', rfl, heffect, hstanding⟩ hno
              · -- without effect nothing would have changed
                have hsame' := hsame r d
                have hinvited := hstates r d
                change reg.membershipEvent sk r actor d .invite tsMs = _ at hrun
                rw [hrun, hinvited, if_pos ⟨rfl, rfl⟩, hjoined] at hsame'
                cases hsame'
          | join => exact absurd rfl hlost
          | leave =>
              have hself : actor = d := by
                by_contra hne
                simp [authorize, hne] at hauth
              subst hself
              exact ⟨hok, Or.inl ⟨sk, tsMs, rfl⟩⟩
          | ban => exact ⟨hok, Or.inr ⟨sk, actor, tsMs, rfl⟩⟩
        · -- the state of no other device changed
          rw [hstates, if_neg hat] at hlost
          exact absurd hjoined hlost

/-- In every run from an empty registry. -/
theorem standing_along_iff (calls : List AuthorCall) :
    Runs.Along authorStep KeepsStanding new calls ↔
      Runs.Along authorStep (fun reg call => ¬ reg.Reinvites call) new calls :=
  Runs.along_congr (fun _ call h => h.authorStep call) (fun _ call h => keepsStanding_iff h call) calls
    wellFormed_new

end Runs

end Standing

/-! ## The creator invites itself -/

section Example

open Checksum

attribute [local instance] Checksum.primitives

section Reinvited

def selfInvitation : MembershipPayload :=
  { target := device 1
    action := .invite
    actor := device 1 }

@[reducible] def selfInvitationReader : Deserialize MembershipPayload :=
  Deserialize.ofTable [selfInvitation]

attribute [local instance] createReader selfInvitationReader

/-- After it the room has no joined device at all. -/
theorem standing_along_reinvited :
    ¬ ∀ calls : List AuthorCall, Runs.Along authorStep KeepsStanding new calls := by
  intro h
  let pondId := roomIdFromParts (device 1) "pond" 1
  have hkeeps := h [.createRoom (key 1) (device 1) "pond" 1,
    .membershipEvent (key 1) pondId (device 1) (device 1) .invite 2]
  have hrun : (authorStep new (.createRoom (key 1) (device 1) "pond" 1)).memberState pondId (device 1) =
        some .joined ∧
      (authorStep (authorStep new (.createRoom (key 1) (device 1) "pond" 1))
        (.membershipEvent (key 1) pondId (device 1) (device 1) .invite 2)).memberState pondId (device 1) =
          some .invited := by
    decide +kernel
  rcases hrun with ⟨hbefore, hafter⟩
  rcases hkeeps.2.1 pondId (device 1) hbefore (by rw [hafter]; simp) with
    ⟨_, ⟨_, _, hcall⟩ | ⟨_, _, _, hcall⟩⟩
  · cases hcall
  · cases hcall

end Reinvited

attribute [local instance] writtenCreate writtenMembership

/-- A room and a ban. -/
theorem standing_along_iff_ban : Runs.Along authorStep KeepsStanding new
    [.createRoom (key 1) (device 1) "pond" 1,
      .membershipEvent (key 1) (roomIdFromParts (device 1) "pond" 1) (device 1) (device 2) .ban 2] := by
  have := roundTrips_membership
  have : RoundTrips CreateRoomPayload := roundTrips_ofWritten createRoomPayload_toJson_injective
  refine (standing_along_iff _).2 ⟨?_, ?_, trivial⟩
  · rintro ⟨_, _, _, _, _, _, _, hcall, _⟩
    cases hcall
  · rintro ⟨_, _, _, _, _, _, _, hcall, _⟩
    cases hcall

end Example

end RoomRegistry
end Event
end Thunderducks
