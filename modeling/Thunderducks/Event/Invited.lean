import Thunderducks.Event.Replay

/-!
# Invited — who can be a member of a room whose events are all authored here

A registry that only `create_room` and `membership_event` drive is guarded twice: `authorize` decides
which events are signed, and the fold refuses to invite or join a banned device.  `AuthorCall.change` says
what one call can do to the member states; from it follow that a ban is final and that every joined
device created its room or was invited by one that was joined.
-/

namespace Thunderducks
namespace Event
namespace RoomRegistry

open Lib

/-- The recorded creator of a room. -/
def creatorOf (reg : RoomRegistry) (r : RoomId) : Option DeviceId :=
  (reg.get r).map RoomState.creator

theorem creatorOf_setRoom (reg : RoomRegistry) (r r' : RoomId) (room : RoomState) :
    (reg.setRoom r room).creatorOf r' = if r' = r then some room.creator else reg.creatorOf r' := by
  unfold creatorOf
  rw [get_setRoom]
  split <;> rfl

theorem memberState_setRoom (reg : RoomRegistry) (r r' : RoomId) (room : RoomState) (d : DeviceId) :
    (reg.setRoom r room).memberState r' d =
      if r' = r then room.memberState d else reg.memberState r' d :=
  memberState_insert reg room r r' d

theorem memberState_of_get {reg : RoomRegistry} {r : RoomId} {room : RoomState}
    (h : reg.get r = some room) (d : DeviceId) : reg.memberState r d = room.memberState d := by
  simp [memberState, h]

/-- No member state and no creator differs. -/
structure MembersAgree (reg reg' : RoomRegistry) : Prop where
  states : ∀ r d, reg'.memberState r d = reg.memberState r d
  creators : ∀ r, reg'.creatorOf r = reg.creatorOf r

theorem MembersAgree.refl (reg : RoomRegistry) : MembersAgree reg reg :=
  ⟨fun _ _ => rfl, fun _ => rfl⟩

/-- A room that is put back with its members and its creator. -/
theorem sameMembers_setRoom {reg : RoomRegistry} {r : RoomId} {room room' : RoomState}
    (h : reg.get r = some room) (hcreator : room'.creator = room.creator)
    (hmembers : ∀ d, room'.memberState d = room.memberState d) :
    MembersAgree reg (reg.setRoom r room') := by
  refine ⟨?_, ?_⟩
  · intro r' d
    rw [memberState_setRoom]
    split
    next heq => rw [heq, hmembers, memberState_of_get h]
    · rfl
  · intro r'
    rw [creatorOf_setRoom]
    split
    next heq => rw [heq, hcreator, creatorOf, h]; rfl
    · rfl

section Authoring

variable [Primitives] [Deserialize CreateRoomPayload] [Deserialize MembershipPayload]
variable {reg reg' : RoomRegistry}

/-! ## One call -/

omit [Deserialize CreateRoomPayload] [Deserialize MembershipPayload] in
/-- What a call signs. -/
def AuthorCall.Signs (reg : RoomRegistry) : AuthorCall → UnsignedEvent → Prop
  | .createRoom _ creator name tsMs, u =>
      u = { roomId := roomIdFromParts creator name tsMs
            parents := []
            kind := .createRoom
            payload := toVec { creator := creator, name := name : CreateRoomPayload }
            authorDevice := creator
            tsMs := tsMs }
  | .membershipEvent _ roomId actor target action tsMs, u =>
      ∃ room, reg.get roomId = some room ∧ authorize room actor target action = .ok () ∧
        u = { roomId := roomId
              parents := room.tips
              kind := .membership
              payload := toVec { target := target, action := action, actor := actor : MembershipPayload }
              authorDevice := actor
              tsMs := tsMs }

/-- A call fails before it signs, or its registry and its result are those of applying what it signed. -/
theorem AuthorCall.run_cases (reg : RoomRegistry) (call : AuthorCall) :
    (∃ e, call.run reg = (.error e, reg)) ∨
    ∃ ev, call.Signs reg ev.unsigned ∧
      call.run reg = ((reg.applyEvent ev).1.map fun _ => ev, (reg.applyEvent ev).2) := by
  cases call with
  | createRoom sk creator name tsMs =>
      unfold AuthorCall.run RoomRegistry.createRoom
      dsimp only
      split
      next e _ => exact Or.inl ⟨.event e, rfl⟩
      next ev hsign =>
        refine Or.inr ⟨ev, signEvent_unsigned hsign, ?_⟩
        rcases reg.applyEvent ev with ⟨res, reg'⟩
        cases res <;> rfl
  | membershipEvent sk roomId actor target action tsMs =>
      unfold AuthorCall.run RoomRegistry.membershipEvent
      dsimp only
      split
      · exact Or.inl ⟨.unknownRoom, rfl⟩
      next room hroom =>
        split
        next e _ => exact Or.inl ⟨e, rfl⟩
        -- allowed: signed and applied
        next hauth =>
          split
          next e _ => exact Or.inl ⟨.event e, rfl⟩
          next ev hsign =>
            refine Or.inr ⟨ev, ⟨room, hroom, hauth, signEvent_unsigned hsign⟩, ?_⟩
            rcases reg.applyEvent ev with ⟨res, reg'⟩
            cases res <;> rfl

theorem WellFormed.authorStep (h : reg.WellFormed) (call : AuthorCall) :
    (authorStep reg call).WellFormed := by
  rcases call.run_cases reg with ⟨e, heq⟩ | ⟨ev, _, heq⟩
  · rw [RoomRegistry.authorStep, heq]
    exact h
  · rw [RoomRegistry.authorStep, heq]
    exact h.applyEvent ev

omit [Deserialize CreateRoomPayload] [Deserialize MembershipPayload] in
/-- What a call can do to the member states of a registry, with what it answers when it does. -/
inductive AuthorCall.Change (reg : RoomRegistry) :
    AuthorCall → Except RoomError SignedEvent → RoomRegistry → Prop
  | quiet {call : AuthorCall} {res : Except RoomError SignedEvent} {reg' : RoomRegistry} :
      MembersAgree reg reg' → Change reg call res reg'
  | founds {sk : Primitives.SigningKey} {creator : DeviceId} {name : String} {tsMs : UInt64}
      {ev : SignedEvent} {reg' : RoomRegistry} {r : RoomId} :
      reg.get r = none →
      (∀ r', reg'.creatorOf r' = if r' = r then some creator else reg.creatorOf r') →
      (∀ r' d, reg'.memberState r' d =
        if r' = r then (if d = creator then some .joined else none) else reg.memberState r' d) →
      Change reg (.createRoom sk creator name tsMs) (.ok ev) reg'
  | folds {sk : Primitives.SigningKey} {roomId : RoomId} {actor target : DeviceId}
      {action : MembershipAction} {tsMs : UInt64} {ev : SignedEvent} {reg' : RoomRegistry}
      {room : RoomState} :
      reg.get roomId = some room → authorize room actor target action = .ok () →
      ¬ action.Refuses (room.memberState target) →
      (∀ r, reg'.creatorOf r = reg.creatorOf r) →
      (∀ r d, reg'.memberState r d =
        if r = roomId ∧ d = target then some action.result else reg.memberState r d) →
      Change reg (.membershipEvent sk roomId actor target action tsMs) (.ok ev) reg'

omit [Primitives] [Deserialize CreateRoomPayload] in
/-- An event that is no membership event leaves the members alone when it enters its room. -/
theorem memberState_attach_other {room : RoomState} {ev : SignedEvent} (hk : ev.kind ≠ .membership)
    (d : DeviceId) : (attach room ev).2.memberState d = room.memberState d := by
  have hpay : payloadOf ev = none := by
    simp [payloadOf, hk]
  simp [attach, hpay, RoomState.memberState]

variable [RoundTrips CreateRoomPayload] [RoundTrips MembershipPayload]

omit [RoundTrips MembershipPayload] in
theorem change_createRoom (h : reg.WellFormed) {sk : Primitives.SigningKey} {creator : DeviceId}
    {name : String} {tsMs : UInt64} {ev : SignedEvent}
    (hs : (AuthorCall.createRoom sk creator name tsMs).Signs reg ev.unsigned) :
    (AuthorCall.createRoom sk creator name tsMs).Change reg
      ((reg.applyEvent ev).1.map fun _ => ev) (reg.applyEvent ev).2 := by
  have hkind : ev.kind = .createRoom := congrArg UnsignedEvent.kind hs
  have hpayload : ev.payload = toVec { creator := creator, name := name : CreateRoomPayload } :=
    congrArg UnsignedEvent.payload hs
  rcases applyEvent_effect h ev with ⟨payload, hf, hres, heq⟩ | ⟨room, ha, _, heq⟩ |
    ⟨_, _, _, hsame⟩
  · -- a new room, with its creator in it
    have hread : payload = { creator := creator, name := name } := by
      have hdec := hf.decoded
      rw [hpayload, RoundTrips.read] at hdec
      exact (Option.some.inj hdec).symm
    rw [hres, heq, hread]
    refine AuthorCall.Change.founds hf.unknown ?_ ?_
    · intro r'
      exact creatorOf_setRoom reg ev.roomId r' _
    · intro r' d
      have hroom : (founded ev { creator := creator, name := name }).memberState d =
          if d = creator then some .joined else none :=
        HashMap.lookup_insert_eq
      rw [memberState_setRoom, hroom]
  · rw [heq]
    apply AuthorCall.Change.quiet
    refine sameMembers_setRoom ha.known (attach_creator room ev) ?_
    exact memberState_attach_other (by simp [hkind])
  · apply AuthorCall.Change.quiet
    refine ⟨?_, ?_⟩
    · intro r d
      simp [memberState, hsame r]
    · intro r
      simp [creatorOf, hsame r]

omit [RoundTrips CreateRoomPayload] in
theorem change_membershipEvent (h : reg.WellFormed) {sk : Primitives.SigningKey} {roomId : RoomId}
    {actor target : DeviceId} {action : MembershipAction} {tsMs : UInt64} {ev : SignedEvent}
    (hs : (AuthorCall.membershipEvent sk roomId actor target action tsMs).Signs reg ev.unsigned) :
    (AuthorCall.membershipEvent sk roomId actor target action tsMs).Change reg
      ((reg.applyEvent ev).1.map fun _ => ev) (reg.applyEvent ev).2 := by
  rcases hs with ⟨room, hroom, hauth, hfields⟩
  have hkind : ev.kind = .membership := congrArg UnsignedEvent.kind hfields
  have hrid : ev.roomId = roomId := congrArg UnsignedEvent.roomId hfields
  have hpayload : ev.payload =
      toVec { target := target, action := action, actor := actor : MembershipPayload } :=
    congrArg UnsignedEvent.payload hfields
  have hpay : payloadOf ev = some { target := target, action := action, actor := actor } := by
    rw [payloadOf, if_pos hkind, hpayload, RoundTrips.read]
  subst hrid
  rcases applyEvent_effect h ev with ⟨payload, hf, _, _⟩ | ⟨room', ha, hres, heq⟩ |
    ⟨_, _, _, hsame⟩
  · have hnone := hf.unknown
    rw [hroom] at hnone
    cases hnone
  · have hknown := ha.known
    rw [hroom] at hknown
    cases hknown
    by_cases href : action.Refuses (room.memberState target)
    · -- the event stays in the DAG and the members stay as they were
      have href' : action.Refuses (room.members.lookup target) := href
      have hatt : attach room ev =
          (.error .invalidTransition, { room with dag := room.dag.inserted ev }) := by
        simp [attach, hpay, fold_eq, href']
      rw [heq, hatt]
      apply AuthorCall.Change.quiet
      exact sameMembers_setRoom hroom rfl fun _ => rfl
    · have href' : ¬ action.Refuses (room.members.lookup target) := href
      have hatt : attach room ev =
          (.ok true,
            { room with
              dag := room.dag.inserted ev
              members := room.members.insert target action.result
              tips := (room.dag.inserted ev).tips }) := by
        simp [attach, hpay, fold_eq, href']
      rw [hres, heq, hatt]
      refine AuthorCall.Change.folds hroom hauth href ?_ ?_
      · intro r
        rw [creatorOf_setRoom]
        split
        next heq' => rw [heq', creatorOf, hroom]; rfl
        · rfl
      · intro r d
        rw [memberState_setRoom]
        by_cases hr : r = ev.roomId
        · subst hr
          rw [if_pos rfl, memberState_of_get hroom]
          simp [RoomState.memberState, HashMap.lookup_insert_eq]
        · simp [hr]
  · apply AuthorCall.Change.quiet
    refine ⟨?_, ?_⟩
    · intro r d
      simp [memberState, hsame r]
    · intro r
      simp [creatorOf, hsame r]

/-- What one call does to the member states. -/
theorem AuthorCall.change (h : reg.WellFormed) (call : AuthorCall) :
    call.Change reg (call.run reg).1 (call.run reg).2 := by
  rcases call.run_cases reg with ⟨e, heq⟩ | ⟨ev, hs, heq⟩
  · rw [heq]
    exact AuthorCall.Change.quiet (MembersAgree.refl reg)
  · rw [heq]
    cases call with
    | createRoom sk creator name tsMs => exact change_createRoom h hs
    | membershipEvent sk roomId actor target action tsMs => exact change_membershipEvent h hs

/-! ## A ban is final -/

/-- No call moves a banned device. -/
theorem banned_authorStep (h : reg.WellFormed) (call : AuthorCall) {r : RoomId} {d : DeviceId}
    (hb : reg.memberState r d = some .banned) :
    (authorStep reg call).memberState r d = some .banned := by
  have hknown : reg.get r ≠ none := by
    intro hnone
    simp [memberState, hnone] at hb
  have hchange := call.change h
  change (call.run reg).2.memberState r d = some .banned
  generalize call.run reg = out at hchange
  rcases out with ⟨res, reg'⟩
  cases hchange with
  | quiet hsame => rw [hsame.states, hb]
  | founds hnone _ hstates =>
      rw [hstates, if_neg, hb]
      rintro rfl
      exact hknown hnone
  | @folds sk roomId actor target action tsMs ev _ room hroom hauth href _ hstates =>
      rw [hstates]
      split
      next hat =>
        rcases hat with ⟨rfl, rfl⟩
        -- only the fold could change the state, and it refuses
        have hst : room.memberState d = some .banned := by
          rw [← memberState_of_get hroom, hb]
        cases action with
        | ban => rfl
        | invite => exact absurd ⟨Or.inl rfl, hst⟩ href
        | join => exact absurd ⟨Or.inr rfl, hst⟩ href
        | leave => simp [authorize, hst] at hauth
      · exact hb

/-! ## Where members come from -/

/-- The device has a place in the room, or an offer of one, that is not the creator's. -/
def HasPlace (reg : RoomRegistry) (at' : RoomId × DeviceId) : Prop :=
  (reg.memberState at'.1 at'.2 = some .joined ∨ reg.memberState at'.1 at'.2 = some .invited) ∧
    reg.creatorOf at'.1 ≠ some at'.2

/-- The call succeeds in inviting the device, for an actor that is joined. -/
def Invites (reg : RoomRegistry) (call : AuthorCall) (at' : RoomId × DeviceId) : Prop :=
  ∃ sk actor tsMs ev, call = .membershipEvent sk at'.1 actor at'.2 .invite tsMs ∧
    (call.run reg).1 = .ok ev ∧ reg.memberState at'.1 actor = some .joined

/-- A call gives a place to none but the device it invites. -/
theorem hasPlace_authorStep (h : reg.WellFormed) (call : AuthorCall) (at' : RoomId × DeviceId)
    (hp : HasPlace (authorStep reg call) at') : HasPlace reg at' ∨ Invites reg call at' := by
  rcases at' with ⟨r, d⟩
  rcases hp with ⟨hplace, hnot⟩
  have hchange := call.change h
  unfold authorStep at hplace hnot
  dsimp only at hplace hnot
  generalize hrun : call.run reg = out at hchange hplace hnot
  rcases out with ⟨res, reg'⟩
  cases hchange with
  | quiet hsame =>
      rw [hsame.states] at hplace
      rw [hsame.creators] at hnot
      exact Or.inl ⟨hplace, hnot⟩
  | @founds sk creator name tsMs ev _ r₀ _ hcreators hstates =>
      rw [hstates] at hplace
      rw [hcreators] at hnot
      by_cases hr : r = r₀
      · simp only [if_pos hr] at hplace hnot
        have hne : d ≠ creator := by
          rintro rfl
          exact hnot rfl
        simp [hne] at hplace
      · simp only [if_neg hr] at hplace hnot
        exact Or.inl ⟨hplace, hnot⟩
  | @folds sk roomId actor target action tsMs ev _ room hroom hauth href hcreators hstates =>
      rw [hstates] at hplace
      rw [hcreators] at hnot
      by_cases hat : r = roomId ∧ d = target
      · rcases hat with ⟨rfl, rfl⟩
        simp only [and_self, if_true, Option.some.injEq] at hplace
        cases action with
        | invite =>
            have hjoined : room.memberState actor = some .joined := by
              simpa [authorize, RoomState.isJoined] using hauth
            refine Or.inr ⟨sk, actor, tsMs, ev, rfl, by rw [hrun], ?_⟩
            rw [memberState_of_get hroom, hjoined]
        | join =>
            -- the device had its place or its offer before
            refine Or.inl ⟨?_, hnot⟩
            rw [memberState_of_get hroom]
            by_cases hself : actor = d
            · by_cases hst : room.memberState d = some .invited ∨ room.memberState d = some .joined
              · exact hst.symm
              · simp [authorize, hself, hst] at hauth
            · simp [authorize, hself] at hauth
        | leave => simp [MembershipAction.result] at hplace
        | ban => simp [MembershipAction.result] at hplace
      · simp only [if_neg hat] at hplace
        exact Or.inl ⟨hplace, hnot⟩

/-! ## Whole runs -/

/-- In every run of `create_room` and `membership_event` calls a ban is final, a joined device is the creator
of its room or was invited by one that was joined then, and a call that fails changes no member state. -/
theorem authored_members (calls : List AuthorCall) :
    (∀ more r d, (Runs.run authorStep new calls).memberState r d = some .banned →
      (Runs.run authorStep new (calls ++ more)).memberState r d = some .banned) ∧
    (∀ r d, (Runs.run authorStep new calls).memberState r d = some .joined →
      (Runs.run authorStep new calls).creatorOf r = some d ∨
        ∃ before call after, calls = before ++ call :: after ∧
          Invites (Runs.run authorStep new before) call (r, d)) ∧
    ∀ (call : AuthorCall) (e : RoomError),
      (call.run (Runs.run authorStep new calls)).1 = .error e → ∀ r d,
        (call.run (Runs.run authorStep new calls)).2.memberState r d =
          (Runs.run authorStep new calls).memberState r d := by
  have hwf : (Runs.run authorStep new calls).WellFormed :=
    Runs.run_invariant (fun (_ : RoomRegistry) call h => h.authorStep call) calls wellFormed_new
  refine ⟨?_, ?_, ?_⟩
  · intro more r d hb
    rw [Runs.run_append]
    have hstep : ∀ (reg : RoomRegistry) (call : AuthorCall),
        reg.WellFormed ∧ reg.memberState r d = some .banned →
          (authorStep reg call).WellFormed ∧ (authorStep reg call).memberState r d = some .banned := by
      rintro reg call ⟨h, hst⟩
      exact ⟨h.authorStep call, banned_authorStep h call hst⟩
    exact (Runs.run_invariant hstep more ⟨hwf, hb⟩).2
  · intro r d hj
    by_cases hc : (Runs.run authorStep new calls).creatorOf r = some d
    · exact Or.inl hc
    -- its place was given after the start, so some call gave it
    · have hnone : ∀ at', ¬ HasPlace new at' := by
        rintro at' ⟨hplace, _⟩
        rcases hplace with h | h <;> cases h
      have hstep : ∀ reg call at', reg.WellFormed → HasPlace (authorStep reg call) at' →
          (HasPlace reg at' ∧ ¬ False) ∨ Invites reg call at' := by
        intro reg call at' h hp
        rcases hasPlace_authorStep h call at' hp with hold | hnew
        · exact Or.inl ⟨hold, not_false⟩
        · exact Or.inr hnew
      have hkeeps : ∀ (reg : RoomRegistry) (call : AuthorCall), reg.WellFormed →
          (authorStep reg call).WellFormed := fun _ call h => h.authorStep call
      have hplace : HasPlace (Runs.run authorStep new calls) (r, d) := ⟨Or.inl hj, hc⟩
      rcases Runs.provenance_of_inv hkeeps hstep wellFormed_new hnone calls hplace with
        ⟨before, call, after, hsplit, hinv, _⟩
      exact Or.inr ⟨before, call, after, hsplit, hinv⟩
  · intro call e herr r d
    have hchange := call.change hwf
    rw [herr] at hchange
    cases hchange with
    | quiet hsame => exact hsame.states r d

end Authoring

section Example

open Checksum

attribute [local instance] Checksum.primitives

theorem createRoomPayload_toJson_injective (a b : CreateRoomPayload)
    (h : Serialize.toJson a = Serialize.toJson b) : a = b := by
  have hfields := Json.obj.inj h
  simp only [List.cons.injEq, Prod.mk.injEq, true_and, and_true] at hfields
  rcases hfields with ⟨hcreator, hname⟩
  rcases a with ⟨⟨_⟩, _⟩
  rcases b with ⟨⟨_⟩, _⟩
  simp only [CreateRoomPayload.mk.injEq, DeviceId.mk.injEq]
  exact ⟨Bytes32.toJson_injective hcreator, Json.str.inj hname⟩

@[reducible] noncomputable def writtenCreate : Deserialize CreateRoomPayload :=
  Deserialize.ofWritten CreateRoomPayload

attribute [local instance] writtenCreate writtenMembership

/-- After a room, a ban, a refused invitation and two more bans nothing brings a banned device back. -/
theorem authored_members_persistentBan :
    persistentBan.length = 5 ∧ ∀ more r d,
      (Runs.run authorStep new persistentBan).memberState r d = some .banned →
        (Runs.run authorStep new (persistentBan ++ more)).memberState r d = some .banned := by
  have := roundTrips_membership
  have : RoundTrips CreateRoomPayload := roundTrips_ofWritten createRoomPayload_toJson_injective
  exact ⟨rfl, (authored_members persistentBan).1⟩

end Example

end RoomRegistry
end Event
end Thunderducks
