import Mathlib.Data.Option.Basic
import Thunderducks.Lib.Runs
import Thunderducks.Event.Applied
import Thunderducks.Event.ContentAddress

/-!
# Replay — a second registry follows the first

`author` runs `create_room` and `membership_event` on a registry and collects the events of the calls that
succeed; `replay` applies these to another one.  A call that fails after its event has entered the DAG
leaves the event behind, and later calls build on it: `reproduced_of_banned_uninvited` says which runs
another registry can follow.
-/

namespace Thunderducks
namespace Event
namespace RoomRegistry

open Lib

section Replay

variable [Primitives] [Deserialize CreateRoomPayload] [Deserialize MembershipPayload]

/-! ## Authoring and replaying -/

inductive AuthorCall
  | createRoom (sk : Primitives.SigningKey) (creator : DeviceId) (name : String) (tsMs : UInt64)
  | membershipEvent (sk : Primitives.SigningKey) (roomId : RoomId) (actor target : DeviceId)
      (action : MembershipAction) (tsMs : UInt64)

def AuthorCall.run (reg : RoomRegistry) : AuthorCall → Except RoomError SignedEvent × RoomRegistry
  | .createRoom sk creator name tsMs =>
      let (res, reg) := reg.createRoom sk creator name tsMs
      (res.map Prod.snd, reg)
  | .membershipEvent sk roomId actor target action tsMs =>
      reg.membershipEvent sk roomId actor target action tsMs

/-- The registry after a call. -/
def authorStep (reg : RoomRegistry) (call : AuthorCall) : RoomRegistry :=
  (call.run reg).2

/-- The events that the successful calls return, and the registry after all of them. -/
def author : RoomRegistry → List AuthorCall → List SignedEvent × RoomRegistry
  | reg, [] => ([], reg)
  | reg, call :: calls =>
      let (res, reg) := call.run reg
      let (evs, reg) := author reg calls
      (res.toOption.toList ++ evs, reg)

/-- Apply events one by one and keep the results. -/
def replay : RoomRegistry → List SignedEvent → List (Except RoomError Bool) × RoomRegistry
  | reg, [] => ([], reg)
  | reg, ev :: evs =>
      let (res, reg) := reg.applyEvent ev
      let (ress, reg) := replay reg evs
      (res :: ress, reg)

omit [Primitives] [Deserialize CreateRoomPayload] [Deserialize MembershipPayload] in
/-- Two rooms with the same name, creator, member states, events and, as a set, tips. -/
structure SameRoom (x y : RoomState) : Prop where
  roomId : x.roomId = y.roomId
  name : x.name = y.name
  creator : x.creator = y.creator
  members : ∀ d, x.memberState d = y.memberState d
  events : ∀ i, x.dag.get i = y.dag.get i
  tips : ∀ i, i ∈ x.tips ↔ i ∈ y.tips

/-- Replaying the events of the successful calls succeeds and rebuilds every room. -/
def Reproduced (calls : List AuthorCall) : Prop :=
  (∀ res ∈ (replay RoomRegistry.new (author RoomRegistry.new calls).1).1, ∃ b, res = .ok b) ∧
    ∀ r, Option.Rel SameRoom ((author RoomRegistry.new calls).2.get r)
      ((replay RoomRegistry.new (author RoomRegistry.new calls).1).2.get r)

/-- The call is no invitation of a banned device that a joined member signs with its own key. -/
def BannedUninvited (reg : RoomRegistry) : AuthorCall → Prop
  | .membershipEvent sk roomId actor target .invite _ => ∀ room, reg.get roomId = some room →
      room.isJoined actor = true → actor = DeviceId.fromVerifyingKey (Primitives.verifyingKey sk) →
      room.memberState target ≠ some .banned
  | _ => True

/-! ## A failed call leaves the registry alone -/

section Failure

variable {reg : RoomRegistry} {ev : SignedEvent}

omit [Deserialize CreateRoomPayload] [Deserialize MembershipPayload] in
/-- A DAG that has the parents takes the event or has it. -/
theorem ingest_ok {dag : RoomDag} (h : dag.WellFormed ev.roomId) (hv : Verified ev)
    (hp : ∀ p ∈ ev.parents, p ∈ dag.events) :
    ∃ b, dag.ingest ev = (.ok b, if b then dag.inserted ev else dag) := by
  by_cases hmem : ev.id ∈ dag.events
  · exact ⟨false, RoomDag.ingest_duplicate hv h.ofRoom hmem⟩
  · exact ⟨true, RoomDag.ingest_new hv h.ofRoom hmem hp⟩

/-- An event with its parents in the room and no refused action fails before it changes anything. -/
theorem applyEvent_error_same (h : reg.WellFormed)
    (hk : ev.kind = .createRoom ∨ ev.kind = .membership)
    (hp : ∀ room, reg.get ev.roomId = some room → ∀ p ∈ ev.parents, p ∈ room.dag.events)
    (hfold : ∀ room payload, reg.get ev.roomId = some room → payloadOf ev = some payload →
      ¬ payload.action.Refuses (room.memberState payload.target))
    {e : RoomError} (herr : (reg.applyEvent ev).1 = .error e) : (reg.applyEvent ev).2 = reg := by
  by_cases hv : Verified ev
  swap
  · cases hver : verifyEvent ev with
    | ok u => exact absurd hver hv
    | error e => simp [applyEvent, hver]
  rcases hk with hk | hk
  · rw [applyEvent_create hv hk] at herr ⊢
    cases hdec : (Deserialize.fromSlice ev.payload : Option CreateRoomPayload) with
    | none => simp [applyCreate, hdec]
    | some payload =>
        cases hroom : reg.rooms.lookup ev.roomId with
        | none =>
            simp only [applyCreate, hdec, hroom] at herr ⊢
            split at herr
            · rfl
            · cases herr
        | some room =>
            rcases ingest_ok (h.dag hroom) hv (hp room hroom) with ⟨b, hing⟩
            simp [applyCreate, hdec, hroom, hing] at herr
  · rw [applyEvent_membership hv hk] at herr ⊢
    cases hdec : (Deserialize.fromSlice ev.payload : Option MembershipPayload) with
    | none => simp [applyMembership, hdec]
    | some payload =>
        cases hroom : reg.rooms.lookup ev.roomId with
        | none => simp [applyMembership, hdec, hroom]
        | some room =>
            have hpay : payloadOf ev = some payload := by
              simp [payloadOf, hk, hdec]
            have href : ¬ payload.action.Refuses (room.members.lookup payload.target) :=
              hfold room payload hroom hpay
            -- with its parents there and the fold willing it does not fail after all
            rcases ingest_ok (h.dag hroom) hv (hp room hroom) with ⟨b, hing⟩
            cases b with
            | false => simp [applyMembership, hdec, hroom, hing] at herr
            | true => simp [applyMembership, hdec, hroom, hing, fold_eq, href] at herr

end Failure

/-! ## One call -/

/-- The call returns an event whose application does what the call did, or fails and changes
nothing. -/
def Follows (reg : RoomRegistry) (call : AuthorCall) : Prop :=
  (∃ ev b, call.run reg = (.ok ev, (reg.applyEvent ev).2) ∧ (reg.applyEvent ev).1 = .ok b) ∨
    ∃ e, call.run reg = (.error e, reg)

theorem follows_createRoom {reg : RoomRegistry} (h : reg.WellFormed) (sk : Primitives.SigningKey)
    (creator : DeviceId) (name : String) (tsMs : UInt64) :
    Follows reg (.createRoom sk creator name tsMs) := by
  unfold Follows AuthorCall.run createRoom
  dsimp only
  split
  next e _ => exact Or.inr ⟨.event e, rfl⟩
  next signed hsign =>
    have hkeeps := signEvent_unsigned hsign
    have hkind : signed.kind = .createRoom := congrArg UnsignedEvent.kind hkeeps
    have hroot : signed.parents = [] := congrArg UnsignedEvent.parents hkeeps
    rcases happly : reg.applyEvent signed with ⟨res, reg'⟩
    cases res with
    | ok b =>
        refine Or.inl ⟨signed, b, ?_, by rw [happly]⟩
        simp [happly, Except.map]
    | error e =>
        have hsame : (reg.applyEvent signed).2 = reg := by
          refine applyEvent_error_same h (Or.inl hkind) (by simp [hroot]) ?_ (by rw [happly])
          intro room payload _ hpay
          simp [payloadOf, hkind] at hpay
        rw [happly] at hsame
        dsimp only at hsame
        refine Or.inr ⟨e, ?_⟩
        simp [hsame, Except.map]

variable [RoundTrips MembershipPayload]

theorem follows_membershipEvent {reg : RoomRegistry} (h : reg.WellFormed)
    (sk : Primitives.SigningKey) (roomId : RoomId) (actor target : DeviceId)
    (action : MembershipAction) (tsMs : UInt64)
    (hok : BannedUninvited reg (.membershipEvent sk roomId actor target action tsMs)) :
    Follows reg (.membershipEvent sk roomId actor target action tsMs) := by
  unfold Follows AuthorCall.run membershipEvent
  dsimp only
  split
  · exact Or.inr ⟨.unknownRoom, rfl⟩
  next room hroom =>
    split
    next e _ => exact Or.inr ⟨e, rfl⟩
    next hauth =>
      split
      next e _ => exact Or.inr ⟨.event e, rfl⟩
      next signed hsign =>
        have hkeeps := signEvent_unsigned hsign
        have hkind : signed.kind = .membership := congrArg UnsignedEvent.kind hkeeps
        have hparents : signed.parents = room.tips := congrArg UnsignedEvent.parents hkeeps
        have hrid : signed.roomId = roomId := congrArg UnsignedEvent.roomId hkeeps
        have hpayload : signed.payload = toVec ({ target := target, action := action, actor := actor } :
            MembershipPayload) := congrArg UnsignedEvent.payload hkeeps
        have hown : actor = DeviceId.fromVerifyingKey (Primitives.verifyingKey sk) :=
          (signEvent_ok_iff sk _).1 ⟨signed, hsign⟩
        have hknown : reg.get signed.roomId = some room := by
          rw [hrid]
          exact hroom
        rcases happly : reg.applyEvent signed with ⟨res, reg'⟩
        cases res with
        | ok b => exact Or.inl ⟨signed, b, by simp [happly], by rw [happly]⟩
        | error e =>
            have hsame : (reg.applyEvent signed).2 = reg := by
              refine applyEvent_error_same h (Or.inr hkind) ?_ ?_ (by rw [happly])
              · intro room' hroom' p hp
                rw [hknown] at hroom'
                cases hroom'
                rw [hparents] at hp
                exact h.tips hknown p hp
              · -- neither an invitation nor a join of a banned device gets this far
                intro room' payload hroom' hpay
                rw [hknown] at hroom'
                cases hroom'
                have hread : payload = { target := target, action := action, actor := actor } := by
                  rw [payloadOf, if_pos hkind, hpayload, RoundTrips.read] at hpay
                  exact (Option.some.inj hpay).symm
                subst hread
                rintro ⟨hact, hbanned⟩
                dsimp only at hact hbanned
                rcases hact with rfl | rfl
                · have hjoined : room.isJoined actor = true := by
                    simpa [authorize] using hauth
                  exact hok room hroom hjoined hown hbanned
                · by_cases hself : actor = target
                  · simp [authorize, hself, hbanned] at hauth
                  · simp [authorize, hself] at hauth
            rw [happly] at hsame
            dsimp only at hsame
            exact Or.inr ⟨e, by simp [hsame]⟩

theorem follows_call {reg : RoomRegistry} (h : reg.WellFormed) (call : AuthorCall)
    (hok : BannedUninvited reg call) : Follows reg call := by
  cases call with
  | createRoom sk creator name tsMs => exact follows_createRoom h sk creator name tsMs
  | membershipEvent sk roomId actor target action tsMs =>
      exact follows_membershipEvent h sk roomId actor target action tsMs hok

/-! ## Whole runs -/

/-- The replay ends in the very registry that the calls built. -/
theorem replay_author (calls : List AuthorCall) : ∀ {reg : RoomRegistry}, reg.WellFormed →
    Runs.Along authorStep BannedUninvited reg calls →
    (∀ res ∈ (replay reg (author reg calls).1).1, ∃ b, res = .ok b) ∧
      (replay reg (author reg calls).1).2 = (author reg calls).2 := by
  induction calls with
  | nil =>
      intro reg _ _
      exact ⟨by simp [author, replay], rfl⟩
  | cons call calls ih =>
      intro reg h hok
      rcases hok with ⟨hcall, hrest⟩
      rcases follows_call h call hcall with ⟨ev, b, hrun, happly⟩ | ⟨e, hrun⟩
      · have hstep : authorStep reg call = (reg.applyEvent ev).2 := by
          rw [authorStep, hrun]
        rw [hstep] at hrest
        rcases ih (h.applyEvent ev) hrest with ⟨hall, hsame⟩
        refine ⟨?_, ?_⟩
        · intro res hres
          simp only [author, hrun, Except.toOption, Option.toList_some, List.cons_append,
            List.nil_append, replay, List.mem_cons] at hres
          rcases hres with rfl | hres
          · exact ⟨b, happly⟩
          · exact hall res hres
        · simpa [author, hrun, Except.toOption, replay] using hsame
      · -- a call that failed returned no event, and changed nothing
        have hstep : authorStep reg call = reg := by
          rw [authorStep, hrun]
        rw [hstep] at hrest
        simpa [author, hrun, Except.toOption] using ih h hrest

omit [Primitives] [Deserialize CreateRoomPayload] [Deserialize MembershipPayload]
  [RoundTrips MembershipPayload] in
theorem sameRoom_refl (room : RoomState) : SameRoom room room :=
  ⟨rfl, rfl, rfl, fun _ => rfl, fun _ => rfl, fun _ => Iff.rfl⟩

/-- Every run of calls in which no joined member invites a banned device is reproduced by a registry that
applies the events the calls returned. -/
theorem reproduced_of_banned_uninvited (calls : List AuthorCall)
    (hok : Runs.Along authorStep BannedUninvited RoomRegistry.new calls) : Reproduced calls := by
  rcases replay_author calls wellFormed_new hok with ⟨hall, hsame⟩
  refine ⟨hall, ?_⟩
  intro r
  rw [hsame]
  cases (author RoomRegistry.new calls).2.get r with
  | none => exact Option.Rel.none
  | some room => exact Option.Rel.some (sameRoom_refl room)

end Replay

/-! ## A refused invitation stays in the DAG -/

section Example

open Checksum

section Refused

attribute [local instance] Checksum.primitives createReader membershipReader

/-- The creator bans device 2, tries to invite it, and then bans it twice more. -/
def persistentBan : List AuthorCall :=
  let pondId := roomIdFromParts (device 1) "pond" 1
  [.createRoom (key 1) (device 1) "pond" 1,
    .membershipEvent (key 1) pondId (device 1) (device 2) .ban 2,
    .membershipEvent (key 1) pondId (device 1) (device 2) .invite 3,
    .membershipEvent (key 1) pondId (device 1) (device 2) .ban 4,
    .membershipEvent (key 1) pondId (device 1) (device 2) .ban 5]

theorem author_not_reproduced : ¬ ∀ calls : List AuthorCall, Reproduced calls := by
  intro h
  have hfails : ((replay RoomRegistry.new (author RoomRegistry.new persistentBan).1).1.any
      fun res => match res with
        | .ok _ => false
        | .error _ => true) = true := by
    decide +kernel
  rcases List.any_eq_true.1 hfails with ⟨res, hres, herr⟩
  rcases (h persistentBan).1 res hres with ⟨b, rfl⟩
  cases herr

end Refused

attribute [local instance] Checksum.primitives

theorem membershipPayload_toJson_injective (a b : MembershipPayload)
    (h : Serialize.toJson a = Serialize.toJson b) : a = b := by
  have haction : ∀ {x y : MembershipAction}, x.toJson = y.toJson → x = y := by
    intro x y hxy
    have hname : ∀ {s t : String}, Json.str s = Json.str t → s = t := Json.str.inj
    cases x <;> cases y <;> first | rfl | exact absurd (hname hxy) (by decide)
  have hfields := Json.obj.inj h
  simp only [List.cons.injEq, Prod.mk.injEq, true_and, and_true] at hfields
  rcases hfields with ⟨htarget, hact, hactor⟩
  rcases a with ⟨⟨_⟩, _, ⟨_⟩⟩
  rcases b with ⟨⟨_⟩, _, ⟨_⟩⟩
  simp only [MembershipPayload.mk.injEq, DeviceId.mk.injEq]
  exact ⟨Bytes32.toJson_injective htarget, haction hact, Bytes32.toJson_injective hactor⟩

@[reducible] noncomputable def writtenMembership : Deserialize MembershipPayload :=
  Deserialize.ofWritten MembershipPayload

attribute [local instance] createReader writtenMembership

theorem roundTrips_membership : RoundTrips MembershipPayload :=
  roundTrips_ofWritten membershipPayload_toJson_injective

/-- A room and a ban can be followed. -/
theorem reproduced_of_banned_uninvited_ban :
    Reproduced [.createRoom (key 1) (device 1) "pond" 1,
      .membershipEvent (key 1) (roomIdFromParts (device 1) "pond" 1) (device 1) (device 2) .ban 2] := by
  have := roundTrips_membership
  refine reproduced_of_banned_uninvited _ ?_
  exact ⟨trivial, trivial, trivial⟩

end Example

end RoomRegistry
end Event
end Thunderducks
