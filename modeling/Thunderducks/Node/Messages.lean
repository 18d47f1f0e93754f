import Thunderducks.Event.Invited
import Thunderducks.Node.TwoStores

/-!
# Messages — who may write into a room

The registry keeps the members of a room, the log keeps its messages.  `assert_can_message` stands between
them in `send_message` only, and there it is passed over when the log has any event of the room;
`ingest_remote` commits a message without asking the registry.  `onlyMembers_run` says which runs keep
every message of a known room in the hands of its members.
-/

namespace Thunderducks
namespace Node

open Lib Event Crypto RoomRegistry

section Messages

variable [Olm] [Primitives] [Deserialize CreateRoomPayload] [Deserialize MembershipPayload]

/-- The device is joined in the room, if the registry knows the room. -/
def MayWrite (reg : RoomRegistry) (r : RoomId) (d : DeviceId) : Prop :=
  reg.creatorOf r = none ∨ reg.memberState r d = some .joined

omit [Olm] [Primitives] [Deserialize CreateRoomPayload] [Deserialize MembershipPayload] in
theorem mayWrite_congr {reg reg' : RoomRegistry} (h : MembersAgree reg reg') (r : RoomId) (d : DeviceId) :
    MayWrite reg' r d ↔ MayWrite reg r d := by
  unfold MayWrite
  rw [h.creators, h.states]

omit [Olm] [Primitives] [Deserialize CreateRoomPayload] [Deserialize MembershipPayload] in
/-- A device that may not write is one that `assert_can_message` refuses. -/
theorem assertCanMessage_of_not_mayWrite {reg : RoomRegistry} {r : RoomId} {d : DeviceId}
    (h : ¬ MayWrite reg r d) : reg.assertCanMessage r d = .error (.notMember d) := by
  unfold MayWrite creatorOf memberState at h
  unfold assertCanMessage
  cases hget : reg.get r with
  | none => simp [hget] at h
  | some room =>
      have hnot : room.isJoined d = false := by
        simpa [hget, RoomState.isJoined] using h
      simp [hnot]

omit [Olm] [Primitives] [Deserialize MembershipPayload] in
/-- What the node writes into the event of a new room, it reads back. -/
def ReadsBack (creator : DeviceId) (name : String) : Prop :=
  Deserialize.fromSlice (toVec { creator := creator, name := name : CreateRoomPayload }) =
    some { creator := creator, name := name : CreateRoomPayload }

namespace SessionCall

variable (b64 : Encoded MegolmMessage → String) (sk : Primitives.SigningKey)

/-- The registry as it stands when the log takes what the call brings: `ingest_remote` commits first, the
other two show the event to the registry first. -/
def registryAtCommit (s : NodeSession) : SessionCall → RoomRegistry
  | .ingestRemote _ => s.rooms
  | call => (call.step b64 sk s).rooms

/-- The messages that the call puts into the log come from devices that may write, and the node's own
message is refused where the node may not. -/
def OnlyMembers (s : NodeSession) (call : SessionCall) : Prop :=
  (∀ i e, (call.step b64 sk s).node.events.lookup i = some e → s.node.events.lookup i = none →
    e.kind = .message → MayWrite (registryAtCommit b64 sk s call) e.roomId e.authorDevice) ∧
  ∀ roomId text freshId ts, call = .sendMessage roomId text freshId ts →
    ¬ MayWrite s.rooms roomId s.deviceId →
      ∃ e, (s.sendMessage b64 sk roomId text freshId ts).1 = .error (.room e)

/-- The author may write into the room as it is, or as the call is about to make it. -/
def Welcomes (s : NodeSession) (call : SessionCall) (e : SignedEvent) : Prop :=
  match call with
  | .createRoom name ts =>
      if s.rooms.creatorOf e.roomId = none ∧
          e.roomId = RoomRegistry.roomIdFromParts s.deviceId name ts then
        e.authorDevice = s.deviceId
      else
        MayWrite s.rooms e.roomId e.authorDevice
  | _ => MayWrite s.rooms e.roomId e.authorDevice

/-- Every message that the log takes with the call, the event of the call itself or one that was parked, is
by a device that may write; and where the node itself may not, its log has nothing of the room. -/
def Guarded (s : NodeSession) (call : SessionCall) : Prop :=
  (∀ ev, call.Brings b64 sk s ev → s.node.Takes ev → ∀ x, x = ev ∨ s.node.Released ev x →
    x.kind = .message → Welcomes s call x) ∧
  ∀ roomId text freshId ts, call = .sendMessage roomId text freshId ts →
    ¬ MayWrite s.rooms roomId s.deviceId → (s.node.roomEventIds roomId).isEmpty = true

variable {b64 sk} {s : NodeSession}

/-! ## One call -/

omit [Olm] in
/-- An event that is neither a `CreateRoom` nor a membership event changes no member. -/
theorem sameMembers_applyEvent {reg : RoomRegistry} (h : reg.WellFormed) {ev : SignedEvent}
    (hc : ev.kind ≠ .createRoom) (hm : ev.kind ≠ .membership) :
    MembersAgree reg (reg.applyEvent ev).2 := by
  rcases applyEvent_effect h ev with ⟨payload, hf, _, _⟩ | ⟨room, ha, _, heq⟩ | ⟨_, _, _, hsame⟩
  · exact absurd hf.kind hc
  · rw [heq]
    exact sameMembers_setRoom ha.known (attach_creator room ev) (memberState_attach_other hm)
  · refine ⟨?_, ?_⟩
    · intro r d
      simp [memberState, hsame r]
    · intro r
      simp [creatorOf, hsame r]

omit [Deserialize CreateRoomPayload] [Deserialize MembershipPayload] in
/-- The new events of the log, where a call has committed `ev`. -/
theorem fresh_commit (hs : s.node.Sound) {ev : SignedEvent} (toOutbox : Bool) {i : EventId}
    {e : SignedEvent} (hl : (s.node.commit ev toOutbox).2.events.lookup i = some e)
    (hnew : s.node.events.lookup i = none) : s.node.Takes ev ∧ (e = ev ∨ s.node.Released ev e) := by
  rcases DeviceNode.commit_log hs ev toOutbox with ⟨_, hsame⟩ | ⟨htakes, hadv⟩
  · rw [hsame, hnew] at hl
    cases hl
  · rcases hadv.fresh hl with hold | hev
    · rw [hnew] at hold
      cases hold
    · exact ⟨htakes, hev⟩

omit [Olm] in
/-- What `create_room` makes of the room it names, for a device that it welcomes. -/
theorem mayWrite_createRoom {reg : RoomRegistry} (h : reg.WellFormed) {creator : DeviceId}
    {name : String} {ts : UInt64} (hback : ReadsBack creator name) {ev : SignedEvent} (hs :
    (AuthorCall.createRoom sk creator name ts).Signs reg ev.unsigned) {r : RoomId} {d : DeviceId}
    (hw : if reg.creatorOf r = none ∧ r = RoomRegistry.roomIdFromParts creator name ts then
      d = creator else MayWrite reg r d) : MayWrite (reg.applyEvent ev).2 r d := by
  have hrid : ev.roomId = RoomRegistry.roomIdFromParts creator name ts :=
    congrArg UnsignedEvent.roomId hs
  rcases applyEvent_effect h ev with ⟨payload, hf, _, heq⟩ | ⟨room, ha, _, heq⟩ | ⟨_, _, _, hsame⟩
  -- the room is new and has its creator as the only member
  · have hpayload : ev.payload = toVec { creator := creator, name := name : CreateRoomPayload } :=
      congrArg UnsignedEvent.payload hs
    have hread : payload = { creator := creator, name := name } := by
      have hdec := hf.decoded
      rw [hpayload, hback] at hdec
      exact (Option.some.inj hdec).symm
    have hunknown : reg.creatorOf ev.roomId = none := by
      simp [creatorOf, hf.unknown]
    rw [heq, hread]
    unfold MayWrite
    rw [creatorOf_setRoom, memberState_setRoom]
    by_cases hr : r = ev.roomId
    · rw [if_pos ⟨by rw [hr, hunknown], by rw [hr, hrid]⟩] at hw
      have hjoined : (founded ev { creator := creator, name := name }).memberState creator =
          some .joined := AList.lookup_insert _
      rw [if_pos hr, if_pos hr, hw, hjoined]
      exact Or.inr rfl
    · rw [if_neg (fun hboth => hr (by rw [hboth.2, hrid]))] at hw
      rw [if_neg hr, if_neg hr]
      exact hw
  -- the room is known: the event enters its DAG and acts on nobody
  · have hkind : ev.kind = .createRoom := congrArg UnsignedEvent.kind hs
    have hmembers : MembersAgree reg (reg.setRoom ev.roomId (attach room ev).2) :=
      sameMembers_setRoom ha.known (attach_creator room ev) (memberState_attach_other (by simp [hkind]))
    rw [heq, mayWrite_congr hmembers]
    by_cases hr : reg.creatorOf r = none
    · exact Or.inl hr
    · rwa [if_neg (fun hboth => hr hboth.1)] at hw
  · have hmembers : MembersAgree reg (reg.applyEvent ev).2 := by
      refine ⟨?_, ?_⟩
      · intro r d
        simp [memberState, hsame r]
      · intro r
        simp [creatorOf, hsame r]
    rw [mayWrite_congr hmembers]
    by_cases hr : reg.creatorOf r = none
    · exact Or.inl hr
    · rwa [if_neg (fun hboth => hr hboth.1)] at hw

/-- What holds of a session in every run. -/
def Stored (s : NodeSession) : Prop :=
  s.rooms.WellFormed ∧ s.node.Sound

theorem Stored.step (h : Stored s) (call : SessionCall) : Stored (call.step b64 sk s) := by
  rcases @step_stores _ _ _ _ b64 sk s call with ⟨hrooms, hnode⟩
  refine ⟨?_, ?_⟩
  · rcases hrooms with hsame | ⟨ev, heq⟩
    · rw [hsame]
      exact h.1
    · rw [heq]
      exact h.1.applyEvent ev
  · rcases hnode with hsame | ⟨ev, toOutbox, _, heq⟩
    · rw [hsame]
      exact h.2
    · rw [heq]
      exact h.2.commit ev toOutbox

theorem onlyMembers_createRoom (h : Stored s) (name : String) (ts : UInt64)
    (hback : ReadsBack s.deviceId name) (hg : Guarded b64 sk s (.createRoom name ts)) :
    OnlyMembers b64 sk s (.createRoom name ts) := by
  refine ⟨?_, ?_⟩
  · intro i e hl hnew hk
    have hstep : (createRoom name ts).step b64 sk s = (s.createRoom sk name ts).2 := rfl
    have hreg : registryAtCommit b64 sk s (.createRoom name ts) = (s.createRoom sk name ts).2.rooms :=
      rfl
    rw [hstep] at hl
    rw [hreg]
    rcases @createRoom_cases _ _ _ _ b64 sk s name ts with
      hquiet | ⟨ev, hbrings, _, _, ⟨_, heq⟩ | ⟨_, heq⟩⟩
    · rw [hquiet, hnew] at hl
      cases hl
    · rw [heq] at hl
      simp [hnew] at hl
    · rw [heq] at hl ⊢
      rcases fresh_commit h.2 true hl hnew with ⟨htakes, hev⟩
      have hsigns : (AuthorCall.createRoom sk s.deviceId name ts).Signs s.rooms ev.unsigned :=
        signEvent_unsigned hbrings
      exact mayWrite_createRoom h.1 hback hsigns (hg.1 ev hbrings htakes e hev hk)
  · intro roomId text freshId ts' hcall
    cases hcall

theorem onlyMembers_sendMessage (h : Stored s) (roomId : RoomId) (text freshId : String) (ts : UInt64)
    (hg : Guarded b64 sk s (.sendMessage roomId text freshId ts)) :
    OnlyMembers b64 sk s (.sendMessage roomId text freshId ts) := by
  refine ⟨?_, ?_⟩
  · intro i e hl hnew hk
    have hstep : (sendMessage roomId text freshId ts).step b64 sk s =
        (s.sendMessage b64 sk roomId text freshId ts).2 := rfl
    have hreg : registryAtCommit b64 sk s (.sendMessage roomId text freshId ts) =
        (s.sendMessage b64 sk roomId text freshId ts).2.rooms := rfl
    rw [hstep] at hl
    rw [hreg]
    rcases @sendMessage_cases _ _ _ _ b64 sk s roomId text freshId ts with
      ⟨_, hnode⟩ | ⟨ev, hbrings, hkind, _, _, hrooms, hnode⟩
    · rw [hnode, hnew] at hl
      cases hl
    · rw [hnode] at hl
      rcases fresh_commit h.2 true hl hnew with ⟨htakes, hev⟩
      -- a message changes no membership
      have hmembers : MembersAgree s.rooms (s.rooms.applyEvent ev).2 :=
        sameMembers_applyEvent h.1 (by simp [hkind]) (by simp [hkind])
      rw [hrooms, mayWrite_congr hmembers]
      exact hg.1 ev hbrings htakes e hev hk
  · intro roomId' text' freshId' ts' hcall hnot
    cases hcall
    have hempty := hg.2 roomId text freshId ts rfl hnot
    refine ⟨.notMember s.deviceId, ?_⟩
    unfold NodeSession.sendMessage
    rw [assertCanMessage_of_not_mayWrite hnot]
    simp [hempty]

theorem onlyMembers_ingestRemote (h : Stored s) (ev : SignedEvent)
    (hg : Guarded b64 sk s (.ingestRemote ev)) : OnlyMembers b64 sk s (.ingestRemote ev) := by
  refine ⟨?_, ?_⟩
  · intro i e hl hnew hk
    have hstep : (ingestRemote ev).step b64 sk s = (s.ingestRemote ev).2 := rfl
    have hnode : (s.ingestRemote ev).2.node = (s.node.commit ev false).2 :=
      ingestRemote_node s ev
    rw [hstep, hnode] at hl
    rcases fresh_commit h.2 false hl hnew with ⟨htakes, hev⟩
    exact hg.1 ev rfl htakes e hev hk
  · intro roomId text freshId ts hcall
    cases hcall

theorem onlyMembers_step (h : Stored s) (call : SessionCall)
    (hback : ∀ name ts, call = .createRoom name ts → ReadsBack s.deviceId name)
    (hg : Guarded b64 sk s call) : OnlyMembers b64 sk s call := by
  cases call with
  | createRoom name ts => exact onlyMembers_createRoom h name ts (hback name ts rfl) hg
  | sendMessage roomId text freshId ts => exact onlyMembers_sendMessage h roomId text freshId ts hg
  | ingestRemote ev => exact onlyMembers_ingestRemote h ev hg

/-! ## Whole runs -/

omit [Deserialize CreateRoomPayload] [Deserialize MembershipPayload] in
theorem stored_fresh (h : s.Fresh) : Stored s := by
  rcases h with ⟨hrooms, store, hnode⟩
  refine ⟨?_, ?_⟩
  · rw [hrooms]
    exact RoomRegistry.wellFormed_new
  · rw [hnode]
    exact DeviceNode.Sound.new s.deviceId store

/-- In every run whose calls are guarded, every message that enters the log of a known room is by a device
that is joined there at that time, and the node's own message is refused where the node is not. -/
theorem onlyMembers_run (h : s.Fresh) (calls : List SessionCall)
    (hback : ∀ d name ts, SessionCall.createRoom name ts ∈ calls → ReadsBack d name)
    (hg : Runs.Along (step b64 sk) (Guarded b64 sk) s calls) :
    Runs.Along (step b64 sk) (OnlyMembers b64 sk) s calls := by
  have hs : Stored s := stored_fresh h
  clear h
  induction calls generalizing s with
  | nil => trivial
  | cons call calls ih =>
      rcases hg with ⟨hcall, hrest⟩
      refine ⟨onlyMembers_step hs call ?_ hcall, ih ?_ hrest (hs.step call)⟩
      · rintro name ts rfl
        exact hback s.deviceId name ts (by simp)
      · intro d name ts hin
        exact hback d name ts (List.mem_cons_of_mem call hin)

end SessionCall

end Messages

/-! ## A message from outside the room -/

section Example

open Checksum DeviceNode

attribute [local instance] Checksum.primitives blankBook createReader membershipReader

/-- A message of device `n` in room 1. -/
def squawk (n : Nat) : SignedEvent :=
  event n (room 1) [createPond.id] .message [113] 2

/-- Device 2 has never been a member of the room; the log takes its message. -/
theorem ingest_admits_outsider :
    ¬ ∀ calls : List SessionCall, (∀ ev, SessionCall.ingestRemote ev ∈ calls → Verified ev) →
      Runs.Along (SessionCall.step noText (key 2)) (SessionCall.OnlyMembers noText (key 2))
        (receiver []) calls := by
  intro h
  have hrun : (receiver [createPond]).node.events.lookup (squawk 2).id = none ∧
      (receiver [createPond, squawk 2]).node.events.lookup (squawk 2).id = some (squawk 2) ∧
      (receiver [createPond]).rooms.creatorOf (room 1) = some (device 1) ∧
      (receiver [createPond]).rooms.memberState (room 1) (device 2) = none := by
    decide +kernel
  rcases hrun with ⟨hnew, hin, hknown, hout⟩
  have hverified : ∀ ev, SessionCall.ingestRemote ev ∈
      [SessionCall.ingestRemote createPond, SessionCall.ingestRemote (squawk 2)] → Verified ev := by
    intro ev hev
    simp only [List.mem_cons, SessionCall.ingestRemote.injEq, List.not_mem_nil, or_false] at hev
    rcases hev with rfl | rfl
    · exact event_verified _ _ _ _ _ _
    · exact event_verified _ _ _ _ _ _
  have hall := h _ hverified
  simp only [Runs.Along, receiver_append, List.nil_append] at hall
  have hmembers := hall.2.1.1 (squawk 2).id (squawk 2)
  have hstep : SessionCall.step noText (key 2) (receiver [createPond]) (.ingestRemote (squawk 2)) =
      receiver [createPond, squawk 2] := receiver_append [createPond] (squawk 2)
  rw [hstep] at hmembers
  have hkind : (squawk 2).kind = .message := rfl
  have hmay := hmembers hin hnew hkind
  -- the room is known, and device 2 is not in it
  rcases hmay with hnone | hjoined
  · have hnone' : (receiver [createPond]).rooms.creatorOf (room 1) = none := hnone
    rw [hknown] at hnone'
    cases hnone'
  · have hjoined' : (receiver [createPond]).rooms.memberState (room 1) (device 2) = some .joined := hjoined
    rw [hout] at hjoined'
    cases hjoined'

/-- The message of the creator enters a guarded run. -/
theorem onlyMembers_run_creator :
    Runs.Along (SessionCall.step noText (key 2)) (SessionCall.OnlyMembers noText (key 2)) (receiver [])
      [SessionCall.ingestRemote createPond, SessionCall.ingestRemote (squawk 1)] := by
  have hrun : (receiver [createPond]).node.inbox = [] ∧
      (receiver [createPond]).rooms.memberState (room 1) (device 1) = some .joined := by
    decide +kernel
  rcases hrun with ⟨hinbox, hjoined⟩
  -- nothing is parked, so the call brings one event and no other
  have halone : ∀ (s : NodeSession) (ev : SignedEvent), s.node.inbox = [] →
      (ev.kind = .message → MayWrite s.rooms ev.roomId ev.authorDevice) →
      SessionCall.Guarded noText (key 2) s (.ingestRemote ev) := by
    intro s ev hin hmay
    refine ⟨?_, ?_⟩
    · rintro _ rfl _ x (rfl | hx) hk
      · exact hmay hk
      · have hparked := hx.1
        rw [hin] at hparked
        cases hparked
    · intro roomId text freshId ts hcall
      cases hcall
  refine SessionCall.onlyMembers_run receiver_fresh _ (by simp) ?_
  simp only [Runs.Along, receiver_append, List.nil_append, and_true]
  refine ⟨halone (receiver []) createPond rfl ?_, halone _ (squawk 1) hinbox fun _ => Or.inr hjoined⟩
  intro hk
  cases hk

end Example

end Node
end Thunderducks
