import Thunderducks.Node.Converge
import Thunderducks.Node.Handlers
import Thunderducks.Node.Restart

/-!
# SyncPeer — `sync_peer` and the two requests it makes (`td-node/src/rpc.rs`)

A call of `sync_peer` takes four turns: it reads its own ids and events, the peer answers its offer, it
ingests what the peer sent, and the peer ingests what was read at first.  No lock is held between two
turns, so each node may commit, send and ingest in the meantime: `SyncPeer.step` is one turn of the call or
one call of either node.
-/

namespace Thunderducks
namespace Node

open Lib Event Crypto

/-! ## The requests -/

/-- Why a room id of a request is refused. -/
inductive RoomIdError
  | hex
  | length
  deriving DecidableEq

def parseRoomId (s : String) : Except RoomIdError RoomId :=
  match Text.hexDecode s.toList with
  | none => .error .hex
  | some b =>
      if h : b.length = 32 then
        .ok ⟨⟨b.toArray, NodeSession.size_toArray_of_length h⟩⟩
      else
        -- "room_id must be 32 bytes hex"
        .error .length

/-- An id of the list `have`; one that is not 32 bytes of hex is passed over. -/
def parseEventId (s : String) : Option EventId :=
  match Text.hexDecode s.toList with
  | none => none
  | some b =>
      if h : b.length = 32 then
        some ⟨⟨b.toArray, NodeSession.size_toArray_of_length h⟩⟩
      else
        none

/-- What `sync_ingest` answers, and the rooms it notifies. -/
structure IngestReport where
  accepted : Nat
  errors : List SyncError
  touched : List RoomId

section Requests

variable [Olm] [Primitives]

namespace NodeSession

def syncOffer (o : IterOrder SignedEvent) (s : NodeSession) (roomHex : String)
    (haveHex : List String) : Except RoomIdError (List SignedEvent) :=
  match parseRoomId roomHex with
  | .error e => .error e
  | .ok roomId =>
      -- Peer is asking us for what they lack: respond with our missing-for-them.
      let offer : SyncOffer :=
        { fromDevice := s.node.deviceId
          roomId := roomId
          tips := s.node.tips roomId
          haveIds := haveHex.filterMap parseEventId }
      .ok (s.node.respondToOffer o offer).missing

variable [Deserialize CreateRoomPayload] [Deserialize MembershipPayload]

def syncIngest : NodeSession → List SignedEvent → IngestReport → IngestReport × NodeSession
  | s, [], report => (report, s)
  | s, ev :: events, report =>
      match s.ingestRemote ev with
      | (.ok true, s) =>
          syncIngest s events
            { report with accepted := report.accepted + 1, touched := ev.roomId :: report.touched }
      | (.ok false, s) => syncIngest s events report
      | (.error e, s) => syncIngest s events { report with errors := report.errors ++ [e] }

/-- The loop of `sync_peer` over the events pulled; an error counts as nothing accepted. -/
def pullMissing : NodeSession → List SignedEvent → (accepted : Nat) → Nat × NodeSession
  | s, [], n => (n, s)
  | s, ev :: missing, n =>
      match s.ingestRemote ev with
      | (.ok true, s) => pullMissing s missing (n + 1)
      | (.ok false, s) => pullMissing s missing n
      | (.error _, s) => pullMissing s missing n

end NodeSession

end Requests

/-! ## The turns of a call -/

/-- How far a call of `sync_peer` has come, and what it carries. -/
inductive SyncPhase
  | idle
  | snapped (ourHave : List String) (ourEvents : List SignedEvent)
  | answered (missing ourEvents : List SignedEvent)
  | pulled (acceptedFromPeer : Nat) (ourEvents : List SignedEvent)
  | done (acceptedFromPeer pushedAccepted : Nat)
  | badRequest (e : RoomIdError)
  | badGateway
  deriving DecidableEq

section Turns

variable [Olm] [Primitives]

/-- The node `a` that makes the call, the peer `b`, and the call. -/
structure SyncPeer where
  a : NodeSession
  b : NodeSession
  phase : SyncPhase

/-- What a node does of its own accord.  `commit` is any other handler that brings the log an event. -/
inductive PeerCall
  | session (sk : Primitives.SigningKey) (call : SessionCall)
  | commit (ev : SignedEvent) (toOutbox : Bool)
  | popOutbox

inductive SyncAct
  | callA (call : PeerCall)
  | callB (call : PeerCall)
  | snapshot (o : IterOrder SignedEvent)
  | answer (o : IterOrder SignedEvent)
  | pull
  | push

variable [Deserialize CreateRoomPayload] [Deserialize MembershipPayload]

variable (b64 : Encoded MegolmMessage → String) (roomHex : String)

namespace PeerCall

def step (s : NodeSession) : PeerCall → NodeSession
  | .session sk call => call.step b64 sk s
  | .commit ev toOutbox => { s with node := (s.node.commit ev toOutbox).2 }
  | .popOutbox => { s with node := s.node.popOutbox.2 }

/-- The events that the call makes or is given. -/
def Brings (s : NodeSession) : PeerCall → SignedEvent → Prop
  | .session sk call, ev => call.Brings b64 sk s ev
  | .commit ev' _, ev => ev = ev'
  | .popOutbox, _ => False

end PeerCall

namespace SyncPeer

/-- Snapshot our have-set and events under lock. -/
def snapshot (o : IterOrder SignedEvent) (st : SyncPeer) : SyncPeer :=
  match parseRoomId roomHex with
  | .error e => { st with phase := .badRequest e }
  | .ok roomId =>
      { st with phase := .snapped ((st.a.node.roomEventIds roomId).map fun id => hex32 id.bytes)
                  (st.a.node.listEvents o roomId) }

/-- One turn, or one call of a node.  A turn that is not next does nothing. -/
def step (st : SyncPeer) : SyncAct → SyncPeer
  | .callA call => { st with a := call.step b64 st.a }
  | .callB call => { st with b := call.step b64 st.b }
  | .snapshot o =>
      match st.phase with
      | .idle => st.snapshot roomHex o
      | _ => st
  | .answer o =>
      match st.phase with
      | .snapped ourHave ourEvents =>
          match st.b.syncOffer o roomHex ourHave with
          | .error _ => { st with phase := .badGateway }
          | .ok missing => { st with phase := .answered missing ourEvents }
      | _ => st
  | .pull =>
      match st.phase with
      | .answered missing ourEvents =>
          let (n, a) := st.a.pullMissing missing 0
          { st with a := a, phase := .pulled n ourEvents }
      | _ => st
  | .push =>
      match st.phase with
      | .pulled n ourEvents =>
          let (report, b) := st.b.syncIngest ourEvents ⟨0, [], []⟩
          { st with b := b, phase := .done n report.accepted }
      | _ => st

/-- Everything that the calls of the two nodes bring is in `evs`. -/
def Within (evs : Set SignedEvent) (st : SyncPeer) : SyncAct → Prop
  | .callA call => ∀ ev, call.Brings b64 st.a ev → ev ∈ evs
  | .callB call => ∀ ev, call.Brings b64 st.b ev → ev ∈ evs
  | _ => True

end SyncPeer

end Turns

/-! ## What the requests do to the logs -/

theorem parseEventId_hex32 (id : EventId) : parseEventId (hex32 id.bytes) = some id := by
  have hlen : id.bytes.toList.length = 32 := Vector.length_toList
  have hback : (⟨⟨id.bytes.toList.toArray, NodeSession.size_toArray_of_length hlen⟩⟩ : EventId) = id := by
    rcases id with ⟨bytes⟩
    rw [EventId.mk.injEq]
    apply Vector.toList_inj.1
    rfl
  unfold parseEventId hex32
  rw [Text.hexDecode_hexEncode]
  dsimp only
  rw [dif_pos hlen, hback]

section Logs

variable [Olm] [Primitives] [Deserialize CreateRoomPayload] [Deserialize MembershipPayload]

namespace NodeSession

/-- The log after a batch is the log after its first event, and then the rest. -/
theorem commitRemoteAll_cons (s : NodeSession) (ev : SignedEvent) (events : List SignedEvent) :
    (s.node.commitRemoteAll (ev :: events)).2 =
      ((s.ingestRemote ev).2.node.commitRemoteAll events).2 := by
  rw [SessionCall.ingestRemote_node]
  rfl

/-- The log sees the pushed events one after the other, whatever each answer. -/
theorem syncIngest_node (events : List SignedEvent) : ∀ (s : NodeSession) (report : IngestReport),
    (s.syncIngest events report).2.node = (s.node.commitRemoteAll events).2 := by
  induction events with
  | nil => exact fun _ _ => rfl
  | cons ev events ih =>
      intro s report
      rw [syncIngest, commitRemoteAll_cons]
      rcases s.ingestRemote ev with ⟨res, s'⟩
      rcases res with e | b
      · exact ih s' _
      · cases b with
        | false => exact ih s' _
        | true => exact ih s' _

theorem pullMissing_node (missing : List SignedEvent) : ∀ (s : NodeSession) (n : Nat),
    (s.pullMissing missing n).2.node = (s.node.commitRemoteAll missing).2 := by
  induction missing with
  | nil => exact fun _ _ => rfl
  | cons ev missing ih =>
      intro s n
      rw [pullMissing, commitRemoteAll_cons]
      rcases s.ingestRemote ev with ⟨res, s'⟩
      rcases res with e | b
      · exact ih s' _
      · cases b with
        | false => exact ih s' _
        | true => exact ih s' _

end NodeSession

end Logs

/-! ## The events of the two nodes -/

section Traffic

variable [Primitives]

/-- What the nodes hold and receive: no event names a parent of another room, and no two make a collision of
the hash. -/
structure Traffic (evs : Set SignedEvent) : Prop where
  roomLocal : DeviceNode.RoomLocal evs
  collisionFree : ∀ x ∈ evs, ∀ y ∈ evs, CollisionFree (canonicalBytes x) (canonicalBytes y)

/-- Those that verify. -/
def genuine (evs : Set SignedEvent) : Set SignedEvent :=
  {e | e ∈ evs ∧ Verified e}

theorem Traffic.ids {evs : Set SignedEvent} (ht : Traffic evs) : IdsIdentify (genuine evs) := by
  intro x hx y hy hid
  exact eq_of_id hx.2 hy.2 (ht.collisionFree x hx.1 y hy.1) hid

theorem Traffic.local {evs : Set SignedEvent} (ht : Traffic evs) :
    DeviceNode.RoomLocal (genuine evs) :=
  ht.roomLocal.mono fun _ hx => hx.1

namespace DeviceNode

variable {evs : Set SignedEvent} {node : DeviceNode}

/-- A node takes or parks every event of a batch. -/
theorem Party.commitAll (ht : Traffic evs) (h : Party (genuine evs) node) {sent : List SignedEvent}
    (hsent : ∀ e ∈ sent, e ∈ genuine evs) :
    Offered {e | e ∈ sent} node (node.commitRemoteAll sent).2 ∧
      Party (genuine evs) (node.commitRemoteAll sent).2 := by
  have hsub : node.held ∪ {e | e ∈ sent} ⊆ genuine evs := Set.union_subset h.held hsent
  have hids : IdsIdentify (node.held ∪ {e | e ∈ sent}) :=
    fun x hx y hy => ht.ids x (hsub hx) y (hsub hy)
  have hready : node.ReadyLocal {e | e ∈ sent} := (ht.local.mono hsub).ready
  have hoff := (commitRemoteAll_offered sent h.sound h.reliable (fun e he => (hsent e he).2) hids
    hready).2
  exact ⟨hoff, h.offered hsent hoff⟩

/-- A commit keeps the log, and what is held stays among the events. -/
theorem Party.commit (ht : Traffic evs) (h : Party (genuine evs) node) {ev : SignedEvent} (hev : ev ∈ evs)
    (toOutbox : Bool) : Party (genuine evs) (node.commit ev toOutbox).2 ∧
      node.accepted ⊆ (node.commit ev toOutbox).2.accepted := by
  by_cases hv : Verified ev
  · have hsub : node.held ∪ {ev} ⊆ genuine evs :=
      Set.union_subset h.held (Set.singleton_subset_iff.2 ⟨hev, hv⟩)
    have hids : IdsIdentify (node.held ∪ {ev}) := fun x hx y hy => ht.ids x (hsub hx) y (hsub hy)
    rcases commit_offered h.sound hv h.reliable hids (ht.local.mono hsub).ready toOutbox with ⟨_, _, hoff⟩
    exact ⟨h.offered (Set.singleton_subset_iff.2 ⟨hev, hv⟩) hoff, fun x hx => hoff.grew.keeps hx⟩
  · rcases commit_unverified hv toOutbox with ⟨e, heq⟩
    rw [heq]
    exact ⟨h, fun _ hx => hx⟩

/-! ## Where the nodes come from -/

/-- An answered commit leaves a settled node settled. -/
theorem Settled.commit {ev : SignedEvent} {toOutbox b : Bool} {node' : DeviceNode} (h : node.Settled)
    (hs : node.Sound) (hrun : node.commit ev toOutbox = (.ok b, node')) : node'.Settled := by
  by_cases hv : Verified ev
  · have ho := commit_outcome hs hv toOutbox
    rw [hrun] at ho
    cases ho with
    | known _ => exact h
    | waits hnew hwait => exact h.park hnew hwait
    | drained _ _ _ _ hdr => exact hdr.settled
  · rcases commit_unverified hv toOutbox with ⟨e, heq⟩
    rw [heq] at hrun
    cases hrun

theorem Settled.applyMissing (missing : List SignedEvent) : ∀ {node node' : DeviceNode} {n m : Nat},
    node.Settled → node.Sound → node.applyMissing missing n = (.ok m, node') → node'.Settled := by
  induction missing with
  | nil =>
      intro node node' n m h _ hrun
      cases hrun
      exact h
  | cons ev missing ih =>
      intro node node' n m h hs hrun
      unfold DeviceNode.applyMissing at hrun
      have hs' := hs.commit ev false
      rcases hcommit : node.commitRemote ev with ⟨res, node₁⟩
      have hcommit' : node.commit ev false = (res, node₁) := hcommit
      rw [hcommit'] at hs'
      rw [hcommit] at hrun
      cases res with
      | error e => cases hrun
      | ok b =>
          have h₁ : node₁.Settled := h.commit hs hcommit'
          cases b with
          | false => exact ih h₁ hs' hrun
          | true => exact ih h₁ hs' hrun

/-- Between its calls a durable node has nothing parked that it could take. -/
theorem Opened.settled [Deserialize SignedEvent] [RoundTrips SignedEvent] (h : Opened node) :
    node.Settled := by
  induction h with
  | fresh o d =>
      intro x hx
      rw [withSqlite_empty] at hx
      cases hx
  | @call node node' call hopen hrun ih =>
      have hs : node.Sound := hopen.steady.sound
      cases call with
      | commitLocal ev =>
          rcases hrun with ⟨b, hrun⟩
          exact ih.commit hs hrun
      | commitRemote ev =>
          rcases hrun with ⟨b, hrun⟩
          exact ih.commit hs hrun
      | applySyncResponse resp =>
          rcases hrun with ⟨n, hrun⟩
          exact Settled.applyMissing resp.missing ih hs hrun
  | reopen o d hopen hst hrun ih =>
      rcases hopen.steady.mirrored.toBacked.reopens hst o d with ⟨node₁, hrun₁, _, hinbox, _⟩
      rw [hrun] at hrun₁
      cases hrun₁
      intro x hx
      rw [hinbox] at hx
      cases hx

/-- A node in memory that commits have built, or a durable one that calls and restarts have built. -/
inductive Running [Deserialize SignedEvent] (evs : Set SignedEvent) : DeviceNode → Prop
  | inMemory {node : DeviceNode} : ReachedBy evs node → Running evs node
  | durable {node : DeviceNode} : Opened node → node.held ⊆ evs → Running evs node

theorem ReachedBy.genuine (ht : Traffic evs) (h : ReachedBy evs node) : Party (genuine evs) node := by
  induction h with
  | new d =>
      refine ⟨Sound.new d none, ?_, reliable_new d, ?_⟩
      · intro x hx
        cases hx
      · rw [held_new]
        exact Set.empty_subset _
  | commit toOutbox _ hev ih => exact (ih.commit ht hev toOutbox).1

theorem Running.party [Deserialize SignedEvent] [RoundTrips SignedEvent] (ht : Traffic evs)
    (h : Running evs node) : Party (Node.genuine evs) node := by
  cases h with
  | inMemory hreached => exact hreached.genuine ht
  | durable hopen hheld =>
      have hbacked := hopen.steady.mirrored.toBacked
      refine ⟨hopen.steady.sound, hopen.settled, ?_, ?_⟩
      · rcases hbacked.stored with ⟨store, hst, hfaults, _⟩
        intro store' hst'
        rw [hst] at hst'
        cases hst'
        intro b hb
        rw [hfaults] at hb
        cases hb
      · rintro x (hx | hx)
        · exact ⟨hheld (Or.inl hx), hbacked.verified hx⟩
        · exact ⟨hheld (Or.inr hx), hopen.steady.sound.verified x hx⟩

end DeviceNode

end Traffic

/-! ## What a batch brings -/

section Batch

variable [Primitives]

namespace DeviceNode

variable {evs : Set SignedEvent} {node : DeviceNode}

omit [Primitives] in
theorem LogCoherent.mem_of_accepted_subset {node' : DeviceNode} (h : node.LogCoherent)
    (hsub : node.accepted ⊆ node'.accepted) {i : EventId} (hi : i ∈ node.events) : i ∈ node'.events := by
  rcases h.mem_events.1 hi with ⟨e, he, rfl⟩
  exact HashMap.mem_of_lookup (hsub he)

omit [Primitives] in
theorem LogCoherent.mem_of_roomEventIds (h : node.LogCoherent) {room : RoomId} {i : EventId}
    (hi : i ∈ node.roomEventIds room) : i ∈ node.events := by
  rcases List.mem_map.1 hi with ⟨e, he, rfl⟩
  rcases HashMap.mem_values.1 (List.mem_filter.1 he).1 with ⟨k, hk⟩
  have hid : e.id = k := h.keyed hk
  subst hid
  exact HashMap.mem_of_lookup hk

omit [Primitives] in
/-- The log of a room has each event after its parents. -/
theorem LogCoherent.roomLog_supplied (h : node.LogCoherent) {room : RoomId} {e : SignedEvent}
    (he : e ∈ node.roomLog room) : Supplied ∅ (node.roomLog room) e.id := by
  have hground : ∀ i, Supplied ∅ node.accepted i → ∀ z ∈ node.roomLog room, z.id = i →
      Supplied ∅ (node.roomLog room) i := by
    intro i hi
    induction hi with
    | base hi => exact absurd hi (Set.notMem_empty _)
    | @item x hx _ ih =>
        intro z hz hid
        have hEq : z = x := by
          have hl : node.events.lookup z.id = some z := hz.2
          have hx' : node.events.lookup x.id = some x := hx
          rw [hid, hx'] at hl
          exact (Option.some.inj hl).symm
        subst hEq
        refine Causal.Supplied.item hz ?_
        intro p hp
        rcases h.parent_accepted hx hp with ⟨y, hy, hroom⟩
        have hyid : y.id = p := h.keyed hy
        refine ih p hp y ⟨hroom.trans hz.1, ?_⟩ hyid
        rw [← hyid] at hy
        exact hy
  exact hground e.id (h.grounded e.id (HashMap.mem_of_lookup he.2)) e he rfl

/-- Events that come each after its parents, and that the node has or is sent, it has in the end. -/
theorem Party.covers (ht : Traffic evs) (h : Party (genuine evs) node) {wanted : Set SignedEvent}
    (hsupplied : ∀ e ∈ wanted, Supplied ∅ wanted e.id) (hgenuine : wanted ⊆ genuine evs)
    {sent : List SignedEvent} (hsent : ∀ e ∈ sent, e ∈ genuine evs)
    (hcover : ∀ e ∈ wanted, e ∈ node.accepted ∨ e ∈ sent) :
    wanted ⊆ (node.commitRemoteAll sent).2.accepted := by
  rcases h.commitAll ht hsent with ⟨hoff, hparty⟩
  -- a wanted event is taken once its parents are, so induct on how they come
  have htaken : ∀ i, Supplied ∅ wanted i → i ∈ (node.commitRemoteAll sent).2.events := by
    intro i hi
    induction hi with
    | base hi => exact absurd hi (Set.notMem_empty _)
    | @item x hx _ ih =>
        rcases hcover x hx with hold | hnew
        · exact hoff.grew.mem (HashMap.mem_of_lookup hold)
        · rcases hoff.cover x (Or.inr hnew) with hparked | htaken
          · have hwait := (hparty.settled x hparked).2
            rw [parentsOk_iff.2 ih] at hwait
            cases hwait
          · exact htaken
  intro e he
  rcases HashMap.mem_iff_lookup.1 (htaken e.id (hsupplied e he)) with ⟨e', he'⟩
  have hid : e'.id = e.id := hparty.sound.log.keyed he'
  have hmem : e' ∈ (node.commitRemoteAll sent).2.accepted := by
    rw [← hid] at he'
    exact he'
  rw [← ht.ids e' (hparty.held (Or.inl hmem)) e (hgenuine he) hid]
  exact hmem

end DeviceNode

end Batch

section Listed

variable [Olm]

/-- The peer sends its events of the room whose ids it is not told. -/
theorem mem_syncOffer {s : NodeSession} (h : s.node.LogCoherent) {o : IterOrder SignedEvent}
    {roomHex : String} {haveHex : List String} {missing : List SignedEvent}
    (hoffer : s.syncOffer o roomHex haveHex = .ok missing) : ∃ roomId, parseRoomId roomHex = .ok roomId ∧
      ∀ e, e ∈ missing ↔ e ∈ s.node.roomLog roomId ∧ e.id ∉ haveHex.filterMap parseEventId := by
  unfold NodeSession.syncOffer at hoffer
  cases hparse : parseRoomId roomHex with
  | error e =>
      rw [hparse] at hoffer
      cases hoffer
  | ok roomId =>
      rw [hparse] at hoffer
      cases hoffer
      refine ⟨roomId, rfl, ?_⟩
      intro e
      have hmem : e ∈ s.node.missingForPeer o roomId (haveHex.filterMap parseEventId) ↔
          e ∈ s.node.accepted ∧ e.roomId = roomId ∧ e.id ∉ haveHex.filterMap parseEventId :=
        DeviceNode.mem_missingForPeer h
      refine hmem.trans ?_
      constructor
      · rintro ⟨hacc, hroom, hno⟩
        exact ⟨⟨hroom, hacc⟩, hno⟩
      · rintro ⟨⟨hroom, hacc⟩, hno⟩
        exact ⟨hacc, hroom, hno⟩

end Listed

/-! ## The call -/

section Call

variable [Olm] [Primitives] [Deserialize CreateRoomPayload] [Deserialize MembershipPayload]
variable {b64 : Encoded MegolmMessage → String} {roomHex : String} {evs : Set SignedEvent}

/-- The events that the call carries from one node to the other. -/
def SyncPhase.carried : SyncPhase → List SignedEvent
  | .snapped _ ourEvents => ourEvents
  | .answered missing ourEvents => missing ++ ourEvents
  | .pulled _ ourEvents => ourEvents
  | _ => []

/-- The ids that the call is about to tell the peer. -/
def SyncPhase.told : SyncPhase → List EventId
  | .snapped ourHave _ => ourHave.filterMap parseEventId
  | _ => []

/-- The invariant of every interleaving. -/
structure SyncPeer.Sound (evs : Set SignedEvent) (st : SyncPeer) : Prop where
  a : DeviceNode.Party (genuine evs) st.a.node
  b : DeviceNode.Party (genuine evs) st.b.node
  carried : ∀ e ∈ st.phase.carried, e ∈ genuine evs
  told : ∀ i ∈ st.phase.told, i ∈ st.a.node.events

theorem PeerCall.party (ht : Traffic evs) {s : NodeSession} (call : PeerCall)
    (h : DeviceNode.Party (genuine evs) s.node) (hin : ∀ ev, call.Brings b64 s ev → ev ∈ evs) :
    DeviceNode.Party (genuine evs) (call.step b64 s).node ∧
      s.node.accepted ⊆ (call.step b64 s).node.accepted := by
  cases call with
  | session sk call =>
      have hstep : ((PeerCall.session sk call).step b64 s).node = (call.step b64 sk s).node := rfl
      rw [hstep]
      rcases (@SessionCall.step_stores _ _ _ _ b64 sk s call).2 with
        hsame | ⟨ev, toOutbox, hbrings, heq⟩
      · rw [hsame]
        exact ⟨h, fun _ hx => hx⟩
      · rw [heq]
        exact h.commit ht (hin ev hbrings) toOutbox
  | commit ev toOutbox => exact h.commit ht (hin ev rfl) toOutbox
  | popOutbox =>
      have hpop : ∃ outbox, s.node.popOutbox.2 = { s.node with outbox := outbox } := by
        unfold DeviceNode.popOutbox
        split
        next => exact ⟨s.node.outbox, rfl⟩
        next => exact ⟨_, rfl⟩
      have hstep : (PeerCall.popOutbox.step b64 s).node = s.node.popOutbox.2 := rfl
      rcases hpop with ⟨outbox, heq⟩
      rw [hstep, heq]
      refine ⟨⟨⟨h.sound.log.congr rfl (fun _ => rfl), h.sound.verified, h.sound.nodup⟩, h.settled,
        h.reliable, h.held⟩, fun _ hx => hx⟩

namespace SyncPeer

variable {st st' : SyncPeer}

/-- What one step of the run does. -/
inductive Turn (b64 : Encoded MegolmMessage → String) (roomHex : String) (evs : Set SignedEvent)
    (st : SyncPeer) : SyncPeer → Prop
  | callA {call : PeerCall} : (∀ ev, call.Brings b64 st.a ev → ev ∈ evs) →
      Turn b64 roomHex evs st { st with a := call.step b64 st.a }
  | callB {call : PeerCall} : (∀ ev, call.Brings b64 st.b ev → ev ∈ evs) →
      Turn b64 roomHex evs st { st with b := call.step b64 st.b }
  | skip : Turn b64 roomHex evs st st
  | refuse {e : RoomIdError} : st.phase = .idle → Turn b64 roomHex evs st { st with phase := .badRequest e }
  | snapshot {o : IterOrder SignedEvent} {roomId : RoomId} : st.phase = .idle →
      parseRoomId roomHex = .ok roomId → Turn b64 roomHex evs st
        { st with phase := .snapped ((st.a.node.roomEventIds roomId).map fun id => hex32 id.bytes)
                    (st.a.node.listEvents o roomId) }
  | giveUp {ourHave : List String} {ourEvents : List SignedEvent} :
      st.phase = .snapped ourHave ourEvents → Turn b64 roomHex evs st { st with phase := .badGateway }
  | answer {o : IterOrder SignedEvent} {ourHave : List String} {ourEvents missing : List SignedEvent} :
      st.phase = .snapped ourHave ourEvents → st.b.syncOffer o roomHex ourHave = .ok missing →
      Turn b64 roomHex evs st { st with phase := .answered missing ourEvents }
  | pull {missing ourEvents : List SignedEvent} : st.phase = .answered missing ourEvents →
      Turn b64 roomHex evs st
        { st with
          a := (st.a.pullMissing missing 0).2
          phase := .pulled (st.a.pullMissing missing 0).1 ourEvents }
  | push {n : Nat} {ourEvents : List SignedEvent} : st.phase = .pulled n ourEvents →
      Turn b64 roomHex evs st
        { st with
          b := (st.b.syncIngest ourEvents ⟨0, [], []⟩).2
          phase := .done n (st.b.syncIngest ourEvents ⟨0, [], []⟩).1.accepted }

theorem step_turn (roomHex : String) {act : SyncAct} (hin : Within b64 evs st act) :
    Turn b64 roomHex evs st (step b64 roomHex st act) := by
  cases act with
  | callA call => exact Turn.callA hin
  | callB call => exact Turn.callB hin
  | snapshot o =>
      unfold step
      dsimp only
      split
      -- each statement runs in its own phase only
      next hphase =>
        unfold SyncPeer.snapshot
        cases hparse : parseRoomId roomHex with
        | error e => exact Turn.refuse hphase
        | ok roomId => exact Turn.snapshot hphase hparse
      next => exact Turn.skip
  | answer o =>
      unfold step
      dsimp only
      split
      next hphase =>
        split
        next => exact Turn.giveUp hphase
        next hoffer => exact Turn.answer hphase hoffer
      next => exact Turn.skip
  | pull =>
      unfold step
      dsimp only
      split
      next hphase => exact Turn.pull hphase
      next => exact Turn.skip
  | push =>
      unfold step
      dsimp only
      split
      next hphase => exact Turn.push hphase
      next => exact Turn.skip

/-- The parties stay sound, and neither loses an accepted event. -/
structure Advances (evs : Set SignedEvent) (st st' : SyncPeer) : Prop where
  sound : st'.Sound evs
  keepsA : st.a.node.accepted ⊆ st'.a.node.accepted
  keepsB : st.b.node.accepted ⊆ st'.b.node.accepted

theorem Sound.turn (ht : Traffic evs) (h : st.Sound evs) (hturn : Turn b64 roomHex evs st st') :
    Advances evs st st' := by
  cases hturn with
  -- a request of another to one party leaves what is in flight
  | @callA call hin =>
      rcases call.party ht h.a hin with ⟨hparty, hkeep⟩
      refine ⟨⟨hparty, h.b, h.carried, ?_⟩, hkeep, fun _ hx => hx⟩
      intro i hi
      exact h.a.sound.log.mem_of_accepted_subset hkeep (h.told i hi)
  | @callB call hin =>
      rcases call.party ht h.b hin with ⟨hparty, hkeep⟩
      exact ⟨⟨h.a, hparty, h.carried, h.told⟩, fun _ hx => hx, hkeep⟩
  | skip => exact ⟨h, fun _ hx => hx, fun _ hx => hx⟩
  | refuse _ =>
      exact ⟨⟨h.a, h.b, (fun _ he => by cases he), fun _ hi => by cases hi⟩, fun _ hx => hx, fun _ hx => hx⟩
  | giveUp _ =>
      exact ⟨⟨h.a, h.b, (fun _ he => by cases he), fun _ hi => by cases hi⟩, fun _ hx => hx, fun _ hx => hx⟩
  -- what `a` says it has, it has
  | @snapshot o roomId _ _ =>
      refine ⟨⟨h.a, h.b, ?_, ?_⟩, fun _ hx => hx, fun _ hx => hx⟩
      · intro e he
        exact h.a.held (Or.inl ((mem_listEvents o h.a.sound.log).1 he).2)
      · intro i hi
        rcases List.mem_filterMap.1 hi with ⟨hex, hhex, hparse⟩
        rcases List.mem_map.1 hhex with ⟨id, hid, rfl⟩
        rw [parseEventId_hex32] at hparse
        cases hparse
        exact h.a.sound.log.mem_of_roomEventIds hid
  -- `b` offers events of its own log
  | @answer o ourHave ourEvents missing hphase hoffer =>
      refine ⟨⟨h.a, h.b, ?_, fun _ hi => by cases hi⟩, fun _ hx => hx, fun _ hx => hx⟩
      intro e he
      rcases mem_syncOffer h.b.sound.log hoffer with ⟨roomId, _, hmissing⟩
      rcases List.mem_append.1 he with he | he
      · exact h.b.held (Or.inl ((hmissing e).1 he).1.2)
      · exact h.carried e (by rw [hphase]; exact he)
  | @pull missing ourEvents hphase =>
      have hcarried : ∀ e ∈ missing ++ ourEvents, e ∈ genuine evs := fun e he =>
        h.carried e (by rw [hphase]; exact he)
      have hmissing : ∀ e ∈ missing, e ∈ genuine evs := fun e he => hcarried e (List.mem_append_left _ he)
      rcases h.a.commitAll ht hmissing with ⟨hoff, hparty⟩
      rw [← NodeSession.pullMissing_node missing st.a 0] at hoff hparty
      exact ⟨⟨hparty, h.b, fun e he => hcarried e (List.mem_append_right _ he), fun _ hi => by cases hi⟩,
        fun x hx => hoff.grew.keeps hx, fun _ hx => hx⟩
  | @push n ourEvents hphase =>
      have hours : ∀ e ∈ ourEvents, e ∈ genuine evs := fun e he => h.carried e (by rw [hphase]; exact he)
      rcases h.b.commitAll ht hours with ⟨hoff, hparty⟩
      rw [← NodeSession.syncIngest_node ourEvents st.b ⟨0, [], []⟩] at hoff hparty
      exact ⟨⟨h.a, hparty, (fun _ he => by cases he), fun _ hi => by cases hi⟩, fun _ hx => hx,
        fun x hx => hoff.grew.keeps hx⟩

/-! ### What each side wants from the other -/

/-- Events of the call's traffic, each after its parents. -/
structure Wanted (evs wanted : Set SignedEvent) : Prop where
  supplied : ∀ e ∈ wanted, DeviceNode.Supplied ∅ wanted e.id
  genuine : wanted ⊆ genuine evs

omit [Olm] [Deserialize CreateRoomPayload] [Deserialize MembershipPayload] in
/-- The log of a room is wanted. -/
theorem wanted_roomLog {node : DeviceNode} (h : DeviceNode.Party (genuine evs) node) (room : RoomId) :
    Wanted evs (node.roomLog room) :=
  ⟨fun _ he => h.sound.log.roomLog_supplied he, fun _ he => h.held (Or.inl he.2)⟩

/-- What `b` had when it answered is on its way to `a`, or there. -/
def PullsAll (wanted : Set SignedEvent) (st : SyncPeer) : Prop :=
  match st.phase with
  | .answered missing _ => ∀ e ∈ wanted, e ∈ st.a.node.accepted ∨ e ∈ missing
  | .pulled _ _ => wanted ⊆ st.a.node.accepted
  | .done _ _ => wanted ⊆ st.a.node.accepted
  | _ => False

/-- What `a` had at the snapshot is on its way to `b`, or there, unless the call is given up. -/
def PushesAll (wanted : Set SignedEvent) (st : SyncPeer) : Prop :=
  match st.phase with
  | .idle => False
  | .snapped _ ourEvents => ∀ e ∈ wanted, e ∈ ourEvents
  | .answered _ ourEvents => ∀ e ∈ wanted, e ∈ ourEvents
  | .pulled _ ourEvents => ∀ e ∈ wanted, e ∈ ourEvents
  | .done _ _ => wanted ⊆ st.b.node.accepted
  | _ => True

variable {wanted : Set SignedEvent}

omit [Primitives] [Deserialize CreateRoomPayload] [Deserialize MembershipPayload] in
/-- A longer log of `a` is as good. -/
theorem PullsAll.mono (h : st.PullsAll wanted) (hphase : st'.phase = st.phase)
    (hkeep : st.a.node.accepted ⊆ st'.a.node.accepted) : st'.PullsAll wanted := by
  unfold PullsAll at h ⊢
  rw [hphase]
  revert h
  cases st.phase with
  | answered missing ourEvents => exact fun h e he => (h e he).imp_left fun hacc => hkeep hacc
  | pulled n ourEvents => exact fun h => h.trans hkeep
  | done n m => exact fun h => h.trans hkeep
  | idle => exact id
  | snapped ourHave ourEvents => exact id
  | badRequest e => exact id
  | badGateway => exact id

omit [Primitives] [Deserialize CreateRoomPayload] [Deserialize MembershipPayload] in
theorem PushesAll.mono (h : st.PushesAll wanted) (hphase : st'.phase = st.phase)
    (hkeep : st.b.node.accepted ⊆ st'.b.node.accepted) : st'.PushesAll wanted := by
  unfold PushesAll at h ⊢
  rw [hphase]
  revert h
  cases st.phase with
  | done n m => exact fun h => h.trans hkeep
  | idle => exact id
  | snapped ourHave ourEvents => exact id
  | answered missing ourEvents => exact id
  | pulled n ourEvents => exact id
  | badRequest e => exact id
  | badGateway => exact id

theorem PullsAll.turn (ht : Traffic evs) (hw : Wanted evs wanted) (hs : st.Sound evs)
    (h : st.PullsAll wanted) (hturn : Turn b64 roomHex evs st st') : st'.PullsAll wanted := by
  have hkeep := (hs.turn ht hturn).keepsA
  have hnow := h
  unfold PullsAll at hnow
  cases hturn with
  | callA _ => exact h.mono rfl hkeep
  | callB _ => exact h.mono rfl hkeep
  | skip => exact h
  -- before the answer there is nothing to pull
  | refuse hphase =>
      rw [hphase] at hnow
      exact hnow.elim
  | snapshot hphase _ =>
      rw [hphase] at hnow
      exact hnow.elim
  | giveUp hphase =>
      rw [hphase] at hnow
      exact hnow.elim
  | answer hphase _ =>
      rw [hphase] at hnow
      exact hnow.elim
  -- the pull commits what the answer carried
  | @pull missing ourEvents hphase =>
      rw [hphase] at hnow
      have hmissing : ∀ e ∈ missing, e ∈ genuine evs := fun e he =>
        hs.carried e (by rw [hphase]; exact List.mem_append_left _ he)
      have hall := hs.a.covers ht hw.supplied hw.genuine hmissing hnow
      rw [← NodeSession.pullMissing_node missing st.a 0] at hall
      exact hall
  | push hphase =>
      rw [hphase] at hnow
      exact hnow

theorem PushesAll.turn (ht : Traffic evs) (hw : Wanted evs wanted) (hs : st.Sound evs)
    (h : st.PushesAll wanted) (hturn : Turn b64 roomHex evs st st') : st'.PushesAll wanted := by
  have hkeep := (hs.turn ht hturn).keepsB
  have hnow := h
  unfold PushesAll at hnow
  cases hturn with
  | callA _ => exact h.mono rfl hkeep
  | callB _ => exact h.mono rfl hkeep
  | skip => exact h
  | refuse _ => trivial
  | giveUp _ => trivial
  | snapshot hphase _ =>
      rw [hphase] at hnow
      exact hnow.elim
  | answer hphase _ =>
      rw [hphase] at hnow
      exact hnow
  | pull hphase =>
      rw [hphase] at hnow
      exact hnow
  | @push n ourEvents hphase =>
      rw [hphase] at hnow
      have hours : ∀ e ∈ ourEvents, e ∈ genuine evs := fun e he => hs.carried e (by rw [hphase]; exact he)
      have hall := hs.b.covers ht hw.supplied hw.genuine hours fun e he => Or.inr (hnow e he)
      rw [← NodeSession.syncIngest_node ourEvents st.b ⟨0, [], []⟩] at hall
      exact hall

omit [Primitives] [Deserialize CreateRoomPayload] [Deserialize MembershipPayload] in
theorem exists_syncOffer {roomId : RoomId} (hroom : parseRoomId roomHex = .ok roomId) (s : NodeSession)
    (o : IterOrder SignedEvent) (haveHex : List String) :
    ∃ missing, s.syncOffer o roomHex haveHex = .ok missing := by
  unfold NodeSession.syncOffer
  rw [hroom]
  exact ⟨_, rfl⟩

omit [Deserialize CreateRoomPayload] [Deserialize MembershipPayload] in
/-- When the peer has answered, what it had is on its way. -/
theorem Sound.pullsAll (ht : Traffic evs) (hs : st.Sound evs) {o : IterOrder SignedEvent}
    {ourHave : List String} {ourEvents missing : List SignedEvent} {roomId : RoomId}
    (hphase : st.phase = .snapped ourHave ourEvents) (hroom : parseRoomId roomHex = .ok roomId)
    (hoffer : st.b.syncOffer o roomHex ourHave = .ok missing) :
    PullsAll (st.b.node.roomLog roomId) { st with phase := .answered missing ourEvents } := by
  rcases mem_syncOffer hs.b.sound.log hoffer with ⟨roomId', hroom', hmissing⟩
  rw [hroom] at hroom'
  cases hroom'
  intro e he
  by_cases htold : e.id ∈ ourHave.filterMap parseEventId
  · -- an id that `a` had at the snapshot it still has, and it names this event
    have hmem : e.id ∈ st.a.node.events := hs.told e.id (by rw [hphase]; exact htold)
    rcases hs.a.sound.log.mem_events.1 hmem with ⟨e', he', hid⟩
    have hEq : e' = e :=
      ht.ids e' (hs.a.held (Or.inl he')) e (hs.b.held (Or.inl he.2)) hid
    exact Or.inl (hEq ▸ he')
  · exact Or.inr ((hmissing e).2 ⟨he, htold⟩)

/-- The state after the turns and calls. -/
def after (b64 : Encoded MegolmMessage → String) (roomHex : String) (a b : NodeSession)
    (acts : List SyncAct) : SyncPeer :=
  Runs.run (step b64 roomHex) ⟨a, b, .idle⟩ acts

theorem Sound.run (ht : Traffic evs) {acts : List SyncAct} : ∀ {st : SyncPeer}, st.Sound evs →
    Runs.Along (step b64 roomHex) (Within b64 evs) st acts →
    Advances evs st (Runs.run (step b64 roomHex) st acts) := by
  induction acts with
  | nil =>
      intro st hs _
      exact ⟨hs, fun _ hx => hx, fun _ hx => hx⟩
  | cons act acts ih =>
      intro st hs hin
      have hone := hs.turn ht (step_turn roomHex hin.1)
      have hrest := ih hone.sound hin.2
      exact ⟨hrest.sound, hone.keepsA.trans hrest.keepsA, hone.keepsB.trans hrest.keepsB⟩

theorem PullsAll.run (ht : Traffic evs) (hw : Wanted evs wanted) (h : st.PullsAll wanted)
    (hs : st.Sound evs) {later : List SyncAct}
    (hin : Runs.Along (step b64 roomHex) (Within b64 evs) st later) :
    (Runs.run (step b64 roomHex) st later).PullsAll wanted := by
  have hstep : ∀ (st : SyncPeer) (act : SyncAct), st.Sound evs ∧ st.PullsAll wanted →
      Within b64 evs st act →
      (step b64 roomHex st act).Sound evs ∧ (step b64 roomHex st act).PullsAll wanted :=
    fun st act hst hok => ⟨(hst.1.turn ht (step_turn _ hok)).sound, hst.2.turn ht hw hst.1 (step_turn _ hok)⟩
  exact (Runs.invariant hstep later ⟨hs, h⟩ hin).2

theorem PushesAll.run (ht : Traffic evs) (hw : Wanted evs wanted) (h : st.PushesAll wanted)
    (hs : st.Sound evs) {later : List SyncAct}
    (hin : Runs.Along (step b64 roomHex) (Within b64 evs) st later) :
    (Runs.run (step b64 roomHex) st later).PushesAll wanted := by
  have hstep : ∀ (st : SyncPeer) (act : SyncAct), st.Sound evs ∧ st.PushesAll wanted →
      Within b64 evs st act →
      (step b64 roomHex st act).Sound evs ∧ (step b64 roomHex st act).PushesAll wanted :=
    fun st act hst hok => ⟨(hst.1.turn ht (step_turn _ hok)).sound, hst.2.turn ht hw hst.1 (step_turn _ hok)⟩
  exact (Runs.invariant hstep later ⟨hs, h⟩ hin).2

omit [Primitives] [Deserialize CreateRoomPayload] [Deserialize MembershipPayload] in
theorem PullsAll.of_done (h : st.PullsAll wanted) {n m : Nat} (hdone : st.phase = .done n m) :
    wanted ⊆ st.a.node.accepted := by
  unfold PullsAll at h
  rw [hdone] at h
  exact h

omit [Primitives] [Deserialize CreateRoomPayload] [Deserialize MembershipPayload] in
theorem PushesAll.of_done (h : st.PushesAll wanted) {n m : Nat} (hdone : st.phase = .done n m) :
    wanted ⊆ st.b.node.accepted := by
  unfold PushesAll at h
  rw [hdone] at h
  exact h

/-- When the call completes, `a` has all that `b` had when it answered, `b` all that `a` had at the snapshot,
and neither has lost an event. -/
theorem sync_peer_complete [Deserialize SignedEvent] [RoundTrips SignedEvent] (ht : Traffic evs)
    {a b : NodeSession} (ha : DeviceNode.Running evs a.node) (hb : DeviceNode.Running evs b.node)
    (acts : List SyncAct)
    (hin : Runs.Along (step b64 roomHex) (Within b64 evs) ⟨a, b, .idle⟩ acts)
    {accepted pushed : Nat} (hdone : (after b64 roomHex a b acts).phase = .done accepted pushed)
    {roomId : RoomId} (hroom : parseRoomId roomHex = .ok roomId) :
    (∀ before o later ourHave ourEvents, acts = before ++ .answer o :: later →
      (after b64 roomHex a b before).phase = .snapped ourHave ourEvents →
      (after b64 roomHex a b before).b.node.roomLog roomId ⊆ (after b64 roomHex a b acts).a.node.accepted) ∧
    (∀ before o later, acts = before ++ .snapshot o :: later →
      (after b64 roomHex a b before).phase = .idle →
      (after b64 roomHex a b before).a.node.roomLog roomId ⊆ (after b64 roomHex a b acts).b.node.accepted) ∧
    ∀ before later, acts = before ++ later →
      (after b64 roomHex a b before).a.node.accepted ⊆ (after b64 roomHex a b acts).a.node.accepted ∧
      (after b64 roomHex a b before).b.node.accepted ⊆ (after b64 roomHex a b acts).b.node.accepted := by
  have hstart : SyncPeer.Sound evs ⟨a, b, .idle⟩ :=
    ⟨ha.party ht, hb.party ht, (fun _ he => by cases he), fun _ hi => by cases hi⟩
  have hreach : ∀ {before later}, acts = before ++ later →
      SyncPeer.Sound evs (after b64 roomHex a b before) ∧
        Runs.Along (step b64 roomHex) (Within b64 evs) (after b64 roomHex a b before) later ∧
        after b64 roomHex a b acts = Runs.run (step b64 roomHex) (after b64 roomHex a b before) later := by
    rintro before later rfl
    rcases hin.append with ⟨hbefore, hlater⟩
    exact ⟨(hstart.run ht hbefore).sound, hlater, Runs.run_append⟩
  refine ⟨?_, ?_, ?_⟩
  · intro before o later ourHave ourEvents hacts hphase
    rcases hreach hacts with ⟨hs, hlater, hend⟩
    rcases exists_syncOffer hroom (after b64 roomHex a b before).b o ourHave with ⟨missing, hoffer⟩
    have hanswer : step b64 roomHex (after b64 roomHex a b before) (.answer o) =
        { after b64 roomHex a b before with phase := .answered missing ourEvents } := by
      unfold step
      rw [hphase]
      dsimp only
      rw [hoffer]
    -- the answer has all that `a` wants of it, and later turns keep that so
    have hpulls := hs.pullsAll ht hphase hroom hoffer
    have hnext := (hs.turn ht (step_turn roomHex hlater.1)).sound
    have hrest := hlater.2
    have hend' : after b64 roomHex a b acts =
        Runs.run (step b64 roomHex) (step b64 roomHex (after b64 roomHex a b before) (.answer o)) later := hend
    rw [hanswer] at hnext hrest hend'
    have hall := hpulls.run ht (wanted_roomLog hs.b roomId) hnext hrest
    rw [← hend'] at hall
    exact hall.of_done hdone
  · intro before o later hacts hphase
    rcases hreach hacts with ⟨hs, hlater, hend⟩
    have hsnapshot : step b64 roomHex (after b64 roomHex a b before) (.snapshot o) =
        { after b64 roomHex a b before with
          phase := .snapped
            (((after b64 roomHex a b before).a.node.roomEventIds roomId).map fun id => hex32 id.bytes)
            ((after b64 roomHex a b before).a.node.listEvents o roomId) } := by
      unfold step
      rw [hphase]
      dsimp only [SyncPeer.snapshot]
      rw [hroom]
    -- the snapshot lists the whole room
    have hpushes : (step b64 roomHex (after b64 roomHex a b before) (.snapshot o)).PushesAll
        ((after b64 roomHex a b before).a.node.roomLog roomId) := by
      rw [hsnapshot]
      exact fun e he => (mem_listEvents o hs.a.sound.log).2 he
    have hnext := (hs.turn ht (step_turn roomHex hlater.1)).sound
    have hall := hpushes.run ht (wanted_roomLog hs.a roomId) hnext hlater.2
    have hend' : after b64 roomHex a b acts =
        Runs.run (step b64 roomHex) (step b64 roomHex (after b64 roomHex a b before) (.snapshot o)) later :=
      hend
    rw [← hend'] at hall
    exact hall.of_done hdone
  · intro before later hacts
    rcases hreach hacts with ⟨hs, hlater, hend⟩
    rw [hend]
    have hadv := hs.run ht hlater
    exact ⟨hadv.keepsA, hadv.keepsB⟩

end SyncPeer

end Call

/-! ## A run: the peer receives a reply while the call is under way -/

section Example

open Checksum DeviceNode

@[reducible] def syncBook : Olm :=
  Symbolic.olm []

attribute [local instance] Checksum.primitives syncBook

@[reducible] noncomputable def syncReader : Deserialize SignedEvent :=
  Deserialize.ofWritten SignedEvent

@[reducible] def syncCreates : Deserialize CreateRoomPayload :=
  .ofTable []

@[reducible] def syncMemberships : Deserialize MembershipPayload :=
  .ofTable []

attribute [local instance] syncReader syncCreates syncMemberships

/-- Device 1 has `hello`. -/
def greeterNode : DeviceNode :=
  ((DeviceNode.new (device 1)).commit hello true).2

def greeter : NodeSession :=
  { relaySession [] 1 with node := greeterNode }

/-- The session of device 2, which has nothing. -/
def listener : NodeSession :=
  relaySession [] 2

/-- The reply comes to the peer before it answers the offer, and waits there. -/
def greetingTurns : List SyncAct :=
  [.snapshot .stored, .callB (.session (key 2) (.ingestRemote reply)), .answer .stored, .pull, .push]

def roomHexOne : String :=
  hex32 (room 1).bytes

theorem greeting_done : (SyncPeer.after noText roomHexOne greeter listener greetingTurns).phase = .done 0 1 := by
  decide +kernel

theorem sync_peer_complete_greeting :
    (SyncPeer.after noText roomHexOne greeter listener []).a.node.roomLog (room 1) ⊆
      (SyncPeer.after noText roomHexOne greeter listener greetingTurns).b.node.accepted := by
  have hmem : ∀ e ∈ ({hello, reply} : Set SignedEvent), e = hello ∨ e = reply := by
    simp
  have hv : ∀ e ∈ ({hello, reply} : Set SignedEvent), Verified e := by
    intro e he
    rcases hmem e he with rfl | rfl
    · exact event_verified _ _ _ _ _ _
    · exact event_verified _ _ _ _ _ _
  have ht : Traffic {hello, reply} := by
    refine ⟨?_, ?_⟩
    · intro x hx y hy _
      rcases hmem x hx with rfl | rfl <;> rcases hmem y hy with rfl | rfl <;> rfl
    · intro x hx y hy hhash
      have hid : x.id = y.id := by
        rw [id_of_verified (hv x hx), id_of_verified (hv y hy)]
        exact congrArg EventId.mk hhash
      rcases hmem x hx with rfl | rfl <;> rcases hmem y hy with rfl | rfl
      · rfl
      · exact absurd hid.symm reply_ne_hello
      · exact absurd hid reply_ne_hello
      · rfl
  have hrt : RoundTrips SignedEvent := roundTrips_ofWritten SignedEvent.toJson_injective
  have hgreeter : ReachedBy {hello, reply} greeterNode := by
    unfold greeterNode
    exact ReachedBy.commit true (ReachedBy.new _) (by simp)
  have ha : Running {hello, reply} greeter.node := by
    dsimp only [greeter]
    exact Running.inMemory hgreeter
  have hb : Running {hello, reply} listener.node := by
    have hnode : listener.node = DeviceNode.new (device 2) := rfl
    rw [hnode]
    exact Running.inMemory (ReachedBy.new (device 2))
  have hin : Runs.Along (SyncPeer.step noText roomHexOne) (SyncPeer.Within noText {hello, reply})
      ⟨greeter, listener, .idle⟩ greetingTurns := by
    refine ⟨trivial, ?_, trivial, trivial, trivial, trivial⟩
    rintro ev rfl
    exact Or.inr rfl
  have hroom : parseRoomId roomHexOne = .ok (room 1) := by
    decide +kernel
  have hcomplete := SyncPeer.sync_peer_complete ht ha hb greetingTurns hin greeting_done hroom
  exact hcomplete.2.1 [] .stored
    [.callB (.session (key 2) (.ingestRemote reply)), .answer .stored, .pull, .push] rfl rfl

end Example

end Node
end Thunderducks
