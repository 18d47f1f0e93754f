import Thunderducks.Node.Listing
import Thunderducks.Node.Peers
import Thunderducks.Node.SyncPeer

/-!
# Fanout — what `send_message` does after the commit (`td-node/src/rpc.rs`)

The handler has given its lock back.  It calls one peer after the other: it shares its key, posts the new event
alone, and posts the whole room if the peer took nothing of that; besides it pushes the event over P2P.  Calls
fail, peers refuse, answers are lost, and meanwhile every node sends and receives.  `fanout_delivers` says what a
peer has once a fan-out to it is through; `fanout_agrees`, that nodes which all fan out to each other have one log.
-/

namespace Thunderducks
namespace Node

open Lib Event Crypto Net

/-! ## What `send_message` does to the node -/

section Send

variable [Olm] [Primitives] [Deserialize CreateRoomPayload] [Deserialize MembershipPayload]
variable (b64 : Encoded MegolmMessage → String) (sk : Primitives.SigningKey)

namespace NodeSession

theorem ingestRemote_peers (s : NodeSession) (ev : SignedEvent) : (s.ingestRemote ev).2.peers = s.peers := by
  unfold ingestRemote
  rcases s.node.commitRemote ev with ⟨res, node⟩
  cases res with
  | error e => rfl
  | ok b =>
      dsimp only
      split
      · rfl
      · rfl

theorem syncIngest_peers (events : List SignedEvent) : ∀ (s : NodeSession) (report : IngestReport),
    (s.syncIngest events report).2.peers = s.peers := by
  induction events with
  | nil => exact fun _ _ => rfl
  | cons ev events ih =>
      intro s report
      have hone := ingestRemote_peers s ev
      unfold syncIngest
      rcases hrun : s.ingestRemote ev with ⟨res, s'⟩
      rw [hrun] at hone
      rcases res with e | b
      · exact (ih s' _).trans hone
      · cases b with
        | false => exact (ih s' _).trans hone
        | true => exact (ih s' _).trans hone

/-- A message that is sent has been committed, below all of its room that the node had. -/
structure Sent (s : NodeSession) (call : SessionCall) (roomId : RoomId) (ev : SignedEvent) (node : DeviceNode) :
    Prop where
  brings : call.Brings b64 sk s ev
  room : ev.roomId = roomId
  parents : ev.parents = s.node.tips roomId
  node : node = (s.node.commitLocal ev).2

theorem sendInRoom_spec (s : NodeSession) (roomId : RoomId) (text freshId : String) (ts : UInt64) :
    (s.sendInRoom b64 sk roomId text freshId ts).2.peers = s.peers ∧
    ((∃ e, (s.sendInRoom b64 sk roomId text freshId ts).1 = .error e) ∧
        (s.sendInRoom b64 sk roomId text freshId ts).2.node = s.node ∨
      ∃ ct ev, (sendMegolm s.e2ee (hex32 roomId.bytes) freshId (plaintextOf text)).2.1 = .ok ct ∧
        signEvent sk (s.messageEvent b64 roomId ct ts) = .ok ev ∧
        (s.sendInRoom b64 sk roomId text freshId ts).2.node = (s.node.commitLocal ev).2 ∧
        ((∃ b, (s.node.commitLocal ev).1 = .ok b) ∧ (s.sendInRoom b64 sk roomId text freshId ts).1 = .ok ev ∨
          (∃ e, (s.node.commitLocal ev).1 = .error e) ∧
            ∃ e, (s.sendInRoom b64 sk roomId text freshId ts).1 = .error e)) := by
  unfold sendInRoom
  dsimp only
  cases hct : (sendMegolm s.e2ee (hex32 roomId.bytes) freshId (plaintextOf text)).2.1 with
  | error e => exact ⟨rfl, Or.inl ⟨⟨_, rfl⟩, rfl⟩⟩
  | ok ct =>
      dsimp only
      cases hsign : signEvent sk (s.messageEvent b64 roomId ct ts) with
      | error e => exact ⟨rfl, Or.inl ⟨⟨_, rfl⟩, rfl⟩⟩
      | ok ev =>
          dsimp only
          cases hcommit : s.node.commitLocal ev with
          | mk res node =>
              cases res with
              | error e =>
                  refine ⟨rfl, Or.inr ⟨ct, ev, rfl, hsign, ?_, Or.inr ⟨⟨e, ?_⟩, _, rfl⟩⟩⟩
                  · rw [hcommit]
                  · rw [hcommit]
              | ok b =>
                  refine ⟨rfl, Or.inr ⟨ct, ev, rfl, hsign, ?_, Or.inl ⟨⟨b, ?_⟩, rfl⟩⟩⟩
                  · rw [hcommit]
                  · rw [hcommit]

theorem sendMessage_spec (s : NodeSession) (roomId : RoomId) (text freshId : String) (ts : UInt64) :
    (s.sendMessage b64 sk roomId text freshId ts).2.peers = s.peers ∧
    ((∃ e, (s.sendMessage b64 sk roomId text freshId ts).1 = .error e) ∧
        (s.sendMessage b64 sk roomId text freshId ts).2.node = s.node ∨
      ∃ ev, Sent b64 sk s (.sendMessage roomId text freshId ts) roomId ev
          (s.sendMessage b64 sk roomId text freshId ts).2.node ∧
        ((∃ b, (s.node.commitLocal ev).1 = .ok b) ∧ (s.sendMessage b64 sk roomId text freshId ts).1 = .ok ev ∨
          (∃ e, (s.node.commitLocal ev).1 = .error e) ∧
            ∃ e, (s.sendMessage b64 sk roomId text freshId ts).1 = .error e)) := by
  by_cases hclosed : s.rooms.assertCanMessage roomId s.deviceId ≠ .ok () ∧ (s.node.roomEventIds roomId).isEmpty
  · -- no member, and no events here that would say otherwise
    have hsame : ∃ e, s.sendMessage b64 sk roomId text freshId ts = (.error (.room e), s) := by
      unfold sendMessage
      cases hcan : s.rooms.assertCanMessage roomId s.deviceId with
      | ok u => exact absurd hcan hclosed.1
      | error e => exact ⟨e, if_pos hclosed.2⟩
    rcases hsame with ⟨e, hsame⟩
    rw [hsame]
    exact ⟨rfl, Or.inl ⟨⟨_, rfl⟩, rfl⟩⟩
  · have hopen : s.sendMessage b64 sk roomId text freshId ts = s.sendInRoom b64 sk roomId text freshId ts := by
      unfold sendMessage
      cases hcan : s.rooms.assertCanMessage roomId s.deviceId with
      | ok u => rfl
      | error e => exact if_neg fun hempty => hclosed ⟨by simp [hcan], hempty⟩
    rw [hopen]
    rcases sendInRoom_spec b64 sk s roomId text freshId ts with
      ⟨hpeers, hquiet | ⟨ct, ev, hct, hsign, hnode, hanswer⟩⟩
    · exact ⟨hpeers, Or.inl hquiet⟩
    · have hfields := signEvent_unsigned hsign
      exact ⟨hpeers, Or.inr ⟨ev, ⟨⟨hclosed, ct, hct, hsign⟩, congrArg UnsignedEvent.roomId hfields,
        congrArg UnsignedEvent.parents hfields, hnode⟩, hanswer⟩⟩

/-- A call that succeeds brings the message it answers, and no other. -/
theorem sendMessage_brings {s : NodeSession} {roomId : RoomId} {text freshId : String} {ts : UInt64}
    {ev ev' : SignedEvent} (hok : (s.sendMessage b64 sk roomId text freshId ts).1 = .ok ev)
    (h : SessionCall.Brings b64 sk s (.sendMessage roomId text freshId ts) ev') : ev' = ev := by
  rcases s.sendMessage_spec b64 sk roomId text freshId ts with ⟨_, hspec⟩
  rw [hok] at hspec
  rcases hspec with ⟨⟨e, hno⟩, _⟩ | ⟨_, hsent, ⟨_, hev⟩ | ⟨_, ⟨e, hno⟩⟩⟩
  · cases hno
  · cases hev
    rcases hsent.brings with ⟨_, ct, hct, hsign⟩
    rcases h with ⟨_, ct', hct', hsign'⟩
    rw [hct] at hct'
    cases hct'
    rw [hsign] at hsign'
    exact (Except.ok.inj hsign').symm
  · cases hno

end NodeSession

end Send

/-! ## What a log with an event has besides -/

section Below

variable [Primitives]

namespace DeviceNode

variable {evs : Set SignedEvent} {node : DeviceNode}

omit [Primitives] in
theorem LogCoherent.roomLog_finite (h : node.LogCoherent) (room : RoomId) : (node.roomLog room).Finite :=
  (List.finite_toSet node.events.values).subset fun _ he => h.mem_values.2 he.2

omit [Primitives] in
theorem accepted_ids {x y : SignedEvent} (hx : x ∈ node.accepted) (hy : y ∈ node.accepted) (hid : x.id = y.id) :
    x = y := by
  have hx' : node.events.lookup x.id = some x := hx
  have hy' : node.events.lookup y.id = some y := hy
  rw [hid, hy'] at hx'
  exact (Option.some.inj hx').symm

omit [Primitives] in
theorem LogCoherent.roomLog_acyclic (h : node.LogCoherent) (room : RoomId) :
    Causal.Acyclic SignedEvent.id SignedEvent.parents (node.roomLog room) := by
  intro i hcycle
  -- what is on a cycle is an event of the room, and comes after its parents
  rcases Relation.TransGen.head'_iff.1 hcycle with ⟨q, ⟨x, hx, rfl, _⟩, _⟩
  have hinj : Set.InjOn SignedEvent.id (node.roomLog room) := fun a ha b hb => accepted_ids ha.2 hb.2
  exact (h.roomLog_supplied hx).not_ancestor_self hinj hcycle

omit [Primitives] in
/-- Every event of a room is a tip, or an ancestor of one. -/
theorem LogCoherent.below_tips (h : node.LogCoherent) {room : RoomId} {e : SignedEvent} (he : e ∈ node.roomLog room) :
    ∃ t ∈ node.tips room, t = e.id ∨
      Causal.Ancestor SignedEvent.id SignedEvent.parents (node.roomLog room) t e.id := by
  rcases (h.roomLog_acyclic room).exists_tip (h.roomLog_finite room) he with ⟨t, ht, habove, hnone⟩
  refine ⟨t.id, h.mem_tips.2 ⟨⟨t, ht.2, ht.1⟩, ?_⟩, habove⟩
  intro c y hy hroom hnamed
  have hid : y.id = c := h.keyed hy
  subst hid
  exact hnone y ⟨hroom, hy⟩ hnamed

/-- Who has an event has its parents. -/
theorem Party.parent_mem (ht : Traffic evs) (h : Party (genuine evs) node) {x : SignedEvent} (hx : x ∈ genuine evs)
    (hmem : x.id ∈ node.events) {p : EventId} (hp : p ∈ x.parents) : p ∈ node.events := by
  rcases h.sound.log.mem_events.1 hmem with ⟨y, hy, hid⟩
  have hsame : y = x := ht.ids y (h.held (Or.inl hy)) x hx hid
  subst hsame
  rcases h.sound.log.parent_accepted hy hp with ⟨z, hz, _⟩
  exact HashMap.mem_of_lookup hz

/-- And all its ancestors. -/
theorem Party.ancestor_mem (ht : Traffic evs) (h : Party (genuine evs) node) {pool : Set SignedEvent}
    (hpool : pool ⊆ genuine evs) {i p : EventId} (hi : i ∈ node.events)
    (ha : Causal.Ancestor SignedEvent.id SignedEvent.parents pool i p) : p ∈ node.events := by
  induction ha with
  | single hstep =>
      rcases hstep with ⟨x, hx, rfl, hp⟩
      exact h.parent_mem ht (hpool hx) hi hp
  | tail _ hstep ih =>
      rcases hstep with ⟨x, hx, rfl, hp⟩
      exact h.parent_mem ht (hpool hx) ih hp

/-- The log has the event itself. -/
theorem Party.accepted_of_mem (ht : Traffic evs) (h : Party (genuine evs) node) {e : SignedEvent}
    (he : e ∈ genuine evs) (hmem : e.id ∈ node.events) : e ∈ node.accepted := by
  rcases h.sound.log.mem_events.1 hmem with ⟨y, hy, hid⟩
  rw [← ht.ids y (h.held (Or.inl hy)) e he hid]
  exact hy

/-- A commit that answers true has taken its event. -/
theorem Party.takes (ht : Traffic evs) (h : Party (genuine evs) node) {ev : SignedEvent} (hev : ev ∈ evs)
    {toOutbox b : Bool} (hok : (node.commit ev toOutbox).1 = .ok b)
    (hready : b = true ∨ ∀ p ∈ ev.parents, p ∈ node.events) :
    ev ∈ genuine evs ∧ ev ∈ (node.commit ev toOutbox).2.accepted := by
  have hv : Verified ev := by
    by_contra hno
    rcases commit_unverified hno toOutbox with ⟨e, heq⟩
    rw [heq] at hok
    cases hok
  have hgenuine : ev ∈ genuine evs := ⟨hev, hv⟩
  refine ⟨hgenuine, (h.commit ht hev toOutbox).1.accepted_of_mem ht hgenuine ?_⟩
  have ho := commit_outcome h.sound hv toOutbox
  revert ho hok
  generalize (node.commit ev toOutbox).1 = res
  generalize (node.commit ev toOutbox).2 = node'
  intro hok ho
  cases ho with
  | known hknown => exact hknown
  | waits _ hwait =>
      cases hok
      rcases hready with hno | hparents
      · cases hno
      · rw [parentsOk_iff.2 hparents] at hwait
        cases hwait
  | refused => cases hok
  | unwritten => cases hok
  | broken => cases hok
  | drained _ _ _ htook hdrained =>
      refine hdrained.grew.mem ?_
      rw [htook.events]
      exact mem_take.2 (Or.inl rfl)

end DeviceNode

end Below

/-! ## The nodes and what is under way between them -/

/-- How far the fan-out to one peer has come. -/
inductive FanoutPhase
  /-- In `share_megolm_olm_to_peer`. -/
  | sharing
  /-- The new event is posted. -/
  | posted
  /-- The peer has ingested it; its answer is under way. -/
  | answered (accepted : Nat)
  /-- The whole room is posted. -/
  | fullPosted
  /-- The peer has taken the event, or has ingested the room. -/
  | delivered
  /-- The whole room was posted and never ingested; `fanout_ok` counts the peer all the same. -/
  | unheard
  /-- In `fanout_errors`. -/
  | failed
  deriving DecidableEq

inductive FanoutTurn
  /-- The peer has the key. -/
  | shared
  /-- The answer arrives. -/
  | received
  /-- The peer does not ingest, or its answer has no number: `accepted` is 0. -/
  | refused
  /-- The call fails. -/
  | lost

namespace FanoutPhase

def after : FanoutPhase → FanoutTurn → FanoutPhase
  | .sharing, .shared => .posted
  | .sharing, .lost => .failed
  | .posted, .refused => .fullPosted
  | .posted, .lost => .failed
  | .answered accepted, .received => if accepted = 0 then .fullPosted else .delivered
  | .answered _, .refused => .fullPosted
  | .answered _, .lost => .failed
  | .fullPosted, .refused => .unheard
  | .fullPosted, .lost => .unheard
  | phase, _ => phase

/-- The peer has taken the new event. -/
def Took : FanoutPhase → Prop
  | .answered accepted => accepted ≠ 0
  | .delivered => True
  | _ => False

/-- Only an ingest makes the peer take something. -/
theorem Took.of_after {phase : FanoutPhase} {turn : FanoutTurn} (h : (phase.after turn).Took) : phase.Took := by
  cases phase with
  | answered accepted =>
      cases turn with
      | received =>
          by_cases hzero : accepted = 0
          · rw [hzero] at h
            exact h.elim
          · exact hzero
      | shared => exact h
      | refused => exact h.elim
      | lost => exact h.elim
  | delivered => trivial
  | _ => cases turn <;> exact h.elim

end FanoutPhase

/-- What one `send_message` does with one peer. -/
structure Fanout (ι : Type) where
  peer : ι
  newEvent : SignedEvent
  fullDag : List SignedEvent
  phase : FanoutPhase
  deriving DecidableEq

/-- Verified events of one room that have ids of their own make no trouble. -/
theorem traffic_of_nodup [Primitives] {room : RoomId} {evs : List SignedEvent}
    (hroom : ∀ e ∈ evs, e.roomId = room ∧ Verified e) (hids : (evs.map SignedEvent.id).Nodup) :
    Traffic {e | e ∈ evs} := by
  refine ⟨fun x hx y hy _ => (hroom y hy).1.trans (hroom x hx).1.symm, ?_⟩
  intro x hx y hy hhash
  have hid : x.id = y.id := by
    rw [id_of_verified (hroom x hx).2, id_of_verified (hroom y hy).2]
    exact congrArg EventId.mk hhash
  rw [List.inj_on_of_nodup_map hids hx hy hid]

namespace Fanout

/-- The new event and all that it descends from. -/
def carried {ι : Type} (f : Fanout ι) : Set SignedEvent :=
  {e | e ∈ f.fullDag ∧ (e = f.newEvent ∨
    Causal.Ancestor SignedEvent.id SignedEvent.parents {x | x ∈ f.fullDag} f.newEvent.id e.id)}

section Formed

variable [Primitives] {ι : Type} {evs : Set SignedEvent} {f : Fanout ι} {node : DeviceNode}

/-- The whole room has each event after its parents, and the new one. -/
structure Formed (evs : Set SignedEvent) (f : Fanout ι) : Prop where
  new : f.newEvent ∈ f.fullDag
  genuine : ∀ e ∈ f.fullDag, e ∈ Node.genuine evs
  supplied : ∀ e ∈ f.fullDag, DeviceNode.Supplied ∅ {x | x ∈ f.fullDag} e.id

/-- Whoever has the new event has all that it descends from. -/
theorem Formed.carried_of_new (ht : Traffic evs) (hf : f.Formed evs) (h : DeviceNode.Party (Node.genuine evs) node)
    (hnew : f.newEvent ∈ node.accepted) : f.carried ⊆ node.accepted := by
  rintro e ⟨he, rfl | hup⟩
  · exact hnew
  · have hmem : e.id ∈ node.events := h.ancestor_mem ht hf.genuine (HashMap.mem_of_lookup hnew) hup
    exact h.accepted_of_mem ht (hf.genuine e he) hmem

theorem Formed.carried_of_full (ht : Traffic evs) (hf : f.Formed evs) (h : DeviceNode.Party (Node.genuine evs) node) :
    f.carried ⊆ (node.commitRemoteAll f.fullDag).2.accepted := by
  have hall : {x | x ∈ f.fullDag} ⊆ (node.commitRemoteAll f.fullDag).2.accepted :=
    h.covers ht hf.supplied hf.genuine hf.genuine fun _ he => Or.inr he
  exact fun e he => hall he.1

end Formed

end Fanout

/-- Who answers at the base of a URL, and who at a P2P address. -/
structure AddressBook (ι : Type) where
  rpc : String → Option ι
  p2p : PeerUri → Option ι

section Cluster

variable [Olm] {ι : Type}

namespace AddressBook

variable (book : AddressBook ι)

def rpcPeer (ep : PeerEndpoint) : Option ι :=
  ep.rpc.bind fun rpc => book.rpc (Text.trimEndMatches '/' rpc)

def p2pPeer (ep : PeerEndpoint) : Option ι :=
  match ep.p2p with
  | none => none
  | some uri =>
      match PeerUri.parse uri with
      | .error _ => none
      | .ok peer => book.p2p peer

/-- The fan-outs to the peers with an RPC URL at which somebody answers. -/
def fanouts (o : SessionOrder) (s : NodeSession) (newEvent : SignedEvent) (fullDag : List SignedEvent) :
    List (Fanout ι) :=
  ((o.peers.run s.peers.values).filterMap book.rpcPeer).map fun peer => ⟨peer, newEvent, fullDag, .sharing⟩

/-- Best-effort P2P: only the new event. -/
def pushes (o : SessionOrder) (s : NodeSession) (newEvent : SignedEvent) : List (ι × SignedEvent) :=
  ((o.peers.run s.peers.values).filterMap book.p2pPeer).map fun peer => (peer, newEvent)

end AddressBook

/-- The nodes, the fan-outs that have been started, and the events that are under way over P2P. -/
structure Cluster (ι : Type) where
  nodes : ι → NodeSession
  fanouts : List (Fanout ι)
  pushes : List (ι × SignedEvent)

variable [Primitives]

inductive ClusterStep (ι : Type)
  /-- Any handler of a node but `send_message`. -/
  | call (i : ι) (call : PeerCall)
  /-- Keys are shared, by a fan-out or otherwise. -/
  | keys (i : ι) (e2ee : E2eeDevice) (peerOlmKeys : HashMap DeviceId OlmDeviceKeys)
  | send (i : ι) (sk : Primitives.SigningKey) (roomId : RoomId) (text freshId : String) (ts : UInt64)
      (o : SessionOrder) (listed : IterOrder SignedEvent)
  | turn (k : Nat) (t : FanoutTurn)
  /-- The peer of the `k`th fan-out ingests what is posted. -/
  | ingest (k : Nat)
  /-- The `k`th push arrives at the listener. -/
  | push (k : Nat)
  | drop (k : Nat)

variable [DecidableEq ι] [Deserialize CreateRoomPayload] [Deserialize MembershipPayload]

namespace Cluster

variable (b64 : Encoded MegolmMessage → String) (book : AddressBook ι)

def start (nodes : ι → NodeSession) : Cluster ι :=
  { nodes := nodes
    fanouts := []
    pushes := [] }

def setNode (c : Cluster ι) (i : ι) (s : NodeSession) : Cluster ι :=
  { c with nodes := Function.update c.nodes i s }

def setPhase (c : Cluster ι) (k : Nat) (phase : FanoutPhase) : Cluster ι :=
  { c with fanouts := c.fanouts.modify k fun f => { f with phase := phase } }

/-- What the handler starts once it has released the lock. -/
def fanOut (c : Cluster ι) (o : SessionOrder) (s : NodeSession) (newEvent : SignedEvent)
    (fullDag : List SignedEvent) : Cluster ι :=
  { c with
    fanouts := c.fanouts ++ book.fanouts o s newEvent fullDag
    pushes := c.pushes ++ book.pushes o s newEvent }

def ingest (c : Cluster ι) (k : Nat) (f : Fanout ι) : Cluster ι :=
  match f.phase with
  | .posted =>
      let (report, s) := (c.nodes f.peer).syncIngest [f.newEvent] ⟨0, [], []⟩
      (c.setNode f.peer s).setPhase k (.answered report.accepted)
  | .fullPosted =>
      let (_, s) := (c.nodes f.peer).syncIngest f.fullDag ⟨0, [], []⟩
      (c.setNode f.peer s).setPhase k .delivered
  | _ => c

def step (c : Cluster ι) : ClusterStep ι → Cluster ι
  | .call i call => c.setNode i (call.step b64 (c.nodes i))
  | .keys i e2ee peerOlmKeys => c.setNode i { c.nodes i with e2ee := e2ee, peerOlmKeys := peerOlmKeys }
  | .send i sk roomId text freshId ts o listed =>
      match (c.nodes i).sendMessage b64 sk roomId text freshId ts with
      | (.error _, s) => c.setNode i s
      | (.ok signed, s) => (c.setNode i s).fanOut book o s signed (s.node.listEvents listed roomId)
  | .turn k t =>
      match c.fanouts[k]? with
      | some f => c.setPhase k (f.phase.after t)
      | none => c
  | .ingest k =>
      match c.fanouts[k]? with
      | some f => c.ingest k f
      | none => c
  | .push k =>
      match c.pushes[k]? with
      | some (i, ev) => { c.setNode i ((c.nodes i).ingestRemote ev).2 with pushes := c.pushes.eraseIdx k }
      | none => c
  | .drop k => { c with pushes := c.pushes.eraseIdx k }

def after (nodes : ι → NodeSession) (steps : List (ClusterStep ι)) : Cluster ι :=
  Runs.run (step b64 book) (start nodes) steps

/-- Everything that the calls bring and the sends sign is in `evs`. -/
def Within (evs : Set SignedEvent) (c : Cluster ι) : ClusterStep ι → Prop
  | .call i call => ∀ ev, call.Brings b64 (c.nodes i) ev → ev ∈ evs
  | .send i sk roomId text freshId ts _ _ =>
      ∀ ev, SessionCall.Brings b64 sk (c.nodes i) (.sendMessage roomId text freshId ts) ev → ev ∈ evs
  | _ => True

/-! ## What one step does -/

variable {b64 : Encoded MegolmMessage → String} {book : AddressBook ι} {evs : Set SignedEvent} {c c' c'' : Cluster ι}

/-- The invariant: what a peer has taken it has, with all that it descends from. -/
structure Sound (evs : Set SignedEvent) (c : Cluster ι) : Prop where
  party : ∀ i, DeviceNode.Party (genuine evs) (c.nodes i).node
  formed : ∀ f ∈ c.fanouts, f.Formed evs
  took : ∀ f ∈ c.fanouts, f.phase.Took → f.carried ⊆ (c.nodes f.peer).node.accepted
  pushed : ∀ p ∈ c.pushes, p.2 ∈ genuine evs

/-- No log loses an event, and no fan-out is forgotten. -/
structure Advances (evs : Set SignedEvent) (c c' : Cluster ι) : Prop where
  sound : c'.Sound evs
  keeps : ∀ i, (c.nodes i).node.accepted ⊆ (c'.nodes i).node.accepted
  fanouts : ∀ (k : Nat) (f : Fanout ι), c.fanouts[k]? = some f →
    ∃ phase, c'.fanouts[k]? = some { f with phase := phase }

omit [DecidableEq ι] [Deserialize CreateRoomPayload] [Deserialize MembershipPayload] in
theorem Advances.refl (h : c.Sound evs) : Advances evs c c :=
  ⟨h, fun _ _ he => he, fun _ f hk => ⟨f.phase, hk⟩⟩

omit [DecidableEq ι] [Deserialize CreateRoomPayload] [Deserialize MembershipPayload] in
theorem Advances.trans (h : Advances evs c c') (h' : Advances evs c' c'') : Advances evs c c'' := by
  refine ⟨h'.sound, fun i => (h.keeps i).trans (h'.keeps i), ?_⟩
  intro k f hk
  rcases h.fanouts k f hk with ⟨phase, hk'⟩
  exact h'.fanouts k { f with phase := phase } hk'

omit [Deserialize CreateRoomPayload] [Deserialize MembershipPayload] in
theorem Sound.setNode (h : c.Sound evs) {i : ι} {s : NodeSession} (hparty : DeviceNode.Party (genuine evs) s.node)
    (hkeep : (c.nodes i).node.accepted ⊆ s.node.accepted) : Advances evs c (c.setNode i s) := by
  have hkeeps : ∀ j, (c.nodes j).node.accepted ⊆ ((c.setNode i s).nodes j).node.accepted := by
    intro j
    by_cases hj : j = i
    · subst hj
      simpa [Cluster.setNode] using hkeep
    · simp [Cluster.setNode, hj]
  refine ⟨⟨?_, h.formed, fun f hf htook => (h.took f hf htook).trans (hkeeps f.peer), h.pushed⟩, hkeeps,
    fun _ f hk => ⟨f.phase, hk⟩⟩
  intro j
  by_cases hj : j = i
  · subst hj
    simpa [Cluster.setNode] using hparty
  · simpa [Cluster.setNode, hj] using h.party j

omit [DecidableEq ι] [Primitives] [Deserialize CreateRoomPayload] [Deserialize MembershipPayload] in
theorem getElem?_setPhase {k j : Nat} {phase : FanoutPhase} :
    (c.setPhase k phase).fanouts[j]? =
      (c.fanouts[j]?).map fun f => if k = j then { f with phase := phase } else f := by
  simp only [Cluster.setPhase, List.getElem?_modify]
  rfl

omit [DecidableEq ι] [Deserialize CreateRoomPayload] [Deserialize MembershipPayload] in
theorem Sound.setPhase (h : c.Sound evs) {k : Nat} {f : Fanout ι} {phase : FanoutPhase} (hk : c.fanouts[k]? = some f)
    (htook : phase.Took → f.carried ⊆ (c.nodes f.peer).node.accepted) : Advances evs c (c.setPhase k phase) := by
  have hmem : ∀ f' ∈ (c.setPhase k phase).fanouts, f' ∈ c.fanouts ∨ f' = { f with phase := phase } := by
    intro f' hf'
    rcases List.getElem?_of_mem hf' with ⟨j, hj⟩
    rw [getElem?_setPhase] at hj
    rcases Option.map_eq_some_iff.1 hj with ⟨g, hg, hset⟩
    by_cases hkj : k = j
    · rw [if_pos hkj] at hset
      rw [← hkj, hk] at hg
      cases hg
      exact Or.inr hset.symm
    · rw [if_neg hkj] at hset
      exact Or.inl (hset ▸ List.mem_of_getElem? hg)
  refine ⟨⟨h.party, ?_, ?_, h.pushed⟩, fun _ _ he => he, ?_⟩
  · intro f' hf'
    rcases hmem f' hf' with hold | rfl
    · exact h.formed f' hold
    · have hformed := h.formed f (List.mem_of_getElem? hk)
      exact ⟨hformed.new, hformed.genuine, hformed.supplied⟩
  · intro f' hf' htook'
    rcases hmem f' hf' with hold | rfl
    · exact h.took f' hold htook'
    · exact htook htook'
  · intro j g hj
    rw [getElem?_setPhase, hj]
    by_cases hkj : k = j
    · exact ⟨phase, by simp [hkj]⟩
    · exact ⟨g.phase, by simp [hkj]⟩

omit [DecidableEq ι] [Deserialize CreateRoomPayload] [Deserialize MembershipPayload] in
/-- A fan-out that has not begun has taken nothing. -/
theorem Sound.fanOut (h : c.Sound evs) (o : SessionOrder) (s : NodeSession) {ev : SignedEvent}
    {fullDag : List SignedEvent} (hformed : ∀ peer, Fanout.Formed evs (⟨peer, ev, fullDag, .sharing⟩ : Fanout ι)) :
    Advances evs c (c.fanOut book o s ev fullDag) := by
  refine ⟨⟨h.party, ?_, ?_, ?_⟩, fun _ _ he => he, ?_⟩
  · intro f hf
    rcases List.mem_append.1 hf with hold | hnew
    · exact h.formed f hold
    · rcases List.mem_map.1 hnew with ⟨peer, _, rfl⟩
      exact hformed peer
  · intro f hf htook
    rcases List.mem_append.1 hf with hold | hnew
    · exact h.took f hold htook
    · rcases List.mem_map.1 hnew with ⟨peer, _, rfl⟩
      exact htook.elim
  · intro p hp
    rcases List.mem_append.1 hp with hold | hnew
    · exact h.pushed p hold
    · rcases List.mem_map.1 hnew with ⟨peer, _, rfl⟩
      exact (hformed peer).genuine ev (hformed peer).new
  · intro k f hk
    have hlt : k < c.fanouts.length := (List.getElem?_eq_some_iff.1 hk).1
    exact ⟨f.phase, (List.getElem?_append_left hlt).trans hk⟩

omit [DecidableEq ι] [Deserialize CreateRoomPayload] [Deserialize MembershipPayload] in
theorem Sound.unpush (h : c.Sound evs) (k : Nat) : Advances evs c { c with pushes := c.pushes.eraseIdx k } :=
  ⟨⟨h.party, h.formed, h.took, fun p hp => h.pushed p (List.mem_of_mem_eraseIdx hp)⟩, fun _ _ he => he,
    fun _ f hk => ⟨f.phase, hk⟩⟩

omit [DecidableEq ι] [Deserialize CreateRoomPayload] [Deserialize MembershipPayload] in
/-- What a message that is sent finds: its room, and itself at the top of it. -/
theorem formed_sent (ht : Traffic evs) {s s' : NodeSession} (h : DeviceNode.Party (genuine evs) s.node)
    {sk : Primitives.SigningKey} {call : SessionCall} {roomId : RoomId} {ev : SignedEvent}
    (hsent : NodeSession.Sent b64 sk s call roomId ev s'.node) (hev : ev ∈ evs)
    {b : Bool} (hok : (s.node.commitLocal ev).1 = .ok b) (listed : IterOrder SignedEvent) (peer : ι) :
    Fanout.Formed evs ⟨peer, ev, s'.node.listEvents listed roomId, .sharing⟩ := by
  have hparents : ∀ p ∈ ev.parents, p ∈ s.node.events := by
    intro p hp
    rw [hsent.parents] at hp
    rcases (h.sound.log.mem_tips.1 hp).1 with ⟨e, he, _⟩
    exact HashMap.mem_of_lookup he
  have htaken := h.takes ht hev hok (Or.inr hparents)
  have hparty : DeviceNode.Party (genuine evs) s'.node := by
    rw [hsent.node]
    exact (h.commit ht hev true).1
  have hlist : {x | x ∈ s'.node.listEvents listed roomId} = s'.node.roomLog roomId :=
    Set.ext fun e => mem_listEvents listed hparty.sound.log
  refine ⟨?_, ?_, ?_⟩
  · refine (mem_listEvents listed hparty.sound.log).2 ⟨hsent.room, ?_⟩
    rw [hsent.node]
    exact htaken.2
  · intro e he
    exact hparty.held (Or.inl ((mem_listEvents listed hparty.sound.log).1 he).2)
  · intro e he
    dsimp only
    rw [hlist]
    exact hparty.sound.log.roomLog_supplied ((mem_listEvents listed hparty.sound.log).1 he)

omit [DecidableEq ι] [Deserialize CreateRoomPayload] [Deserialize MembershipPayload] in
/-- It descends from all that its sender had of the room. -/
theorem carried_sent (ht : Traffic evs) {s s' : NodeSession} (h : DeviceNode.Party (genuine evs) s.node)
    {sk : Primitives.SigningKey} {call : SessionCall} {roomId : RoomId} {ev : SignedEvent}
    (hsent : NodeSession.Sent b64 sk s call roomId ev s'.node) (hev : ev ∈ evs)
    {f : Fanout ι} (hf : f.Formed evs) (hnew : f.newEvent = ev) {listed : IterOrder SignedEvent}
    (hlist : f.fullDag = s'.node.listEvents listed roomId) : s.node.roomLog roomId ⊆ f.carried := by
  have hkeep : s.node.accepted ⊆ s'.node.accepted := by
    rw [hsent.node]
    exact (h.commit ht hev true).2
  have hparty : DeviceNode.Party (genuine evs) s'.node := by
    rw [hsent.node]
    exact (h.commit ht hev true).1
  have hpool : s.node.roomLog roomId ⊆ {x | x ∈ f.fullDag} := by
    intro e he
    change e ∈ f.fullDag
    rw [hlist]
    exact (mem_listEvents listed hparty.sound.log).2 ⟨he.1, hkeep he.2⟩
  intro e he
  refine ⟨hpool he, Or.inr ?_⟩
  rcases h.sound.log.below_tips he with ⟨t, htip, hbelow⟩
  -- the first step up from the new event is to a tip
  have hfirst : Causal.ParentOf SignedEvent.id SignedEvent.parents {x | x ∈ f.fullDag} f.newEvent.id t := by
    refine ⟨f.newEvent, hf.new, rfl, ?_⟩
    rw [hnew, hsent.parents]
    exact htip
  rcases hbelow with rfl | hbelow
  · exact Relation.TransGen.single hfirst
  · refine Relation.TransGen.head hfirst ?_
    refine Relation.TransGen.mono ?_ _ _ hbelow
    rintro i p ⟨x, hx, hid, hp⟩
    exact ⟨x, hpool hx, hid, hp⟩

omit [DecidableEq ι] in
/-- A peer counts an event that it has taken. -/
theorem syncIngest_one (ht : Traffic evs) {s : NodeSession} (h : DeviceNode.Party (genuine evs) s.node)
    {ev : SignedEvent} (hev : ev ∈ evs) (hsome : (s.syncIngest [ev] ⟨0, [], []⟩).1.accepted ≠ 0) :
    ev ∈ (s.syncIngest [ev] ⟨0, [], []⟩).2.node.accepted := by
  have hcommit := (SessionCall.ingestRemote_commit s ev).1
  rw [NodeSession.syncIngest_node]
  unfold NodeSession.syncIngest at hsome
  rcases hrun : s.ingestRemote ev with ⟨res, s'⟩
  rw [hrun] at hcommit hsome
  rcases res with e | b
  · exact absurd rfl hsome
  · cases b with
    | false => exact absurd rfl hsome
    | true => exact (h.takes ht hev hcommit.symm (Or.inl rfl)).2

theorem step_refused {i : ι} {sk : Primitives.SigningKey} {roomId : RoomId} {text freshId : String} {ts : UInt64}
    {e : RequestError} {s : NodeSession} (hrun : (c.nodes i).sendMessage b64 sk roomId text freshId ts = (.error e, s))
    (o : SessionOrder) (listed : IterOrder SignedEvent) :
    step b64 book c (.send i sk roomId text freshId ts o listed) = c.setNode i s := by
  simp only [step, hrun]

theorem step_sent {i : ι} {sk : Primitives.SigningKey} {roomId : RoomId} {text freshId : String} {ts : UInt64}
    {ev : SignedEvent} {s : NodeSession} (hrun : (c.nodes i).sendMessage b64 sk roomId text freshId ts = (.ok ev, s))
    (o : SessionOrder) (listed : IterOrder SignedEvent) :
    step b64 book c (.send i sk roomId text freshId ts o listed) =
      (c.setNode i s).fanOut book o s ev (s.node.listEvents listed roomId) := by
  simp only [step, hrun]

/-- A message that is sent is fanned out to every peer at whose URL somebody answers. -/
theorem send_fanouts (book : AddressBook ι) {i : ι} {sk : Primitives.SigningKey} {roomId : RoomId}
    {text freshId : String} {ts : UInt64} {ev : SignedEvent}
    (hok : ((c.nodes i).sendMessage b64 sk roomId text freshId ts).1 = .ok ev)
    (o : SessionOrder) (listed : IterOrder SignedEvent) :
    ∃ fullDag, (step b64 book c (.send i sk roomId text freshId ts o listed)).fanouts = c.fanouts ++
      ((o.peers.run (c.nodes i).peers.values).filterMap book.rpcPeer).map fun peer =>
        ⟨peer, ev, fullDag, .sharing⟩ := by
  rcases (c.nodes i).sendMessage_spec b64 sk roomId text freshId ts with ⟨hpeers, _⟩
  rcases hrun : (c.nodes i).sendMessage b64 sk roomId text freshId ts with ⟨res, s⟩
  rw [hrun] at hok hpeers
  cases hok
  dsimp only at hpeers
  refine ⟨s.node.listEvents listed roomId, ?_⟩
  rw [step_sent hrun, ← hpeers]
  rfl

theorem Sound.send (ht : Traffic evs) (h : c.Sound evs) {i : ι} {sk : Primitives.SigningKey} {roomId : RoomId}
    {text freshId : String} {ts : UInt64} (o : SessionOrder) (listed : IterOrder SignedEvent)
    (hin : ∀ ev, SessionCall.Brings b64 sk (c.nodes i) (.sendMessage roomId text freshId ts) ev → ev ∈ evs) :
    Advances evs c (step b64 book c (.send i sk roomId text freshId ts o listed)) := by
  rcases (c.nodes i).sendMessage_spec b64 sk roomId text freshId ts with ⟨_, hspec⟩
  rcases hrun : (c.nodes i).sendMessage b64 sk roomId text freshId ts with ⟨res, s⟩
  rw [hrun] at hspec
  dsimp only at hspec
  rcases hspec with ⟨⟨e, rfl⟩, hsame⟩ | ⟨ev, hsent, hanswer⟩
  · rw [step_refused hrun]
    refine h.setNode ?_ ?_
    · rw [hsame]
      exact h.party i
    · rw [hsame]
  · have hev : ev ∈ evs := hin ev hsent.brings
    have hcommit := (h.party i).commit ht hev true
    have hset : Advances evs c (c.setNode i s) := by
      refine h.setNode ?_ ?_
      · rw [hsent.node]
        exact hcommit.1
      · rw [hsent.node]
        exact hcommit.2
    rcases hanswer with ⟨⟨b, hok⟩, rfl⟩ | ⟨_, ⟨e, rfl⟩⟩
    · have hformed : ∀ peer : ι, Fanout.Formed evs ⟨peer, ev, s.node.listEvents listed roomId, .sharing⟩ :=
        formed_sent ht (h.party i) hsent hev hok listed
      rw [step_sent hrun]
      exact hset.trans (hset.sound.fanOut o s hformed)
    · rw [step_refused hrun]
      exact hset

/-- A peer that ingests keeps what it has, and has what it answers that it took. -/
theorem Sound.ingest (ht : Traffic evs) (h : c.Sound evs) {k : Nat} {f : Fanout ι} (hk : c.fanouts[k]? = some f) :
    Advances evs c (c.ingest k f) := by
  have hformed := h.formed f (List.mem_of_getElem? hk)
  have hset : ∀ sent : List SignedEvent, (∀ e ∈ sent, e ∈ genuine evs) →
      Advances evs c (c.setNode f.peer ((c.nodes f.peer).syncIngest sent ⟨0, [], []⟩).2) := by
    intro sent hsent
    rcases (h.party f.peer).commitAll ht hsent with ⟨hoff, hparty⟩
    rw [← NodeSession.syncIngest_node sent (c.nodes f.peer) ⟨0, [], []⟩] at hoff hparty
    exact h.setNode hparty fun x hx => hoff.grew.keeps hx
  have hnode : ∀ s : NodeSession, ((c.setNode f.peer s).nodes f.peer) = s := fun s => Function.update_self _ _ _
  unfold Cluster.ingest
  split
  · -- the new event alone
    have hone := hset [f.newEvent] fun e he => by
      rw [List.mem_singleton.1 he]
      exact hformed.genuine _ hformed.new
    refine hone.trans (hone.sound.setPhase hk ?_)
    intro htook
    rw [hnode]
    refine hformed.carried_of_new ht ?_ ?_
    · have hparty := hone.sound.party f.peer
      rw [hnode] at hparty
      exact hparty
    · exact syncIngest_one ht (h.party f.peer) (hformed.genuine _ hformed.new).1 htook
  · have hall := hset f.fullDag hformed.genuine
    refine hall.trans (hall.sound.setPhase hk ?_)
    intro _
    rw [hnode, NodeSession.syncIngest_node]
    exact hformed.carried_of_full ht (h.party f.peer)
  · exact Advances.refl h

theorem Sound.step (ht : Traffic evs) (h : c.Sound evs) {a : ClusterStep ι} (hin : Within b64 evs c a) :
    Advances evs c (step b64 book c a) := by
  cases a with
  | call i call =>
      rcases call.party ht (h.party i) hin with ⟨hparty, hkeep⟩
      exact h.setNode hparty hkeep
  | keys i e2ee peerOlmKeys => exact h.setNode (h.party i) fun _ he => he
  | send i sk roomId text freshId ts o listed => exact h.send ht o listed hin
  | turn k t =>
      dsimp only [Cluster.step]
      split
      next f hk => exact h.setPhase hk fun htook => h.took f (List.mem_of_getElem? hk) htook.of_after
      · exact Advances.refl h
  | ingest k =>
      dsimp only [Cluster.step]
      split
      next f hk => exact h.ingest ht hk
      · exact Advances.refl h
  | push k =>
      dsimp only [Cluster.step]
      split
      next i ev hk =>
        have hev : ev ∈ genuine evs := h.pushed (i, ev) (List.mem_of_getElem? hk)
        have hcommit := (h.party i).commit ht hev.1 false
        rw [← SessionCall.ingestRemote_node (c.nodes i) ev] at hcommit
        have hset := h.setNode hcommit.1 hcommit.2
        exact hset.trans (hset.sound.unpush k)
      · exact Advances.refl h
  | drop k => exact h.unpush k

omit [Primitives] [Deserialize CreateRoomPayload] [Deserialize MembershipPayload] in
theorem peers_setNode {i : ι} {s : NodeSession} (h : s.peers = (c.nodes i).peers) (j : ι) :
    ((c.setNode i s).nodes j).peers = (c.nodes j).peers := by
  by_cases hj : j = i
  · subst hj
    simpa [setNode] using h
  · simp [setNode, hj]

/-! ## Every run -/

theorem Sound.run (ht : Traffic evs) {steps : List (ClusterStep ι)} : ∀ {c : Cluster ι}, c.Sound evs →
    Runs.Along (Cluster.step b64 book) (Within b64 evs) c steps →
      Advances evs c (Runs.run (Cluster.step b64 book) c steps) := by
  induction steps with
  | nil => exact fun h _ => Advances.refl h
  | cons a steps ih =>
      intro c h hin
      have hone : Advances evs c (Cluster.step b64 book c a) := h.step ht hin.1
      exact hone.trans (ih hone.sound hin.2)

omit [DecidableEq ι] [Deserialize CreateRoomPayload] [Deserialize MembershipPayload] in
theorem sound_start {nodes : ι → NodeSession} (hnodes : ∀ i, DeviceNode.Party (genuine evs) (nodes i).node) :
    (start nodes).Sound evs :=
  ⟨hnodes, (fun _ hf => by cases hf), (fun _ hf => by cases hf), fun _ hp => by cases hp⟩

/-- A fan-out keeps its place, its peer and what it posts. -/
theorem fanout_kept [Deserialize SignedEvent] [RoundTrips SignedEvent] (ht : Traffic evs) {nodes : ι → NodeSession}
    (hnodes : ∀ i, DeviceNode.Running evs (nodes i).node) {before later : List (ClusterStep ι)}
    (hin : Runs.Along (step b64 book) (Within b64 evs) (start nodes) (before ++ later)) {k : Nat} {f : Fanout ι}
    (hk : (after b64 book nodes before).fanouts[k]? = some f) :
    ∃ phase, (after b64 book nodes (before ++ later)).fanouts[k]? = some { f with phase := phase } := by
  rcases hin.append with ⟨hbefore, hlater⟩
  have hs : (after b64 book nodes before).Sound evs :=
    ((sound_start fun i => (hnodes i).party ht).run ht hbefore).sound
  rw [after, Runs.run_append]
  exact (hs.run ht hlater).fanouts k f hk

theorem after_append_singleton {nodes : ι → NodeSession} {before : List (ClusterStep ι)}
    {a : ClusterStep ι} : after b64 book nodes (before ++ [a]) = step b64 book (after b64 book nodes before) a :=
  Runs.run_append_singleton

/-- Whatever the nodes do, and whichever calls fail, are refused or lose their answer: when a fan-out has come to
its end with the peer's ingest, the peer has the message, and all that the sender had of the room when it sent. -/
theorem fanout_delivers [Deserialize SignedEvent] [RoundTrips SignedEvent] (ht : Traffic evs)
    {nodes : ι → NodeSession} (hnodes : ∀ i, DeviceNode.Running evs (nodes i).node) (steps : List (ClusterStep ι))
    (hin : Runs.Along (step b64 book) (Within b64 evs) (start nodes) steps)
    {before later : List (ClusterStep ι)} {i : ι} {sk : Primitives.SigningKey} {roomId : RoomId}
    {text freshId : String} {ts : UInt64} {o : SessionOrder} {listed : IterOrder SignedEvent}
    (hsteps : steps = before ++ .send i sk roomId text freshId ts o listed :: later) {ev : SignedEvent}
    (hok : (((after b64 book nodes before).nodes i).sendMessage b64 sk roomId text freshId ts).1 = .ok ev)
    {k : Nat} {f : Fanout ι} (hold : (after b64 book nodes before).fanouts.length ≤ k)
    (hnew : (after b64 book nodes (before ++ [.send i sk roomId text freshId ts o listed])).fanouts[k]? = some f)
    (hdone : (after b64 book nodes steps).fanouts[k]? = some { f with phase := .delivered }) :
    ev ∈ ((after b64 book nodes steps).nodes f.peer).node.accepted ∧
      ((after b64 book nodes before).nodes i).node.roomLog roomId ⊆
        ((after b64 book nodes steps).nodes f.peer).node.accepted := by
  subst hsteps
  rcases hin.append with ⟨hbefore, hlater⟩
  have hs : (after b64 book nodes before).Sound evs :=
    ((sound_start fun i => (hnodes i).party ht).run ht hbefore).sound
  have hend : (after b64 book nodes (before ++ .send i sk roomId text freshId ts o listed :: later)).Sound evs :=
    ((sound_start fun i => (hnodes i).party ht).run ht hin).sound
  rcases hrun : ((after b64 book nodes before).nodes i).sendMessage b64 sk roomId text freshId ts with ⟨res, s⟩
  rw [hrun] at hok
  subst hok
  rw [after_append_singleton, step_sent hrun] at hnew
  change ((after b64 book nodes before).fanouts ++ _)[k]? = some f at hnew
  rw [List.getElem?_append_right hold] at hnew
  rcases List.mem_map.1 (List.mem_of_getElem? hnew) with ⟨peer, _, rfl⟩
  have hcarried := hend.took _ (List.mem_of_getElem? hdone) trivial
  rcases ((after b64 book nodes before).nodes i).sendMessage_spec b64 sk roomId text freshId ts with ⟨_, hspec⟩
  rw [hrun] at hspec
  rcases hspec with ⟨⟨e, hno⟩, _⟩ | ⟨ev', hsent, ⟨⟨b, hok⟩, hev'⟩ | ⟨_, ⟨e, hno⟩⟩⟩
  · cases hno
  · cases hev'
    have hev : ev ∈ evs := hlater.1 ev hsent.brings
    have hformed := formed_sent ht (hs.party i) hsent hev hok listed peer
    exact ⟨hcarried ⟨hformed.new, Or.inl rfl⟩, (carried_sent ht (hs.party i) hsent hev hformed rfl rfl).trans hcarried⟩
  · cases hno

/-! ## Nodes that all fan out to each other -/

/-- Everything that the nodes hold and send each other. -/
def contents (c : Cluster ι) : Set SignedEvent :=
  {e | (∃ i, e ∈ (c.nodes i).node.held) ∨ (∃ f ∈ c.fanouts, e ∈ f.fullDag) ∨ ∃ p ∈ c.pushes, p.2 = e}

/-- The node has the event, or a fan-out of it to the node has begun. -/
def Reaches (c : Cluster ι) (e : SignedEvent) (i : ι) : Prop :=
  e ∈ (c.nodes i).node.accepted ∨ ∃ f ∈ c.fanouts, f.peer = i ∧ f.newEvent = e

/-- Nothing is anywhere that is not on its way to everybody. -/
structure Spread (book : AddressBook ι) (c : Cluster ι) : Prop where
  reaches : ∀ e ∈ c.contents, ∀ i, c.Reaches e i
  listed : ∀ j i, i ≠ j → ∃ ep ∈ (c.nodes j).peers.values, book.rpcPeer ep = some i

omit [DecidableEq ι] [Deserialize CreateRoomPayload] [Deserialize MembershipPayload] in
theorem Advances.reaches (h : Advances evs c c') {e : SignedEvent} {i : ι} (hr : c.Reaches e i) : c'.Reaches e i := by
  rcases hr with hacc | ⟨f, hf, hpeer, hnew⟩
  · exact Or.inl (h.keeps i hacc)
  · rcases List.getElem?_of_mem hf with ⟨k, hk⟩
    rcases h.fanouts k f hk with ⟨phase, hk'⟩
    exact Or.inr ⟨_, List.mem_of_getElem? hk', hpeer, hnew⟩

omit [Primitives] [Deserialize CreateRoomPayload] [Deserialize MembershipPayload] in
theorem contents_setNode {i : ι} {s : NodeSession} {more : Set SignedEvent}
    (hheld : s.node.held ⊆ c.contents ∪ more) : (c.setNode i s).contents ⊆ c.contents ∪ more := by
  rintro e (⟨j, hj⟩ | hother)
  · by_cases hji : j = i
    · subst hji
      exact hheld (by simpa [setNode] using hj)
    · exact Or.inl (Or.inl ⟨j, by simpa [setNode, hji] using hj⟩)
  · exact Or.inl (Or.inr hother)

omit [Primitives] [DecidableEq ι] [Deserialize CreateRoomPayload] [Deserialize MembershipPayload] in
theorem contents_setPhase {k : Nat} {phase : FanoutPhase} : (c.setPhase k phase).contents ⊆ c.contents := by
  rintro e (hheld | ⟨f, hf, he⟩ | hpush)
  · exact Or.inl hheld
  · rcases List.getElem?_of_mem hf with ⟨j, hj⟩
    rw [getElem?_setPhase] at hj
    rcases Option.map_eq_some_iff.1 hj with ⟨g, hg, rfl⟩
    refine Or.inr (Or.inl ⟨g, List.mem_of_getElem? hg, ?_⟩)
    split at he
    · exact he
    · exact he
  · exact Or.inr (Or.inr hpush)

omit [Primitives] [DecidableEq ι] [Deserialize CreateRoomPayload] [Deserialize MembershipPayload] in
theorem contents_unpush (k : Nat) : { c with pushes := c.pushes.eraseIdx k }.contents ⊆ c.contents := by
  rintro e (hheld | hfull | ⟨p, hp, rfl⟩)
  · exact Or.inl hheld
  · exact Or.inr (Or.inl hfull)
  · exact Or.inr (Or.inr ⟨p, List.mem_of_mem_eraseIdx hp, rfl⟩)

omit [Primitives] [DecidableEq ι] [Deserialize CreateRoomPayload] [Deserialize MembershipPayload] in
theorem contents_fanOut {o : SessionOrder} {s : NodeSession} {ev : SignedEvent} {fullDag : List SignedEvent}
    {all : Set SignedEvent} (hall : c.contents ⊆ all) (hev : ev ∈ all) (hfull : ∀ e ∈ fullDag, e ∈ all) :
    (c.fanOut book o s ev fullDag).contents ⊆ all := by
  rintro e (hheld | ⟨f, hf, he⟩ | ⟨p, hp, rfl⟩)
  · exact hall (Or.inl hheld)
  · rcases List.mem_append.1 hf with hold | hnew
    · exact hall (Or.inr (Or.inl ⟨f, hold, he⟩))
    · rcases List.mem_map.1 hnew with ⟨peer, _, rfl⟩
      exact hfull e he
  · rcases List.mem_append.1 hp with hold | hnew
    · exact hall (Or.inr (Or.inr ⟨p, hold, rfl⟩))
    · rcases List.mem_map.1 hnew with ⟨peer, _, rfl⟩
      exact hev

omit [DecidableEq ι] [Primitives] [Deserialize CreateRoomPayload] [Deserialize MembershipPayload] in
/-- The sender has the event, and a fan-out of it begins to everybody else. -/
theorem fanOut_reaches {o : SessionOrder} {s : NodeSession} {ev : SignedEvent} {fullDag : List SignedEvent} {i : ι}
    (hown : ev ∈ (c.nodes i).node.accepted) (hlisted : ∀ j, j ≠ i → ∃ ep ∈ s.peers.values, book.rpcPeer ep = some j)
    (j : ι) : (c.fanOut book o s ev fullDag).Reaches ev j := by
  by_cases hj : j = i
  · rw [hj]
    exact Or.inl hown
  · rcases hlisted j hj with ⟨ep, hep, hpeer⟩
    have hmem : j ∈ (o.peers.run s.peers.values).filterMap book.rpcPeer :=
      List.mem_filterMap.2 ⟨ep, o.peers.mem_run.2 hep, hpeer⟩
    exact Or.inr ⟨_, List.mem_append_right _ (List.mem_map.2 ⟨j, hmem, rfl⟩), rfl, rfl⟩

omit [Olm] [Deserialize CreateRoomPayload] [Deserialize MembershipPayload] in
/-- A commit of an event of the run succeeds, and the node holds nothing else besides. -/
theorem commit_held (ht : Traffic evs) {node : DeviceNode} (h : DeviceNode.Party (genuine evs) node) {ev : SignedEvent}
    (hev : ev ∈ genuine evs) (toOutbox : Bool) :
    (∃ b, (node.commit ev toOutbox).1 = .ok b) ∧ (node.commit ev toOutbox).2.held ⊆ node.held ∪ {ev} := by
  have hsub : node.held ∪ {ev} ⊆ genuine evs := Set.union_subset h.held (Set.singleton_subset_iff.2 hev)
  have hids : IdsIdentify (node.held ∪ {ev}) := fun x hx y hy => ht.ids x (hsub hx) y (hsub hy)
  rcases DeviceNode.commit_offered h.sound hev.2 h.reliable hids (ht.local.mono hsub).ready toOutbox with ⟨b, hb, hoff⟩
  exact ⟨⟨b, hb⟩, hoff.held_subset⟩

omit [DecidableEq ι] [Deserialize CreateRoomPayload] [Deserialize MembershipPayload] in
theorem Spread.of_contents (h : c.Spread book) (hadv : Advances evs c c')
    (hpeers : ∀ j, (c'.nodes j).peers = (c.nodes j).peers)
    (hsub : c'.contents ⊆ c.contents ∪ {e | ∀ i, c'.Reaches e i}) : c'.Spread book := by
  refine ⟨?_, ?_⟩
  · intro e he i
    rcases hsub he with hold | hnew
    · exact hadv.reaches (h.reaches e hold i)
    · exact hnew i
  · intro j i hij
    rw [hpeers]
    exact h.listed j i hij

theorem Spread.send (ht : Traffic evs) (hs : c.Sound evs) (h : c.Spread book) {i : ι} {sk : Primitives.SigningKey}
    {roomId : RoomId} {text freshId : String} {ts : UInt64} (o : SessionOrder) (listed : IterOrder SignedEvent)
    (hin : ∀ ev, SessionCall.Brings b64 sk (c.nodes i) (.sendMessage roomId text freshId ts) ev → ev ∈ evs) :
    (step b64 book c (.send i sk roomId text freshId ts o listed)).Spread book := by
  have hadv : Advances evs c (step b64 book c (.send i sk roomId text freshId ts o listed)) := hs.send ht o listed hin
  rcases (c.nodes i).sendMessage_spec b64 sk roomId text freshId ts with ⟨hpeers, hspec⟩
  rcases hrun : (c.nodes i).sendMessage b64 sk roomId text freshId ts with ⟨res, s⟩
  rw [hrun] at hspec hpeers
  dsimp only at hspec hpeers
  have hheld : (c.nodes i).node.held ⊆ c.contents := fun e he => Or.inl ⟨i, he⟩
  -- a message that is not sent has not been committed
  have hrefused : ∀ e, res = .error e → s.node.held ⊆ c.contents →
      (step b64 book c (.send i sk roomId text freshId ts o listed)).Spread book := by
    rintro e rfl hsub
    rw [step_refused hrun] at hadv ⊢
    exact h.of_contents hadv (peers_setNode hpeers) (contents_setNode fun e he => Or.inl (hsub he))
  rcases hspec with ⟨⟨e, hres⟩, hsame⟩ | ⟨ev, hsent, hanswer⟩
  · refine hrefused e hres ?_
    rw [hsame]
    exact hheld
  · have hev : ev ∈ evs := hin ev hsent.brings
    rcases hanswer with ⟨⟨b, hok⟩, rfl⟩ | ⟨⟨e, hno⟩, ⟨e', hres⟩⟩
    · have hparty := hs.party i
      have htaken := hparty.takes ht hev hok (Or.inr ?_)
      · have hcommit := commit_held ht hparty htaken.1 true
        have hnew : s.node.held ⊆ c.contents ∪ {ev} := by
          rw [hsent.node]
          exact fun e he => (hcommit.2 he).imp_left fun hold => hheld hold
        rw [step_sent hrun] at hadv ⊢
        refine h.of_contents hadv (peers_setNode hpeers) ?_
        have hnode : (c.setNode i s).nodes i = s := Function.update_self _ _ _
        have hown : ev ∈ ((c.setNode i s).nodes i).node.accepted := by
          rw [hnode, hsent.node]
          exact htaken.2
        have hreaches : ev ∈ {e | ∀ j, ((c.setNode i s).fanOut book o s ev
            (s.node.listEvents listed roomId)).Reaches e j} := by
          refine fanOut_reaches hown ?_
          intro j hj
          rw [hpeers]
          exact h.listed i j hj
        have hsub : c.contents ∪ {ev} ⊆ c.contents ∪ {e | ∀ j, ((c.setNode i s).fanOut book o s ev
            (s.node.listEvents listed roomId)).Reaches e j} :=
          Set.union_subset_union_right _ (Set.singleton_subset_iff.2 hreaches)
        refine contents_fanOut ((contents_setNode hnew).trans hsub) (Or.inr hreaches) ?_
        intro e he
        have hlog : s.node.LogCoherent := by
          rw [hsent.node]
          exact (hparty.commit ht hev true).1.sound.log
        exact hsub (hnew (Or.inl ((mem_listEvents listed hlog).1 he).2))
      · intro p hp
        rw [hsent.parents] at hp
        rcases (hparty.sound.log.mem_tips.1 hp).1 with ⟨e, he, _⟩
        exact HashMap.mem_of_lookup he
    · refine hrefused e' hres ?_
      rw [hsent.node]
      by_cases hv : Verified ev
      · rcases (commit_held ht (hs.party i) ⟨hev, hv⟩ true).1 with ⟨b, hb⟩
        rw [DeviceNode.commitLocal, hb] at hno
        cases hno
      · rcases DeviceNode.commit_unverified hv true with ⟨e'', heq⟩
        rw [DeviceNode.commitLocal, heq]
        exact hheld

/-- Messages are sent, and otherwise only what they start happens. -/
def Chat : ClusterStep ι → Prop
  | .call _ _ => False
  | _ => True

/-- Whichever of its two posts the peer ingests. -/
theorem ingest_cases (c : Cluster ι) (k : Nat) (f : Fanout ι) : c.ingest k f = c ∨
    ∃ sent phase, (∀ e ∈ sent, e = f.newEvent ∨ e ∈ f.fullDag) ∧ c.ingest k f =
      (c.setNode f.peer ((c.nodes f.peer).syncIngest sent ⟨0, [], []⟩).2).setPhase k phase := by
  unfold Cluster.ingest
  split
  · exact Or.inr ⟨[f.newEvent], _, fun e he => Or.inl (List.mem_singleton.1 he), rfl⟩
  · exact Or.inr ⟨f.fullDag, _, fun e he => Or.inr he, rfl⟩
  · exact Or.inl rfl

theorem Spread.ingest (ht : Traffic evs) (hs : c.Sound evs) (h : c.Spread book) {k : Nat} {f : Fanout ι}
    (hk : c.fanouts[k]? = some f) : (c.ingest k f).Spread book := by
  have hadv := hs.ingest ht hk
  have hformed := hs.formed f (List.mem_of_getElem? hk)
  rcases ingest_cases c k f with hsame | ⟨sent, phase, hsent, heq⟩
  · rw [hsame]
    exact h
  · rw [heq] at hadv ⊢
    have hfull : ∀ e ∈ sent, e ∈ f.fullDag := by
      intro e he
      rcases hsent e he with rfl | hmem
      · exact hformed.new
      · exact hmem
    refine h.of_contents hadv (peers_setNode (NodeSession.syncIngest_peers sent _ _)) ?_
    refine contents_setPhase.trans (contents_setNode ?_)
    rw [NodeSession.syncIngest_node]
    rcases (hs.party f.peer).commitAll ht fun e he => hformed.genuine e (hfull e he) with ⟨hoff, _⟩
    intro e he
    rcases hoff.held_subset he with hold | hnew
    · exact Or.inl (Or.inl ⟨f.peer, hold⟩)
    · exact Or.inl (Or.inr (Or.inl ⟨f, List.mem_of_getElem? hk, hfull e hnew⟩))

theorem Spread.step (ht : Traffic evs) (hs : c.Sound evs) (h : c.Spread book) {a : ClusterStep ι}
    (hin : Within b64 evs c a) (hchat : Chat a) : (Cluster.step b64 book c a).Spread book := by
  have hadv : Advances evs c (Cluster.step b64 book c a) := hs.step ht hin
  have hkept : ∀ {c' : Cluster ι} {more : Set SignedEvent}, c'.contents ⊆ c.contents →
      c'.contents ⊆ c.contents ∪ more :=
    fun hsub _ he => Or.inl (hsub he)
  cases a with
  | call i call => exact hchat.elim
  | keys i e2ee peerOlmKeys =>
      exact h.of_contents hadv (peers_setNode rfl) (contents_setNode fun e he => Or.inl (Or.inl ⟨i, he⟩))
  | send i sk roomId text freshId ts o listed => exact h.send ht hs o listed hin
  | turn k t =>
      cases hk : c.fanouts[k]? with
      | none =>
          simp only [Cluster.step, hk]
          exact h
      | some f =>
          have hstep : Cluster.step b64 book c (.turn k t) = c.setPhase k (f.phase.after t) := by
            simp only [Cluster.step, hk]
          rw [hstep] at hadv ⊢
          exact h.of_contents hadv (fun _ => rfl) (hkept contents_setPhase)
  | ingest k =>
      dsimp only [Cluster.step]
      split
      next f hk => exact h.ingest ht hs hk
      · exact h
  | push k =>
      cases hk : c.pushes[k]? with
      | none =>
          simp only [Cluster.step, hk]
          exact h
      | some push =>
          rcases push with ⟨i, ev⟩
          have hmem : (i, ev) ∈ c.pushes := List.mem_of_getElem? hk
          have hstep : Cluster.step b64 book c (.push k) =
              { c.setNode i ((c.nodes i).ingestRemote ev).2 with pushes := c.pushes.eraseIdx k } := by
            simp only [Cluster.step, hk]
          rw [hstep] at hadv ⊢
          refine h.of_contents hadv (peers_setNode (NodeSession.ingestRemote_peers _ _)) (hkept ?_)
          have hset : (c.setNode i ((c.nodes i).ingestRemote ev).2).contents ⊆ c.contents ∪ ∅ := by
            refine contents_setNode ?_
            rw [SessionCall.ingestRemote_node]
            intro e he
            rcases (commit_held ht (hs.party i) (hs.pushed _ hmem) false).2 he with hold | rfl
            · exact Or.inl (Or.inl ⟨i, hold⟩)
            · exact Or.inl (Or.inr (Or.inr ⟨_, hmem, rfl⟩))
          rw [Set.union_empty] at hset
          exact (contents_unpush k).trans hset
  | drop k => exact h.of_contents hadv (fun _ => rfl) (hkept (contents_unpush k))

theorem Spread.run (ht : Traffic evs) {steps : List (ClusterStep ι)} : ∀ {c : Cluster ι}, c.Sound evs → c.Spread book →
    Runs.Along (Cluster.step b64 book) (Within b64 evs) c steps → (∀ a ∈ steps, Chat a) →
      (Runs.run (Cluster.step b64 book) c steps).Spread book := by
  induction steps with
  | nil => exact fun _ h _ _ => h
  | cons a steps ih =>
      intro c hs h hin hchat
      have hone : Advances evs c (Cluster.step b64 book c a) := hs.step ht hin.1
      have hnext : (Cluster.step b64 book c a).Spread book := h.step ht hs hin.1 (hchat a List.mem_cons_self)
      exact ih hone.sound hnext hin.2 fun b hb => hchat b (List.mem_cons_of_mem _ hb)

omit [Olm] [Primitives] [Deserialize CreateRoomPayload] [Deserialize MembershipPayload] in
/-- The tips are read off the log. -/
theorem tips_of_accepted {node node' : DeviceNode} (h : node.LogCoherent) (h' : node'.LogCoherent)
    (hsame : node.accepted = node'.accepted) {room : RoomId} {t : EventId} (ht : t ∈ node.tips room) :
    t ∈ node'.tips room := by
  have hlookup : ∀ {k e}, node.events.lookup k = some e ↔ node'.events.lookup k = some e := by
    intro k e
    constructor
    · intro hk
      have hid : e.id = k := h.keyed hk
      subst hid
      have hmem : e ∈ node.accepted := hk
      rw [hsame] at hmem
      exact hmem
    · intro hk
      have hid : e.id = k := h'.keyed hk
      subst hid
      have hmem : e ∈ node'.accepted := hk
      rw [← hsame] at hmem
      exact hmem
  rcases h.mem_tips.1 ht with ⟨⟨e, he, hroom⟩, hnone⟩
  exact h'.mem_tips.2 ⟨⟨e, hlookup.1 he, hroom⟩, fun hc hr => hnone (hlookup.2 hc) hr⟩

/-- When nodes that list each other have sent whatever messages, each to the others while theirs were under way, and
every fan-out has come to its end with an ingest: all have one log, with the same tips in every room, and nothing
waits in an inbox. -/
theorem fanout_agrees [Deserialize SignedEvent] [RoundTrips SignedEvent] (ht : Traffic evs)
    {nodes : ι → NodeSession} (hnodes : ∀ i, DeviceNode.Running evs (nodes i).node)
    (hlisted : ∀ j i, i ≠ j → ∃ ep ∈ (nodes j).peers.values, book.rpcPeer ep = some i)
    (hsame : ∀ i j, (nodes i).node.accepted = (nodes j).node.accepted) (hnone : ∀ i, (nodes i).node.inbox = [])
    (steps : List (ClusterStep ι)) (hin : Runs.Along (step b64 book) (Within b64 evs) (start nodes) steps)
    (hchat : ∀ a ∈ steps, Chat a) (hthrough : ∀ f ∈ (after b64 book nodes steps).fanouts, f.phase = .delivered) :
    ∀ i j, ((after b64 book nodes steps).nodes i).node.accepted =
        ((after b64 book nodes steps).nodes j).node.accepted ∧
      ((after b64 book nodes steps).nodes i).node.inbox = [] ∧
      ∀ room t, t ∈ ((after b64 book nodes steps).nodes i).node.tips room ↔
        t ∈ ((after b64 book nodes steps).nodes j).node.tips room := by
  have hstart : (start nodes).Sound evs := sound_start fun i => (hnodes i).party ht
  have hspread : (start nodes).Spread book := by
    refine ⟨?_, hlisted⟩
    rintro e (⟨j, hacc | hparked⟩ | ⟨f, hf, _⟩ | ⟨p, hp, _⟩) i
    · exact Or.inl (hsame j i ▸ hacc)
    · change e ∈ (nodes j).node.inbox at hparked
      rw [hnone] at hparked
      cases hparked
    · cases hf
    · cases hp
  have hs : (after b64 book nodes steps).Sound evs := (hstart.run ht hin).sound
  have hend : (after b64 book nodes steps).Spread book := hspread.run ht hstart hin hchat
  -- what has reached a node by a fan-out, its log has
  have hall : ∀ e ∈ (after b64 book nodes steps).contents, ∀ i,
      e ∈ ((after b64 book nodes steps).nodes i).node.accepted := by
    intro e he i
    rcases hend.reaches e he i with hacc | ⟨f, hf, rfl, rfl⟩
    · exact hacc
    · have htook : f.phase.Took := by
        rw [hthrough f hf]
        trivial
      exact hs.took f hf htook ⟨(hs.formed f hf).new, Or.inl rfl⟩
  have hsub : ∀ i j, ((after b64 book nodes steps).nodes i).node.accepted ⊆
      ((after b64 book nodes steps).nodes j).node.accepted :=
    fun i j e he => hall e (Or.inl ⟨i, Or.inl he⟩) j
  intro i j
  have heq := (hsub i j).antisymm (hsub j i)
  have hlog := fun i => (hs.party i).sound.log
  refine ⟨heq, ?_, fun room t => ⟨tips_of_accepted (hlog i) (hlog j) heq, tips_of_accepted (hlog j) (hlog i) heq.symm⟩⟩
  rw [List.eq_nil_iff_forall_not_mem]
  intro e he
  have hacc := hall e (Or.inl ⟨i, Or.inr he⟩) i
  exact ((hs.party i).settled e he).1 (HashMap.mem_of_lookup hacc)

end Cluster

end Cluster

/-! ## Two nodes -/

section Example

open Checksum DeviceNode

attribute [local instance] Checksum.primitives syncBook syncReader syncCreates syncMemberships

def chatBook : AddressBook (Fin 2) :=
  { rpc := fun url => if url = "http://duck" then some 0 else if url = "http://drake" then some 1 else none
    p2p := fun _ => none }

/-- Room 1, which device 1 has joined. -/
def chatRooms : RoomRegistry :=
  { rooms := (∅ : HashMap RoomId RoomState).insert (room 1)
      { roomId := room 1
        name := "pond"
        creator := device 1
        members := (∅ : HashMap DeviceId MemberState).insert (device 1) .joined
        dag := RoomDag.new (room 1)
        tips := [] } }

/-- Device `n` knows the room, and the other node by its URL. -/
def chatNode (n : Nat) (url : String) : NodeSession :=
  { relaySession [] n with
    rooms := chatRooms
    peers := (∅ : HashMap String PeerEndpoint).insert "other"
      { name := "other", p2p := none, rpc := some url, deviceId := none } }

def chatNodes : Fin 2 → NodeSession
  | 0 => chatNode 1 "http://drake/"
  | 1 => chatNode 2 "http://duck"

def chatSteps : List (ClusterStep (Fin 2)) :=
  [.send 0 (key 1) (room 1) "quack" "s" 2 .stored .stored, .turn 0 .shared, .ingest 0, .turn 0 .received]

theorem chat_phases :
    (Cluster.after noText chatBook chatNodes chatSteps).fanouts.map Fanout.phase = [.delivered] := by
  decide +kernel

/-- Otherwise there would be no fan-out. -/
theorem chat_sent : ∃ ev, ((chatNodes 0).sendMessage noText (key 1) (room 1) "quack" "s" 2).1 = .ok ev := by
  rcases hrun : (chatNodes 0).sendMessage noText (key 1) (room 1) "quack" "s" 2 with ⟨res, s⟩
  cases res with
  | ok ev => exact ⟨ev, rfl⟩
  | error e =>
      have hstart : (Cluster.start chatNodes).nodes = chatNodes := rfl
      rw [← hstart] at hrun
      have hnone : (Cluster.after noText chatBook chatNodes chatSteps).fanouts = [] := by
        unfold Cluster.after chatSteps
        rw [Runs.run, List.foldl_cons, Cluster.step_refused hrun]
        rfl
      have hphases := chat_phases
      rw [hnone] at hphases
      cases hphases

theorem chatNode_node (n : Nat) (url : String) : (chatNode n url).node = DeviceNode.new (device n) := by
  dsimp only [chatNode, relaySession, NodeSession.new]

theorem chat_running (evs : Set SignedEvent) (i : Fin 2) : Running evs (chatNodes i).node := by
  have hnode : ∀ n url, Running evs (chatNode n url).node := by
    intro n url
    rw [chatNode_node]
    exact Running.inMemory (ReachedBy.new (device n))
  match i with
  | 0 => exact hnode 1 _
  | 1 => exact hnode 2 _

/-- Only one message is sent. -/
theorem chat_within {ev : SignedEvent}
    (hok : ((chatNodes 0).sendMessage noText (key 1) (room 1) "quack" "s" 2).1 = .ok ev) :
    Traffic {e | e ∈ [ev]} ∧ Runs.Along (Cluster.step noText chatBook) (Cluster.Within noText {e | e ∈ [ev]})
      (Cluster.start chatNodes) chatSteps := by
  have hstart : (Cluster.start chatNodes).nodes = chatNodes := rfl
  have hbrings : ∀ ev', SessionCall.Brings noText (key 1) (chatNodes 0) (.sendMessage (room 1) "quack" "s" 2) ev' →
      ev' = ev := fun ev' h => NodeSession.sendMessage_brings noText (key 1) hok h
  rcases (chatNodes 0).sendMessage_spec noText (key 1) (room 1) "quack" "s" 2 with ⟨_, hspec⟩
  rw [hok] at hspec
  rcases hspec with ⟨⟨e, hno⟩, _⟩ | ⟨_, hsent, ⟨_, hev⟩ | ⟨_, ⟨e, hno⟩⟩⟩
  · cases hno
  · cases hev
    rcases hsent.brings with ⟨_, ct, _, hsign⟩
    have hroom : ∀ e ∈ [ev], e.roomId = room 1 ∧ Verified e := by
      intro e he
      rw [List.mem_singleton.1 he]
      exact ⟨hsent.room, signEvent_verified hsign⟩
    refine ⟨traffic_of_nodup hroom (List.nodup_singleton _), ?_, trivial, trivial, trivial, trivial⟩
    intro ev' hbrings'
    rw [hstart] at hbrings'
    exact List.mem_singleton.2 (hbrings ev' hbrings')
  · cases hno

theorem chat_peers : (SessionOrder.stored.peers.run (chatNodes 0).peers.values).filterMap chatBook.rpcPeer = [1] := by
  decide +kernel

/-- The send starts one fan-out, to the second node. -/
theorem chat_fanout {ev : SignedEvent}
    (hok : (((Cluster.after noText chatBook chatNodes []).nodes 0).sendMessage noText (key 1) (room 1) "quack"
      "s" 2).1 = .ok ev) :
    ∃ fullDag, (Cluster.after noText chatBook chatNodes
      ([] ++ [.send 0 (key 1) (room 1) "quack" "s" 2 .stored .stored])).fanouts = [⟨1, ev, fullDag, .sharing⟩] := by
  have hstart : (Cluster.after noText chatBook chatNodes []).nodes = chatNodes := rfl
  have hnone : (Cluster.after noText chatBook chatNodes []).fanouts = [] := rfl
  rcases Cluster.send_fanouts chatBook hok .stored .stored with ⟨fullDag, hfanouts⟩
  rw [hnone, hstart, chat_peers] at hfanouts
  refine ⟨fullDag, ?_⟩
  rw [Cluster.after_append_singleton, hfanouts]
  rfl

/-- The second has what the first said. -/
theorem fanout_delivers_quack : ∃ ev, ((chatNodes 0).sendMessage noText (key 1) (room 1) "quack" "s" 2).1 = .ok ev ∧
    ev ∈ ((Cluster.after noText chatBook chatNodes chatSteps).nodes 1).node.accepted := by
  have hrt : RoundTrips SignedEvent := roundTrips_ofWritten SignedEvent.toJson_injective
  have hstart : (Cluster.after noText chatBook chatNodes []).nodes = chatNodes := rfl
  have hsteps : chatSteps = [] ++ ClusterStep.send 0 (key 1) (room 1) "quack" "s" 2 .stored .stored ::
      [.turn 0 .shared, .ingest 0, .turn 0 .received] := rfl
  rcases chat_sent with ⟨ev, hok⟩
  rcases chat_within hok with ⟨ht, hin⟩
  refine ⟨ev, hok, ?_⟩
  rw [← hstart] at hok
  rcases chat_fanout hok with ⟨fullDag, hfanouts⟩
  have hold : (Cluster.after noText chatBook chatNodes []).fanouts.length ≤ 0 := Nat.le_refl 0
  have hnew : (Cluster.after noText chatBook chatNodes
      ([] ++ [.send 0 (key 1) (room 1) "quack" "s" 2 .stored .stored])).fanouts[0]? =
        some ⟨1, ev, fullDag, .sharing⟩ := by
    rw [hfanouts]
    rfl
  have hdone : (Cluster.after noText chatBook chatNodes chatSteps).fanouts[0]? =
      some ⟨1, ev, fullDag, .delivered⟩ := by
    have hsplit : chatSteps = ([] ++ [ClusterStep.send 0 (key 1) (room 1) "quack" "s" 2 .stored .stored]) ++
        [.turn 0 .shared, .ingest 0, .turn 0 .received] := rfl
    have hphase := congrArg (fun phases => phases[0]?) chat_phases
    rw [hsplit] at hin hphase ⊢
    rcases Cluster.fanout_kept ht (chat_running _) hin hnew with ⟨phase, hkept⟩
    dsimp only at hphase hkept
    rw [List.getElem?_map, hkept] at hphase
    cases hphase
    exact hkept
  have hboth := Cluster.fanout_delivers ht (chat_running _) chatSteps hin hsteps hok hold hnew hdone
  dsimp only at hboth
  exact hboth.1

theorem chat_listed : ∀ j i : Fin 2, i ≠ j → ∃ ep ∈ (chatNodes j).peers.values, chatBook.rpcPeer ep = some i := by
  decide +kernel

theorem fanout_agrees_quack : ((Cluster.after noText chatBook chatNodes chatSteps).nodes 0).node.accepted =
    ((Cluster.after noText chatBook chatNodes chatSteps).nodes 1).node.accepted := by
  have hrt : RoundTrips SignedEvent := roundTrips_ofWritten SignedEvent.toJson_injective
  rcases chat_sent with ⟨ev, hok⟩
  rcases chat_within hok with ⟨ht, hin⟩
  have hnew : ∀ i, (chatNodes i).node.events = ∅ ∧ (chatNodes i).node.inbox = [] := by
    intro i
    have hnode : ∃ n, (chatNodes i).node = DeviceNode.new (device n) := by
      match i with
      | 0 => exact ⟨1, chatNode_node 1 _⟩
      | 1 => exact ⟨2, chatNode_node 2 _⟩
    rcases hnode with ⟨n, hnode⟩
    rw [hnode]
    exact ⟨rfl, rfl⟩
  refine (Cluster.fanout_agrees ht (chat_running _) chat_listed ?_ ?_ chatSteps hin ?_ ?_ 0 1).1
  · intro i j
    unfold DeviceNode.accepted
    rw [(hnew i).1, (hnew j).1]
  · exact fun i => (hnew i).2
  · intro a ha
    simp only [chatSteps, List.mem_cons, List.not_mem_nil, or_false] at ha
    rcases ha with rfl | rfl | rfl | rfl
    all_goals trivial
  · intro f hf
    have hphase : f.phase ∈ (Cluster.after noText chatBook chatNodes chatSteps).fanouts.map Fanout.phase :=
      List.mem_map_of_mem hf
    rw [chat_phases] at hphase
    exact List.mem_singleton.1 hphase

end Example

end Node
end Thunderducks
