import Thunderducks.Node.Rebuild
import Thunderducks.Node.Reopen
import Thunderducks.Node.TwoStores

/-!
# Restart — a session loaded from its data dir (`load_from_data_dir` in `td-node/src/rpc.rs`)

The log survives a restart in the database; the room registry does not, and is rebuilt by applying the
listed events of each room to an empty one.  The listing orders events by parent count and time, which is
not the order in which the registry took them: `restart_rebuilds` says when the registry comes back all
the same.
-/

namespace Thunderducks
namespace Node

open Lib Event Crypto RoomRegistry

/-! ## Loading -/

def DeviceNode.listEvents (o : IterOrder SignedEvent) (node : DeviceNode) (room : RoomId) :
    List SignedEvent :=
  ((o.run node.events.values).filter fun e => e.roomId = room).insertionSort DeviceNode.causalLe

/-- The orders in which the rows, the rooms and the log are listed. -/
structure LoadOrder where
  rows : IterOrder EventRow
  rooms : IterOrder RoomId
  events : IterOrder SignedEvent

def LoadOrder.stored : LoadOrder :=
  { rows := .stored
    rooms := .stored
    events := .stored }

section Load

variable [Primitives] [Deserialize CreateRoomPayload] [Deserialize MembershipPayload]

/-- Rebuild room registry from durable DAG (create/membership events). -/
def rebuildRooms (o : LoadOrder) (node : DeviceNode) : RoomRegistry :=
  (o.rooms.run node.roomIds).foldl (fun rooms rid => rooms.applyAll (node.listEvents o.events rid))
    RoomRegistry.new

variable [Olm]

omit [Deserialize CreateRoomPayload] [Deserialize MembershipPayload] in
def NodeSession.fromParts (bundle : DeviceBundle) (node : DeviceNode) (e2ee : E2eeDevice)
    (rooms : RoomRegistry) : NodeSession :=
  { deviceId := bundle.deviceId
    node := node
    rooms := rooms
    peers := ∅
    link := { trusted := (∅ : HashMap DeviceId DeviceBundle).insert bundle.deviceId bundle }
    e2ee := e2ee
    peerOlmKeys := ∅
    relayUri := none
    relayKey := deriveRelayKey defaultRelayKeyMaterial
    relayLastFetchMs := none
    relayLastError := none
    relayLastFetched := 0 }

/-- The session behind the identity `bundle`, the database `store` and the ratchets `e2ee` of a data
dir. -/
def NodeSession.loadFromDataDir [Deserialize SignedEvent] (o : LoadOrder) (bundle : DeviceBundle)
    (store : SqliteStore) (e2ee : E2eeDevice) : Except SyncError NodeSession :=
  match DeviceNode.withSqlite o.rows bundle.deviceId store with
  | (.error e, _) => .error e
  | (.ok (), node) => .ok (fromParts bundle node e2ee (rebuildRooms o node))

end Load

/-! ## The listing of a room -/

section Listing

variable [Primitives]

/-- The accepted events of a room. -/
def DeviceNode.roomLog (node : DeviceNode) (r : RoomId) : Set SignedEvent :=
  {e | e.roomId = r ∧ node.events.lookup e.id = some e}

omit [Primitives] in
theorem mem_listEvents (o : IterOrder SignedEvent) {node : DeviceNode} (hlog : node.LogCoherent)
    {r : RoomId} {e : SignedEvent} : e ∈ node.listEvents o r ↔ e ∈ node.roomLog r := by
  unfold DeviceNode.listEvents DeviceNode.roomLog
  rw [List.mem_insertionSort, List.mem_filter, IterOrder.mem_run, hlog.mem_values, decide_eq_true_eq]
  exact and_comm

theorem lists_listEvents (o : IterOrder SignedEvent) {node : DeviceNode} (hlog : node.LogCoherent)
    (hv : ∀ {i e}, node.events.lookup i = some e → Verified e) (r : RoomId) :
    Lists r (node.roomLog r) (node.listEvents o r) := by
  refine ⟨?_, ?_, listedBefore_respected (pairwise_causalLe _), ?_, ?_, ?_⟩
  · intro e
    exact mem_listEvents o hlog
  · have hvals : node.events.values.Nodup := HashMap.values_nodup hlog.keyed
    exact (List.perm_insertionSort _ _).nodup_iff.2 (((o.perm _).nodup_iff.2 hvals).filter _)
  · rintro e ⟨_, hl⟩
    exact hv hl
  · rintro e ⟨hr, _⟩
    exact hr
  · rintro e ⟨_, hl⟩ e' ⟨_, hl'⟩ hid
    rw [hid, hl'] at hl
    exact (Option.some.inj hl).symm

end Listing

/-! ## Rooms do not meet -/

section Rooms

variable [Primitives] [Deserialize CreateRoomPayload] [Deserialize MembershipPayload]
variable {reg : RoomRegistry} {r : RoomId}

/-- An event changes no room but its own. -/
theorem get_applyEvent_ne (h : reg.WellFormed) {ev : SignedEvent} (hne : ev.roomId ≠ r) :
    (reg.applyEvent ev).2.get r = reg.get r := by
  rcases applyEvent_effect h ev with ⟨payload, _, _, heq⟩ | ⟨room, _, _, heq⟩ | ⟨_, _, _, hsame⟩
  · rw [heq, get_setRoom, if_neg hne.symm]
  · rw [heq, get_setRoom, if_neg hne.symm]
  · exact hsame r

theorem get_applyAll_ne (evs : List SignedEvent) : ∀ {reg : RoomRegistry}, Recorded reg →
    (∀ e ∈ evs, e.roomId ≠ r) → (reg.applyAll evs).get r = reg.get r := by
  induction evs with
  | nil =>
      intro reg _ _
      rfl
  | cons ev evs ih =>
      intro reg h hne
      have hstep := get_applyEvent_ne h.wellFormed (hne ev (by simp))
      have hrest := ih (h.applyEvent ev) (fun e he => hne e (List.mem_cons_of_mem _ he))
      exact hrest.trans hstep

/-- Only the listing of a room matters to it. -/
theorem get_foldl_listings (list : RoomId → List SignedEvent) (hlist : ∀ r, ∀ e ∈ list r, e.roomId = r)
    (rids : List RoomId) : ∀ {reg : RoomRegistry}, Recorded reg → rids.Nodup → reg.get r = none →
    (r ∉ rids → (rids.foldl (fun rooms rid => rooms.applyAll (list rid)) reg).get r = none) ∧
    (r ∈ rids → ∃ reg', Recorded reg' ∧ reg'.get r = none ∧
      (rids.foldl (fun rooms rid => rooms.applyAll (list rid)) reg).get r =
        (reg'.applyAll (list r)).get r) := by
  -- once the listing of `r` is applied, the rest leaves `r` alone
  have hafter : ∀ (rids : List RoomId) {reg : RoomRegistry}, Recorded reg → r ∉ rids →
      (rids.foldl (fun rooms rid => rooms.applyAll (list rid)) reg).get r = reg.get r := by
    intro rids
    induction rids with
    | nil =>
        intro reg _ _
        rfl
    | cons rid rids ih =>
        intro reg h hno
        have hne : rid ≠ r := fun heq => hno (by simp [heq])
        have hstep : (reg.applyAll (list rid)).get r = reg.get r :=
          get_applyAll_ne (list rid) h (fun e he => hlist rid e he ▸ hne)
        exact (ih (h.applyAll (list rid)) (fun hin => hno (List.mem_cons_of_mem _ hin))).trans hstep
  induction rids with
  | nil =>
      intro reg _ _ hnone
      exact ⟨fun _ => hnone, fun hin => absurd hin (by simp)⟩
  | cons rid rids ih =>
      intro reg h hnd hnone
      rcases List.nodup_cons.1 hnd with ⟨hnew, hnd⟩
      refine ⟨fun hno => (hafter (rid :: rids) h hno).trans hnone, ?_⟩
      intro hin
      by_cases heq : rid = r
      · subst heq
        exact ⟨reg, h, hnone, hafter rids (h.applyAll (list rid)) hnew⟩
      · have hstep : (reg.applyAll (list rid)).get r = none :=
          (get_applyAll_ne (list rid) h (fun e he => hlist rid e he ▸ heq)).trans hnone
        rcases List.mem_cons.1 hin with hr | hin
        · exact absurd hr.symm heq
        · exact (ih (h.applyAll (list rid)) hnd hstep).2 hin

/-- Whatever holds of the empty registry and is kept by every listed event holds of the rebuilt one. -/
theorem rebuildRooms_invariant {P : RoomRegistry → Prop} (o : LoadOrder) (node : DeviceNode)
    (hnew : P RoomRegistry.new)
    (hstep : ∀ reg rid, P reg → ∀ e ∈ node.listEvents o.events rid, P (reg.applyEvent e).2) :
    P (rebuildRooms o node) := by
  refine List.foldlRecOn _ _ hnew ?_
  intro reg hreg rid _
  refine List.foldlRecOn _ _ hreg ?_
  intro reg' hreg' e he
  exact hstep reg' rid hreg' e he

theorem recorded_rebuildRooms (o : LoadOrder) (node : DeviceNode) : Recorded (rebuildRooms o node) :=
  rebuildRooms_invariant o node recorded_new fun _ _ h e _ => h.applyEvent e

/-- A rebuilt registry has nothing that the log lacks. -/
theorem inRegistry_rebuildRooms (o : LoadOrder) {node : DeviceNode} (hlog : node.LogCoherent)
    (hv : ∀ {i e}, node.events.lookup i = some e → Verified e) {room : RoomId} {e : SignedEvent}
    (hin : InRegistry (rebuildRooms o node) room e) : node.events.lookup e.id = some e := by
  let P : RoomRegistry → Prop := fun reg =>
    Recorded reg ∧ ∀ room e, InRegistry reg room e → node.events.lookup e.id = some e
  have hempty : P RoomRegistry.new := by
    refine ⟨recorded_new, ?_⟩
    rintro room e ⟨st, hst, _⟩
    cases hst
  have hall : P (rebuildRooms o node) := by
    refine rebuildRooms_invariant o node hempty ?_
    rintro reg rid ⟨hrec, hreg⟩ ev hev
    refine ⟨hrec.applyEvent ev, ?_⟩
    intro room e hin
    rcases applyEvent_inRegistry hrec.wellFormed ev with ⟨_, hiff⟩ | ⟨_, hiff⟩
    · rcases (hiff room e).1 hin with hold | ⟨_, rfl⟩
      · exact hreg room e hold
      · exact (((lists_listEvents o.events hlog hv rid).mem e).1 hev).2
    · exact hreg room e ((hiff room e).1 hin)
  exact hall.2 room e hin

end Rooms

/-! ## Sessions and their restarts -/

section Session

variable [Olm] [Primitives] [Deserialize CreateRoomPayload] [Deserialize MembershipPayload]

/-- What holds of a durable session at all times. -/
structure Alive (s : NodeSession) : Prop where
  consistent : Consistent s
  recorded : Recorded s.rooms
  backed : s.node.Backed

/-- Wherever the order of two events of a room can matter, the listing has them in the order in which
the registry took them. -/
def NodeSession.RebuildSafe (s : NodeSession) : Prop :=
  ∀ r hist, RoomHistory r hist (s.rooms.get r) → Rebuildable (s.node.roomLog r) hist

theorem Alive.step {b64 : Encoded MegolmMessage → String} {sk : Primitives.SigningKey} {s : NodeSession}
    (h : Alive s) (call : SessionCall) (hclean : call.Clean b64 sk s) : Alive (call.step b64 sk s) := by
  rcases @SessionCall.step_stores _ _ _ _ b64 sk s call with ⟨hrooms, hnode⟩
  refine ⟨SessionCall.step_consistent h.consistent call hclean, ?_, ?_⟩
  · rcases hrooms with heq | ⟨ev, heq⟩
    · rw [heq]
      exact h.recorded
    · rw [heq]
      exact h.recorded.applyEvent ev
  · rcases hnode with heq | ⟨ev, toOutbox, _, heq⟩
    · rw [heq]
      exact h.backed
    · rw [heq]
      exact h.backed.commit h.consistent.node ev toOutbox

variable [Deserialize SignedEvent] [RoundTrips SignedEvent]

/-- A session whose database is backed can be loaded, and the log is what it was. -/
theorem loads {node : DeviceNode} (h : node.Backed) {store : SqliteStore}
    (hst : node.durable = some store) (o : LoadOrder) (bundle : DeviceBundle) (e2ee : E2eeDevice) :
    ∃ s' : NodeSession, NodeSession.loadFromDataDir o bundle store e2ee = .ok s' ∧ Alive s' ∧
      s'.rooms = rebuildRooms o s'.node ∧ s'.node.Occupied ∧
      ∀ i, s'.node.events.lookup i = node.events.lookup i := by
  rcases h.reopens hst o.rows bundle.deviceId with ⟨node', hrun, hev, _, _, hsound, hmirrored⟩
  refine ⟨NodeSession.fromParts bundle node' e2ee (rebuildRooms o node'), ?_, ⟨⟨?_, hsound, ?_⟩, ?_, ?_⟩,
    rfl, hmirrored.occupied, hev⟩
  · simp [NodeSession.loadFromDataDir, hrun]
  · exact (recorded_rebuildRooms o node').wellFormed
  · intro room e hin
    exact inRegistry_rebuildRooms o hsound.log hmirrored.verified hin
  · exact recorded_rebuildRooms o node'
  · exact hmirrored.toBacked

/-- The durable sessions: started on an empty data dir, then calls, restarts, and whatever leaves the
rooms and the log alone. -/
inductive Lived (b64 : Encoded MegolmMessage → String) (sk : Primitives.SigningKey) :
    NodeSession → Prop
  | started {s : NodeSession} (o : LoadOrder) (bundle : DeviceBundle) (e2ee : E2eeDevice) :
      NodeSession.loadFromDataDir o bundle SqliteStore.empty e2ee = .ok s → Lived b64 sk s
  | call {s : NodeSession} (call : SessionCall) : Lived b64 sk s → call.Clean b64 sk s →
      Lived b64 sk (call.step b64 sk s)
  | elsewhere {s s' : NodeSession} (outbox : List SignedEvent) : Lived b64 sk s →
      s'.rooms = s.rooms → s'.node = { s.node with outbox := outbox } → Lived b64 sk s'
  | restarted {s s' : NodeSession} {store : SqliteStore} (o : LoadOrder) (bundle : DeviceBundle)
      (e2ee : E2eeDevice) : Lived b64 sk s → s.node.durable = some store →
      NodeSession.loadFromDataDir o bundle store e2ee = .ok s' → Lived b64 sk s'

omit [RoundTrips SignedEvent] in
/-- An empty data dir gives an empty session. -/
theorem loadFromDataDir_empty (o : LoadOrder) (bundle : DeviceBundle) (e2ee : E2eeDevice) :
    NodeSession.loadFromDataDir o bundle SqliteStore.empty e2ee = .ok (NodeSession.fromParts bundle
      { DeviceNode.new bundle.deviceId with durable := some SqliteStore.empty } e2ee RoomRegistry.new) := by
  have hrows : o.rows.run [] = [] := List.eq_nil_of_length_eq_zero (o.rows.perm []).length_eq
  have hrooms : o.rooms.run [] = [] := List.eq_nil_of_length_eq_zero (o.rooms.perm []).length_eq
  simp [NodeSession.loadFromDataDir, DeviceNode.withSqlite, DeviceNode.listAll, DeviceNode.decodeRows,
    DeviceNode.replayEvents, SqliteStore.empty, hrows, rebuildRooms, DeviceNode.roomIds, DeviceNode.new, hrooms]

section Lived

variable {b64 : Encoded MegolmMessage → String} {sk : Primitives.SigningKey} {s : NodeSession}

theorem Lived.alive (h : Lived b64 sk s) : Alive s := by
  induction h with
  | started o bundle e2ee hload =>
      have hempty := (DeviceNode.steady_empty o.rows bundle.deviceId).mirrored.toBacked
      rw [DeviceNode.withSqlite_empty] at hempty
      rcases loads hempty rfl o bundle e2ee with ⟨s', hload', halive, _⟩
      rw [hload] at hload'
      cases hload'
      exact halive
  | call call _ hclean ih => exact ih.step call hclean
  -- the outbox is none of what the restart reads
  | @elsewhere s s' outbox _ hrooms hnode ih =>
      have hsound : s'.node.Sound := by
        rw [hnode]
        exact ⟨ih.consistent.node.log.congr rfl (fun _ => rfl), ih.consistent.node.verified,
          ih.consistent.node.nodup⟩
      refine ⟨⟨?_, hsound, ?_⟩, ?_, ?_⟩
      · rw [hrooms]
        exact ih.consistent.registry
      · rw [hrooms, hnode]
        exact ih.consistent.logged
      · rw [hrooms]
        exact ih.recorded
      · rw [hnode]
        exact ih.backed.congr rfl (fun _ => rfl) rfl
  | restarted o bundle e2ee _ hst hload ih =>
      rcases loads ih.backed hst o bundle e2ee with ⟨s', hload', halive, _⟩
      rw [hload] at hload'
      cases hload'
      exact halive

omit [Deserialize SignedEvent] [RoundTrips SignedEvent] in
/-- The log has the whole history of a room. -/
theorem Alive.logged (h : Alive s) {r : RoomId} {hist : List SignedEvent}
    (hh : RoomHistory r hist (s.rooms.get r)) : ∀ e ∈ hist, e ∈ s.node.roomLog r := by
  intro e he
  rcases hh.lookup e he with ⟨room, hroom, hl⟩
  exact ⟨(h.recorded.wellFormed.dag hroom).inRoom hl, h.consistent.logged ⟨room, hroom, e.id, hl⟩⟩

/-- A restart of a session whose listings are in order loads, with the same rooms, and for each the same
creator, name and member states. -/
theorem restart_rebuilds (h : Lived b64 sk s) (hsafe : s.RebuildSafe) :
    ∃ store, s.node.durable = some store ∧
      ∀ (o : LoadOrder) (bundle : DeviceBundle) (e2ee : E2eeDevice),
        ∃ s' : NodeSession, NodeSession.loadFromDataDir o bundle store e2ee = .ok s' ∧
          ∀ r, Option.Rel SameMembers (s.rooms.get r) (s'.rooms.get r) := by
  have halive := h.alive
  rcases halive.backed.stored with ⟨store, hst, _⟩
  refine ⟨store, hst, ?_⟩
  intro o bundle e2ee
  rcases loads halive.backed hst o bundle e2ee with ⟨s', hload, halive', hrooms, hocc, hev⟩
  refine ⟨s', hload, ?_⟩
  intro r
  rcases halive.recorded.history r with ⟨hist, hhist⟩
  have hlogged := halive.logged hhist
  have hlog : s'.node.roomLog r = s.node.roomLog r := by
    unfold DeviceNode.roomLog
    simp only [hev]
  have hlists : ∀ rid, Lists rid (s'.node.roomLog rid) (s'.node.listEvents o.events rid) :=
    lists_listEvents o.events halive'.consistent.node.log halive'.backed.verified
  have hlist : ∀ rid, ∀ e ∈ s'.node.listEvents o.events rid, e.roomId = rid := by
    intro rid e he
    exact (((hlists rid).mem e).1 he).1
  have hnd : (o.rooms.run s'.node.roomIds).Nodup := (o.rooms.perm _).nodup_iff.2 (AList.keys_nodup _)
  rcases @get_foldl_listings _ _ _ r (s'.node.listEvents o.events) hlist (o.rooms.run s'.node.roomIds)
    RoomRegistry.new recorded_new hnd rfl with ⟨hout, hin⟩
  rw [hrooms]
  by_cases hr : r ∈ o.rooms.run s'.node.roomIds
  · rcases hin hr with ⟨reg, hreg, hnone, heq⟩
    unfold rebuildRooms
    rw [heq]
    refine applyAll_rebuilds hhist (hsafe r hist hhist) hlogged ?_ hreg.wellFormed hnone
    rw [← hlog]
    exact hlists r
  · -- a room without a DAG has no event, so it was never made
    have hnil : hist = [] := by
      refine List.eq_nil_iff_forall_not_mem.2 fun e he => hr ?_
      rcases hlogged e he with ⟨hrid, hl⟩
      rw [IterOrder.mem_run]
      refine AList.mem_keys.1 ((halive'.consistent.node.log.mem_dags hocc).2 ⟨e.id, e, ?_, hrid⟩)
      rw [hev]
      exact hl
    unfold rebuildRooms
    rw [hout hr]
    rcases hhist.chronicle with ⟨_, hnone⟩ | ⟨room, c, payload, _, hch⟩
    · rw [hnone]
      exact Option.Rel.none
    · have hhead := hch.head
      rw [hnil] at hhead
      cases hhead

end Lived

end Session

/-! ## An invitation with a fast clock -/

section Example

open Checksum DeviceNode

attribute [local instance] Checksum.primitives blankBook createReader membershipReader

/-- The durable session of device 2 after `evs` came in. -/
def durableReceiver (evs : List SignedEvent) : NodeSession :=
  evs.foldl (fun s ev => (s.ingestRemote ev).2)
    (NodeSession.fromParts ⟨device 2, key 2⟩
      { DeviceNode.new (device 2) with durable := some SqliteStore.empty }
      (E2eeDevice.new (device 2) ⟨"curve"⟩) RoomRegistry.new)

theorem durableReceiver_append (evs : List SignedEvent) (ev : SignedEvent) :
    SessionCall.step noText (key 2) (durableReceiver evs) (.ingestRemote ev) =
      durableReceiver (evs ++ [ev]) := by
  simp [durableReceiver, SessionCall.step]

section Runs

variable [Deserialize SignedEvent]

theorem lived_durableReceiver : Lived noText (key 2) (durableReceiver []) :=
  Lived.started LoadOrder.stored ⟨device 2, key 2⟩ (E2eeDevice.new (device 2) ⟨"curve"⟩)
    (loadFromDataDir_empty _ _ _)

theorem Lived.receive {evs evs' : List SignedEvent} {ev : SignedEvent}
    (h : Lived noText (key 2) (durableReceiver evs)) (hnew : ev.id ∉ (durableReceiver evs).node.events)
    (hevs : evs' = evs ++ [ev]) : Lived noText (key 2) (durableReceiver evs') := by
  rw [hevs, ← durableReceiver_append]
  refine h.call (.ingestRemote ev) ?_
  rintro e rfl e' hl
  exact absurd (HashMap.mem_of_lookup hl) hnew

end Runs

/-- The creator's clock is ahead of the guest's. -/
def inviteLate : SignedEvent :=
  event 1 (room 1) [createPond.id] .membership (toVec invitation) 5

def joinEarly : SignedEvent :=
  event 2 (room 1) [inviteLate.id] .membership (toVec intrusion) 2

section Counterexample

@[reducible] def lateReader : Deserialize SignedEvent :=
  Deserialize.ofTable [createPond, inviteLate, joinEarly]

attribute [local instance] lateReader

/-- Device 2 has joined, and after the restart it is only invited. -/
theorem restart_forgets_join :
    ¬ ∀ (s s' : NodeSession) (store : SqliteStore) (o : LoadOrder) (bundle : DeviceBundle) (e2ee : E2eeDevice),
      Lived noText (key 2) s → s.node.durable = some store →
      NodeSession.loadFromDataDir o bundle store e2ee = .ok s' →
      ∀ r, Option.Rel SameMembers (s.rooms.get r) (s'.rooms.get r) := by
  intro h
  have hrun : inviteLate.id ∉ (durableReceiver [createPond]).node.events ∧
      joinEarly.id ∉ (durableReceiver [createPond, inviteLate]).node.events ∧
      ((durableReceiver [createPond, inviteLate, joinEarly]).rooms.get (room 1)).map
        (fun st => st.memberState (device 2)) = some (some .joined) ∧
      (((durableReceiver [createPond, inviteLate, joinEarly]).node.durable.map fun store =>
        (NodeSession.loadFromDataDir LoadOrder.stored ⟨device 2, key 2⟩ store
          (E2eeDevice.new (device 2) ⟨"curve"⟩)).toOption.map fun s' =>
          (s'.rooms.get (room 1)).map fun st => st.memberState (device 2)) =
        some (some (some (some .invited)))) := by
    decide +kernel
  rcases hrun with ⟨hlate, hearly, hlive, hback⟩
  have hlived : Lived noText (key 2) (durableReceiver [createPond, inviteLate, joinEarly]) := by
    have hpond : Lived noText (key 2) (durableReceiver [createPond]) :=
      lived_durableReceiver.receive (AList.notMem_empty _) rfl
    have hinvited : Lived noText (key 2) (durableReceiver [createPond, inviteLate]) :=
      hpond.receive hlate rfl
    exact hinvited.receive hearly rfl
  generalize durableReceiver [createPond, inviteLate, joinEarly] = s at hlived hlive hback
  cases hst : s.node.durable with
  | none =>
      rw [hst] at hback
      cases hback
  | some store =>
      rw [hst, Option.map_some] at hback
      cases hload : NodeSession.loadFromDataDir LoadOrder.stored ⟨device 2, key 2⟩ store
        (E2eeDevice.new (device 2) ⟨"curve"⟩) with
      | error e =>
          rw [hload] at hback
          cases hback
      | ok s' =>
          rw [hload] at hback
          have hback' : (s'.rooms.get (room 1)).map (fun st => st.memberState (device 2)) =
              some (some .invited) := Option.some.inj (Option.some.inj hback)
          have hsame := h s s' store _ _ _ hlived hst hload (room 1)
          rcases Option.map_eq_some_iff.1 hlive with ⟨st, hst', hjoined⟩
          rcases Option.map_eq_some_iff.1 hback' with ⟨st', hst'', hinvited⟩
          rw [hst', hst''] at hsame
          cases hsame with
          | some hsame =>
              have hmember := hsame.members (device 2)
              rw [hjoined, hinvited] at hmember
              cases hmember

end Counterexample

section Witness

@[reducible] noncomputable def writtenLog : Deserialize SignedEvent :=
  Deserialize.ofWritten SignedEvent

attribute [local instance] writtenLog

/-- A session that has seen a room made and an invitation to it can restart. -/
theorem rebuildSafe_invited {s : NodeSession} (hwf : s.rooms.WellFormed)
    (hknown : (s.rooms.get (room 1)).isSome)
    (hrooms : ∀ r st, s.rooms.get r = some st → ∀ e, e ∈ st.dag.events.values ↔ e ∈ [invite, createPond])
    (hlog : ∀ e, e ∈ s.node.events.values ↔ e ∈ [invite, createPond]) : s.RebuildSafe := by
  have hinviteKind : invite.kind = .membership := rfl
  have hpondKind : createPond.kind = .createRoom := rfl
  have hlt : ListedBefore createPond invite := Or.inl (by decide)
  intro r hist hh
  have hlogged : ∀ e ∈ s.node.roomLog r, r = room 1 ∧ (e = invite ∨ e = createPond) := by
    rintro e ⟨hr, hl⟩
    have he : e = invite ∨ e = createPond := by
      simpa using (hlog e).1 (HashMap.mem_values.2 ⟨e.id, hl⟩)
    refine ⟨?_, he⟩
    rw [← hr]
    rcases he with rfl | rfl
    · rfl
    · rfl
  have hmem : ∀ e ∈ hist, e = invite ∨ e = createPond := by
    intro e he
    rcases hh.lookup e he with ⟨st, hst, hl⟩
    simpa using (hrooms r st hst e).1 (HashMap.mem_values.2 ⟨e.id, hl⟩)
  rcases hh.chronicle with ⟨rfl, hnone⟩ | ⟨st, c, payload, hst, hch⟩
  · -- only room 1 has events, and it is known
    have hempty : ∀ e, e ∉ s.node.roomLog r := by
      intro e he
      rw [(hlogged e he).1] at hnone
      rw [hnone] at hknown
      cases hknown
    exact ⟨fun e he => absurd he (hempty e), fun e he => absurd he (hempty e), by simp, List.Pairwise.nil⟩
  have hc : c = createPond := by
    rcases hmem c (List.mem_of_mem_head? hch.head) with rfl | rfl
    · have hkind := hch.kind
      rw [hinviteKind] at hkind
      cases hkind
    · rfl
  subst hc
  have hinvited : invite ∈ hist := by
    rcases HashMap.mem_values.1 ((hrooms r st hst invite).2 (by simp)) with ⟨i, hl⟩
    have hid : invite.id = i := (hwf.dag hst).keyed hl
    subst hid
    rcases (hch.events invite.id).1 (HashMap.mem_of_lookup hl) with ⟨e, he, hid⟩
    rcases hh.lookup e he with ⟨st', hst', hl'⟩
    rw [hst] at hst'
    cases hst'
    rw [hid, hl] at hl'
    cases hl'
    exact he
  refine ⟨?_, ?_, ?_, ?_⟩
  · intro e he hk
    rcases (hlogged e he).2 with rfl | rfl
    · exact Or.inl hinvited
    · rw [hpondKind] at hk
      cases hk
  · intro e he hk _ _
    rcases (hlogged e he).2 with rfl | rfl
    · rw [hinviteKind] at hk
      cases hk
    · exact ⟨_, hch.head, Or.inl rfl⟩
  · intro c hhead e he hne _
    rw [hch.head] at hhead
    cases hhead
    rcases hmem e he with rfl | rfl
    · exact hlt
    · exact absurd rfl hne
  · have hnodup : hist.Nodup := List.Nodup.of_map _ hch.ids
    refine List.Pairwise.imp_of_mem ?_ hnodup
    intro x y hx hy hne _ _ hrel
    rcases hmem x hx with rfl | rfl <;> rcases hmem y hy with rfl | rfl
    · exact absurd rfl hne
    · -- nothing makes an invitation come before the making of the room
      rcases hrel with hp | ⟨d, ⟨_, ht | hs⟩ | ⟨hs, _⟩⟩
      · cases hp
      · have hkind := targets_kind ht
        rw [hpondKind] at hkind
        cases hkind
      · exact absurd hpondKind hs.1
      · exact absurd hinviteKind hs.2.1
    · exact hlt
    · exact absurd rfl hne

theorem restart_rebuilds_invite :
    ∃ store, (durableReceiver [createPond, invite]).node.durable = some store ∧
      ∀ (o : LoadOrder) (bundle : DeviceBundle) (e2ee : E2eeDevice),
        ∃ s' : NodeSession, NodeSession.loadFromDataDir o bundle store e2ee = .ok s' ∧
          ∀ r, Option.Rel SameMembers ((durableReceiver [createPond, invite]).rooms.get r)
            (s'.rooms.get r) := by
  have hrt : RoundTrips SignedEvent := roundTrips_ofWritten SignedEvent.toJson_injective
  have hrun : invite.id ∉ (durableReceiver [createPond]).node.events ∧
      ((durableReceiver [createPond, invite]).rooms.get (room 1)).isSome ∧
      (durableReceiver [createPond, invite]).rooms.rooms.entries.map
        (fun entry => (entry.1, entry.2.dag.events.values)) = [(room 1, [invite, createPond])] ∧
      (durableReceiver [createPond, invite]).node.events.values = [invite, createPond] := by
    decide +kernel
  rcases hrun with ⟨hnew, hknown, hrooms, hlog⟩
  have hpond : Lived noText (key 2) (durableReceiver [createPond]) :=
    lived_durableReceiver.receive (AList.notMem_empty _) rfl
  have hlived : Lived noText (key 2) (durableReceiver [createPond, invite]) := hpond.receive hnew rfl
  generalize durableReceiver [createPond, invite] = s at hlived hknown hrooms hlog
  refine restart_rebuilds hlived (rebuildSafe_invited hlived.alive.consistent.registry hknown ?_ ?_)
  · intro r st hst e
    have hentry : (r, st.dag.events.values) ∈ s.rooms.rooms.entries.map
        (fun entry => (entry.1, entry.2.dag.events.values)) :=
      List.mem_map.2 ⟨⟨r, st⟩, AList.mem_lookup_iff.1 hst, rfl⟩
    rw [hrooms, List.mem_singleton] at hentry
    rw [(Prod.mk.inj hentry).2]
  · intro e
    rw [hlog]

end Witness

end Example

end Node
end Thunderducks
