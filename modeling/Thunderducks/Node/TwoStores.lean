import Thunderducks.Event.Applied
import Thunderducks.Node.Handlers
import Thunderducks.Node.Writes

/-!
# TwoStores — the room registry and the node's log

A session keeps the history of its rooms twice: in the DAGs of the registry and in the log of the node.
`ingest_remote` shows an event to the registry once, when it arrives; an event that was parked then is
taken into the log later, by the drain, and the registry does not hear of it.  `storesAgree_run` says
which runs keep the `CreateRoom` and `Membership` events of both stores the same.
-/

namespace Thunderducks
namespace Node

open Lib Event Crypto RoomRegistry

/-- The kinds that `ingest_remote` passes on to the registry. -/
def IsRoomEvent (ev : SignedEvent) : Prop :=
  ev.kind = .createRoom ∨ ev.kind = .membership

/-! ## What a call does to the log -/

namespace DeviceNode

/-- Taking `ev` lets the parked event `x` follow it into the log. -/
def Released (node : DeviceNode) (ev x : SignedEvent) : Prop :=
  x ∈ node.inbox ∧ x.id ∉ (node.take ev).events ∧ Supplied (node.take ev).logIds node.parked x.id

/-- The log after a call that takes `ev`: what it had, `ev`, and events that `ev` released. -/
structure Advanced (node : DeviceNode) (ev : SignedEvent) (node' : DeviceNode) : Prop where
  keeps : ∀ {i e}, node.events.lookup i = some e → node'.events.lookup i = some e
  takes : node'.events.lookup ev.id = some ev
  fresh : ∀ {i e}, node'.events.lookup i = some e →
    node.events.lookup i = some e ∨ e = ev ∨ node.Released ev e

section Log

variable [Primitives] {node node' : DeviceNode} {ev : SignedEvent}

omit [Primitives] in
theorem advanced_of_grew {node₁ : DeviceNode} (hnew : ev.id ∉ node.events) (htook : Took node ev node₁)
    (hg : Grew node₁.parked node₁ node') : node.Advanced ev node' := by
  have hev₁ : ∀ i, node₁.events.lookup i = (node.take ev).events.lookup i := by
    intro i
    rw [htook.events]
  refine ⟨?_, ?_, ?_⟩
  · intro i e hl
    refine hg.keeps ?_
    have hne : i ≠ ev.id := by
      rintro rfl
      exact hnew (HashMap.mem_of_lookup hl)
    rw [hev₁, lookup_take, if_neg hne]
    exact hl
  · refine hg.keeps ?_
    rw [hev₁, lookup_take, if_pos rfl]
  · intro i e hl
    rcases hg.fresh hl with hold | ⟨hno, hin⟩
    · rw [hev₁, lookup_take] at hold
      split at hold
      · cases hold
        exact Or.inr (Or.inl rfl)
      · exact Or.inl hold
    · -- it was released by the drain
      have hid : e.id = i := hg.coherent.keyed hl
      subst hid
      refine Or.inr (Or.inr ⟨?_, ?_, ?_⟩)
      · have hin' : e ∈ node₁.inbox := hin
        rwa [htook.inbox] at hin'
      · rwa [← htook.events]
      · have hsup := hg.supplied e.id (HashMap.mem_of_lookup hl)
        have hbase : node₁.logIds = (node.take ev).logIds := by
          unfold logIds
          rw [htook.events]
        have hpool : node₁.parked = node.parked := by
          unfold parked
          rw [htook.inbox]
        rwa [hbase, hpool] at hsup

/-- A call leaves the log as it was, or takes its event. -/
theorem Outcome.log {res : Except SyncError Bool} (hs : node.Sound) (hv : Verified ev)
    (ho : Outcome node ev res node') :
    (¬ node.Takes ev ∧ node'.events = node.events) ∨ (node.Takes ev ∧ node.Advanced ev node') := by
  cases ho with
  | known hmem => exact Or.inl ⟨fun ht => ht.2.1 hmem, rfl⟩
  | waits hnew hwait =>
      refine Or.inl ⟨?_, ?_⟩
      · intro ht
        rw [parentsOk_iff.2 ht.2.2.1] at hwait
        cases hwait
      · rcases park_frame node ev with ⟨inbox, heq, _⟩
        rw [heq]
  | refused hnew hp hroom hunt => exact Or.inl ⟨fun ht => hroom ht.2.2.2, hunt.events⟩
  | unwritten hnew hp hroom _ htook =>
      have hc := (Grew.took hs.log hnew hp hroom (Set.mem_singleton ev) htook).coherent
      exact Or.inr ⟨⟨hv, hnew, hp, hroom⟩, advanced_of_grew hnew htook (Grew.refl hc)⟩
  | drained hnew hp hroom htook hdr =>
      exact Or.inr ⟨⟨hv, hnew, hp, hroom⟩, advanced_of_grew hnew htook hdr.grew⟩
  | broken hnew hp hroom htook hbrk =>
      exact Or.inr ⟨⟨hv, hnew, hp, hroom⟩, advanced_of_grew hnew htook hbrk.grew⟩

theorem commit_log (hs : node.Sound) (ev : SignedEvent) (toOutbox : Bool) :
    (¬ node.Takes ev ∧ (node.commit ev toOutbox).2.events = node.events) ∨
      (node.Takes ev ∧ node.Advanced ev (node.commit ev toOutbox).2) := by
  by_cases hv : Verified ev
  · exact (commit_outcome hs hv toOutbox).log hs hv
  · rcases commit_unverified hv toOutbox with ⟨e, heq⟩
    rw [heq]
    exact Or.inl ⟨fun ht => hv ht.1, rfl⟩

end Log

end DeviceNode

/-! ## What an event does to the registry -/

section Registry

variable [Primitives] [Deserialize CreateRoomPayload] [Deserialize MembershipPayload]

omit [Primitives] [Deserialize CreateRoomPayload] [Deserialize MembershipPayload] in
/-- The event is in the registry's DAG of the room. -/
def InRegistry (reg : RoomRegistry) (room : RoomId) (e : SignedEvent) : Prop :=
  ∃ st, reg.get room = some st ∧ ∃ i, st.dag.events.lookup i = some e

/-- The event makes its room or enters the DAG of it. -/
def RegistryTakes (reg : RoomRegistry) (ev : SignedEvent) : Prop :=
  (∃ payload, RoomRegistry.Founds reg ev payload) ∨ ∃ st, RoomRegistry.Attaches reg ev st

omit [Primitives] [Deserialize CreateRoomPayload] [Deserialize MembershipPayload] in
/-- The registry has what the event builds on: its room, or for a root `CreateRoom` nothing, and all its
parents. -/
def RegistryReady (reg : RoomRegistry) (ev : SignedEvent) : Prop :=
  match reg.get ev.roomId with
  | none => ev.kind = .createRoom ∧ ev.parents = []
  | some st => ∀ p ∈ ev.parents, p ∈ st.dag.events

variable {reg : RoomRegistry} {ev : SignedEvent}

/-- The registry takes the event, or its DAGs stay as they were. -/
theorem applyEvent_inRegistry (h : reg.WellFormed) (ev : SignedEvent) :
    (RegistryTakes reg ev ∧ ∀ room e, InRegistry (reg.applyEvent ev).2 room e ↔
      InRegistry reg room e ∨ (room = ev.roomId ∧ e = ev)) ∨
    (¬ RegistryTakes reg ev ∧ ∀ room e, InRegistry (reg.applyEvent ev).2 room e ↔
      InRegistry reg room e) := by
  -- the room of the event gets the DAG `dag` with the event in it
  have hset : ∀ {st : RoomState} {dag : RoomDag}, st.dag = dag.inserted ev → ev.id ∉ dag.events →
      (∀ e, (∃ i, dag.events.lookup i = some e) ↔ InRegistry reg ev.roomId e) →
      ∀ room e, InRegistry (reg.setRoom ev.roomId st) room e ↔
        InRegistry reg room e ∨ (room = ev.roomId ∧ e = ev) := by
    intro st dag hdag hnew hold room e
    by_cases hroom : room = ev.roomId
    · subst hroom
      rw [← hold]
      unfold InRegistry
      simp only [RoomRegistry.get_setRoom, if_true, Option.some.injEq, exists_eq_left', hdag,
        RoomDag.events_inserted, HashMap.lookup_insert_eq, true_and]
      constructor
      · rintro ⟨i, hl⟩
        split at hl
        · cases hl
          exact Or.inr rfl
        · exact Or.inl ⟨i, hl⟩
      · rintro (⟨i, hl⟩ | rfl)
        · refine ⟨i, ?_⟩
          rw [if_neg]
          · exact hl
          · rintro rfl
            exact hnew (HashMap.mem_of_lookup hl)
        · exact ⟨e.id, by simp⟩
    · unfold InRegistry
      simp [RoomRegistry.get_setRoom, hroom]
  rcases RoomRegistry.applyEvent_effect h ev with ⟨payload, hf, _, heq⟩ | ⟨st, ha, _, heq⟩ |
    ⟨hnf, hna, _, hsame⟩
  · refine Or.inl ⟨Or.inl ⟨payload, hf⟩, ?_⟩
    rw [heq]
    refine @hset _ (RoomDag.new ev.roomId) rfl (AList.notMem_empty _) ?_
    intro e
    unfold InRegistry
    rw [hf.unknown]
    simp [RoomDag.new]
  · refine Or.inl ⟨Or.inr ⟨st, ha⟩, ?_⟩
    rw [heq]
    refine hset (RoomRegistry.attach_dag st ev) ha.admitted.2.1 ?_
    intro e
    unfold InRegistry
    rw [ha.known]
    simp
  · refine Or.inr ⟨?_, ?_⟩
    · rintro (⟨payload, hf⟩ | ⟨st, ha⟩)
      · exact hnf payload hf
      · exact hna st ha
    · intro room e
      unfold InRegistry
      rw [hsame]

/-- An event that the registry has is not taken again. -/
theorem RegistryTakes.new (h : RegistryTakes reg ev) (hwf : reg.WellFormed) :
    ¬ InRegistry reg ev.roomId ev := by
  rintro ⟨st, hst, i, hl⟩
  rcases h with ⟨payload, hf⟩ | ⟨st', ha⟩
  · rw [hf.unknown] at hst
    cases hst
  · rw [ha.known] at hst
    cases hst
    have hid : ev.id = i := (hwf.dag ha.known).keyed hl
    subst hid
    exact ha.admitted.2.1 (HashMap.mem_of_lookup hl)

/-- A readable room event that is new to a registry that is ready for it is taken. -/
theorem RegistryReady.takes (h : RegistryReady reg ev) (hwf : reg.WellFormed) (hv : Verified ev)
    (hk : IsRoomEvent ev) (hr : Readable ev)
    (hnew : ∀ st, reg.get ev.roomId = some st → ev.id ∉ st.dag.events) : RegistryTakes reg ev := by
  unfold RegistryReady at h
  cases hget : reg.get ev.roomId with
  | none =>
      rw [hget] at h
      rcases hr.1 h.1 with ⟨payload, hdec⟩
      exact Or.inl ⟨payload, hv, h.1, hdec, hget, h.2⟩
  | some st =>
      rw [hget] at h
      refine Or.inr ⟨st, hv, hget, ?_, ?_, hnew st hget, h⟩
      · exact hr.eligible hk
      · intro rid hrid
        rw [(hwf.dag hget).ofRoom] at hrid
        exact (Option.some.inj hrid).symm

end Registry

/-! ## The session -/

section Session

variable [Olm] [Primitives] [Deserialize CreateRoomPayload] [Deserialize MembershipPayload]

namespace NodeSession

omit [Primitives] [Deserialize CreateRoomPayload] [Deserialize MembershipPayload]

/-- The `CreateRoom` and `Membership` events in the registry's DAG of a room. -/
def registryEvents (s : NodeSession) (room : RoomId) : Set SignedEvent :=
  {e | IsRoomEvent e ∧ InRegistry s.rooms room e}

/-- The accepted `CreateRoom` and `Membership` events of a room. -/
def logEvents (s : NodeSession) (room : RoomId) : Set SignedEvent :=
  {e | IsRoomEvent e ∧ e.roomId = room ∧ ∃ i, s.node.events.lookup i = some e}

def StoresAgree (s : NodeSession) : Prop :=
  ∀ room, s.registryEvents room = s.logEvents room

/-- A session that has just been started: an empty registry and an empty log, with or without a durable
store. -/
def Fresh (s : NodeSession) : Prop :=
  s.rooms = RoomRegistry.new ∧ ∃ store, s.node = { DeviceNode.new s.deviceId with durable := store }

end NodeSession

/-- What holds of a session in every run: both stores are well formed, and the registry has nothing that
the log lacks. -/
structure Consistent (s : NodeSession) : Prop where
  registry : s.rooms.WellFormed
  node : s.node.Sound
  logged : ∀ {room e}, InRegistry s.rooms room e → s.node.events.lookup e.id = some e

namespace SessionCall

variable (b64 : Encoded MegolmMessage → String) (sk : Primitives.SigningKey)

/-- No event that the call brings is a hash collision with one that the log has. -/
def Clean (s : NodeSession) (call : SessionCall) : Prop :=
  ∀ ev, call.Brings b64 sk s ev → ∀ e, s.node.events.lookup ev.id = some e → e = ev

/-- The runs in question: what comes from outside verifies and can be read, and no event is a hash
collision with one that the log has. -/
def Allowed (s : NodeSession) (call : SessionCall) : Prop :=
  (∀ ev, call.Brings b64 sk s ev → ∀ e, s.node.events.lookup ev.id = some e → e = ev) ∧
    match call with
    | .ingestRemote ev => Verified ev ∧ Readable ev
    | _ => True

/-- If the log takes the event of the call, no room event follows it out of the inbox; and if the event
is itself a room event from outside, the registry is ready for it and nothing makes the commit fail:
neither a write nor a parked event that crosses rooms. -/
def TakenTogether (s : NodeSession) (call : SessionCall) : Prop :=
  ∀ ev, call.Brings b64 sk s ev → s.node.Takes ev →
    (∀ x, s.node.Released ev x → ¬ IsRoomEvent x) ∧
    (call = .ingestRemote ev → IsRoomEvent ev →
      RegistryReady s.rooms ev ∧ s.node.WritesOk (s.node.inbox.length + 1) ∧
        (s.node.take ev).DrainStaysInRoom)

variable {b64 sk} {s s' : NodeSession}

/-! ### One call -/

omit [Primitives] [Deserialize CreateRoomPayload] [Deserialize MembershipPayload] in
theorem mem_registryEvents {room : RoomId} {e : SignedEvent} :
    e ∈ s.registryEvents room ↔ IsRoomEvent e ∧ InRegistry s.rooms room e := Iff.rfl

omit [Deserialize CreateRoomPayload] [Deserialize MembershipPayload] in
theorem Consistent.mem_logEvents (h : s.node.Sound) {room : RoomId} {e : SignedEvent} :
    e ∈ s.logEvents room ↔ IsRoomEvent e ∧ e.roomId = room ∧ s.node.events.lookup e.id = some e := by
  refine and_congr_right fun _ => and_congr_right fun _ => ?_
  constructor
  · rintro ⟨i, hl⟩
    have hid : e.id = i := h.log.keyed hl
    subst hid
    exact hl
  · intro hl
    exact ⟨e.id, hl⟩

omit [Deserialize CreateRoomPayload] [Deserialize MembershipPayload] in
theorem storesAgree_iff (h : s.node.Sound) :
    s.StoresAgree ↔ ∀ room e, IsRoomEvent e →
      (InRegistry s.rooms room e ↔ e.roomId = room ∧ s.node.events.lookup e.id = some e) := by
  constructor
  · intro hagree room e hk
    have hmem : e ∈ s.registryEvents room ↔ e ∈ s.logEvents room := by
      rw [hagree room]
    rw [mem_registryEvents, Consistent.mem_logEvents h] at hmem
    simpa [hk] using hmem
  · intro hall room
    ext e
    rw [mem_registryEvents, Consistent.mem_logEvents h]
    exact and_congr_right fun hk => hall room e hk

/-- What the registry builds on is in the log, in the same room. -/
theorem rooted_of_registryTakes (h : Consistent s) {ev : SignedEvent} (ht : RegistryTakes s.rooms ev) :
    Verified ev ∧ (∀ p ∈ ev.parents, p ∈ s.node.events) ∧ s.node.SameRoom ev := by
  rcases ht with ⟨payload, hf⟩ | ⟨st, ha⟩
  · refine ⟨hf.verified, ?_, ?_⟩ <;> simp [hf.root, DeviceNode.SameRoom]
  · -- a parent in the DAG of the room is an event of the room that the log has
    have hparent : ∀ p ∈ ev.parents, ∃ z, s.node.events.lookup p = some z ∧ z.roomId = ev.roomId := by
      intro p hp
      rcases HashMap.mem_iff_lookup.1 (ha.admitted.2.2 p hp) with ⟨z, hz⟩
      have hid : z.id = p := (h.registry.dag ha.known).keyed hz
      have hlog := h.logged ⟨st, ha.known, p, hz⟩
      rw [hid] at hlog
      exact ⟨z, hlog, (h.registry.dag ha.known).inRoom hz⟩
    refine ⟨ha.verified, ?_, ?_⟩
    · intro p hp
      rcases hparent p hp with ⟨z, hz, _⟩
      exact HashMap.mem_of_lookup hz
    · intro p hp z hz
      rcases hparent p hp with ⟨z', hz', hroom⟩
      rw [hz] at hz'
      cases hz'
      exact hroom

/-- An event that the registry takes is one that the log takes or has. -/
theorem takes_or_logged (h : Consistent s) {ev : SignedEvent}
    (hclean : ∀ e, s.node.events.lookup ev.id = some e → e = ev) (ht : RegistryTakes s.rooms ev) :
    s.node.Takes ev ∨ s.node.events.lookup ev.id = some ev := by
  rcases rooted_of_registryTakes h ht with ⟨hv, hp, hroom⟩
  by_cases hmem : ev.id ∈ s.node.events
  · rcases HashMap.mem_iff_lookup.1 hmem with ⟨e, he⟩
    have heq : e = ev := hclean e he
    subst heq
    exact Or.inr he
  · exact Or.inl ⟨hv, hmem, hp, hroom⟩

omit [Deserialize CreateRoomPayload] [Deserialize MembershipPayload] in
theorem keeps_log (h : s.node.Sound) (ev : SignedEvent) (toOutbox : Bool) {i : EventId} {e : SignedEvent}
    (hl : s.node.events.lookup i = some e) :
    (s.node.commit ev toOutbox).2.events.lookup i = some e := by
  rcases DeviceNode.commit_log h ev toOutbox with ⟨_, hsame⟩ | ⟨_, hadv⟩
  · rw [hsame]
    exact hl
  · exact hadv.keeps hl

omit [Deserialize CreateRoomPayload] [Deserialize MembershipPayload] in
/-- The room events of the log after a commit that releases none. -/
theorem log_iff (h : s.node.Sound) {ev : SignedEvent} (toOutbox : Bool)
    (hrel : s.node.Takes ev → ∀ x, s.node.Released ev x → ¬ IsRoomEvent x) {e : SignedEvent}
    (hk : IsRoomEvent e) :
    (s.node.commit ev toOutbox).2.events.lookup e.id = some e ↔
      s.node.events.lookup e.id = some e ∨ (s.node.Takes ev ∧ e = ev) := by
  rcases DeviceNode.commit_log h ev toOutbox with ⟨hno, hsame⟩ | ⟨htakes, hadv⟩
  · rw [hsame]
    simp [hno]
  · constructor
    · intro hl
      rcases hadv.fresh hl with hold | rfl | hx
      · exact Or.inl hold
      · exact Or.inr ⟨htakes, rfl⟩
      · exact absurd hk (hrel htakes e hx)
    · rintro (hl | ⟨_, rfl⟩)
      · exact hadv.keeps hl
      · exact hadv.takes

omit [Deserialize CreateRoomPayload] [Deserialize MembershipPayload] in
/-- The registry and the log gained the same room events. -/
theorem storesAgree_step (h : s.node.Sound) (h' : s'.node.Sound) (hagree : s.StoresAgree)
    {ev : SignedEvent} {toOutbox : Bool} (inReg : Prop)
    (hnode : s'.node = (s.node.commit ev toOutbox).2)
    (hrel : s.node.Takes ev → ∀ x, s.node.Released ev x → ¬ IsRoomEvent x)
    (hreg : ∀ room e, InRegistry s'.rooms room e ↔
      InRegistry s.rooms room e ∨ (inReg ∧ room = ev.roomId ∧ e = ev))
    (hboth : IsRoomEvent ev → (inReg ↔ s.node.Takes ev)) : s'.StoresAgree := by
  rw [storesAgree_iff h']
  rw [storesAgree_iff h] at hagree
  intro room e hk
  rw [hreg, hnode, log_iff h toOutbox hrel hk, hagree room e hk]
  constructor
  · rintro (⟨hr, hl⟩ | ⟨hin, hr, rfl⟩)
    · exact ⟨hr, Or.inl hl⟩
    · exact ⟨hr.symm, Or.inr ⟨(hboth hk).1 hin, rfl⟩⟩
  · rintro ⟨hr, hl | ⟨hin, rfl⟩⟩
    · exact Or.inl ⟨hr, hl⟩
    · exact Or.inr ⟨(hboth hk).2 hin, hr.symm, rfl⟩

theorem applyEvent_inRegistry_iff (h : Consistent s) (ev : SignedEvent) (room : RoomId)
    (e : SignedEvent) : InRegistry (s.rooms.applyEvent ev).2 room e ↔
      InRegistry s.rooms room e ∨ (RegistryTakes s.rooms ev ∧ room = ev.roomId ∧ e = ev) := by
  rcases applyEvent_inRegistry h.registry ev with ⟨ht, hreg⟩ | ⟨ht, hreg⟩
  · simp [hreg, ht]
  · simp [hreg, ht]

/-- Both stores are offered the event. -/
theorem both_offered (h : Consistent s) {ev : SignedEvent} {toOutbox : Bool}
    (hclean : ∀ e, s.node.events.lookup ev.id = some e → e = ev)
    (hrooms : s'.rooms = (s.rooms.applyEvent ev).2)
    (hnode : s'.node = (s.node.commit ev toOutbox).2) : Consistent s' := by
  refine ⟨?_, ?_, ?_⟩
  · rw [hrooms]
    exact h.registry.applyEvent ev
  · rw [hnode]
    exact h.node.commit ev toOutbox
  · intro room e hin
    rw [hrooms, applyEvent_inRegistry_iff h] at hin
    rw [hnode]
    rcases hin with hold | ⟨ht, _, rfl⟩
    · exact keeps_log h.node ev toOutbox (h.logged hold)
    · rcases takes_or_logged h hclean ht with htakes | hl
      · rcases DeviceNode.commit_log h.node e toOutbox with ⟨hno, _⟩ | ⟨_, hadv⟩
        · exact absurd htakes hno
        · exact hadv.takes
      · exact keeps_log h.node e toOutbox hl

theorem both_agree (h : Consistent s) (hagree : s.StoresAgree) {ev : SignedEvent} {toOutbox : Bool}
    (hclean : ∀ e, s.node.events.lookup ev.id = some e → e = ev)
    (hrooms : s'.rooms = (s.rooms.applyEvent ev).2)
    (hnode : s'.node = (s.node.commit ev toOutbox).2)
    (hrel : s.node.Takes ev → ∀ x, s.node.Released ev x → ¬ IsRoomEvent x)
    (htaken : IsRoomEvent ev → s.node.Takes ev → RegistryTakes s.rooms ev) : s'.StoresAgree := by
  have h' := both_offered h hclean hrooms hnode
  refine storesAgree_step h.node h'.node hagree (RegistryTakes s.rooms ev) hnode hrel ?_ ?_
  · intro room e
    rw [hrooms]
    exact applyEvent_inRegistry_iff h ev room e
  · intro hk
    refine ⟨?_, htaken hk⟩
    intro ht
    rcases takes_or_logged h hclean ht with htakes | hl
    · exact htakes
    · -- what the log has, the registry has
      have hin := ((storesAgree_iff h.node).1 hagree ev.roomId ev hk).2 ⟨rfl, hl⟩
      exact absurd hin (ht.new h.registry)

omit [Deserialize CreateRoomPayload] [Deserialize MembershipPayload] in
/-- Only the log is offered the event. -/
theorem log_offered (h : Consistent s) {ev : SignedEvent} {toOutbox : Bool}
    (hrooms : s'.rooms = s.rooms) (hnode : s'.node = (s.node.commit ev toOutbox).2) :
    Consistent s' := by
  refine ⟨?_, ?_, ?_⟩
  · rw [hrooms]
    exact h.registry
  · rw [hnode]
    exact h.node.commit ev toOutbox
  · intro room e hin
    rw [hrooms] at hin
    rw [hnode]
    exact keeps_log h.node ev toOutbox (h.logged hin)

omit [Deserialize CreateRoomPayload] [Deserialize MembershipPayload] in
theorem log_agree (h : Consistent s) (hagree : s.StoresAgree) {ev : SignedEvent} {toOutbox : Bool}
    (hrooms : s'.rooms = s.rooms) (hnode : s'.node = (s.node.commit ev toOutbox).2)
    (hrel : s.node.Takes ev → ∀ x, s.node.Released ev x → ¬ IsRoomEvent x)
    (hnot : IsRoomEvent ev → ¬ s.node.Takes ev) : s'.StoresAgree := by
  refine storesAgree_step h.node (log_offered h hrooms hnode).node hagree False hnode hrel ?_ ?_
  · intro room e
    rw [hrooms]
    simp
  · intro hk
    simp [hnot hk]

/-! ### The three calls -/

/-- A `CreateRoom` that `apply_event` answers with an error changes no room. -/
theorem not_takes_of_error {ev : SignedEvent} (h : s.rooms.WellFormed) (hk : ev.kind = .createRoom)
    {e : RoomError} (herr : (s.rooms.applyEvent ev).1 = .error e) : ¬ RegistryTakes s.rooms ev := by
  rcases RoomRegistry.applyEvent_effect h ev with ⟨payload, _, hres, _⟩ | ⟨st, _, hres, _⟩ |
    ⟨hnf, hna, _, _⟩
  · rw [herr] at hres
    cases hres
  · have hpay : RoomRegistry.payloadOf ev = none := by
      simp [RoomRegistry.payloadOf, hk]
    rw [herr] at hres
    simp [RoomRegistry.attach, hpay] at hres
  · rintro (⟨payload, hf⟩ | ⟨st, ha⟩)
    · exact hnf payload hf
    · exact hna st ha

/-- A verified `CreateRoom` that `apply_event` accepts can be read. -/
theorem readable_of_ok {ev : SignedEvent} (hv : Verified ev) (hk : ev.kind = .createRoom) {b : Bool}
    (hok : (s.rooms.applyEvent ev).1 = .ok b) : Readable ev := by
  cases hdec : (Deserialize.fromSlice ev.payload : Option CreateRoomPayload) with
  | some payload => exact readable_of_create hk hdec
  | none =>
      rw [RoomRegistry.applyEvent_create hv hk] at hok
      simp [RoomRegistry.applyCreate, hdec] at hok

omit [Deserialize CreateRoomPayload] [Deserialize MembershipPayload] in
/-- What is new to the log is new to the registry. -/
theorem new_to_registry (h : Consistent s) {ev : SignedEvent} (hnew : ev.id ∉ s.node.events) {st : RoomState}
    (hst : s.rooms.get ev.roomId = some st) : ev.id ∉ st.dag.events := by
  intro hmem
  rcases HashMap.mem_iff_lookup.1 hmem with ⟨e, he⟩
  have hid : e.id = ev.id := (h.registry.dag hst).keyed he
  have hlog := h.logged ⟨st, hst, ev.id, he⟩
  rw [hid] at hlog
  exact hnew (HashMap.mem_of_lookup hlog)

theorem createRoom_consistent (h : Consistent s) (name : String) (ts : UInt64)
    (hok : Clean b64 sk s (.createRoom name ts)) : Consistent (s.createRoom sk name ts).2 := by
  rcases @createRoom_cases _ _ _ _ b64 sk s name ts with
    hquiet | ⟨ev, hbrings, hk, _, ⟨⟨e, herr⟩, heq⟩ | ⟨_, heq⟩⟩
  · rw [hquiet]
    exact h
  · have hnot := not_takes_of_error h.registry hk herr
    rw [heq]
    refine ⟨h.registry.applyEvent ev, h.node, ?_⟩
    intro room e hin
    rw [applyEvent_inRegistry_iff h] at hin
    exact h.logged (hin.resolve_right fun htakes => hnot htakes.1)
  · rw [heq]
    exact both_offered h (hok ev hbrings) rfl rfl

theorem createRoom_agrees (h : Consistent s) (name : String) (ts : UInt64)
    (hok : Clean b64 sk s (.createRoom name ts)) (hagree : s.StoresAgree)
    (hgood : TakenTogether b64 sk s (.createRoom name ts)) : (s.createRoom sk name ts).2.StoresAgree := by
  rcases @createRoom_cases _ _ _ _ b64 sk s name ts with
    hquiet | ⟨ev, hbrings, hk, hparents, ⟨⟨e, herr⟩, heq⟩ | ⟨⟨b, happ⟩, heq⟩⟩
  · rw [hquiet]
    exact hagree
  · have hnot := not_takes_of_error h.registry hk herr
    rw [storesAgree_iff h.node] at hagree
    rw [heq]
    refine (@storesAgree_iff _ _ { s with rooms := (s.rooms.applyEvent ev).2 } h.node).2 ?_
    intro room e hke
    rw [← hagree room e hke]
    simp [applyEvent_inRegistry_iff h, hnot]
  · rw [heq]
    refine both_agree h hagree (hok ev hbrings) rfl rfl (fun ht => (hgood ev hbrings ht).1) ?_
    intro hkev ht
    have hready : RegistryReady s.rooms ev := by
      unfold RegistryReady
      split
      · exact ⟨hk, hparents⟩
      · simp [hparents]
    exact hready.takes h.registry ht.1 hkev (readable_of_ok ht.1 hk happ)
      (fun st hst => new_to_registry h ht.2.1 hst)

theorem sendMessage_consistent (h : Consistent s) (roomId : RoomId) (text freshId : String) (ts : UInt64)
    (hok : Clean b64 sk s (.sendMessage roomId text freshId ts)) :
    Consistent (s.sendMessage b64 sk roomId text freshId ts).2 := by
  rcases @sendMessage_cases _ _ _ _ b64 sk s roomId text freshId ts with
    ⟨hrooms, hnode⟩ | ⟨ev, hbrings, _, _, _, hrooms, hnode⟩
  · refine ⟨by rw [hrooms]; exact h.registry, by rw [hnode]; exact h.node, ?_⟩
    rw [hrooms, hnode]
    exact h.logged
  · exact both_offered h (hok ev hbrings) hrooms hnode

theorem sendMessage_agrees (h : Consistent s) (roomId : RoomId) (text freshId : String) (ts : UInt64)
    (hok : Clean b64 sk s (.sendMessage roomId text freshId ts)) (hagree : s.StoresAgree)
    (hgood : TakenTogether b64 sk s (.sendMessage roomId text freshId ts)) :
    (s.sendMessage b64 sk roomId text freshId ts).2.StoresAgree := by
  rcases @sendMessage_cases _ _ _ _ b64 sk s roomId text freshId ts with
    ⟨hrooms, hnode⟩ | ⟨ev, hbrings, hk, _, _, hrooms, hnode⟩
  · intro room
    have hreg : (s.sendMessage b64 sk roomId text freshId ts).2.registryEvents room =
        s.registryEvents room := by
      unfold NodeSession.registryEvents
      rw [hrooms]
    have hlog : (s.sendMessage b64 sk roomId text freshId ts).2.logEvents room = s.logEvents room := by
      unfold NodeSession.logEvents
      rw [hnode]
    rw [hreg, hlog]
    exact hagree room
  · refine both_agree h hagree (hok ev hbrings) hrooms hnode (fun ht => (hgood ev hbrings ht).1) ?_
    rintro (hc | hm) _
    · rw [hk] at hc
      cases hc
    · rw [hk] at hm
      cases hm

theorem ingestRemote_consistent (h : Consistent s) (ev : SignedEvent)
    (hok : Clean b64 sk s (.ingestRemote ev)) : Consistent (s.ingestRemote ev).2 := by
  unfold NodeSession.ingestRemote
  rcases hrun : s.node.commitRemote ev with ⟨res, node⟩
  have hnode : node = (s.node.commit ev false).2 := by
    rw [show s.node.commit ev false = s.node.commitRemote ev from rfl, hrun]
  cases res with
  | error e => exact log_offered h rfl hnode
  | ok b =>
      dsimp only
      split
      · exact both_offered h (hok ev rfl) rfl hnode
      · exact log_offered h rfl hnode

theorem ingestRemote_agrees (h : Consistent s) (ev : SignedEvent)
    (hok : Allowed b64 sk s (.ingestRemote ev)) (hagree : s.StoresAgree)
    (hgood : TakenTogether b64 sk s (.ingestRemote ev)) : (s.ingestRemote ev).2.StoresAgree := by
  have hcommit : s.node.commitRemote ev = s.node.commit ev false := rfl
  have hrel : s.node.Takes ev → ∀ x, s.node.Released ev x → ¬ IsRoomEvent x :=
    fun ht => (hgood ev rfl ht).1
  unfold NodeSession.ingestRemote
  rcases hrun : s.node.commitRemote ev with ⟨res, node⟩
  have hnode : node = (s.node.commit ev false).2 := by
    rw [← hcommit, hrun]
  cases res with
  | error e =>
      refine log_agree h hagree rfl hnode hrel ?_
      intro hk ht
      rcases (hgood ev rfl ht).2 rfl hk with ⟨_, hw, hstay⟩
      have hres := DeviceNode.commit_takes_ok h.node ht hw hstay false
      rw [← hcommit, hrun] at hres
      cases hres
  | ok b =>
      dsimp only
      split
      next hk =>
        refine both_agree h hagree (hok.1 ev rfl) rfl hnode hrel ?_
        intro hkev ht
        have hready := ((hgood ev rfl ht).2 rfl hkev).1
        exact hready.takes h.registry ht.1 hkev hok.2.2 (fun st hst => new_to_registry h ht.2.1 hst)
      next hk => exact log_agree h hagree rfl hnode hrel (fun hkev => absurd hkev hk)

/-- One call, whatever it is. -/
theorem step_consistent (h : Consistent s) (call : SessionCall) (hok : Clean b64 sk s call) :
    Consistent (call.step b64 sk s) := by
  cases call with
  | createRoom name ts => exact createRoom_consistent h name ts hok
  | sendMessage roomId text freshId ts => exact sendMessage_consistent h roomId text freshId ts hok
  | ingestRemote ev => exact ingestRemote_consistent h ev hok

theorem step_agrees (h : Consistent s) (call : SessionCall) (hok : Allowed b64 sk s call)
    (hagree : s.StoresAgree) (hgood : TakenTogether b64 sk s call) : (call.step b64 sk s).StoresAgree := by
  cases call with
  | createRoom name ts => exact createRoom_agrees h name ts hok.1 hagree hgood
  | sendMessage roomId text freshId ts =>
      exact sendMessage_agrees h roomId text freshId ts hok.1 hagree hgood
  | ingestRemote ev => exact ingestRemote_agrees h ev hok hagree hgood

/-! ### Whole runs -/

omit [Deserialize CreateRoomPayload] [Deserialize MembershipPayload] in
theorem consistent_fresh (h : s.Fresh) : Consistent s ∧ s.StoresAgree := by
  rcases h with ⟨hrooms, store, hnode⟩
  have hsound : s.node.Sound := by
    rw [hnode]
    exact DeviceNode.Sound.new s.deviceId store
  have hempty : ∀ room e, ¬ InRegistry s.rooms room e := by
    rintro room e ⟨st, hst, _⟩
    rw [hrooms] at hst
    cases hst
  refine ⟨⟨by rw [hrooms]; exact RoomRegistry.wellFormed_new, hsound, fun hin => absurd hin (hempty _ _)⟩, ?_⟩
  refine (storesAgree_iff hsound).2 ?_
  intro room e _
  refine iff_of_false (hempty room e) ?_
  rintro ⟨_, hl⟩
  rw [hnode] at hl
  simp [DeviceNode.new] at hl

/-- In every run whose calls take room events into both stores together, the stores agree after every
call. -/
theorem storesAgree_run (h : s.Fresh) (calls : List SessionCall)
    (hok : Runs.Along (step b64 sk) (Allowed b64 sk) s calls)
    (hgood : Runs.Along (step b64 sk) (TakenTogether b64 sk) s calls) :
    Runs.Always (step b64 sk) NodeSession.StoresAgree s calls := by
  refine Runs.always_of_invariant (J := fun s => Consistent s ∧ s.StoresAgree) ?_ (fun s hj => hj.2) calls
    (consistent_fresh h) (hok.and hgood)
  rintro s call ⟨hc, hagree⟩ ⟨hallowed, htogether⟩
  exact ⟨step_consistent hc call hallowed.1, step_agrees hc call hallowed hagree htogether⟩

end SessionCall

end Session

/-! ## An invitation that arrives before its room -/

section Example

open Checksum DeviceNode

@[reducible] def blankBook : Olm :=
  Symbolic.olm []

attribute [local instance] Checksum.primitives blankBook createReader membershipReader

/-- The texts of ciphertexts do not matter here. -/
def noText (_ : Encoded MegolmMessage) : String :=
  ""

/-- The session of device 2 after `evs` came in. -/
def receiver (evs : List SignedEvent) : NodeSession :=
  evs.foldl (fun s ev => (s.ingestRemote ev).2) (relaySession [] 2)

theorem receiver_fresh : (receiver []).Fresh :=
  ⟨rfl, none, rfl⟩

theorem receiver_append (evs : List SignedEvent) (ev : SignedEvent) :
    SessionCall.step noText (key 2) (receiver evs) (.ingestRemote ev) = receiver (evs ++ [ev]) := by
  simp [receiver, SessionCall.step]

theorem readable_pond : Readable createPond := by
  have hread : Deserialize.fromSlice createPond.payload = some pond := by
    decide +kernel
  exact readable_of_create rfl hread

theorem readable_invite : Readable invite := by
  exact ⟨fun h => absurd h (by decide), fun _ => ⟨invitation, read_invite⟩⟩

/-- A readable event of `Checksum` that is not in the log may come in. -/
theorem allowed_new {s : NodeSession} {ev : SignedEvent} (hv : Verified ev) (hr : Readable ev)
    (hnew : ev.id ∉ s.node.events) : SessionCall.Allowed noText (key 2) s (.ingestRemote ev) := by
  refine ⟨?_, hv, hr⟩
  rintro e rfl e' hl
  exact absurd (HashMap.mem_of_lookup hl) hnew

theorem drain_misses_registry :
    ¬ ∀ calls : List SessionCall,
      Runs.Along (SessionCall.step noText (key 2)) (SessionCall.Allowed noText (key 2))
        (receiver []) calls →
      Runs.Always (SessionCall.step noText (key 2)) NodeSession.StoresAgree (receiver []) calls := by
  intro h
  have hrun : createPond.id ∉ (receiver [invite]).node.events ∧
      (receiver [invite, createPond]).node.events.lookup invite.id = some invite ∧
      ((receiver [invite, createPond]).rooms.get (room 1)).map
        (fun st => decide (invite ∈ st.dag.events.values)) = some false := by
    decide +kernel
  rcases hrun with ⟨hnew, hlog, hreg⟩
  have hsteps : ∀ calls, calls = [SessionCall.ingestRemote invite, SessionCall.ingestRemote createPond] →
      Runs.Along (SessionCall.step noText (key 2)) (SessionCall.Allowed noText (key 2)) (receiver []) calls ∧
      Runs.run (SessionCall.step noText (key 2)) (receiver []) calls = receiver [invite, createPond] := by
    rintro calls rfl
    simp only [Runs.Along, Runs.run, List.foldl, receiver_append, List.nil_append, List.cons_append, and_true]
    exact ⟨allowed_new (event_verified _ _ _ _ _ _) readable_invite (AList.notMem_empty _),
      allowed_new (event_verified _ _ _ _ _ _) readable_pond hnew⟩
  rcases hsteps _ rfl with ⟨hallowed, hend⟩
  have hagree := Runs.Always.final _ (h _ hallowed)
  rw [hend] at hagree
  generalize receiver [invite, createPond] = s at hlog hreg hagree
  have hmem : invite ∈ s.registryEvents (room 1) := by
    rw [hagree (room 1)]
    exact ⟨Or.inr rfl, rfl, invite.id, hlog⟩
  rcases hmem with ⟨_, st, hst, i, hl⟩
  have hin : invite ∈ st.dag.events.values := HashMap.mem_values.2 ⟨i, hl⟩
  rw [hst] at hreg
  simp [hin] at hreg

/-- In the right order the stores agree. -/
theorem storesAgree_run_invite :
    Runs.Always (SessionCall.step noText (key 2)) NodeSession.StoresAgree (receiver [])
      [SessionCall.ingestRemote createPond, SessionCall.ingestRemote invite] := by
  have hrun : invite.id ∉ (receiver [createPond]).node.events ∧
      (receiver [createPond]).node.inbox = [] ∧ (receiver [createPond]).node.durable = none ∧
      ((receiver [createPond]).rooms.get (room 1)).map
        (fun st => decide (createPond.id ∈ st.dag.events)) = some true := by
    decide +kernel
  generalize hs : receiver [createPond] = s at hrun
  rcases hrun with ⟨hnew, hinbox, hdurable, hdag⟩
  have hready : RegistryReady s.rooms invite := by
    have hparents : invite.parents = [createPond.id] := rfl
    have hroom : invite.roomId = room 1 := rfl
    unfold RegistryReady
    rw [hroom, hparents]
    generalize s.rooms.get (room 1) = st at hdag
    cases st with
    | none => cases hdag
    | some st => simpa using hdag
  -- with an empty inbox and no store nothing follows and nothing fails
  have hquiet : ∀ (s : NodeSession) (ev : SignedEvent), s.node.inbox = [] → s.node.durable = none →
      RegistryReady s.rooms ev → SessionCall.TakenTogether noText (key 2) s (.ingestRemote ev) := by
    rintro s ev hin hdur hready _ rfl _
    refine ⟨?_, fun _ _ => ⟨hready, ?_, ?_⟩⟩
    · rintro x ⟨hx, _⟩
      rw [hin] at hx
      cases hx
    · intro store hst
      rw [hdur] at hst
      cases hst
    · intro x hx
      have hx' : x ∈ s.node.inbox := hx
      rw [hin] at hx'
      cases hx'
  refine SessionCall.storesAgree_run receiver_fresh _ ?_ ?_
  · simp only [Runs.Along, receiver_append, List.nil_append, hs, and_true]
    exact ⟨allowed_new (event_verified _ _ _ _ _ _) readable_pond (AList.notMem_empty _),
      allowed_new (event_verified _ _ _ _ _ _) readable_invite hnew⟩
  · simp only [Runs.Along, receiver_append, List.nil_append, hs, and_true]
    exact ⟨hquiet (receiver []) createPond rfl rfl ⟨rfl, rfl⟩, hquiet s invite hinbox hdurable hready⟩

end Example

end Node
end Thunderducks
