import Thunderducks.Event.ContentAddress
import Thunderducks.Node.Delivery
import Thunderducks.Node.Kept

/-!
# Reopen — a durable node and its database (`with_sqlite`, and `list_all` of `td-event/src/store.rs`)

A durable node writes every event it accepts to its table.  `list_all` sorts the rows by parent count and
time, which is no causal order; `with_sqlite` feeds them to `ingest_event`, which parks and drains.
`withSqlite_reopens` says that this rebuilds the log, the DAGs and the tips of the node.
-/

namespace Thunderducks
namespace Node
namespace DeviceNode

open Lib Event

/-! ## Opening a database -/

section Open

variable [Primitives] [Deserialize SignedEvent]

/-- `from_str` and `verify_event` on each body; the first failure ends it. -/
def decodeRows : List EventRow → Except StoreError (List SignedEvent)
  | [] => .ok []
  | row :: rows =>
      match Deserialize.fromSlice (α := SignedEvent) row.body with
      | none => .error (.event .serde)
      | some ev =>
          match verifyEvent ev with
          | .error e => .error (.event e)
          | .ok () =>
              match decodeRows rows with
              | .error e => .error e
              | .ok evs => .ok (ev :: evs)

/-- All events in parent-count / ts order (best-effort causal load order).  The rows come in the
order `o`. -/
def listAll (o : IterOrder EventRow) (store : SqliteStore) : Except StoreError (List SignedEvent) :=
  match decodeRows (o.run store.rows.values) with
  | .error e => .error e
  | .ok evs => .ok (evs.insertionSort causalLe)

omit [Deserialize SignedEvent] in
/-- The replay loop of `with_sqlite`; the first error ends it. -/
def replayEvents : DeviceNode → List SignedEvent → Except SyncError Unit × DeviceNode
  | node, [] => (.ok (), node)
  | node, ev :: evs =>
      match node.ingestEvent ev false with
      | (.error e, node) => (.error e, node)
      | (.ok _, node) => replayEvents node evs

/-- Open SQLite under `path`, reload all events into memory DAGs. -/
def withSqlite (o : IterOrder EventRow) (deviceId : DeviceId) (store : SqliteStore) :
    Except SyncError Unit × DeviceNode :=
  let node := DeviceNode.new deviceId
  match listAll o store with
  | .error e => (.error (.store e), node)
  | .ok evs => replayEvents { node with durable := some store } evs

end Open

/-! ## A durable node -/

section Durable

variable [Primitives]

/-- The row of an accepted event. -/
def rowOf (ev : SignedEvent) : EventRow :=
  { roomId := ev.roomId
    body := toVec ev }

/-- Every room that has a DAG has an event. -/
def Occupied (node : DeviceNode) : Prop :=
  ∀ room ∈ node.dags, ∃ i e, node.events.lookup i = some e ∧ e.roomId = room

/-- What holds of a durable node at all times: its log is coherent and verified, and the table of its
database, in which no write fails, holds the log and nothing else. -/
structure Backed (node : DeviceNode) : Prop where
  log : node.LogCoherent
  verified : ∀ {i e}, node.events.lookup i = some e → Verified e
  stored : ∃ store, node.durable = some store ∧ store.faults = [] ∧
    ∀ i, store.rows.lookup i = (node.events.lookup i).map rowOf

/-- What holds of it as long as its calls succeed. -/
structure Mirrored (node : DeviceNode) : Prop extends Backed node where
  occupied : node.Occupied

omit [Primitives] in
theorem Occupied.took {node node' : DeviceNode} {ev : SignedEvent} (h : node.Occupied)
    (hnew : ev.id ∉ node.events) (htook : Took node ev node') : node'.Occupied := by
  intro room hroom
  rw [htook.dags] at hroom
  rcases (AList.mem_insert _).1 hroom with rfl | hold
  · refine ⟨ev.id, ev, ?_, rfl⟩
    rw [htook.events, lookup_take, if_pos rfl]
  · rcases h room hold with ⟨i, e, hl, hr⟩
    refine ⟨i, e, ?_, hr⟩
    have hne : i ≠ ev.id := by
      rintro rfl
      exact hnew (HashMap.mem_of_lookup hl)
    rw [htook.events, lookup_take, if_neg hne]
    exact hl

/-- A write to the table of an event that it does not have. -/
theorem put_new {store : SqliteStore} {ev : SignedEvent} (hv : Verified ev)
    (hfaults : store.faults = []) (hnew : ev.id ∉ store.rows) :
    store.put ev = (.ok true, { store with rows := store.rows.insert ev.id (rowOf ev) }) := by
  have hv' : verifyEvent ev = .ok () := hv
  have hnot : ev.id ∉ store.rows := hnew
  cases store
  simp only at hfaults hnot
  simp [SqliteStore.put, SqliteStore.nextFails, hv', hfaults, hnot, rowOf]

/-- An event that a coherent node's DAG takes is taken, and the DAG never calls one known that the log
lacks. -/
theorem dagIngest_taken {node : DeviceNode} {ev : SignedEvent} (h : node.LogCoherent) (hv : Verified ev)
    (hnew : ev.id ∉ node.events) (hok : node.parentsOk ev = true) :
    (node.dagIngest ev).1 ≠ .ok false ∧
      ((node.dagIngest ev).1 = .ok true → (∀ p ∈ ev.parents, p ∈ node.events) ∧ node.SameRoom ev ∧
        Took node ev ((node.dagIngest ev).2.record ev).2) := by
  have hp : ∀ p ∈ ev.parents, p ∈ node.events := parentsOk_iff.1 hok
  rcases step_cases h hv hnew hp with ⟨hroom, node₁, heq, htook, _⟩ | ⟨_, q, node₁, heq, _⟩
  · rw [heq]
    exact ⟨by simp, fun _ => ⟨hp, hroom, htook⟩⟩
  · rw [heq]
    exact ⟨by simp, fun hing => absurd hing (by simp)⟩

theorem backed_take {node : DeviceNode} {ev : SignedEvent} (hv : Verified ev)
    (hnew : ev.id ∉ node.events) (hok : node.parentsOk ev = true) (h : node.Backed)
    (hing : (node.dagIngest ev).1 = .ok true) :
    ((node.dagIngest ev).2.record ev).1 = .ok () ∧ ((node.dagIngest ev).2.record ev).2.Backed := by
  rcases (dagIngest_taken h.log hv hnew hok).2 hing with ⟨hp, hroom, htook⟩
  have hdur : (node.dagIngest ev).2.durable = node.durable := rfl
  have hev : (node.dagIngest ev).2.events = node.events := rfl
  rcases h.stored with ⟨store, hst, hfaults, hrows⟩
  -- a new event has no row, so the write inserts one
  have hrow : ev.id ∉ store.rows := by
    rw [← AList.lookup_eq_none, hrows, AList.lookup_eq_none.2 hnew]
    rfl
  have hput := put_new hv hfaults hrow
  rw [hst] at hdur
  refine ⟨by simp [DeviceNode.record, hdur, hput],
    (Grew.took h.log hnew hp hroom (Set.mem_singleton ev) htook).coherent, ?_,
    { store with rows := store.rows.insert ev.id (rowOf ev) }, ?_, hfaults, ?_⟩
  · intro i e hl
    rw [htook.events, lookup_take] at hl
    split at hl
    · cases hl
      exact hv
    · exact h.verified hl
  · simp [DeviceNode.record, hdur, hput]
  · intro i
    simp only [DeviceNode.record, hdur, hput, hev, HashMap.lookup_insert_eq]
    split
    · rfl
    · exact hrows i

theorem Backed.congr {node node' : DeviceNode} (h : node.Backed) (he : node'.events = node.events)
    (hd : ∀ room, node'.dagOf room = node.dagOf room) (hs : node'.durable = node.durable) :
    node'.Backed := by
  refine ⟨h.log.congr he hd, ?_, ?_⟩
  · intro i e hl
    exact h.verified (he ▸ hl)
  · rw [hs, he]
    exact h.stored

theorem backed_kept : Kept Backed Backed {ev | Verified ev} := by
  refine ⟨?_, ?_, ?_, ?_, ?_⟩
  · intro node ev hv hnew hok h hing
    exact absurd hing (dagIngest_taken h.log hv hnew hok).1
  · intro node ev hv hnew hok h hing _
    exact (backed_take hv hnew hok h hing).2
  · intro node ev e inbox hv hnew hok h hing
    rcases step_cases h.log hv hnew (parentsOk_iff.1 hok) with ⟨_, node₁, heq, _⟩ | ⟨_, q, node₁, heq, hunt⟩
    · rw [heq] at hing
      cases hing
    · rw [heq]
      exact h.congr hunt.events hunt.dagOf hunt.durable
  · intro node ev e inbox hv hnew hok h hing herr
    rw [(backed_take hv hnew hok h hing).1] at herr
    cases herr
  · intro node inbox h
    exact h.congr rfl (fun _ => rfl) rfl

/-- The table stays the log's, whatever a commit answers. -/
theorem Backed.commit {node : DeviceNode} (h : node.Backed) (hs : node.Sound) (ev : SignedEvent)
    (toOutbox : Bool) : (node.commit ev toOutbox).2.Backed := by
  by_cases hv : Verified ev
  · rcases hrun : node.commit ev toOutbox with ⟨res, node'⟩
    rw [commit_verified hv] at hrun
    have hends := ingestEvent_kept backed_kept (fun _ _ _ hb => hb.congr rfl (fun _ => rfl) rfl)
      hs.verified hv h hrun
    cases res with
    | ok b => exact hends.ok b rfl
    | error e => exact hends.failed e rfl
  · rcases commit_unverified hv toOutbox with ⟨e, heq⟩
    rw [heq]
    exact h

theorem mirrored_kept : Kept Mirrored Backed {ev | Verified ev} := by
  refine ⟨?_, ?_, ?_, ?_, ?_⟩
  · intro node ev hv hnew hok h hing
    exact absurd hing (dagIngest_taken h.log hv hnew hok).1
  · intro node ev hv hnew hok h hing hrec
    rcases (dagIngest_taken h.log hv hnew hok).2 hing with ⟨_, _, htook⟩
    exact ⟨backed_kept.take node ev hv hnew hok h.toBacked hing hrec, h.occupied.took hnew htook⟩
  · intro node ev e inbox hv hnew hok h hing
    exact backed_kept.refused node ev e inbox hv hnew hok h.toBacked hing
  · intro node ev e inbox hv hnew hok h hing herr
    exact backed_kept.unwritten node ev e inbox hv hnew hok h.toBacked hing herr
  · intro node inbox h
    exact ⟨backed_kept.inbox node inbox h.toBacked, h.occupied⟩

/-! ## Runs -/

/-- The calls that bring events to a node. -/
inductive NodeCall
  | commitLocal (ev : SignedEvent)
  | commitRemote (ev : SignedEvent)
  | applySyncResponse (resp : SyncResponse)

/-- The call succeeds on `node` and leaves `node'`. -/
def NodeCall.Succeeds (node : DeviceNode) : NodeCall → DeviceNode → Prop
  | .commitLocal ev, node' => ∃ b, node.commitLocal ev = (.ok b, node')
  | .commitRemote ev, node' => ∃ b, node.commitRemote ev = (.ok b, node')
  | .applySyncResponse resp, node' => ∃ n, node.applySyncResponse resp = (.ok n, node')

/-- What every durable node satisfies between successful calls. -/
structure Steady (node : DeviceNode) : Prop where
  sound : node.Sound
  mirrored : node.Mirrored

theorem Steady.commit {node node' : DeviceNode} {ev : SignedEvent} {toOutbox b : Bool}
    (h : node.Steady) (hrun : node.commit ev toOutbox = (.ok b, node')) : node'.Steady := by
  have hsound := h.sound.commit ev toOutbox
  rw [hrun] at hsound
  refine ⟨hsound, ?_⟩
  by_cases hv : Verified ev
  · rw [commit_verified hv] at hrun
    refine (ingestEvent_kept mirrored_kept ?_ h.sound.verified hv h.mirrored hrun).ok b rfl
    intro _ node outbox hm
    exact ⟨hm.toBacked.congr rfl (fun _ => rfl) rfl, hm.occupied⟩
  · rcases commit_unverified hv toOutbox with ⟨e, heq⟩
    rw [heq] at hrun
    cases hrun

theorem Steady.applyMissing (missing : List SignedEvent) : ∀ {node node' : DeviceNode} {n m : Nat},
    node.Steady → node.applyMissing missing n = (.ok m, node') → node'.Steady := by
  induction missing with
  | nil =>
      intro node node' n m h hrun
      cases hrun
      exact h
  | cons ev missing ih =>
      intro node node' n m h hrun
      unfold DeviceNode.applyMissing at hrun
      rcases hcommit : node.commitRemote ev with ⟨res, node₁⟩
      rw [hcommit] at hrun
      cases res with
      | error e => cases hrun
      | ok b =>
          have h₁ : node₁.Steady := h.commit hcommit
          cases b with
          | false => exact ih h₁ hrun
          | true => exact ih h₁ hrun

theorem Steady.call {node node' : DeviceNode} {call : NodeCall} (h : node.Steady)
    (hrun : call.Succeeds node node') : node'.Steady := by
  cases call with
  | commitLocal ev =>
      rcases hrun with ⟨b, hrun⟩
      exact h.commit hrun
  | commitRemote ev =>
      rcases hrun with ⟨b, hrun⟩
      exact h.commit hrun
  | applySyncResponse resp =>
      rcases hrun with ⟨n, hrun⟩
      exact Steady.applyMissing resp.missing h hrun

end Durable

/-! ## Reopening -/

section Reopen

variable [Primitives] [Deserialize SignedEvent]

/-- The events of a table that mirrors a log are read back, in some order. -/
theorem decodeRows_written [RoundTrips SignedEvent] (rows : List EventRow) :
    (∀ row ∈ rows, ∃ e, Verified e ∧ row = rowOf e) →
    ∃ evs, decodeRows rows = .ok evs ∧ ∀ e, e ∈ evs ↔ Verified e ∧ rowOf e ∈ rows := by
  induction rows with
  | nil =>
      intro _
      exact ⟨[], rfl, by simp⟩
  | cons row rows ih =>
      intro hrows
      rcases hrows row (by simp) with ⟨e, hv, rfl⟩
      have hv' : verifyEvent e = .ok () := hv
      rcases ih (fun r hr => hrows r (List.mem_cons_of_mem _ hr)) with ⟨evs, heq, hmem⟩
      have hread : Deserialize.fromSlice (α := SignedEvent) (rowOf e).body = some e :=
        RoundTrips.read e
      refine ⟨e :: evs, by simp [decodeRows, hread, hv', heq], ?_⟩
      intro x
      rw [List.mem_cons, List.mem_cons, hmem]
      constructor
      · rintro (rfl | ⟨hx, hin⟩)
        · exact ⟨hv, Or.inl rfl⟩
        · exact ⟨hx, Or.inr hin⟩
      · rintro ⟨hx, hEq | hin⟩
        · -- a body is read in one way
          have hbody : toVec x = toVec e := congrArg EventRow.body hEq
          exact Or.inl (RoundTrips.toVec_injective hbody)
        · exact Or.inr ⟨hx, hin⟩

theorem listAll_backed [RoundTrips SignedEvent] (o : IterOrder EventRow) {node : DeviceNode}
    {store : SqliteStore} (h : node.Backed)
    (hrows : ∀ i, store.rows.lookup i = (node.events.lookup i).map rowOf) :
    ∃ evs, listAll o store = .ok evs ∧ ∀ e, e ∈ evs ↔ e ∈ node.accepted := by
  have hvals : ∀ row, row ∈ o.run store.rows.values ↔
      ∃ i e, node.events.lookup i = some e ∧ row = rowOf e := by
    intro row
    rw [IterOrder.mem_run, HashMap.mem_values]
    constructor
    · rintro ⟨i, hi⟩
      rw [hrows] at hi
      rcases Option.map_eq_some_iff.1 hi with ⟨e, he, rfl⟩
      exact ⟨i, e, he, rfl⟩
    · rintro ⟨i, e, he, rfl⟩
      exact ⟨i, by rw [hrows, he]; rfl⟩
  rcases decodeRows_written (o.run store.rows.values) (by
    intro row hrow
    rcases (hvals row).1 hrow with ⟨i, e, he, rfl⟩
    exact ⟨e, h.verified he, rfl⟩) with ⟨evs, heq, hmem⟩
  refine ⟨evs.insertionSort causalLe, by simp [listAll, heq], ?_⟩
  intro e
  rw [List.mem_insertionSort, hmem, hvals]
  constructor
  · rintro ⟨_, i, e', he', hEq⟩
    -- an event is read off its own row
    have hbody : toVec e = toVec e' := congrArg EventRow.body hEq
    have hsame : e = e' := RoundTrips.toVec_injective hbody
    subst hsame
    have hid : e.id = i := h.log.keyed he'
    subst hid
    exact he'
  · intro he
    exact ⟨h.verified he, e.id, e, he, rfl⟩

/-! ### The replay -/

omit [Deserialize SignedEvent] in
theorem replayEvents_ok (evs : List SignedEvent) : ∀ node : DeviceNode, (∀ e ∈ evs, Verified e) →
    (∀ res ∈ (node.commitRemoteAll evs).1, ∃ b, res = .ok b) →
    node.replayEvents evs = (.ok (), (node.commitRemoteAll evs).2) := by
  induction evs with
  | nil =>
      intro node _ _
      rfl
  | cons ev evs ih =>
      intro node hv hok
      have hcommit : node.commitRemote ev = node.ingestEvent ev false :=
        commit_verified (hv ev (by simp)) false
      rcases hok (node.commitRemote ev).1 (by simp [commitRemoteAll]) with ⟨b, hb⟩
      have hpair : node.ingestEvent ev false = (.ok b, (node.commitRemote ev).2) := by
        rw [← hcommit, ← hb]
      have hrest := ih (node.commitRemote ev).2 (fun e he => hv e (List.mem_cons_of_mem _ he))
        (fun res hres => hok res (List.mem_cons_of_mem _ hres))
      unfold replayEvents
      rw [hpair]
      exact hrest

/-- What holds of the node while the rows of `store` are replayed to it. -/
structure Replaying (store : SqliteStore) (node : DeviceNode) : Prop where
  log : node.LogCoherent
  occupied : node.Occupied
  outbox : node.outbox = []
  durable : node.durable = some store

omit [Deserialize SignedEvent] in
/-- Writing an event again that the table has leaves the table alone. -/
theorem replaying_kept {store : SqliteStore} (hfaults : store.faults = []) :
    Kept (Replaying store) (fun _ => True) {ev | Verified ev ∧ ev.id ∈ store.rows} := by
  refine ⟨?_, ?_, fun _ _ _ _ _ _ _ _ _ => trivial, fun _ _ _ _ _ _ _ _ _ _ => trivial, ?_⟩
  · rintro node ev ⟨hv, _⟩ hnew hok h hing
    exact absurd hing (dagIngest_taken h.log hv hnew hok).1
  · rintro node ev ⟨hv, hrow⟩ hnew hok h hing _
    rcases (dagIngest_taken h.log hv hnew hok).2 hing with ⟨hp, hroom, htook⟩
    have hv' : verifyEvent ev = .ok () := hv
    have hdur : (node.dagIngest ev).2.durable = some store := h.durable
    have hout : (node.dagIngest ev).2.outbox = [] := h.outbox
    have hput : store.put ev = (.ok false, store) := by
      cases store
      simp only at hfaults hrow
      simp [SqliteStore.put, SqliteStore.nextFails, hv', hfaults, hrow]
    refine ⟨(Grew.took h.log hnew hp hroom (Set.mem_singleton ev) htook).coherent,
      h.occupied.took hnew htook, ?_, ?_⟩
    · simp [DeviceNode.record, hdur, hput, hout]
    · simp [DeviceNode.record, hdur, hput]
  · intro node inbox h
    exact ⟨h.log.congr rfl (fun _ => rfl), h.occupied, h.outbox, h.durable⟩

omit [Deserialize SignedEvent] in
theorem Replaying.replayEvents {store : SqliteStore} (hfaults : store.faults = [])
    (evs : List SignedEvent) : ∀ {node node' : DeviceNode}, node.Sound →
    (∀ x ∈ node.inbox, Verified x ∧ x.id ∈ store.rows) → (∀ x ∈ evs, Verified x ∧ x.id ∈ store.rows) →
    Replaying store node → node.replayEvents evs = (.ok (), node') → Replaying store node' := by
  induction evs with
  | nil =>
      intro node node' _ _ _ h hrun
      cases hrun
      exact h
  | cons ev evs ih =>
      intro node node' hs hin hevs h hrun
      have hev : Verified ev ∧ ev.id ∈ store.rows := hevs ev (by simp)
      have ho := ingestEvent_outcome hs hev.1 false
      unfold DeviceNode.replayEvents at hrun
      rcases hing : node.ingestEvent ev false with ⟨res, node₁⟩
      rw [hing] at hrun ho
      cases res with
      | error e => cases hrun
      | ok b =>
          have h₁ : Replaying store node₁ :=
            (ingestEvent_kept (replaying_kept hfaults) (fun hf => absurd hf (by decide)) hin hev h hing).ok
              b rfl
          refine ih (ho.sound hs hev.1) ?_ (fun x hx => hevs x (List.mem_cons_of_mem _ hx)) h₁ hrun
          intro x hx
          rcases ho.parked_subset hx with hx | hx
          · exact hin x hx
          · rw [Set.mem_singleton_iff.1 hx]
            exact hev

/-- Two nodes with the same log and, room by room, the same DAG: its events, its links and its tips. -/
structure SameHistory (node node' : DeviceNode) : Prop where
  events : ∀ i, node'.events.lookup i = node.events.lookup i
  rooms : ∀ room, room ∈ node'.dags ↔ room ∈ node.dags
  dagRoom : ∀ room, (node'.dagOf room).roomId = (node.dagOf room).roomId
  dagEvents : ∀ room i, (node'.dagOf room).events.lookup i = (node.dagOf room).events.lookup i
  links : ∀ room p c, c ∈ (node'.dagOf room).childrenOf p ↔ c ∈ (node.dagOf room).childrenOf p
  tips : ∀ room i, i ∈ node'.tips room ↔ i ∈ node.tips room

omit [Primitives] [Deserialize SignedEvent] in
/-- A room with an accepted event has a DAG. -/
theorem LogCoherent.room_mem_dags {node : DeviceNode} (h : node.LogCoherent) {i : EventId}
    {e : SignedEvent} (hl : node.events.lookup i = some e) : e.roomId ∈ node.dags := by
  have hdag : (node.dagOf e.roomId).events.lookup i = some e := h.dagEvents.2 ⟨hl, rfl⟩
  by_contra hno
  rw [dagOf, AList.lookup_eq_none.2 hno] at hdag
  simp [RoomDag.new] at hdag

omit [Primitives] [Deserialize SignedEvent] in
theorem LogCoherent.mem_dags {node : DeviceNode} (h : node.LogCoherent) (ho : node.Occupied)
    {room : RoomId} : room ∈ node.dags ↔ ∃ i e, node.events.lookup i = some e ∧ e.roomId = room := by
  refine ⟨ho room, ?_⟩
  rintro ⟨i, e, hl, rfl⟩
  exact h.room_mem_dags hl

omit [Primitives] [Deserialize SignedEvent] in
/-- Coherent nodes with one log have one history. -/
theorem sameHistory_of_events {node node' : DeviceNode} (h : node.LogCoherent) (h' : node'.LogCoherent)
    (ho : node.Occupied) (ho' : node'.Occupied)
    (hev : ∀ i, node'.events.lookup i = node.events.lookup i) : SameHistory node node' := by
  have hdag : ∀ room i, (node'.dagOf room).events.lookup i = (node.dagOf room).events.lookup i := by
    intro room i
    refine Option.ext ?_
    intro e
    rw [h.dagEvents, h'.dagEvents, hev]
  refine ⟨hev, ?_, ?_, hdag, ?_, ?_⟩
  · intro room
    rw [h.mem_dags ho, h'.mem_dags ho']
    simp only [hev]
  · intro room
    rw [(h.dagWf room).ofRoom, (h'.dagWf room).ofRoom]
  · intro room p c
    rw [(h.dagWf room).links, (h'.dagWf room).links]
    simp only [hdag]
  · intro room i
    rw [h.mem_tips, h'.mem_tips]
    simp only [hev]

/-- A node over the database `store` that has loaded nothing yet. -/
def blank (d : DeviceId) (store : SqliteStore) : DeviceNode :=
  { DeviceNode.new d with durable := some store }

section Blank

variable {node node' : DeviceNode} {store : SqliteStore} {d : DeviceId}

omit [Primitives] [Deserialize SignedEvent]

theorem parked_blank : (blank d store).parked = ∅ := by
  simp [parked, blank, DeviceNode.new]

theorem logIds_blank : (blank d store).logIds = ∅ := by
  ext i
  simp [logIds, blank, DeviceNode.new]

theorem held_blank : (blank d store).held = ∅ :=
  held_new d

theorem reliable_blank (hfaults : store.faults = []) : (blank d store).Reliable := by
  intro st hst b hb
  cases hst
  rw [hfaults] at hb
  cases hb

/-- The log is closed under parents within each room, so no replayed event is refused. -/
theorem LogCoherent.replayable (h : node.LogCoherent) :
    IdsIdentify ((blank d store).held ∪ node.accepted) ∧
      (blank d store).ReadyLocal node.accepted := by
  rw [ReadyLocal, held_blank, parked_blank, Set.empty_union]
  refine ⟨?_, ?_⟩
  · intro x hx y hy hid
    have hx' : node.events.lookup x.id = some x := hx
    have hy' : node.events.lookup y.id = some y := hy
    rw [hid, hy'] at hx'
    exact (Option.some.inj hx').symm
  · intro x hx _ y hy hp
    have hy' : node.events.lookup y.id = some y := hy
    rcases h.parent_accepted hx hp with ⟨z, hz, hroom⟩
    rw [hz] at hy'
    cases hy'
    exact hroom

/-- What a blank node makes of the events of a log: the log, with nothing left over. -/
theorem Offered.log_of_blank [Primitives] (h : Offered node.accepted (blank d store) node')
    (hlog : node.LogCoherent) :
    (∀ i, node'.events.lookup i = node.events.lookup i) ∧ node'.inbox = [] := by
  have hsettled : node'.Settled := h.settled (by
    intro x hx
    simp [blank, DeviceNode.new] at hx)
  have hpool : (blank d store).parked ∪ node.accepted = node.accepted := by
    rw [parked_blank, Set.empty_union]
  -- a log is its own pool: all of it is supplied, and nothing else
  have hids : ∀ i, i ∈ node'.events ↔ i ∈ node.events := by
    intro i
    rw [h.mem_events hsettled, hpool, logIds_blank]
    refine ⟨?_, hlog.grounded i⟩
    intro hsup
    exact hlog.mem_events.2 hsup.mem_pool
  have hforth : ∀ {i e}, node'.events.lookup i = some e → node.events.lookup i = some e := by
    intro i e hl
    have hid : e.id = i := h.sound.log.keyed hl
    rcases h.grew.fresh hl with hold | ⟨_, hin⟩
    · simp [blank, DeviceNode.new] at hold
    · rw [hpool] at hin
      subst hid
      exact hin
  refine ⟨?_, ?_⟩
  · intro i
    refine Option.ext ?_
    intro e
    refine ⟨hforth, ?_⟩
    intro hl
    rcases HashMap.mem_iff_lookup.1 ((hids i).2 (HashMap.mem_of_lookup hl)) with ⟨e', hl'⟩
    have hold := hforth hl'
    rw [hl] at hold
    cases hold
    exact hl'
  · refine List.eq_nil_iff_forall_not_mem.2 ?_
    intro x hx
    have hin := h.inbox hx
    rw [hpool] at hin
    exact (hsettled x hx).1 ((hids x.id).2 (HashMap.mem_of_lookup hin))

end Blank

/-- The database of a durable node reopens to its log. -/
theorem Backed.reopens [RoundTrips SignedEvent] {node : DeviceNode} (h : node.Backed)
    {store : SqliteStore} (hst : node.durable = some store) (o : IterOrder EventRow) (d : DeviceId) :
    ∃ node', withSqlite o d store = (.ok (), node') ∧
      (∀ i, node'.events.lookup i = node.events.lookup i) ∧ node'.inbox = [] ∧ node'.outbox = [] ∧
      node'.Sound ∧ node'.Mirrored := by
  rcases h.stored with ⟨store', hst', hfaults, hrows⟩
  rw [hst] at hst'
  cases hst'
  rcases listAll_backed o h hrows with ⟨evs, hlist, hmem⟩
  have hverified : ∀ e ∈ evs, Verified e := fun e he => h.verified ((hmem e).1 he)
  have hset : {e | e ∈ evs} = node.accepted := Set.ext hmem
  have hblank : (blank d store).Sound := Sound.new d (some store)
  rcases @LogCoherent.replayable node store d h.log with ⟨hids, hready⟩
  rw [← hset] at hids hready
  rcases commitRemoteAll_offered evs hblank (reliable_blank hfaults) hverified hids hready with ⟨hok, hoff⟩
  have hrun := replayEvents_ok evs (blank d store) hverified hok
  rw [hset] at hoff
  revert hrun hoff
  generalize ((blank d store).commitRemoteAll evs).2 = node'
  intro hoff hrun
  rcases hoff.log_of_blank h.log with ⟨hev, hinbox⟩
  have hrows' : ∀ e ∈ evs, Verified e ∧ e.id ∈ store.rows := by
    intro e he
    have hl : node.events.lookup e.id = some e := (hmem e).1 he
    refine ⟨hverified e he, HashMap.mem_of_lookup (v := rowOf e) ?_⟩
    rw [hrows, hl]
    rfl
  -- the rows are there already, so replaying writes none
  have hrep : Replaying store node' := by
    refine Replaying.replayEvents hfaults evs hblank (by simp [blank, DeviceNode.new]) hrows' ?_ hrun
    exact ⟨hblank.log, fun room hroom => absurd hroom (AList.notMem_empty room), rfl, rfl⟩
  have hopen : withSqlite o d store = (.ok (), node') := by
    unfold withSqlite
    rw [hlist]
    exact hrun
  refine ⟨node', hopen, hev, hinbox, hrep.outbox, hoff.sound,
    ⟨hoff.sound.log, ?_, store, hrep.durable, hfaults, ?_⟩, hrep.occupied⟩
  · intro i e hl
    rw [hev] at hl
    exact h.verified hl
  · intro i
    rw [hev]
    exact hrows i

/-- The nodes that successful calls build on a database that was empty at first, with any number of
restarts. -/
inductive Opened : DeviceNode → Prop
  | fresh (o : IterOrder EventRow) (d : DeviceId) : Opened (withSqlite o d SqliteStore.empty).2
  | call {node node' : DeviceNode} (call : NodeCall) : Opened node → call.Succeeds node node' →
      Opened node'
  | reopen {node node' : DeviceNode} {store : SqliteStore} (o : IterOrder EventRow) (d : DeviceId) :
      Opened node → node.durable = some store → withSqlite o d store = (.ok (), node') → Opened node'

theorem Opened.commitRemote {node : DeviceNode} {ev : SignedEvent} {b : Bool} (h : Opened node)
    (hok : (node.commitRemote ev).1 = .ok b) : Opened (node.commitRemote ev).2 :=
  h.call (.commitRemote ev) ⟨b, by rw [← hok]⟩

theorem withSqlite_empty (o : IterOrder EventRow) (d : DeviceId) :
    (withSqlite o d SqliteStore.empty).2 =
      { DeviceNode.new d with durable := some SqliteStore.empty } := by
  have hnil : o.run [] = [] := List.eq_nil_of_length_eq_zero (o.perm []).length_eq
  simp [withSqlite, listAll, decodeRows, replayEvents, SqliteStore.empty, hnil]

theorem steady_empty (o : IterOrder EventRow) (d : DeviceId) :
    (withSqlite o d SqliteStore.empty).2.Steady := by
  rw [withSqlite_empty]
  refine ⟨Sound.new d _, ⟨(Sound.new d _).log, ?_, SqliteStore.empty, rfl, rfl, ?_⟩, ?_⟩
  · intro i e hl
    simp [DeviceNode.new] at hl
  · intro i
    simp [SqliteStore.empty, DeviceNode.new]
  · intro room hroom
    exact absurd hroom (AList.notMem_empty room)

theorem Opened.steady [RoundTrips SignedEvent] {node : DeviceNode} (h : Opened node) : node.Steady := by
  induction h with
  | fresh o d => exact steady_empty o d
  | call call _ hrun ih => exact ih.call hrun
  | reopen o d _ hst hrun ih =>
      rcases ih.mirrored.toBacked.reopens hst o d with ⟨node₁, hrun₁, _, _, _, hsound, hmirrored⟩
      rw [hrun] at hrun₁
      cases hrun₁
      exact ⟨hsound, hmirrored⟩

/-- A durable node's database reopens, whatever order the rows come in, to the node's log, DAGs and tips,
with nothing waiting and nothing to send. -/
theorem withSqlite_reopens [RoundTrips SignedEvent] {node : DeviceNode} (h : Opened node) :
    ∃ store, node.durable = some store ∧ ∀ (o : IterOrder EventRow) (d : DeviceId),
      ∃ node', withSqlite o d store = (.ok (), node') ∧ SameHistory node node' ∧ node'.inbox = [] ∧
        node'.outbox = [] := by
  have hsteady := h.steady
  rcases hsteady.mirrored.stored with ⟨store, hst, _⟩
  refine ⟨store, hst, ?_⟩
  intro o d
  rcases hsteady.mirrored.toBacked.reopens hst o d with ⟨node', hrun, hev, hin, hout, hsound, hmirrored⟩
  refine ⟨node', hrun, ?_, hin, hout⟩
  exact sameHistory_of_events hsteady.sound.log hsound.log hsteady.mirrored.occupied hmirrored.occupied hev

end Reopen

/-! ## A run: a reply waits for what it replies to, then the node restarts -/

section Example

open Checksum

attribute [local instance] Checksum.primitives

@[reducible] noncomputable def writtenEvents : Deserialize SignedEvent :=
  Deserialize.ofWritten SignedEvent

attribute [local instance] writtenEvents

/-- The node after `reply`, and then `hello`, came in. -/
def replied : DeviceNode :=
  (({ DeviceNode.new (device 2) with durable := some SqliteStore.empty }.commitRemote reply).2.commitRemote
    hello).2

theorem withSqlite_reopens_replied :
    ∃ store, replied.durable = some store ∧ ∃ node',
      withSqlite IterOrder.stored (device 2) store = (.ok (), node') ∧ SameHistory replied node' ∧
        node'.inbox = [] ∧ node'.outbox = [] := by
  have hrt : RoundTrips SignedEvent := roundTrips_ofWritten SignedEvent.toJson_injective
  have hfresh : Opened { DeviceNode.new (device 2) with durable := some SqliteStore.empty } := by
    rw [← withSqlite_empty IterOrder.stored]
    exact Opened.fresh _ _
  have hrun : ({ DeviceNode.new (device 2) with durable := some SqliteStore.empty }.commitRemote
        reply).1 = .ok false ∧
      (({ DeviceNode.new (device 2) with durable := some SqliteStore.empty }.commitRemote
        reply).2.commitRemote hello).1 = .ok true := by
    decide +kernel
  rcases hrun with ⟨hreply, hhello⟩
  have hopened : Opened replied := (hfresh.commitRemote hreply).commitRemote hhello
  rcases withSqlite_reopens hopened with ⟨store, hst, hreopen⟩
  exact ⟨store, hst, hreopen IterOrder.stored (device 2)⟩

end Example

end DeviceNode
end Node
end Thunderducks
