import Thunderducks.Lib.Causal
import Thunderducks.Node.Sync

/-!
# Coherence — the log and the room DAGs tell the same story

`LogCoherent` ties the node-wide log to the room DAGs: each DAG is well formed and holds exactly the
accepted events of its room, and every accepted event was accepted after its parents.  The file
proves what taking one event (`dagIngest` then `record`) does to a coherent node; the drain and the
commits are built from that step.
-/

namespace Thunderducks
namespace Node
namespace DeviceNode

open Lib Event

/-- The parent order of events, as `Causal` reads it. -/
abbrev Supplied : Set EventId → Set SignedEvent → EventId → Prop :=
  Causal.Supplied SignedEvent.id SignedEvent.parents

/-- The events in the log. -/
def accepted (node : DeviceNode) : Set SignedEvent :=
  {e | node.events.lookup e.id = some e}

/-- The events in the inbox. -/
def parked (node : DeviceNode) : Set SignedEvent :=
  {e | e ∈ node.inbox}

/-- The ids in the log. -/
def logIds (node : DeviceNode) : Set EventId :=
  {i | i ∈ node.events}

/-- No coming write of the durable store fails. -/
def Reliable (node : DeviceNode) : Prop :=
  ∀ store, node.durable = some store → store.Reliable

/-- Every accepted event has its row in the durable store, if there is one. -/
def Persisted (node : DeviceNode) : Prop :=
  ∀ store, node.durable = some store → ∀ i ∈ node.events, i ∈ store.rows

structure LogCoherent (node : DeviceNode) : Prop where
  keyed : ∀ {i e}, node.events.lookup i = some e → e.id = i
  dagWf : ∀ room, (node.dagOf room).WellFormed room
  dagEvents : ∀ {room i e}, (node.dagOf room).events.lookup i = some e ↔
    node.events.lookup i = some e ∧ e.roomId = room
  grounded : ∀ i ∈ node.events, Supplied ∅ node.accepted i

/-! ## The pieces of one step -/

theorem dagOf_insert (node : DeviceNode) (room r : RoomId) (dag : RoomDag) :
    { node with dags := node.dags.insert room dag }.dagOf r =
      if r = room then dag else node.dagOf r := by
  unfold dagOf
  rw [HashMap.lookup_insert_eq]
  by_cases h : r = room <;> simp [h]

theorem parentsOk_iff {node : DeviceNode} {ev : SignedEvent} :
    node.parentsOk ev = true ↔ ∀ p ∈ ev.parents, p ∈ node.events := by
  simp [parentsOk]

namespace LogCoherent

variable {node : DeviceNode}

theorem new (d : DeviceId) : (DeviceNode.new d).LogCoherent := by
  have hdag : ∀ room, (DeviceNode.new d).dagOf room = RoomDag.new room := by
    intro room
    simp [dagOf, DeviceNode.new]
  refine ⟨?_, ?_, ?_, ?_⟩
  · intro i e h
    simp [DeviceNode.new] at h
  · intro room
    rw [hdag]
    exact RoomDag.wellFormed_new room
  · intro room i e
    rw [hdag]
    simp [RoomDag.new, DeviceNode.new]
  · intro i h
    exact absurd h (AList.notMem_empty i)

/-- Coherence reads only the log and the DAGs. -/
theorem congr {node' : DeviceNode} (h : node.LogCoherent) (he : node'.events = node.events)
    (hd : ∀ room, node'.dagOf room = node.dagOf room) : node'.LogCoherent := by
  refine ⟨?_, ?_, ?_, ?_⟩
  · intro i e hl
    exact h.keyed (he ▸ hl)
  · intro room
    rw [hd]
    exact h.dagWf room
  · intro room i e
    rw [hd, he]
    exact h.dagEvents
  · intro i hi
    have hacc : node'.accepted = node.accepted := by
      simp [accepted, he]
    rw [hacc]
    exact h.grounded i (he ▸ hi)

theorem mem_events (h : node.LogCoherent) {i : EventId} :
    i ∈ node.events ↔ ∃ e ∈ node.accepted, e.id = i := by
  constructor
  · intro hi
    rcases HashMap.mem_iff_lookup.1 hi with ⟨e, he⟩
    have hid : e.id = i := h.keyed he
    subst hid
    exact ⟨e, he, rfl⟩
  · rintro ⟨e, he, rfl⟩
    exact HashMap.mem_of_lookup he

/-- The values of the log are the accepted events. -/
theorem mem_values (h : node.LogCoherent) {e : SignedEvent} :
    e ∈ node.events.values ↔ e ∈ node.accepted := by
  rw [HashMap.mem_values]
  constructor
  · rintro ⟨k, hk⟩
    have hid : e.id = k := h.keyed hk
    subst hid
    exact hk
  · intro he
    exact ⟨e.id, he⟩

/-- A parent in the log is in the DAG of its child's room exactly when it is of that room. -/
theorem mem_dagOf (h : node.LogCoherent) {room : RoomId} {p : EventId} :
    p ∈ (node.dagOf room).events ↔ ∃ z, node.events.lookup p = some z ∧ z.roomId = room := by
  constructor
  · intro hp
    rcases HashMap.mem_iff_lookup.1 hp with ⟨z, hz⟩
    exact ⟨z, h.dagEvents.1 hz⟩
  · rintro ⟨z, hz⟩
    exact HashMap.mem_of_lookup (h.dagEvents.2 hz)

/-- The parents of an accepted event are accepted, in its own room. -/
theorem parent_accepted (h : node.LogCoherent) {i p : EventId} {e : SignedEvent}
    (he : node.events.lookup i = some e) (hp : p ∈ e.parents) :
    ∃ z, node.events.lookup p = some z ∧ z.roomId = e.roomId := by
  have hdag : (node.dagOf e.roomId).events.lookup i = some e := h.dagEvents.2 ⟨he, rfl⟩
  have hmem : p ∈ (node.dagOf e.roomId).events := (h.dagWf e.roomId).closed hdag p hp
  exact h.mem_dagOf.1 hmem

theorem tips_eq (node : DeviceNode) (room : RoomId) : node.tips room = (node.dagOf room).tips := by
  unfold tips dagOf
  cases node.dags.lookup room with
  | none => rfl
  | some dag => rfl

/-- The tips of a room are its accepted events that no accepted event of the room names. -/
theorem mem_tips (h : node.LogCoherent) {room : RoomId} {i : EventId} :
    i ∈ node.tips room ↔ (∃ e, node.events.lookup i = some e ∧ e.roomId = room) ∧
      ∀ {c e}, node.events.lookup c = some e → e.roomId = room → i ∉ e.parents := by
  rw [tips_eq, (h.dagWf room).tips_iff, h.mem_dagOf]
  refine and_congr_right ?_
  intro _
  constructor
  · intro hno c e hl hr
    exact hno (h.dagEvents.2 ⟨hl, hr⟩)
  · intro hno c e hl
    rcases h.dagEvents.1 hl with ⟨hl', hr⟩
    exact hno hl' hr

end LogCoherent

/-! ## Taking one event -/

/-- The node with `ev` in its room's DAG and in the log. -/
def take (node : DeviceNode) (ev : SignedEvent) : DeviceNode :=
  { node with
    dags := node.dags.insert ev.roomId ((node.dagOf ev.roomId).inserted ev)
    events := node.events.insert ev.id ev }

/-- Every parent that is in the log is of the event's own room. -/
def SameRoom (node : DeviceNode) (ev : SignedEvent) : Prop :=
  ∀ p ∈ ev.parents, ∀ z, node.events.lookup p = some z → z.roomId = ev.roomId

section Take

variable {node : DeviceNode} {ev : SignedEvent}

theorem dagOf_take (node : DeviceNode) (ev : SignedEvent) (room : RoomId) :
    (node.take ev).dagOf room =
      if room = ev.roomId then (node.dagOf ev.roomId).inserted ev else node.dagOf room :=
  dagOf_insert node ev.roomId room _

theorem lookup_take {i : EventId} :
    (node.take ev).events.lookup i = if i = ev.id then some ev else node.events.lookup i :=
  HashMap.lookup_insert_eq

theorem mem_take {i : EventId} : i ∈ (node.take ev).events ↔ i = ev.id ∨ i ∈ node.events :=
  AList.mem_insert _

/-- The parents of `ev` are all in the DAG of its room. -/
theorem LogCoherent.parents_in_dag (h : node.LogCoherent)
    (hp : ∀ p ∈ ev.parents, p ∈ node.events) (hroom : node.SameRoom ev) :
    ∀ p ∈ ev.parents, p ∈ (node.dagOf ev.roomId).events := by
  intro p hpe
  rcases HashMap.mem_iff_lookup.1 (hp p hpe) with ⟨z, hz⟩
  exact h.mem_dagOf.2 ⟨z, hz, hroom p hpe z hz⟩

theorem LogCoherent.new_in_dag (h : node.LogCoherent) (hnew : ev.id ∉ node.events) :
    ev.id ∉ (node.dagOf ev.roomId).events := by
  intro hmem
  rcases h.mem_dagOf.1 hmem with ⟨z, hz, _⟩
  exact hnew (HashMap.mem_of_lookup hz)

/-- Taking an event whose parents are in the log and of its room keeps the node coherent. -/
theorem LogCoherent.take (h : node.LogCoherent) (hnew : ev.id ∉ node.events)
    (hp : ∀ p ∈ ev.parents, p ∈ node.events) (hroom : node.SameRoom ev) :
    (node.take ev).LogCoherent := by
  have hsub : node.accepted ⊆ (node.take ev).accepted := by
    intro e he
    have hne : e.id ≠ ev.id := by
      intro hid
      exact hnew (hid ▸ HashMap.mem_of_lookup he)
    have hl : node.events.lookup e.id = some e := he
    simp [accepted, lookup_take, hne, hl]
  have hold : ∀ i ∈ node.events, Supplied ∅ (node.take ev).accepted i := fun i hi =>
    (h.grounded i hi).mono (Set.Subset.refl _) hsub
  refine ⟨?_, ?_, ?_, ?_⟩
  · intro i e hl
    rw [lookup_take] at hl
    split at hl
    · cases hl
      exact Eq.symm ‹_›
    · exact h.keyed hl
  · intro room
    rw [dagOf_take]
    split
    · next hEq =>
        rw [hEq]
        exact (h.dagWf ev.roomId).inserted rfl (h.new_in_dag hnew) (h.parents_in_dag hp hroom)
    · exact h.dagWf room
  · intro room i e
    rw [dagOf_take, lookup_take]
    by_cases hi : i = ev.id
    · subst hi
      have hnone : node.events.lookup ev.id = none := AList.lookup_eq_none.2 hnew
      -- no DAG has the new id yet, so that only the event's own room gets it
      have hdag : (node.dagOf room).events.lookup ev.id ≠ some e := by
        intro hl
        rw [h.dagEvents, hnone] at hl
        exact absurd hl.1 (by simp)
      by_cases hr : room = ev.roomId
      · subst hr
        simp only [if_true, RoomDag.events_inserted, AList.lookup_insert, Option.some.injEq]
        exact ⟨fun hEq => ⟨hEq, by rw [← hEq]⟩, fun hEq => hEq.1⟩
      · simp only [if_true, if_neg hr, Option.some.injEq]
        constructor
        · intro hl
          exact absurd hl hdag
        · rintro ⟨rfl, hEq⟩
          exact absurd hEq.symm hr
    · rw [if_neg hi]
      by_cases hr : room = ev.roomId
      · subst hr
        rw [if_pos rfl, RoomDag.events_inserted, AList.lookup_insert_ne hi]
        exact h.dagEvents
      · rw [if_neg hr]
        exact h.dagEvents
  · intro i hi
    rcases mem_take.1 hi with rfl | hi
    -- its parents are grounded, so it is
    · refine Causal.Supplied.item ?_ (fun p hpe => hold p (hp p hpe))
      simp [accepted, lookup_take]
    · exact hold i hi

end Take

/-! ## The source's step: DAG first, then log and durable store -/

section Step

variable [Primitives] {node : DeviceNode} {ev : SignedEvent}

/-- What the accepting path leaves behind: `take`, up to the durable store and the outbox. -/
structure Took (node : DeviceNode) (ev : SignedEvent) (node' : DeviceNode) : Prop where
  events : node'.events = (node.take ev).events
  dags : node'.dags = (node.take ev).dags
  inbox : node'.inbox = node.inbox
  reliable : node.Reliable → node'.Reliable
  persisted : node.Reliable → node.Persisted → node'.Persisted

/-- What the refusing path leaves behind: nothing new but perhaps an empty DAG. -/
structure Untouched (node node' : DeviceNode) : Prop where
  events : node'.events = node.events
  dagOf : ∀ room, node'.dagOf room = node.dagOf room
  inbox : node'.inbox = node.inbox
  durable : node'.durable = node.durable

theorem dagIngest_sameRoom (h : node.LogCoherent) (hv : Verified ev)
    (hnew : ev.id ∉ node.events) (hp : ∀ p ∈ ev.parents, p ∈ node.events)
    (hroom : node.SameRoom ev) :
    node.dagIngest ev = (.ok true, { node with
      dags := node.dags.insert ev.roomId ((node.dagOf ev.roomId).inserted ev) }) := by
  have hing := RoomDag.ingest_new hv (h.dagWf ev.roomId).ofRoom (h.new_in_dag hnew)
    (h.parents_in_dag hp hroom)
  simp [dagIngest, hing]

theorem dagIngest_otherRoom (h : node.LogCoherent) (hv : Verified ev)
    (hnew : ev.id ∉ node.events) (hroom : ¬ node.SameRoom ev) :
    ∃ q node', node.dagIngest ev = (.error (.missingParent q), node') ∧
      node.Untouched node' := by
  unfold SameRoom at hroom
  push Not at hroom
  rcases hroom with ⟨p, hp, z, hz, hne⟩
  have hno : p ∉ (node.dagOf ev.roomId).events := by
    intro hmem
    rcases h.mem_dagOf.1 hmem with ⟨z', hz', hr⟩
    rw [hz] at hz'
    cases hz'
    exact hne hr
  rcases RoomDag.ingest_missing hv (h.dagWf ev.roomId).ofRoom (h.new_in_dag hnew) hp hno with
    ⟨q, _, _, hing⟩
  refine ⟨q, { node with dags := node.dags.insert ev.roomId (node.dagOf ev.roomId) }, ?_, ?_⟩
  · simp [dagIngest, hing]
  · refine ⟨rfl, ?_, rfl, rfl⟩
    intro room
    rw [dagOf_insert]
    split
    · next hEq => rw [hEq]
    · rfl

/-- Recording writes the log and touches nothing else but the durable store. -/
theorem record_frame (node : DeviceNode) (ev : SignedEvent) :
    ∃ store, (node.record ev).2 =
      { node with events := node.events.insert ev.id ev, durable := store } := by
  unfold record
  cases hd : node.durable with
  | none => exact ⟨none, by simp⟩
  | some store =>
      dsimp only
      split
      · exact ⟨_, rfl⟩
      · exact ⟨_, rfl⟩

theorem record_inbox (node : DeviceNode) (ev : SignedEvent) : (node.record ev).2.inbox = node.inbox := by
  rcases record_frame node ev with ⟨store, heq⟩
  rw [heq]

/-- With no write failing, recording succeeds, and the new row is there. -/
theorem record_reliable (node : DeviceNode) (hv : Verified ev) (hr : node.Reliable) :
    (node.record ev).1 = .ok () ∧ (node.record ev).2.Reliable ∧
      (node.Persisted → (node.record ev).2.Persisted) := by
  unfold record
  cases hd : node.durable with
  | none => simp [Reliable, Persisted, hd]
  | some store =>
      have hstore : store.Reliable := hr store hd
      rcases SqliteStore.put_reliable hv hstore with ⟨⟨b, hb⟩, hrel, hrow⟩
      cases hput : store.put ev with
      | mk res store' =>
          rw [hput] at hb hrel hrow
          simp only at hb hrel hrow
          subst hb
          simp only [hput, true_and]
          refine ⟨?_, ?_⟩
          · intro store₁ h₁
            cases h₁
            exact hrel
          · intro hpers store₁ h₁ i hi
            cases h₁
            rcases (AList.mem_insert _).1 hi with rfl | hi
            · exact hrow
            · have hold : i ∈ (store.put ev).2.rows :=
                SqliteStore.put_rows store ev (hpers store hd i hi)
              simpa [hput] using hold

/-- The two ways an event whose parents are in the log goes: taken, or refused because a parent is
of another room. -/
theorem step_cases (h : node.LogCoherent) (hv : Verified ev) (hnew : ev.id ∉ node.events)
    (hp : ∀ p ∈ ev.parents, p ∈ node.events) :
    (node.SameRoom ev ∧ ∃ node₁, node.dagIngest ev = (.ok true, node₁) ∧
      node.Took ev (node₁.record ev).2 ∧ (node.Reliable → (node₁.record ev).1 = .ok ())) ∨
    (¬ node.SameRoom ev ∧ ∃ q node₁, node.dagIngest ev = (.error (.missingParent q), node₁) ∧
      node.Untouched node₁) := by
  by_cases hroom : node.SameRoom ev
  · have hing := dagIngest_sameRoom h hv hnew hp hroom
    have hrec := record_reliable { node with
      dags := node.dags.insert ev.roomId ((node.dagOf ev.roomId).inserted ev) } hv
    rcases record_frame { node with
      dags := node.dags.insert ev.roomId ((node.dagOf ev.roomId).inserted ev) } ev with
      ⟨store, hframe⟩
    refine Or.inl ⟨hroom, _, hing, ⟨?_, ?_, ?_, ?_, ?_⟩, ?_⟩
    · rw [hframe]
      rfl
    · rw [hframe]
      rfl
    · rw [hframe]
    · intro hr
      exact (hrec hr).2.1
    · intro hr hpers
      exact (hrec hr).2.2 hpers
    · intro hr
      exact (hrec hr).1
  · exact Or.inr ⟨hroom, dagIngest_otherRoom h hv hnew hroom⟩

end Step

end DeviceNode
end Node
end Thunderducks
