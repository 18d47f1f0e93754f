import Thunderducks.Node.Delivery

/-!
# Loss — which commits drop a parked event

`ingest_event` and `drain_inbox` look for parents in the node-wide log, `RoomDag::ingest` in the DAG
of the room.  A parked event that names a parent of another room is therefore popped once all its
parents are in the log, refused by the DAG, and, as the error leaves the drain, put back nowhere.
`DrainStaysInRoom` says of a node that its drain meets no such event.
-/

namespace Thunderducks
namespace Node
namespace DeviceNode

open Lib Event

/-- The event with id `p` that a drain of `node` finds: the one in the log, else a parked one. -/
def Finds (node : DeviceNode) (p : EventId) (z : SignedEvent) : Prop :=
  node.events.lookup p = some z ∨ (p ∉ node.events ∧ z ∈ node.inbox ∧ z.id = p)

/-- Every parked event that the inbox can supply, from the log of `node` on, has all its parents in
its own room. -/
def DrainStaysInRoom (node : DeviceNode) : Prop :=
  ∀ x ∈ node.inbox, x.id ∉ node.events →
    (∀ p ∈ x.parents, Supplied node.logIds node.parked p) →
    ∀ p ∈ x.parents, ∀ z, node.Finds p z → z.roomId = x.roomId

/-- The log after a drain that came to its end is what the inbox supplies. -/
theorem Drained.mem_events {node node' : DeviceNode} (h : Drained node node') {i : EventId} :
    i ∈ node'.events ↔ Supplied node.logIds node.parked i :=
  h.grew.mem_events h.settled h.cover

theorem Drained.staysInRoom [Primitives] {node node' : DeviceNode} (hs : node.Sound)
    (h : Drained node node') : node.DrainStaysInRoom := by
  intro x hx hnew hsup p hp z hz
  have hlog' : node'.LogCoherent := h.grew.coherent
  have hxlog : x.id ∈ node'.events :=
    h.mem_events.2 (Causal.Supplied.item hx hsup)
  rcases HashMap.mem_iff_lookup.1 hxlog with ⟨e, he⟩
  have hEq : e = x := by
    rcases h.grew.fresh he with hold | ⟨_, hpool⟩
    · exact absurd (HashMap.mem_of_lookup hold) hnew
    · exact hs.parked_ext hpool hx (hlog'.keyed he)
  subst hEq
  rcases hlog'.parent_accepted he hp with ⟨z', hz', hroom⟩
  have hzz : z = z' := by
    rcases hz with hlog | ⟨hno, hin, hid⟩
    · have hkeep := h.grew.keeps hlog
      rw [hz'] at hkeep
      exact (Option.some.inj hkeep).symm
    · rcases h.grew.fresh hz' with hold | ⟨_, hpool⟩
      · exact absurd (HashMap.mem_of_lookup hold) hno
      · exact hs.parked_ext hin hpool (hid.trans (hlog'.keyed hz').symm)
  rw [hzz]
  exact hroom

/-- A drain that loses an event crossed a room. -/
theorem Broken.not_staysInRoom {node node' : DeviceNode} {x : SignedEvent}
    (h : Broken node.inbox node node') (hx : x ∈ node.inbox) (hlost : node'.Lost x) :
    ¬ node.DrainStaysInRoom := by
  intro hstay
  refine hlost.otherRoom ?_
  intro p hp z hz
  have hnew : x.id ∉ node.events := fun hmem => hlost.unlogged (h.grew.mem hmem)
  have hsup : ∀ q ∈ x.parents, Supplied node.logIds node.parked q :=
    fun q hq => h.grew.supplied q (hlost.parents q hq)
  have hfind : node.Finds p z := by
    rcases h.grew.fresh hz with hold | ⟨hno, hpool⟩
    · exact Or.inl hold
    · exact Or.inr ⟨hno, hpool, h.grew.coherent.keyed hz⟩
  exact hstay x hx hnew hsup p hp z hfind

section Calls

variable [Primitives]

/-- The call takes `ev` into the log, and so drains the inbox. -/
def Takes (node : DeviceNode) (ev : SignedEvent) : Prop :=
  Verified ev ∧ ev.id ∉ node.events ∧ (∀ p ∈ ev.parents, p ∈ node.events) ∧ node.SameRoom ev

omit [Primitives] in
theorem staysInRoom_congr {node node' : DeviceNode} (he : node'.events = node.events)
    (hi : node'.inbox = node.inbox) : node'.DrainStaysInRoom ↔ node.DrainStaysInRoom := by
  unfold DrainStaysInRoom Finds logIds parked
  rw [he, hi]

end Calls

/-! ## A parked event of another room is lost -/

section Example

open Checksum

attribute [local instance] Checksum.primitives

/-- An event of room 2 that names the event `hello` of room 1 as its parent. -/
def stray : SignedEvent :=
  event 1 (room 2) [hello.id] .message [106] 3

/-- A node that waits for the parent of `stray`. -/
def waiting : DeviceNode :=
  { DeviceNode.new (device 2) with inbox := [stray] }

end Example

end DeviceNode
end Node
end Thunderducks
