import Thunderducks.Lib.Gossip
import Thunderducks.Node.Converge

/-!
# Gossip — many nodes that converge in pairs (`converge_with` in `td-node/src/sync.rs`)

Nodes meet two at a time, in any order, and each meeting is one `converge_with`.  Events may wait in inboxes all
over the network for parents that are elsewhere.  `gossip_converges` says that all nodes end with one log and one
set of tips, as soon as the pairs that meet again and again connect them; no meeting fails, and nothing that was
accepted is lost.
-/

namespace Thunderducks
namespace Node

open Lib Event

/-- Two nodes meet; each lists its log in some order. -/
structure Meeting (ι : Type) where
  first : ι
  second : ι
  ordered : IterOrder SignedEvent × IterOrder SignedEvent

section Nodes

variable [Primitives] {ι : Type} [DecidableEq ι]

namespace Meeting

/-- One call of `converge_with`. -/
def converge (room : RoomId) (m : Meeting ι) (nodes : ι → DeviceNode) : Except SyncError Unit × (ι → DeviceNode) :=
  let (res, a, b) := DeviceNode.convergeWith m.ordered.1 m.ordered.2 (nodes m.first) (nodes m.second) room
  (res, Function.update (Function.update nodes m.first a) m.second b)

/-- The nodes after the first `t` meetings. -/
def after (room : RoomId) (meetings : Nat → Meeting ι) (nodes : ι → DeviceNode) : Nat → ι → DeviceNode
  | 0 => nodes
  | t + 1 => ((meetings t).converge room (after room meetings nodes t)).2

/-- Who meets at each time. -/
def pairs (meetings : Nat → Meeting ι) (t : Nat) : ι × ι :=
  ((meetings t).first, (meetings t).second)

/-! ## One meeting -/

variable {room : RoomId} {evs : Set SignedEvent} {nodes : ι → DeviceNode}

/-- Both have what either had, and nobody else is concerned. -/
structure Met (evs : Set SignedEvent) (m : Meeting ι) (nodes nodes' : ι → DeviceNode) : Prop where
  party : ∀ i, DeviceNode.Party evs (nodes' i)
  keeps : ∀ i, (nodes i).logIds ⊆ (nodes' i).logIds
  first : (nodes m.second).logIds ⊆ (nodes' m.first).logIds
  second : (nodes m.first).logIds ⊆ (nodes' m.second).logIds

theorem converge_met (hx : DeviceNode.Exchange room evs) (hparty : ∀ i, DeviceNode.Party evs (nodes i))
    {m : Meeting ι} (hother : m.first ≠ m.second) :
    (m.converge room nodes).1 = .ok () ∧ Met evs m nodes (m.converge room nodes).2 := by
  rcases DeviceNode.convergeWith_step hx (hparty m.first) (hparty m.second) m.ordered.1 m.ordered.2 with
    ⟨a, b, heq, ha, hb, hcover, _⟩
  have hrun : m.converge room nodes =
      (.ok (), Function.update (Function.update nodes m.first a) m.second b) := by
    simp only [converge, heq]
  have hfirst : Function.update (Function.update nodes m.first a) m.second b m.first = a := by
    rw [Function.update_of_ne hother, Function.update_self]
  have hsecond : Function.update (Function.update nodes m.first a) m.second b m.second = b :=
    Function.update_self _ _ _
  have hrest : ∀ i, i ≠ m.first → i ≠ m.second →
      Function.update (Function.update nodes m.first a) m.second b i = nodes i := by
    intro i hi hi'
    rw [Function.update_of_ne hi', Function.update_of_ne hi]
  rw [hrun]
  refine ⟨rfl, ?_, ?_, ?_, ?_⟩
  · intro i
    dsimp only
    by_cases hi' : i = m.second
    · rw [hi', hsecond]
      exact hb
    by_cases hi : i = m.first
    · rw [hi, hfirst]
      exact ha
    · rw [hrest i hi hi']
      exact hparty i
  · intro i x hx
    dsimp only
    by_cases hi' : i = m.second
    · rw [hi', hsecond]
      exact (hcover x (Or.inr (hi' ▸ hx))).2
    by_cases hi : i = m.first
    · rw [hi, hfirst]
      exact (hcover x (Or.inl (hi ▸ hx))).1
    · rw [hrest i hi hi']
      exact hx
  · intro x hx
    dsimp only
    rw [hfirst]
    exact (hcover x (Or.inr hx)).1
  · intro x hx
    dsimp only
    rw [hsecond]
    exact (hcover x (Or.inl hx)).2

/-! ## All meetings -/

theorem after_party (hx : DeviceNode.Exchange room evs) (hparty : ∀ i, DeviceNode.Party evs (nodes i))
    {meetings : Nat → Meeting ι} (hothers : ∀ t, (meetings t).first ≠ (meetings t).second) (t : Nat) :
    ∀ i, DeviceNode.Party evs (after room meetings nodes t i) := by
  induction t with
  | zero => exact hparty
  | succ t ih => exact (converge_met hx ih (hothers t)).2.party

omit [Primitives] [DecidableEq ι] in
/-- All that the nodes hold is only so much. -/
theorem held_finite [Finite ι] (nodes : ι → DeviceNode) : (⋃ i, (nodes i).held).Finite := by
  refine Set.finite_iUnion fun i => ?_
  refine Set.Finite.union ?_ (List.finite_toSet (nodes i).inbox)
  refine (List.finite_toSet (nodes i).events.values).subset ?_
  intro e he
  exact HashMap.mem_values.2 ⟨e.id, he⟩

theorem after_gossip [Finite ι] (hx : DeviceNode.Exchange room evs) (hfinite : evs.Finite)
    (hparty : ∀ i, DeviceNode.Party evs (nodes i)) {meetings : Nat → Meeting ι}
    (hothers : ∀ t, (meetings t).first ≠ (meetings t).second) :
    Gossip (fun t i => (after room meetings nodes t i).logIds) (pairs meetings) := by
  have hmet := fun t => (converge_met hx (after_party hx hparty hothers t) (hothers t)).2
  refine ⟨fun t => (hmet t).keeps, fun t => (hmet t).first, fun t => (hmet t).second, ?_⟩
  refine ⟨SignedEvent.id '' evs, hfinite.image _, ?_⟩
  intro t i x hx'
  rcases HashMap.mem_iff_lookup.1 hx' with ⟨e, he⟩
  have hp := after_party hx hparty hothers t i
  have hid : e.id = x := hp.sound.log.keyed he
  subst hid
  exact ⟨e, hp.held (Or.inl he), rfl⟩

end Meeting

/-- However finitely many nodes came by the verified events of a room, and whoever meets whom in whatever order: no
meeting fails, and no node ever loses what it had accepted.  If the pairs that meet again and again connect the
nodes, from some time on all of them have the same log and the same tips, and what one of them had accepted by then
all of them have. -/
theorem gossip_converges [Finite ι] {room : RoomId} {evs : Set SignedEvent} (hx : DeviceNode.Exchange room evs)
    (nodes : ι → DeviceNode) (hreached : ∀ i, DeviceNode.ReachedBy evs (nodes i)) (meetings : Nat → Meeting ι)
    (hothers : ∀ t, (meetings t).first ≠ (meetings t).second) :
    (∀ t, ((meetings t).converge room (Meeting.after room meetings nodes t)).1 = .ok ()) ∧
    (∀ u t, u ≤ t → ∀ i x, x ∈ (Meeting.after room meetings nodes u i).roomEventIds room →
      x ∈ (Meeting.after room meetings nodes t i).roomEventIds room) ∧
    (Gossip.Connected (Meeting.pairs meetings) → ∃ T, ∀ t, T ≤ t → ∀ i j,
      (∀ x, x ∈ (Meeting.after room meetings nodes t i).roomEventIds room ↔
        x ∈ (Meeting.after room meetings nodes t j).roomEventIds room) ∧
      (∀ x, x ∈ (Meeting.after room meetings nodes t i).tips room ↔
        x ∈ (Meeting.after room meetings nodes t j).tips room) ∧
      ∀ u, u ≤ t → ∀ x, x ∈ (Meeting.after room meetings nodes u i).roomEventIds room →
        x ∈ (Meeting.after room meetings nodes t j).roomEventIds room) := by
  -- all the events there are: what the nodes hold at first
  let all : Set SignedEvent := ⋃ i, (nodes i).held
  have hall : all ⊆ evs := Set.iUnion_subset fun i => ((hreached i).party hx).held
  have hx' : DeviceNode.Exchange room all :=
    ⟨fun e he => hx.verified e (hall he), fun e he => hx.inRoom e (hall he),
      fun e he e' he' => hx.ids e (hall he) e' (hall he')⟩
  have hparty : ∀ i, DeviceNode.Party all (nodes i) := fun i =>
    { (hreached i).party hx with held := Set.subset_iUnion (fun i => (nodes i).held) i }
  have hlater := Meeting.after_party hx' hparty hothers
  have hgossip := Meeting.after_gossip hx' (Meeting.held_finite nodes) hparty hothers
  have hkeeps : ∀ u t, u ≤ t → ∀ i x, x ∈ (Meeting.after room meetings nodes u i).roomEventIds room →
      x ∈ (Meeting.after room meetings nodes t i).roomEventIds room := by
    intro u t hut i x hmem
    rw [(hlater u i).mem_roomEventIds hx'] at hmem
    rw [(hlater t i).mem_roomEventIds hx']
    exact hgossip.mono hut i hmem
  refine ⟨fun t => (Meeting.converge_met hx' (hlater t) (hothers t)).1, hkeeps, ?_⟩
  intro hconn
  rcases hgossip.eventually hconn with ⟨T, hT⟩
  refine ⟨T, fun t ht i j => ?_⟩
  have hsame : DeviceNode.SameLog (Meeting.after room meetings nodes t i) (Meeting.after room meetings nodes t j) :=
    fun x => Set.ext_iff.1 (hT t ht i j) x
  have hids : ∀ x, x ∈ (Meeting.after room meetings nodes t i).roomEventIds room ↔
      x ∈ (Meeting.after room meetings nodes t j).roomEventIds room := by
    intro x
    rw [(hlater t i).mem_roomEventIds hx', (hlater t j).mem_roomEventIds hx']
    exact hsame x
  refine ⟨hids, ?_, fun u hut x hmem => (hids x).1 (hkeeps u t hut i x hmem)⟩
  intro x
  exact ⟨(hlater t i).tips_same hx' (hlater t j) hsame,
    (hlater t j).tips_same hx' (hlater t i) fun y => (hsame y).symm⟩

end Nodes

/-! ## Three nodes in a line -/

section Example

open Checksum DeviceNode

attribute [local instance] Checksum.primitives

/-- The first has `hello`, the last waits for it to take `reply`. -/
def lineNodes : Fin 3 → DeviceNode
  | 0 => ((DeviceNode.new (device 1)).commit hello true).2
  | 1 => DeviceNode.new (device 2)
  | 2 => ((DeviceNode.new (device 3)).commit reply false).2

/-- The one in the middle meets the others in turn. -/
def lineMeetings (t : Nat) : Meeting (Fin 3) :=
  { first := 1
    second := if t % 2 = 0 then 0 else 2
    ordered := (IterOrder.stored, IterOrder.stored) }

theorem lineMeetings_connected : Gossip.Connected (Meeting.pairs lineMeetings) := by
  have hfirst : Gossip.InTouch (Meeting.pairs lineMeetings) 1 0 := by
    intro t
    refine ⟨2 * t, Nat.le_mul_of_pos_left t (by decide), Or.inl ?_⟩
    simp [Meeting.pairs, lineMeetings]
  have hlast : Gossip.InTouch (Meeting.pairs lineMeetings) 1 2 := by
    intro t
    refine ⟨2 * t + 1, by omega, Or.inl ?_⟩
    simp [Meeting.pairs, lineMeetings]
  have hsymm : ∀ {i j}, Gossip.InTouch (Meeting.pairs lineMeetings) i j →
      Gossip.InTouch (Meeting.pairs lineMeetings) j i := by
    intro i j h t
    rcases h t with ⟨u, hu, hmeet⟩
    exact ⟨u, hu, hmeet.symm⟩
  -- everybody is in touch with the one in the middle
  have hmid : ∀ i, Relation.ReflTransGen (Gossip.InTouch (Meeting.pairs lineMeetings)) i 1 ∧
      Relation.ReflTransGen (Gossip.InTouch (Meeting.pairs lineMeetings)) 1 i := by
    intro i
    match i with
    | 0 => exact ⟨Relation.ReflTransGen.single (hsymm hfirst), Relation.ReflTransGen.single hfirst⟩
    | 1 => exact ⟨Relation.ReflTransGen.refl, Relation.ReflTransGen.refl⟩
    | 2 => exact ⟨Relation.ReflTransGen.single (hsymm hlast), Relation.ReflTransGen.single hlast⟩
  intro i j
  exact (hmid i).1.trans (hmid j).2

/-- At last the node that waited has what it waited for. -/
theorem gossip_converges_line :
    ∃ T, ∀ t, T ≤ t → hello.id ∈ (Meeting.after (room 1) lineMeetings lineNodes t 2).roomEventIds (room 1) := by
  have hmem : ∀ e ∈ ({hello, reply} : Set SignedEvent), e = hello ∨ e = reply := by
    simp
  have hexch : DeviceNode.Exchange (room 1) {hello, reply} := by
    refine ⟨?_, ?_, ?_⟩
    · intro e he
      rcases hmem e he with rfl | rfl
      · exact event_verified _ _ _ _ _ _
      · exact event_verified _ _ _ _ _ _
    · intro e he
      rcases hmem e he with rfl | rfl <;> rfl
    · intro e he e' he' hid
      rcases hmem e he with rfl | rfl <;> rcases hmem e' he' with rfl | rfl
      · rfl
      · exact absurd hid.symm reply_ne_hello
      · exact absurd hid reply_ne_hello
      · rfl
  have hreached : ∀ i, DeviceNode.ReachedBy {hello, reply} (lineNodes i) := by
    intro i
    match i with
    | 0 => exact DeviceNode.ReachedBy.commit true (DeviceNode.ReachedBy.new _) (by simp)
    | 1 => exact DeviceNode.ReachedBy.new _
    | 2 => exact DeviceNode.ReachedBy.commit false (DeviceNode.ReachedBy.new _) (by simp)
  have hothers : ∀ t, (lineMeetings t).first ≠ (lineMeetings t).second := by
    intro t
    unfold lineMeetings
    dsimp only
    split
    · decide
    · decide
  rcases (gossip_converges hexch lineNodes hreached lineMeetings hothers).2.2 lineMeetings_connected with ⟨T, hT⟩
  refine ⟨T, fun t ht => (hT t ht 0 2).2.2 0 (Nat.zero_le t) hello.id ?_⟩
  decide +kernel

end Example

end Node
end Thunderducks
