import Thunderducks.Node.Converge
import Thunderducks.Node.Failed
import Thunderducks.Node.Restart

/-!
# Listing — the lists of a room (`list_events`, `list_messages`, `missing_for_peer` in `td-node/src/sync.rs`)

The three lists select events of the log and sort them by parent count and time.  Each has every selected
event once.  The key says nothing about ancestors, so a list comes out in causal order, whatever order the
log was listed in, exactly when the key happens to grow from every selected event to its selected
descendants: `lists_causal_iff`.
-/

namespace Thunderducks
namespace Node

open Lib Event Extension

namespace DeviceNode

/-- Room messages in causal-ish order (parent count, then ts). -/
def listMessages (o : IterOrder SignedEvent) (node : DeviceNode) (room : RoomId) : List SignedEvent :=
  ((o.run node.events.values).filter fun e => e.roomId = room ∧ e.kind = .message).insertionSort causalLe

/-! ## What a list of the log has to be -/

/-- `a` is an ancestor of `e` in the log. -/
def Precedes (node : DeviceNode) (a e : SignedEvent) : Prop :=
  Causal.Ancestor SignedEvent.id SignedEvent.parents node.accepted e.id a.id

/-- Whatever order the log is listed in, the list has each accepted event with `p` once, and none before an
ancestor of it. -/
structure CausalListing (node : DeviceNode) (p : SignedEvent → Prop)
    (list : IterOrder SignedEvent → List SignedEvent) : Prop where
  mem : ∀ o e, e ∈ list o ↔ e ∈ node.accepted ∧ p e
  nodup : ∀ o, (list o).Nodup
  causal : ∀ o, Respects node.Precedes (list o)

/-- The key of the sort grows from an event with `p` to its descendants with `p`. -/
def KeyFollows (node : DeviceNode) (p : SignedEvent → Prop) : Prop :=
  ∀ a ∈ node.accepted, ∀ e ∈ node.accepted, p a → p e → node.Precedes a e → ListedBefore a e

section Lists

variable [Primitives] {node : DeviceNode} {p : SignedEvent → Bool}

omit [Primitives] in
theorem values_nodup (h : node.LogCoherent) : node.events.values.Nodup :=
  HashMap.values_nodup h.keyed

omit [Primitives] in
/-- No event of the log is an ancestor of itself. -/
theorem not_precedes_self (h : node.LogCoherent) {e : SignedEvent} (he : e ∈ node.accepted) :
    ¬ node.Precedes e e := by
  have hinj : Set.InjOn SignedEvent.id node.accepted := by
    intro x hx y hy hid
    have hx' : node.events.lookup x.id = some x := hx
    have hy' : node.events.lookup y.id = some y := hy
    rw [hid, hy'] at hx'
    exact (Option.some.inj hx').symm
  exact (h.grounded e.id (HashMap.mem_of_lookup he)).not_ancestor_self hinj

omit [Primitives] in
/-- A sorted selection of the log lists what it selects, and does so causally exactly when the key follows
the ancestry. -/
theorem causalListing_iff (h : node.LogCoherent) (p : SignedEvent → Prop) [DecidablePred p] :
    CausalListing node p (fun o => ((o.run node.events.values).filter fun e => p e).insertionSort causalLe) ↔
      node.KeyFollows p := by
  have hirr : ∀ x ∈ node.events.values, decide (p x) = true → ¬ node.Precedes x x :=
    fun x hx _ => not_precedes_self h (h.mem_values.1 hx)
  have hsorted : (∀ l : List SignedEvent, l.Perm node.events.values →
      Respects node.Precedes ((l.filter fun e => p e).insertionSort causalLe)) ↔
      ∀ x ∈ node.events.values, ∀ y ∈ node.events.values, decide (p x) = true → decide (p y) = true →
        node.Precedes x y → ¬ causalLe y x :=
    sorted_respects_iff (fun e => p e) hirr
  have hmem : ∀ (o : IterOrder SignedEvent) (e : SignedEvent),
      e ∈ ((o.run node.events.values).filter fun e => p e).insertionSort causalLe ↔
        e ∈ node.accepted ∧ p e := by
    intro o e
    rw [List.mem_insertionSort, List.mem_filter, IterOrder.mem_run, h.mem_values, decide_eq_true_eq]
  have hnodup : ∀ o : IterOrder SignedEvent,
      (((o.run node.events.values).filter fun e => p e).insertionSort causalLe).Nodup := by
    intro o
    refine (List.perm_insertionSort causalLe _).nodup_iff.2 ?_
    exact (((o.perm _).nodup_iff.2 (values_nodup h)).filter _)
  -- the sort respects the ancestry if the key does, on any order of the log
  have hkey : node.KeyFollows p ↔ ∀ x ∈ node.events.values, ∀ y ∈ node.events.values,
      decide (p x) = true → decide (p y) = true → node.Precedes x y → ¬ causalLe y x := by
    unfold KeyFollows
    constructor
    · intro hf x hx y hy hpx hpy hxy
      exact not_causalLe_iff.2 (hf x (h.mem_values.1 hx) y (h.mem_values.1 hy)
        (of_decide_eq_true hpx) (of_decide_eq_true hpy) hxy)
    · intro hf a ha e he hpa hpe hae
      exact not_causalLe_iff.1 (hf a (h.mem_values.2 ha) e (h.mem_values.2 he)
        (decide_eq_true hpa) (decide_eq_true hpe) hae)
  rw [hkey, ← hsorted]
  constructor
  · intro hlist l' hperm
    have hresp := hlist.causal (IterOrder.ofPerm hperm)
    rw [IterOrder.run_ofPerm] at hresp
    exact hresp
  · intro hall
    exact ⟨hmem, hnodup, fun o => hall _ (o.perm _)⟩

/-- In every node that has been built, each of the three lists of a room has every selected event once and
in causal order, for every order of the log, exactly when the key of the sort follows the ancestry of the
events it selects. -/
theorem lists_causal_iff (h : Operated node) (room : RoomId) (peerHave : List EventId) :
    (CausalListing node (fun e => e.roomId = room) (fun o => node.listEvents o room) ↔
      node.KeyFollows fun e => e.roomId = room) ∧
    (CausalListing node (fun e => e.roomId = room ∧ e.kind = .message)
        (fun o => node.listMessages o room) ↔
      node.KeyFollows fun e => e.roomId = room ∧ e.kind = .message) ∧
    (CausalListing node (fun e => e.roomId = room ∧ e.id ∉ peerHave)
        (fun o => node.missingForPeer o room peerHave) ↔
      node.KeyFollows fun e => e.roomId = room ∧ e.id ∉ peerHave) := by
  have hlog := h.sound.log
  exact ⟨causalListing_iff hlog _, causalListing_iff hlog _, causalListing_iff hlog _⟩

/-! ## A slow clock -/

/-- A commit to a node with an empty inbox and no store takes its event and does nothing else. -/
theorem commit_quiet {ev : SignedEvent} (h : node.LogCoherent) (ht : node.Takes ev)
    (hinbox : node.inbox = []) (hdurable : node.durable = none) :
    node.commit ev false = (.ok true, node.take ev) := by
  rcases ht with ⟨hv, hnew, hp, hroom⟩
  have hok : node.parentsOk ev = true := parentsOk_iff.2 hp
  rw [commit_verified hv, ingestEvent, if_neg hnew, hok, if_neg (by decide),
    dagIngest_sameRoom h hv hnew hp hroom]
  rcases node with ⟨deviceId, events, dags, outbox, inbox, durable⟩
  subst hinbox hdurable
  rfl

end Lists

section Example

open Checksum

attribute [local instance] Checksum.primitives

/-- Device 2, whose counter is behind, answers the reply. -/
def echo : SignedEvent :=
  event 2 (room 1) [reply.id] .message [106] 1

/-- A node that has taken the three messages. -/
def answered : DeviceNode :=
  (((DeviceNode.new (device 3)).take hello).take reply).take echo

theorem chat_ids : reply.id ≠ hello.id ∧ echo.id ≠ hello.id ∧ echo.id ≠ reply.id := by
  decide +kernel

theorem takes_hello : (DeviceNode.new (device 3)).Takes hello := by
  refine ⟨event_verified _ _ _ _ _ _, AList.notMem_empty _, ?_, ?_⟩
  · intro p hp
    cases hp
  · intro p hp
    cases hp

theorem takes_reply : ((DeviceNode.new (device 3)).take hello).Takes reply := by
  refine ⟨event_verified _ _ _ _ _ _, ?_, ?_, ?_⟩
  · intro hin
    rcases mem_take.1 hin with hid | hin
    · exact chat_ids.1 hid
    · exact AList.notMem_empty _ hin
  · intro p hp
    rw [List.mem_singleton.1 hp]
    exact mem_take.2 (Or.inl rfl)
  · intro p hp z hz
    rw [List.mem_singleton.1 hp, lookup_take, if_pos rfl] at hz
    cases hz
    rfl

theorem takes_echo : (((DeviceNode.new (device 3)).take hello).take reply).Takes echo := by
  refine ⟨event_verified _ _ _ _ _ _, ?_, ?_, ?_⟩
  · intro hin
    rcases mem_take.1 hin with hid | hin
    · exact chat_ids.2.2 hid
    · rcases mem_take.1 hin with hid | hin
      · exact chat_ids.2.1 hid
      · exact AList.notMem_empty _ hin
  · intro p hp
    rw [List.mem_singleton.1 hp]
    exact mem_take.2 (Or.inl rfl)
  · intro p hp z hz
    rw [List.mem_singleton.1 hp, lookup_take, if_pos rfl] at hz
    cases hz
    rfl

theorem operated_take {node : DeviceNode} {ev : SignedEvent} (h : Operated node) (ht : node.Takes ev)
    (hinbox : node.inbox = []) (hdurable : node.durable = none) : Operated (node.take ev) := by
  have hnext := h.commit ev false
  rwa [commit_quiet h.sound.log ht hinbox hdurable] at hnext

theorem operated_answered : Operated answered := by
  have hnew : Operated (DeviceNode.new (device 3)) := Operated.new (device 3) none
  have hfirst := operated_take hnew takes_hello rfl rfl
  have hsecond := operated_take hfirst takes_reply rfl rfl
  exact operated_take hsecond takes_echo rfl rfl

theorem accepted_answered : reply ∈ answered.accepted ∧ echo ∈ answered.accepted := by
  constructor
  · have hl : answered.events.lookup reply.id = some reply := by
      unfold answered
      rw [lookup_take, if_neg chat_ids.2.2.symm, lookup_take, if_pos rfl]
    exact hl
  · have hl : answered.events.lookup echo.id = some echo := by
      unfold answered
      rw [lookup_take, if_pos rfl]
    exact hl

/-- The answer is listed before the reply it answers, by all three lists. -/
theorem lists_answered_not_causal :
    ¬ ∀ node : DeviceNode, Operated node → ∀ (room : RoomId) (peerHave : List EventId),
      CausalListing node (fun e => e.roomId = room) (fun o => node.listEvents o room) ∧
      CausalListing node (fun e => e.roomId = room ∧ e.kind = .message)
        (fun o => node.listMessages o room) ∧
      CausalListing node (fun e => e.roomId = room ∧ e.id ∉ peerHave)
        (fun o => node.missingForPeer o room peerHave) := by
  intro h
  have hlist := (h answered operated_answered (room 1) []).1
  have hkey := (causalListing_iff operated_answered.sound.log fun e => e.roomId = room 1).1 hlist
  have hprecedes : answered.Precedes reply echo :=
    Relation.TransGen.single ⟨echo, accepted_answered.2, rfl, List.mem_singleton.2 rfl⟩
  have hbefore := hkey reply accepted_answered.1 echo accepted_answered.2 rfl rfl hprecedes
  exact absurd hbefore (by unfold ListedBefore; decide)

/-- On a node that has only the first message, there is nothing to be out of order. -/
theorem lists_causal_iff_hello :
    CausalListing ((DeviceNode.new (device 3)).take hello) (fun e => e.roomId = room 1)
      (fun o => ((DeviceNode.new (device 3)).take hello).listEvents o (room 1)) := by
  have hop : Operated ((DeviceNode.new (device 3)).take hello) :=
    operated_take (Operated.new (device 3) none) takes_hello rfl rfl
  have honly : ∀ e ∈ ((DeviceNode.new (device 3)).take hello).accepted, e = hello := by
    intro e he
    have hl : ((DeviceNode.new (device 3)).take hello).events.lookup e.id = some e := he
    rw [lookup_take] at hl
    split at hl
    · exact (Option.some.inj hl).symm
    · cases hl
  refine (lists_causal_iff hop (room 1) []).1.2 ?_
  intro a ha e he _ _ hprecedes
  rw [honly a ha, honly e he] at hprecedes
  have hself := not_precedes_self hop.sound.log (e := hello) (by
    have hl : ((DeviceNode.new (device 3)).take hello).events.lookup hello.id = some hello := by
      rw [lookup_take, if_pos rfl]
    exact hl)
  exact absurd hprecedes hself

end Example

end DeviceNode
end Node
end Thunderducks
