import Thunderducks.Event.Checksum
import Thunderducks.Node.Commit

/-!
# Delivery — the order in which remote events arrive does not matter

`commitRemoteAll` feeds a list of events to a node.  Over events whose ids identify them and whose
parents stay in their rooms it never fails, and from a fresh node the log, the inbox, the DAGs and
the tips it ends in depend on the set of events alone: the log holds those all of whose ancestors
were delivered.
-/

namespace Thunderducks
namespace Node
namespace DeviceNode

open Lib Event

section Delivery

variable [Primitives]

/-- Feed `evs` to the node one by one, whatever each call returns. -/
def commitRemoteAll : DeviceNode → List SignedEvent → List (Except SyncError Bool) × DeviceNode
  | node, [] => ([], node)
  | node, ev :: evs =>
      let (res, node) := node.commitRemote ev
      let (ress, node) := node.commitRemoteAll evs
      (res :: ress, node)

theorem length_commitRemoteAll (evs : List SignedEvent) : ∀ node : DeviceNode,
    (node.commitRemoteAll evs).1.length = evs.length := by
  induction evs with
  | nil => exact fun _ => rfl
  | cons ev evs ih =>
      intro node
      rw [commitRemoteAll, List.length_cons, List.length_cons, ih]

theorem commitRemoteAll_append (xs ys : List SignedEvent) : ∀ node : DeviceNode,
    (node.commitRemoteAll (xs ++ ys)).2 = ((node.commitRemoteAll xs).2.commitRemoteAll ys).2 := by
  induction xs with
  | nil => exact fun _ => rfl
  | cons x xs ih =>
      intro node
      simpa [commitRemoteAll] using ih (node.commitRemote x).2

/-- The log stays sound through a batch. -/
theorem sound_commitRemoteAll (evs : List SignedEvent) : ∀ {node : DeviceNode}, node.Sound →
    (node.commitRemoteAll evs).2.Sound := by
  induction evs with
  | nil => exact fun h => h
  | cons ev evs ih => exact fun h => ih (h.commit ev false)

/-- Whatever the calls return, the log grows by what the events supply. -/
theorem commitRemoteAll_grew (evs : List SignedEvent) : ∀ {node : DeviceNode}, node.Sound →
    (∀ e ∈ evs, Verified e) →
    Grew (node.parked ∪ {e | e ∈ evs}) node (node.commitRemoteAll evs).2 := by
  induction evs with
  | nil =>
      intro node h _
      exact Grew.refl h.log
  | cons ev evs ih =>
      intro node h hv
      have ho := commit_outcome h (hv ev (by simp)) false
      have hone : node.parked ∪ {ev} ⊆ node.parked ∪ {e | e ∈ ev :: evs} := by
        refine Set.union_subset_union_right _ ?_
        simp
      have hrest : (node.commit ev false).2.parked ∪ {e | e ∈ evs} ⊆
          node.parked ∪ {e | e ∈ ev :: evs} := by
        rintro x (hx | hx)
        · exact hone (ho.parked_subset hx)
        · exact Or.inr (List.mem_cons_of_mem _ hx)
      have hgrew := ih (ho.sound h (hv ev (by simp))) (fun e he => hv e (List.mem_cons_of_mem _ he))
      exact ((ho.grew h.log).mono hone).trans (hgrew.mono hrest)

/-- Every call succeeds, and all the events are offered to the node. -/
theorem commitRemoteAll_offered (evs : List SignedEvent) : ∀ {node : DeviceNode}, node.Sound →
    node.Reliable → (∀ e ∈ evs, Verified e) → IdsIdentify (node.held ∪ {e | e ∈ evs}) →
    node.ReadyLocal {e | e ∈ evs} →
    (∀ res ∈ (node.commitRemoteAll evs).1, ∃ b, res = .ok b) ∧
      Offered {e | e ∈ evs} node (node.commitRemoteAll evs).2 := by
  induction evs with
  | nil =>
      intro node h _ _ _ _
      have hset : {e : SignedEvent | e ∈ []} = ∅ := by
        simp
      refine ⟨by simp [commitRemoteAll], ?_⟩
      rw [hset]
      exact Offered.refl h
  | cons ev evs ih =>
      intro node h hr hv hids hloc
      have hset : {e | e ∈ ev :: evs} = {ev} ∪ {e | e ∈ evs} := by
        ext x
        simp
      rw [hset] at hids hloc ⊢
      have hone : node.held ∪ {ev} ⊆ node.held ∪ ({ev} ∪ {e | e ∈ evs}) :=
        Set.union_subset_union_right _ Set.subset_union_left
      rcases commit_offered h (hv ev (by simp)) hr
        (fun x hx y hy => hids x (hone hx) y (hone hy))
        (hloc.mono Set.subset_union_left) false with ⟨b, hb, hoff⟩
      -- the rest of the run meets the same hypotheses at the next node
      have hrest := hoff.held_rest {e | e ∈ evs}
      rcases ih hoff.sound (hoff.grew.reliable hr) (fun e he => hv e (List.mem_cons_of_mem _ he))
        (fun x hx y hy => hids x (hrest hx) y (hrest hy)) (hloc.rest hoff) with ⟨hok, hoff'⟩
      refine ⟨?_, hoff.trans hoff'⟩
      intro res hres
      rcases List.mem_cons.1 hres with rfl | hres
      · exact ⟨b, hb⟩
      · exact hok res hres

/-! ## From a fresh node -/

/-- All ancestors of `e` through the events of `evs` are in `evs`. -/
def AncestorsIn (evs : List SignedEvent) (e : SignedEvent) : Prop :=
  ∀ p, Causal.Ancestor SignedEvent.id SignedEvent.parents {x | x ∈ evs} e.id p →
    ∃ y ∈ evs, y.id = p

omit [Primitives] in
theorem reliable_new (d : DeviceId) : (DeviceNode.new d).Reliable := by
  intro store h
  cases h

omit [Primitives] in
theorem held_new (d : DeviceId) : (DeviceNode.new d).held = ∅ := by
  ext x
  simp [held, accepted, parked, DeviceNode.new]

/-- A fresh node that was offered `evs` is a settled buffer over them. -/
theorem Offered.buffer {d : DeviceId} {evs : List SignedEvent} {node : DeviceNode}
    (h : Offered {e | e ∈ evs} (DeviceNode.new d) node) (hids : IdsIdentify {e | e ∈ evs}) :
    Causal.Settled SignedEvent.id SignedEvent.parents {e | e ∈ evs} node.accepted node.parked := by
  have hsettled : node.Settled := h.settled (by intro x hx; simp [DeviceNode.new] at hx)
  have hpool : (DeviceNode.new d).parked ∪ {e | e ∈ evs} = {e | e ∈ evs} := by
    simp [parked, DeviceNode.new]
  have hfresh : ∀ {i e}, node.events.lookup i = some e → e ∈ evs := by
    intro i e hl
    rcases h.grew.fresh hl with hold | ⟨_, hmem⟩
    · simp [DeviceNode.new] at hold
    · rwa [hpool] at hmem
  refine ⟨?_, ?_, ?_⟩
  · intro x
    constructor
    · intro hx
      rcases h.cover x (Or.inr hx) with hp | hl
      · exact Or.inr hp
      · rcases HashMap.mem_iff_lookup.1 hl with ⟨e, he⟩
        have hEq : e = x := hids e (hfresh he) x hx (h.sound.log.keyed he)
        subst hEq
        exact Or.inl he
    · rintro (hx | hx)
      · exact hfresh hx
      · have hx' := h.inbox hx
        rwa [hpool] at hx'
  · intro x hx
    exact h.sound.log.grounded x.id (HashMap.mem_of_lookup hx)
  · intro x hx
    -- what is still parked waits for a parent
    have hwait : ¬ node.parentsOk x = true := by
      simp [(hsettled x hx).2]
    rw [parentsOk_iff] at hwait
    push Not at hwait
    rcases hwait with ⟨p, hp, hno⟩
    refine ⟨p, hp, ?_⟩
    intro y hy hid
    exact hno (hid ▸ HashMap.mem_of_lookup hy)

/-- No order of delivery, and no repetition, makes a difference: the log is the delivered events
whose ancestors were all delivered, the inbox holds the others. -/
theorem commitRemote_any_order (d : DeviceId) (evs : List SignedEvent)
    (hv : ∀ e ∈ evs, Verified e) (hids : IdsIdentify {e | e ∈ evs})
    (hacyc : Causal.Acyclic SignedEvent.id SignedEvent.parents {e | e ∈ evs})
    (hloc : RoomLocal {e | e ∈ evs}) :
    let out := (DeviceNode.new d).commitRemoteAll evs
    (∀ res ∈ out.1, ∃ b, res = .ok b) ∧
    (∀ i e, out.2.events.lookup i = some e ↔ e.id = i ∧ e ∈ evs ∧ AncestorsIn evs e) ∧
    (out.2.inbox.Nodup ∧ ∀ e, e ∈ out.2.inbox ↔ e ∈ evs ∧ ¬ AncestorsIn evs e) ∧
    (∀ room i e, (out.2.dagOf room).events.lookup i = some e ↔
      out.2.events.lookup i = some e ∧ e.roomId = room) ∧
    (∀ room i, i ∈ out.2.tips room ↔ (∃ e, out.2.events.lookup i = some e ∧ e.roomId = room) ∧
      ∀ c e, out.2.events.lookup c = some e → i ∉ e.parents) := by
  intro out
  have hheld : (DeviceNode.new d).held ∪ {e | e ∈ evs} = {e | e ∈ evs} := by
    rw [held_new, Set.empty_union]
  have hnew : (DeviceNode.new d).Sound := Sound.new d none
  rcases commitRemoteAll_offered evs hnew (reliable_new d) hv (by rwa [hheld])
    (RoomLocal.ready (by rwa [hheld])) with ⟨hok, hoff⟩
  have hcoh : out.2.LogCoherent := hoff.sound.log
  have hbuf := hoff.buffer hids
  have hinj : Set.InjOn SignedEvent.id {e | e ∈ evs} := fun x hx y hy hid => hids x hx y hy hid
  have hfin : {e | e ∈ evs}.Finite := List.finite_toSet evs
  have hlog : ∀ {e}, e ∈ evs → (e ∈ out.2.accepted ↔ AncestorsIn evs e) := by
    intro e he
    exact (hbuf.taken_iff hinj he).trans (Causal.supplied_iff_ancestors hfin hinj hacyc he)
  refine ⟨hok, ?_, ⟨?_, ?_⟩, ?_, ?_⟩
  · intro i e
    constructor
    · intro hl
      have hid : e.id = i := hcoh.keyed hl
      subst hid
      have he : e ∈ evs := hbuf.taken_subset hl
      exact ⟨rfl, he, (hlog he).1 hl⟩
    · rintro ⟨rfl, he, hanc⟩
      exact (hlog he).2 hanc
  · exact List.Nodup.of_map _ hoff.sound.nodup
  · intro e
    constructor
    · intro hin
      have he : e ∈ evs := (hbuf.cover e).2 (Or.inr hin)
      exact ⟨he, fun hanc => hbuf.not_taken hinj hin ((hlog he).2 hanc)⟩
    · rintro ⟨he, hanc⟩
      rcases (hbuf.cover e).1 he with ht | hp
      · exact absurd ((hlog he).1 ht) hanc
      · exact hp
  · intro room i e
    exact hcoh.dagEvents
  · intro room i
    rw [hcoh.mem_tips]
    refine and_congr_right ?_
    rintro ⟨e₀, hl₀, hr₀⟩
    constructor
    · intro hno c e hl hp
      -- a parent of an accepted event is of its room
      rcases hcoh.parent_accepted hl hp with ⟨z, hz, hroom⟩
      rw [hl₀] at hz
      cases hz
      exact hno hl (hroom.symm.trans hr₀) hp
    · intro hno c e hl _ hp
      exact hno c e hl hp

end Delivery

/-! ## A run: a reply arrives twice, once before what it replies to -/

section Example

open Checksum

attribute [local instance] Checksum.primitives

def hello : SignedEvent :=
  event 1 (room 1) [] .message [104] 1

def reply : SignedEvent :=
  event 1 (room 1) [hello.id] .message [105] 2

theorem reply_ne_hello : reply.id ≠ hello.id := by
  decide +kernel

theorem commitRemote_any_order_reply_first :
    ((DeviceNode.new (device 2)).commitRemoteAll [reply, hello, reply]).1.length = 3 ∧
      ∀ res ∈ ((DeviceNode.new (device 2)).commitRemoteAll [reply, hello, reply]).1,
        ∃ b, res = .ok b := by
  have hmem : ∀ e ∈ [reply, hello, reply], e = reply ∨ e = hello := by
    simp
  refine ⟨length_commitRemoteAll _ _, ?_⟩
  refine (commitRemote_any_order (device 2) [reply, hello, reply] ?_ ?_ ?_ ?_).1
  · intro e he
    rcases hmem e he with rfl | rfl
    · exact event_verified _ _ _ _ _ _
    · exact event_verified _ _ _ _ _ _
  · intro e he e' he' hid
    rcases hmem e he with rfl | rfl <;> rcases hmem e' he' with rfl | rfl
    · rfl
    · exact absurd hid reply_ne_hello
    · exact absurd hid.symm reply_ne_hello
    · rfl
  · refine Causal.acyclic_of_rank (fun i => if i = reply.id then 1 else 0) ?_
    intro x hx p hp
    rcases hmem x hx with rfl | rfl
    · have hEq : p = hello.id := by
        simpa [reply, event] using hp
      simp [hEq, reply_ne_hello.symm]
    · simp [hello, event] at hp
  · intro x hx y hy _
    rcases hmem x hx with rfl | rfl <;> rcases hmem y hy with rfl | rfl <;> rfl

end Example

end DeviceNode
end Node
end Thunderducks
