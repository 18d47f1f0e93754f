import Thunderducks.Node.Delivery

/-!
# Converge — repeated `converge_with` brings two nodes to one log

One call sends each side the accepted events the other lacks.  Each log then contains both, no inbox
grows, and a call that drains nothing from either inbox has made the logs equal; so as many calls as
there are parked events, and one more, are enough.
-/

namespace Thunderducks
namespace Node
namespace DeviceNode

open Lib Event

section Nodes

variable [Primitives]

/-- The in-memory nodes that commits of events of `evs` build. -/
inductive ReachedBy (evs : Set SignedEvent) : DeviceNode → Prop
  | new (d : DeviceId) : ReachedBy evs (DeviceNode.new d)
  | commit {node : DeviceNode} {ev : SignedEvent} (toOutbox : Bool) : ReachedBy evs node →
      ev ∈ evs → ReachedBy evs (node.commit ev toOutbox).2

/-- The events of one room that a pair of nodes exchanges. -/
structure Exchange (room : RoomId) (evs : Set SignedEvent) : Prop where
  verified : ∀ e ∈ evs, Verified e
  inRoom : ∀ e ∈ evs, e.roomId = room
  ids : IdsIdentify evs

/-- What both sides of an exchange satisfy before and after each call. -/
structure Party (evs : Set SignedEvent) (node : DeviceNode) : Prop where
  sound : node.Sound
  settled : node.Settled
  reliable : node.Reliable
  held : node.held ⊆ evs

section Party

variable {room : RoomId} {evs sent : Set SignedEvent} {node node' : DeviceNode}

theorem Exchange.roomLocal (hx : Exchange room evs) : RoomLocal evs := by
  intro x hxe y hye _
  rw [hx.inRoom x hxe, hx.inRoom y hye]

theorem Party.offered (h : Party evs node) (hsent : sent ⊆ evs) (hoff : Offered sent node node') :
    Party evs node' := by
  refine ⟨hoff.sound, hoff.settled h.settled, hoff.grew.reliable h.reliable, ?_⟩
  intro x hx
  rcases hoff.held_subset hx with hx | hx
  · exact h.held hx
  · exact hsent hx

theorem ReachedBy.party (hx : Exchange room evs) (h : ReachedBy evs node) : Party evs node := by
  induction h with
  | new d =>
      refine ⟨Sound.new d none, ?_, reliable_new d, ?_⟩
      · intro x hxi
        simp [DeviceNode.new] at hxi
      · rw [held_new]
        exact Set.empty_subset evs
  | @commit node ev toOutbox _ hev ih =>
      have hsub : node.held ∪ {ev} ⊆ evs := by
        rintro x (hxh | rfl)
        · exact ih.held hxh
        · exact hev
      rcases commit_offered ih.sound (hx.verified ev hev) ih.reliable
        (fun x h₁ y h₂ => hx.ids x (hsub h₁) y (hsub h₂)) (hx.roomLocal.mono hsub).ready toOutbox with
        ⟨_, _, hoff⟩
      exact ih.offered (Set.singleton_subset_iff.2 hev) hoff

/-- All the log is of the room of the exchange. -/
theorem Party.mem_roomEventIds (hx : Exchange room evs) (h : Party evs node) {i : EventId} :
    i ∈ node.roomEventIds room ↔ i ∈ node.events := by
  rw [h.sound.log.mem_events]
  constructor
  · intro hi
    rcases List.mem_map.1 hi with ⟨e, he, rfl⟩
    rcases HashMap.mem_values.1 (List.mem_filter.1 he).1 with ⟨k, hk⟩
    have hid : e.id = k := h.sound.log.keyed hk
    subst hid
    exact ⟨e, hk, rfl⟩
  · rintro ⟨e, he, rfl⟩
    have hroom : e.roomId = room := hx.inRoom e (h.held (Or.inl he))
    refine List.mem_map.2 ⟨e, List.mem_filter.2 ⟨HashMap.mem_values.2 ⟨e.id, he⟩, ?_⟩, rfl⟩
    simpa using hroom

end Party

/-! ## One call -/

/-- The accepted events of `src` that `dst` lacks. -/
def lacking (src dst : DeviceNode) : Set SignedEvent :=
  {e | e ∈ src.accepted ∧ e.id ∉ dst.events}

section Call

variable {room : RoomId} {evs : Set SignedEvent} {a b a' b' : DeviceNode}

omit [Primitives] in
theorem mem_missingForPeer {o : IterOrder SignedEvent} {node : DeviceNode} (h : node.LogCoherent)
    {peerHave : List EventId} {e : SignedEvent} :
    e ∈ node.missingForPeer o room peerHave ↔
      e ∈ node.accepted ∧ e.roomId = room ∧ e.id ∉ peerHave := by
  simp only [missingForPeer, List.mem_insertionSort, List.mem_filter, IterOrder.mem_run, h.mem_values,
    decide_eq_true_eq]

/-- A response without failures commits every event of it. -/
theorem applyMissing_ok (missing : List SignedEvent) : ∀ (node : DeviceNode) (n : Nat),
    (∀ res ∈ (node.commitRemoteAll missing).1, ∃ b, res = .ok b) →
    ∃ m, node.applyMissing missing n = (.ok m, (node.commitRemoteAll missing).2) := by
  induction missing with
  | nil =>
      intro node n _
      exact ⟨n, rfl⟩
  | cons ev missing ih =>
      intro node n hok
      rcases hok (node.commitRemote ev).1 (by simp [commitRemoteAll]) with ⟨b, hb⟩
      have hpair : node.commitRemote ev = (.ok b, (node.commitRemote ev).2) := by
        rw [← hb]
      have hrest : ∀ res ∈ ((node.commitRemote ev).2.commitRemoteAll missing).1,
          ∃ b, res = .ok b := by
        intro res hres
        exact hok res (List.mem_cons_of_mem _ hres)
      cases b with
      | false =>
          rcases ih (node.commitRemote ev).2 n hrest with ⟨m, hm⟩
          refine ⟨m, ?_⟩
          rw [applyMissing, hpair]
          exact hm
      | true =>
          rcases ih (node.commitRemote ev).2 (n + 1) hrest with ⟨m, hm⟩
          refine ⟨m, ?_⟩
          rw [applyMissing, hpair]
          exact hm

/-- One side of a call: `dst` is offered what `src` has and it lacks. -/
theorem applySyncResponse_offered (hx : Exchange room evs) (hsrc : Party evs a) (hdst : Party evs b)
    (o : IterOrder SignedEvent) :
    ∃ m b', b.applySyncResponse (a.respondToOffer o (b.buildOffer room)) = (.ok m, b') ∧
      Offered (lacking a b) b b' := by
  have hset : {e | e ∈ a.missingForPeer o room (b.roomEventIds room)} = lacking a b := by
    ext e
    change e ∈ a.missingForPeer o room (b.roomEventIds room) ↔ _
    rw [mem_missingForPeer hsrc.sound.log, hdst.mem_roomEventIds hx]
    constructor
    · rintro ⟨he, _, hno⟩
      exact ⟨he, hno⟩
    · rintro ⟨he, hno⟩
      exact ⟨he, hx.inRoom e (hsrc.held (Or.inl he)), hno⟩
  have hall : b.held ∪ {e | e ∈ a.missingForPeer o room (b.roomEventIds room)} ⊆ evs := by
    rw [hset]
    rintro x (hxb | hxl)
    · exact hdst.held hxb
    · exact hsrc.held (Or.inl hxl.1)
  rcases commitRemoteAll_offered (a.missingForPeer o room (b.roomEventIds room)) hdst.sound
    hdst.reliable (fun e he => hx.verified e (hall (Or.inr he)))
    (fun x h₁ y h₂ => hx.ids x (hall h₁) y (hall h₂)) (hx.roomLocal.mono hall).ready with ⟨hok, hoff⟩
  rcases applyMissing_ok _ b 0 hok with ⟨m, hm⟩
  refine ⟨m, _, hm, ?_⟩
  rwa [hset] at hoff

theorem convergeWith_offered (hx : Exchange room evs) (ha : Party evs a) (hb : Party evs b)
    (oa ob : IterOrder SignedEvent) :
    ∃ a' b', convergeWith oa ob a b room = (.ok (), a', b') ∧
      Offered (lacking b a) a a' ∧ Offered (lacking a b) b b' := by
  rcases applySyncResponse_offered hx hb ha ob with ⟨m, a', hma, hoffa⟩
  rcases applySyncResponse_offered hx ha hb oa with ⟨n, b', hnb, hoffb⟩
  refine ⟨a', b', ?_, hoffa, hoffb⟩
  simp only [convergeWith, hma, hnb]

/-- The log of the side that received holds both logs. -/
theorem Party.pull_covers (ha : Party evs a) (hb : Party evs b) (h : Offered (lacking b a) a a')
    {i : EventId} (hi : i ∈ a.events ∨ i ∈ b.events) : i ∈ a'.events := by
  rcases hi with hi | hi
  · exact h.grew.mem hi
  · refine (h.mem_events (h.settled ha.settled)).2 ?_
    -- climb the log of `b`, taking from `a` what it has
    have hgr : Supplied ∅ b.accepted i := hb.sound.log.grounded i hi
    refine Causal.supplied_subset (Set.empty_subset _) ?_ hgr
    intro x hxb hps
    by_cases hxa : x.id ∈ a.events
    · exact Causal.Supplied.base hxa
    · exact Causal.Supplied.item (Or.inr ⟨hxb, hxa⟩) hps

/-- Nothing new stays parked. -/
theorem Party.pull_inbox (ha : Party evs a) (hb : Party evs b) (h : Offered (lacking b a) a a') :
    a'.inbox ⊆ a.inbox := by
  intro x hx
  rcases h.inbox hx with hp | hl
  · exact hp
  · have hmem : x.id ∈ b.events := HashMap.mem_of_lookup hl.1
    exact absurd (ha.pull_covers hb h (Or.inr hmem)) ((h.settled ha.settled) x hx).1

theorem Sound.inbox_nodup {node : DeviceNode} (h : node.Sound) : node.inbox.Nodup :=
  List.Nodup.of_map _ h.nodup

theorem Party.pull_length (ha : Party evs a) (hb : Party evs b) (h : Offered (lacking b a) a a') :
    a'.inboxLen ≤ a.inboxLen :=
  (h.sound.inbox_nodup.subperm (ha.pull_inbox hb h)).length_le

/-- If no parked event was taken, the log has grown by the other log only. -/
theorem Party.pull_exact (ha : Party evs a) (hb : Party evs b) (h : Offered (lacking b a) a a')
    (hlen : a.inboxLen ≤ a'.inboxLen) {i : EventId} :
    i ∈ a'.events ↔ i ∈ a.events ∨ i ∈ b.events := by
  refine ⟨?_, ha.pull_covers hb h⟩
  intro hi
  have hperm : a'.inbox.Perm a.inbox :=
    (h.sound.inbox_nodup.subperm (ha.pull_inbox hb h)).perm_of_length_le hlen
  rcases HashMap.mem_iff_lookup.1 hi with ⟨e, he⟩
  have hid : e.id = i := h.grew.coherent.keyed he
  subst hid
  rcases h.grew.fresh he with hold | ⟨_, hp | hl⟩
  · exact Or.inl (HashMap.mem_of_lookup hold)
  · have hstill : e ∈ a'.inbox := hperm.mem_iff.2 hp
    exact absurd hi ((h.settled ha.settled) e hstill).1
  · exact Or.inr (HashMap.mem_of_lookup hl.1)

end Call

/-! ## Successive calls -/

/-- Successive calls of `converge_with`, one for each pair of listing orders. -/
def convergeMany (room : RoomId) : List (IterOrder SignedEvent × IterOrder SignedEvent) →
    DeviceNode → DeviceNode → List (Except SyncError Unit) × DeviceNode × DeviceNode
  | [], a, b => ([], a, b)
  | (oa, ob) :: orders, a, b =>
      let (res, a, b) := convergeWith oa ob a b room
      let (ress, a, b) := convergeMany room orders a b
      (res :: ress, a, b)

theorem length_convergeMany (room : RoomId) (orders : List (IterOrder SignedEvent × IterOrder SignedEvent)) :
    ∀ a b, (convergeMany room orders a b).1.length = orders.length := by
  induction orders with
  | nil => exact fun _ _ => rfl
  | cons order orders ih =>
      intro a b
      rw [convergeMany, List.length_cons, List.length_cons, ih]

/-- Both nodes have the same ids in their logs. -/
def SameLog (a b : DeviceNode) : Prop :=
  ∀ i, i ∈ a.events ↔ i ∈ b.events

section Calls

variable {room : RoomId} {evs : Set SignedEvent} {a b : DeviceNode}

/-- The step of the induction: after one call either the logs agree, or an inbox is shorter. -/
theorem convergeWith_step (hx : Exchange room evs) (ha : Party evs a) (hb : Party evs b)
    (oa ob : IterOrder SignedEvent) :
    ∃ a' b', convergeWith oa ob a b room = (.ok (), a', b') ∧ Party evs a' ∧ Party evs b' ∧
      (∀ i, i ∈ a.events ∨ i ∈ b.events → i ∈ a'.events ∧ i ∈ b'.events) ∧
      ((∀ i, (i ∈ a'.events ↔ i ∈ a.events ∨ i ∈ b.events) ∧
          (i ∈ b'.events ↔ i ∈ a.events ∨ i ∈ b.events)) ∨
        a'.inboxLen + b'.inboxLen < a.inboxLen + b.inboxLen) := by
  rcases convergeWith_offered hx ha hb oa ob with ⟨a', b', heq, hoffa, hoffb⟩
  have hsuba : lacking b a ⊆ evs := fun e he => hb.held (Or.inl he.1)
  have hsubb : lacking a b ⊆ evs := fun e he => ha.held (Or.inl he.1)
  refine ⟨a', b', heq, ha.offered hsuba hoffa, hb.offered hsubb hoffb, ?_, ?_⟩
  · intro i hi
    exact ⟨ha.pull_covers hb hoffa hi, hb.pull_covers ha hoffb hi.symm⟩
  · have hlea : a'.inboxLen ≤ a.inboxLen := ha.pull_length hb hoffa
    have hleb : b'.inboxLen ≤ b.inboxLen := hb.pull_length ha hoffb
    by_cases hlt : a'.inboxLen + b'.inboxLen < a.inboxLen + b.inboxLen
    · exact Or.inr hlt
    · refine Or.inl ?_
      intro i
      have hb' := hb.pull_exact ha hoffb (by omega) (i := i)
      exact ⟨ha.pull_exact hb hoffa (by omega), hb'.trans or_comm⟩

/-- With one log on both sides a call changes neither. -/
theorem convergeWith_same (hx : Exchange room evs) (ha : Party evs a) (hb : Party evs b)
    (hsame : SameLog a b) (oa ob : IterOrder SignedEvent) :
    ∃ a' b', convergeWith oa ob a b room = (.ok (), a', b') ∧ Party evs a' ∧ Party evs b' ∧
      (∀ i, i ∈ a.events → i ∈ a'.events) ∧ SameLog a' b' := by
  rcases convergeWith_offered hx ha hb oa ob with ⟨a', b', heq, hoffa, hoffb⟩
  have hsuba : lacking b a ⊆ evs := fun e he => hb.held (Or.inl he.1)
  have hsubb : lacking a b ⊆ evs := fun e he => ha.held (Or.inl he.1)
  -- nothing is sent, and nothing parked was waiting for it
  have hquiet : ∀ {c c' : DeviceNode} {sent : Set SignedEvent}, Party evs c → (∀ e, e ∉ sent) →
      Offered sent c c' → ∀ i, i ∈ c'.events ↔ i ∈ c.events := by
    intro c c' sent hc hnone hoff i
    refine ⟨?_, hoff.grew.mem⟩
    intro hi
    refine Causal.supplied_subset (Set.Subset.refl c.logIds) ?_ (hoff.grew.supplied i hi)
    rintro x (hxp | hxs) hps
    · have hwait := (hc.settled x hxp).2
      rw [parentsOk_iff.2 hps] at hwait
      cases hwait
    · exact absurd hxs (hnone x)
  have hnonea : ∀ e, e ∉ lacking b a := fun e he =>
    he.2 ((hsame e.id).2 (HashMap.mem_of_lookup he.1))
  have hnoneb : ∀ e, e ∉ lacking a b := fun e he =>
    he.2 ((hsame e.id).1 (HashMap.mem_of_lookup he.1))
  refine ⟨a', b', heq, ha.offered hsuba hoffa, hb.offered hsubb hoffb, fun i => hoffa.grew.mem, ?_⟩
  intro i
  rw [hquiet ha hnonea hoffa, hquiet hb hnoneb hoffb]
  exact hsame i

theorem convergeMany_same (hx : Exchange room evs)
    (orders : List (IterOrder SignedEvent × IterOrder SignedEvent)) :
    ∀ {a b : DeviceNode}, Party evs a → Party evs b → SameLog a b →
    ∃ ress a' b', convergeMany room orders a b = (ress, a', b') ∧ (∀ res ∈ ress, res = .ok ()) ∧
      Party evs a' ∧ Party evs b' ∧ (∀ i, i ∈ a.events → i ∈ a'.events) ∧ SameLog a' b' := by
  induction orders with
  | nil =>
      intro a b ha hb hsame
      exact ⟨[], a, b, rfl, by simp, ha, hb, fun _ hi => hi, hsame⟩
  | cons order orders ih =>
      intro a b ha hb hsame
      rcases convergeWith_same hx ha hb hsame order.1 order.2 with
        ⟨a₁, b₁, heq, ha₁, hb₁, hkeep₁, hsame₁⟩
      rcases ih ha₁ hb₁ hsame₁ with ⟨ress, a', b', heq', hok, ha', hb', hkeep, hsame'⟩
      refine ⟨.ok () :: ress, a', b', ?_, ?_, ha', hb', fun i hi => hkeep i (hkeep₁ i hi), hsame'⟩
      · simp only [convergeMany, heq, heq']
      · simpa using hok

/-- One call more than there are parked events makes the logs equal. -/
theorem convergeMany_run (hx : Exchange room evs)
    (orders : List (IterOrder SignedEvent × IterOrder SignedEvent)) :
    ∀ {a b : DeviceNode}, Party evs a → Party evs b → a.inboxLen + b.inboxLen < orders.length →
    ∃ ress a' b', convergeMany room orders a b = (ress, a', b') ∧ (∀ res ∈ ress, res = .ok ()) ∧
      Party evs a' ∧ Party evs b' ∧ (∀ i, i ∈ a.events ∨ i ∈ b.events → i ∈ a'.events) ∧
      SameLog a' b' := by
  induction orders with
  | nil =>
      intro a b _ _ hlen
      exact absurd hlen (Nat.not_lt_zero _)
  | cons order orders ih =>
      intro a b ha hb hlen
      rcases convergeWith_step hx ha hb order.1 order.2 with
        ⟨a₁, b₁, heq, ha₁, hb₁, hcov, hexact | hlt⟩
      · have hsame₁ : SameLog a₁ b₁ := fun i => (hexact i).1.trans (hexact i).2.symm
        rcases convergeMany_same hx orders ha₁ hb₁ hsame₁ with
          ⟨ress, a', b', heq', hok, ha', hb', hkeep, hsame'⟩
        refine ⟨.ok () :: ress, a', b', ?_, by simpa using hok, ha', hb', ?_, hsame'⟩
        · simp only [convergeMany, heq, heq']
        · intro i hi
          exact hkeep i (hcov i hi).1
      · rw [List.length_cons] at hlen
        rcases ih ha₁ hb₁ (by omega) with ⟨ress, a', b', heq', hok, ha', hb', hkeep, hsame'⟩
        refine ⟨.ok () :: ress, a', b', ?_, by simpa using hok, ha', hb', ?_, hsame'⟩
        · simp only [convergeMany, heq, heq']
        · intro i hi
          exact hkeep i (Or.inl (hcov i hi).1)

/-- Equal logs have equal tips. -/
theorem Party.tips_same (hx : Exchange room evs) (ha : Party evs a) (hb : Party evs b)
    (hsame : SameLog a b) {i : EventId} (hi : i ∈ a.tips room) : i ∈ b.tips room := by
  have hlook : ∀ {c c' : DeviceNode}, Party evs c → Party evs c' → (∀ j, j ∈ c.events → j ∈ c'.events) →
      ∀ {j e}, c.events.lookup j = some e → c'.events.lookup j = some e := by
    intro c c' hc hc' hsub j e he
    rcases HashMap.mem_iff_lookup.1 (hsub j (HashMap.mem_of_lookup he)) with ⟨e', he'⟩
    have hid : e.id = j := hc.sound.log.keyed he
    have hid' : e'.id = j := hc'.sound.log.keyed he'
    have hmem : e ∈ evs := hc.held (Or.inl (by subst hid; exact he))
    have hmem' : e' ∈ evs := hc'.held (Or.inl (by subst hid'; exact he'))
    rw [hx.ids e hmem e' hmem' (hid.trans hid'.symm)]
    exact he'
  rw [ha.sound.log.mem_tips] at hi
  rw [hb.sound.log.mem_tips]
  rcases hi with ⟨⟨e, he, hroom⟩, hno⟩
  refine ⟨⟨e, hlook ha hb (fun j => (hsame j).1) he, hroom⟩, ?_⟩
  intro c e' he' hroom'
  exact hno (hlook hb ha (fun j => (hsame j).2) he') hroom'

/-- After as many calls as there are parked events, and one more, both nodes have one log that holds
both original logs, and one tip set; with empty inboxes the one call makes it their union. -/
theorem convergeMany_converges (hx : Exchange room evs) (ha : ReachedBy evs a)
    (hb : ReachedBy evs b) (orders : List (IterOrder SignedEvent × IterOrder SignedEvent))
    (hk : orders.length = a.inboxLen + b.inboxLen + 1) :
    let out := convergeMany room orders a b
    (∀ res ∈ out.1, res = .ok ()) ∧
    (∀ i, i ∈ out.2.1.roomEventIds room ↔ i ∈ out.2.2.roomEventIds room) ∧
    (∀ i, i ∈ a.roomEventIds room ∨ i ∈ b.roomEventIds room → i ∈ out.2.1.roomEventIds room) ∧
    (∀ i, i ∈ out.2.1.tips room ↔ i ∈ out.2.2.tips room) ∧
    (a.inboxLen = 0 → b.inboxLen = 0 → ∀ i, i ∈ out.2.1.roomEventIds room ↔
      i ∈ a.roomEventIds room ∨ i ∈ b.roomEventIds room) := by
  have hpa : Party evs a := ha.party hx
  have hpb : Party evs b := hb.party hx
  rcases convergeMany_run hx orders hpa hpb (by omega) with
    ⟨ress, a', b', heq, hok, hpa', hpb', hcov, hsame⟩
  intro out
  have hout : out = (ress, a', b') := heq
  rw [hout]
  refine ⟨hok, ?_, ?_, ?_, ?_⟩
  · intro i
    rw [hpa'.mem_roomEventIds hx, hpb'.mem_roomEventIds hx]
    exact hsame i
  · intro i hi
    rw [hpa.mem_roomEventIds hx, hpb.mem_roomEventIds hx] at hi
    exact (hpa'.mem_roomEventIds hx).2 (hcov i hi)
  · intro i
    exact ⟨hpa'.tips_same hx hpb' hsame, hpb'.tips_same hx hpa' (fun j => (hsame j).symm)⟩
  · intro hia hib i
    rw [hpa'.mem_roomEventIds hx, hpa.mem_roomEventIds hx, hpb.mem_roomEventIds hx]
    -- nobody waits for a parent, so one round is all
    have hone : orders.length = 1 := by omega
    rcases List.length_eq_one_iff.1 hone with ⟨order, rfl⟩
    rcases convergeWith_step hx hpa hpb order.1 order.2 with ⟨a₁, b₁, heq₁, _, _, _, hexact | hlt⟩
    · have hEq : a₁ = a' := by
        simp only [convergeMany, heq₁, Prod.mk.injEq] at heq
        exact heq.2.1
      rw [← hEq]
      exact (hexact i).1
    · omega

end Calls

end Nodes

/-! ## A run: one side waits for what the other has -/

section Example

open Checksum

attribute [local instance] Checksum.primitives

/-- The first node has `hello`, the second waits for it to take `reply`. -/
theorem convergeMany_converges_reply :
    (convergeMany (room 1) [(IterOrder.stored, IterOrder.stored), (IterOrder.stored, IterOrder.stored)]
      ((DeviceNode.new (device 1)).commit hello true).2
      ((DeviceNode.new (device 2)).commit reply false).2).1.length = 2 ∧
    ∀ res ∈ (convergeMany (room 1) [(IterOrder.stored, IterOrder.stored),
        (IterOrder.stored, IterOrder.stored)]
      ((DeviceNode.new (device 1)).commit hello true).2
      ((DeviceNode.new (device 2)).commit reply false).2).1, res = .ok () := by
  have hmem : ∀ e ∈ ({hello, reply} : Set SignedEvent), e = hello ∨ e = reply := by
    simp
  have hexch : Exchange (room 1) {hello, reply} := by
    refine ⟨?_, ?_, ?_⟩
    · intro e he
      rcases hmem e he with rfl | rfl
      · exact event_verified _ _ _ _ _ _
      · exact event_verified _ _ _ _ _ _
    · intro e he
      rcases hmem e he with rfl | rfl <;> rfl
    · intro e he e' he' hid
      rcases hmem e he with rfl | rfl <;> rcases hmem e' he' with rfl | rfl
      · rfl
      · exact absurd hid.symm reply_ne_hello
      · exact absurd hid reply_ne_hello
      · rfl
  have ha : ReachedBy {hello, reply} ((DeviceNode.new (device 1)).commit hello true).2 :=
    ReachedBy.commit true (ReachedBy.new _) (by simp)
  have hb : ReachedBy {hello, reply} ((DeviceNode.new (device 2)).commit reply false).2 :=
    ReachedBy.commit false (ReachedBy.new _) (by simp)
  refine ⟨length_convergeMany _ _ _ _, ?_⟩
  exact (convergeMany_converges hexch ha hb _ (by decide +kernel)).1

end Example

end DeviceNode
end Node
end Thunderducks
