import Thunderducks.Node.Drain

/-!
# Commit — `commit_local` and `commit_remote` from any sound node

`Sound` is kept by every commit, whatever it returns.  `Offered evs node node'` is what a run of
commits that all succeed does with the events `evs`: each ends in the log or in the inbox, and
from a settled node the log grows to exactly what the events supply.
-/

namespace Thunderducks
namespace Node
namespace DeviceNode

open Lib Event

variable [Primitives]

/-- The invariant of every node that commits have built. -/
structure Sound (node : DeviceNode) : Prop where
  log : node.LogCoherent
  verified : ∀ e ∈ node.inbox, Verified e
  nodup : (node.inbox.map SignedEvent.id).Nodup

theorem Sound.new (d : DeviceId) (store : Option SqliteStore) :
    { DeviceNode.new d with durable := store }.Sound := by
  refine ⟨(LogCoherent.new d).congr rfl (fun _ => rfl), ?_, ?_⟩ <;> simp [DeviceNode.new]

/-- Parked events with one id are one event. -/
theorem Sound.parked_ext {node : DeviceNode} (h : node.Sound) {x y : SignedEvent}
    (hx : x ∈ node.inbox) (hy : y ∈ node.inbox) (hid : x.id = y.id) : x = y :=
  List.inj_on_of_nodup_map h.nodup hx hy hid

/-! ## The outcomes of one call -/

section Outcomes

variable {node : DeviceNode} {ev : SignedEvent}

/-- Every way `ingest_event` can end on a verified event. -/
inductive Outcome (node : DeviceNode) (ev : SignedEvent) : Except SyncError Bool → DeviceNode → Prop
  | known : ev.id ∈ node.events → Outcome node ev (.ok false) node
  | waits : ev.id ∉ node.events → node.parentsOk ev = false →
      Outcome node ev (.ok false) (node.park ev)
  | refused {e : SyncError} {node' : DeviceNode} : ev.id ∉ node.events →
      (∀ p ∈ ev.parents, p ∈ node.events) → ¬ node.SameRoom ev → Untouched node node' →
      Outcome node ev (.error e) node'
  | unwritten {e : SyncError} {node' : DeviceNode} : ev.id ∉ node.events →
      (∀ p ∈ ev.parents, p ∈ node.events) → node.SameRoom ev → ¬ node.Reliable →
      Took node ev node' → Outcome node ev (.error e) node'
  | drained {node₁ node' : DeviceNode} : ev.id ∉ node.events →
      (∀ p ∈ ev.parents, p ∈ node.events) → node.SameRoom ev → Took node ev node₁ →
      Drained node₁ node' → Outcome node ev (.ok true) node'
  | broken {e : SyncError} {node₁ node' : DeviceNode} : ev.id ∉ node.events →
      (∀ p ∈ ev.parents, p ∈ node.events) → node.SameRoom ev → Took node ev node₁ →
      Broken node₁.inbox node₁ node' → Outcome node ev (.error e) node'

omit [Primitives] in
/-- Queueing for the outbox is no part of what `Took` fixes. -/
theorem Took.queued {node₁ : DeviceNode} (h : Took node ev node₁) (toOutbox : Bool) :
    Took node ev (if toOutbox then { node₁ with outbox := node₁.outbox ++ [ev] } else node₁) := by
  cases toOutbox with
  | false => exact h
  | true => exact ⟨h.events, h.dags, h.inbox, h.reliable, h.persisted⟩

theorem ingestEvent_outcome (h : node.Sound) (hv : Verified ev) (toOutbox : Bool) :
    Outcome node ev (node.ingestEvent ev toOutbox).1 (node.ingestEvent ev toOutbox).2 := by
  unfold ingestEvent
  split
  · exact Outcome.known ‹_›
  next hnew =>
  split
  · exact Outcome.waits hnew ‹_›
  next hok =>
  have hp : ∀ p ∈ ev.parents, p ∈ node.events := parentsOk_iff.1 (by simpa using hok)
  rcases step_cases h.log hv hnew hp with ⟨hroom, node₁, hing, htook, hrel⟩ | ⟨hroom, q, node₁, hing, hunt⟩
  · rw [hing]
    dsimp only
    cases hrec : node₁.record ev with
    | mk res node₂ =>
        rw [hrec] at htook hrel
        cases res with
        -- the DAG has the event, the log does not
        | error e =>
            refine Outcome.unwritten hnew hp hroom ?_ htook
            intro hr
            cases hrel hr
        | ok u =>
            have hq := htook.queued toOutbox
            have hg := Grew.took h.log hnew hp hroom (Set.mem_singleton ev) hq
            have hdrain := drainInbox_spec hg.coherent (by simpa [hq.inbox] using h.verified)
              (by simpa [hq.inbox] using h.nodup)
            rcases hdrain with ⟨node', heq, hdr⟩ | ⟨e, node', heq, hbrk⟩
            · simp only [heq]
              exact Outcome.drained hnew hp hroom hq hdr
            · simp only [heq]
              exact Outcome.broken hnew hp hroom hq hbrk
  · rw [hing]
    exact Outcome.refused hnew hp hroom hunt

omit [Primitives] in
theorem mem_park {x : SignedEvent} : x ∈ (node.park ev).inbox → x ∈ node.inbox ∨ x = ev := by
  unfold park
  split
  · exact Or.inl
  · simp

omit [Primitives] in
/-- Parking changes the inbox only, and adds at most the event at its end. -/
theorem park_frame (node : DeviceNode) (ev : SignedEvent) :
    ∃ inbox, node.park ev = { node with inbox := inbox } ∧ node.inbox.Sublist inbox := by
  unfold park
  split
  · exact ⟨node.inbox, rfl, List.Sublist.refl _⟩
  · exact ⟨node.inbox ++ [ev], rfl, List.sublist_append_left _ _⟩

theorem Sound.park (h : node.Sound) (hv : Verified ev) : (node.park ev).Sound := by
  unfold DeviceNode.park
  split
  · exact h
  next hnone =>
  refine ⟨h.log.congr rfl (fun _ => rfl), ?_, ?_⟩
  · intro e he
    rcases List.mem_append.1 he with he | he
    · exact h.verified e he
    · rw [List.mem_singleton.1 he]
      exact hv
  · have hid : ev.id ∉ node.inbox.map SignedEvent.id := by
      simpa using hnone
    simp only [List.map_append, List.map_cons, List.map_nil]
    exact List.nodup_append.2 ⟨h.nodup, by simp, by
      intro a ha b hb hab
      exact hid (by simp_all)⟩

/-- A shorter inbox keeps the invariant. -/
theorem Sound.of_grew {pool : Set SignedEvent} {node' : DeviceNode} (h : node.Sound)
    (hg : Grew pool node node') (hsub : node'.inbox.Sublist node.inbox) : node'.Sound :=
  ⟨hg.coherent, fun e he => h.verified e (hsub.subset he), h.nodup.sublist (hsub.map _)⟩

omit [Primitives] in
/-- The events a call may take: those parked and the one it is given. -/
theorem Outcome.grew {res : Except SyncError Bool} {node' : DeviceNode} (h : node.LogCoherent)
    (ho : Outcome node ev res node') : Grew (node.parked ∪ {ev}) node node' := by
  have hparked : ∀ {node₁ : DeviceNode}, Took node ev node₁ → node₁.parked ⊆ node.parked ∪ {ev} := by
    intro node₁ htook x hx
    refine Or.inl ?_
    have hx' : x ∈ node₁.inbox := hx
    rwa [htook.inbox] at hx'
  cases ho with
  | known _ => exact Grew.refl h
  | waits _ _ =>
      rcases park_frame node ev with ⟨inbox, heq, _⟩
      rw [heq]
      exact (Grew.refl h).withInbox inbox
  | refused _ _ _ hunt => exact Grew.untouched h hunt
  | unwritten hnew hp hroom _ htook => exact Grew.took h hnew hp hroom (by simp) htook
  | drained hnew hp hroom htook hdr =>
      exact (Grew.took h hnew hp hroom (by simp) htook).trans (hdr.grew.mono (hparked htook))
  | broken hnew hp hroom htook hbrk =>
      exact (Grew.took h hnew hp hroom (by simp) htook).trans (hbrk.grew.mono (hparked htook))

omit [Primitives] in
/-- Whatever a call returns, it parks nothing but the event it is given. -/
theorem Outcome.parked_subset {res : Except SyncError Bool} {node' : DeviceNode}
    (ho : Outcome node ev res node') : node'.parked ⊆ node.parked ∪ {ev} := by
  have hsub : ∀ {inbox : List SignedEvent} {node₁ : DeviceNode}, inbox.Sublist node₁.inbox →
      node₁.inbox = node.inbox → ∀ x ∈ inbox, x ∈ node.parked ∪ {ev} := by
    intro inbox node₁ hsubl heq x hx
    have hx' : x ∈ node.inbox := heq ▸ hsubl.subset hx
    exact Or.inl hx'
  intro x hx
  cases ho with
  | known _ => exact Or.inl hx
  | waits _ _ => exact mem_park hx
  | refused _ _ _ hunt => exact hsub (List.Sublist.refl _) hunt.inbox x hx
  | unwritten _ _ _ _ htook => exact hsub (List.Sublist.refl _) htook.inbox x hx
  | drained _ _ _ htook hdr => exact hsub hdr.inbox htook.inbox x hx
  | broken _ _ _ htook hbrk => exact hsub hbrk.inbox htook.inbox x hx

theorem Outcome.sound {res : Except SyncError Bool} {node' : DeviceNode} (h : node.Sound)
    (hv : Verified ev) (ho : Outcome node ev res node') : node'.Sound := by
  have hg := ho.grew h.log
  cases ho with
  | known _ => exact h
  | waits _ _ => exact h.park hv
  | refused _ _ _ hunt => exact h.of_grew hg (by rw [hunt.inbox])
  | unwritten _ _ _ _ htook => exact h.of_grew hg (by rw [htook.inbox])
  | drained _ _ _ htook hdr => exact h.of_grew hg (htook.inbox ▸ hdr.inbox)
  | broken _ _ _ htook hbrk => exact h.of_grew hg (htook.inbox ▸ hbrk.inbox)

end Outcomes

/-! ## Reachable nodes -/

/-- The nodes that calls of `commit_local` and `commit_remote` build. -/
inductive Reachable : DeviceNode → Prop
  | new (d : DeviceId) (store : Option SqliteStore) :
      Reachable { DeviceNode.new d with durable := store }
  | commit {node : DeviceNode} (ev : SignedEvent) (toOutbox : Bool) : Reachable node →
      Reachable (node.commit ev toOutbox).2

theorem commit_verified {node : DeviceNode} {ev : SignedEvent} (hv : Verified ev)
    (toOutbox : Bool) : node.commit ev toOutbox = node.ingestEvent ev toOutbox := by
  have hv' : verifyEvent ev = .ok () := hv
  simp [commit, hv']

/-- An event that does not verify is refused before anything changes. -/
theorem commit_unverified {node : DeviceNode} {ev : SignedEvent} (hv : ¬ Verified ev)
    (toOutbox : Bool) : ∃ e, node.commit ev toOutbox = (.error (.event e), node) := by
  cases h : verifyEvent ev with
  | ok u => exact absurd h hv
  | error e => exact ⟨e, by simp [commit, h]⟩

theorem commit_outcome {node : DeviceNode} {ev : SignedEvent} (h : node.Sound) (hv : Verified ev)
    (toOutbox : Bool) :
    Outcome node ev (node.commit ev toOutbox).1 (node.commit ev toOutbox).2 := by
  rw [commit_verified hv]
  exact ingestEvent_outcome h hv toOutbox

theorem Sound.commit {node : DeviceNode} (h : node.Sound) (ev : SignedEvent) (toOutbox : Bool) :
    (node.commit ev toOutbox).2.Sound := by
  by_cases hv : Verified ev
  · exact (commit_outcome h hv toOutbox).sound h hv
  · rcases commit_unverified hv toOutbox with ⟨e, heq⟩
    rw [heq]
    exact h

theorem Reachable.sound {node : DeviceNode} (h : Reachable node) : node.Sound := by
  induction h with
  | new d store => exact Sound.new d store
  | commit ev toOutbox _ ih => exact ih.commit ev toOutbox

/-! ## Runs of commits that all succeed -/

/-- No event of `evs` names as a parent an event of another room. -/
def RoomLocal (evs : Set SignedEvent) : Prop :=
  ∀ x ∈ evs, ∀ y ∈ evs, y.id ∈ x.parents → y.roomId = x.roomId

omit [Primitives] in
theorem RoomLocal.mono {evs evs' : Set SignedEvent} (h : RoomLocal evs') (hsub : evs ⊆ evs') :
    RoomLocal evs :=
  fun x hx y hy => h x (hsub hx) y (hsub hy)

/-- All events a node knows: its log and its inbox. -/
def held (node : DeviceNode) : Set SignedEvent :=
  node.accepted ∪ node.parked

structure Offered (evs : Set SignedEvent) (node node' : DeviceNode) : Prop where
  grew : Grew (node.parked ∪ evs) node node'
  inbox : node'.parked ⊆ node.parked ∪ evs
  cover : ∀ x ∈ node.parked ∪ evs, x ∈ node'.parked ∨ x.id ∈ node'.events
  sound : node'.Sound
  settled : node.Settled → node'.Settled

namespace Offered

variable {evs evs' : Set SignedEvent} {node node₁ node₂ : DeviceNode}

theorem refl (h : node.Sound) : Offered ∅ node node := by
  refine ⟨Grew.refl h.log, by simp, ?_, h, id⟩
  intro x hx
  exact Or.inl (by simpa using hx)

theorem trans (h₁ : Offered evs node node₁) (h₂ : Offered evs' node₁ node₂) :
    Offered (evs ∪ evs') node node₂ := by
  have hpool : node₁.parked ∪ evs' ⊆ node.parked ∪ (evs ∪ evs') := by
    rintro x (hx | hx)
    · rcases h₁.inbox hx with hx | hx
      · exact Or.inl hx
      · exact Or.inr (Or.inl hx)
    · exact Or.inr (Or.inr hx)
  have hpool₁ : node.parked ∪ evs ⊆ node.parked ∪ (evs ∪ evs') :=
    Set.union_subset_union_right _ Set.subset_union_left
  refine ⟨(h₁.grew.mono hpool₁).trans (h₂.grew.mono hpool), h₂.inbox.trans hpool, ?_, h₂.sound,
    fun hs => h₂.settled (h₁.settled hs)⟩
  -- what the first run accounts for, the second keeps
  have hkeep : ∀ x ∈ node.parked ∪ evs, x ∈ node₂.parked ∨ x.id ∈ node₂.events := by
    intro x hx
    rcases h₁.cover x hx with hp | hl
    · exact h₂.cover x (Or.inl hp)
    · exact Or.inr (h₂.grew.mem hl)
  rintro x (hx | hx | hx)
  · exact hkeep x (Or.inl hx)
  · exact hkeep x (Or.inr hx)
  · exact h₂.cover x (Or.inr hx)

/-- The node holds nothing but what it held and was offered. -/
theorem held_subset (h : Offered evs node node₁) : node₁.held ⊆ node.held ∪ evs := by
  rintro x (hx | hx)
  · have hl : node₁.events.lookup x.id = some x := hx
    rcases h.grew.fresh hl with hold | ⟨_, hp | he⟩
    · exact Or.inl (Or.inl hold)
    · exact Or.inl (Or.inr hp)
    · exact Or.inr he
  · rcases h.inbox hx with hp | he
    · exact Or.inl (Or.inr hp)
    · exact Or.inr he

/-- What a run that offers `evs'` next has to do with. -/
theorem held_rest (h : Offered evs node node₁) (evs' : Set SignedEvent) :
    node₁.held ∪ evs' ⊆ node.held ∪ (evs ∪ evs') := by
  rintro x (hx | hx)
  · rcases h.held_subset hx with hx | hx
    · exact Or.inl hx
    · exact Or.inr (Or.inl hx)
  · exact Or.inr (Or.inr hx)

/-- The log of a settled node is what the events supply. -/
theorem mem_events (h : Offered evs node node₁) (hs : node₁.Settled) {i : EventId} :
    i ∈ node₁.events ↔ Supplied node.logIds (node.parked ∪ evs) i :=
  h.grew.mem_events hs h.cover

end Offered

/-- Of the events waiting and given, those whose parents come to be in the log name no parent of
another room. -/
def ReadyLocal (node : DeviceNode) (evs : Set SignedEvent) : Prop :=
  ∀ x ∈ node.parked ∪ evs, (∀ p ∈ x.parents, Supplied node.logIds (node.parked ∪ evs) p) →
    ∀ y ∈ node.held ∪ evs, y.id ∈ x.parents → y.roomId = x.roomId

omit [Primitives] in
theorem RoomLocal.ready {node : DeviceNode} {evs : Set SignedEvent}
    (h : RoomLocal (node.held ∪ evs)) : node.ReadyLocal evs := by
  intro x hx _ y hy hp
  refine h x ?_ y hy hp
  rcases hx with hx | hx
  · exact Or.inl (Or.inr hx)
  · exact Or.inr hx

omit [Primitives] in
theorem ReadyLocal.mono {node : DeviceNode} {evs evs' : Set SignedEvent}
    (h : node.ReadyLocal evs') (hsub : evs ⊆ evs') : node.ReadyLocal evs := by
  have hpool : node.parked ∪ evs ⊆ node.parked ∪ evs' := Set.union_subset_union_right _ hsub
  intro x hx hps y hy hp
  refine h x (hpool hx) ?_ y (Set.union_subset_union_right _ hsub hy) hp
  intro p hpx
  exact (hps p hpx).mono (fun _ hj => hj) hpool

/-- After some of the events the others meet the same condition. -/
theorem ReadyLocal.rest {node node₁ : DeviceNode} {evs evs' : Set SignedEvent}
    (h : node.ReadyLocal (evs ∪ evs')) (hoff : Offered evs node node₁) : node₁.ReadyLocal evs' := by
  have hsub : node.parked ∪ evs ⊆ node.parked ∪ (evs ∪ evs') :=
    Set.union_subset_union_right _ Set.subset_union_left
  have hpool : node₁.parked ∪ evs' ⊆ node.parked ∪ (evs ∪ evs') := by
    rintro x (hx | hx)
    · exact hsub (hoff.inbox hx)
    · exact Or.inr (Or.inr hx)
  intro x hx hps y hy hp
  refine h x (hpool hx) ?_ y ?_ hp
  · intro p hpx
    refine (hps p hpx).trans ?_ hpool
    intro j hj
    exact (hoff.grew.supplied j hj).mono (fun _ hk => hk) hsub
  · exact hoff.held_rest evs' hy

omit [Primitives] in
/-- An event that waits may be parked. -/
theorem Settled.park {node : DeviceNode} {ev : SignedEvent} (h : node.Settled)
    (hnew : ev.id ∉ node.events) (hwait : node.parentsOk ev = false) : (node.park ev).Settled := by
  rcases park_frame node ev with ⟨inbox, heq, _⟩
  intro x hx
  rw [parentsOk_congr (by rw [heq]), heq]
  rcases mem_park hx with hx | rfl
  · exact h x hx
  · exact ⟨hnew, hwait⟩

/-- A call that succeeds has offered its event to the node. -/
theorem Outcome.offered {node node' : DeviceNode} {ev : SignedEvent} {b : Bool} (h : node.Sound)
    (hv : Verified ev) (hids : IdsIdentify (node.held ∪ {ev})) (ho : Outcome node ev (.ok b) node') :
    Offered {ev} node node' := by
  have hg := ho.grew h.log
  have hsound := ho.sound h hv
  cases ho with
  | known hmem =>
      refine ⟨hg, Set.subset_union_left, ?_, hsound, id⟩
      rintro x (hx | rfl)
      · exact Or.inl hx
      · exact Or.inr hmem
  | waits hnew hwait =>
      rcases park_frame node ev with ⟨inbox, heq, hsub⟩
      refine ⟨hg, ?_, ?_, hsound, fun hs => hs.park hnew hwait⟩
      · intro x hx
        exact mem_park hx
      · -- an event parked under this id already stands for it
        rintro x (hx | rfl)
        · refine Or.inl ?_
          rw [heq]
          exact hsub.subset hx
        · refine Or.inl ?_
          by_cases hany : node.inbox.any (fun e => e.id = x.id) = true
          · rcases List.any_eq_true.1 hany with ⟨y, hy, hid⟩
            have hEq : y = x := hids y (Or.inl (Or.inr hy)) x (Or.inr rfl) (by simpa using hid)
            rw [heq]
            exact hsub.subset (hEq ▸ hy)
          · simp [parked, park, hany]
  | drained _ _ _ htook hdr =>
      refine ⟨hg, ?_, ?_, hsound, fun _ => hdr.settled⟩
      · intro x hx
        have hx' := hdr.inbox.subset hx
        rw [htook.inbox] at hx'
        exact Or.inl hx'
      · rintro x (hx | rfl)
        · exact hdr.cover x (by rw [htook.inbox]; exact hx)
        · refine Or.inr (hdr.grew.mem ?_)
          rw [htook.events]
          exact mem_take.2 (Or.inl rfl)

/-- A commit to a node that stays within its rooms succeeds. -/
theorem commit_offered {node : DeviceNode} {ev : SignedEvent} (h : node.Sound) (hv : Verified ev)
    (hr : node.Reliable) (hids : IdsIdentify (node.held ∪ {ev}))
    (hloc : node.ReadyLocal {ev}) (toOutbox : Bool) :
    ∃ b, (node.commit ev toOutbox).1 = .ok b ∧ Offered {ev} node (node.commit ev toOutbox).2 := by
  have hsame : ∀ {node' : DeviceNode} {x : SignedEvent}, node'.LogCoherent →
      node'.accepted ⊆ node.held ∪ {ev} → x ∈ node.parked ∪ {ev} →
      (∀ p ∈ x.parents, Supplied node.logIds (node.parked ∪ {ev}) p) → node'.SameRoom x := by
    intro node' x hc hacc hx hps p hp z hz
    have hid : z.id = p := hc.keyed hz
    subst hid
    exact hloc x hx hps z (hacc hz) hp
  have hfresh : ∀ {node' : DeviceNode}, Grew (node.parked ∪ {ev}) node node' →
      node'.accepted ⊆ node.held ∪ {ev} := by
    intro node' hg x hx
    rcases hg.fresh hx with hold | ⟨_, hp | he⟩
    · exact Or.inl (Or.inl hold)
    · exact Or.inl (Or.inr hp)
    · exact Or.inr he
  have ho := commit_outcome h hv toOutbox
  revert ho
  generalize (node.commit ev toOutbox).1 = res
  generalize (node.commit ev toOutbox).2 = node'
  intro ho
  have hg := ho.grew h.log
  cases res with
  | ok b => exact ⟨b, rfl, ho.offered h hv hids⟩
  | error e =>
      -- each way to fail is excluded by a hypothesis
      cases ho with
      | refused hnew hp hroom hunt =>
          have hps : ∀ p ∈ ev.parents, Supplied node.logIds (node.parked ∪ {ev}) p :=
            fun p hpx => Causal.Supplied.base (hp p hpx)
          exact absurd (hsame h.log (fun x hx => Or.inl (Or.inl hx)) (Or.inr rfl) hps) hroom
      | unwritten _ _ _ hrel _ => exact absurd hr hrel
      | broken hnew hp hroom htook hbrk =>
          rcases hbrk.cause with hrel | ⟨x, hx, hlost⟩
          · exact absurd (htook.reliable hr) hrel
          · have hx' : x ∈ node.parked ∪ {ev} := Or.inl (by rwa [htook.inbox] at hx)
            have hps : ∀ p ∈ x.parents, Supplied node.logIds (node.parked ∪ {ev}) p :=
              fun p hpx => hg.supplied p (hlost.parents p hpx)
            exact absurd (hsame hg.coherent (hfresh hg) hx' hps) hlost.otherRoom

end DeviceNode
end Node
end Thunderducks
