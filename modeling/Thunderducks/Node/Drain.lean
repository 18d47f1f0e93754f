import Thunderducks.Node.Coherence

/-!
# Drain — what the inbox drain takes, keeps and loses

`Grew pool node node'` says that `node'` came from `node` by taking events of `pool`, each after its
parents.  A drain that ends well is `Drained`: every parked event is in the log or still parked,
and what is still parked waits for a parent.  A drain that ends in an error is `Broken`: the popped
event and those the pass had kept are in neither place.
-/

namespace Thunderducks
namespace Node
namespace DeviceNode

open Lib Event

/-! ## Taking events of a pool -/

structure Grew (pool : Set SignedEvent) (node node' : DeviceNode) : Prop where
  coherent : node'.LogCoherent
  keeps : ∀ {i e}, node.events.lookup i = some e → node'.events.lookup i = some e
  fresh : ∀ {i e}, node'.events.lookup i = some e →
    node.events.lookup i = some e ∨ (i ∉ node.events ∧ e ∈ pool)
  supplied : ∀ i ∈ node'.events, Supplied node.logIds pool i
  reliable : node.Reliable → node'.Reliable
  persisted : node.Reliable → node.Persisted → node'.Persisted

namespace Grew

variable {pool pool' : Set SignedEvent} {node node₁ node₂ : DeviceNode} {ev : SignedEvent}

theorem mem (h : Grew pool node node₁) {i : EventId} (hi : i ∈ node.events) : i ∈ node₁.events := by
  rcases HashMap.mem_iff_lookup.1 hi with ⟨e, he⟩
  exact HashMap.mem_of_lookup (h.keeps he)

/-- The durable store and the log count, the inbox and the outbox do not. -/
theorem of_same (hc : node.LogCoherent) (he : node₁.events = node.events)
    (hd : ∀ room, node₁.dagOf room = node.dagOf room) (hs : node₁.durable = node.durable) :
    Grew pool node node₁ := by
  refine ⟨hc.congr he hd, ?_, ?_, ?_, ?_, ?_⟩
  · intro i e hl
    rw [he]
    exact hl
  · intro i e hl
    rw [he] at hl
    exact Or.inl hl
  · intro i hi
    rw [he] at hi
    exact Causal.Supplied.base hi
  · intro hr store hst
    exact hr store (hs ▸ hst)
  · intro _ hp store hst i hi
    rw [he] at hi
    exact hp store (hs ▸ hst) i hi

theorem refl (hc : node.LogCoherent) : Grew pool node node :=
  of_same hc rfl (fun _ => rfl) rfl

theorem untouched (hc : node.LogCoherent) (h : Untouched node node₁) : Grew pool node node₁ :=
  of_same hc h.events h.dagOf h.durable

theorem took (hc : node.LogCoherent) (hnew : ev.id ∉ node.events)
    (hp : ∀ p ∈ ev.parents, p ∈ node.events) (hroom : node.SameRoom ev) (hmem : ev ∈ pool)
    (h : Took node ev node₁) : Grew pool node node₁ := by
  have hdag : ∀ room, node₁.dagOf room = (node.take ev).dagOf room := by
    intro room
    unfold DeviceNode.dagOf
    rw [h.dags]
  refine ⟨(hc.take hnew hp hroom).congr h.events hdag, ?_, ?_, ?_, h.reliable, h.persisted⟩
  · intro i e hl
    have hne : i ≠ ev.id := by
      rintro rfl
      exact hnew (HashMap.mem_of_lookup hl)
    rw [h.events, lookup_take, if_neg hne]
    exact hl
  · intro i e hl
    rw [h.events, lookup_take] at hl
    split at hl
    · next hi =>
        cases hl
        exact Or.inr ⟨hi ▸ hnew, hmem⟩
    · exact Or.inl hl
  · intro i hi
    rw [h.events] at hi
    rcases mem_take.1 hi with rfl | hi
    · exact Causal.Supplied.item hmem (fun p hpe => Causal.Supplied.base (hp p hpe))
    · exact Causal.Supplied.base hi

theorem mono (h : Grew pool node node₁) (hsub : pool ⊆ pool') : Grew pool' node node₁ := by
  refine ⟨h.coherent, h.keeps, ?_, ?_, h.reliable, h.persisted⟩
  · intro i e hl
    rcases h.fresh hl with hold | ⟨hno, hmem⟩
    · exact Or.inl hold
    · exact Or.inr ⟨hno, hsub hmem⟩
  · intro i hi
    exact (h.supplied i hi).mono (Set.Subset.refl _) hsub

theorem trans (h₁ : Grew pool node node₁) (h₂ : Grew pool node₁ node₂) :
    Grew pool node node₂ := by
  refine ⟨h₂.coherent, fun hl => h₂.keeps (h₁.keeps hl), ?_, ?_, fun hr => h₂.reliable (h₁.reliable hr),
    fun hr hp => h₂.persisted (h₁.reliable hr) (h₁.persisted hr hp)⟩
  · intro i e hl
    rcases h₂.fresh hl with hold | ⟨hno, hmem⟩
    · exact h₁.fresh hold
    · exact Or.inr ⟨fun hi => hno (h₁.mem hi), hmem⟩
  · intro i hi
    exact (h₂.supplied i hi).trans h₁.supplied (Set.Subset.refl _)

/-- The inbox and the outbox may be replaced. -/
theorem withInbox (h : Grew pool node node₁) (inbox : List SignedEvent) :
    Grew pool node { node₁ with inbox := inbox } :=
  h.trans (of_same h.coherent rfl (fun _ => rfl) rfl)

end Grew

/-! ## One pass -/

/-- `x` was waiting, has all its parents in the log, one of them of another room, and is now neither
parked nor in the log. -/
structure Lost (node : DeviceNode) (x : SignedEvent) : Prop where
  unparked : x ∉ node.inbox
  unlogged : x.id ∉ node.events
  parents : ∀ p ∈ x.parents, p ∈ node.events
  otherRoom : ¬ node.SameRoom x

/-- A drain over `queue` that an error cut short. -/
structure Broken (queue : List SignedEvent) (node node' : DeviceNode) : Prop where
  grew : Grew {x | x ∈ queue} node node'
  inbox : node'.inbox.Sublist queue
  cause : ¬ node.Reliable ∨ ∃ x ∈ queue, node'.Lost x

/-- A pass over `queue` that reached its end, with `kept` put back. -/
structure Passed (queue kept : List SignedEvent) (progress progress' : Bool)
    (node node' : DeviceNode) : Prop where
  grew : Grew {x | x ∈ queue} node node'
  sub : kept.Sublist queue
  cover : ∀ x ∈ queue, x ∈ kept ∨ x.id ∈ node'.events
  shorter : progress' = true → progress = true ∨ kept.length < queue.length
  still : progress' = false → progress = false ∧ node'.events = node.events ∧
    ∀ x ∈ kept, x.id ∉ node.events ∧ node.parentsOk x = false

theorem parentsOk_congr {node node' : DeviceNode} (h : node'.events = node.events)
    (x : SignedEvent) : node'.parentsOk x = node.parentsOk x := by
  unfold parentsOk
  rw [h]

section Pass

variable [Primitives] {node : DeviceNode} {ev : SignedEvent}

/-- What the pass does with the event it pops. -/
theorem drainPass_cons (h : node.LogCoherent) (hv : Verified ev) (queue rest : List SignedEvent)
    (progress : Bool) :
    (ev.id ∈ node.events ∧
      node.drainPass (ev :: queue) rest progress = node.drainPass queue rest progress) ∨
    (ev.id ∉ node.events ∧ node.parentsOk ev = false ∧
      node.drainPass (ev :: queue) rest progress = node.drainPass queue (rest ++ [ev]) progress) ∨
    (ev.id ∉ node.events ∧ (∀ p ∈ ev.parents, p ∈ node.events) ∧ node.SameRoom ev ∧
      ∃ node₁, Took node ev node₁ ∧
        (node.drainPass (ev :: queue) rest progress = node₁.drainPass queue rest true ∨
          (¬ node.Reliable ∧ ∃ e, node.drainPass (ev :: queue) rest progress =
            (.error e, { node₁ with inbox := queue })))) ∨
    (ev.id ∉ node.events ∧ (∀ p ∈ ev.parents, p ∈ node.events) ∧ ¬ node.SameRoom ev ∧
      ∃ e node₁, Untouched node node₁ ∧ node.drainPass (ev :: queue) rest progress =
        (.error e, { node₁ with inbox := queue })) := by
  by_cases hmem : ev.id ∈ node.events
  · exact Or.inl ⟨hmem, by simp [drainPass, hmem]⟩
  refine Or.inr ?_
  cases hok : node.parentsOk ev with
  | false => exact Or.inl ⟨hmem, rfl, by simp [drainPass, hmem, hok]⟩
  | true =>
      have hp : ∀ p ∈ ev.parents, p ∈ node.events := parentsOk_iff.1 hok
      refine Or.inr ?_
      rcases step_cases h hv hmem hp with ⟨hroom, node₁, hing, htook, hrel⟩ | ⟨hroom, q, node₁, hing, hunt⟩
      · refine Or.inl ⟨hmem, hp, hroom, (node₁.record ev).2, htook, ?_⟩
        cases hrec : (node₁.record ev).1 with
        | ok u =>
            refine Or.inl ?_
            have hpair : node₁.record ev = (.ok (), (node₁.record ev).2) := by
              rw [← hrec]
            rw [drainPass, if_neg hmem, hok, if_neg (by decide), hing]
            simp only
            rw [hpair]
        -- the row could not be written: the pass ends with the event in the log
        | error e =>
            refine Or.inr ⟨?_, .store e, ?_⟩
            · intro hr
              rw [hrel hr] at hrec
              cases hrec
            · have hpair : node₁.record ev = (.error e, (node₁.record ev).2) := by
                rw [← hrec]
              rw [drainPass, if_neg hmem, hok, if_neg (by decide), hing]
              simp only
              rw [hpair]
      · refine Or.inr ⟨hmem, hp, hroom, .dag (.missingParent q), node₁, hunt, ?_⟩
        rw [drainPass, if_neg hmem, hok, if_neg (by decide), hing]

omit [Primitives] in
theorem Broken.cons {queue : List SignedEvent} {node₁ node' : DeviceNode}
    (hg : Grew {x | x ∈ ev :: queue} node node₁) (h : Broken queue node₁ node') :
    Broken (ev :: queue) node node' := by
  have hsub : {x | x ∈ queue} ⊆ {x | x ∈ ev :: queue} := fun x hx => List.mem_cons_of_mem _ hx
  refine ⟨hg.trans (h.grew.mono hsub), h.inbox.cons ev, ?_⟩
  rcases h.cause with hrel | ⟨x, hx, hlost⟩
  · exact Or.inl fun hr => hrel (hg.reliable hr)
  · exact Or.inr ⟨x, List.mem_cons_of_mem _ hx, hlost⟩

omit [Primitives] in
/-- The tail of the queue runs from `node₁`, which is `node` or has taken `ev`. -/
theorem Passed.cons_logged {queue kept : List SignedEvent} {progress progress₁ p : Bool}
    {node₁ node' : DeviceNode} (hg : Grew {x | x ∈ ev :: queue} node node₁) (hmem : ev.id ∈ node₁.events)
    (hstill : progress₁ = false → progress = false ∧ node₁ = node)
    (h : Passed queue kept progress₁ p node₁ node') : Passed (ev :: queue) kept progress p node node' := by
  have hsub : {x | x ∈ queue} ⊆ {x | x ∈ ev :: queue} := fun x hx => List.mem_cons_of_mem _ hx
  refine ⟨hg.trans (h.grew.mono hsub), h.sub.cons ev, ?_, ?_, ?_⟩
  · intro x hx
    rcases List.mem_cons.1 hx with rfl | hx
    · exact Or.inr (h.grew.mem hmem)
    · exact h.cover x hx
  · intro _
    refine Or.inr ?_
    have hle : kept.length ≤ queue.length := h.sub.length_le
    simp only [List.length_cons]
    omega
  · intro hp
    rcases h.still hp with ⟨hp₁, he, hkept⟩
    rcases hstill hp₁ with ⟨hp₀, rfl⟩
    exact ⟨hp₀, he, hkept⟩

omit [Primitives] in
/-- An event that waits heads what the tail of the queue keeps. -/
theorem Passed.cons_kept {queue kept : List SignedEvent} {progress p : Bool} {node' : DeviceNode}
    (hnew : ev.id ∉ node.events) (hwait : node.parentsOk ev = false)
    (h : Passed queue kept progress p node node') :
    Passed (ev :: queue) (ev :: kept) progress p node node' := by
  have hsub : {x | x ∈ queue} ⊆ {x | x ∈ ev :: queue} := fun x hx => List.mem_cons_of_mem _ hx
  refine ⟨h.grew.mono hsub, h.sub.cons_cons ev, ?_, ?_, ?_⟩
  · intro x hx
    rcases List.mem_cons.1 hx with rfl | hx
    · exact Or.inl (by simp)
    · rcases h.cover x hx with hk | hl
      · exact Or.inl (List.mem_cons_of_mem _ hk)
      · exact Or.inr hl
  · intro hp
    rcases h.shorter hp with hp' | hlt
    · exact Or.inl hp'
    · refine Or.inr ?_
      simpa using hlt
  · intro hp
    rcases h.still hp with ⟨hp₀, he, hkept⟩
    refine ⟨hp₀, he, ?_⟩
    intro x hx
    rcases List.mem_cons.1 hx with rfl | hx
    · exact ⟨hnew, hwait⟩
    · exact hkept x hx

/-- The pass over a queue of verified events with distinct ids, from any coherent node. -/
theorem drainPass_spec (queue : List SignedEvent) (hv : ∀ e ∈ queue, Verified e)
    (hnd : (queue.map SignedEvent.id).Nodup) :
    ∀ (node : DeviceNode) (rest : List SignedEvent) (progress : Bool), node.LogCoherent →
      (∃ p kept node', node.drainPass queue rest progress = (.ok p, node') ∧
        node'.inbox = rest ++ kept ∧ Passed queue kept progress p node node') ∨
      (∃ e node', node.drainPass queue rest progress = (.error e, node') ∧
        Broken queue node node') := by
  induction queue with
  | nil =>
      intro node rest progress h
      refine Or.inl ⟨progress, [], { node with inbox := rest }, rfl, by simp, ?_⟩
      refine ⟨(Grew.refl h).withInbox rest, List.Sublist.refl _, by simp, Or.inl, ?_⟩
      intro hp
      exact ⟨hp, rfl, by simp⟩
  | cons ev queue ih =>
      intro node rest progress h
      have hvt : ∀ e ∈ queue, Verified e := fun e he => hv e (List.mem_cons_of_mem _ he)
      have hndt : (queue.map SignedEvent.id).Nodup := (List.nodup_cons.1 hnd).2
      have hout : ev ∉ queue := fun hq =>
        (List.nodup_cons.1 hnd).1 (List.mem_map_of_mem hq)
      -- known, waiting, taken, or refused by its room
      rcases drainPass_cons h (hv ev (by simp)) queue rest progress with
        ⟨hmem, heq⟩ | ⟨hnew, hwait, heq⟩ | ⟨hnew, hp, hroom, node₁, htook, hcase⟩ |
        ⟨hnew, hp, hroom, e, node₁, hunt, heq⟩
      · rw [heq]
        rcases ih hvt hndt node rest progress h with ⟨p, kept, node', heq', hin, hpass⟩ | ⟨e, node', heq', hbrk⟩
        · exact Or.inl ⟨p, kept, node', heq', hin,
            hpass.cons_logged (Grew.refl h) hmem fun hp => ⟨hp, rfl⟩⟩
        · exact Or.inr ⟨e, node', heq', hbrk.cons (Grew.refl h)⟩
      · rw [heq]
        rcases ih hvt hndt node (rest ++ [ev]) progress h with
          ⟨p, kept, node', heq', hin, hpass⟩ | ⟨e, node', heq', hbrk⟩
        · exact Or.inl ⟨p, ev :: kept, node', heq', by simp [hin], hpass.cons_kept hnew hwait⟩
        · exact Or.inr ⟨e, node', heq', hbrk.cons (Grew.refl h)⟩
      · have hg : Grew {x | x ∈ ev :: queue} node node₁ :=
          Grew.took h hnew hp hroom (by simp) htook
        have hmem : ev.id ∈ node₁.events := by
          rw [htook.events]
          exact mem_take.2 (Or.inl rfl)
        rcases hcase with heq | ⟨hrel, e, heq⟩
        · rw [heq]
          rcases ih hvt hndt node₁ rest true hg.coherent with
            ⟨p, kept, node', heq', hin, hpass⟩ | ⟨e, node', heq', hbrk⟩
          · exact Or.inl ⟨p, kept, node', heq', hin,
              hpass.cons_logged hg hmem fun hp => absurd hp (by decide)⟩
          · exact Or.inr ⟨e, node', heq', hbrk.cons hg⟩
        · exact Or.inr ⟨e, _, heq, hg.withInbox queue, List.sublist_cons_self ev queue, Or.inl hrel⟩
      · refine Or.inr ⟨e, _, heq, (Grew.untouched h hunt).withInbox queue,
          List.sublist_cons_self ev queue, Or.inr ⟨ev, by simp, ?_⟩⟩
        refine ⟨hout, ?_, ?_, ?_⟩
        · simpa [hunt.events] using hnew
        · simpa [hunt.events] using hp
        · simpa [SameRoom, hunt.events] using hroom

end Pass

/-! ## The whole drain -/

/-- Nothing parked is known already or has all its parents in the log. -/
def Settled (node : DeviceNode) : Prop :=
  ∀ x ∈ node.inbox, x.id ∉ node.events ∧ node.parentsOk x = false

/-- A settled node that has all of the pool, in its log or waiting, has logged what the pool supplies. -/
theorem Grew.mem_events {pool : Set SignedEvent} {node node' : DeviceNode} (h : Grew pool node node')
    (hs : node'.Settled) (hcover : ∀ x ∈ pool, x ∈ node'.parked ∨ x.id ∈ node'.events) {i : EventId} :
    i ∈ node'.events ↔ Supplied node.logIds pool i := by
  constructor
  · exact h.supplied i
  · intro hsup
    have hbase : node.logIds ⊆ node'.logIds := fun j hj => h.mem hj
    refine Causal.supplied_subset hbase ?_ hsup
    intro x hx hps
    rcases hcover x hx with hp | hl
    · have hwait : node'.parentsOk x = false := (hs x hp).2
      rw [parentsOk_iff.2 hps] at hwait
      cases hwait
    · exact hl

/-- A drain that came to its end. -/
structure Drained (node node' : DeviceNode) : Prop where
  grew : Grew node.parked node node'
  inbox : node'.inbox.Sublist node.inbox
  cover : ∀ x ∈ node.inbox, x ∈ node'.inbox ∨ x.id ∈ node'.events
  settled : node'.Settled

section Drain

variable [Primitives]

theorem drainLoop_spec (fuel : Nat) : ∀ node : DeviceNode, node.LogCoherent →
    (∀ e ∈ node.inbox, Verified e) → (node.inbox.map SignedEvent.id).Nodup →
    node.inbox.length < fuel →
    (∃ node', drainLoop fuel node = (.ok (), node') ∧ Drained node node') ∨
    (∃ e node', drainLoop fuel node = (.error e, node') ∧ Broken node.inbox node node') := by
  induction fuel with
  | zero =>
      intro node _ _ _ hlt
      exact absurd hlt (Nat.not_lt_zero _)
  | succ fuel ih =>
      intro node h hv hnd hlt
      rcases drainPass_spec node.inbox hv hnd node [] false h with
        ⟨p, kept, node₁, heq, hin, hpass⟩ | ⟨e, node', heq, hbrk⟩
      · rw [List.nil_append] at hin
        have hsub : node₁.inbox.Sublist node.inbox := hin ▸ hpass.sub
        cases p with
        | false =>
            -- a pass without progress leaves only events that wait
            rcases hpass.still rfl with ⟨_, he, hkept⟩
            refine Or.inl ⟨node₁, by simp [drainLoop, heq], hpass.grew, hsub, ?_, ?_⟩
            · intro x hx
              simpa [hin] using hpass.cover x hx
            · intro x hx
              rw [parentsOk_congr he, he]
              exact hkept x (hin ▸ hx)
        | true =>
            -- a pass with progress leaves a shorter inbox, so the fuel suffices
            have hshort : kept.length < node.inbox.length := by
              rcases hpass.shorter rfl with hp | hlen
              · cases hp
              · exact hlen
            have hv₁ : ∀ e ∈ node₁.inbox, Verified e := fun e he => hv e (hsub.subset he)
            have hnd₁ : (node₁.inbox.map SignedEvent.id).Nodup := hnd.sublist (hsub.map _)
            have hpool : node₁.parked ⊆ node.parked := fun x hx => hsub.subset hx
            have hrun : drainLoop (fuel + 1) node = drainLoop fuel node₁ := by
              simp [drainLoop, heq]
            rw [hrun]
            rcases ih node₁ hpass.grew.coherent hv₁ hnd₁ (by rw [hin]; omega) with
              ⟨node', heq', hdr⟩ | ⟨e, node', heq', hbrk⟩
            · refine Or.inl ⟨node', heq', hpass.grew.trans (hdr.grew.mono hpool),
                hdr.inbox.trans hsub, ?_, hdr.settled⟩
              intro x hx
              rcases hpass.cover x hx with hk | hl
              · exact hdr.cover x (hin ▸ hk)
              · exact Or.inr (hdr.grew.mem hl)
            · refine Or.inr ⟨e, node', heq', hpass.grew.trans (hbrk.grew.mono hpool),
                hbrk.inbox.trans hsub, ?_⟩
              rcases hbrk.cause with hrel | ⟨x, hx, hlost⟩
              · exact Or.inl fun hr => hrel (hpass.grew.reliable hr)
              · exact Or.inr ⟨x, hsub.subset hx, hlost⟩
      · exact Or.inr ⟨e, node', by simp [drainLoop, heq], hbrk⟩

theorem drainInbox_spec {node : DeviceNode} (h : node.LogCoherent)
    (hv : ∀ e ∈ node.inbox, Verified e) (hnd : (node.inbox.map SignedEvent.id).Nodup) :
    (∃ node', node.drainInbox = (.ok (), node') ∧ Drained node node') ∨
    (∃ e node', node.drainInbox = (.error e, node') ∧ Broken node.inbox node node') :=
  drainLoop_spec (node.inbox.length + 1) node h hv hnd (Nat.lt_succ_self _)

/-- Fuel beyond the inbox length changes nothing: the loop has ended by itself. -/
theorem drainLoop_fuel (fuel : Nat) : ∀ (node : DeviceNode) (extra : Nat), node.LogCoherent →
    (∀ e ∈ node.inbox, Verified e) → (node.inbox.map SignedEvent.id).Nodup →
    node.inbox.length < fuel → drainLoop (fuel + extra) node = drainLoop fuel node := by
  induction fuel with
  | zero =>
      intro node _ _ _ _ hlt
      exact absurd hlt (Nat.not_lt_zero _)
  | succ fuel ih =>
      intro node extra h hv hnd hlt
      rw [Nat.add_right_comm]
      rcases drainPass_spec node.inbox hv hnd node [] false h with
        ⟨p, kept, node₁, heq, hin, hpass⟩ | ⟨e, node', heq, _⟩
      · rw [List.nil_append] at hin
        cases p with
        | false => simp [drainLoop, heq]
        | true =>
            have hshort : kept.length < node.inbox.length := by
              rcases hpass.shorter rfl with hp | hlen
              · cases hp
              · exact hlen
            have hsub : node₁.inbox.Sublist node.inbox := hin ▸ hpass.sub
            have hrec := ih node₁ extra hpass.grew.coherent (fun e he => hv e (hsub.subset he))
              (hnd.sublist (hsub.map _)) (by rw [hin]; omega)
            simpa [drainLoop, heq] using hrec
      · simp [drainLoop, heq]

end Drain

end DeviceNode
end Node
end Thunderducks
