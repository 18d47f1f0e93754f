import Thunderducks.Node.Writes

/-!
# Failed — what a failed commit leaves behind (`td-node/src/sync.rs`)

A commit writes the log before the durable store and drains the inbox last, and each of these steps may
fail.  `Tallied` counts the writes of a drain against the coming faults of the store, so that
`drainInbox_ok_iff` says exactly which drains come to their end.  A failed commit is clean
(`FailsCleanly`) when it has changed nothing and may be tried again; `commit_failsCleanly_iff` says when
that is.
-/

namespace Thunderducks
namespace Node
namespace DeviceNode

open Lib Event

/-! ## The writes of a drain -/

/-- Whether each of the coming writes fails; without a store there is none. -/
def faults (node : DeviceNode) : List Bool :=
  (node.durable.map SqliteStore.faults).getD []

theorem writesOk_iff {node : DeviceNode} {n : Nat} :
    node.WritesOk n ↔ ∀ b ∈ node.faults.take n, b = false := by
  unfold WritesOk faults
  cases hd : node.durable with
  | none => simp
  | some store =>
      constructor
      · intro h
        exact h store rfl
      · intro h store' hst
        cases hst
        exact h

theorem writesOk_congr {node node' : DeviceNode} (h : node'.faults = node.faults) (n : Nat) :
    node'.WritesOk n ↔ node.WritesOk n := by
  rw [writesOk_iff, writesOk_iff, h]

/-- The first write succeeds, and the others after it. -/
theorem writesOk_add {node node' : DeviceNode} {m n : Nat} (h : node'.faults = node.faults.drop m) :
    node.WritesOk (m + n) ↔ node.WritesOk m ∧ node'.WritesOk n := by
  rw [writesOk_iff, writesOk_iff, writesOk_iff, h, List.take_add]
  constructor
  · intro hall
    exact ⟨fun b hb => hall b (List.mem_append_left _ hb), fun b hb => hall b (List.mem_append_right _ hb)⟩
  · rintro ⟨hfirst, hrest⟩ b hb
    rcases List.mem_append.1 hb with hb | hb
    · exact hfirst b hb
    · exact hrest b hb

/-- The events `taken` came from the queue into the log. -/
structure Taken (queue taken : List SignedEvent) (node node' : DeviceNode) : Prop where
  nodup : (taken.map SignedEvent.id).Nodup
  queued : ∀ x ∈ taken, x ∈ queue
  fresh : ∀ x ∈ taken, x.id ∉ node.events
  logged : ∀ x ∈ taken, x.id ∈ node'.events
  kept : ∀ i ∈ node.events, i ∈ node'.events

theorem Taken.nil (queue : List SignedEvent) {node node' : DeviceNode} (h : node'.events = node.events) :
    Taken queue [] node node' := by
  refine ⟨List.nodup_nil, by simp, by simp, by simp, ?_⟩
  intro i hi
  rw [h]
  exact hi

theorem Taken.single {queue : List SignedEvent} {ev : SignedEvent} {node node' : DeviceNode}
    (hq : ev ∈ queue) (hnew : ev.id ∉ node.events) (htook : Took node ev node') :
    Taken queue [ev] node node' := by
  refine ⟨by simp, by simpa using hq, by simpa using hnew, ?_, ?_⟩
  · intro x hx
    rw [List.mem_singleton.1 hx, htook.events]
    exact mem_take.2 (Or.inl rfl)
  · intro i hi
    rw [htook.events]
    exact mem_take.2 (Or.inr hi)

theorem Taken.trans {queue taken taken' : List SignedEvent} {node node₁ node' : DeviceNode}
    (h : Taken queue taken node node₁) (h' : Taken queue taken' node₁ node') :
    Taken queue (taken ++ taken') node node' := by
  refine ⟨?_, ?_, ?_, ?_, fun i hi => h'.kept i (h.kept i hi)⟩
  · rw [List.map_append]
    refine List.nodup_append.2 ⟨h.nodup, h'.nodup, ?_⟩
    -- what the first part logged, the second did not find new
    intro i hi j hj hij
    rcases List.mem_map.1 hi with ⟨x, hx, rfl⟩
    rcases List.mem_map.1 hj with ⟨y, hy, rfl⟩
    exact h'.fresh y hy (hij ▸ h.logged x hx)
  · intro x hx
    rcases List.mem_append.1 hx with hx | hx
    · exact h.queued x hx
    · exact h'.queued x hx
  · intro x hx
    rcases List.mem_append.1 hx with hx | hx
    · exact h.fresh x hx
    · exact fun hmem => h'.fresh x hx (h.kept _ hmem)
  · intro x hx
    rcases List.mem_append.1 hx with hx | hx
    · exact h'.kept _ (h.logged x hx)
    · exact h'.logged x hx

/-- How a drain over `queue` ends, and what it has written by then: one row for each event taken. -/
inductive Tallied {α : Type} (queue : List SignedEvent) (node : DeviceNode) :
    Except SyncError α → DeviceNode → Prop
  | done {a : α} {node' : DeviceNode} {taken : List SignedEvent} : Taken queue taken node node' →
      (∀ i ∈ node'.events, i ∈ node.events ∨ ∃ x ∈ taken, x.id = i) → node.WritesOk taken.length →
      node'.faults = node.faults.drop taken.length → Tallied queue node (.ok a) node'
  | strayed {e : DagError} {node' : DeviceNode} {x : SignedEvent} : x ∈ queue → node'.Lost x →
      Tallied queue node (.error (.dag e)) node'
  | unwritten {e : StoreError} {node' : DeviceNode} {taken : List SignedEvent} :
      Taken queue taken node node' → ¬ node.WritesOk taken.length →
      Tallied queue node (.error (.store e)) node'

theorem Tallied.mono {α : Type} {queue queue' : List SignedEvent} {node node' : DeviceNode}
    {res : Except SyncError α} (h : Tallied queue node res node') (hsub : ∀ x ∈ queue, x ∈ queue') :
    Tallied queue' node res node' := by
  have hwide : ∀ {taken}, Taken queue taken node node' → Taken queue' taken node node' :=
    fun ht => ⟨ht.nodup, fun x hx => hsub x (ht.queued x hx), ht.fresh, ht.logged, ht.kept⟩
  cases h with
  | done ht htotal hw hf => exact Tallied.done (hwide ht) htotal hw hf
  | strayed hx hlost => exact Tallied.strayed (hsub _ hx) hlost
  | unwritten ht hw => exact Tallied.unwritten (hwide ht) hw

/-- A drain goes on from where the writes of its first part have led. -/
theorem Tallied.after {α : Type} {queue taken : List SignedEvent} {node node₁ node' : DeviceNode}
    {res : Except SyncError α} (ht : Taken queue taken node node₁)
    (htotal : ∀ i ∈ node₁.events, i ∈ node.events ∨ ∃ x ∈ taken, x.id = i)
    (hw : node.WritesOk taken.length) (hf : node₁.faults = node.faults.drop taken.length)
    (h : Tallied queue node₁ res node') : Tallied queue node res node' := by
  cases h with
  | @done a _ taken' ht' htotal' hw' hf' =>
      refine Tallied.done (ht.trans ht') ?_ ?_ ?_
      · intro i hi
        rcases htotal' i hi with hi | ⟨x, hx, hid⟩
        · rcases htotal i hi with hi | ⟨x, hx, hid⟩
          · exact Or.inl hi
          · exact Or.inr ⟨x, List.mem_append_left _ hx, hid⟩
        · exact Or.inr ⟨x, List.mem_append_right _ hx, hid⟩
      · rw [List.length_append]
        exact (writesOk_add hf).2 ⟨hw, hw'⟩
      · rw [hf', hf, List.drop_drop, List.length_append]
  | strayed hx hlost => exact Tallied.strayed hx hlost
  | @unwritten e _ taken' ht' hw' =>
      refine Tallied.unwritten (ht.trans ht') ?_
      rw [List.length_append]
      exact fun hall => hw' ((writesOk_add hf).1 hall).2

section Tally

variable [Primitives] {node : DeviceNode} {ev : SignedEvent}

/-- Recording makes one write. -/
theorem record_faults (node : DeviceNode) (hv : Verified ev) :
    ((node.record ev).1 = .ok () ∧ node.WritesOk 1 ∧ (node.record ev).2.faults = node.faults.drop 1) ∨
      ((∃ e, (node.record ev).1 = .error e) ∧ ¬ node.WritesOk 1) := by
  have hv' : verifyEvent ev = .ok () := hv
  rw [writesOk_iff]
  unfold record faults
  cases hd : node.durable with
  | none => simp
  | some store =>
      cases hf : store.faults with
      | nil =>
          by_cases hmem : ev.id ∈ store.rows <;>
            simp [SqliteStore.put, SqliteStore.nextFails, hv', hf, hmem]
      | cons b bs =>
          cases b with
          | true => simp [SqliteStore.put, SqliteStore.nextFails, hv', hf]
          | false =>
              by_cases hmem : ev.id ∈ store.rows <;>
                simp [SqliteStore.put, SqliteStore.nextFails, hv', hf, hmem]

/-- A pass over a queue of verified events with distinct ids, counted. -/
theorem drainPass_tallied (queue : List SignedEvent) (hv : ∀ e ∈ queue, Verified e)
    (hnd : (queue.map SignedEvent.id).Nodup) :
    ∀ (node : DeviceNode) (rest : List SignedEvent) (progress : Bool), node.LogCoherent →
      Tallied queue node (node.drainPass queue rest progress).1
        (node.drainPass queue rest progress).2 := by
  induction queue with
  | nil =>
      intro node rest progress _
      refine Tallied.done (Taken.nil [] rfl) (fun i hi => Or.inl hi) ?_ ?_
      · exact writesOk_iff.2 (by simp)
      · exact List.drop_zero.symm
  | cons ev queue ih =>
      intro node rest progress h
      have hvt : ∀ e ∈ queue, Verified e := fun e he => hv e (List.mem_cons_of_mem _ he)
      have hndt : (queue.map SignedEvent.id).Nodup := (List.nodup_cons.1 hnd).2
      have hout : ev ∉ queue := fun hq => (List.nodup_cons.1 hnd).1 (List.mem_map_of_mem hq)
      have hsub : ∀ x ∈ queue, x ∈ ev :: queue := fun x hx => List.mem_cons_of_mem _ hx
      have hvev : Verified ev := hv ev (by simp)
      -- known or waiting: no write is made for it
      by_cases hmem : ev.id ∈ node.events
      · rw [drainPass, if_pos hmem]
        exact (ih hvt hndt node rest progress h).mono hsub
      cases hok : node.parentsOk ev with
      | false =>
          rw [drainPass, if_neg hmem, if_pos hok]
          exact (ih hvt hndt node (rest ++ [ev]) progress h).mono hsub
      | true =>
          have hp : ∀ p ∈ ev.parents, p ∈ node.events := parentsOk_iff.1 hok
          rcases step_cases h hvev hmem hp with ⟨hroom, node₁, hing, htook, _⟩ | ⟨hroom, q, node₁, hing, hunt⟩
          · have hdur : node₁.faults = node.faults := by
              have heq := congrArg (fun out => out.2.faults) hing
              exact heq.symm
            have htaken : Taken (ev :: queue) [ev] node (node₁.record ev).2 :=
              Taken.single (by simp) hmem htook
            have hcoh := (Grew.took h hmem hp hroom (Set.mem_singleton ev) htook).coherent
            have htotal : ∀ i ∈ (node₁.record ev).2.events, i ∈ node.events ∨ ∃ x ∈ [ev], x.id = i := by
              intro i hi
              rw [htook.events] at hi
              rcases mem_take.1 hi with rfl | hi
              · exact Or.inr ⟨ev, by simp, rfl⟩
              · exact Or.inl hi
            rw [drainPass, if_neg hmem, hok, if_neg (by decide), hing]
            dsimp only
            rcases record_faults node₁ hvev with ⟨hrec, hw, hf⟩ | ⟨⟨e, hrec⟩, hw⟩
            · have hpair : node₁.record ev = (.ok (), (node₁.record ev).2) := Prod.ext hrec rfl
              rw [hdur] at hf
              rw [hpair]
              exact Tallied.after htaken htotal ((writesOk_congr hdur 1).1 hw) hf
                ((ih hvt hndt _ rest true hcoh).mono hsub)
            · have hpair : node₁.record ev = (.error e, (node₁.record ev).2) := Prod.ext hrec rfl
              rw [hpair]
              -- its row is the write that failed
              have hone : ¬ node.WritesOk [ev].length := fun hok => hw ((writesOk_congr hdur 1).2 hok)
              refine Tallied.unwritten ?_ hone
              exact ⟨htaken.nodup, htaken.queued, htaken.fresh, htaken.logged, htaken.kept⟩
          · rw [drainPass, if_neg hmem, hok, if_neg (by decide), hing]
            -- popped, refused and in no other copy of the queue
            refine Tallied.strayed (x := ev) (by simp) ⟨hout, ?_, ?_, ?_⟩
            · simpa [hunt.events] using hmem
            · simpa [hunt.events] using hp
            · simpa [SameRoom, hunt.events] using hroom

/-- The drain of the inbox, counted. -/
theorem drainLoop_tallied (fuel : Nat) : ∀ node : DeviceNode, node.LogCoherent →
    (∀ e ∈ node.inbox, Verified e) → (node.inbox.map SignedEvent.id).Nodup →
    Tallied node.inbox node (drainLoop fuel node).1 (drainLoop fuel node).2 := by
  induction fuel with
  | zero =>
      intro node _ _ _
      refine Tallied.done (Taken.nil _ rfl) (fun i hi => Or.inl hi) ?_ ?_
      · exact writesOk_iff.2 (by simp)
      · exact List.drop_zero.symm
  | succ fuel ih =>
      intro node h hv hnd
      have hpassed := drainPass_tallied node.inbox hv hnd node [] false h
      rcases drainPass_spec node.inbox hv hnd node [] false h with
        ⟨p, kept, node₁, heq, hin, hpass⟩ | ⟨e, node', heq, _⟩
      · rw [List.nil_append] at hin
        have hsub : node₁.inbox.Sublist node.inbox := hin ▸ hpass.sub
        rw [heq] at hpassed
        cases hpassed with
        | @done _ _ taken ht htotal hw hf =>
            cases p with
            -- a pass without progress is the last one
            | false =>
                have hrun : drainLoop (fuel + 1) node = (.ok (), node₁) := by
                  simp [drainLoop, heq]
                rw [hrun]
                exact Tallied.done ht htotal hw hf
            | true =>
                have hrun : drainLoop (fuel + 1) node = drainLoop fuel node₁ := by
                  simp [drainLoop, heq]
                have hrest := ih node₁ hpass.grew.coherent (fun e he => hv e (hsub.subset he))
                  (hnd.sublist (hsub.map _))
                rw [hrun]
                exact Tallied.after ht htotal hw hf (hrest.mono fun x hx => hsub.subset hx)
      · have hrun : drainLoop (fuel + 1) node = (.error e, node') := by
          simp [drainLoop, heq]
        rw [heq] at hpassed
        rw [hrun]
        cases hpassed with
        | strayed hx hlost => exact Tallied.strayed hx hlost
        | unwritten ht hw => exact Tallied.unwritten ht hw

end Tally

/-! ## Which drains come to their end -/

/-- The event is parked, and the log and the inbox supply all its parents. -/
structure Arrives (node : DeviceNode) (x : SignedEvent) : Prop where
  parked : x ∈ node.inbox
  fresh : x.id ∉ node.events
  supplied : ∀ p ∈ x.parents, Supplied node.logIds node.parked p

/-- The log and the inbox decide what arrives. -/
theorem arrives_congr {node node' : DeviceNode} (he : node'.events = node.events)
    (hi : node'.inbox = node.inbox) (x : SignedEvent) : node'.Arrives x ↔ node.Arrives x := by
  have hids : node'.logIds = node.logIds := by
    unfold logIds
    rw [he]
  have hparked : node'.parked = node.parked := by
    unfold DeviceNode.parked
    rw [hi]
  constructor
  · rintro ⟨hx, hfresh, hsup⟩
    rw [hi] at hx
    rw [he] at hfresh
    rw [hids, hparked] at hsup
    exact ⟨hx, hfresh, hsup⟩
  · rintro ⟨hx, hfresh, hsup⟩
    rw [← hi] at hx
    rw [← he] at hfresh
    rw [← hids, ← hparked] at hsup
    exact ⟨hx, hfresh, hsup⟩

section Ends

variable [Primitives] {node : DeviceNode}

/-- What a drain took, the log and the inbox had supplied. -/
theorem Taken.arrives {node' : DeviceNode} {taken : List SignedEvent} (hs : node.Sound)
    (hg : Grew node.parked node node') (ht : Taken node.inbox taken node node') :
    ∀ x ∈ taken, node.Arrives x := by
  intro x hx
  refine ⟨ht.queued x hx, ht.fresh x hx, ?_⟩
  intro p hp
  rcases HashMap.mem_iff_lookup.1 (ht.logged x hx) with ⟨e, he⟩
  have hEq : e = x := by
    rcases hg.fresh he with hold | ⟨_, hparked⟩
    · exact absurd (HashMap.mem_of_lookup hold) (ht.fresh x hx)
    · exact hs.parked_ext hparked (ht.queued x hx) (hg.coherent.keyed he)
  subst hEq
  rcases hg.coherent.parent_accepted he hp with ⟨z, hz, _⟩
  exact hg.supplied p (HashMap.mem_of_lookup hz)

/-- A drain comes to its end exactly when it stays in the rooms and no write fails for as many events as
can arrive. -/
theorem drainInbox_ok_iff (h : node.Sound) :
    node.drainInbox.1 = .ok () ↔ node.DrainStaysInRoom ∧
      ∀ l : List SignedEvent, (l.map SignedEvent.id).Nodup → (∀ x ∈ l, node.Arrives x) →
        node.WritesOk l.length := by
  have htally := drainLoop_tallied (node.inbox.length + 1) node h.log h.verified h.nodup
  have hrun : drainLoop (node.inbox.length + 1) node = node.drainInbox := rfl
  rw [hrun] at htally
  rcases drainInbox_spec h.log h.verified h.nodup with ⟨node', heq, hdr⟩ | ⟨e, node', heq, hbrk⟩
  · rw [heq] at htally ⊢
    refine iff_of_true rfl ⟨hdr.staysInRoom h, ?_⟩
    intro l hnd hl
    cases htally with
    | @done _ _ taken ht htotal hw _ =>
        -- what arrives is among what the drain took
        have hsub : l.map SignedEvent.id ⊆ taken.map SignedEvent.id := by
          intro i hi
          rcases List.mem_map.1 hi with ⟨x, hx, rfl⟩
          have harr := hl x hx
          have hin : x.id ∈ node'.events :=
            hdr.mem_events.2 (Causal.Supplied.item harr.parked harr.supplied)
          rcases htotal x.id hin with hold | ⟨y, hy, hid⟩
          · exact absurd hold harr.fresh
          · exact List.mem_map.2 ⟨y, hy, hid⟩
        have hlen := (List.subperm_of_subset hnd hsub).length_le
        rw [List.length_map, List.length_map] at hlen
        exact hw.mono hlen
  · rw [heq] at htally ⊢
    refine iff_of_false (by simp) ?_
    rintro ⟨hstay, hwrites⟩
    cases htally with
    | strayed hx hlost => exact hbrk.not_staysInRoom hx hlost hstay
    | unwritten ht hw => exact hw (hwrites _ ht.nodup (ht.arrives h hbrk.grew))

/-- A commit that takes its event records it, and drains the inbox if the row is written. -/
theorem commit_takes_eq {ev : SignedEvent} (h : node.LogCoherent) (ht : node.Takes ev) (toOutbox : Bool) :
    ∃ node₁ node₂ : DeviceNode, node₁.events = node.events ∧ node₁.durable = node.durable ∧
      Took node ev node₂ ∧ node₂.durable = (node₁.record ev).2.durable ∧
      (((node₁.record ev).1 = .ok () ∧ (node.commit ev toOutbox).2 = node₂.drainInbox.2) ∨
        ((∃ e, (node₁.record ev).1 = .error e) ∧ (node.commit ev toOutbox).2 = node₂)) := by
  rcases ht with ⟨hv, hnew, hp, hroom⟩
  have hok : node.parentsOk ev = true := parentsOk_iff.2 hp
  rw [commit_verified hv, ingestEvent, if_neg hnew, hok, if_neg (by decide)]
  rcases step_cases h hv hnew hp with ⟨_, node₁, hing, htook, _⟩ | ⟨hother, _⟩
  swap
  · exact absurd hroom hother
  have hdur : node₁.durable = node.durable := (congrArg (fun out => out.2.durable) hing).symm
  have hevents : node₁.events = node.events := (congrArg (fun out => out.2.events) hing).symm
  rw [hing]
  dsimp only
  cases hrec : (node₁.record ev).1 with
  | error e =>
      have hpair : node₁.record ev = (.error e, (node₁.record ev).2) := Prod.ext hrec rfl
      refine ⟨node₁, (node₁.record ev).2, hevents, hdur, htook, rfl, Or.inr ⟨⟨e, hrec⟩, ?_⟩⟩
      rw [hpair]
  | ok u =>
      have hpair : node₁.record ev = (.ok u, (node₁.record ev).2) := Prod.ext hrec rfl
      refine ⟨node₁, _, hevents, hdur, htook.queued toOutbox, ?_, Or.inl ⟨hrec, ?_⟩⟩
      · cases toOutbox <;> rfl
      · rw [hpair]
        dsimp only
        split
        next heq => rw [heq]
        next heq => rw [heq]

/-- A commit that takes its event succeeds exactly when its drain stays in the rooms and no write fails
for the event and as many parked events as can arrive after it. -/
theorem commit_takes_ok_iff {ev : SignedEvent} (h : node.Sound) (ht : node.Takes ev) (toOutbox : Bool) :
    (∃ b, (node.commit ev toOutbox).1 = .ok b) ↔ (node.take ev).DrainStaysInRoom ∧
      ∀ l : List SignedEvent, (l.map SignedEvent.id).Nodup → (∀ x ∈ l, (node.take ev).Arrives x) →
        node.WritesOk (1 + l.length) := by
  rcases ht with ⟨hv, hnew, hp, hroom⟩
  have hok : node.parentsOk ev = true := parentsOk_iff.2 hp
  rw [commit_verified hv, ingestEvent, if_neg hnew, hok, if_neg (by decide)]
  rcases step_cases h.log hv hnew hp with ⟨_, node₁, hing, htook, _⟩ | ⟨hother, _⟩
  swap
  · exact absurd hroom hother
  have hdur : node₁.faults = node.faults := by
    have heq := congrArg (fun out => out.2.faults) hing
    exact heq.symm
  rw [hing]
  dsimp only
  rcases record_faults node₁ hv with ⟨hrec, hw, hf⟩ | ⟨⟨e, hrec⟩, hw⟩
  · have hpair : node₁.record ev = (.ok (), (node₁.record ev).2) := Prod.ext hrec rfl
    have hq := htook.queued toOutbox
    have hg := Grew.took h.log hnew hp hroom (Set.mem_singleton ev) hq
    have hsound : Sound (if toOutbox then
        { (node₁.record ev).2 with outbox := (node₁.record ev).2.outbox ++ [ev] }
      else (node₁.record ev).2) := h.of_grew hg (by rw [hq.inbox])
    have hfaults : faults (if toOutbox then
        { (node₁.record ev).2 with outbox := (node₁.record ev).2.outbox ++ [ev] }
      else (node₁.record ev).2) = node.faults.drop 1 := by
      rw [← hdur, ← hf]
      cases toOutbox <;> rfl
    rw [hpair]
    dsimp only
    -- the drain sees the log and the inbox, whichever the outbox is
    generalize (if toOutbox then
        { (node₁.record ev).2 with outbox := (node₁.record ev).2.outbox ++ [ev] }
      else (node₁.record ev).2) = node₂ at hq hg hsound hfaults ⊢
    have hevents : node₂.events = (node.take ev).events := hq.events
    have hinbox : node₂.inbox = (node.take ev).inbox := hq.inbox
    have harrives : ∀ x, node₂.Arrives x ↔ (node.take ev).Arrives x := arrives_congr hevents hinbox
    -- one write for `ev`, and then those of the drain
    have hfirst : node.WritesOk 1 := (writesOk_congr hdur 1).1 hw
    have hends := drainInbox_ok_iff hsound
    generalize node₂.drainInbox = out at hends ⊢
    rcases out with ⟨res, node₃⟩
    refine Iff.trans ?_ (hends.trans ?_)
    · cases res with
      | error e => simp
      | ok u => simp
    rw [staysInRoom_congr hevents hinbox]
    refine and_congr_right fun _ => ?_
    constructor
    · intro hall l hnd hl
      exact (writesOk_add hfaults).2 ⟨hfirst, hall l hnd fun x hx => (harrives x).2 (hl x hx)⟩
    · intro hall l hnd hl
      exact ((writesOk_add hfaults).1 (hall l hnd fun x hx => (harrives x).1 (hl x hx))).2
  · have hpair : node₁.record ev = (.error e, (node₁.record ev).2) := Prod.ext hrec rfl
    rw [hpair]
    refine iff_of_false (by simp) ?_
    rintro ⟨_, hall⟩
    exact hw ((writesOk_congr hdur 1).2 (hall [] List.nodup_nil (by simp)))

end Ends

/-! ## Which calls keep the parked events -/

/-- No write fails for the event and for as many parked events as can arrive after it. -/
def ReleaseWritten (node : DeviceNode) (ev : SignedEvent) : Prop :=
  ∀ l : List SignedEvent, (l.map SignedEvent.id).Nodup → (∀ x ∈ l, (node.take ev).Arrives x) →
    node.WritesOk (1 + l.length)

section Keeps

variable [Primitives] {node : DeviceNode} {ev : SignedEvent}

/-- A call that takes no event leaves the log as it is and every parked event where it is. -/
theorem commit_of_not_takes (h : node.Sound) (ht : ¬ node.Takes ev) (toOutbox : Bool) :
    (node.commit ev toOutbox).2.events = node.events ∧ node.inbox ⊆ (node.commit ev toOutbox).2.inbox := by
  by_cases hv : Verified ev
  swap
  · rcases commit_unverified hv toOutbox with ⟨e, heq⟩
    rw [heq]
    exact ⟨rfl, fun x hx => hx⟩
  have ho := commit_outcome h hv toOutbox
  revert ho
  generalize (node.commit ev toOutbox).1 = res
  generalize (node.commit ev toOutbox).2 = node'
  intro ho
  cases ho with
  | known _ => exact ⟨rfl, fun x hx => hx⟩
  | waits _ _ =>
      rcases park_frame node ev with ⟨inbox, heq, hsub⟩
      rw [heq]
      exact ⟨rfl, hsub.subset⟩
  | refused _ _ _ hunt =>
      refine ⟨hunt.events, ?_⟩
      rw [hunt.inbox]
      exact fun x hx => hx
  | unwritten hnew hp hroom _ _ => exact absurd ⟨hv, hnew, hp, hroom⟩ ht
  | drained hnew hp hroom _ _ => exact absurd ⟨hv, hnew, hp, hroom⟩ ht
  | broken hnew hp hroom _ _ => exact absurd ⟨hv, hnew, hp, hroom⟩ ht

end Keeps

/-! ## Failures that leave no trace -/

/-- The same device with the same log, DAGs, inbox and outbox. -/
structure SameState (node node' : DeviceNode) : Prop where
  deviceId : node'.deviceId = node.deviceId
  events : node'.events = node.events
  dags : ∀ room, node'.dags.lookup room = node.dags.lookup room
  outbox : node'.outbox = node.outbox
  inbox : node'.inbox = node.inbox

/-- The rows of the durable store, if there is one. -/
def storedRows (node : DeviceNode) : Option (HashMap EventId EventRow) :=
  node.durable.map SqliteStore.rows

theorem SameState.roomIds {node node' : DeviceNode} (h : SameState node node') (room : RoomId) :
    room ∈ node'.roomIds ↔ room ∈ node.roomIds := by
  unfold DeviceNode.roomIds
  rw [← AList.mem_keys, ← AList.mem_keys, ← AList.lookup_isSome, ← AList.lookup_isSome, h.dags]

section Clean

variable [Primitives] {node : DeviceNode} {ev : SignedEvent}

/-- If the commit fails, it has changed neither the node nor the rows, and a retry, whatever becomes of its
writes, answers and leaves what a first attempt would. -/
def FailsCleanly (node : DeviceNode) (ev : SignedEvent) (toOutbox : Bool) : Prop :=
  ∀ e, (node.commit ev toOutbox).1 = .error e →
    SameState node (node.commit ev toOutbox).2 ∧
    (node.commit ev toOutbox).2.storedRows = node.storedRows ∧
    ∀ store : Option SqliteStore,
      let first := { node with durable := store }.commit ev toOutbox
      let retry := { (node.commit ev toOutbox).2 with durable := store }.commit ev toOutbox
      retry.1 = first.1 ∧ SameState first.2 retry.2 ∧ retry.2.durable = first.2.durable

/-- A new, verified event whose parents are all in the log is of a room that the node has a DAG for, if one
of its parents is of another room; if none is, it and all that it releases from the inbox are written and
stay in their rooms. -/
def CommitsCleanly (node : DeviceNode) (ev : SignedEvent) : Prop :=
  Verified ev → ev.id ∉ node.events → (∀ p ∈ ev.parents, p ∈ node.events) →
    (¬ node.SameRoom ev → ev.roomId ∈ node.dags) ∧
    (node.SameRoom ev → (node.take ev).DrainStaysInRoom ∧ node.ReleaseWritten ev)

/-- What a commit does with a new event that has a parent in another room. -/
theorem commit_otherRoom (h : node.LogCoherent) (hv : Verified ev) (hnew : ev.id ∉ node.events)
    (hp : ∀ p ∈ ev.parents, p ∈ node.events) (hroom : ¬ node.SameRoom ev) (toOutbox : Bool) :
    ∃ e, ((node.dagOf ev.roomId).ingest ev).1 = .error e ∧ node.commit ev toOutbox =
      (.error (.dag e), { node with dags := node.dags.insert ev.roomId (node.dagOf ev.roomId) }) := by
  have hok : node.parentsOk ev = true := parentsOk_iff.2 hp
  rw [commit_verified hv, ingestEvent, if_neg hnew, hok, if_neg (by decide)]
  rcases @RoomDag.ingest_cases _ _ ev _ (h.dagWf ev.roomId).ofRoom with ⟨e, hbad, _⟩ | ⟨_, hne, _⟩ |
    ⟨_, _, hmem, _⟩ | ⟨_, _, _, q, _, _, heq⟩ | ⟨_, _, _, hpd, _⟩
  · rw [show verifyEvent ev = .ok () from hv] at hbad
    cases hbad
  · exact absurd rfl hne
  · exact absurd hmem (h.new_in_dag hnew)
  · have hing : node.dagIngest ev = (.error (.missingParent q),
        { node with dags := node.dags.insert ev.roomId (node.dagOf ev.roomId) }) := by
      simp [dagIngest, heq]
    rw [hing, heq]
    exact ⟨_, rfl, rfl⟩
  · -- with all its parents in the DAG of its room the event would have stayed in it
    refine absurd ?_ hroom
    intro p hpe z hz
    rcases HashMap.mem_iff_lookup.1 (hpd p hpe) with ⟨z', hz'⟩
    have hlog := h.dagEvents.1 hz'
    rw [hz] at hlog
    rw [Option.some.inj hlog.1]
    exact hlog.2

omit [Primitives] in
theorem lookup_insert_dagOf {room : RoomId} (h : room ∈ node.dags) (r : RoomId) :
    (node.dags.insert room (node.dagOf room)).lookup r = node.dags.lookup r := by
  rw [HashMap.lookup_insert_eq]
  split
  next heq =>
    rcases HashMap.mem_iff_lookup.1 h with ⟨dag, hdag⟩
    rw [heq, hdag]
    unfold DeviceNode.dagOf
    rw [hdag]
    rfl
  · rfl

theorem failsCleanly_unverified (hv : ¬ Verified ev) (toOutbox : Bool) :
    FailsCleanly node ev toOutbox := by
  intro _ _
  rcases @commit_unverified _ node _ hv toOutbox with ⟨e, heq⟩
  rw [heq]
  exact ⟨⟨rfl, rfl, fun _ => rfl, rfl, rfl⟩, rfl, fun store => ⟨rfl, ⟨rfl, rfl, fun _ => rfl, rfl, rfl⟩, rfl⟩⟩

/-- An event with a parent in another room fails cleanly exactly when its own room has a DAG. -/
theorem failsCleanly_otherRoom_iff (h : node.LogCoherent) (hv : Verified ev) (hnew : ev.id ∉ node.events)
    (hp : ∀ p ∈ ev.parents, p ∈ node.events) (hroom : ¬ node.SameRoom ev) (toOutbox : Bool) :
    FailsCleanly node ev toOutbox ↔ ev.roomId ∈ node.dags := by
  rcases commit_otherRoom h hv hnew hp hroom toOutbox with ⟨e, hing, heq⟩
  constructor
  · intro hclean
    have hsame := (hclean (.dag e) (by rw [heq])).1.dags ev.roomId
    rw [heq] at hsame
    dsimp only at hsame
    rw [AList.lookup_insert] at hsame
    exact HashMap.mem_of_lookup hsame.symm
  · intro hmem e' _
    rw [heq]
    refine ⟨⟨rfl, rfl, lookup_insert_dagOf hmem, rfl, rfl⟩, rfl, ?_⟩
    intro store
    -- the retry meets the same log and the same DAGs
    have hfirst : LogCoherent { node with durable := store } := h.congr rfl (fun _ => rfl)
    have hdagOf : ∀ r, DeviceNode.dagOf
        { node with
          dags := node.dags.insert ev.roomId (node.dagOf ev.roomId)
          durable := store } r = node.dagOf r := by
      intro r
      exact congrArg (fun dag => dag.getD (RoomDag.new r)) (lookup_insert_dagOf hmem r)
    have hretry : LogCoherent
        { node with
          dags := node.dags.insert ev.roomId (node.dagOf ev.roomId)
          durable := store } := h.congr rfl hdagOf
    rcases commit_otherRoom hfirst hv hnew hp hroom toOutbox with ⟨e₁, hing₁, heq₁⟩
    rcases commit_otherRoom hretry hv hnew hp hroom toOutbox with ⟨e₂, hing₂, heq₂⟩
    rw [hdagOf] at hing₂
    have herr : e₂ = e₁ := Except.error.inj (hing₂.symm.trans hing₁)
    rw [heq₁, heq₂, herr]
    refine ⟨rfl, ⟨rfl, rfl, ?_, rfl, rfl⟩, rfl⟩
    intro r
    have htwice : ∀ dag : RoomDag, ((node.dags.insert ev.roomId dag).insert ev.roomId dag).lookup r =
        (node.dags.insert ev.roomId dag).lookup r := by
      intro dag
      simp only [HashMap.lookup_insert_eq]
      split <;> rfl
    rw [hdagOf]
    exact htwice (node.dagOf ev.roomId)

/-- An event that is taken fails cleanly exactly when its commit does not fail. -/
theorem failsCleanly_takes_iff (h : node.Sound) (ht : node.Takes ev) (toOutbox : Bool) :
    FailsCleanly node ev toOutbox ↔ ∃ b, (node.commit ev toOutbox).1 = .ok b := by
  constructor
  · intro hclean
    cases hres : (node.commit ev toOutbox).1 with
    | ok b => exact ⟨b, rfl⟩
    | error e =>
        exfalso
        -- the log has the event by the time anything can fail
        have hevents := (hclean e hres).1.events
        have hmem : ev.id ∈ (node.commit ev toOutbox).2.events := by
          have ho := commit_outcome h ht.1 toOutbox
          rw [hres] at ho
          revert ho
          generalize (node.commit ev toOutbox).2 = node'
          intro ho
          cases ho with
          | refused _ _ hroom _ => exact absurd ht.2.2.2 hroom
          | unwritten _ _ _ _ htook =>
              rw [htook.events]
              exact mem_take.2 (Or.inl rfl)
          | broken _ _ _ htook hbrk =>
              refine hbrk.grew.mem ?_
              rw [htook.events]
              exact mem_take.2 (Or.inl rfl)
        rw [hevents] at hmem
        exact ht.2.1 hmem
  · rintro ⟨b, hb⟩ e he
    rw [hb] at he
    cases he

/-- The nodes that commits and the emptying of the outbox build, on any store and with any of its writes
failing. -/
inductive Operated : DeviceNode → Prop
  | new (d : DeviceId) (store : Option SqliteStore) :
      Operated { DeviceNode.new d with durable := store }
  | commit {node : DeviceNode} (ev : SignedEvent) (toOutbox : Bool) : Operated node →
      Operated (node.commit ev toOutbox).2
  | popOutbox {node : DeviceNode} : Operated node → Operated node.popOutbox.2

theorem Operated.sound (h : Operated node) : node.Sound := by
  induction h with
  | new d store => exact Sound.new d store
  | commit ev toOutbox _ ih => exact ih.commit ev toOutbox
  | @popOutbox node _ ih =>
      unfold DeviceNode.popOutbox
      split
      · exact ih
      · exact ⟨ih.log.congr rfl (fun _ => rfl), ih.verified, ih.nodup⟩

/-- From every node that has been built, with or without a durable store and whatever becomes of the
writes, a failing commit leaves no trace and may be retried exactly when `CommitsCleanly` holds. -/
theorem commit_failsCleanly_iff (h : Operated node) (ev : SignedEvent) (toOutbox : Bool) :
    FailsCleanly node ev toOutbox ↔ node.CommitsCleanly ev := by
  have hs := h.sound
  by_cases hv : Verified ev
  swap
  · -- not verified: nothing is touched
    exact iff_of_true (failsCleanly_unverified hv toOutbox) fun hv' => absurd hv' hv
  by_cases hnew : ev.id ∈ node.events
  · refine iff_of_true ?_ fun _ hno => absurd hnew hno
    intro e he
    rw [commit_verified hv, ingestEvent, if_pos hnew] at he
    cases he
  by_cases hp : ∀ p ∈ ev.parents, p ∈ node.events
  swap
  · -- it waits for its parents, which is no failure
    have hwait : node.parentsOk ev = false := by
      cases hok : node.parentsOk ev with
      | false => rfl
      | true => exact absurd (parentsOk_iff.1 hok) hp
    refine iff_of_true ?_ fun _ _ hp' => absurd hp' hp
    intro e he
    rw [commit_verified hv, ingestEvent, if_neg hnew, if_pos hwait] at he
    cases he
  by_cases hroom : node.SameRoom ev
  · rw [failsCleanly_takes_iff hs ⟨hv, hnew, hp, hroom⟩,
      commit_takes_ok_iff hs ⟨hv, hnew, hp, hroom⟩]
    constructor
    · intro hok _ _ _
      exact ⟨fun hno => absurd hroom hno, fun _ => hok⟩
    · intro hclean
      exact (hclean hv hnew hp).2 hroom
  · rw [failsCleanly_otherRoom_iff hs.log hv hnew hp hroom]
    constructor
    · intro hdag _ _ _
      exact ⟨fun _ => hdag, fun hyes => absurd hyes hroom⟩
    · intro hclean
      exact (hclean hv hnew hp).1 hroom

end Clean

/-! ## A write that fails once -/

section Example

open Checksum

attribute [local instance] Checksum.primitives

/-- A new node whose next write fails, and no other. -/
def unlucky : DeviceNode :=
  { DeviceNode.new (device 2) with
    durable := some { rows := ∅, faults := [true] } }

theorem operated_unlucky : Operated unlucky :=
  Operated.new (device 2) _

/-- The commit fails, and the log has the event that the database lacks. -/
theorem commit_unlucky_not_clean :
    ¬ ∀ node : DeviceNode, Operated node → ∀ (ev : SignedEvent) (toOutbox : Bool),
      FailsCleanly node ev toOutbox := by
  intro h
  have hv : Verified hello := event_verified _ _ _ _ _ _
  have htakes : unlucky.Takes hello := by
    refine ⟨hv, AList.notMem_empty _, ?_, ?_⟩
    · intro p hp
      cases hp
    · intro p hp
      cases hp
  rcases (failsCleanly_takes_iff operated_unlucky.sound htakes true).1
    (h unlucky operated_unlucky hello true) with ⟨b, hb⟩
  have hwrites := ((commit_takes_ok_iff operated_unlucky.sound htakes true).1 ⟨b, hb⟩).2 [] (by simp) (by simp)
  exact absurd (writesOk_iff.1 hwrites true (by simp [faults, unlucky])) (by decide)

/-- An event that waits for its parent fails in no way. -/
theorem commit_failsCleanly_iff_waiting : FailsCleanly waiting stray true := by
  have hop : Operated waiting := by
    have hpark : ((DeviceNode.new (device 2)).commit stray false).2 = waiting := by
      have hv : Verified stray := event_verified _ _ _ _ _ _
      have hparents : stray.parents = [hello.id] := rfl
      simp [commit_verified hv, ingestEvent, parentsOk, park, DeviceNode.new, waiting, hparents]
    rw [← hpark]
    exact (Operated.new (device 2) none).commit stray false
  refine (commit_failsCleanly_iff hop stray true).2 ?_
  intro _ _ hp
  have hmem : hello.id ∈ waiting.events := hp hello.id (by simp [stray, event])
  exact absurd hmem (AList.notMem_empty _)

end Example

end DeviceNode
end Node
end Thunderducks
