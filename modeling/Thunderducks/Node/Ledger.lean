import Thunderducks.Node.Failed

/-!
# Ledger — the rows that a run of commits writes, whatever becomes of it

A call of `commit_remote` logs its event, and some of the parked ones, each with one write of the durable store.
`Ledger node taken node'` is the account of a whole run, also of one whose drains break off: the events logged in
it, the writes it has made and the rows it has left.  `commitRemoteAll_accounted` says that every run has one.
-/

namespace Thunderducks
namespace Node
namespace DeviceNode

open Lib Event

/-! ## The account of a run -/

/-- The id has its row in the durable store, if there is one. -/
def HasRow (node : DeviceNode) (i : EventId) : Prop :=
  ∀ store, node.durable = some store → i ∈ store.rows

/-- The events `taken` have come into the log, in this order, and each has made one write. -/
structure Ledger (node : DeviceNode) (taken : List SignedEvent) (node' : DeviceNode) : Prop where
  nodup : (taken.map SignedEvent.id).Nodup
  fresh : ∀ x ∈ taken, x.id ∉ node.events
  log : ∀ i, i ∈ node'.events ↔ i ∈ node.events ∨ ∃ x ∈ taken, x.id = i
  faults : node'.faults = node.faults.drop taken.length
  kept : ∀ i, node.HasRow i → node'.HasRow i
  only : ∀ i, node'.HasRow i → node.HasRow i ∨ ∃ x ∈ taken, x.id = i
  written : node.WritesOk taken.length → ∀ x ∈ taken, node'.HasRow x.id
  unwritten : ¬ node.WritesOk taken.length → ∃ x ∈ taken, node'.HasRow x.id → node.HasRow x.id

namespace Ledger

variable {node node₁ node' : DeviceNode} {taken taken' : List SignedEvent}

/-- Nothing is logged where the log and the store stay as they are. -/
theorem of_same (he : node'.events = node.events) (hd : node'.durable = node.durable) : Ledger node [] node' := by
  have hrow : ∀ i, node'.HasRow i ↔ node.HasRow i := by
    intro i
    unfold HasRow
    rw [hd]
  refine ⟨List.nodup_nil, by simp, by simp [he], ?_, fun i => (hrow i).2, fun i hi => Or.inl ((hrow i).1 hi), by simp,
    ?_⟩
  · unfold DeviceNode.faults
    rw [hd, List.length_nil, List.drop_zero]
  · intro hno
    exact absurd (writesOk_iff.2 (by simp)) hno

theorem trans (h : Ledger node taken node₁) (h' : Ledger node₁ taken' node') :
    Ledger node (taken ++ taken') node' := by
  have hlogged : ∀ x ∈ taken, x.id ∈ node₁.events := fun x hx => (h.log x.id).2 (Or.inr ⟨x, hx, rfl⟩)
  have hadd : node.WritesOk (taken ++ taken').length ↔ node.WritesOk taken.length ∧ node₁.WritesOk taken'.length := by
    rw [List.length_append]
    exact writesOk_add h.faults
  refine ⟨?_, ?_, ?_, ?_, fun i hi => h'.kept i (h.kept i hi), ?_, ?_, ?_⟩
  · rw [List.map_append]
    refine List.nodup_append.2 ⟨h.nodup, h'.nodup, ?_⟩
    -- what the first part logged, the second did not find new
    rintro i hi j hj rfl
    rcases List.mem_map.1 hi with ⟨x, hx, rfl⟩
    rcases List.mem_map.1 hj with ⟨y, hy, hid⟩
    exact h'.fresh y hy (hid ▸ hlogged x hx)
  · intro x hx
    rcases List.mem_append.1 hx with hx | hx
    · exact h.fresh x hx
    · exact fun hmem => h'.fresh x hx ((h.log x.id).2 (Or.inl hmem))
  · intro i
    rw [h'.log, h.log, or_assoc]
    simp [List.mem_append, or_and_right, exists_or]
  · rw [h'.faults, h.faults, List.drop_drop, List.length_append]
  · intro i hi
    rcases h'.only i hi with hi | ⟨x, hx, hid⟩
    · rcases h.only i hi with hi | ⟨x, hx, hid⟩
      · exact Or.inl hi
      · exact Or.inr ⟨x, List.mem_append_left _ hx, hid⟩
    · exact Or.inr ⟨x, List.mem_append_right _ hx, hid⟩
  · intro hok x hx
    rcases List.mem_append.1 hx with hx | hx
    · exact h'.kept _ (h.written (hadd.1 hok).1 x hx)
    · exact h'.written (hadd.1 hok).2 x hx
  · intro hno
    by_cases hfirst : node.WritesOk taken.length
    · rcases h'.unwritten (fun hsecond => hno (hadd.2 ⟨hfirst, hsecond⟩)) with ⟨x, hx, hrow⟩
      refine ⟨x, List.mem_append_right _ hx, fun hi => ?_⟩
      rcases h.only _ (hrow hi) with hi | ⟨y, hy, hid⟩
      · exact hi
      · exact absurd (hid ▸ hlogged y hy) (h'.fresh x hx)
    · rcases h.unwritten hfirst with ⟨x, hx, hrow⟩
      refine ⟨x, List.mem_append_left _ hx, fun hi => ?_⟩
      -- it is not written later either
      rcases h'.only _ hi with hi | ⟨y, hy, hid⟩
      · exact hrow hi
      · exact absurd (hid ▸ hlogged x hx) (h'.fresh y hy)

end Ledger

section Runs

variable [Primitives] {node : DeviceNode} {ev : SignedEvent}

/-- A store that gets the row of a verified event uses up one fault, and has the row unless that fails. -/
theorem record_store (hv : Verified ev) {store : SqliteStore} (hd : node.durable = some store) :
    ∃ store', (node.record ev).2.durable = some store' ∧ store'.faults = store.faults.drop 1 ∧
      ∀ i, i ∈ store'.rows ↔ i ∈ store.rows ∨ (store.nextFails = false ∧ i = ev.id) := by
  have hv' : verifyEvent ev = .ok () := hv
  unfold record
  rw [hd]
  unfold SqliteStore.put
  rw [hv']
  dsimp only
  cases hfail : store.nextFails with
  | true => exact ⟨_, rfl, List.drop_one.symm, by simp⟩
  | false =>
      by_cases hmem : ev.id ∈ store.rows
      · refine ⟨{ store with faults := store.faults.tail }, by simp [hmem], List.drop_one.symm, ?_⟩
        intro i
        refine ⟨Or.inl, ?_⟩
        rintro (hi | ⟨_, rfl⟩)
        · exact hi
        · exact hmem
      · refine ⟨_, by simp only [Bool.false_eq_true, if_false, hmem]; rfl, List.drop_one.symm, ?_⟩
        intro i
        simp [AList.mem_insert, or_comm]

theorem record_noStore (hd : node.durable = none) : (node.record ev).2.durable = none := by
  simp [record, hd]

/-- Recording an event is one write. -/
theorem ledger_record (hv : Verified ev) (hnew : ev.id ∉ node.events) : Ledger node [ev] (node.record ev).2 := by
  have hlog : ∀ i, i ∈ (node.record ev).2.events ↔ i ∈ node.events ∨ ∃ x ∈ [ev], x.id = i := by
    intro i
    rcases record_frame node ev with ⟨store, hframe⟩
    rw [hframe]
    simp [AList.mem_insert, eq_comm, or_comm]
  have hnodup : ([ev].map SignedEvent.id).Nodup := by simp
  have hfresh : ∀ x ∈ [ev], x.id ∉ node.events := by simpa using hnew
  cases hd : node.durable with
  | none =>
      have hd' : (node.record ev).2.durable = none := record_noStore hd
      have hall : ∀ i, (node.record ev).2.HasRow i := by
        intro i store hst
        rw [hd'] at hst
        cases hst
      refine ⟨hnodup, hfresh, hlog, ?_, fun i _ => hall i, ?_, fun _ x _ => hall x.id, ?_⟩
      · simp [DeviceNode.faults, hd, hd']
      · intro i _
        refine Or.inl fun store hst => ?_
        rw [hd] at hst
        cases hst
      · intro hno
        refine absurd (fun store hst => ?_) hno
        rw [hd] at hst
        cases hst
  | some store =>
      rcases record_store hv hd with ⟨store', hd', hfaults, hrows⟩
      have hrow : ∀ i, node.HasRow i ↔ i ∈ store.rows := by
        intro i
        constructor
        · intro h
          exact h store hd
        · intro hi store₁ hst
          rw [hd] at hst
          cases hst
          exact hi
      have hrow' : ∀ i, (node.record ev).2.HasRow i ↔ i ∈ store'.rows := by
        intro i
        constructor
        · intro h
          exact h store' hd'
        · intro hi store₁ hst
          rw [hd'] at hst
          cases hst
          exact hi
      have hwrites : node.WritesOk 1 ↔ store.nextFails = false := by
        have hf : node.faults = store.faults := by
          simp [DeviceNode.faults, hd]
        rw [writesOk_iff, hf]
        unfold SqliteStore.nextFails
        cases store.faults with
        | nil => simp
        | cons b bs => simp
      refine ⟨hnodup, hfresh, hlog, ?_, ?_, ?_, ?_, ?_⟩
      · simp [DeviceNode.faults, hd, hd', hfaults]
      · intro i hi
        rw [hrow', hrows]
        exact Or.inl ((hrow i).1 hi)
      · intro i hi
        rw [hrow', hrows] at hi
        rcases hi with hi | ⟨_, rfl⟩
        · exact Or.inl ((hrow i).2 hi)
        · exact Or.inr ⟨ev, by simp, rfl⟩
      · intro hok x hx
        rw [List.mem_singleton.1 hx, hrow', hrows]
        exact Or.inr ⟨hwrites.1 hok, rfl⟩
      · intro hno
        refine ⟨ev, by simp, fun hi => ?_⟩
        rw [hrow', hrows] at hi
        exact (hrow ev.id).2 (hi.resolve_right fun h => hno (hwrites.2 h.1))

/-- The events of `pool` that have come into the log since `node`, with their writes. -/
def Accounted (node : DeviceNode) (pool : Set SignedEvent) (node' : DeviceNode) : Prop :=
  ∃ taken, (∀ x ∈ taken, x ∈ pool) ∧ Ledger node taken node'

omit [Primitives] in
theorem Accounted.same {pool : Set SignedEvent} {node' node₁ : DeviceNode} (h : Accounted node pool node₁)
    (he : node'.events = node₁.events) (hd : node'.durable = node₁.durable) : Accounted node pool node' := by
  rcases h with ⟨taken, hsub, hl⟩
  refine ⟨taken, hsub, ?_⟩
  have hend := hl.trans (Ledger.of_same he hd)
  rwa [List.append_nil] at hend

/-- Whatever a commit does, its account can be given. -/
theorem kept_accounted {pool : Set SignedEvent} (hv : ∀ x ∈ pool, Verified x) :
    Kept (Accounted node pool) (Accounted node pool) pool := by
  have hrecord : ∀ (node₁ : DeviceNode) (ev : SignedEvent), ev ∈ pool → ev.id ∉ node₁.events →
      Accounted node pool node₁ → Accounted node pool ((node₁.dagIngest ev).2.record ev).2 := by
    intro node₁ ev hev hnew hacc
    have hread : Accounted node pool (node₁.dagIngest ev).2 := hacc.same rfl rfl
    rcases hread with ⟨taken, hsub, hl⟩
    refine ⟨taken ++ [ev], ?_, hl.trans (ledger_record (hv ev hev) hnew)⟩
    intro x hx
    rcases List.mem_append.1 hx with hx | hx
    · exact hsub x hx
    · exact List.mem_singleton.1 hx ▸ hev
  refine ⟨fun node₁ ev _ _ _ h _ => h.same rfl rfl, fun node₁ ev hev hnew _ h _ _ => hrecord node₁ ev hev hnew h,
    fun node₁ ev e inbox _ _ _ h _ => h.same rfl rfl,
    fun node₁ ev e inbox hev hnew _ h _ _ => (hrecord node₁ ev hev hnew h).same rfl rfl,
    fun node₁ inbox h => h.same rfl rfl⟩

theorem commit_accounted {pool : Set SignedEvent} (hv : ∀ x ∈ pool, Verified x) (hin : ∀ x ∈ node.inbox, x ∈ pool)
    (hev : ev ∈ pool) (toOutbox : Bool) : Accounted node pool (node.commit ev toOutbox).2 := by
  have hstart : Accounted node pool node := ⟨[], by simp, Ledger.of_same rfl rfl⟩
  have hkept : Kept (Accounted node pool) (Accounted node pool) pool := kept_accounted hv
  have hends : Ends (Accounted node pool) (Accounted node pool) (node.ingestEvent ev toOutbox).1
      (node.ingestEvent ev toOutbox).2 :=
    ingestEvent_kept hkept (fun _ node₁ outbox h => h.same rfl rfl) hin hev hstart rfl
  rw [commit_verified (hv ev hev)]
  cases hres : (node.ingestEvent ev toOutbox).1 with
  | ok b => exact hends.ok b hres
  | error e => exact hends.failed e hres

theorem commitRemoteAll_accounted (evs : List SignedEvent) {pool : Set SignedEvent} (hv : ∀ x ∈ pool, Verified x) :
    ∀ {node : DeviceNode}, node.Sound → (∀ x ∈ node.inbox, x ∈ pool) → (∀ e ∈ evs, e ∈ pool) →
    Accounted node pool (node.commitRemoteAll evs).2 := by
  induction evs with
  | nil =>
      intro node _ _ _
      exact ⟨[], by simp, Ledger.of_same rfl rfl⟩
  | cons ev evs ih =>
      intro node hs hin hevs
      have hev : ev ∈ pool := hevs ev (by simp)
      have ho := commit_outcome hs (hv ev hev) false
      have hin' : ∀ x ∈ (node.commit ev false).2.inbox, x ∈ pool := by
        intro x hx
        rcases ho.parked_subset hx with hx | hx
        · exact hin x hx
        · exact hx ▸ hev
      rcases commit_accounted hv hin hev false with ⟨taken, hsub, hl⟩
      rcases ih (ho.sound hs (hv ev hev)) hin' (fun e he => hevs e (by simp [he])) with ⟨taken', hsub', hl'⟩
      refine ⟨taken ++ taken', ?_, hl.trans hl'⟩
      intro x hx
      rcases List.mem_append.1 hx with hx | hx
      · exact hsub x hx
      · exact hsub' x hx

end Runs

end DeviceNode
end Node
end Thunderducks
