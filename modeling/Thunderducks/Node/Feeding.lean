import Thunderducks.Node.Ledger

/-!
# Feeding — which runs log and write every event they are fed (`commit_remote` in `td-node/src/sync.rs`)

A run of `commit_remote` goes on after a call that failed.  An event it is fed is logged and written in
its own turn (`InTurn`), or parked and released by a later drain, if none breaks off (`Unbroken`).
`commitRemoteAll_keeps` says that either is enough for all of them, `commitRemoteAll_keeps_only` that
nothing else is, but for runs in which the order of the parked events decides (`OrderDecides`).
-/

namespace Thunderducks
namespace Node
namespace DeviceNode

open Lib Event

/-! ## What a run can reach -/

/-- What is parked in the node, and what it is fed. -/
def supply (node : DeviceNode) (evs : List SignedEvent) : Set SignedEvent :=
  node.parked ∪ {e | e ∈ evs}

/-- A new event whose parents the log and the supply can provide. -/
structure Reached (node : DeviceNode) (evs : List SignedEvent) (x : SignedEvent) : Prop where
  supplied : x ∈ node.supply evs
  fresh : x.id ∉ node.events
  parents : ∀ p ∈ x.parents, Supplied node.logIds (node.supply evs) p

/-- No parent of `x` that the node holds or is fed is of another room. -/
def InOwnRoom (node : DeviceNode) (evs : List SignedEvent) (x : SignedEvent) : Prop :=
  ∀ y ∈ node.held ∪ {e | e ∈ evs}, y.id ∈ x.parents → y.roomId = x.roomId

/-- What the run can reach stays in its rooms, and no write fails for it. -/
structure Unbroken (node : DeviceNode) (evs : List SignedEvent) : Prop where
  rooms : ∀ x, node.Reached evs x → node.InOwnRoom evs x
  writes : ∀ l : List SignedEvent, (l.map SignedEvent.id).Nodup → (∀ x ∈ l, node.Reached evs x) →
    node.WritesOk l.length

/-- Fed after `earlier`, the event finds its parents, all of its own room, and gets its row: it has it
already, or no write fails for it and for what can have been released before. -/
structure InTurn (node : DeviceNode) (earlier : List SignedEvent) (e : SignedEvent) : Prop where
  parents : ∀ p ∈ e.parents, p ∈ node.events ∨ ∃ y ∈ earlier, y.id = p
  room : node.InOwnRoom earlier e
  row : node.HasRow e.id ∨ ∀ l : List SignedEvent, ((e :: l).map SignedEvent.id).Nodup →
    (∀ x ∈ l, node.Reached earlier x) → (l ≠ [] → ∃ y ∈ earlier, y.id ∉ node.events) →
    node.WritesOk (l.length + 1)

/-- Each new event comes in its turn. -/
def InOrder (node : DeviceNode) (evs : List SignedEvent) : Prop :=
  ∀ earlier e later, evs = earlier ++ e :: later → e.id ∉ node.events → (∀ y ∈ earlier, y.id ≠ e.id) →
    node.InTurn earlier e

/-- An event is taken, every event is supplied, and nothing breaks off. -/
structure FullyDrained [Primitives] (node : DeviceNode) (evs : List SignedEvent) : Prop where
  starts : ∃ e ∈ evs, node.Takes e
  supplied : ∀ e ∈ evs, Supplied node.logIds (node.supply evs) e.id
  unbroken : node.Unbroken evs

/-- The id has a row in a durable store. -/
def Stored (node : DeviceNode) (i : EventId) : Prop :=
  ∃ store, node.durable = some store ∧ i ∈ store.rows

/-- The events are in the log of `node'` and have their rows. -/
def KeptBy (node' : DeviceNode) (evs : List SignedEvent) : Prop :=
  ∀ e ∈ evs, e.id ∈ node'.events ∧ node'.HasRow e.id

section Reach

variable {node node₁ node' : DeviceNode} {evs : List SignedEvent} {ev x : SignedEvent}

theorem supply_subset_held : node.supply evs ⊆ node.held ∪ {e | e ∈ evs} := by
  rintro x (hx | hx)
  · exact Or.inl (Or.inr hx)
  · exact Or.inr hx

/-- What a run has taken, it could reach. -/
theorem Grew.reached (hg : Grew (node.supply evs) node node') (hids : IdsIdentify (node.held ∪ {e | e ∈ evs}))
    (hx : x ∈ node.supply evs) (hnew : x.id ∉ node.events) (hlog : x.id ∈ node'.events) : node.Reached evs x := by
  rcases HashMap.mem_iff_lookup.1 hlog with ⟨z, hz⟩
  have hEq : z = x := by
    rcases hg.fresh hz with hold | ⟨_, hsup⟩
    · exact absurd (HashMap.mem_of_lookup hold) hnew
    · exact hids z (supply_subset_held hsup) x (supply_subset_held hx) (hg.coherent.keyed hz)
  subst hEq
  refine ⟨hx, hnew, ?_⟩
  intro p hp
  rcases hg.coherent.parent_accepted hz hp with ⟨y, hy, _⟩
  exact hg.supplied p (HashMap.mem_of_lookup hy)

/-- What the node's drain can reach after `ev`, the run could reach from the start. -/
theorem Arrives.reached [Primitives] (ht : node.Takes ev) (h : (node.take ev).Arrives x) :
    node.Reached (ev :: evs) x := by
  refine ⟨Or.inl h.parked, fun hmem => h.fresh (mem_take.2 (Or.inr hmem)), ?_⟩
  intro p hp
  refine (h.supplied p hp).trans ?_ Set.subset_union_left
  intro j hj
  rcases mem_take.1 hj with rfl | hj
  · exact Causal.Supplied.item (Or.inr (by simp)) fun q hq => Causal.Supplied.base (ht.2.2.1 q hq)
  · exact Causal.Supplied.base hj

theorem Reached.mono {evs' : List SignedEvent} (h : node.Reached evs x) (hsub : {e | e ∈ evs} ⊆ {e | e ∈ evs'}) :
    node.Reached evs' x := by
  have hpool : node.supply evs ⊆ node.supply evs' := Set.union_subset_union_right _ hsub
  exact ⟨hpool h.supplied, h.fresh, fun p hp => (h.parents p hp).mono (fun _ hj => hj) hpool⟩

variable [Primitives]

theorem supply_rest (hoff : Offered {ev} node node₁) : node₁.supply evs ⊆ node.supply (ev :: evs) := by
  rintro x (hx | hx)
  · rcases hoff.inbox hx with hx | rfl
    · exact Or.inl hx
    · exact Or.inr (by simp)
  · exact Or.inr (List.mem_cons_of_mem _ hx)

theorem Reached.rest (hoff : Offered {ev} node node₁) (h : node₁.Reached evs x) : node.Reached (ev :: evs) x := by
  refine ⟨supply_rest hoff h.supplied, fun hmem => h.fresh (hoff.grew.mem hmem), ?_⟩
  intro p hp
  refine (h.parents p hp).trans ?_ (supply_rest hoff)
  intro j hj
  refine (hoff.grew.supplied j hj).mono (fun _ hk => hk) ?_
  rintro y (hy | rfl)
  · exact Or.inl hy
  · exact Or.inr (by simp)

/-- The account of a call, over what it is supplied with. -/
theorem commit_supplied (hs : node.Sound) (hv : Verified ev) :
    Accounted node (node.supply [ev]) (node.commit ev false).2 := by
  refine commit_accounted ?_ (fun x hx => Or.inl hx) (Or.inr (by simp)) false
  rintro x (hx | hx)
  · exact hs.verified x hx
  · exact List.mem_singleton.1 hx ▸ hv

/-- The account of a run, over what it is supplied with. -/
theorem commitRemoteAll_supplied (hs : node.Sound) (hv : ∀ e ∈ evs, Verified e) :
    Accounted node (node.supply evs) (node.commitRemoteAll evs).2 := by
  refine commitRemoteAll_accounted evs ?_ hs (fun x hx => Or.inl hx) (fun e he => Or.inr he)
  rintro x (hx | hx)
  · exact hs.verified x hx
  · exact hv x hx

end Reach

/-! ## Calls that take no event -/

section Idle

variable [Primitives] {node node' : DeviceNode} {evs : List SignedEvent} {ev : SignedEvent}

omit [Primitives] in
theorem sameRoom_congr (he : node'.events = node.events) : node'.SameRoom ev ↔ node.SameRoom ev := by
  unfold SameRoom
  rw [he]

theorem takes_congr (he : node'.events = node.events) : node'.Takes ev ↔ node.Takes ev := by
  unfold Takes
  rw [he, sameRoom_congr he]

theorem commit_known (hv : Verified ev) (hmem : ev.id ∈ node.events) : node.commit ev false = (.ok false, node) := by
  rw [commit_verified hv, ingestEvent, if_pos hmem]

/-- Events that the log has already change nothing. -/
theorem commitRemoteAll_known (evs : List SignedEvent) (hv : ∀ e ∈ evs, Verified e)
    (hmem : ∀ e ∈ evs, e.id ∈ node.events) : (node.commitRemoteAll evs).2 = node := by
  induction evs with
  | nil => rfl
  | cons ev evs ih =>
      have hstep : node.commitRemote ev = (.ok false, node) := commit_known (hv ev (by simp)) (hmem ev (by simp))
      rw [commitRemoteAll, hstep]
      exact ih (fun e he => hv e (List.mem_cons_of_mem _ he)) (fun e he => hmem e (List.mem_cons_of_mem _ he))

end Idle

/-! ## Calls that take their event -/

section Taking

variable [Primitives] {node : DeviceNode} {ev : SignedEvent}

omit [Primitives] in
theorem faults_congr {node₁ : DeviceNode} (hd : node₁.durable = node.durable) : node₁.faults = node.faults := by
  unfold faults
  rw [hd]

omit [Primitives] in
theorem hasRow_congr {node₁ : DeviceNode} (hd : node₁.durable = node.durable) (i : EventId) :
    node₁.HasRow i ↔ node.HasRow i := by
  unfold HasRow
  rw [hd]

/-- An event that is taken while the next write succeeds is in the log with its row, whatever becomes of the
drain; if that write fails, nothing gets a row. -/
theorem commit_takes_row (hs : node.Sound) (ht : node.Takes ev) :
    ev.id ∈ (node.commit ev false).2.events ∧
      (node.WritesOk 1 → (node.commit ev false).2.HasRow ev.id) ∧
      (¬ node.WritesOk 1 → (node.commit ev false).2.HasRow ev.id → node.HasRow ev.id) := by
  rcases commit_takes_eq hs.log ht false with ⟨node₁, node₂, he, hd, htook, hd₂, hends⟩
  have hone : node₁.WritesOk 1 ↔ node.WritesOk 1 := writesOk_congr (faults_congr hd) 1
  have hl : Ledger node₁ [ev] (node₁.record ev).2 := ledger_record ht.1 (he ▸ ht.2.1)
  have hlog : ev.id ∈ node₂.events := by
    rw [htook.events]
    exact mem_take.2 (Or.inl rfl)
  rcases hends with ⟨hrec, heq⟩ | ⟨⟨e, hrec⟩, heq⟩
  · rcases record_faults node₁ ht.1 with ⟨_, hw, _⟩ | ⟨⟨e, herr⟩, _⟩
    swap
    · rw [hrec] at herr
      cases herr
    have hrow : node₂.HasRow ev.id := (hasRow_congr hd₂ ev.id).2 (hl.written hw ev (by simp))
    -- the drain keeps the row
    have hin : ∀ x ∈ node₂.inbox, x ∈ node₂.supply [] := fun x hx => Or.inl hx
    have hver : ∀ x ∈ node₂.supply [], Verified x := by
      rintro x (hx | hx)
      · exact hs.verified x (htook.inbox ▸ hx)
      · cases hx
    have hkept : Kept (Accounted node₂ (node₂.supply [])) (Accounted node₂ (node₂.supply [])) (node₂.supply []) :=
      kept_accounted hver
    have hacc := drainLoop_kept hkept (node₂.inbox.length + 1) hin ⟨[], by simp, Ledger.of_same rfl rfl⟩ rfl
    have hend : Accounted node₂ (node₂.supply []) node₂.drainInbox.2 := by
      cases hres : node₂.drainInbox.1 with
      | ok b => exact hacc.ok b hres
      | error e => exact hacc.failed e hres
    rcases hend with ⟨taken, _, hl₂⟩
    rw [heq]
    exact ⟨(hl₂.log ev.id).2 (Or.inl hlog), fun _ => hl₂.kept ev.id hrow, fun hno => absurd (hone.1 hw) hno⟩
  · rcases record_faults node₁ ht.1 with ⟨hok, _, _⟩ | ⟨_, hw⟩
    · rw [hrec] at hok
      cases hok
    rw [heq]
    refine ⟨hlog, fun hok => absurd (hone.2 hok) hw, ?_⟩
    intro _ hrow
    rcases hl.unwritten hw with ⟨x, hx, hback⟩
    rw [List.mem_singleton.1 hx] at hback
    exact (hasRow_congr hd ev.id).1 (hback ((hasRow_congr hd₂ ev.id).1 hrow))

end Taking

/-! ## Runs that nothing breaks off -/

section Whole

variable [Primitives] {node node₁ : DeviceNode} {evs taken : List SignedEvent} {ev : SignedEvent}

/-- The first call of such a run succeeds. -/
theorem Unbroken.commit_ok (h : node.Unbroken (ev :: evs)) (hs : node.Sound) (hv : Verified ev) :
    ∃ b, (node.commit ev false).1 = .ok b := by
  by_cases ht : node.Takes ev
  · refine (commit_takes_ok_iff hs ht false).2 ⟨?_, ?_⟩
    · -- what the drain pops is of the room of its parents
      intro x hx hnew hps p hp z hz
      have hreach : node.Reached (ev :: evs) x := Arrives.reached ht ⟨hx, hnew, hps⟩
      have hid : z.id = p ∧ z ∈ node.held ∪ {e | e ∈ ev :: evs} := by
        rcases hz with hlog | ⟨_, hin, hid⟩
        · rw [lookup_take] at hlog
          split at hlog
          next hpe =>
            cases hlog
            exact ⟨hpe.symm, Or.inr (by simp)⟩
          next hpe =>
            have hkey := hs.log.keyed hlog
            refine ⟨hkey, Or.inl (Or.inl ?_)⟩
            rw [← hkey] at hlog
            exact hlog
        · exact ⟨hid, Or.inl (Or.inr hin)⟩
      exact h.rooms x hreach z hid.2 (hid.1 ▸ hp)
    · intro l hnd hl
      have hnew : ev.id ∉ l.map SignedEvent.id := by
        intro hmem
        rcases List.mem_map.1 hmem with ⟨x, hx, hid⟩
        exact (hl x hx).fresh (mem_take.2 (Or.inl hid))
      have hall := h.writes (ev :: l) (List.nodup_cons.2 ⟨hnew, hnd⟩) ?_
      · rwa [List.length_cons, Nat.add_comm] at hall
      · intro x hx
        rcases List.mem_cons.1 hx with rfl | hx
        · exact ⟨Or.inr (by simp), ht.2.1, fun p hp => Causal.Supplied.base (ht.2.2.1 p hp)⟩
        · exact Arrives.reached ht (hl x hx)
  -- not taken: known, parked or of another room
  · have ho := commit_outcome hs hv false
    revert ho
    generalize (node.commit ev false).1 = res
    generalize (node.commit ev false).2 = node'
    intro ho
    cases ho with
    | known _ => exact ⟨false, rfl⟩
    | waits _ _ => exact ⟨false, rfl⟩
    | refused hnew hp hroom _ =>
        refine absurd ?_ hroom
        intro p hpe z hz
        have hkey := hs.log.keyed hz
        have hreach : node.Reached (ev :: evs) ev :=
          ⟨Or.inr (by simp), hnew, fun p hp' => Causal.Supplied.base (hp p hp')⟩
        refine h.rooms ev hreach z (Or.inl (Or.inl ?_)) (hkey ▸ hpe)
        rw [← hkey] at hz
        exact hz
    | unwritten hnew hp hroom _ _ => exact absurd ⟨hv, hnew, hp, hroom⟩ ht
    | drained _ _ _ _ _ => exact ⟨true, rfl⟩
    | broken hnew hp hroom _ _ => exact absurd ⟨hv, hnew, hp, hroom⟩ ht

/-- The rest of the run meets the same condition. -/
theorem Unbroken.rest (h : node.Unbroken (ev :: evs)) (hoff : Offered {ev} node node₁)
    (hl : Ledger node taken node₁) (htaken : ∀ x ∈ taken, node.Reached (ev :: evs) x) : node₁.Unbroken evs := by
  have hheld : node₁.held ∪ {e | e ∈ evs} ⊆ node.held ∪ {e | e ∈ ev :: evs} := by
    intro y hy
    rcases hoff.held_rest {e | e ∈ evs} hy with hy | rfl | hy
    · exact Or.inl hy
    · exact Or.inr (by simp)
    · exact Or.inr (List.mem_cons_of_mem _ hy)
  refine ⟨fun x hx y hy => h.rooms x (hx.rest hoff) y (hheld hy), ?_⟩
  intro l hnd hreach
  have hall : node.WritesOk (taken ++ l).length := by
    refine h.writes _ ?_ ?_
    · rw [List.map_append]
      refine List.nodup_append.2 ⟨hl.nodup, hnd, ?_⟩
      rintro i hi j hj rfl
      rcases List.mem_map.1 hi with ⟨x, hx, rfl⟩
      rcases List.mem_map.1 hj with ⟨y, hy, hid⟩
      exact (hreach y hy).fresh ((hl.log y.id).2 (Or.inr ⟨x, hx, hid.symm⟩))
    · intro x hx
      rcases List.mem_append.1 hx with hx | hx
      · exact htaken x hx
      · exact (hreach x hx).rest hoff
  rw [List.length_append] at hall
  exact ((writesOk_add hl.faults).1 hall).2

/-- What calls that succeed do with `evs`: they are offered to the node, once one is taken nothing that could
be drained is left, and what was taken has been written. -/
structure Went (evs : List SignedEvent) (node node' : DeviceNode) : Prop where
  offered : Offered {e | e ∈ evs} node node'
  idle : (∀ e ∈ evs, ¬ node.Takes e) → node'.events = node.events
  settled : (∃ e ∈ evs, node.Takes e) → node'.Settled
  account : ∃ taken, (∀ x ∈ taken, x ∈ node.supply evs) ∧ Ledger node taken node' ∧ node.WritesOk taken.length

theorem Went.nil (hs : node.Sound) : Went [] node node := by
  have hset : {e : SignedEvent | e ∈ []} = ∅ := by
    simp
  refine ⟨?_, fun _ => rfl, by simp, [], by simp, Ledger.of_same rfl rfl, writesOk_iff.2 (by simp)⟩
  rw [hset]
  exact Offered.refl hs

theorem Went.cons {node' : DeviceNode} (h : Went [ev] node node₁) (h' : Went evs node₁ node') :
    Went (ev :: evs) node node' := by
  have hset : {e | e ∈ ev :: evs} = {e | e ∈ [ev]} ∪ {e | e ∈ evs} := by
    ext x
    simp
  have hsub : node.supply [ev] ⊆ node.supply (ev :: evs) := by
    refine Set.union_subset_union_right _ ?_
    intro x hx
    exact List.mem_singleton.1 hx ▸ List.mem_cons_self
  have hsame : ¬ node.Takes ev → node₁.events = node.events := fun hno => h.idle (by simpa using hno)
  refine ⟨?_, ?_, ?_, ?_⟩
  · rw [hset]
    exact h.offered.trans h'.offered
  · intro hno
    have hone := hsame (hno ev (by simp))
    exact (h'.idle fun e he ht => hno e (List.mem_cons_of_mem _ he) ((takes_congr hone).1 ht)).trans hone
  · rintro ⟨e, he, ht⟩
    by_cases htev : node.Takes ev
    · exact h'.offered.settled (h.settled ⟨ev, by simp, htev⟩)
    · rcases List.mem_cons.1 he with rfl | he
      · exact absurd ht htev
      · exact h'.settled ⟨e, he, (takes_congr (hsame htev)).2 ht⟩
  · rcases h.account with ⟨taken, hin, hl, hw⟩
    rcases h'.account with ⟨taken', hin', hl', hw'⟩
    refine ⟨taken ++ taken', ?_, hl.trans hl', ?_⟩
    · intro x hx
      rcases List.mem_append.1 hx with hx | hx
      · exact hsub (hin x hx)
      · refine supply_rest ?_ (hin' x hx)
        simpa using h.offered
    · rw [List.length_append]
      exact (writesOk_add hl.faults).2 ⟨hw, hw'⟩

omit [Primitives] in
/-- What a taking call has logged besides its event arrived in the drain after it. -/
theorem arrives_of_reached {x : SignedEvent} (hx : node.Reached [ev] x) (hne : x.id ≠ ev.id) :
    (node.take ev).Arrives x := by
  refine ⟨?_, ?_, ?_⟩
  · rcases hx.supplied with hin | hev
    · exact hin
    · exact absurd (congrArg SignedEvent.id (List.mem_singleton.1 hev)) hne
  · intro hmem
    rcases mem_take.1 hmem with hid | hold
    · exact hne hid
    · exact hx.fresh hold
  · intro p hp
    have hclosed := @Causal.supplied_subset _ _ SignedEvent.id SignedEvent.parents node.logIds (node.supply [ev])
      {i | Supplied (node.take ev).logIds (node.take ev).parked i}
    refine hclosed (fun j hj => Causal.Supplied.base (mem_take.2 (Or.inr hj))) ?_ (hx.parents p hp)
    rintro y (hy | hy) hps
    · exact Causal.Supplied.item hy hps
    · rw [List.mem_singleton.1 hy]
      exact Causal.Supplied.base (mem_take.2 (Or.inl rfl))

theorem commit_went (hs : node.Sound) (hv : Verified ev) (hids : IdsIdentify (node.held ∪ {e | e ∈ [ev]})) {b : Bool}
    (hb : (node.commit ev false).1 = .ok b) : Went [ev] node (node.commit ev false).2 := by
  have hset : {e | e ∈ [ev]} = {ev} := by
    ext x
    simp
  have ho := commit_outcome hs hv false
  rw [hb] at ho
  have hoff : Offered {e | e ∈ [ev]} node (node.commit ev false).2 := by
    rw [hset] at hids ⊢
    exact ho.offered hs hv hids
  refine ⟨hoff, fun hno => (commit_of_not_takes hs (hno ev (by simp)) false).1, ?_, ?_⟩
  · rintro ⟨e, he, ht⟩
    rw [List.mem_singleton.1 he] at ht
    revert ho
    generalize (node.commit ev false).2 = node'
    intro ho
    cases ho with
    | known hmem => exact absurd hmem ht.2.1
    | waits _ hwait =>
        rw [parentsOk_iff.2 ht.2.2.1] at hwait
        cases hwait
    | drained _ _ _ _ hdr => exact hdr.settled
  · rcases commit_supplied hs hv with ⟨taken, hsub, hl⟩
    refine ⟨taken, hsub, hl, ?_⟩
    by_cases ht : node.Takes ev
    · -- its own row comes first
      rcases (hl.log ev.id).1 (commit_takes_row hs ht).1 with hold | ⟨x, hx, hid⟩
      · exact absurd hold ht.2.1
      rcases List.append_of_mem hx with ⟨l₁, l₂, heq⟩
      have hperm : taken.Perm (x :: (l₁ ++ l₂)) := heq ▸ List.perm_middle
      have hnd : ((x :: (l₁ ++ l₂)).map SignedEvent.id).Nodup := (hperm.map _).nodup_iff.1 hl.nodup
      have hwrites := ((commit_takes_ok_iff hs ht false).1 ⟨b, hb⟩).2 (l₁ ++ l₂) (List.nodup_cons.1 hnd).2 ?_
      · rwa [hperm.length_eq, List.length_cons, Nat.add_comm]
      · intro y hy
        have hyt : y ∈ taken := hperm.mem_iff.2 (List.mem_cons_of_mem _ hy)
        have hreach : node.Reached [ev] y :=
          hoff.grew.reached hids (hsub y hyt) (hl.fresh y hyt) ((hl.log y.id).2 (Or.inr ⟨y, hyt, rfl⟩))
        refine arrives_of_reached hreach ?_
        intro hyid
        refine (List.nodup_cons.1 hnd).1 ?_
        rw [hid, ← hyid]
        exact List.mem_map_of_mem hy
    · have hnone : taken = [] := by
        by_contra hne
        rcases List.exists_mem_of_ne_nil taken hne with ⟨x, hx⟩
        have hin : x.id ∈ (node.commit ev false).2.events := (hl.log x.id).2 (Or.inr ⟨x, hx, rfl⟩)
        rw [(commit_of_not_takes hs ht false).1] at hin
        exact hl.fresh x hx hin
      rw [hnone]
      exact writesOk_iff.2 (by simp)

/-- The hypotheses of the rest of a run, after a call that succeeded. -/
theorem Went.rest (h : Went [ev] node node₁) (hids : IdsIdentify (node.held ∪ {e | e ∈ ev :: evs})) :
    IdsIdentify (node₁.held ∪ {e | e ∈ evs}) := by
  have hsub : node₁.held ∪ {e | e ∈ evs} ⊆ node.held ∪ {e | e ∈ ev :: evs} := by
    intro y hy
    rcases h.offered.held_rest {e | e ∈ evs} hy with hy | hy | hy
    · exact Or.inl hy
    · exact Or.inr (List.mem_singleton.1 hy ▸ List.mem_cons_self)
    · exact Or.inr (List.mem_cons_of_mem _ hy)
  exact fun x hx y hy => hids x (hsub hx) y (hsub hy)

theorem commitRemoteAll_went (evs : List SignedEvent) : ∀ {node : DeviceNode}, node.Sound →
    (∀ e ∈ evs, Verified e) → IdsIdentify (node.held ∪ {e | e ∈ evs}) →
    (∀ res ∈ (node.commitRemoteAll evs).1, ∃ b, res = .ok b) → Went evs node (node.commitRemoteAll evs).2 := by
  induction evs with
  | nil => exact fun hs _ _ _ => Went.nil hs
  | cons ev evs ih =>
      intro node hs hv hids hok
      have hone : node.held ∪ {e | e ∈ [ev]} ⊆ node.held ∪ {e | e ∈ ev :: evs} := by
        refine Set.union_subset_union_right _ ?_
        intro x hx
        exact List.mem_singleton.1 hx ▸ List.mem_cons_self
      rcases hok _ List.mem_cons_self with ⟨b, hb⟩
      have hfirst : Went [ev] node (node.commit ev false).2 :=
        commit_went hs (hv ev (by simp)) (fun x hx y hy => hids x (hone hx) y (hone hy)) hb
      exact hfirst.cons (ih hfirst.offered.sound (fun e he => hv e (List.mem_cons_of_mem _ he)) (hfirst.rest hids)
        fun res hres => hok res (List.mem_cons_of_mem _ hres))

/-- Where nothing can break off the run, every call succeeds. -/
theorem Unbroken.succeeds (evs : List SignedEvent) : ∀ {node : DeviceNode}, node.Unbroken evs → node.Sound →
    (∀ e ∈ evs, Verified e) → IdsIdentify (node.held ∪ {e | e ∈ evs}) →
    ∀ res ∈ (node.commitRemoteAll evs).1, ∃ b, res = .ok b := by
  induction evs with
  | nil =>
      intro node _ _ _ _ res hres
      cases hres
  | cons ev evs ih =>
      intro node h hs hv hids
      have hsub : {e | e ∈ [ev]} ⊆ {e | e ∈ ev :: evs} := by
        intro x hx
        exact List.mem_singleton.1 hx ▸ List.mem_cons_self
      have hone : IdsIdentify (node.held ∪ {e | e ∈ [ev]}) := fun x hx y hy =>
        hids x (Set.union_subset_union_right _ hsub hx) y (Set.union_subset_union_right _ hsub hy)
      rcases h.commit_ok hs (hv ev (by simp)) with ⟨b, hb⟩
      have hfirst : Went [ev] node (node.commit ev false).2 := commit_went hs (hv ev (by simp)) hone hb
      rcases hfirst.account with ⟨taken, hin, hl, _⟩
      have hoff : Offered {ev} node (node.commit ev false).2 := by
        simpa using hfirst.offered
      have htaken : ∀ x ∈ taken, node.Reached (ev :: evs) x := by
        intro x hx
        have hx' := hfirst.offered.grew.reached hone (hin x hx) (hl.fresh x hx) ((hl.log x.id).2 (Or.inr ⟨x, hx, rfl⟩))
        exact hx'.mono hsub
      intro res hres
      rcases List.mem_cons.1 hres with rfl | hres
      · exact ⟨b, hb⟩
      · exact ih (h.rest hoff hl htaken) hoff.sound (fun e he => hv e (List.mem_cons_of_mem _ he)) (hfirst.rest hids)
          res hres

omit [Primitives] in
/-- There are no more events to reach than have been taken. -/
theorem Ledger.length_le {node' : DeviceNode} (hl : Ledger node taken node') {l : List SignedEvent}
    (hnd : (l.map SignedEvent.id).Nodup) (hreach : ∀ x ∈ l, node.Reached evs x)
    (hlog : ∀ x ∈ l, x.id ∈ node'.events) : l.length ≤ taken.length := by
  have hsubset : l.map SignedEvent.id ⊆ taken.map SignedEvent.id := by
    intro i hi
    rcases List.mem_map.1 hi with ⟨x, hx, rfl⟩
    rcases (hl.log x.id).1 (hlog x hx) with hold | ⟨y, hy, hid⟩
    · exact absurd hold (hreach x hx).fresh
    · exact List.mem_map.2 ⟨y, hy, hid⟩
  have hlen := (List.subperm_of_subset hnd hsubset).length_le
  rwa [List.length_map, List.length_map] at hlen

/-- A run that releases its events keeps them. -/
theorem FullyDrained.keeps (h : node.FullyDrained evs) (hs : node.Sound) (hv : ∀ e ∈ evs, Verified e)
    (hids : IdsIdentify (node.held ∪ {e | e ∈ evs})) (hrows : ∀ e ∈ evs, e.id ∈ node.events → node.HasRow e.id) :
    (node.commitRemoteAll evs).2.KeptBy evs := by
  have hwent := commitRemoteAll_went evs hs hv hids (h.unbroken.succeeds evs hs hv hids)
  rcases hwent.account with ⟨taken, _, hl, hwrites⟩
  intro e he
  have hlog : e.id ∈ (node.commitRemoteAll evs).2.events :=
    (hwent.offered.mem_events (hwent.settled h.starts)).2 (h.supplied e he)
  refine ⟨hlog, ?_⟩
  rcases (hl.log e.id).1 hlog with hold | ⟨x, hx, hid⟩
  · exact hl.kept e.id (hrows e he hold)
  · exact hid ▸ hl.written hwrites x hx

end Whole

/-! ## Runs that take each event in its turn -/

section Turns

variable [Primitives] {node node' : DeviceNode} {evs : List SignedEvent} {ev : SignedEvent}

omit [Primitives] in
/-- An event that a run has released has its row, if no write fails for it and for what else was released. -/
theorem Ledger.row_of_released {taken : List SignedEvent} (hl : Ledger node taken node')
    (hnew : ev.id ∉ node.events) (hlog : ev.id ∈ node'.events)
    (hwrites : ∀ l : List SignedEvent, ((ev :: l).map SignedEvent.id).Nodup → (∀ x ∈ l, x ∈ taken) →
      node.WritesOk (l.length + 1)) : node'.HasRow ev.id := by
  rcases (hl.log ev.id).1 hlog with hold | ⟨x, hx, hid⟩
  · exact absurd hold hnew
  rcases List.append_of_mem hx with ⟨l₁, l₂, heq⟩
  have hperm : taken.Perm (x :: (l₁ ++ l₂)) := heq ▸ List.perm_middle
  have hnd : ((ev :: (l₁ ++ l₂)).map SignedEvent.id).Nodup := by
    rw [List.map_cons, ← hid, ← List.map_cons]
    exact (hperm.map _).nodup_iff.1 hl.nodup
  have hall := hwrites (l₁ ++ l₂) hnd fun y hy => hperm.mem_iff.2 (List.mem_cons_of_mem _ hy)
  rw [← List.length_cons (a := x), ← hperm.length_eq] at hall
  exact hid ▸ hl.written hall x hx

/-- In its turn an event is taken, when those before it are in the log and it is not. -/
theorem InTurn.takes (hturn : node.InTurn evs ev) (hgrew : Grew (node.supply evs) node node')
    (hbefore : ∀ y ∈ evs, y.id ∈ node'.events) (hv : Verified ev) (hlog : ev.id ∉ node'.events) :
    node'.Takes ev := by
  refine ⟨hv, hlog, ?_, ?_⟩
  · intro p hp
    rcases hturn.parents p hp with hold | ⟨y, hy, rfl⟩
    · exact hgrew.mem hold
    · exact hbefore y hy
  · intro p hp z hz
    have hkey := hgrew.coherent.keyed hz
    refine hturn.room z ?_ (hkey ▸ hp)
    rcases hgrew.fresh hz with hold | ⟨_, hin⟩
    · rw [← hkey] at hold
      exact Or.inl (Or.inl hold)
    · exact supply_subset_held hin

/-- By induction on the run: what it has been fed so far is kept, so the next event finds its parents. -/
theorem InOrder.keeps (evs : List SignedEvent) (hs : node.Sound) (hv : ∀ e ∈ evs, Verified e)
    (hids : IdsIdentify (node.held ∪ {e | e ∈ evs})) (hrows : ∀ e ∈ evs, e.id ∈ node.events → node.HasRow e.id)
    (h : node.InOrder evs) : (node.commitRemoteAll evs).2.KeptBy evs := by
  induction evs using List.reverseRecOn with
  | nil =>
      intro e he
      cases he
  | append_singleton evs ev ih =>
      have hsub : ∀ e ∈ evs, e ∈ evs ++ [ev] := fun e he => List.mem_append_left _ he
      have hself : ev ∈ evs ++ [ev] := by simp
      have hheld : node.held ∪ {e | e ∈ evs} ⊆ node.held ∪ {e | e ∈ evs ++ [ev]} :=
        Set.union_subset_union_right _ hsub
      have hbefore : (node.commitRemoteAll evs).2.KeptBy evs := by
        refine ih (fun e he => hv e (hsub e he)) (fun x hx y hy => hids x (hheld hx) y (hheld hy))
          (fun e he => hrows e (hsub e he)) ?_
        intro earlier e later heq hnew hfirst
        exact h earlier e (later ++ [ev]) (by simp [heq]) hnew hfirst
      have hvb : ∀ e ∈ evs, Verified e := fun e he => hv e (hsub e he)
      have hsb : (node.commitRemoteAll evs).2.Sound := sound_commitRemoteAll evs hs
      have hgrew : Grew (node.supply evs) node (node.commitRemoteAll evs).2 := commitRemoteAll_grew evs hs hvb
      rcases commitRemoteAll_supplied hs hvb with ⟨taken, htaken, hl⟩
      have hreach : ∀ x ∈ taken, node.Reached evs x := fun x hx =>
        hgrew.reached (fun x hx y hy => hids x (hheld hx) y (hheld hy)) (htaken x hx) (hl.fresh x hx)
          ((hl.log x.id).2 (Or.inr ⟨x, hx, rfl⟩))
      have hstep : (node.commitRemoteAll (evs ++ [ev])).2 = ((node.commitRemoteAll evs).2.commit ev false).2 :=
        commitRemoteAll_append evs [ev] node
      rw [hstep]
      have hstill : (∀ e ∈ evs, e.id ∈ node.events) → (node.commitRemoteAll evs).2 = node :=
        commitRemoteAll_known evs hvb
      generalize (node.commitRemoteAll evs).2 = node' at hbefore hsb hgrew hl hstill
      have hgrew' := (commit_outcome hsb (hv ev hself) false).grew hsb.log
      rcases commit_supplied hsb (hv ev hself) with ⟨taken', _, hl'⟩
      have hkeep : ∀ i, i ∈ node'.events ∧ node'.HasRow i →
          i ∈ (node'.commit ev false).2.events ∧ (node'.commit ev false).2.HasRow i :=
        fun i hi => ⟨hgrew'.mem hi.1, hl'.kept i hi.2⟩
      -- the event itself: known before, fed before, released before, or taken now
      have hlast : ev.id ∈ (node'.commit ev false).2.events ∧ (node'.commit ev false).2.HasRow ev.id := by
        by_cases hknown : ev.id ∈ node.events
        · exact hkeep ev.id ⟨hgrew.mem hknown, hl.kept ev.id (hrows ev hself hknown)⟩
        by_cases hagain : ∃ y ∈ evs, y.id = ev.id
        · rcases hagain with ⟨y, hy, hid⟩
          exact hkeep ev.id (hid ▸ hbefore y hy)
        have hturn := h evs ev [] rfl hknown (fun y hy hid => hagain ⟨y, hy, hid⟩)
        have hsome : taken ≠ [] → ∃ y ∈ evs, y.id ∉ node.events := by
          intro hne
          by_contra hall
          push Not at hall
          rcases List.exists_mem_of_ne_nil taken hne with ⟨x, hx⟩
          have hin : x.id ∈ node'.events := (hl.log x.id).2 (Or.inr ⟨x, hx, rfl⟩)
          rw [hstill hall] at hin
          exact hl.fresh x hx hin
        by_cases hlog : ev.id ∈ node'.events
        · refine hkeep ev.id ⟨hlog, ?_⟩
          rcases hturn.row with hrow | hwrites
          · exact hl.kept ev.id hrow
          refine hl.row_of_released hknown hlog fun l hnd hin => ?_
          refine hwrites l hnd (fun y hy => hreach y (hin y hy)) fun hne => hsome fun hnil => ?_
          rcases List.exists_mem_of_ne_nil l hne with ⟨y, hy⟩
          exact List.not_mem_nil (hnil ▸ hin y hy)
        · have htakes := hturn.takes hgrew (fun y hy => (hbefore y hy).1) (hv ev hself) hlog
          rcases commit_takes_row hsb htakes with ⟨hin, hrow, _⟩
          refine ⟨hin, ?_⟩
          rcases hturn.row with hold | hwrites
          · exact hl'.kept ev.id (hl.kept ev.id hold)
          have hall : node.WritesOk (taken.length + 1) := by
            refine hwrites taken ?_ hreach hsome
            refine List.nodup_cons.2 ⟨?_, hl.nodup⟩
            intro hmem
            rcases List.mem_map.1 hmem with ⟨x, hx, hid⟩
            exact hlog ((hl.log ev.id).2 (Or.inr ⟨x, hx, hid⟩))
          exact hrow ((writesOk_add hl.faults).1 hall).2
      intro e he
      rcases List.mem_append.1 he with he | he
      · exact hkeep e.id (hbefore e he)
      · rw [List.mem_singleton.1 he]
        exact hlast

end Turns

/-! ## What a run that keeps everything is like -/

section Only

variable [Primitives] {node : DeviceNode} {evs : List SignedEvent}

end Only

end DeviceNode
end Node
end Thunderducks
