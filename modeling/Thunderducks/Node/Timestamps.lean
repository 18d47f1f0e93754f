import Thunderducks.Lib.Ahead
import Thunderducks.Node.Restart

/-!
# Timestamps — the counter behind `next_ts` (`load_from_data_dir` and `next_ts` in `td-node/src/rpc.rs`)

A session takes the times of its events from a counter, which a load puts past the times of all listed
events.  Other devices choose those: an event of the last millisecond that a `u64` can say leaves no
counter past it.  An event whose parents are not all stored is parked by the load and not listed, and the
counter is not moved past it at all.  `keepsAhead_iff` has both conditions.
-/

namespace Thunderducks
namespace Node

open Lib Event Crypto

/-! ## The counter -/

/-- Whether `+` checks for overflow, and panics, or wraps. -/
inductive Profile
  | debug
  | release
  deriving DecidableEq

/-- `n + 1`; `none` is the panic. -/
def Profile.addOne : Profile → UInt64 → Option UInt64
  | .debug, n => if n.toNat + 1 < UInt64.size then some (n + 1) else none
  | .release, n => some (n + 1)

structure NodeMetaDisk where
  tsCounter : UInt64
  deriving DecidableEq

/-- `none` is a data dir without `meta.json`. -/
def loadMeta : Option NodeMetaDisk → NodeMetaDisk
  | none => { tsCounter := 1 }
  | some disk => disk

/-- The body of the loop over the listed events. -/
def Profile.overtake (p : Profile) (tsCounter : UInt64) (ev : SignedEvent) : Option UInt64 :=
  if ev.tsMs ≥ tsCounter then p.addOne ev.tsMs else some tsCounter

/-- ts_counter must stay ahead of any loaded event timestamps. -/
def loadTsCounter (p : Profile) (o : LoadOrder) (file : Option NodeMetaDisk) (node : DeviceNode) :
    Option UInt64 := do
  let tsCounter ← (o.rooms.run node.roomIds).foldlM
    (fun tsCounter rid => (node.listEvents o.events rid).foldlM p.overtake tsCounter)
    (max (loadMeta file).tsCounter 1)
  -- `from_parts`
  some (max tsCounter 1)

/-- The counter of a session and the `meta.json` of its data dir. -/
structure TsClock where
  tsCounter : UInt64
  file : Option NodeMetaDisk
  deriving DecidableEq

namespace TsClock

/-- `written` says whether the file could be written; `next_ts` does not ask. -/
def persistMeta (clock : TsClock) (written : Bool) : TsClock :=
  if written then { clock with file := some { tsCounter := clock.tsCounter } } else clock

def nextTs (p : Profile) (clock : TsClock) (written : Bool) : Option (UInt64 × TsClock) := do
  let tsCounter ← p.addOne clock.tsCounter
  some (tsCounter, { clock with tsCounter := tsCounter }.persistMeta written)

/-- The timestamps of a run of calls, one for each entry of `writes`. -/
def nextTsAll (p : Profile) : TsClock → List Bool → Option (List UInt64 × TsClock)
  | clock, [] => some ([], clock)
  | clock, written :: writes => do
      let (ts, clock) ← clock.nextTs p written
      let (tss, clock) ← nextTsAll p clock writes
      some (ts :: tss, clock)

/-- A load, and then a run of calls. -/
def timestamps (p : Profile) (o : LoadOrder) (file : Option NodeMetaDisk) (node : DeviceNode)
    (writes : List Bool) : Option (List UInt64) := do
  let tsCounter ← loadTsCounter p o file node
  let (tss, _) ← nextTsAll p { tsCounter := tsCounter, file := file } writes
  some tss

end TsClock

/-! ## Where nothing overflows -/

section Debug

variable {p : Profile} {c c' : UInt64} {evs : List SignedEvent}

theorem Profile.addOne_debug : Profile.debug.addOne c = some c' ↔ c'.toNat = c.toNat + 1 := by
  have hlt : c'.toNat < UInt64.size := c'.toNat_lt
  have hsucc : c.toNat + 1 < UInt64.size → (c + 1).toNat = c.toNat + 1 := by
    intro h
    rw [UInt64.toNat_add]
    exact Nat.mod_eq_of_lt h
  simp only [Profile.addOne]
  constructor
  · intro h
    split at h
    · next hno =>
        cases h
        exact hsucc hno
    · cases h
  · intro h
    rw [if_pos (h ▸ hlt), ← UInt64.toNat_inj.1 (h.trans (hsucc (h ▸ hlt)).symm)]

/-- What a debug build computes, a release build computes as well. -/
theorem Profile.addOne_of_debug (h : Profile.debug.addOne c = some c') : p.addOne c = some c' := by
  cases p with
  | debug => exact h
  | release =>
      simp only [Profile.addOne] at h ⊢
      split at h
      · exact h
      · cases h

theorem overtake_debug {ev : SignedEvent} : Profile.debug.overtake c ev = some c' ↔
    c'.toNat = Ahead.pass c.toNat ev.tsMs.toNat := by
  have hle : ev.tsMs ≥ c ↔ ev.tsMs.toNat ≥ c.toNat := UInt64.le_iff_toNat_le
  unfold Profile.overtake Ahead.pass
  by_cases h : ev.tsMs ≥ c
  · rw [if_pos h, if_pos (hle.1 h)]
    exact Profile.addOne_debug
  · rw [if_neg h, if_neg (fun hge => h (hle.2 hge)), Option.some.injEq, ← UInt64.toNat_inj]
    exact eq_comm

theorem overtake_of_debug {ev : SignedEvent} (h : Profile.debug.overtake c ev = some c') :
    p.overtake c ev = some c' := by
  unfold Profile.overtake at h ⊢
  by_cases hge : ev.tsMs ≥ c
  · rw [if_pos hge] at h ⊢
    exact Profile.addOne_of_debug h
  · rw [if_neg hge] at h ⊢
    exact h

/-- The loop ends without a panic exactly if the counter past all the times is a `u64`. -/
theorem foldlM_overtake_debug : evs.foldlM Profile.debug.overtake c = some c' ↔
    c'.toNat = Ahead.passAll c.toNat (evs.map fun ev => ev.tsMs.toNat) := by
  induction evs generalizing c with
  | nil =>
      rw [List.foldlM_nil, Option.pure_def, Option.some.injEq, ← UInt64.toNat_inj]
      exact eq_comm
  | cons ev evs ih =>
      rw [List.foldlM_cons, Option.bind_eq_bind, Option.bind_eq_some_iff, List.map_cons, Ahead.passAll_cons]
      constructor
      · rintro ⟨c₁, hone, hrest⟩
        rw [← overtake_debug.1 hone]
        exact ih.1 hrest
      · intro h
        -- the counter only grows, so what it was after `ev` was a `u64`
        have hlt : Ahead.pass c.toNat ev.tsMs.toNat < UInt64.size := by
          refine Nat.lt_of_le_of_lt ?_ c'.toNat_lt
          rw [h]
          exact Ahead.le_passAll
        have hone : (UInt64.ofNatLT _ hlt).toNat = Ahead.pass c.toNat ev.tsMs.toNat :=
          UInt64.toNat_ofNatLT
        refine ⟨UInt64.ofNatLT _ hlt, overtake_debug.2 hone, ih.2 ?_⟩
        rw [hone]
        exact h

theorem foldlM_overtake_of_debug (h : evs.foldlM Profile.debug.overtake c = some c') :
    evs.foldlM p.overtake c = some c' := by
  induction evs generalizing c with
  | nil => exact h
  | cons ev evs ih =>
      rw [List.foldlM_cons, Option.bind_eq_bind, Option.bind_eq_some_iff] at h ⊢
      rcases h with ⟨c₁, hone, hrest⟩
      exact ⟨c₁, overtake_of_debug hone, ih hrest⟩

/-- A loop in a loop is one loop over all the listings. -/
theorem foldlM_listings (step : UInt64 → SignedEvent → Option UInt64) (list : RoomId → List SignedEvent)
    (rids : List RoomId) : ∀ c, rids.foldlM (fun c rid => (list rid).foldlM step c) c =
      (rids.flatMap list).foldlM step c := by
  induction rids with
  | nil => exact fun _ => rfl
  | cons rid rids ih =>
      intro c
      rw [List.foldlM_cons, List.flatMap_cons, List.foldlM_append]
      exact congrArg _ (funext ih)

/-- The events listed by a load, room by room. -/
def LoadOrder.listed (o : LoadOrder) (node : DeviceNode) : List SignedEvent :=
  (o.rooms.run node.roomIds).flatMap (node.listEvents o.events)

/-- Where a load starts to look. -/
def metaCounter (file : Option NodeMetaDisk) : Nat :=
  max (loadMeta file).tsCounter.toNat 1

theorem toNat_max (a b : UInt64) : (max a b).toNat = max a.toNat b.toNat := by
  rw [show max a b = if a ≤ b then b else a from rfl, Nat.max_def]
  split <;> split <;> simp_all [UInt64.le_iff_toNat_le]

theorem loadTsCounter_debug {o : LoadOrder} {file : Option NodeMetaDisk} {node : DeviceNode} :
    loadTsCounter .debug o file node = some c ↔
      c.toNat = Ahead.passAll (metaCounter file) ((o.listed node).map fun ev => ev.tsMs.toNat) := by
  have hstart : (max (loadMeta file).tsCounter 1).toNat = metaCounter file := toNat_max _ _
  have hpos : 1 ≤ Ahead.passAll (metaCounter file) ((o.listed node).map fun ev => ev.tsMs.toNat) :=
    (Nat.le_max_right _ _).trans Ahead.le_passAll
  unfold loadTsCounter
  rw [foldlM_listings, Option.bind_eq_bind, Option.bind_eq_some_iff]
  have hone : ∀ c₁ : UInt64, 1 ≤ c₁.toNat → max c₁ 1 = c₁ := by
    intro c₁ h
    rw [← UInt64.toNat_inj, toNat_max]
    exact Nat.max_eq_left h
  constructor
  · rintro ⟨c₁, hloop, heq⟩
    have hc₁ := foldlM_overtake_debug.1 hloop
    rw [hstart] at hc₁
    rw [hone c₁ (hc₁ ▸ hpos)] at heq
    cases heq
    exact hc₁
  · intro h
    refine ⟨c, foldlM_overtake_debug.2 ?_, congrArg some (hone c (h ▸ hpos))⟩
    rw [hstart]
    exact h

theorem loadTsCounter_of_debug {o : LoadOrder} {file : Option NodeMetaDisk} {node : DeviceNode}
    (h : loadTsCounter .debug o file node = some c) : loadTsCounter p o file node = some c := by
  unfold loadTsCounter at h ⊢
  rw [foldlM_listings, Option.bind_eq_bind, Option.bind_eq_some_iff] at h ⊢
  rcases h with ⟨c₁, hloop, heq⟩
  exact ⟨c₁, foldlM_overtake_of_debug hloop, heq⟩

end Debug

namespace TsClock

variable {clock clock' : TsClock} {tss tss' : List UInt64}

@[simp] theorem persistMeta_tsCounter (clock : TsClock) (written : Bool) :
    (clock.persistMeta written).tsCounter = clock.tsCounter := by
  cases written <;> rfl

theorem nextTs_debug {written : Bool} {ts : UInt64} (h : clock.nextTs .debug written = some (ts, clock')) :
    ts.toNat = clock.tsCounter.toNat + 1 ∧ clock'.tsCounter = ts ∧
      clock' = { clock with tsCounter := ts }.persistMeta written := by
  rw [nextTs, Option.bind_eq_bind, Option.bind_eq_some_iff] at h
  rcases h with ⟨c, hone, heq⟩
  cases heq
  exact ⟨Profile.addOne_debug.1 hone, by simp, rfl⟩

theorem nextTs_of_debug {p : Profile} {written : Bool} {ts : UInt64}
    (h : clock.nextTs .debug written = some (ts, clock')) : clock.nextTs p written = some (ts, clock') := by
  rw [nextTs, Option.bind_eq_bind, Option.bind_eq_some_iff] at h ⊢
  rcases h with ⟨c, hone, heq⟩
  exact ⟨c, Profile.addOne_of_debug hone, heq⟩

/-- As long as nothing overflows the timestamps are the numbers after the counter. -/
theorem nextTsAll_debug (writes : List Bool) : ∀ {clock clock' : TsClock} {tss : List UInt64},
    nextTsAll .debug clock writes = some (tss, clock') →
    clock'.tsCounter.toNat = clock.tsCounter.toNat + writes.length ∧
      tss.map UInt64.toNat = List.range' (clock.tsCounter.toNat + 1) writes.length := by
  induction writes with
  | nil =>
      intro clock clock' tss h
      cases h
      exact ⟨rfl, rfl⟩
  | cons written writes ih =>
      intro clock clock' tss h
      rw [nextTsAll, Option.bind_eq_bind, Option.bind_eq_some_iff] at h
      rcases h with ⟨⟨ts, clock₁⟩, hone, h⟩
      rw [Option.bind_eq_bind, Option.bind_eq_some_iff] at h
      rcases h with ⟨⟨tss₁, clock₂⟩, hrest, heq⟩
      cases heq
      -- the rest counts on from the first timestamp
      rcases nextTs_debug hone with ⟨hts, hc₁, _⟩
      rcases ih hrest with ⟨hcount, hmap⟩
      rw [hc₁, hts] at hcount hmap
      refine ⟨by rw [hcount, List.length_cons]; omega, ?_⟩
      rw [List.map_cons, hmap, hts, List.length_cons, List.range'_succ]

theorem nextTsAll_debug_ok (writes : List Bool) : ∀ clock : TsClock,
    clock.tsCounter.toNat + writes.length < UInt64.size →
    ∃ tss clock', nextTsAll .debug clock writes = some (tss, clock') := by
  induction writes with
  | nil => exact fun clock _ => ⟨[], clock, rfl⟩
  | cons written writes ih =>
      intro clock hlt
      rw [List.length_cons] at hlt
      have hone : clock.tsCounter.toNat + 1 < UInt64.size := by omega
      -- the sum is a `u64`, so the panic is not taken
      let ts : UInt64 := UInt64.ofNatLT _ hone
      have hts : ts.toNat = clock.tsCounter.toNat + 1 := UInt64.toNat_ofNatLT
      rcases ih ({ clock with tsCounter := ts }.persistMeta written) (by
        rw [persistMeta_tsCounter, hts]
        omega) with ⟨tss, clock', hrest⟩
      refine ⟨ts :: tss, clock', ?_⟩
      simp only [nextTsAll, nextTs, Profile.addOne_debug.2 hts, Option.bind_eq_bind, Option.bind_some, hrest]

theorem nextTsAll_of_debug {p : Profile} (writes : List Bool) : ∀ {clock clock' : TsClock}
    {tss : List UInt64}, nextTsAll .debug clock writes = some (tss, clock') →
    nextTsAll p clock writes = some (tss, clock') := by
  induction writes with
  | nil => exact fun h => h
  | cons written writes ih =>
      intro clock clock' tss h
      rw [nextTsAll, Option.bind_eq_bind, Option.bind_eq_some_iff] at h
      rcases h with ⟨⟨ts, clock₁⟩, hone, h⟩
      rw [Option.bind_eq_bind, Option.bind_eq_some_iff] at h
      rcases h with ⟨⟨tss₁, clock₂⟩, hrest, heq⟩
      simp only [nextTsAll, nextTs_of_debug hone, ih hrest, Option.bind_eq_bind, Option.bind_some]
      exact heq

variable {p : Profile} {o : LoadOrder} {file : Option NodeMetaDisk} {node : DeviceNode}
  {writes : List Bool}

/-- Nothing overflows exactly if the counter after the load leaves room for the calls. -/
theorem timestamps_debug : (∃ tss, timestamps .debug o file node writes = some tss) ↔
    Ahead.passAll (metaCounter file) ((o.listed node).map fun ev => ev.tsMs.toNat) + writes.length <
      UInt64.size := by
  constructor
  · rintro ⟨tss, h⟩
    rw [timestamps, Option.bind_eq_bind, Option.bind_eq_some_iff] at h
    rcases h with ⟨c, hload, h⟩
    rw [Option.bind_eq_bind, Option.bind_eq_some_iff] at h
    rcases h with ⟨⟨tss₁, clock'⟩, hrun, _⟩
    have hcount := (nextTsAll_debug writes hrun).1
    rw [← loadTsCounter_debug.1 hload, ← hcount]
    exact clock'.tsCounter.toNat_lt
  · intro hlt
    have hc : (UInt64.ofNatLT _ (Nat.lt_of_le_of_lt (Nat.le_add_right _ _) hlt)).toNat =
        Ahead.passAll (metaCounter file) ((o.listed node).map fun ev => ev.tsMs.toNat) :=
      UInt64.toNat_ofNatLT
    have hload := loadTsCounter_debug.2 hc
    rcases nextTsAll_debug_ok writes { tsCounter := UInt64.ofNatLT _ _, file := file } (by
      rw [hc]
      exact hlt) with ⟨tss, clock', hrun⟩
    refine ⟨tss, ?_⟩
    simp only [timestamps, hload, hrun, Option.bind_eq_bind, Option.bind_some]

/-- The timestamps where nothing overflows, in either build. -/
theorem timestamps_of_debug (h : timestamps .debug o file node writes = some tss) :
    timestamps p o file node writes = some tss ∧
      tss.map UInt64.toNat = List.range'
        (Ahead.passAll (metaCounter file) ((o.listed node).map fun ev => ev.tsMs.toNat) + 1)
        writes.length := by
  rw [timestamps, Option.bind_eq_bind, Option.bind_eq_some_iff] at h
  rcases h with ⟨c, hload, h⟩
  rw [Option.bind_eq_bind, Option.bind_eq_some_iff] at h
  rcases h with ⟨⟨tss₁, clock'⟩, hrun, heq⟩
  cases heq
  constructor
  · simp only [timestamps, loadTsCounter_of_debug hload, nextTsAll_of_debug writes hrun,
      Option.bind_eq_bind, Option.bind_some]
  · rw [← loadTsCounter_debug.1 hload]
    exact (nextTsAll_debug writes hrun).2

/-- What the last call wrote is where the counter stands. -/
theorem nextTsAll_written (writes : List Bool) : ∀ {clock clock' : TsClock} {tss : List UInt64},
    nextTsAll .debug clock (writes ++ [true]) = some (tss, clock') →
    clock'.file = some { tsCounter := clock'.tsCounter } := by
  induction writes with
  | nil =>
      intro clock clock' tss h
      rw [List.nil_append, nextTsAll, Option.bind_eq_bind, Option.bind_eq_some_iff] at h
      rcases h with ⟨⟨ts, clock₁⟩, hone, h⟩
      cases h
      rw [(nextTs_debug hone).2.2]
      rfl
  | cons written writes ih =>
      intro clock clock' tss h
      rw [List.cons_append, nextTsAll, Option.bind_eq_bind, Option.bind_eq_some_iff] at h
      rcases h with ⟨⟨ts, clock₁⟩, hone, h⟩
      rw [Option.bind_eq_bind, Option.bind_eq_some_iff] at h
      rcases h with ⟨⟨tss₁, clock₂⟩, hrest, heq⟩
      cases heq
      exact ih hrest

/-- After a restart the timestamps go on from before it, whatever is in the log, if the last of them could
be written. -/
theorem timestamps_restart {writes' : List Bool}
    (hrun : nextTsAll .debug clock (writes ++ [true]) = some (tss, clock'))
    (hnext : timestamps .debug o clock'.file node writes' = some tss') :
    ∀ ts ∈ tss, ∀ ts' ∈ tss', ts < ts' := by
  intro ts hts ts' hts'
  rcases nextTsAll_debug _ hrun with ⟨hcount, hmap⟩
  have hbefore : ts.toNat ∈ tss.map UInt64.toNat := List.mem_map_of_mem hts
  rw [hmap, List.mem_range'_1] at hbefore
  have hafter : ts'.toNat ∈ tss'.map UInt64.toNat := List.mem_map_of_mem hts'
  rw [(timestamps_of_debug (p := .debug) hnext).2, List.mem_range'_1] at hafter
  -- the load starts from what the last call wrote
  have hstart : clock'.tsCounter.toNat ≤
      Ahead.passAll (metaCounter clock'.file) ((o.listed node).map fun ev => ev.tsMs.toNat) := by
    refine le_trans ?_ Ahead.le_passAll
    rw [nextTsAll_written writes hrun]
    exact Nat.le_max_left _ _
  rw [UInt64.lt_iff_toNat_lt]
  omega

end TsClock

/-! ## The events of the database -/

section Stored

variable [Primitives] [Deserialize SignedEvent] {store : SqliteStore}

/-- The table has a row that reads as `ev`. -/
def Holds (store : SqliteStore) (ev : SignedEvent) : Prop :=
  ∃ row ∈ store.rows.values, Deserialize.fromSlice (α := SignedEvent) row.body = some ev

/-- Each row stands under the id of its event. -/
def Keyed (store : SqliteStore) : Prop :=
  ∀ {i row ev}, store.rows.lookup i = some row →
    Deserialize.fromSlice (α := SignedEvent) row.body = some ev → ev.id = i

/-- An event of the table all of whose ancestors are in the table. -/
def Restored (store : SqliteStore) (ev : SignedEvent) : Prop :=
  Holds store ev ∧ DeviceNode.Supplied ∅ {e | Holds store e} ev.id

/-- A write puts the event under its id. -/
theorem Keyed.put [RoundTrips SignedEvent] (h : Keyed store) (ev : SignedEvent) :
    Keyed (store.put ev).2 := by
  intro i row e hl hread
  unfold SqliteStore.put at hl
  split at hl
  · exact h hl hread
  · dsimp only at hl
    split at hl
    · exact h hl hread
    · split at hl
      · exact h hl hread
      · rw [HashMap.lookup_insert_eq] at hl
        split at hl
        · next hi =>
            cases hl
            rw [RoundTrips.read ev] at hread
            cases hread
            exact hi.symm
        · exact h hl hread

omit [Primitives] in
theorem Keyed.idsIdentify (h : Keyed store) : IdsIdentify {e | Holds store e} := by
  rintro e ⟨row, hrow, he⟩ e' ⟨row', hrow', he'⟩ hid
  rcases HashMap.mem_values.1 hrow with ⟨i, hi⟩
  rcases HashMap.mem_values.1 hrow' with ⟨i', hi'⟩
  have hsame : i = i' := (h hi he).symm.trans (hid.trans (h hi' he'))
  subst hsame
  rw [hi] at hi'
  cases hi'
  rw [he] at he'
  exact Option.some.inj he'

theorem decodeRows_ok {rows : List EventRow} : ∀ {evs : List SignedEvent},
    DeviceNode.decodeRows rows = .ok evs → ∀ e,
      (e ∈ evs ↔ ∃ row ∈ rows, Deserialize.fromSlice (α := SignedEvent) row.body = some e) ∧
      (e ∈ evs → Verified e) := by
  induction rows with
  | nil =>
      intro evs h e
      cases h
      simp
  | cons row rows ih =>
      intro evs h e
      unfold DeviceNode.decodeRows at h
      cases hread : Deserialize.fromSlice (α := SignedEvent) row.body with
      | none =>
          rw [hread] at h
          cases h
      | some ev =>
          cases hv : verifyEvent ev with
          | error err =>
              simp only [hread, hv] at h
              cases h
          | ok u =>
              cases hrest : DeviceNode.decodeRows rows with
              | error err =>
                  simp only [hread, hv, hrest] at h
                  cases h
              -- the row was read and verified, and so were the rest
              | ok evs₁ =>
                  simp only [hread, hv, hrest] at h
                  cases h
                  rcases ih hrest e with ⟨hiff, hver⟩
                  refine ⟨?_, ?_⟩
                  · rw [List.mem_cons, hiff, List.exists_mem_cons_iff, hread, Option.some.injEq]
                    exact or_congr eq_comm Iff.rfl
                  · intro hmem
                    rcases List.mem_cons.1 hmem with rfl | hmem
                    · exact hv
                    · exact hver hmem

theorem listAll_ok {o : IterOrder EventRow} {evs : List SignedEvent}
    (h : DeviceNode.listAll o store = .ok evs) (e : SignedEvent) :
    (e ∈ evs ↔ Holds store e) ∧ (e ∈ evs → Verified e) := by
  unfold DeviceNode.listAll at h
  cases hrows : DeviceNode.decodeRows (o.run store.rows.values) with
  | error err =>
      rw [hrows] at h
      cases h
  | ok evs₁ =>
      rw [hrows] at h
      cases h
      rcases decodeRows_ok hrows e with ⟨hiff, hver⟩
      simp only [IterOrder.mem_run] at hiff
      exact ⟨(List.mem_insertionSort _).trans hiff, fun hmem => hver ((List.mem_insertionSort _).1 hmem)⟩

omit [Deserialize SignedEvent] in
/-- A replay that comes to its end has offered all the events to the node. -/
theorem replayEvents_offered (evs : List SignedEvent) : ∀ {node node' : DeviceNode}, node.Sound →
    (∀ e ∈ evs, Verified e) → IdsIdentify (node.held ∪ {e | e ∈ evs}) →
    node.replayEvents evs = (.ok (), node') → DeviceNode.Offered {e | e ∈ evs} node node' := by
  induction evs with
  | nil =>
      intro node node' h _ _ hrun
      cases hrun
      have hset : {e : SignedEvent | e ∈ []} = ∅ := by
        simp
      rw [hset]
      exact DeviceNode.Offered.refl h
  | cons ev evs ih =>
      intro node node' h hv hids hrun
      have hset : {e | e ∈ ev :: evs} = {ev} ∪ {e | e ∈ evs} := by
        ext x
        simp
      rw [hset] at hids ⊢
      have hone : node.held ∪ {ev} ⊆ node.held ∪ ({ev} ∪ {e | e ∈ evs}) :=
        Set.union_subset_union_right _ Set.subset_union_left
      have ho := DeviceNode.ingestEvent_outcome h (hv ev (by simp)) false
      unfold DeviceNode.replayEvents at hrun
      rcases hing : node.ingestEvent ev false with ⟨res, node₁⟩
      rw [hing] at hrun ho
      cases res with
      | error e => cases hrun
      | ok b =>
          -- one event is offered, and the rest are offered to what it leaves
          have hoff : DeviceNode.Offered {ev} node node₁ :=
            ho.offered h (hv ev (by simp)) (fun x hx y hy => hids x (hone hx) y (hone hy))
          have hrest := hoff.held_rest {e | e ∈ evs}
          exact hoff.trans (ih hoff.sound (fun e he => hv e (List.mem_cons_of_mem _ he))
            (fun x hx y hy => hids x (hrest hx) y (hrest hy)) hrun)

/-- What a load accepts, whatever is in the table. -/
theorem withSqlite_accepted {o : IterOrder EventRow} {d : DeviceId} {node : DeviceNode}
    (hkeyed : Keyed store) (hload : DeviceNode.withSqlite o d store = (.ok (), node)) :
    node.LogCoherent ∧ ∀ e, e ∈ node.accepted ↔ Restored store e := by
  unfold DeviceNode.withSqlite at hload
  cases hlist : DeviceNode.listAll o store with
  | error err =>
      simp only [hlist] at hload
      cases hload
  | ok evs =>
      simp only [hlist] at hload
      have hpool : {e | e ∈ evs} = {e | Holds store e} := by
        ext e
        exact (listAll_ok hlist e).1
      have hblank : ({ DeviceNode.new d with durable := some store } : DeviceNode).held = ∅ :=
        DeviceNode.held_new d
      have hoff := replayEvents_offered evs (DeviceNode.Sound.new d (some store))
        (fun e he => (listAll_ok hlist e).2 he) (by
          rw [hblank, Set.empty_union, hpool]
          exact hkeyed.idsIdentify) hload
      have hsettled : node.Settled := hoff.settled (by intro x hx; simp [DeviceNode.new] at hx)
      rw [hpool] at hoff
      have hmem : ∀ i, i ∈ node.events ↔ DeviceNode.Supplied ∅ {e | Holds store e} i := by
        intro i
        have hlog : ({ DeviceNode.new d with durable := some store } : DeviceNode).logIds = ∅ := by
          ext j
          simp [DeviceNode.logIds, DeviceNode.new]
        have h := @DeviceNode.Offered.mem_events _ _ _ _ hoff hsettled i
        rw [hlog] at h
        simpa [DeviceNode.parked, DeviceNode.new] using h
      have hheld : ∀ {i e}, node.events.lookup i = some e → Holds store e := by
        intro i e hl
        rcases hoff.grew.fresh hl with hold | ⟨_, hp | hin⟩
        · simp [DeviceNode.new] at hold
        · simp [DeviceNode.parked, DeviceNode.new] at hp
        · exact hin
      refine ⟨hoff.sound.log, ?_⟩
      intro e
      constructor
      · intro hacc
        exact ⟨hheld hacc, (hmem e.id).1 (HashMap.mem_of_lookup hacc)⟩
      · rintro ⟨hin, hsup⟩
        -- the log has an event with this id, and the table has no other
        rcases HashMap.mem_iff_lookup.1 ((hmem e.id).2 hsup) with ⟨e', he'⟩
        have hEq : e' = e := hkeyed.idsIdentify e' (hheld he') e hin (hoff.sound.log.keyed he')
        rw [hEq] at he'
        exact he'

omit [Primitives] [Deserialize SignedEvent] in
/-- The listings of all rooms are the log. -/
theorem mem_listed (o : LoadOrder) {node : DeviceNode} (h : node.LogCoherent) {e : SignedEvent} :
    e ∈ o.listed node ↔ e ∈ node.accepted := by
  simp only [LoadOrder.listed, List.mem_flatMap, IterOrder.mem_run, mem_listEvents o.events h]
  constructor
  · rintro ⟨r, _, _, hl⟩
    exact hl
  · intro hl
    exact ⟨e.roomId, AList.mem_keys.1 (h.room_mem_dags hl), rfl, hl⟩

/-! ## The timestamps of a loaded session -/

/-- The load and the calls add without overflow, and the timestamps are past those of every stored event
and of each other. -/
structure KeepsAhead (p : Profile) (o : LoadOrder) (file : Option NodeMetaDisk) (store : SqliteStore)
    (node : DeviceNode) (writes : List Bool) : Prop where
  noOverflow : ∃ tss, TsClock.timestamps .debug o file node writes = some tss
  ahead : ∀ tss, TsClock.timestamps p o file node writes = some tss →
    tss.Pairwise (· < ·) ∧ ∀ ts ∈ tss, ∀ ev, Holds store ev → ev.tsMs < ts

/-- The counter and the times of the restored events leave room for `n` calls. -/
structure RoomFor (file : Option NodeMetaDisk) (store : SqliteStore) (n : Nat) : Prop where
  counter : metaCounter file + n < UInt64.size
  restored : ∀ ev, Restored store ev → ev.tsMs.toNat + 1 + n < UInt64.size

/-- No stored event is later than where the restored ones and the file take the counter. -/
def NoneLater (file : Option NodeMetaDisk) (store : SqliteStore) : Prop :=
  ∀ ev, Holds store ev → ev.tsMs.toNat ≤ metaCounter file ∨
    ∃ e, Restored store e ∧ ev.tsMs.toNat ≤ e.tsMs.toNat + 1

section Loaded

variable {o : LoadOrder} {file : Option NodeMetaDisk} {node : DeviceNode}

omit [Primitives] in
/-- The counter after a load, in terms of the table. -/
theorem counter_le_iff (hlog : node.LogCoherent) (hacc : ∀ e, e ∈ node.accepted ↔ Restored store e)
    {b : Nat} : Ahead.passAll (metaCounter file) ((o.listed node).map fun ev => ev.tsMs.toNat) ≤ b ↔
      metaCounter file ≤ b ∧ ∀ ev, Restored store ev → ev.tsMs.toNat < b := by
  rw [Ahead.passAll_le_iff, List.forall_mem_map]
  simp only [mem_listed o hlog, hacc]

omit [Primitives] in
theorem le_counter_iff (hlog : node.LogCoherent) (hacc : ∀ e, e ∈ node.accepted ↔ Restored store e)
    {b : Nat} : b ≤ Ahead.passAll (metaCounter file) ((o.listed node).map fun ev => ev.tsMs.toNat) ↔
      b ≤ metaCounter file ∨ ∃ e, Restored store e ∧ b ≤ e.tsMs.toNat + 1 := by
  rw [Ahead.le_passAll_iff]
  simp only [List.mem_map, exists_exists_and_eq_and, mem_listed o hlog, hacc]

omit [Primitives] in
theorem roomFor_iff (hlog : node.LogCoherent) (hacc : ∀ e, e ∈ node.accepted ↔ Restored store e)
    {n : Nat} : Ahead.passAll (metaCounter file) ((o.listed node).map fun ev => ev.tsMs.toNat) + n <
      UInt64.size ↔ RoomFor file store n := by
  have hshift : ∀ k : Nat, k + n < UInt64.size ↔ n < UInt64.size ∧ k ≤ UInt64.size - 1 - n := by
    intro k
    omega
  rw [hshift, counter_le_iff hlog hacc]
  constructor
  · rintro ⟨hn, hc, hall⟩
    refine ⟨(hshift _).2 ⟨hn, hc⟩, ?_⟩
    intro ev hev
    have hlt := hall ev hev
    omega
  · rintro ⟨hc, hall⟩
    rcases (hshift _).1 hc with ⟨hn, hc⟩
    refine ⟨hn, hc, ?_⟩
    intro ev hev
    have hlt := hall ev hev
    omega

end Loaded

variable [Olm] [Deserialize CreateRoomPayload] [Deserialize MembershipPayload]
variable {p : Profile} {o : LoadOrder} {bundle : DeviceBundle} {e2ee : E2eeDevice} {s : NodeSession}

theorem loadFromDataDir_ok {node : DeviceNode}
    (h : DeviceNode.withSqlite o.rows bundle.deviceId store = (.ok (), node)) :
    ∃ s : NodeSession, s.node = node ∧ NodeSession.loadFromDataDir o bundle store e2ee = .ok s := by
  refine ⟨NodeSession.fromParts bundle node e2ee (rebuildRooms o node), rfl, ?_⟩
  unfold NodeSession.loadFromDataDir
  rw [h]

theorem loadFromDataDir_accepted (hkeyed : Keyed store)
    (hload : NodeSession.loadFromDataDir o bundle store e2ee = .ok s) :
    s.node.LogCoherent ∧ ∀ e, e ∈ s.node.accepted ↔ Restored store e := by
  unfold NodeSession.loadFromDataDir at hload
  split at hload
  · cases hload
  · next node hopen =>
      cases hload
      exact withSqlite_accepted hkeyed hopen

/-- A loaded session keeps its timestamps ahead exactly if there is room for them and no event was
parked from later on. -/
theorem keepsAhead_iff (p : Profile) (file : Option NodeMetaDisk) (hkeyed : Keyed store)
    (hload : NodeSession.loadFromDataDir o bundle store e2ee = .ok s) (writes : List Bool) :
    KeepsAhead p o file store s.node writes ↔
      RoomFor file store writes.length ∧ (writes = [] ∨ NoneLater file store) := by
  rcases loadFromDataDir_accepted hkeyed hload with ⟨hlog, hacc⟩
  rw [← roomFor_iff (o := o) hlog hacc]
  constructor
  · rintro ⟨hno, hahead⟩
    refine ⟨TsClock.timestamps_debug.1 hno, ?_⟩
    rcases hno with ⟨tss, htss⟩
    rcases TsClock.timestamps_of_debug (p := p) htss with ⟨hrun, hmap⟩
    rcases hahead tss hrun with ⟨_, hpast⟩
    rcases Nat.eq_zero_or_pos writes.length with hnil | hlen
    · exact Or.inl (List.length_eq_zero_iff.1 hnil)
    · -- the first timestamp is one past the counter, and past the event
      have hfirst : Ahead.passAll (metaCounter file) ((o.listed s.node).map fun ev => ev.tsMs.toNat) + 1 ∈
          tss.map UInt64.toNat := by
        rw [hmap, List.mem_range'_1]
        omega
      rcases List.mem_map.1 hfirst with ⟨ts, hts, heq⟩
      refine Or.inr fun ev hev => (le_counter_iff (o := o) hlog hacc).1 ?_
      have hlt : ev.tsMs.toNat < ts.toNat := UInt64.lt_iff_toNat_lt.1 (hpast ts hts ev hev)
      omega
  · rintro ⟨hroom, hlater⟩
    have hno := TsClock.timestamps_debug.2 hroom
    refine ⟨hno, ?_⟩
    intro tss hrun
    rcases hno with ⟨tss', htss'⟩
    rcases TsClock.timestamps_of_debug (p := p) htss' with ⟨hrun', hmap⟩
    rw [hrun] at hrun'
    cases hrun'
    constructor
    · have hinc : (tss.map UInt64.toNat).Pairwise (· < ·) := by
        rw [hmap]
        exact List.pairwise_lt_range'
      exact (List.pairwise_map.1 hinc).imp fun h => UInt64.lt_iff_toNat_lt.2 h
    · intro ts hts ev hev
      have hin : ts.toNat ∈ tss.map UInt64.toNat := List.mem_map_of_mem hts
      rw [hmap, List.mem_range'_1] at hin
      rcases hlater with rfl | hlater
      · exact absurd hin (by simp)
      · have hle := (le_counter_iff (o := o) hlog hacc).2 (hlater ev hev)
        rw [UInt64.lt_iff_toNat_lt]
        omega

end Stored

/-! ## A run: an event of the last millisecond -/

section Example

open Checksum DeviceNode RoomRegistry

attribute [local instance] Checksum.primitives blankBook createReader membershipReader

/-- Its author has set the clock as far as it goes. -/
def lastMoment : SignedEvent :=
  event 1 (room 1) [] .message [104] 18446744073709551615

@[reducible] def momentReader : Deserialize SignedEvent :=
  Deserialize.ofTable [hello, lastMoment]

attribute [local instance] momentReader

/-- The table that holds `ev` alone. -/
def tableOf (ev : SignedEvent) : SqliteStore :=
  { rows := (∅ : HashMap EventId EventRow).insert ev.id (DeviceNode.rowOf ev)
    faults := [] }

def loadedFrom (ev : SignedEvent) : DeviceNode :=
  (withSqlite LoadOrder.stored.rows (device 2) (tableOf ev)).2

theorem holds_tableOf {ev e : SignedEvent}
    (hread : Deserialize.fromSlice (α := SignedEvent) (DeviceNode.rowOf ev).body = some ev) :
    Holds (tableOf ev) e ↔ e = ev := by
  have hvals : (tableOf ev).rows.values = [DeviceNode.rowOf ev] := rfl
  simp only [Holds, hvals, List.mem_singleton, exists_eq_left, hread, Option.some.injEq]
  exact eq_comm

theorem keyed_tableOf {ev : SignedEvent}
    (hread : Deserialize.fromSlice (α := SignedEvent) (DeviceNode.rowOf ev).body = some ev) :
    Keyed (tableOf ev) := by
  intro i row e hl he
  rw [tableOf, HashMap.lookup_insert_eq] at hl
  split at hl
  · next hi =>
      cases hl
      rw [hread] at he
      cases he
      exact hi.symm
  · cases hl

theorem loadFromDataDir_tableOf {ev : SignedEvent} (e2ee : E2eeDevice)
    (hok : (withSqlite LoadOrder.stored.rows (device 2) (tableOf ev)).1 = .ok ()) :
    ∃ s : NodeSession, s.node = loadedFrom ev ∧
      NodeSession.loadFromDataDir LoadOrder.stored ⟨device 2, key 2⟩ (tableOf ev) e2ee = .ok s := by
  have hopen : ∀ {res : Except SyncError Unit × DeviceNode}, res.1 = .ok () → res = (.ok (), res.2) := by
    rintro ⟨_, node⟩ rfl
    rfl
  rw [loadedFrom]
  exact loadFromDataDir_ok (hopen hok)

/-- In either build: one panics, the other starts again from one. -/
theorem keepsAhead_lastMoment :
    ¬ ∃ p : Profile, ∀ (o : LoadOrder) (bundle : DeviceBundle) (e2ee : E2eeDevice)
      (file : Option NodeMetaDisk) (store : SqliteStore) (s : NodeSession) (writes : List Bool),
      Keyed store → NodeSession.loadFromDataDir o bundle store e2ee = .ok s →
      KeepsAhead p o file store s.node writes := by
  rintro ⟨p, h⟩
  have hrun : Deserialize.fromSlice (α := SignedEvent) (DeviceNode.rowOf lastMoment).body = some lastMoment ∧
      (withSqlite LoadOrder.stored.rows (device 2) (tableOf lastMoment)).1 = .ok () ∧
      TsClock.timestamps .debug LoadOrder.stored none (loadedFrom lastMoment) [] = none := by
    decide +kernel
  rcases hrun with ⟨hread, hok, hpanic⟩
  rcases loadFromDataDir_tableOf (E2eeDevice.new (device 2) ⟨"curve"⟩) hok with ⟨s, hnode, hload⟩
  rcases (h _ _ _ none _ _ [] (keyed_tableOf hread) hload).noOverflow with ⟨tss, htss⟩
  rw [hnode, hpanic] at htss
  cases htss

theorem keepsAhead_iff_hello :
    KeepsAhead .release LoadOrder.stored none (tableOf hello) (loadedFrom hello) [true, false] := by
  have hrun : Deserialize.fromSlice (α := SignedEvent) (DeviceNode.rowOf hello).body = some hello ∧
      (withSqlite LoadOrder.stored.rows (device 2) (tableOf hello)).1 = .ok () := by
    decide +kernel
  rcases hrun with ⟨hread, hok⟩
  rcases loadFromDataDir_tableOf (E2eeDevice.new (device 2) ⟨"curve"⟩) hok with ⟨s, hnode, hload⟩
  have hts : hello.tsMs.toNat = 1 := rfl
  rw [← hnode]
  refine (keepsAhead_iff .release none (keyed_tableOf hread) hload [true, false]).2
    ⟨⟨by decide, ?_⟩, Or.inr ?_⟩
  · rintro ev ⟨hev, _⟩
    rw [(holds_tableOf hread).1 hev, hts]
    decide
  · intro ev hev
    rw [(holds_tableOf hread).1 hev, hts]
    exact Or.inl (by decide)

end Example

end Node
end Thunderducks
