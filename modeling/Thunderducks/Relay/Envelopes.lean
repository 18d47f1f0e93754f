import Mathlib.Algebra.Group.Nat.Defs
import Thunderducks.Event.Checksum
import Thunderducks.Lib.Runs
import Thunderducks.Relay.Store

/-!
# Envelopes — runs of the envelope store

The envelopes a store holds, over every run of puts, acks and fetches, and which of them a fetch
returns.  The column of timestamps is signed: a timestamp of `2 ^ 63` or more stands there as a negative
number, before all the others, so a fetch is right only as long as no such timestamp gets in its way.
-/

namespace Thunderducks
namespace Relay

open Lib Event Net

namespace EnvelopeStore

/-! ## The envelopes of a store -/

/-- The envelopes the rows of the table are read back as. -/
def envelopes (store : EnvelopeStore) : List RelayEnvelope :=
  store.table.map fun r => r.2.envelope r.1

variable {store : EnvelopeStore} {env : RelayEnvelope}

theorem mem_envelopes : env ∈ store.envelopes ↔ ∃ row,
    store.rows.lookup env.envelopeId = some row ∧ row.envelope env.envelopeId = env := by
  unfold envelopes
  constructor
  · intro h
    rcases List.mem_map.1 h with ⟨⟨id, row⟩, hmem, rfl⟩
    exact ⟨row, mem_table.1 hmem, rfl⟩
  · rintro ⟨row, hrow, henv⟩
    exact List.mem_map.2 ⟨(env.envelopeId, row), mem_table.2 hrow, henv⟩

theorem nodup_envelopes : store.envelopes.Nodup := by
  have hids : store.envelopes.map RelayEnvelope.envelopeId = store.table.map Prod.fst := by
    unfold envelopes
    rw [List.map_map]
    rfl
  refine List.Nodup.of_map RelayEnvelope.envelopeId ?_
  rw [hids]
  exact nodup_table

theorem id_mem_rows : env.envelopeId ∈ store.rows ↔
    ∃ env' ∈ store.envelopes, env'.envelopeId = env.envelopeId := by
  rw [HashMap.mem_iff_lookup]
  constructor
  · rintro ⟨row, hrow⟩
    exact ⟨row.envelope env.envelopeId, mem_envelopes.2 ⟨row, hrow, rfl⟩, rfl⟩
  · rintro ⟨env', hmem, hid⟩
    rcases mem_envelopes.1 hmem with ⟨row, hrow, _⟩
    exact ⟨row, hid ▸ hrow⟩

theorem mem_envelopes_ack {recipient : DeviceId} {ids : List Bytes32} :
    env ∈ (store.ack recipient ids).2.envelopes ↔
      env ∈ store.envelopes ∧ ¬ (env.recipientDevice = recipient ∧ env.envelopeId ∈ ids) := by
  rw [mem_envelopes, mem_envelopes]
  constructor
  · rintro ⟨row, hrow, henv⟩
    rcases lookup_ack.1 hrow with ⟨hold, hno⟩
    refine ⟨⟨row, hold, henv⟩, ?_⟩
    rintro ⟨hrec, hin⟩
    exact hno ⟨hin, by rw [← hrec, ← henv]; rfl⟩
  · rintro ⟨⟨row, hrow, henv⟩, hno⟩
    refine ⟨row, lookup_ack.2 ⟨hrow, ?_⟩, henv⟩
    rintro ⟨hin, hrec⟩
    exact hno ⟨by rw [← hrec, ← henv]; rfl, hin⟩

/-- The row a put writes. -/
def rowOf (env : RelayEnvelope) : EnvelopeRow :=
  { recipient := env.recipientDevice
    sender := env.senderDevice
    roomId := env.roomId
    ciphertext := env.ciphertext
    tsMs := env.tsMs.toInt64 }

theorem rowOf_envelope : (rowOf env).envelope env.envelopeId = env := by
  unfold rowOf EnvelopeRow.envelope
  simp only [UInt64.toInt64]

section Put

variable [Primitives]

/-- The put is let in and stores its envelope. -/
def Accepts (store : EnvelopeStore) (env : RelayEnvelope) : Prop :=
  (store.put env).1 = .ok true

instance : Decidable (store.Accepts env) :=
  inferInstanceAs (Decidable (_ = _))

/-- A put stores its envelope under a free id, or leaves the table alone. -/
theorem put_cases (store : EnvelopeStore) (env : RelayEnvelope) :
    (store.Accepts env ∧ env.envelopeId ∉ store.rows ∧
      (store.put env).2 = { store with rows := store.rows.insert env.envelopeId (rowOf env) }) ∨
    (¬ store.Accepts env ∧ (store.put env).2 = store) := by
  unfold Accepts put
  split
  next => exact Or.inr ⟨by simp, rfl⟩
  next =>
    dsimp only
    split
    next => exact Or.inr ⟨by simp, rfl⟩
    next =>
      split
      next => exact Or.inr ⟨by simp, rfl⟩
      next hfree => exact Or.inl ⟨rfl, hfree, rfl⟩

theorem mem_envelopes_put {env' : RelayEnvelope} : env' ∈ (store.put env).2.envelopes ↔
    env' ∈ store.envelopes ∨ (env' = env ∧ store.Accepts env) := by
  rcases put_cases store env with ⟨hacc, hfree, hput⟩ | ⟨hrej, hput⟩
  · rw [hput, mem_envelopes, mem_envelopes]
    simp only [HashMap.lookup_insert_eq]
    by_cases hid : env'.envelopeId = env.envelopeId
    · have hnone : store.rows.lookup env'.envelopeId = none := by
        rw [hid]
        exact AList.lookup_eq_none.2 hfree
      simp only [hid, if_true]
      constructor
      · rintro ⟨row, hrow, henv⟩
        cases hrow
        exact Or.inr ⟨henv.symm.trans rowOf_envelope, hacc⟩
      · rintro (⟨row, hrow, _⟩ | ⟨rfl, _⟩)
        · rw [hnone] at hrow
          cases hrow
        · exact ⟨rowOf env', rfl, rowOf_envelope⟩
    · have hne : env' ≠ env := fun heq => hid (congrArg RelayEnvelope.envelopeId heq)
      simp [hid, hne]
  · rw [hput]
    simp [hrej]

/-- What is put under a free id was not there under it. -/
theorem Accepts.free (h : store.Accepts env) {env' : RelayEnvelope} (hmem : env' ∈ store.envelopes) :
    env'.envelopeId ≠ env.envelopeId := by
  rcases put_cases store env with ⟨_, hfree, _⟩ | ⟨hrej, _⟩
  · intro hid
    exact hfree (id_mem_rows.2 ⟨env', hmem, hid⟩)
  · exact absurd h hrej

/-- No longer ciphertext is let in. -/
theorem Accepts.short (h : store.Accepts env) : env.ciphertext.length ≤ maxCiphertext := by
  by_contra hlong
  unfold Accepts put at h
  rw [if_pos (Nat.lt_of_not_le hlong)] at h
  cases h

end Put

/-! ## Fetches -/

/-- The timestamp stands in the signed column as a negative number. -/
def high (tsMs : UInt64) : Bool :=
  2 ^ 63 ≤ tsMs.toNat

theorem high_iff {tsMs : UInt64} : high tsMs = true ↔ 2 ^ 63 ≤ tsMs.toNat := by
  unfold high
  rw [decide_eq_true_iff]

/-- The order of the column: the high timestamps first, on each side by value. -/
theorem column_le_iff {tsMs tsMs' : UInt64} : tsMs.toInt64.toInt ≤ tsMs'.toInt64.toInt ↔
    (high tsMs = true ∧ high tsMs' = false) ∨ (high tsMs = high tsMs' ∧ tsMs ≤ tsMs') := by
  have hcond : ∀ t : UInt64, t.toInt64.toInt =
      if 2 * t.toNat < 18446744073709551616 then (t.toNat : Int)
      else (t.toNat : Int) - 18446744073709551616 :=
    fun t => BitVec.toInt_eq_toNat_cond t.toBitVec
  have hlt : tsMs.toNat < 18446744073709551616 := tsMs.toNat_lt
  have hlt' : tsMs'.toNat < 18446744073709551616 := tsMs'.toNat_lt
  have hle : tsMs ≤ tsMs' ↔ tsMs.toNat ≤ tsMs'.toNat := UInt64.le_iff_toNat_le
  rw [hcond, hcond, hle]
  unfold high
  by_cases h : 2 ^ 63 ≤ tsMs.toNat <;> by_cases h' : 2 ^ 63 ≤ tsMs'.toNat
  all_goals
    simp only [h, h', decide_true, decide_false, Bool.false_eq_true, reduceCtorEq, true_and, false_and,
      and_false, and_true, or_false, false_or, iff_true, iff_false]
    split <;> split <;> omega

/-- The number of envelopes a fetch returns at most. -/
def fetchLimit (limit : UInt32) : Nat :=
  max 1 (min limit.toNat defaultFetchLimit)

/-- The envelopes a fetch is after. -/
def Wanted (store : EnvelopeStore) (recipient : DeviceId) (sinceTs : UInt64) (env : RelayEnvelope) :
    Prop :=
  env ∈ store.envelopes ∧ env.recipientDevice = recipient ∧ sinceTs ≤ env.tsMs

/-- The order of the timestamps. -/
def earlier (env env' : RelayEnvelope) : Prop :=
  env.tsMs ≤ env'.tsMs

/-- Wanted by the fetch and on the same side of `2 ^ 63` as the timestamp it asks from. -/
def near (recipient : DeviceId) (sinceTs : UInt64) (env : RelayEnvelope) : Bool :=
  env.recipientDevice = recipient ∧ high env.tsMs = high sinceTs ∧ sinceTs ≤ env.tsMs

/-- On the other side. -/
def Across (store : EnvelopeStore) (recipient : DeviceId) (sinceTs : UInt64) (env : RelayEnvelope) :
    Prop :=
  env ∈ store.envelopes ∧ env.recipientDevice = recipient ∧ high env.tsMs ≠ high sinceTs

/-- No envelope of the recipient has its timestamp across `2 ^ 63` from the one asked from, or the fetch is
full without it. -/
def Undisturbed (store : EnvelopeStore) (recipient : DeviceId) (sinceTs : UInt64) (limit : UInt32) :
    Prop :=
  (∀ env, ¬ store.Across recipient sinceTs env) ∨
    fetchLimit limit ≤ (store.envelopes.filter (near recipient sinceTs)).length

/-- The order of the column. -/
def columnLe (env env' : RelayEnvelope) : Prop :=
  env.tsMs.toInt64.toInt ≤ env'.tsMs.toInt64.toInt

instance : DecidableRel columnLe := fun env env' =>
  inferInstanceAs (Decidable (env.tsMs.toInt64.toInt ≤ env'.tsMs.toInt64.toInt))

instance : Std.Total columnLe := ⟨fun env env' =>
  Int.le_total env.tsMs.toInt64.toInt env'.tsMs.toInt64.toInt⟩

instance : IsTrans RelayEnvelope columnLe := ⟨fun _ _ _ h h' => Int.le_trans h h'⟩

variable {recipient : DeviceId} {sinceTs : UInt64} {limit : UInt32}

/-- The query selects the envelope. -/
def picked (recipient : DeviceId) (sinceTs : UInt64) (env : RelayEnvelope) : Bool :=
  env.recipientDevice = recipient ∧ sinceTs.toInt64.toInt ≤ env.tsMs.toInt64.toInt

/-- The selected envelopes of the store. -/
def Picked (store : EnvelopeStore) (recipient : DeviceId) (sinceTs : UInt64) (env : RelayEnvelope) :
    Prop :=
  env ∈ store.envelopes ∧ picked recipient sinceTs env = true

theorem picked_iff {env : RelayEnvelope} : picked recipient sinceTs env = true ↔
    env.recipientDevice = recipient ∧ sinceTs.toInt64.toInt ≤ env.tsMs.toInt64.toInt := by
  unfold picked
  rw [decide_eq_true_iff]

/-- A fetch in terms of envelopes, the rows in the order `o`. -/
theorem fetch_eq_window (o : IterOrder (Bytes32 × EnvelopeRow)) :
    store.fetch o recipient sinceTs limit = window columnLe (fetchLimit limit)
      (((o.run store.table).map fun r => r.2.envelope r.1).filter (picked recipient sinceTs)) := by
  have hback : ∀ row : EnvelopeRow, row.tsMs.toUInt64.toInt64 = row.tsMs := fun row =>
    Int64.toInt64_toUInt64 row.tsMs
  have hsel : (picked recipient sinceTs ∘ fun r : Bytes32 × EnvelopeRow => r.2.envelope r.1) =
      selects recipient sinceTs := by
    funext r
    simp only [Function.comp_apply, picked, selects, EnvelopeRow.envelope, hback]
  rw [List.filter_map, hsel]
  refine map_window ?_
  intro r _ r' _
  simp only [tsLe, columnLe, EnvelopeRow.envelope, hback]

/-- A fetch returns the earliest envelopes by the column. -/
theorem fetch_earliest_column (o : IterOrder (Bytes32 × EnvelopeRow)) :
    Earliest columnLe (fetchLimit limit) (store.Picked recipient sinceTs)
      (store.fetch o recipient sinceTs limit) := by
  have hperm : ((o.run store.table).map fun r => r.2.envelope r.1).Perm store.envelopes :=
    (o.perm store.table).map _
  have hnd : (((o.run store.table).map fun r => r.2.envelope r.1).filter
      (picked recipient sinceTs)).Nodup :=
    (hperm.nodup_iff.2 nodup_envelopes).sublist List.filter_sublist
  rw [fetch_eq_window]
  refine (earliest_window (fetchLimit limit) hnd).congr ?_
  intro env
  rw [List.mem_filter, hperm.mem_iff]
  rfl

theorem envelopes_map_key : (store.envelopes.map fun env => (env.envelopeId, rowOf env)) =
    store.table := by
  unfold envelopes
  rw [List.map_map]
  refine List.map_id'' ?_ _
  rintro ⟨id, row⟩
  simp only [Function.comp_apply, EnvelopeRow.envelope, rowOf, Int64.toInt64_toUInt64]

/-- Every list of the earliest selected envelopes is fetched, in some order of the rows. -/
theorem exists_fetch {out : List RelayEnvelope}
    (h : Earliest columnLe (fetchLimit limit) (store.Picked recipient sinceTs) out) :
    ∃ o : IterOrder (Bytes32 × EnvelopeRow), store.fetch o recipient sinceTs limit = out := by
  have hnd : (store.envelopes.filter (picked recipient sinceTs)).Nodup :=
    nodup_envelopes.sublist List.filter_sublist
  have hpicked : ∀ env, store.Picked recipient sinceTs env ↔
      env ∈ store.envelopes.filter (picked recipient sinceTs) := fun env => List.mem_filter.symm
  rcases Earliest.exists_window hnd (h.congr hpicked) with ⟨chosen, hperm, hwin⟩
  -- the rows to be answered come first, in their order, and then the others
  let others := store.envelopes.filter fun env => !picked recipient sinceTs env
  have hall : (chosen ++ others).Perm store.envelopes :=
    (hperm.append_right others).trans (List.filter_append_perm _ _)
  have hrows : ((chosen ++ others).map fun env => (env.envelopeId, rowOf env)).Perm store.table := by
    rw [← envelopes_map_key]
    exact hall.map _
  refine ⟨IterOrder.ofPerm hrows, ?_⟩
  have hback : ((chosen ++ others).map fun env => (env.envelopeId, rowOf env)).map
      (fun r => r.2.envelope r.1) = chosen ++ others := by
    rw [List.map_map]
    exact List.map_id'' (fun _ => rowOf_envelope) _
  have hchosen : (chosen ++ others).filter (picked recipient sinceTs) = chosen := by
    have hin : chosen.filter (picked recipient sinceTs) = chosen :=
      List.filter_eq_self.2 fun env henv => (List.mem_filter.1 (hperm.mem_iff.1 henv)).2
    have hout : others.filter (picked recipient sinceTs) = [] := by
      apply List.filter_eq_nil_iff.2
      intro env henv hsel
      have hno := (List.mem_filter.1 henv).2
      rw [hsel] at hno
      cases hno
    rw [List.filter_append, hin, hout, List.append_nil]
  rw [fetch_eq_window, IterOrder.run_ofPerm, hback, hchosen, hwin]

theorem near_iff {env : RelayEnvelope} : near recipient sinceTs env = true ↔
    env.recipientDevice = recipient ∧ high env.tsMs = high sinceTs ∧ sinceTs ≤ env.tsMs := by
  unfold near
  rw [decide_eq_true_iff]

/-- On one side of `2 ^ 63` the column has the order of the timestamps. -/
theorem columnLe_iff_earlier {env env' : RelayEnvelope} (h : high env.tsMs = high env'.tsMs) :
    columnLe env env' ↔ earlier env env' := by
  have hno : ¬ (high env.tsMs = true ∧ high env'.tsMs = false) := by
    rintro ⟨ht, hf⟩
    rw [h, hf] at ht
    cases ht
  have hcol := @column_le_iff env.tsMs env'.tsMs
  constructor
  · intro hle
    exact ((hcol.1 hle).resolve_left hno).2
  · intro hle
    exact hcol.2 (Or.inr ⟨h, hle⟩)

/-- A low timestamp is at or before a high one. -/
theorem le_of_low_high {tsMs tsMs' : UInt64} (h : high tsMs = false) (h' : high tsMs' = true) :
    tsMs ≤ tsMs' := by
  have hlow : ¬ 2 ^ 63 ≤ tsMs.toNat := fun hle => by
    rw [high_iff.2 hle] at h
    cases h
  have hhigh : 2 ^ 63 ≤ tsMs'.toNat := high_iff.1 h'
  rw [UInt64.le_iff_toNat_le]
  omega

/-- Of the low timestamps a fetch returns what is stored, or it is full of envelopes that are no later. -/
theorem fetch_low (o : IterOrder (Bytes32 × EnvelopeRow)) (hstored : env ∈ store.envelopes)
    (hsince : sinceTs ≤ env.tsMs) (hlow : env.tsMs.toNat < 2 ^ 63) :
    env ∈ store.fetch o env.recipientDevice sinceTs limit ∨
      ((store.fetch o env.recipientDevice sinceTs limit).length = fetchLimit limit ∧
        ∀ item ∈ store.fetch o env.recipientDevice sinceTs limit, item.tsMs ≤ env.tsMs) := by
  have hearliest : Earliest columnLe (fetchLimit limit) (store.Picked env.recipientDevice sinceTs)
      (store.fetch o env.recipientDevice sinceTs limit) := fetch_earliest_column o
  by_cases hin : env ∈ store.fetch o env.recipientDevice sinceTs limit
  · exact Or.inl hin
  have hsinceLow : high sinceTs = false := by
    have hle := UInt64.le_iff_toNat_le.1 hsince
    rw [← Bool.not_eq_true, high_iff]
    omega
  have henvLow : high env.tsMs = false := by
    rw [← Bool.not_eq_true, high_iff]
    omega
  have hpicked : store.Picked env.recipientDevice sinceTs env :=
    ⟨hstored, picked_iff.2 ⟨rfl, column_le_iff.2 (Or.inr ⟨hsinceLow.trans henvLow.symm, hsince⟩)⟩⟩
  rcases hearliest.complete _ hpicked hin with ⟨hfull, hbefore⟩
  refine Or.inr ⟨hfull, ?_⟩
  intro item hitem
  -- what a fetch from a low timestamp returns is low
  have hitemLow : high item.tsMs = false := by
    have hcol := (picked_iff.1 (hearliest.sound item hitem).2).2
    rcases column_le_iff.1 hcol with ⟨hhigh, _⟩ | ⟨hsame, _⟩
    · rw [hsinceLow] at hhigh
      cases hhigh
    · exact hsame.symm.trans hsinceLow
  exact (columnLe_iff_earlier (hitemLow.trans henvLow.symm)).1 (hbefore item hitem)

/-- A fetch returns the earliest wanted envelopes exactly when no timestamp across `2 ^ 63` disturbs it. -/
theorem fetch_earliest_iff (o : IterOrder (Bytes32 × EnvelopeRow)) :
    Earliest earlier (fetchLimit limit) (store.Wanted recipient sinceTs)
      (store.fetch o recipient sinceTs limit) ↔ store.Undisturbed recipient sinceTs limit := by
  let pool := store.envelopes.filter (near recipient sinceTs)
  let A := fun env => env ∈ store.envelopes ∧ env.recipientDevice = recipient ∧
    high env.tsMs = high sinceTs ∧ sinceTs ≤ env.tsMs
  have hpool : ∀ env, env ∈ pool ↔ A env := by
    intro env
    rw [List.mem_filter, near_iff]
  have hnd : pool.Nodup := nodup_envelopes.sublist List.filter_sublist
  have hdisj : ∀ env, A env → ¬ store.Across recipient sinceTs env := fun env ha hb => hb.2.2 ha.2.2.1
  have hsame : ∀ env env', A env → A env' → (columnLe env env' ↔ earlier env env') :=
    fun env env' ha ha' => columnLe_iff_earlier (ha.2.2.1.trans ha'.2.2.1.symm)
  have hcolumn : Earliest columnLe (fetchLimit limit) (store.Picked recipient sinceTs)
      (store.fetch o recipient sinceTs limit) := fetch_earliest_column o
  cases hside : high sinceTs with
  | false =>
      -- the column has the timestamps across before the one asked from: the fetch leaves them out
      have hselect : ∀ env, store.Picked recipient sinceTs env ↔ A env := by
        intro env
        simp only [A, Picked, picked_iff, column_le_iff, hside, Bool.false_eq_true, false_and, false_or]
        rw [eq_comm (a := false)]
      have hwanted : ∀ env, A env ∨ store.Across recipient sinceTs env ↔
          store.Wanted recipient sinceTs env := by
        intro env
        constructor
        · rintro (⟨hmem, hrec, _, hts⟩ | ⟨hmem, hrec, hne⟩)
          · exact ⟨hmem, hrec, hts⟩
          · rw [hside] at hne
            exact ⟨hmem, hrec, le_of_low_high hside (Bool.eq_true_of_not_eq_false hne)⟩
        · rintro ⟨hmem, hrec, hts⟩
          by_cases heq : high env.tsMs = high sinceTs
          · exact Or.inl ⟨hmem, hrec, heq, hts⟩
          · exact Or.inr ⟨hmem, hrec, heq⟩
      have hcode := hcolumn.congr hselect
      constructor
      · intro hspec
        exact hcode.bound_of_both (hspec.congr fun env => (hwanted env).symm) hdisj hpool
      · intro hfew
        refine (hcode.extend (fun a b ha hb => (hsame a b ha hb).1) ?_ hnd hpool hfew).congr hwanted
        rintro a b ⟨_, _, ha, _⟩ ⟨_, _, hb⟩
        rw [hside] at ha hb
        exact le_of_low_high ha (Bool.eq_true_of_not_eq_false hb)
  | true =>
      -- the column has the timestamps across after all the others: the fetch does not leave them out
      have hselect : ∀ env, store.Picked recipient sinceTs env ↔
          A env ∨ store.Across recipient sinceTs env := by
        intro env
        cases henv : high env.tsMs <;> simp [A, Picked, picked_iff, Across, column_le_iff, hside, henv]
      have hwanted : ∀ env, A env ↔ store.Wanted recipient sinceTs env := by
        intro env
        constructor
        · rintro ⟨hmem, hrec, _, hts⟩
          exact ⟨hmem, hrec, hts⟩
        · rintro ⟨hmem, hrec, hts⟩
          refine ⟨hmem, hrec, ?_, hts⟩
          have hle : sinceTs.toNat ≤ env.tsMs.toNat := UInt64.le_iff_toNat_le.1 hts
          rw [hside]
          exact high_iff.2 (Nat.le_trans (high_iff.1 hside) hle)
      have hcode := hcolumn.congr hselect
      constructor
      · intro hspec
        exact (hspec.congr fun env => (hwanted env).symm).bound_of_both hcode hdisj hpool
      · intro hfew
        refine (hcode.restrict (fun a b ha hb => (hsame a b ha hb).1) ?_ hdisj hnd hpool hfew).congr
          hwanted
        rintro a b ⟨_, _, ha, _⟩ ⟨_, _, hb⟩ hle
        rw [hside] at ha hb
        rcases column_le_iff.1 hle with ⟨hhigh, _⟩ | ⟨heq, _⟩
        · exact hb hhigh
        · exact hb (heq.trans ha)

end EnvelopeStore

/-! ## Runs -/

/-- A call of the store. -/
inductive StoreCall
  | put (env : RelayEnvelope)
  | ack (recipient : DeviceId) (ids : List Bytes32)
  | fetch (recipient : DeviceId) (sinceTs : UInt64) (limit : UInt32)

namespace StoreCall

/-- The call acks the envelope under its own recipient. -/
def Acks (call : StoreCall) (env : RelayEnvelope) : Prop :=
  ∃ ids, call = .ack env.recipientDevice ids ∧ env.envelopeId ∈ ids

variable [Primitives]

def step (store : EnvelopeStore) : StoreCall → EnvelopeStore
  | .put env => (store.put env).2
  | .ack recipient ids => (store.ack recipient ids).2
  | .fetch _ _ _ => store

/-- The store after the calls. -/
def after (calls : List StoreCall) : EnvelopeStore :=
  Runs.run step EnvelopeStore.empty calls

/-- The envelope was put and let in, and no later call acks it. -/
def Kept (calls : List StoreCall) (env : RelayEnvelope) : Prop :=
  ∃ before later, calls = before ++ .put env :: later ∧ (after before).Accepts env ∧
    ∀ call ∈ later, ¬ call.Acks env

/-- And no envelope of its id was let in before it. -/
def FirstKept (calls : List StoreCall) (env : RelayEnvelope) : Prop :=
  ∃ before later, calls = before ++ .put env :: later ∧ (after before).Accepts env ∧
    (∀ call ∈ later, ¬ call.Acks env) ∧
    ∀ mid env' rest, before = mid ++ .put env' :: rest → (after mid).Accepts env' →
      env'.envelopeId ≠ env.envelopeId

/-- No id is stored again that an ack had removed. -/
def NoneReturns (calls : List StoreCall) : Prop :=
  ∀ before call later old env, calls = before ++ call :: later → old ∈ (after before).envelopes →
    call.Acks old → env ∈ (after calls).envelopes → env.envelopeId ≠ old.envelopeId

variable {store : EnvelopeStore} {env : RelayEnvelope} {calls : List StoreCall}

/-- What one call does to the envelopes of a store. -/
theorem mem_step {call : StoreCall} : env ∈ (step store call).envelopes ↔
    (env ∈ store.envelopes ∧ ¬ call.Acks env) ∨ (call = .put env ∧ store.Accepts env) := by
  cases call with
  | put env' =>
      have hno : ¬ (StoreCall.put env').Acks env := by
        rintro ⟨ids, h, _⟩
        cases h
      simp only [step, EnvelopeStore.mem_envelopes_put, hno, not_false_eq_true, and_true,
        StoreCall.put.injEq]
      constructor
      · rintro (h | ⟨rfl, h⟩)
        · exact Or.inl h
        · exact Or.inr ⟨rfl, h⟩
      · rintro (h | ⟨rfl, h⟩)
        · exact Or.inl h
        · exact Or.inr ⟨rfl, h⟩
  | ack recipient ids =>
      -- it removes what it names
      have hacks : (StoreCall.ack recipient ids).Acks env ↔
          env.recipientDevice = recipient ∧ env.envelopeId ∈ ids := by
        constructor
        · rintro ⟨ids', h, hin⟩
          cases h
          exact ⟨rfl, hin⟩
        · rintro ⟨rfl, hin⟩
          exact ⟨ids, rfl, hin⟩
      simp only [step, EnvelopeStore.mem_envelopes_ack, hacks, reduceCtorEq, false_and, or_false]
  | fetch recipient sinceTs limit =>
      have hno : ¬ (StoreCall.fetch recipient sinceTs limit).Acks env := by
        rintro ⟨ids, h, _⟩
        cases h
      simp only [step, hno, not_false_eq_true, and_true, reduceCtorEq, false_and, or_false]

/-- A store holds what was put, let in and not acked since. -/
theorem mem_after : env ∈ (after calls).envelopes ↔ Kept calls env := by
  have hinit : ∀ env, env ∉ EnvelopeStore.empty.envelopes := fun env h => by cases h
  have hiff := @Runs.has_run_iff _ _ step _ (fun store env => env ∈ EnvelopeStore.envelopes store)
    (fun store call env => call = .put env ∧ store.Accepts env) (fun _ call env => Acks call env)
    (fun _ _ _ => mem_step) EnvelopeStore.empty hinit calls env
  unfold Kept after
  rw [hiff]
  constructor
  · rintro ⟨before, call, later, rfl, ⟨rfl, hacc⟩, hlater⟩
    refine ⟨before, later, rfl, hacc, ?_⟩
    intro call hin
    rcases List.append_of_mem hin with ⟨mid, rest, rfl⟩
    exact hlater mid call rest rfl
  · rintro ⟨before, later, rfl, hacc, hlater⟩
    refine ⟨before, .put env, later, rfl, ⟨rfl, hacc⟩, ?_⟩
    rintro mid call rest rfl
    exact hlater call (by simp)

theorem FirstKept.kept (h : FirstKept calls env) : Kept calls env := by
  rcases h with ⟨before, later, hcalls, hacc, hlater, _⟩
  exact ⟨before, later, hcalls, hacc, hlater⟩

/-- What an ack removed was let in before what is stored under its id again. -/
theorem FirstKept.none_returns (hfirst : FirstKept calls env) {before later : List StoreCall}
    {call : StoreCall} {old : RelayEnvelope} (hcalls : calls = before ++ call :: later)
    (hold : old ∈ (after before).envelopes) (hacks : call.Acks old) :
    env.envelopeId ≠ old.envelopeId := by
  intro hid
  rcases hfirst with ⟨b, l, hsplit, hacc, hlater, hnew⟩
  rcases mem_after.1 hold with ⟨b', l', rfl, hacc', _⟩
  have heq : b ++ .put env :: l = b' ++ .put old :: (l' ++ call :: later) := by
    rw [← hsplit, hcalls]
    simp
  rcases List.append_eq_append_iff.1 heq with ⟨xs, hb', hl⟩ | ⟨xs, hb, hl⟩
  · cases xs with
    | nil =>
        -- the two puts are one
        simp only [List.nil_append, List.cons.injEq, StoreCall.put.injEq] at hl
        rcases hl with ⟨rfl, rfl⟩
        exact hlater call (by simp) hacks
    | cons x xs =>
        -- the one that was acked came later, and found the other there
        simp only [List.cons_append, List.cons.injEq] at hl
        rcases hl with ⟨rfl, rfl⟩
        have hthere : env ∈ (after b').envelopes :=
          mem_after.2 ⟨b, xs, hb', hacc, fun c hc => hlater c (by simp [hc])⟩
        exact hacc'.free hthere hid
  · cases xs with
    | nil =>
        simp only [List.nil_append, List.cons.injEq, StoreCall.put.injEq] at hl
        rcases hl with ⟨rfl, rfl⟩
        exact hlater call (by simp) hacks
    | cons x xs =>
        simp only [List.cons_append, List.cons.injEq] at hl
        rcases hl with ⟨rfl, _⟩
        exact hnew b' old xs hb hacc' hid.symm

/-- What is stored is the first of its id that was let in, if no id returns. -/
theorem NoneReturns.firstKept (h : NoneReturns calls) (hmem : env ∈ (after calls).envelopes) :
    FirstKept calls env := by
  rcases mem_after.1 hmem with ⟨before, later, rfl, hacc, hlater⟩
  refine ⟨before, later, rfl, hacc, hlater, ?_⟩
  rintro mid env' rest rfl hacc' hid
  have hin : env' ∈ (after (mid ++ [.put env'])).envelopes :=
    mem_after.2 ⟨mid, [], rfl, hacc', fun c hc => by cases hc⟩
  have hgone : env' ∉ (Runs.run step (after (mid ++ [.put env'])) rest).envelopes := by
    intro hthere
    have hsplit : mid ++ .put env' :: rest = (mid ++ [.put env']) ++ rest := by simp
    unfold after at hthere
    rw [← Runs.run_append, ← hsplit] at hthere
    exact hacc.free hthere hid
  have hkeep : ∀ (store : EnvelopeStore) (call : StoreCall) (e : RelayEnvelope),
      e ∈ store.envelopes → ¬ call.Acks e → e ∈ (step store call).envelopes :=
    fun _ _ _ he hno => mem_step.2 (Or.inl ⟨he, hno⟩)
  rcases Runs.destroyed hkeep rest hin hgone with ⟨x, call, y, rfl, hx, hacks⟩
  refine h (mid ++ .put env' :: x) call (y ++ .put env :: later) env' env (by simp) ?_ hacks hmem
    hid.symm
  have hsplit : mid ++ .put env' :: x = (mid ++ [.put env']) ++ x := by simp
  unfold after at hx ⊢
  rw [hsplit, Runs.run_append]
  exact hx

/-- What a store holds after any calls, and what it returns: the envelopes put, let in and not acked
since, which are the first of their ids exactly when no id returns; an ack leaves those of the other
recipients; and a fetch returns the earliest exactly when no timestamp across `2 ^ 63` disturbs it. -/
theorem envelopes_after (calls : List StoreCall) :
    (∀ env, env ∈ (after calls).envelopes ↔ Kept calls env) ∧
    ((∀ env, env ∈ (after calls).envelopes ↔ FirstKept calls env) ↔ NoneReturns calls) ∧
    (∀ recipient ids, ∀ env ∈ (after calls).envelopes, env.recipientDevice ≠ recipient →
      env ∈ (after (calls ++ [.ack recipient ids])).envelopes) ∧
    ∀ o recipient sinceTs limit,
      Earliest EnvelopeStore.earlier (EnvelopeStore.fetchLimit limit)
        ((after calls).Wanted recipient sinceTs)
        ((after calls).fetch o recipient sinceTs limit) ↔
      (after calls).Undisturbed recipient sinceTs limit := by
  refine ⟨fun env => mem_after, ⟨?_, ?_⟩, ?_, ?_⟩
  · intro hfirst before call later old env hcalls hold hacks hmem
    exact ((hfirst env).1 hmem).none_returns hcalls hold hacks
  · intro hnone env
    exact ⟨fun h => hnone.firstKept h, fun h => mem_after.2 h.kept⟩
  · intro recipient ids env hmem hne
    unfold after
    rw [Runs.run_append_singleton]
    refine mem_step.2 (Or.inl ⟨hmem, ?_⟩)
    rintro ⟨ids', h, _⟩
    cases h
    exact hne rfl
  · intro o recipient sinceTs limit
    exact EnvelopeStore.fetch_earliest_iff o

end StoreCall

/-! ## A timestamp in the way -/

section HighTimestamp

attribute [local instance] Checksum.primitives

/-- Device 2 puts an envelope for device 1, of its time. -/
def mailAt (tsMs : UInt64) : RelayEnvelope :=
  RelayEnvelope.new (Checksum.device 1) (Checksum.device 2) none "quack".toUTF8.toList tsMs

/-- The second envelope is of time `2 ^ 63`. -/
def mailDay : List StoreCall :=
  [.put (mailAt 1), .put (mailAt 9223372036854775808)]

/-- The second envelope is stored and never fetched. -/
theorem fetch_misses_high : mailAt 9223372036854775808 ∈ (StoreCall.after mailDay).envelopes ∧
    ¬ Earliest EnvelopeStore.earlier (EnvelopeStore.fetchLimit 64)
      ((StoreCall.after mailDay).Wanted (Checksum.device 1) 0)
      ((StoreCall.after mailDay).fetch IterOrder.stored (Checksum.device 1) 0 64) := by
  have hmem : mailAt 9223372036854775808 ∈ (StoreCall.after mailDay).envelopes := by
    decide +kernel
  have hacross : (StoreCall.after mailDay).Across (Checksum.device 1) 0
      (mailAt 9223372036854775808) := ⟨hmem, rfl, by decide⟩
  have hfew : ¬ EnvelopeStore.fetchLimit 64 ≤ ((StoreCall.after mailDay).envelopes.filter
      (EnvelopeStore.near (Checksum.device 1) 0)).length := by
    decide +kernel
  refine ⟨hmem, ?_⟩
  intro hearliest
  rcases (EnvelopeStore.fetch_earliest_iff IterOrder.stored).1 hearliest with hno | hfull
  · exact hno _ hacross
  · exact hfew hfull

end HighTimestamp

end Relay
end Thunderducks
