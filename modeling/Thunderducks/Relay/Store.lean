import Thunderducks.Lib.HashMap
import Thunderducks.Lib.Instant
import Thunderducks.Lib.Window
import Thunderducks.Net.RelayProto

/-!
# Store — the assist relay (`relays/td-relay/src/main.rs`)

The table of envelopes, whose timestamp column is a signed 64-bit integer, the limit on puts, and
the handler of requests.  Rows with equal timestamps come back in the order `o` lists them.
-/

namespace Thunderducks
namespace Relay

open Lib Event Net

inductive RelayError
  | rateLimited
  | tooLarge
  | badRequest (msg : String)
  deriving DecidableEq

def maxCiphertext : Nat := 256 * 1024

def defaultRate : Nat := 32

def rateWindow : Instant := Instant.secs 1

def defaultFetchLimit : Nat := 64

/-! ## Rate limit -/

structure RateLimiter where
  windowStart : Instant
  counts : HashMap Bytes32 Nat
  maxPerWindow : Nat

namespace RateLimiter

def new (now : Instant) (maxPerWindow : Nat) : RateLimiter :=
  { windowStart := now
    counts := ∅
    maxPerWindow := maxPerWindow }

def allow (limiter : RateLimiter) (now : Instant) (sender : DeviceId) : Bool × RateLimiter :=
  let limiter :=
    if Instant.since now limiter.windowStart ≥ rateWindow then
      { limiter with windowStart := now, counts := ∅ }
    else
      limiter
  let c := (limiter.counts.lookup sender.bytes).getD 0
  if c ≥ limiter.maxPerWindow then
    (false, { limiter with counts := limiter.counts.insert sender.bytes c })
  else
    (true, { limiter with counts := limiter.counts.insert sender.bytes (c + 1) })

end RateLimiter

/-! ## The table of envelopes -/

/-- A row of the table `envelopes`, without its key. -/
structure EnvelopeRow where
  recipient : DeviceId
  sender : DeviceId
  roomId : Option RoomId
  ciphertext : Bytes
  tsMs : Int64
  deriving DecidableEq

/-- The envelope a row is read back as. -/
def EnvelopeRow.envelope (id : Bytes32) (row : EnvelopeRow) : RelayEnvelope :=
  { envelopeId := id
    recipientDevice := row.recipient
    senderDevice := row.sender
    roomId := row.roomId
    ciphertext := row.ciphertext
    tsMs := row.tsMs.toUInt64 }

structure EnvelopeStore where
  rows : HashMap Bytes32 EnvelopeRow

namespace EnvelopeStore

def empty : EnvelopeStore :=
  { rows := ∅ }

/-- The rows with their keys. -/
def table (store : EnvelopeStore) : List (Bytes32 × EnvelopeRow) :=
  store.rows.entries.map fun e => (e.1, e.2)

/-- `ORDER BY ts_ms ASC` -/
def tsLe (r r' : Bytes32 × EnvelopeRow) : Prop :=
  r.2.tsMs.toInt ≤ r'.2.tsMs.toInt

instance : DecidableRel tsLe := fun r r' =>
  inferInstanceAs (Decidable (r.2.tsMs.toInt ≤ r'.2.tsMs.toInt))

instance : Std.Total tsLe := ⟨fun r r' => Int.le_total r.2.tsMs.toInt r'.2.tsMs.toInt⟩

instance : IsTrans (Bytes32 × EnvelopeRow) tsLe := ⟨fun _ _ _ h h' => Int.le_trans h h'⟩

/-- The rows a fetch selects: `WHERE recipient = ?1 AND ts_ms >= ?2`. -/
def selects (recipient : DeviceId) (sinceTs : UInt64) (r : Bytes32 × EnvelopeRow) : Bool :=
  r.2.recipient = recipient ∧ sinceTs.toInt64.toInt ≤ r.2.tsMs.toInt

def fetch (store : EnvelopeStore) (o : IterOrder (Bytes32 × EnvelopeRow)) (recipient : DeviceId)
    (sinceTs : UInt64) (limit : UInt32) : List RelayEnvelope :=
  let limit := max 1 (min limit.toNat defaultFetchLimit)
  let rows := (o.run store.table).filter (selects recipient sinceTs)
  (window tsLe limit rows).map fun r => r.2.envelope r.1

/-- `DELETE FROM envelopes WHERE envelope_id = ?1 AND recipient = ?2` -/
def delete (store : EnvelopeStore) (recipient : DeviceId) (id : Bytes32) : Nat × EnvelopeStore :=
  match store.rows.lookup id with
  | none => (0, store)
  | some row =>
      if row.recipient = recipient then
        (1, { store with rows := store.rows.erase id })
      else
        (0, store)

def ack (store : EnvelopeStore) (recipient : DeviceId) : List Bytes32 → Nat × EnvelopeStore
  | [] => (0, store)
  | id :: ids =>
      let (changed, store) := store.delete recipient id
      let (n, store) := store.ack recipient ids
      (changed + n, store)

variable [Primitives]

def put (store : EnvelopeStore) (env : RelayEnvelope) : Except RelayError Bool × EnvelopeStore :=
  if env.ciphertext.length > maxCiphertext then
    (.error .tooLarge, store)
  else
    -- Integrity: reject tampered envelope_id
    let expected := RelayEnvelope.new env.recipientDevice env.senderDevice env.roomId
      env.ciphertext env.tsMs
    if expected.envelopeId ≠ env.envelopeId then
      (.error (.badRequest "envelope_id mismatch"), store)
    else if env.envelopeId ∈ store.rows then
      -- INSERT OR IGNORE
      (.ok false, store)
    else
      let row : EnvelopeRow :=
        { recipient := env.recipientDevice
          sender := env.senderDevice
          roomId := env.roomId
          ciphertext := env.ciphertext
          tsMs := env.tsMs.toInt64 }
      (.ok true, { store with rows := store.rows.insert env.envelopeId row })

end EnvelopeStore

/-! ## The handler -/

structure RelayState where
  store : EnvelopeStore
  limiter : RateLimiter

section Handle

variable [Primitives]

def RelayState.handle (st : RelayState) (now : Instant) (o : IterOrder (Bytes32 × EnvelopeRow)) :
    RelayRequest → Except RelayError RelayResponse × RelayState
  | .put envelope =>
      match st.limiter.allow now envelope.senderDevice with
      | (false, limiter) => (.error .rateLimited, { st with limiter := limiter })
      | (true, limiter) =>
          match st.store.put envelope with
          | (.error e, store) => (.error e, { st with limiter := limiter, store := store })
          | (.ok _, store) => (.ok .ok, { st with limiter := limiter, store := store })
  | .fetch recipient sinceTs limit =>
      (.ok (.envelopes (st.store.fetch o recipient sinceTs limit)), st)
  | .ack recipient ids =>
      (.ok .ok, { st with store := (st.store.ack recipient ids).2 })

end Handle

/-! ## What a fetch reads and an ack removes -/

namespace EnvelopeStore

variable {store : EnvelopeStore} {recipient : DeviceId}

theorem mem_table {id : Bytes32} {row : EnvelopeRow} :
    (id, row) ∈ store.table ↔ store.rows.lookup id = some row := by
  have h : store.rows.lookup id = some row ↔ Sigma.mk id row ∈ store.rows.entries :=
    AList.mem_lookup_iff
  rw [h]
  unfold table
  constructor
  · intro hmem
    rcases List.mem_map.1 hmem with ⟨⟨i, r⟩, hir, heq⟩
    cases heq
    exact hir
  · intro hmem
    exact List.mem_map.2 ⟨⟨id, row⟩, hmem, rfl⟩

/-- Every fetched envelope is a row of the table. -/
theorem mem_fetch {o : IterOrder (Bytes32 × EnvelopeRow)} {sinceTs : UInt64} {limit : UInt32}
    {env : RelayEnvelope} (h : env ∈ store.fetch o recipient sinceTs limit) :
    ∃ row, store.rows.lookup env.envelopeId = some row ∧ row.envelope env.envelopeId = env ∧
      selects recipient sinceTs (env.envelopeId, row) = true := by
  rcases List.mem_map.1 h with ⟨⟨id, row⟩, hmem, rfl⟩
  have hsel := List.mem_filter.1 (mem_of_mem_window hmem)
  refine ⟨row, ?_, rfl, hsel.2⟩
  exact mem_table.1 ((o.mem_run).1 hsel.1)

theorem nodup_table : (store.table.map Prod.fst).Nodup := by
  have hkeys : store.table.map Prod.fst = store.rows.keys := by
    simp [table, AList.keys, List.keys, Function.comp_def]
  rw [hkeys]
  exact store.rows.keys_nodup

/-- No envelope is fetched twice. -/
theorem nodup_fetch (o : IterOrder (Bytes32 × EnvelopeRow)) (sinceTs : UInt64) (limit : UInt32) :
    (store.fetch o recipient sinceTs limit).Nodup := by
  refine List.Nodup.of_map RelayEnvelope.envelopeId ?_
  have hids : (store.fetch o recipient sinceTs limit).map RelayEnvelope.envelopeId =
      (window tsLe (max 1 (min limit.toNat defaultFetchLimit))
        ((o.run store.table).filter (selects recipient sinceTs))).map Prod.fst := by
    simp [fetch, EnvelopeRow.envelope, Function.comp_def]
  have hrun : ((o.run store.table).map Prod.fst).Nodup :=
    ((o.perm store.table).map _).nodup_iff.2 nodup_table
  have hsel : (((o.run store.table).filter (selects recipient sinceTs)).map Prod.fst).Nodup :=
    hrun.sublist (List.filter_sublist.map _)
  rw [hids]
  exact nodup_map_window hsel

theorem lookup_delete {id i : Bytes32} {row : EnvelopeRow} :
    (store.delete recipient id).2.rows.lookup i = some row ↔
      store.rows.lookup i = some row ∧ ¬ (i = id ∧ row.recipient = recipient) := by
  unfold delete
  cases hl : store.rows.lookup id with
  | none =>
      constructor
      · intro h
        refine ⟨h, ?_⟩
        rintro ⟨rfl, _⟩
        rw [hl] at h
        cases h
      · exact And.left
  | some row₀ =>
      dsimp only
      split
      next hrec =>
        rw [HashMap.lookup_erase_eq]
        by_cases hi : i = id
        · subst hi
          simp only [if_true, hl]
          constructor
          · intro h
            cases h
          · rintro ⟨h, hno⟩
            cases h
            exact absurd ⟨trivial, hrec⟩ hno
        · -- the other rows stay
          simp [hi]
      -- the row is of another recipient, and nothing is deleted
      next hrec =>
        constructor
        · intro h
          refine ⟨h, ?_⟩
          rintro ⟨rfl, hr⟩
          rw [hl] at h
          cases h
          exact hrec hr
        · exact And.left

/-- An ack drops the rows it names, of its recipient only. -/
theorem lookup_ack {ids : List Bytes32} {i : Bytes32} {row : EnvelopeRow} :
    (store.ack recipient ids).2.rows.lookup i = some row ↔
      store.rows.lookup i = some row ∧ ¬ (i ∈ ids ∧ row.recipient = recipient) := by
  induction ids generalizing store with
  | nil => simp [ack]
  | cons id ids ih =>
      simp only [ack]
      rw [ih, lookup_delete]
      simp only [List.mem_cons]
      tauto

end EnvelopeStore

end Relay
end Thunderducks
