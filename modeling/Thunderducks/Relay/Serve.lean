import Thunderducks.Lib.JsonSize
import Thunderducks.Net.Frame
import Thunderducks.Relay.Envelopes

/-!
# Serve — the connections of the relay (`relays/td-relay/src/main.rs`)

`handle_conn` reads requests from a connection, handles each and writes the response as one frame; a
response that does not fit in a frame ends the connection.  A ciphertext travels as a JSON array of decimal
numbers, up to four bytes for each of its own, so sixty-four envelopes that the store let in need not fit.
-/

namespace Thunderducks
namespace Relay

open Lib Event Net

/-! ## The loop of a connection -/

def RelayError.toString : RelayError → String
  | .rateLimited => "rate limited"
  | .tooLarge => "envelope too large"
  | .badRequest msg => "bad request: " ++ msg

/-- The state the relay starts in. -/
def RelayState.new (now : Instant) : RelayState :=
  { store := EnvelopeStore.empty
    limiter := RateLimiter.new now defaultRate }

/-- A request, the time it is handled at and the order in which rows with equal timestamps come. -/
structure RelayCall where
  now : Instant
  order : IterOrder (Bytes32 × EnvelopeRow)
  request : RelayRequest

def respond : Except RelayError RelayResponse → RelayResponse
  | .ok response => response
  | .error .rateLimited => .err "rate limited"
  | .error e => .err e.toString

section Connection

variable [Primitives]

namespace RelayCall

/-- The response to a call. -/
def response (st : RelayState) (call : RelayCall) : RelayResponse :=
  respond (st.handle call.now call.order call.request).1

def step (st : RelayState) (call : RelayCall) : RelayState :=
  (st.handle call.now call.order call.request).2

/-- The relay after the calls of all its connections. -/
def after (start : Instant) (calls : List RelayCall) : RelayState :=
  Runs.run step (RelayState.new start) calls

end RelayCall

/-- What a connection is sent for its requests, and the state it leaves.  A response that is not written
ends the connection, the rest of its requests unread. -/
def handleConn (st : RelayState) : List RelayCall → Bytes × RelayState
  | [] => ([], st)
  | call :: calls =>
      match writeJson (call.response st) with
      | (.error _, _) => ([], call.step st)
      | (.ok _, sent) =>
          let (bytes, st) := handleConn (call.step st) calls
          (sent ++ bytes, st)

/-- The response fits in a frame, is written, and the connection goes on. -/
structure Answered (st : RelayState) (call : RelayCall) : Prop where
  fits : (toVec (call.response st)).length ≤ maxFrame.toNat
  written : (writeJson (call.response st)).1 = .ok ()
  goesOn : ∀ calls, handleConn st (call :: calls) =
    (frame (toVec (call.response st)) ++ (handleConn (call.step st) calls).1,
      (handleConn (call.step st) calls).2)

end Connection

/-! ## The length of a response -/

/-- The JSON of a byte string: its digits, its commas and its brackets. -/
def bytesLength (bs : Bytes) : Nat :=
  Json.joinedLength (bs.map fun b => (Json.digits b.toNat).length) + 2

def roomHintLength : Option RoomId → Nat
  | none => 4
  | some roomId => bytesLength roomId.bytes.toList

/-- The JSON of an envelope: its braces, commas, names and colons, and its six values. -/
def envelopeLength (env : RelayEnvelope) : Nat :=
  87 + bytesLength env.envelopeId.toList + bytesLength env.recipientDevice.bytes.toList +
    bytesLength env.senderDevice.bytes.toList + roomHintLength env.roomId +
    bytesLength env.ciphertext + (Json.digits env.tsMs.toNat).length

/-- The JSON of the response to a fetch. -/
def envelopesLength (items : List RelayEnvelope) : Nat :=
  29 + Json.joinedLength (items.map envelopeLength)

theorem length_bytes32 (b : Bytes32) : b.toJson.render.length = bytesLength b.toList :=
  Json.length_bytes b.toList

theorem length_roomHint (hint : Option RoomId) :
    (roomHintJson hint).render.length = roomHintLength hint := by
  cases hint with
  | none => rfl
  | some roomId => exact length_bytes32 roomId.bytes

theorem length_envelope (env : RelayEnvelope) :
    (Serialize.toJson env).render.length = envelopeLength env := by
  have hid : (Json.quoted "envelope_id").length = 13 := by decide
  have hrecipient : (Json.quoted "recipient_device").length = 18 := by decide
  have hsender : (Json.quoted "sender_device").length = 15 := by decide
  have hroom : (Json.quoted "room_id").length = 9 := by decide
  have hciphertext : (Json.quoted "ciphertext").length = 12 := by decide
  have hts : (Json.quoted "ts_ms").length = 7 := by decide
  have hnum : (Json.num env.tsMs.toNat).render = Json.digits env.tsMs.toNat := by
    rw [Json.render]
  have hct : (Json.bytes env.ciphertext).render.length = bytesLength env.ciphertext :=
    Json.length_bytes env.ciphertext
  simp only [Serialize.toJson, Json.length_obj, Json.joinedLength, List.map_cons, List.map_nil,
    List.sum_cons, List.sum_nil, Json.fieldLength, hid, hrecipient, hsender, hroom, hciphertext, hts,
    length_bytes32, length_roomHint, hnum, hct]
  unfold envelopeLength
  omega

theorem length_envelopes (items : List RelayEnvelope) :
    (toVec (RelayResponse.envelopes items)).length = envelopesLength items := by
  have hop : (Json.quoted "op").length = 4 := by decide
  have hitems : (Json.quoted "items").length = 7 := by decide
  have htag : (Json.str "envelopes").render.length = 11 := by decide
  have hjson : Serialize.toJson (RelayResponse.envelopes items) =
      .obj [("op", .str "envelopes"), ("items", .arr (items.map Serialize.toJson))] := rfl
  have harr : (Json.arr (items.map Serialize.toJson)).render.length =
      Json.joinedLength (items.map envelopeLength) + 2 := by
    rw [Json.length_arr, List.map_map]
    exact congrArg (fun lengths => Json.joinedLength lengths + 2)
      (List.map_congr_left fun env _ => length_envelope env)
  have hfields : Json.joinedLength [4 + 1 + 11, 7 + 1 + (Json.joinedLength (items.map envelopeLength) + 2)] =
      27 + Json.joinedLength (items.map envelopeLength) := by
    rw [Json.joinedLength_cons_cons]
    simp only [Json.joinedLength, List.map_cons, List.map_nil, List.sum_cons, List.sum_nil]
    omega
  unfold toVec
  rw [hjson, Json.length_obj, List.map_cons, List.map_cons, List.map_nil]
  simp only [Json.fieldLength, hop, hitems, htag, harr]
  rw [hfields]
  unfold envelopesLength
  omega

/-- At most four bytes of JSON for each byte of ciphertext. -/
theorem envelopeLength_le (env : RelayEnvelope) :
    envelopeLength env ≤ 4 * env.ciphertext.length + 629 := by
  have hbytes : ∀ bs : Bytes, bytesLength bs ≤ 4 * bs.length + 2 := by
    intro bs
    have hle := Json.length_bytes_le bs
    rw [Json.length_bytes] at hle
    exact hle
  have hbytes32 : ∀ b : Bytes32, bytesLength b.toList ≤ 130 := by
    intro b
    have hle := hbytes b.toList
    rw [Vector.length_toList] at hle
    exact hle
  have hhint : roomHintLength env.roomId ≤ 130 := by
    cases env.roomId with
    | none => decide
    | some roomId => exact hbytes32 roomId.bytes
  have hts : (Json.digits env.tsMs.toNat).length ≤ 20 := by
    have hlt : env.tsMs.toNat < 18446744073709551616 := env.tsMs.toNat_lt
    exact Json.length_digits_le (by omega) (by omega)
  have hid := hbytes32 env.envelopeId
  have hrecipient := hbytes32 env.recipientDevice.bytes
  have hsender := hbytes32 env.senderDevice.bytes
  have hct := hbytes env.ciphertext
  unfold envelopeLength
  omega

theorem envelopesLength_le (items : List RelayEnvelope) {bound : Nat}
    (h : ∀ env ∈ items, env.ciphertext.length ≤ bound) :
    envelopesLength items ≤ 29 + items.length * (4 * bound + 630) := by
  have hall : ∀ n ∈ items.map envelopeLength, n ≤ 4 * bound + 629 := by
    intro n hn
    rcases List.mem_map.1 hn with ⟨env, henv, rfl⟩
    have hle := envelopeLength_le env
    have := h env henv
    omega
  have hjoined : Json.joinedLength (items.map envelopeLength) ≤
      (items.map envelopeLength).length * (4 * bound + 630) := Json.joinedLength_le hall
  rw [List.length_map] at hjoined
  unfold envelopesLength
  omega

/-! ## The envelopes of a running relay -/

section Running

variable [Primitives] {st : RelayState}

/-- A call of the relay leaves the store alone or makes one call of it. -/
theorem RelayCall.step_store (st : RelayState) (call : RelayCall) : (call.step st).store = st.store ∨
    ∃ storeCall, (call.step st).store = StoreCall.step st.store storeCall := by
  rcases call with ⟨now, order, request⟩
  unfold RelayCall.step
  cases request with
  | put envelope =>
      dsimp only [RelayState.handle]
      split
      next => exact Or.inl rfl
      next =>
        split
        next heq => exact Or.inr ⟨.put envelope, (congrArg Prod.snd heq).symm⟩
        next heq => exact Or.inr ⟨.put envelope, (congrArg Prod.snd heq).symm⟩
  | fetch recipient sinceTs limit => exact Or.inl rfl
  | ack recipient ids => exact Or.inr ⟨.ack recipient ids, rfl⟩

/-- A run of the relay is a run of its store. -/
theorem RelayCall.after_store (start : Instant) (calls : List RelayCall) :
    ∃ storeCalls, (after start calls).store = StoreCall.after storeCalls := by
  refine Runs.run_invariant (J := fun st : RelayState => ∃ storeCalls,
    st.store = StoreCall.after storeCalls) ?_ calls ⟨[], rfl⟩
  rintro st call ⟨storeCalls, hst⟩
  rcases RelayCall.step_store st call with hsame | ⟨storeCall, hcall⟩
  · exact ⟨storeCalls, hsame.trans hst⟩
  · refine ⟨storeCalls ++ [storeCall], ?_⟩
    unfold StoreCall.after at hst ⊢
    rw [hcall, hst, Runs.run_append_singleton]

/-- A running relay holds no longer ciphertexts than it lets in. -/
theorem RelayCall.ciphertext_le {start : Instant} {calls : List RelayCall} {env : RelayEnvelope}
    (h : env ∈ (after start calls).store.envelopes) : env.ciphertext.length ≤ maxCiphertext := by
  rcases RelayCall.after_store start calls with ⟨storeCalls, hst⟩
  rw [hst] at h
  rcases StoreCall.mem_after.1 h with ⟨_, _, _, hacc, _⟩
  exact hacc.short

end Running

/-! ## The response to a fetch -/

theorem fetchLimit_le {limit : UInt32} : EnvelopeStore.fetchLimit limit ≤ 64 := by
  unfold EnvelopeStore.fetchLimit defaultFetchLimit
  omega

section Fetch

/-- Whichever earliest envelopes a fetch may return, they fit in a frame. -/
def EnvelopeStore.Fits (store : EnvelopeStore) (recipient : DeviceId) (sinceTs : UInt64)
    (limit : UInt32) : Prop :=
  ∀ items, Earliest EnvelopeStore.columnLe (EnvelopeStore.fetchLimit limit)
    (store.Picked recipient sinceTs) items → envelopesLength items ≤ maxFrame.toNat

/-- Sixty-four envelopes of no more than 65378 bytes of ciphertext always fit. -/
theorem EnvelopeStore.fits_of_short {store : EnvelopeStore}
    (h : ∀ env ∈ store.envelopes, env.ciphertext.length ≤ 65378) (recipient : DeviceId)
    (sinceTs : UInt64) (limit : UInt32) : store.Fits recipient sinceTs limit := by
  intro items hitems
  have hle := envelopesLength_le items fun env henv => h env (hitems.sound env henv).1
  have hcount : items.length ≤ 64 := Nat.le_trans hitems.limit fetchLimit_le
  have hframe : maxFrame.toNat = 16777216 := by decide
  omega

variable [Primitives] {st : RelayState} {recipient : DeviceId} {sinceTs : UInt64} {limit : UInt32}

/-- What is written ends no connection. -/
theorem handleConn_goesOn {call : RelayCall} (h : (writeJson (call.response st)).1 = .ok ())
    (calls : List RelayCall) : handleConn st (call :: calls) =
      (frame (toVec (call.response st)) ++ (handleConn (call.step st) calls).1,
        (handleConn (call.step st) calls).2) := by
  have hsent : writeJson (call.response st) = (.ok (), frame (toVec (call.response st))) := by
    unfold writeJson writeFrame at h ⊢
    dsimp only at h ⊢
    split
    next hlong =>
      rw [if_pos hlong] at h
      cases h
    next => rfl
  rw [handleConn, hsent]

/-- A fetch is answered exactly when what it returns fits in a frame. -/
theorem answered_iff (hshort : ∀ env ∈ st.store.envelopes, env.ciphertext.length ≤ maxCiphertext)
    (now : Instant) (o : IterOrder (Bytes32 × EnvelopeRow)) :
    Answered st ⟨now, o, .fetch recipient sinceTs limit⟩ ↔
      envelopesLength (st.store.fetch o recipient sinceTs limit) ≤ maxFrame.toNat := by
  have hearliest : Earliest EnvelopeStore.columnLe (EnvelopeStore.fetchLimit limit)
      (st.store.Picked recipient sinceTs) (st.store.fetch o recipient sinceTs limit) :=
    EnvelopeStore.fetch_earliest_column o
  have hlen : (toVec (RelayCall.response st ⟨now, o, .fetch recipient sinceTs limit⟩)).length =
      envelopesLength (st.store.fetch o recipient sinceTs limit) := length_envelopes _
  -- sixty-four of the longest envelopes stay below `2 ^ 32`: the cast to `u32` changes nothing
  have hcast : envelopesLength (st.store.fetch o recipient sinceTs limit) < 2 ^ 32 := by
    have hle := envelopesLength_le (st.store.fetch o recipient sinceTs limit) fun env henv =>
      hshort env (hearliest.sound env henv).1
    have hcount : (st.store.fetch o recipient sinceTs limit).length ≤ 64 :=
      Nat.le_trans hearliest.limit fetchLimit_le
    have hmul := Nat.mul_le_mul_right (4 * maxCiphertext + 630) hcount
    have hmax : maxCiphertext = 262144 := by decide
    rw [hmax] at hle hmul
    omega
  have hframe : maxFrame.toNat = 2 ^ 24 := by decide
  have hwrite := writeFrame_ok_iff relayErrors
    (RelayCall.response st ⟨now, o, .fetch recipient sinceTs limit⟩)
  rw [hlen, Nat.mod_eq_of_lt hcast, ← hframe] at hwrite
  constructor
  · intro h
    have hfits := h.fits
    rw [hlen] at hfits
    exact hfits
  · intro h
    have hwritten := hwrite.2 h
    exact ⟨by rw [hlen]; exact h, hwritten, handleConn_goesOn hwritten⟩

/-- In every state of a running relay, a fetch is answered, whatever the order of equal timestamps, exactly
when all the earliest envelopes it may return fit in a frame. -/
theorem fetch_answered_iff (start : Instant) (calls : List RelayCall) (recipient : DeviceId)
    (sinceTs : UInt64) (limit : UInt32) :
    (∀ now o, Answered (RelayCall.after start calls) ⟨now, o, .fetch recipient sinceTs limit⟩) ↔
      (RelayCall.after start calls).store.Fits recipient sinceTs limit := by
  have hshort : ∀ env ∈ (RelayCall.after start calls).store.envelopes,
      env.ciphertext.length ≤ maxCiphertext := fun env h => RelayCall.ciphertext_le h
  constructor
  · intro h items hitems
    rcases EnvelopeStore.exists_fetch hitems with ⟨o, rfl⟩
    exact (answered_iff hshort start o).1 (h start o)
  · intro h now o
    exact (answered_iff hshort now o).2 (h _ (EnvelopeStore.fetch_earliest_column o))

end Fetch

/-! ## Sixteen long envelopes -/

section LongMail

/-- The last 32 bytes, last first. -/
def tailHash (bs : Bytes) : Bytes32 :=
  Vector.ofFn fun i : Fin 32 => bs.reverse.getD i 0

theorem tailHash_append (bs rest : Bytes) (h : 32 ≤ rest.length) :
    tailHash (bs ++ rest) = tailHash rest := by
  unfold tailHash
  congr 1
  funext i
  have hlt : (i : Nat) < rest.reverse.length := by
    rw [List.length_reverse]
    omega
  rw [List.reverse_append, List.getD_eq_getElem?_getD, List.getD_eq_getElem?_getD,
    List.getElem?_append_left hlt]

@[reducible] def tailPrimitives : Primitives :=
  { Checksum.primitives with blake3 := tailHash }

attribute [local instance] tailPrimitives

def farmer : DeviceId := ⟨Vector.replicate 32 1⟩

def drake : DeviceId := ⟨Vector.replicate 32 2⟩

/-- The drake writes to the farmer. -/
def mail (ciphertext : Bytes) (tsMs : UInt64) : RelayEnvelope :=
  RelayEnvelope.new farmer drake none ciphertext tsMs

def postDay : Instant := Instant.secs 0

def postCall (ciphertext : Bytes) (tsMs : UInt64) : RelayCall :=
  ⟨postDay, IterOrder.stored, .put (mail ciphertext tsMs)⟩

def stamps : List UInt64 := [0, 1, 2, 3, 4, 5, 6, 7, 8, 9, 10, 11, 12, 13, 14, 15]

variable {ct : Bytes}

theorem mail_id (tsMs : UInt64) : (mail ct tsMs).envelopeId =
    tailHash (farmer.bytes.toList ++ drake.bytes.toList ++ leBytes tsMs) := by
  have hlen : 32 ≤ (farmer.bytes.toList ++ drake.bytes.toList ++ leBytes tsMs).length := by
    rw [List.length_append, List.length_append, Vector.length_toList]
    omega
  unfold mail RelayEnvelope.new
  dsimp only
  rw [List.append_assoc, List.append_assoc, ← List.append_assoc farmer.bytes.toList]
  exact tailHash_append _ _ hlen

theorem stamps_ids : (stamps.map fun tsMs => (mail ct tsMs).envelopeId).Nodup := by
  -- the low byte of the time tells them apart
  refine List.Nodup.of_map (fun id : Bytes32 => id[7]) ?_
  rw [List.map_map]
  simp only [Function.comp_def, mail_id]
  decide +kernel

/-- The relay holds the mail of these times and no other, and has counted it. -/
structure HoldsMail (ct : Bytes) (st : RelayState) (posted : List UInt64) : Prop where
  stored : ∀ env, env ∈ st.store.envelopes ↔ ∃ tsMs ∈ posted, env = mail ct tsMs
  windowStart : st.limiter.windowStart = postDay
  maxPerWindow : st.limiter.maxPerWindow = defaultRate
  counted : (st.limiter.counts.lookup drake.bytes).getD 0 = posted.length

theorem mail_accepts {store : EnvelopeStore} {tsMs : UInt64} (hct : ct.length ≤ maxCiphertext)
    (h : (mail ct tsMs).envelopeId ∉ store.rows) : store.Accepts (mail ct tsMs) := by
  have hlen : ¬ (mail ct tsMs).ciphertext.length > maxCiphertext := Nat.not_lt_of_le hct
  unfold EnvelopeStore.Accepts EnvelopeStore.put
  rw [if_neg hlen]
  dsimp only
  rw [if_neg (fun hne => hne rfl), if_neg h]

theorem holdsMail_post {st : RelayState} {posted : List UInt64} (h : HoldsMail ct st posted) {tsMs : UInt64}
    (hct : ct.length ≤ maxCiphertext)
    (hids : ((posted ++ [tsMs]).map fun t => (mail ct t).envelopeId).Nodup)
    (hfew : posted.length < defaultRate) :
    (st.handle postDay IterOrder.stored (.put (mail ct tsMs))).1 = .ok .ok ∧
      HoldsMail ct ((postCall ct tsMs).step st) (posted ++ [tsMs]) := by
  -- the store has the mail posted before and nothing else
  have hfree : (mail ct tsMs).envelopeId ∉ st.store.rows := by
    intro hin
    rcases EnvelopeStore.id_mem_rows.1 hin with ⟨env, henv, hid⟩
    rcases (h.stored env).1 henv with ⟨t, ht, rfl⟩
    rw [List.map_append, List.map_singleton, List.nodup_append] at hids
    exact hids.2.2 _ (List.mem_map.2 ⟨t, ht, rfl⟩) _ (List.mem_singleton.2 rfl) hid
  have hallow : st.limiter.allow postDay drake =
      (true, { st.limiter with counts := st.limiter.counts.insert drake.bytes (posted.length + 1) }) := by
    have hopen : ¬ Instant.since postDay st.limiter.windowStart ≥ rateWindow := by
      rw [h.windowStart]
      decide
    unfold RateLimiter.allow
    dsimp only
    rw [if_neg hopen, h.counted, h.maxPerWindow, if_neg (Nat.not_le_of_lt hfew)]
  have hacc : st.store.Accepts (mail ct tsMs) := mail_accepts hct hfree
  have hput : st.store.put (mail ct tsMs) = (.ok true, (st.store.put (mail ct tsMs)).2) :=
    Prod.ext hacc rfl
  have hhandle : st.handle postDay IterOrder.stored (.put (mail ct tsMs)) =
      (.ok .ok,
        { st with
          limiter :=
            { st.limiter with counts := st.limiter.counts.insert drake.bytes (posted.length + 1) }
          store := (st.store.put (mail ct tsMs)).2 }) := by
    have hsender : (mail ct tsMs).senderDevice = drake := rfl
    rw [RelayState.handle, hsender, hallow]
    dsimp only
    rw [hput]
  have hstep : (postCall ct tsMs).step st =
      (st.handle postDay IterOrder.stored (.put (mail ct tsMs))).2 := rfl
  refine ⟨by rw [hhandle], ?_⟩
  rw [hstep, hhandle]
  refine ⟨?_, h.windowStart, h.maxPerWindow, ?_⟩
  · intro env
    rw [EnvelopeStore.mem_envelopes_put, h.stored]
    simp only [hacc, and_true, List.mem_append, List.mem_singleton]
    constructor
    · rintro (⟨t, ht, rfl⟩ | rfl)
      · exact ⟨t, Or.inl ht, rfl⟩
      · exact ⟨tsMs, Or.inr rfl, rfl⟩
    · rintro ⟨t, ht | rfl, rfl⟩
      · exact Or.inl ⟨t, ht, rfl⟩
      · exact Or.inr rfl
  · dsimp only
    rw [HashMap.lookup_insert_eq, if_pos rfl, List.length_append]
    rfl

/-- The mail is let in, one after the other. -/
theorem holdsMail_posts (hct : ct.length ≤ maxCiphertext) (later : List UInt64) : ∀ {st : RelayState} {posted : List UInt64},
    HoldsMail ct st posted → ((posted ++ later).map fun t => (mail ct t).envelopeId).Nodup →
    (posted ++ later).length ≤ defaultRate →
    Runs.Along RelayCall.step (fun st call => (st.handle call.now call.order call.request).1 = .ok .ok) st
        (later.map (postCall ct)) ∧
      HoldsMail ct (Runs.run RelayCall.step st (later.map (postCall ct))) (posted ++ later) := by
  induction later with
  | nil =>
      intro st posted h _ _
      rw [List.append_nil]
      exact ⟨trivial, h⟩
  | cons tsMs later ih =>
      intro st posted h hids hlen
      have hsplit : posted ++ tsMs :: later = (posted ++ [tsMs]) ++ later := by simp
      rw [hsplit] at hids hlen ⊢
      have hfirst : ((posted ++ [tsMs]).map fun t => (mail ct t).envelopeId).Nodup := by
        rw [List.map_append] at hids
        exact hids.of_append_left
      have hfew : posted.length < defaultRate := by
        rw [List.length_append, List.length_append, List.length_singleton] at hlen
        omega
      rcases holdsMail_post h hct hfirst hfew with ⟨hok, hnext⟩
      rcases ih hnext hids hlen with ⟨hrest, hend⟩
      exact ⟨⟨hok, hrest⟩, hend⟩

theorem le_envelopeLength_mail (tsMs : UInt64) : bytesLength ct ≤ envelopeLength (mail ct tsMs) := by
  have hct : (mail ct tsMs).ciphertext = ct := rfl
  unfold envelopeLength
  rw [hct]
  omega

/-- Sixteen envelopes are let in within a second.  If their ciphertexts are long enough in JSON, the fetch of
their recipient ends the connection. -/
theorem mail_not_answered (hct : ct.length ≤ maxCiphertext) (hlong : 2 ^ 20 ≤ bytesLength ct) :
    Runs.Along RelayCall.step (fun st call => (st.handle call.now call.order call.request).1 = .ok .ok)
        (RelayState.new postDay) (stamps.map (postCall ct)) ∧
      ¬ Answered (RelayCall.after postDay (stamps.map (postCall ct)))
        ⟨postDay, IterOrder.stored, .fetch farmer 0 64⟩ := by
  have hempty : HoldsMail ct (RelayState.new postDay) [] := by
    refine ⟨?_, rfl, rfl, rfl⟩
    intro env
    constructor
    · intro h
      cases h
    · rintro ⟨_, h, _⟩
      cases h
  rcases holdsMail_posts hct stamps hempty stamps_ids (by decide) with ⟨hok, hheld⟩
  refine ⟨hok, ?_⟩
  intro hanswered
  have hshort : ∀ env ∈ (RelayCall.after postDay (stamps.map (postCall ct))).store.envelopes,
      env.ciphertext.length ≤ maxCiphertext := fun env h => RelayCall.ciphertext_le h
  have hfits := (answered_iff hshort postDay IterOrder.stored).1 hanswered
  have hearliest := @EnvelopeStore.fetch_earliest_column
    (RelayCall.after postDay (stamps.map (postCall ct))).store farmer 0 64 IterOrder.stored
  generalize (RelayCall.after postDay (stamps.map (postCall ct))).store.fetch IterOrder.stored farmer 0 64 =
    items at hfits hearliest
  -- a list of less than 64 has all sixteen
  have hcount : 16 ≤ items.length := by
    by_contra hlt
    have hsub : (stamps.map (mail ct)) ⊆ items := by
      intro env henv
      rcases List.mem_map.1 henv with ⟨tsMs, hts, rfl⟩
      refine hearliest.all_mem (Nat.lt_of_not_le fun h => hlt (Nat.le_trans (by decide) h)) ⟨?_, ?_⟩
      · exact (hheld.stored _).2 ⟨tsMs, hts, rfl⟩
      · -- by running over the list: an instance for `UInt64` would run over all of it
        have hcol : (stamps.all fun t => (0 : UInt64).toInt64.toInt ≤ t.toInt64.toInt) = true := by
          decide
        exact EnvelopeStore.picked_iff.2 ⟨rfl, of_decide_eq_true (List.all_eq_true.1 hcol tsMs hts)⟩
    have hnd : (stamps.map (mail ct)).Nodup := by
      refine List.Nodup.of_map RelayEnvelope.envelopeId ?_
      rw [List.map_map]
      exact stamps_ids
    have hle := (List.subperm_of_subset hnd hsub).length_le
    rw [List.length_map] at hle
    exact hlt hle
  have hall : ∀ n ∈ items.map envelopeLength, 2 ^ 20 ≤ n := by
    intro n hn
    rcases List.mem_map.1 hn with ⟨env, henv, rfl⟩
    rcases (hheld.stored env).1 (hearliest.sound env henv).1 with ⟨tsMs, _, rfl⟩
    exact Nat.le_trans hlong (le_envelopeLength_mail tsMs)
  have hjoined := Json.le_joinedLength_of_forall hall
  rw [List.length_map] at hjoined
  have hframe : maxFrame.toNat = 16777216 := by decide
  unfold envelopesLength at hfits
  omega

/-- The longest ciphertext the store lets in, every byte three digits long. -/
def longCiphertext : Bytes :=
  List.replicate maxCiphertext 255

theorem length_longCiphertext : longCiphertext.length = maxCiphertext :=
  List.length_replicate

theorem bytesLength_replicate (n : Nat) : bytesLength (List.replicate (n + 1) 255) = 4 * n + 5 := by
  have hlen := Json.length_bytes_replicate n 255
  have hdigits : (Json.digits (255 : UInt8).toNat).length = 3 := by decide
  rw [Json.length_bytes, hdigits] at hlen
  unfold bytesLength
  omega

theorem bytesLength_longCiphertext : bytesLength longCiphertext = 4 * (maxCiphertext - 1) + 5 := by
  have hpos : maxCiphertext = maxCiphertext - 1 + 1 := by decide
  unfold longCiphertext
  rw [hpos]
  exact bytesLength_replicate (maxCiphertext - 1)

/-- Sixteen of the longest envelopes, one after the other let in, and no answer to the fetch. -/
theorem fetch_not_answered :
    Runs.Along RelayCall.step (fun st call => (st.handle call.now call.order call.request).1 = .ok .ok)
        (RelayState.new postDay) (stamps.map (postCall longCiphertext)) ∧
      ¬ Answered (RelayCall.after postDay (stamps.map (postCall longCiphertext)))
        ⟨postDay, IterOrder.stored, .fetch farmer 0 64⟩ := by
  have hlen : longCiphertext.length ≤ maxCiphertext := Nat.le_of_eq length_longCiphertext
  have hlong : 2 ^ 20 ≤ bytesLength longCiphertext := by
    rw [bytesLength_longCiphertext]
    decide
  exact mail_not_answered hlen hlong

end LongMail

end Relay
end Thunderducks
