import Thunderducks.Lib.Remote
import Thunderducks.Event.ContentAddress
import Thunderducks.Relay.Serve

/-!
# Calls — relay clients and the relay (`td-net/src/relay_client.rs`, `relays/td-relay/src/main.rs`)

A `RelayClient` writes a request and waits for the response, and `handle_conn` answers the requests of each
connection in its own task.  The limiter and the store have a lock each, so between the two locks of a put other
connections come in: for the store the limiter's word is a given of the call, like the order of its rows.
`calls_linearized` says that the clients see one store that does their calls one at a time, and `deposit_fetched`
what that is worth to a recipient.
-/

namespace Thunderducks
namespace Net

open Lib Event

/-! ## The client -/

/-- A call on an open connection fails. -/
inductive RelayClientError
  | proto (e : RelayProtoError)
  | remote (message : String)
  | unexpected
  deriving DecidableEq

namespace RelayClient

/-- The common end of `put`, `fetch` and `ack`: what a call makes of what `read_json` returns. -/
def reply {α : Type} (expected : RelayResponse → Option α) :
    Except RelayProtoError RelayResponse → Except RelayClientError α
  | .error e => .error (.proto e)
  | .ok resp =>
      match expected resp with
      | some a => .ok a
      | none =>
          match resp with
          | .err message => .error (.remote message)
          | _ => .error .unexpected

def expectOk : RelayResponse → Option Unit
  | .ok => some ()
  | _ => none

def expectItems : RelayResponse → Option (List RelayEnvelope)
  | .envelopes items => some items
  | _ => none

def put : Except RelayProtoError RelayResponse → Except RelayClientError Unit :=
  reply expectOk

def fetch : Except RelayProtoError RelayResponse → Except RelayClientError (List RelayEnvelope) :=
  reply expectItems

def ack : Except RelayProtoError RelayResponse → Except RelayClientError Unit :=
  reply expectOk

end RelayClient

/-! ## Frames as they arrive -/

section Codec

variable (T : Type) [Serialize T] [Deserialize T]

/-- `read_json` returns: a header is there that announces too much, or all that it announces is there. -/
def arrived (stream : Bytes) : Bool :=
  4 ≤ stream.length ∧ (maxFrame < UInt32.ofNat (Framing.beValue (stream.take 4)) ∨
    4 + (UInt32.ofNat (Framing.beValue (stream.take 4))).toNat ≤ stream.length)

/-- `write_json` and `read_json` on the two ends of a connection. -/
def jsonCodec : Remote.Codec T where
  write value :=
    match (writeJson value : Except RelayProtoError Unit × Bytes) with
    | (.ok (), sent) => some sent
    | (.error _, _) => none
  read stream :=
    if arrived stream then
      match (readJson stream : Except RelayProtoError T × Bytes) with
      | (.ok value, rest) => .got value rest
      | (.error _, _) => .bad
    else
      .more
  waits := rfl

variable {T} {value : T}

omit [Deserialize T] in
/-- What is written is one frame, and it is not too large. -/
theorem writeJson_eq {sent : Bytes} (h : writeJson value = (.ok (), sent)) :
    sent = frame (toVec value) ∧ (toVec value).length % 2 ^ 32 ≤ 2 ^ 24 := by
  have hok : (writeJson value).1 = .ok () := congrArg Prod.fst h
  refine ⟨?_, (writeFrame_ok_iff relayErrors value).1 hok⟩
  unfold writeJson writeFrame at h
  dsimp only at h
  split at h
  · cases h
  · exact (congrArg Prod.snd h).symm

/-- A short value is written. -/
theorem jsonCodec_write (hshort : (toVec value).length ≤ 2 ^ 24) :
    (jsonCodec T).write value = some (frame (toVec value)) := by
  have hok : (writeJson value).1 = .ok () := by
    refine (writeFrame_ok_iff relayErrors value).2 ?_
    rwa [Nat.mod_eq_of_lt (by omega)]
  have hsent : writeJson value = (.ok (), (writeJson value).2) := by
    rw [← hok]
  rw [(writeJson_eq hsent).1] at hsent
  dsimp only [jsonCodec]
  rw [hsent]

/-- A value whose length fits in the header is read when the last byte of its frame is there, and not before. -/
theorem jsonCodec_carries [RoundTrips T] (hlen : (toVec value).length < 2 ^ 32) : (jsonCodec T).Carries value := by
  have hsent : ∀ bs, (jsonCodec T).write value = some bs →
      bs = frame (toVec value) ∧ (toVec value).length ≤ 2 ^ 24 := by
    intro bs hwrite
    dsimp only [jsonCodec] at hwrite
    split at hwrite
    next sent hjson =>
      rcases writeJson_eq hjson with ⟨hframe, hshort⟩
      rw [Nat.mod_eq_of_lt hlen] at hshort
      exact ⟨(Option.some.inj hwrite).symm.trans hframe, hshort⟩
    · cases hwrite
  -- the header announces the body
  have hheader : (toVec value).length ≤ 2 ^ 24 → ∀ rest,
      UInt32.ofNat (Framing.beValue ((Framing.beBytes 4 (lenU32 (toVec value)).toNat ++ rest).take 4)) =
        lenU32 (toVec value) ∧ (lenU32 (toVec value)).toNat = (toVec value).length := by
    intro hshort rest
    have hvalue : (lenU32 (toVec value)).toNat = (toVec value).length := by
      rw [lenU32, UInt32.toNat_ofNat', Nat.mod_eq_of_lt hlen]
    have hmod : (toVec value).length % 256 ^ 4 = (toVec value).length := Nat.mod_eq_of_lt (by omega)
    refine ⟨?_, hvalue⟩
    rw [List.take_left' (Framing.length_beBytes 4 _), Framing.beValue_beBytes, hvalue, hmod, lenU32]
  constructor
  · intro bs hwrite
    rcases hsent bs hwrite with ⟨rfl, hshort⟩
    rcases hheader hshort (toVec value) with ⟨hbe, hvalue⟩
    have hall : arrived (frame (toVec value)) = true := by
      unfold arrived frame
      rw [decide_eq_true_iff, hbe, hvalue, List.length_append, Framing.length_beBytes]
      exact ⟨Nat.le_add_right _ _, Or.inr (Nat.le_refl _)⟩
    have hread := readFrame_frame relayErrors hshort []
    rw [List.append_nil] at hread
    dsimp only [jsonCodec]
    rw [if_pos hall, readJson, hread]
  · intro p q hwrite hq
    rcases hsent _ hwrite with ⟨hframe, hshort⟩
    have hpart : arrived p = false := by
      unfold arrived
      rw [decide_eq_false_iff_not]
      rintro ⟨hfour, hrest⟩
      -- the header has arrived whole
      have htake : p.take 4 = (frame (toVec value)).take 4 := by
        rw [← hframe, List.take_append_of_le_length hfour]
      rcases hheader hshort (toVec value) with ⟨hbe, hvalue⟩
      have hlength := congrArg List.length hframe
      have hpos : 0 < q.length := List.length_pos_iff.2 hq
      unfold frame at htake hlength
      rw [htake, hbe, hvalue, UInt32.lt_iff_toNat_lt, hvalue] at hrest
      rw [List.length_append, List.length_append, Framing.length_beBytes] at hlength
      have hmax : maxFrame.toNat = 2 ^ 24 := by decide
      omega
    dsimp only [jsonCodec]
    rw [if_neg (by rw [hpart]; exact Bool.false_ne_true)]

end Codec

/-! ## What an id stands for -/

namespace RelayEnvelope

/-- The bytes that the id of the envelope is the hash of. -/
def material (env : RelayEnvelope) : Bytes :=
  env.ciphertext ++ env.recipientDevice.bytes.toList ++ env.senderDevice.bytes.toList ++ leBytes env.tsMs

/-- Everything of an envelope but its hint is in the bytes. -/
theorem material_injective {env env' : RelayEnvelope} (h : env.material = env'.material) :
    env.ciphertext = env'.ciphertext ∧ env.recipientDevice = env'.recipientDevice ∧
      env.senderDevice = env'.senderDevice ∧ env.tsMs = env'.tsMs := by
  have htime : ∀ n : UInt64, (leBytes n).length = 8 := fun n => by simp [leBytes]
  have hid : ∀ b : Bytes32, b.toList.length = 32 := fun b => Vector.length_toList
  have hdevice : ∀ d d' : DeviceId, d.bytes.toList = d'.bytes.toList → d = d' := by
    rintro ⟨b⟩ ⟨b'⟩ hlist
    exact congrArg DeviceId.mk (Vector.toList_inj.1 hlist)
  rcases List.append_inj' h ((htime _).trans (htime _).symm) with ⟨h, hts⟩
  rcases List.append_inj' h ((hid _).trans (hid _).symm) with ⟨h, hsender⟩
  rcases List.append_inj' h ((hid _).trans (hid _).symm) with ⟨hct, hrecipient⟩
  exact ⟨hct, hdevice _ _ hrecipient, hdevice _ _ hsender, Framing.leBytes_injective hts⟩

end RelayEnvelope

end Net

namespace Relay

open Lib Event Net

/-! ## The store behind the limiter -/

/-- What a call is given: the limiter's word on it, and the order of rows with equal timestamps. -/
abbrev Given : Type :=
  Bool × IterOrder (Bytes32 × EnvelopeRow)

/-- The calls of the store that a request makes. -/
def storeCalls (allowed : Bool) : RelayRequest → List StoreCall
  | .put envelope => if allowed then [.put envelope] else []
  | .fetch recipient sinceTs limit => [.fetch recipient sinceTs limit]
  | .ack recipient ids => [.ack recipient ids]

/-- The request that makes the call. -/
def StoreCall.request : StoreCall → RelayRequest
  | .put env => .put env
  | .ack recipient ids => .ack recipient ids
  | .fetch recipient sinceTs limit => .fetch recipient sinceTs limit

theorem mem_storeCalls {allowed : Bool} {request : RelayRequest} {call : StoreCall}
    (h : call ∈ storeCalls allowed request) : request = call.request := by
  cases request with
  | put envelope =>
      dsimp only [storeCalls] at h
      split at h
      · cases List.mem_singleton.1 h
        rfl
      · cases h
  | fetch recipient sinceTs limit =>
      cases List.mem_singleton.1 h
      rfl
  | ack recipient ids =>
      cases List.mem_singleton.1 h
      rfl

section Handler

variable [Primitives]

/-- What the limiter says to a request, and what becomes of it. -/
def RelayState.allows (st : RelayState) (now : Instant) : RelayRequest → Bool × RateLimiter
  | .put envelope => st.limiter.allow now envelope.senderDevice
  | _ => (true, st.limiter)

namespace EnvelopeStore

def deposit (store : EnvelopeStore) (allowed : Bool) (env : RelayEnvelope) :
    Except RelayError Bool × EnvelopeStore :=
  if allowed then store.put env else (.error .rateLimited, store)

/-- What `RelayState.handle` does with the store, once the limiter has spoken. -/
def handle (store : EnvelopeStore) (given : Given) : RelayRequest → Except RelayError RelayResponse × EnvelopeStore
  | .put envelope =>
      match store.deposit given.1 envelope with
      | (.error e, store) => (.error e, store)
      | (.ok _, store) => (.ok .ok, store)
  | .fetch recipient sinceTs limit => (.ok (.envelopes (store.fetch given.2 recipient sinceTs limit)), store)
  | .ack recipient ids => (.ok .ok, (store.ack recipient ids).2)

/-- A round of `handle_conn`. -/
def serve (given : Given) (store : EnvelopeStore) (request : RelayRequest) : RelayResponse × EnvelopeStore :=
  let (res, store) := store.handle given request
  (respond res, store)

end EnvelopeStore

/-- The relay handles a request as its store does, after the limiter. -/
theorem RelayState.handle_eq (st : RelayState) (now : Instant) (o : IterOrder (Bytes32 × EnvelopeRow))
    (request : RelayRequest) : st.handle now o request =
      ((st.store.handle ((st.allows now request).1, o) request).1,
        { store := (st.store.handle ((st.allows now request).1, o) request).2
          limiter := (st.allows now request).2 }) := by
  cases request with
  | put envelope =>
      dsimp only [RelayState.handle, RelayState.allows, EnvelopeStore.handle, EnvelopeStore.deposit]
      split
      next limiter hno =>
        rw [hno]
        rfl
      next limiter hyes =>
        rw [hyes]
        dsimp only
        rw [if_pos rfl]
        rcases st.store.put envelope with ⟨res, store⟩
        cases res with
        | error e => rfl
        | ok fresh => rfl
  | fetch recipient sinceTs limit => rfl
  | ack recipient ids => rfl

namespace EnvelopeStore

variable {store : EnvelopeStore} {given : Given} {request : RelayRequest}

/-- A request makes its calls of the store. -/
theorem serve_run : (serve given store request).2 = Runs.run StoreCall.step store (storeCalls given.1 request) := by
  cases request with
  | put envelope =>
      have hstore : (serve given store (.put envelope)).2 = (store.deposit given.1 envelope).2 := by
        dsimp only [serve, handle]
        split <;> simp_all
      rw [hstore]
      unfold deposit storeCalls
      cases given.1 with
      | true => rfl
      | false => rfl
  | fetch recipient sinceTs limit => rfl
  | ack recipient ids => rfl

/-- The only refusals of a put. -/
theorem put_error {env : RelayEnvelope} {e : RelayError} (h : (store.put env).1 = .error e) :
    e = .tooLarge ∨ e = .badRequest "envelope_id mismatch" := by
  unfold put at h
  split at h
  · exact Or.inl (Except.error.inj h).symm
  · dsimp only at h
    split at h
    · exact Or.inr (Except.error.inj h).symm
    · split at h
      · cases h
      · cases h

/-- A put that is not refused has the id of its contents, and something is stored under it then. -/
theorem put_ok {env : RelayEnvelope} {fresh : Bool} (h : (store.put env).1 = .ok fresh) :
    (RelayEnvelope.new env.recipientDevice env.senderDevice env.roomId env.ciphertext env.tsMs).envelopeId =
      env.envelopeId ∧ ∃ env' ∈ (store.put env).2.envelopes, env'.envelopeId = env.envelopeId := by
  have hcopy := h
  unfold put at hcopy
  split at hcopy
  · cases hcopy
  · dsimp only at hcopy
    split at hcopy
    · cases hcopy
    next hid =>
    refine ⟨not_not.1 hid, ?_⟩
    rcases put_cases store env with ⟨hacc, _, _⟩ | ⟨hrej, hsame⟩
    · exact ⟨env, mem_envelopes_put.2 (Or.inr ⟨rfl, hacc⟩), rfl⟩
    · -- the id was there before
      rw [hsame]
      split at hcopy
      next hin => exact id_mem_rows.1 hin
      · exact absurd (h.trans hcopy.symm) hrej

/-- No ciphertext is longer than the store lets in. -/
def Short (store : EnvelopeStore) : Prop :=
  ∀ env ∈ store.envelopes, env.ciphertext.length ≤ maxCiphertext

theorem Short.serve (h : store.Short) : (EnvelopeStore.serve given store request).2.Short := by
  rw [serve_run]
  refine Runs.run_invariant (J := Short) ?_ _ h
  intro store call hshort env hmem
  rcases StoreCall.mem_step.1 hmem with ⟨hold, _⟩ | ⟨_, hacc⟩
  · exact hshort env hold
  · exact hacc.short

theorem Short.after (calls : List StoreCall) : (StoreCall.after calls).Short := by
  intro env hmem
  rcases StoreCall.mem_after.1 hmem with ⟨_, _, _, hacc, _⟩
  exact hacc.short

/-- The length of a response fits in the header of a frame. -/
theorem length_response (h : store.Short) : (toVec (EnvelopeStore.serve given store request).1).length < 2 ^ 32 := by
  have hok : (toVec RelayResponse.ok).length < 2 ^ 32 := by decide +kernel
  have herr : ∀ e, e = RelayError.rateLimited ∨ e = .tooLarge ∨ e = .badRequest "envelope_id mismatch" →
      (toVec (respond (.error e))).length < 2 ^ 32 := by
    rintro e (rfl | rfl | rfl)
    · decide +kernel
    · decide +kernel
    · decide +kernel
  cases request with
  | put envelope =>
      dsimp only [EnvelopeStore.serve, handle]
      split
      next e store' hput =>
        refine herr e ?_
        unfold deposit at hput
        split at hput
        · exact Or.inr (put_error (congrArg Prod.fst hput))
        · exact Or.inl (Except.error.inj (congrArg Prod.fst hput)).symm
      next => exact hok
  | ack recipient ids => exact hok
  | fetch recipient sinceTs limit =>
      have hearliest : Earliest columnLe (fetchLimit limit) (store.Picked recipient sinceTs)
          (store.fetch given.2 recipient sinceTs limit) := fetch_earliest_column given.2
      have hle := envelopesLength_le (store.fetch given.2 recipient sinceTs limit) fun env henv =>
        h env (hearliest.sound env henv).1
      have hcount : (store.fetch given.2 recipient sinceTs limit).length ≤ 64 :=
        Nat.le_trans hearliest.limit fetchLimit_le
      have hmul := Nat.mul_le_mul_right (4 * maxCiphertext + 630) hcount
      have hmax : maxCiphertext = 262144 := by decide
      have hlen : (toVec (EnvelopeStore.serve given store (.fetch recipient sinceTs limit)).1).length =
          envelopesLength (store.fetch given.2 recipient sinceTs limit) := length_envelopes _
      rw [hmax] at hle hmul
      omega

end EnvelopeStore

/-! ## What a put leaves -/

/-- What is stored stays until a call acks it. -/
theorem StoreCall.mem_later {calls later : List StoreCall} {env : RelayEnvelope}
    (h : env ∈ (StoreCall.after calls).envelopes) (hacks : ∀ call ∈ later, ¬ call.Acks env) :
    env ∈ (StoreCall.after (calls ++ later)).envelopes := by
  rcases StoreCall.mem_after.1 h with ⟨before, rest, rfl, hacc, hrest⟩
  refine StoreCall.mem_after.2 ⟨before, rest ++ later, by simp, hacc, ?_⟩
  intro call hcall
  rcases List.mem_append.1 hcall with hold | hnew
  · exact hrest call hold
  · exact hacks call hnew

/-- A put that returns leaves an envelope of its id, and it is the same but for the hint if no other has its hash. -/
theorem StoreCall.stored_of_put {calls : List StoreCall} {allowed : Bool} {env : RelayEnvelope} {fresh : Bool}
    (hput : ((StoreCall.after calls).deposit allowed env).1 = .ok fresh)
    (hhash : ∀ env', StoreCall.put env' ∈ calls ++ [.put env] →
      Primitives.blake3 env'.material = Primitives.blake3 env.material → env'.material = env.material) :
    ∃ roomId, { env with roomId := roomId } ∈
      (StoreCall.after (calls ++ storeCalls allowed (.put env))).envelopes := by
  unfold EnvelopeStore.deposit at hput
  split at hput
  next hallowed =>
    subst hallowed
    rcases EnvelopeStore.put_ok hput with ⟨hid, env', hmem, hsame⟩
    have hafter : ((StoreCall.after calls).put env).2 = StoreCall.after (calls ++ [.put env]) := by
      unfold StoreCall.after
      rw [Runs.run_append_singleton]
      rfl
    have hmem' : env' ∈ (StoreCall.after (calls ++ [.put env])).envelopes := hafter ▸ hmem
    refine ⟨env'.roomId, ?_⟩
    rcases StoreCall.mem_after.1 hmem' with ⟨pre, post, hsplit, hacc, _⟩
    have hin : StoreCall.put env' ∈ calls ++ [.put env] := by
      rw [hsplit]
      simp
    have hid' : Primitives.blake3 env'.material = env'.envelopeId := (EnvelopeStore.put_ok hacc).1
    rcases RelayEnvelope.material_injective (hhash env' hin (hid'.trans (hsame.trans hid.symm))) with
      ⟨hct, hrecipient, hsender, hts⟩
    have heq : { env with roomId := env'.roomId } = env' := by
      cases env'
      cases env
      simp_all
    rw [heq]
    exact hmem'
  next => cases hput

end Handler

/-! ## Clients and relay -/

/-- Clients on connections of their own, and the store. -/
abbrev Connections (ι : Type) : Type :=
  Remote.System ι EnvelopeStore RelayRequest RelayResponse Given

abbrev ClientTurn (ι : Type) : Type :=
  Remote.Turn ι RelayRequest Given

namespace Connections

variable {ι : Type} [DecidableEq ι] [Primitives] [Deserialize RelayRequest] [Deserialize RelayResponse]

def step (st : Connections ι) (turn : ClientTurn ι) : Connections ι :=
  Remote.System.step (jsonCodec RelayRequest) (jsonCodec RelayResponse) EnvelopeStore.serve st turn

/-- After the turns, by a relay that opens what earlier calls have left in its store. -/
def after (earlier : List StoreCall) (turns : List (ClientTurn ι)) : Connections ι :=
  Runs.run step (Remote.System.start (StoreCall.after earlier)) turns

/-- The calls of the store that the handled requests make. -/
def calls (handled : List (Remote.Handled ι RelayRequest RelayResponse Given)) : List StoreCall :=
  handled.flatMap fun x => storeCalls x.given.1 x.request

/-- What a call returns to its client when the store does it. -/
def Returns (store : EnvelopeStore) (given : Given) : RelayRequest → RelayResponse → Prop
  | .put env, resp =>
      RelayClient.put (.ok resp) =
        match (store.deposit given.1 env).1 with
        | .ok _ => .ok ()
        | .error e => .error (.remote e.toString)
  | .fetch recipient sinceTs limit, resp =>
      RelayClient.fetch (.ok resp) = .ok (store.fetch given.2 recipient sinceTs limit)
  | .ack _ _, resp => RelayClient.ack (.ok resp) = .ok ()

omit [Deserialize RelayRequest] [Deserialize RelayResponse] in
theorem returns_serve (store : EnvelopeStore) (given : Given) (request : RelayRequest) :
    Returns store given request (store.serve given request).1 := by
  cases request with
  | put envelope =>
      dsimp only [Returns, EnvelopeStore.serve, EnvelopeStore.handle]
      split
      next e _ hput =>
        rw [hput]
        cases e <;> rfl
      next hput =>
        rw [hput]
        rfl
  | fetch recipient sinceTs limit => rfl
  | ack recipient ids => rfl

variable [RoundTrips RelayRequest] [RoundTrips RelayResponse] {earlier : List StoreCall}
  {turns : List (ClientTurn ι)}

omit [DecidableEq ι] [Deserialize RelayRequest] [Deserialize RelayResponse] [RoundTrips RelayRequest]
  [RoundTrips RelayResponse] in
/-- Handled requests do to the store what their calls of it do. -/
theorem run_calls (handled : List (Remote.Handled ι RelayRequest RelayResponse Given)) :
    Runs.run (fun store c => (EnvelopeStore.serve c.1 store c.2).2) (StoreCall.after earlier)
      (handled.map Remote.Handled.call) = StoreCall.after (earlier ++ calls handled) := by
  have hall : ∀ store, Runs.run (fun store c => (EnvelopeStore.serve c.1 store c.2).2) store
      (handled.map Remote.Handled.call) = Runs.run StoreCall.step store (calls handled) := by
    induction handled with
    | nil =>
        intro store
        rfl
    | cons x handled ih =>
        intro store
        have hcalls : calls (x :: handled) = storeCalls x.given.1 x.request ++ calls handled := rfl
        rw [hcalls, Runs.run_append, ← EnvelopeStore.serve_run]
        exact ih _
  rw [hall, StoreCall.after, StoreCall.after, Runs.run_append]

/-- The connections do what the store does, call by call. -/
theorem linearized (earlier : List StoreCall)
    (hlen : ∀ i request, Remote.Turn.ask i request ∈ turns → (toVec request).length < 2 ^ 32) :
    (after earlier turns).Linearized EnvelopeStore.serve (StoreCall.after earlier) ∧
      (∀ before rest, turns = before ++ rest → (after earlier before).handled <+: (after earlier turns).handled) ∧
      ∀ i, ((after earlier turns).lines i).up = [] → ((after earlier turns).lines i).down = [] →
        ((after earlier turns).lines i).serving = true →
        ∀ n request, ((i, n), request) ∈ (after earlier turns).asked →
          ∃ resp, ((i, n), resp) ∈ (after earlier turns).answered := by
  have hserve : ∀ (given : Given) store request, EnvelopeStore.Short store →
      EnvelopeStore.Short (EnvelopeStore.serve given store request).2 ∧
        (jsonCodec RelayResponse).Carries (EnvelopeStore.serve given store request).1 :=
    fun _ _ _ hshort => ⟨hshort.serve, jsonCodec_carries (EnvelopeStore.length_response hshort)⟩
  refine Remote.System.linearized_run hserve (EnvelopeStore.Short.after earlier) turns ?_
  intro turn hturn
  cases turn with
  | ask i request => exact jsonCodec_carries (hlen i request hturn)
  | _ => trivial

/-- For any number of clients, whatever the order in which bytes arrive and ends close and whatever the limiter says:
the requests are handled at most once each, in one order; the store holds what its own calls in that order leave; a
client gets what the store says there, and never an unexpected response; what was handled by some time stays before
what is handled later; and when nothing is on the way on an open connection, all its calls have been answered. -/
theorem calls_linearized (earlier : List StoreCall) (turns : List (ClientTurn ι))
    (hlen : ∀ i request, Remote.Turn.ask i request ∈ turns → (toVec request).length < 2 ^ 32) :
    let st := after earlier turns
    (st.handled.map Remote.Handled.key).Nodup ∧
      st.server = StoreCall.after (earlier ++ calls st.handled) ∧
      (∀ key request resp, (key, request) ∈ st.asked → (key, resp) ∈ st.answered →
        ∃ before x later, st.handled = before ++ x :: later ∧ x.key = key ∧ x.request = request ∧
          Returns (StoreCall.after (earlier ++ calls before)) x.given request resp) ∧
      (∀ before rest, turns = before ++ rest → (after earlier before).handled <+: st.handled) ∧
      ∀ i, (st.lines i).up = [] → (st.lines i).down = [] → (st.lines i).serving = true →
        ∀ n request, ((i, n), request) ∈ st.asked → ∃ resp, ((i, n), resp) ∈ st.answered := by
  intro st
  rcases linearized earlier hlen with ⟨hlin, hmore, hanswered⟩
  refine ⟨hlin.handledOnce, hlin.server.trans (run_calls st.handled), ?_, hmore, hanswered⟩
  intro key request resp hasked hresp
  rcases hlin.handling hasked hresp with ⟨x, hx, hkey, hrequest, hresponse⟩
  rcases List.append_of_mem hx with ⟨before, later, hsplit⟩
  refine ⟨before, x, later, hsplit, hkey, hrequest, ?_⟩
  have hsaid := hlin.response hsplit
  rw [run_calls, hrequest, hresponse] at hsaid
  rw [hsaid]
  exact returns_serve _ _ _

/-! ## Mail that arrives -/

/-- The relay may have been given the envelope: in an earlier life, or by one of the calls. -/
def Deposited (earlier : List StoreCall) (st : Connections ι) (env : RelayEnvelope) : Prop :=
  StoreCall.put env ∈ earlier ∨ ∃ key, (key, RelayRequest.put env) ∈ st.asked

/-- A put that returned before a fetch of its recipient was asked: the fetch returns the envelope or is full of
envelopes that are no later, as long as the recipient acks none of its id and no other envelope has its hash. -/
theorem deposit_fetched (earlier : List StoreCall) (before rest : List (ClientTurn ι))
    (hlen : ∀ i request, Remote.Turn.ask i request ∈ before ++ rest → (toVec request).length < 2 ^ 32)
    {put fetch : ι × Nat} {env : RelayEnvelope} {sinceTs : UInt64} {limit : UInt32} {resp : RelayResponse}
    (hput : (put, RelayRequest.put env) ∈ (after earlier before).asked)
    (hok : (put, RelayResponse.ok) ∈ (after earlier before).answered)
    (hnew : ∀ request, (fetch, request) ∉ (after earlier before).asked)
    (hfetch : (fetch, RelayRequest.fetch env.recipientDevice sinceTs limit) ∈
      (after earlier (before ++ rest)).asked)
    (hresp : (fetch, resp) ∈ (after earlier (before ++ rest)).answered)
    (hsince : sinceTs ≤ env.tsMs) (hlow : env.tsMs.toNat < 2 ^ 63)
    (hack : ∀ key ids, (key, RelayRequest.ack env.recipientDevice ids) ∈ (after earlier (before ++ rest)).asked →
      env.envelopeId ∉ ids)
    (hhash : ∀ env', Deposited earlier (after earlier (before ++ rest)) env' →
      Primitives.blake3 env'.material = Primitives.blake3 env.material → env'.material = env.material) :
    ∃ items, RelayClient.fetch (.ok resp) = .ok items ∧
      ((∃ roomId, { env with roomId := roomId } ∈ items) ∨
        (items.length = EnvelopeStore.fetchLimit limit ∧ ∀ item ∈ items, item.tsMs ≤ env.tsMs)) := by
  have hlen' : ∀ i request, Remote.Turn.ask i request ∈ before → (toVec request).length < 2 ^ 32 :=
    fun i request h => hlen i request (List.mem_append_left rest h)
  have hfirst := (linearized earlier hlen').1
  rcases linearized earlier hlen with ⟨hlin, hmore, _⟩
  rcases hfirst.handling hput hok with ⟨x, hx, rfl, hxput, hxok⟩
  rcases hlin.handling hfetch hresp with ⟨y, hy, rfl, hyfetch, hyresp⟩
  -- the put was handled before the fetch
  have hlate : y ∉ (after earlier before).handled := fun h => hnew _ (hfirst.handledAsked y h)
  rcases Remote.System.split_later (hmore before rest rfl) hx hy hlate with ⟨pre, mid, post, hsplit⟩
  have hasked : ∀ z ∈ pre ++ x :: (mid ++ y :: post), ∀ request, z.request = request →
      (z.key, request) ∈ (after earlier (before ++ rest)).asked := by
    rintro z hz _ rfl
    exact hlin.handledAsked z (hsplit ▸ hz)
  -- the put leaves the envelope
  have hsaid := hlin.response hsplit
  rw [run_calls, hxput, hxok] at hsaid
  have hreturns := returns_serve (StoreCall.after (earlier ++ calls pre)) x.given (.put env)
  rw [← hsaid] at hreturns
  have hdeposit : ∃ fresh, ((StoreCall.after (earlier ++ calls pre)).deposit x.given.1 env).1 = .ok fresh := by
    dsimp only [Returns] at hreturns
    split at hreturns
    next fresh hput => exact ⟨fresh, hput⟩
    · cases hreturns
  rcases hdeposit with ⟨fresh, hdeposit⟩
  have hdeposited : ∀ env', StoreCall.put env' ∈ (earlier ++ calls pre) ++ [.put env] →
      Deposited earlier (after earlier (before ++ rest)) env' := by
    intro env' hin
    rcases List.mem_append.1 hin with hold | hnow
    · rcases List.mem_append.1 hold with hearlier | hcall
      · exact Or.inl hearlier
      · rcases List.mem_flatMap.1 hcall with ⟨z, hz, hzput⟩
        exact Or.inr ⟨z.key, hasked z (by simp [hz]) _ (mem_storeCalls hzput)⟩
    · cases List.mem_singleton.1 hnow
      exact Or.inr ⟨x.key, hasked x (by simp) _ hxput⟩
  rcases StoreCall.stored_of_put hdeposit fun env' hin => hhash env' (hdeposited env' hin) with ⟨roomId, hstored⟩
  -- and no ack takes it away before the fetch
  have hkept : { env with roomId := roomId } ∈
      (StoreCall.after (earlier ++ calls (pre ++ x :: mid))).envelopes := by
    have hcalls : earlier ++ calls (pre ++ x :: mid) =
        (earlier ++ calls pre ++ storeCalls x.given.1 (.put env)) ++ calls mid := by
      simp [calls, hxput]
    rw [hcalls]
    refine StoreCall.mem_later hstored ?_
    rintro call hcall ⟨ids, rfl, hin⟩
    rcases List.mem_flatMap.1 hcall with ⟨z, hz, hzack⟩
    exact hack z.key ids (hasked z (by simp [hz]) _ (mem_storeCalls hzack)) hin
  have hlast : (after earlier (before ++ rest)).handled = (pre ++ x :: mid) ++ y :: post := by
    rw [hsplit]
    simp
  have hfetched := hlin.response hlast
  rw [run_calls, hyfetch, hyresp] at hfetched
  refine ⟨_, by rw [hfetched]; rfl, ?_⟩
  exact (EnvelopeStore.fetch_low y.given.2 hkept hsince hlow).imp (fun hin => ⟨roomId, hin⟩) id

end Connections

/-! ## A letter from one client to another -/

section Letter

theorem relayEnvelope_toJson_injective {a b : RelayEnvelope} (h : Serialize.toJson a = Serialize.toJson b) :
    a = b := by
  have hfields := Json.obj.inj h
  simp only [List.cons.injEq, Prod.mk.injEq, true_and, and_true] at hfields
  rcases hfields with ⟨hid, hrecipient, hsender, hroom, hct, hts⟩
  have hhint : a.roomId = b.roomId := by
    cases ha : a.roomId with
    | none =>
        cases hb : b.roomId with
        | none => rfl
        | some room => simp [ha, hb, roomHintJson, Bytes32.toJson, Json.bytes] at hroom
    | some room =>
        cases hb : b.roomId with
        | none => simp [ha, hb, roomHintJson, Bytes32.toJson, Json.bytes] at hroom
        | some room' =>
            rw [ha, hb] at hroom
            exact congrArg (fun b => some (RoomId.mk b)) (Bytes32.toJson_injective hroom)
  rcases a with ⟨_, ⟨_⟩, ⟨_⟩, _, _, _⟩
  rcases b with ⟨_, ⟨_⟩, ⟨_⟩, _, _, _⟩
  simp only [RelayEnvelope.mk.injEq, DeviceId.mk.injEq]
  exact ⟨Bytes32.toJson_injective hid, Bytes32.toJson_injective hrecipient, Bytes32.toJson_injective hsender, hhint,
    Json.bytes_injective hct, UInt64.toNat_inj.1 (Json.num.inj hts)⟩

/-- Tagged objects that are the same have one tag. -/
theorem tagged_inj {tag tag' : String} {fields fields' : List (String × Json)}
    (h : Json.obj (("op", .str tag) :: fields) = Json.obj (("op", .str tag') :: fields')) :
    tag = tag' ∧ fields = fields' := by
  rcases List.cons.inj (Json.obj.inj h) with ⟨hop, hfields⟩
  exact ⟨Json.str.inj (Prod.mk.inj hop).2, hfields⟩

theorem relayRequest_toJson_injective (a b : RelayRequest) (h : Serialize.toJson a = Serialize.toJson b) : a = b := by
  have hids : ∀ {ids ids' : List Bytes32}, ids.map Bytes32.toJson = ids'.map Bytes32.toJson → ids = ids' :=
    fun heq => List.map_injective_iff.2 (fun _ _ => Bytes32.toJson_injective) heq
  cases a <;> cases b <;> first | exact absurd (tagged_inj h).1 (by decide) | have hfields := (tagged_inj h).2
  case put.put env env' =>
      simp only [List.cons.injEq, Prod.mk.injEq, true_and, and_true] at hfields
      exact congrArg RelayRequest.put (relayEnvelope_toJson_injective hfields)
  case fetch.fetch recipient sinceTs limit recipient' sinceTs' limit' =>
      simp only [List.cons.injEq, Prod.mk.injEq, true_and, and_true] at hfields
      rcases hfields with ⟨hrecipient, hsince, hlimit⟩
      cases recipient
      cases recipient'
      cases Bytes32.toJson_injective hrecipient
      cases UInt64.toNat_inj.1 (Json.num.inj hsince)
      cases UInt32.toNat_inj.1 (Json.num.inj hlimit)
      rfl
  case ack.ack recipient ids recipient' ids' =>
      simp only [List.cons.injEq, Prod.mk.injEq, true_and, and_true] at hfields
      rcases hfields with ⟨hrecipient, hlist⟩
      cases recipient
      cases recipient'
      cases Bytes32.toJson_injective hrecipient
      cases hids (Json.arr.inj hlist)
      rfl

theorem relayResponse_toJson_injective (a b : RelayResponse) (h : Serialize.toJson a = Serialize.toJson b) :
    a = b := by
  cases a <;> cases b <;> first | rfl | exact absurd (tagged_inj h).1 (by decide) | have hfields := (tagged_inj h).2
  case envelopes.envelopes items items' =>
      simp only [List.cons.injEq, Prod.mk.injEq, true_and, and_true] at hfields
      have hitems : items = items' :=
        List.map_injective_iff.2 (fun _ _ => relayEnvelope_toJson_injective) (Json.arr.inj hfields)
      rw [hitems]
  case err.err message message' =>
      simp only [List.cons.injEq, Prod.mk.injEq, true_and, and_true] at hfields
      rw [Json.str.inj hfields]

attribute [local instance] Checksum.primitives

@[reducible] noncomputable def writtenRequests : Deserialize RelayRequest :=
  Deserialize.ofWritten RelayRequest

@[reducible] noncomputable def writtenResponses : Deserialize RelayResponse :=
  Deserialize.ofWritten RelayResponse

attribute [local instance] writtenRequests writtenResponses

theorem roundTrips_requests : RoundTrips RelayRequest :=
  roundTrips_ofWritten relayRequest_toJson_injective

theorem roundTrips_responses : RoundTrips RelayResponse :=
  roundTrips_ofWritten relayResponse_toJson_injective

attribute [local instance] roundTrips_requests roundTrips_responses

/-- Device 2 writes to device 1. -/
def letter : RelayEnvelope :=
  mailAt 1

def fetching : RelayRequest :=
  .fetch (Checksum.device 1) 0 64

def given : Given :=
  (true, IterOrder.stored)

/-- The sender's connection is 0 and the recipient's 1. -/
def posting : List (ClientTurn Nat) :=
  Remote.System.exchange 0 (.put letter) given 1000 1000

def collecting : List (ClientTurn Nat) :=
  Remote.System.exchange 1 fetching given 1000 1000

theorem asks_short (i : Nat) (request : RelayRequest)
    (h : Remote.Turn.ask i request ∈ posting ++ collecting) : (toVec request).length < 2 ^ 32 := by
  have hput : (toVec (RelayRequest.put letter)).length < 2 ^ 32 := by decide +kernel
  have hfetch : (toVec fetching).length < 2 ^ 32 := by decide +kernel
  simp only [posting, collecting, Remote.System.exchange, List.cons_append, List.nil_append, List.mem_cons,
    Remote.Turn.ask.injEq, reduceCtorEq, false_or, List.not_mem_nil, or_false] at h
  rcases h with ⟨_, rfl⟩ | ⟨_, rfl⟩
  · exact hput
  · exact hfetch

/-- A call whose frames have no more than a thousand bytes each. -/
theorem run_call {st : Connections Nat} {i : Nat} {request : RelayRequest} (hfree : (st.lines i).Free)
    (hstore : st.server.Short) (hrequest : (toVec request).length ≤ 996)
    (hresponse : (toVec (EnvelopeStore.serve given st.server request).1).length ≤ 996) :
    ∃ l : Remote.Line, l.Free ∧
      Runs.run Connections.step st (Remote.System.exchange i request given 1000 1000) =
        { server := (EnvelopeStore.serve given st.server request).2
          lines := Function.update st.lines i l
          asked := st.asked ++ [((i, (st.lines i).asked), request)]
          handled := st.handled ++ [st.entry EnvelopeStore.serve i given request]
          answered := st.answered ++
            [((i, (st.lines i).answered), (EnvelopeStore.serve given st.server request).1)] } := by
  have hframe : ∀ body : Bytes, body.length ≤ 996 → (frame body).length ≤ 1000 := by
    intro body hbody
    unfold frame
    rw [List.length_append, Framing.length_beBytes]
    omega
  rcases Remote.System.run_exchange hfree (jsonCodec_carries (by omega))
    (jsonCodec_carries (EnvelopeStore.length_response hstore)) (jsonCodec_write (by omega))
    (jsonCodec_write (by omega)) (hframe _ hrequest) (hframe _ hresponse) with ⟨l, hl, _, _, hrun⟩
  exact ⟨l, hl, hrun⟩

/-- Both calls are made, one after the other. -/
theorem after_letter :
    (Connections.after [] posting).asked = [((0, 0), RelayRequest.put letter)] ∧
      ((0, 0), RelayResponse.ok) ∈ (Connections.after [] posting).answered ∧
      (Connections.after [] (posting ++ collecting)).asked = [((0, 0), .put letter), ((1, 0), fetching)] ∧
      ∃ resp, ((1, 0), resp) ∈ (Connections.after [] (posting ++ collecting)).answered := by
  have hfree : ((Remote.System.start (StoreCall.after []) : Connections Nat).lines 0).Free :=
    Remote.Line.free_opened
  have hput : (toVec (RelayRequest.put letter)).length ≤ 996 := by decide +kernel
  have hfetch : (toVec fetching).length ≤ 996 := by decide +kernel
  have hok : (EnvelopeStore.serve given (StoreCall.after []) (.put letter)).1 = .ok := by
    have hexpected : (RelayClient.expectOk
        (EnvelopeStore.serve given (StoreCall.after []) (.put letter)).1).isSome = true := by decide +kernel
    generalize (EnvelopeStore.serve given (StoreCall.after []) (.put letter)).1 = resp at hexpected ⊢
    cases resp with
    | ok => rfl
    | _ => cases hexpected
  have hdone : (toVec (EnvelopeStore.serve given (StoreCall.after []) (.put letter)).1).length ≤ 996 := by
    rw [hok]
    decide +kernel
  rcases run_call hfree (EnvelopeStore.Short.after []) hput hdone with ⟨l, _, hposted⟩
  have hposted' : Connections.after [] posting = _ := hposted
  have hfree' : ((Connections.after [] posting).lines 1).Free := by
    rw [hposted']
    dsimp only
    rw [Function.update_of_ne (by decide)]
    exact Remote.Line.free_opened
  have hserver : (Connections.after [] posting).server =
      (EnvelopeStore.serve given (StoreCall.after []) (.put letter)).2 := by
    rw [hposted']
    rfl
  have hshort : (Connections.after [] posting).server.Short := by
    rw [hserver]
    exact (EnvelopeStore.Short.after []).serve
  have hitems : (toVec (EnvelopeStore.serve given (Connections.after [] posting).server fetching).1).length ≤ 996 := by
    rw [hserver]
    decide +kernel
  rcases run_call hfree' hshort hfetch hitems with ⟨l', _, hcollected⟩
  have hcollected' : Connections.after [] (posting ++ collecting) = _ := Runs.run_append.trans hcollected
  have hasked : (Connections.after [] posting).asked = [((0, 0), RelayRequest.put letter)] :=
    congrArg Remote.System.asked hposted'
  have hline : ((Connections.after [] posting).lines 1).asked = 0 := by
    rw [hposted']
    dsimp only
    rw [Function.update_of_ne (by decide)]
    rfl
  have hline' : ((Connections.after [] posting).lines 1).answered = 0 := by
    rw [hposted']
    dsimp only
    rw [Function.update_of_ne (by decide)]
    rfl
  refine ⟨hasked, ?_, ?_, ?_⟩
  · rw [hposted']
    exact List.mem_singleton.2 (congrArg (Prod.mk (0, 0)) hok.symm)
  · rw [hcollected']
    dsimp only
    rw [hasked, hline]
    rfl
  · refine ⟨(EnvelopeStore.serve given (Connections.after [] posting).server fetching).1, ?_⟩
    rw [hcollected']
    dsimp only
    rw [hline']
    exact List.mem_append_right _ (List.mem_singleton.2 rfl)

/-- The two calls are handled once each, in one order. -/
theorem calls_linearized_letter :
    ((Connections.after [] (posting ++ collecting)).handled.map Remote.Handled.key).Nodup :=
  (Connections.calls_linearized [] (posting ++ collecting) asks_short).1

/-- The letter is fetched. -/
theorem deposit_fetched_letter : ∃ resp,
    ((1, 0), resp) ∈ (Connections.after [] (posting ++ collecting)).answered ∧
      ∃ items, RelayClient.fetch (.ok resp) = .ok items ∧
        ((∃ roomId, { letter with roomId := roomId } ∈ items) ∨
          (items.length = EnvelopeStore.fetchLimit 64 ∧ ∀ item ∈ items, item.tsMs ≤ letter.tsMs)) := by
  rcases after_letter with ⟨hasked, hok, hasked', resp, hresp⟩
  refine ⟨resp, hresp, ?_⟩
  have hputs : ∀ key request, (key, request) ∈ (Connections.after [] (posting ++ collecting)).asked →
      request = .put letter ∨ request = fetching := by
    intro key request h
    rw [hasked'] at h
    simp only [List.mem_cons, Prod.mk.injEq, List.not_mem_nil, or_false] at h
    rcases h with ⟨_, rfl⟩ | ⟨_, rfl⟩
    · exact Or.inl rfl
    · exact Or.inr rfl
  have hput : ((0, 0), RelayRequest.put letter) ∈ (Connections.after [] posting).asked :=
    hasked ▸ List.mem_singleton.2 rfl
  have hnew : ∀ request, ((1, 0), request) ∉ (Connections.after [] posting).asked := by
    intro request h
    rw [hasked] at h
    simp at h
  have hfetch : ((1, 0), RelayRequest.fetch letter.recipientDevice 0 64) ∈
      (Connections.after [] (posting ++ collecting)).asked := by
    rw [hasked']
    exact List.mem_cons_of_mem _ (List.mem_singleton.2 rfl)
  refine Connections.deposit_fetched [] posting collecting asks_short hput hok hnew hfetch hresp (by decide)
    (by decide) ?_ ?_
  · intro key ids h
    rcases hputs key _ h with hwrong | hwrong
    · cases hwrong
    · cases hwrong
  · rintro env' (hearlier | ⟨key, h⟩) _
    · cases hearlier
    · rcases hputs key _ h with hsame | hwrong
      · cases hsame
        rfl
      · cases hwrong

end Letter

end Relay
end Thunderducks
