import Thunderducks.Lib.JsonRead
import Thunderducks.Lib.Runs
import Thunderducks.Event.Store

/-!
# Stores — the two stores behind `EventStore` (`td-event/src/store.rs`)

`MemoryStore` keeps the events, `SqliteStore` their JSON texts, which it reads and verifies again on every
`get`.  `ofJson_toJson` says that the derived reader of `SignedEvent` gives back what the derived writer
wrote; `Mirrors` relates the two stores, every call keeps it, so no sequence of calls tells them apart
(`stores_agree`).
-/

namespace Thunderducks
namespace Event

open Lib

/-! ## The derived reader of an event -/

/-- A `u8`. -/
def readByte : Json → Option UInt8
  | .num n => if n < 256 then some (UInt8.ofNat n) else none
  | _ => none

/-- A `Vec<u8>`. -/
def readBytes : Json → Option Bytes
  | .arr items => items.mapM readByte
  | _ => none

theorem toArray_size_of_length {bs : Bytes} (h : bs.length = 32) : bs.toArray.size = 32 :=
  List.size_toArray.trans h

/-- A `[u8; 32]`. -/
def readBytes32 (v : Json) : Option Bytes32 :=
  match readBytes v with
  | none => none
  | some bs => if h : bs.length = 32 then some ⟨bs.toArray, toArray_size_of_length h⟩ else none

/-- A `Vec<EventId>`. -/
def readIds : Json → Option (List EventId)
  | .arr items => items.mapM fun v => (readBytes32 v).map EventId.mk
  | _ => none

/-- A `u64`. -/
def readU64 : Json → Option UInt64
  | .num n => if n < UInt64.size then some (UInt64.ofNat n) else none
  | _ => none

def EventKind.ofName (name : String) : Option EventKind :=
  if name = "create_room" then some .createRoom
  else if name = "membership" then some .membership
  else if name = "message" then some .message
  else if name = "device_link" then some .deviceLink
  else if name = "custom" then some .custom
  else none

/-- A unit variant, as its name or as an object with the name and no content. -/
def EventKind.ofJson : Json → Option EventKind
  | .str name => EventKind.ofName name
  | .obj [(name, .null)] => EventKind.ofName name
  | _ => none

/-- The value of a field, which has to be there once; other fields are passed over. -/
def field (fields : List (String × Json)) (name : String) : Option Json :=
  match fields.filter fun f => f.1 = name with
  | [(_, v)] => some v
  | _ => none

/-- An event of the values of its fields. -/
def SignedEvent.ofValues (id roomId parents kind payload authorDevice tsMs authorVk signature : Json) :
    Option SignedEvent := do
  let id ← readBytes32 id
  let roomId ← readBytes32 roomId
  let parents ← readIds parents
  let kind ← EventKind.ofJson kind
  let payload ← readBytes payload
  let authorDevice ← readBytes32 authorDevice
  let tsMs ← readU64 tsMs
  let authorVk ← readBytes32 authorVk
  let signature ← readBytes signature
  return {
    id := ⟨id⟩
    roomId := ⟨roomId⟩
    parents := parents
    kind := kind
    payload := payload
    authorDevice := ⟨authorDevice⟩
    tsMs := tsMs
    authorVk := authorVk
    signature := signature }

/-- What `derive(Deserialize)` makes of a value: an object with the fields, or their values in order. -/
def SignedEvent.ofJson : Json → Option SignedEvent
  | .obj fields => do
      SignedEvent.ofValues (← field fields "id") (← field fields "room_id") (← field fields "parents")
        (← field fields "kind") (← field fields "payload") (← field fields "author_device")
        (← field fields "ts_ms") (← field fields "author_vk") (← field fields "signature")
  | .arr [id, roomId, parents, kind, payload, authorDevice, tsMs, authorVk, signature] =>
      SignedEvent.ofValues id roomId parents kind payload authorDevice tsMs authorVk signature
  | _ => none

/-- `serde_json::from_str` at `SignedEvent`, on texts without white space. -/
@[reducible] def fromStr : Deserialize SignedEvent :=
  { fromSlice := fun bs => (Json.read bs).bind SignedEvent.ofJson }

/-! ## What was written comes back -/

theorem readByte_num (b : UInt8) : readByte (.num b.toNat) = some b := by
  rw [readByte, if_pos b.toNat_lt, UInt8.ofNat_toNat]

/-- Reading value by value gives back a list that was written value by value. -/
theorem mapM_written {α : Type} {write : α → Json} {read : Json → Option α}
    (h : ∀ a, read (write a) = some a) (as : List α) : (as.map write).mapM read = some as := by
  induction as with
  | nil => rfl
  | cons a as ih => simp [h a, ih]

theorem readBytes_bytes (bs : Bytes) : readBytes (Json.bytes bs) = some bs :=
  mapM_written readByte_num bs

theorem readBytes32_toJson (b : Bytes32) : readBytes32 b.toJson = some b := by
  have hlen : b.toList.length = 32 := by
    simp
  unfold readBytes32 Bytes32.toJson
  rw [readBytes_bytes]
  simp only [dif_pos hlen]
  rfl

theorem readIds_toJson (ids : List EventId) :
    readIds (.arr (ids.map fun p => p.bytes.toJson)) = some ids := by
  have hid : ∀ p : EventId, (readBytes32 p.bytes.toJson).map EventId.mk = some p := by
    intro p
    rw [readBytes32_toJson]
    rfl
  exact mapM_written hid ids

theorem readU64_num (n : UInt64) : readU64 (.num n.toNat) = some n := by
  rw [readU64, if_pos n.toNat_lt_size, UInt64.ofNat_toNat]

theorem EventKind.ofJson_toJson (kind : EventKind) : EventKind.ofJson kind.toJson = some kind := by
  cases kind <;> rfl

theorem SignedEvent.ofJson_toJson (ev : SignedEvent) :
    SignedEvent.ofJson (Serialize.toJson ev) = some ev := by
  have hvalues : SignedEvent.ofJson (Serialize.toJson ev) =
      SignedEvent.ofValues ev.id.bytes.toJson ev.roomId.bytes.toJson
        (.arr (ev.parents.map fun p => p.bytes.toJson)) ev.kind.toJson (Json.bytes ev.payload)
        ev.authorDevice.bytes.toJson (.num ev.tsMs.toNat) ev.authorVk.toJson
        (Json.bytes ev.signature) := rfl
  rw [hvalues, SignedEvent.ofValues]
  simp only [readBytes32_toJson, readIds_toJson, EventKind.ofJson_toJson, readBytes_bytes, readU64_num]
  rfl

theorem fromStr_toVec (ev : SignedEvent) : fromStr.fromSlice (toVec ev) = some ev := by
  change (Json.read (Serialize.toJson ev).render).bind SignedEvent.ofJson = some ev
  rw [Json.read_render]
  exact SignedEvent.ofJson_toJson ev

/-! ## The stores -/

variable [Primitives]

/-- `EventStore`. -/
class EventStore (S : Type) where
  put : S → SignedEvent → Except StoreError Bool × S
  get : S → EventId → Except StoreError (Option SignedEvent)

structure MemoryStore where
  map : HashMap EventId SignedEvent

namespace MemoryStore

/-- `MemoryStore::default()`. -/
def new : MemoryStore :=
  { map := ∅ }

def put (store : MemoryStore) (ev : SignedEvent) : Except StoreError Bool × MemoryStore :=
  match verifyEvent ev with
  | .error e => (.error (.event e), store)
  | .ok () =>
      if ev.id ∈ store.map then
        (.ok false, store)
      else
        (.ok true, { map := store.map.insert ev.id ev })

def get (store : MemoryStore) (id : EventId) : Except StoreError (Option SignedEvent) :=
  .ok (store.map.lookup id)

end MemoryStore

def SqliteStore.get (store : SqliteStore) (id : EventId) : Except StoreError (Option SignedEvent) :=
  match store.rows.lookup id with
  | none => .ok none
  | some row =>
      match fromStr.fromSlice row.body with
      | none => .error (.event .serde)
      | some ev =>
          match verifyEvent ev with
          | .error e => .error (.event e)
          | .ok () => .ok (some ev)

instance : EventStore MemoryStore where
  put := MemoryStore.put
  get := MemoryStore.get

instance : EventStore SqliteStore where
  put := SqliteStore.put
  get := SqliteStore.get

/-! ## Calls -/

inductive EventStoreCall
  | put (ev : SignedEvent)
  | get (id : EventId)

inductive EventStoreReply
  | put (result : Except StoreError Bool)
  | get (result : Except StoreError (Option SignedEvent))

/-- One call, its result and the store after it. -/
def serveCall {S : Type} [EventStore S] (store : S) : EventStoreCall → EventStoreReply × S
  | .put ev => (.put (EventStore.put store ev).1, (EventStore.put store ev).2)
  | .get id => (.get (EventStore.get store id), store)

/-- The row that a put writes for an event. -/
def rowOf (ev : SignedEvent) : EventRow :=
  { roomId := ev.roomId
    body := toVec ev }

/-- A database that does not fail holds the rows of the events in memory, and these are verified. -/
structure Mirrors (db : SqliteStore) (mem : MemoryStore) : Prop where
  noFaults : db.faults = []
  rows : ∀ id, db.rows.lookup id = (mem.map.lookup id).map rowOf
  verified : ∀ id ev, mem.map.lookup id = some ev → Verified ev

namespace Mirrors

variable {db : SqliteStore} {mem : MemoryStore}

theorem new : Mirrors SqliteStore.empty MemoryStore.new :=
  { noFaults := rfl
    rows := fun _ => rfl
    verified := by
      intro id ev h
      cases h }

theorem mem_iff (h : Mirrors db mem) (id : EventId) : id ∈ db.rows ↔ id ∈ mem.map := by
  rw [← AList.lookup_isSome, ← AList.lookup_isSome, h.rows id, Option.isSome_map]

/-- The stores find the same event. -/
theorem get (h : Mirrors db mem) (id : EventId) : db.get id = mem.get id := by
  unfold SqliteStore.get MemoryStore.get
  rw [h.rows id]
  cases hlook : mem.map.lookup id with
  | none => rfl
  | some ev =>
      have hv : verifyEvent ev = .ok () := h.verified id ev hlook
      simp only [Option.map_some, rowOf, fromStr_toVec, hv]

/-- The entry of a new event, in both stores. -/
theorem insert (h : Mirrors db mem) {ev : SignedEvent} (hv : Verified ev) :
    Mirrors { db with rows := db.rows.insert ev.id (rowOf ev) }
      { map := mem.map.insert ev.id ev } := by
  refine ⟨h.noFaults, ?_, ?_⟩
  · intro id
    rw [HashMap.lookup_insert_eq, HashMap.lookup_insert_eq]
    split
    · rfl
    · exact h.rows id
  · intro id ev' hlook
    rw [HashMap.lookup_insert_eq] at hlook
    split at hlook
    · cases hlook
      exact hv
    · exact h.verified id ev' hlook

/-- A put answers alike and leaves the stores alike. -/
theorem put (h : Mirrors db mem) (ev : SignedEvent) :
    (db.put ev).1 = (mem.put ev).1 ∧ Mirrors (db.put ev).2 (mem.put ev).2 := by
  have hhead : db.nextFails = false := by
    rw [SqliteStore.nextFails, h.noFaults]
    rfl
  have htail : db.faults.tail = db.faults := by
    rw [h.noFaults]
    rfl
  unfold SqliteStore.put MemoryStore.put
  cases hv : verifyEvent ev with
  | error e => exact ⟨rfl, h⟩
  | ok u =>
      simp only [hhead, Bool.false_eq_true, if_false, htail, h.mem_iff ev.id]
      split
      · exact ⟨rfl, h⟩
      · refine ⟨rfl, ?_⟩
        dsimp only
        exact h.insert hv

theorem serveCall (h : Mirrors db mem) (call : EventStoreCall) :
    (Event.serveCall db call).1 = (Event.serveCall mem call).1 ∧
      Mirrors (Event.serveCall db call).2 (Event.serveCall mem call).2 := by
  cases call with
  | put ev =>
      rcases h.put ev with ⟨hanswer, hnext⟩
      exact ⟨congrArg EventStoreReply.put hanswer, hnext⟩
  | get id => exact ⟨congrArg EventStoreReply.get (h.get id), h⟩

end Mirrors

/-- No sequence of calls tells the stores apart, and every event comes back from its JSON text. -/
theorem stores_agree :
    (∀ calls : List EventStoreCall, Runs.answers serveCall SqliteStore.empty calls =
      Runs.answers serveCall MemoryStore.new calls) ∧
    ∀ ev : SignedEvent, fromStr.fromSlice (toVec ev) = some ev :=
  ⟨fun calls => Runs.answers_eq (fun _ _ call h => h.serveCall call) calls Mirrors.new, fromStr_toVec⟩

end Event
end Thunderducks
