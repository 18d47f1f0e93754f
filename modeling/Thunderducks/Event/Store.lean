import Thunderducks.Lib.HashMap
import Thunderducks.Event.Event

/-!
# Store — the SQLite event table (`td-event/src/store.rs`)

The table maps an event id to its room and JSON body.  A write may fail; `faults` says which of the
coming writes do, so that a statement over all stores covers every pattern of failures.
-/

namespace Thunderducks
namespace Event

open Lib

inductive StoreError
  | event (e : EventError)
  | db
  deriving DecidableEq

/-- A row of the table `events`, without its key. -/
structure EventRow where
  roomId : RoomId
  body : Bytes
  deriving DecidableEq

structure SqliteStore where
  rows : HashMap EventId EventRow
  /-- Whether each of the coming writes fails; none fails after the list. -/
  faults : List Bool
  deriving DecidableEq

namespace SqliteStore

/-- A database that has just been created. -/
def empty : SqliteStore :=
  { rows := ∅
    faults := [] }

/-- The next write fails. -/
def nextFails (store : SqliteStore) : Bool :=
  store.faults.headD false

variable [Primitives]

def put (store : SqliteStore) (ev : SignedEvent) : Except StoreError Bool × SqliteStore :=
  match verifyEvent ev with
  | .error e => (.error (.event e), store)
  | .ok () =>
      let rest := { store with faults := store.faults.tail }
      if store.nextFails then
        (.error .db, rest)
      else if ev.id ∈ store.rows then
        -- INSERT OR IGNORE
        (.ok false, rest)
      else
        let row : EventRow := { roomId := ev.roomId, body := toVec ev }
        (.ok true, { rest with rows := rest.rows.insert ev.id row })

/-- No coming write fails. -/
def Reliable (store : SqliteStore) : Prop :=
  ∀ b ∈ store.faults, b = false

theorem put_rows (store : SqliteStore) (ev : SignedEvent) {i : EventId} (h : i ∈ store.rows) :
    i ∈ (store.put ev).2.rows := by
  unfold put
  split
  · exact h
  · dsimp only
    split
    · exact h
    · split
      · exact h
      · exact (AList.mem_insert _).2 (Or.inr h)

/-- A write that does not fail leaves the event in the table. -/
theorem put_reliable {store : SqliteStore} {ev : SignedEvent} (hv : Verified ev)
    (hr : store.Reliable) :
    (∃ b, (store.put ev).1 = .ok b) ∧ (store.put ev).2.Reliable ∧ ev.id ∈ (store.put ev).2.rows := by
  have hv' : verifyEvent ev = .ok () := hv
  have hhead : store.nextFails = false := by
    unfold nextFails
    cases hf : store.faults with
    | nil => rfl
    | cons b bs => exact hr b (by simp [hf])
  have htail : ∀ b ∈ store.faults.tail, b = false := fun b hb => hr b (List.mem_of_mem_tail hb)
  by_cases hmem : ev.id ∈ store.rows
  · simpa [put, hv', hhead, hmem, Reliable] using htail
  · simpa [put, hv', hhead, hmem, Reliable] using htail

end SqliteStore

end Event
end Thunderducks
