import Mathlib.Data.List.Basic

/-!
# Broadcast — one receiver of a bounded broadcast channel

The channel keeps its last `cap` values.  A receiver that falls behind misses the oldest and is told so, by
one `lagged` before the next value.  So a value that was sent stays to be received, or there is a `lagged`
to come (`send_unseen`, `unseen_send`, `unseen_recv`).
-/

namespace Thunderducks
namespace Lib

structure Receiver (T : Type) where
  queue : List T
  /-- The values missed since the last `recv`. -/
  missed : Nat

/-- What a receiver gets. -/
inductive Received (T : Type)
  | value (x : T)
  | lagged (n : Nat)

namespace Receiver

variable {T : Type}

def new : Receiver T :=
  { queue := []
    missed := 0 }

/-- A value is sent to a channel that keeps `cap` values. -/
def send (cap : Nat) (rx : Receiver T) (x : T) : Receiver T :=
  if rx.queue.length < cap then
    { rx with queue := rx.queue ++ [x] }
  else
    { queue := (rx.queue ++ [x]).tail
      missed := rx.missed + 1 }

/-- `recv`; `none` waits. -/
def recv (rx : Receiver T) : Option (Received T × Receiver T) :=
  if rx.missed ≠ 0 then
    some (.lagged rx.missed, { rx with missed := 0 })
  else
    match rx.queue with
    | [] => none
    | x :: queue => some (.value x, { rx with queue := queue })

/-- Nothing is left to be received. -/
def Drained (rx : Receiver T) : Prop :=
  rx.queue = [] ∧ rx.missed = 0

/-- The value is still to be received, or a `lagged` in its place. -/
def Unseen (rx : Receiver T) (x : T) : Prop :=
  x ∈ rx.queue ∨ rx.missed ≠ 0

theorem Drained.not_unseen {rx : Receiver T} (h : rx.Drained) (x : T) : ¬ rx.Unseen x := by
  rintro (hmem | hmissed)
  · rw [h.1] at hmem
    cases hmem
  · exact hmissed h.2

theorem send_unseen (cap : Nat) (rx : Receiver T) (x : T) : (rx.send cap x).Unseen x := by
  unfold send
  split
  · exact Or.inl (List.mem_append_right _ (List.mem_singleton.2 rfl))
  · exact Or.inr (Nat.succ_ne_zero _)

/-- Sending more makes nothing seen. -/
theorem unseen_send {rx : Receiver T} {x : T} (h : rx.Unseen x) (cap : Nat) (y : T) :
    (rx.send cap y).Unseen x := by
  unfold send
  split
  · exact h.imp (List.mem_append_left _) id
  · exact Or.inr (Nat.succ_ne_zero _)

/-- What `recv` hands out is the value, a `lagged`, or something before it. -/
theorem unseen_recv {rx rx' : Receiver T} {x y : T} (h : rx.Unseen x)
    (hrecv : rx.recv = some (.value y, rx')) : y = x ∨ rx'.Unseen x := by
  unfold recv at hrecv
  split at hrecv
  · cases hrecv
  next hmissed =>
      rcases h with hmem | hlag
      · cases hqueue : rx.queue with
        | nil =>
            rw [hqueue] at hmem
            cases hmem
        | cons z queue =>
            rw [hqueue] at hrecv hmem
            cases hrecv
            rcases List.mem_cons.1 hmem with rfl | hrest
            · exact Or.inl rfl
            · exact Or.inr (Or.inl hrest)
      · exact absurd hlag hmissed

end Receiver

end Lib
end Thunderducks
