import Thunderducks.Node.Listing
import Thunderducks.Node.SyncPeer

/-!
# Waiting — the long poll of a room (`wait_messages` in `td-node/src/rpc.rs`)

The loop counts the messages under the lock, gives the lock back, and only then makes the future that
`notify_waiters` wakes.  A handler that commits and notifies in between wakes nobody, and the loop
sleeps although there is something to report.  `noLostWakeup_iff` says along which runs that never
happens.
-/

namespace Thunderducks
namespace Node

open Lib Event

/-! ## Counting messages -/

namespace DeviceNode

/-- `node.list_messages(room).len()` -/
def messageCount (node : DeviceNode) (room : RoomId) : Nat :=
  (node.events.values.filter fun e => e.roomId = room ∧ e.kind = .message).length

/-- The list has that many messages, whatever order the log is listed in. -/
theorem length_listMessages (o : IterOrder SignedEvent) (node : DeviceNode) (room : RoomId) :
    (node.listMessages o room).length = node.messageCount room := by
  unfold listMessages messageCount
  rw [List.length_insertionSort]
  exact ((o.perm node.events.values).filter _).length_eq

end DeviceNode

/-- `snapshot_messages`, without the decrypted texts. -/
def snapshotMessages (o : IterOrder SignedEvent) (node : DeviceNode) (room : RoomId) :
    Nat × List SignedEvent :=
  let msgs := node.listMessages o room
  (msgs.length, msgs)

/-- The lower-case text of a room id is read back. -/
theorem parseRoomId_hex32 (room : RoomId) : parseRoomId (hex32 room.bytes) = .ok room := by
  have hdecode : Text.hexDecode (hex32 room.bytes).toList = some room.bytes.toList :=
    Text.hexDecode_hexEncode room.bytes.toList
  have hlen : room.bytes.toList.length = 32 := by
    simp
  unfold parseRoomId
  rw [hdecode]
  simp only [dif_pos hlen]
  rfl

/-! ## The loop -/

structure WaitMessagesRequest where
  roomId : String
  /-- Return immediately if message count differs from this (default 0). -/
  sinceCount : Nat
  /-- Max wait in milliseconds (clamped 250..=30000, default 15000). -/
  timeoutMs : Option Nat

def WaitMessagesRequest.timeout (req : WaitMessagesRequest) : Nat :=
  min (max (req.timeoutMs.getD 15000) 250) 30000

structure WaitAnswer where
  roomId : String
  messages : List SignedEvent
  count : Nat
  changed : Bool
  timedOut : Bool

/-- What the loop knows from before its first turn. -/
structure WaitLoop where
  req : WaitMessagesRequest
  room : RoomId
  deadline : Nat

/-- `wait_messages` up to its loop. -/
def waitMessages (req : WaitMessagesRequest) (now : Nat) : Except RoomIdError WaitLoop :=
  match parseRoomId req.roomId with
  | .error e => .error e
  | .ok room => .ok { req := req, room := room, deadline := now + req.timeout }

/-- Where the loop stands. -/
inductive WaitPhase
  /-- Before the snapshot. -/
  | looping
  /-- The snapshot found nothing new and the lock is released. -/
  | unchanged
  /-- In `select!`, with a `Notified` that exists. -/
  | selecting (woken : Bool)
  | answered (answer : WaitAnswer)

/-- `notify_waiters` wakes the `Notified` futures that exist. -/
def WaitPhase.notifyWaiters : WaitPhase → WaitPhase
  | .selecting _ => .selecting true
  | phase => phase

/-- The node, the loop, and the handlers that have committed and are yet to notify: for each of them,
whether its commit changed the number of messages. -/
structure WaitRun where
  node : DeviceNode
  now : Nat
  phase : WaitPhase
  unnotified : List Bool

inductive WaitStep
  /-- A handler commits an event, under the lock. -/
  | commit (ev : SignedEvent) (toOutbox : Bool)
  /-- The `k`th of the handlers that are yet to notify does. -/
  | notify (k : Nat)
  | elapse (ms : Nat)
  | snapshot (o : IterOrder SignedEvent)
  /-- `tick.notified()` -/
  | subscribe
  /-- `select!` returns. -/
  | wake

namespace WaitLoop

variable [Primitives]

def step (loop : WaitLoop) (s : WaitRun) : WaitStep → WaitRun
  | .commit ev toOutbox =>
      let node := (s.node.commit ev toOutbox).2
      let changed := decide (node.messageCount loop.room ≠ s.node.messageCount loop.room)
      { s with
        node := node
        unnotified := s.unnotified ++ [changed] }
  | .notify k =>
      if k < s.unnotified.length then
        { s with
          phase := s.phase.notifyWaiters
          unnotified := s.unnotified.eraseIdx k }
      else
        s
  | .elapse ms => { s with now := s.now + ms }
  | .snapshot o =>
      match s.phase with
      | .looping =>
          let (count, messages) := snapshotMessages o s.node loop.room
          if count ≠ loop.req.sinceCount then
            { s with phase := .answered ⟨loop.req.roomId, messages, count, true, false⟩ }
          else if loop.deadline ≤ s.now then
            { s with phase := .answered ⟨loop.req.roomId, messages, count, false, true⟩ }
          else
            { s with phase := .unchanged }
      | _ => s
  | .subscribe =>
      match s.phase with
      | .unchanged => { s with phase := .selecting false }
      | _ => s
  | .wake =>
      match s.phase with
      | .selecting woken => if woken ∨ loop.deadline ≤ s.now then { s with phase := .looping } else s
      | _ => s

/-! ## Lost wakeups -/

/-- The number of messages is not the one to wait for a change of, and every handler that changed it has
notified. -/
def Overdue (loop : WaitLoop) (s : WaitRun) : Prop :=
  s.node.messageCount loop.room ≠ loop.req.sinceCount ∧ true ∉ s.unnotified

/-- The loop sleeps in `select!`: nobody has woken it, and its time is not up. -/
def Blocked (loop : WaitLoop) (s : WaitRun) : Prop :=
  s.phase = .selecting false ∧ s.now < loop.deadline

def NoLostWakeup (loop : WaitLoop) (s : WaitRun) : Prop :=
  ¬ (loop.Blocked s ∧ loop.Overdue s)

/-- When the `Notified` is made, no change since the snapshot has been notified already. -/
def InTime (loop : WaitLoop) (s : WaitRun) : WaitStep → Prop
  | .subscribe => s.phase = .unchanged → s.now < loop.deadline → ¬ loop.Overdue s
  | _ => True

variable {loop : WaitLoop} {s : WaitRun}

omit [Primitives] in
theorem noLostWakeup_of_phase (h : s.phase ≠ .selecting false) : loop.NoLostWakeup s :=
  fun hlost => h hlost.1.1

/-- A commit leaves a handler that will wake the loop, or the number of messages as it was. -/
theorem NoLostWakeup.commit (h : loop.NoLostWakeup s) (ev : SignedEvent) (toOutbox : Bool) :
    loop.NoLostWakeup (loop.step s (.commit ev toOutbox)) := by
  rintro ⟨hblocked, hcount, hnone⟩
  refine h ⟨hblocked, ?_, ?_⟩
  · have hsame : (s.node.commit ev toOutbox).2.messageCount loop.room =
        s.node.messageCount loop.room := by
      by_contra hne
      refine hnone (List.mem_append_right _ ?_)
      rw [List.mem_singleton]
      exact (decide_eq_true hne).symm
    rw [← hsame]
    exact hcount
  · exact fun htrue => hnone (List.mem_append_left _ htrue)

theorem NoLostWakeup.notify (h : loop.NoLostWakeup s) (k : Nat) :
    loop.NoLostWakeup (loop.step s (.notify k)) := by
  unfold WaitLoop.step
  dsimp only
  split
  · refine noLostWakeup_of_phase ?_
    dsimp only
    cases s.phase <;> simp [WaitPhase.notifyWaiters]
  · exact h

theorem NoLostWakeup.snapshot (h : loop.NoLostWakeup s) (o : IterOrder SignedEvent) :
    loop.NoLostWakeup (loop.step s (.snapshot o)) := by
  unfold WaitLoop.step
  dsimp only
  split
  · split
    · exact noLostWakeup_of_phase (by simp)
    split
    · exact noLostWakeup_of_phase (by simp)
    · exact noLostWakeup_of_phase (by simp)
  · exact h

theorem NoLostWakeup.wake (h : loop.NoLostWakeup s) : loop.NoLostWakeup (loop.step s .wake) := by
  unfold WaitLoop.step
  dsimp only
  split
  · split
    · exact noLostWakeup_of_phase (by simp)
    · exact h
  · exact h

theorem noLostWakeup_subscribe (h : loop.NoLostWakeup s) :
    loop.NoLostWakeup (loop.step s .subscribe) ↔ loop.InTime s .subscribe := by
  unfold WaitLoop.step
  dsimp only
  split
  next hphase =>
      constructor
      · intro hsleep _ hnow hoverdue
        exact hsleep ⟨⟨rfl, hnow⟩, hoverdue⟩
      · intro hin hlost
        exact hin hphase hlost.1.2 hlost.2
  next hphase => exact iff_of_true h fun hunchanged => absurd hunchanged hphase

/-- Of all steps, only making the `Notified` can lose a wakeup. -/
theorem noLostWakeup_step (h : loop.NoLostWakeup s) (a : WaitStep) :
    loop.NoLostWakeup (loop.step s a) ↔ loop.InTime s a := by
  cases a with
  | commit ev toOutbox => exact iff_of_true (h.commit ev toOutbox) trivial
  | notify k => exact iff_of_true (h.notify k) trivial
  | elapse ms =>
      refine iff_of_true ?_ trivial
      rintro ⟨⟨hphase, hnow⟩, hoverdue⟩
      exact h ⟨⟨hphase, Nat.lt_of_le_of_lt (Nat.le_add_right _ _) hnow⟩, hoverdue⟩
  | snapshot o => exact iff_of_true (h.snapshot o) trivial
  | subscribe => exact noLostWakeup_subscribe h
  | wake => exact iff_of_true h.wake trivial

/-- The loop is never left asleep exactly if it never makes its `Notified` after a change that has been
notified. -/
theorem noLostWakeup_iff (loop : WaitLoop) (node : DeviceNode) (now : Nat) (unnotified : List Bool)
    (steps : List WaitStep) :
    Runs.Always loop.step loop.NoLostWakeup ⟨node, now, .looping, unnotified⟩ steps ↔
      Runs.Along loop.step loop.InTime ⟨node, now, .looping, unnotified⟩ steps :=
  Runs.always_iff_along_of_inv (J := fun _ => True) (fun _ _ h => h)
    (fun _ a _ h => noLostWakeup_step h a) steps trivial (noLostWakeup_of_phase (by simp))

end WaitLoop

/-! ## A message between the snapshot and the `Notified` -/

section Example

open Checksum DeviceNode

attribute [local instance] Checksum.primitives

/-- A loop that waits for the first message of room 1. -/
def firstMessage : WaitLoop :=
  { req := { roomId := hex32 (room 1).bytes, sinceCount := 0, timeoutMs := none }
    room := room 1
    deadline := 15000 }

theorem waitMessages_firstMessage : waitMessages firstMessage.req 0 = .ok firstMessage := by
  unfold waitMessages
  have hparse : parseRoomId firstMessage.req.roomId = .ok (room 1) := parseRoomId_hex32 (room 1)
  rw [hparse]
  rfl

/-- The loop sees no message; one is committed and notified; the loop goes to sleep. -/
theorem wakeup_lost :
    ¬ ∀ (req : WaitMessagesRequest) (loop : WaitLoop) (node : DeviceNode) (steps : List WaitStep),
      waitMessages req 0 = .ok loop →
        Runs.Always loop.step loop.NoLostWakeup ⟨node, 0, .looping, []⟩ steps := by
  intro h
  have hfinal := (h _ firstMessage (DeviceNode.new (device 3))
    [.snapshot .stored, .commit hello false, .notify 0, .subscribe]
    waitMessages_firstMessage).final
  have hcommit : (DeviceNode.new (device 3)).commit hello false =
      (.ok true, (DeviceNode.new (device 3)).take hello) :=
    commit_quiet (Operated.new (device 3) none).sound.log takes_hello rfl rfl
  have hchanged : ((DeviceNode.new (device 3)).take hello).messageCount (room 1) = 1 := rfl
  have hsnapshot : firstMessage.step ⟨DeviceNode.new (device 3), 0, .looping, []⟩ (.snapshot .stored) =
      ⟨DeviceNode.new (device 3), 0, .unchanged, []⟩ := rfl
  have hcommitted : firstMessage.step ⟨DeviceNode.new (device 3), 0, .unchanged, []⟩ (.commit hello false) =
      ⟨(DeviceNode.new (device 3)).take hello, 0, .unchanged, [true]⟩ := by
    unfold WaitLoop.step
    dsimp only
    rw [hcommit]
    rfl
  have hrun : Runs.run firstMessage.step ⟨DeviceNode.new (device 3), 0, .looping, []⟩
      [.snapshot .stored, .commit hello false, .notify 0, .subscribe] =
        ⟨(DeviceNode.new (device 3)).take hello, 0, .selecting false, []⟩ := by
    simp only [Runs.run, List.foldl_cons, List.foldl_nil, hsnapshot, hcommitted]
    rfl
  rw [hrun] at hfinal
  refine hfinal ⟨⟨rfl, by decide⟩, ?_, List.not_mem_nil⟩
  change ((DeviceNode.new (device 3)).take hello).messageCount (room 1) ≠ 0
  rw [hchanged]
  exact one_ne_zero

end Example

end Node
end Thunderducks
