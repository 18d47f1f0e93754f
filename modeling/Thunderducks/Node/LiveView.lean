import Thunderducks.Node.Stream

/-!
# LiveView — the list of a room in the browser (`mountChatUi` in `clients/web/src/rpc.ts`)

The page lists the messages of the room once, and from then on waits for their number to change, one request
after the other; a button lists them in between.  Requests fail, answers come late and in any order, and the
node may sleep through a change (`Waiting`).  `live_view` says what the page shows all the same: the messages
are those the node had at some moment, and once a request that was made later than a message is answered, the
message is there to stay.
-/

namespace Thunderducks
namespace Node

open Lib Event

/-! ## Lists of a growing log -/

namespace DeviceNode

variable {node node' : DeviceNode} {room : RoomId}

theorem mem_listMessages (h : node.LogCoherent) (o : IterOrder SignedEvent) {e : SignedEvent} :
    e ∈ node.listMessages o room ↔ e ∈ node.accepted ∧ e.roomId = room ∧ e.kind = .message := by
  unfold listMessages
  rw [(List.perm_insertionSort causalLe _).mem_iff, List.mem_filter, o.mem_run, h.mem_values, decide_eq_true_iff]

theorem nodup_listMessages (h : node.LogCoherent) (o : IterOrder SignedEvent) :
    (node.listMessages o room).Nodup := by
  unfold listMessages
  rw [(List.perm_insertionSort causalLe _).nodup_iff]
  exact ((o.perm _).nodup_iff.2 (values_nodup h)).filter _

/-- A list of a later log with as many messages has the same messages. -/
theorem listMessages_perm (h : node.LogCoherent) (h' : node'.LogCoherent) (hsub : node.accepted ⊆ node'.accepted)
    {o o' : IterOrder SignedEvent}
    (hlen : (node.listMessages o room).length = (node'.listMessages o' room).length) :
    (node.listMessages o room).Perm (node'.listMessages o' room) := by
  have hmem : node.listMessages o room ⊆ node'.listMessages o' room := by
    intro e he
    rcases (mem_listMessages h o).1 he with ⟨hacc, hroom, hkind⟩
    exact (mem_listMessages h' o').2 ⟨hsub hacc, hroom, hkind⟩
  exact (List.subperm_of_subset (nodup_listMessages h o) hmem).perm_of_length_le (Nat.le_of_eq hlen.symm)

/-- A commit takes nothing out of the log. -/
theorem accepted_subset_commit [Primitives] (hs : node.Sound) (ev : SignedEvent) (toOutbox : Bool) :
    node.accepted ⊆ (node.commit ev toOutbox).2.accepted := by
  rcases commit_log hs ev toOutbox with ⟨_, hsame⟩ | ⟨_, hadv⟩
  · intro e he
    change (node.commit ev toOutbox).2.events.lookup e.id = some e
    rw [hsame]
    exact he
  · exact fun e he => hadv.keeps he

end DeviceNode

/-! ## The page -/

/-- The text in the room field of the page, and the room it names. -/
structure RoomField where
  roomId : String
  room : RoomId
  parsed : parseRoomId roomId = .ok room

/-- `lastRender` and `sinceCount`. -/
structure LiveView where
  shown : List SignedEvent
  sinceCount : Nat

namespace LiveView

def renderMessages (msgs : List SignedEvent) : LiveView :=
  { shown := msgs
    sinceCount := msgs.length }

/-- The answer of a `waitMessages` that the loop has made. -/
def answered (view : LiveView) (w : WaitAnswer) : LiveView :=
  if w.changed ∨ w.messages.length ≠ view.sinceCount then
    renderMessages w.messages
  else
    { view with sinceCount := w.count }

end LiveView

/-- The node, its clock and the handlers that are yet to notify; the page; the request it waits for, as the node has
it; and the lists that are on their way to the page. -/
structure LiveRun where
  node : DeviceNode
  now : Nat
  unnotified : List Bool
  view : LiveView
  waiting : Option (WaitLoop × WaitPhase)
  lists : List (List SignedEvent)

inductive LiveTurn
  /-- A handler of the node, its clock, or the wait request in the node. -/
  | node (a : WaitStep)
  /-- The loop of the page makes the next request. -/
  | wait
  /-- The answer arrives. -/
  | receive
  /-- The request fails. -/
  | fail
  /-- The node answers a `listMessages` of the page. -/
  | list (o : IterOrder SignedEvent)
  /-- The `k`th of these answers arrives. -/
  | arrive (k : Nat)
  | lose (k : Nat)

namespace RoomField

variable (field : RoomField)

/-- `client.waitMessages(room, sinceCount, 12000, …)` -/
def request (sinceCount : Nat) : WaitMessagesRequest :=
  { roomId := field.roomId
    sinceCount := sinceCount
    timeoutMs := some 12000 }

/-- The node when no request of the page is in it. -/
def noRequest : WaitLoop :=
  { req := field.request 0
    room := field.room
    deadline := 0 }

/-- After the first list. -/
def opened (node : DeviceNode) (now : Nat) (unnotified : List Bool) (o : IterOrder SignedEvent) : LiveRun :=
  { node := node
    now := now
    unnotified := unnotified
    view := .renderMessages (node.listMessages o field.room)
    waiting := none
    lists := [] }

variable [Primitives]

/-- A step of the node, with the request in it if there is one. -/
def nodeStep (s : LiveRun) (a : WaitStep) : LiveRun :=
  match s.waiting with
  | some (loop, phase) =>
      let r := loop.step ⟨s.node, s.now, phase, s.unnotified⟩ a
      { s with
        node := r.node
        now := r.now
        unnotified := r.unnotified
        waiting := some (loop, r.phase) }
  | none =>
      let r := field.noRequest.step ⟨s.node, s.now, .looping, s.unnotified⟩ a
      { s with
        node := r.node
        now := r.now
        unnotified := r.unnotified }

def step (s : LiveRun) : LiveTurn → LiveRun
  | .node a => field.nodeStep s a
  | .wait =>
      match s.waiting, waitMessages (field.request s.view.sinceCount) s.now with
      | none, .ok loop => { s with waiting := some (loop, .looping) }
      | _, _ => s
  | .receive =>
      match s.waiting with
      | some (_, .answered w) =>
          { s with
            view := s.view.answered w
            waiting := none }
      | _ => s
  | .fail => { s with waiting := none }
  | .list o => { s with lists := s.lists ++ [s.node.listMessages o field.room] }
  | .arrive k =>
      match s.lists[k]? with
      | some msgs =>
          { s with
            view := .renderMessages msgs
            lists := s.lists.eraseIdx k }
      | none => s
  | .lose k => { s with lists := s.lists.eraseIdx k }

def after (start : LiveRun) (turns : List LiveTurn) : LiveRun :=
  Runs.run field.step start turns

end RoomField

/-! ## What a turn does -/

section Turns

variable [Primitives]

namespace WaitLoop

variable {loop : WaitLoop} {r : WaitRun}

/-- Only a commit touches the node. -/
theorem step_node (a : WaitStep) : (loop.step r a).node = r.node ∨
    ∃ ev toOutbox, (loop.step r a).node = (r.node.commit ev toOutbox).2 := by
  cases a with
  | commit ev toOutbox => exact Or.inr ⟨ev, toOutbox, rfl⟩
  | elapse ms => exact Or.inl rfl
  | notify k =>
      refine Or.inl ?_
      dsimp only [step]
      split <;> rfl
  | snapshot o =>
      refine Or.inl ?_
      dsimp only [step]
      split
      · split
        · rfl
        · split <;> rfl
      · rfl
  | subscribe =>
      refine Or.inl ?_
      dsimp only [step]
      split <;> rfl
  | wake =>
      refine Or.inl ?_
      dsimp only [step]
      split
      · split <;> rfl
      · rfl

/-- An answer has the list of the moment it is given. -/
theorem step_answered {a : WaitStep} {w : WaitAnswer} (h : (loop.step r a).phase = .answered w) :
    r.phase = .answered w ∨
      ∃ o, a = .snapshot o ∧ w.messages = r.node.listMessages o loop.room ∧ w.count = w.messages.length := by
  cases a with
  | commit ev toOutbox => exact Or.inl h
  | elapse ms => exact Or.inl h
  | notify k =>
      refine Or.inl ?_
      dsimp only [step] at h
      split at h
      · dsimp only at h
        cases hphase : r.phase with
        | answered w' =>
            rw [hphase] at h
            exact h
        | _ => simp [hphase, WaitPhase.notifyWaiters] at h
      · exact h
  | snapshot o =>
      dsimp only [step] at h
      split at h
      · split at h
        · cases h
          exact Or.inr ⟨o, rfl, rfl, rfl⟩
        · split at h
          · cases h
            exact Or.inr ⟨o, rfl, rfl, rfl⟩
          · cases h
      · exact Or.inl h
  | subscribe =>
      refine Or.inl ?_
      dsimp only [step] at h
      split at h
      · cases h
      · exact h
  | wake =>
      refine Or.inl ?_
      dsimp only [step] at h
      split at h
      · split at h
        · cases h
        next hphase _ => exact absurd (hphase.symm.trans h) (by simp)
      · exact h

theorem le_step_now (a : WaitStep) : r.now ≤ (loop.step r a).now := by
  cases a with
  | elapse ms => exact Nat.le_add_right _ _
  | commit ev toOutbox => exact Nat.le_refl _
  | notify k =>
      dsimp only [step]
      split <;> exact Nat.le_refl _
  | snapshot o =>
      dsimp only [step]
      split
      · split
        · exact Nat.le_refl _
        · split <;> exact Nat.le_refl _
      · exact Nat.le_refl _
  | subscribe =>
      dsimp only [step]
      split <;> exact Nat.le_refl _
  | wake =>
      dsimp only [step]
      split
      · split <;> exact Nat.le_refl _
      · exact Nat.le_refl _

/-- The time runs out, and the loop goes round once more. -/
def timeout (ms : Nat) (o : IterOrder SignedEvent) : List WaitStep :=
  [.elapse ms, .subscribe, .wake, .snapshot o]

/-- Whoever has been notified or not, the loop answers when its time is up. -/
theorem run_timeout {ms : Nat} (h : loop.deadline ≤ r.now + ms) (o : IterOrder SignedEvent) :
    ∃ w, (Runs.run loop.step r (timeout ms o)).phase = .answered w := by
  have hlooping : ∀ r : WaitRun, r.phase = .looping → loop.deadline ≤ r.now →
      ∃ w, (loop.step r (.snapshot o)).phase = .answered w := by
    intro r hphase hnow
    dsimp only [step]
    rw [hphase]
    simp only [if_pos hnow]
    split
    · exact ⟨_, rfl⟩
    · exact ⟨_, rfl⟩
  rcases r with ⟨node, now, phase, unnotified⟩
  have hdue : loop.deadline ≤ now + ms := h
  cases phase with
  | looping => exact hlooping ⟨node, now + ms, .looping, unnotified⟩ rfl hdue
  | unchanged =>
      have hwake : loop.step ⟨node, now + ms, .selecting false, unnotified⟩ .wake =
          ⟨node, now + ms, .looping, unnotified⟩ := if_pos (Or.inr hdue)
      have hrun : Runs.run loop.step ⟨node, now, .unchanged, unnotified⟩ (timeout ms o) =
          loop.step (loop.step ⟨node, now + ms, .selecting false, unnotified⟩ .wake) (.snapshot o) := rfl
      rw [hrun, hwake]
      exact hlooping _ rfl hdue
  | selecting woken =>
      have hwake : loop.step ⟨node, now + ms, .selecting woken, unnotified⟩ .wake =
          ⟨node, now + ms, .looping, unnotified⟩ := if_pos (Or.inr hdue)
      have hrun : Runs.run loop.step ⟨node, now, .selecting woken, unnotified⟩ (timeout ms o) =
          loop.step (loop.step ⟨node, now + ms, .selecting woken, unnotified⟩ .wake) (.snapshot o) := rfl
      rw [hrun, hwake]
      exact hlooping _ rfl hdue
  | answered w => exact ⟨w, rfl⟩

end WaitLoop

namespace RoomField

variable {field : RoomField} {s : LiveRun}

theorem step_node (field : RoomField) (turn : LiveTurn) : (field.step s turn).node = s.node ∨
    ∃ ev toOutbox, (field.step s turn).node = (s.node.commit ev toOutbox).2 := by
  cases turn with
  | node a =>
      dsimp only [step, nodeStep]
      split
      · exact WaitLoop.step_node a
      · exact WaitLoop.step_node a
  | wait =>
      refine Or.inl ?_
      dsimp only [step]
      split <;> rfl
  | receive =>
      refine Or.inl ?_
      dsimp only [step]
      split <;> rfl
  | arrive k =>
      refine Or.inl ?_
      dsimp only [step]
      split <;> rfl
  | _ => exact Or.inl rfl

/-- The log only grows. -/
theorem step_grows (field : RoomField) (hs : s.node.Sound) (turn : LiveTurn) :
    (field.step s turn).node.Sound ∧ s.node.accepted ⊆ (field.step s turn).node.accepted := by
  rcases field.step_node turn with hsame | ⟨ev, toOutbox, hcommit⟩
  · rw [hsame]
    exact ⟨hs, fun _ h => h⟩
  · rw [hcommit]
    exact ⟨hs.commit ev toOutbox, DeviceNode.accepted_subset_commit hs ev toOutbox⟩

theorem after_grows (field : RoomField) (turns : List LiveTurn) : ∀ {s : LiveRun}, s.node.Sound →
    (field.after s turns).node.Sound ∧ s.node.accepted ⊆ (field.after s turns).node.accepted := by
  induction turns with
  | nil => exact fun hs => ⟨hs, fun _ h => h⟩
  | cons turn turns ih =>
      intro s hs
      rcases field.step_grows hs turn with ⟨hs', hsub⟩
      rcases ih hs' with ⟨hlast, hsub'⟩
      exact ⟨hlast, fun _ h => hsub' (hsub h)⟩

end RoomField

/-! ## What the page gets -/

namespace RoomField

variable {field : RoomField} {s : LiveRun} {P Q : List SignedEvent → Prop}

/-- What is on its way to the page has `P`. -/
structure Incoming (field : RoomField) (P : List SignedEvent → Prop) (s : LiveRun) : Prop where
  lists : ∀ msgs ∈ s.lists, P msgs
  room : ∀ loop phase, s.waiting = some (loop, phase) → loop.room = field.room
  answers : ∀ loop w, s.waiting = some (loop, .answered w) → P w.messages
  counts : ∀ loop w, s.waiting = some (loop, .answered w) → w.count = w.messages.length

omit [Primitives] in
theorem Incoming.mono (h : field.Incoming P s) (hsub : ∀ msgs, P msgs → Q msgs) : field.Incoming Q s :=
  ⟨fun msgs hmsgs => hsub msgs (h.lists msgs hmsgs), h.room, fun loop w hw => hsub _ (h.answers loop w hw), h.counts⟩

omit [Primitives] in
/-- The page waits for nothing. -/
theorem Incoming.idle (hlists : ∀ msgs ∈ s.lists, P msgs) (hidle : s.waiting = none) : field.Incoming P s := by
  refine ⟨hlists, ?_, ?_, ?_⟩
  · intro loop phase hwaiting
    rw [hidle] at hwaiting
    cases hwaiting
  · intro loop w hwaiting
    rw [hidle] at hwaiting
    cases hwaiting
  · intro loop w hwaiting
    rw [hidle] at hwaiting
    cases hwaiting

/-- The node adds what has `P` now. -/
theorem Incoming.node (h : field.Incoming P s) (hnow : ∀ o, P (s.node.listMessages o field.room)) (a : WaitStep) :
    field.Incoming P (field.nodeStep s a) := by
  cases hwaiting : s.waiting with
  | none =>
      refine Incoming.idle ?_ ?_
      · simpa [nodeStep, hwaiting] using h.lists
      · simp [nodeStep, hwaiting]
  | some request =>
      rcases request with ⟨loop, phase⟩
      have hroom := h.room loop phase hwaiting
      have hafter : (field.nodeStep s a).waiting =
          some (loop, (loop.step ⟨s.node, s.now, phase, s.unnotified⟩ a).phase) := by
        simp [nodeStep, hwaiting]
      have hanswer : ∀ w, (loop.step ⟨s.node, s.now, phase, s.unnotified⟩ a).phase = .answered w →
          P w.messages ∧ w.count = w.messages.length := by
        intro w hw
        rcases WaitLoop.step_answered hw with hold | ⟨o, _, hmsgs, hcount⟩
        · dsimp only at hold
          rw [hold] at hwaiting
          exact ⟨h.answers loop w hwaiting, h.counts loop w hwaiting⟩
        · rw [hroom] at hmsgs
          exact ⟨hmsgs ▸ hnow o, hcount⟩
      refine ⟨by simpa [nodeStep, hwaiting] using h.lists, ?_, ?_, ?_⟩
      · intro loop' phase' hsome
        rw [hafter] at hsome
        cases hsome
        exact hroom
      · intro loop' w hsome
        rw [hafter] at hsome
        rcases Prod.mk.inj (Option.some.inj hsome) with ⟨_, hw⟩
        exact (hanswer w hw).1
      · intro loop' w hsome
        rw [hafter] at hsome
        rcases Prod.mk.inj (Option.some.inj hsome) with ⟨_, hw⟩
        exact (hanswer w hw).2

theorem Incoming.wait (h : field.Incoming P s) : field.Incoming P (field.step s .wait) := by
  dsimp only [step]
  split
  next loop hidle hloop =>
    have hroom : loop.room = field.room := by
      unfold waitMessages request at hloop
      rw [field.parsed] at hloop
      cases hloop
      rfl
    refine ⟨h.lists, ?_, ?_, ?_⟩
    · intro loop' phase hsome
      cases hsome
      exact hroom
    · intro loop' w hsome
      cases hsome
    · intro loop' w hsome
      cases hsome
  · exact h

theorem Incoming.step (h : field.Incoming P s) (hnow : ∀ o, P (s.node.listMessages o field.room)) (turn : LiveTurn) :
    field.Incoming P (field.step s turn) := by
  cases turn with
  | node a => exact h.node hnow a
  | wait => exact h.wait
  | receive =>
      dsimp only [RoomField.step]
      split
      · exact Incoming.idle h.lists rfl
      · exact h
  | fail => exact Incoming.idle h.lists rfl
  | list o =>
      refine ⟨?_, h.room, h.answers, h.counts⟩
      intro msgs hmsgs
      rcases List.mem_append.1 hmsgs with hold | hnew
      · exact h.lists msgs hold
      · rw [List.mem_singleton.1 hnew]
        exact hnow o
  | arrive k =>
      dsimp only [RoomField.step]
      split
      · exact ⟨fun msgs hmsgs => h.lists msgs (List.mem_of_mem_eraseIdx hmsgs), h.room, h.answers, h.counts⟩
      · exact h
  | lose k => exact ⟨fun msgs hmsgs => h.lists msgs (List.mem_of_mem_eraseIdx hmsgs), h.room, h.answers, h.counts⟩

/-- The page shows what it showed, or what was on its way. -/
theorem Incoming.shown (h : field.Incoming P s) (hshown : P s.view.shown) (turn : LiveTurn) :
    P (field.step s turn).view.shown := by
  cases turn with
  | node a =>
      dsimp only [RoomField.step, nodeStep]
      split
      · exact hshown
      · exact hshown
  | wait =>
      dsimp only [RoomField.step]
      split
      · exact hshown
      · exact hshown
  | receive =>
      dsimp only [RoomField.step]
      split
      next loop w hwaiting =>
        dsimp only [LiveView.answered]
        split
        · exact h.answers loop w hwaiting
        · exact hshown
      · exact hshown
  | arrive k =>
      dsimp only [RoomField.step]
      split
      next msgs hmsgs => exact h.lists msgs (List.mem_of_getElem? hmsgs)
      · exact hshown
  | _ => exact hshown

/-- And has counted it. -/
theorem Incoming.counted (h : field.Incoming P s) (hcount : s.view.sinceCount = s.view.shown.length)
    (turn : LiveTurn) : (field.step s turn).view.sinceCount = (field.step s turn).view.shown.length := by
  cases turn with
  | node a =>
      dsimp only [RoomField.step, nodeStep]
      split
      · exact hcount
      · exact hcount
  | wait =>
      dsimp only [RoomField.step]
      split
      · exact hcount
      · exact hcount
  | receive =>
      dsimp only [RoomField.step]
      split
      next loop w hwaiting =>
        dsimp only [LiveView.answered]
        split
        · rfl
        next hsame =>
          -- the answer has as many messages as the page shows
          have hlen : w.messages.length = s.view.sinceCount := by
            by_contra hne
            exact hsame (Or.inr hne)
          exact (h.counts loop w hwaiting).trans (hlen.trans hcount)
      · exact hcount
  | arrive k =>
      dsimp only [RoomField.step]
      split
      · rfl
      · exact hcount
  | _ => exact hcount

/-! ## What the page shows -/

/-- The node would have answered with the list at some moment of the run. -/
def Listed (field : RoomField) (start : LiveRun) (turns : List LiveTurn) (msgs : List SignedEvent) : Prop :=
  ∃ before rest, turns = before ++ rest ∧ ∃ o, msgs = (field.after start before).node.listMessages o field.room

variable {start : LiveRun} {turns : List LiveTurn}

theorem listed_now (o : IterOrder SignedEvent) :
    field.Listed start turns ((field.after start turns).node.listMessages o field.room) :=
  ⟨turns, [], (List.append_nil turns).symm, o, rfl⟩

theorem Listed.later {msgs : List SignedEvent} (h : field.Listed start turns msgs) (turn : LiveTurn) :
    field.Listed start (turns ++ [turn]) msgs := by
  rcases h with ⟨before, rest, rfl, o, hmsgs⟩
  exact ⟨before, rest ++ [turn], List.append_assoc _ _ _, o, hmsgs⟩

/-- Two lists of one run with equally many messages have the same messages. -/
theorem Listed.perm (hs : start.node.Sound) {msgs msgs' : List SignedEvent} (h : field.Listed start turns msgs)
    (h' : field.Listed start turns msgs') (hlen : msgs.length = msgs'.length) : msgs.Perm msgs' := by
  rcases h with ⟨before, rest, hsplit, o, rfl⟩
  rcases h' with ⟨before', rest', hsplit', o', rfl⟩
  have hlater : ∀ {x y z : List LiveTurn}, x = y ++ z →
      (field.after start y).node.Sound ∧ (field.after start x).node.Sound ∧
        (field.after start y).node.accepted ⊆ (field.after start x).node.accepted := by
    rintro _ y z rfl
    have hy := (field.after_grows y hs).1
    have hrun : field.after start (y ++ z) = field.after (field.after start y) z := Runs.run_append
    rw [hrun]
    exact ⟨hy, field.after_grows z hy⟩
  -- one of the two moments is the earlier one
  rcases List.append_eq_append_iff.1 (hsplit.symm.trans hsplit') with ⟨mid, hmid, _⟩ | ⟨mid, hmid, _⟩
  · rcases hlater hmid with ⟨hold, hnew, hsub⟩
    exact DeviceNode.listMessages_perm hold.log hnew.log hsub hlen
  · rcases hlater hmid with ⟨hold, hnew, hsub⟩
    exact (DeviceNode.listMessages_perm hold.log hnew.log hsub hlen.symm).symm

/-- All that the page shows and is about to get comes from the node, and it has counted right. -/
structure Honest (field : RoomField) (start : LiveRun) (turns : List LiveTurn) : Prop where
  incoming : field.Incoming (field.Listed start turns) (field.after start turns)
  shown : field.Listed start turns (field.after start turns).view.shown
  count : (field.after start turns).view.sinceCount = (field.after start turns).view.shown.length

theorem honest_after (field : RoomField) (node : DeviceNode) (now : Nat) (unnotified : List Bool)
    (o : IterOrder SignedEvent) (turns : List LiveTurn) : field.Honest (field.opened node now unnotified o) turns := by
  induction turns using List.reverseRecOn with
  | nil => exact ⟨Incoming.idle (List.forall_mem_nil _) rfl, listed_now o, rfl⟩
  | append_singleton turns turn ih =>
      have hrun : field.after (field.opened node now unnotified o) (turns ++ [turn]) =
          field.step (field.after (field.opened node now unnotified o) turns) turn := Runs.run_append_singleton
      have hlater : ∀ msgs, field.Listed (field.opened node now unnotified o) turns msgs →
          field.Listed (field.opened node now unnotified o) (turns ++ [turn]) msgs := fun msgs h => h.later turn
      have hincoming := ih.incoming.mono hlater
      refine ⟨?_, ?_, ?_⟩
      · rw [hrun]
        exact hincoming.step (fun o' => hlater _ (listed_now o')) turn
      · rw [hrun]
        exact hincoming.shown (hlater _ ih.shown) turn
      · rw [hrun]
        exact hincoming.counted ih.count turn

/-- The list has these messages. -/
def Has (old : DeviceNode) (field : RoomField) (msgs : List SignedEvent) : Prop :=
  ∀ e ∈ old.accepted, e.roomId = field.room → e.kind = .message → e ∈ msgs

/-- All that is on the way has the messages of an earlier log. -/
structure Ahead (field : RoomField) (old : DeviceNode) (s : LiveRun) : Prop where
  sound : s.node.Sound
  grown : old.accepted ⊆ s.node.accepted
  incoming : field.Incoming (Has old field) s

theorem Ahead.step {old : DeviceNode} (h : field.Ahead old s) (turn : LiveTurn) :
    field.Ahead old (field.step s turn) := by
  rcases field.step_grows h.sound turn with ⟨hsound, hsub⟩
  refine ⟨hsound, fun _ he => hsub (h.grown he), h.incoming.step ?_ turn⟩
  intro o e he hroom hkind
  exact (DeviceNode.mem_listMessages h.sound.log o).2 ⟨h.grown he, hroom, hkind⟩

theorem Ahead.after {old : DeviceNode} (turns : List LiveTurn) : ∀ {s : LiveRun}, field.Ahead old s →
    field.Ahead old (field.after s turns) := by
  intro s h
  exact Runs.run_invariant (fun _ turn h => h.step turn) turns h

/-- What is shown of an earlier log stays. -/
theorem Ahead.stays {old : DeviceNode} (turns : List LiveTurn) {s : LiveRun} (h : field.Ahead old s)
    (hshown : Has old field s.view.shown) : Has old field (field.after s turns).view.shown := by
  have hinv := Runs.run_invariant (J := fun s => field.Ahead old s ∧ Has old field s.view.shown)
    (fun s turn hs => ⟨hs.1.step turn, hs.1.incoming.shown hs.2 turn⟩) turns ⟨h, hshown⟩
  exact hinv.2

/-- The request has at most twelve seconds left. -/
def Timely (s : LiveRun) : Prop :=
  ∀ loop phase, s.waiting = some (loop, phase) → loop.deadline ≤ s.now + 12000

theorem Timely.step (h : Timely s) (turn : LiveTurn) : Timely (field.step s turn) := by
  cases turn with
  | node a =>
      intro loop phase hsome
      dsimp only [RoomField.step, nodeStep] at hsome ⊢
      cases hwaiting : s.waiting with
      | none =>
          rw [hwaiting] at hsome
          cases hsome
      | some request =>
          rw [hwaiting] at hsome
          rcases request with ⟨loop', phase'⟩
          rcases Prod.mk.inj (Option.some.inj hsome) with ⟨rfl, _⟩
          dsimp only
          calc loop'.deadline
              ≤ s.now + 12000 := h _ _ hwaiting
            _ ≤ (loop'.step ⟨s.node, s.now, phase', s.unnotified⟩ a).now + 12000 :=
              Nat.add_le_add_right (WaitLoop.le_step_now (r := ⟨s.node, s.now, phase', s.unnotified⟩) a) 12000
  | wait =>
      dsimp only [RoomField.step]
      split
      next loop hidle hloop =>
        intro loop' phase hsome
        have hdeadline : loop.deadline ≤ s.now + 12000 := by
          unfold waitMessages request at hloop
          rw [field.parsed] at hloop
          cases hloop
          exact Nat.le_refl _
        cases hsome
        exact hdeadline
      · exact h
  | receive =>
      dsimp only [RoomField.step]
      split
      · intro loop phase hno
        cases hno
      · exact h
  | fail =>
      intro loop phase hno
      cases hno
  | arrive k =>
      dsimp only [RoomField.step]
      split
      · exact h
      · exact h
  | list o => exact h
  | lose k => exact h

theorem step_wait {loop : WaitLoop} (hidle : s.waiting = none)
    (hloop : waitMessages (field.request s.view.sinceCount) s.now = .ok loop) :
    field.step s .wait = { s with waiting := some (loop, .looping) } := by
  simp only [RoomField.step, hidle, hloop]

/-- The request goes on in the node, and nothing else happens to it. -/
theorem after_node (steps : List WaitStep) : ∀ {s : LiveRun} {loop : WaitLoop} {phase : WaitPhase},
    s.waiting = some (loop, phase) → (field.after s (steps.map .node)).waiting =
      some (loop, (Runs.run loop.step ⟨s.node, s.now, phase, s.unnotified⟩ steps).phase) := by
  induction steps with
  | nil => exact fun h => h
  | cons a steps ih =>
      intro s loop phase h
      have hnext : field.step s (.node a) =
          { s with
            node := (loop.step ⟨s.node, s.now, phase, s.unnotified⟩ a).node
            now := (loop.step ⟨s.node, s.now, phase, s.unnotified⟩ a).now
            unnotified := (loop.step ⟨s.node, s.now, phase, s.unnotified⟩ a).unnotified
            waiting := some (loop, (loop.step ⟨s.node, s.now, phase, s.unnotified⟩ a).phase) } := by
        simp [RoomField.step, nodeStep, h]
      have hrun : field.after s ((a :: steps).map .node) = field.after (field.step s (.node a)) (steps.map .node) := rfl
      rw [hrun, hnext]
      exact ih rfl

/-- Whatever is committed, notified, answered and lost meanwhile: the page shows what the node had at some moment;
from the first answer to a request that it made after having got all its lists, it shows all messages of the log as
it was before that request; and a request in the node is answered within twelve seconds, also if the loop has slept
through a notification. -/
theorem live_view (field : RoomField) {node : DeviceNode} (hs : node.Sound) (now : Nat) (unnotified : List Bool)
    (o : IterOrder SignedEvent) (turns : List LiveTurn) :
    let start := field.opened node now unnotified o
    field.Listed start turns (field.after start turns).view.shown ∧
      (∀ before mid rest loop w, turns = before ++ (mid ++ .receive :: rest) →
        (field.after start before).waiting = none → (field.after start before).lists = [] →
        (field.after start (before ++ mid)).waiting = some (loop, .answered w) →
        ∀ e ∈ (field.after start before).node.accepted, e.roomId = field.room → e.kind = .message →
          e ∈ (field.after start turns).view.shown) ∧
      ∀ loop phase, (field.after start turns).waiting = some (loop, phase) → ∀ o', ∃ w,
        (field.after start (turns ++ (WaitLoop.timeout 12000 o').map .node)).waiting = some (loop, .answered w) := by
  intro start
  have hhonest := fun turns => field.honest_after node now unnotified o turns
  refine ⟨(hhonest turns).shown, ?_, ?_⟩
  · rintro before mid rest loop w rfl hidle hnone hanswered
    have hsound : (field.after start before).node.Sound := (field.after_grows before hs).1
    have hahead : field.Ahead (field.after start before).node (field.after start before) := by
      refine ⟨hsound, fun _ h => h, Incoming.idle ?_ hidle⟩
      rw [hnone]
      exact List.forall_mem_nil _
    have hmid : field.after start (before ++ mid) = field.after (field.after start before) mid := Runs.run_append
    have hlater : field.Ahead (field.after start before).node (field.after start (before ++ mid)) := by
      rw [hmid]
      exact hahead.after mid
    have hw := hlater.incoming.answers loop w hanswered
    -- the answer has them, and if it changes nothing the page has them already
    have hshown : Has (field.after start before).node field
        (field.step (field.after start (before ++ mid)) .receive).view.shown := by
      have hreceive : (field.step (field.after start (before ++ mid)) .receive).view =
          (field.after start (before ++ mid)).view.answered w := by
        simp [RoomField.step, hanswered]
      rw [hreceive]
      unfold LiveView.answered
      split
      · exact hw
      next hsame =>
        have hlen : w.messages.length = (field.after start (before ++ mid)).view.shown.length := by
          rw [← (hhonest (before ++ mid)).count]
          by_contra hne
          exact hsame (Or.inr hne)
        have hlisted := (hhonest (before ++ mid)).incoming.answers loop w hanswered
        have hperm := hlisted.perm hs (hhonest (before ++ mid)).shown hlen
        intro e he hroom hkind
        exact hperm.mem_iff.1 (hw e he hroom hkind)
    have hrun : field.after start (before ++ (mid ++ .receive :: rest)) =
        field.after (field.step (field.after start (before ++ mid)) .receive) rest := by
      rw [← List.append_assoc]
      exact Runs.run_append
    rw [hrun]
    exact (hlater.step .receive).stays rest hshown
  · intro loop phase hwaiting o'
    have htimely : Timely (field.after start turns) := by
      refine Runs.run_invariant (J := Timely) (fun _ turn h => h.step turn) turns ?_
      intro loop phase hno
      cases hno
    let s := field.after start turns
    rcases WaitLoop.run_timeout (r := ⟨s.node, s.now, phase, s.unnotified⟩) (htimely loop phase hwaiting) o' with
      ⟨w, hw⟩
    refine ⟨w, ?_⟩
    have hrun : field.after start (turns ++ (WaitLoop.timeout 12000 o').map .node) =
        field.after (field.after start turns) ((WaitLoop.timeout 12000 o').map .node) := Runs.run_append
    rw [hrun, after_node _ hwaiting, hw]

end RoomField

end Turns

section Example

open Checksum DeviceNode

attribute [local instance] Checksum.primitives

/-- The page is open on room 1. -/
def firstRoom : RoomField :=
  { roomId := hex32 (room 1).bytes
    room := room 1
    parsed := parseRoomId_hex32 (room 1) }

/-- A message is committed, and the page asks and gets its answer. -/
def helloTurns : List LiveTurn :=
  [.node (.commit hello false), .wait, .node (.snapshot .stored), .receive]

/-- The page when the message is in the log. -/
def committedPage (waiting : Option (WaitLoop × WaitPhase)) : LiveRun :=
  { node := (DeviceNode.new (device 3)).take hello
    now := 0
    unnotified := [true]
    view := .renderMessages []
    waiting := waiting
    lists := [] }

theorem live_view_hello :
    hello ∈ (firstRoom.after (firstRoom.opened (DeviceNode.new (device 3)) 0 [] .stored) helloTurns).view.shown := by
  have hsound : (DeviceNode.new (device 3)).Sound := (Operated.new (device 3) none).sound
  have hview := RoomField.live_view firstRoom hsound 0 [] .stored helloTurns
  have hcommit : (DeviceNode.new (device 3)).commit hello false =
      (.ok true, (DeviceNode.new (device 3)).take hello) :=
    commit_quiet hsound.log takes_hello rfl rfl
  have hcommitted : firstRoom.after (firstRoom.opened (DeviceNode.new (device 3)) 0 [] .stored)
      [.node (.commit hello false)] = committedPage none := by
    dsimp only [RoomField.after, Runs.run, List.foldl_cons, List.foldl_nil, RoomField.step, RoomField.nodeStep,
      RoomField.opened, WaitLoop.step]
    rw [hcommit]
    rfl
  have hloop : waitMessages (firstRoom.request 0) 0 = .ok ⟨firstRoom.request 0, room 1, 12000⟩ := by
    unfold waitMessages RoomField.request
    rw [firstRoom.parsed]
    rfl
  have hwaited : firstRoom.step (committedPage none) .wait =
      committedPage (some (⟨firstRoom.request 0, room 1, 12000⟩, .looping)) :=
    RoomField.step_wait rfl hloop
  have hanswered : (firstRoom.after (firstRoom.opened (DeviceNode.new (device 3)) 0 [] .stored)
      ([.node (.commit hello false)] ++ [.wait, .node (.snapshot .stored)])).waiting =
        some (⟨firstRoom.request 0, room 1, 12000⟩, .answered ⟨hex32 (room 1).bytes, [hello], 1, true, false⟩) := by
    have hrun : firstRoom.after (firstRoom.opened (DeviceNode.new (device 3)) 0 [] .stored)
        ([.node (.commit hello false)] ++ [.wait, .node (.snapshot .stored)]) =
          firstRoom.step (firstRoom.step (firstRoom.after (firstRoom.opened (DeviceNode.new (device 3)) 0 [] .stored)
            [.node (.commit hello false)]) .wait) (.node (.snapshot .stored)) := Runs.run_append
    rw [hrun, hcommitted, hwaited]
    rfl
  refine hview.2.1 [.node (.commit hello false)] [.wait, .node (.snapshot .stored)] [] _ _ rfl ?_ ?_ hanswered hello
    ?_ rfl rfl
  · rw [hcommitted]
    rfl
  · rw [hcommitted]
    rfl
  · rw [hcommitted]
    exact AList.lookup_insert _

end Example

end Node
end Thunderducks
