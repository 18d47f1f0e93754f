import Thunderducks.Lib.Broadcast
import Thunderducks.Node.Waiting

/-!
# Stream — the event stream of a room (`stream_messages` in `td-node/src/rpc.rs`)

The stream subscribes before its first snapshot and takes another one whenever the broadcast channel
names its room.  It compares the name with the text of its own request, and not every handler that
brings messages broadcasts: `sync_peer` notifies nobody.  `upToDate_run` says along which runs the
stream has seen every message once it has received all that was sent.
-/

namespace Thunderducks
namespace Node

open Lib Event Crypto

/-! ## Messages that a commit brings -/

namespace DeviceNode

section Brought

variable [Primitives] {node : DeviceNode} {room : RoomId} {ev : SignedEvent}

/-- Taking the event brings the log messages of the room: the event itself, or what it releases from the
inbox. -/
def BringsMessage (node : DeviceNode) (room : RoomId) (ev : SignedEvent) : Prop :=
  node.Takes ev ∧ ∃ x, (x = ev ∨ node.Released ev x) ∧ x.roomId = room ∧ x.kind = .message

omit [Primitives] in
/-- Logs with the same messages of the room count the same. -/
theorem messageCount_congr {node' : DeviceNode} (h : node.LogCoherent) (h' : node'.LogCoherent)
    (hsame : ∀ e, e.roomId = room → e.kind = .message → (e ∈ node'.accepted ↔ e ∈ node.accepted)) :
    node'.messageCount room = node.messageCount room := by
  unfold messageCount
  apply List.Perm.length_eq
  refine (List.perm_ext_iff_of_nodup ((values_nodup h').filter _) ((values_nodup h).filter _)).2 ?_
  intro e
  rw [List.mem_filter, List.mem_filter, h'.mem_values, h.mem_values, decide_eq_true_iff]
  constructor
  · rintro ⟨he, hroom, hkind⟩
    exact ⟨(hsame e hroom hkind).1 he, hroom, hkind⟩
  · rintro ⟨he, hroom, hkind⟩
    exact ⟨(hsame e hroom hkind).2 he, hroom, hkind⟩

theorem messageCount_commit (hs : node.Sound) (hno : ¬ node.BringsMessage room ev) (toOutbox : Bool) :
    (node.commit ev toOutbox).2.messageCount room = node.messageCount room := by
  have hs' : (node.commit ev toOutbox).2.Sound := hs.commit ev toOutbox
  refine messageCount_congr hs.log hs'.log ?_
  intro e hroom hkind
  rcases commit_log hs ev toOutbox with ⟨_, hsame⟩ | ⟨htakes, hadv⟩
  · change _ = _ ↔ _ = _
    rw [hsame]
  · constructor
    · intro he
      rcases hadv.fresh he with hold | hnew
      · exact hold
      · exact absurd ⟨htakes, e, hnew, hroom, hkind⟩ hno
    · exact fun he => hadv.keeps he

theorem commitRemoteAll_singleton (node : DeviceNode) (ev : SignedEvent) :
    (node.commitRemoteAll [ev]).2 = (node.commit ev false).2 :=
  rfl

/-- An event that is taken, and with it all that it releases, is answered with `true`. -/
theorem commit_takes_true (hs : node.Sound) (ht : node.Takes ev)
    (hstay : (node.take ev).DrainStaysInRoom) (hwritten : node.ReleaseWritten ev) (toOutbox : Bool) :
    (node.commit ev toOutbox).1 = .ok true := by
  rcases (commit_takes_ok_iff hs ht toOutbox).2 ⟨hstay, hwritten⟩ with ⟨b, hb⟩
  have hout := commit_outcome hs ht.1 toOutbox
  generalize node.commit ev toOutbox = out at hb hout ⊢
  rcases out with ⟨res, node'⟩
  dsimp only at hb hout ⊢
  cases hout with
  | known hmem => exact absurd hmem ht.2.1
  | waits _ hwait =>
      rw [parentsOk_iff.2 ht.2.2.1] at hwait
      cases hwait
  | refused => cases hb
  | unwritten => cases hb
  | drained => rfl
  | broken => cases hb

end Brought

end DeviceNode

/-! ## The stream -/

structure StreamQuery where
  roomId : String

/-- An event that the stream sends. -/
structure StreamEvent where
  event : String
  roomId : String
  messages : List SignedEvent
  count : Nat
  changed : Bool
  lagged : Bool

/-- What the stream knows from before its first snapshot. -/
structure MessageStream where
  roomHex : String
  room : RoomId

/-- `stream_messages` up to its subscription. -/
def streamMessages (q : StreamQuery) : Except RoomIdError MessageStream :=
  match parseRoomId q.roomId with
  | .error e => .error e
  | .ok room => .ok { roomHex := q.roomId, room := room }

/-- Where the stream stands. -/
inductive StreamPhase
  /-- Before the first snapshot. -/
  | subscribed
  /-- In `recv`. -/
  | receiving (lastCount : Nat)
  /-- The room was named. -/
  | changed (lastCount : Nat)
  | lagged

/-- The room changes that the channel keeps for a receiver that is behind. -/
def broadcastCapacity : Nat := 256

section Steps

variable [Olm]

/-- The session, the stream and its end of the channel, and the handlers that are yet to notify: for each
of them the room. -/
structure StreamRun where
  session : NodeSession
  /-- A `RoomChange`; the count in it is a hint that the stream does not read. -/
  rx : Receiver String
  phase : StreamPhase
  unnotified : List RoomId
  sent : List StreamEvent

/-- The node when the stream has subscribed, with handlers under way. -/
def StreamRun.start (session : NodeSession) (unnotified : List RoomId) : StreamRun :=
  { session := session
    rx := Receiver.new
    phase := .subscribed
    unnotified := unnotified
    sent := [] }

inductive StreamStep [Primitives]
  | sendMessage (sk : Primitives.SigningKey) (roomId : RoomId) (text freshId : String) (ts : UInt64)
  | syncIngest (events : List SignedEvent)
  /-- `sync_peer` takes in what the peer offered. -/
  | syncPeer (missing : List SignedEvent)
  /-- The P2P listener reads an event, or a relay poll opens one. -/
  | arrive (ev : SignedEvent)
  /-- Any other handler commits, and notifies nobody. -/
  | commit (ev : SignedEvent) (toOutbox : Bool)
  /-- Any handler that leaves the log alone. -/
  | other (session : NodeSession)
  /-- The `k`th of the handlers that are yet to notify does. -/
  | notify (k : Nat)
  | snapshot (o : IterOrder SignedEvent)
  | recv

namespace MessageStream

variable [Primitives] [Deserialize CreateRoomPayload] [Deserialize MembershipPayload]

/-- The stream takes its snapshot. -/
def resnapshot (stream : MessageStream) (o : IterOrder SignedEvent) (s : StreamRun) : StreamRun :=
  let (count, messages) := snapshotMessages o s.session.node stream.room
  match s.phase with
  | .subscribed =>
      { s with
        phase := .receiving count
        sent := s.sent ++ [⟨"snapshot", stream.roomHex, messages, count, false, false⟩] }
  | .receiving _ => s
  | .changed lastCount =>
      if count = lastCount then
        { s with phase := .receiving lastCount }
      else
        { s with
          phase := .receiving count
          sent := s.sent ++ [⟨"messages", stream.roomHex, messages, count, true, false⟩] }
  | .lagged =>
      { s with
        phase := .receiving count
        sent := s.sent ++ [⟨"messages", stream.roomHex, messages, count, true, true⟩] }

/-- `rx.recv().await`.  The channel is never closed: the node holds its sender. -/
def receive (stream : MessageStream) (s : StreamRun) : StreamRun :=
  match s.phase with
  | .receiving lastCount =>
      match s.rx.recv with
      | none => s
      | some (.value roomHex, rx) =>
          if roomHex ≠ stream.roomHex then
            { s with rx := rx }
          else
            { s with rx := rx, phase := .changed lastCount }
      | some (.lagged _, rx) => { s with rx := rx, phase := .lagged }
  | _ => s

variable (b64 : Encoded MegolmMessage → String)

def step (stream : MessageStream) (s : StreamRun) : StreamStep → StreamRun
  | .sendMessage sk roomId text freshId ts =>
      match s.session.sendMessage b64 sk roomId text freshId ts with
      | (.ok _, session) =>
          { s with session := session, unnotified := s.unnotified ++ [roomId] }
      | (.error _, session) => { s with session := session }
  | .syncIngest events =>
      let (report, session) := s.session.syncIngest events ⟨0, [], []⟩
      { s with session := session, unnotified := s.unnotified ++ report.touched.dedup }
  | .syncPeer missing => { s with session := (s.session.pullMissing missing 0).2 }
  | .arrive ev =>
      match s.session.ingestRemote ev with
      | (.ok true, session) =>
          { s with session := session, unnotified := s.unnotified ++ [ev.roomId] }
      | (.ok false, session) => { s with session := session }
      | (.error _, session) => { s with session := session }
  | .commit ev toOutbox =>
      { s with session := { s.session with node := (s.session.node.commit ev toOutbox).2 } }
  | .other session => { s with session := { session with node := s.session.node } }
  | .notify k =>
      if h : k < s.unnotified.length then
        { s with
          rx := s.rx.send broadcastCapacity (hex32 (s.unnotified.get ⟨k, h⟩).bytes)
          unnotified := s.unnotified.eraseIdx k }
      else
        s
  | .snapshot o => stream.resnapshot o s
  | .recv => stream.receive s

/-! ## Messages that the stream has not seen -/

/-- The stream will take another snapshot: it is about to, or its room is named in what it has yet to
receive or in what a handler has yet to send. -/
def Pending (stream : MessageStream) (s : StreamRun) : Prop :=
  (∀ n, s.phase ≠ .receiving n) ∨ s.rx.Unseen stream.roomHex ∨
    (stream.roomHex = hex32 stream.room.bytes ∧ stream.room ∈ s.unnotified)

/-- The stream has seen every message of its room, or will take another snapshot. -/
def Current (stream : MessageStream) (s : StreamRun) : Prop :=
  stream.Pending s ∨ s.phase = .receiving (s.session.node.messageCount stream.room)

/-- If the handlers that changed the room have notified and the stream has received all that was sent, it
has seen every message that the node lists. -/
def UpToDate (stream : MessageStream) (s : StreamRun) : Prop :=
  ∀ lastCount, s.phase = .receiving lastCount → stream.room ∉ s.unnotified → s.rx.Drained →
    ∀ o, lastCount = (s.session.node.listMessages o stream.room).length

/-- If the event brings messages of the room, its commit ends in a broadcast that the stream knows as its
own: the request spells the room in lower case, the event is of the room, and it and all that it releases
from the inbox are written and stay in their rooms. -/
def Announced (stream : MessageStream) (node : DeviceNode) (ev : SignedEvent) : Prop :=
  node.BringsMessage stream.room ev →
    stream.roomHex = hex32 stream.room.bytes ∧ ev.roomId = stream.room ∧
      (node.take ev).DrainStaysInRoom ∧ node.ReleaseWritten ev

/-- The event brings no message of the room. -/
def Silent (stream : MessageStream) (node : DeviceNode) (ev : SignedEvent) : Prop :=
  ¬ node.BringsMessage stream.room ev

/-- The log when an event of a batch has been ingested. -/
def ingested (node : DeviceNode) (ev : SignedEvent) : DeviceNode :=
  (node.commitRemote ev).2

/-- A step that brings messages of the room is followed by a broadcast for it, unless the stream will take
another snapshot anyway. -/
def Reported (stream : MessageStream) (s : StreamRun) (a : StreamStep) : Prop :=
  ¬ stream.Pending s →
    match a with
    | .sendMessage sk roomId text freshId ts =>
        ∀ ev, SessionCall.Brings b64 sk s.session (.sendMessage roomId text freshId ts) ev →
          stream.Announced s.session.node ev
    | .syncIngest events => Runs.Along ingested stream.Announced s.session.node events
    | .syncPeer missing => Runs.Along ingested stream.Silent s.session.node missing
    | .arrive ev => stream.Announced s.session.node ev
    | .commit ev _ => stream.Silent s.session.node ev
    | .other _ => True
    | .notify _ => True
    | .snapshot _ => True
    | .recv => True

end MessageStream

/-! ## What the handlers report -/

section Reports

variable [Primitives] [Deserialize CreateRoomPayload] [Deserialize MembershipPayload]
variable {stream : MessageStream}

namespace NodeSession

variable {s : NodeSession}

omit [Olm] [Deserialize CreateRoomPayload] [Deserialize MembershipPayload] in
/-- A commit of an announced event changes nothing in the room, or is answered with `true`. -/
theorem commit_announced {node : DeviceNode} {ev : SignedEvent} (hs : node.Sound)
    (hann : stream.Announced node ev) (toOutbox : Bool) :
    (node.commit ev toOutbox).2.messageCount stream.room = node.messageCount stream.room ∨
      (stream.roomHex = hex32 stream.room.bytes ∧ ev.roomId = stream.room ∧
        (node.commit ev toOutbox).1 = .ok true) := by
  by_cases hbrings : node.BringsMessage stream.room ev
  · rcases hann hbrings with ⟨htext, hroom, hstay, hwritten⟩
    exact Or.inr ⟨htext, hroom, DeviceNode.commit_takes_true hs hbrings.1 hstay hwritten toOutbox⟩
  · exact Or.inl (DeviceNode.messageCount_commit hs hbrings toOutbox)

/-- A message that the log takes is answered with its event. -/
theorem sendMessage_answer {b64 : Encoded MegolmMessage → String} {sk : Primitives.SigningKey}
    {roomId : RoomId} {text freshId : String} {ts : UInt64} {ev : SignedEvent} {b : Bool}
    (hbrings : SessionCall.Brings b64 sk s (.sendMessage roomId text freshId ts) ev)
    (hok : (s.node.commitLocal ev).1 = .ok b) :
    (s.sendMessage b64 sk roomId text freshId ts).1 = .ok ev := by
  rcases hbrings with ⟨hgate, ct, hct, hsign⟩
  have hinRoom : (s.sendInRoom b64 sk roomId text freshId ts).1 = .ok ev := by
    unfold sendInRoom
    dsimp only
    rw [hct]
    dsimp only
    rw [hsign]
    dsimp only
    generalize s.node.commitLocal ev = out at hok ⊢
    rcases out with ⟨res, node⟩
    cases hok
    rfl
  unfold sendMessage
  cases hcan : s.rooms.assertCanMessage roomId s.deviceId with
  | ok u => exact hinRoom
  | error e =>
      dsimp only
      rw [if_neg]
      · exact hinRoom
      · intro hempty
        exact hgate ⟨by simp [hcan], hempty⟩

/-- A message that is sent is reported, unless the room counts as many messages as before. -/
theorem sendMessage_reported (b64 : Encoded MegolmMessage → String) {sk : Primitives.SigningKey}
    {roomId : RoomId} {text freshId : String} {ts : UInt64} (hs : s.node.Sound)
    (hann : ∀ ev, SessionCall.Brings b64 sk s (.sendMessage roomId text freshId ts) ev →
      stream.Announced s.node ev) :
    (s.sendMessage b64 sk roomId text freshId ts).2.node.messageCount stream.room =
        s.node.messageCount stream.room ∨
      (stream.roomHex = hex32 stream.room.bytes ∧ roomId = stream.room ∧
        ∃ ev, (s.sendMessage b64 sk roomId text freshId ts).1 = .ok ev) := by
  rcases @SessionCall.sendMessage_cases _ _ _ _ b64 sk s roomId text freshId ts with
    ⟨_, hnode⟩ | ⟨ev, hbrings, _, hroom, _, _, hnode⟩
  · rw [hnode]
    exact Or.inl rfl
  · rw [hnode]
    rcases commit_announced hs (hann ev hbrings) true with hsame | ⟨htext, hstream, htrue⟩
    · exact Or.inl hsame
    · exact Or.inr ⟨htext, hroom.symm.trans hstream, ev, sendMessage_answer hbrings htrue⟩

/-- The rooms a batch has touched stay touched. -/
theorem touched_syncIngest (events : List SignedEvent) : ∀ (s : NodeSession) (report : IngestReport)
    {room : RoomId}, room ∈ report.touched → room ∈ (s.syncIngest events report).1.touched := by
  induction events with
  | nil => exact fun _ _ _ h => h
  | cons ev events ih =>
      intro s report room h
      rw [syncIngest]
      rcases s.ingestRemote ev with ⟨res, s'⟩
      rcases res with e | b
      · exact ih s' _ h
      · cases b with
        | false => exact ih s' _ h
        | true => exact ih s' _ (List.mem_cons_of_mem _ h)

/-- A batch reports the room, unless the room counts as many messages as before. -/
theorem syncIngest_reported (events : List SignedEvent) :
    ∀ {s : NodeSession} (report : IngestReport), s.node.Sound →
      Runs.Along MessageStream.ingested stream.Announced s.node events →
      (s.syncIngest events report).2.node.messageCount stream.room = s.node.messageCount stream.room ∨
        (stream.roomHex = hex32 stream.room.bytes ∧
          stream.room ∈ (s.syncIngest events report).1.touched) := by
  induction events with
  | nil => exact fun _ _ _ => Or.inl rfl
  | cons ev events ih =>
      intro s report hs halong
      have hnode : (s.ingestRemote ev).2.node = (s.node.commit ev false).2 :=
        SessionCall.ingestRemote_node s ev
      have hs' : (s.ingestRemote ev).2.node.Sound := hnode ▸ hs.commit ev false
      have hrest : Runs.Along MessageStream.ingested stream.Announced (s.ingestRemote ev).2.node events :=
        hnode ▸ halong.2
      have hfirst := commit_announced hs halong.1 false
      rw [← hnode, ← (SessionCall.ingestRemote_commit s ev).1] at hfirst
      -- what the first event changed is touched, and stays so
      rw [syncIngest]
      generalize s.ingestRemote ev = out at hs' hrest hfirst ⊢
      rcases out with ⟨res, s'⟩
      dsimp only at hs' hrest hfirst
      have hlater : ∀ report', (res = .ok true → ev.roomId ∈ report'.touched) →
          (s'.syncIngest events report').2.node.messageCount stream.room =
              s.node.messageCount stream.room ∨
            (stream.roomHex = hex32 stream.room.bytes ∧
              stream.room ∈ (s'.syncIngest events report').1.touched) := by
        intro report' htouched
        rcases hfirst with hsame | ⟨htext, hroom, htrue⟩
        · rw [← hsame]
          exact ih report' hs' hrest
        · refine Or.inr ⟨htext, touched_syncIngest events s' report' ?_⟩
          rw [← hroom]
          exact htouched htrue
      rcases res with e | b
      · exact hlater _ (fun h => by cases h)
      · cases b with
        | false => exact hlater _ (fun h => by cases h)
        | true => exact hlater _ (fun _ => List.mem_cons_self)

/-- What `sync_peer` takes in silently leaves the room as it was. -/
theorem pullMissing_silent (missing : List SignedEvent) (s : NodeSession) (n : Nat)
    (hs : s.node.Sound) (halong : Runs.Along MessageStream.ingested stream.Silent s.node missing) :
    (s.pullMissing missing n).2.node.messageCount stream.room = s.node.messageCount stream.room := by
  rw [pullMissing_node]
  generalize s.node = node at hs halong ⊢
  induction missing generalizing node with
  | nil => rfl
  | cons ev missing ih =>
      have hone : (node.commit ev false).2.messageCount stream.room = node.messageCount stream.room :=
        DeviceNode.messageCount_commit hs halong.1 false
      have hall := ih (node.commit ev false).2 (hs.commit ev false) halong.2
      exact hall.trans hone

end NodeSession

/-! ## Runs -/

namespace MessageStream

variable {b64 : Encoded MegolmMessage → String} {s s' : StreamRun}

omit [Primitives] [Deserialize CreateRoomPayload] [Deserialize MembershipPayload] in
/-- A handler that reports what it brought, or brings nothing, leaves the stream current. -/
theorem Current.entered (h : stream.Current s) (hphase : s'.phase = s.phase) (hrx : s'.rx = s.rx)
    (hsub : s.unnotified ⊆ s'.unnotified)
    (hchange : ¬ stream.Pending s →
      s'.session.node.messageCount stream.room = s.session.node.messageCount stream.room ∨
        (stream.roomHex = hex32 stream.room.bytes ∧ stream.room ∈ s'.unnotified)) :
    stream.Current s' := by
  have hpending : stream.Pending s → stream.Pending s' := by
    rintro (hno | hunseen | ⟨htext, hmem⟩)
    · refine Or.inl fun n hn => hno n ?_
      rw [← hphase]
      exact hn
    · exact Or.inr (Or.inl (hrx ▸ hunseen))
    · exact Or.inr (Or.inr ⟨htext, hsub hmem⟩)
  by_cases hp : stream.Pending s
  · exact Or.inl (hpending hp)
  · rcases hchange hp with hsame | hreported
    · refine h.imp hpending fun hcurrent => ?_
      rw [hphase, hsame]
      exact hcurrent
    · exact Or.inl (Or.inr (Or.inr hreported))

omit [Primitives] [Deserialize CreateRoomPayload] [Deserialize MembershipPayload] in
/-- A snapshot has seen every message. -/
theorem current_resnapshot (h : stream.Current s) (o : IterOrder SignedEvent) :
    stream.Current (stream.resnapshot o s) := by
  have hcount : (snapshotMessages o s.session.node stream.room).1 =
      s.session.node.messageCount stream.room :=
    DeviceNode.length_listMessages o s.session.node stream.room
  unfold resnapshot
  rcases hsnap : snapshotMessages o s.session.node stream.room with ⟨count, messages⟩
  rw [hsnap] at hcount
  dsimp only at hcount ⊢
  subst hcount
  cases hphase : s.phase with
  | subscribed => exact Or.inr rfl
  | receiving n => exact h
  | changed n =>
      dsimp only
      split
      next heq => exact Or.inr (congrArg StreamPhase.receiving heq.symm)
      next => exact Or.inr rfl
  | lagged => exact Or.inr rfl

omit [Primitives] [Deserialize CreateRoomPayload] [Deserialize MembershipPayload] in
/-- What is received is another room's name, or leads to a snapshot. -/
theorem Current.receive (h : stream.Current s) : stream.Current (stream.receive s) := by
  unfold MessageStream.receive
  cases hphase : s.phase with
  | subscribed => exact h
  | changed n => exact h
  | lagged => exact h
  | receiving n =>
      dsimp only
      rcases hrecv : s.rx.recv with _ | ⟨got, rx⟩
      · exact h
      · cases got with
        | lagged k => exact Or.inl (Or.inl (by simp))
        | value roomHex =>
            dsimp only
            split
            next hother =>
              rcases h with (hno | hunseen | hmem) | hcurrent
              · exact absurd hphase (hno n)
              · rcases Receiver.unseen_recv hunseen hrecv with heq | hunseen'
                · exact absurd heq hother
                · exact Or.inl (Or.inr (Or.inl hunseen'))
              · exact Or.inl (Or.inr (Or.inr hmem))
              · rw [← hphase]
                exact Or.inr hcurrent
            next => exact Or.inl (Or.inl (by simp))

omit [Primitives] [Deserialize CreateRoomPayload] [Deserialize MembershipPayload] in
/-- A notification leaves the handlers' list and enters the channel. -/
theorem Current.notified (h : stream.Current s) {k : Nat} (hk : k < s.unnotified.length) :
    stream.Current { s with
      rx := s.rx.send broadcastCapacity (hex32 (s.unnotified.get ⟨k, hk⟩).bytes)
      unnotified := s.unnotified.eraseIdx k } := by
  rcases h with (hno | hunseen | ⟨htext, hmem⟩) | hcurrent
  · exact Or.inl (Or.inl hno)
  · exact Or.inl (Or.inr (Or.inl (Receiver.unseen_send hunseen _ _)))
  · have hperm := List.getElem_cons_eraseIdx_perm hk
    rcases List.mem_cons.1 (hperm.mem_iff.2 hmem) with heq | hrest
    · refine Or.inl (Or.inr (Or.inl ?_))
      rw [htext, heq]
      exact Receiver.send_unseen _ _ _
    · exact Or.inl (Or.inr (Or.inr ⟨htext, hrest⟩))
  · exact Or.inr hcurrent

/-- The invariant of a run. -/
def Steady (stream : MessageStream) (s : StreamRun) : Prop :=
  s.session.node.Sound ∧ stream.Current s

/-- The log stays sound, whoever acts. -/
theorem sound_step (hs : s.session.node.Sound) (a : StreamStep) :
    (stream.step b64 s a).session.node.Sound := by
  cases a with
  | sendMessage sk roomId text freshId ts =>
      have hsent : (s.session.sendMessage b64 sk roomId text freshId ts).2.node.Sound := by
        rcases @SessionCall.sendMessage_cases _ _ _ _ b64 sk s.session roomId text freshId ts with
          ⟨_, hnode⟩ | ⟨ev, _, _, _, _, _, hnode⟩
        · rw [hnode]
          exact hs
        · rw [hnode]
          exact hs.commit ev true
      unfold MessageStream.step
      dsimp only
      generalize s.session.sendMessage b64 sk roomId text freshId ts = out at hsent ⊢
      rcases out with ⟨res, session⟩
      cases res <;> exact hsent
  | syncIngest events =>
      change (s.session.syncIngest events ⟨0, [], []⟩).2.node.Sound
      rw [NodeSession.syncIngest_node]
      exact DeviceNode.sound_commitRemoteAll events hs
  | syncPeer missing =>
      change (s.session.pullMissing missing 0).2.node.Sound
      rw [NodeSession.pullMissing_node]
      exact DeviceNode.sound_commitRemoteAll missing hs
  -- the answer tells which error or duplicate it was, the log is that of the commit
  | arrive ev =>
      have hingested : (s.session.ingestRemote ev).2.node.Sound := by
        rw [SessionCall.ingestRemote_node]
        exact hs.commit ev false
      unfold MessageStream.step
      dsimp only
      generalize s.session.ingestRemote ev = out at hingested ⊢
      rcases out with ⟨res, session⟩
      rcases res with e | b
      · exact hingested
      · cases b <;> exact hingested
  | commit ev toOutbox => exact hs.commit ev toOutbox
  | other session => exact hs
  | notify k =>
      unfold MessageStream.step
      dsimp only
      split <;> exact hs
  | snapshot o =>
      change (stream.resnapshot o s).session.node.Sound
      unfold resnapshot
      dsimp only
      split
      · exact hs
      · exact hs
      · split <;> exact hs
      · exact hs
  | recv =>
      change (stream.receive s).session.node.Sound
      unfold MessageStream.receive
      split
      · split
        · exact hs
        · split <;> exact hs
        · exact hs
      · exact hs

theorem Steady.step (h : stream.Steady s) (a : StreamStep) (hrep : stream.Reported b64 s a) :
    stream.Steady (stream.step b64 s a) := by
  rcases h with ⟨hs, hcur⟩
  refine ⟨sound_step hs a, ?_⟩
  cases a with
  | sendMessage sk roomId text freshId ts =>
      have hreported := fun hp => NodeSession.sendMessage_reported b64 hs (hrep hp)
      unfold MessageStream.step
      dsimp only
      generalize s.session.sendMessage b64 sk roomId text freshId ts = out at hreported ⊢
      rcases out with ⟨res, session⟩
      cases res with
      | error e =>
          refine hcur.entered rfl rfl (List.Subset.refl _) fun hp => ?_
          rcases hreported hp with hsame | ⟨_, _, _, hok⟩
          · exact Or.inl hsame
          · cases hok
      | ok ev =>
          refine hcur.entered rfl rfl (List.subset_append_left _ _) fun hp => ?_
          rcases hreported hp with hsame | ⟨htext, hroom, _⟩
          · exact Or.inl hsame
          · exact Or.inr ⟨htext, List.mem_append_right _ (List.mem_singleton.2 hroom.symm)⟩
  | syncIngest events =>
      refine hcur.entered rfl rfl (List.subset_append_left _ _) fun hp => ?_
      rcases NodeSession.syncIngest_reported events ⟨0, [], []⟩ hs (hrep hp) with hsame | ⟨htext, hmem⟩
      · exact Or.inl hsame
      · exact Or.inr ⟨htext, List.mem_append_right _ (List.mem_dedup.2 hmem)⟩
  -- nothing is announced, so nothing may have been added
  | syncPeer missing =>
      refine hcur.entered rfl rfl (List.Subset.refl _) fun hp => ?_
      exact Or.inl (NodeSession.pullMissing_silent missing s.session 0 hs (hrep hp))
  | arrive ev =>
      have hreported := fun hp => NodeSession.commit_announced hs (hrep hp) false
      rw [← SessionCall.ingestRemote_node, ← (SessionCall.ingestRemote_commit s.session ev).1] at hreported
      unfold MessageStream.step
      dsimp only
      generalize s.session.ingestRemote ev = out at hreported ⊢
      rcases out with ⟨res, session⟩
      dsimp only at hreported
      -- only an event that was taken is announced
      have hquiet : res ≠ .ok true → ¬ stream.Pending s →
          session.node.messageCount stream.room = s.session.node.messageCount stream.room := by
        intro hne hp
        rcases hreported hp with hsame | ⟨_, _, htrue⟩
        · exact hsame
        · exact absurd htrue hne
      rcases res with e | b
      · exact hcur.entered rfl rfl (List.Subset.refl _) fun hp => Or.inl (hquiet (by simp) hp)
      · cases b with
        | false => exact hcur.entered rfl rfl (List.Subset.refl _) fun hp => Or.inl (hquiet (by simp) hp)
        | true =>
            refine hcur.entered rfl rfl (List.subset_append_left _ _) fun hp => ?_
            rcases hreported hp with hsame | ⟨htext, hroom, _⟩
            · exact Or.inl hsame
            · exact Or.inr ⟨htext, List.mem_append_right _ (List.mem_singleton.2 hroom.symm)⟩
  | commit ev toOutbox =>
      refine hcur.entered rfl rfl (List.Subset.refl _) fun hp => ?_
      exact Or.inl (DeviceNode.messageCount_commit hs (hrep hp) toOutbox)
  | other session => exact hcur.entered rfl rfl (List.Subset.refl _) fun _ => Or.inl rfl
  | notify k =>
      unfold MessageStream.step
      dsimp only
      split
      next hk => exact hcur.notified hk
      next => exact hcur
  | snapshot o => exact current_resnapshot hcur o
  | recv => exact hcur.receive

omit [Deserialize CreateRoomPayload] [Deserialize MembershipPayload] in
theorem Steady.upToDate (h : stream.Steady s) : stream.UpToDate s := by
  intro lastCount hphase hnone hdrained o
  rw [DeviceNode.length_listMessages]
  rcases h.2 with (hno | hunseen | ⟨_, hmem⟩) | hcurrent
  · exact absurd hphase (hno lastCount)
  · exact absurd hunseen (hdrained.not_unseen _)
  · exact absurd hmem hnone
  · rw [hphase] at hcurrent
    exact StreamPhase.receiving.inj hcurrent

/-- A pull after the first snapshot leaves the stream up to date only if it brings the room nothing. -/
theorem count_of_upToDate_pull {session : NodeSession} {o : IterOrder SignedEvent}
    {missing : List SignedEvent}
    (h : stream.UpToDate
      (Runs.run (stream.step b64) (StreamRun.start session []) [.snapshot o, .syncPeer missing])) :
    (session.pullMissing missing 0).2.node.messageCount stream.room =
      session.node.messageCount stream.room := by
  have hlast := h (snapshotMessages o session.node stream.room).1 rfl List.not_mem_nil ⟨rfl, rfl⟩ o
  rw [DeviceNode.length_listMessages] at hlast
  have hfirst : (snapshotMessages o session.node stream.room).1 = session.node.messageCount stream.room :=
    DeviceNode.length_listMessages o session.node stream.room
  rw [← hfirst, hlast]
  rfl

/-- In every run whose steps report the messages they bring, the stream is up to date in every state. -/
theorem upToDate_run (stream : MessageStream) {session : NodeSession} (hs : session.node.Sound)
    (unnotified : List RoomId) (steps : List StreamStep)
    (hrep : Runs.Along (stream.step b64) (stream.Reported b64) (StreamRun.start session unnotified) steps) :
    Runs.Always (stream.step b64) stream.UpToDate (StreamRun.start session unnotified) steps :=
  Runs.always_of_invariant (J := stream.Steady) (fun _ a h hok => h.step a hok) (fun _ h => h.upToDate)
    steps ⟨hs, Or.inl (Or.inl fun n hn => by cases hn)⟩ hrep

end MessageStream

end Reports

end Steps

/-! ## A message that a peer had -/

section Example

open Checksum DeviceNode

attribute [local instance] Checksum.primitives syncBook syncCreates syncMemberships

/-- The stream of room 1. -/
def roomOneStream : MessageStream :=
  { roomHex := roomHexOne
    room := room 1 }

theorem streamMessages_roomOne : streamMessages ⟨roomHexOne⟩ = .ok roomOneStream := by
  unfold streamMessages
  have hparse : parseRoomId roomHexOne = .ok (room 1) := parseRoomId_hex32 (room 1)
  rw [hparse]
  rfl

theorem upToDate_run_hello :
    Runs.Always (roomOneStream.step noText) roomOneStream.UpToDate
      (StreamRun.start (relaySession [] 3) [])
      [.snapshot .stored, .arrive hello, .notify 0, .recv, .snapshot .stored] := by
  have hsnapshot : ∀ s o, roomOneStream.Reported noText s (.snapshot o) := fun _ _ _ => trivial
  have hnotify : ∀ s k, roomOneStream.Reported noText s (.notify k) := fun _ _ _ => trivial
  have hrecv : ∀ s, roomOneStream.Reported noText s .recv := fun _ _ => trivial
  have hroom : hello.roomId = room 1 := rfl
  have harrive : ∀ s : StreamRun, s.session = relaySession [] 3 →
      roomOneStream.Reported noText s (.arrive hello) := by
    intro s hs _ _
    rw [hs]
    refine ⟨rfl, hroom, ?_, ?_⟩
    · intro x hx
      cases hx
    · intro l _ _ store hstore
      cases hstore
  exact MessageStream.upToDate_run roomOneStream (Operated.new (device 3) none).sound [] _
    ⟨hsnapshot _ _, harrive _ rfl, hnotify _ _, hrecv _, hsnapshot _ _, trivial⟩

/-- The stream has seen no message; `sync_peer` takes one in; nothing is sent. -/
theorem syncPeer_unseen :
    ¬ ∀ (q : StreamQuery) (stream : MessageStream) (session : NodeSession) (steps : List StreamStep),
      streamMessages q = .ok stream → session.node.Sound →
        Runs.Always (stream.step noText) stream.UpToDate (StreamRun.start session []) steps := by
  intro h
  have hall := h ⟨roomHexOne⟩ roomOneStream (relaySession [] 3) [.snapshot .stored, .syncPeer [hello]]
    streamMessages_roomOne (Operated.new (device 3) none).sound
  have hfinal : roomOneStream.UpToDate (Runs.run (roomOneStream.step noText)
      (StreamRun.start (relaySession [] 3) []) [.snapshot .stored, .syncPeer [hello]]) :=
    Runs.Always.final _ hall
  have hsame := MessageStream.count_of_upToDate_pull hfinal
  have hcommit : (DeviceNode.new (device 3)).commit hello false =
      (.ok true, (DeviceNode.new (device 3)).take hello) :=
    commit_quiet (Operated.new (device 3) none).sound.log takes_hello rfl rfl
  have hfresh : (relaySession [] 3).node = DeviceNode.new (device 3) := rfl
  have hroom : roomOneStream.room = room 1 := rfl
  have hone : ((DeviceNode.new (device 3)).take hello).messageCount (room 1) = 1 := rfl
  have hzero : (DeviceNode.new (device 3)).messageCount (room 1) = 0 := rfl
  rw [NodeSession.pullMissing_node, commitRemoteAll_singleton, hfresh, hcommit, hroom, hone, hzero] at hsame
  exact one_ne_zero hsame

end Example

end Node
end Thunderducks
