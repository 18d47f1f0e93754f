import Thunderducks.Event.Checksum
import Thunderducks.Crypto.Symbolic
import Thunderducks.Node.Session

/-!
# RelayPush — the outbox on its way to the relay (`push_outbox_to_relay` in `td-node/src/rpc.rs`)

Up to sixteen events are popped from the outbox before anything else happens, and no later failure
puts one back.  `pushOutboxToRelay_nothingLost_iff` says exactly when a push loses none: no failure
occurs at all, or nothing was popped.

What the push finds outside the node is `PushEnv`: the nonces it draws, whether the relay can be
reached, and what becomes of each put.
-/

namespace Thunderducks
namespace Node

open Lib Event Crypto Net

/-! ## The push -/

/-- What becomes of one put. -/
inductive PutOutcome
  /-- The relay accepted the envelope and its answer arrived. -/
  | answered
  /-- The relay accepted the envelope and its answer was lost. -/
  | unanswered (msg : String)
  /-- The relay refused the envelope (rate limit, size, database), or never got it. -/
  | refused (msg : String)
  deriving DecidableEq

def PutOutcome.accepted : PutOutcome → Bool
  | .answered => true
  | .unanswered _ => true
  | .refused _ => false

structure PushEnv where
  order : SessionOrder
  nonce : Nat → Bytes
  connect : PeerUri → Except String Unit
  put : Nat → PutOutcome

/-- One turn of the two sealing loops: an event, its place among those popped, a recipient. -/
structure Job where
  slot : Nat
  ev : SignedEvent
  recip : DeviceId
  deriving DecidableEq

/-- `for ev in &events { for recip in &recipients { … } }` -/
def jobs (events : List SignedEvent) (recipients : List DeviceId) : List Job :=
  events.zipIdx.flatMap fun e => recipients.map fun recip => ⟨e.2, e.1, recip⟩

structure Sealed where
  job : Job
  ciphertext : Bytes

namespace DeviceNode

/-- Drain a bounded number from outbox for relay assist. -/
def popEvents : Nat → DeviceNode → List SignedEvent × DeviceNode
  | 0, node => ([], node)
  | n + 1, node =>
      match node.popOutbox with
      | (none, node) => ([], node)
      | (some ev, node) =>
          let (events, node) := popEvents n node
          (ev :: events, node)

end DeviceNode

section Push

variable [Olm]

def NodeSession.withNode (s : NodeSession) (node : DeviceNode) : NodeSession :=
  { s with node := node }

variable [Aead]

/-- The sealing loops; the first failure ends them. -/
def sealJobs (nonce : Nat → Bytes) : NodeSession → List Job → (sealed : List Sealed) →
    Except SyncError (List Sealed) × NodeSession
  | s, [], sealed => (.ok sealed, s)
  | s, job :: rest, sealed =>
      match s.sealEventForRecipient (nonce sealed.length) job.ev job.recip with
      | (.error e, s) => (.error e, s)
      | (.ok (ct, _), s) => sealJobs nonce s rest (sealed ++ [{ job := job, ciphertext := ct }])

variable [Primitives]

def Sealed.envelope (sender : DeviceId) (x : Sealed) : RelayEnvelope :=
  RelayEnvelope.new x.job.recip sender (some x.job.ev.roomId) x.ciphertext x.job.ev.tsMs

/-- The put loop: the result, and the envelopes the relay accepted with what they carry. -/
def putAll (put : Nat → PutOutcome) (sender : DeviceId) : (n : Nat) → List Sealed →
    Except RelayFailure Nat × List (Job × RelayEnvelope)
  | n, [] => (.ok n, [])
  | n, x :: rest =>
      match put n with
      | .answered =>
          let (res, accepted) := putAll put sender (n + 1) rest
          (res, (x.job, x.envelope sender) :: accepted)
      | .unanswered msg => (.error (.client msg), [(x.job, x.envelope sender)])
      | .refused msg => (.error (.client msg), [])

structure PushRun where
  result : Except RelayFailure Nat
  session : NodeSession
  accepted : List (Job × RelayEnvelope)

/-- The part of the push that runs without the lock: parse the address, connect, put. -/
def sendSealed (env : PushEnv) (uri : String) (s : NodeSession) (sealed : List Sealed) : PushRun :=
  if sealed.isEmpty then
    ⟨.ok 0, s, []⟩
  else
    match PeerUri.parse uri with
    | .error e => ⟨.error (.uri e), s, []⟩
    | .ok peer =>
        match env.connect peer with
        | .error msg => ⟨.error (.client msg), s, []⟩
        | .ok () =>
            let (res, accepted) := putAll env.put s.deviceId 0 sealed
            ⟨res, s, accepted⟩

/-- Push sealed local outbox events to the configured relay. -/
def pushOutboxToRelay (env : PushEnv) (s : NodeSession) : PushRun :=
  match s.relayUri with
  | none => ⟨.error .noRelay, s, []⟩
  | some uri =>
      let recipients := s.relayRecipients env.order
      let (events, node) := s.node.popEvents 16
      let s := s.withNode node
      if events = [] ∨ recipients = [] then
        ⟨.ok 0, s, []⟩
      else
        match sealJobs env.nonce s (jobs events recipients) [] with
        | (.error e, s) => ⟨.error (.seal e), s, []⟩
        | (.ok sealed, s) => sendSealed env uri s sealed

/-! ## When nothing is lost -/

/-- The events that left the outbox stood at its front, and each was accepted by the relay for every
recipient, of which there is at least one. -/
def NothingLost (s : NodeSession) (o : SessionOrder) (run : PushRun) : Prop :=
  ∃ left, s.node.outbox = left ++ run.session.node.outbox ∧
    ∀ slot ev, left[slot]? = some ev →
      s.relayRecipients o ≠ [] ∧
      ∀ recip ∈ s.relayRecipients o, ∃ envelope, (⟨slot, ev, recip⟩, envelope) ∈ run.accepted

/-- Every job can be sealed, one after the other; `n` were sealed before. -/
def SealsAll (nonce : Nat → Bytes) : NodeSession → (n : Nat) → List Job → Prop
  | _, _, [] => True
  | s, n, job :: rest =>
      ∃ out s', s.sealEventForRecipient (nonce n) job.ev job.recip = (.ok out, s') ∧
        SealsAll nonce s' (n + 1) rest

/-- The first `n` puts are accepted, and only the answer to the last may be lost. -/
def AcceptsAll (put : Nat → PutOutcome) (n : Nat) : Prop :=
  ∀ i < n, (put i).accepted = true ∧ (i + 1 < n → put i = .answered)

/-- There is no relay, or nothing to send, or every step of the push succeeds. -/
def Clears (env : PushEnv) (s : NodeSession) : Prop :=
  s.relayUri = none ∨ s.node.outbox = [] ∨
    ∃ uri peer, s.relayUri = some uri ∧ s.relayRecipients env.order ≠ [] ∧
      SealsAll env.nonce s 0 (jobs (s.node.outbox.take 16) (s.relayRecipients env.order)) ∧
      PeerUri.parse uri = .ok peer ∧ env.connect peer = .ok () ∧
      AcceptsAll env.put
        (jobs (s.node.outbox.take 16) (s.relayRecipients env.order)).length

/-! ## The steps of a push -/

omit [Olm] [Aead] [Primitives] in
theorem DeviceNode.popEvents_eq (n : Nat) (node : DeviceNode) :
    node.popEvents n = (node.outbox.take n, { node with outbox := node.outbox.drop n }) := by
  induction n generalizing node with
  | zero => simp [DeviceNode.popEvents]
  | succ n ih =>
      cases h : node.outbox with
      | nil => simp [DeviceNode.popEvents, DeviceNode.popOutbox, h]; cases node; simp_all
      | cons ev outbox => simp [DeviceNode.popEvents, DeviceNode.popOutbox, h, ih]

omit [Aead] [Primitives] in
theorem ensureOlmTo_withNode (s : NodeSession) (node : DeviceNode) (peer : DeviceId) :
    (s.withNode node).ensureOlmTo peer =
      ((s.ensureOlmTo peer).1, (s.ensureOlmTo peer).2.withNode node) := by
  unfold NodeSession.ensureOlmTo NodeSession.withNode
  cases hsess : s.e2ee.hasOlmSession peer with
  | true => simp
  | false =>
      cases hkeys : s.peerOlmKeys.lookup peer with
      | none => simp
      | some keys =>
          rcases hest : s.e2ee.establishOlmOutbound keys with ⟨res, e2ee⟩
          cases res with
          | error e => simp [hest]
          | ok u => simp [hest]

omit [Primitives] in
/-- Sealing neither reads nor writes the event log and its queues. -/
theorem sealEventForRecipient_withNode (s : NodeSession) (node : DeviceNode) (nonce : Bytes)
    (ev : SignedEvent) (recip : DeviceId) :
    (s.withNode node).sealEventForRecipient nonce ev recip =
      ((s.sealEventForRecipient nonce ev recip).1,
        (s.sealEventForRecipient nonce ev recip).2.withNode node) := by
  have hens := ensureOlmTo_withNode s node recip
  rcases h : s.ensureOlmTo recip with ⟨res, s₁⟩
  rw [h] at hens
  unfold NodeSession.sealEventForRecipient
  rw [hens, h]
  unfold NodeSession.withNode
  cases res with
  | ok u =>
      rcases hseal : DeviceNode.sealForRelayOlm s₁.e2ee recip ev with ⟨out, e2ee⟩
      cases out with
      | error e => simp [hseal]
      | ok ct => simp [hseal]
  | error e =>
      cases hseal : DeviceNode.sealForRelay ev s₁.relayKey nonce with
      | error e => simp [hseal]
      | ok ct => simp [hseal]

omit [Primitives] in
/-- The sealing loops seal every job, or stop at one that cannot be sealed; the node they leave
keeps its queues. -/
theorem sealJobs_spec (nonce : Nat → Bytes) (node : DeviceNode) (todo : List Job) :
    ∀ (s : NodeSession) (sealed : List Sealed),
      (SealsAll nonce s sealed.length todo ∧
        ∃ ys s', sealJobs nonce (s.withNode node) todo sealed = (.ok (sealed ++ ys), s') ∧
          ys.map Sealed.job = todo ∧ s'.node = node) ∨
      (¬ SealsAll nonce s sealed.length todo ∧
        ∃ e s', sealJobs nonce (s.withNode node) todo sealed = (.error e, s') ∧
          s'.node = node) := by
  induction todo with
  | nil =>
      intro s sealed
      exact Or.inl ⟨trivial, [], s.withNode node, by simp [sealJobs], rfl, rfl⟩
  | cons job todo ih =>
      intro s sealed
      have hnode := sealEventForRecipient_withNode s node (nonce sealed.length) job.ev job.recip
      rcases h : s.sealEventForRecipient (nonce sealed.length) job.ev job.recip with ⟨res, s₁⟩
      rw [h] at hnode
      cases res with
      | error e =>
          refine Or.inr ⟨?_, e, s₁.withNode node, ?_, rfl⟩
          · rintro ⟨out, s', heq, _⟩
            rw [h] at heq
            cases heq
          · simp [sealJobs, hnode]
      | ok out =>
          have hlen : (sealed ++ [{ job := job, ciphertext := out.1 : Sealed }]).length =
              sealed.length + 1 := by
            simp
          -- sealing reads the ratchets of the session and not its node
          have hstep : sealJobs nonce (s.withNode node) (job :: todo) sealed =
              sealJobs nonce (s₁.withNode node) todo
                (sealed ++ [{ job := job, ciphertext := out.1 }]) := by
            simp [sealJobs, hnode]
          have hall : SealsAll nonce s sealed.length (job :: todo) ↔
              SealsAll nonce s₁ (sealed.length + 1) todo := by
            simp [SealsAll, h]
          rw [hstep, hall, ← hlen]
          rcases ih s₁ (sealed ++ [{ job := job, ciphertext := out.1 }]) with
            ⟨hok, ys, s', heq, hys, hn⟩ | ⟨hno, e, s', heq, hn⟩
          · refine Or.inl ⟨hok, { job := job, ciphertext := out.1 } :: ys, s', ?_, ?_, hn⟩
            · simpa using heq
            · simp [hys]
          · exact Or.inr ⟨hno, e, s', heq, hn⟩

omit [Olm] [Aead] [Primitives] in
theorem acceptsAll_succ {put : Nat → PutOutcome} {n : Nat} :
    AcceptsAll put (n + 1) ↔
      (put 0).accepted = true ∧ (0 < n → put 0 = .answered) ∧
        AcceptsAll (fun i => put (i + 1)) n := by
  constructor
  · intro h
    have h0 := h 0 (Nat.succ_pos n)
    refine ⟨h0.1, fun hn => h0.2 (by omega), ?_⟩
    intro i hi
    have hi1 := h (i + 1) (by omega)
    exact ⟨hi1.1, fun hlt => hi1.2 (by omega)⟩
  · rintro ⟨hacc, hans, hrest⟩ i hi
    cases i with
    | zero => exact ⟨hacc, fun hlt => hans (by omega)⟩
    | succ i =>
        have hi1 := hrest i (by omega)
        exact ⟨hi1.1, fun hlt => hi1.2 (by omega)⟩

omit [Olm] [Aead] in
/-- The relay has accepted a first part of the queue, and all of it exactly when every put is
accepted. -/
theorem putAll_spec (put : Nat → PutOutcome) (sender : DeviceId) (xs : List Sealed) :
    ∀ n, ∃ m ≤ xs.length, (putAll put sender n xs).2.map Prod.fst = (xs.map Sealed.job).take m ∧
      (m = xs.length ↔ AcceptsAll (fun i => put (i + n)) xs.length) := by
  induction xs with
  | nil =>
      intro n
      exact ⟨0, by simp, by simp [putAll], by simp [AcceptsAll]⟩
  | cons x xs ih =>
      intro n
      rw [List.length_cons, acceptsAll_succ]
      cases hput : put n with
      | answered =>
          rcases ih (n + 1) with ⟨m, hm, hacc, hiff⟩
          refine ⟨m + 1, by simpa using hm, by simp [putAll, hput, hacc], ?_⟩
          have hshift : (fun i => put (i + 1 + n)) = fun i => put (i + (n + 1)) := by
            funext i
            congr 1
            omega
          simpa [hput, PutOutcome.accepted, hshift] using hiff
      -- it may have been stored, but the loop ends here
      | unanswered msg =>
          refine ⟨1, by simp, by simp [putAll, hput], ?_⟩
          constructor
          · intro hlen
            have hnil : xs = [] := List.length_eq_zero_iff.1 (by omega)
            simp [hput, hnil, PutOutcome.accepted, AcceptsAll]
          · rintro ⟨_, hans, _⟩
            have hnot : ¬ 0 < xs.length := by
              intro hpos
              simpa [hput] using hans hpos
            omega
      | refused msg =>
          exact ⟨0, by simp, by simp [putAll, hput], by simp [hput, PutOutcome.accepted]⟩

/-! ## The jobs of a push -/

omit [Olm] [Aead] [Primitives] in
theorem mem_jobs {events : List SignedEvent} {recipients : List DeviceId} {slot : Nat}
    {ev : SignedEvent} {recip : DeviceId} :
    ⟨slot, ev, recip⟩ ∈ jobs events recipients ↔ events[slot]? = some ev ∧ recip ∈ recipients := by
  unfold jobs
  simp only [List.mem_flatMap, List.mem_map, Job.mk.injEq]
  constructor
  · rintro ⟨⟨e, i⟩, hmem, r, hr, rfl, rfl, rfl⟩
    exact ⟨List.mk_mem_zipIdx_iff_getElem?.1 hmem, hr⟩
  · rintro ⟨hget, hr⟩
    exact ⟨(ev, slot), List.mk_mem_zipIdx_iff_getElem?.2 hget, recip, hr, rfl, rfl, rfl⟩

omit [Olm] [Aead] [Primitives] in
theorem jobs_ne_nil {events : List SignedEvent} {recipients : List DeviceId} (he : events ≠ [])
    (hr : recipients ≠ []) : jobs events recipients ≠ [] := by
  rcases List.exists_cons_of_ne_nil he with ⟨ev, events, rfl⟩
  rcases List.exists_mem_of_ne_nil _ hr with ⟨recip, hmem⟩
  have hjob : (⟨0, ev, recip⟩ : Job) ∈ jobs (ev :: events) recipients := mem_jobs.2 ⟨by simp, hmem⟩
  exact List.ne_nil_of_mem hjob

omit [Olm] [Aead] [Primitives] in
theorem nodup_jobs {events : List SignedEvent} {recipients : List DeviceId}
    (h : recipients.Nodup) : (jobs events recipients).Nodup := by
  unfold jobs
  rw [List.nodup_flatMap]
  refine ⟨?_, ?_⟩
  · intro e _
    refine h.map ?_
    intro r r' heq
    exact (Job.mk.inj heq).2.2
  · -- jobs of different events differ in their slot
    have hslots : (events.zipIdx.map Prod.snd).Nodup := by
      simpa using List.nodup_range'
    refine (List.pairwise_map.1 hslots).imp ?_
    intro e e' hne j hj hj'
    rcases List.mem_map.1 hj with ⟨r, _, rfl⟩
    rcases List.mem_map.1 hj' with ⟨r', _, heq⟩
    exact hne (Job.mk.inj heq).1.symm

omit [Olm] [Aead] [Primitives] in
theorem nodup_pushRecipient {self id : DeviceId} {out : List DeviceId} (h : out.Nodup) :
    (NodeSession.pushRecipient self out id).Nodup := by
  unfold NodeSession.pushRecipient
  split
  next hid => simpa [List.nodup_append, h] using fun a ha => ne_of_mem_of_not_mem ha hid.2
  · exact h

omit [Olm] [Aead] [Primitives] in
/-- A fold keeps what each of its steps keeps. -/
theorem foldl_keeps {α β : Type} {P : β → Prop} {f : β → α → β} (hf : ∀ b a, P b → P (f b a))
    (l : List α) : ∀ {b : β}, P b → P (l.foldl f b) := by
  induction l with
  | nil => exact fun hb => hb
  | cons a l ih => exact fun hb => ih (hf _ a hb)

omit [Aead] [Primitives] in
theorem nodup_relayRecipients (s : NodeSession) (o : SessionOrder) :
    (s.relayRecipients o).Nodup := by
  have hlinked : (o.linked.run s.link.linkedDevices).Nodup :=
    (o.linked.perm _).nodup_iff.2 s.link.trusted.keys_nodup
  unfold NodeSession.relayRecipients
  refine foldl_keeps (fun out id h => nodup_pushRecipient h) _ ?_
  refine foldl_keeps ?_ _ (hlinked.filter _)
  intro out ep h
  split
  · exact h
  · split
    · exact h
    · exact nodup_pushRecipient h

omit [Olm] [Aead] [Primitives] in
/-- Only the whole of a list without repetitions holds all its entries. -/
theorem mem_take_iff_length_le {α : Type} {l : List α} (hl : l.Nodup) {m : Nat} :
    (∀ a ∈ l, a ∈ l.take m) ↔ l.length ≤ m := by
  constructor
  · intro h
    have hsub : l.Subperm (l.take m) := List.subperm_of_subset hl h
    calc
      l.length ≤ (l.take m).length := hsub.length_le
      _ ≤ m := List.length_take_le m l
  · intro h a ha
    rwa [List.take_of_length_le h]

/-! ## The exact condition -/

omit [Aead] [Primitives] in
/-- What the condition comes to when the first sixteen events have left the outbox. -/
theorem nothingLost_iff_jobs {s : NodeSession} {o : SessionOrder} {run : PushRun}
    (hpop : run.session.node.outbox = s.node.outbox.drop 16) (hne : s.node.outbox ≠ []) :
    NothingLost s o run ↔ s.relayRecipients o ≠ [] ∧
      ∀ job ∈ jobs (s.node.outbox.take 16) (s.relayRecipients o),
        job ∈ run.accepted.map Prod.fst := by
  have hsplit : s.node.outbox = s.node.outbox.take 16 ++ run.session.node.outbox := by
    rw [hpop, List.take_append_drop]
  constructor
  · rintro ⟨left, hleft, hcond⟩
    -- what is lost or not is the batch that was popped
    have hleft' : left = s.node.outbox.take 16 := by
      rw [hsplit] at hleft
      simpa [hpop] using (List.append_cancel_right hleft).symm
    subst hleft'
    have hfirst : ∃ ev, (s.node.outbox.take 16)[0]? = some ev := by
      cases hob : s.node.outbox with
      | nil => exact absurd hob hne
      | cons ev rest => exact ⟨ev, by simp⟩
    rcases hfirst with ⟨ev, hev⟩
    refine ⟨(hcond 0 ev hev).1, ?_⟩
    rintro ⟨slot, ev, recip⟩ hjob
    rcases mem_jobs.1 hjob with ⟨hget, hrec⟩
    rcases (hcond slot ev hget).2 recip hrec with ⟨envelope, hmem⟩
    exact List.mem_map.2 ⟨_, hmem, rfl⟩
  · rintro ⟨hrec, hall⟩
    refine ⟨s.node.outbox.take 16, hsplit, ?_⟩
    intro slot ev hget
    refine ⟨hrec, ?_⟩
    intro recip hmem
    rcases List.mem_map.1 (hall _ (mem_jobs.2 ⟨hget, hmem⟩)) with ⟨⟨job, envelope⟩, hacc, rfl⟩
    exact ⟨envelope, hacc⟩

omit [Aead] [Primitives] in
/-- A push that takes events out and delivers nothing loses them. -/
theorem not_nothingLost {s : NodeSession} {o : SessionOrder} {run : PushRun}
    (hpop : run.session.node.outbox = s.node.outbox.drop 16) (hne : s.node.outbox ≠ [])
    (hacc : run.accepted = []) : ¬ NothingLost s o run := by
  rw [nothingLost_iff_jobs hpop hne]
  rintro ⟨hrec, hall⟩
  have hjobs : jobs (s.node.outbox.take 16) (s.relayRecipients o) ≠ [] :=
    jobs_ne_nil (by simpa using hne) hrec
  rcases List.exists_mem_of_ne_nil _ hjobs with ⟨job, hjob⟩
  simpa [hacc] using hall job hjob

omit [Aead] in
/-- What the relay accepts once everything is sealed: a first part of the queue, and all of it
exactly when the relay is reached and every put is accepted. -/
theorem sendSealed_spec (env : PushEnv) (uri : String) (s : NodeSession) (sealed : List Sealed)
    (hne : sealed ≠ []) :
    (sendSealed env uri s sealed).session = s ∧
    ∃ m ≤ sealed.length,
      (sendSealed env uri s sealed).accepted.map Prod.fst = (sealed.map Sealed.job).take m ∧
      (m = sealed.length ↔ ∃ peer, PeerUri.parse uri = .ok peer ∧ env.connect peer = .ok () ∧
        AcceptsAll env.put sealed.length) := by
  have hlen : 0 ≠ sealed.length := fun h => hne (List.length_eq_zero_iff.1 h.symm)
  unfold sendSealed
  rw [if_neg (by simpa using hne)]
  cases hparse : PeerUri.parse uri with
  | error e => exact ⟨rfl, 0, Nat.zero_le _, by simp, by simp [hlen]⟩
  | ok peer =>
      cases hconn : env.connect peer with
      | error msg => exact ⟨by simp [hconn], 0, Nat.zero_le _, by simp [hconn], by simp [hconn, hlen]⟩
      | ok u =>
          rcases putAll_spec env.put s.deviceId sealed 0 with ⟨m, hm, hacc, hiff⟩
          exact ⟨by simp [hconn], m, hm, by simpa [hconn] using hacc, by simpa [hconn] using hiff⟩

/-- A push loses no event exactly when there is no relay, nothing to send, or no step of it fails. -/
theorem pushOutboxToRelay_nothingLost_iff (env : PushEnv) (s : NodeSession) :
    NothingLost s env.order (pushOutboxToRelay env s) ↔ Clears env s := by
  unfold pushOutboxToRelay Clears
  cases huri : s.relayUri with
  | none => exact iff_of_true ⟨[], by simp, by simp⟩ (Or.inl rfl)
  | some uri =>
      by_cases hne : s.node.outbox = []
      · -- nothing is popped
        refine iff_of_true ?_ (Or.inr (Or.inl hne))
        exact ⟨[], by simp [DeviceNode.popEvents_eq, hne, NodeSession.withNode], by simp⟩
      have hpop : ∃ node, s.node.popEvents 16 = (s.node.outbox.take 16, node) ∧
          node.outbox = s.node.outbox.drop 16 := by
        exact ⟨_, DeviceNode.popEvents_eq 16 s.node, rfl⟩
      rcases hpop with ⟨node, hpop, hout⟩
      have hevents : s.node.outbox.take 16 ≠ [] := by
        simpa using hne
      simp only [hpop, hevents, hne, false_or, reduceCtorEq, Option.some.injEq]
      by_cases hrec : s.relayRecipients env.order = []
      · rw [if_pos hrec]
        refine iff_of_false (not_nothingLost hout hne rfl) ?_
        rintro ⟨_, _, _, hrec', _⟩
        exact hrec' hrec
      rw [if_neg hrec]
      have hnodup : (jobs (s.node.outbox.take 16) (s.relayRecipients env.order)).Nodup :=
        nodup_jobs (nodup_relayRecipients s env.order)
      rcases sealJobs_spec env.nonce node (jobs (s.node.outbox.take 16)
        (s.relayRecipients env.order)) s [] with
        ⟨hok, sealed, s', heq, hjobs, hnode⟩ | ⟨hno, e, s', heq, hnode⟩
      · simp only [heq, List.nil_append]
        have hsealed : sealed ≠ [] := by
          intro hnil
          exact jobs_ne_nil hevents hrec (by simpa [hnil] using hjobs.symm)
        rcases sendSealed_spec env uri s' sealed hsealed with ⟨hsess, m, hm, hacc, hiff⟩
        have hlost : NothingLost s env.order (sendSealed env uri s' sealed) ↔ _ :=
          nothingLost_iff_jobs (by rw [hsess, hnode, hout]) hne
        rw [hlost, hacc, hjobs, mem_take_iff_length_le hnodup, ← hjobs, List.length_map]
        constructor
        · rintro ⟨_, hle⟩
          rcases hiff.1 (Nat.le_antisymm hm hle) with ⟨peer, hparse, hconn, hput⟩
          exact ⟨uri, peer, rfl, hrec, by simpa [hjobs] using hok, hparse, hconn, hput⟩
        · rintro ⟨_, peer, rfl, _, _, hparse, hconn, hput⟩
          exact ⟨hrec, Nat.le_of_eq (hiff.2 ⟨peer, hparse, hconn, hput⟩).symm⟩
      · simp only [heq]
        refine iff_of_false (not_nothingLost (by rw [hnode, hout]) hne rfl) ?_
        rintro ⟨_, _, _, _, hok, _⟩
        exact hno hok

end Push

/-! ## A node that knows nobody -/

section Example

open Checksum

@[reducible] def emptyBook : Olm :=
  Symbolic.olm []

attribute [local instance] Checksum.primitives emptyBook Symbolic.aead

def greeting : SignedEvent :=
  event 1 (room 1) [] .message [104] 1

/-- One message of its own waits in the outbox. -/
def lonely : NodeSession :=
  (relaySession [] 1).withNode { (relaySession [] 1).node with outbox := [greeting] }

/-- A relay that accepts everything. -/
def goodEnv : PushEnv :=
  { order := .stored
    nonce := fun _ => List.replicate 12 0
    connect := fun _ => .ok ()
    put := fun _ => .answered }

theorem pushOutboxToRelay_loses_greeting :
    ¬ ∀ (env : PushEnv) (s : NodeSession), NothingLost s env.order (pushOutboxToRelay env s) := by
  intro h
  have hnobody : lonely.relayRecipients SessionOrder.stored = [] := by
    decide +kernel
  have hpopped : (pushOutboxToRelay goodEnv lonely).session.node.outbox = [] := by
    decide +kernel
  rcases h goodEnv lonely with ⟨left, hleft, hcond⟩
  rw [hpopped, List.append_nil] at hleft
  exact (hcond 0 greeting (by simp [← hleft, lonely, NodeSession.withNode])).1 hnobody

end Example

end Node
end Thunderducks
