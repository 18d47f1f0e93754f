import Thunderducks.Lib.Runs
import Thunderducks.Node.RelayDrain
import Thunderducks.Node.RelayPush
import Thunderducks.Node.RelaySealed
import Thunderducks.Relay.Serve

/-!
# Mail — nodes that push to a relay and poll it (`push_outbox_to_relay` and `poll_relay_once` in `td-node/src/rpc.rs`)

Any number of nodes push what is in their outboxes to one relay and poll it for what is addressed to them.  Puts,
answers and acks get lost, polls and acks come in any order, and others use the relay too.  The relay asks nobody who
they are, so others may also ack what is not theirs.  `mail_kept` says that what the relay accepted is there until a
node it was addressed to has opened it or somebody else's ack named it, and `mail_read` that what was sealed with the
shared key is opened as the event that was sealed.
-/

namespace Thunderducks
namespace Node

open Lib Event Crypto Net Relay

/-! ## A push to a relay -/

/-- What becomes of a put on its way. -/
inductive Transit
  | lost (msg : String)
  | answered (now : Instant)
  | unanswered (now : Instant) (msg : String)

section Push

variable [Primitives]

namespace Transit

/-- One put, as its sender sees it, and the relay it leaves. -/
def carry (relay : RelayState) (envelope : RelayEnvelope) : Transit → PutOutcome × RelayState
  | .lost msg => (.refused msg, relay)
  | .answered now =>
      match relay.handle now IterOrder.stored (.put envelope) with
      | (.ok _, relay) => (.answered, relay)
      | (.error e, relay) => (.refused ("relay error: " ++ e.toString), relay)
  | .unanswered now msg =>
      match relay.handle now IterOrder.stored (.put envelope) with
      | (.ok _, relay) => (.unanswered msg, relay)
      | (.error _, relay) => (.refused msg, relay)

/-- The puts of a push, up to the first that is not answered. -/
def carryAll (transit : Nat → Transit) : RelayState → (n : Nat) → List (Job × RelayEnvelope) →
    List PutOutcome × RelayState
  | relay, _, [] => ([], relay)
  | relay, n, x :: rest =>
      match (transit n).carry relay x.2 with
      | (.answered, relay) =>
          let (outcomes, relay) := carryAll transit relay (n + 1) rest
          (.answered :: outcomes, relay)
      | (outcome, relay) => ([outcome], relay)

end Transit

/-- What the relay accepts of a queue of puts. -/
def acceptedBy (put : Nat → PutOutcome) : (n : Nat) → List (Job × RelayEnvelope) → List (Job × RelayEnvelope)
  | _, [] => []
  | n, x :: rest =>
      match put n with
      | .answered => x :: acceptedBy put (n + 1) rest
      | .unanswered _ => [x]
      | .refused _ => []

theorem putAll_accepted (put : Nat → PutOutcome) (sender : DeviceId) (xs : List Sealed) : ∀ n,
    (putAll put sender n xs).2 = acceptedBy put n (xs.map fun x => (x.job, x.envelope sender)) := by
  induction xs with
  | nil => exact fun _ => rfl
  | cons x xs ih =>
      intro n
      rw [List.map_cons, putAll, acceptedBy]
      cases put n with
      | answered =>
          dsimp only
          rw [ih]
      | unanswered msg => rfl
      | refused msg => rfl

/-- What is put leaves everything else as it is. -/
structure Posted (relay relay' : RelayState) (accepted : List RelayEnvelope) : Prop where
  keeps : ∀ env ∈ relay.store.envelopes, env ∈ relay'.store.envelopes
  adds : ∀ env ∈ relay'.store.envelopes, env ∈ relay.store.envelopes ∨ env ∈ accepted
  there : ∀ env ∈ accepted, ∃ env' ∈ relay'.store.envelopes, env'.envelopeId = env.envelopeId

omit [Primitives] in
theorem Posted.refl (relay : RelayState) : Posted relay relay [] :=
  ⟨fun _ h => h, fun _ h => Or.inl h, fun _ h => absurd h List.not_mem_nil⟩

omit [Primitives] in
theorem Posted.trans {relay₁ relay₂ relay₃ : RelayState} {xs ys : List RelayEnvelope} (h : Posted relay₁ relay₂ xs)
    (h' : Posted relay₂ relay₃ ys) : Posted relay₁ relay₃ (xs ++ ys) := by
  refine ⟨fun env henv => h'.keeps env (h.keeps env henv), ?_, ?_⟩
  · intro env henv
    rcases h'.adds env henv with henv | henv
    · exact (h.adds env henv).imp_right (List.mem_append_left _)
    · exact Or.inr (List.mem_append_right _ henv)
  · intro env henv
    rcases List.mem_append.1 henv with henv | henv
    · rcases h.there env henv with ⟨env', hmem, hid⟩
      exact ⟨env', h'.keeps env' hmem, hid⟩
    · exact h'.there env henv

/-- A put that changes nothing found its id taken. -/
theorem id_taken {store store' : EnvelopeStore} {envelope : RelayEnvelope}
    (h : store.put envelope = (.ok false, store')) :
    ∃ env ∈ store.envelopes, env.envelopeId = envelope.envelopeId := by
  unfold EnvelopeStore.put at h
  split at h
  · cases h
  · dsimp only at h
    split at h
    · cases h
    · split at h
      next htaken => exact EnvelopeStore.id_mem_rows.1 htaken
      next => cases h

/-- A put that the relay answers with `ok` leaves the envelope in the store, or another under its id. -/
theorem handle_put_posted (relay : RelayState) (now : Instant) (o : IterOrder (Bytes32 × EnvelopeRow))
    (envelope : RelayEnvelope) :
    Posted relay (relay.handle now o (.put envelope)).2
      (match (relay.handle now o (.put envelope)).1 with
        | .ok _ => [envelope]
        | .error _ => []) := by
  dsimp only [RelayState.handle]
  split
  next => exact ⟨fun _ h => h, fun _ h => Or.inl h, fun _ h => absurd h List.not_mem_nil⟩
  next limiter hallow =>
    have hstored : ∀ env', env' ∈ (relay.store.put envelope).2.envelopes ↔
        env' ∈ relay.store.envelopes ∨ (env' = envelope ∧ relay.store.Accepts envelope) :=
      fun env' => EnvelopeStore.mem_envelopes_put
    rcases hput : relay.store.put envelope with ⟨res, store⟩
    rw [hput] at hstored
    cases res with
    | error e =>
        refine ⟨fun env h => (hstored env).2 (Or.inl h), ?_, fun _ h => absurd h List.not_mem_nil⟩
        intro env h
        rcases (hstored env).1 h with h | ⟨_, hacc⟩
        · exact Or.inl h
        · unfold EnvelopeStore.Accepts at hacc
          rw [hput] at hacc
          cases hacc
    | ok b =>
        refine ⟨fun env h => (hstored env).2 (Or.inl h), ?_, ?_⟩
        · intro env h
          exact ((hstored env).1 h).imp_right fun h => List.mem_singleton.2 h.1
        · intro env h
          rw [List.mem_singleton.1 h]
          cases b with
          | true => exact ⟨envelope, (hstored envelope).2 (Or.inr ⟨rfl, by rw [EnvelopeStore.Accepts, hput]⟩), rfl⟩
          | false =>
              -- the id was taken
              rcases id_taken hput with ⟨env', hmem, hid⟩
              exact ⟨env', (hstored env').2 (Or.inl hmem), hid⟩

/-- What the sender takes for accepted is in the store, and what it does not is not put there. -/
theorem Transit.carry_posted (relay : RelayState) (envelope : RelayEnvelope) (t : Transit) :
    Posted relay (t.carry relay envelope).2
      (if (t.carry relay envelope).1.accepted = true then [envelope] else []) := by
  cases t with
  | lost msg => exact Posted.refl relay
  | answered now =>
      have hposted := handle_put_posted relay now IterOrder.stored envelope
      rcases hrun : relay.handle now IterOrder.stored (.put envelope) with ⟨res, relay'⟩
      rw [hrun] at hposted
      simp only [carry, hrun]
      cases res with
      | ok response => exact hposted
      | error e => exact hposted
  | unanswered now msg =>
      have hposted := handle_put_posted relay now IterOrder.stored envelope
      rcases hrun : relay.handle now IterOrder.stored (.put envelope) with ⟨res, relay'⟩
      rw [hrun] at hposted
      simp only [carry, hrun]
      cases res with
      | ok response => exact hposted
      | error e => exact hposted

/-- All puts of a push, by induction on the queue: `put` is what its sender sees of them. -/
theorem Transit.carryAll_posted (transit : Nat → Transit) (xs : List (Job × RelayEnvelope)) :
    ∀ (relay : RelayState) (n : Nat) {put : Nat → PutOutcome},
      (∀ k, put (n + k) = (carryAll transit relay n xs).1.getD k (.refused "")) →
      Posted relay (carryAll transit relay n xs).2 ((acceptedBy put n xs).map Prod.snd) := by
  induction xs with
  | nil => exact fun relay n put _ => Posted.refl relay
  | cons x xs ih =>
      intro relay n put hput
      have hfirst := (transit n).carry_posted relay x.2
      unfold carryAll at hput ⊢
      rcases hcarry : (transit n).carry relay x.2 with ⟨outcome, relay₁⟩
      rw [hcarry] at hfirst hput
      have hn := hput 0
      rw [Nat.add_zero] at hn
      unfold acceptedBy
      cases outcome with
      | answered =>
          have hanswered : put n = .answered := hn
          rw [hanswered]
          refine hfirst.trans (ih relay₁ (n + 1) fun k => ?_)
          have hk := hput (k + 1)
          rw [Nat.add_comm k 1, ← Nat.add_assoc] at hk
          rw [hk, Nat.add_comm 1 k]
          rfl
      | unanswered msg =>
          have hunanswered : put n = .unanswered msg := hn
          rw [hunanswered]
          exact hfirst
      | refused msg =>
          have hrefused : put n = .refused msg := hn
          rw [hrefused]
          exact hfirst

variable [Olm] [Aead]

/-- What a push gets as far as putting, with the envelopes. -/
def NodeSession.queue (env : PushEnv) (s : NodeSession) : List (Job × RelayEnvelope) :=
  match s.relayUri with
  | none => []
  | some uri =>
      let recipients := s.relayRecipients env.order
      let (events, node) := s.node.popEvents 16
      if events = [] ∨ recipients = [] then
        []
      else
        match sealJobs env.nonce (s.withNode node) (jobs events recipients) [] with
        | (.error _, _) => []
        | (.ok sealed, s) =>
            match PeerUri.parse uri with
            | .error _ => []
            | .ok peer =>
                match env.connect peer with
                | .error _ => []
                | .ok () => sealed.map fun x => (x.job, x.envelope s.deviceId)

/-- A push to a relay; `transit` says what becomes of its puts on their way. -/
def NodeSession.pushTo (env : PushEnv) (transit : Nat → Transit) (s : NodeSession) (relay : RelayState) :
    PushRun × RelayState :=
  let (outcomes, relay) := Transit.carryAll transit relay 0 (s.queue env)
  (pushOutboxToRelay { env with put := fun n => outcomes.getD n (.refused "") } s, relay)

/-- A push takes for accepted what its puts say. -/
theorem pushOutboxToRelay_accepted (env : PushEnv) (s : NodeSession) :
    (pushOutboxToRelay env s).accepted = acceptedBy env.put 0 (s.queue env) := by
  unfold pushOutboxToRelay NodeSession.queue
  cases s.relayUri with
  | none => rfl
  | some uri =>
      dsimp only
      split
      · rfl
      · rcases sealJobs env.nonce (s.withNode (s.node.popEvents 16).2)
          (jobs (s.node.popEvents 16).1 (s.relayRecipients env.order)) [] with ⟨res, s'⟩
        cases res with
        | error e => rfl
        | ok sealed =>
            dsimp only
            unfold sendSealed
            cases sealed with
            | nil =>
                rw [if_pos List.isEmpty_nil]
                cases PeerUri.parse uri with
                | error e => rfl
                | ok peer =>
                    dsimp only
                    cases env.connect peer with
                    | error msg => rfl
                    | ok u => rfl
            | cons x sealed =>
                rw [if_neg (by simp)]
                cases PeerUri.parse uri with
                | error e => rfl
                | ok peer =>
                    dsimp only
                    cases env.connect peer with
                    | error msg => rfl
                    | ok u => exact putAll_accepted _ _ _ _

theorem NodeSession.pushTo_posted (env : PushEnv) (transit : Nat → Transit) (s : NodeSession) (relay : RelayState) :
    Posted relay (s.pushTo env transit relay).2 ((s.pushTo env transit relay).1.accepted.map Prod.snd) := by
  unfold NodeSession.pushTo
  dsimp only
  rw [pushOutboxToRelay_accepted]
  refine Transit.carryAll_posted transit (s.queue env) relay 0 fun k => ?_
  rw [Nat.zero_add]

omit [Primitives] in
/-- Sealing changes the ratchets only. -/
theorem sealEventForRecipient_frame (s : NodeSession) (nonce : Bytes) (ev : SignedEvent) (recip : DeviceId) :
    ∃ e2ee, (s.sealEventForRecipient nonce ev recip).2 = { s with e2ee := e2ee } := by
  have hensure : ∃ e2ee, (s.ensureOlmTo recip).2 = { s with e2ee := e2ee } := by
    unfold NodeSession.ensureOlmTo
    split
    · exact ⟨s.e2ee, rfl⟩
    · split
      · exact ⟨s.e2ee, rfl⟩
      · split
        · exact ⟨_, rfl⟩
        · exact ⟨_, rfl⟩
  rcases hensure with ⟨e2ee, heq⟩
  unfold NodeSession.sealEventForRecipient
  split
  next s₁ hrun =>
    have hs : s₁ = { s with e2ee := e2ee } := by
      rw [← heq, hrun]
    subst hs
    split
    · exact ⟨_, rfl⟩
    · exact ⟨_, rfl⟩
  next s₁ hrun =>
    have hs : s₁ = { s with e2ee := e2ee } := by
      rw [← heq, hrun]
    subst hs
    split
    · exact ⟨e2ee, rfl⟩
    · exact ⟨e2ee, rfl⟩

omit [Primitives] in
theorem sealJobs_frame (nonce : Nat → Bytes) (todo : List Job) : ∀ (s : NodeSession) (sealed : List Sealed),
    ∃ e2ee, (sealJobs nonce s todo sealed).2 = { s with e2ee := e2ee } := by
  induction todo with
  | nil => exact fun s sealed => ⟨s.e2ee, rfl⟩
  | cons job todo ih =>
      intro s sealed
      rcases sealEventForRecipient_frame s (nonce sealed.length) job.ev job.recip with ⟨e2ee, heq⟩
      rcases hrun : s.sealEventForRecipient (nonce sealed.length) job.ev job.recip with ⟨res, s₁⟩
      rw [hrun] at heq
      unfold sealJobs
      rw [hrun]
      cases res with
      | error e => exact ⟨e2ee, heq⟩
      | ok out =>
          rcases ih s₁ (sealed ++ [{ job := job, ciphertext := out.1 }]) with ⟨e2ee', heq'⟩
          have hs₁ : s₁ = { s with e2ee := e2ee } := heq
          refine ⟨e2ee', heq'.trans ?_⟩
          rw [hs₁]

/-- The node keeps its id and the key it shares. -/
def SameKeys (s s' : NodeSession) : Prop :=
  s'.deviceId = s.deviceId ∧ s'.relayKey = s.relayKey

theorem pushOutboxToRelay_sameKeys (env : PushEnv) (s : NodeSession) :
    SameKeys s (pushOutboxToRelay env s).session := by
  unfold pushOutboxToRelay
  split
  · exact ⟨rfl, rfl⟩
  · dsimp only
    split
    · exact ⟨rfl, rfl⟩
    · rcases sealJobs_frame env.nonce (jobs (s.node.popEvents 16).1 (s.relayRecipients env.order))
        (s.withNode (s.node.popEvents 16).2) [] with ⟨e2ee, heq⟩
      rcases hrun : sealJobs env.nonce (s.withNode (s.node.popEvents 16).2)
        (jobs (s.node.popEvents 16).1 (s.relayRecipients env.order)) [] with ⟨res, s₁⟩
      rw [hrun] at heq
      subst heq
      cases res with
      | error e => exact ⟨rfl, rfl⟩
      | ok sealed =>
          dsimp only
          unfold sendSealed
          split
          · exact ⟨rfl, rfl⟩
          · split
            · exact ⟨rfl, rfl⟩
            · split
              · exact ⟨rfl, rfl⟩
              · exact ⟨rfl, rfl⟩

end Push

/-! ## Nodes and a relay -/

/-- Nodes and their relay, with what the relay accepted so far, what the nodes opened, and what the acks of others
named (`recipient_device` and `envelope_id`). -/
structure Post (ι : Type) [Olm] where
  nodes : ι → NodeSession
  relay : RelayState
  posted : List RelayEnvelope
  opened : List (ι × Opened)
  struck : List (DeviceId × Bytes32)

inductive PostAction (ι : Type) [Olm]
  | push (i : ι) (env : PushEnv) (transit : Nat → Transit)
  | poll (i : ι) (env : PollEnv)
  /-- An ack that comes late. -/
  | ack (i : ι) (now : Instant) (o : IterOrder (Bytes32 × EnvelopeRow)) (ids : List Bytes32)
  /-- Whatever else a node does. -/
  | act (i : ι) (s : NodeSession)
  /-- A request of somebody else. -/
  | request (call : RelayCall)

section System

variable [Olm] [Aead] [Primitives] [Deserialize RelayOlmWire] [Deserialize SignedEvent]
  [Deserialize CreateRoomPayload] [Deserialize MembershipPayload] {ι : Type} [DecidableEq ι]

/-- What the relay accepts of somebody's request. -/
def postedBy (relay : RelayState) (call : RelayCall) : List RelayEnvelope :=
  match call.request, (relay.handle call.now call.order call.request).1 with
  | .put envelope, .ok _ => [envelope]
  | _, _ => []

/-- What somebody's request acks. -/
def struckBy (call : RelayCall) : List (DeviceId × Bytes32) :=
  match call.request with
  | .ack recipient ids => ids.map fun id => (recipient, id)
  | _ => []

namespace Post

def start (nodes : ι → NodeSession) (limiter : RateLimiter) : Post ι :=
  { nodes := nodes
    relay := { store := EnvelopeStore.empty, limiter := limiter }
    posted := []
    opened := []
    struck := [] }

def step (p : Post ι) : PostAction ι → Post ι
  | .push i env transit =>
      let (run, relay) := (p.nodes i).pushTo env transit p.relay
      { p with
        nodes := Function.update p.nodes i run.session
        relay := relay
        posted := p.posted ++ run.accepted.map Prod.snd }
  | .poll i env =>
      let run := pollRelayOnce env (p.nodes i) p.relay
      { p with
        nodes := Function.update p.nodes i run.session
        relay := run.relay
        opened := p.opened ++ run.opened.map fun x => (i, x) }
  | .ack i now o ids =>
      { p with relay := (p.relay.handle now o (.ack (p.nodes i).deviceId ids)).2 }
  | .act i s =>
      { p with nodes := Function.update p.nodes i s }
  | .request call =>
      { p with
        relay := call.step p.relay
        posted := p.posted ++ postedBy p.relay call
        struck := p.struck ++ struckBy call }

/-- Nodes ack what they opened, and their keys stay.  Others ask what they like. -/
def Allowed (p : Post ι) : PostAction ι → Prop
  | .push _ _ _ => True
  | .poll _ _ => True
  | .ack i _ _ ids => ∀ id ∈ ids, ∃ x, (i, x) ∈ p.opened ∧ x.envelope.envelopeId = id
  | .act i s => SameKeys (p.nodes i) s
  | .request _ => True

/-! ### The invariant -/

structure Inv (p : Post ι) : Prop where
  stored : ∀ env ∈ p.relay.store.envelopes, env ∈ p.posted
  opened : ∀ x ∈ p.opened, x.2.envelope ∈ p.posted ∧ x.2.envelope.recipientDevice = (p.nodes x.1).deviceId ∧
    ∃ e2ee, (DeviceNode.openFromRelayAuto e2ee (some (p.nodes x.1).relayKey) x.2.envelope.ciphertext).1 = .ok x.2.ev
  kept : ∀ env ∈ p.posted, (∃ env' ∈ p.relay.store.envelopes, env'.envelopeId = env.envelopeId) ∨
    (∃ x ∈ p.opened, x.2.envelope.envelopeId = env.envelopeId) ∨
    ∃ env' ∈ p.posted, env'.envelopeId = env.envelopeId ∧ (env'.recipientDevice, env'.envelopeId) ∈ p.struck

omit [Deserialize CreateRoomPayload] [Deserialize MembershipPayload] [DecidableEq ι] in
theorem inv_start (nodes : ι → NodeSession) (limiter : RateLimiter) : (start nodes limiter).Inv := by
  refine ⟨?_, ?_, ?_⟩
  · intro env henv
    cases henv
  · intro x hx
    cases hx
  · intro env henv
    cases henv

variable {p : Post ι}

omit [Aead] [Primitives] [Deserialize RelayOlmWire] [Deserialize SignedEvent] [Deserialize CreateRoomPayload]
  [Deserialize MembershipPayload] in
theorem update_sameKeys {i : ι} {s : NodeSession} (h : SameKeys (p.nodes i) s) (j : ι) :
    SameKeys (p.nodes j) (Function.update p.nodes i s j) := by
  by_cases hj : j = i
  · subst hj
    rw [Function.update_self]
    exact h
  · rw [Function.update_of_ne hj]
    exact ⟨rfl, rfl⟩

omit [Deserialize CreateRoomPayload] [Deserialize MembershipPayload] [DecidableEq ι] in
/-- Nodes that keep their keys, a relay that is told more, and nothing that is opened. -/
theorem Inv.posted (h : p.Inv) {nodes : ι → NodeSession} (hkeys : ∀ j, SameKeys (p.nodes j) (nodes j))
    {relay : RelayState} {accepted : List RelayEnvelope} (hposted : Posted p.relay relay accepted) :
    Inv { p with nodes := nodes, relay := relay, posted := p.posted ++ accepted } := by
  refine ⟨?_, ?_, ?_⟩
  · intro env henv
    rcases hposted.adds env henv with hold | hnew
    · exact List.mem_append_left _ (h.stored env hold)
    · exact List.mem_append_right _ hnew
  · intro x hx
    rcases h.opened x hx with ⟨hin, hrecipient, hopen⟩
    rcases hkeys x.1 with ⟨hid, hkey⟩
    refine ⟨List.mem_append_left _ hin, hrecipient.trans hid.symm, ?_⟩
    dsimp only
    rw [hkey]
    exact hopen
  · intro env henv
    rcases List.mem_append.1 henv with hold | hnew
    · rcases h.kept env hold with ⟨env', hmem, hid⟩ | hgone | ⟨env', hmem, hstruck⟩
      · exact Or.inl ⟨env', hposted.keeps env' hmem, hid⟩
      · exact Or.inr (Or.inl hgone)
      · exact Or.inr (Or.inr ⟨env', List.mem_append_left _ hmem, hstruck⟩)
    · exact Or.inl (hposted.there env hnew)

omit [Deserialize CreateRoomPayload] [Deserialize MembershipPayload] [DecidableEq ι] in
theorem Inv.told (h : p.Inv) (named : List (DeviceId × Bytes32)) : Inv { p with struck := p.struck ++ named } := by
  refine ⟨h.stored, h.opened, ?_⟩
  intro env henv
  refine (h.kept env henv).imp_right (Or.imp_right ?_)
  rintro ⟨env', hmem, hid, hstruck⟩
  exact ⟨env', hmem, hid, List.mem_append_left _ hstruck⟩

omit [Deserialize CreateRoomPayload] [Deserialize MembershipPayload] [DecidableEq ι] in
/-- An ack takes nothing from the relay but what was opened, or what others named. -/
theorem Inv.acked (h : p.Inv) {store : EnvelopeStore} {recipient : DeviceId} {ids : List Bytes32}
    (hstore : store = (p.relay.store.ack recipient ids).2) (limiter : RateLimiter)
    (hnamed : ∀ id ∈ ids, (∃ x ∈ p.opened, x.2.envelope.envelopeId = id) ∨ (recipient, id) ∈ p.struck) :
    Inv { p with relay := { store := store, limiter := limiter } } := by
  refine ⟨?_, h.opened, ?_⟩
  · intro env henv
    have henv' : env ∈ store.envelopes := henv
    rw [hstore] at henv'
    exact h.stored env (EnvelopeStore.mem_envelopes_ack.1 henv').1
  · intro env henv
    rcases h.kept env henv with ⟨env', hmem, hid⟩ | hgone
    · by_cases hacked : env'.recipientDevice = recipient ∧ env'.envelopeId ∈ ids
      · rcases hnamed env'.envelopeId hacked.2 with ⟨x, hx, hxid⟩ | hstruck
        · exact Or.inr (Or.inl ⟨x, hx, hxid.trans hid⟩)
        · rw [← hacked.1] at hstruck
          exact Or.inr (Or.inr ⟨env', h.stored env' hmem, hid, hstruck⟩)
      · refine Or.inl ⟨env', ?_, hid⟩
        dsimp only
        rw [hstore]
        exact EnvelopeStore.mem_envelopes_ack.2 ⟨hmem, hacked⟩
    · exact Or.inr hgone

omit [Aead] [Primitives] [Deserialize RelayOlmWire] [Deserialize SignedEvent] [Deserialize CreateRoomPayload]
  [Deserialize MembershipPayload] in
/-- A poll sees envelopes that the relay stores for the node. -/
theorem mem_polledItems {env : PollEnv} {s : NodeSession} {relay : RelayState} {e : RelayEnvelope}
    (he : e ∈ polledItems env s relay) : e ∈ relay.store.envelopes ∧ e.recipientDevice = s.deviceId := by
  have hfetch : ∀ {o}, e ∈ relay.store.fetch o s.deviceId 0 64 →
      e ∈ relay.store.envelopes ∧ e.recipientDevice = s.deviceId := by
    intro o hmem
    rcases EnvelopeStore.mem_fetch hmem with ⟨row, hlookup, hrow, hselects⟩
    refine ⟨EnvelopeStore.mem_envelopes.2 ⟨row, hlookup, hrow⟩, ?_⟩
    have hrecipient : row.recipient = s.deviceId := (of_decide_eq_true hselects).1
    rw [← hrow]
    exact hrecipient
  unfold polledItems at he
  split at he
  · cases he
  · split at he
    · cases he
    · split at he
      · exact hfetch he
      · cases he

omit [Deserialize CreateRoomPayload] [Deserialize MembershipPayload] in
/-- What was opened was opened from its envelope. -/
theorem openAll_opened (key : Bytes32) (items : List RelayEnvelope) : ∀ e2ee : E2eeDevice,
    ∀ x ∈ openAll key e2ee items,
      ∃ e2ee', (DeviceNode.openFromRelayAuto e2ee' (some key) x.envelope.ciphertext).1 = .ok x.ev := by
  induction items with
  | nil =>
      intro e2ee x hx
      cases hx
  | cons env items ih =>
      intro e2ee x hx
      unfold openAll at hx
      split at hx
      · exact ih _ x hx
      next ev e2ee' hopen =>
        rcases List.mem_cons.1 hx with rfl | hx
        · exact ⟨e2ee, by rw [hopen]⟩
        · exact ih _ x hx

theorem Inv.poll (h : p.Inv) (i : ι) (env : PollEnv) : (p.step (.poll i env)).Inv := by
  have hpolled := pollRelayOnce_polled env (p.nodes i) p.relay
  -- first the node opens, and then it acks
  have hopen : Inv { p with
      nodes := Function.update p.nodes i (pollRelayOnce env (p.nodes i) p.relay).session
      opened := p.opened ++ (pollRelayOnce env (p.nodes i) p.relay).opened.map fun x => (i, x) } := by
    have hkeys := update_sameKeys (p := p) (i := i) ⟨hpolled.deviceId, hpolled.relayKey⟩
    refine ⟨h.stored, ?_, ?_⟩
    · intro x hx
      rcases List.mem_append.1 hx with hx | hx
      · rcases h.opened x hx with ⟨hin, hrecipient, hopen⟩
        refine ⟨hin, hrecipient.trans (hkeys x.1).1.symm, ?_⟩
        dsimp only
        rw [(hkeys x.1).2]
        exact hopen
      · rcases List.mem_map.1 hx with ⟨y, hy, rfl⟩
        rw [hpolled.opened] at hy
        rcases mem_polledItems (openAll_subset _ _ _ y hy) with ⟨hstored, hrecipient⟩
        refine ⟨h.stored _ hstored, hrecipient.trans (hkeys i).1.symm, ?_⟩
        dsimp only
        rw [(hkeys i).2]
        exact openAll_opened _ _ _ y hy
    · intro e he
      refine (h.kept e he).imp_right (Or.imp_left ?_)
      rintro ⟨x, hx, hid⟩
      exact ⟨x, List.mem_append_left _ hx, hid⟩
  have hrelay := hpolled.store
  by_cases hlost : env.ackLost = true
  · rw [if_pos hlost] at hrelay
    exact ⟨fun e he => hopen.stored e (by rw [← hrelay]; exact he), hopen.opened,
      fun e he => by have := hopen.kept e he; rw [← hrelay] at this; exact this⟩
  · rw [if_neg hlost] at hrelay
    have hacked := hopen.acked hrelay (pollRelayOnce env (p.nodes i) p.relay).relay.limiter (by
      intro id hid
      rcases List.mem_map.1 hid with ⟨x, hx, rfl⟩
      exact Or.inl ⟨(i, x), List.mem_append_right _ (List.mem_map_of_mem hx), rfl⟩)
    exact hacked

theorem Inv.request (h : p.Inv) (call : RelayCall) : (p.step (.request call)).Inv := by
  have htold := h.told (struckBy call)
  have hkeys : ∀ j, SameKeys (p.nodes j) (p.nodes j) := fun _ => ⟨rfl, rfl⟩
  rcases call with ⟨now, o, request⟩
  cases request with
  | put envelope =>
      refine htold.posted hkeys ?_
      have hposted := handle_put_posted p.relay now o envelope
      unfold RelayCall.step postedBy
      dsimp only
      rcases hrun : p.relay.handle now o (.put envelope) with ⟨res, relay⟩
      rw [hrun] at hposted
      cases res with
      | ok response => exact hposted
      | error e => exact hposted
  | fetch recipient sinceTs limit => exact htold.posted hkeys (Posted.refl p.relay)
  | ack recipient ids =>
      have hacked := htold.acked rfl p.relay.limiter fun id hid =>
        Or.inr (List.mem_append_right _ (List.mem_map_of_mem hid))
      unfold step postedBy RelayCall.step
      dsimp only [RelayState.handle]
      rw [List.append_nil]
      exact hacked

theorem Inv.step (h : p.Inv) {act : PostAction ι} (hok : p.Allowed act) : (p.step act).Inv := by
  cases act with
  | push i env transit =>
      exact h.posted (update_sameKeys (pushOutboxToRelay_sameKeys _ _)) ((p.nodes i).pushTo_posted env transit p.relay)
  | poll i env => exact h.poll i env
  | ack i now o ids =>
      refine h.acked rfl _ fun id hid => ?_
      rcases hok id hid with ⟨x, hx, hxid⟩
      exact Or.inl ⟨(i, x), hx, hxid⟩
  | act i s =>
      have hposted := h.posted (update_sameKeys hok) (Posted.refl p.relay)
      rw [List.append_nil] at hposted
      exact hposted
  | request call => exact h.request call

end Post

/-! ## No mail is lost -/

variable {nodes : ι → NodeSession} {limiter : RateLimiter}

/-- In every run of nodes that push and poll, with whatever is lost on the way and whoever else uses the relay: each
envelope that the relay accepted is still stored, or a node that it is addressed to has opened it, or an ack that came
from none of the nodes named it.  That the ids tell the envelopes apart is what the hash promises. -/
theorem mail_kept (acts : List (PostAction ι))
    (hok : Runs.Along Post.step Post.Allowed (Post.start nodes limiter) acts)
    (hids : ∀ env ∈ (Runs.run Post.step (Post.start nodes limiter) acts).posted,
      ∀ env' ∈ (Runs.run Post.step (Post.start nodes limiter) acts).posted, env.envelopeId = env'.envelopeId →
        env.recipientDevice = env'.recipientDevice ∧ env.ciphertext = env'.ciphertext) :
    ∀ env ∈ (Runs.run Post.step (Post.start nodes limiter) acts).posted,
      (∃ env' ∈ (Runs.run Post.step (Post.start nodes limiter) acts).relay.store.envelopes,
        env'.recipientDevice = env.recipientDevice ∧ env'.ciphertext = env.ciphertext) ∨
      (∃ i x, (i, x) ∈ (Runs.run Post.step (Post.start nodes limiter) acts).opened ∧
        ((Runs.run Post.step (Post.start nodes limiter) acts).nodes i).deviceId = env.recipientDevice ∧
        x.envelope.ciphertext = env.ciphertext) ∨
      (env.recipientDevice, env.envelopeId) ∈ (Runs.run Post.step (Post.start nodes limiter) acts).struck := by
  have hinv := Runs.invariant (fun p act (h : p.Inv) hact => h.step hact) acts (Post.inv_start nodes limiter) hok
  generalize Runs.run Post.step (Post.start nodes limiter) acts = p at *
  intro env henv
  rcases hinv.kept env henv with ⟨env', hmem, hid⟩ | ⟨⟨i, x⟩, hx, hid⟩ | ⟨env', hmem, hid, hstruck⟩
  · exact Or.inl ⟨env', hmem, hids env' (hinv.stored env' hmem) env henv hid⟩
  · rcases hinv.opened (i, x) hx with ⟨hin, hrecipient, _⟩
    rcases hids x.envelope hin env henv hid with ⟨hto, hciphertext⟩
    exact Or.inr (Or.inl ⟨i, x, hx, hrecipient.symm.trans hto, hciphertext⟩)
  · rw [(hids env' hmem env henv hid).1, hid] at hstruck
    exact Or.inr (Or.inr hstruck)

/-- What was sealed with the key the nodes share is opened as the event that was sealed. -/
theorem mail_read [AeadLaws] (acts : List (PostAction ι))
    (hok : Runs.Along Post.step Post.Allowed (Post.start nodes limiter) acts) (i : ι) (x : Opened)
    (hx : (i, x) ∈ (Runs.run Post.step (Post.start nodes limiter) acts).opened) (ev : SignedEvent) (hv : Verified ev)
    (hread : Deserialize.fromSlice (toVec ev) = some ev) (nonce : Bytes) (hnonce : nonce.length = 12)
    (hsealed : DeviceNode.sealForRelay ev ((Runs.run Post.step (Post.start nodes limiter) acts).nodes i).relayKey
      nonce = .ok x.envelope.ciphertext) :
    x.ev = ev := by
  have hinv := Runs.invariant (fun p act (h : p.Inv) hact => h.step hact) acts (Post.inv_start nodes limiter) hok
  generalize Runs.run Post.step (Post.start nodes limiter) acts = p at *
  rcases (hinv.opened (i, x) hx).2.2 with ⟨e2ee, hopened⟩
  rcases DeviceNode.openBytes_sealForRelay hnonce hsealed with ⟨hopen, hver⟩
  unfold DeviceNode.openFromRelayAuto at hopened
  rw [(DeviceNode.byVersion e2ee (some (p.nodes i).relayKey) x.envelope.ciphertext).aead _ hver rfl, hopen] at hopened
  dsimp only [DeviceNode.decodeEvent] at hopened
  rw [hread] at hopened
  dsimp only at hopened
  rw [show verifyEvent ev = .ok () from hv] at hopened
  exact (Except.ok.inj hopened).symm

end System

/-! ## One letter -/

section Example

open Checksum DeviceNode

attribute [local instance] Checksum.primitives unusedBook Symbolic.aead eventReader noWires noCreates noMemberships

/-- Somebody leaves an envelope for device 2, which polls. -/
def letterActs : List (PostAction Unit) :=
  [.request ⟨0, IterOrder.stored, .put (sealedV1 hello)⟩, .poll () clearEnv]

def letterStart : Post Unit :=
  Post.start (fun _ => relaySession [] 2) (RateLimiter.new 0 defaultRate)

theorem letterActs_allowed : Runs.Along Post.step Post.Allowed letterStart letterActs :=
  ⟨trivial, trivial, trivial⟩

theorem letter_posted : (Runs.run Post.step letterStart letterActs).posted = [sealedV1 hello] := by
  decide +kernel

theorem letter_opened : (Runs.run Post.step letterStart letterActs).opened.map (fun x => (x.2.envelope, x.2.ev)) =
    [(sealedV1 hello, hello)] := by
  decide +kernel

/-- The relay has nothing left, so device 2 has opened it. -/
theorem mail_kept_letter : (Runs.run Post.step letterStart letterActs).relay.store.envelopes = [] ∧
    ∃ i x, (i, x) ∈ (Runs.run Post.step letterStart letterActs).opened ∧
      x.envelope.ciphertext = (sealedV1 hello).ciphertext := by
  have hempty : (Runs.run Post.step letterStart letterActs).relay.store.envelopes = [] := by
    decide +kernel
  have hunstruck : (Runs.run Post.step letterStart letterActs).struck = [] := by
    decide +kernel
  refine ⟨hempty, ?_⟩
  have hone : ∀ env ∈ (Runs.run Post.step letterStart letterActs).posted, env = sealedV1 hello := by
    rw [letter_posted]
    exact fun env henv => List.mem_singleton.1 henv
  have hposted : sealedV1 hello ∈ (Runs.run Post.step letterStart letterActs).posted := by
    rw [letter_posted]
    exact List.mem_singleton_self _
  have hkept := mail_kept letterActs letterActs_allowed (fun env henv env' henv' _ => by
    rw [hone env henv, hone env' henv']
    exact ⟨rfl, rfl⟩) (sealedV1 hello) hposted
  rcases hkept with ⟨env, henv, _⟩ | ⟨i, x, hx, _, hct⟩ | hstruck
  · unfold letterStart at hempty
    rw [hempty] at henv
    cases henv
  · exact ⟨i, x, hx, hct⟩
  · unfold letterStart at hunstruck
    rw [hunstruck] at hstruck
    cases hstruck

theorem mail_read_letter : ∃ x, ((), x) ∈ (Runs.run Post.step letterStart letterActs).opened ∧ x.ev = hello := by
  have hmem : (sealedV1 hello, hello) ∈
      (Runs.run Post.step letterStart letterActs).opened.map fun x => (x.2.envelope, x.2.ev) := by
    rw [letter_opened]
    exact List.mem_singleton_self _
  rcases List.mem_map.1 hmem with ⟨⟨i, x⟩, hx, heq⟩
  have henvelope : x.envelope = sealedV1 hello := congrArg Prod.fst heq
  refine ⟨x, hx, ?_⟩
  refine mail_read letterActs letterActs_allowed i x hx hello (event_verified _ _ _ _ _ _) ?_ (List.replicate 12 0)
    (by decide) ?_
  · decide +kernel
  · rw [henvelope]
    rfl

end Example

end Node
end Thunderducks
