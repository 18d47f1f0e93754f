import Thunderducks.Lib.Runs
import Thunderducks.Node.RelayPoll

/-!
# RelayDrain — polling until the relay has nothing more to give

Poll after poll reads the 64 envelopes of lowest timestamp and acks those it opened.  An envelope that
does not open stays where it is, and so does one whose Olm message key is used up before its ack
arrives.  `polls_drain` says when the queue empties all the same: fewer than 64 envelopes that do not
open stand at or before each one that does, no attempt on another envelope closes it, and no ack
that is lost names an Olm envelope.
-/

namespace Thunderducks
namespace Node

open Lib Event Crypto Net Relay

section Drain

variable [Olm] [Aead] [Primitives] [Deserialize RelayOlmWire] [Deserialize SignedEvent]
  [Deserialize CreateRoomPayload] [Deserialize MembershipPayload]

/-! ## Runs of polls -/

/-- The session and the relay after the first polls; `envs k` is what poll `k` meets. -/
def afterPolls (envs : Nat → PollEnv) (s : NodeSession) (relay : RelayState) :
    Nat → NodeSession × RelayState
  | 0 => (s, relay)
  | k + 1 =>
      let (s, relay) := afterPolls envs s relay k
      let run := pollRelayOnce (envs k) s relay
      (run.session, run.relay)

/-- Everything the first `n` polls opened and ingested. -/
def ingestedBy (envs : Nat → PollEnv) (s : NodeSession) (relay : RelayState) : Nat → List Opened
  | 0 => []
  | k + 1 =>
      let (s', relay') := afterPolls envs s relay k
      ingestedBy envs s relay k ++ (pollRelayOnce (envs k) s' relay').opened

/-- The relay is configured and answers every connect and every fetch. -/
structure Answers (envs : Nat → PollEnv) (s : NodeSession) : Prop where
  relay : ∃ uri peer, s.relayUri = some uri ∧ PeerUri.parse uri = .ok peer
  connect : ∀ k peer, (envs k).connect peer = .ok ()
  fetched : ∀ k, (envs k).fetched = .ok ()

/-! ## What a device can open -/

/-- The ciphertext opens. -/
def opens (key : Bytes32) (e2ee : E2eeDevice) (ciphertext : Bytes) : Bool :=
  match (DeviceNode.openFromRelayAuto e2ee (some key) ciphertext).1 with
  | .ok _ => true
  | .error _ => false

/-- The row is for this device, and the device could open it. -/
def openable (s : NodeSession) (r : Bytes32 × EnvelopeRow) : Bool :=
  r.2.recipient = s.deviceId ∧ opens s.relayKey s.e2ee r.2.ciphertext = true

/-- A v2 envelope. -/
def IsOlm (ciphertext : Bytes) : Prop :=
  ciphertext.head? = some relaySealV2Olm

/-- The relay stores the envelope. -/
def Stores (relay : RelayState) (env : RelayEnvelope) : Prop :=
  ∃ row, relay.store.rows.lookup env.envelopeId = some row ∧ row.envelope env.envelopeId = env

/-- Attempts on other envelopes leave open an Olm envelope that opens. -/
def Independent (s : NodeSession) (relay : RelayState) : Prop :=
  ∀ r ∈ relay.store.table, openable s r = true → IsOlm r.2.ciphertext →
    ∀ others : List RelayEnvelope, (∀ env ∈ others, Stores relay env) →
      r.2.envelope r.1 ∉ others →
      opens s.relayKey (afterOpening s.relayKey s.e2ee others) r.2.ciphertext = true

/-- What the queue needs to empty. -/
structure Drainable (envs : Nat → PollEnv) (s : NodeSession) (relay : RelayState) : Prop where
  /-- The timestamp fits the signed column. -/
  early : ∀ r ∈ relay.store.table, openable s r = true → 0 ≤ r.2.tsMs.toInt
  /-- Fewer than 64 envelopes that do not open stand at or before one that does. -/
  few : ∀ r ∈ relay.store.table, openable s r = true →
    (relay.store.table.filter fun b => EnvelopeStore.selects s.deviceId 0 b && !openable s b &&
      decide (EnvelopeStore.tsLe b r)).length < 64
  independent : Independent s relay
  /-- A lost ack follows a fetch without Olm envelopes that opened. -/
  lost : ∀ k, (envs k).ackLost = true →
    ∀ env ∈ polledItems (envs k) (afterPolls envs s relay k).1 (afterPolls envs s relay k).2,
      opens s.relayKey s.e2ee env.ciphertext = true → ¬ IsOlm env.ciphertext

/-! ## Opening -/

omit [Deserialize CreateRoomPayload] [Deserialize MembershipPayload] in
/-- Whether a v1 envelope opens does not depend on the Olm state. -/
theorem opens_of_not_isOlm {key : Bytes32} {ct : Bytes} (h : ¬ IsOlm ct) (e2ee e2ee' : E2eeDevice) :
    opens key e2ee ct = opens key e2ee' ct := by
  have hraw : (openBytesAuto e2ee (some key) ct).1 = (openBytesAuto e2ee' (some key) ct).1 := by
    unfold openBytesAuto
    unfold IsOlm at h
    cases hv : ct.head? with
    | none => rfl
    | some v =>
        have hne : v ≠ relaySealV2Olm := by
          intro heq
          exact h (by rw [hv, heq])
        simp only [hne, if_false]
        split <;> rfl
  unfold opens DeviceNode.openFromRelayAuto
  rcases hrun : openBytesAuto e2ee (some key) ct with ⟨res, dev⟩
  rcases hrun' : openBytesAuto e2ee' (some key) ct with ⟨res', dev'⟩
  rw [hrun, hrun'] at hraw
  dsimp only at hraw
  subst hraw
  cases res with
  | error e => rfl
  | ok raw => rfl

omit [Deserialize CreateRoomPayload] [Deserialize MembershipPayload] in
theorem afterOpening_append (key : Bytes32) (xs ys : List RelayEnvelope) : ∀ e2ee : E2eeDevice,
    afterOpening key e2ee (xs ++ ys) = afterOpening key (afterOpening key e2ee xs) ys := by
  induction xs with
  | nil => exact fun _ => rfl
  | cons x xs ih => exact fun e2ee => ih _

omit [Deserialize CreateRoomPayload] [Deserialize MembershipPayload] in
theorem openAll_subset (key : Bytes32) (items : List RelayEnvelope) : ∀ e2ee : E2eeDevice,
    ∀ x ∈ openAll key e2ee items, x.envelope ∈ items := by
  induction items with
  | nil =>
      intro e2ee x hx
      cases hx
  | cons env items ih =>
      intro e2ee x hx
      unfold openAll at hx
      split at hx
      · exact List.mem_cons_of_mem _ (ih _ x hx)
      · rcases List.mem_cons.1 hx with rfl | hx
        · exact List.mem_cons_self
        · exact List.mem_cons_of_mem _ (ih _ x hx)

omit [Deserialize CreateRoomPayload] [Deserialize MembershipPayload] in
/-- An envelope that opens when its turn comes is among those opened. -/
theorem mem_openAll {key : Bytes32} {env : RelayEnvelope} (before after : List RelayEnvelope) :
    ∀ {e2ee : E2eeDevice}, opens key (afterOpening key e2ee before) env.ciphertext = true →
      ∃ x ∈ openAll key e2ee (before ++ env :: after), x.envelope = env := by
  induction before with
  | nil =>
      intro e2ee h
      unfold opens afterOpening at h
      split at h
      next ev hev =>
        refine ⟨{ envelope := env, ev := ev }, ?_, rfl⟩
        rcases hopen : DeviceNode.openFromRelayAuto e2ee (some key) env.ciphertext with ⟨res, e⟩
        rw [hopen] at hev
        simp only at hev
        subst hev
        simp [openAll, hopen]
      next => cases h
  | cons b before ih =>
      intro e2ee h
      rcases ih h with ⟨x, hx, henv⟩
      refine ⟨x, ?_, henv⟩
      rw [List.cons_append]
      unfold openAll
      rcases hopen : DeviceNode.openFromRelayAuto e2ee (some key) b.ciphertext with ⟨res, e⟩
      rw [hopen] at hx
      cases res with
      | error err => exact hx
      | ok ev => exact List.mem_cons_of_mem _ hx

/-! ## The invariant of a run -/

/-- A run from `s` and `relay` that has tried the envelopes `tried` and ingested `done`. -/
structure Polling (s : NodeSession) (relay : RelayState) (tried : List RelayEnvelope)
    (done : List Opened) (s' : NodeSession) (relay' : RelayState) : Prop where
  relayKey : s'.relayKey = s.relayKey
  deviceId : s'.deviceId = s.deviceId
  relayUri : s'.relayUri = s.relayUri
  e2ee : s'.e2ee = afterOpening s.relayKey s.e2ee tried
  stored : ∀ env ∈ tried, Stores relay env
  rows : ∀ {i row}, relay'.store.rows.lookup i = some row → relay.store.rows.lookup i = some row
  /-- Olm envelopes are tried once. -/
  fresh : ∀ {i row}, relay'.store.rows.lookup i = some row → openable s (i, row) = true →
    IsOlm row.ciphertext → row.envelope i ∉ tried
  /-- What is gone was ingested. -/
  gone : ∀ {i row}, relay.store.rows.lookup i = some row → openable s (i, row) = true →
    relay'.store.rows.lookup i = none → ∃ x ∈ done, x.envelope = row.envelope i

omit [Deserialize CreateRoomPayload] [Deserialize MembershipPayload] in
theorem Polling.start (s : NodeSession) (relay : RelayState) : Polling s relay [] [] s relay := by
  refine ⟨rfl, rfl, rfl, rfl, by simp, fun h => h, by simp, ?_⟩
  intro i row hl _ hnone
  rw [hl] at hnone
  cases hnone

omit [Deserialize CreateRoomPayload] [Deserialize MembershipPayload] in
/-- An envelope that the device could open at the start opens when its turn comes. -/
theorem Polling.opened {s s' : NodeSession} {relay relay' : RelayState}
    {tried items : List RelayEnvelope} {done : List Opened}
    (h : Polling s relay tried done s' relay') (hindep : Independent s relay)
    (hstored : ∀ env ∈ items, Stores relay env) (hnodup : items.Nodup) {i : Bytes32}
    {row : EnvelopeRow} (hl : relay'.store.rows.lookup i = some row)
    (hopen : openable s (i, row) = true) (hmem : row.envelope i ∈ items) :
    ∃ x ∈ openAll s'.relayKey s'.e2ee items, x.envelope = row.envelope i := by
  rcases List.append_of_mem hmem with ⟨before, after, hsplit⟩
  have hfresh : row.envelope i ∉ before := by
    intro hb
    rw [hsplit] at hnodup
    exact (List.nodup_append.1 hnodup).2.2 _ hb _ (by simp) rfl
  have hopen₀ : opens s.relayKey s.e2ee row.ciphertext = true := by
    have := hopen
    simp only [openable, decide_eq_true_eq] at this
    exact this.2
  have hturn : opens s.relayKey (afterOpening s.relayKey s.e2ee (tried ++ before))
      row.ciphertext = true := by
    -- the shared key opens at any time, a ratchet only where it has not moved on
    by_cases holm : IsOlm row.ciphertext
    · refine hindep (i, row) (EnvelopeStore.mem_table.2 (h.rows hl)) hopen holm _ ?_ ?_
      · intro env henv
        rcases List.mem_append.1 henv with henv | henv
        · exact h.stored env henv
        · exact hstored env (by simp [hsplit, henv])
      · intro hmem
        rcases List.mem_append.1 hmem with hmem | hmem
        · exact h.fresh hl hopen holm hmem
        · exact hfresh hmem
    · rw [opens_of_not_isOlm holm _ s.e2ee]
      exact hopen₀
  rw [afterOpening_append, ← h.e2ee, ← h.relayKey] at hturn
  rw [hsplit]
  exact mem_openAll before after hturn

omit [Aead] [Primitives] [Deserialize RelayOlmWire] [Deserialize SignedEvent]
  [Deserialize CreateRoomPayload] [Deserialize MembershipPayload] in
/-- A poll sees rows of the relay, each once. -/
theorem polledItems_spec (env : PollEnv) (s : NodeSession) (relay : RelayState) :
    (∀ e ∈ polledItems env s relay, Stores relay e) ∧ (polledItems env s relay).Nodup := by
  have hfetch : ∀ o, (∀ e ∈ relay.store.fetch o s.deviceId 0 64, Stores relay e) ∧
      (relay.store.fetch o s.deviceId 0 64).Nodup := by
    intro o
    refine ⟨?_, EnvelopeStore.nodup_fetch o 0 64⟩
    intro e he
    rcases EnvelopeStore.mem_fetch he with ⟨row, hl, heq, _⟩
    exact ⟨row, hl, heq⟩
  unfold polledItems
  split
  · simp
  · split
    · simp
    · split
      · exact hfetch _
      · simp

/-- The rows a poll leaves: all of them if its ack is lost, else those it did not open. -/
theorem lookup_pollRelayOnce {env : PollEnv} {s : NodeSession} {relay : RelayState} {i : Bytes32}
    {row : EnvelopeRow} :
    (pollRelayOnce env s relay).relay.store.rows.lookup i = some row ↔
      relay.store.rows.lookup i = some row ∧
        (env.ackLost = false → row.recipient = s.deviceId →
          ∀ x ∈ (pollRelayOnce env s relay).opened, x.envelope.envelopeId ≠ i) := by
  rw [(pollRelayOnce_polled env s relay).store]
  by_cases hlost : env.ackLost = true
  · simp [hlost]
  · rw [if_neg hlost, EnvelopeStore.lookup_ack]
    simp only [List.mem_map, hlost]
    constructor
    · rintro ⟨hl, hno⟩
      refine ⟨hl, fun _ hrec x hx hid => hno ⟨⟨x, hx, hid⟩, hrec⟩⟩
    · rintro ⟨hl, hno⟩
      refine ⟨hl, ?_⟩
      rintro ⟨⟨x, hx, hid⟩, hrec⟩
      exact hno trivial hrec x hx hid

omit [Deserialize CreateRoomPayload] [Deserialize MembershipPayload] in
/-- A poll sees rows that the relay had at first. -/
theorem Polling.polled {s s' : NodeSession} {relay relay' : RelayState} {tried : List RelayEnvelope}
    {done : List Opened} (h : Polling s relay tried done s' relay') (env : PollEnv) :
    (∀ e ∈ polledItems env s' relay', Stores relay e) ∧ (polledItems env s' relay').Nodup := by
  rcases polledItems_spec env s' relay' with ⟨hstores, hnodup⟩
  refine ⟨?_, hnodup⟩
  intro e he
  rcases hstores e he with ⟨row, hl, heq⟩
  exact ⟨row, h.rows hl, heq⟩

/-- One more poll. -/
theorem Polling.step {s s' : NodeSession} {relay relay' : RelayState}
    {tried : List RelayEnvelope} {done : List Opened} (h : Polling s relay tried done s' relay')
    (hindep : Independent s relay)
    (env : PollEnv) (hlost : env.ackLost = true → ∀ e ∈ polledItems env s' relay',
      opens s.relayKey s.e2ee e.ciphertext = true → ¬ IsOlm e.ciphertext) :
    Polling s relay (tried ++ polledItems env s' relay')
      (done ++ (pollRelayOnce env s' relay').opened) (pollRelayOnce env s' relay').session
      (pollRelayOnce env s' relay').relay := by
  have hp := pollRelayOnce_polled env s' relay'
  rcases h.polled env with ⟨hstored, hnodup⟩
  refine ⟨hp.relayKey.trans h.relayKey, hp.deviceId.trans h.deviceId,
    hp.relayUri.trans h.relayUri, ?_, ?_, ?_, ?_, ?_⟩
  · rw [hp.e2ee, afterOpening_append, ← h.e2ee, h.relayKey]
  · intro e he
    rcases List.mem_append.1 he with he | he
    · exact h.stored e he
    · exact hstored e he
  · intro i row hl
    exact h.rows (lookup_pollRelayOnce.1 hl).1
  · intro i row hl hopen holm hmem
    rcases lookup_pollRelayOnce.1 hl with ⟨hl', hkept⟩
    rcases List.mem_append.1 hmem with hmem | hmem
    · exact h.fresh hl' hopen holm hmem
    · -- it was fetched, so it was opened and acked, and the ack was not lost
      have hopen' := hopen
      simp only [openable, decide_eq_true_eq] at hopen'
      rcases h.opened hindep hstored hnodup hl' hopen hmem with ⟨x, hx, henv⟩
      rw [← hp.opened] at hx
      cases hack : env.ackLost with
      | true => exact hlost hack _ hmem hopen'.2 holm
      | false =>
          refine hkept hack (hopen'.1.trans h.deviceId.symm) x hx ?_
          rw [henv]
          rfl
  · intro i row hl hopen hnone
    cases hl' : relay'.store.rows.lookup i with
    | none =>
        rcases h.gone hl hopen hl' with ⟨x, hx, henv⟩
        exact ⟨x, List.mem_append_left _ hx, henv⟩
    | some row' =>
        have hrow : row' = row := by
          have := h.rows hl'
          rw [hl] at this
          exact (Option.some.inj this).symm
        subst hrow
        -- the row went with this poll's ack
        have hgone : ¬ (pollRelayOnce env s' relay').relay.store.rows.lookup i = some row' := by
          rw [hnone]
          simp
        rw [lookup_pollRelayOnce] at hgone
        push Not at hgone
        rcases hgone hl' with ⟨_, _, x, hx, hid⟩
        refine ⟨x, List.mem_append_right _ hx, ?_⟩
        have hitem : x.envelope ∈ polledItems env s' relay' := by
          rw [hp.opened] at hx
          exact openAll_subset _ _ _ x hx
        rcases hstored _ hitem with ⟨row₂, hl₂, heq⟩
        rw [hid, h.rows hl'] at hl₂
        cases hl₂
        rw [← heq, hid]

/-- The openable rows that are left. -/
def remaining (s : NodeSession) (relay : RelayState) : List (Bytes32 × EnvelopeRow) :=
  relay.store.table.filter (openable s)

omit [Deserialize CreateRoomPayload] [Deserialize MembershipPayload] in
/-- While an openable envelope is stored, a fetch returns one. -/
theorem Polling.fetches {s s' : NodeSession} {relay relay' : RelayState}
    {tried : List RelayEnvelope} {done : List Opened} (h : Polling s relay tried done s' relay')
    (hearly : ∀ r ∈ relay.store.table, openable s r = true → 0 ≤ r.2.tsMs.toInt)
    (hfew : ∀ r ∈ relay.store.table, openable s r = true →
      (relay.store.table.filter fun b => EnvelopeStore.selects s.deviceId 0 b && !openable s b &&
        decide (EnvelopeStore.tsLe b r)).length < 64)
    (hrem : remaining s relay' ≠ []) (o : IterOrder (Bytes32 × EnvelopeRow)) :
    ∃ r ∈ remaining s relay', r.2.envelope r.1 ∈ relay'.store.fetch o s'.deviceId 0 64 := by
  have hsub : ∀ r ∈ relay'.store.table, r ∈ relay.store.table := by
    rintro ⟨i, row⟩ hr
    exact EnvelopeStore.mem_table.2 (h.rows (EnvelopeStore.mem_table.1 hr))
  have hsel : ∀ r ∈ remaining s relay', EnvelopeStore.selects s.deviceId 0 r = true := by
    intro r hr
    rcases List.mem_filter.1 hr with ⟨hmem, hopen⟩
    have hts := hearly r (hsub r hmem) hopen
    have hrec := hopen
    simp only [openable, decide_eq_true_eq] at hrec
    simpa [EnvelopeStore.selects, hrec.1] using hts
  have hnodup : (o.run relay'.store.table).Nodup :=
    (o.perm _).nodup_iff.2 (List.Nodup.of_map _ EnvelopeStore.nodup_table)
  have hwin : ∃ r ∈ window EnvelopeStore.tsLe 64
      ((o.run relay'.store.table).filter (EnvelopeStore.selects s.deviceId 0)),
      openable s r = true := by
    refine exists_mem_window ?_ ?_
    · rcases List.exists_mem_of_ne_nil _ hrem with ⟨r, hr⟩
      have hr' := List.mem_filter.1 hr
      exact ⟨r, List.mem_filter.2 ⟨o.mem_run.2 hr'.1, hsel r hr⟩, hr'.2⟩
    · intro r hr hopen
      have hr' := o.mem_run.1 (List.mem_filter.1 hr).1
      refine Nat.lt_of_le_of_lt ?_ (hfew r (hsub r hr') hopen)
      -- what stands in the way now did so from the start
      refine (List.subperm_of_subset ((hnodup.filter _).filter _) ?_).length_le
      intro b hb
      rcases List.mem_filter.1 hb with ⟨hb, hpb⟩
      rcases List.mem_filter.1 hb with ⟨hb, hselb⟩
      refine List.mem_filter.2 ⟨hsub b (o.mem_run.1 hb), ?_⟩
      simpa [hselb] using hpb
  rcases hwin with ⟨r, hr, hopen⟩
  refine ⟨r, ?_, ?_⟩
  · have hr' := (List.mem_filter.1 (mem_of_mem_window hr)).1
    exact List.mem_filter.2 ⟨o.mem_run.1 hr', hopen⟩
  · rw [h.deviceId]
    exact List.mem_map.2 ⟨r, hr, rfl⟩

/-- A poll whose ack arrives leaves fewer openable envelopes. -/
theorem Polling.progress {s s' : NodeSession} {relay relay' : RelayState}
    {tried : List RelayEnvelope} {done : List Opened} (h : Polling s relay tried done s' relay')
    (hindep : Independent s relay) {env : PollEnv} {r : Bytes32 × EnvelopeRow}
    (hr : r ∈ remaining s relay') (hitem : r.2.envelope r.1 ∈ polledItems env s' relay')
    (hack : env.ackLost = false) :
    (remaining s (pollRelayOnce env s' relay').relay).length < (remaining s relay').length := by
  rcases h.polled env with ⟨hstored, hnodup⟩
  rcases List.mem_filter.1 hr with ⟨hmem, hopen⟩
  have hl : relay'.store.rows.lookup r.1 = some r.2 := EnvelopeStore.mem_table.1 hmem
  rcases h.opened hindep hstored hnodup hl hopen hitem with ⟨x, hx, henv⟩
  rw [← (pollRelayOnce_polled env s' relay').opened] at hx
  have hrec := hopen
  simp only [openable, decide_eq_true_eq] at hrec
  -- the envelope that was opened is acknowledged
  have hout : r ∉ remaining s (pollRelayOnce env s' relay').relay := by
    intro hin
    have hl₂ := EnvelopeStore.mem_table.1 (List.mem_filter.1 hin).1
    refine (lookup_pollRelayOnce.1 hl₂).2 hack (hrec.1.trans h.deviceId.symm) x hx ?_
    rw [henv]
    rfl
  have hsub : r :: remaining s (pollRelayOnce env s' relay').relay ⊆ remaining s relay' := by
    intro b hb
    rcases List.mem_cons.1 hb with rfl | hb
    · exact hr
    · rcases List.mem_filter.1 hb with ⟨hb, hopenb⟩
      have hlb := (lookup_pollRelayOnce.1 (EnvelopeStore.mem_table.1 hb)).1
      exact List.mem_filter.2 ⟨EnvelopeStore.mem_table.2 hlb, hopenb⟩
  have hnd : (r :: remaining s (pollRelayOnce env s' relay').relay).Nodup := by
    refine List.nodup_cons.2 ⟨hout, ?_⟩
    exact (List.Nodup.of_map _ EnvelopeStore.nodup_table).filter _
  have hle := (List.subperm_of_subset hnd hsub).length_le
  rw [List.length_cons] at hle
  exact Nat.lt_of_succ_le hle

/-! ## Whole runs -/

/-- The node a run of polls leaves has been given exactly the events ingested, in order. -/
theorem node_afterPolls (envs : Nat → PollEnv) (s : NodeSession) (relay : RelayState) (n : Nat) :
    (afterPolls envs s relay n).1.node =
      (s.node.commitRemoteAll ((ingestedBy envs s relay n).map Opened.ev)).2 := by
  induction n with
  | zero => rfl
  | succ n ih =>
      have hp := pollRelayOnce_polled (envs n) (afterPolls envs s relay n).1
        (afterPolls envs s relay n).2
      simp only [afterPolls, ingestedBy, List.map_append]
      rw [hp.node, ih, DeviceNode.commitRemoteAll_append]

theorem Drainable.polling {envs : Nat → PollEnv} {s : NodeSession} {relay : RelayState}
    (hd : Drainable envs s relay) (n : Nat) :
    ∃ tried, Polling s relay tried (ingestedBy envs s relay n) (afterPolls envs s relay n).1
      (afterPolls envs s relay n).2 := by
  induction n with
  | zero => exact ⟨[], Polling.start s relay⟩
  | succ n ih =>
      rcases ih with ⟨tried, h⟩
      exact ⟨_, h.step hd.independent (envs n) (hd.lost n)⟩

omit [Aead] [Primitives] [Deserialize RelayOlmWire] [Deserialize SignedEvent]
  [Deserialize CreateRoomPayload] [Deserialize MembershipPayload] in
/-- A poll that is answered sees what the relay fetches. -/
theorem Answers.polledItems {envs : Nat → PollEnv} {s s' : NodeSession} (h : Answers envs s)
    (huri : s'.relayUri = s.relayUri) (k : Nat) (relay : RelayState) :
    Node.polledItems (envs k) s' relay = relay.store.fetch (envs k).order s'.deviceId 0 64 := by
  rcases h.relay with ⟨uri, peer, hu, hparse⟩
  simp [Node.polledItems, huri, hu, hparse, h.connect k peer, h.fetched k]

/-- A relay that answers, loses finitely many acks and receives no puts is drained: after some
number of polls every envelope the node could open has been ingested and is no longer stored. -/
theorem polls_drain (envs : Nat → PollEnv) (s : NodeSession) (relay : RelayState)
    (hans : Answers envs s) (hfin : ∃ start, ∀ k, start ≤ k → (envs k).ackLost = false)
    (hd : Drainable envs s relay) :
    ∃ n, (∀ i row, relay.store.rows.lookup i = some row → openable s (i, row) = true →
        (∃ x ∈ ingestedBy envs s relay n, x.envelope = row.envelope i) ∧
        (afterPolls envs s relay n).2.store.rows.lookup i = none) ∧
      (afterPolls envs s relay n).1.node =
        (s.node.commitRemoteAll ((ingestedBy envs s relay n).map Opened.ev)).2 := by
  rcases hfin with ⟨start, hfin⟩
  -- the envelopes still to come grow fewer with every poll
  have hempty : ∃ n, remaining s (afterPolls envs s relay n).2 = [] := by
    refine Runs.eventually_of_measure
      (fun k => (remaining s (afterPolls envs s relay k).2).length) start ?_
    intro k hk hne
    rcases hd.polling k with ⟨tried, h⟩
    rcases h.fetches hd.early hd.few hne (envs k).order with ⟨r, hr, hfetch⟩
    rw [← hans.polledItems h.relayUri k] at hfetch
    exact h.progress hd.independent hr hfetch (hfin k hk)
  rcases hempty with ⟨n, hempty⟩
  rcases hd.polling n with ⟨tried, h⟩
  refine ⟨n, ?_, node_afterPolls envs s relay n⟩
  intro i row hl hopen
  have hnone : (afterPolls envs s relay n).2.store.rows.lookup i = none := by
    cases hl' : (afterPolls envs s relay n).2.store.rows.lookup i with
    | none => rfl
    | some row' =>
        have hrow := h.rows hl'
        rw [hl] at hrow
        cases hrow
        have hmem : (i, row) ∈ remaining s (afterPolls envs s relay n).2 :=
          List.mem_filter.2 ⟨EnvelopeStore.mem_table.2 hl', hopen⟩
        rw [hempty] at hmem
        cases hmem
  exact ⟨h.gone hl hopen hnone, hnone⟩

end Drain

/-! ## One lost ack -/

section Example

open Checksum DeviceNode

@[reducible] def helloBook : Olm :=
  Symbolic.olm [toVec hello]

attribute [local instance] Checksum.primitives helloBook Symbolic.aead

/-- The first message device 1 sends to device 2, with `hello` inside. -/
def olmWire : RelayOlmWire :=
  { v := 1
    senderCurve25519B64 := "curve"
    olm :=
      { senderDevice := device 1
        recipientDevice := device 2
        messageJson := Symbolic.message true 0 0 } }

def olmEnvelope : RelayEnvelope :=
  RelayEnvelope.new (device 2) (device 1) (some (room 1)) (relaySealV2Olm :: toVec olmWire) 1

@[reducible] def wireReader : Deserialize RelayOlmWire :=
  .ofTable [olmWire]

attribute [local instance] eventReader wireReader noCreates noMemberships

/-- Only the first ack is lost. -/
def firstAckLost (k : Nat) : PollEnv :=
  { clearEnv with ackLost := k = 0 }

theorem firstAckLost_answers : Answers firstAckLost (relaySession [toVec hello] 2) := by
  refine ⟨⟨"td://relay:7700", ⟨"relay", 7700, false, false⟩, rfl, ?_⟩, fun _ _ => rfl, fun _ => rfl⟩
  decide +kernel

def olmRow : EnvelopeRow :=
  { recipient := device 2
    sender := device 1
    roomId := some (room 1)
    ciphertext := olmEnvelope.ciphertext
    tsMs := 1 }

/-- What the relay stores of the envelope, and what the first poll makes of it. -/
theorem olmEnvelope_stored :
    Symbolic.position olmWire.olm.messageJson = 0 ∧
      Symbolic.isPreKey olmWire.olm.messageJson = true ∧
      (relayWith olmEnvelope).store.rows.lookup olmEnvelope.envelopeId = some olmRow ∧
      openable (relaySession [toVec hello] 2) (olmEnvelope.envelopeId, olmRow) = true ∧
      polledItems (firstAckLost 0) (relaySession [toVec hello] 2) (relayWith olmEnvelope) =
        [olmEnvelope] := by
  decide +kernel

/-- A relay that was given one envelope stores no other. -/
theorem lookup_relayWith {env : RelayEnvelope} {i : Bytes32} {row : EnvelopeRow}
    (h : (relayWith env).store.rows.lookup i = some row) :
    i = env.envelopeId ∧ row =
      { recipient := env.recipientDevice
        sender := env.senderDevice
        roomId := env.roomId
        ciphertext := env.ciphertext
        tsMs := env.tsMs.toInt64 } := by
  unfold relayWith EnvelopeStore.put at h
  dsimp only at h
  split at h
  · simp [EnvelopeStore.empty] at h
  · split at h
    · simp [EnvelopeStore.empty] at h
    · simp only [EnvelopeStore.empty, AList.notMem_empty, if_false, HashMap.lookup_insert_eq] at h
      by_cases hi : i = env.envelopeId
      · simpa [hi] using h.symm
      · simp [hi] at h

/-- Device 2 has used the key of the first message of device 1. -/
def Used (e2ee : E2eeDevice) : Prop :=
  e2ee.deviceId = device 2 ∧
    ∃ session : Symbolic.Session, e2ee.olmSessions.lookup (device 1) = some session ∧
      0 ∈ session.received

/-- A wire whose message key is used does not open again. -/
theorem opening_used {e2ee : E2eeDevice} {key : Bytes32} {wire : RelayOlmWire}
    {session : Symbolic.Session} (hread : Deserialize.fromSlice (toVec wire) = some wire)
    (hv : wire.v = 1) (hrec : wire.olm.recipientDevice = e2ee.deviceId)
    (hl : e2ee.olmSessions.lookup wire.olm.senderDevice = some session)
    (hused : Symbolic.position wire.olm.messageJson ∈ session.received) :
    openFromRelayAuto e2ee (some key) (relaySealV2Olm :: toVec wire) =
      (.error (.relaySeal (.olm (.decrypt "missing message key"))),
        { e2ee with olmSessions := e2ee.olmSessions.insert wire.olm.senderDevice session }) := by
  have hmsg : Olm.messageFromJson wire.olm.messageJson = some wire.olm.messageJson := rfl
  have hfail : Olm.decrypt session wire.olm.messageJson =
      (.error "missing message key", session) := if_pos hused
  have hdecrypt : e2ee.olmDecrypt wire.senderCurve25519B64 wire.olm =
      (.error (.decrypt "missing message key"),
        { e2ee with olmSessions := e2ee.olmSessions.insert wire.olm.senderDevice session }) := by
    simp only [E2eeDevice.olmDecrypt, hrec, ne_eq, not_true_eq_false, if_false, hmsg, hl, hfail]
  simp [openFromRelayAuto, openBytesAuto, openBytesOlm, hread, hv, hdecrypt]

/-- The first message of a peer uses up its key. -/
theorem opening_first {e2ee : E2eeDevice} {key : Bytes32} {wire : RelayOlmWire}
    (hread : Deserialize.fromSlice (toVec wire) = some wire) (hv : wire.v = 1)
    (hrec : wire.olm.recipientDevice = e2ee.deviceId)
    (hl : e2ee.olmSessions.lookup wire.olm.senderDevice = none)
    (hpre : Symbolic.isPreKey wire.olm.messageJson = true) :
    (openFromRelayAuto e2ee (some key) (relaySealV2Olm :: toVec wire)).2 =
      { e2ee with
        olmSessions := e2ee.olmSessions.insert wire.olm.senderDevice
          { sent := 0, received := [Symbolic.position wire.olm.messageJson] } } := by
  have hmsg : Olm.messageFromJson wire.olm.messageJson = some wire.olm.messageJson := rfl
  have hpre' : Olm.isPreKey wire.olm.messageJson = true := hpre
  have hcurve : Olm.curveFromBase64 wire.senderCurve25519B64 = some wire.senderCurve25519B64 := rfl
  have hdecrypt : e2ee.olmDecrypt wire.senderCurve25519B64 wire.olm =
      (.ok (Symbolic.plaintext [toVec hello] wire.olm.messageJson),
        { e2ee with
          olmSessions := e2ee.olmSessions.insert wire.olm.senderDevice
            { sent := 0, received := [Symbolic.position wire.olm.messageJson] } }) := by
    simp only [E2eeDevice.olmDecrypt, hrec, ne_eq, not_true_eq_false, if_false, hmsg, hl, hpre',
      if_true, hcurve]
    rfl
  simp [openFromRelayAuto, openBytesAuto, openBytesOlm, hread, hv, hdecrypt]

theorem olmWire_read : Deserialize.fromSlice (α := RelayOlmWire) (toVec olmWire) = some olmWire := by
  simp [Deserialize.fromSlice]

theorem Used.first {e2ee : E2eeDevice} (key : Bytes32) (hdev : e2ee.deviceId = device 2)
    (hl : e2ee.olmSessions.lookup (device 1) = none) :
    Used (openFromRelayAuto e2ee (some key) olmEnvelope.ciphertext).2 := by
  have hct : olmEnvelope.ciphertext = relaySealV2Olm :: toVec olmWire := rfl
  have hsender : olmWire.olm.senderDevice = device 1 := rfl
  have hrec : olmWire.olm.recipientDevice = device 2 := rfl
  rcases olmEnvelope_stored with ⟨hposition, hpre, _, _, _⟩
  rw [hct, opening_first olmWire_read rfl (hrec.trans hdev.symm) (hsender ▸ hl) hpre]
  refine ⟨hdev, { sent := 0, received := [Symbolic.position olmWire.olm.messageJson] }, ?_, ?_⟩
  · rw [hsender]
    exact AList.lookup_insert _
  · simp [hposition]

theorem Used.opening {e2ee : E2eeDevice} (h : Used e2ee) (key : Bytes32) :
    ∃ err e2ee', openFromRelayAuto e2ee (some key) olmEnvelope.ciphertext = (.error err, e2ee') ∧
      Used e2ee' := by
  rcases h with ⟨hdev, session, hl, hused⟩
  have hct : olmEnvelope.ciphertext = relaySealV2Olm :: toVec olmWire := rfl
  have hsender : olmWire.olm.senderDevice = device 1 := rfl
  have hrec : olmWire.olm.recipientDevice = device 2 := rfl
  rw [hct, opening_used olmWire_read rfl (hrec.trans hdev.symm) (hsender ▸ hl)
    (olmEnvelope_stored.1 ▸ hused)]
  refine ⟨_, _, rfl, hdev, session, ?_, hused⟩
  rw [hsender]
  exact AList.lookup_insert _

/-- Nothing more is opened once the key is used. -/
theorem Used.openAll (key : Bytes32) (items : List RelayEnvelope) : ∀ {e2ee : E2eeDevice},
    Used e2ee → (∀ env ∈ items, env.ciphertext = olmEnvelope.ciphertext) →
    Node.openAll key e2ee items = [] ∧ Used (afterOpening key e2ee items) := by
  induction items with
  | nil => exact fun h _ => ⟨rfl, h⟩
  | cons env items ih =>
      intro e2ee h hall
      rcases h.opening key with ⟨err, e2ee', hopen, h'⟩
      rw [← hall env (by simp)] at hopen
      have := ih h' fun e he => hall e (List.mem_cons_of_mem _ he)
      simpa [Node.openAll, afterOpening, hopen] using this

/-- The first poll opens the envelope, and its ack is lost: from then on the envelope stays. -/
theorem rows_afterPolls_olmEnvelope (n : Nat) :
    (afterPolls firstAckLost (relaySession [toVec hello] 2) (relayWith olmEnvelope) n).2.store.rows =
      (relayWith olmEnvelope).store.rows ∧
    (0 < n → Used (afterPolls firstAckLost (relaySession [toVec hello] 2) (relayWith olmEnvelope) n).1.e2ee) := by
  induction n with
  | zero => exact ⟨rfl, fun h => absurd h (by simp)⟩
  | succ n ih =>
      have hp := pollRelayOnce_polled (firstAckLost n)
        (afterPolls firstAckLost (relaySession [toVec hello] 2) (relayWith olmEnvelope) n).1
        (afterPolls firstAckLost (relaySession [toVec hello] 2) (relayWith olmEnvelope) n).2
      simp only [afterPolls]
      cases n with
      -- the first poll opens the envelope and loses the acknowledgement
      | zero =>
          rcases olmEnvelope_stored with ⟨_, _, _, _, hitems⟩
          refine ⟨?_, fun _ => ?_⟩
          · have hlost : (firstAckLost 0).ackLost = true := rfl
            rw [hp.store, if_pos hlost]
            exact ih.1
          · rw [hp.e2ee]
            simp only [afterPolls, hitems, afterOpening]
            exact Used.first _ rfl rfl
      -- every later poll finds the ratchet used
      | succ m =>
          rcases ih with ⟨hrows, hused⟩
          have hall := Used.openAll
            (afterPolls firstAckLost (relaySession [toVec hello] 2) (relayWith olmEnvelope) (m + 1)).1.relayKey
            (polledItems (firstAckLost (m + 1))
            (afterPolls firstAckLost (relaySession [toVec hello] 2) (relayWith olmEnvelope) (m + 1)).1
            (afterPolls firstAckLost (relaySession [toVec hello] 2) (relayWith olmEnvelope) (m + 1)).2)
            (hused (by omega)) ?_
          · refine ⟨?_, fun _ => ?_⟩
            · rw [hp.store, hp.opened, hall.1]
              exact hrows
            · rw [hp.e2ee]
              exact hall.2
          · intro env henv
            rcases (polledItems_spec _ _ _).1 env henv with ⟨row, hl, heq⟩
            rw [hrows] at hl
            rw [← heq]
            simp [EnvelopeRow.envelope, (lookup_relayWith hl).2]

theorem firstAckLost_finite : ∃ start, ∀ k, start ≤ k → (firstAckLost k).ackLost = false := by
  refine ⟨1, fun k hk => ?_⟩
  have hne : k ≠ 0 := by
    omega
  simp [firstAckLost, hne]

theorem polls_keep_olmEnvelope :
    ¬ ∀ (envs : Nat → PollEnv) (s : NodeSession) (relay : RelayState), Answers envs s →
      (∃ start, ∀ k, start ≤ k → (envs k).ackLost = false) →
      ∃ n, ∀ i row, relay.store.rows.lookup i = some row → openable s (i, row) = true →
        (∃ x ∈ ingestedBy envs s relay n, x.envelope = row.envelope i) ∧
        (afterPolls envs s relay n).2.store.rows.lookup i = none := by
  intro h
  rcases h firstAckLost (relaySession [toVec hello] 2) (relayWith olmEnvelope) firstAckLost_answers
    firstAckLost_finite with ⟨n, hn⟩
  rcases olmEnvelope_stored with ⟨_, _, hlookup, hopen, _⟩
  have hgone := (hn olmEnvelope.envelopeId olmRow hlookup hopen).2
  rw [(rows_afterPolls_olmEnvelope n).1, hlookup] at hgone
  exact Option.some_ne_none olmRow hgone

/-! ## A v1 envelope survives a lost ack -/

theorem sealedV1_not_isOlm (ev : SignedEvent) : ¬ IsOlm (sealedV1 ev).ciphertext := by
  simp [IsOlm, sealedV1, RelayEnvelope.new, relaySealV1, relaySealV2Olm]

theorem ciphertext_of_stores {ev : SignedEvent} {env : RelayEnvelope}
    (h : Stores (relayWith (sealedV1 ev)) env) : env.ciphertext = (sealedV1 ev).ciphertext := by
  rcases h with ⟨row, hl, heq⟩
  rw [← heq]
  simp [EnvelopeRow.envelope, (lookup_relayWith hl).2]

/-- What the relay stores of the v1 envelope. -/
theorem sealedV1_stored :
    (relayWith (sealedV1 hello)).store.table.length < 64 ∧
      (relayWith (sealedV1 hello)).store.rows.lookup (sealedV1 hello).envelopeId =
        some { olmRow with ciphertext := (sealedV1 hello).ciphertext } ∧
      openable (relaySession [toVec hello] 2) ((sealedV1 hello).envelopeId,
        { olmRow with ciphertext := (sealedV1 hello).ciphertext }) = true := by
  decide +kernel

theorem drainable_hello :
    Drainable firstAckLost (relaySession [toVec hello] 2) (relayWith (sealedV1 hello)) := by
  have hrow : ∀ r ∈ (relayWith (sealedV1 hello)).store.table,
      r.2.ciphertext = (sealedV1 hello).ciphertext ∧ r.2.tsMs = (sealedV1 hello).tsMs.toInt64 := by
    intro r hr
    rw [(lookup_relayWith (EnvelopeStore.mem_table.1 hr)).2]
    exact ⟨rfl, rfl⟩
  have hlen : (relayWith (sealedV1 hello)).store.table.length < 64 := sealedV1_stored.1
  refine ⟨?_, ?_, ?_, ?_⟩
  · intro r hr _
    rw [(hrow r hr).2]
    decide +kernel
  · intro r _ _
    exact Nat.lt_of_le_of_lt (List.length_filter_le _ _) hlen
  · intro r hr _ holm
    rw [(hrow r hr).1] at holm
    exact absurd holm (sealedV1_not_isOlm hello)
  · intro k hk env henv _
    have hk0 : k = 0 := by
      simpa [firstAckLost] using hk
    subst hk0
    rw [ciphertext_of_stores ((polledItems_spec _ _ _).1 env henv)]
    exact sealedV1_not_isOlm hello

theorem polls_drain_hello :
    openable (relaySession [toVec hello] 2) ((sealedV1 hello).envelopeId,
      { olmRow with ciphertext := (sealedV1 hello).ciphertext }) = true ∧
    ∃ n, (afterPolls firstAckLost (relaySession [toVec hello] 2)
      (relayWith (sealedV1 hello)) n).2.store.rows.lookup (sealedV1 hello).envelopeId = none := by
  rcases sealedV1_stored with ⟨_, hl, hopen⟩
  rcases polls_drain firstAckLost (relaySession [toVec hello] 2) (relayWith (sealedV1 hello))
    firstAckLost_answers firstAckLost_finite drainable_hello with ⟨n, hn, _⟩
  exact ⟨hopen, n, (hn _ _ hl hopen).2⟩

end Example

end Node
end Thunderducks
