import Mathlib.Logic.Function.Basic
import Thunderducks.Lib.Runs
import Thunderducks.Crypto.E2ee
import Thunderducks.Crypto.Symbolic

/-!
# RoomE2ee — the shared Megolm session of a room (`send_message` in `td-node/src/rpc.rs`)

Every node of a room encrypts with its own copy of one outbound session.  `send_message` exports the
copy before it encrypts, and a peer that imports the export holds the position the sender has just
used.  `noClash_iff` says along which runs no position is ever used for two texts.
-/

namespace Thunderducks
namespace Node

open Lib Crypto

section Send

variable [Olm]

/-- `NodeSession::ensure_room_e2ee`; `freshId` is the id a new session would draw. -/
def ensureRoomE2ee (e2ee : E2eeDevice) (roomHex freshId : String) : E2eeDevice :=
  if e2ee.hasOutbound roomHex then e2ee else (e2ee.createGroupSession roomHex freshId).2

/-- What `send_message` does to the room session: the package is exported before the encryption. -/
def sendMegolm (e2ee : E2eeDevice) (roomHex freshId : String) (plain : Bytes) :
    Except E2eeError RoomOutboundPackage × Except E2eeError MegolmCiphertext × E2eeDevice :=
  let e2ee := ensureRoomE2ee e2ee roomHex freshId
  let roomOutbound := e2ee.exportRoomOutbound roomHex
  let (ct, e2ee) := e2ee.megolmEncrypt roomHex plain
  (roomOutbound, ct, e2ee)

/-- The copy of the room session that the next message of the room will be encrypted with. -/
def roomSession (e2ee : E2eeDevice) (roomHex freshId : String) : GroupSession :=
  (e2ee.outboundMegolm.lookup roomHex).getD (GroupSession.new freshId)

/-- What an export of a session carries. -/
def packageOf (dev : Event.DeviceId) (roomHex : String) (s : GroupSession) : RoomOutboundPackage :=
  { v := 1
    roomId := roomHex
    sessionId := s.sessionId
    messageIndex := s.messageIndex
    pickleB64 := .of s
    sessionKeyB64 := .of s.sessionKey
    ownerDevice := dev }

theorem lookup_ensureRoomE2ee (e2ee : E2eeDevice) (roomHex freshId : String) :
    (ensureRoomE2ee e2ee roomHex freshId).outboundMegolm.lookup roomHex =
      some (roomSession e2ee roomHex freshId) ∧
    ∀ r, r ≠ roomHex → (ensureRoomE2ee e2ee roomHex freshId).outboundMegolm.lookup r =
      e2ee.outboundMegolm.lookup r := by
  unfold ensureRoomE2ee roomSession E2eeDevice.hasOutbound
  cases h : e2ee.outboundMegolm.lookup roomHex with
  | some s =>
      have hmem : roomHex ∈ e2ee.outboundMegolm := HashMap.mem_of_lookup h
      simp [hmem, h]
  | none =>
      have hmem : roomHex ∉ e2ee.outboundMegolm := AList.lookup_eq_none.1 h
      have hnone : e2ee.groupSessionId roomHex = none := by
        simp [E2eeDevice.groupSessionId, h]
      refine ⟨?_, ?_⟩
      · simp [hmem, E2eeDevice.createGroupSession, hnone]
      · intro r hr
        simp [hmem, E2eeDevice.createGroupSession, hnone, AList.lookup_insert_ne hr]

/-- One call of `send_message`: the package, the message and the copy it leaves. -/
theorem sendMegolm_spec (e2ee : E2eeDevice) (roomHex freshId : String) (plain : Bytes) :
    ∃ dev e2ee', sendMegolm e2ee roomHex freshId plain =
      (.ok (packageOf dev roomHex (roomSession e2ee roomHex freshId)),
        .ok { senderDevice := dev
              sessionId := (roomSession e2ee roomHex freshId).sessionId
              ciphertextB64 := .of ((roomSession e2ee roomHex freshId).encrypt plain).1 },
        e2ee') ∧
      e2ee'.outboundMegolm.lookup roomHex =
        some ((roomSession e2ee roomHex freshId).encrypt plain).2 ∧
      ∀ r, r ≠ roomHex → e2ee'.outboundMegolm.lookup r = e2ee.outboundMegolm.lookup r := by
  rcases lookup_ensureRoomE2ee e2ee roomHex freshId with ⟨hl, hother⟩
  let ensured := ensureRoomE2ee e2ee roomHex freshId
  let sent := ((roomSession e2ee roomHex freshId).encrypt plain).2
  refine ⟨ensured.deviceId,
    { ensured with outboundMegolm := ensured.outboundMegolm.insert roomHex sent }, ?_, ?_, ?_⟩
  · simp only [sendMegolm, E2eeDevice.exportRoomOutbound, E2eeDevice.megolmEncrypt, hl]
    rfl
  · exact AList.lookup_insert _
  · intro r hr
    exact (AList.lookup_insert_ne hr).trans (hother r hr)

/-- One import of an exported session: nothing changes, or the room gets the session. -/
theorem importRoomOutbound_spec (e2ee : E2eeDevice) (dev : Event.DeviceId) (roomHex : String)
    (s : GroupSession) :
    (e2ee.importRoomOutbound (packageOf dev roomHex s)).2.outboundMegolm = e2ee.outboundMegolm ∨
    ((∀ loc, e2ee.outboundMegolm.lookup roomHex = some loc →
        loc.sessionId = s.sessionId ∧ loc.messageIndex ≤ s.messageIndex) ∧
      (e2ee.importRoomOutbound (packageOf dev roomHex s)).2.outboundMegolm =
        e2ee.outboundMegolm.insert roomHex s) := by
  have hpackage : E2eeDevice.PackageHolds (packageOf dev roomHex s) s := ⟨rfl, by simp [packageOf], rfl, rfl⟩
  rcases e2ee.importRoomOutbound_cases (packageOf dev roomHex s) with ⟨_, hsame⟩ | ⟨session, hholds, hall, hnew⟩
  · exact Or.inl hsame
  · have heq : session = s := Option.some.inj (hholds.pickle.symm.trans hpackage.pickle)
    exact Or.inr ⟨hall, heq ▸ hnew⟩

end Send

/-! ## A network of nodes -/

section Network

variable [Olm] {ι : Type}

/-- Nodes with their sessions, the packages exported so far, and the messages encrypted so far. -/
structure Network (ι : Type) where
  nodes : ι → E2eeDevice
  exported : List RoomOutboundPackage
  sent : List MegolmMessage

inductive NetAction (ι : Type)
  | send (i : ι) (roomHex freshId : String) (plain : Bytes)
  | deliver (i : ι) (pkg : RoomOutboundPackage)

namespace Network

/-- Nodes that have just been created, with no session yet. -/
def start (deviceId : ι → Event.DeviceId) (account : ι → Olm.Account) : Network ι :=
  { nodes := fun i => E2eeDevice.new (deviceId i) (account i)
    exported := []
    sent := [] }

/-- The message of a ciphertext, when the encryption succeeded. -/
def messageOf (ct : Except E2eeError MegolmCiphertext) : List MegolmMessage :=
  match ct with
  | .ok ct => ct.ciphertextB64.decode.toList
  | .error _ => []

/-- One call of `send_message`, or one delivery of an exported package. -/
def step [DecidableEq ι] (net : Network ι) : NetAction ι → Network ι
  | .send i roomHex freshId plain =>
      let (pkg, ct, e2ee) := sendMegolm (net.nodes i) roomHex freshId plain
      { nodes := Function.update net.nodes i e2ee
        exported := net.exported ++ pkg.toOption.toList
        sent := net.sent ++ messageOf ct }
  | .deliver i pkg =>
      { net with nodes := Function.update net.nodes i ((net.nodes i).importRoomOutbound pkg).2 }

/-- Node `i` holds a copy `s` of a session. -/
def Holds (net : Network ι) (i : ι) (s : GroupSession) : Prop :=
  ∃ roomHex, (net.nodes i).outboundMegolm.lookup roomHex = some s

/-- Any node may send at any time; only exported packages are delivered. -/
def Allowed (net : Network ι) : NetAction ι → Prop
  | .send _ _ _ _ => True
  | .deliver _ pkg => pkg ∈ net.exported

/-- No position of a session was used for two texts. -/
def NoClash (net : Network ι) : Prop :=
  ∀ m ∈ net.sent, ∀ m' ∈ net.sent, m.sessionId = m'.sessionId →
    m.messageIndex = m'.messageIndex → m.plaintext = m'.plaintext

/-- A message sent at the position of `s`. -/
def UsedAt (net : Network ι) (s : GroupSession) (m : MegolmMessage) : Prop :=
  m ∈ net.sent ∧ m.sessionId = s.sessionId ∧ m.messageIndex = s.messageIndex

/-- The sender's copy of the room session is not behind any other copy, or the text is the one that
was sent at this position already. -/
def InStep (net : Network ι) : NetAction ι → Prop
  | .send i roomHex freshId plain =>
      let s := roomSession (net.nodes i) roomHex freshId
      (∀ j s', net.Holds j s' → s'.sessionId = s.sessionId → s'.messageIndex ≤ s.messageIndex) ∨
        ∃ m, net.UsedAt s m ∧ m.plaintext = plain
  | .deliver _ _ => True

/-! ### The invariant -/

/-- Every position before that of `s` has been used. -/
def Covered (net : Network ι) (s : GroupSession) : Prop :=
  ∀ k < s.messageIndex, ∃ m ∈ net.sent, m.sessionId = s.sessionId ∧ m.messageIndex = k

structure Inv (net : Network ι) : Prop where
  held : ∀ i s, net.Holds i s → net.Covered s
  packed : ∀ pkg ∈ net.exported, ∃ dev roomHex s, pkg = packageOf dev roomHex s ∧ net.Covered s
  passed : ∀ m ∈ net.sent, ∃ i s, net.Holds i s ∧ s.sessionId = m.sessionId ∧
    m.messageIndex < s.messageIndex

theorem inv_start (deviceId : ι → Event.DeviceId) (account : ι → Olm.Account) :
    (start deviceId account).Inv := by
  refine ⟨?_, ?_, ?_⟩
  · rintro i s ⟨roomHex, hl⟩
    simp [start, E2eeDevice.new] at hl
  · intro pkg hpkg
    cases hpkg
  · intro m hm
    cases hm

theorem Covered.mono {net net' : Network ι} {s : GroupSession} (h : net.Covered s)
    (hsent : ∀ m ∈ net.sent, m ∈ net'.sent) : net'.Covered s := by
  intro k hk
  rcases h k hk with ⟨m, hm, heq⟩
  exact ⟨m, hsent m hm, heq⟩

/-- The copy a send uses is one that the node holds, or a new one. -/
theorem roomSession_cases (net : Network ι) (i : ι) (roomHex freshId : String) :
    (net.nodes i).outboundMegolm.lookup roomHex =
        some (roomSession (net.nodes i) roomHex freshId) ∨
      ((net.nodes i).outboundMegolm.lookup roomHex = none ∧
        roomSession (net.nodes i) roomHex freshId = GroupSession.new freshId) := by
  unfold roomSession
  cases (net.nodes i).outboundMegolm.lookup roomHex with
  | none => exact Or.inr ⟨rfl, rfl⟩
  | some s => exact Or.inl rfl

theorem covered_roomSession {net : Network ι} (h : net.Inv) (i : ι) (roomHex freshId : String) :
    net.Covered (roomSession (net.nodes i) roomHex freshId) := by
  rcases net.roomSession_cases i roomHex freshId with hl | ⟨_, hnew⟩
  · exact h.held i _ ⟨roomHex, hl⟩
  · rw [hnew]
    intro k hk
    exact absurd hk (Nat.not_lt_zero k)

section Step

variable [DecidableEq ι]

/-- What a `send` does, with the session it uses. -/
theorem step_send (net : Network ι) (i : ι) (roomHex freshId : String) (plain : Bytes) :
    let s := roomSession (net.nodes i) roomHex freshId
    ∃ dev e2ee', net.step (.send i roomHex freshId plain) =
      { nodes := Function.update net.nodes i e2ee'
        exported := net.exported ++ [packageOf dev roomHex s]
        sent := net.sent ++ [(s.encrypt plain).1] } ∧
      e2ee'.outboundMegolm.lookup roomHex = some (s.encrypt plain).2 ∧
      ∀ r, r ≠ roomHex →
        e2ee'.outboundMegolm.lookup r = (net.nodes i).outboundMegolm.lookup r := by
  intro s
  rcases sendMegolm_spec (net.nodes i) roomHex freshId plain with ⟨dev, e2ee', heq, hl, hother⟩
  refine ⟨dev, e2ee', ?_, hl, hother⟩
  simp only [step, heq]
  rfl

/-- Sending keeps the invariant. -/
theorem Inv.send {net : Network ι} (h : net.Inv) (i : ι) (roomHex freshId : String)
    (plain : Bytes) : (net.step (.send i roomHex freshId plain)).Inv := by
  have hcov := covered_roomSession h i roomHex freshId
  rcases net.step_send i roomHex freshId plain with ⟨dev, e2ee', heq, hl, hother⟩
  generalize hs : roomSession (net.nodes i) roomHex freshId = s at *
  rw [heq]
  have hsub : ∀ m ∈ net.sent, m ∈ net.sent ++ [(s.encrypt plain).1] := by
    intro m hm
    simp [hm]
  refine ⟨?_, ?_, ?_⟩
  · rintro j s' ⟨r, hr⟩
    by_cases hj : j = i
    · subst hj
      simp only [Function.update_self] at hr
      by_cases hroom : r = roomHex
      · -- the copy that has just moved on: its last position is the new message's
        subst hroom
        rw [hl] at hr
        cases hr
        intro k hk
        rcases Nat.lt_succ_iff_lt_or_eq.1 hk with hlt | rfl
        · exact hcov.mono hsub k hlt
        · exact ⟨(s.encrypt plain).1, by simp, rfl, rfl⟩
      · rw [hother r hroom] at hr
        exact (h.held j s' ⟨r, hr⟩).mono hsub
    · simp only [Function.update_of_ne hj] at hr
      exact (h.held j s' ⟨r, hr⟩).mono hsub
  · intro pkg hpkg
    rcases List.mem_append.1 hpkg with hpkg | hpkg
    · rcases h.packed pkg hpkg with ⟨dev', r, s', hEq, hc⟩
      exact ⟨dev', r, s', hEq, hc.mono hsub⟩
    · exact ⟨dev, roomHex, s, List.mem_singleton.1 hpkg, hcov.mono hsub⟩
  · intro m hm
    rcases List.mem_append.1 hm with hm | hm
    · rcases h.passed m hm with ⟨j, s', ⟨r, hr⟩, hsid, hlt⟩
      by_cases hj : j = i
      · subst hj
        by_cases hroom : r = roomHex
        · subst hroom
          -- the holder's copy is the one that moved
          have hEq : s' = s := by
            rw [← hs, roomSession, hr]
            rfl
          subst hEq
          refine ⟨j, (s'.encrypt plain).2, ⟨r, by simpa using hl⟩, hsid, ?_⟩
          exact Nat.lt_succ_of_lt hlt
        · exact ⟨j, s', ⟨r, by simpa [hother r hroom] using hr⟩, hsid, hlt⟩
      · exact ⟨j, s', ⟨r, by simpa [Function.update_of_ne hj] using hr⟩, hsid, hlt⟩
    · rw [List.mem_singleton.1 hm]
      exact ⟨i, (s.encrypt plain).2, ⟨roomHex, by simpa using hl⟩, rfl, Nat.lt_succ_self _⟩

/-- Delivering an exported package keeps the invariant. -/
theorem Inv.deliver {net : Network ι} (h : net.Inv) (i : ι) {pkg : RoomOutboundPackage}
    (hpkg : pkg ∈ net.exported) : (net.step (.deliver i pkg)).Inv := by
  rcases h.packed pkg hpkg with ⟨dev, roomHex, s, rfl, hcov⟩
  rcases importRoomOutbound_spec (net.nodes i) dev roomHex s with hsame | ⟨hloc, hnew⟩
  · -- the copies are what they were
    have hholds : ∀ j s', (net.step (.deliver i (packageOf dev roomHex s))).Holds j s' ↔
        net.Holds j s' := by
      intro j s'
      unfold Holds
      by_cases hj : j = i
      · subst hj
        simp [step, hsame]
      · simp [step, Function.update_of_ne hj]
    refine ⟨fun j s' hh => h.held j s' ((hholds j s').1 hh), h.packed, ?_⟩
    intro m hm
    rcases h.passed m hm with ⟨j, s', hh, hrest⟩
    exact ⟨j, s', (hholds j s').2 hh, hrest⟩
  · have hlook : ∀ j r, ((net.step (.deliver i (packageOf dev roomHex s))).nodes j).outboundMegolm.lookup r =
        if j = i ∧ r = roomHex then some s else (net.nodes j).outboundMegolm.lookup r := by
      intro j r
      by_cases hj : j = i
      · subst hj
        simp [step, hnew, HashMap.lookup_insert_eq]
      · simp [step, hj]
    refine ⟨?_, h.packed, ?_⟩
    · rintro j s' ⟨r, hr⟩
      rw [hlook] at hr
      split at hr
      · cases hr
        exact hcov
      · exact h.held j s' ⟨r, hr⟩
    · intro m hm
      rcases h.passed m hm with ⟨j, s', ⟨r, hr⟩, hsid, hlt⟩
      by_cases hat : j = i ∧ r = roomHex
      · rcases hat with ⟨rfl, rfl⟩
        rcases hloc s' hr with ⟨hsid', hle⟩
        exact ⟨j, s, ⟨r, by simp [hlook]⟩, hsid'.symm.trans hsid, Nat.lt_of_lt_of_le hlt hle⟩
      · exact ⟨j, s', ⟨r, by rw [hlook, if_neg hat]; exact hr⟩, hsid, hlt⟩

theorem Inv.step {net : Network ι} (h : net.Inv) (act : NetAction ι) (hok : net.Allowed act) :
    (net.step act).Inv := by
  cases act with
  | send i roomHex freshId plain => exact h.send i roomHex freshId plain
  | deliver i pkg => exact h.deliver i hok

/-! ### When a step keeps the positions apart -/

theorem noClash_step_iff {net : Network ι} (h : net.Inv) (act : NetAction ι)
    (hp : net.NoClash) : (net.step act).NoClash ↔ net.InStep act := by
  cases act with
  | deliver i pkg => exact iff_of_true hp trivial
  | send i roomHex freshId plain =>
      have hcov := covered_roomSession h i roomHex freshId
      rcases net.step_send i roomHex freshId plain with ⟨dev, e2ee', heq, _, _⟩
      simp only [InStep]
      generalize hs : roomSession (net.nodes i) roomHex freshId = s at *
      -- the new message is at the position of `s`
      have hsent : (net.step (.send i roomHex freshId plain)).sent =
          net.sent ++ [(s.encrypt plain).1] := by
        rw [heq]
      unfold NoClash
      rw [hsent]
      constructor
      · intro hall
        by_cases hahead : ∀ j s', net.Holds j s' → s'.sessionId = s.sessionId →
            s'.messageIndex ≤ s.messageIndex
        · exact Or.inl hahead
        · push Not at hahead
          rcases hahead with ⟨j, s', hh, hsid, hlt⟩
          rcases h.held j s' hh s.messageIndex hlt with ⟨m, hm, hmsid, hmidx⟩
          refine Or.inr ⟨m, ⟨hm, hmsid.trans hsid, hmidx⟩, ?_⟩
          exact hall m (by simp [hm]) (s.encrypt plain).1 (by simp) (hmsid.trans hsid) hmidx
      · intro hstep
        -- every message at this position carries `plain`
        have hat : ∀ m, net.UsedAt s m → m.plaintext = plain := by
          rintro m ⟨hm, hmsid, hmidx⟩
          rcases hstep with hahead | ⟨m₀, ⟨hm₀, hsid₀, hidx₀⟩, htext⟩
          · rcases h.passed m hm with ⟨j, s', hh, hsid, hlt⟩
            have hle := hahead j s' hh (hsid.trans hmsid)
            omega
          · rw [← htext]
            exact hp m hm m₀ hm₀ (hmsid.trans hsid₀.symm) (hmidx.trans hidx₀.symm)
        intro m hm m' hm' hsid hidx
        rcases List.mem_append.1 hm with hm | hm <;> rcases List.mem_append.1 hm' with hm' | hm'
        · exact hp m hm m' hm' hsid hidx
        · rw [List.mem_singleton.1 hm'] at hsid hidx ⊢
          exact hat m ⟨hm, hsid, hidx⟩
        · rw [List.mem_singleton.1 hm] at hsid hidx ⊢
          exact (hat m' ⟨hm', hsid.symm, hidx.symm⟩).symm
        · rw [List.mem_singleton.1 hm, List.mem_singleton.1 hm']

/-- In every run of any number of nodes, no position is ever used for two texts exactly when every
send is in step. -/
theorem noClash_iff_inStep (deviceId : ι → Event.DeviceId) (account : ι → Olm.Account)
    (acts : List (NetAction ι)) (hok : Runs.Along step Allowed (start deviceId account) acts) :
    Runs.Always step NoClash (start deviceId account) acts ↔
      Runs.Along step InStep (start deviceId account) acts := by
  refine Runs.always_iff_along (fun net act hj hact => hj.step act hact)
    (fun net act hj _ hp => noClash_step_iff hj act hp) acts (inv_start deviceId account) ?_ hok
  intro m hm
  cases hm

end Step

end Network

end Network

/-! ## Two nodes, one position -/

section Example

@[reducible] def noBook : Olm :=
  Symbolic.olm []

attribute [local instance] noBook

/-- Two nodes; `true` is the one that makes the room session. -/
def pair : Network Bool :=
  Network.start (fun i => ⟨Vector.replicate 32 (if i then 1 else 2)⟩) fun _ => { identity := "id" }

/-- The first node sends, the second imports the exported package and answers: its copy is at the
position the first message was encrypted with. -/
def answer : List (NetAction Bool) :=
  [.send true "room" "session" [1],
    .deliver false (packageOf ⟨Vector.replicate 32 1⟩ "room" (GroupSession.new "session")),
    .send false "room" "other" [2]]

theorem megolm_position_reused :
    ¬ ∀ acts : List (NetAction Bool), Runs.Along Network.step Network.Allowed pair acts →
      Runs.Always Network.step Network.NoClash pair acts := by
  intro h
  have hok : Runs.Along Network.step Network.Allowed pair answer := by
    refine ⟨trivial, ?_, trivial, trivial⟩
    change packageOf _ _ _ ∈ (pair.step (.send true "room" "session" [1])).exported
    decide +kernel
  have hsent : (Runs.run Network.step pair answer).sent =
      [{ sessionId := "session", messageIndex := 0, plaintext := [1] },
        { sessionId := "session", messageIndex := 0, plaintext := [2] }] := by
    decide +kernel
  have hno := (h answer hok).final
  unfold Network.NoClash at hno
  rw [hsent] at hno
  have hsame := hno { sessionId := "session", messageIndex := 0, plaintext := [1] } (by simp)
    { sessionId := "session", messageIndex := 0, plaintext := [2] } (by simp) rfl rfl
  exact absurd hsame (by decide)

/-- A first message is always in step. -/
theorem noClash_iff_inStep_first :
    Runs.Always Network.step Network.NoClash pair [.send true "room" "session" [1]] := by
  refine (Network.noClash_iff_inStep _ _ [.send true "room" "session" [1]] ⟨trivial, trivial⟩).2
    ⟨Or.inl ?_, trivial⟩
  rintro j s ⟨r, hr⟩
  cases hr

end Example

end Node
end Thunderducks
