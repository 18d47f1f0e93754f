import Thunderducks.Lib.Runs
import Thunderducks.Crypto.Symbolic

/-!
# RoomRatchet — the outbound ratchet of a room under imported packages

`import_room_outbound` compares the local index with the index written in the package, and installs the
session of the pickle.  Nothing ties the two together, and a pickle may hold the last index that a `u32` counts
to: `advances_iff` says which runs keep the ratchet of every room from going back.  The indexes are kept as natural
numbers, and stay within a `u32` (`Fits.run`).
-/

namespace Thunderducks
namespace Crypto

open Lib

section Ratchet

variable [Olm]

/-- The last index of a ratchet, which counts in a `u32`. -/
def lastIndex : UInt32 := 4294967295

/-- What adding one to the last index does: a debug build panics, a release build begins again at 0. -/
inductive Overflow
  | panics
  | wraps
  deriving DecidableEq

/-- `megolm_encrypt` on the counter of the ratchet; `none` is the panic, which leaves the device as it was. -/
def megolmEncryptCounted (o : Overflow) (dev : E2eeDevice) (roomKey : String) (plaintext : Bytes) :
    Option (Except E2eeError MegolmCiphertext × E2eeDevice) :=
  match dev.outboundMegolm.lookup roomKey with
  | none => some (dev.megolmEncrypt roomKey plaintext)
  | some out =>
      let (ct, next) := dev.megolmEncrypt roomKey plaintext
      if out.messageIndex < lastIndex.toNat then
        some (ct, next)
      else
        match o with
        | .panics => none
        | .wraps =>
            some (ct,
              { next with
                outboundMegolm := next.outboundMegolm.insert roomKey { out with messageIndex := 0 } })

/-- A device, and what it has encrypted in each room so far. -/
structure Sender where
  dev : E2eeDevice
  sent : List (String × MegolmMessage)

inductive RatchetCall
  | createGroupSession (roomKey freshId : String)
  | megolmEncrypt (roomKey : String) (plaintext : Bytes)
  | importRoomOutbound (pkg : RoomOutboundPackage)

namespace Sender

/-- The message of a successful encryption. -/
def encrypted (ct : Except E2eeError MegolmCiphertext) : Option MegolmMessage :=
  ct.toOption.bind fun ct => ct.ciphertextB64.decode

def step (o : Overflow) (s : Sender) : RatchetCall → Sender
  | .createGroupSession roomKey freshId =>
      { s with dev := (s.dev.createGroupSession roomKey freshId).2 }
  | .megolmEncrypt roomKey plaintext =>
      match megolmEncryptCounted o s.dev roomKey plaintext with
      | none => s
      | some (ct, dev) =>
          { dev := dev
            sent := s.sent ++ (encrypted ct).toList.map fun m => (roomKey, m) }
  | .importRoomOutbound pkg => { s with dev := (s.dev.importRoomOutbound pkg).2 }

/-- The outbound session of a room. -/
def outbound (s : Sender) (roomKey : String) : Option GroupSession :=
  s.dev.outboundMegolm.lookup roomKey

/-- No room has gone back to an earlier index of its session. -/
def NotBehind (s s' : Sender) : Prop :=
  ∀ roomKey x y, s.outbound roomKey = some x → s'.outbound roomKey = some y →
    x.sessionId = y.sessionId → x.messageIndex ≤ y.messageIndex

/-- No two messages of a room were encrypted at one index of one session. -/
def NeverTwice (s : Sender) : Prop :=
  s.sent.Pairwise fun a b =>
    a.1 = b.1 → a.2.sessionId = b.2.sessionId → a.2.messageIndex ≠ b.2.messageIndex

/-- Between any two moments of the run no room goes back, and no index is ever used twice. -/
def Advances (o : Overflow) (s : Sender) (calls : List RatchetCall) : Prop :=
  (∀ before mid after, calls = before ++ mid ++ after →
    (Runs.run (step o) s before).NotBehind (Runs.run (step o) s (before ++ mid))) ∧
  ∀ before after, calls = before ++ after → (Runs.run (step o) s before).NeverTwice

/-- The package passes every check of `import_room_outbound` against the local session `loc`, and
`session` is what its pickle holds. -/
structure Installs (pkg : RoomOutboundPackage) (loc session : GroupSession) : Prop where
  version : pkg.v = 1
  key : ∃ key, pkg.sessionKeyB64.decode = some key
  pickle : pkg.pickleB64.decode = some session
  named : session.sessionId = pkg.sessionId
  same : loc.sessionId = pkg.sessionId
  ahead : loc.messageIndex ≤ pkg.messageIndex

/-- A package that replaces a session of the room brings a pickle that is not behind it, and a build whose
counter wraps encrypts nothing at the last index. -/
def GoesOn (o : Overflow) (s : Sender) : RatchetCall → Prop
  | .createGroupSession _ _ => True
  | .megolmEncrypt roomKey _ => o = .wraps → ∀ loc, s.outbound roomKey = some loc →
      loc.messageIndex < lastIndex.toNat
  | .importRoomOutbound pkg => ∀ loc session, s.outbound pkg.roomId = some loc →
      Installs pkg loc session → loc.messageIndex ≤ session.messageIndex

/-! ## What one call does to the rooms -/

variable {o : Overflow}

theorem outbound_create (s : Sender) (roomKey freshId r : String) :
    (s.step o (.createGroupSession roomKey freshId)).outbound r =
      if r = roomKey ∧ s.outbound roomKey = none then some (GroupSession.new freshId)
      else s.outbound r := by
  unfold outbound
  simp only [step, E2eeDevice.createGroupSession, E2eeDevice.groupSessionId]
  cases hl : s.dev.outboundMegolm.lookup roomKey with
  | none =>
      simp only [Option.map_none, HashMap.lookup_insert_eq]
      by_cases hr : r = roomKey <;> simp [hr]
  | some loc => simp

/-- An encryption that does not fail uses the session of the room and moves it on, at the last index to 0. -/
theorem step_encrypt (s : Sender) (roomKey : String) (plaintext : Bytes) :
    (s.step o (.megolmEncrypt roomKey plaintext) = s ∧
      ∀ x, s.outbound roomKey = some x → ¬ x.messageIndex < lastIndex.toNat ∧ o = .panics) ∨
    ∃ x y, s.outbound roomKey = some x ∧ y.sessionId = x.sessionId ∧
      (if x.messageIndex < lastIndex.toNat then y.messageIndex = x.messageIndex + 1
        else o = .wraps ∧ y.messageIndex = 0) ∧
      (s.step o (.megolmEncrypt roomKey plaintext)).sent =
        s.sent ++ [(roomKey, (x.encrypt plaintext).1)] ∧
      ∀ r, (s.step o (.megolmEncrypt roomKey plaintext)).outbound r =
        if r = roomKey then some y else s.outbound r := by
  unfold outbound
  cases hl : s.dev.outboundMegolm.lookup roomKey with
  | none =>
      refine Or.inl ⟨?_, fun x hx => by cases hx⟩
      simp [step, megolmEncryptCounted, E2eeDevice.megolmEncrypt, hl, encrypted, Except.toOption]
  | some x =>
      by_cases hlt : x.messageIndex < lastIndex.toNat
      · refine Or.inr ⟨x, (x.encrypt plaintext).2, rfl, rfl, ?_, ?_, ?_⟩
        · rw [if_pos hlt]
          rfl
        · simp [step, megolmEncryptCounted, E2eeDevice.megolmEncrypt, hl, hlt, encrypted, Except.toOption]
        · intro r
          simp only [step, megolmEncryptCounted, E2eeDevice.megolmEncrypt, hl, if_pos hlt]
          exact HashMap.lookup_insert_eq
      · cases o with
        | panics =>
            refine Or.inl ⟨?_, ?_⟩
            · simp [step, megolmEncryptCounted, hl, hlt]
            · intro y hy
              cases hy
              exact ⟨hlt, rfl⟩
        | wraps =>
            refine Or.inr ⟨x, { x with messageIndex := 0 }, rfl, rfl, ?_, ?_, ?_⟩
            · rw [if_neg hlt]
              exact ⟨rfl, rfl⟩
            · simp [step, megolmEncryptCounted, E2eeDevice.megolmEncrypt, hl, hlt, encrypted, Except.toOption]
            · intro r
              simp only [step, megolmEncryptCounted, E2eeDevice.megolmEncrypt, hl, if_neg hlt]
              rw [HashMap.lookup_insert_eq, HashMap.lookup_insert_eq]
              by_cases hr : r = roomKey
              · rw [if_pos hr, if_pos hr]
              · rw [if_neg hr, if_neg hr, if_neg hr]

omit [Olm] in
/-- A package installs its pickle exactly if it holds one that the local session agrees to. -/
theorem installs_iff {pkg : RoomOutboundPackage} {loc session : GroupSession} :
    Installs pkg loc session ↔ E2eeDevice.PackageHolds pkg session ∧
      loc.sessionId = pkg.sessionId ∧ loc.messageIndex ≤ pkg.messageIndex := by
  constructor
  · intro hi
    exact ⟨⟨hi.version, Option.ne_none_iff_exists'.2 hi.key, hi.pickle, hi.named⟩, hi.same, hi.ahead⟩
  · rintro ⟨h, hsame, hahead⟩
    exact ⟨h.version, Option.ne_none_iff_exists'.1 h.key, h.pickle, h.named, hsame, hahead⟩

/-- An import leaves a room that has a session alone, or installs the pickle there. -/
theorem outbound_import (s : Sender) (pkg : RoomOutboundPackage) {r : String} {loc : GroupSession}
    (hloc : s.outbound r = some loc) :
    (∃ session, r = pkg.roomId ∧ Installs pkg loc session ∧
      (s.step o (.importRoomOutbound pkg)).outbound r = some session) ∨
    ((∀ session, r = pkg.roomId → ¬ Installs pkg loc session) ∧
      (s.step o (.importRoomOutbound pkg)).outbound r = some loc) := by
  unfold outbound at hloc
  simp only [step, outbound]
  rcases s.dev.importRoomOutbound_cases pkg with ⟨hno, hout⟩ | ⟨session, hholds, hall, hout⟩
  · refine Or.inr ⟨?_, by rw [hout, hloc]⟩
    rintro session rfl hi
    rcases installs_iff.1 hi with ⟨h, hsame, hahead⟩
    rcases hno session h with ⟨loc', hloc', hfar⟩
    rw [hloc] at hloc'
    cases hloc'
    exact absurd hahead (Nat.not_le.2 (hfar hsame))
  · by_cases hr : r = pkg.roomId
    · subst hr
      refine Or.inl ⟨session, rfl, installs_iff.2 ⟨hholds, hall loc hloc⟩, ?_⟩
      rw [hout, AList.lookup_insert]
    · refine Or.inr ⟨fun _ heq _ => hr heq, ?_⟩
      rw [hout, AList.lookup_insert_ne hr, hloc]

/-- A room never loses its session, and a call that goes on never moves it back. -/
theorem outbound_step (s : Sender) (call : RatchetCall) {r : String} {x : GroupSession}
    (hx : s.outbound r = some x) :
    ∃ y, (s.step o call).outbound r = some y ∧ y.sessionId = x.sessionId ∧
      (s.GoesOn o call → x.messageIndex ≤ y.messageIndex) := by
  cases call with
  | createGroupSession roomKey freshId =>
      refine ⟨x, ?_, rfl, fun _ => Nat.le_refl _⟩
      rw [outbound_create, if_neg]
      · exact hx
      · rintro ⟨rfl, hnone⟩
        rw [hx] at hnone
        cases hnone
  | megolmEncrypt roomKey plaintext =>
      rcases s.step_encrypt roomKey plaintext with ⟨heq, _⟩ | ⟨x', y, hx', hsid, hidx, _, hout⟩
      · rw [heq]
        exact ⟨x, hx, rfl, fun _ => Nat.le_refl _⟩
      · by_cases hr : r = roomKey
        · subst hr
          rw [hx] at hx'
          cases hx'
          refine ⟨y, by rw [hout, if_pos rfl], hsid, fun hok => ?_⟩
          split at hidx
          · rw [hidx]
            exact Nat.le_succ _
          next hlast => exact absurd (hok hidx.1 x hx) hlast
        · exact ⟨x, by simp [hout, hr, hx], rfl, fun _ => Nat.le_refl _⟩
  | importRoomOutbound pkg =>
      rcases s.outbound_import pkg hx with ⟨session, hr, hi, hout⟩ | ⟨_, hout⟩
      · refine ⟨session, hout, hi.named.trans hi.same.symm, fun hok => ?_⟩
        exact hok x session (hr ▸ hx) hi
      · exact ⟨x, hout, rfl, fun _ => Nat.le_refl _⟩

/-- A call keeps every room from going back exactly when it goes on. -/
theorem notBehind_step_iff (s : Sender) (call : RatchetCall) :
    s.NotBehind (s.step o call) ↔ s.GoesOn o call := by
  constructor
  · intro h
    cases call with
    | createGroupSession roomKey freshId => trivial
    | megolmEncrypt roomKey plaintext =>
        intro hwraps loc hloc
        by_contra hlast
        rcases s.step_encrypt (o := o) roomKey plaintext with ⟨_, hpanics⟩ | ⟨x, y, hx, hsid, hidx, _, hout⟩
        · have hno := (hpanics loc hloc).2
          rw [hwraps] at hno
          cases hno
        · -- the counter has begun again
          rw [hloc] at hx
          cases hx
          rw [if_neg hlast] at hidx
          have hle := h roomKey loc y hloc (by rw [hout, if_pos rfl]) hsid.symm
          rw [hidx.2] at hle
          exact hlast (Nat.lt_of_le_of_lt hle (by decide))
    | importRoomOutbound pkg =>
        intro loc session hloc hi
        rcases s.outbound_import pkg hloc with ⟨session', _, hi', hout⟩ | ⟨hno, _⟩
        · have heq : session' = session := Option.some.inj (hi'.pickle.symm.trans hi.pickle)
          subst heq
          exact h pkg.roomId loc session' hloc hout (hi.same.trans hi.named.symm)
        · exact absurd hi (hno session rfl)
  · intro hok r x y hx hy _
    rcases s.outbound_step call hx with ⟨y', hy', _, hle⟩
    rw [hy] at hy'
    cases hy'
    exact hle hok

/-! ## Whole runs -/

/-- Every room is at an index that a `u32` holds. -/
def Fits (s : Sender) : Prop :=
  ∀ r x, s.outbound r = some x → x.messageIndex ≤ lastIndex.toNat

/-- The index in a pickle is a `u32`, as all pickles are that decode. -/
def Bounded : RatchetCall → Prop
  | .importRoomOutbound pkg => ∀ session, pkg.pickleB64.decode = some session →
      session.messageIndex ≤ lastIndex.toNat
  | _ => True

theorem Fits.step {s : Sender} (h : s.Fits) (call : RatchetCall) (hcall : Bounded call) : (s.step o call).Fits := by
  intro r x hx
  cases call with
  | createGroupSession roomKey freshId =>
      rw [outbound_create] at hx
      split at hx
      · cases hx
        exact Nat.zero_le _
      · exact h r x hx
  | megolmEncrypt roomKey plaintext =>
      rcases s.step_encrypt (o := o) roomKey plaintext with ⟨heq, _⟩ | ⟨x', y, hx', _, hidx, _, hout⟩
      · rw [heq] at hx
        exact h r x hx
      · rw [hout] at hx
        by_cases hr : r = roomKey
        · rw [if_pos hr] at hx
          cases hx
          split at hidx
          next hlt =>
            rw [hidx]
            exact hlt
          next =>
            rw [hidx.2]
            exact Nat.zero_le _
        · rw [if_neg hr] at hx
          exact h r x hx
  | importRoomOutbound pkg =>
      unfold outbound Sender.step at hx
      dsimp only at hx
      rcases s.dev.importRoomOutbound_cases pkg with ⟨_, hout⟩ | ⟨session, hholds, _, hout⟩
      · rw [hout] at hx
        exact h r x hx
      · rw [hout] at hx
        by_cases hr : r = pkg.roomId
        · rw [hr, AList.lookup_insert] at hx
          cases hx
          exact hcall _ hholds.pickle
        · rw [AList.lookup_insert_ne hr] at hx
          exact h r x hx

/-- The counters of the model stay within a `u32`. -/
theorem Fits.run {s : Sender} (h : s.Fits) (calls : List RatchetCall) (hcalls : ∀ call ∈ calls, Bounded call) :
    (Runs.run (Sender.step o) s calls).Fits := by
  refine Runs.invariant (fun s call h hcall => h.step call hcall) calls h ?_
  exact Runs.along_iff.2 fun before call after hsplit => hcalls call (by simp [hsplit])

/-- What was sent in a room is behind the room's session. -/
structure Inv (s : Sender) : Prop where
  passed : ∀ a ∈ s.sent, ∃ y, s.outbound a.1 = some y ∧ y.sessionId = a.2.sessionId ∧
    a.2.messageIndex < y.messageIndex
  once : s.NeverTwice

theorem Inv.step {s : Sender} (h : s.Inv) (call : RatchetCall) (hok : s.GoesOn o call) :
    (s.step o call).Inv := by
  have hpassed : ∀ a ∈ s.sent, ∃ y, (s.step o call).outbound a.1 = some y ∧
      y.sessionId = a.2.sessionId ∧ a.2.messageIndex < y.messageIndex := by
    intro a ha
    rcases h.passed a ha with ⟨x, hx, hsid, hlt⟩
    rcases s.outbound_step call hx with ⟨y, hy, hsid', hle⟩
    exact ⟨y, hy, hsid'.trans hsid, Nat.lt_of_lt_of_le hlt (hle hok)⟩
  cases call with
  | createGroupSession roomKey freshId => exact ⟨hpassed, h.once⟩
  | importRoomOutbound pkg => exact ⟨hpassed, h.once⟩
  | megolmEncrypt roomKey plaintext =>
      rcases s.step_encrypt roomKey plaintext with ⟨heq, _⟩ | ⟨x, y, hx, hsid, hidx, hsent, hout⟩
      · rw [heq]
        exact h
      · refine ⟨?_, ?_⟩
        · intro a ha
          rw [hsent] at ha
          rcases List.mem_append.1 ha with ha | ha
          · exact hpassed a ha
          · rw [List.mem_singleton.1 ha]
            refine ⟨y, by simp [hout], hsid, ?_⟩
            split at hidx
            · rw [hidx]
              exact Nat.lt_succ_self _
            next hlast => exact absurd (hok hidx.1 x hx) hlast
        · -- the new message is at the index of the session, the others are behind it
          unfold NeverTwice
          rw [hsent, List.pairwise_append]
          refine ⟨h.once, List.pairwise_singleton _ _, ?_⟩
          intro a ha b hb hroom _
          rw [List.mem_singleton.1 hb] at hroom ⊢
          rcases h.passed a ha with ⟨y, hy, _, hlt⟩
          have hEq : y = x := Option.some.inj (hy.symm.trans (by rw [hroom]; exact hx))
          subst hEq
          exact Nat.ne_of_lt hlt

/-- Over a run whose calls go on a session stays, and never goes back. -/
theorem outbound_run (calls : List RatchetCall) : ∀ {s : Sender},
    Runs.Along (step o) (GoesOn o) s calls → ∀ {r x}, s.outbound r = some x →
    ∃ y, (Runs.run (step o) s calls).outbound r = some y ∧ y.sessionId = x.sessionId ∧
      x.messageIndex ≤ y.messageIndex := by
  induction calls with
  | nil =>
      intro s _ r x hx
      exact ⟨x, hx, rfl, Nat.le_refl _⟩
  | cons call calls ih =>
      intro s hok r x hx
      rcases s.outbound_step call hx with ⟨y, hy, hsid, hle⟩
      rcases ih hok.2 hy with ⟨z, hz, hsid', hle'⟩
      exact ⟨z, hz, hsid'.trans hsid, Nat.le_trans (hle hok.1) hle'⟩

theorem along_of_notBehind (calls : List RatchetCall) : ∀ {s : Sender},
    (∀ before mid after, calls = before ++ mid ++ after →
      (Runs.run (step o) s before).NotBehind (Runs.run (step o) s (before ++ mid))) →
    Runs.Along (step o) (GoesOn o) s calls := by
  induction calls with
  | nil =>
      intro s _
      trivial
  | cons call calls ih =>
      intro s h
      refine ⟨(s.notBehind_step_iff call).1 (h [] [call] calls rfl), ih ?_⟩
      intro before mid after heq
      exact h (call :: before) mid after (by simp [heq])

/-- For every device and every run, no room's ratchet ever goes back and no index is used twice exactly
when every package that replaces a session brings a pickle that is not behind it and, where the counter wraps,
nothing is encrypted at the last index. -/
theorem advances_iff (o : Overflow) (dev : E2eeDevice) (calls : List RatchetCall) :
    Advances o { dev := dev, sent := [] } calls ↔
      Runs.Along (step o) (GoesOn o) { dev := dev, sent := [] } calls := by
  have hinv : Inv { dev := dev, sent := [] } := by
    refine ⟨?_, List.Pairwise.nil⟩
    intro a ha
    cases ha
  constructor
  · rintro ⟨hback, _⟩
    exact along_of_notBehind calls hback
  · intro hok
    refine ⟨?_, ?_⟩
    · rintro before mid after rfl
      rcases Runs.Along.append (by simpa using hok) with ⟨_, hrest⟩
      intro r x y hx hy _
      rcases outbound_run mid (Runs.Along.append hrest).1 hx with ⟨y', hy', _, hle⟩
      have hrun : Runs.run (step o) { dev := dev, sent := [] } (before ++ mid) =
          Runs.run (step o) (Runs.run (step o) { dev := dev, sent := [] } before) mid := List.foldl_append
      rw [hrun, hy'] at hy
      cases hy
      exact hle
    · rintro before after rfl
      exact (Runs.invariant (fun s call h hc => h.step call hc) before hinv (Runs.Along.append hok).1).once

end Sender

end Ratchet

/-! ## An old pickle under a new index -/

section Example

@[reducible] def silentOlm : Olm :=
  Symbolic.olm []

attribute [local instance] silentOlm

namespace Sender

def duck : E2eeDevice :=
  E2eeDevice.new ⟨Vector.replicate 32 1⟩ { identity := "id" }

/-- The package says index 9; its pickle is the session as it was made. -/
def stalePackage : RoomOutboundPackage :=
  { v := 1
    roomId := "room"
    sessionId := "session"
    messageIndex := 9
    pickleB64 := .of (GroupSession.new "session")
    sessionKeyB64 := .of (GroupSession.new "session").sessionKey
    ownerDevice := ⟨Vector.replicate 32 2⟩ }

def firstSend : List RatchetCall :=
  [.createGroupSession "room" "session", .megolmEncrypt "room" [1]]

theorem import_rewinds_ratchet :
    ¬ ∀ (o : Overflow) (dev : E2eeDevice) (calls : List RatchetCall),
      Advances o { dev := dev, sent := [] } calls := by
  intro h
  have hback := (h .panics duck (firstSend ++ [.importRoomOutbound stalePackage])).1 firstSend
    [.importRoomOutbound stalePackage] [] (by simp)
  have hbefore : (Runs.run (step .panics) { dev := duck, sent := [] } firstSend).outbound "room" =
      some { sessionId := "session", messageIndex := 1 } := by
    decide +kernel
  have hafter : (Runs.run (step .panics) { dev := duck, sent := [] }
      (firstSend ++ [.importRoomOutbound stalePackage])).outbound "room" =
      some { sessionId := "session", messageIndex := 0 } := by
    decide +kernel
  have hle := hback "room" _ _ hbefore hafter rfl
  exact absurd hle (by decide)

end Sender

end Example

end Crypto
end Thunderducks
