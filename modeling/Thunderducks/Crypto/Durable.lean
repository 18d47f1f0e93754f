import Thunderducks.Lib.Text
import Thunderducks.Crypto.OneTimeKeys

/-!
# Durable — the ratchets on disk (`export_durable`, `import_durable` of `td-crypto/src/e2ee.rs`)

A pickle keeps what it was made from, so the file holds a copy of the device's state, each map as a list in
some order.  `importDurable_exportDurable` says that loading it gives the state back.
-/

namespace Thunderducks
namespace Crypto

open Lib Event

variable [Olm]

/-! ## The package -/

structure OlmSessionDurable where
  peerDevice : String
  pickleB64 : Encoded Olm.Session

omit [Olm] in
structure MegolmOutboundDurable where
  roomId : String
  sessionId : String
  pickleB64 : Encoded GroupSession

omit [Olm] in
structure MegolmInboundDurable where
  sessionId : String
  pickleB64 : Encoded InboundGroupSession

/-- On-disk E2EE package. -/
structure E2eeDurablePackage where
  v : Nat
  deviceId : String
  accountB64 : Encoded Olm.Account
  olm : List OlmSessionDurable
  outbound : List MegolmOutboundDurable
  inbound : List MegolmInboundDurable

/-- The orders in which the maps of a device are listed. -/
structure DurableOrder where
  olm : IterOrder (DeviceId × Olm.Session)
  outbound : IterOrder (String × GroupSession)
  inbound : IterOrder (String × InboundGroupSession)

def DurableOrder.stored : DurableOrder :=
  { olm := .stored
    outbound := .stored
    inbound := .stored }

/-! ## Writing -/

def olmDurable (e : DeviceId × Olm.Session) : OlmSessionDurable :=
  { peerDevice := Text.hexEncode e.1.bytes.toList
    pickleB64 := .of e.2 }

omit [Olm] in
def outboundDurable (e : String × GroupSession) : MegolmOutboundDurable :=
  { roomId := e.1
    sessionId := e.2.sessionId
    pickleB64 := .of e.2 }

omit [Olm] in
def inboundDurable (e : String × InboundGroupSession) : MegolmInboundDurable :=
  { sessionId := e.1
    pickleB64 := .of e.2 }

/-- Export full E2EE state for durable disk. -/
def E2eeDevice.exportDurable (o : DurableOrder) (dev : E2eeDevice) : E2eeDurablePackage :=
  { v := 1
    deviceId := Text.hexEncode dev.deviceId.bytes.toList
    accountB64 := .of dev.account
    olm := (o.olm.run (HashMap.pairs dev.olmSessions)).map olmDurable
    outbound := (o.outbound.run (HashMap.pairs dev.outboundMegolm)).map outboundDurable
    inbound := (o.inbound.run (HashMap.pairs dev.inboundMegolm)).map inboundDurable }

/-! ## Reading -/

omit [Olm] in
def parseDeviceHex (s : String) : Except E2eeError DeviceId :=
  match Text.hexDecode s.toList with
  | none => .error (.codec "hex")
  | some b =>
      if h : b.length = 32 then
        .ok ⟨⟨b.toArray, by simpa using h⟩⟩
      else
        .error (.codec ("device id want 32 bytes, got " ++ toString b.length))

def olmRestored (d : OlmSessionDurable) : Except E2eeError (DeviceId × Olm.Session) :=
  match parseDeviceHex d.peerDevice with
  | .error e => .error e
  | .ok peer =>
      match d.pickleB64.decode with
      | none => .error .pickle
      | some session => .ok (peer, session)

omit [Olm] in
def outboundRestored (d : MegolmOutboundDurable) : Except E2eeError (String × GroupSession) :=
  match d.pickleB64.decode with
  | none => .error .pickle
  | some session => .ok (d.roomId, session)

omit [Olm] in
def inboundRestored (d : MegolmInboundDurable) : Except E2eeError (String × InboundGroupSession) :=
  match d.pickleB64.decode with
  | none => .error .pickle
  | some session => .ok (d.sessionId, session)

omit [Olm] in
/-- The three loops of `import_durable`; the first record that cannot be read ends it. -/
def restoreAll {D K V : Type} [DecidableEq K] (restore : D → Except E2eeError (K × V)) :
    HashMap K V → List D → Except E2eeError (HashMap K V)
  | m, [] => .ok m
  | m, d :: ds =>
      match restore d with
      | .error e => .error e
      | .ok (k, v) => restoreAll restore (m.insert k v) ds

/-- Restore E2EE state from durable package (device id must match). -/
def E2eeDevice.importDurable (deviceId : DeviceId) (pkg : E2eeDurablePackage) :
    Except E2eeError E2eeDevice :=
  if pkg.v ≠ 1 then
    .error (.codec ("unsupported e2ee durable v=" ++ toString pkg.v))
  else if pkg.deviceId ≠ Text.hexEncode deviceId.bytes.toList then
    .error (.codec "e2ee durable device_id mismatch")
  else
    match pkg.accountB64.decode with
    | none => .error .pickle
    | some account =>
        match restoreAll olmRestored ∅ pkg.olm with
        | .error e => .error e
        | .ok olmSessions =>
            match restoreAll outboundRestored ∅ pkg.outbound with
            | .error e => .error e
            | .ok outboundMegolm =>
                match restoreAll inboundRestored ∅ pkg.inbound with
                | .error e => .error e
                | .ok inboundMegolm =>
                    .ok
                      { deviceId := deviceId
                        account := account
                        olmSessions := olmSessions
                        outboundMegolm := outboundMegolm
                        inboundMegolm := inboundMegolm }

/-- `NodeDataDir::load_e2ee`: what is in the file, or a new device with the account it draws. -/
def loadE2ee (deviceId : DeviceId) (account : Olm.Account) (file : Option E2eeDurablePackage) :
    Except E2eeError E2eeDevice :=
  match file with
  | none => .ok (E2eeDevice.new deviceId account)
  | some pkg => E2eeDevice.importDurable deviceId pkg

/-! ## The round trip -/

/-- Two devices with the same account and the same sessions. -/
structure E2eeDevice.Same (dev dev' : E2eeDevice) : Prop where
  deviceId : dev'.deviceId = dev.deviceId
  account : dev'.account = dev.account
  olm : ∀ peer, dev'.olmSessions.lookup peer = dev.olmSessions.lookup peer
  outbound : ∀ room, dev'.outboundMegolm.lookup room = dev.outboundMegolm.lookup room
  inbound : ∀ sid, dev'.inboundMegolm.lookup sid = dev.inboundMegolm.lookup sid

theorem E2eeDevice.Same.refl (dev : E2eeDevice) : dev.Same dev :=
  ⟨rfl, rfl, fun _ => rfl, fun _ => rfl, fun _ => rfl⟩

theorem E2eeDevice.Same.symm {dev dev' : E2eeDevice} (h : dev.Same dev') : dev'.Same dev :=
  ⟨h.deviceId.symm, h.account.symm, fun p => (h.olm p).symm, fun r => (h.outbound r).symm,
    fun s => (h.inbound s).symm⟩

theorem E2eeDevice.Same.trans {a b c : E2eeDevice} (h : a.Same b) (h' : b.Same c) : a.Same c :=
  ⟨h'.deviceId.trans h.deviceId, h'.account.trans h.account, fun p => (h'.olm p).trans (h.olm p),
    fun r => (h'.outbound r).trans (h.outbound r), fun s => (h'.inbound s).trans (h.inbound s)⟩

omit [Olm] in
theorem parseDeviceHex_hexEncode (d : DeviceId) :
    parseDeviceHex (Text.hexEncode d.bytes.toList) = .ok d := by
  have hlen : d.bytes.toList.length = 32 := by
    simp
  unfold parseDeviceHex
  rw [Text.hexDecode_hexEncode]
  dsimp only
  rw [dif_pos hlen]
  congr 2

omit [Olm] in
/-- Records that are read back one by one are read back together. -/
theorem restoreAll_map {D K V : Type} [DecidableEq K] {restore : D → Except E2eeError (K × V)}
    {write : K × V → D} (h : ∀ e, restore (write e) = .ok e) (l : List (K × V)) :
    ∀ m, restoreAll restore m (l.map write) = .ok (HashMap.insertAll m l) := by
  induction l with
  | nil =>
      intro m
      rfl
  | cons e l ih =>
      intro m
      rw [List.map_cons, restoreAll, h]
      exact ih _

theorem importDurable_exportDurable (o : DurableOrder) (dev : E2eeDevice) :
    ∃ dev', E2eeDevice.importDurable dev.deviceId (dev.exportDurable o) = .ok dev' ∧ dev.Same dev' := by
  have holm : ∀ e : DeviceId × Olm.Session, olmRestored (olmDurable e) = .ok e := by
    intro e
    simp [olmRestored, olmDurable, parseDeviceHex_hexEncode]
  have houtbound : ∀ e : String × GroupSession, outboundRestored (outboundDurable e) = .ok e := by
    intro e
    simp [outboundRestored, outboundDurable]
  have hinbound : ∀ e : String × InboundGroupSession, inboundRestored (inboundDurable e) = .ok e := by
    intro e
    simp [inboundRestored, inboundDurable]
  refine ⟨{
    deviceId := dev.deviceId
    account := dev.account
    olmSessions := HashMap.insertAll ∅ (o.olm.run (HashMap.pairs dev.olmSessions))
    outboundMegolm := HashMap.insertAll ∅ (o.outbound.run (HashMap.pairs dev.outboundMegolm))
    inboundMegolm := HashMap.insertAll ∅ (o.inbound.run (HashMap.pairs dev.inboundMegolm)) }, ?_, ?_⟩
  · simp [E2eeDevice.importDurable, E2eeDevice.exportDurable, restoreAll_map holm,
      restoreAll_map houtbound, restoreAll_map hinbound]
  · exact ⟨rfl, rfl, HashMap.lookup_insertAll_pairs (o.olm.perm _),
      HashMap.lookup_insertAll_pairs (o.outbound.perm _), HashMap.lookup_insertAll_pairs (o.inbound.perm _)⟩

/-! ## What a restart must not lose -/

variable [OneTimeKeys]

/-- `dev'` can do what `dev` can: it decrypts what `dev` decrypts, it sends from no earlier position, its Olm
sessions are where those of `dev` are, and it has the keys that others may use to reach `dev`. -/
structure E2eeDevice.Covers (dev dev' : E2eeDevice) : Prop where
  inbound : ∀ {sid s}, dev.inboundMegolm.lookup sid = some s → ∃ s', dev'.inboundMegolm.lookup sid = some s' ∧
    ∀ msg plain, s.decrypt msg = .ok plain → s'.decrypt msg = .ok plain
  outbound : ∀ {room s}, dev.outboundMegolm.lookup room = some s → ∃ s',
    dev'.outboundMegolm.lookup room = some s' ∧ s'.sessionId = s.sessionId ∧ s.messageIndex ≤ s'.messageIndex
  olm : ∀ {peer s}, dev.olmSessions.lookup peer = some s → dev'.olmSessions.lookup peer = some s
  keys : ∀ k ∈ OneTimeKeys.published dev.account, k ∈ OneTimeKeys.published dev'.account

theorem E2eeDevice.Same.covers {dev dev' : E2eeDevice} (h : dev.Same dev') : dev.Covers dev' := by
  refine ⟨?_, ?_, ?_, ?_⟩
  · intro sid s hl
    exact ⟨s, by rw [h.inbound, hl], fun _ _ hdec => hdec⟩
  · intro room s hl
    exact ⟨s, by rw [h.outbound, hl], rfl, Nat.le_refl _⟩
  · intro peer s hl
    rw [h.olm, hl]
  · intro k hk
    rw [h.account]
    exact hk

/-- A device that has no session and no key to lose. -/
structure E2eeDevice.Bare (dev : E2eeDevice) : Prop where
  olm : ∀ peer, dev.olmSessions.lookup peer = none
  outbound : ∀ room, dev.outboundMegolm.lookup room = none
  inbound : ∀ sid, dev.inboundMegolm.lookup sid = none
  keys : OneTimeKeys.published dev.account = []

theorem E2eeDevice.bare_new (deviceId : DeviceId) {account : Olm.Account}
    (hkeys : OneTimeKeys.published account = []) : (E2eeDevice.new deviceId account).Bare :=
  ⟨fun _ => rfl, fun _ => rfl, fun _ => rfl, hkeys⟩

theorem E2eeDevice.Bare.covers {dev : E2eeDevice} (h : dev.Bare) (dev' : E2eeDevice) : dev.Covers dev' := by
  refine ⟨?_, ?_, ?_, ?_⟩
  · intro sid s hl
    rw [h.inbound] at hl
    cases hl
  · intro room s hl
    rw [h.outbound] at hl
    cases hl
  · intro peer s hl
    rw [h.olm] at hl
    cases hl
  · intro k hk
    rw [h.keys] at hk
    cases hk

end Crypto
end Thunderducks
