import Thunderducks.Crypto.InboundKeys

/-!
# RoomImport — a package that fails, and one that does not fit together (`import_room_outbound` in `e2ee.rs`)

A package says three times which session it is about: in its `session_id`, in its pickle and in its session
key.  The key is stored before the pickle is looked at, and nothing compares it with the other two.
`importsWhole_iff` says for which packages an import that fails changes nothing, and one that succeeds leaves
both sessions.
-/

namespace Thunderducks
namespace Crypto

open Lib Event

/-- The pickle decrypts to a session of the id that the package declares. -/
def RoomOutboundPackage.PickleFits (pkg : RoomOutboundPackage) : Prop :=
  ∃ session, pkg.pickleB64.decode = some session ∧ session.sessionId = pkg.sessionId

namespace E2eeDevice

variable [Olm]

/-- An error leaves the Megolm sessions as they were; otherwise the device can read the session of the package,
and the id returned is that of the room's own session. -/
def ImportsWhole (dev : E2eeDevice) (pkg : RoomOutboundPackage) : Prop :=
  match dev.importRoomOutbound pkg with
  | (.error _, dev') => dev'.inboundMegolm = dev.inboundMegolm ∧ dev'.outboundMegolm = dev.outboundMegolm
  | (.ok sid, dev') => pkg.sessionId ∈ dev'.inboundMegolm ∧
      ∃ session, dev'.outboundMegolm.lookup pkg.roomId = some session ∧ session.sessionId = sid

/-- A session key that the import reads is of the declared session, or the device needs no key for it; and
beside a pickle that does not fit it is one that the device does not lack. -/
structure KeyFits (dev : E2eeDevice) (pkg : RoomOutboundPackage) (key : SessionKey) : Prop where
  fits : pkg.PickleFits → key.sessionId = pkg.sessionId ∨ pkg.sessionId ∈ dev.inboundMegolm
  spoilt : ¬ pkg.PickleFits → key.sessionId ∈ dev.inboundMegolm

/-! ## What one import does -/

inductive ImportTurn (dev : E2eeDevice) (pkg : RoomOutboundPackage) :
    Except E2eeError String → E2eeDevice → Prop
  /-- The version is unknown or the key cannot be read. -/
  | unread {e : E2eeError} : (∀ key, pkg.sessionKeyB64.decode = some key → pkg.v ≠ 1) →
      ImportTurn dev pkg (.error e) dev
  /-- The key is stored, and then the pickle does not fit. -/
  | spoilt {key : SessionKey} {e : E2eeError} : pkg.v = 1 → pkg.sessionKeyB64.decode = some key →
      ¬ pkg.PickleFits → ImportTurn dev pkg (.error e) (dev.importGroupSessionKey pkg.sessionKeyB64).2
  | imported {key : SessionKey} {sid : String} {dev' : E2eeDevice} : pkg.v = 1 →
      pkg.sessionKeyB64.decode = some key → pkg.PickleFits →
      dev'.inboundMegolm = (dev.importGroupSessionKey pkg.sessionKeyB64).2.inboundMegolm →
      (∃ session, dev'.outboundMegolm.lookup pkg.roomId = some session ∧ session.sessionId = sid) →
      ImportTurn dev pkg (.ok sid) dev'

theorem importRoomOutbound_turn (dev : E2eeDevice) (pkg : RoomOutboundPackage) :
    ImportTurn dev pkg (dev.importRoomOutbound pkg).1 (dev.importRoomOutbound pkg).2 := by
  unfold importRoomOutbound
  split
  next hv => exact ImportTurn.unread fun _ _ => hv
  next hv =>
  have hversion : pkg.v = 1 := not_not.1 hv
  cases hkey : pkg.sessionKeyB64.decode with
  | none =>
      have heq : dev.importGroupSessionKey pkg.sessionKeyB64 = (.error (.codec "session key"), dev) := by
        simp [importGroupSessionKey, hkey]
      rw [heq]
      refine ImportTurn.unread fun key hsome => ?_
      rw [hkey] at hsome
      cases hsome
  | some key =>
      have hok : (dev.importGroupSessionKey pkg.sessionKeyB64).1 = .ok key.sessionId := by
        simp only [importGroupSessionKey, hkey]
        split
        · rfl
        · rfl
      rcases hrun : dev.importGroupSessionKey pkg.sessionKeyB64 with ⟨res, dev'⟩
      rw [hrun] at hok
      cases hok
      have hdev : dev' = (dev.importGroupSessionKey pkg.sessionKeyB64).2 := by
        rw [hrun]
      have hinbound : dev'.inboundMegolm = (dev.importGroupSessionKey pkg.sessionKeyB64).2.inboundMegolm := by
        rw [hdev]
      dsimp only
      cases hpickle : pkg.pickleB64.decode with
      | none =>
          rw [hdev]
          refine ImportTurn.spoilt hversion hkey ?_
          rintro ⟨session, hsome, _⟩
          rw [hpickle] at hsome
          cases hsome
      | some session =>
          dsimp only
          split
          next hname =>
            rw [hdev]
            refine ImportTurn.spoilt hversion hkey ?_
            rintro ⟨session', hsome, hfits⟩
            rw [hpickle] at hsome
            cases hsome
            exact hname hfits
          next hname =>
          have hnamed : session.sessionId = pkg.sessionId := not_not.1 hname
          have hfits : pkg.PickleFits := ⟨session, hpickle, hnamed⟩
          have hinstalled : ∃ s, (dev'.outboundMegolm.insert pkg.roomId session).lookup pkg.roomId = some s ∧
              s.sessionId = pkg.sessionId := ⟨session, AList.lookup_insert _, hnamed⟩
          cases hloc : dev'.outboundMegolm.lookup pkg.roomId with
          | none => exact ImportTurn.imported hversion hkey hfits hinbound hinstalled
          | some loc =>
              -- the room keeps its session if that is another one or ahead
              have hkept : ImportTurn dev pkg (.ok loc.sessionId) dev' :=
                ImportTurn.imported hversion hkey hfits hinbound ⟨loc, hloc, rfl⟩
              dsimp only
              split
              · exact hkept
              split
              · exact hkept
              · exact ImportTurn.imported hversion hkey hfits hinbound hinstalled

/-- The inbound sessions after a key was stored: the old ones, and that of the key. -/
theorem mem_importGroupSessionKey {dev : E2eeDevice} {sessionKeyB64 : Encoded SessionKey} {key : SessionKey}
    (hkey : sessionKeyB64.decode = some key) (sid : String) :
    sid ∈ (dev.importGroupSessionKey sessionKeyB64).2.inboundMegolm ↔
      sid ∈ dev.inboundMegolm ∨ sid = key.sessionId := by
  rw [HashMap.mem_iff_lookup, importGroupSessionKey_inbound dev hkey sid, HashMap.mem_iff_lookup]
  by_cases hsid : sid = key.sessionId
  · cases dev.inboundMegolm.lookup sid with
    | none => simp [hsid]
    | some s => simp
  · simp [hsid]

/-- A key that is stored changes the inbound sessions unless the device has one for it. -/
theorem importGroupSessionKey_unchanged_iff {dev : E2eeDevice} {sessionKeyB64 : Encoded SessionKey}
    {key : SessionKey} (hkey : sessionKeyB64.decode = some key) :
    (dev.importGroupSessionKey sessionKeyB64).2.inboundMegolm = dev.inboundMegolm ↔
      key.sessionId ∈ dev.inboundMegolm := by
  constructor
  · intro hsame
    rw [← hsame]
    exact (mem_importGroupSessionKey hkey key.sessionId).2 (Or.inr rfl)
  · intro hmem
    simp [importGroupSessionKey, hkey, hmem]

/-- For every device and every package, an import that fails changes nothing and one that succeeds leaves both
sessions exactly when the key of a readable package fits it. -/
theorem importsWhole_iff (dev : E2eeDevice) (pkg : RoomOutboundPackage) :
    dev.ImportsWhole pkg ↔
      ∀ key, pkg.v = 1 → pkg.sessionKeyB64.decode = some key → dev.KeyFits pkg key := by
  have hturn := dev.importRoomOutbound_turn pkg
  unfold ImportsWhole
  rcases hrun : dev.importRoomOutbound pkg with ⟨res, dev'⟩
  rw [hrun] at hturn
  -- a key that was not read, one that was stored for nothing, and one with its package
  cases hturn with
  | unread hno => exact iff_of_true ⟨rfl, rfl⟩ fun key hv hkey => absurd hv (hno key hkey)
  | @spoilt key e hv hkey hpickle =>
      dsimp only
      rw [importGroupSessionKey_unchanged_iff hkey, importGroupSessionKey_outbound, and_iff_left rfl]
      constructor
      · intro hmem key' _ hkey'
        rw [hkey] at hkey'
        cases hkey'
        exact ⟨fun hfits => absurd hfits hpickle, fun _ => hmem⟩
      · intro hall
        exact (hall key hv hkey).spoilt hpickle
  | @imported key sid _ hv hkey hpickle hinbound houtbound =>
      dsimp only
      rw [and_iff_left houtbound, hinbound, mem_importGroupSessionKey hkey]
      constructor
      · intro hmem key' _ hkey'
        rw [hkey] at hkey'
        cases hkey'
        exact ⟨fun _ => hmem.symm.imp_left Eq.symm, fun hno => absurd hpickle hno⟩
      · intro hall
        exact ((hall key hv hkey).fits hpickle).symm.imp_right Eq.symm

end E2eeDevice

/-! ## A package of two sessions -/

section Example

@[reducible] def muteOlm : Olm :=
  Symbolic.olm []

attribute [local instance] muteOlm

namespace E2eeDevice

def newcomerDevice : E2eeDevice :=
  E2eeDevice.new ⟨Vector.replicate 32 1⟩ { identity := "id" }

/-- The pickle is damaged; the session key is in order. -/
def damagedPackage : RoomOutboundPackage :=
  { v := 1
    roomId := "room"
    sessionId := "session"
    messageIndex := 0
    pickleB64 := .malformed
    sessionKeyB64 := .of (GroupSession.new "session").sessionKey
    ownerDevice := ⟨Vector.replicate 32 2⟩ }

theorem importsWhole_damaged : ¬ ∀ (dev : E2eeDevice) (pkg : RoomOutboundPackage), dev.ImportsWhole pkg := by
  intro h
  have hwhole := h newcomerDevice damagedPackage
  have hkeys : (newcomerDevice.importRoomOutbound damagedPackage).2.inboundMegolm.keys = ["session"] := by
    decide +kernel
  have hnone : newcomerDevice.inboundMegolm.keys = [] := rfl
  have herr : (newcomerDevice.importRoomOutbound damagedPackage).1 = .error .pickle := by
    decide +kernel
  unfold ImportsWhole at hwhole
  rcases hrun : newcomerDevice.importRoomOutbound damagedPackage with ⟨res, dev'⟩
  rw [hrun] at hwhole hkeys herr
  cases herr
  rw [hwhole.1, hnone] at hkeys
  cases hkeys

end E2eeDevice

end Example

end Crypto
end Thunderducks
