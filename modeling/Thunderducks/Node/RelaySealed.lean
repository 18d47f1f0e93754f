import Thunderducks.Crypto.Symbolic
import Thunderducks.Event.Checksum
import Thunderducks.Event.ContentAddress
import Thunderducks.Node.Sync

/-!
# RelaySealed — what the openers make of what a relay hands out (`td-node/src/sync.rs`)

The bytes come from a relay that nobody trusts.  `open_from_relay` takes the shared-key form alone,
`open_from_relay_auto` looks at the version byte first; both verify what they decode.
-/

namespace Thunderducks
namespace Node

open Lib Event Crypto

namespace DeviceNode

section Openers

variable [Aead]

/-! ## The version byte -/

section Versions

variable [Olm] [Deserialize RelayOlmWire] (e2ee : E2eeDevice) (aeadKey : Option Bytes32)

/-- How the opener for both versions goes by the first byte. -/
structure ByVersion (sealed : Bytes) : Prop where
  aead : ∀ key, sealed.head? = some relaySealV1 → aeadKey = some key →
    openBytesAuto e2ee aeadKey sealed = (openBytes key sealed, e2ee)
  olm : sealed.head? = some relaySealV2Olm → openBytesAuto e2ee aeadKey sealed = openBytesOlm e2ee sealed
  other : sealed.head? ≠ some relaySealV1 → sealed.head? ≠ some relaySealV2Olm →
    ∃ e, openBytesAuto e2ee aeadKey sealed = (.error e, e2ee)
  keyless : sealed.head? = some relaySealV1 → aeadKey = none →
    ∃ e, openBytesAuto e2ee aeadKey sealed = (.error e, e2ee)
  tooShort : sealed.head? = some relaySealV1 → sealed.length < 1 + 12 + 16 →
    ∃ e, openBytesAuto e2ee aeadKey sealed = (.error e, e2ee)
  unread : sealed.head? = some relaySealV2Olm → Deserialize.fromSlice (α := RelayOlmWire) sealed.tail = none →
    ∃ e, openBytesAuto e2ee aeadKey sealed = (.error e, e2ee)

theorem openBytesAuto_olm (rest : Bytes) :
    openBytesAuto e2ee aeadKey (relaySealV2Olm :: rest) = openBytesOlm e2ee (relaySealV2Olm :: rest) :=
  rfl

theorem openBytesAuto_aead (key : Bytes32) (rest : Bytes) :
    openBytesAuto e2ee (some key) (relaySealV1 :: rest) = (openBytes key (relaySealV1 :: rest), e2ee) :=
  rfl

theorem openBytesAuto_keyless (rest : Bytes) :
    openBytesAuto e2ee none (relaySealV1 :: rest) =
      (.error (.codec "v1 AEAD envelope but no relay key configured"), e2ee) :=
  rfl

theorem byVersion (sealed : Bytes) : ByVersion e2ee aeadKey sealed := by
  cases sealed with
  | nil => exact ⟨nofun, nofun, fun _ _ => ⟨.tooShort, rfl⟩, nofun, nofun, nofun⟩
  | cons ver rest =>
      refine ⟨?_, ?_, ?_, ?_, ?_, ?_⟩
      · -- version 1, with a key
        rintro key hver rfl
        cases hver
        exact openBytesAuto_aead e2ee key rest
      · intro hver
        cases hver
        exact openBytesAuto_olm e2ee aeadKey rest
      · intro hnot1 hnot2
        have h1 : ver ≠ relaySealV1 := fun h => hnot1 (congrArg some h)
        have h2 : ver ≠ relaySealV2Olm := fun h => hnot2 (congrArg some h)
        exact ⟨.badVersion ver, (if_neg h2).trans (if_neg h1)⟩
      · rintro hver rfl
        cases hver
        exact ⟨_, openBytesAuto_keyless e2ee rest⟩
      · intro hver hlen
        cases hver
        cases aeadKey with
        | none => exact ⟨_, openBytesAuto_keyless e2ee rest⟩
        | some key =>
            rw [List.length_cons] at hlen
            rw [openBytesAuto_aead, openBytes_tooShort key (by omega)]
            exact ⟨_, rfl⟩
      · intro hver hread
        cases hver
        have hnone : Deserialize.fromSlice (α := RelayOlmWire) rest = none := hread
        rw [openBytesAuto_olm, openBytesOlm, if_neg (not_not.2 rfl), hnone]
        exact ⟨_, rfl⟩

end Versions

/-! ## Round trip -/

omit [Aead] in
theorem decodeEvent_toVec [Primitives] [Deserialize SignedEvent] [RoundTrips SignedEvent] {ev : SignedEvent}
    (h : Verified ev) : decodeEvent (toVec ev) = .ok ev := by
  unfold decodeEvent
  rw [RoundTrips.read ev]
  dsimp only
  rw [show verifyEvent ev = .ok () from h]

/-- What `seal_for_relay` makes is its event, sealed. -/
theorem openBytes_sealForRelay [AeadLaws] {ev : SignedEvent} {key : Bytes32} {nonce ct : Bytes}
    (hnonce : nonce.length = 12) (hseal : sealForRelay ev key nonce = .ok ct) :
    openBytes key ct = .ok (toVec ev) ∧ ct.head? = some relaySealV1 := by
  have hbytes : sealBytes key nonce (toVec ev) = .ok ct := by
    unfold sealForRelay at hseal
    split at hseal
    · cases hseal
    next ct' hct =>
      cases hseal
      exact hct
  refine ⟨openBytes_ok_iff.2 ⟨nonce, hnonce, hbytes⟩, ?_⟩
  unfold sealBytes at hbytes
  split at hbytes
  · cases hbytes
  · cases hbytes
    rfl

/-! ## Both openers -/

variable [AeadLaws] [Olm] [Primitives] [Deserialize RelayOlmWire] [Deserialize SignedEvent]
  [RoundTrips SignedEvent]

/-- Sealed events come back, the openers go by the version byte and read nothing out of range, and what they
return verifies. -/
theorem relay_openers :
    (∀ (ev : SignedEvent) (key : Bytes32) (nonce ct : Bytes), Verified ev → nonce.length = 12 →
      sealForRelay ev key nonce = .ok ct →
      openFromRelay ct key = .ok ev ∧
      ∀ e2ee : E2eeDevice, openFromRelayAuto e2ee (some key) ct = (.ok ev, e2ee)) ∧
    (∀ (e2ee : E2eeDevice) (aeadKey : Option Bytes32) (sealed : Bytes),
      ByVersion e2ee aeadKey sealed ∧
      (∀ key, openBytesIndexed key sealed = some (openBytes key sealed)) ∧
      openBytesOlmIndexed e2ee sealed = some (openBytesOlm e2ee sealed) ∧
      openBytesAutoIndexed e2ee aeadKey sealed = some (openBytesAuto e2ee aeadKey sealed)) ∧
    (∀ (ct : Bytes) (key : Bytes32) (ev : SignedEvent), openFromRelay ct key = .ok ev → Verified ev) ∧
    ∀ (e2ee : E2eeDevice) (aeadKey : Option Bytes32) (ct : Bytes) (ev : SignedEvent),
      (openFromRelayAuto e2ee aeadKey ct).1 = .ok ev → Verified ev := by
  refine ⟨?_, ?_, ?_, ?_⟩
  · intro ev key nonce ct hv hnonce hseal
    rcases openBytes_sealForRelay hnonce hseal with ⟨hopen, hver⟩
    refine ⟨?_, ?_⟩
    · unfold openFromRelay
      rw [hopen]
      exact decodeEvent_toVec hv
    · intro e2ee
      unfold openFromRelayAuto
      rw [(byVersion e2ee (some key) ct).aead key hver rfl, hopen]
      dsimp only
      rw [decodeEvent_toVec hv]
  · intro e2ee aeadKey sealed
    exact ⟨byVersion e2ee aeadKey sealed, fun key => openBytesIndexed_eq key sealed,
      openBytesOlmIndexed_eq e2ee sealed, openBytesAutoIndexed_eq e2ee aeadKey sealed⟩
  · intro ct key ev h
    unfold openFromRelay at h
    split at h
    · cases h
    · exact decodeEvent_verified h
  · intro e2ee aeadKey ct ev h
    -- both openers verify what they decode
    unfold openFromRelayAuto at h
    split at h
    · cases h
    · exact decodeEvent_verified h

end Openers

/-! ## One message -/

section Example

open Checksum

attribute [local instance] Symbolic.aead Checksum.primitives

instance symbolicLaws : AeadLaws where
  tagged := by
    intro key nonce plain ct _ h
    cases h
    exact List.length_append
  decrypt_iff := by
    intro key nonce plain ct _
    constructor
    · intro h
      change (if _ then _ else _) = _ at h
      split at h
      next htag =>
        cases h
        change some _ = _
        rw [← htag, List.take_append_drop]
      · cases h
    · intro h
      cases h
      have hlen : (plain ++ Symbolic.tag).length - 16 = plain.length := by
        rw [List.length_append]
        exact Nat.add_sub_cancel _ 16
      change (if _ then _ else _) = _
      rw [hlen, List.drop_left, List.take_left, if_pos rfl]

@[reducible] noncomputable def sealedEvent : Deserialize SignedEvent :=
  Deserialize.ofWritten SignedEvent

@[reducible] def noWire : Deserialize RelayOlmWire :=
  { fromSlice := fun _ => none }

@[reducible] def noOlm : Olm :=
  Symbolic.olm []

attribute [local instance] sealedEvent noWire noOlm

/-- A message of device 1, sealed under the nonce of zeros. -/
theorem relay_openers_message :
    ∃ ct, sealForRelay (event 1 (room 1) [] .message [7] 1) (key 3) (List.replicate 12 0) = .ok ct ∧
      openFromRelay ct (key 3) = .ok (event 1 (room 1) [] .message [7] 1) := by
  have hrt : RoundTrips SignedEvent := roundTrips_ofWritten SignedEvent.toJson_injective
  refine ⟨_, rfl, ?_⟩
  exact (relay_openers.1 _ _ _ _ (event_verified 1 (room 1) [] .message [7] 1) (by decide) rfl).1

end Example

end DeviceNode

end Node
end Thunderducks
