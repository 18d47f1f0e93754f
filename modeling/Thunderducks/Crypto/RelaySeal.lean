import Thunderducks.Crypto.E2ee
import Thunderducks.Lib.Panic

/-!
# RelaySeal — device-side sealing of relay envelopes (`td-crypto/src/relay_seal.rs`)

```
v1 AEAD:  [0x01][12-byte nonce][ciphertext || 16-byte tag]
v2 Olm:   [0x02][utf-8 JSON RelayOlmWire]
```

The openers match on what is sealed.  Beside each stands the opener with the indices and ranges of the source,
where `none` is a panic, and the proof that it returns the same.
-/

namespace Thunderducks
namespace Crypto

open Lib Event

/-- Shared-key AEAD wire version. -/
def relaySealV1 : UInt8 := 0x01

/-- Per-recipient Olm wire version. -/
def relaySealV2Olm : UInt8 := 0x02

/-- ChaCha20-Poly1305 under a 32-byte key and a 12-byte nonce. -/
class Aead where
  encrypt : Bytes32 → Bytes → Bytes → Option Bytes
  decrypt : Bytes32 → Bytes → Bytes → Option Bytes

/-- What ChaCha20-Poly1305 promises: the tag is sixteen bytes, decryption inverts encryption, and under the
same key it rejects everything else. -/
class AeadLaws [Aead] : Prop where
  tagged : ∀ {key : Bytes32} {nonce plain ct : Bytes}, nonce.length = 12 →
    Aead.encrypt key nonce plain = some ct → ct.length = plain.length + 16
  decrypt_iff : ∀ {key : Bytes32} {nonce plain ct : Bytes}, nonce.length = 12 →
    (Aead.decrypt key nonce ct = some plain ↔ Aead.encrypt key nonce plain = some ct)

/-- v2 outer JSON (after version byte). -/
structure RelayOlmWire where
  v : UInt8
  senderCurve25519B64 : String
  olm : OlmCiphertext
  deriving DecidableEq

instance : Serialize OlmCiphertext where
  toJson ct :=
    .obj
      [("sender_device", ct.senderDevice.bytes.toJson),
        ("recipient_device", ct.recipientDevice.bytes.toJson),
        ("message_json", .str ct.messageJson)]

instance : Serialize RelayOlmWire where
  toJson wire :=
    .obj
      [("v", .num wire.v.toNat),
        ("sender_curve25519_b64", .str wire.senderCurve25519B64),
        ("olm", Serialize.toJson wire.olm)]

inductive RelaySealError
  | encrypt
  | decrypt
  | tooShort
  | badVersion (v : UInt8)
  | olm (e : E2eeError)
  | codec (msg : String)
  deriving DecidableEq

/-! ## v1: shared-key AEAD -/

/-- Derive a 32-byte ChaCha20-Poly1305 key from arbitrary key material. -/
def deriveRelayKey [Primitives] (material : Bytes) : Bytes32 :=
  Primitives.blake3 (Json.ascii "td-relay-seal-v1" ++ material)

/-- Default demo key material when none configured. -/
def defaultRelayKeyMaterial : Bytes :=
  Json.ascii "td-relay-dev-key-change-me!!!!!!"

section Aead

variable [Aead]

/-- Seal plaintext bytes for relay storage (v1 shared-key AEAD) under the nonce drawn. -/
def sealBytes (key : Bytes32) (nonce plaintext : Bytes) : Except RelaySealError Bytes :=
  match Aead.encrypt key nonce plaintext with
  | none => .error .encrypt
  | some ct => .ok (relaySealV1 :: (nonce ++ ct))

/-- Open v1 AEAD sealed bytes from relay storage. -/
def openBytes (key : Bytes32) : Bytes → Except RelaySealError Bytes
  | [] => .error .tooShort
  | ver :: rest =>
      if ver ≠ relaySealV1 then
        .error (.badVersion ver)
      else if (ver :: rest).length < 1 + 12 + 16 then
        .error .tooShort
      else
        match Aead.decrypt key (rest.take 12) (rest.drop 12) with
        | none => .error .decrypt
        | some plain => .ok plain

/-- `Nonce::from_slice` panics unless there are twelve bytes. -/
def nonceFromSlice (bs : Bytes) : Option Bytes :=
  if bs.length = 12 then some bs else none

/-- `open_bytes` as it reads. -/
def openBytesIndexed (key : Bytes32) (sealed : Bytes) : Option (Except RelaySealError Bytes) :=
  if sealed = [] then
    some (.error .tooShort)
  else do
    let ver ← sealed[0]?
    if ver ≠ relaySealV1 then
      some (.error (.badVersion ver))
    else if sealed.length < 1 + 12 + 16 then
      some (.error .tooShort)
    else do
      let nonceBytes ← slice sealed 1 13
      let ct ← sliceFrom sealed 13
      let nonce ← nonceFromSlice nonceBytes
      match Aead.decrypt key nonce ct with
      | none => some (.error .decrypt)
      | some plain => some (.ok plain)

/-- Every read of `open_bytes` is behind a check that allows it. -/
theorem openBytesIndexed_eq (key : Bytes32) (sealed : Bytes) :
    openBytesIndexed key sealed = some (openBytes key sealed) := by
  cases sealed with
  | nil => rfl
  | cons ver rest =>
      unfold openBytesIndexed openBytes
      rw [if_neg (List.cons_ne_nil ver rest), List.getElem?_cons_zero]
      dsimp only [Option.bind_eq_bind, Option.bind_some]
      split
      · rfl
      split
      · rfl
      next hlen =>
      rw [List.length_cons] at hlen
      have hnonce : slice (ver :: rest) 1 13 = some (rest.take 12) :=
        slice_eq (by decide) (by rw [List.length_cons]; omega)
      have hct : sliceFrom (ver :: rest) 13 = some (rest.drop 12) :=
        sliceFrom_eq (by rw [List.length_cons]; omega)
      have htwelve : nonceFromSlice (rest.take 12) = some (rest.take 12) := by
        refine if_pos ?_
        rw [List.length_take]
        omega
      rw [hnonce, hct, Option.bind_some, Option.bind_some, htwelve, Option.bind_some]
      cases Aead.decrypt key (rest.take 12) (rest.drop 12) with
      | none => rfl
      | some plain => rfl

/-- Bytes open to `plain` exactly if they are `plain` sealed under some nonce. -/
theorem openBytes_ok_iff [AeadLaws] {key : Bytes32} {plain sealed : Bytes} :
    openBytes key sealed = .ok plain ↔
      ∃ nonce, nonce.length = 12 ∧ sealBytes key nonce plain = .ok sealed := by
  constructor
  · intro h
    cases sealed with
    | nil => cases h
    | cons ver rest =>
        rw [openBytes] at h
        split at h
        · cases h
        next hver =>
        split at h
        · cases h
        next hlen =>
        split at h
        · cases h
        next hdecrypt =>
        cases h
        rw [List.length_cons] at hlen
        have hnonce : (rest.take 12).length = 12 := by
          rw [List.length_take]
          omega
        refine ⟨rest.take 12, hnonce, ?_⟩
        unfold sealBytes
        rw [(AeadLaws.decrypt_iff hnonce).1 hdecrypt]
        dsimp only
        rw [List.take_append_drop, ← not_not.1 hver]
  · rintro ⟨nonce, hnonce, hseal⟩
    unfold sealBytes at hseal
    split at hseal
    · cases hseal
    next ct hencrypt =>
    cases hseal
    -- the header and the tag alone are as long as the opener asks for
    have hlen : ¬ (relaySealV1 :: (nonce ++ ct)).length < 1 + 12 + 16 := by
      rw [List.length_cons, List.length_append, hnonce, AeadLaws.tagged hnonce hencrypt]
      omega
    have hdecrypt := (AeadLaws.decrypt_iff hnonce).2 hencrypt
    rw [openBytes, if_neg (not_not.2 rfl), if_neg hlen, ← hnonce, List.take_left, List.drop_left, hdecrypt]

/-- Where there is no room for nonce and tag nothing is decrypted. -/
theorem openBytes_tooShort (key : Bytes32) {rest : Bytes} (h : rest.length < 12 + 16) :
    openBytes key (relaySealV1 :: rest) = .error .tooShort := by
  rw [openBytes, if_neg (not_not.2 rfl), if_pos (by rw [List.length_cons]; omega)]

end Aead

/-! ## v2: Olm per recipient -/

section Olm

variable [Olm]

/-- Seal plaintext to one recipient via an established Olm session (v2). -/
def sealBytesOlm (e2ee : E2eeDevice) (recip : DeviceId) (plaintext : Bytes) :
    Except RelaySealError Bytes × E2eeDevice :=
  match e2ee.olmEncrypt recip plaintext with
  | (.error e, e2ee) => (.error (.olm e), e2ee)
  | (.ok olm, e2ee) =>
      let wire : RelayOlmWire :=
        { v := 1
          senderCurve25519B64 := Olm.identityKey e2ee.account
          olm := olm }
      (.ok (relaySealV2Olm :: toVec wire), e2ee)

variable [Deserialize RelayOlmWire]

/-- Open v2 Olm-sealed bytes addressed to this device. -/
def openBytesOlm (e2ee : E2eeDevice) : Bytes → Except RelaySealError Bytes × E2eeDevice
  | [] => (.error .tooShort, e2ee)
  | ver :: rest =>
      if ver ≠ relaySealV2Olm then
        (.error (.badVersion ver), e2ee)
      else
        match Deserialize.fromSlice (α := RelayOlmWire) rest with
        | none => (.error (.codec "RelayOlmWire"), e2ee)
        | some wire =>
            if wire.v ≠ 1 then
              (.error (.codec ("unsupported RelayOlmWire.v=" ++ toString wire.v.toNat)), e2ee)
            else
              match e2ee.olmDecrypt wire.senderCurve25519B64 wire.olm with
              | (.error e, e2ee) => (.error (.olm e), e2ee)
              | (.ok plain, e2ee) => (.ok plain, e2ee)

/-- `open_bytes_olm` as it reads. -/
def openBytesOlmIndexed (e2ee : E2eeDevice) (sealed : Bytes) :
    Option (Except RelaySealError Bytes × E2eeDevice) :=
  if sealed = [] then
    some (.error .tooShort, e2ee)
  else do
    let ver ← sealed[0]?
    if ver ≠ relaySealV2Olm then
      some (.error (.badVersion ver), e2ee)
    else do
      let json ← sliceFrom sealed 1
      match Deserialize.fromSlice (α := RelayOlmWire) json with
      | none => some (.error (.codec "RelayOlmWire"), e2ee)
      | some wire =>
          if wire.v ≠ 1 then
            some (.error (.codec ("unsupported RelayOlmWire.v=" ++ toString wire.v.toNat)), e2ee)
          else
            match e2ee.olmDecrypt wire.senderCurve25519B64 wire.olm with
            | (.error e, e2ee) => some (.error (.olm e), e2ee)
            | (.ok plain, e2ee) => some (.ok plain, e2ee)

theorem openBytesOlmIndexed_eq (e2ee : E2eeDevice) (sealed : Bytes) :
    openBytesOlmIndexed e2ee sealed = some (openBytesOlm e2ee sealed) := by
  cases sealed with
  | nil => rfl
  | cons ver rest =>
      have hjson : sliceFrom (ver :: rest) 1 = some rest :=
        sliceFrom_eq (by rw [List.length_cons]; omega)
      unfold openBytesOlmIndexed openBytesOlm
      rw [if_neg (List.cons_ne_nil ver rest), List.getElem?_cons_zero, hjson]
      dsimp only [Option.bind_eq_bind, Option.bind_some]
      split
      · rfl
      cases Deserialize.fromSlice (α := RelayOlmWire) rest with
      | none => rfl
      | some wire =>
          dsimp only
          split
          · rfl
          rcases e2ee.olmDecrypt wire.senderCurve25519B64 wire.olm with ⟨res, e2ee'⟩
          cases res with
          | error e => rfl
          | ok plain => rfl

variable [Aead]

/-- Open either v1 (shared AEAD) or v2 (Olm) ciphertext; v1 requires `aeadKey`. -/
def openBytesAuto (e2ee : E2eeDevice) (aeadKey : Option Bytes32) (sealed : Bytes) :
    Except RelaySealError Bytes × E2eeDevice :=
  match sealed.head? with
  | none => (.error .tooShort, e2ee)
  | some v =>
      if v = relaySealV2Olm then
        openBytesOlm e2ee sealed
      else if v = relaySealV1 then
        match aeadKey with
        | none => (.error (.codec "v1 AEAD envelope but no relay key configured"), e2ee)
        | some key => (openBytes key sealed, e2ee)
      else
        (.error (.badVersion v), e2ee)

/-- `open_bytes_auto` as it reads. -/
def openBytesAutoIndexed (e2ee : E2eeDevice) (aeadKey : Option Bytes32) (sealed : Bytes) :
    Option (Except RelaySealError Bytes × E2eeDevice) :=
  if sealed = [] then
    some (.error .tooShort, e2ee)
  else do
    let v ← sealed[0]?
    if v = relaySealV2Olm then
      openBytesOlmIndexed e2ee sealed
    else if v = relaySealV1 then
      match aeadKey with
      | none => some (.error (.codec "v1 AEAD envelope but no relay key configured"), e2ee)
      | some key => do
          let res ← openBytesIndexed key sealed
          some (res, e2ee)
    else
      some (.error (.badVersion v), e2ee)

theorem openBytesAutoIndexed_eq (e2ee : E2eeDevice) (aeadKey : Option Bytes32) (sealed : Bytes) :
    openBytesAutoIndexed e2ee aeadKey sealed = some (openBytesAuto e2ee aeadKey sealed) := by
  cases sealed with
  | nil => rfl
  | cons ver rest =>
      unfold openBytesAutoIndexed openBytesAuto
      rw [if_neg (List.cons_ne_nil ver rest), List.getElem?_cons_zero, openBytesOlmIndexed_eq]
      dsimp only [Option.bind_eq_bind, Option.bind_some, List.head?_cons]
      split
      · rfl
      split
      · cases aeadKey with
        | none => rfl
        | some key =>
            dsimp only
            rw [openBytesIndexed_eq, Option.bind_some]
      · rfl

end Olm

end Crypto
end Thunderducks
