import Thunderducks.Event.Room
import Thunderducks.Lib.Files
import Thunderducks.Lib.Text
import Thunderducks.Net.QuicPem

/-!
# QuicTls — identity, pins and mTLS of the QUIC transport (`td-net/src/quic.rs`)

A `QuicTlsConfig` is an identity and a policy.  Its builders overwrite one another's fields, and two
verifiers read the result: `PinClientCertVerifier` on the accepting side, if there is one at all, and
`PinOrSkipServerVerifier` on the dialling side.
-/

namespace Thunderducks
namespace Net

open Lib Event

/-- Errors of other crates are their texts. -/
inductive QuicError
  | io (text : String)
  | tls (text : String)
  | pin (text : String)
  deriving DecidableEq

def QuicError.text : QuicError → String
  | .io text => text
  | .tls text => "tls: " ++ text
  | .pin text => "pin: " ++ text

inductive PrivateKeyDer
  | pkcs1 (der : Bytes)
  | sec1 (der : Bytes)
  | pkcs8 (der : Bytes)
  deriving DecidableEq

/-- What is used of `rustls_pemfile` and `rustls`: the certificates and the private key of a PEM file, and
which identities a server and a client configuration take. -/
class Rustls where
  pemCerts : Bytes → Except String (List Bytes)
  pemPrivateKey : Bytes → Except String (Option PrivateKeyDer)
  serverIdentity : List Bytes → PrivateKeyDer → Except String Unit
  clientIdentity : List Bytes → PrivateKeyDer → Except String Unit

/-! ## Pins -/

/-- blake3 pin of a leaf certificate DER. -/
def certPinBlake3 [Primitives] (cert : Bytes) : Bytes32 :=
  Primitives.blake3 cert

/-- The loop of `parse_pin_list`. -/
def parsePins : List String → Except QuicError (List Bytes32)
  | [] => .ok []
  | part :: parts =>
      let p := Text.trim part
      if p = "" then
        parsePins parts
      else
        match Text.hexDecode p.toList with
        | none => .error (.pin "bad pin hex")
        | some bytes =>
            if h : bytes.length = 32 then
              match parsePins parts with
              | .error e => .error e
              | .ok pins => .ok (⟨bytes.toArray, List.size_toArray.trans h⟩ :: pins)
            else
              .error (.pin ("pin must be 32 bytes (64 hex), got " ++ toString bytes.length ++ " bytes"))

/-- Parse comma/whitespace-separated 64-hex blake3 pins. -/
def parsePinList (s : String) : Except QuicError (List Bytes32) :=
  parsePins ((s.toList.splitOnP fun c => c = ',' || Text.isWhitespace c).map String.ofList)

def pinAllowed [Primitives] (pins : List Bytes32) (cert : Bytes) : Bool :=
  if pins = [] then
    false
  else
    let got := certPinBlake3 cert
    pins.any fun p => p = got

theorem pinAllowed_iff [Primitives] (pins : List Bytes32) (cert : Bytes) :
    pinAllowed pins cert = true ↔ certPinBlake3 cert ∈ pins := by
  unfold pinAllowed
  split
  next hnone => simp [hnone]
  next hsome => simp

/-! ## Configuration -/

/-- TLS identity + pin / mTLS policy for QUIC. -/
structure QuicTlsConfig where
  certs : List Bytes
  key : PrivateKeyDer
  /-- Allowed peer leaf-cert blake3 pins.  When non-empty, peers must match. -/
  peerPins : List Bytes32
  /-- Require and verify client certificates (mTLS). -/
  requireClientAuth : Bool
  /-- Dev-only: skip server cert verification when `peerPins` is empty. -/
  insecureSkipVerify : Bool
  serverName : String

/-- Generate a self-signed cert for pond QUIC: what `rcgen` makes is given. -/
def selfSignedCert (generated : Except String (Bytes × Bytes)) :
    Except QuicError (List Bytes × PrivateKeyDer) :=
  match generated with
  | .error e => .error (.tls e)
  | .ok (cert, key) => .ok ([cert], .pkcs8 key)

/-- The files, with those that cannot be read. -/
structure Disk where
  files : Files
  unreadable : String → Option String

/-- `std::fs::read` -/
def Disk.read (disk : Disk) (path : String) : Except QuicError Bytes :=
  match disk.unreadable path with
  | some e => .error (.io e)
  | none =>
      match disk.files path with
      | none => .error (.io "No such file or directory (os error 2)")
      | some bs => .ok bs

/-- `Path::is_file` -/
def Disk.isFile (disk : Disk) (path : String) : Bool :=
  (disk.files path).isSome

section Identity

variable [Rustls]

/-- Load cert chain + private key from PEM files. -/
def loadPemIdentity (disk : Disk) (certPath keyPath : String) :
    Except QuicError (List Bytes × PrivateKeyDer) := do
  let certPem ← disk.read certPath
  let keyPem ← disk.read keyPath
  let certs ← (Rustls.pemCerts certPem).mapError fun e => .tls ("cert pem: " ++ e)
  ensure (certs ≠ []) (.tls "no certificates in cert pem")
  let key ← (Rustls.pemPrivateKey keyPem).mapError fun e => .tls ("key pem: " ++ e)
  let key ← okOr key (.tls "no private key in key pem")
  .ok (certs, key)

end Identity

namespace QuicTlsConfig

/-- Dev default: ephemeral self-signed, skip verify, no mTLS. -/
def insecureEphemeral (generated : Except String (Bytes × Bytes)) : Except QuicError QuicTlsConfig := do
  let (certs, key) ← selfSignedCert generated
  .ok
    { certs := certs
      key := key
      peerPins := []
      requireClientAuth := false
      insecureSkipVerify := true
      serverName := "td-pond" }

/-- Production-ish: identity PEMs + pin list + optional mTLS. -/
def fromPemFiles [Rustls] (disk : Disk) (certPath keyPath : String) (peerPins : List Bytes32)
    (requireClientAuth : Bool) : Except QuicError QuicTlsConfig := do
  let (certs, key) ← loadPemIdentity disk certPath keyPath
  let insecure := peerPins = [] ∧ requireClientAuth = false
  .ok
    { certs := certs
      key := key
      peerPins := peerPins
      requireClientAuth := requireClientAuth
      insecureSkipVerify := insecure
      serverName := "td-pond" }

def withPins (cfg : QuicTlsConfig) (pins : List Bytes32) : QuicTlsConfig :=
  { cfg with
    peerPins := pins
    insecureSkipVerify := if pins ≠ [] then false else cfg.insecureSkipVerify }

def withMtls (cfg : QuicTlsConfig) (on : Bool) : QuicTlsConfig :=
  { cfg with
    requireClientAuth := on
    insecureSkipVerify := if on then false else cfg.insecureSkipVerify }

end QuicTlsConfig

/-- `key_raw` of `write_self_signed_pem`. -/
def PrivateKeyDer.raw : PrivateKeyDer → Bytes
  | .pkcs1 der => der
  | .sec1 der => der
  | .pkcs8 der => der

/-- Write a fresh self-signed identity to PEM paths; returns config.  `none` is a panic. -/
def writeSelfSignedPem (generated : Except String (Bytes × Bytes)) (disk : Disk) (fault : Option Fault)
    (certPath keyPath : String) : Option (Except QuicError QuicTlsConfig × Disk) :=
  match selfSignedCert generated with
  | .error e => some (.error e, disk)
  | .ok (certs, key) => do
      let certPem ← certPem certs
      let keyPem ← keyPem key.raw
      let (res, files) := FileOp.perform disk.files
        [.createDirAll, .createDirAll, .create certPath, .writeAll certPath (utf8Bytes certPem),
          .create keyPath, .writeAll keyPath (utf8Bytes keyPem)] fault
      match res with
      | .error e => some (.error (.io e), { disk with files := files })
      | .ok () =>
          some
            (.ok
              { certs := certs
                key := key
                peerPins := []
                requireClientAuth := false
                insecureSkipVerify := true
                serverName := "td-pond" }, { disk with files := files })

/-- Writing an identity can fail, but does not panic. -/
theorem writeSelfSignedPem_isSome (generated : Except String (Bytes × Bytes)) (disk : Disk)
    (fault : Option Fault) (certPath keyPath : String) :
    (writeSelfSignedPem generated disk fault certPath keyPath).isSome = true := by
  unfold writeSelfSignedPem
  cases selfSignedCert generated with
  | error e => rfl
  | ok identity =>
      rcases identity with ⟨certs, key⟩
      rcases Option.isSome_iff_exists.1 (certPem_isSome certs) with ⟨certText, hcert⟩
      rcases Option.isSome_iff_exists.1 (pemBlock_isSome "PRIVATE KEY" key.raw) with ⟨keyText, hkey⟩
      have hkeyPem : keyPem key.raw = some keyText := hkey
      dsimp only
      rw [hcert, hkeyPem]
      dsimp only [Option.bind_eq_bind, Option.bind_some]
      split
      · rfl
      · rfl

/-! ## Verifiers -/

structure PinOrSkipServerVerifier where
  pins : List Bytes32
  skip : Bool

/-- `verify_server_cert`, of the leaf certificate. -/
def PinOrSkipServerVerifier.verifyServerCert [Primitives] (v : PinOrSkipServerVerifier) (endEntity : Bytes) :
    Bool :=
  if v.pins ≠ [] then
    pinAllowed v.pins endEntity
  else
    v.skip

structure PinClientCertVerifier where
  pins : List Bytes32
  /-- When pins empty, accept any client cert that presents. -/
  allowAny : Bool

namespace PinClientCertVerifier

def offerClientAuth (_ : PinClientCertVerifier) : Bool :=
  true

def clientAuthMandatory (_ : PinClientCertVerifier) : Bool :=
  true

/-- `verify_client_cert`, of the leaf certificate. -/
def verifyClientCert [Primitives] (v : PinClientCertVerifier) (endEntity : Bytes) : Bool :=
  if v.pins ≠ [] then
    pinAllowed v.pins endEntity
  else
    v.allowAny

end PinClientCertVerifier

/-! ## Both sides of a handshake -/

def alpn : Bytes :=
  Json.ascii "td-p2p/1"

/-- `rustls::ServerConfig`: `none` is `with_no_client_auth`. -/
structure ServerConfig where
  clientCertVerifier : Option PinClientCertVerifier
  certs : List Bytes
  key : PrivateKeyDer
  alpnProtocols : List Bytes

/-- `rustls::ClientConfig` -/
structure ClientConfig where
  certificateVerifier : PinOrSkipServerVerifier
  clientAuthCert : Option (List Bytes × PrivateKeyDer)
  alpnProtocols : List Bytes

section Configs

variable [Rustls]

def serverConfig (cfg : QuicTlsConfig) : Except QuicError ServerConfig :=
  let verifier : Option PinClientCertVerifier :=
    if cfg.requireClientAuth then
      some { pins := cfg.peerPins, allowAny := cfg.peerPins = [] }
    else
      none
  match Rustls.serverIdentity cfg.certs cfg.key with
  | .error e => .error (.tls e)
  | .ok () =>
      .ok
        { clientCertVerifier := verifier
          certs := cfg.certs
          key := cfg.key
          alpnProtocols := [alpn] }

def clientConfig (cfg : QuicTlsConfig) : Except QuicError ClientConfig :=
  let verifier : PinOrSkipServerVerifier := { pins := cfg.peerPins, skip := cfg.insecureSkipVerify }
  if cfg.requireClientAuth ∨ cfg.certs ≠ [] then
    -- a client identity is presented whenever there is one
    match Rustls.clientIdentity cfg.certs cfg.key with
    | .error e => .error (.tls ("client auth cert: " ++ e))
    | .ok () =>
        .ok
          { certificateVerifier := verifier
            clientAuthCert := some (cfg.certs, cfg.key)
            alpnProtocols := [alpn] }
  else
    .ok
      { certificateVerifier := verifier
        clientAuthCert := none
        alpnProtocols := [alpn] }

end Configs

section Handshake

variable [Primitives]

/-- What `rustls` makes of the client that holds the key of this certificate, or presents none: without a
verifier, or where the verifier does not ask for certificates, it is not asked for one. -/
def ServerConfig.admits (server : ServerConfig) (presented : Option Bytes) : Bool :=
  match server.clientCertVerifier with
  | none => true
  | some v =>
      if v.offerClientAuth then
        match presented with
        | none => !v.clientAuthMandatory
        | some cert => v.verifyClientCert cert
      else
        true

/-- What it makes of a server that holds the key of this certificate. -/
def ClientConfig.accepts (client : ClientConfig) (cert : Bytes) : Bool :=
  client.certificateVerifier.verifyServerCert cert

variable [Rustls]

/-- Whom the listener of a configuration admits. -/
theorem admits_serverConfig {cfg : QuicTlsConfig} {server : ServerConfig}
    (h : serverConfig cfg = .ok server) (presented : Option Bytes) :
    server.admits presented = true ↔
      cfg.requireClientAuth = false ∨
        ∃ cert, presented = some cert ∧ (cfg.peerPins = [] ∨ certPinBlake3 cert ∈ cfg.peerPins) := by
  have hverifier : server.clientCertVerifier =
      if cfg.requireClientAuth then some { pins := cfg.peerPins, allowAny := cfg.peerPins = [] } else none := by
    unfold serverConfig at h
    dsimp only at h
    cases hid : Rustls.serverIdentity cfg.certs cfg.key with
    | error e =>
        rw [hid] at h
        cases h
    | ok u =>
        rw [hid] at h
        cases h
        rfl
  unfold ServerConfig.admits
  rw [hverifier]
  -- without mTLS nobody is asked; with it, the verifier decides
  cases cfg.requireClientAuth with
  | false => simp
  | true =>
      simp only [if_true, PinClientCertVerifier.offerClientAuth]
      cases presented with
      | none => simp [PinClientCertVerifier.clientAuthMandatory]
      | some cert =>
          dsimp only
          unfold PinClientCertVerifier.verifyClientCert
          dsimp only
          by_cases hpins : cfg.peerPins = []
          · simp [hpins]
          · rw [if_pos hpins, pinAllowed_iff]
            simp [hpins]

/-- Which servers a dial with a configuration accepts. -/
theorem accepts_clientConfig {cfg : QuicTlsConfig} {client : ClientConfig}
    (h : clientConfig cfg = .ok client) (cert : Bytes) :
    client.accepts cert = true ↔
      certPinBlake3 cert ∈ cfg.peerPins ∨ cfg.peerPins = [] ∧ cfg.insecureSkipVerify = true := by
  have hverifier : client.certificateVerifier =
      { pins := cfg.peerPins, skip := cfg.insecureSkipVerify } := by
    unfold clientConfig at h
    dsimp only at h
    split at h
    · split at h
      · cases h
      · cases h
        rfl
    · cases h
      rfl
  unfold ClientConfig.accepts PinOrSkipServerVerifier.verifyServerCert
  rw [hverifier]
  dsimp only
  by_cases hpins : cfg.peerPins = []
  · simp [hpins]
  · rw [if_pos hpins, pinAllowed_iff]
    simp [hpins]

end Handshake

end Net
end Thunderducks
