import Thunderducks.Event.Checksum
import Thunderducks.Net.QuicTls

/-!
# QuicIdentity — the TLS policy of a node that serves QUIC (`build_quic_tls_config` in `td-node/src/rpc.rs`)

The identity is read from given PEM files, read from those of the data directory, written there, or made for
this run only.  Each branch puts pins and mTLS into the configuration in its own way; the last one leaves
both out when there are no pins.  `followsPolicy_iff` says when that shows.
-/

namespace Thunderducks
namespace Node

open Lib Event Net

/-- What `build_quic_tls_config` reads of the options. -/
structure ServeOptions where
  p2pQuic : Bool
  /-- QUIC identity cert PEM. -/
  quicCert : Option String
  /-- QUIC identity key PEM. -/
  quicKey : Option String
  /-- Comma/space-separated blake3 leaf-cert pins. -/
  quicPins : Option String
  /-- Require client certs on QUIC accept (mTLS).  Default true when pins set. -/
  quicMtls : Option Bool

/-- What the function finds outside: the disk, where its writes fail, and what `rcgen` makes. -/
structure QuicEnv where
  disk : Disk
  fault : Option Fault
  generated : Except String (Bytes × Bytes)

namespace ServeOptions

def pinList (opts : ServeOptions) : Except QuicError (List Bytes32) :=
  match opts.quicPins with
  | some s => parsePinList s
  | none => .ok []

/-- `opts.quic_mtls.unwrap_or(!pins.is_empty())` -/
def mtls (opts : ServeOptions) (pins : List Bytes32) : Bool :=
  opts.quicMtls.getD (pins ≠ [])

section Build

variable [Rustls]

/-- The end of the function: the identity is read from two files. -/
def fromFiles (disk : Disk) (cert key : String) (pins : List Bytes32) (mtls : Bool) :
    Except String (Option QuicTlsConfig) :=
  match QuicTlsConfig.fromPemFiles disk cert key pins mtls with
  | .error e => .error e.text
  | .ok cfg => .ok (some (if mtls then cfg.withMtls true else cfg))

/-- The configuration, if QUIC is on, and the disk afterwards.  `none` is a panic. -/
def buildQuicTlsConfig (env : QuicEnv) (opts : ServeOptions) (dataDir : Option String) :
    Option (Except String (Option QuicTlsConfig) × Disk) :=
  if opts.p2pQuic = false then
    some (.ok none, env.disk)
  else
    match opts.pinList with
    | .error e => some (.error e.text, env.disk)
    | .ok pins =>
        let mtls := opts.mtls pins
        match opts.quicCert, opts.quicKey with
        | some cert, some key => some (fromFiles env.disk cert key pins mtls, env.disk)
        | none, none =>
            match dataDir with
            | some dir =>
                let c := dir ++ "/quic-cert.pem"
                let k := dir ++ "/quic-key.pem"
                if env.disk.isFile c ∧ env.disk.isFile k then
                  some (fromFiles env.disk c k pins mtls, env.disk)
                else do
                  match ← writeSelfSignedPem env.generated env.disk env.fault c k with
                  | (.error e, disk) => some (.error e.text, disk)
                  | (.ok cfg, disk) => some (.ok (some ((cfg.withPins pins).withMtls mtls)), disk)
            | none =>
                match QuicTlsConfig.insecureEphemeral env.generated with
                | .error e => some (.error e.text, env.disk)
                | .ok cfg =>
                    let cfg := if pins ≠ [] then (cfg.withPins pins).withMtls mtls else cfg
                    some (.ok (some cfg), env.disk)
        | _, _ => some (.error "both TD_QUIC_CERT and TD_QUIC_KEY required (or neither)", env.disk)

/-- The identity is made for this run only. -/
def Ephemeral (opts : ServeOptions) (dataDir : Option String) : Prop :=
  opts.quicCert = none ∧ opts.quicKey = none ∧ dataDir = none

/-! ## What the branches make of pins and mTLS -/

/-- The policy fields of a configuration. -/
structure Settings (cfg : QuicTlsConfig) (pins : List Bytes32) (mtls : Bool) : Prop where
  peerPins : cfg.peerPins = pins
  requireClientAuth : cfg.requireClientAuth = mtls
  insecureSkipVerify : cfg.insecureSkipVerify = true ↔ pins = [] ∧ mtls = false

omit [Rustls] in
/-- A fresh identity that gets its pins and then its mTLS. -/
theorem settings_withPins {cfg : QuicTlsConfig} (hskip : cfg.insecureSkipVerify = true) (pins : List Bytes32)
    (mtls : Bool) : Settings ((cfg.withPins pins).withMtls mtls) pins mtls := by
  refine ⟨rfl, rfl, ?_⟩
  unfold QuicTlsConfig.withMtls QuicTlsConfig.withPins
  cases mtls with
  | true => simp
  | false => simp [hskip]

/-- One that is read with them. -/
theorem settings_fromFiles {disk : Disk} {cert key : String} {pins : List Bytes32} {mtls : Bool}
    {cfg : QuicTlsConfig} (h : fromFiles disk cert key pins mtls = .ok (some cfg)) :
    Settings cfg pins mtls := by
  unfold fromFiles at h
  split at h
  · cases h
  next read hread =>
  unfold QuicTlsConfig.fromPemFiles at hread
  rcases bind_ok_iff.1 hread with ⟨identity, _, hcfg⟩
  cases hcfg
  cases mtls with
  | true =>
      cases h
      refine ⟨rfl, rfl, ?_⟩
      simp [QuicTlsConfig.withMtls]
  | false =>
      cases h
      refine ⟨rfl, rfl, ?_⟩
      simp

omit [Rustls] in
/-- A written identity skips verification until it is told otherwise. -/
theorem writeSelfSignedPem_skips {generated : Except String (Bytes × Bytes)} {disk disk' : Disk}
    {fault : Option Fault} {c k : String} {cfg : QuicTlsConfig}
    (h : writeSelfSignedPem generated disk fault c k = some (.ok cfg, disk')) :
    cfg.insecureSkipVerify = true := by
  unfold writeSelfSignedPem at h
  split at h
  · cases h
  next certs key _ =>
  rcases Option.bind_eq_some_iff.1 h with ⟨certText, _, h⟩
  rcases Option.bind_eq_some_iff.1 h with ⟨keyText, _, h⟩
  split at h
  next res files _ =>
    split at h
    · cases h
    · cases h
      rfl

/-- Every branch sets the policy it is given, but the ephemeral one without pins. -/
theorem build_settings {env : QuicEnv} {opts : ServeOptions} {dataDir : Option String} {disk' : Disk}
    {cfg : QuicTlsConfig} {pins : List Bytes32} (hpins : opts.pinList = .ok pins)
    (h : buildQuicTlsConfig env opts dataDir = some (.ok (some cfg), disk')) :
    (opts.Ephemeral dataDir ∧ pins = [] ∧ Settings cfg [] false) ∨
      (¬ (opts.Ephemeral dataDir ∧ pins = []) ∧ Settings cfg pins (opts.mtls pins)) := by
  unfold buildQuicTlsConfig at h
  rw [hpins] at h
  split at h
  · cases h
  dsimp only at h
  split at h
  next cert key hcert hkey =>
    -- given files
    right
    refine ⟨fun heph => ?_, settings_fromFiles (Prod.mk.inj (Option.some.inj h)).1⟩
    rw [heph.1.1] at hcert
    cases hcert
  next hcert hkey =>
    split at h
    next dir =>
      right
      refine ⟨fun heph => ?_, ?_⟩
      · cases heph.1.2.2
      split at h
      · -- files of the data directory
        exact settings_fromFiles (Prod.mk.inj (Option.some.inj h)).1
      · -- files written there
        rcases Option.bind_eq_some_iff.1 h with ⟨written, hwritten, h⟩
        rcases written with ⟨res, disk⟩
        cases res with
        | error e => cases h
        | ok fresh =>
            cases h
            exact settings_withPins (writeSelfSignedPem_skips hwritten) pins (opts.mtls pins)
    · -- no files at all
      split at h
      · cases h
      next fresh hfresh =>
      unfold QuicTlsConfig.insecureEphemeral at hfresh
      rcases bind_ok_iff.1 hfresh with ⟨identity, _, hfresh⟩
      cases hfresh
      by_cases hnone : pins = []
      · left
        rw [if_neg (not_not.2 hnone)] at h
        cases h
        exact ⟨⟨hcert, hkey, rfl⟩, hnone, rfl, rfl, by simp⟩
      · right
        rw [if_pos hnone] at h
        cases h
        exact ⟨fun heph => hnone heph.2, settings_withPins rfl pins (opts.mtls pins)⟩
  · cases h

/-- Pins and options that parse, on whatever disk: the function returns. -/
theorem buildQuicTlsConfig_isSome (env : QuicEnv) (opts : ServeOptions) (dataDir : Option String) :
    (buildQuicTlsConfig env opts dataDir).isSome = true := by
  unfold buildQuicTlsConfig
  split
  · rfl
  split
  · rfl
  dsimp only
  split
  · rfl
  · split
    next dir =>
      split
      · rfl
      · -- only the writing of PEM files could panic
        rcases Option.isSome_iff_exists.1 (writeSelfSignedPem_isSome env.generated env.disk env.fault
          (dir ++ "/quic-cert.pem") (dir ++ "/quic-key.pem")) with ⟨written, hwritten⟩
        rcases written with ⟨res, disk⟩
        rw [hwritten]
        cases res with
        | error e => rfl
        | ok cfg => rfl
    · split
      · rfl
      · rfl
  · rfl

/-! ## The policy -/

variable [Primitives]

/-- The listener asks for a certificate exactly where mTLS is on, and with pins for a pinned one; a dial with
pins accepts exactly the pinned servers, and one without them is the same wherever the identity is from. -/
structure FollowsPolicy (cfg : QuicTlsConfig) (server : ServerConfig) (pins : List Bytes32) (mtls : Bool) :
    Prop where
  anonymous : server.admits none = true ↔ mtls = false
  certified : ∀ cert, server.admits (some cert) = true ↔
    mtls = false ∨ pins = [] ∨ certPinBlake3 cert ∈ pins
  dialled : ∀ client, clientConfig cfg = .ok client → ∀ cert,
    client.accepts cert = true ↔ if pins = [] then mtls = false else certPinBlake3 cert ∈ pins

/-- The policy follows from the settings. -/
theorem Settings.followsPolicy {cfg : QuicTlsConfig} {server : ServerConfig} {pins : List Bytes32} {mtls : Bool}
    (h : Settings cfg pins mtls) (hserver : serverConfig cfg = .ok server) :
    FollowsPolicy cfg server pins mtls := by
  refine ⟨?_, ?_, ?_⟩
  · rw [admits_serverConfig hserver, h.requireClientAuth]
    simp
  · intro cert
    rw [admits_serverConfig hserver, h.requireClientAuth, h.peerPins]
    simp
  · intro client hclient cert
    rw [accepts_clientConfig hclient, h.peerPins, h.insecureSkipVerify]
    by_cases hpins : pins = []
    · simp [hpins]
    · simp [hpins]

/-- For all options, pins, disks and identities: the listener and the dials follow the policy exactly unless
the identity is ephemeral, there are no pins and mTLS is asked for. -/
theorem followsPolicy_iff {env : QuicEnv} {opts : ServeOptions} {dataDir : Option String} {disk' : Disk}
    {cfg : QuicTlsConfig} {server : ServerConfig} {pins : List Bytes32} (hpins : opts.pinList = .ok pins)
    (hbuild : buildQuicTlsConfig env opts dataDir = some (.ok (some cfg), disk'))
    (hserver : serverConfig cfg = .ok server) :
    FollowsPolicy cfg server pins (opts.mtls pins) ↔
      ¬ (opts.Ephemeral dataDir ∧ pins = [] ∧ opts.quicMtls = some true) := by
  rcases build_settings hpins hbuild with ⟨heph, hnone, hset⟩ | ⟨hdurable, hset⟩
  · have hmtls : opts.mtls pins = true ↔ opts.quicMtls = some true := by
      unfold mtls
      rw [hnone]
      cases opts.quicMtls with
      | none => simp
      | some on => simp
    constructor
    · rintro hpolicy ⟨_, _, hon⟩
      -- the configuration asks for no certificate
      have hopen := (hset.followsPolicy hserver).anonymous.2 rfl
      rw [hpolicy.anonymous, hmtls.2 hon] at hopen
      cases hopen
    · intro hcond
      have hoff : opts.mtls pins = false := by
        rw [← Bool.not_eq_true, hmtls]
        exact fun hon => hcond ⟨heph, hnone, hon⟩
      rw [hoff, hnone]
      exact hset.followsPolicy hserver
  · exact iff_of_true (hset.followsPolicy hserver) fun hcond => hdurable ⟨hcond.1, hcond.2.1⟩

end Build

/-! ## A node without a data directory -/

section Example

attribute [local instance] Checksum.primitives

/-- A library that takes every identity. -/
@[reducible] def anyIdentity : Rustls :=
  { pemCerts := fun bs => .ok [bs]
    pemPrivateKey := fun bs => .ok (some (.pkcs8 bs))
    serverIdentity := fun _ _ => .ok ()
    clientIdentity := fun _ _ => .ok () }

attribute [local instance] anyIdentity

/-- Nothing on disk. -/
def bareEnv : QuicEnv :=
  { disk := { files := fun _ => none, unreadable := fun _ => none }
    fault := none
    generated := .ok ([1, 2, 3], [4, 5, 6]) }

/-- The identity that is generated there, under a policy. -/
def bareConfig (pins : List Bytes32) (mtls skip : Bool) : QuicTlsConfig :=
  { certs := [[1, 2, 3]]
    key := .pkcs8 [4, 5, 6]
    peerPins := pins
    requireClientAuth := mtls
    insecureSkipVerify := skip
    serverName := "td-pond" }

def bareServer (verifier : Option PinClientCertVerifier) : ServerConfig :=
  { clientCertVerifier := verifier
    certs := [[1, 2, 3]]
    key := .pkcs8 [4, 5, 6]
    alpnProtocols := [alpn] }

/-- QUIC with mTLS asked for. -/
def withMtlsOn (pins : Option String) : ServeOptions :=
  { p2pQuic := true
    quicCert := none
    quicKey := none
    quicPins := pins
    quicMtls := some true }

/-- Where no pins are set the listener lets clients in that present nothing. -/
theorem mtls_admits_anyone :
    ¬ ∀ (env : QuicEnv) (opts : ServeOptions) (dataDir : Option String) (disk' : Disk) (cfg : QuicTlsConfig)
      (server : ServerConfig) (pins : List Bytes32), opts.pinList = .ok pins →
      buildQuicTlsConfig env opts dataDir = some (.ok (some cfg), disk') →
      serverConfig cfg = .ok server → FollowsPolicy cfg server pins (opts.mtls pins) := by
  intro h
  have hpolicy := h bareEnv (withMtlsOn none) none bareEnv.disk (bareConfig [] false true) (bareServer none) []
    rfl rfl rfl
  exact absurd (hpolicy.anonymous.1 rfl) (by decide)

/-- With a pin it asks for the pinned certificate. -/
theorem followsPolicy_iff_pinned :
    FollowsPolicy (bareConfig [Vector.replicate 32 7] true false)
      (bareServer (some { pins := [Vector.replicate 32 7], allowAny := false })) [Vector.replicate 32 7] true := by
  have hpins : (withMtlsOn (some (Text.hexEncode (List.replicate 32 7)))).pinList =
      .ok [Vector.replicate 32 7] := by
    decide +kernel
  have hbuild : buildQuicTlsConfig bareEnv (withMtlsOn (some (Text.hexEncode (List.replicate 32 7)))) none =
      some (.ok (some (bareConfig [Vector.replicate 32 7] true false)), bareEnv.disk) := by
    unfold buildQuicTlsConfig
    rw [hpins]
    rfl
  refine (followsPolicy_iff hpins hbuild rfl).2 ?_
  rintro ⟨_, hnone, _⟩
  cases hnone

end Example

end ServeOptions

end Node
end Thunderducks
