import Mathlib.Logic.Function.Basic
import Thunderducks.Lib.Json
import Thunderducks.Lib.Runs
import Thunderducks.Lib.Text

/-!
# Ota — updates of the node's own binary (`td-node/src/rpc.rs`, `scripts/tducks-ota-apply.sh`)

The handlers stage artifacts and write `pending.json`; a helper that runs as root installs what is pending
and keeps the binary it replaces.  Both write `ota-state.json`: `ota_check` and `ota_apply` overwrite it,
`ota_rollback` and the helper merge into it.  A rollback installs the saved binary and leaves it where it
is, but enters the version it rolled away from as the previous one.  `truthful_run` says along which runs
the status tells the truth.
-/

namespace Thunderducks
namespace Node

open Lib

/-! ## Files -/

/-- A build of `tducks` and the version it reports. -/
structure Build where
  contents : Bytes
  version : String
  named : version ≠ ""

structure OtaManifest where
  version : String
  url : String
  /-- The blake3 hash of the artifact, in hex. -/
  sha256 : Option String
  signature : Option String
  channel : String

/-- The binaries in `ota/`. -/
inductive OtaFile
  /-- `tducks-{version}.bin` -/
  | staged (version : String)
  /-- `previous/tducks.bin` -/
  | previous
  /-- `previous/tducks-{version}.bin` -/
  | previousVersion (version : String)
  /-- `previous/tducks-rolled-from-{version}.bin` -/
  | rolledFrom (version : String)
  deriving DecidableEq

inductive OtaAction
  | apply
  | rollback
  deriving DecidableEq

/-- `ota/pending.json` -/
structure OtaPending where
  action : OtaAction
  version : String
  /-- Empty when an update is pending. -/
  fromVersion : String
  stagedPath : OtaFile
  restart : Bool
  requestedMs : Nat

/-- The entry `pending` of `ota-state.json`. -/
structure PendingNote where
  action : Option OtaAction
  restart : Bool
  version : Option String

/-- `ota-state.json` -/
structure OtaState where
  lastCheckMs : Option Nat := none
  available : Option OtaManifest := none
  lastError : Option String := none
  stagedPath : Option OtaFile := none
  lastApply : Option String := none
  lastApplyOk : Option Bool := none
  lastApplyMs : Option Nat := none
  installedVersion : Option String := none
  previousVersion : Option String := none
  previousPath : Option OtaFile := none
  previousSavedMs : Option Nat := none
  lastAction : Option OtaAction := none
  lastRollbackMs : Option Nat := none
  lastRollbackVersion : Option String := none
  rolledFromPath : Option OtaFile := none
  rolledFromVersion : Option String := none
  pending : Option PendingNote := none

/-- `ota/previous/meta.json` -/
structure PreviousMeta where
  version : String
  path : OtaFile
  versionedPath : OtaFile
  savedMs : Nat

/-- `ota/last-apply.json` -/
structure HelperResult where
  ok : Bool
  message : String
  action : OtaAction
  version : String
  tsMs : Nat

/-- The environment of the node and of the helper. -/
structure OtaConfig where
  binDst : String
  autoApply : Bool
  restart : Bool
  keepPrevious : Bool
  /-- `verify_ota_manifest` -/
  verify : OtaManifest → Bool
  blake3Hex : Bytes → String

/-- The handler that holds the lock. -/
inductive OtaHandler
  | idle
  /-- `ota_apply` has written the artifact. -/
  | staged (manifest : OtaManifest)
  /-- `ota_apply` starts the helper. -/
  | applying (manifest : OtaManifest) (pendingWritten : Bool)
  /-- `ota_rollback` has written `pending.json` and starts the helper. -/
  | rollingBack (version : String)
  /-- `ota_rollback` has read `ota-state.json` and is to write it. -/
  | merging (version : String) (state : OtaState)

/-- A machine: the binary at `BIN_DST`, the version of the node that runs, and the data dir. -/
structure Ota where
  running : String
  installed : Build
  files : OtaFile → Option Build
  previousMeta : Option PreviousMeta
  state : Option OtaState
  pending : Option OtaPending
  lastApply : Option HelperResult
  /-- The calls of `ota_apply` that download. -/
  fetching : List OtaManifest
  handler : OtaHandler

/-- Why a handler refuses. -/
inductive OtaError
  | noCheck
  | noAvailable
  | manifest
  | hashMismatch
  | pendingExists
  | noPrevious
  deriving DecidableEq

/-- Why the helper gives up; it has written nothing by then. -/
inductive HelperError
  | noPending
  | versionMissing
  | stagedMissing
  | tooSmall (size : Nat)
  deriving DecidableEq

/-- What became of `systemctl start tducks-ota-apply.service`. -/
inductive Kick
  | started
  | exited (err : String)
  | unavailable (e : String)

def Kick.helperError : Kick → Option String
  | .started => none
  | .exited err => some err
  | .unavailable e => some ("systemctl not available: " ++ e)

def Kick.applyNote (started : String) : Kick → String
  | .started => started
  | .exited err =>
      "pending.json written; systemctl start failed (" ++ err ++
        ") — ensure tducks-ota-apply.path is enabled"
  | .unavailable _ =>
      "pending.json written; no systemctl — run scripts/tducks-ota-apply.sh as root"

/-- What happens on the machine: the parts of a handler between which the helper may run, the helper, and
a restart. -/
inductive OtaStep
  | check (now : Nat) (manifest : OtaManifest)
  | applyRead
  /-- The `k`th download has come to its end. -/
  | stage (k : Nat) (artifact : Build)
  | applyPending (now : Nat)
  | applyState (now : Nat) (kick : Kick)
  | rollback (now : Nat)
  | rollbackRead
  | rollbackState (kick : Kick)
  | helper (now : Nat)
  /-- The unit restarts, and the handlers with it. -/
  | restart

namespace Ota

/-- A machine with a binary and an empty data dir. -/
def fresh (installed : Build) : Ota :=
  { running := installed.version
    installed := installed
    files := fun _ => none
    previousMeta := none
    state := none
    pending := none
    lastApply := none
    fetching := []
    handler := .idle }

/-! ## The handlers -/

structure OtaStatus where
  currentVersion : String
  pending : Bool
  lastCheckMs : Option Nat
  available : Option OtaManifest
  stagedPath : Option OtaFile
  lastApply : Option String
  lastApplyOk : Option Bool
  lastApplyMs : Option Nat
  installedVersion : Option String
  previousVersion : Option String
  previousPath : Option OtaFile
  previousSavedMs : Option Nat
  canRollback : Bool
  lastAction : Option OtaAction
  lastRollbackMs : Option Nat
  lastRollbackVersion : Option String
  helperResult : Option HelperResult
  lastError : Option String

/-- `ota_status`.  Prefer live previous binary on disk over state alone. -/
def status (s : Ota) : OtaStatus :=
  let st := s.state.getD {}
  let live := (s.files .previous).isSome
  { currentVersion := s.running
    pending := s.pending.isSome
    lastCheckMs := st.lastCheckMs
    available := st.available
    stagedPath := st.stagedPath
    lastApply := st.lastApply
    lastApplyOk := st.lastApplyOk
    lastApplyMs := st.lastApplyMs
    installedVersion := st.installedVersion
    previousVersion :=
      if live ∧ st.previousVersion = none then
        s.previousMeta.map PreviousMeta.version
      else
        st.previousVersion
    previousPath := if live ∧ st.previousPath = none then some .previous else st.previousPath
    previousSavedMs :=
      if live ∧ st.previousVersion = none ∧ st.previousSavedMs = none then
        s.previousMeta.map PreviousMeta.savedMs
      else
        st.previousSavedMs
    canRollback :=
      if live then
        true
      else
        match st.previousPath with
        | some path => (s.files path).isSome
        | none => false
    lastAction := st.lastAction
    lastRollbackMs := st.lastRollbackMs
    lastRollbackVersion := st.lastRollbackVersion
    helperResult := s.lastApply
    lastError := st.lastError }

/-- `ota_check` with the manifest it has fetched. -/
def check (cfg : OtaConfig) (now : Nat) (manifest : OtaManifest) (s : Ota) : Except OtaError Ota :=
  if cfg.verify manifest then
    .ok { s with state := some { lastCheckMs := some now, available := some manifest } }
  else
    .error .manifest

/-- `ota_apply` up to its download. -/
def applyRead (cfg : OtaConfig) (s : Ota) : Except OtaError Ota :=
  match s.state with
  | none => .error .noCheck
  | some st =>
      match st.available with
      | none => .error .noAvailable
      | some manifest =>
          if cfg.verify manifest then
            .ok { s with fetching := s.fetching ++ [manifest] }
          else
            .error .manifest

/-- The artifact has the hash that the manifest gives, if it gives one. -/
def hashOk (cfg : OtaConfig) (manifest : OtaManifest) (artifact : Build) : Bool :=
  match manifest.sha256 with
  | none => true
  | some want => Text.toAsciiLowercase (Text.trim want) = cfg.blake3Hex artifact.contents

/-- `ota_apply` writes the artifact that it has downloaded. -/
def stage (cfg : OtaConfig) (manifest : OtaManifest) (artifact : Build) (s : Ota) : Except OtaError Ota :=
  if hashOk cfg manifest artifact then
    .ok { s with
      files := Function.update s.files (.staged manifest.version) (some artifact)
      handler := .staged manifest }
  else
    .error .hashMismatch

/-- `ota_apply` writes `pending.json`; one that is there is replaced. -/
def applyPending (cfg : OtaConfig) (now : Nat) (manifest : OtaManifest) (s : Ota) : Ota :=
  if cfg.autoApply then
    { s with
      pending := some
        { action := .apply
          version := manifest.version
          fromVersion := ""
          stagedPath := .staged manifest.version
          restart := cfg.restart
          requestedMs := now }
      handler := .applying manifest true }
  else
    { s with handler := .applying manifest false }

/-- `ota_apply` overwrites `ota-state.json` and is done. -/
def applyState (cfg : OtaConfig) (now : Nat) (kick : Kick) (manifest : OtaManifest)
    (pendingWritten : Bool) (s : Ota) : Ota :=
  { s with
    state := some
      { lastCheckMs := some now
        available := some manifest
        stagedPath := some (.staged manifest.version)
        lastError := if pendingWritten then kick.helperError else none
        lastApply := some
          (if pendingWritten then
            kick.applyNote "tducks-ota-apply.service started (install + restart)"
          else
            "Artifact staged only (TD_OTA_AUTO_APPLY=false). Install manually or enable auto-apply.")
        lastApplyOk := some (pendingWritten || !cfg.autoApply)
        pending := if pendingWritten then some ⟨none, cfg.restart, none⟩ else none }
    handler := .idle }

/-- A text that is there and not empty. -/
def nonEmpty (v : Option String) : Option String :=
  v.filter fun t => t ≠ ""

/-- The version of the saved binary, as `ota_rollback` finds it. -/
def rollbackVersion (s : Ota) : String :=
  let version := (nonEmpty (s.previousMeta.map PreviousMeta.version)).getD "unknown"
  if version = "unknown" then
    (nonEmpty (s.state.bind OtaState.previousVersion)).getD "unknown"
  else
    version

/-- The version to roll back from, as `ota_rollback` finds it. -/
def fromVersion (s : Ota) : String :=
  (s.state.bind OtaState.installedVersion).getD s.running

/-- `ota_rollback` up to the start of the helper. -/
def rollback (cfg : OtaConfig) (now : Nat) (s : Ota) : Except OtaError Ota :=
  if s.pending.isSome then
    .error .pendingExists
  else if (s.files .previous).isNone then
    .error .noPrevious
  else
    .ok { s with
      pending := some
        { action := .rollback
          version := s.rollbackVersion
          fromVersion := s.fromVersion
          stagedPath := .previous
          restart := cfg.restart
          requestedMs := now }
      handler := .rollingBack s.rollbackVersion }

/-- Merge note into ota-state without wiping `previous_*` fields. -/
def rollbackState (cfg : OtaConfig) (kick : Kick) (version : String) (st : OtaState) (s : Ota) : Ota :=
  { s with
    state := some
      { st with
        lastApply := some (kick.applyNote "tducks-ota-apply.service started (rollback + restart)")
        lastApplyOk := some true
        lastError := kick.helperError
        pending := some ⟨some .rollback, cfg.restart, some version⟩ }
    handler := .idle }

/-! ## The helper -/

/-- `${v//\//_}` -/
def verSafe (v : String) : String :=
  String.ofList (v.toList.map fun c => if c = '/' then '_' else c)

def readInstalledVersion (s : Ota) : Option String :=
  nonEmpty (s.state.bind OtaState.installedVersion)

/-- `PREVIOUS_VERSION`: from the state, else what the binary reports. -/
def previousVersionOf (s : Ota) : String :=
  (s.readInstalledVersion.orElse fun _ => nonEmpty (some s.installed.version)).getD "unknown"

/-- Backup current binary before apply. -/
def backup (now : Nat) (s : Ota) : Ota :=
  let versioned := OtaFile.previousVersion (verSafe s.previousVersionOf)
  { s with
    files := Function.update (Function.update s.files versioned (some s.installed))
      .previous (some s.installed)
    previousMeta := some
      { version := s.previousVersionOf
        path := .previous
        versionedPath := versioned
        savedMs := now } }

/-- For rollback, save the binary we're rolling away from. -/
def saveRolledFrom (p : OtaPending) (s : Ota) : Ota :=
  let rolledFrom := ((nonEmpty (some p.fromVersion)).orElse fun _ => s.readInstalledVersion).getD "unknown"
  { s with files := Function.update s.files (.rolledFrom (verSafe rolledFrom)) (some s.installed) }

/-- What the helper enters for an update; `saved` is the version it has backed up. -/
def mergeApply (cfg : OtaConfig) (now : Nat) (p : OtaPending) (saved : Option String) (s : Ota)
    (st : OtaState) : OtaState :=
  let st := { st with
    lastApply := some ("installed " ++ p.version ++ " -> " ++ cfg.binDst)
    lastAction := some .apply }
  match saved with
  | some version =>
      { st with
        previousVersion := nonEmpty (some version)
        previousPath := some .previous
        previousSavedMs := some now }
  | none =>
      match s.previousMeta with
      | some info =>
          { st with
            previousVersion := some info.version
            previousPath := some info.path
            previousSavedMs := some info.savedMs }
      | none => st

/-- What the helper enters for a rollback. -/
def mergeRollback (cfg : OtaConfig) (now : Nat) (p : OtaPending) (s : Ota) (st : OtaState) : OtaState :=
  let rolledAway := nonEmpty (some p.fromVersion)
  let rolled := OtaFile.rolledFrom (verSafe (rolledAway.getD "unknown"))
  let st := { st with
    lastApply := some ("rolled back to " ++ p.version ++ " -> " ++ cfg.binDst)
    lastRollbackMs := some now
    lastRollbackVersion := some p.version
    lastAction := some .rollback
    previousVersion := rolledAway.orElse fun _ => st.previousVersion }
  if (s.files rolled).isSome then
    { st with
      rolledFromPath := some rolled
      rolledFromVersion := rolledAway }
  else
    st

/-- The binary is installed, the state is written and `pending.json` is removed. -/
def install (now : Nat) (p : OtaPending) (staged : Build) (st : OtaState) (s : Ota) : Ota :=
  { s with
    installed := staged
    state := some
      { st with
        lastApplyOk := some true
        lastApplyMs := some now
        installedVersion := some p.version
        stagedPath := some p.stagedPath
        pending := none
        lastError := none }
    pending := none
    lastApply := some
      { ok := true
        message := (match p.action with
          | .apply => "apply "
          | .rollback => "rollback ") ++ p.version
        action := p.action
        version := p.version
        tsMs := now } }

def helperApply (cfg : OtaConfig) (now : Nat) (p : OtaPending) (staged : Build) (s : Ota) : Ota :=
  if cfg.keepPrevious then
    let s' := s.backup now
    s'.install now p staged (s'.mergeApply cfg now p (some s.previousVersionOf) (s.state.getD {}))
  else
    s.install now p staged (s.mergeApply cfg now p none (s.state.getD {}))

def helperRollback (cfg : OtaConfig) (now : Nat) (p : OtaPending) (staged : Build) (s : Ota) : Ota :=
  let s' := if cfg.keepPrevious then s.saveRolledFrom p else s
  s'.install now p staged (s'.mergeRollback cfg now p (s.state.getD {}))

/-- `tducks-ota-apply.sh`; the restart at its end is a step of its own. -/
def helper (cfg : OtaConfig) (now : Nat) (s : Ota) : Except HelperError Ota :=
  match s.pending with
  | none => .error .noPending
  | some p =>
      if p.version = "" then
        .error .versionMissing
      else
        match s.files p.stagedPath with
        | none => .error .stagedMissing
        | some staged =>
            if staged.contents.length ≤ 1024 then
              .error (.tooSmall staged.contents.length)
            else
              match p.action with
              | .apply => .ok (s.helperApply cfg now p staged)
              | .rollback => .ok (s.helperRollback cfg now p staged)

/-! ## Runs -/

/-- What is left when a call refuses. -/
def orKept {ε : Type} (s : Ota) (res : Except ε Ota) : Ota :=
  match res with
  | .ok s' => s'
  | .error _ => s

/-- A step of a handler that does not hold the lock, or is not at that point, does nothing. -/
def step (cfg : OtaConfig) (s : Ota) : OtaStep → Ota
  | .check now manifest =>
      match s.handler with
      | .idle => s.orKept (s.check cfg now manifest)
      | _ => s
  | .applyRead =>
      match s.handler with
      | .idle => s.orKept (s.applyRead cfg)
      | _ => s
  | .stage k artifact =>
      match s.handler, s.fetching[k]? with
      | .idle, some manifest =>
          let s' := { s with fetching := s.fetching.eraseIdx k }
          s'.orKept (s'.stage cfg manifest artifact)
      | _, _ => s
  | .applyPending now =>
      match s.handler with
      | .staged manifest => s.applyPending cfg now manifest
      | _ => s
  | .applyState now kick =>
      match s.handler with
      | .applying manifest pendingWritten => s.applyState cfg now kick manifest pendingWritten
      | _ => s
  | .rollback now =>
      match s.handler with
      | .idle => s.orKept (s.rollback cfg now)
      | _ => s
  | .rollbackRead =>
      match s.handler with
      | .rollingBack version => { s with handler := .merging version (s.state.getD {}) }
      | _ => s
  | .rollbackState kick =>
      match s.handler with
      | .merging version st => s.rollbackState cfg kick version st
      | _ => s
  | .helper now => s.orKept (s.helper cfg now)
  | .restart =>
      { s with
        running := s.installed.version
        fetching := []
        handler := .idle }

/-! ## The truth of the status -/

/-- Nothing is pending, and no handler is at work. -/
def Quiet (s : Ota) : Prop :=
  s.pending = none ∧ s.handler = .idle

/-- The previous version that the status reports is the version of the saved binary, which the next
rollback installs, and the installed version is that of the installed binary. -/
structure Tells (cfg : OtaConfig) (s : Ota) : Prop where
  saved : s.status.canRollback = true →
    ∃ b, s.files .previous = some b ∧ s.status.previousVersion = some b.version
  next : ∀ b now now', s.files .previous = some b → 1024 < b.contents.length →
    ((s.step cfg (.rollback now)).step cfg (.helper now')).installed = b
  installed : ∀ v, s.status.installedVersion = some v → v = s.installed.version

def Truthful (cfg : OtaConfig) (s : Ota) : Prop :=
  s.Quiet → s.Tells cfg

/-- The artifact that is downloaded reports the version that its manifest names. -/
def Honest (s : Ota) : OtaStep → Prop
  | .stage k artifact => ∀ manifest, s.fetching[k]? = some manifest → artifact.version = manifest.version
  | _ => True

/-- A rollback that the helper carries out starts from the version it goes back to. -/
def SameVersion (s : Ota) : OtaStep → Prop
  | .helper _ => ∀ p b, s.pending = some p → p.action = .rollback → s.files .previous = some b →
      1024 < b.contents.length → p.fromVersion = b.version
  | _ => True

/-! ## The invariant -/

/-- What the state says of the binaries is so. -/
structure Agrees (s : Ota) (st : OtaState) : Prop where
  installed : ∀ v, st.installedVersion = some v → v = s.installed.version
  previous : ∀ v, st.previousVersion = some v → ∃ b, s.files .previous = some b ∧ b.version = v
  path : ∀ path, st.previousPath = some path → path = .previous

/-- What is pending, if anything is, is a rollback from the version that the state calls installed. -/
def Awaits (s : Ota) (st : OtaState) : Prop :=
  ∀ p, s.pending = some p → p.action = .rollback ∧ ∀ v, st.installedVersion = some v → p.fromVersion = v

/-- What holds while a handler has the lock. -/
def HandlerInOrder (s : Ota) : OtaHandler → Prop
  | .rollingBack _ => s.Awaits (s.state.getD {})
  | .merging _ st => s.Agrees st ∧ s.Awaits st
  | _ => True

structure InOrder (s : Ota) : Prop where
  saved : ∀ b, s.files .previous = some b →
    ∃ info, s.previousMeta = some info ∧ info.version = b.version
  metaPath : ∀ info, s.previousMeta = some info →
    info.path = .previous ∧ ∃ b, s.files .previous = some b
  staged : ∀ v b, s.files (.staged v) = some b → b.version = v
  state : s.Agrees (s.state.getD {})
  applies : ∀ p, s.pending = some p → p.action = .apply → p.stagedPath = .staged p.version
  rollsBack : ∀ p, s.pending = some p → p.action = .rollback → p.stagedPath = .previous ∧
    ∃ b, s.files .previous = some b ∧ b.version = p.version
  handler : s.HandlerInOrder s.handler

theorem agrees_empty (s : Ota) {st : OtaState} (hi : st.installedVersion = none)
    (hv : st.previousVersion = none) (hp : st.previousPath = none) : s.Agrees st := by
  refine ⟨?_, ?_, ?_⟩
  · intro v h
    rw [hi] at h
    cases h
  · intro v h
    rw [hv] at h
    cases h
  · intro path h
    rw [hp] at h
    cases h

theorem inOrder_fresh (installed : Build) : (fresh installed).InOrder := by
  refine ⟨?_, ?_, ?_, agrees_empty _ rfl rfl rfl, ?_, ?_, trivial⟩
  · intro b h
    cases h
  · intro info h
    cases h
  · intro v b h
    cases h
  · intro p h
    cases h
  · intro p h
    cases h

/-! ## What a step can do -/

theorem nonEmpty_some {v : String} (h : v ≠ "") : nonEmpty (some v) = some v := by
  simp [nonEmpty, h]

theorem nonEmpty_eq_some {o : Option String} {v : String} (h : nonEmpty o = some v) :
    o = some v ∧ v ≠ "" := by
  simpa [nonEmpty, Option.filter_eq_some_iff] using h

/-- The helper gives up, or carries out what is pending. -/
theorem helper_cases (cfg : OtaConfig) (now : Nat) (s : Ota) :
    (∃ e, s.helper cfg now = .error e) ∨
    ∃ p staged, s.pending = some p ∧ p.version ≠ "" ∧ s.files p.stagedPath = some staged ∧
      1024 < staged.contents.length ∧
      ((p.action = .apply ∧ s.helper cfg now = .ok (s.helperApply cfg now p staged)) ∨
        (p.action = .rollback ∧ s.helper cfg now = .ok (s.helperRollback cfg now p staged))) := by
  unfold helper
  cases hp : s.pending with
  | none => exact Or.inl ⟨_, rfl⟩
  | some p =>
      dsimp only
      by_cases hv : p.version = ""
      · rw [if_pos hv]
        exact Or.inl ⟨_, rfl⟩
      rw [if_neg hv]
      cases hf : s.files p.stagedPath with
      | none => exact Or.inl ⟨_, rfl⟩
      | some staged =>
          dsimp only
          by_cases hlen : staged.contents.length ≤ 1024
          · rw [if_pos hlen]
            exact Or.inl ⟨_, rfl⟩
          rw [if_neg hlen]
          refine Or.inr ⟨p, staged, rfl, hv, hf, Nat.lt_of_not_le hlen, ?_⟩
          cases ha : p.action with
          | apply => exact Or.inl ⟨rfl, rfl⟩
          | rollback => exact Or.inr ⟨rfl, rfl⟩

section Invariant

variable {cfg : OtaConfig} {s : Ota}

/-- The backup is of the binary that is installed, and so named. -/
theorem previousVersionOf_eq (h : s.InOrder) : s.previousVersionOf = s.installed.version := by
  unfold previousVersionOf readInstalledVersion
  cases hv : nonEmpty (s.state.bind OtaState.installedVersion) with
  | none =>
      rw [nonEmpty_some s.installed.named]
      rfl
  | some v =>
      rcases Option.bind_eq_some_iff.1 (nonEmpty_eq_some hv).1 with ⟨st, hst, hinst⟩
      have hag := h.state
      rw [hst] at hag
      exact hag.installed v hinst

/-- A rollback names the version of the saved binary. -/
theorem rollbackVersion_eq (h : s.InOrder) {b : Build} (hb : s.files .previous = some b) :
    s.rollbackVersion = b.version := by
  rcases h.saved b hb with ⟨info, hinfo, hversion⟩
  unfold rollbackVersion
  rw [hinfo, Option.map_some, hversion, nonEmpty_some b.named, Option.getD_some]
  dsimp only
  split
  next hunknown =>
      cases hv : nonEmpty (s.state.bind OtaState.previousVersion) with
      | none => exact hunknown.symm
      | some v =>
          rcases Option.bind_eq_some_iff.1 (nonEmpty_eq_some hv).1 with ⟨st, hst, hprev⟩
          have hag := h.state
          rw [hst] at hag
          rcases hag.previous v hprev with ⟨b', hb', hv'⟩
          rw [hb] at hb'
          cases hb'
          exact hv'.symm
  next => rfl

theorem InOrder.tells (h : s.InOrder) (hq : s.Quiet) : s.Tells cfg := by
  refine ⟨?_, ?_, ?_⟩
  · intro hcan
    cases hb : s.files .previous with
    | none =>
        -- the state alone never names a binary that is there
        unfold status at hcan
        simp only [hb, Option.isSome_none] at hcan
        cases hpath : (s.state.getD {}).previousPath with
        | none => simp [hpath] at hcan
        | some path =>
            have hprev : path = .previous := h.state.path path hpath
            simp [hpath, hprev, hb] at hcan
    | some b =>
        refine ⟨b, rfl, ?_⟩
        rcases h.saved b hb with ⟨info, hinfo, hversion⟩
        unfold status
        dsimp only
        cases hv : (s.state.getD {}).previousVersion with
        | none => simp [hb, hinfo, hversion]
        | some v =>
            rcases h.state.previous v hv with ⟨b', hb', hv'⟩
            rw [hb] at hb'
            cases hb'
            simp [hv']
  · intro b now now' hb hlen
    have hrollback : s.step cfg (.rollback now) = { s with
        pending := some
          { action := .rollback
            version := s.rollbackVersion
            fromVersion := s.fromVersion
            stagedPath := .previous
            restart := cfg.restart
            requestedMs := now }
        handler := .rollingBack s.rollbackVersion } := by
      unfold step rollback
      rw [hq.2]
      simp [orKept, hq.1, hb]
    have hversion : s.rollbackVersion ≠ "" := by
      rw [rollbackVersion_eq h hb]
      exact b.named
    have hnot : ¬ b.contents.length ≤ 1024 := Nat.not_le_of_lt hlen
    rw [hrollback]
    unfold step helper
    dsimp only
    rw [if_neg hversion, hb]
    dsimp only
    rw [if_neg hnot]
    rfl
  · exact h.state.installed

/-! ## What keeps the invariant -/

theorem Agrees.congr {s' : Ota} {st : OtaState} (h : s.Agrees st) (hinstalled : s'.installed = s.installed)
    (hprevious : s'.files .previous = s.files .previous) : s'.Agrees st := by
  refine ⟨?_, ?_, h.path⟩
  · intro v hv
    rw [hinstalled]
    exact h.installed v hv
  · intro v hv
    rw [hprevious]
    exact h.previous v hv

/-- Only a rollback that is under way has anything to keep. -/
theorem HandlerInOrder.imp {s' : Ota} {handler : OtaHandler} (h : s.HandlerInOrder handler)
    (hrolling : s.Awaits (s.state.getD {}) → s'.Awaits (s'.state.getD {}))
    (hmerging : ∀ st, s.Agrees st → s.Awaits st → s'.Agrees st ∧ s'.Awaits st) :
    s'.HandlerInOrder handler := by
  cases handler with
  | idle => trivial
  | staged manifest => trivial
  | applying manifest pendingWritten => trivial
  | rollingBack version => exact hrolling h
  | merging version st => exact hmerging st h.1 h.2

/-- While an update is pending no rollback is under way. -/
theorem handlerInOrder_of_apply (h : s.InOrder) {p : OtaPending} (hp : s.pending = some p)
    (ha : p.action = .apply) (s' : Ota) : s'.HandlerInOrder s.handler := by
  have hno : ∀ st, ¬ s.Awaits st := by
    intro st hawaits
    rw [(hawaits p hp).1] at ha
    cases ha
  exact h.handler.imp (fun hawaits => absurd hawaits (hno _)) (fun st _ hawaits => absurd hawaits (hno st))

theorem InOrder.check (h : s.InOrder) (hidle : s.handler = .idle) (now : Nat) (manifest : OtaManifest) :
    (s.orKept (s.check cfg now manifest)).InOrder := by
  unfold Ota.check
  split
  · refine ⟨h.saved, h.metaPath, h.staged, agrees_empty _ rfl rfl rfl, h.applies, h.rollsBack, ?_⟩
    change HandlerInOrder _ s.handler
    rw [hidle]
    trivial
  · exact h

theorem InOrder.applyRead (h : s.InOrder) (hidle : s.handler = .idle) :
    (s.orKept (s.applyRead cfg)).InOrder := by
  unfold Ota.applyRead
  split
  · exact h
  · split
    · exact h
    · split
      · refine ⟨h.saved, h.metaPath, h.staged, h.state.congr rfl rfl, h.applies, h.rollsBack, ?_⟩
        change HandlerInOrder _ s.handler
        rw [hidle]
        trivial
      · exact h

theorem InOrder.stage (h : s.InOrder) (hidle : s.handler = .idle) {manifest : OtaManifest}
    {artifact : Build} (hversion : artifact.version = manifest.version) (fetching : List OtaManifest) :
    ({ s with fetching := fetching }.orKept
      ({ s with fetching := fetching }.stage cfg manifest artifact)).InOrder := by
  have hprevious : Function.update s.files (.staged manifest.version) (some artifact) .previous =
      s.files .previous := Function.update_of_ne (by simp) _ _
  unfold Ota.stage
  split
  · refine ⟨?_, ?_, ?_, h.state.congr rfl hprevious, h.applies, ?_, trivial⟩
    · intro b hb
      exact h.saved b (hprevious.symm.trans hb)
    · intro info hinfo
      rcases h.metaPath info hinfo with ⟨hpath, b, hb⟩
      exact ⟨hpath, b, hprevious.trans hb⟩
    · intro v b hb
      -- the build just staged is of the version it is staged under
      by_cases hv : v = manifest.version
      · subst hv
        have hself : Function.update s.files (.staged manifest.version) (some artifact)
            (.staged manifest.version) = some artifact := Function.update_self _ _ _
        have heq : some artifact = some b := hself.symm.trans hb
        cases heq
        exact hversion
      · have hkept : Function.update s.files (.staged manifest.version) (some artifact) (.staged v) =
            s.files (.staged v) := Function.update_of_ne (by simpa using hv) _ _
        exact h.staged v b (hkept.symm.trans hb)
    · intro p hp ha
      rcases h.rollsBack p hp ha with ⟨hpath, b, hb, hversion'⟩
      exact ⟨hpath, b, hprevious.trans hb, hversion'⟩
  · refine ⟨h.saved, h.metaPath, h.staged, h.state.congr rfl rfl, h.applies, h.rollsBack, ?_⟩
    change HandlerInOrder _ s.handler
    rw [hidle]
    trivial

theorem InOrder.applyPending (h : s.InOrder) {manifest : OtaManifest} (now : Nat) :
    (s.applyPending cfg now manifest).InOrder := by
  unfold Ota.applyPending
  split
  · refine ⟨h.saved, h.metaPath, h.staged, h.state.congr rfl rfl, ?_, ?_, trivial⟩
    · intro p hp _
      cases hp
      rfl
    · intro p hp ha
      cases hp
      cases ha
  · exact ⟨h.saved, h.metaPath, h.staged, h.state.congr rfl rfl, h.applies, h.rollsBack, trivial⟩

theorem InOrder.applyState (h : s.InOrder) (now : Nat) (kick : Kick) (manifest : OtaManifest)
    (pendingWritten : Bool) : (s.applyState cfg now kick manifest pendingWritten).InOrder :=
  ⟨h.saved, h.metaPath, h.staged, agrees_empty _ rfl rfl rfl, h.applies, h.rollsBack, trivial⟩

theorem InOrder.rollback (h : s.InOrder) (now : Nat) :
    (s.orKept (s.rollback cfg now)).InOrder := by
  unfold Ota.rollback
  split
  · exact h
  · split
    · exact h
    next hsaved =>
      refine ⟨h.saved, h.metaPath, h.staged, h.state.congr rfl rfl, ?_, ?_, ?_⟩
      · intro p hp ha
        cases hp
        cases ha
      · intro p hp _
        cases hp
        cases hb : s.files .previous with
        | none => simp [hb] at hsaved
        | some b => exact ⟨rfl, b, hb, (rollbackVersion_eq h hb).symm⟩
      · intro p hp
        cases hp
        refine ⟨rfl, ?_⟩
        intro v hv
        -- the version it rolls back from is the installed one
        change s.fromVersion = v
        unfold fromVersion
        cases hst : s.state with
        | none =>
            change (s.state.getD {}).installedVersion = some v at hv
            rw [hst] at hv
            cases hv
        | some st =>
            change (s.state.getD {}).installedVersion = some v at hv
            rw [hst] at hv
            change st.installedVersion = some v at hv
            simp [hv]

theorem InOrder.rollbackRead (h : s.InOrder) {version : String} (hh : s.handler = .rollingBack version) :
    { s with handler := .merging version (s.state.getD {}) }.InOrder := by
  have hawaits := h.handler
  rw [hh] at hawaits
  exact ⟨h.saved, h.metaPath, h.staged, h.state.congr rfl rfl, h.applies, h.rollsBack,
    h.state.congr rfl rfl, hawaits⟩

theorem InOrder.rollbackState (h : s.InOrder) {version : String} {st : OtaState}
    (hh : s.handler = .merging version st) (kick : Kick) :
    (s.rollbackState cfg kick version st).InOrder := by
  have hagrees := h.handler
  rw [hh] at hagrees
  refine ⟨h.saved, h.metaPath, h.staged, ?_, h.applies, h.rollsBack, trivial⟩
  exact ⟨hagrees.1.installed, hagrees.1.previous, hagrees.1.path⟩

theorem backup_previous (now : Nat) (s : Ota) : (s.backup now).files .previous = some s.installed := by
  simp [backup]

theorem backup_staged (now : Nat) (s : Ota) (v : String) :
    (s.backup now).files (.staged v) = s.files (.staged v) := by
  simp [backup]

/-- What the helper enters of the previous binary for an update. -/
theorem mergeApply_previous (h : s.InOrder) (cfg : OtaConfig) (now : Nat) (p : OtaPending) :
    (∀ v, (s.mergeApply cfg now p none (s.state.getD {})).previousVersion = some v →
      ∃ b, s.files .previous = some b ∧ b.version = v) ∧
    ∀ path, (s.mergeApply cfg now p none (s.state.getD {})).previousPath = some path →
      path = .previous := by
  unfold mergeApply
  dsimp only
  cases hinfo : s.previousMeta with
  | none => exact ⟨h.state.previous, h.state.path⟩
  | some info =>
      rcases h.metaPath info hinfo with ⟨hpath, b, hb⟩
      rcases h.saved b hb with ⟨info', hinfo', hversion⟩
      rw [hinfo] at hinfo'
      cases hinfo'
      refine ⟨?_, ?_⟩
      · intro v hv
        cases hv
        exact ⟨b, hb, hversion.symm⟩
      · intro path hp
        cases hp
        exact hpath

/-- The state that the helper writes agrees with what it has installed. -/
theorem agrees_install {p : OtaPending} {staged : Build} {st : OtaState}
    (hversion : staged.version = p.version)
    (hprevious : ∀ v, st.previousVersion = some v → ∃ b, s.files .previous = some b ∧ b.version = v)
    (hpath : ∀ path, st.previousPath = some path → path = .previous) (now : Nat) :
    (s.install now p staged st).Agrees ((s.install now p staged st).state.getD {}) := by
  refine ⟨?_, hprevious, hpath⟩
  intro v hv
  cases hv
  exact hversion.symm

/-- What the helper has installed for an update. -/
theorem InOrder.helperApply (h : s.InOrder) {p : OtaPending} {staged : Build} (hp : s.pending = some p)
    (ha : p.action = .apply) (hstaged : s.files p.stagedPath = some staged) (now : Nat) :
    (s.helperApply cfg now p staged).InOrder := by
  have hversion : staged.version = p.version := by
    rw [h.applies p hp ha] at hstaged
    exact h.staged _ _ hstaged
  have hdone : ∀ q, (none : Option OtaPending) ≠ some q := by
    intro q hq
    cases hq
  unfold Ota.helperApply
  split
  · -- the binary that was installed is the previous one now
    have hprevious := backup_previous now s
    have hsaved : s.previousVersionOf = s.installed.version := previousVersionOf_eq h
    refine ⟨?_, ?_, ?_, agrees_install hversion ?_ ?_ now, fun q hq => absurd hq (hdone q),
      fun q hq => absurd hq (hdone q), handlerInOrder_of_apply h hp ha _⟩
    · intro b hb
      cases hprevious.symm.trans hb
      exact ⟨_, rfl, hsaved⟩
    · intro info hinfo
      cases hinfo
      exact ⟨rfl, _, hprevious⟩
    · intro v b hb
      exact h.staged v b ((backup_staged now s v).symm.trans hb)
    · intro v hv
      have hv' : nonEmpty (some s.previousVersionOf) = some v := hv
      have heq : s.previousVersionOf = v := Option.some.inj (nonEmpty_eq_some hv').1
      exact ⟨s.installed, hprevious, hsaved.symm.trans heq⟩
    · intro path hpath
      cases hpath
      rfl
  · rcases mergeApply_previous h cfg now p with ⟨hprevious, hpath⟩
    exact ⟨h.saved, h.metaPath, h.staged, agrees_install hversion hprevious hpath now,
      fun q hq => absurd hq (hdone q), fun q hq => absurd hq (hdone q), handlerInOrder_of_apply h hp ha _⟩

theorem InOrder.saveRolledFrom (h : s.InOrder) (p : OtaPending) : (s.saveRolledFrom p).InOrder := by
  have hprevious : (s.saveRolledFrom p).files .previous = s.files .previous := by
    simp [Ota.saveRolledFrom]
  have hstaged : ∀ v, (s.saveRolledFrom p).files (.staged v) = s.files (.staged v) := by
    intro v
    simp [Ota.saveRolledFrom]
  have hagrees : ∀ {st}, s.Agrees st → (s.saveRolledFrom p).Agrees st := fun hst => hst.congr rfl hprevious
  refine ⟨?_, ?_, ?_, hagrees h.state, h.applies, ?_, ?_⟩
  · intro b hb
    exact h.saved b (hprevious.symm.trans hb)
  · intro info hinfo
    rcases h.metaPath info hinfo with ⟨hpath, b, hb⟩
    exact ⟨hpath, b, hprevious.trans hb⟩
  · intro v b hb
    exact h.staged v b ((hstaged v).symm.trans hb)
  · intro q hq ha
    rcases h.rollsBack q hq ha with ⟨hpath, b, hb, hversion⟩
    exact ⟨hpath, b, hprevious.trans hb, hversion⟩
  · exact h.handler.imp (fun hawaits => hawaits) (fun st hst hawaits => ⟨hagrees hst, hawaits⟩)

/-- The helper enters the version rolled away from as the previous one. -/
theorem mergeRollback_previousVersion {p : OtaPending} (hfrom : p.fromVersion ≠ "") (now : Nat)
    (st : OtaState) : (s.mergeRollback cfg now p st).previousVersion = some p.fromVersion := by
  unfold mergeRollback
  dsimp only
  rw [nonEmpty_some hfrom]
  split <;> rfl

theorem mergeRollback_previousPath (now : Nat) (p : OtaPending) (st : OtaState) :
    (s.mergeRollback cfg now p st).previousPath = st.previousPath := by
  unfold mergeRollback
  dsimp only
  split <;> rfl

theorem InOrder.installRollback (h : s.InOrder) {p : OtaPending} {b : Build} (hp : s.pending = some p)
    (ha : p.action = .rollback) (hb : s.files .previous = some b) (hsame : p.fromVersion = b.version)
    (now : Nat) : (s.install now p b (s.mergeRollback cfg now p (s.state.getD {}))).InOrder := by
  have hversion : b.version = p.version := by
    rcases (h.rollsBack p hp ha).2 with ⟨b', hb', hv⟩
    rw [hb] at hb'
    cases hb'
    exact hv
  have hdone : ∀ q, (none : Option OtaPending) ≠ some q := by
    intro q hq
    cases hq
  have hfrom : p.fromVersion ≠ "" := by
    rw [hsame]
    exact b.named
  have hprevious : ∀ v, (s.mergeRollback cfg now p (s.state.getD {})).previousVersion = some v →
      ∃ b, s.files .previous = some b ∧ b.version = v := by
    intro v hv
    rw [mergeRollback_previousVersion hfrom] at hv
    exact ⟨b, hb, hsame.symm.trans (Option.some.inj hv)⟩
  have hpath : ∀ path, (s.mergeRollback cfg now p (s.state.getD {})).previousPath = some path →
      path = .previous := by
    intro path hpath
    rw [mergeRollback_previousPath] at hpath
    exact h.state.path path hpath
  refine ⟨h.saved, h.metaPath, h.staged, agrees_install hversion hprevious hpath now,
    fun q hq => absurd hq (hdone q), fun q hq => absurd hq (hdone q), ?_⟩
  -- a handler that has read the state holds the version rolled away from, which is installed again
  apply h.handler.imp
  · exact fun _ q hq => absurd hq (hdone q)
  · intro st hagrees hawaits
    refine ⟨⟨?_, hagrees.previous, hagrees.path⟩, fun q hq => absurd hq (hdone q)⟩
    intro v hv
    have hfrom : p.fromVersion = v := (hawaits p hp).2 v hv
    exact hfrom.symm.trans hsame

/-- What the helper has installed for a rollback. -/
theorem InOrder.helperRollback (h : s.InOrder) {p : OtaPending} {b : Build} (hp : s.pending = some p)
    (ha : p.action = .rollback) (hb : s.files .previous = some b) (hsame : p.fromVersion = b.version)
    (now : Nat) : (s.helperRollback cfg now p b).InOrder := by
  unfold Ota.helperRollback
  split
  · refine (h.saveRolledFrom p).installRollback hp ha ?_ hsame now
    simpa [Ota.saveRolledFrom] using hb
  · exact h.installRollback hp ha hb hsame now

theorem InOrder.step (h : s.InOrder) (a : OtaStep) (hhonest : s.Honest a) (hsame : s.SameVersion a) :
    (s.step cfg a).InOrder := by
  cases a with
  | check now manifest =>
      unfold Ota.step
      cases hh : s.handler with
      | idle => exact h.check hh now manifest
      | _ => exact h
  | applyRead =>
      unfold Ota.step
      cases hh : s.handler with
      | idle => exact h.applyRead hh
      | _ => exact h
  | stage k artifact =>
      unfold Ota.step
      dsimp only
      split
      next manifest hh hk => exact h.stage hh (hhonest manifest hk) _
      next => exact h
  | applyPending now =>
      unfold Ota.step
      cases hh : s.handler with
      | staged manifest => exact h.applyPending now
      | _ => exact h
  | applyState now kick =>
      unfold Ota.step
      cases hh : s.handler with
      | applying manifest pendingWritten => exact h.applyState now kick manifest pendingWritten
      | _ => exact h
  | rollback now =>
      unfold Ota.step
      cases hh : s.handler with
      | idle => exact h.rollback now
      | _ => exact h
  | rollbackRead =>
      unfold Ota.step
      cases hh : s.handler with
      | rollingBack version => exact h.rollbackRead hh
      | _ => exact h
  | rollbackState kick =>
      unfold Ota.step
      cases hh : s.handler with
      | merging version st => exact h.rollbackState hh kick
      | _ => exact h
  -- the helper stops early, or installs what is staged or what was saved
  | helper now =>
      change (s.orKept (s.helper cfg now)).InOrder
      rcases helper_cases cfg now s with ⟨e, heq⟩ | ⟨p, staged, hp, _, hf, hlen, ⟨ha, heq⟩ | ⟨ha, heq⟩⟩
      · rw [heq]
        exact h
      · rw [heq]
        exact h.helperApply hp ha hf now
      · rw [heq]
        rw [(h.rollsBack p hp ha).1] at hf
        exact h.helperRollback hp ha hf (hsame p staged hp ha hf hlen) now
  | restart => exact ⟨h.saved, h.metaPath, h.staged, h.state.congr rfl rfl, h.applies, h.rollsBack, trivial⟩

/-- From a fresh machine on, the status tells the truth whenever nothing is under way, in every run in
which artifacts report the versions that their manifests name and rollbacks go back to the version that
is installed already. -/
theorem truthful_run (cfg : OtaConfig) (installed : Build) (steps : List OtaStep)
    (hrun : Runs.Along (step cfg) (fun s a => s.Honest a ∧ s.SameVersion a) (fresh installed) steps) :
    Runs.Always (step cfg) (Truthful cfg) (fresh installed) steps :=
  Runs.always_of_invariant (J := InOrder) (fun _ a h hok => h.step a hok.1 hok.2)
    (fun _ h => h.tells) steps (inOrder_fresh installed) hrun

/-- A rollback leaves the status true exactly if it goes back to the version it starts from. -/
theorem tells_helperRollback_iff (h : s.InOrder) (hidle : s.handler = .idle) {p : OtaPending} {b : Build}
    (hp : s.pending = some p) (ha : p.action = .rollback) (hb : s.files .previous = some b)
    (hfrom : p.fromVersion ≠ "") (now : Nat) :
    (s.helperRollback cfg now p b).Tells cfg ↔ p.fromVersion = b.version := by
  constructor
  · intro htells
    have hprevious : (s.helperRollback cfg now p b).files .previous = some b := by
      unfold Ota.helperRollback
      split
      · simpa [Ota.saveRolledFrom, install] using hb
      · exact hb
    have hcan : (s.helperRollback cfg now p b).status.canRollback = true := by
      unfold status
      simp [hprevious]
    have hentered : ((s.helperRollback cfg now p b).state.getD {}).previousVersion = some p.fromVersion := by
      unfold Ota.helperRollback
      exact mergeRollback_previousVersion hfrom now _
    rcases htells.saved hcan with ⟨b', hb', hversion⟩
    rw [hprevious] at hb'
    cases hb'
    unfold status at hversion
    simpa [hentered] using hversion
  · intro hsame
    refine (h.helperRollback hp ha hb hsame now).tells ⟨rfl, ?_⟩
    unfold Ota.helperRollback
    split <;> exact hidle

end Invariant

end Ota

/-! ## An update and a rollback -/

section Example

/-- No public key is configured. -/
def pondConfig : OtaConfig :=
  { binDst := "/usr/bin/tducks"
    autoApply := true
    restart := true
    keepPrevious := true
    verify := fun _ => true
    blake3Hex := fun _ => "" }

def oldBuild : Build :=
  { contents := List.replicate 1025 0
    version := "0.1.0"
    named := by decide }

def newBuild : Build :=
  { contents := List.replicate 1026 0
    version := "0.2.0"
    named := by decide }

def newManifest : OtaManifest :=
  { version := "0.2.0"
    url := "https://example.com/tducks-0.2.0.bin"
    sha256 := none
    signature := none
    channel := "stable" }

/-- The helper runs while `ota_apply` waits for it. -/
def updateSteps : List OtaStep :=
  [.check 1 newManifest, .applyRead, .stage 0 newBuild, .applyPending 2, .helper 3, .applyState 4 .started,
    .restart]

def rollbackSteps : List OtaStep :=
  [.rollback 5, .helper 6, .rollbackRead, .rollbackState .started, .restart]

theorem honest_update : Runs.Along (Ota.step pondConfig) (fun s a => s.Honest a ∧ s.SameVersion a)
    (Ota.fresh oldBuild) updateSteps := by
  refine ⟨⟨trivial, trivial⟩, ⟨trivial, trivial⟩, ⟨?_, trivial⟩, ⟨trivial, trivial⟩, ⟨trivial, ?_⟩,
    ⟨trivial, trivial⟩, ⟨trivial, trivial⟩, trivial⟩
  · intro manifest hm
    cases hm
    rfl
  · intro p b hp ha
    cases hp
    cases ha

theorem truthful_run_update :
    Runs.Always (Ota.step pondConfig) (Ota.Truthful pondConfig) (Ota.fresh oldBuild) updateSteps :=
  Ota.truthful_run pondConfig oldBuild updateSteps honest_update

/-- The machine after an update and a rollback. -/
def rolledBack : Ota :=
  Runs.run (Ota.step pondConfig) (Ota.fresh oldBuild) (updateSteps ++ rollbackSteps)

set_option maxRecDepth 10000 in
/-- The rollback is over. -/
theorem quiet_rolledBack : rolledBack.Quiet :=
  ⟨rfl, rfl⟩

/-- After an update and a rollback the status reports 0.2.0 as the previous version; 0.1.0 is saved. -/
theorem rollback_untruthful :
    ¬ ∀ (cfg : OtaConfig) (installed : Build) (steps : List OtaStep),
      Runs.Along (Ota.step cfg) Ota.Honest (Ota.fresh installed) steps →
        Runs.Always (Ota.step cfg) (Ota.Truthful cfg) (Ota.fresh installed) steps := by
  intro h
  have hhonest : Runs.Along (Ota.step pondConfig) Ota.Honest (Ota.fresh oldBuild)
      (updateSteps ++ rollbackSteps) := by
    refine ⟨trivial, trivial, ?_, trivial, trivial, trivial, trivial, trivial, trivial, trivial, trivial,
      trivial, trivial⟩
    intro manifest hm
    cases hm
    rfl
  have hfinal : Ota.Truthful pondConfig rolledBack :=
    (h pondConfig oldBuild (updateSteps ++ rollbackSteps) hhonest).final
  have hfile : (rolledBack.files .previous).map Build.version = some "0.1.0" := by decide +kernel
  have hstatus : rolledBack.status.previousVersion = some "0.2.0" := by decide +kernel
  have hcan : rolledBack.status.canRollback = true := by decide +kernel
  rcases (hfinal quiet_rolledBack).saved hcan with ⟨b, hb, hversion⟩
  rw [hb, Option.map_some] at hfile
  rw [hstatus, hfile] at hversion
  exact absurd hversion (by decide)

end Example

end Node
end Thunderducks
