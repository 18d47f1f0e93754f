import Thunderducks.Net.QuicPem
import Thunderducks.Node.Claim
import Thunderducks.Node.Link

/-!
# Identity — the key of a node in `identity.key` (`NodeDataDir` in `td-node/src/persist.rs`)

The first process to open a data directory draws a key and renames its seed into place; every later one reads the
seed back, raw or as hex.  A call may fail, or the process die, at any point: `identity_stable` says that the
processes that get through all hold one key.  The file is kept only if `path.exists()` sees it: the function takes
a file it cannot look up for none, and replaces it.
-/

namespace Thunderducks
namespace Node

open Lib Event Net

/-! ## Reading a seed -/

/-- `FromHexError` of the `hex` crate. -/
inductive FromHexError
  | oddLength
  | invalidHexCharacter (c : Char) (index : Nat)

/-- The failures of `load_or_create_identity`. -/
inductive PersistError
  | io (error : String)
  | badIdentityLen (len : Nat)
  | badIdentityHex (error : FromHexError)

namespace Hex

/-- The value of a digit, of either case. -/
def val (c : UInt8) (index : Nat) : Except FromHexError Nat :=
  match Text.hexValue (Char.ofNat c.toNat) with
  | some n => .ok n
  | none => .error (.invalidHexCharacter (Char.ofNat c.toNat) index)

/-- The pairs of digits, the first at `index`. -/
def pairs : Nat → Bytes → Except FromHexError Bytes
  | index, hi :: lo :: rest =>
      match val hi index with
      | .error e => .error e
      | .ok a =>
          match val lo (index + 1) with
          | .error e => .error e
          | .ok b => (pairs (index + 2) rest).map fun bytes => UInt8.ofNat (16 * a + b) :: bytes
  | _, _ => .ok []

/-- `hex::decode` -/
def decode (text : Bytes) : Except FromHexError Bytes :=
  if text.length % 2 ≠ 0 then .error .oddLength else pairs 0 text

/-- The digit of a number below 16 is one byte, and is read as that number. -/
theorem val_digitChar (n index : Nat) (h : n < 16) :
    ∃ c, String.utf8EncodeChar (Nat.digitChar n) = [c] ∧ val c index = .ok n := by
  have hdigit : ∀ n < 16, String.utf8EncodeChar (Nat.digitChar n) = [UInt8.ofNat (Nat.digitChar n).toNat] ∧
      Text.hexValue (Char.ofNat (UInt8.ofNat (Nat.digitChar n).toNat).toNat) = some n := by
    decide
  rcases hdigit n h with ⟨hc, hvalue⟩
  refine ⟨_, hc, ?_⟩
  unfold val
  rw [hvalue]

/-- Two digits are written for each byte, and read as that byte. -/
theorem pairs_hexEncode (bytes : Bytes) : ∀ index, pairs index (utf8Bytes (Text.hexEncode bytes)) = .ok bytes ∧
    (utf8Bytes (Text.hexEncode bytes)).length = 2 * bytes.length := by
  unfold utf8Bytes Text.hexEncode
  rw [String.toList_ofList]
  induction bytes with
  | nil =>
      intro index
      exact ⟨rfl, rfl⟩
  | cons b bytes ih =>
      intro index
      have hlow : b.toNat % 16 < 16 := Nat.mod_lt _ (by decide)
      have hhigh : b.toNat / 16 < 16 := by
        have := b.toNat_lt
        omega
      rcases val_digitChar _ index hhigh with ⟨hi, hhi, hvalHi⟩
      rcases val_digitChar _ (index + 1) hlow with ⟨lo, hlo, hvalLo⟩
      rcases ih (index + 2) with ⟨hrest, hlen⟩
      rw [List.flatMap_cons, List.cons_append, List.cons_append, List.nil_append, List.flatMap_cons,
        List.flatMap_cons, hhi, hlo, List.cons_append, List.nil_append, List.cons_append, List.nil_append]
      constructor
      · unfold pairs
        rw [hvalHi, hvalLo, hrest]
        dsimp only [Except.map]
        rw [Nat.div_add_mod, UInt8.ofNat_toNat]
      · rw [List.length_cons, List.length_cons, hlen, List.length_cons]
        omega

theorem decode_hexEncode (bytes : Bytes) : decode (utf8Bytes (Text.hexEncode bytes)) = .ok bytes := by
  rcases pairs_hexEncode bytes 0 with ⟨hpairs, hlen⟩
  unfold decode
  rw [hlen, if_neg (by omega), hpairs]

end Hex

/-- An array of `n` bytes, filled with `copy_from_slice`. -/
def arrayOf (n : Nat) (bytes : Bytes) : Option (Vector UInt8 n) :=
  if h : bytes.length = n then some ⟨bytes.toArray, h⟩ else none

theorem arrayOf_toList {n : Nat} (bytes : Vector UInt8 n) : arrayOf n bytes.toList = some bytes := by
  unfold arrayOf
  rw [dif_pos bytes.length_toList]
  rfl

/-- Prefer raw 32-byte seed; also accept hex (64 chars, optional whitespace/newline). -/
def parseIdentityBytes (raw : Bytes) : Except PersistError Bytes32 :=
  match arrayOf 32 raw with
  | some seed => .ok seed
  | none =>
      match String.fromUTF8? raw.toByteArray with
      | none => .error (.badIdentityLen raw.length)
      | some s =>
          match Hex.decode (utf8Bytes (Text.trim s)) with
          | .error e => .error (.badIdentityHex e)
          | .ok bytes =>
              match arrayOf 32 bytes with
              | some seed => .ok seed
              | none => .error (.badIdentityLen bytes.length)

/-- What `write_identity` writes is read back. -/
theorem parseIdentityBytes_raw (seed : Bytes32) : parseIdentityBytes seed.toList = .ok seed := by
  unfold parseIdentityBytes
  rw [arrayOf_toList]

theorem length_le_utf8 (cs : List Char) : cs.length ≤ (cs.flatMap String.utf8EncodeChar).length := by
  induction cs with
  | nil => exact Nat.le_refl 0
  | cons c cs ih =>
      have hc : 1 ≤ (String.utf8EncodeChar c).length := by
        rw [String.length_utf8EncodeChar]
        exact c.utf8Size_pos
      rw [List.flatMap_cons, List.length_append, List.length_cons]
      omega

/-- So is a seed in hex, whatever white space is around it. -/
theorem parseIdentityBytes_hex (seed : Bytes32) {before after : List Char}
    (hbefore : ∀ c ∈ before, Text.isWhitespace c = true) (hafter : ∀ c ∈ after, Text.isWhitespace c = true) :
    parseIdentityBytes ((before ++ ((Text.hexEncode seed.toList).toList ++ after)).flatMap String.utf8EncodeChar) =
      .ok seed := by
  have hlong : ((before ++ ((Text.hexEncode seed.toList).toList ++ after)).flatMap
      String.utf8EncodeChar).length ≠ 32 := by
    have hle := length_le_utf8 (before ++ ((Text.hexEncode seed.toList).toList ++ after))
    rw [List.length_append, List.length_append, Text.length_hexEncode, seed.length_toList] at hle
    omega
  unfold parseIdentityBytes
  rw [arrayOf, dif_neg hlong, fromUTF8?_flatMap]
  dsimp only
  rw [Text.trim_padded Text.isWhitespace_hexEncode hbefore hafter, Hex.decode_hexEncode]
  dsimp only
  rw [arrayOf_toList]

/-! ## Opening the directory -/

/-- `SigningKey::from_bytes` and `to_bytes`. -/
class SigningSeed [Primitives] where
  fromBytes : Bytes32 → Primitives.SigningKey
  toBytes : Primitives.SigningKey → Bytes32
  /-- A key is made again from its bytes. -/
  fromBytes_toBytes : ∀ key, fromBytes (toBytes key) = key

section Open

variable [Primitives] [SigningSeed]

namespace DeviceKeypair

def fromSeedBytes (seed : Bytes32) : DeviceKeypair :=
  ofSigningKey (SigningSeed.fromBytes seed)

def toSeedBytes (kp : DeviceKeypair) : Bytes32 :=
  SigningSeed.toBytes kp.signing

/-- The seed gives the key pair back. -/
theorem fromSeedBytes_toSeedBytes (kp : DeviceKeypair) : fromSeedBytes kp.toSeedBytes = kp := by
  unfold fromSeedBytes toSeedBytes
  rw [SigningSeed.fromBytes_toBytes]
  rcases kp with ⟨signing, _, rfl⟩
  rfl

end DeviceKeypair

def identityFile : String := "identity.key"

def identityTmp : String := "identity.key.tmp"

namespace NodeDataDir

def ensureDir : List FileOp :=
  [.createDirAll]

/-- The file calls of `write_identity` before the rename. -/
def fillIdentity (kp : DeviceKeypair) : List FileOp :=
  ensureDir ++ [.create identityTmp, .writeAll identityTmp kp.toSeedBytes.toList, .syncAll identityTmp]

def writeIdentity (kp : DeviceKeypair) : List FileOp :=
  fillIdentity kp ++ [.rename identityTmp identityFile]

/-- What a process meets when it opens the directory. -/
structure OpenEnv where
  /-- What `generate` would draw. -/
  generated : DeviceKeypair
  /-- The call that fails. -/
  fault : Option Fault
  /-- `path.exists()` can look the file up. -/
  lookedUp : Bool

/-- The failure of `ensure_dir` or of the read, the two calls before a seed is parsed. -/
def readFails : Option Fault → Option String
  | some fault => if fault.done < 2 then some fault.error else none
  | none => none

/-- Load existing keypair or generate + persist a new one. -/
def loadOrCreateIdentity (files : Files) (env : OpenEnv) : Except PersistError DeviceKeypair × Files :=
  match if env.lookedUp then files identityFile else none with
  | some raw =>
      match readFails env.fault with
      | some e => (.error (.io e), files)
      | none => ((parseIdentityBytes raw).map DeviceKeypair.fromSeedBytes, files)
  | none =>
      match FileOp.perform files (ensureDir ++ writeIdentity env.generated) env.fault with
      | (.error e, files) => (.error (.io e), files)
      | (.ok (), files) => (.ok env.generated, files)

/-! ## One call -/

section Call

variable {files : Files} {env : OpenEnv} {kp : DeviceKeypair} {seed : Bytes32}

/-- The file holds the seed of a key. -/
def Holds (files : Files) (kp : DeviceKeypair) : Prop :=
  ∃ raw seed, files identityFile = some raw ∧ parseIdentityBytes raw = .ok seed ∧ DeviceKeypair.fromSeedBytes seed = kp

/-- The file, if there is one, holds the seed of a key. -/
def Sound (files : Files) : Prop :=
  files identityFile = none ∨ ∃ kp, Holds files kp

theorem Holds.congr {files' : Files} (h : Holds files kp) (hsame : files' identityFile = files identityFile) :
    Holds files' kp := by
  unfold Holds
  rw [hsame]
  exact h

theorem fillIdentity_spares (kp : DeviceKeypair) : ∀ op ∈ ensureDir ++ fillIdentity kp, op.Spares identityFile := by
  have hne : identityTmp ≠ identityFile := by decide
  intro op hop
  simp only [ensureDir, fillIdentity, List.cons_append, List.nil_append, List.mem_cons, List.not_mem_nil,
    or_false] at hop
  rcases hop with rfl | rfl | rfl | rfl | rfl
  · trivial
  · trivial
  · exact hne
  · exact hne
  · trivial

theorem applyAll_fillIdentity (files : Files) (kp : DeviceKeypair) :
    FileOp.applyAll files (ensureDir ++ fillIdentity kp) identityTmp = some kp.toSeedBytes.toList := by
  simp [ensureDir, fillIdentity, FileOp.applyAll, FileOp.apply]

/-- A key that is written is there, and a failed write leaves the file as it is. -/
theorem writeIdentity_cases (files : Files) (kp : DeviceKeypair) (fault : Option Fault) :
    (∃ files', FileOp.perform files (ensureDir ++ writeIdentity kp) fault = (.ok (), files') ∧ Holds files' kp) ∨
      ∃ e files', FileOp.perform files (ensureDir ++ writeIdentity kp) fault = (.error e, files') ∧
        files' identityFile = files identityFile := by
  have hsplit : ensureDir ++ writeIdentity kp =
      (ensureDir ++ fillIdentity kp) ++ [.rename identityTmp identityFile] := by
    rw [writeIdentity, List.append_assoc]
  rw [hsplit]
  cases hout : FileOp.perform files ((ensureDir ++ fillIdentity kp) ++ [.rename identityTmp identityFile]) fault with
  | mk res files' =>
    cases res with
    | ok _ =>
        left
        refine ⟨files', rfl, kp.toSeedBytes.toList, kp.toSeedBytes, ?_, parseIdentityBytes_raw _,
          kp.fromSeedBytes_toSeedBytes⟩
        have hok : (FileOp.perform files ((ensureDir ++ fillIdentity kp) ++ [.rename identityTmp identityFile])
            fault).1 = .ok () := by rw [hout]
        have hfile := perform_rename_ok (by decide) hok
        rw [hout, applyAll_fillIdentity] at hfile
        exact hfile
    | error e =>
        right
        refine ⟨e, files', rfl, ?_⟩
        have herr : (FileOp.perform files ((ensureDir ++ fillIdentity kp) ++ [.rename identityTmp identityFile])
            fault).1 = .error e := by rw [hout]
        have hfile := perform_rename_error (fillIdentity_spares kp) herr
        rw [hout] at hfile
        exact hfile

/-- The process that reads a key gives out that key. -/
theorem Holds.load (h : Holds files kp) (hseen : env.lookedUp = true) :
    (loadOrCreateIdentity files env).2 = files ∧ ((loadOrCreateIdentity files env).1 = .ok kp ∨
      env.fault ≠ none ∧ ∃ e, (loadOrCreateIdentity files env).1 = .error (.io e)) := by
  rcases h with ⟨raw, seed, hraw, hparse, rfl⟩
  unfold loadOrCreateIdentity
  rw [if_pos hseen, hraw]
  dsimp only
  split
  next e hfails =>
    refine ⟨rfl, Or.inr ⟨?_, e, rfl⟩⟩
    intro hnone
    rw [hnone] at hfails
    cases hfails
  next =>
    rw [hparse]
    exact ⟨rfl, Or.inl rfl⟩

/-- The process that finds no file makes one, or leaves none. -/
theorem load_absent (habsent : files identityFile = none) (env : OpenEnv) :
    (∃ files', loadOrCreateIdentity files env = (.ok env.generated, files') ∧ Holds files' env.generated) ∨
      env.fault ≠ none ∧ ∃ e files', loadOrCreateIdentity files env = (.error (.io e), files') ∧
        files' identityFile = none := by
  unfold loadOrCreateIdentity
  rw [habsent, ite_self]
  dsimp only
  rcases writeIdentity_cases files env.generated env.fault with ⟨files', hout, hholds⟩ | ⟨e, files', hout, hsame⟩
  · left
    rw [hout]
    exact ⟨files', rfl, hholds⟩
  · right
    refine ⟨?_, e, files', by rw [hout], hsame.trans habsent⟩
    intro hnone
    rw [hnone] at hout
    have herr := congrArg Prod.fst hout
    rw [FileOp.perform_none] at herr
    cases herr

end Call

/-! ## Runs -/

/-- A process opens the directory, or one of the other documents is written. -/
inductive DirAction
  | load (env : OpenEnv)
  | saveClaim (claim : ClaimState) (fault : Option Fault)
  | saveSide (side : SideFile) (body : Bytes) (fault : Option Fault)

namespace DirAction

/-- What a process gets when it opens the directory, and the files afterwards. -/
def call (files : Files) : DirAction → Option (Except PersistError DeviceKeypair) × Files
  | .load env =>
      let (out, files) := loadOrCreateIdentity files env
      (some out, files)
  | .saveClaim claim fault => (none, (FileOp.perform files (NodeDataDir.saveClaim claim) fault).2)
  | .saveSide side body fault => (none, (FileOp.perform files (NodeDataDir.saveSide side body) fault).2)

def step (files : Files) (act : DirAction) : Files :=
  (act.call files).2

/-- The file is looked up when it is asked for. -/
def LooksUp : DirAction → Prop
  | .load env => env.lookedUp = true
  | _ => True

end DirAction

section Runs

variable {files : Files} {act : DirAction} {kp : DeviceKeypair}

/-- What is no opening asks for nothing and spares the file. -/
theorem DirAction.call_cases (files : Files) (act : DirAction) : (∃ env, act = .load env) ∨
    (act.call files).1 = none ∧ act.step files identityFile = files identityFile := by
  have hspares : ∀ {tmp path : String} (body : Bytes) (fault : Option Fault), tmp ≠ identityFile →
      path ≠ identityFile →
      (FileOp.perform files (.createDirAll :: atomicWriteBytes tmp path body) fault).2 identityFile =
        files identityFile := by
    intro tmp path body fault htmp hpath
    refine FileOp.perform_spares fun op hop => ?_
    rcases List.mem_cons.1 hop with rfl | hop
    · trivial
    · exact atomicWriteBytes_spares htmp hpath op hop
  cases act with
  | load env => exact Or.inl ⟨env, rfl⟩
  | saveClaim claim fault => exact Or.inr ⟨rfl, hspares _ fault (by decide) (by decide)⟩
  | saveSide side body fault =>
      refine Or.inr ⟨rfl, hspares body fault ?_ ?_⟩
      · cases side <;> decide
      · cases side <;> decide

/-- A directory that holds a key goes on holding it, and no process gets another. -/
theorem Holds.call (h : Holds files kp) (hseen : act.LooksUp) :
    Holds (act.step files) kp ∧ ∀ kp', (act.call files).1 = some (.ok kp') → kp' = kp := by
  rcases act.call_cases files with ⟨env, rfl⟩ | ⟨hout, hsame⟩
  · rcases h.load hseen with ⟨hsame, hout⟩
    refine ⟨h.congr (congrFun hsame _), ?_⟩
    intro kp' hkp'
    have hgot : (loadOrCreateIdentity files env).1 = .ok kp' := Option.some.inj hkp'
    rcases hout with hok | ⟨_, e, herr⟩
    · rw [hok] at hgot
      exact (Except.ok.inj hgot).symm
    · rw [herr] at hgot
      cases hgot
  · refine ⟨h.congr hsame, ?_⟩
    intro kp' hkp'
    rw [hout] at hkp'
    cases hkp'

/-- A sound directory stays sound, and holds the key that a process gets. -/
theorem Sound.call (h : Sound files) (hseen : act.LooksUp) :
    Sound (act.step files) ∧ ∀ kp, (act.call files).1 = some (.ok kp) → Holds (act.step files) kp := by
  rcases h with habsent | ⟨kp, hkp⟩
  · rcases act.call_cases files with ⟨env, rfl⟩ | ⟨hout, hsame⟩
    · have hstep : (DirAction.load env).step files = (loadOrCreateIdentity files env).2 := rfl
      have hcall : ((DirAction.load env).call files).1 = some (loadOrCreateIdentity files env).1 := rfl
      rw [hstep, hcall]
      rcases load_absent habsent env with ⟨files', hout, hholds⟩ | ⟨_, e, files', hout, hnone⟩
      · rw [hout]
        refine ⟨Or.inr ⟨env.generated, hholds⟩, ?_⟩
        intro kp hkp
        cases hkp
        exact hholds
      · rw [hout]
        refine ⟨Or.inl hnone, ?_⟩
        intro kp hkp
        cases hkp
    · refine ⟨Or.inl (hsame.trans habsent), ?_⟩
      intro kp hkp
      rw [hout] at hkp
      cases hkp
  · rcases hkp.call hseen with ⟨hholds, hsame⟩
    refine ⟨Or.inr ⟨kp, hholds⟩, ?_⟩
    intro kp' hkp'
    rw [hsame kp' hkp']
    exact hholds

/-- A process that meets no fault gets a key. -/
theorem Sound.load {env : OpenEnv} (h : Sound files) (hseen : env.lookedUp = true) (hfault : env.fault = none) :
    ∃ kp, (loadOrCreateIdentity files env).1 = .ok kp := by
  rcases h with habsent | ⟨kp, hkp⟩
  · rcases load_absent habsent env with ⟨files', hout, _⟩ | ⟨hno, _⟩
    · exact ⟨env.generated, by rw [hout]⟩
    · exact absurd hfault hno
  · rcases (hkp.load hseen).2 with hok | ⟨hno, _⟩
    · exact ⟨kp, hok⟩
    · exact absurd hfault hno

/-- What the processes of a run get from a directory that holds a key. -/
theorem Holds.answers (acts : List DirAction) : ∀ {files : Files}, Holds files kp →
    (∀ act ∈ acts, act.LooksUp) → ∀ kp', some (.ok kp') ∈ Runs.answers (fun fs act => act.call fs) files acts →
      kp' = kp := by
  induction acts with
  | nil =>
      intro files _ _ kp' hkp'
      cases hkp'
  | cons act acts ih =>
      intro files h hseen kp' hkp'
      rcases h.call (hseen act (by simp)) with ⟨hnext, hout⟩
      rw [Runs.answers] at hkp'
      rcases List.mem_cons.1 hkp' with heq | hlater
      · exact hout kp' heq.symm
      · exact ih hnext (fun a ha => hseen a (by simp [ha])) kp' hlater

/-- What they get from a sound directory, by induction on the run up to the first that gets a key. -/
theorem Sound.answers (acts : List DirAction) : ∀ {files : Files}, Sound files → (∀ act ∈ acts, act.LooksUp) →
    ∀ kp kp', some (.ok kp) ∈ Runs.answers (fun fs act => act.call fs) files acts →
      some (.ok kp') ∈ Runs.answers (fun fs act => act.call fs) files acts → kp = kp' := by
  induction acts with
  | nil =>
      intro files _ _ kp kp' hkp
      cases hkp
  | cons act acts ih =>
      intro files h hseen kp kp' hkp hkp'
      rcases h.call (hseen act (by simp)) with ⟨hnext, hout⟩
      have hrest : ∀ a ∈ acts, a.LooksUp := fun a ha => hseen a (by simp [ha])
      rw [Runs.answers] at hkp hkp'
      rcases List.mem_cons.1 hkp with hkp | hkp
      · rcases List.mem_cons.1 hkp' with hkp' | hkp'
        · rw [← hkp'] at hkp
          exact Except.ok.inj (Option.some.inj hkp)
        · exact ((hout kp hkp.symm).answers acts hrest kp' hkp').symm
      · rcases List.mem_cons.1 hkp' with hkp' | hkp'
        · exact (hout kp' hkp'.symm).answers acts hrest kp hkp
        · exact ih hnext hrest kp kp' hkp hkp'

/-- In every run of openings, each with its own fault or death, among writes of the other documents: the processes
that get a key all get the same one, and a process that meets no fault gets it. -/
theorem identity_stable (files : Files) (hsound : Sound files) (acts : List DirAction)
    (hseen : ∀ act ∈ acts, act.LooksUp) :
    (∀ kp kp', some (.ok kp) ∈ Runs.answers (fun fs act => DirAction.call fs act) files acts →
      some (.ok kp') ∈ Runs.answers (fun fs act => DirAction.call fs act) files acts → kp = kp') ∧
    ∀ before env after, acts = before ++ .load env :: after → env.fault = none →
      ∃ kp, (loadOrCreateIdentity (Runs.run DirAction.step files before) env).1 = .ok kp := by
  refine ⟨hsound.answers acts hseen, ?_⟩
  rintro before env after rfl hfault
  have hreached : Sound (Runs.run DirAction.step files before) := by
    refine Runs.invariant (fun fs act h hact => (h.call hact).1) before hsound ?_
    exact Runs.along_iff.2 fun b a c hsplit => hseen a (by simp [hsplit])
  have hlooks : DirAction.LooksUp (.load env) := hseen _ (by simp)
  exact hreached.load hlooks hfault

end Runs

end NodeDataDir

end Open

/-! ## A seed in hex -/

namespace NodeDataDir

attribute [local instance] Checksum.primitives

@[reducible] def seeds : SigningSeed where
  fromBytes seed := seed
  toBytes key := key
  fromBytes_toBytes _ := rfl

attribute [local instance] seeds

/-- An operator put a seed there in hex, with a newline. -/
def provisioned : Files :=
  Function.update (fun _ => none) identityFile
    (some (([] ++ ((Text.hexEncode (Checksum.key 1).toList).toList ++ ['\n'])).flatMap String.utf8EncodeChar))

/-- A process cannot read the directory, one saves its claim and dies, one opens it. -/
def openings : List DirAction :=
  [.load { generated := DeviceKeypair.ofSigningKey (Checksum.key 2), fault := some ⟨1, 0, "EIO"⟩, lookedUp := true },
    .saveClaim ClaimState.default (some ⟨2, 5, "EIO"⟩),
    .load { generated := DeviceKeypair.ofSigningKey (Checksum.key 3), fault := none, lookedUp := true }]

theorem sound_provisioned : Sound provisioned := by
  refine Or.inr ⟨_, _, _, Function.update_self _ _ _, parseIdentityBytes_hex (Checksum.key 1) ?_ ?_, rfl⟩
  · simp
  · intro c hc
    rw [List.mem_singleton.1 hc]
    decide

theorem identity_stable_provisioned : ∃ kp,
    (loadOrCreateIdentity (Runs.run DirAction.step provisioned (openings.take 2))
      { generated := DeviceKeypair.ofSigningKey (Checksum.key 3), fault := none, lookedUp := true }).1 = .ok kp := by
  have hseen : ∀ act ∈ openings, act.LooksUp := by
    intro act hact
    rcases List.mem_cons.1 hact with rfl | hact
    · rfl
    rcases List.mem_cons.1 hact with rfl | hact
    · trivial
    rw [List.mem_singleton.1 hact]
    rfl
  exact (identity_stable provisioned sound_provisioned openings hseen).2 (openings.take 2) _ [] rfl rfl

end NodeDataDir

end Node
end Thunderducks
