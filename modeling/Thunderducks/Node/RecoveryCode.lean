import Mathlib.Data.List.Forall2
import Mathlib.Data.Set.Function
import Thunderducks.Lib.JsonUnique
import Thunderducks.Node.Claim
import Thunderducks.Node.RecoveryLimit

/-!
# RecoveryCode — which codes open a claimed node (`hash_recovery` in `td-node/src/rpc.rs`)

`claim_node` and `recovery_login` ask for eight bytes of the code as it was typed, `hash_recovery` drops the
spaces and underscores before it hashes.  A code that is mostly padding is accepted with little left of
it, and its short forms do not open the node: `opensExactly_iff` says which codes are as they should be.
-/

namespace Thunderducks
namespace Node

open Lib Event

/-! ## Text -/

theorem utf8Bytes_injective : Function.Injective utf8Bytes := by
  have hlist : ∀ {l m : List Char},
      l.flatMap String.utf8EncodeChar = m.flatMap String.utf8EncodeChar → l = m := by
    intro l
    induction l with
    | nil =>
        intro m h
        cases m with
        | nil => rfl
        | cons d m =>
            rw [List.flatMap_nil, List.flatMap_cons] at h
            have hnil := List.append_eq_nil_iff.1 h.symm
            exact absurd hnil.1 String.utf8EncodeChar_ne_nil
    | cons c l ih =>
        intro m h
        cases m with
        | nil =>
            rw [List.flatMap_nil, List.flatMap_cons] at h
            have hnil := List.append_eq_nil_iff.1 h
            exact absurd hnil.1 String.utf8EncodeChar_ne_nil
        | cons d m =>
            rw [List.flatMap_cons, List.flatMap_cons] at h
            -- the first byte tells how many the character has
            rcases Json.utf8_append_inj h with ⟨rfl, hrest⟩
            rw [ih hrest]
  intro s t h
  exact String.toList_inj.1 (hlist h)

theorem hex32_injective : Function.Injective hex32 := by
  intro a b h
  have hbytes : a.toList = b.toList := Text.hexEncode_injective h
  exact Vector.toList_inj.1 hbytes

/-- The accumulator stays zero as long as the bytes agree. -/
theorem foldl_xor_eq_zero (pairs : List (UInt8 × UInt8)) : ∀ {acc : UInt8},
    pairs.foldl (fun acc p => acc ||| (p.1 ^^^ p.2)) acc = 0 ↔ acc = 0 ∧ ∀ p ∈ pairs, p.1 = p.2 := by
  induction pairs with
  | nil =>
      intro acc
      simp
  | cons p pairs ih =>
      intro acc
      rw [List.foldl_cons, ih, UInt8.or_eq_zero_iff, UInt8.xor_eq_zero_iff, List.forall_mem_cons, and_assoc]

theorem sameHash_iff {got expected : String} : sameHash got expected = true ↔ got = expected := by
  have hpairs : ∀ {a b : Bytes}, (a.length = b.length ∧ ∀ p ∈ a.zip b, p.1 = p.2) ↔ a = b := by
    intro a b
    rw [← List.forall₂_eq_eq_eq, List.forall₂_iff_zip]
    simp
  unfold sameHash
  simp only [decide_eq_true_eq, foldl_xor_eq_zero, true_and]
  rw [hpairs]
  exact utf8Bytes_injective.eq_iff

/-- Every character is in ASCII. -/
def Ascii (s : String) : Prop :=
  ∀ c ∈ s.toList, c.toNat < 128

instance (s : String) : Decidable (Ascii s) :=
  List.decidableBAll _ s.toList

theorem Ascii.trim {s : String} (h : Ascii s) : Ascii (Text.trim s) := by
  intro c hc
  refine h c ?_
  unfold Text.trim at hc
  rw [String.toList_ofList] at hc
  exact (List.dropWhile_sublist _).subset ((List.rdropWhile_prefix _ _).subset hc)

/-- The case of the other characters is Unicode's affair. -/
def UppercasesAscii [Unicode] : Prop :=
  ∀ s, Ascii s → Unicode.toUppercase s = Text.toAsciiUppercase s

theorem length_le_utf8ByteSize (s : String) : s.toList.length ≤ s.utf8ByteSize := by
  have hlist : ∀ l : List Char, l.length ≤ (String.ofList l).utf8ByteSize := by
    intro l
    induction l with
    | nil => exact Nat.zero_le _
    | cons c l ih =>
        have := Char.utf8Size_pos c
        rw [List.length_cons, String.ofList_cons, String.utf8ByteSize_append, String.utf8ByteSize_singleton]
        omega
  have := hlist s.toList
  rwa [String.ofList_toList] at this

/-! ## What is hashed -/

/-- The characters that `hash_recovery` keeps. -/
def isKept (c : Char) : Bool :=
  c ≠ ' ' ∧ c ≠ '_'

/-- The text that `hash_recovery` hashes. -/
def norm [Unicode] (code : String) : String :=
  String.ofList ((Unicode.toUppercase (Text.trim code)).toList.filter isKept)

theorem hashRecovery_eq [Primitives] [Unicode] (code : String) :
    hashRecovery code = hex32 (Primitives.blake3 (utf8Bytes (norm code))) :=
  rfl

theorem norm_trim [Unicode] (code : String) : norm (Text.trim code) = norm code := by
  unfold norm
  rw [Text.trim_trim]

/-- Upper case makes no padding and takes none away. -/
theorem isKept_toUpper {c : Char} (h : c.toNat < 128) : isKept c.toUpper = isKept c := by
  have hall : ∀ n < 128, isKept (Char.ofNat n).toUpper = isKept (Char.ofNat n) := by
    decide
  have hc := hall c.toNat h
  rwa [Char.ofNat_toNat] at hc

/-- What the trimmed code has besides spaces and underscores. -/
def kept (code : String) : List Char :=
  (Text.trim code).toList.filter isKept

theorem length_norm [Unicode] (hupper : UppercasesAscii) {code : String} (h : Ascii code) :
    (norm code).length = (kept code).length := by
  unfold norm kept
  rw [hupper _ h.trim, String.length_ofList, Text.toAsciiUppercase, String.toList_ofList, List.filter_map,
    List.length_map]
  refine congrArg List.length (List.filter_congr ?_)
  intro c hc
  exact isKept_toUpper (h.trim c hc)

theorem length_kept_le (code : String) : (kept code).length ≤ (Text.trim code).utf8ByteSize :=
  (List.length_filter_le _ _).trans (length_le_utf8ByteSize _)

namespace OwnerState

section Codes

variable [Primitives] [Unicode] {st st' : OwnerState} {draw : Draw}

/-! ## Claims and logins -/

/-- A claim that succeeds answers with the code submitted, trimmed, or with a new one, and stores its hash. -/
theorem claimNode_claim {req : ClaimRequest} {body : ClaimResponse}
    (h : st.claimNode draw req = (.claim body, st')) :
    8 ≤ body.recoveryCode.utf8ByteSize ∧ st'.claim.claimed = true ∧
      st'.claim.recoveryHash = some (hashRecovery body.recoveryCode) := by
  unfold claimNode at h
  dsimp only at h
  split at h
  · cases h
  split at h
  · cases h
  split at h
  · cases h
  next hlong =>
  split at h
  · cases h
  · simp only [Prod.mk.injEq, Response.claim.injEq] at h
    rcases h with ⟨rfl, rfl⟩
    exact ⟨Nat.le_of_not_lt hlong, congrArg ClaimState.claimed (mint_claim "claim"),
      congrArg ClaimState.recoveryHash (mint_claim "claim")⟩

/-- On a claimed node that is not locked, a code logs in if it is long enough and has the stored hash. -/
theorem recoveryLogin_login_iff {expected code : String} (hclaimed : st.claim.claimed = true)
    (hhash : st.claim.recoveryHash = some expected) (hopen : st.recoveryLocked draw.now = none) :
    (∃ body, (st.recoveryLogin draw { recoveryCode := code }).1 = .login body) ↔
      8 ≤ (Text.trim code).utf8ByteSize ∧ hashRecovery code = expected := by
  have hsame : hashRecovery (Text.trim code) = hashRecovery code := by
    rw [hashRecovery_eq, hashRecovery_eq, norm_trim]
  unfold recoveryLogin
  dsimp only
  by_cases hshort : (Text.trim code).utf8ByteSize < 8
  · rw [if_pos hshort]
    refine iff_of_false ?_ fun h => absurd hshort (Nat.not_lt.2 h.1)
    rintro ⟨body, hbody⟩
    cases hbody
  · rw [if_neg hshort, hopen, hhash, if_neg (by simp [hclaimed])]
    dsimp only
    rw [hsame]
    by_cases heq : hashRecovery code = expected
    · have hyes : sameHash (hashRecovery code) expected = true := sameHash_iff.2 heq
      rw [hyes, if_neg (by decide)]
      exact iff_of_true ⟨_, rfl⟩ ⟨Nat.le_of_not_lt hshort, heq⟩
    · have hno : sameHash (hashRecovery code) expected = false := by
        by_contra hyes
        exact heq (sameHash_iff.1 (by simpa using hyes))
      rw [hno, if_pos rfl]
      refine iff_of_false ?_ fun h => heq h.2
      rintro ⟨body, hbody⟩
      cases hbody

/-! ## Codes that open exactly -/

/-- `claim_node` accepts the code: it is the one of the answer, or the one submitted, which is trimmed. -/
def AcceptsCode (st : OwnerState) (draw : Draw) (req : ClaimRequest) (code : String) (st' : OwnerState) :
    Prop :=
  ∃ body, st.claimNode draw req = (.claim body, st') ∧
    (code = body.recoveryCode ∨
      req.recoveryCode = some code ∧ Text.trimmed code = some body.recoveryCode)

/-- What is hashed of the code has eight characters, and the codes of which the same is hashed are those that
open the node when it is not locked. -/
def OpensExactly (pool : Set Bytes) (code : String) (st : OwnerState) : Prop :=
  8 ≤ (norm code).length ∧ ∀ s, Ascii s → utf8Bytes (norm s) ∈ pool →
    ∀ (st' : OwnerState) (draw : Draw), st'.claim = st.claim → st'.recoveryLocked draw.now = none →
      ((∃ body, (st'.recoveryLogin draw { recoveryCode := s }).1 = .login body) ↔ norm s = norm code)

/-- Over texts that no two of share a hash. -/
theorem opensExactly_iff (hupper : UppercasesAscii) {pool : Set Bytes}
    (hfree : Set.InjOn Primitives.blake3 pool) {req : ClaimRequest} {code : String}
    (hacc : AcceptsCode st draw req code st') (hascii : Ascii code) (hpool : utf8Bytes (norm code) ∈ pool) :
    OpensExactly pool code st' ↔ 8 ≤ (kept code).length := by
  rw [OpensExactly, length_norm hupper hascii]
  refine and_iff_left_of_imp fun hlong s hs hspool st'' draw' hclaim hopen => ?_
  rcases hacc with ⟨body, hrun, hcode⟩
  rcases claimNode_claim hrun with ⟨_, hclaimed, hhash⟩
  have hnorm : norm body.recoveryCode = norm code := by
    rcases hcode with rfl | ⟨_, htrim⟩
    · rfl
    · -- the code submitted is stored trimmed, and `norm` trims again
      have hbody : Text.trim code = body.recoveryCode := by
        unfold Text.trimmed at htrim
        dsimp only at htrim
        split at htrim
        · cases htrim
        · exact Option.some.inj htrim
      rw [← hbody, norm_trim]
  rw [recoveryLogin_login_iff (by rw [hclaim]; exact hclaimed) (by rw [hclaim]; exact hhash) hopen,
    hashRecovery_eq, hashRecovery_eq, hnorm]
  constructor
  · rintro ⟨_, heq⟩
    exact utf8Bytes_injective (hfree hspool hpool (hex32_injective heq))
  · -- a code with the same characters kept is not too short to log in
    intro heq
    refine ⟨?_, by rw [heq]⟩
    have hlen : (kept s).length = (kept code).length := by
      rw [← length_norm hupper hs, ← length_norm hupper hascii, heq]
    have := length_kept_le s
    omega

end Codes

/-! ## A code of two letters and one of thirteen characters -/

section TwoCodes

attribute [local instance] Checksum.primitives RpcState.asciiUppercase

def unclaimedOwner : OwnerState :=
  OwnerState.new (Checksum.device 1) ClaimState.default

def claimWith (code : String) : ClaimRequest :=
  { displayName := "Ada", recoveryCode := some code }

def claimedWith (code : String) : OwnerState :=
  (unclaimedOwner.claimNode (RpcState.drawAt (Instant.secs 0)) (claimWith code)).2

theorem uppercasesAscii_asciiUppercase : UppercasesAscii := by
  intro s _
  rfl

/-- Two letters and six underscores are eight bytes. -/
theorem opensExactly_padded :
    AcceptsCode unclaimedOwner (RpcState.drawAt (Instant.secs 0)) (claimWith "ab______") "ab______"
      (claimedWith "ab______") ∧ norm "ab______" = "AB" ∧
      ∀ pool, ¬ OpensExactly pool "ab______" (claimedWith "ab______") := by
  have hnorm : norm "ab______" = "AB" := by
    decide +kernel
  refine ⟨⟨_, rfl, Or.inl ?_⟩, hnorm, ?_⟩
  · decide +kernel
  · rintro pool ⟨hlong, _⟩
    rw [hnorm] at hlong
    exact absurd hlong (by decide)

theorem opensExactly_iff_correct_horse :
    OpensExactly {utf8Bytes "CORRECT-HORSE", utf8Bytes "BATTERY-STAPLE"} "correct-horse"
      (claimedWith "correct-horse") ↔ 8 ≤ (kept "correct-horse").length := by
  have hfree : Set.InjOn Primitives.blake3 {utf8Bytes "CORRECT-HORSE", utf8Bytes "BATTERY-STAPLE"} := by
    rw [Set.injOn_pair]
    intro h
    exact absurd h (by decide +kernel)
  have hacc : AcceptsCode unclaimedOwner (RpcState.drawAt (Instant.secs 0)) (claimWith "correct-horse")
      "correct-horse" (claimedWith "correct-horse") := by
    refine ⟨_, rfl, Or.inl ?_⟩
    decide +kernel
  have hnorm : norm "correct-horse" = "CORRECT-HORSE" := by
    decide +kernel
  refine opensExactly_iff uppercasesAscii_asciiUppercase hfree hacc ?_ ?_
  · decide +kernel
  · rw [hnorm]
    exact Set.mem_insert _ _

end TwoCodes

end OwnerState

end Node
end Thunderducks
