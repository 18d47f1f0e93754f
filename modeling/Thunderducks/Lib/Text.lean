import Mathlib.Data.List.DropRight
import Thunderducks.Lib.Json

/-!
# Text — the string operations of the standard library

Strings are taken apart as lists of characters.  White space is Unicode's `White_Space`; the ASCII
case operations leave every other character alone.
-/

namespace Thunderducks
namespace Lib
namespace Text

/-! ## Trimming -/

/-- `char::is_whitespace`. -/
def isWhitespace (c : Char) : Bool :=
  let n := c.toNat
  (9 ≤ n && n ≤ 13) || n = 32 || n = 0x85 || n = 0xA0 || n = 0x1680 ||
    (0x2000 ≤ n && n ≤ 0x200A) || n = 0x2028 || n = 0x2029 || n = 0x202F || n = 0x205F ||
    n = 0x3000

/-- `str::trim`. -/
def trim (s : String) : String :=
  String.ofList ((s.toList.dropWhile isWhitespace).rdropWhile isWhitespace)

/-- `str::trim` followed by `filter(|s| !s.is_empty())`. -/
def trimmed (s : String) : Option String :=
  let t := trim s
  if t = "" then none else some t

/-- `str::trim_start_matches` at a character. -/
def trimStartMatches (c : Char) (s : String) : String :=
  String.ofList (s.toList.dropWhile fun x => x = c)

/-- `str::trim_end_matches` at a character. -/
def trimEndMatches (c : Char) (s : String) : String :=
  String.ofList (s.toList.rdropWhile fun x => x = c)

/-- White space only stands at the ends to be trimmed. -/
theorem trim_eq_self {s : String} {l : List Char} {a b : Char} (hhead : s.toList.head? = some a)
    (hlast : s.toList = l ++ [b]) (ha : isWhitespace a = false) (hb : isWhitespace b = false) :
    trim s = s := by
  have hdrop : s.toList.dropWhile isWhitespace = s.toList := by
    rcases List.head?_eq_some_iff.1 hhead with ⟨t, ht⟩
    rw [ht, List.dropWhile_cons_of_neg (by simp [ha])]
  unfold trim
  rw [hdrop, hlast, List.rdropWhile_concat_neg _ _ _ (by simp [hb]), ← hlast, String.ofList_toList]

/-- All that is trimmed is the white space around a text without any. -/
theorem trim_padded {s : String} {before after : List Char} (hs : ∀ c ∈ s.toList, isWhitespace c = false)
    (hbefore : ∀ c ∈ before, isWhitespace c = true) (hafter : ∀ c ∈ after, isWhitespace c = true) :
    trim (String.ofList (before ++ (s.toList ++ after))) = s := by
  have hrear : (s.toList ++ after).rdropWhile isWhitespace = s.toList := by
    unfold List.rdropWhile
    rw [List.reverse_append, List.dropWhile_append_of_pos (by simpa using hafter)]
    have hnone : s.toList.reverse.dropWhile isWhitespace = s.toList.reverse := by
      cases hr : s.toList.reverse with
      | nil => rfl
      | cons c t =>
          have hc : c ∈ s.toList := List.mem_reverse.1 (by rw [hr]; exact List.mem_cons_self)
          exact List.dropWhile_cons_of_neg (by simp [hs c hc])
    rw [hnone, List.reverse_reverse]
  unfold trim
  rw [String.toList_ofList, List.dropWhile_append_of_pos hbefore]
  cases hl : s.toList with
  | nil =>
      -- nothing but white space
      have hempty : after.dropWhile isWhitespace = [] := by
        simpa using hafter
      rw [List.nil_append, hempty, List.rdropWhile_nil]
      exact (String.toList_eq_nil_iff.1 hl).symm
  | cons c t =>
      have hc : ¬ isWhitespace c = true := by
        simp [hs c (by rw [hl]; exact List.mem_cons_self)]
      rw [List.cons_append, List.dropWhile_cons_of_neg hc, ← List.cons_append, ← hl, hrear, String.ofList_toList]

theorem dropWhile_absent {c : Char} {l : List Char} (h : c ∉ l) : l.dropWhile (fun x => x = c) = l := by
  cases l with
  | nil => rfl
  | cons a l =>
      have ha : a ≠ c := fun heq => h (heq ▸ List.mem_cons_self)
      simp [ha]

theorem rdropWhile_absent {c : Char} {l : List Char} (h : c ∉ l) : l.rdropWhile (fun x => x = c) = l := by
  refine List.rdropWhile_eq_self_iff.2 fun hl hlast => h ?_
  exact of_decide_eq_true hlast ▸ List.getLast_mem hl

/-- Where there are no brackets, none are trimmed off. -/
theorem trimMatches_bare {a b : Char} {l : List Char} (ha : a ∉ l) (hb : b ∉ l) :
    trimEndMatches b (trimStartMatches a (String.ofList l)) = String.ofList l := by
  unfold trimEndMatches trimStartMatches
  rw [String.toList_ofList, String.toList_ofList, dropWhile_absent ha, rdropWhile_absent hb]

/-- A pair of them is. -/
theorem trimMatches_enclosed {a b : Char} {l : List Char} (ha : a ∉ l) (hb : b ∉ l) (hne : a ≠ b) :
    trimEndMatches b (trimStartMatches a (String.ofList (a :: (l ++ [b])))) = String.ofList l := by
  have hfront : a ∉ l ++ [b] := by
    simp [ha, hne]
  unfold trimEndMatches trimStartMatches
  rw [String.toList_ofList, String.toList_ofList, List.dropWhile_cons_of_pos (by simp), dropWhile_absent hfront,
    List.rdropWhile_concat_pos _ _ _ (by simp), rdropWhile_absent hb]

theorem dropWhile_rdropWhile {α : Type} {p : α → Bool} {l : List α} (h : l.dropWhile p = l) :
    (l.rdropWhile p).dropWhile p = l.rdropWhile p := by
  cases hl : l.rdropWhile p with
  | nil => rfl
  | cons a t =>
      rcases List.rdropWhile_prefix p l with ⟨r, hr⟩
      rw [hl, List.cons_append] at hr
      -- the head is that of the list, which the first trimming has left
      have ha : ¬ p a = true := by
        intro hpa
        rw [← hr, List.dropWhile_cons_of_pos hpa] at h
        have hlen := congrArg List.length h
        have hle := (List.dropWhile_sublist (l := t ++ r) p).length_le
        rw [List.length_cons] at hlen
        omega
      exact List.dropWhile_cons_of_neg ha

@[simp] theorem trim_trim (s : String) : trim (trim s) = trim s := by
  unfold trim
  rw [String.toList_ofList, dropWhile_rdropWhile (List.dropWhile_idempotent _ _), List.rdropWhile_idempotent]

/-! ## Splitting -/

/-- `str::starts_with`. -/
def startsWith (p s : String) : Bool :=
  p.toList.isPrefixOf s.toList

/-- `str::strip_prefix`. -/
def stripPrefix (p s : String) : Option String :=
  if p.toList.isPrefixOf s.toList then
    some (String.ofList (s.toList.drop p.toList.length))
  else
    none

/-- `str::split_once` at the first `c`. -/
def splitOnce (c : Char) (s : List Char) : Option (List Char × List Char) :=
  match s.dropWhile (fun x => x ≠ c) with
  | [] => none
  | _ :: after => some (s.takeWhile (fun x => x ≠ c), after)

/-- `str::rsplit_once` at the last `c`. -/
def rsplitOnce (c : Char) (s : List Char) : Option (List Char × List Char) :=
  (splitOnce c s.reverse).map fun parts => (parts.2.reverse, parts.1.reverse)

theorem startsWith_append (p r : String) : startsWith p (p ++ r) = true := by
  simp [startsWith]

theorem startsWith_iff {p s : String} : startsWith p s = true ↔ ∃ r, s = p ++ r := by
  constructor
  · intro h
    rcases List.isPrefixOf_iff_prefix.1 h with ⟨l, hl⟩
    refine ⟨String.ofList l, ?_⟩
    rw [← String.toList_inj, String.toList_append, String.toList_ofList, hl]
  · rintro ⟨r, rfl⟩
    exact startsWith_append p r

theorem stripPrefix_append (p r : String) : stripPrefix p (p ++ r) = some r := by
  simp [stripPrefix]

theorem splitOnce_append {c : Char} {l : List Char} (r : List Char) (h : c ∉ l) :
    splitOnce c (l ++ c :: r) = some (l, r) := by
  have hall : ∀ x ∈ l, decide (x ≠ c) = true := by
    intro x hx
    refine decide_eq_true ?_
    rintro rfl
    exact h hx
  have htake : (l ++ c :: r).takeWhile (fun x => x ≠ c) = l := by
    rw [List.takeWhile_append_of_pos hall]
    simp
  have hdrop : (l ++ c :: r).dropWhile (fun x => x ≠ c) = c :: r := by
    rw [List.dropWhile_append_of_pos hall]
    simp
  unfold splitOnce
  rw [hdrop, htake]

theorem rsplitOnce_append {c : Char} (l : List Char) {r : List Char} (h : c ∉ r) :
    rsplitOnce c (l ++ c :: r) = some (l, r) := by
  have hrev : (l ++ c :: r).reverse = r.reverse ++ c :: l.reverse := by
    simp
  unfold rsplitOnce
  rw [hrev, splitOnce_append l.reverse (by simpa using h)]
  simp

/-- `str::split` at every `c`. -/
def split (c : Char) (s : String) : List String :=
  (s.toList.splitOn c).map String.ofList

/-! ## ASCII case -/

/-- `str::to_ascii_uppercase`. -/
def toAsciiUppercase (s : String) : String :=
  String.ofList (s.toList.map Char.toUpper)

/-- `str::to_ascii_lowercase`. -/
def toAsciiLowercase (s : String) : String :=
  String.ofList (s.toList.map Char.toLower)

/-- `str::eq_ignore_ascii_case`. -/
def eqIgnoreAsciiCase (s t : String) : Bool :=
  toAsciiUppercase s = toAsciiUppercase t

/-! ## Numbers -/

/-- Decimal digits, most significant first; `none` at any other character. -/
def digits (s : List Char) : Option Nat :=
  if s ≠ [] ∧ s.all Char.isDigit then
    some (s.foldl (fun n c => n * 10 + (c.toNat - 48)) 0)
  else
    none

/-- `u16::from_str`: an optional plus sign, then digits. -/
def parseU16 (s : List Char) : Option UInt16 :=
  let body := if s.head? = some '+' then s.tail else s
  match digits body with
  | none => none
  | some n => if n < 65536 then some (UInt16.ofNat n) else none

theorem isWhitespace_of_isDigit {c : Char} (h : c.isDigit = true) : isWhitespace c = false := by
  have hc : 48 ≤ c.toNat ∧ c.toNat ≤ 57 := by
    simp only [Char.isDigit, Bool.and_eq_true, decide_eq_true_eq, ge_iff_le,
      UInt32.le_iff_toNat_le] at h
    exact h
  simp only [isWhitespace, Bool.or_eq_false_iff, Bool.and_eq_false_iff, decide_eq_false_iff_not]
  omega

/-- A number as `format!` writes it. -/
def decimal (n : Nat) : String :=
  String.ofList (Nat.toDigits 10 n)

theorem isDigit_of_mem_decimal {n : Nat} {c : Char} (h : c ∈ (decimal n).toList) : c.isDigit = true := by
  rw [decimal, String.toList_ofList] at h
  exact Nat.isDigit_of_mem_toDigits (by decide) (by decide) h

theorem digits_decimal (n : Nat) : digits (decimal n).toList = some n := by
  have hne : (decimal n).toList ≠ [] := by
    simp [decimal, Nat.toDigits_ne_nil]
  have hall : (decimal n).toList.all Char.isDigit = true :=
    List.all_eq_true.2 fun c hc => isDigit_of_mem_decimal hc
  have hfold : (decimal n).toList.foldl (fun n c => n * 10 + (c.toNat - 48)) 0 =
      Nat.ofDigitChars 10 (Nat.toDigits 10 n) 0 := by
    simp [decimal, Nat.ofDigitChars, Nat.mul_comm]
  rw [digits, if_pos ⟨hne, hall⟩, hfold, Nat.ofDigitChars_ten_toDigits]

theorem parseU16_decimal (n : UInt16) : parseU16 (decimal n.toNat).toList = some n := by
  have hplus : (decimal n.toNat).toList.head? ≠ some '+' := by
    intro h
    have hdigit := isDigit_of_mem_decimal (List.mem_of_mem_head? h)
    exact absurd hdigit (by decide)
  unfold parseU16
  dsimp only
  rw [if_neg hplus, digits_decimal]
  simp only [if_pos n.toNat_lt, UInt16.ofNat_toNat]

/-! ## Hexadecimal -/

def hexValue (c : Char) : Option Nat :=
  if '0' ≤ c ∧ c ≤ '9' then some (c.toNat - 48)
  else if 'a' ≤ c ∧ c ≤ 'f' then some (c.toNat - 87)
  else if 'A' ≤ c ∧ c ≤ 'F' then some (c.toNat - 55)
  else none

/-- `hex::encode`. -/
def hexEncode (bs : Bytes) : String :=
  String.ofList (bs.flatMap fun b =>
    [Nat.digitChar (b.toNat / 16), Nat.digitChar (b.toNat % 16)])

/-- `hex::decode`: pairs of digits of either case. -/
def hexDecode : List Char → Option Bytes
  | [] => some []
  | [_] => none
  | hi :: lo :: rest =>
      match hexValue hi, hexValue lo, hexDecode rest with
      | some a, some b, some bs => some (UInt8.ofNat (16 * a + b) :: bs)
      | _, _, _ => none

theorem hexValue_digitChar : ∀ n < 16, hexValue (Nat.digitChar n) = some n := by
  decide

/-- `hex::decode` reads what `hex::encode` writes. -/
theorem hexDecode_hexEncode (bs : Bytes) : hexDecode (hexEncode bs).toList = some bs := by
  unfold hexEncode
  rw [String.toList_ofList]
  induction bs with
  | nil => rfl
  | cons b bs ih =>
      have hlow : b.toNat % 16 < 16 := Nat.mod_lt _ (by decide)
      have hhigh : b.toNat / 16 < 16 := by
        have := b.toNat_lt
        omega
      have hbyte : UInt8.ofNat (16 * (b.toNat / 16) + b.toNat % 16) = b := by
        rw [Nat.div_add_mod]
        exact UInt8.ofNat_toNat
      rw [List.flatMap_cons, List.cons_append, List.cons_append, List.nil_append]
      unfold hexDecode
      rw [hexValue_digitChar _ hhigh, hexValue_digitChar _ hlow, ih]
      dsimp only
      rw [hbyte]

theorem length_hexEncode (bs : Bytes) : (hexEncode bs).toList.length = 2 * bs.length := by
  unfold hexEncode
  rw [String.toList_ofList]
  induction bs with
  | nil => rfl
  | cons b bs ih =>
      rw [List.flatMap_cons, List.length_append, ih, List.length_cons, List.length_cons, List.length_cons,
        List.length_nil]
      omega

/-- Only digits are written. -/
theorem mem_hexEncode {bs : Bytes} {c : Char} (h : c ∈ (hexEncode bs).toList) : ∃ n < 16, c = Nat.digitChar n := by
  unfold hexEncode at h
  rw [String.toList_ofList] at h
  rcases List.mem_flatMap.1 h with ⟨b, _, hb⟩
  have hlt := b.toNat_lt
  rcases List.mem_cons.1 hb with rfl | hb
  · exact ⟨b.toNat / 16, by omega, rfl⟩
  · exact ⟨b.toNat % 16, by omega, List.mem_singleton.1 hb⟩

/-- They are no white space, and in lower case. -/
theorem isWhitespace_hexEncode {bs : Bytes} : ∀ c ∈ (hexEncode bs).toList, isWhitespace c = false := by
  intro c hc
  rcases mem_hexEncode hc with ⟨n, hn, rfl⟩
  have hdigit : ∀ n < 16, isWhitespace (Nat.digitChar n) = false := by decide
  exact hdigit n hn

theorem hexEncode_injective : Function.Injective hexEncode := by
  intro a b h
  have hread := hexDecode_hexEncode a
  rw [h, hexDecode_hexEncode] at hread
  exact (Option.some.inj hread).symm

end Text
end Lib
end Thunderducks
