import Thunderducks.Lib.IpText

/-!
# IpRead — the text of a socket address is read back

Every reader is asked about a text with something after it, since that is how they call one another; what comes
next must not be more of the same.  `parse_text` puts them together: an address is read back, its flow
information apart.
-/

namespace Thunderducks
namespace Lib
namespace IpText

/-! ## Numbers -/

/-- The text does not go on with a digit. -/
def Ends (radix : Nat) (s : List Char) : Prop :=
  ∀ c ∈ s.head?, isDigit radix c = false

theorem ends_nil (radix : Nat) : Ends radix [] := by
  intro c hc
  cases hc

theorem ends_cons {radix : Nat} {c : Char} {s : List Char} (h : isDigit radix c = false) : Ends radix (c :: s) := by
  intro c' hc'
  cases hc'
  exact h

section Numbers

variable {b : Nat}

theorem digitValue_digitChar {d : Nat} (hd : d < b) (hb : b ≤ 16) : digitValue b (Nat.digitChar d) = some d := by
  unfold digitValue
  rw [Text.hexValue_digitChar d (Nat.lt_of_lt_of_le hd hb)]
  simp [hd]

theorem isDigit_digitChar {d : Nat} (hd : d < b) (hb : b ≤ 16) : isDigit b (Nat.digitChar d) = true := by
  unfold isDigit
  rw [digitValue_digitChar hd hb]
  rfl

theorem digitsValue_append (ds : List Char) (c : Char) :
    digitsValue b (ds ++ [c]) = digitsValue b ds * b + (digitValue b c).getD 0 := by
  unfold digitsValue
  rw [List.foldl_append]
  rfl

/-- A number is written in digits, and they are worth it. -/
theorem toDigits_spec (h1 : 1 < b) (h16 : b ≤ 16) (n : Nat) :
    (∀ c ∈ Nat.toDigits b n, isDigit b c = true) ∧ digitsValue b (Nat.toDigits b n) = n := by
  -- the last digit is split off
  induction n using Nat.strongRecOn with
  | ind n ih =>
    rw [Nat.toDigits_eq_if h1]
    by_cases hlt : n < b
    · rw [if_pos hlt]
      refine ⟨?_, ?_⟩
      · intro c hc
        rw [List.mem_singleton.1 hc]
        exact isDigit_digitChar hlt h16
      · have hone := digitsValue_append (b := b) [] (Nat.digitChar n)
        rw [List.nil_append, digitValue_digitChar hlt h16] at hone
        rw [hone]
        exact (congrArg (· + n) (Nat.zero_mul b)).trans (Nat.zero_add n)
    · rw [if_neg hlt]
      have hmod : n % b < b := Nat.mod_lt n (by omega)
      rcases ih (n / b) (Nat.div_lt_self (by omega) h1) with ⟨hdigits, hvalue⟩
      refine ⟨?_, ?_⟩
      · intro c hc
        rcases List.mem_append.1 hc with hc | hc
        · exact hdigits c hc
        · rw [List.mem_singleton.1 hc]
          exact isDigit_digitChar hmod h16
      · rw [digitsValue_append, hvalue, digitValue_digitChar hmod h16, Option.getD_some]
        exact Nat.div_add_mod' n b

/-- Only the number zero begins with a zero. -/
theorem toDigits_zero_head (h1 : 1 < b) (h16 : b ≤ 16) (n : Nat) (h : (Nat.toDigits b n).head? = some '0') :
    (Nat.toDigits b n).length = 1 := by
  have hzero : ∀ d < 16, Nat.digitChar d = '0' → d = 0 := by
    decide
  have hall : ∀ n, (Nat.toDigits b n).head? = some '0' → n = 0 := by
    intro n
    induction n using Nat.strongRecOn with
    | ind n ih =>
      intro h
      rw [Nat.toDigits_eq_if h1] at h
      by_cases hlt : n < b
      · rw [if_pos hlt] at h
        exact hzero n (Nat.lt_of_lt_of_le hlt h16) (Option.some.inj h)
      · rw [if_neg hlt, List.head?_append_of_ne_nil _ Nat.toDigits_ne_nil] at h
        have hdiv := ih (n / b) (Nat.div_lt_self (by omega) h1) h
        exact absurd hdiv (Nat.div_pos (Nat.le_of_not_lt hlt) (by omega)).ne'
  rw [hall n h, Nat.toDigits_zero]
  rfl

theorem takeWhile_toDigits (h1 : 1 < b) (h16 : b ≤ 16) (n : Nat) {rest : List Char} (hrest : Ends b rest) :
    (Nat.toDigits b n ++ rest).takeWhile (isDigit b) = Nat.toDigits b n ∧
      (Nat.toDigits b n ++ rest).dropWhile (isDigit b) = rest := by
  have hdigits := (toDigits_spec h1 h16 n).1
  rw [List.takeWhile_append_of_pos hdigits, List.dropWhile_append_of_pos hdigits]
  cases rest with
  | nil => simp
  | cons c rest =>
      have hc : isDigit b c = false := hrest c rfl
      simp [hc]

/-- A number in the reader's range is read, whatever ends it. -/
theorem readNumber_toDigits (maxDigits : Option Nat) (allowZeroPrefix : Bool) {bound n : Nat}
    {rest : List Char} (h1 : 1 < b) (h16 : b ≤ 16) (hbound : n < bound)
    (hmax : ∀ m ∈ maxDigits, (Nat.toDigits b n).length ≤ m) (hrest : Ends b rest) :
    readNumber b maxDigits allowZeroPrefix bound (Nat.toDigits b n ++ rest) = some (n, rest) := by
  rcases takeWhile_toDigits h1 h16 n hrest with ⟨htake, hdrop⟩
  have hshort : ¬ maxDigits.any (· < (Nat.toDigits b n).length) = true := by
    cases maxDigits with
    | none => simp
    | some m => simpa using hmax m rfl
  have hplain : ¬ (allowZeroPrefix = false ∧ (Nat.toDigits b n ++ rest).head? = some '0' ∧
      1 < (Nat.toDigits b n).length) := by
    rintro ⟨_, hhead, hlong⟩
    rw [List.head?_append_of_ne_nil _ Nat.toDigits_ne_nil] at hhead
    exact absurd (toDigits_zero_head h1 h16 n hhead) (by omega)
  unfold readNumber
  rw [htake, hdrop]
  dsimp only
  rw [if_neg Nat.toDigits_ne_nil, if_neg hshort, if_neg hplain, (toDigits_spec h1 h16 n).2, if_pos hbound]

/-- Where there is no digit there is no number. -/
theorem readNumber_ends {maxDigits : Option Nat} {allowZeroPrefix : Bool} {bound : Nat} {s : List Char}
    (hs : Ends b s) : readNumber b maxDigits allowZeroPrefix bound s = none := by
  have hnone : s.takeWhile (isDigit b) = [] := by
    cases s with
    | nil => rfl
    | cons c s =>
        have hc : isDigit b c = false := hs c rfl
        simp [hc]
  unfold readNumber
  rw [hnone]
  rfl

/-- What a number leaves is what follows its digits. -/
theorem readNumber_rest {maxDigits : Option Nat} {allowZeroPrefix : Bool} {bound n : Nat} {s rest : List Char}
    (h : readNumber b maxDigits allowZeroPrefix bound s = some (n, rest)) : rest = s.dropWhile (isDigit b) := by
  unfold readNumber at h
  dsimp only at h
  split at h
  · cases h
  split at h
  · cases h
  split at h
  · cases h
  split at h
  · cases h
    rfl
  · cases h

end Numbers

/-- A character that is no hexadecimal digit is no decimal one. -/
theorem Ends.decimal {s : List Char} (h : Ends 16 s) : Ends 10 s := by
  intro c hc
  have hhex := h c hc
  unfold isDigit digitValue at hhex ⊢
  cases hv : Text.hexValue c with
  | none => rfl
  | some v =>
      rw [hv] at hhex
      by_cases hlt : v < 16
      · simp [hlt] at hhex
      · have hten : ¬ v < 10 := by omega
        simp [hten]

/-! ## IPv4 addresses -/

@[simp] theorem readGivenChar_self (c : Char) (s : List Char) : readGivenChar c (c :: s) = some s :=
  if_pos rfl

theorem readOctet_decimal (n : UInt8) {rest : List Char} (hrest : Ends 10 rest) :
    readOctet (decimal n.toNat ++ rest) = some (n, rest) := by
  have hlt : n.toNat < 256 := n.toNat_lt
  have hlen : ∀ m ∈ some 3, (Nat.toDigits 10 n.toNat).length ≤ m := by
    intro m hm
    cases hm
    exact (Nat.length_toDigits_le_iff (by decide) (by decide)).2 (by omega)
  unfold readOctet decimal
  rw [readNumber_toDigits _ _ (by decide) (by decide) hlt hlen hrest]
  simp

theorem ends_dot (s : List Char) : Ends 10 ('.' :: s) :=
  ends_cons (by decide)

theorem readIpv4Addr_text (ip : Ipv4Addr) {rest : List Char} (hrest : Ends 10 rest) :
    readIpv4Addr (ip.text ++ rest) = some (ip, rest) := by
  unfold readIpv4Addr Ipv4Addr.text
  simp only [List.append_assoc, List.cons_append]
  rw [readOctet_decimal ip.a (ends_dot _)]
  simp only [Option.bind_eq_bind, Option.bind_some, readGivenChar_self]
  rw [readOctet_decimal ip.b (ends_dot _)]
  simp only [Option.bind_some, readGivenChar_self]
  rw [readOctet_decimal ip.c (ends_dot _)]
  simp only [Option.bind_some, readGivenChar_self]
  rw [readOctet_decimal ip.d hrest]
  rfl

/-- An IPv4 address goes on with a dot after its first digits. -/
theorem readIpv4Addr_none {s : List Char} (h : (s.dropWhile (isDigit 10)).head? ≠ some '.') :
    readIpv4Addr s = none := by
  unfold readIpv4Addr
  cases hoctet : readOctet s with
  | none => rfl
  | some first =>
      rcases first with ⟨a, rest⟩
      have hrest : rest = s.dropWhile (isDigit 10) := by
        unfold readOctet at hoctet
        rcases Option.bind_eq_some_iff.1 hoctet with ⟨⟨n, rest'⟩, hnumber, heq⟩
        cases heq
        exact readNumber_rest hnumber
      have hdot : readGivenChar '.' rest = none := by
        rw [hrest]
        cases hdrop : s.dropWhile (isDigit 10) with
        | nil => rfl
        | cons c t =>
            rw [hdrop] at h
            exact if_neg fun hc => h (congrArg some hc)
      simp only [Option.bind_eq_bind, Option.bind_some, hdot, Option.bind_none]

/-! ## Groups -/

theorem readGroup_hex (g : UInt16) {rest : List Char} (hrest : Ends 16 rest) :
    readGroup (hex g ++ rest) = some (g, rest) := by
  have hlt : g.toNat < 65536 := g.toNat_lt
  have hlen : ∀ m ∈ some 4, (Nat.toDigits 16 g.toNat).length ≤ m := by
    intro m hm
    cases hm
    exact (Nat.length_toDigits_le_iff (by decide) (by decide)).2 (by omega)
  unfold readGroup hex
  rw [readNumber_toDigits _ _ (by decide) (by decide) hlt hlen hrest]
  simp

/-- A text at which the groups end: no digit, no dot, and no colon with a group behind it. -/
structure Stops (s : List Char) : Prop where
  ends : Ends 16 s
  dot : s.head? ≠ some '.'
  colon : ∀ t, readGivenChar ':' s = some t → Ends 16 t ∧ t.head? ≠ some '.'

/-- No group is an IPv4 address. -/
theorem readIpv4Addr_hex (g : UInt16) {rest : List Char} (hends : Ends 16 rest) (hdot : rest.head? ≠ some '.') :
    readIpv4Addr (hex g ++ rest) = none := by
  refine readIpv4Addr_none ?_
  rw [List.dropWhile_append]
  split
  · -- the group is all decimal
    cases rest with
    | nil => simp
    | cons c rest =>
        have hc : isDigit 10 c = false := hends.decimal c rfl
        rw [List.dropWhile_cons_of_neg (by simp [hc])]
        exact hdot
  next hletter =>
    intro hhead
    rw [List.isEmpty_iff] at hletter
    rw [List.head?_append_of_ne_nil _ hletter] at hhead
    have hmem : '.' ∈ hex g :=
      (List.dropWhile_sublist (isDigit 10)).subset (List.mem_of_mem_head? hhead)
    have hdigit := (toDigits_spec (by decide) (by decide) g.toNat).1 '.' hmem
    exact absurd hdigit (by decide)

theorem readIpv4Addr_stops {s : List Char} (hends : Ends 16 s) (hdot : s.head? ≠ some '.') :
    readIpv4Addr s = none := by
  refine readIpv4Addr_none ?_
  cases s with
  | nil => simp
  | cons c s =>
      have hc : isDigit 10 c = false := hends.decimal c rfl
      rw [List.dropWhile_cons_of_neg (by simp [hc])]
      exact hdot

theorem readGroup_stops {s : List Char} (hends : Ends 16 s) : readGroup s = none := by
  unfold readGroup
  rw [readNumber_ends hends]
  rfl

/-- No groups are read where they end. -/
theorem readGroups_stops {s : List Char} (h : Stops s) (left : Nat) (first : Bool) :
    readGroups left first s = ([], false, s) := by
  have hboth : readSeparator ':' first readIpv4Addr s = none ∧ readSeparator ':' first readGroup s = none := by
    cases first with
    | true => exact ⟨readIpv4Addr_stops h.ends h.dot, readGroup_stops h.ends⟩
    | false =>
        unfold readSeparator
        cases hcolon : readGivenChar ':' s with
        | none => simp
        | some t =>
            rcases h.colon t hcolon with ⟨hends, hdot⟩
            simp [readIpv4Addr_stops hends hdot, readGroup_stops hends]
  cases left with
  | zero => rfl
  | succ left =>
      unfold readGroups
      rw [hboth.1, hboth.2, ite_self]

theorem ends_moreGroups (segments : List UInt16) {rest : List Char} (hends : Ends 16 rest)
    (hdot : rest.head? ≠ some '.') :
    Ends 16 (moreGroups segments ++ rest) ∧ (moreGroups segments ++ rest).head? ≠ some '.' := by
  cases segments with
  | nil => exact ⟨hends, hdot⟩
  | cons segment segments => exact ⟨ends_cons (by decide), by simp [moreGroups]⟩

/-- One more group is read. -/
theorem readGroups_hex (left : Nat) (first : Bool) (g : UInt16) (rest : List Char) (hends : Ends 16 rest)
    (hdot : rest.head? ≠ some '.') :
    readGroups (left + 1) first ((if first then [] else [':']) ++ hex g ++ rest) =
      (g :: (readGroups left false rest).1, (readGroups left false rest).2) := by
  have hsep : ∀ {α : Type} (inner : List Char → Option (α × List Char)),
      readSeparator ':' first inner ((if first then [] else [':']) ++ hex g ++ rest) = inner (hex g ++ rest) := by
    intro α inner
    cases first with
    | true => rfl
    | false => rfl
  rw [readGroups, hsep, hsep, readIpv4Addr_hex g hends hdot, ite_self, readGroup_hex g hends]

theorem readGroups_moreGroups (segments : List UInt16) : ∀ {left : Nat} {rest : List Char},
    segments.length ≤ left → Stops rest →
    readGroups left false (moreGroups segments ++ rest) = (segments, false, rest) := by
  induction segments with
  | nil =>
      intro left rest _ hrest
      exact readGroups_stops hrest left false
  | cons g segments ih =>
      intro left rest hleft hrest
      cases left with
      | zero => cases hleft
      | succ left =>
          rcases ends_moreGroups segments hrest.ends hrest.dot with ⟨hends, hdot⟩
          have hstep := readGroups_hex left false g _ hends hdot
          rw [ih (Nat.le_of_succ_le_succ hleft) hrest] at hstep
          have htext : moreGroups (g :: segments) ++ rest = [':'] ++ hex g ++ (moreGroups segments ++ rest) := by
            simp [moreGroups]
          rw [htext]
          exact hstep

/-- Groups are read back. -/
theorem readGroups_groups (segments : List UInt16) (left : Nat) {rest : List Char}
    (hleft : segments.length ≤ left) (hrest : Stops rest) :
    readGroups left true (groups segments ++ rest) = (segments, false, rest) := by
  cases segments with
  | nil => exact readGroups_stops hrest left true
  | cons g segments =>
      cases left with
      | zero => cases hleft
      | succ left =>
          rcases ends_moreGroups segments hrest.ends hrest.dot with ⟨hends, hdot⟩
          have hstep := readGroups_hex left true g _ hends hdot
          rw [readGroups_moreGroups segments (Nat.le_of_succ_le_succ hleft) hrest] at hstep
          rw [groups, List.append_assoc]
          exact hstep

/-! ## IPv6 addresses -/

/-- A run of zeros of a list. -/
def IsRun (segments : List UInt16) (span : Span) : Prop :=
  ∃ front tail, segments = front ++ (List.replicate span.len 0 ++ tail) ∧ front.length = span.start

/-- A run of zeros at the end of what has been looked at. -/
def IsCurrent (done : List UInt16) (span : Span) : Prop :=
  ∃ front, done = front ++ List.replicate span.len 0 ∧ (span.len ≠ 0 → front.length = span.start)

/-- The span that the loop ends with is a run of zeros. -/
theorem findZeroes_isRun (segments : List UInt16) : ∀ {done : List UInt16} {longest current : Span},
    IsRun (done ++ segments) longest → IsCurrent done current →
    IsRun (done ++ segments) (findZeroes longest current done.length segments) := by
  induction segments with
  | nil =>
      intro done longest current hlongest _
      exact hlongest
  | cons segment segments ih =>
      intro done longest current hlongest hcurrent
      have happ : done ++ segment :: segments = (done ++ [segment]) ++ segments := by
        simp
      have hlen : done.length + 1 = (done ++ [segment]).length := by
        simp
      rw [happ] at hlongest ⊢
      unfold findZeroes
      rw [hlen]
      split
      next hzero =>
        subst hzero
        rcases hcurrent with ⟨front, hdone, hstart⟩
        -- the run grows by one, or begins here
        obtain ⟨front', hfront, hstart'⟩ : ∃ front', done ++ [0] = front' ++ List.replicate (current.len + 1) 0 ∧
            front'.length = if current.len = 0 then done.length else current.start := by
          by_cases hempty : current.len = 0
          · refine ⟨done, ?_, ?_⟩
            · rw [hempty]
              rfl
            · rw [if_pos hempty]
          · refine ⟨front, ?_, ?_⟩
            · rw [hdone, List.replicate_succ', List.append_assoc]
            · rw [if_neg hempty]
              exact hstart hempty
        refine ih ?_ ⟨front', hfront, fun _ => hstart'⟩
        -- the longest so far, or the one it was
        by_cases hlonger : current.len + 1 > longest.len
        · rw [if_pos hlonger]
          refine ⟨front', segments, ?_, hstart'⟩
          rw [hfront, List.append_assoc]
        · rw [if_neg hlonger]
          exact hlongest
      · refine ih hlongest ⟨done ++ [segment], ?_, ?_⟩
        · exact (List.append_nil _).symm
        · intro h
          exact absurd rfl h

theorem Ipv6Addr.zeroes_isRun (ip : Ipv6Addr) : IsRun ip.segments ip.zeroes := by
  have hempty : IsRun ([] ++ ip.segments) { start := 0, len := 0 } := ⟨[], ip.segments, rfl, rfl⟩
  exact findZeroes_isRun ip.segments hempty ⟨[], rfl, fun h => absurd rfl h⟩

/-- What a run of zeros leaves is filled up again. -/
theorem filled_isRun {segments : List UInt16} {span : Span} (height : segments.length = 8)
    (h : IsRun segments span) :
    filled (segments.take span.start) (segments.drop (span.start + span.len)) = segments ∧
      (segments.take span.start).length + span.len + (segments.drop (span.start + span.len)).length = 8 := by
  rcases h with ⟨front, tail, hsplit, hstart⟩
  have htake : segments.take span.start = front := by
    rw [hsplit, ← hstart, List.take_left]
  have hdrop : segments.drop (span.start + span.len) = tail := by
    have hlen : span.start + span.len = (front ++ List.replicate span.len (0 : UInt16)).length := by
      rw [List.length_append, List.length_replicate, hstart]
    rw [hsplit, hlen, ← List.append_assoc, List.drop_left]
  rw [hsplit, List.length_append, List.length_append, List.length_replicate] at height
  rw [htake, hdrop]
  refine ⟨?_, by omega⟩
  unfold filled
  rw [show 8 - front.length - tail.length = span.len by omega, hsplit]

theorem fromBeBytes_bytes (segment : UInt16) : fromBeBytes (highByte segment) (lowByte segment) = segment := by
  have hlt : segment.toNat < 65536 := segment.toNat_lt
  have hhigh : (highByte segment).toNat = segment.toNat / 256 :=
    UInt8.toNat_ofNat_of_lt' (show segment.toNat / 256 < 256 by omega)
  have hlow : (lowByte segment).toNat = segment.toNat % 256 :=
    UInt8.toNat_ofNat_of_lt' (show segment.toNat % 256 < 256 by omega)
  unfold fromBeBytes
  rw [hhigh, hlow, Nat.div_add_mod', UInt16.ofNat_toNat]

/-- The groups of an address that stands for an IPv4 address. -/
theorem Ipv6Addr.segments_mapped {ip : Ipv6Addr} {ipv4 : Ipv4Addr} (h : ip.toIpv4Mapped = some ipv4) :
    ip.segments = filled [] [0xffff, fromBeBytes ipv4.a ipv4.b, fromBeBytes ipv4.c ipv4.d] := by
  unfold toIpv4Mapped at h
  split at h
  next x y hdrop =>
    split at h
    next htake =>
      cases h
      rw [fromBeBytes_bytes, fromBeBytes_bytes, ← List.take_append_drop 6 ip.segments, htake, hdrop]
      rfl
    · cases h
  · cases h

theorem stops_colons (s : List Char) : Stops (':' :: ':' :: s) := by
  refine ⟨ends_cons (by decide), by simp, ?_⟩
  intro t ht
  rw [readGivenChar_self] at ht
  cases ht
  exact ⟨ends_cons (by decide), by simp⟩

/-- The groups on both sides of `::` are read, and zeros between them. -/
theorem readIpv6Addr_colons (front : List UInt16) {tail : List UInt16} {s rest : List Char} {ipv4 : Bool}
    (hroom : front.length + tail.length ≤ 8) (hshort : front.length < 8)
    (htail : readGroups (8 - (front.length + 1)) true s = (tail, ipv4, rest)) :
    readIpv6Addr (groups front ++ ':' :: ':' :: s) =
      some ({ segments := filled front tail, eight := length_filled hroom }, rest) := by
  have hhead : readGroups 8 true (groups front ++ ':' :: ':' :: s) = (front, false, ':' :: ':' :: s) :=
    readGroups_groups front 8 (Nat.le_of_lt hshort) (stops_colons s)
  unfold readIpv6Addr
  simp only [hhead, dif_neg (Nat.ne_of_lt hshort), Bool.false_eq_true, if_false, Option.bind_eq_bind,
    readGivenChar_self, Option.bind_some, htail]

/-- An IPv4 address in the place of the last two groups. -/
theorem readGroups_ipv4 (left : Nat) (ipv4 : Ipv4Addr) {rest : List Char} (hrest : Ends 10 rest) :
    readGroups (left + 2) false (':' :: (ipv4.text ++ rest)) =
      ([fromBeBytes ipv4.a ipv4.b, fromBeBytes ipv4.c ipv4.d], true, rest) := by
  have hread : readSeparator ':' false readIpv4Addr (':' :: (ipv4.text ++ rest)) = some (ipv4, rest) := by
    unfold readSeparator
    rw [if_neg Bool.false_ne_true, readGivenChar_self]
    exact readIpv4Addr_text ipv4 hrest
  rw [readGroups, if_pos (Nat.le_add_left 1 left), hread]

theorem readIpv6Addr_text (ip : Ipv6Addr) {rest : List Char} (hrest : Stops rest) :
    readIpv6Addr (ip.text ++ rest) = some (ip, rest) := by
  -- two addresses with the same groups are one
  have hsame : ∀ {segments : List UInt16} (height : segments.length = 8), segments = ip.segments →
      some ((⟨segments, height⟩ : Ipv6Addr), rest) = some (ip, rest) := by
    rintro _ _ rfl
    rfl
  unfold Ipv6Addr.text
  split
  next ipv4 hmapped =>
    -- ::ffff: and an IPv4 address
    have hone := readGroups_hex 6 true 0xffff (':' :: (ipv4.text ++ rest)) (ends_cons (by decide)) (by simp)
    rw [readGroups_ipv4 4 ipv4 hrest.ends.decimal] at hone
    have hffff : hex 0xffff = "ffff".toList := by
      decide
    calc
      readIpv6Addr ("::ffff:".toList ++ ipv4.text ++ rest)
          = readIpv6Addr (groups [] ++ ':' :: ':' :: ([] ++ hex 0xffff ++ ':' :: (ipv4.text ++ rest))) := by
            rw [hffff]
            simp [groups]
      _ = some (⟨filled [] _, _⟩, rest) := readIpv6Addr_colons [] (by simp) (by simp) hone
      _ = some (ip, rest) := hsame _ (ip.segments_mapped hmapped).symm
  · dsimp only
    rcases filled_isRun ip.eight ip.zeroes_isRun with ⟨hfilled, hlen⟩
    split
    next hlong =>
      have htail := readGroups_groups (ip.segments.drop (ip.zeroes.start + ip.zeroes.len))
        (8 - ((ip.segments.take ip.zeroes.start).length + 1)) (by omega) hrest
      rw [List.append_assoc]
      calc
        readIpv6Addr (groups _ ++ ':' :: ':' :: (groups _ ++ rest))
            = some (⟨filled _ _, _⟩, rest) := readIpv6Addr_colons _ (by omega) (by omega) htail
        _ = some (ip, rest) := hsame _ hfilled
    · -- all eight groups
      have hhead := readGroups_groups ip.segments 8 (Nat.le_of_eq ip.eight) hrest
      unfold readIpv6Addr
      simp only [hhead, dif_pos ip.eight]

/-! ## Socket addresses -/

/-- The address as its text shows it. -/
def SocketAddr.shown : SocketAddr → SocketAddr
  | .v4 ip port => .v4 ip port
  | .v6 ip port _ scopeId => .v6 ip port 0 scopeId

theorem readPort_decimal (port : UInt16) : readPort (':' :: decimal port.toNat) = some (port, []) := by
  have hnumber := readNumber_toDigits none true (b := 10) (by decide)
    (by decide) port.toNat_lt (by simp) (ends_nil 10)
  rw [List.append_nil] at hnumber
  unfold readPort decimal
  rw [readGivenChar_self]
  simp only [Option.bind_eq_bind, Option.bind_some, show 65536 = 2 ^ 16 from rfl, hnumber, UInt16.ofNat_toNat]

theorem readScopeId_text (scopeId : UInt32) (rest : List Char) :
    (readScopeId ((if scopeId = 0 then [] else '%' :: decimal scopeId.toNat) ++ ']' :: rest)).getD
        (0, (if scopeId = 0 then [] else '%' :: decimal scopeId.toNat) ++ ']' :: rest) =
      (scopeId, ']' :: rest) := by
  by_cases hzero : scopeId = 0
  · rw [if_pos hzero, hzero]
    rfl
  · have hnumber := readNumber_toDigits none true (b := 10) (by decide)
      (by decide) scopeId.toNat_lt (by simp) (ends_cons (by decide) : Ends 10 (']' :: rest))
    rw [if_neg hzero, List.cons_append]
    unfold readScopeId decimal
    rw [readGivenChar_self]
    simp only [Option.bind_eq_bind, Option.bind_some, show 4294967296 = 2 ^ 32 from rfl, hnumber,
      UInt32.ofNat_toNat, Option.getD_some]

theorem stops_scopeId (scopeId : UInt32) (rest : List Char) :
    Stops ((if scopeId = 0 then [] else '%' :: decimal scopeId.toNat) ++ ']' :: rest) := by
  split
  · refine ⟨ends_cons (by decide), by simp, ?_⟩
    intro t ht
    cases ht
  · refine ⟨ends_cons (by decide), by simp, ?_⟩
    intro t ht
    cases ht

/-- Every socket address is read back from its text, but for its flow information. -/
theorem parse_text (addr : SocketAddr) : SocketAddr.parse addr.text = some addr.shown := by
  cases addr with
  | v4 ip port =>
      have hread : readSocketAddrV4 (SocketAddr.v4 ip port).text = some (.v4 ip port, []) := by
        unfold readSocketAddrV4 SocketAddr.text SocketAddr.hostText
        rw [readIpv4Addr_text ip (ends_cons (by decide))]
        simp only [Option.bind_eq_bind, Option.bind_some, SocketAddr.port, readPort_decimal]
      unfold SocketAddr.parse
      rw [hread]
      rfl
  | v6 ip port flowinfo scopeId =>
      have htext : (SocketAddr.v6 ip port flowinfo scopeId).text =
          '[' :: (ip.text ++ ((if scopeId = 0 then [] else '%' :: decimal scopeId.toNat) ++
            ']' :: (':' :: decimal port.toNat))) := by
        unfold SocketAddr.text SocketAddr.hostText
        simp [SocketAddr.port]
      -- no IPv4 address begins with a bracket
      have hv4 : readSocketAddrV4 (SocketAddr.v6 ip port flowinfo scopeId).text = none := by
        unfold readSocketAddrV4
        rw [htext, readIpv4Addr_stops (ends_cons (by decide)) (by simp)]
        rfl
      have hv6 : readSocketAddrV6 (SocketAddr.v6 ip port flowinfo scopeId).text =
          some (.v6 ip port 0 scopeId, []) := by
        unfold readSocketAddrV6
        rw [htext, readGivenChar_self]
        simp only [Option.bind_eq_bind, Option.bind_some, readIpv6Addr_text ip (stops_scopeId scopeId _),
          readScopeId_text, readGivenChar_self, readPort_decimal]
      unfold SocketAddr.parse
      rw [hv4, hv6]
      rfl

/-! ## Addresses without brackets -/

/-- Groups are no IPv4 address. -/
theorem readIpv4Addr_groups (segments : List UInt16) {rest : List Char} (hends : Ends 16 rest)
    (hdot : rest.head? ≠ some '.') : readIpv4Addr (groups segments ++ rest) = none := by
  cases segments with
  | nil => exact readIpv4Addr_stops hends hdot
  | cons g segments =>
      rcases ends_moreGroups segments hends hdot with ⟨hmore, hmoredot⟩
      rw [groups, List.append_assoc]
      exact readIpv4Addr_hex g hmore hmoredot

theorem bracket_not_mem_groups (segments : List UInt16) : '[' ∉ groups segments := by
  have hhex : ∀ g : UInt16, '[' ∉ hex g := by
    intro g hg
    have hdigit := (toDigits_spec (by decide) (by decide) g.toNat).1 '[' hg
    exact absurd hdigit (by decide)
  cases segments with
  | nil => simp [groups]
  | cons g segments => simp [groups, moreGroups, hhex]

/-- The text of an IPv6 address begins with groups, and a colon follows them. -/
theorem Ipv6Addr.text_groups (ip : Ipv6Addr) (rest : List Char) :
    ∃ front after, ip.text ++ ':' :: rest = groups front ++ ':' :: after := by
  unfold Ipv6Addr.text
  split
  next ipv4 _ => exact ⟨[], ":ffff:".toList ++ ipv4.text ++ ':' :: rest, by simp [groups]⟩
  · dsimp only
    split
    · refine ⟨ip.segments.take ip.zeroes.start,
        ':' :: (groups (ip.segments.drop (ip.zeroes.start + ip.zeroes.len)) ++ ':' :: rest), ?_⟩
      simp
    · exact ⟨ip.segments, rest, rfl⟩

/-- An IPv6 address without brackets is no socket address, whatever follows its colon. -/
theorem parse_ipv6_text (ip : Ipv6Addr) (rest : List Char) : SocketAddr.parse (ip.text ++ ':' :: rest) = none := by
  rcases ip.text_groups rest with ⟨front, after, htext⟩
  have hv4 : readSocketAddrV4 (groups front ++ ':' :: after) = none := by
    unfold readSocketAddrV4
    rw [readIpv4Addr_groups front (ends_cons (by decide)) (by simp)]
    rfl
  have hbracket : readGivenChar '[' (groups front ++ ':' :: after) = none := by
    cases hfront : groups front with
    | nil => rfl
    | cons c cs =>
        have hc : c ≠ '[' := by
          rintro rfl
          exact bracket_not_mem_groups front (by simp [hfront])
        exact if_neg hc
  have hv6 : readSocketAddrV6 (groups front ++ ':' :: after) = none := by
    unfold readSocketAddrV6
    rw [hbracket]
    rfl
  unfold SocketAddr.parse
  rw [htext, hv4, hv6]
  rfl

end IpText
end Lib
end Thunderducks
