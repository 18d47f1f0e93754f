import Mathlib.Data.List.Basic

/-!
# Replace — replacing and trimming a pattern

`replace pat rep` replaces every occurrence of `pat`, from left to right and without overlaps, as
`str::replace` does; `trimStart pat` drops as many copies of `pat` from the front as there are, as
`str::trim_start_matches` does.  Both walk over the text once and count what is left of the copy they are in.
A pattern and a replacement that begin alike leave the beginning of the text readable:
`prefix_replace_iff`, `takeWhile_replace`.
-/

namespace Thunderducks
namespace Lib
namespace Replace

variable {α : Type} [DecidableEq α] {pat rep s l : List α} {a c : α}

/-! ## Replacing -/

/-- Replaces after the next `n` elements, which are dropped. -/
def replaceFrom (pat rep : List α) : Nat → List α → List α
  | _, [] => []
  | n + 1, _ :: s => replaceFrom pat rep n s
  | 0, a :: s =>
      if pat <+: a :: s then
        rep ++ replaceFrom pat rep (pat.length - 1) s
      else
        a :: replaceFrom pat rep 0 s

/-- `str::replace`, for a pattern that is not empty. -/
def replace (pat rep s : List α) : List α :=
  replaceFrom pat rep 0 s

@[simp] theorem replace_nil : replace pat rep [] = [] :=
  rfl

theorem replaceFrom_eq (n : Nat) : ∀ s : List α, replaceFrom pat rep n s = replace pat rep (s.drop n) := by
  induction n with
  | zero =>
      intro s
      rfl
  | succ n ih =>
      intro s
      cases s with
      | nil => rfl
      | cons a s => exact ih s

theorem replace_cons (h : ¬ pat <+: a :: s) : replace pat rep (a :: s) = a :: replace pat rep s := by
  unfold replace
  rw [replaceFrom, if_neg h]

theorem replace_append (hpat : pat ≠ []) (s : List α) :
    replace pat rep (pat ++ s) = rep ++ replace pat rep s := by
  cases pat with
  | nil => exact absurd rfl hpat
  | cons a pat =>
      have hpre : a :: pat <+: a :: (pat ++ s) := List.prefix_append (a :: pat) s
      have hstep : replace (a :: pat) rep (a :: (pat ++ s)) =
          rep ++ replaceFrom (a :: pat) rep pat.length (pat ++ s) := by
        unfold replace
        rw [replaceFrom, if_pos hpre]
        rfl
      rw [List.cons_append, hstep, replaceFrom_eq, List.drop_left]

/-- What the pattern does not begin with is passed over. -/
theorem replace_append_left (hpat : pat.head? = some a) (hl : a ∉ l) (s : List α) :
    replace pat rep (l ++ s) = l ++ replace pat rep s := by
  induction l with
  | nil => rfl
  | cons b l ih =>
      have hne : ¬ pat <+: b :: (l ++ s) := by
        rintro ⟨t, ht⟩
        rcases List.head?_eq_some_iff.1 hpat with ⟨p, rfl⟩
        rw [List.cons_append] at ht
        exact hl (List.mem_cons.2 (Or.inl (List.cons.inj ht).1))
      rw [List.cons_append, replace_cons hne, ih fun h => hl (List.mem_cons_of_mem _ h), List.cons_append]

/-- A text is empty, begins with the pattern, or begins with something else. -/
theorem replace_cases (hpat : pat ≠ []) (rep s : List α) :
    s = [] ∨ (∃ t, s = pat ++ t ∧ replace pat rep s = rep ++ replace pat rep t) ∨
      ∃ a t, s = a :: t ∧ replace pat rep s = a :: replace pat rep t := by
  cases s with
  | nil => exact Or.inl rfl
  | cons a t =>
      by_cases hpre : pat <+: a :: t
      · rcases hpre with ⟨u, hu⟩
        refine Or.inr (Or.inl ⟨u, hu.symm, ?_⟩)
        rw [← hu, replace_append hpat]
      · exact Or.inr (Or.inr ⟨a, t, rfl, replace_cons hpre⟩)

/-- What lacks the element that pattern and replacement begin with is there before if it is there after. -/
theorem prefix_replace_iff (hpat : pat.head? = some a) (hrep : rep.head? = some a) :
    ∀ {l s : List α}, a ∉ l → (l <+: replace pat rep s ↔ l <+: s) := by
  rcases List.head?_eq_some_iff.1 hpat with ⟨p, rfl⟩
  rcases List.head?_eq_some_iff.1 hrep with ⟨r, rfl⟩
  intro l
  induction l with
  | nil =>
      intro s _
      simp
  | cons b l ih =>
      intro s hl
      have hne : b ≠ a := fun h => hl (List.mem_cons.2 (Or.inl h.symm))
      rcases replace_cases (List.cons_ne_nil a p) (a :: r) s with rfl | ⟨t, rfl, ht⟩ | ⟨c, t, rfl, ht⟩
      · simp
      · -- both texts begin with `a`, which `b` is not
        rw [ht]
        simp [hne]
      · rw [ht, List.cons_prefix_cons, List.cons_prefix_cons, ih fun h => hl (List.mem_cons_of_mem _ h)]

/-- Up to an element in what pattern and replacement share at their beginning nothing changes. -/
theorem takeWhile_replace {p q r : List α} (s : List α) :
    (replace (p ++ c :: q) (p ++ c :: r) s).takeWhile (fun x => x ≠ c) = s.takeWhile fun x => x ≠ c := by
  have hstop : ∀ {p t u : List α}, (p ++ c :: t).takeWhile (fun x => x ≠ c) =
      (p ++ c :: u).takeWhile fun x => x ≠ c := by
    intro p t u
    induction p with
    | nil => simp
    | cons b p ih => rw [List.cons_append, List.cons_append, List.takeWhile_cons, List.takeWhile_cons, ih]
  induction s with
  | nil => rfl
  | cons b s ih =>
      have hne : p ++ c :: q ≠ [] := by
        simp
      rcases replace_cases hne (p ++ c :: r) (b :: s) with h | ⟨t, hs, ht⟩ | ⟨b', t, hs, ht⟩
      · cases h
      · rw [ht, hs, List.append_assoc, List.append_assoc]
        exact hstop
      · cases hs
        rw [ht, List.takeWhile_cons, List.takeWhile_cons, ih]

/-! ## Up to an element -/

theorem takeWhile_eq_iff (hl : c ∉ l) :
    s.takeWhile (fun x => x ≠ c) = l ↔ ∃ rest, s = l ++ rest ∧ (rest = [] ∨ ∃ t, rest = c :: t) := by
  constructor
  · intro h
    refine ⟨s.dropWhile fun x => x ≠ c, ?_, ?_⟩
    · rw [← h, List.takeWhile_append_dropWhile]
    · cases hd : s.dropWhile fun x => x ≠ c with
      | nil => exact Or.inl rfl
      | cons b t =>
          have hb := List.head?_dropWhile_not (fun x => x ≠ c) s
          rw [hd] at hb
          refine Or.inr ⟨t, ?_⟩
          simpa using hb
  · rintro ⟨rest, rfl, hrest⟩
    have hall : ∀ x ∈ l, decide (x ≠ c) = true := by
      intro x hx
      refine decide_eq_true ?_
      rintro rfl
      exact hl hx
    rw [List.takeWhile_append_of_pos hall]
    rcases hrest with rfl | ⟨t, rfl⟩
    · simp
    · simp

theorem takeWhile_eq_nil_iff :
    s.takeWhile (fun x => x ≠ c) = [] ↔ s = [] ∨ ∃ t, s = c :: t := by
  rw [takeWhile_eq_iff List.not_mem_nil]
  simp

/-! ## Trimming -/

/-- Trims after the next `n` elements, which are dropped. -/
def trimFrom (pat : List α) : Nat → List α → List α
  | _, [] => []
  | n + 1, _ :: s => trimFrom pat n s
  | 0, a :: s => if pat <+: a :: s then trimFrom pat (pat.length - 1) s else a :: s

/-- `str::trim_start_matches`, for a pattern that is not empty. -/
def trimStart (pat s : List α) : List α :=
  trimFrom pat 0 s

theorem trimFrom_eq (n : Nat) : ∀ s : List α, trimFrom pat n s = trimStart pat (s.drop n) := by
  induction n with
  | zero =>
      intro s
      rfl
  | succ n ih =>
      intro s
      cases s with
      | nil => rfl
      | cons a s => exact ih s

theorem trimStart_of_not_begins (h : ¬ pat <+: s) : trimStart pat s = s := by
  cases s with
  | nil => rfl
  | cons a s =>
      unfold trimStart
      rw [trimFrom, if_neg h]

theorem trimStart_append (hpat : pat ≠ []) (s : List α) : trimStart pat (pat ++ s) = trimStart pat s := by
  cases pat with
  | nil => exact absurd rfl hpat
  | cons a pat =>
      have hpre : a :: pat <+: a :: (pat ++ s) := List.prefix_append (a :: pat) s
      have hstep : trimStart (a :: pat) (a :: (pat ++ s)) = trimFrom (a :: pat) pat.length (pat ++ s) := by
        unfold trimStart
        rw [trimFrom, if_pos hpre]
        rfl
      rw [List.cons_append, hstep, trimFrom_eq, List.drop_left]

/-- `n` copies, then `s`. -/
def copies (pat : List α) (n : Nat) (s : List α) : List α :=
  (List.replicate n pat).flatten ++ s

omit [DecidableEq α] in
@[simp] theorem copies_zero : copies pat 0 s = s :=
  rfl

omit [DecidableEq α] in
theorem copies_succ (n : Nat) : copies pat (n + 1) s = pat ++ copies pat n s := by
  simp [copies, List.replicate_succ]

omit [DecidableEq α] in
theorem copies_succ' (n : Nat) : copies pat (n + 1) s = copies pat n (pat ++ s) := by
  simp [copies, List.replicate_succ']

omit [DecidableEq α] in
@[simp] theorem length_copies (n : Nat) : (copies pat n s).length = n * pat.length + s.length := by
  simp [copies]

theorem trimStart_copies (hpat : pat ≠ []) (hs : ¬ pat <+: s) (n : Nat) :
    trimStart pat (copies pat n s) = s := by
  induction n with
  | zero => exact trimStart_of_not_begins hs
  | succ n ih => rw [copies_succ, trimStart_append hpat, ih]

/-- Trimming takes whole copies, and all of them. -/
theorem exists_copies (hpat : pat ≠ []) (s : List α) :
    ∃ n, s = copies pat n (trimStart pat s) ∧ ¬ pat <+: trimStart pat s := by
  induction hn : s.length using Nat.strongRecOn generalizing s with
  | ind k ih =>
      by_cases hpre : pat <+: s
      · rcases hpre with ⟨t, rfl⟩
        have hlt : t.length < k := by
          have := List.length_pos_iff.2 hpat
          rw [← hn, List.length_append]
          omega
        rcases ih _ hlt t rfl with ⟨n, ht, hnot⟩
        refine ⟨n + 1, ?_, ?_⟩
        · rw [copies_succ, trimStart_append hpat, ← ht]
        · rwa [trimStart_append hpat]
      · refine ⟨0, ?_, ?_⟩
        · rw [trimStart_of_not_begins hpre, copies_zero]
        · rwa [trimStart_of_not_begins hpre]

end Replace
end Lib
end Thunderducks
