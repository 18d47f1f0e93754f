import Mathlib.Data.List.Basic
import Mathlib.Data.List.Perm.Basic
import Mathlib.Data.List.Nodup
import Mathlib.Data.List.Sort
import Mathlib.Data.List.TakeWhile

/-!
# Extension — orders of a finite set that respect a precedence

`r x y` says that `x` has to come before `y`.  A list respects `r` when no element stands after one
it has to precede.  In such a list the last element with a property is maximal among those that have
it (`Respects.last_maximal`), and every maximal element can be made the last one
(`Respects.postpone`).  A first part of an order can go on with any element that is left, once what has to come
before it has come, and be completed (`Initial.reach`, `Initial.complete`).  A list sorted by a key respects `r`,
whatever order its elements came in, exactly when the key grows along `r` (`sorted_respects_iff`).
-/

namespace Thunderducks
namespace Lib
namespace Extension

variable {α : Type}

/-- No element of the list stands after one it has to precede. -/
def Respects (r : α → α → Prop) (l : List α) : Prop :=
  l.Pairwise fun x y => ¬ r y x

/-- Some element has the property, so there is a last one that has it. -/
theorem exists_last (q : α → Prop) {l : List α} (h : ∃ x ∈ l, q x) :
    ∃ l₁ e l₂, l = l₁ ++ e :: l₂ ∧ q e ∧ ∀ y ∈ l₂, ¬ q y := by
  induction l with
  | nil =>
      rcases h with ⟨x, hx, _⟩
      cases hx
  | cons a l ih =>
      by_cases htail : ∃ x ∈ l, q x
      · rcases ih htail with ⟨l₁, e, l₂, rfl, he, hno⟩
        exact ⟨a :: l₁, e, l₂, rfl, he, hno⟩
      · push Not at htail
        rcases h with ⟨x, hx, hq⟩
        rcases List.mem_cons.1 hx with rfl | hx
        · exact ⟨[], x, l, rfl, hq, htail⟩
        · exact absurd hq (htail x hx)

/-- There is at most one list with given elements in which every one precedes all that follow it. -/
theorem eq_of_pairwise {r : α → α → Prop} (hasymm : ∀ x y, r x y → ¬ r y x) {l l' : List α}
    (h : l.Pairwise r) (h' : l'.Pairwise r) (hmem : ∀ x, x ∈ l ↔ x ∈ l') : l = l' := by
  have hne : ∀ {x y}, r x y → x ≠ y := by
    rintro x _ hr rfl
    exact hasymm x x hr hr
  have hnodup : l.Nodup := h.imp hne
  have hnodup' : l'.Nodup := h'.imp hne
  have hperm : l.Perm l' := (List.perm_ext_iff_of_nodup hnodup hnodup').2 hmem
  refine List.Perm.eq_of_pairwise ?_ h h' hperm
  intro x y _ _ hxy hyx
  exact absurd hyx (hasymm x y hxy)

namespace Respects

variable {r : α → α → Prop} {l l₁ l₂ : List α} {e x y : α}

theorem sublist (h : Respects r l) (hsub : l₁.Sublist l) : Respects r l₁ :=
  List.Pairwise.sublist hsub h

theorem before (h : Respects r (l₁ ++ e :: l₂)) (hx : x ∈ l₁) : ¬ r e x :=
  (List.pairwise_append.1 h).2.2 x hx e (by simp)

theorem after (h : Respects r (l₁ ++ e :: l₂)) (hy : y ∈ l₂) : ¬ r y e :=
  (List.pairwise_cons.1 (List.pairwise_append.1 h).2.1).1 y hy

/-- The last element with a property is maximal among those that have it. -/
theorem last_maximal {q : α → Prop} (h : Respects r (l₁ ++ e :: l₂)) (hirr : ¬ r e e)
    (hno : ∀ y ∈ l₂, ¬ q y) : ∀ y ∈ l₁ ++ e :: l₂, q y → ¬ r e y := by
  intro y hy hq
  rcases List.mem_append.1 hy with hy | hy
  · exact h.before hy
  · rcases List.mem_cons.1 hy with rfl | hy
    · exact hirr
    · exact absurd hq (hno y hy)

/-- Positions that follow the precedence respect it. -/
theorem of_idxOf [DecidableEq α] (hnd : l.Nodup)
    (h : ∀ x ∈ l, ∀ y ∈ l, r x y → l.idxOf x < l.idxOf y) : Respects r l := by
  refine List.pairwise_iff_getElem.2 fun i j hi hj hij hr => ?_
  have hlt := h _ (List.getElem_mem hj) _ (List.getElem_mem hi) hr
  rw [hnd.idxOf_getElem, hnd.idxOf_getElem] at hlt
  omega

theorem idxOf_lt [DecidableEq α] (h : Respects r l) (hx : x ∈ l) (hy : y ∈ l) (hne : x ≠ y)
    (hr : r x y) : l.idxOf x < l.idxOf y := by
  rcases Nat.lt_trichotomy (l.idxOf x) (l.idxOf y) with hlt | heq | hgt
  · exact hlt
  · exact absurd ((List.idxOf_inj hx).1 heq) hne
  · have hpair := List.pairwise_iff_getElem.1 h (l.idxOf y) (l.idxOf x)
      (List.idxOf_lt_length_of_mem hy) (List.idxOf_lt_length_of_mem hx) hgt
    rw [List.getElem_idxOf, List.getElem_idxOf] at hpair
    exact absurd hr hpair

open Classical in
/-- `e` and what has to come after it, moved to the end. -/
noncomputable def postponed (r : α → α → Prop) (l₁ : List α) (e : α) (l₂ : List α) : List α :=
  (l₁ ++ l₂.filter fun y => ¬ r e y) ++ e :: l₂.filter fun y => r e y

theorem postponed_perm (r : α → α → Prop) (l₁ : List α) (e : α) (l₂ : List α) :
    (postponed r l₁ e l₂).Perm (l₁ ++ e :: l₂) := by
  classical
  unfold postponed
  rw [List.append_assoc]
  refine List.Perm.append_left l₁ (List.perm_middle.trans (List.Perm.cons e ?_))
  have hsplit := List.filter_append_perm (fun y => decide (¬ r e y)) l₂
  simpa using hsplit

/-- Postponing an element keeps the order respected. -/
theorem postpone (h : Respects r (l₁ ++ e :: l₂)) (htrans : ∀ {x y z}, r x y → r y z → r x z) :
    Respects r (postponed r l₁ e l₂) := by
  classical
  rcases List.pairwise_append.1 h with ⟨h₁, htail, hcross⟩
  rcases List.pairwise_cons.1 htail with ⟨hfirst, h₂⟩
  unfold postponed Respects
  refine List.pairwise_append.2 ⟨List.pairwise_append.2 ⟨h₁, h₂.filter _, ?_⟩,
    List.pairwise_cons.2 ⟨?_, h₂.filter _⟩, ?_⟩
  · intro x hx y hy
    exact hcross x hx y (List.mem_cons_of_mem _ (List.mem_filter.1 hy).1)
  · intro y hy
    exact hfirst y (List.mem_filter.1 hy).1
  · intro x hx y hy
    rcases List.mem_append.1 hx with hfront | hback
    · -- from the untouched front
      rcases List.mem_cons.1 hy with rfl | hy
      · exact hcross x hfront y (by simp)
      · exact hcross x hfront y (List.mem_cons_of_mem _ (List.mem_filter.1 hy).1)
    · have hnot : ¬ r e x := by
        simpa using (List.mem_filter.1 hback).2
      rcases List.mem_cons.1 hy with rfl | hy
      · exact hnot
      · have habove : r e y := by
          simpa using (List.mem_filter.1 hy).2
        exact fun hyx => hnot (htrans habove hyx)

end Respects

/-! ## First parts of an order -/

section Initial

variable {r : α → α → Prop} {L p : List α} {x : α}

/-- A list of elements of `L` that respects the precedence, and has with each element those of `L` that have to
come before it. -/
structure Initial (r : α → α → Prop) (L p : List α) : Prop where
  nodup : p.Nodup
  sub : ∀ x ∈ p, x ∈ L
  closed : ∀ x ∈ p, ∀ y ∈ L, r y x → y ∈ p
  respects : Respects r p

open Classical in
/-- What is not in `p` yet and has to come before `x`, in the order of `L`. -/
noncomputable def missing (r : α → α → Prop) (L p : List α) (x : α) : List α :=
  L.filter fun y => y ∉ p ∧ r y x

theorem mem_missing {y : α} : y ∈ missing r L p x ↔ y ∈ L ∧ y ∉ p ∧ r y x := by
  simp [missing]

open Classical in
/-- `p`, and then the rest in the order of `L`. -/
noncomputable def completed (L p : List α) : List α :=
  p ++ L.filter fun y => y ∉ p

/-- A first part goes on with `x`, after what has to come before it. -/
theorem Initial.reach (h : Initial r L p) (htrans : ∀ {x y z}, r x y → r y z → r x z)
    (hirr : ∀ x ∈ L, ¬ r x x) (hnd : L.Nodup) (hL : Respects r L) (hx : x ∈ L) (hnew : x ∉ p) :
    Initial r L (p ++ missing r L p x ++ [x]) := by
  have hmissing : (missing r L p x).Sublist L := List.filter_sublist
  have hmem : ∀ {z}, z ∈ p ++ missing r L p x ++ [x] ↔ z ∈ p ∨ (z ∈ L ∧ z ∉ p ∧ r z x) ∨ z = x := by
    intro z
    rw [List.mem_append, List.mem_append, mem_missing, List.mem_singleton, or_assoc]
  refine ⟨?_, ?_, ?_, ?_⟩
  · refine List.nodup_append.2 ⟨List.nodup_append.2 ⟨h.nodup, hnd.sublist hmissing, ?_⟩, by simp, ?_⟩
    · rintro y hy z hz rfl
      exact (mem_missing.1 hz).2.1 hy
    · intro y hy z hz hEq
      rw [List.mem_singleton.1 hz] at hEq
      subst hEq
      rcases List.mem_append.1 hy with hy | hy
      · exact hnew hy
      · exact hirr y hx (mem_missing.1 hy).2.2
  · intro z hz
    rcases hmem.1 hz with hz | ⟨hz, _⟩ | rfl
    · exact h.sub z hz
    · exact hz
    · exact hx
  · intro z hz y hy hr
    refine hmem.2 ?_
    by_cases hyp : y ∈ p
    · exact Or.inl hyp
    · rcases hmem.1 hz with hz | ⟨_, _, hzx⟩ | rfl
      · exact Or.inl (h.closed z hz y hy hr)
      · exact Or.inr (Or.inl ⟨hy, hyp, htrans hr hzx⟩)
      · exact Or.inr (Or.inl ⟨hy, hyp, hr⟩)
  · -- nothing that is left has to come before what has come
    refine List.pairwise_append.2 ⟨List.pairwise_append.2 ⟨h.respects, hL.sublist hmissing, ?_⟩,
      List.pairwise_singleton _ _, ?_⟩
    · intro y hy z hz hr
      exact (mem_missing.1 hz).2.1 (h.closed y hy z (mem_missing.1 hz).1 hr)
    · intro y hy z hz hr
      rw [List.mem_singleton.1 hz] at hr
      rcases List.mem_append.1 hy with hy | hy
      · exact hnew (h.closed y hy x hx hr)
      · exact hirr x hx (htrans hr (mem_missing.1 hy).2.2)

/-- A first part is completed to an order of all. -/
theorem Initial.complete (h : Initial r L p) (hnd : L.Nodup) (hL : Respects r L) :
    (completed L p).Perm L ∧ Respects r (completed L p) := by
  classical
  have hrest : (L.filter fun y => y ∉ p).Sublist L := List.filter_sublist
  refine ⟨(List.perm_ext_iff_of_nodup ?_ hnd).2 ?_, ?_⟩
  · refine List.nodup_append.2 ⟨h.nodup, hnd.sublist hrest, ?_⟩
    rintro y hy z hz rfl
    simpa [hy] using (List.mem_filter.1 hz).2
  · intro y
    by_cases hy : y ∈ p
    · simp [completed, hy, h.sub y hy]
    · simp [completed, hy]
  · refine List.pairwise_append.2 ⟨h.respects, hL.sublist hrest, ?_⟩
    intro y hy z hz hr
    have hz' := List.mem_filter.1 hz
    have hnot : z ∉ p := by
      simpa using hz'.2
    exact hnot (h.closed y hy z hz'.1 hr)

end Initial

/-! ## Sorted lists -/

section Sorted

variable {r le : α → α → Prop} {l : List α}

/-- A list sorted by `le` respects a precedence along which `le` is strict. -/
theorem respects_of_pairwise (hl : l.Pairwise le) (h : ∀ x ∈ l, ∀ y ∈ l, r x y → ¬ le y x) :
    Respects r l := by
  refine List.Pairwise.imp_of_mem ?_ hl
  intro x y hx hy hle hr
  exact h y hy x hx hr hle

/-- A stable sort leaves the head of a list before whatever it may precede. -/
theorem insertionSort_cons_split [DecidableRel le] {x y : α} (hx : x ∈ l) (hle : le y x) :
    ∃ l₁ l₂, (y :: l).insertionSort le = l₁ ++ y :: l₂ ∧ x ∈ l₂ := by
  refine ⟨(l.insertionSort le).takeWhile fun b => ¬ le y b, (l.insertionSort le).dropWhile fun b => ¬ le y b,
    List.orderedInsert_eq_take_drop le y (l.insertionSort le), ?_⟩
  have hsplit : x ∈ (l.insertionSort le).takeWhile (fun b => ¬ le y b) ++
      (l.insertionSort le).dropWhile (fun b => ¬ le y b) := by
    rw [List.takeWhile_append_dropWhile]
    exact (List.mem_insertionSort le).2 hx
  rcases List.mem_append.1 hsplit with htake | hdrop
  · have hno := List.mem_takeWhile_imp htake
    simp [hle] at hno
  · exact hdrop

/-- Sorting a selection of the elements respects a precedence, whatever order they come in, exactly when
`le` is strict along it. -/
theorem sorted_respects_iff [DecidableEq α] [DecidableRel le] [Std.Total le] [IsTrans α le] (p : α → Bool)
    (hirr : ∀ x ∈ l, p x = true → ¬ r x x) :
    (∀ l' : List α, l'.Perm l → Respects r ((l'.filter p).insertionSort le)) ↔
      ∀ x ∈ l, ∀ y ∈ l, p x = true → p y = true → r x y → ¬ le y x := by
  constructor
  · intro h x hx y hy hpx hpy hr hle
    have hne : x ≠ y := by
      rintro rfl
      exact hirr x hx hpx hr
    -- let the elements come with `y` at their head
    have hxin : x ∈ (l.erase y).filter p :=
      List.mem_filter.2 ⟨(List.mem_erase_of_ne hne).2 hx, hpx⟩
    have hresp := h (y :: l.erase y) (List.perm_cons_erase hy).symm
    rw [List.filter_cons_of_pos hpy] at hresp
    rcases insertionSort_cons_split hxin hle with ⟨l₁, l₂, heq, hafter⟩
    rw [heq] at hresp
    exact hresp.after hafter hr
  · intro h l' hperm
    refine respects_of_pairwise (List.pairwise_insertionSort le _) ?_
    intro x hx y hy hr
    rcases List.mem_filter.1 ((List.mem_insertionSort le).1 hx) with ⟨hx, hpx⟩
    rcases List.mem_filter.1 ((List.mem_insertionSort le).1 hy) with ⟨hy, hpy⟩
    exact h x (hperm.mem_iff.1 hx) y (hperm.mem_iff.1 hy) hpx hpy hr

end Sorted

end Extension
end Lib
end Thunderducks
