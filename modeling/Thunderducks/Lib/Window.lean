import Mathlib.Data.List.Sort
import Mathlib.Data.List.Count
import Mathlib.Data.List.Nodup

/-!
# Window — the first entries of a sorted queue

`window le n l` is what a reader gets that asks for the `n` lowest entries.  `exists_mem_window` says
when such a reader cannot be kept from the entries it is after: fewer than `n` others stand at or
before each of them.  `Earliest` says what such a reader gets, apart from how it is computed;
`Earliest.extend` and `Earliest.restrict` compare two readers with different orders and filters.
-/

namespace Thunderducks
namespace Lib

section Window

variable {α : Type} (le : α → α → Prop) [DecidableRel le]

/-- The `n` lowest entries, lowest first. -/
def window (n : Nat) (l : List α) : List α :=
  (l.insertionSort le).take n

variable {le}

theorem mem_of_mem_window {n : Nat} {l : List α} {a : α} (h : a ∈ window le n l) : a ∈ l :=
  (List.perm_insertionSort le l).mem_iff.1 (List.mem_of_mem_take h)

theorem nodup_map_window {β : Type} {f : α → β} {n : Nat} {l : List α} (h : (l.map f).Nodup) :
    ((window le n l).map f).Nodup := by
  have hsorted : ((l.insertionSort le).map f).Nodup :=
    ((List.perm_insertionSort le l).map f).nodup_iff.2 h
  exact hsorted.sublist ((List.take_sublist n _).map f)

/-- A map that keeps the order keeps the window. -/
theorem map_window {β : Type} {le' : β → β → Prop} [DecidableRel le'] {f : α → β} {n : Nat}
    {l : List α} (h : ∀ a ∈ l, ∀ b ∈ l, le a b ↔ le' (f a) (f b)) :
    (window le n l).map f = window le' n (l.map f) := by
  unfold window
  rw [List.map_take, List.map_insertionSort le le' f l h]

/-- In a sorted list some entry with `p` is among the first `n`, when fewer than `n` entries without
`p` stand at or before each entry with `p`. -/
theorem exists_mem_take {p : α → Bool} {l : List α} (hs : l.Pairwise le) :
    ∀ {n : Nat}, (∃ a ∈ l, p a = true) →
      (∀ a ∈ l, p a = true → (l.filter fun b => !p b && decide (le b a)).length < n) →
      ∃ a ∈ l.take n, p a = true := by
  induction l with
  | nil =>
      rintro n ⟨a, ha, _⟩ _
      cases ha
  | cons b l ih =>
      rintro n ⟨a, ha, hpa⟩ hfew
      have hpos : 0 < n := Nat.lt_of_le_of_lt (Nat.zero_le _) (hfew a ha hpa)
      obtain ⟨m, rfl⟩ : ∃ m, n = m + 1 := ⟨n - 1, by omega⟩
      by_cases hpb : p b = true
      · exact ⟨b, by simp, hpb⟩
      · have hpb' : p b = false := by simpa using hpb
        have ha' : a ∈ l := by
          rcases List.mem_cons.1 ha with rfl | ha
          · exact absurd hpa hpb
          · exact ha
        -- the head is one of the others, at or before every entry with `p`
        have hrest : ∀ c ∈ l, p c = true →
            (l.filter fun d => !p d && decide (le d c)).length < m := by
          intro c hc hpc
          have hle : le b c := List.rel_of_pairwise_cons hs hc
          have := hfew c (List.mem_cons_of_mem _ hc) hpc
          simp only [List.filter_cons, hpb', hle, Bool.not_false, decide_true, Bool.and_self,
            if_true, List.length_cons] at this
          omega
        rcases ih hs.of_cons ⟨a, ha', hpa⟩ hrest with ⟨c, hc, hpc⟩
        exact ⟨c, by simp [List.take_succ_cons, hc], hpc⟩

variable [Std.Total le] [IsTrans α le]

theorem exists_mem_window {p : α → Bool} {n : Nat} {l : List α} (hex : ∃ a ∈ l, p a = true)
    (hfew : ∀ a ∈ l, p a = true → (l.filter fun b => !p b && decide (le b a)).length < n) :
    ∃ a ∈ window le n l, p a = true := by
  have hperm := List.perm_insertionSort le l
  refine exists_mem_take (List.pairwise_insertionSort le l) ?_ ?_
  · rcases hex with ⟨a, ha, hpa⟩
    exact ⟨a, hperm.mem_iff.2 ha, hpa⟩
  · intro a ha hpa
    have := hfew a (hperm.mem_iff.1 ha) hpa
    rwa [(hperm.filter _).length_eq]

end Window

/-! ## The earliest entries -/

section Earliest

variable {α : Type}

/-- `out` lists, in the order `le`, the `k` first of the entries that are wanted, or all if they are
fewer. -/
structure Earliest (le : α → α → Prop) (k : Nat) (wanted : α → Prop) (out : List α) : Prop where
  sorted : out.Pairwise le
  nodup : out.Nodup
  sound : ∀ a ∈ out, wanted a
  limit : out.length ≤ k
  complete : ∀ a, wanted a → a ∉ out → out.length = k ∧ ∀ x ∈ out, le x a

/-- The window lists the earliest entries of its queue. -/
theorem earliest_window {le : α → α → Prop} [DecidableRel le] [Std.Total le] [IsTrans α le] (k : Nat)
    {l : List α} (hnd : l.Nodup) : Earliest le k (fun a => a ∈ l) (window le k l) := by
  have hperm := List.perm_insertionSort le l
  have hsorted := List.pairwise_insertionSort le l
  refine ⟨hsorted.sublist (List.take_sublist k _), ?_, fun a ha => mem_of_mem_window ha,
    List.length_take_le _ _, ?_⟩
  · exact (hperm.nodup_iff.2 hnd).sublist (List.take_sublist k _)
  · intro a ha hout
    have hsplit := List.take_append_drop k (l.insertionSort le)
    have hdrop : a ∈ (l.insertionSort le).drop k := by
      have hin : a ∈ l.insertionSort le := hperm.mem_iff.2 ha
      rw [← hsplit, List.mem_append] at hin
      exact hin.resolve_left hout
    refine ⟨?_, ?_⟩
    · have hlt : k < (l.insertionSort le).length := by
        by_contra hle
        rw [List.drop_eq_nil_of_le (Nat.le_of_not_lt hle)] at hdrop
        cases hdrop
      rw [window, List.length_take]
      omega
    · intro x hx
      rw [← hsplit] at hsorted
      exact (List.pairwise_append.1 hsorted).2.2 x hx a hdrop

namespace Earliest

variable {le le' : α → α → Prop} {k : Nat} {A B : α → Prop} {out pool : List α}

/-- Fewer than `k` are all. -/
theorem all_mem (h : Earliest le k A out) (hlt : out.length < k) {a : α} (ha : A a) : a ∈ out := by
  by_contra hout
  have := (h.complete a ha hout).1
  omega

/-- What holds of the same list for one set of entries and for a larger one leaves the larger no entry of
its own, or has `k` entries of the smaller. -/
theorem bound_of_both (h : Earliest le k A out) (h' : Earliest le' k (fun a => A a ∨ B a) out)
    (hdisj : ∀ a, A a → ¬ B a) (hpool : ∀ a, a ∈ pool ↔ A a) : (∀ b, ¬ B b) ∨ k ≤ pool.length := by
  by_cases hB : ∃ b, B b
  · rcases hB with ⟨b, hb⟩
    have hout : b ∉ out := fun hin => hdisj b (h.sound b hin) hb
    have hlen := (h'.complete b (Or.inr hb) hout).1
    have hsub : out ⊆ pool := fun a ha => (hpool a).2 (h.sound a ha)
    have hle : out.length ≤ pool.length := (List.subperm_of_subset h.nodup hsub).length_le
    exact Or.inr (by omega)
  · exact Or.inl fun b hb => hB ⟨b, hb⟩

/-- Entries after all the others do not matter if there are none of them, or enough of the others. -/
theorem extend (h : Earliest le k A out) (hagree : ∀ a b, A a → A b → (le a b → le' a b))
    (hbefore : ∀ a b, A a → B b → le' a b) (hnd : pool.Nodup) (hpool : ∀ a, a ∈ pool ↔ A a)
    (hfew : (∀ b, ¬ B b) ∨ k ≤ pool.length) : Earliest le' k (fun a => A a ∨ B a) out := by
  refine ⟨?_, h.nodup, fun a ha => Or.inl (h.sound a ha), h.limit, ?_⟩
  · exact h.sorted.imp_of_mem fun ha hb hab => hagree _ _ (h.sound _ ha) (h.sound _ hb) hab
  · rintro a (ha | hb) hout
    · rcases h.complete a ha hout with ⟨hlen, hfirst⟩
      exact ⟨hlen, fun x hx => hagree x a (h.sound x hx) ha (hfirst x hx)⟩
    · refine ⟨?_, fun x hx => hbefore x a (h.sound x hx) hb⟩
      have hle : k ≤ pool.length := hfew.resolve_left fun hno => hno a hb
      by_contra hlen
      have hlt : out.length < k := Nat.lt_of_le_of_ne h.limit hlen
      have hsub : pool ⊆ out := fun x hx => h.all_mem hlt ((hpool x).1 hx)
      have := (List.subperm_of_subset hnd hsub).length_le
      omega

/-- The same the other way round. -/
theorem restrict (h : Earliest le k (fun a => A a ∨ B a) out)
    (hagree : ∀ a b, A a → A b → (le a b → le' a b)) (hbefore : ∀ a b, A a → B b → ¬ le b a)
    (hdisj : ∀ a, A a → ¬ B a) (hnd : pool.Nodup) (hpool : ∀ a, a ∈ pool ↔ A a)
    (hfew : (∀ b, ¬ B b) ∨ k ≤ pool.length) : Earliest le' k A out := by
  have hsound : ∀ a ∈ out, A a := by
    intro b hb
    rcases h.sound b hb with ha | hB
    · exact ha
    · have hle : k ≤ pool.length := hfew.resolve_left fun hno => hno b hB
      -- some entry of the smaller set was left out, and should have come before `b`
      have hmiss : ∃ a ∈ pool, a ∉ out := by
        by_contra hall
        push Not at hall
        have hb' : b ∉ pool := fun hin => hdisj b ((hpool b).1 hin) hB
        have hsub : (b :: pool) ⊆ out := by
          intro x hx
          rcases List.mem_cons.1 hx with rfl | hx
          · exact hb
          · exact hall x hx
        have hlen := (List.subperm_of_subset (List.nodup_cons.2 ⟨hb', hnd⟩) hsub).length_le
        have := h.limit
        rw [List.length_cons] at hlen
        omega
      rcases hmiss with ⟨a, ha, hout⟩
      have ha' : A a := (hpool a).1 ha
      exact absurd ((h.complete a (Or.inl ha') hout).2 b hb) (hbefore a b ha' hB)
  refine ⟨?_, h.nodup, hsound, h.limit, ?_⟩
  · exact h.sorted.imp_of_mem fun ha hb hab => hagree _ _ (hsound _ ha) (hsound _ hb) hab
  · intro a ha hout
    rcases h.complete a (Or.inl ha) hout with ⟨hlen, hfirst⟩
    exact ⟨hlen, fun x hx => hagree x a (hsound x hx) ha (hfirst x hx)⟩

theorem congr {A' : α → Prop} (h : Earliest le k A out) (hiff : ∀ a, A a ↔ A' a) :
    Earliest le k A' out := by
  have heq : A = A' := funext fun a => propext (hiff a)
  rw [← heq]
  exact h

/-- The entries that come first are put first by sorting. -/
theorem insertionSort_append {le : α → α → Prop} [DecidableRel le] :
    ∀ {first rest : List α}, first.Pairwise le → (∀ a ∈ first, ∀ b ∈ rest, le a b) →
      (first ++ rest).insertionSort le = first ++ rest.insertionSort le := by
  intro first rest
  induction first with
  | nil =>
      intro _ _
      rfl
  | cons a first ih =>
      intro hs hle
      have htail := ih hs.of_cons fun b hb c hc => hle b (List.mem_cons_of_mem _ hb) c hc
      -- the head goes before whatever the tail has first
      have hhead : ∀ b ∈ first ++ rest.insertionSort le, le a b := by
        intro b hb
        rcases List.mem_append.1 hb with hb | hb
        · exact List.rel_of_pairwise_cons hs hb
        · exact hle a List.mem_cons_self b ((List.perm_insertionSort le rest).mem_iff.1 hb)
      rw [List.cons_append, List.insertionSort_cons, htail]
      cases hlist : first ++ rest.insertionSort le with
      | nil => rw [List.cons_append, hlist]; rfl
      | cons b l =>
          have hab : le a b := hhead b (by rw [hlist]; exact List.mem_cons_self)
          rw [List.orderedInsert_cons_of_le le l hab, List.cons_append, hlist]

/-- Whatever list of earliest entries there is, in some order of the queue it is the window. -/
theorem exists_window [DecidableEq α] {le : α → α → Prop} [DecidableRel le] {k : Nat} {l out : List α}
    (hnd : l.Nodup) (h : Earliest le k (fun a => a ∈ l) out) :
    ∃ l' : List α, l'.Perm l ∧ window le k l' = out := by
  let rest := l.filter fun a => a ∉ out
  have hrest : ∀ a, a ∈ rest ↔ a ∈ l ∧ a ∉ out := by
    intro a
    rw [List.mem_filter, decide_eq_true_iff]
  have hdisj : out.Disjoint rest := fun a ha hr => ((hrest a).1 hr).2 ha
  have hnd' : (out ++ rest).Nodup := h.nodup.append (hnd.sublist List.filter_sublist) hdisj
  refine ⟨out ++ rest, (List.perm_ext_iff_of_nodup hnd' hnd).2 ?_, ?_⟩
  · intro a
    rw [List.mem_append, hrest]
    by_cases ha : a ∈ out
    · exact iff_of_true (Or.inl ha) (h.sound a ha)
    · simp [ha]
  · have hfirst : ∀ a ∈ out, ∀ b ∈ rest, le a b := fun a ha b hb =>
      (h.complete b ((hrest b).1 hb).1 ((hrest b).1 hb).2).2 a ha
    unfold window
    rw [insertionSort_append h.sorted hfirst]
    by_cases hlen : out.length = k
    · rw [← hlen, List.take_left]
    · -- a list shorter than the limit has them all
      have hnone : rest = [] := by
        apply List.eq_nil_iff_forall_not_mem.2
        intro b hb
        exact hlen (h.complete b ((hrest b).1 hb).1 ((hrest b).1 hb).2).1
      rw [hnone, List.insertionSort_nil, List.append_nil, List.take_of_length_le h.limit]

end Earliest

end Earliest

end Lib
end Thunderducks
