import Mathlib.Order.Basic
import Thunderducks.Lib.Runs

/-!
# Unwinding — calls that others cannot tell were made

A system takes timed calls of many clients.  `answersTo` are the answers that the calls of one client get
in the run of all calls.  If two runs, one with the others' calls and one without, stay related by a view
that the client's own calls answer from, and that no other call disturbs, the client gets the answers it
would get alone (`answersTo_eq_answers_filter`).
-/

namespace Thunderducks
namespace Lib
namespace Unwinding

variable {S A B τ : Type}

/-- The answers to the calls that `seen` picks, in the run of all calls. -/
def answersTo (call : S → A → B × S) (seen : A → Bool) : S → List A → List B
  | _, [] => []
  | s, a :: as =>
      let rest := answersTo call seen (call s a).2 as
      if seen a then (call s a).1 :: rest else rest

variable {call : S → A → B × S} {seen : A → Bool} {time : A → τ} [Preorder τ] {View : τ → S → S → Prop}

/-- The view of two states may be kept to later times (`later`); the calls seen answer alike in
related states and keep them related (`own`); a call that is not seen keeps its state related (`other`). -/
structure Unwinds (call : S → A → B × S) (seen : A → Bool) (time : A → τ) (View : τ → S → S → Prop) :
    Prop where
  later : ∀ {t t' s s'}, t ≤ t' → View t s s' → View t' s s'
  own : ∀ {s s' a}, seen a = true → View (time a) s s' →
    (call s a).1 = (call s' a).1 ∧ View (time a) (call s a).2 (call s' a).2
  other : ∀ {s s' a}, seen a = false → View (time a) s s' → View (time a) (call s a).2 s'

/-- The run of all calls and the run of the calls seen, from related states. -/
theorem answersTo_eq_answers_filter (h : Unwinds call seen time View) :
    ∀ {s s' : S} {t : τ} (as : List A), (∀ a ∈ as, t ≤ time a) →
      (as.Pairwise fun a b => time a ≤ time b) → View t s s' →
      answersTo call seen s as = Runs.answers call s' (as.filter seen) := by
  intro s s' t as
  induction as generalizing s s' t with
  | nil =>
      intro _ _ _
      rfl
  | cons a as ih =>
      intro hlater hsorted hview
      have hrest : ∀ b ∈ as, time a ≤ time b := fun b hb => List.rel_of_pairwise_cons hsorted hb
      have hnow : View (time a) s s' := h.later (hlater a List.mem_cons_self) hview
      unfold answersTo
      dsimp only
      cases hseen : seen a with
      | true =>
          rcases h.own hseen hnow with ⟨hanswer, hnext⟩
          rw [List.filter_cons_of_pos hseen, Runs.answers, hanswer, ih hrest hsorted.of_cons hnext]
          rfl
      | false =>
          -- only the run of all calls moves
          rw [List.filter_cons_of_neg (by simp [hseen]), ih hrest hsorted.of_cons (h.other hseen hnow)]
          rfl

end Unwinding
end Lib
end Thunderducks
