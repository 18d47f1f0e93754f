import Mathlib.Data.List.Induction

/-!
# Runs — runs of a deterministic system and what holds along them

`step : S → A → S` is any system.  `Along ok s as` says that every action of the run meets `ok` in the
state it is taken in, `Always P s as` that `P` holds in every state of the run.  `invariant` is the
induction over runs; `always_iff_along` turns an exact condition on one step into one on whole runs;
`provenance_of_inv` traces what a run has to the action that made it, `has_run_iff` says exactly what it
has; `eventually_of_measure` is the rule for progress.  `answers_eq` compares two systems that answer the
same calls.
-/

namespace Thunderducks
namespace Lib
namespace Runs

variable {S A : Type} (step : S → A → S)

/-- The state a run ends in. -/
def run (s : S) (as : List A) : S :=
  as.foldl step s

/-- Every action meets `ok` in the state it is taken in. -/
def Along (ok : S → A → Prop) : S → List A → Prop
  | _, [] => True
  | s, a :: as => ok s a ∧ Along ok (step s a) as

/-- `P` holds in every state of the run, the first and the last included. -/
def Always (P : S → Prop) : S → List A → Prop
  | s, [] => P s
  | s, a :: as => P s ∧ Always P (step s a) as

variable {step} {ok good : S → A → Prop} {P J : S → Prop}

/-- An invariant that every allowed action keeps holds at the end of every allowed run. -/
theorem invariant (hstep : ∀ s a, J s → ok s a → J (step s a)) :
    ∀ {s : S} (as : List A), J s → Along step ok s as → J (run step s as) := by
  intro s as
  induction as generalizing s with
  | nil =>
      intro hs _
      exact hs
  | cons a as ih =>
      intro hs hok
      exact ih (hstep s a hs hok.1) hok.2

/-- What every action keeps holds at the end of every run. -/
theorem run_invariant (hinv : ∀ s a, J s → J (step s a)) {s : S} (as : List A) (hs : J s) :
    J (run step s as) := by
  induction as generalizing s with
  | nil => exact hs
  | cons a as ih => exact ih (hinv s a hs)

/-- What an invariant implies holds in every state of an allowed run. -/
theorem always_of_invariant (hstep : ∀ s a, J s → ok s a → J (step s a)) (hp : ∀ s, J s → P s) :
    ∀ {s : S} (as : List A), J s → Along step ok s as → Always step P s as := by
  intro s as
  induction as generalizing s with
  | nil =>
      intro hs _
      exact hp s hs
  | cons a as ih =>
      intro hs hok
      exact ⟨hp s hs, ih (hstep s a hs hok.1) hok.2⟩

theorem Along.and {ok' : S → A → Prop} {s : S} {as : List A} (h : Along step ok s as)
    (h' : Along step ok' s as) : Along step (fun s a => ok s a ∧ ok' s a) s as := by
  induction as generalizing s with
  | nil => trivial
  | cons a as ih => exact ⟨⟨h.1, h'.1⟩, ih h.2 h'.2⟩

theorem Always.final {s : S} (as : List A) (h : Always step P s as) : P (run step s as) := by
  induction as generalizing s with
  | nil => exact h
  | cons a as ih => exact ih h.2

theorem Along.append {s : S} {before after : List A} (h : Along step ok s (before ++ after)) :
    Along step ok s before ∧ Along step ok (run step s before) after := by
  induction before generalizing s with
  | nil => exact ⟨trivial, h⟩
  | cons a before ih =>
      rcases ih h.2 with ⟨hbefore, hafter⟩
      exact ⟨⟨h.1, hbefore⟩, hafter⟩

theorem along_iff {s : S} {as : List A} :
    Along step ok s as ↔ ∀ before a after, as = before ++ a :: after → ok (run step s before) a := by
  constructor
  · rintro h before a after rfl
    exact h.append.2.1
  · intro h
    induction as generalizing s with
    | nil => trivial
    | cons a as ih =>
        refine ⟨h [] a as rfl, ih ?_⟩
        intro before b after hsplit
        exact h (a :: before) b after (by rw [hsplit, List.cons_append])

/-- Conditions that agree under an invariant agree along a run. -/
theorem along_congr {ok' : S → A → Prop} (hinv : ∀ s a, J s → J (step s a))
    (hiff : ∀ s a, J s → (ok s a ↔ ok' s a)) {s : S} (as : List A) (hs : J s) :
    Along step ok s as ↔ Along step ok' s as := by
  induction as generalizing s with
  | nil => exact Iff.rfl
  | cons a as ih => exact and_congr (hiff s a hs) (ih (hinv s a hs))

/-- What relates the states of every step relates every state of a run to all later ones. -/
theorem along_rel_iff {R : S → S → Prop} (hrefl : ∀ s, R s s)
    (htrans : ∀ {s t u}, R s t → R t u → R s u) {s : S} {as : List A} :
    Along step (fun s a => R s (step s a)) s as ↔ ∀ before mid after, as = before ++ (mid ++ after) →
      R (run step s before) (run step s (before ++ mid)) := by
  rw [along_iff]
  constructor
  · rintro h before mid after rfl
    induction mid using List.reverseRecOn generalizing after with
    | nil =>
        rw [List.append_nil]
        exact hrefl _
    | append_singleton mid a ih =>
        have hstep := h (before ++ mid) a after (by simp)
        have hrun : run step s (before ++ (mid ++ [a])) = step (run step s (before ++ mid)) a := by
          simp [run]
        rw [hrun]
        exact htrans (ih (a :: after) (by simpa using h)) hstep
  · rintro h before a after rfl
    have hrun : run step s (before ++ [a]) = step (run step s before) a := by
      simp [run]
    rw [← hrun]
    exact h before [a] after rfl

/-- If, under an invariant, an allowed action keeps `P` exactly when it is good, then `P` holds
all along an allowed run exactly when all its actions are good. -/
theorem always_iff_along (hstep : ∀ s a, J s → ok s a → J (step s a))
    (hgood : ∀ s a, J s → ok s a → P s → (P (step s a) ↔ good s a)) :
    ∀ {s : S} (as : List A), J s → P s → Along step ok s as →
      (Always step P s as ↔ Along step good s as) := by
  intro s as
  induction as generalizing s with
  | nil =>
      intro _ hp _
      exact iff_of_true hp trivial
  | cons a as ih =>
      intro hj hp hok
      have hj' : J (step s a) := hstep s a hj hok.1
      constructor
      · rintro ⟨_, hall⟩
        have hp' : P (step s a) := by
          cases as with
          | nil => exact hall
          | cons b bs => exact hall.1
        exact ⟨(hgood s a hj hok.1 hp).1 hp', (ih hj' hp' hok.2).1 hall⟩
      · rintro ⟨hg, hrest⟩
        have hp' : P (step s a) := (hgood s a hj hok.1 hp).2 hg
        exact ⟨hp, (ih hj' hp' hok.2).2 hrest⟩

/-- The same where every action is allowed. -/
theorem always_iff_along_of_inv (hstep : ∀ s a, J s → J (step s a))
    (hgood : ∀ s a, J s → P s → (P (step s a) ↔ good s a)) {s : S} (as : List A) (hj : J s)
    (hp : P s) : Always step P s as ↔ Along step good s as := by
  have hok : ∀ (s : S) (as : List A), Along step (fun _ _ => True) s as := by
    intro s as
    induction as generalizing s with
    | nil => trivial
    | cons a as ih => exact ⟨trivial, ih (step s a)⟩
  exact always_iff_along (fun s a h _ => hstep s a h) (fun s a h _ => hgood s a h) as hj hp (hok s as)

theorem run_append_singleton {s : S} {as : List A} {a : A} :
    run step s (as ++ [a]) = step (run step s as) a := by
  simp [run]

theorem run_append {s : S} {as bs : List A} :
    run step s (as ++ bs) = run step (run step s as) bs := by
  simp [run]

/-! ## What a run makes and destroys -/

/-- Provenance under an invariant: what a run has at its end, one of its actions made and none later
destroyed, if each step from a state with the invariant has nothing but what it keeps and what it
makes. -/
theorem provenance_of_inv {R : Type} {has : S → R → Prop} {makes destroys : S → A → R → Prop}
    (hinv : ∀ s a, J s → J (step s a))
    (hstep : ∀ s a r, J s → has (step s a) r → (has s r ∧ ¬ destroys s a r) ∨ makes s a r) {s : S}
    (hs : J s) (hinit : ∀ r, ¬ has s r) (as : List A) : ∀ {r : R}, has (run step s as) r →
    ∃ before a after, as = before ++ a :: after ∧ makes (run step s before) a r ∧
      ∀ mid c rest, after = mid ++ c :: rest →
        ¬ destroys (run step s (before ++ a :: mid)) c r := by
  -- the last action is the one that decides
  induction as using List.reverseRecOn with
  | nil =>
      intro r h
      exact absurd h (hinit r)
  | append_singleton as a ih =>
      intro r h
      rw [run_append_singleton] at h
      have hj : J (run step s as) := run_invariant hinv as hs
      rcases hstep _ a r hj h with ⟨hold, hkept⟩ | hmade
      · rcases ih hold with ⟨before, b, after, rfl, hmade, hlater⟩
        refine ⟨before, b, after ++ [a], by simp, hmade, ?_⟩
        intro mid c rest hsplit
        rcases List.eq_nil_or_concat rest with rfl | ⟨rest', d, rfl⟩
        · have hEq : after = mid ∧ a = c := by
            simpa using List.append_inj' hsplit (by simp)
          rcases hEq with ⟨rfl, rfl⟩
          exact hkept
        · have hEq : after = mid ++ c :: rest' ∧ a = d := by
            have hsplit' : after ++ [a] = (mid ++ c :: rest') ++ [d] := by
              simpa using hsplit
            simpa using List.append_inj' hsplit' (by simp)
          exact hlater mid c rest' hEq.1
      · exact ⟨as, a, [], by simp, hmade, by simp⟩

/-- Provenance where every step keeps and makes what it has. -/
theorem provenance {R : Type} {has : S → R → Prop} {makes destroys : S → A → R → Prop}
    (hstep : ∀ s a r, has (step s a) r → (has s r ∧ ¬ destroys s a r) ∨ makes s a r) {s : S}
    (hinit : ∀ r, ¬ has s r) (as : List A) {r : R} (h : has (run step s as) r) :
    ∃ before a after, as = before ++ a :: after ∧ makes (run step s before) a r ∧
      ∀ mid c rest, after = mid ++ c :: rest →
        ¬ destroys (run step s (before ++ a :: mid)) c r := by
  have hinv : ∀ (s : S) (a : A), True → True := fun _ _ _ => trivial
  exact provenance_of_inv hinv (fun s a r _ => hstep s a r) trivial hinit as h


/-- What a run loses, one of its actions destroyed. -/
theorem destroyed {R : Type} {has : S → R → Prop} {destroys : S → A → R → Prop}
    (hkeep : ∀ s a r, has s r → ¬ destroys s a r → has (step s a) r) {r : R} :
    ∀ {s : S} (as : List A), has s r → ¬ has (run step s as) r →
      ∃ before a after, as = before ++ a :: after ∧ has (run step s before) r ∧
        destroys (run step s before) a r := by
  intro s as
  induction as generalizing s with
  | nil =>
      intro hs hno
      exact absurd hs hno
  | cons a as ih =>
      intro hs hno
      by_cases hd : destroys s a r
      · exact ⟨[], a, as, rfl, hs, hd⟩
      · rcases ih (hkeep s a r hs hd) hno with ⟨before, b, after, rfl, hhas, hdest⟩
        exact ⟨a :: before, b, after, rfl, hhas, hdest⟩

/-- A run has exactly what one of its actions made and none later destroyed, if each step has exactly
what it keeps and what it makes. -/
theorem has_run_iff {R : Type} {has : S → R → Prop} {makes destroys : S → A → R → Prop}
    (hstep : ∀ s a r, has (step s a) r ↔ (has s r ∧ ¬ destroys s a r) ∨ makes s a r) {s : S}
    (hinit : ∀ r, ¬ has s r) (as : List A) {r : R} :
    has (run step s as) r ↔ ∃ before a after, as = before ++ a :: after ∧
      makes (run step s before) a r ∧ ∀ mid c rest, after = mid ++ c :: rest →
        ¬ destroys (run step s (before ++ a :: mid)) c r := by
  constructor
  · exact provenance (fun s a r => (hstep s a r).1) hinit as
  · rintro ⟨before, a, after, rfl, hmade, hlater⟩
    have hmid : has (run step s (before ++ [a])) r := by
      rw [run_append_singleton]
      exact (hstep _ a r).2 (Or.inr hmade)
    have hsplit : before ++ a :: after = (before ++ [a]) ++ after := by simp
    rw [hsplit, run_append]
    by_contra hno
    have hkeep : ∀ s a r, has s r → ¬ destroys s a r → has (step s a) r :=
      fun s a r hr hd => (hstep s a r).2 (Or.inl ⟨hr, hd⟩)
    rcases destroyed hkeep after hmid hno with ⟨mid, c, rest, rfl, _, hdest⟩
    refine hlater mid c rest rfl ?_
    have hstart : before ++ a :: mid = (before ++ [a]) ++ mid := by simp
    rw [hstart, run_append]
    exact hdest

/-- What shrinks a measure for as long as `Q` fails makes `Q` hold at last. -/
theorem eventually_of_measure {Q : Nat → Prop} (μ : Nat → Nat) (start : Nat)
    (h : ∀ k, start ≤ k → ¬ Q k → μ (k + 1) < μ k) : ∃ n, Q n := by
  -- strong induction on the measure at the round reached
  have key : ∀ m k, start ≤ k → μ k ≤ m → ∃ n, Q n := by
    intro m
    induction m with
    | zero =>
        intro k hk hm
        by_cases hq : Q k
        · exact ⟨k, hq⟩
        · have := h k hk hq
          omega
    | succ m ih =>
        intro k hk hm
        by_cases hq : Q k
        · exact ⟨k, hq⟩
        · have := h k hk hq
          exact ih (k + 1) (by omega) (by omega)
  exact key (μ start) start (Nat.le_refl start) (Nat.le_refl _)

/-! ## Two systems, call by call -/

section Answers

variable {S T A B : Type}

/-- The answers of a system to the calls of a run. -/
def answers (call : S → A → B × S) : S → List A → List B
  | _, [] => []
  | s, a :: as => (call s a).1 :: answers call (call s a).2 as

theorem answers_append {call : S → A → B × S} {before after : List A} : ∀ {s : S},
    answers call s (before ++ after) =
      answers call s before ++ answers call (run (fun s a => (call s a).2) s before) after := by
  induction before with
  | nil => exact rfl
  | cons a before ih =>
      intro s
      rw [List.cons_append, answers, ih]
      rfl

@[simp] theorem length_answers {call : S → A → B × S} {s : S} {as : List A} :
    (answers call s as).length = as.length := by
  induction as generalizing s with
  | nil => rfl
  | cons a as ih => simp [answers, ih]

/-- Systems in related states that answer alike and stay related give the same answers. -/
theorem answers_eq {callS : S → A → B × S} {callT : T → A → B × T} {R : S → T → Prop}
    (hstep : ∀ s t a, R s t → (callS s a).1 = (callT t a).1 ∧ R (callS s a).2 (callT t a).2) :
    ∀ {s : S} {t : T} (as : List A), R s t → answers callS s as = answers callT t as := by
  intro s t as
  induction as generalizing s t with
  | nil =>
      intro _
      rfl
  | cons a as ih =>
      intro h
      rcases hstep s t a h with ⟨hanswer, hnext⟩
      rw [answers, answers, hanswer, ih hnext]

end Answers

end Runs
end Lib
end Thunderducks
