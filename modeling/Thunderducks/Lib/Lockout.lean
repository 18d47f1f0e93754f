import Mathlib.Data.List.Basic

/-!
# Lockout — a counter of failures that shuts the door for a while

Each failure is counted; the one that reaches `limit` starts the count anew and locks for `span`.  While it is
locked nothing is tried.  `failTimes` are the times of the failures in a run of attempts that all fail:
no half-open interval of length `span` holds more than `limit` of them (`length_window_le`).
-/

namespace Thunderducks
namespace Lib

structure Lockout where
  failures : Nat
  lockUntil : Option Nat
  deriving DecidableEq

namespace Lockout

def locked (s : Lockout) (now : Nat) : Bool :=
  s.lockUntil.any fun t => now < t

variable (limit span : Nat)

def fail (s : Lockout) (now : Nat) : Lockout :=
  if s.failures + 1 ≥ limit then
    { failures := 0, lockUntil := some (now + span) }
  else
    { s with failures := s.failures + 1 }

/-- The times at which attempts that all fail get through the lock. -/
def failTimes : Lockout → List Nat → List Nat
  | _, [] => []
  | s, now :: times =>
      if s.locked now then failTimes s times else now :: failTimes (s.fail limit span now) times

variable {limit span}

theorem failTimes_subset (times : List Nat) : ∀ s : Lockout, failTimes limit span s times ⊆ times := by
  induction times with
  | nil =>
      intro s t ht
      exact ht
  | cons now times ih =>
      intro s t ht
      unfold failTimes at ht
      split at ht
      · exact List.mem_cons_of_mem _ (ih s ht)
      · rcases List.mem_cons.1 ht with rfl | ht
        · exact List.mem_cons_self
        · exact List.mem_cons_of_mem _ (ih _ ht)

/-- Nothing gets through before the lock is over. -/
theorem le_of_mem_failTimes {s : Lockout} {u : Nat} (hlock : s.lockUntil = some u) :
    ∀ {times : List Nat}, times.Pairwise (· ≤ ·) → ∀ t ∈ failTimes limit span s times, u ≤ t := by
  intro times
  induction times with
  | nil =>
      intro _ t ht
      cases ht
  | cons now times ih =>
      intro hsorted t ht
      unfold failTimes at ht
      split at ht
      · exact ih hsorted.of_cons t ht
      next hopen =>
        have hnow : u ≤ now := by
          simpa [locked, hlock] using hopen
        rcases List.mem_cons.1 ht with rfl | ht
        · exact hnow
        · exact Nat.le_trans hnow (List.rel_of_pairwise_cons hsorted (failTimes_subset _ _ ht))

/-- The failures of a half-open interval. -/
def window (start span : Nat) (times : List Nat) : List Nat :=
  times.filter fun t => start ≤ t ∧ t < start + span

theorem window_eq_nil {start span : Nat} {times : List Nat} (h : ∀ t ∈ times, start + span ≤ t) :
    window start span times = [] := by
  refine List.filter_eq_nil_iff.2 fun t ht => ?_
  have := h t ht
  simp only [decide_eq_true_eq]
  omega

/-- Once the interval has begun, the failures counted before it use up some of its allowance. -/
theorem length_window_begun (hlimit : 0 < limit) (start : Nat) : ∀ {s : Lockout} {times : List Nat},
    times.Pairwise (· ≤ ·) → (∀ t ∈ times, start ≤ t) →
    (window start span (failTimes limit span s times)).length + min s.failures (limit - 1) ≤ limit := by
  intro s times
  induction times generalizing s with
  | nil =>
      intro _ _
      simp only [failTimes, window, List.filter_nil, List.length_nil]
      omega
  | cons now times ih =>
      intro hsorted hbegun
      have hlater : ∀ t ∈ times, start ≤ t := fun t ht => hbegun t (List.mem_cons_of_mem _ ht)
      have hnow : start ≤ now := hbegun now List.mem_cons_self
      unfold failTimes
      split
      · exact ih hsorted.of_cons hlater
      · by_cases hend : start + span ≤ now
        · -- the interval is over
          have hnil : window start span (now :: failTimes limit span (s.fail limit span now) times) = [] := by
            refine window_eq_nil fun t ht => ?_
            rcases List.mem_cons.1 ht with rfl | ht
            · exact hend
            · exact Nat.le_trans hend (List.rel_of_pairwise_cons hsorted (failTimes_subset _ _ ht))
          rw [hnil, List.length_nil]
          omega
        · have hin : window start span (now :: failTimes limit span (s.fail limit span now) times) =
              now :: window start span (failTimes limit span (s.fail limit span now) times) := by
            refine List.filter_cons_of_pos ?_
            simp only [decide_eq_true_eq]
            omega
          rw [hin, List.length_cons]
          by_cases hfull : s.failures + 1 ≥ limit
          · -- the failure locks past the end of the interval
            have hlock : (s.fail limit span now).lockUntil = some (now + span) := by
              simp [fail, hfull]
            have hnil : window start span (failTimes limit span (s.fail limit span now) times) = [] := by
              refine window_eq_nil fun t ht => ?_
              have := le_of_mem_failTimes hlock hsorted.of_cons t ht
              omega
            rw [hnil, List.length_nil]
            omega
          · have hcount : (s.fail limit span now).failures = s.failures + 1 := by
              simp [fail, hfull]
            have hrest := ih (s := s.fail limit span now) hsorted.of_cons hlater
            rw [hcount] at hrest
            omega

/-- No half-open interval of length `span` holds more than `limit` failures, whatever was counted before. -/
theorem length_window_le (hlimit : 0 < limit) (start : Nat) : ∀ {s : Lockout} {times : List Nat},
    times.Pairwise (· ≤ ·) → (window start span (failTimes limit span s times)).length ≤ limit := by
  intro s times
  induction times generalizing s with
  | nil =>
      intro _
      exact Nat.zero_le _
  | cons now times ih =>
      intro hsorted
      by_cases hbegun : start ≤ now
      · have hall : ∀ t ∈ now :: times, start ≤ t := by
          intro t ht
          rcases List.mem_cons.1 ht with rfl | ht
          · exact hbegun
          · exact Nat.le_trans hbegun (List.rel_of_pairwise_cons hsorted ht)
        have := @length_window_begun limit span hlimit start s _ hsorted hall
        omega
      · -- before the interval begins nothing is in it, and the state may be any
        unfold failTimes
        split
        · exact ih hsorted.of_cons
        · have hout : window start span (now :: failTimes limit span (s.fail limit span now) times) =
              window start span (failTimes limit span (s.fail limit span now) times) := by
            refine List.filter_cons_of_neg ?_
            simp only [decide_eq_true_eq]
            omega
          rw [hout]
          exact ih hsorted.of_cons

end Lockout
end Lib
end Thunderducks
