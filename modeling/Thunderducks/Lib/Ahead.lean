import Mathlib.Data.List.Basic

/-!
# Ahead — a counter moved past the numbers seen

`passAll c seen` moves the counter `c` past each number of `seen` in turn, wherever it is not past it
already.  The order does not matter: it is the least counter from `c` on that is past them all
(`passAll_le_iff`).
-/

namespace Thunderducks
namespace Lib
namespace Ahead

def pass (c t : Nat) : Nat :=
  if t ≥ c then t + 1 else c

def passAll (c : Nat) (seen : List Nat) : Nat :=
  seen.foldl pass c

variable {c b t : Nat} {seen : List Nat}

@[simp] theorem passAll_nil (c : Nat) : passAll c [] = c :=
  rfl

@[simp] theorem passAll_cons (c t : Nat) (seen : List Nat) :
    passAll c (t :: seen) = passAll (pass c t) seen :=
  rfl

theorem pass_le_iff : pass c t ≤ b ↔ c ≤ b ∧ t < b := by
  unfold pass
  split <;> omega

theorem le_pass_iff : b ≤ pass c t ↔ b ≤ c ∨ b ≤ t + 1 := by
  unfold pass
  split <;> omega

/-- The least counter past all of `seen`. -/
theorem passAll_le_iff : passAll c seen ≤ b ↔ c ≤ b ∧ ∀ t ∈ seen, t < b := by
  induction seen generalizing c with
  | nil => simp
  | cons t seen ih => rw [passAll_cons, ih, pass_le_iff, List.forall_mem_cons, and_assoc]

/-- The counter goes no further than one number of `seen` takes it. -/
theorem le_passAll_iff : b ≤ passAll c seen ↔ b ≤ c ∨ ∃ t ∈ seen, b ≤ t + 1 := by
  induction seen generalizing c with
  | nil => simp
  | cons t seen ih => simp [ih, le_pass_iff, or_assoc]

theorem le_passAll : c ≤ passAll c seen :=
  (passAll_le_iff.1 (Nat.le_refl _)).1

end Ahead
end Lib
end Thunderducks
