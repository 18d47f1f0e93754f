import Mathlib.Data.List.Basic

/-!
# Panic — reads that may be out of range

Rust panics where an index or a range lies outside its slice.  A function that returns a `Result` then has
three outcomes: `none` stands for the panic, and `some` holds the `Result`, an error among them.
-/

namespace Thunderducks
namespace Lib

variable {ε α β : Type}

/-! ## Ranges -/

/-- `&xs[i..j]` -/
def slice (xs : List α) (i j : Nat) : Option (List α) :=
  if i ≤ j ∧ j ≤ xs.length then some ((xs.take j).drop i) else none

/-- `&xs[i..]` -/
def sliceFrom (xs : List α) (i : Nat) : Option (List α) :=
  slice xs i xs.length

theorem slice_eq {xs : List α} {i j : Nat} (hij : i ≤ j) (hj : j ≤ xs.length) :
    slice xs i j = some ((xs.take j).drop i) :=
  if_pos ⟨hij, hj⟩

theorem sliceFrom_eq {xs : List α} {i : Nat} (hi : i ≤ xs.length) : sliceFrom xs i = some (xs.drop i) := by
  unfold sliceFrom
  rw [slice_eq hi (Nat.le_refl _), List.take_length]

/-! ## Loops -/

/-- Where no call panics, the loop over them does not. -/
theorem exists_mapM {f : α → Option β} {xs : List α} (h : ∀ x ∈ xs, ∃ y, f x = some y) :
    ∃ ys, xs.mapM f = some ys := by
  induction xs with
  | nil => exact ⟨[], rfl⟩
  | cons x xs ih =>
      rcases h x List.mem_cons_self with ⟨y, hy⟩
      rcases ih fun x' hx' => h x' (List.mem_cons_of_mem x hx') with ⟨ys, hys⟩
      refine ⟨y :: ys, ?_⟩
      rw [List.mapM_cons, hy, hys]
      rfl

/-! ## Calls -/

/-- A call that panics or returns a `Result`. -/
abbrev Panics (ε α : Type) : Type :=
  ExceptT ε Option α

namespace Panics

/-- A call that returns. -/
def returns (r : Except ε α) : Panics ε α :=
  ExceptT.mk (some r)

/-- `xs[i]` -/
def index (xs : List α) (i : Nat) : Panics ε α :=
  ExceptT.lift xs[i]?

@[simp] theorem returns_ok_bind (a : α) (f : α → Panics ε β) : (returns (.ok a) >>= f) = f a :=
  rfl

@[simp] theorem returns_error_bind (e : ε) (f : α → Panics ε β) :
    (returns (.error e) >>= f) = returns (.error e) :=
  rfl

@[simp] theorem pure_eq_returns (a : α) : (pure a : Panics ε α) = returns (.ok a) :=
  rfl

/-- An index in range. -/
theorem index_eq {xs : List α} {i : Nat} {a : α} (h : xs[i]? = some a) :
    (index xs i : Panics ε α) = returns (.ok a) := by
  unfold index
  rw [h]
  rfl

end Panics

end Lib
end Thunderducks
