import Mathlib.Data.List.Infix

/-!
# Checked — computations that stop at their first error

A function that returns a `Result` and leaves at each `?` is a chain of `Except` computations.  It comes to
a value if every link does: `bind_ok_iff` takes such a chain apart.
-/

namespace Thunderducks
namespace Lib

variable {ε ε' α β : Type}

/-- A computation that may throw comes to a value if both its parts do. -/
theorem bind_ok_iff {x : Except ε α} {f : α → Except ε β} {b : β} :
    (x >>= f) = .ok b ↔ ∃ a, x = .ok a ∧ f a = .ok b := by
  cases x with
  | error e => simp [bind, Except.bind]
  | ok a => simp [bind, Except.bind]

theorem mapError_ok_iff {x : Except ε α} {f : ε → ε'} {a : α} : x.mapError f = .ok a ↔ x = .ok a := by
  cases x with
  | error e => simp [Except.mapError]
  | ok b => simp [Except.mapError]

/-- `if !p { return Err(e) }` -/
def ensure (p : Prop) [Decidable p] (e : ε) : Except ε Unit :=
  if p then .ok () else .error e

theorem ensure_ok_iff {p : Prop} [Decidable p] {e : ε} {u : Unit} : ensure p e = .ok u ↔ p := by
  unfold ensure
  split
  next h => simp [h]
  next h => simp [h]

/-- `Option::ok_or` -/
def okOr (x : Option α) (e : ε) : Except ε α :=
  match x with
  | none => .error e
  | some a => .ok a

theorem okOr_ok_iff {x : Option α} {e : ε} {a : α} : okOr x e = .ok a ↔ x = some a := by
  cases x with
  | none => simp [okOr]
  | some b => simp [okOr]

end Lib
end Thunderducks
