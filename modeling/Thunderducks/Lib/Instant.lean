import Mathlib.Data.Nat.Notation

/-!
# Instant — a monotonic clock

Times are nanoseconds since the clock started.
-/

namespace Thunderducks
namespace Lib

/-- A reading of the clock, or a span between two. -/
abbrev Instant : Type := Nat

namespace Instant

/-- `Duration::from_secs`. -/
def secs (n : Nat) : Instant :=
  n * 1000000000

/-- `Duration::as_secs`, which rounds down. -/
def asSecs (d : Instant) : Nat :=
  d / 1000000000

/-- `Instant::duration_since`, which saturates at zero. -/
def since (now start : Instant) : Instant :=
  now - start

end Instant

end Lib
end Thunderducks
