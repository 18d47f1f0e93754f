import Mathlib.Algebra.Group.Nat.Defs
import Mathlib.Data.List.Induction
import Thunderducks.Lib.Json

/-!
# Framing — values sent one after the other over a byte stream

`beBytes` and `beValue` are fixed-width big-endian numbers; writing truncates.  A framing is a `send` that
appends bytes to a stream and a `recv` that takes a value off its front, each with a state of its own.
`recvAll_sendAll` is the rule for whole streams: if one value is read back, with nothing over, whenever the
two ends are in step, then so is every sequence.
-/

namespace Thunderducks
namespace Lib
namespace Framing

/-! ## Big-endian numbers -/

/-- The low `k` bytes of a number, high byte first. -/
def beBytes : (k : Nat) → (n : Nat) → Bytes
  | 0, _ => []
  | k + 1, n => beBytes k (n / 256) ++ [UInt8.ofNat n]

/-- The number that a byte string writes, high byte first. -/
def beValue (bs : Bytes) : Nat :=
  bs.foldl (fun acc b => acc * 256 + b.toNat) 0

@[simp] theorem length_beBytes (k n : Nat) : (beBytes k n).length = k := by
  induction k generalizing n with
  | zero => rfl
  | succ k ih => simp [beBytes, ih]

theorem beValue_beBytes (k n : Nat) : beValue (beBytes k n) = n % 256 ^ k := by
  induction k generalizing n with
  | zero =>
      rw [Nat.pow_zero, Nat.mod_one]
      rfl
  | succ k ih =>
      have hlast : beValue (beBytes (k + 1) n) = beValue (beBytes k (n / 256)) * 256 + n % 256 := by
        simp [beValue, beBytes]
      calc
        beValue (beBytes (k + 1) n)
            = n / 256 % 256 ^ k * 256 + n % 256 := by rw [hlast, ih]
        _ = n % (256 * 256 ^ k) := by rw [Nat.mod_mul]; omega
        _ = n % 256 ^ (k + 1) := by rw [Nat.pow_succ, Nat.mul_comm]

theorem beValue_lt (bs : Bytes) : beValue bs < 256 ^ bs.length := by
  induction bs using List.reverseRecOn with
  | nil => simp [beValue]
  | append_singleton bs b ih =>
      have hlast : beValue (bs ++ [b]) = beValue bs * 256 + b.toNat := by
        simp [beValue]
      have hb : b.toNat < 256 := b.toNat_lt
      rw [hlast, List.length_append, List.length_singleton, Nat.pow_succ]
      omega

/-- Numbers with the same digits to the base 256 are the same. -/
theorem mod_pow_of_digits {n m : Nat} : ∀ {k : Nat}, (∀ i < k, n / 256 ^ i % 256 = m / 256 ^ i % 256) →
    n % 256 ^ k = m % 256 ^ k := by
  intro k
  induction k with
  | zero =>
      intro _
      rw [Nat.pow_zero, Nat.mod_one, Nat.mod_one]
  | succ k ih =>
      intro h
      have hlow : n % 256 ^ k = m % 256 ^ k := ih fun i hi => h i (Nat.lt_succ_of_lt hi)
      calc
        n % 256 ^ (k + 1)
            = n % 256 ^ k + 256 ^ k * (n / 256 ^ k % 256) := by rw [Nat.pow_succ, Nat.mod_mul]
        _ = m % 256 ^ k + 256 ^ k * (m / 256 ^ k % 256) := by rw [hlow, h k (Nat.lt_succ_self k)]
        _ = m % 256 ^ (k + 1) := by rw [Nat.pow_succ, Nat.mod_mul]

theorem leBytes_injective {n m : UInt64} (h : leBytes n = leBytes m) : n = m := by
  have hdigits : ∀ i < 8, n.toNat / 256 ^ i % 256 = m.toNat / 256 ^ i % 256 := by
    intro i hi
    have hbyte := List.map_inj_left.1 h i (List.mem_range.2 hi)
    have hnat := congrArg UInt8.toNat hbyte
    rwa [UInt8.toNat_ofNat', UInt8.toNat_ofNat'] at hnat
  have hmod : n.toNat % 2 ^ 64 = m.toNat % 2 ^ 64 := mod_pow_of_digits hdigits
  rw [Nat.mod_eq_of_lt n.toNat_lt, Nat.mod_eq_of_lt m.toNat_lt] at hmod
  exact UInt64.toNat_inj.1 hmod

/-! ## Exact reads -/

/-- The first `n` bytes of a stream and the rest, if there are as many. -/
def takeExact (n : Nat) (stream : Bytes) : Option (Bytes × Bytes) :=
  if n ≤ stream.length then some (stream.take n, stream.drop n) else none

theorem takeExact_append (bs rest : Bytes) : takeExact bs.length (bs ++ rest) = some (bs, rest) := by
  simp [takeExact]

/-- What an exact read takes and leaves. -/
theorem takeExact_eq_some {n : Nat} {stream bs rest : Bytes} (h : takeExact n stream = some (bs, rest)) :
    stream = bs ++ rest ∧ bs.length = n := by
  unfold takeExact at h
  split at h
  next hle =>
    cases h
    exact ⟨(List.take_append_drop n stream).symm, List.length_take_of_le hle⟩
  · cases h

/-! ## Sequences of values -/

section Sequences

variable {S R α ε ε' : Type}

/-- Send the values in order; the first error ends it.  What was sent until then is on the stream. -/
def sendAll (send : S → α → Except ε Unit × Bytes × S) : S → List α → Except ε Unit × Bytes × S
  | s, [] => (.ok (), [], s)
  | s, a :: as =>
      match send s a with
      | (.error e, bs, s) => (.error e, bs, s)
      | (.ok (), bs, s) =>
          let (res, more, s) := sendAll send s as
          (res, bs ++ more, s)

/-- Read `n` values off the stream. -/
def recvAll (recv : R → Bytes → Except ε' α × R × Bytes) :
    (n : Nat) → R → Bytes → Except ε' (List α) × R × Bytes
  | 0, r, stream => (.ok [], r, stream)
  | n + 1, r, stream =>
      match recv r stream with
      | (.error e, r, stream) => (.error e, r, stream)
      | (.ok a, r, stream) =>
          match recvAll recv n r stream with
          | (.error e, r, stream) => (.error e, r, stream)
          | (.ok as, r, stream) => (.ok (a :: as), r, stream)

/-- A writer that keeps no state of its own. -/
def ofWriter (write : α → Except ε Unit × Bytes) (_ : Unit) (a : α) : Except ε Unit × Bytes × Unit :=
  ((write a).1, (write a).2, ())

/-- A reader that keeps no state of its own. -/
def ofReader (read : Bytes → Except ε' α × Bytes) (_ : Unit) (stream : Bytes) :
    Except ε' α × Unit × Bytes :=
  ((read stream).1, (), (read stream).2)

variable {send : S → α → Except ε Unit × Bytes × S} {recv : R → Bytes → Except ε' α × R × Bytes}

/-- The bytes `bs` are read back as the values: they come out in order, nothing that follows them is
touched, the reader ends in step with the sender, and none of them is a value that the reader refuses. -/
def ReadsBack (recv : R → Bytes → Except ε' α × R × Bytes) (refuses : α → Prop) (inStep : R → Prop)
    (r : R) (bs : Bytes) (values : List α) : Prop :=
  (∀ rest, ∃ r', recvAll recv values.length r (bs ++ rest) = (.ok values, r', rest) ∧ inStep r') ∧
    ∀ value ∈ values, ¬ refuses value

/-- A run of sends that succeeds is a send that succeeds and such a run. -/
theorem sendAll_cons_ok {s s' : S} {a : α} {as : List α} {bs : Bytes}
    (h : sendAll send s (a :: as) = (.ok (), bs, s')) :
    ∃ frame more s₁, send s a = (.ok (), frame, s₁) ∧ sendAll send s₁ as = (.ok (), more, s') ∧
      bs = frame ++ more := by
  rcases hsend : send s a with ⟨res, frame, s₁⟩
  cases res with
  | error e =>
      simp only [sendAll, hsend, Prod.mk.injEq] at h
      cases h.1
  | ok u =>
      rcases hrest : sendAll send s₁ as with ⟨res', more, s₂⟩
      simp only [sendAll, hsend, hrest, Prod.mk.injEq] at h
      rcases h with ⟨rfl, rfl, rfl⟩
      exact ⟨frame, more, s₁, rfl, hrest, rfl⟩

/-- Every sequence of good values that was sent is read back, and nothing after it is touched, if that is
so of one value whenever the two ends are `Paired`. -/
theorem recvAll_sendAll {good : α → Prop} {Paired : S → R → Prop}
    (hone : ∀ s r a bs s' rest, Paired s r → good a → send s a = (.ok (), bs, s') →
      ∃ r', recv r (bs ++ rest) = (.ok a, r', rest) ∧ Paired s' r') (as : List α) :
    ∀ {s s' : S} {r : R} {bs : Bytes} (rest : Bytes), Paired s r → (∀ a ∈ as, good a) →
      sendAll send s as = (.ok (), bs, s') →
      ∃ r', recvAll recv as.length r (bs ++ rest) = (.ok as, r', rest) ∧ Paired s' r' := by
  -- the tail of the stream is what follows the first frame
  induction as with
  | nil =>
      intro s s' r bs rest hpair _ h
      cases h
      exact ⟨r, rfl, hpair⟩
  | cons a as ih =>
      intro s s' r bs rest hpair hgood h
      rcases sendAll_cons_ok h with ⟨frame, more, s₁, hsend, hrest, rfl⟩
      rcases hone s r a frame s₁ (more ++ rest) hpair (hgood a (by simp)) hsend with ⟨r₁, hrecv, hpair₁⟩
      rcases ih rest hpair₁ (fun b hb => hgood b (List.mem_cons_of_mem a hb)) hrest with
        ⟨r', hall, hpair'⟩
      refine ⟨r', ?_, hpair'⟩
      rw [List.append_assoc, List.length_cons, recvAll, hrecv]
      dsimp only
      rw [hall]

/-- Where the reader refuses exactly the values that are not good, a sequence that was sent is read back
exactly when all of it is good. -/
theorem readsBack_iff {good refuses : α → Prop} {P : S → R → Prop} (hrefuses : ∀ a, ¬ refuses a ↔ good a)
    (hone : ∀ s r a bs s' rest, P s r → good a → send s a = (.ok (), bs, s') →
      ∃ r', recv r (bs ++ rest) = (.ok a, r', rest) ∧ P s' r') {as : List α} {s s' : S} {r : R} {bs : Bytes}
    (hpair : P s r) (hsent : sendAll send s as = (.ok (), bs, s')) :
    ReadsBack recv refuses (P s') r bs as ↔ ∀ a ∈ as, good a := by
  constructor
  · rintro ⟨_, hall⟩ a ha
    exact (hrefuses a).1 (hall a ha)
  · intro hgood
    refine ⟨?_, ?_⟩
    · intro rest
      exact recvAll_sendAll hone as rest hpair hgood hsent
    · intro a ha
      exact (hrefuses a).2 (hgood a ha)

end Sequences

end Framing
end Lib
end Thunderducks
