import Mathlib.Algebra.Order.BigOperators.Group.List
import Mathlib.Algebra.Order.Ring.Nat
import Mathlib.Algebra.Group.Action.Defs
import Thunderducks.Lib.Json

/-!
# JsonSize — how long the JSON of a value is

The writer puts one comma less than there are items between two brackets, so arrays and objects have the
length `joinedLength` of their parts.  A byte is one to three digits; `length_bytes_le` and
`length_bytes_replicate` bound what a byte string comes to.
-/

namespace Thunderducks
namespace Lib
namespace Json

/-- The length of pieces of these lengths, put one after the other with one comma between each two. -/
def joinedLength (lengths : List Nat) : Nat :=
  (lengths.map fun n => n + 1).sum - 1

theorem joinedLength_cons_cons (n m : Nat) (lengths : List Nat) :
    joinedLength (n :: m :: lengths) = n + 1 + joinedLength (m :: lengths) := by
  simp only [joinedLength, List.map_cons, List.sum_cons]
  omega

theorem length_renderItems (items : List Json) :
    (renderItems items).length = joinedLength (items.map fun v => v.render.length) := by
  induction items with
  | nil => rfl
  | cons v rest ih =>
      cases rest with
      | nil => simp [renderItems, joinedLength]
      | cons w rest =>
          have hsplit : renderItems (v :: w :: rest) = v.render ++ 44 :: renderItems (w :: rest) := rfl
          rw [hsplit, List.length_append, List.length_cons, ih]
          simp only [List.map_cons, joinedLength_cons_cons]
          omega

/-- The length of a field, with its name, its colon and its value. -/
def fieldLength (field : String × Json) : Nat :=
  (quoted field.1).length + 1 + field.2.render.length

theorem length_renderFields (fields : List (String × Json)) :
    (renderFields fields).length = joinedLength (fields.map fieldLength) := by
  induction fields with
  | nil => rfl
  | cons f rest ih =>
      rcases f with ⟨k, v⟩
      have hone : fieldLength (k, v) = (quoted k).length + 1 + v.render.length := rfl
      cases rest with
      | nil =>
          simp only [renderFields, joinedLength, List.length_append, List.length_cons, List.map_cons,
            List.map_nil, List.sum_cons, List.sum_nil, hone]
          omega
      | cons g rest =>
          rw [renderFields, List.map_cons, List.map_cons, joinedLength_cons_cons, ← List.map_cons, ← ih,
            hone]
          simp only [List.length_append, List.length_cons]
          omega

theorem length_arr (items : List Json) :
    (Json.arr items).render.length = joinedLength (items.map fun v => v.render.length) + 2 := by
  rw [render, List.length_cons, List.length_append, List.length_singleton, length_renderItems]

theorem length_obj (fields : List (String × Json)) :
    (Json.obj fields).render.length = joinedLength (fields.map fieldLength) + 2 := by
  rw [render, List.length_cons, List.length_append, List.length_singleton, length_renderFields]

/-- A part is no longer than the whole. -/
theorem le_joinedLength {n : Nat} {lengths : List Nat} (h : n ∈ lengths) : n ≤ joinedLength lengths := by
  rcases List.append_of_mem h with ⟨before, after, rfl⟩
  simp only [joinedLength, List.map_append, List.map_cons, List.sum_append, List.sum_cons]
  omega

/-- The value of a field is shorter than the object. -/
theorem length_field_lt {fields : List (String × Json)} {k : String} {v : Json} (h : (k, v) ∈ fields) :
    v.render.length < (Json.obj fields).render.length := by
  have hmem : fieldLength (k, v) ∈ fields.map fieldLength := List.mem_map.2 ⟨(k, v), h, rfl⟩
  have hle := le_joinedLength hmem
  have hfield : fieldLength (k, v) = (quoted k).length + 1 + v.render.length := rfl
  rw [length_obj]
  omega

/-! ## Byte strings -/

theorem length_bytes (bs : Bytes) :
    (Json.bytes bs).render.length = joinedLength (bs.map fun b => (digits b.toNat).length) + 2 := by
  rw [Json.bytes, length_arr, List.map_map]
  rfl

theorem length_bytes_replicate (n : Nat) (b : UInt8) :
    (Json.bytes (List.replicate (n + 1) b)).render.length =
      (n + 1) * ((digits b.toNat).length + 1) + 1 := by
  rw [length_bytes, List.map_replicate, joinedLength, List.map_replicate, List.sum_replicate_nat]
  have hpos : 1 ≤ (n + 1) * ((digits b.toNat).length + 1) := Nat.mul_pos (by omega) (by omega)
  omega

/-! ## Bounds -/

theorem joinedLength_le {lengths : List Nat} {bound : Nat} (h : ∀ n ∈ lengths, n ≤ bound) :
    joinedLength lengths ≤ lengths.length * (bound + 1) := by
  have hsum : (lengths.map fun n => n + 1).sum ≤ (lengths.map fun n => n + 1).length • (bound + 1) := by
    refine List.sum_le_card_nsmul _ _ ?_
    intro m hm
    rcases List.mem_map.1 hm with ⟨n, hn, rfl⟩
    exact Nat.succ_le_succ (h n hn)
  rw [List.length_map, smul_eq_mul] at hsum
  exact Nat.le_trans (Nat.sub_le _ _) hsum

theorem le_joinedLength_of_forall {lengths : List Nat} {bound : Nat} (h : ∀ n ∈ lengths, bound ≤ n) :
    lengths.length * (bound + 1) ≤ joinedLength lengths + 1 := by
  have hsum : (lengths.map fun n => n + 1).length • (bound + 1) ≤ (lengths.map fun n => n + 1).sum := by
    refine List.card_nsmul_le_sum _ _ ?_
    intro m hm
    rcases List.mem_map.1 hm with ⟨n, hn, rfl⟩
    exact Nat.succ_le_succ (h n hn)
  rw [List.length_map, smul_eq_mul] at hsum
  unfold joinedLength
  omega

theorem length_digits_le {n k : Nat} (hk : 0 < k) (h : n < 10 ^ k) : (digits n).length ≤ k := by
  unfold digits
  rw [List.length_map]
  exact (Nat.length_toDigits_le_iff (by omega) hk).2 h

theorem length_bytes_le (bs : Bytes) : (Json.bytes bs).render.length ≤ 4 * bs.length + 2 := by
  have hdigits : ∀ n ∈ bs.map fun b => (digits b.toNat).length, n ≤ 3 := by
    intro n hn
    rcases List.mem_map.1 hn with ⟨b, _, rfl⟩
    have hlt : b.toNat < 256 := b.toNat_lt
    exact length_digits_le (by omega) (by omega)
  have hle := joinedLength_le hdigits
  rw [length_bytes]
  rw [List.length_map] at hle
  omega

end Json
end Lib
end Thunderducks
