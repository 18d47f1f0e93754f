import Mathlib.Data.List.AList
import Mathlib.Data.List.Perm.Basic
import Mathlib.Data.List.Nodup

/-!
# HashMap — association lists standing for hash maps

A hash map is modelled by Mathlib's `AList` with a constant value type: the keys are distinct by
construction, `lookup`, `insert` and `erase` are `get`, `insert` and `remove`.  This file adds the
parts that `AList` lacks:

* `values`, the values in some order (callers never depend on which);
* `retain`, the entries whose key and value pass a test;
* `IterOrder`, an arbitrary order in which a map may hand out its entries.
-/

namespace Thunderducks
namespace Lib

/-- A finite map with distinct keys. -/
abbrev HashMap (K V : Type) : Type := AList (fun _ : K => V)

namespace HashMap

variable {K V : Type}

/-! ## Values -/

/-- The values of a map, one for each key. -/
def values (m : HashMap K V) : List V :=
  m.entries.map Sigma.snd

@[simp] theorem values_empty : values (∅ : HashMap K V) = [] := rfl

variable [DecidableEq K]

theorem mem_values {m : HashMap K V} {v : V} :
    v ∈ m.values ↔ ∃ k, m.lookup k = some v := by
  constructor
  · intro h
    rcases List.mem_map.1 h with ⟨⟨k, w⟩, hmem, rfl⟩
    exact ⟨k, AList.mem_lookup_iff.2 hmem⟩
  · rintro ⟨k, hk⟩
    exact List.mem_map.2 ⟨⟨k, v⟩, AList.mem_lookup_iff.1 hk, rfl⟩

theorem mem_of_lookup {m : HashMap K V} {k : K} {v : V} (h : m.lookup k = some v) : k ∈ m :=
  AList.lookup_isSome.1 (by simp [h])

theorem mem_iff_lookup {m : HashMap K V} {k : K} : k ∈ m ↔ ∃ v, m.lookup k = some v := by
  rw [← AList.lookup_isSome, Option.isSome_iff_exists]

/-- Values that name their keys are distinct. -/
theorem values_nodup {m : HashMap K V} {name : V → K} (h : ∀ {k v}, m.lookup k = some v → name v = k) :
    m.values.Nodup := by
  have hkeys : m.values.map name = m.keys := by
    unfold values
    rw [List.map_map]
    refine List.map_congr_left ?_
    intro e he
    exact h (AList.mem_lookup_iff.2 he)
  refine List.Nodup.of_map name ?_
  rw [hkeys]
  exact m.keys_nodup

/-- The value stored after an insertion, at any key. -/
theorem lookup_insert_eq {m : HashMap K V} {k k' : K} {v : V} :
    (m.insert k v).lookup k' = if k' = k then some v else m.lookup k' := by
  by_cases h : k' = k
  · subst h
    simp
  · simp [h, AList.lookup_insert_ne h]

/-- The value stored after a removal, at any key. -/
theorem lookup_erase_eq {m : HashMap K V} {k k' : K} :
    (m.erase k).lookup k' = if k' = k then none else m.lookup k' := by
  by_cases h : k' = k
  · subst h
    simp
  · simp [h, AList.lookup_erase_ne h]

/-! ## Listing and refilling -/

omit [DecidableEq K] in
/-- The entries of a map, key and value. -/
def pairs (m : HashMap K V) : List (K × V) :=
  m.entries.map fun e => (e.1, e.2)

theorem mem_pairs {m : HashMap K V} {k : K} {v : V} : (k, v) ∈ m.pairs ↔ m.lookup k = some v := by
  unfold pairs
  rw [List.mem_map]
  constructor
  · rintro ⟨⟨k', v'⟩, hmem, heq⟩
    cases heq
    exact AList.mem_lookup_iff.2 hmem
  · intro h
    exact ⟨⟨k, v⟩, AList.mem_lookup_iff.1 h, rfl⟩

omit [DecidableEq K] in
theorem pairs_nodup (m : HashMap K V) : (m.pairs.map Prod.fst).Nodup := by
  have hkeys : m.pairs.map Prod.fst = m.keys := by
    unfold pairs
    rw [List.map_map]
    rfl
  rw [hkeys]
  exact m.keys_nodup

/-- Insert one entry after the other. -/
def insertAll (m : HashMap K V) (l : List (K × V)) : HashMap K V :=
  l.foldl (fun m e => m.insert e.1 e.2) m

theorem lookup_insertAll (l : List (K × V)) : ∀ {m : HashMap K V} {k : K},
    (l.map Prod.fst).Nodup → (∀ e ∈ l, e.1 ∉ m) →
    ∀ v, (m.insertAll l).lookup k = some v ↔ m.lookup k = some v ∨ (k, v) ∈ l := by
  induction l with
  | nil =>
      intro m k _ _ v
      simp [insertAll]
  | cons e l ih =>
      intro m k hnd hfree v
      rcases List.nodup_cons.1 hnd with ⟨hnew, hnd⟩
      have hfree' : ∀ e' ∈ l, e'.1 ∉ m.insert e.1 e.2 := by
        intro e' he' hin
        rcases (AList.mem_insert _).1 hin with heq | hin
        · exact hnew (List.mem_map.2 ⟨e', he', heq⟩)
        · exact hfree e' (List.mem_cons_of_mem _ he') hin
      have hstep := ih hnd hfree' (k := k) v
      have hfold : insertAll m (e :: l) = insertAll (m.insert e.1 e.2) l := rfl
      rw [hfold, hstep, lookup_insert_eq, List.mem_cons]
      -- the key of the first entry, or another
      by_cases hk : k = e.1
      · have hnone : m.lookup k = none := by
          rw [hk]
          exact AList.lookup_eq_none.2 (hfree e (by simp))
        rw [if_pos hk, hnone]
        constructor
        · rintro (hv | hin)
          · cases hv
            exact Or.inr (Or.inl (Prod.ext hk rfl))
          · exact Or.inr (Or.inr hin)
        · rintro (hv | heq | hin)
          · cases hv
          · exact Or.inl (congrArg some (congrArg Prod.snd heq).symm)
          · exact Or.inr hin
      · rw [if_neg hk]
        have hne : (k, v) ≠ e := fun heq => hk (congrArg Prod.fst heq)
        simp [hne]

/-- The entries of a map, in any order, make the map again. -/
theorem lookup_insertAll_pairs {m : HashMap K V} {l : List (K × V)} (hperm : l.Perm m.pairs) (k : K) :
    ((∅ : HashMap K V).insertAll l).lookup k = m.lookup k := by
  have hnd : (l.map Prod.fst).Nodup := (hperm.map Prod.fst).nodup_iff.2 m.pairs_nodup
  refine Option.ext fun v => ?_
  rw [lookup_insertAll l hnd (fun e _ => AList.notMem_empty e.1), hperm.mem_iff, mem_pairs]
  simp

/-! ## Retain -/

omit [DecidableEq K] in
/-- Keep the entries for which `p` holds. -/
def retain (p : K → V → Bool) (m : HashMap K V) : HashMap K V :=
  { entries := m.entries.filter fun e => p e.1 e.2
    nodupKeys := m.nodupKeys.sublist List.filter_sublist }

theorem lookup_retain {p : K → V → Bool} {m : HashMap K V} {k : K} {v : V} :
    (m.retain p).lookup k = some v ↔ m.lookup k = some v ∧ p k v = true := by
  have h₁ : (m.retain p).lookup k = some v ↔ Sigma.mk k v ∈ (m.retain p).entries :=
    AList.mem_lookup_iff
  have h₂ : m.lookup k = some v ↔ Sigma.mk k v ∈ m.entries := AList.mem_lookup_iff
  rw [h₁, h₂]
  simp [retain]

omit [DecidableEq K] in
theorem length_retain_le (p : K → V → Bool) (m : HashMap K V) :
    (m.retain p).entries.length ≤ m.entries.length :=
  List.length_filter_le _ _

end HashMap

/-! ## Iteration order -/

/-- An order in which the entries of a map may be listed: any rearrangement of a list. -/
structure IterOrder (α : Type) where
  run : List α → List α
  perm : ∀ l, (run l).Perm l

namespace IterOrder

variable {α : Type}

/-- The order in which the entries are stored. -/
def stored : IterOrder α :=
  { run := fun l => l
    perm := fun l => List.Perm.refl l }

theorem perm_ite [DecidableEq α] {l l' : List α} (h : l'.Perm l) (m : List α) :
    (if m = l then l' else m).Perm m := by
  split
  next heq =>
    rw [heq]
    exact h
  next => exact List.Perm.refl m

/-- The order that lists the entries `l` as `l'`. -/
def ofPerm [DecidableEq α] {l l' : List α} (h : l'.Perm l) : IterOrder α :=
  { run := fun m => if m = l then l' else m
    perm := fun m => perm_ite h m }

theorem run_ofPerm [DecidableEq α] {l l' : List α} (h : l'.Perm l) : (ofPerm h).run l = l' :=
  if_pos rfl

@[simp] theorem mem_run (o : IterOrder α) {l : List α} {a : α} : a ∈ o.run l ↔ a ∈ l :=
  (o.perm l).mem_iff

end IterOrder

end Lib
end Thunderducks
