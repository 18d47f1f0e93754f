import Mathlib.Data.Fintype.Card
import Mathlib.Data.Set.Finite.Basic
import Mathlib.Logic.Relation
import Mathlib.Order.WellFounded

/-!
# Causal — items that wait for their parents

Items of any type `α` carry an id and name the ids of their parents.  An item can be taken once
all its parents have been.  Starting from a set `base` of ids already taken, the ids that a `pool`
of items supplies form a least fixpoint, `Supplied`:

* `supplied_subset` — it lies inside every set that contains `base` and is closed under taking;
* `Acyclic.exists_tip` — over a finite, acyclic pool every item is below one that no item names;
* `supplied_iff_ancestors` — over a finite, acyclic pool and from nothing, an item is supplied
  exactly when all its ancestors are in the pool;
* `ParentsFirst` — a list that an item enters only after its parents, and so without cycles;
* `Settled` — what a buffer that never leaves a takeable item waiting looks like, and
  `Settled.taken_iff`: its contents are determined by the pool alone.
-/

namespace Thunderducks
namespace Lib
namespace Causal

section Supplied

variable {α ι : Type} (idOf : α → ι) (parents : α → List ι)

/-- The ids obtainable from `base` by taking items of `pool` whose parents have been obtained. -/
inductive Supplied (base : Set ι) (pool : Set α) : ι → Prop
  | base {i : ι} : i ∈ base → Supplied base pool i
  | item {x : α} : x ∈ pool → (∀ p ∈ parents x, Supplied base pool p) →
      Supplied base pool (idOf x)

/-- Some item of the pool with id `i` names `p` as a parent. -/
def ParentOf (pool : Set α) (i p : ι) : Prop :=
  ∃ x ∈ pool, idOf x = i ∧ p ∈ parents x

/-- `p` is an ancestor of `i` through the items of the pool. -/
abbrev Ancestor (pool : Set α) : ι → ι → Prop :=
  Relation.TransGen (ParentOf idOf parents pool)

/-- No id is its own ancestor. -/
def Acyclic (pool : Set α) : Prop :=
  ∀ i, ¬ Ancestor idOf parents pool i i

variable {idOf parents} {base base' : Set ι} {pool pool' : Set α}

theorem Supplied.mono (hb : base ⊆ base') (hp : pool ⊆ pool') {i : ι}
    (h : Supplied idOf parents base pool i) : Supplied idOf parents base' pool' i := by
  induction h with
  | base hi => exact Supplied.base (hb hi)
  | item hx _ ih => exact Supplied.item (hp hx) ih

/-- What `pool'` supplies may be used as a base: taking from it first changes nothing. -/
theorem Supplied.trans {i : ι} (h : Supplied idOf parents base pool i)
    (hb : ∀ j ∈ base, Supplied idOf parents base' pool' j) (hp : pool ⊆ pool') :
    Supplied idOf parents base' pool' i := by
  induction h with
  | base hi => exact hb _ hi
  | item hx _ ih => exact Supplied.item (hp hx) ih

/-- The least-fixpoint property. -/
theorem supplied_subset {taken : Set ι} (hb : base ⊆ taken)
    (hclosed : ∀ x ∈ pool, (∀ p ∈ parents x, p ∈ taken) → idOf x ∈ taken) {i : ι}
    (h : Supplied idOf parents base pool i) : i ∈ taken := by
  induction h with
  | base hi => exact hb hi
  | item hx _ ih => exact hclosed _ hx ih

/-! ## Ancestors -/

theorem Supplied.mem_pool {i : ι} (h : Supplied idOf parents ∅ pool i) :
    ∃ x ∈ pool, idOf x = i := by
  cases h with
  | base hi => exact absurd hi (Set.notMem_empty _)
  | item hx _ => exact ⟨_, hx, rfl⟩

/-- All ancestors of a supplied id are ids of the pool. -/
theorem Supplied.ancestors (hinj : Set.InjOn idOf pool) {i p : ι}
    (h : Supplied idOf parents ∅ pool i) (ha : Ancestor idOf parents pool i p) :
    ∃ y ∈ pool, idOf y = p := by
  induction h with
  | base hi => exact absurd hi (Set.notMem_empty _)
  | @item x hx hps ih =>
      -- the first step up from `x` leads to one of its own parents, as ids identify items
      have hparent : ∀ q, ParentOf idOf parents pool (idOf x) q → q ∈ parents x := by
        rintro q ⟨x', hx', hid, hq⟩
        have hEq : x' = x := hinj hx' hx hid
        simpa [hEq] using hq
      rcases Relation.TransGen.head'_iff.1 ha with ⟨q, hq, hrest⟩
      have hqx : q ∈ parents x := hparent q hq
      rcases Relation.reflTransGen_iff_eq_or_transGen.1 hrest with hEq | hup
      · have hsup : Supplied idOf parents ∅ pool q := hps q hqx
        simpa [hEq] using hsup.mem_pool
      · exact ih q hqx hup

/-- An id that is supplied from nothing is no ancestor of itself. -/
theorem Supplied.not_ancestor_self (hinj : Set.InjOn idOf pool) {i : ι}
    (h : Supplied idOf parents ∅ pool i) : ¬ Ancestor idOf parents pool i i := by
  induction h with
  | base hi => exact absurd hi (Set.notMem_empty _)
  | @item x hx _ ih =>
      intro hcycle
      -- a cycle through `x` goes through a parent of `x` as well
      rcases Relation.TransGen.head'_iff.1 hcycle with ⟨q, hstep, hrest⟩
      rcases hstep with ⟨x', hx', hid, hq⟩
      have hEq : x' = x := hinj hx' hx hid
      rw [hEq] at hq
      have hback : ParentOf idOf parents pool (idOf x) q := ⟨x, hx, rfl, hq⟩
      exact ih q hq (Relation.TransGen.tail' hrest hback)

/-- Parents of smaller rank rule out cycles. -/
theorem acyclic_of_rank (rank : ι → Nat) (h : ∀ x ∈ pool, ∀ p ∈ parents x, rank p < rank (idOf x)) :
    Acyclic idOf parents pool := by
  have hlt : ∀ {i p}, Ancestor idOf parents pool i p → rank p < rank i := by
    intro i p ha
    induction ha with
    | single hstep =>
        rcases hstep with ⟨x, hx, rfl, hp⟩
        exact h x hx _ hp
    | tail _ hstep ih =>
        rcases hstep with ⟨x, hx, rfl, hp⟩
        exact (h x hx _ hp).trans ih
  intro i ha
  exact Nat.lt_irrefl _ (hlt ha)

/-- Over a finite acyclic pool, climbing from item to parent item ends. -/
theorem Acyclic.wellFounded (hfin : pool.Finite) (hacyc : Acyclic idOf parents pool) :
    WellFounded fun y x : pool => Ancestor idOf parents pool (idOf x) (idOf y) := by
  have : Finite pool := hfin
  have : IsTrans pool fun y x : pool => Ancestor idOf parents pool (idOf x) (idOf y) :=
    ⟨fun _ _ _ h₁ h₂ => h₂.trans h₁⟩
  have : Std.Irrefl fun y x : pool => Ancestor idOf parents pool (idOf x) (idOf y) :=
    ⟨fun x => hacyc (idOf x)⟩
  exact Finite.wellFounded_of_trans_of_irrefl _

/-- Over a finite acyclic pool, climbing down from item to child ends too: every item is, or is an ancestor of, one
that no item names. -/
theorem Acyclic.exists_tip (hfin : pool.Finite) (hacyc : Acyclic idOf parents pool) {x : α} (hx : x ∈ pool) :
    ∃ t ∈ pool, (idOf t = idOf x ∨ Ancestor idOf parents pool (idOf t) (idOf x)) ∧ ∀ y ∈ pool, idOf t ∉ parents y := by
  have : Finite pool := hfin
  have : IsTrans pool fun y x : pool => Ancestor idOf parents pool (idOf y) (idOf x) :=
    ⟨fun _ _ _ h₁ h₂ => h₁.trans h₂⟩
  have : Std.Irrefl fun y x : pool => Ancestor idOf parents pool (idOf y) (idOf x) :=
    ⟨fun x => hacyc (idOf x)⟩
  have hwf : WellFounded fun y x : pool => Ancestor idOf parents pool (idOf y) (idOf x) :=
    Finite.wellFounded_of_trans_of_irrefl _
  have key : ∀ z : pool, ∃ t ∈ pool, (idOf t = idOf z ∨ Ancestor idOf parents pool (idOf t) (idOf z)) ∧
      ∀ y ∈ pool, idOf t ∉ parents y := by
    intro z
    induction z using hwf.induction with
    | _ z ih =>
        by_cases hnamed : ∃ y ∈ pool, idOf z ∈ parents y
        · rcases hnamed with ⟨y, hy, hmem⟩
          have hup : Ancestor idOf parents pool (idOf y) (idOf z) := Relation.TransGen.single ⟨y, hy, rfl, hmem⟩
          rcases ih ⟨y, hy⟩ hup with ⟨t, ht, hsame | habove, htip⟩
          · exact ⟨t, ht, Or.inr (hsame ▸ hup), htip⟩
          · exact ⟨t, ht, Or.inr (habove.trans hup), htip⟩
        · push Not at hnamed
          exact ⟨z, z.2, Or.inl rfl, hnamed⟩
  exact key ⟨x, hx⟩

/-- From nothing, an acyclic pool supplies exactly the items all of whose ancestors it holds. -/
theorem supplied_iff_ancestors (hfin : pool.Finite) (hinj : Set.InjOn idOf pool)
    (hacyc : Acyclic idOf parents pool) {x : α} (hx : x ∈ pool) :
    Supplied idOf parents ∅ pool (idOf x) ↔
      ∀ p, Ancestor idOf parents pool (idOf x) p → ∃ y ∈ pool, idOf y = p := by
  constructor
  · intro h p hp
    exact h.ancestors hinj hp
  · intro h
    have hwf := hacyc.wellFounded hfin
    -- induction along the ancestor order, which reaches every parent item
    have key : ∀ z : pool, (∀ p, Ancestor idOf parents pool (idOf z) p →
        ∃ y ∈ pool, idOf y = p) → Supplied idOf parents ∅ pool (idOf z) := by
      intro z
      induction z using hwf.induction with
      | _ z ih =>
          intro hz
          refine Supplied.item z.2 ?_
          intro p hp
          have hstep : ParentOf idOf parents pool (idOf z) p := ⟨z, z.2, rfl, hp⟩
          rcases hz p (Relation.TransGen.single hstep) with ⟨y, hy, rfl⟩
          refine ih ⟨y, hy⟩ (Relation.TransGen.single hstep) ?_
          intro q hq
          exact hz q (Relation.TransGen.head hstep hq)
    exact key ⟨x, hx⟩ h

/-! ## Lists with the parents first -/

/-- Every item of the list has its parents before it. -/
def ParentsFirst (idOf : α → ι) (parents : α → List ι) (l : List α) : Prop :=
  ∀ before x after, l = before ++ x :: after → ∀ p ∈ parents x, ∃ y ∈ before, idOf y = p

/-- A place in a list with one more element at its end: the end, or a place in the list. -/
theorem split_concat {l before after : List α} {x y : α} (h : l ++ [x] = before ++ y :: after) :
    (l = before ∧ x = y) ∨ ∃ after', l = before ++ y :: after' := by
  rcases List.eq_nil_or_concat after with rfl | ⟨after', z, rfl⟩
  · have hlast : l = before ∧ x = y := by
      simpa using List.append_inj' h (by simp)
    exact Or.inl hlast
  · have hsplit : l ++ [x] = (before ++ y :: after') ++ [z] := by
      simpa using h
    exact Or.inr ⟨after', (List.append_inj' hsplit (by simp)).1⟩

namespace ParentsFirst

variable {l : List α} {x : α}

theorem nil : ParentsFirst idOf parents [] := by
  intro before x after h
  simp at h

/-- An item whose parents are all listed may be added at the end. -/
theorem concat (h : ParentsFirst idOf parents l) (hx : ∀ p ∈ parents x, ∃ y ∈ l, idOf y = p) :
    ParentsFirst idOf parents (l ++ [x]) := by
  intro before y after hsplit p hp
  rcases split_concat hsplit with ⟨rfl, rfl⟩ | ⟨after', hinner⟩
  · exact hx p hp
  · exact h before y after' hinner p hp

variable [DecidableEq ι]

/-- The parents of a listed item stand before it. -/
theorem idxOf_lt (h : ParentsFirst idOf parents l) (hnd : (l.map idOf).Nodup) (hx : x ∈ l) {p : ι}
    (hp : p ∈ parents x) : (l.map idOf).idxOf p < (l.map idOf).idxOf (idOf x) := by
  rcases List.append_of_mem hx with ⟨before, after, rfl⟩
  rcases h before x after rfl p hp with ⟨y, hy, rfl⟩
  have hfront : idOf y ∈ before.map idOf := List.mem_map.2 ⟨y, hy, rfl⟩
  have hnot : idOf x ∉ before.map idOf := by
    rw [List.map_append, List.map_cons] at hnd
    intro hin
    exact (List.nodup_append.1 hnd).2.2 _ hin _ (by simp) rfl
  rw [List.map_append, List.map_cons, List.idxOf_append_of_mem hfront,
    List.idxOf_append_of_notMem hnot, List.idxOf_cons_self, List.length_map, Nat.add_zero]
  have hlt := List.idxOf_lt_length_of_mem hfront
  rwa [List.length_map] at hlt

/-- No listed item is its own ancestor. -/
theorem acyclic (h : ParentsFirst idOf parents l) (hnd : (l.map idOf).Nodup) :
    Acyclic idOf parents {x | x ∈ l} :=
  acyclic_of_rank (fun i => (l.map idOf).idxOf i) fun _ hx _ hp => h.idxOf_lt hnd hx hp

omit [DecidableEq ι] in
/-- Nothing has the last item as a parent. -/
theorem last_childless (h : ParentsFirst idOf parents (l ++ [x]))
    (hnd : ((l ++ [x]).map idOf).Nodup) : ∀ y ∈ l ++ [x], idOf x ∉ parents y := by
  intro y hy hp
  have hnew : ∀ z ∈ l, idOf z ≠ idOf x := by
    intro z hz heq
    rw [List.map_append] at hnd
    exact (List.nodup_append.1 hnd).2.2 _ (List.mem_map.2 ⟨z, hz, rfl⟩) _ (by simp) heq
  -- a parent of `y` stands before `y`, hence in `l`
  rcases List.append_of_mem hy with ⟨before, after, hsplit⟩
  rcases h before y after hsplit (idOf x) hp with ⟨z, hz, heq⟩
  refine hnew z ?_ heq
  rcases split_concat hsplit with ⟨rfl, _⟩ | ⟨after', hinner⟩
  · exact hz
  · rw [hinner]
    exact List.mem_append_left _ hz

end ParentsFirst

/-! ## Settled buffers -/

/-- A buffer that has been offered the items of `pool`, has taken some and parked the others, and
leaves no parked item waiting whose parents have all been taken. -/
structure Settled (idOf : α → ι) (parents : α → List ι) (pool taken parked : Set α) : Prop where
  cover : ∀ x, x ∈ pool ↔ x ∈ taken ∨ x ∈ parked
  grounded : ∀ x ∈ taken, Supplied idOf parents ∅ taken (idOf x)
  blocked : ∀ x ∈ parked, ∃ p ∈ parents x, ∀ y ∈ taken, idOf y ≠ p

namespace Settled

variable {taken parked taken' parked' : Set α}

theorem taken_subset (h : Settled idOf parents pool taken parked) : taken ⊆ pool :=
  fun x hx => (h.cover x).2 (Or.inl hx)

/-- The items taken are those the pool supplies. -/
theorem taken_iff (h : Settled idOf parents pool taken parked) (hinj : Set.InjOn idOf pool)
    {x : α} (hx : x ∈ pool) : x ∈ taken ↔ Supplied idOf parents ∅ pool (idOf x) := by
  constructor
  · intro ht
    exact (h.grounded x ht).mono (Set.Subset.refl _) h.taken_subset
  · intro hs
    have hclosed : ∀ z ∈ pool, (∀ p ∈ parents z, p ∈ Set.image idOf taken) →
        idOf z ∈ Set.image idOf taken := by
      intro z hz hps
      rcases (h.cover z).1 hz with ht | hp
      · exact ⟨z, ht, rfl⟩
      · rcases h.blocked z hp with ⟨p, hpz, hno⟩
        rcases hps p hpz with ⟨y, hy, hyp⟩
        exact absurd hyp (hno y hy)
    rcases supplied_subset (Set.empty_subset _) hclosed hs with ⟨y, hy, hyx⟩
    have hEq : y = x := hinj (h.taken_subset hy) hx hyx
    simpa [hEq] using hy

/-- A parked item has not been taken. -/
theorem not_taken (h : Settled idOf parents pool taken parked) (hinj : Set.InjOn idOf pool)
    {x : α} (hp : x ∈ parked) : x ∉ taken := by
  intro ht
  rcases h.blocked x hp with ⟨p, hpx, hno⟩
  have hs : Supplied idOf parents ∅ taken (idOf x) := h.grounded x ht
  have hanc : Ancestor idOf parents taken (idOf x) p :=
    Relation.TransGen.single ⟨x, ht, rfl, hpx⟩
  rcases hs.ancestors (hinj.mono h.taken_subset) hanc with ⟨y, hy, hyp⟩
  exact hno y hy hyp

end Settled

end Supplied

end Causal
end Lib
end Thunderducks
