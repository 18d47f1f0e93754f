import Mathlib.Data.Finite.Prod
import Mathlib.Data.Fintype.Powerset
import Mathlib.Data.Set.Finite.Lemmas
import Mathlib.Logic.Relation
import Mathlib.Order.OrderIsoNat

/-!
# Gossip — parties that tell each other what they know

At each time two parties meet, and afterwards each knows what either knew before.  `Gossip.eventually` is the
general argument: if there is only so much to know, and the pairs that meet again and again connect the parties,
then from some time on all of them know the same.
-/

namespace Thunderducks
namespace Lib

variable {ι α : Type}

/-- What each party knows at each time, and who meets at that time. -/
structure Gossip (know : Nat → ι → Set α) (meets : Nat → ι × ι) : Prop where
  keeps : ∀ t i, know t i ⊆ know (t + 1) i
  first : ∀ t, know t (meets t).2 ⊆ know (t + 1) (meets t).1
  second : ∀ t, know t (meets t).1 ⊆ know (t + 1) (meets t).2
  bounded : ∃ all : Set α, all.Finite ∧ ∀ t i, know t i ⊆ all

namespace Gossip

variable {know : Nat → ι → Set α} {meets : Nat → ι × ι}

/-- Two parties that meet again and again. -/
def InTouch (meets : Nat → ι × ι) (i j : ι) : Prop :=
  ∀ t, ∃ u, t ≤ u ∧ (meets u = (i, j) ∨ meets u = (j, i))

/-- Any two parties are connected by parties that meet again and again. -/
def Connected (meets : Nat → ι × ι) : Prop :=
  ∀ i j, Relation.ReflTransGen (InTouch meets) i j

theorem mono (h : Gossip know meets) {t u : Nat} (htu : t ≤ u) (i : ι) : know t i ⊆ know u i := by
  induction htu with
  | refl => exact Set.Subset.refl _
  | step _ ih => exact ih.trans (h.keeps _ i)

/-- There is only so much to learn: at some time nobody learns any more. -/
theorem settles [Finite ι] (h : Gossip know meets) : ∃ T, ∀ t, T ≤ t → ∀ i, know t i = know T i := by
  rcases h.bounded with ⟨all, hfinite, hall⟩
  have : Finite all := hfinite
  -- the knowledge of all parties, as one increasing sequence in a finite order
  let chain : Nat →o (ι → Set all) :=
    { toFun := fun t i => {x | x.1 ∈ know t i}
      monotone' := fun t u htu i x hx => h.mono htu i hx }
  rcases WellFoundedGT.monotone_chain_condition chain with ⟨T, hT⟩
  refine ⟨T, fun t ht i => Set.Subset.antisymm ?_ (h.mono ht i)⟩
  intro x hx
  have hsame : chain T i = chain t i := congrFun (hT t ht) i
  have hin : (⟨x, hall t i hx⟩ : all) ∈ chain t i := hx
  rw [← hsame] at hin
  exact hin

/-- From some time on all parties know the same. -/
theorem eventually [Finite ι] (h : Gossip know meets) (hconn : Connected meets) :
    ∃ T, ∀ t, T ≤ t → ∀ i j, know t i = know t j := by
  rcases h.settles with ⟨T, hT⟩
  have hlearn : ∀ {i j : ι}, InTouch meets i j → know T i = know T j := by
    intro i j htouch
    rcases htouch T with ⟨u, hu, hmeet⟩
    -- what either learns when they meet it has known since `T`
    have hi : know (u + 1) i = know T i := hT (u + 1) (Nat.le_succ_of_le hu) i
    have hj : know (u + 1) j = know T j := hT (u + 1) (Nat.le_succ_of_le hu) j
    have hfirst := h.first u
    have hsecond := h.second u
    rw [← hi, ← hj]
    rcases hmeet with hmeet | hmeet
    · rw [hmeet] at hfirst hsecond
      rw [hT u hu j, ← hj] at hfirst
      rw [hT u hu i, ← hi] at hsecond
      exact Set.Subset.antisymm hsecond hfirst
    · rw [hmeet] at hfirst hsecond
      rw [hT u hu i, ← hi] at hfirst
      rw [hT u hu j, ← hj] at hsecond
      exact Set.Subset.antisymm hfirst hsecond
  have hall : ∀ i j, know T i = know T j := by
    intro i j
    induction hconn i j with
    | refl => rfl
    | tail _ htouch ih => exact ih.trans (hlearn htouch)
  refine ⟨T, fun t ht i j => ?_⟩
  calc
    know t i = know T i := hT t ht i
    _ = know T j := hall i j
    _ = know t j := (hT t ht j).symm

end Gossip

end Lib
end Thunderducks
