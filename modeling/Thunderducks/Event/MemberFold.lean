import Mathlib.Data.List.Induction
import Mathlib.Data.Set.Basic
import Thunderducks.Lib.Extension
import Thunderducks.Event.Authority

/-!
# MemberFold — the state machine of one member

The fold of `apply_event` over the actions on one target, and when its result does not depend on the
order of the actions that no parent link orders.  `Settled` is the exact condition: either every leave
has a ban after it, or every ban has a leave after it and all the actions that can come last are
the same.
-/

namespace Thunderducks
namespace Event

open Lib Extension

/-! ## The fold over a list of actions -/

/-- One action of the fold; a refused one leaves the state. -/
def MembershipAction.step (action : MembershipAction) (state : Option MemberState) :
    Option MemberState :=
  if action.Refuses state then state else some action.result

def foldActions (init : Option MemberState) (actions : List MembershipAction) :
    Option MemberState :=
  actions.foldl (fun state action => action.step state) init

theorem foldActions_append (init : Option MemberState) (l l' : List MembershipAction) :
    foldActions init (l ++ l') = foldActions (foldActions init l) l' :=
  List.foldl_append

/-- Only a leave ends a ban. -/
theorem foldActions_banned {l : List MembershipAction} (h : ∀ a ∈ l, a ≠ .leave) :
    foldActions (some .banned) l = some .banned := by
  induction l with
  | nil => rfl
  | cons a l ih =>
      have ha : a.step (some .banned) = some .banned := by
        have hne : a ≠ .leave := h a (by simp)
        cases a <;> simp_all [MembershipAction.step, MembershipAction.Refuses,
          MembershipAction.result]
      change foldActions (a.step (some .banned)) l = some .banned
      rw [ha]
      exact ih fun b hb => h b (List.mem_cons_of_mem _ hb)

theorem foldActions_ban (init : Option MemberState) (l₁ : List MembershipAction)
    {l₂ : List MembershipAction} (h : ∀ a ∈ l₂, a ≠ .leave) :
    foldActions init (l₁ ++ .ban :: l₂) = some .banned := by
  rw [foldActions_append]
  exact foldActions_banned h

/-- If every ban has a leave after it, the target does not end up banned. -/
theorem foldActions_ne_banned {init : Option MemberState} (hinit : init ≠ some .banned)
    (l : List MembershipAction) (h : ∀ l₁ l₂, l = l₁ ++ .ban :: l₂ → .leave ∈ l₂) :
    foldActions init l ≠ some .banned := by
  induction l using List.reverseRecOn with
  | nil => exact hinit
  | append_singleton l a ih =>
      rw [foldActions_append]
      change a.step (foldActions init l) ≠ some .banned
      cases a with
      | ban =>
          have hmem := h l [] rfl
          cases hmem
      | leave => simp [MembershipAction.step, MembershipAction.Refuses, MembershipAction.result]
      | invite =>
          have hprev : foldActions init l ≠ some .banned := by
            refine ih fun l₁ l₂ hl => ?_
            have hmem := h l₁ (l₂ ++ [.invite]) (by simp [hl])
            simpa using hmem
          simp [MembershipAction.step, MembershipAction.Refuses, MembershipAction.result, hprev]
      | join =>
          have hprev : foldActions init l ≠ some .banned := by
            refine ih fun l₁ l₂ hl => ?_
            have hmem := h l₁ (l₂ ++ [.join]) (by simp [hl])
            simpa using hmem
          simp [MembershipAction.step, MembershipAction.Refuses, MembershipAction.result, hprev]

/-- Unless the target ends up banned, the last action decides. -/
theorem foldActions_last {init : Option MemberState} {l : List MembershipAction}
    {a : MembershipAction} (h : foldActions init (l ++ [a]) ≠ some .banned) :
    foldActions init (l ++ [a]) = some a.result := by
  rw [foldActions_append] at h ⊢
  change a.step (foldActions init l) ≠ some .banned at h
  change a.step (foldActions init l) = some a.result
  unfold MembershipAction.step at h ⊢
  split
  · next href =>
      rw [if_pos href] at h
      exact absurd href.2 h
  · rfl

/-! ## Actions ordered by a precedence -/

section Settled

variable {α : Type} (act : α → MembershipAction) (r : α → α → Prop)

/-- Nothing in `T` has to come after `x`. -/
def Maximal (T : Set α) (x : α) : Prop :=
  ∀ y ∈ T, ¬ r x y

/-- There is a ban, and every leave has a ban after it. -/
def BanLast (T : Set α) : Prop :=
  (∃ b ∈ T, act b = .ban) ∧ ∀ x ∈ T, act x = .leave → ∃ y ∈ T, act y = .ban ∧ r x y

/-- Every ban has a leave after it, and what can come last is the same action. -/
def SameLast (T : Set α) : Prop :=
  (∀ x ∈ T, act x = .ban → ∃ y ∈ T, act y = .leave ∧ r x y) ∧
    ∀ x ∈ T, ∀ y ∈ T, Maximal r T x → Maximal r T y → act x = act y

def Settled (T : Set α) : Prop :=
  BanLast act r T ∨ SameLast act r T

/-- The list is an order of `T` that respects `r`. -/
structure Orders (T : Set α) (l : List α) : Prop where
  mem : ∀ x, x ∈ l ↔ x ∈ T
  respects : Respects r l

variable {act r} {T : Set α} {l : List α} {init : Option MemberState}

/-- What has to come after an element of an order stands after it. -/
theorem Orders.after {l₁ l₂ : List α} {e y : α} (h : Orders r T (l₁ ++ e :: l₂))
    (hirr : ¬ r e e) (hy : y ∈ T) (hr : r e y) : y ∈ l₂ := by
  rcases List.mem_append.1 ((h.mem y).2 hy) with hy | hy
  · exact absurd hr (h.respects.before hy)
  · rcases List.mem_cons.1 hy with rfl | hy
    · exact absurd hr hirr
    · exact hy

theorem BanLast.fold (h : BanLast act r T) (hl : Orders r T l) (hirr : ∀ x, ¬ r x x) :
    foldActions init (l.map act) = some .banned := by
  -- the last reset of the list is a ban
  rcases h with ⟨⟨b, hb, hban⟩, habove⟩
  rcases exists_last (fun x => act x = .ban ∨ act x = .leave) ⟨b, (hl.mem b).2 hb, Or.inl hban⟩ with
    ⟨l₁, e, l₂, rfl, hreset, hno⟩
  have hnoleave : ∀ a ∈ l₂.map act, a ≠ .leave := by
    intro a ha hEq
    rcases List.mem_map.1 ha with ⟨y, hy, rfl⟩
    exact hno y hy (Or.inr hEq)
  rcases hreset with hban' | hleave
  · rw [List.map_append, List.map_cons, hban']
    exact foldActions_ban init _ hnoleave
  · rcases habove e ((hl.mem e).1 (by simp)) hleave with ⟨y, hy, hyban, hr⟩
    exact absurd (Or.inl hyban) (hno y (hl.after (hirr e) hy hr))

theorem fold_ne_banned (h : ∀ x ∈ T, act x = .ban → ∃ y ∈ T, act y = .leave ∧ r x y)
    (hl : Orders r T l) (hirr : ∀ x, ¬ r x x) (hinit : init ≠ some .banned) :
    foldActions init (l.map act) ≠ some .banned := by
  refine foldActions_ne_banned hinit _ ?_
  intro m₁ m₂ hm
  rcases List.map_eq_append_iff.1 hm with ⟨l₁, l₂', rfl, rfl, hm₂⟩
  rcases List.map_eq_cons_iff.1 hm₂ with ⟨e, l₂, rfl, hban, rfl⟩
  rcases h e ((hl.mem e).1 (by simp)) hban with ⟨y, hy, hleave, hr⟩
  exact List.mem_map.2 ⟨y, hl.after (hirr e) hy hr, hleave⟩

/-- The last element of an order decides, and it is maximal. -/
theorem SameLast.fold (h : SameLast act r T) {x : α} (hl : Orders r T (l ++ [x]))
    (hirr : ∀ x, ¬ r x x) (hinit : init ≠ some .banned) :
    Maximal r T x ∧ foldActions init ((l ++ [x]).map act) = some (act x).result := by
  have hne := fold_ne_banned h.1 hl hirr hinit
  refine ⟨?_, ?_⟩
  · intro y hy hr
    have hmem := hl.after (hirr x) hy hr
    cases hmem
  · rw [List.map_append, List.map_cons, List.map_nil] at hne ⊢
    exact foldActions_last hne

/-- What a settled set of actions leaves: nothing happens, the ban stays, or one that can come last decides. -/
inductive SettlesTo (act : α → MembershipAction) (r : α → α → Prop) (init : Option MemberState) (T : Set α) :
    Option MemberState → Prop
  | untouched (hnone : T = ∅) : SettlesTo act r init T init
  | banned (hban : BanLast act r T) : SettlesTo act r init T (some .banned)
  | last {x : α} (hsame : SameLast act r T) (hx : x ∈ T) (hmax : Maximal r T x) :
      SettlesTo act r init T (some (act x).result)

/-- A settled set gives one result in all orders. -/
theorem SettlesTo.fold_eq {s : Option MemberState} (h : SettlesTo act r init T s) (hl : Orders r T l)
    (hirr : ∀ x, ¬ r x x) (hinit : init ≠ some .banned) : foldActions init (l.map act) = s := by
  cases h with
  | untouched hnone =>
      have hnil : l = [] := by
        refine List.eq_nil_iff_forall_not_mem.2 fun y hy => ?_
        have hmem := (hl.mem y).1 hy
        rw [hnone] at hmem
        exact hmem
      rw [hnil]
      rfl
  | banned hban => exact hban.fold hl hirr
  | @last x hsame hx hmax =>
      rcases List.eq_nil_or_concat l with rfl | ⟨m, y, rfl⟩
      · have hmem := (hl.mem x).2 hx
        cases hmem
      · rw [List.concat_eq_append] at hl ⊢
        rcases hsame.fold hl hirr hinit with ⟨hmax', hfold⟩
        rw [hfold, hsame.2 x hx y ((hl.mem y).1 (by simp)) hmax hmax']

/-- Any order says what a settled set leaves. -/
theorem Settled.settlesTo (h : Settled act r T) (hl : Orders r T l) (hirr : ∀ x, ¬ r x x)
    (hinit : init ≠ some .banned) : SettlesTo act r init T (foldActions init (l.map act)) := by
  rcases h with hban | hsame
  · rw [hban.fold hl hirr]
    exact .banned hban
  · rcases List.eq_nil_or_concat l with rfl | ⟨m, x, rfl⟩
    · refine .untouched (Set.eq_empty_iff_forall_notMem.2 fun y hy => ?_)
      have hmem := (hl.mem y).2 hy
      cases hmem
    · rw [List.concat_eq_append] at hl ⊢
      rcases hsame.fold hl hirr hinit with ⟨hmax, hfold⟩
      rw [hfold]
      exact .last hsame ((hl.mem x).1 (by simp)) hmax

/-! ## The condition is needed -/

theorem MembershipAction.result_injective : Function.Injective MembershipAction.result := by
  intro a b h
  cases a <;> cases b <;> first | rfl | cases h

/-- Among the elements of an ordered set with a property one is maximal. -/
theorem Orders.exists_top (hl : Orders r T l) (hirr : ∀ x, ¬ r x x) {q : α → Prop} {x : α}
    (hx : x ∈ T) (hq : q x) : ∃ e ∈ T, q e ∧ ∀ y ∈ T, q y → ¬ r e y := by
  rcases exists_last q ⟨x, (hl.mem x).2 hx, hq⟩ with ⟨l₁, e, l₂, rfl, he, hno⟩
  refine ⟨e, (hl.mem e).1 (by simp), he, ?_⟩
  intro y hy hqy
  exact hl.respects.last_maximal (hirr e) hno y ((hl.mem y).2 hy) hqy

/-- If every element can be put last, and all the orders that do so give one result, then the set
is settled. -/
theorem settled_of_agree {s : Option MemberState} (hinit : init ≠ some .banned)
    (htrans : ∀ {x y z}, r x y → r y z → r x z) (hirr : ∀ x, ¬ r x x)
    (hmov : ∀ e ∈ T, ∃ l₁ l₂, Orders r T (l₁ ++ e :: l₂) ∧ (∀ y ∈ l₂, r e y) ∧
      foldActions init ((l₁ ++ e :: l₂).map act) = s) : Settled act r T := by
  by_cases hfree : ∃ b ∈ T, act b = .ban ∧ ∀ y ∈ T, act y = .leave → ¬ r b y
  · -- a ban that no leave follows: put the topmost such ban last
    rcases hfree with ⟨b, hb, hban, hnoleave⟩
    rcases hmov b hb with ⟨_, _, hl, _, _⟩
    have hbanned : s = some .banned := by
      rcases hl.exists_top hirr (q := fun y => act y = .ban ∧ (y = b ∨ r b y)) hb
        ⟨hban, Or.inl rfl⟩ with ⟨e, he, ⟨heban, heb⟩, _⟩
      rcases hmov e he with ⟨l₁, l₂, hle, habove, hfold⟩
      have hno : ∀ a ∈ l₂.map act, a ≠ .leave := by
        intro a ha hEq
        rcases List.mem_map.1 ha with ⟨y, hy, rfl⟩
        have hyT : y ∈ T := (hle.mem y).1 (by simp [hy])
        rcases heb with rfl | heb
        · exact hnoleave y hyT hEq (habove y hy)
        · exact hnoleave y hyT hEq (htrans heb (habove y hy))
      rw [← hfold, List.map_append, List.map_cons, heban]
      exact foldActions_ban init _ hno
    refine Or.inl ⟨⟨b, hb, hban⟩, ?_⟩
    intro x hx hleave
    by_contra hnone
    push Not at hnone
    -- a leave that no ban follows, put last, would not end banned
    rcases hl.exists_top hirr (q := fun y => act y = .leave ∧ (y = x ∨ r x y)) hx
      ⟨hleave, Or.inl rfl⟩ with ⟨e, he, ⟨heleave, hex⟩, _⟩
    rcases hmov e he with ⟨l₁, l₂, hle, habove, hfold⟩
    have hsplit : foldActions init ((l₁ ++ e :: l₂).map act) =
        foldActions (some .left) (l₂.map act) := by
      rw [List.map_append, List.map_cons, heleave, foldActions_append]
      rfl
    have hne : foldActions (some .left) (l₂.map act) ≠ some .banned := by
      refine foldActions_ne_banned (by simp) _ ?_
      intro m₁ m₂ hm
      have hmem : MembershipAction.ban ∈ l₂.map act := by
        rw [hm]
        simp
      rcases List.mem_map.1 hmem with ⟨y, hy, hyban⟩
      have hyT : y ∈ T := (hle.mem y).1 (by simp [hy])
      rcases hex with rfl | hex
      · exact absurd (habove y hy) (hnone y hyT hyban)
      · exact absurd (htrans hex (habove y hy)) (hnone y hyT hyban)
    rw [← hsplit, hfold] at hne
    exact hne hbanned
  · push Not at hfree
    refine Or.inr ⟨hfree, ?_⟩
    -- a maximal element, put last, decides
    have hlast : ∀ x ∈ T, Maximal r T x → s = some (act x).result := by
      intro x hx hmax
      rcases hmov x hx with ⟨l₁, l₂, hlx, habove, hfold⟩
      have hnil : l₂ = [] := by
        refine List.eq_nil_iff_forall_not_mem.2 fun y hy => ?_
        exact hmax y ((hlx.mem y).1 (by simp [hy])) (habove y hy)
      subst hnil
      have hne := fold_ne_banned hfree hlx hirr hinit
      rw [List.map_append, List.map_cons, List.map_nil] at hne hfold
      rw [← hfold]
      exact foldActions_last hne
    intro x hx y hy hmaxx hmaxy
    have hEq := (hlast x hx hmaxx).symm.trans (hlast y hy hmaxy)
    exact MembershipAction.result_injective (Option.some.inj hEq)

end Settled

end Event
end Thunderducks
