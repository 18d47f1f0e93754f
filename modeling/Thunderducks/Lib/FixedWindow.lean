import Mathlib.Data.List.Induction

/-!
# FixedWindow — a counter that begins anew when its window has run out

Hits come in at nondecreasing times.  The first opens a window; a hit that comes `span` or more after the
one that opened the window opens the next.  A hit passes if fewer than its own `limit` have passed in its
window before it, so that hits with different limits share one count.  `Allowed` are the hits that would
pass if every limit had a count of its own: the shared count stops a hit whose own limit is not used up
exactly when too many of those came before it (`refusesOwn_iff`).

For a single limit the hits that pass are the first ones of each window.  No interval of the length of a
window holds more than `n` times of a sorted list exactly when each is that far from the one `n` places
before it (`length_interval_le_iff`), and the first ones of all windows are so exactly when each two windows in a
row are clear of each other (`spaced_firsts_iff`).  A counter whose windows begin by themselves lets through at most
twice its limit in the length of a window (`Counted`).
-/

namespace Thunderducks
namespace Lib
namespace FixedWindow

variable {α : Type}

/-! ## Windows -/

section Windows

variable (time : α → Nat) (span : Nat)

/-- What is left of a window at `now`: nothing once it has run out. -/
def live (w : List α) (now : Nat) : List α :=
  match w with
  | [] => []
  | first :: rest => if span ≤ now - time first then [] else first :: rest

/-- The window that the hits leave open. -/
def opened (hits : List α) : List α :=
  hits.foldl (fun w a => live time span w (time a) ++ [a]) []

/-- The hits before `now` that share its window. -/
def windowAt (hits : List α) (now : Nat) : List α :=
  live time span (opened time span hits) now

/-- When a window begins that has run so far at `now`. -/
def startOf (w : List α) (now : Nat) : Nat :=
  (w.head?.map time).getD now

variable {time span}

@[simp] theorem live_nil (now : Nat) : live time span [] now = [] := rfl

@[simp] theorem windowAt_nil (now : Nat) : windowAt time span [] now = [] := rfl

/-- One more hit joins the window that is live when it comes. -/
theorem windowAt_append (hits : List α) (a : α) (now : Nat) :
    windowAt time span (hits ++ [a]) now =
      if span ≤ now - startOf time (windowAt time span hits (time a)) (time a) then []
      else windowAt time span hits (time a) ++ [a] := by
  have hopened : opened time span (hits ++ [a]) = windowAt time span hits (time a) ++ [a] := by
    simp [opened, windowAt, List.foldl_append]
  rw [windowAt, hopened]
  cases windowAt time span hits (time a) with
  | nil => rfl
  | cons first rest => rfl

theorem windowAt_subset (hits : List α) : ∀ now, windowAt time span hits now ⊆ hits := by
  induction hits using List.reverseRecOn with
  | nil =>
      intro now
      exact List.nil_subset _
  | append_singleton hits a ih =>
      intro now b hb
      rw [windowAt_append] at hb
      split at hb
      · cases hb
      · rcases List.mem_append.1 hb with hb | hb
        · exact List.mem_append_left _ (ih _ hb)
        · exact List.mem_append_right _ hb

theorem startOf_windowAt_le (hits : List α) {now : Nat} (hle : ∀ a ∈ hits, time a ≤ now) :
    startOf time (windowAt time span hits now) now ≤ now := by
  unfold startOf
  cases hw : windowAt time span hits now with
  | nil => exact Nat.le_refl now
  | cons first rest =>
      have hfirst : first ∈ windowAt time span hits now := by
        rw [hw]
        exact List.mem_cons_self
      exact hle first (windowAt_subset hits now hfirst)

/-- A window has run for less than its span. -/
theorem sub_startOf_windowAt_lt (hspan : 0 < span) (hits : List α) (now : Nat) :
    now - startOf time (windowAt time span hits now) now < span := by
  unfold windowAt
  cases opened time span hits with
  | nil =>
      rw [live_nil]
      simpa [startOf] using hspan
  | cons first rest =>
      unfold live
      dsimp only
      split
      · simpa [startOf] using hspan
      next hlive => simpa [startOf] using hlive

/-- A window is over when the rest of its span has passed. -/
theorem windowAt_append_over (hspan : 0 < span) {hits : List α} {a : α} {now : Nat}
    (hle : ∀ b ∈ hits, time b ≤ time a)
    (hnow : time a + (span - (time a - startOf time (windowAt time span hits (time a)) (time a))) ≤ now) :
    windowAt time span (hits ++ [a]) now = [] := by
  have hstart : startOf time (windowAt time span hits (time a)) (time a) ≤ time a := startOf_windowAt_le hits hle
  have hrun : time a - startOf time (windowAt time span hits (time a)) (time a) < span :=
    sub_startOf_windowAt_lt hspan hits (time a)
  rw [windowAt_append, if_pos]
  omega

end Windows

/-! ## Hits that pass -/

section Passing

variable (limit : α → Nat)

/-- The hits of a window that pass: those that find fewer than their limit passed. -/
def passed (w : List α) : List α :=
  w.foldl (fun acc a => if limit a ≤ acc.length then acc else acc ++ [a]) []

/-- The hits of a window that would pass if every limit had a count of its own. -/
def allowed (w : List α) : List α :=
  w.foldl (fun acc a => if limit a ≤ acc.countP (fun b => limit b = limit a) then acc else acc ++ [a]) []

variable {limit}

theorem passed_append (w : List α) (a : α) :
    passed limit (w ++ [a]) =
      if limit a ≤ (passed limit w).length then passed limit w else passed limit w ++ [a] := by
  unfold passed
  rw [List.foldl_append]
  rfl

theorem allowed_append (w : List α) (a : α) :
    allowed limit (w ++ [a]) =
      if limit a ≤ (allowed limit w).countP (fun b => limit b = limit a) then allowed limit w
      else allowed limit w ++ [a] := by
  unfold allowed
  rw [List.foldl_append]
  rfl

/-- With one limit the first hits of the window pass. -/
theorem passed_const (n : Nat) (w : List α) : passed (fun _ => n) w = w.take n := by
  induction w using List.reverseRecOn with
  | nil => simp [passed]
  | append_singleton w a ih =>
      rw [passed_append, ih, List.length_take]
      by_cases hn : n ≤ w.length
      · rw [if_pos (by omega), List.take_append_of_le_length hn]
      · have hshort : w.length + 1 ≤ n := by omega
        rw [if_neg (by omega), List.take_of_length_le (by omega), List.take_of_length_le (by simpa using hshort)]

end Passing

section Runs

variable (time : α → Nat) (limit : α → Nat) (span : Nat)

/-- The hits of `hits` that pass when those of `before` have come already. -/
def admittedFrom (before : List α) : List α → List α
  | [] => []
  | a :: as =>
      let rest := admittedFrom (before ++ [a]) as
      if limit a ≤ (passed limit (windowAt time span before (time a))).length then rest else a :: rest

/-- The hits that pass. -/
def admitted (hits : List α) : List α :=
  admittedFrom time limit span [] hits

/-- A hit is stopped only if as many hits with its limit have passed in its window. -/
def RefusesOwn (hits : List α) : Prop :=
  ∀ before a after, hits = before ++ a :: after →
    limit a ≤ (passed limit (windowAt time span before (time a))).length →
    limit a ≤ (passed limit (windowAt time span before (time a))).countP fun b => limit b = limit a

/-- A hit whose own limit is not used up comes before as many hits are allowed in its window. -/
def OwnFirst (hits : List α) : Prop :=
  ∀ before a after, hits = before ++ a :: after →
    (allowed limit (windowAt time span before (time a))).countP (fun b => limit b = limit a) < limit a →
    (allowed limit (windowAt time span before (time a))).length < limit a

variable {time limit span}

theorem admittedFrom_append (hits : List α) (a : α) : ∀ before : List α,
    admittedFrom time limit span before (hits ++ [a]) = admittedFrom time limit span before hits ++
      if limit a ≤ (passed limit (windowAt time span (before ++ hits) (time a))).length then [] else [a] := by
  induction hits with
  | nil =>
      intro before
      simp [admittedFrom]
  | cons b hits ih =>
      intro before
      rw [List.cons_append, admittedFrom, admittedFrom, ih, List.append_assoc, List.singleton_append]
      split
      · rfl
      · rfl

theorem admitted_append (hits : List α) (a : α) :
    admitted time limit span (hits ++ [a]) = admitted time limit span hits ++
      if limit a ≤ (passed limit (windowAt time span hits (time a))).length then [] else [a] :=
  admittedFrom_append hits a []

theorem admitted_subset (hits : List α) : admitted time limit span hits ⊆ hits := by
  induction hits using List.reverseRecOn with
  | nil => exact List.nil_subset _
  | append_singleton hits a ih =>
      intro b hb
      rw [admitted_append] at hb
      rcases List.mem_append.1 hb with hb | hb
      · exact List.mem_append_left _ (ih hb)
      · split at hb
        · cases hb
        · exact List.mem_append_right _ hb

/-- The hits of the current window that passed are those that passed since it began. -/
theorem admitted_since (hspan : 0 < span) {hits : List α} : ∀ {now : Nat},
    (hits.Pairwise fun a b => time a ≤ time b) → (∀ a ∈ hits, time a ≤ now) →
    (admitted time limit span hits).filter
        (fun a => startOf time (windowAt time span hits now) now ≤ time a) =
      passed limit (windowAt time span hits now) := by
  induction hits using List.reverseRecOn with
  | nil =>
      intro now _ _
      rfl
  | append_singleton hits a ih =>
      intro now hsorted hnow
      rcases List.pairwise_append.1 hsorted with ⟨hbefore, _, hlast⟩
      have hle : ∀ b ∈ hits, time b ≤ time a := fun b hb => hlast b hb a (by simp)
      have hstart : startOf time (windowAt time span hits (time a)) (time a) ≤ time a :=
        startOf_windowAt_le hits hle
      have hanow : time a ≤ now := hnow a (by simp)
      have hrun : time a - startOf time (windowAt time span hits (time a)) (time a) < span :=
        sub_startOf_windowAt_lt hspan hits (time a)
      have hprev := ih hbefore hle
      rw [windowAt_append, admitted_append]
      generalize hw : windowAt time span hits (time a) = w at hstart hrun hprev ⊢
      by_cases hover : span ≤ now - startOf time w (time a)
      · -- the window has run out, and all hits came before `now`
        rw [if_pos hover]
        refine List.filter_eq_nil_iff.2 fun b hb => ?_
        have hb' : time b ≤ time a := by
          rcases List.mem_append.1 hb with hb | hb
          · exact hle b (admitted_subset hits hb)
          · split at hb
            · cases hb
            · exact Nat.le_of_eq (congrArg time (List.mem_singleton.1 hb))
        have hnew : startOf time ([] : List α) now = now := rfl
        rw [hnew, decide_eq_true_eq]
        omega
      · have hsame : startOf time (w ++ [a]) now = startOf time w (time a) := by
          cases w with
          | nil => rfl
          | cons first rest => rfl
        rw [if_neg hover, hsame, List.filter_append, hprev, passed_append]
        split
        · exact List.append_nil _
        · have hkept : [a].filter (fun b => startOf time w (time a) ≤ time b) = [a] :=
            List.filter_cons_of_pos (decide_eq_true hstart)
          rw [hkept]

/-- As long as no hit is stopped whose own limit is not used up, the shared count lets through what the
counts of the limits would. -/
theorem windowAt_append_eq {hits : List α} {a : α}
    (hw : passed limit (windowAt time span hits (time a)) = allowed limit (windowAt time span hits (time a)))
    (hown : limit a ≤ (allowed limit (windowAt time span hits (time a))).length →
      limit a ≤ (allowed limit (windowAt time span hits (time a))).countP fun b => limit b = limit a)
    (now : Nat) :
    passed limit (windowAt time span (hits ++ [a]) now) =
      allowed limit (windowAt time span (hits ++ [a]) now) := by
  rw [windowAt_append]
  split
  · rfl
  · rw [passed_append, allowed_append, hw]
    by_cases hstop : limit a ≤ (allowed limit (windowAt time span hits (time a))).length
    · rw [if_pos hstop, if_pos (hown hstop)]
    · have hroom : ¬ limit a ≤ (allowed limit (windowAt time span hits (time a))).countP
          fun b => limit b = limit a := fun h => hstop (Nat.le_trans h List.countP_le_length)
      rw [if_neg hstop, if_neg hroom]

/-- A property of every hit and those before it, one hit later. -/
theorem forall_split_append {P : List α → α → Prop} {hits : List α} {a : α} :
    (∀ before b after, hits ++ [a] = before ++ b :: after → P before b) ↔
      (∀ before b after, hits = before ++ b :: after → P before b) ∧ P hits a := by
  constructor
  · intro h
    refine ⟨?_, h hits a [] rfl⟩
    rintro before b after rfl
    exact h before b (after ++ [a]) (by simp)
  · rintro ⟨hbefore, hlast⟩ before b after hsplit
    rcases List.eq_nil_or_concat after with rfl | ⟨after', c, rfl⟩
    · have hEq : hits = before ∧ a = b := by
        simpa using List.append_inj' hsplit rfl
      rw [← hEq.1, ← hEq.2]
      exact hlast
    · have hEq : hits = before ++ b :: after' ∧ a = c := by
        have hsplit' : hits ++ [a] = (before ++ b :: after') ++ [c] := by
          simpa using hsplit
        simpa using List.append_inj' hsplit' rfl
      exact hbefore before b after' hEq.1

/-- A property of every hit and those before it of the same part. -/
theorem forall_split_filter {β : Type} [DecidableEq β] {part : α → β} {P : List α → α → Prop} {hits : List α} :
    (∀ k before a after, hits.filter (fun b => part b = k) = before ++ a :: after → P before a) ↔
      ∀ before a after, hits = before ++ a :: after → P (before.filter fun b => part b = part a) a := by
  constructor
  · rintro h before a after rfl
    refine h (part a) _ a (after.filter fun b => part b = part a) ?_
    rw [List.filter_append, List.filter_cons_of_pos (by simp)]
  · intro h k before a after hsplit
    rcases List.filter_eq_append_iff.1 hsplit with ⟨front, back, rfl, rfl, hback⟩
    rcases List.filter_eq_cons_iff.1 hback with ⟨skipped, rest, rfl, hskipped, hk, _⟩
    have hpart : part a = k := of_decide_eq_true hk
    have hnone : skipped.filter (fun b => part b = k) = [] := List.filter_eq_nil_iff.2 hskipped
    have happ := h (front ++ skipped) a rest (by simp)
    rw [hpart, List.filter_append, hnone, List.append_nil] at happ
    exact happ

/-- The shared count stops a hit before its own limit is used up exactly when some hit whose own limit is
not used up comes after as many that are allowed. -/
theorem refusesOwn_iff (hits : List α) : RefusesOwn time limit span hits ↔ OwnFirst time limit span hits := by
  -- either side makes the two counts agree up to the hit in question
  have key : (RefusesOwn time limit span hits ↔ OwnFirst time limit span hits) ∧
      (OwnFirst time limit span hits → ∀ now, passed limit (windowAt time span hits now) =
        allowed limit (windowAt time span hits now)) := by
    induction hits using List.reverseRecOn with
    | nil =>
        refine ⟨iff_of_true ?_ ?_, fun _ now => rfl⟩
        · intro before a after hsplit
          simp at hsplit
        · intro before a after hsplit
          simp at hsplit
    | append_singleton hits a ih =>
        rcases ih with ⟨hiff, hagree⟩
        have hcontra : OwnFirst time limit span hits →
            ((limit a ≤ (passed limit (windowAt time span hits (time a))).length →
                limit a ≤ (passed limit (windowAt time span hits (time a))).countP fun b => limit b = limit a) ↔
              ((allowed limit (windowAt time span hits (time a))).countP (fun b => limit b = limit a) < limit a →
                (allowed limit (windowAt time span hits (time a))).length < limit a)) := by
          intro hown
          rw [hagree hown, ← Nat.not_lt, ← Nat.not_lt, Decidable.not_imp_not]
        refine ⟨?_, ?_⟩
        · unfold RefusesOwn OwnFirst at hiff hcontra ⊢
          rw [forall_split_append, forall_split_append, hiff]
          exact and_congr_right hcontra
        · intro hown now
          rcases forall_split_append.1 hown with ⟨hbefore, hlast⟩
          refine windowAt_append_eq (hagree hbefore _) ?_ now
          rw [← Nat.not_lt, ← Nat.not_lt, Decidable.not_imp_not]
          exact hlast
  exact key.1

end Runs

/-! ## One limit -/

section Firsts

variable (time : α → Nat) (span n : Nat)

/-- The hits of `hits` that find fewer than `n` in their window when those of `before` have come already. -/
def firstsFrom (before : List α) : List α → List α
  | [] => []
  | a :: as =>
      let rest := firstsFrom (before ++ [a]) as
      if (windowAt time span before (time a)).length < n then a :: rest else rest

/-- The hits that are among the first `n` of their window. -/
def firsts (hits : List α) : List α :=
  firstsFrom time span n [] hits

variable {time span n}

theorem firstsFrom_sublist (hits : List α) : ∀ before, (firstsFrom time span n before hits).Sublist hits := by
  induction hits with
  | nil =>
      intro before
      exact List.Sublist.refl _
  | cons a hits ih =>
      intro before
      unfold firstsFrom
      dsimp only
      split
      · exact (ih _).cons_cons a
      · exact (ih _).cons a

/-- A window of no length never goes on. -/
theorem windowAt_zero (hits : List α) (now : Nat) : windowAt time 0 hits now = [] := by
  unfold windowAt live
  cases opened time 0 hits with
  | nil => rfl
  | cons first rest => exact if_pos (Nat.zero_le _)

end Firsts

section Intervals

variable {span n : Nat}

/-- Every time is `span` or more after the one `n` places before it. -/
def Spaced (span n : Nat) (times : List Nat) : Prop :=
  ∀ i t u, times[i]? = some t → times[i + n]? = some u → t + span ≤ u

/-- The times of a half-open interval of length `span`. -/
def interval (start span : Nat) (times : List Nat) : List Nat :=
  times.filter fun t => start ≤ t ∧ t < start + span

theorem Spaced.tail {t : Nat} {times : List Nat} (h : Spaced span n (t :: times)) : Spaced span n times := by
  intro i u v hu hv
  refine h (i + 1) u v (by simpa using hu) ?_
  rw [Nat.add_right_comm]
  simpa using hv

theorem getElem_le_of_sorted {times : List Nat} (hsorted : times.Pairwise (· ≤ ·)) {i j : Nat} (hij : i ≤ j)
    (hj : j < times.length) : times[i] ≤ times[j] := by
  rcases Nat.eq_or_lt_of_le hij with rfl | hlt
  · exact Nat.le_refl _
  · exact List.pairwise_iff_getElem.1 hsorted i j _ hj hlt

/-- No half-open interval of length `span` holds more than `n` of the times exactly when they are spaced. -/
theorem length_interval_le_iff {times : List Nat} (hsorted : times.Pairwise (· ≤ ·)) :
    (∀ start, (interval start span times).length ≤ n) ↔ Spaced span n times := by
  constructor
  · intro h i t u ht hu
    by_contra hnear
    rcases List.getElem?_eq_some_iff.1 ht with ⟨_, rfl⟩
    rcases List.getElem?_eq_some_iff.1 hu with ⟨hin, rfl⟩
    -- the `n + 1` times from the one to the other are in the interval that begins at the first
    have hrun : ((times.drop i).take (n + 1)).filter
        (fun t => times[i] ≤ t ∧ t < times[i] + span) = (times.drop i).take (n + 1) := by
      refine List.filter_eq_self.2 fun v hv => ?_
      rcases List.mem_take_iff_getElem.1 hv with ⟨j, hj, rfl⟩
      rw [List.length_drop] at hj
      rw [List.getElem_drop, decide_eq_true_eq]
      have hfrom := getElem_le_of_sorted hsorted (Nat.le_add_right i j) (by omega)
      have hto := getElem_le_of_sorted hsorted (show i + j ≤ i + n by omega) hin
      omega
    have hsub : ((times.drop i).take (n + 1)).Sublist (interval times[i] span times) := by
      rw [← hrun]
      exact ((List.take_sublist _ _).trans (List.drop_sublist _ _)).filter _
    have hlen := hsub.length_le
    rw [List.length_take, List.length_drop] at hlen
    have := h times[i]
    omega
  · intro h start
    induction times with
    | nil => exact Nat.zero_le n
    | cons t times ih =>
        unfold interval
        by_cases hin : start ≤ t ∧ t < start + span
        · -- what comes `n` places after `t` or later is past the end
          have hlate : ∀ u ∈ (t :: times).drop n, start + span ≤ u := by
            intro u hu
            rcases List.mem_drop_iff_getElem.1 hu with ⟨j, hj, rfl⟩
            have hn : n < (t :: times).length := by omega
            have hspaced := h 0 t (t :: times)[n] rfl (by rw [Nat.zero_add, List.getElem?_eq_getElem hn])
            have hmono := getElem_le_of_sorted hsorted (Nat.le_add_right n j) (by omega)
            omega
          have hnone : ((t :: times).drop n).filter (fun t => start ≤ t ∧ t < start + span) = [] := by
            refine List.filter_eq_nil_iff.2 fun u hu => ?_
            have := hlate u hu
            rw [decide_eq_true_eq]
            omega
          have hsplit : (t :: times).filter (fun t => start ≤ t ∧ t < start + span) =
              ((t :: times).take n).filter (fun t => start ≤ t ∧ t < start + span) := by
            conv_lhs => rw [← List.take_append_drop n (t :: times), List.filter_append, hnone, List.append_nil]
          rw [hsplit]
          exact Nat.le_trans (List.length_filter_le _ _) (List.length_take_le _ _)
        · rw [List.filter_cons_of_neg (by simpa using hin)]
          exact ih hsorted.of_cons h.tail

/-- Times stay spaced if the next is far enough from the one `n` places before it. -/
theorem Spaced.concat {times : List Nat} (h : Spaced span n times) (hn : 0 < n) {u : Nat}
    (hu : ∀ i t, times[i]? = some t → i + n = times.length → t + span ≤ u) : Spaced span n (times ++ [u]) := by
  intro i t v ht hv
  have hin : i + n < (times ++ [u]).length := (List.getElem?_eq_some_iff.1 hv).1
  rw [List.length_append, List.length_singleton] at hin
  rw [List.getElem?_append_left (by omega)] at ht
  rcases Nat.lt_succ_iff_lt_or_eq.1 hin with hlt | heq
  · rw [List.getElem?_append_left hlt] at hv
    exact h i t v ht hv
  · rw [List.getElem?_append_right (Nat.le_of_eq heq.symm), heq, Nat.sub_self, List.getElem?_cons_zero] at hv
    cases hv
    exact hu i t ht heq

end Intervals

/-! ## The windows of a list of times -/

section Cut

variable {span n : Nat}

/-- The windows of the times that come after those of the window `w`. -/
def windowsFrom (span : Nat) (w : List Nat) : List Nat → List (List Nat)
  | [] => [w]
  | t :: ts =>
      if span ≤ t - startOf id w t then w :: windowsFrom span [t] ts else windowsFrom span (w ++ [t]) ts

/-- A list of times cut into windows: the first time begins one, and so does the first that comes `span` or
more after the beginning of the last. -/
def windows (span : Nat) : List Nat → List (List Nat)
  | [] => []
  | t :: ts => windowsFrom span [t] ts

/-- Of two windows, a time among the first `n` of the later one comes `span` or more after the time of the same
place in the earlier one, or, where the earlier one has fewer than `n`, after the time `n` places before it. -/
def Clear (span n : Nat) (w w' : List Nat) : Prop :=
  ∀ k m t u, k < n → k + n = min w.length n + m → w[k]? = some t → w'[m]? = some u → t + span ≤ u

/-- Windows that follow on each other, none of them empty. -/
structure CutAt (span : Nat) (ws : List (List Nat)) : Prop where
  nonempty : ∀ w ∈ ws, w ≠ []
  sorted : ws.flatten.Pairwise (· ≤ ·)
  apart : ws.Pairwise fun w w' => ∀ s ∈ w.head?, ∀ u ∈ w', s + span ≤ u

theorem flatten_windowsFrom (ts : List Nat) : ∀ w : List Nat, (windowsFrom span w ts).flatten = w ++ ts := by
  induction ts with
  | nil =>
      intro w
      simp [windowsFrom]
  | cons t ts ih =>
      intro w
      unfold windowsFrom
      split
      · rw [List.flatten_cons, ih, List.singleton_append]
      · rw [ih, List.append_assoc, List.singleton_append]

theorem cutAt_windowsFrom (ts : List Nat) : ∀ {w : List Nat}, w ≠ [] → (w ++ ts).Pairwise (· ≤ ·) →
    CutAt span (windowsFrom span w ts) := by
  induction ts with
  | nil =>
      intro w hw hsorted
      exact ⟨by simpa [windowsFrom] using hw, by simpa [windowsFrom] using hsorted,
        List.pairwise_singleton _ _⟩
  | cons t ts ih =>
      intro w hw hsorted
      have hflat : (windowsFrom span w (t :: ts)).flatten.Pairwise (· ≤ ·) := by
        rw [flatten_windowsFrom]
        exact hsorted
      rcases List.pairwise_append.1 hsorted with ⟨_, hrest, hle⟩
      have hnext := ih (List.cons_ne_nil t []) hrest
      have hgo := ih (show w ++ [t] ≠ [] by simp) (by simpa using hsorted)
      unfold windowsFrom at hflat ⊢
      split
      next hover =>
        rw [if_pos hover] at hflat
        refine ⟨?_, hflat, List.pairwise_cons.2 ⟨?_, hnext.apart⟩⟩
        · intro w' hw'
          rcases List.mem_cons.1 hw' with rfl | hw'
          · exact hw
          · exact hnext.nonempty w' hw'
        · -- all that comes later comes after `t`, where the window has run out
          intro w' hw' s hs u hu
          have hmem : u ∈ [t] ++ ts := by
            have hin : u ∈ (windowsFrom span [t] ts).flatten := List.mem_flatten.2 ⟨w', hw', hu⟩
            rwa [flatten_windowsFrom] at hin
          have htu : t ≤ u := by
            rcases List.mem_cons.1 hmem with rfl | hmem
            · exact Nat.le_refl _
            · exact List.rel_of_pairwise_cons hrest hmem
          have hst : s ≤ t := hle s (List.mem_of_mem_head? hs) t List.mem_cons_self
          have hstart : startOf id w t = s := by
            unfold startOf
            rw [Option.mem_def.1 hs]
            rfl
          rw [hstart] at hover
          omega
      next hrun => exact hgo

/-- The first ones of each window, of a list that goes on where `before` has opened the window `w`. -/
theorem take_append_firstsFrom (ts : List Nat) : ∀ {before w : List Nat}, opened id span before = w → w ≠ [] →
    w.take n ++ firstsFrom id span n before ts = ((windowsFrom span w ts).map (List.take n)).flatten := by
  induction ts with
  | nil =>
      intro before w _ _
      simp [firstsFrom, windowsFrom]
  | cons t ts ih =>
      intro before w hw hne
      have hlive : windowAt id span before t = if span ≤ t - startOf id w t then [] else w := by
        unfold windowAt
        rw [hw]
        cases w with
        | nil => exact absurd rfl hne
        | cons first rest => rfl
      have hopened : opened id span (before ++ [t]) = windowAt id span before t ++ [t] := by
        simp [opened, windowAt, List.foldl_append]
      unfold firstsFrom windowsFrom
      dsimp only [id_eq]
      by_cases hover : span ≤ t - startOf id w t
      · rw [if_pos hover] at hlive ⊢
        rw [hlive, List.nil_append] at hopened
        have hcount := congrArg List.length hlive
        rw [List.map_cons, List.flatten_cons, ← ih hopened (List.cons_ne_nil t [])]
        cases n with
        | zero => simp
        | succ n => simp [hcount]
      · rw [if_neg hover] at hlive ⊢
        rw [hlive] at hopened
        have hcount := congrArg List.length hlive
        rw [← ih hopened (by simp), List.take_append]
        by_cases hfew : w.length < n
        · have hone : [t].take (n - w.length) = [t] := List.take_of_length_le (by
            rw [List.length_singleton]
            omega)
          rw [if_pos (hcount ▸ hfew), hone, List.append_assoc, List.singleton_append]
        · rw [if_neg (hcount ▸ hfew), Nat.sub_eq_zero_of_le (Nat.not_lt.1 hfew), List.take_zero, List.append_nil]

theorem firsts_eq (times : List Nat) :
    firsts id span n times = ((windows span times).map (List.take n)).flatten := by
  cases times with
  | nil => rfl
  | cons t ts =>
      have hfrom : opened id span [t] = [t] := rfl
      have hrest := take_append_firstsFrom (n := n) ts hfrom (List.cons_ne_nil t [])
      unfold windows
      rw [← hrest]
      unfold firsts
      rw [firstsFrom]
      cases n with
      | zero => simp
      | succ n => simp

theorem Spaced.of_append {xs ys : List Nat} (h : Spaced span n (xs ++ ys)) : Spaced span n ys := by
  intro i t u ht hu
  refine h (xs.length + i) t u ?_ ?_
  · rw [List.getElem?_append_right (Nat.le_add_right _ _), Nat.add_sub_cancel_left]
    exact ht
  · rw [Nat.add_assoc, List.getElem?_append_right (Nat.le_add_right _ _), Nat.add_sub_cancel_left]
    exact hu

/-- What is cut stays cut without the first window. -/
theorem CutAt.tail {w : List Nat} {ws : List (List Nat)} (h : CutAt span (w :: ws)) : CutAt span ws := by
  refine ⟨fun w' hw' => h.nonempty w' (List.mem_cons_of_mem _ hw'), ?_, h.apart.of_cons⟩
  have hsorted := h.sorted
  rw [List.flatten_cons] at hsorted
  exact (List.pairwise_append.1 hsorted).2.1

/-- Two windows next to each other are clear when their first ones are spaced. -/
theorem Spaced.clear {w w' rest : List Nat} (h : Spaced span n (w.take n ++ (w'.take n ++ rest))) :
    Clear span n w w' := by
  intro k m t u hk hkm ht hu
  have hlen : (w.take n).length = min w.length n := by
    rw [List.length_take, Nat.min_comm]
  have hin : k < w.length := (List.getElem?_eq_some_iff.1 ht).1
  refine h k t u ?_ ?_
  · rw [List.getElem?_append_left (by omega), List.getElem?_take_of_lt hk]
    exact ht
  · rw [hkm, ← hlen, List.getElem?_append_right (Nat.le_add_right _ _), Nat.add_sub_cancel_left,
      List.getElem?_append_left, List.getElem?_take_of_lt (by omega)]
    · exact hu
    · have hm := (List.getElem?_eq_some_iff.1 hu).1
      rw [List.length_take]
      omega

/-- With a window between two times they are far enough apart. -/
theorem CutAt.across {w w' : List Nat} {ws : List (List Nat)} {t u : Nat} (h : CutAt span (w :: w' :: ws))
    (ht : t ∈ w) (hu : u ∈ ws.flatten) : t + span ≤ u := by
  rcases List.mem_flatten.1 hu with ⟨v, hv, huv⟩
  cases w' with
  | nil => exact absurd rfl (h.nonempty [] (by simp))
  | cons s rest =>
      have hsu : s + span ≤ u := List.rel_of_pairwise_cons h.apart.of_cons hv s (by simp) u huv
      have hts : t ≤ s := by
        have hsorted := h.sorted
        rw [List.flatten_cons] at hsorted
        exact (List.pairwise_append.1 hsorted).2.2 t ht s (by simp)
      exact Nat.le_trans (Nat.add_le_add_right hts span) hsu

/-- A window that is clear of the next one comes before spaced first ones. -/
theorem CutAt.spaced_cons {w w' : List Nat} {ws : List (List Nat)} (h : CutAt span (w :: w' :: ws))
    (hclear : Clear span n w w') (hspaced : Spaced span n ((w' :: ws).map (List.take n)).flatten) :
    Spaced span n (w.take n ++ ((w' :: ws).map (List.take n)).flatten) := by
  have hlen : (w.take n).length = min w.length n := by
    rw [List.length_take, Nat.min_comm]
  intro i t u ht hu
  by_cases hi : i < (w.take n).length
  swap
  · -- both are in the windows after the first
    rw [List.getElem?_append_right (by omega)] at ht hu
    refine hspaced _ t u ht ?_
    rwa [Nat.sub_add_comm (by omega)] at hu
  rw [List.getElem?_append_left hi] at ht
  rw [List.getElem?_append_right (by omega), List.map_cons, List.flatten_cons] at hu
  have hin : i < n := by omega
  rw [List.getElem?_take_of_lt hin] at ht
  by_cases hm : i + n - (w.take n).length < (w'.take n).length
  · have hm' : i + n - (w.take n).length < n := by
      rw [List.length_take] at hm
      omega
    rw [List.getElem?_append_left hm, List.getElem?_take_of_lt hm'] at hu
    exact hclear i _ t u hin (by omega) ht hu
  · rw [List.getElem?_append_right (by omega)] at hu
    refine h.across (List.mem_of_getElem? ht) ?_
    rcases List.mem_flatten.1 (List.mem_of_getElem? hu) with ⟨v, hv, huv⟩
    rcases List.mem_map.1 hv with ⟨v', hv', rfl⟩
    exact List.mem_flatten.2 ⟨v', hv', List.mem_of_mem_take huv⟩

/-- The first ones of all windows are spaced exactly when each two windows in a row are clear of each other. -/
theorem spaced_flatten_iff (ws : List (List Nat)) : CutAt span ws →
    (Spaced span n (ws.map (List.take n)).flatten ↔ ws.IsChain (Clear span n)) := by
  induction ws with
  | nil =>
      intro _
      exact iff_of_true (fun i t u ht => by simp at ht) List.IsChain.nil
  | cons w ws ih =>
      intro hcut
      cases ws with
      | nil =>
          refine iff_of_true ?_ (List.IsChain.singleton w)
          intro i t u _ hu
          have hlt := (List.getElem?_eq_some_iff.1 hu).1
          simp only [List.map_cons, List.map_nil, List.flatten_cons, List.flatten_nil, List.append_nil,
            List.length_take] at hlt
          omega
      | cons w' ws =>
          rw [List.isChain_cons_cons, ← ih hcut.tail, List.map_cons, List.flatten_cons]
          constructor
          · intro h
            refine ⟨?_, h.of_append⟩
            rw [List.map_cons, List.flatten_cons] at h
            exact h.clear
          · rintro ⟨hclear, hspaced⟩
            exact hcut.spaced_cons hclear hspaced

/-- The first ones of each window are spaced exactly when the windows are clear of each other. -/
theorem spaced_firsts_iff {times : List Nat} (hsorted : times.Pairwise (· ≤ ·)) :
    Spaced span n (firsts id span n times) ↔ (windows span times).IsChain (Clear span n) := by
  rw [firsts_eq]
  cases times with
  | nil => exact spaced_flatten_iff [] ⟨by simp, List.Pairwise.nil, List.Pairwise.nil⟩
  | cons t ts => exact spaced_flatten_iff _ (cutAt_windowsFrom ts (List.cons_ne_nil t []) hsorted)

end Cut

/-! ## A window that its first hit need not open -/

section Counting

variable {span n start : Nat} {times cur : List Nat}

/-- The times let through by a counter of `n` that begins anew with every window: those since `start`, where the
last window began, are `cur`. -/
structure Counted (span n start : Nat) (times cur : List Nat) : Prop where
  split : ∃ old mid, times = old ++ mid ++ cur ∧ mid.length ≤ n ∧ (∀ t ∈ old, t + span ≤ start) ∧ ∀ t ∈ mid, t < start
  few : cur.length ≤ n
  current : ∀ t ∈ cur, start ≤ t ∧ t < start + span
  spaced : Spaced span (2 * n) times

theorem Counted.nil (span n start : Nat) : Counted span n start [] [] := by
  refine ⟨⟨[], [], rfl, Nat.zero_le _, ?_, ?_⟩, Nat.zero_le _, ?_, ?_⟩
  · intro t ht
    cases ht
  · intro t ht
    cases ht
  · intro t ht
    cases ht
  · intro i t u ht
    cases ht

/-- The window has run out, and the next begins. -/
theorem Counted.turn (h : Counted span n start times cur) {now : Nat} (hover : start + span ≤ now) :
    Counted span n now times [] := by
  rcases h.split with ⟨old, mid, rfl, _, hold, hmid⟩
  refine ⟨⟨old ++ mid, cur, by simp, h.few, ?_, ?_⟩, Nat.zero_le _, ?_, h.spaced⟩
  · intro t ht
    rcases List.mem_append.1 ht with ht | ht
    · have := hold t ht
      omega
    · have := hmid t ht
      omega
  · intro t ht
    exact Nat.lt_of_lt_of_le (h.current t ht).2 hover
  · intro t ht
    cases ht

/-- One more is let through in the window. -/
theorem Counted.pass (h : Counted span n start times cur) (hfew : cur.length < n) {now : Nat} (hle : start ≤ now)
    (hin : now < start + span) : Counted span n start (times ++ [now]) (cur ++ [now]) := by
  rcases h.split with ⟨old, mid, rfl, hlen, hold, hmid⟩
  refine ⟨⟨old, mid, by simp, hlen, hold, hmid⟩, ?_, ?_, ?_⟩
  · rw [List.length_append, List.length_singleton]
    exact hfew
  · intro t ht
    rcases List.mem_append.1 ht with ht | ht
    · exact h.current t ht
    · rw [List.mem_singleton.1 ht]
      exact ⟨hle, hin⟩
  · -- the time `2 * n` places before is of an earlier window than the last two
    refine h.spaced.concat (by omega) fun i t ht hi => ?_
    rw [List.length_append, List.length_append] at hi
    rw [List.append_assoc, List.getElem?_append_left (by omega)] at ht
    have hfar := hold t (List.mem_of_getElem? ht)
    exact Nat.le_trans hfar hle

/-- When the window is used up, `n` were let through in less than its length. -/
theorem Counted.le_recent (h : Counted span n start times cur) (hfull : n ≤ cur.length) {now : Nat}
    (hin : now < start + span) : n ≤ (times.filter fun t => now < t + span).length := by
  rcases h.split with ⟨old, mid, rfl, _, _, _⟩
  have hcur : cur.filter (fun t => now < t + span) = cur := by
    refine List.filter_eq_self.2 fun t ht => ?_
    have := (h.current t ht).1
    rw [decide_eq_true_eq]
    omega
  rw [List.filter_append, hcur, List.length_append]
  omega

end Counting

end FixedWindow
end Lib
end Thunderducks
