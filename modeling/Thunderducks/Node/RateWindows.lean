import Thunderducks.Lib.FixedWindow
import Thunderducks.Node.RateRuns

/-!
# RateWindows — what a sliding window would have refused (`RateLimitBook::check` in `td-node/src/rpc.rs`)

A key has one counter, which begins anew with the first call after its window has run out.  `current_calls`
reads it as a `FixedWindow` of the calls, so that the first `limit` calls of each window are admitted.  Calls
at the end of one window and at the start of the next are counted apart: the bound of a sliding window
holds for the calls whose windows are clear of each other, and for no others (`slides_iff`).
-/

namespace Thunderducks
namespace Node

open Lib

namespace RateLimitBook

/-! ## The window of a list of hits -/

section Hits

variable {α : Type} (time limit : α → Nat)

/-- The window that the hits in it amount to. -/
def windowOf (w : List α) (now : Instant) : RateWindow :=
  { start := FixedWindow.startOf time w now
    count := (FixedWindow.passed limit w).length }

theorem windowOf_nil (now : Instant) : windowOf time limit [] now = { start := now, count := 0 } := rfl

/-- A window counts one more hit, or has run out by `later`. -/
theorem windowOf_next (w : List α) (a : α) (span later : Instant) :
    (if Instant.since later (counted (windowOf time limit w (time a)) (limit a)).start ≥ span then
        { start := later, count := 0 }
      else counted (windowOf time limit w (time a)) (limit a)) =
      windowOf time limit
        (if span ≤ later - FixedWindow.startOf time w (time a) then [] else w ++ [a]) later := by
  have hstart : (counted (windowOf time limit w (time a)) (limit a)).start =
      FixedWindow.startOf time w (time a) := by
    unfold counted
    split
    · rfl
    · rfl
  rw [hstart]
  -- the window has run out, or goes on with one call more
  by_cases hover : Instant.since later (FixedWindow.startOf time w (time a)) ≥ span
  · rw [if_pos hover, if_pos (show span ≤ later - _ from hover), windowOf_nil]
  · have hsame : FixedWindow.startOf time (w ++ [a]) later = FixedWindow.startOf time w (time a) := by
      cases w with
      | nil => rfl
      | cons first rest => rfl
    rw [if_neg hover, if_neg (show ¬ span ≤ later - _ from hover)]
    unfold counted windowOf
    rw [hsame, FixedWindow.passed_append]
    dsimp only
    split
    · rfl
    · rw [List.length_append, List.length_singleton]

end Hits

/-! ## The calls for one key -/

section OneKey

variable {ip bucket : String} {rule : RateRule}

/-- The book has a window for no other key. -/
def HoldsOnly (key : String) (book : RateLimitBook) : Prop :=
  ∀ k ∈ book.windows, k = key

theorem HoldsOnly.insert {key : String} {book : RateLimitBook} (h : book.HoldsOnly key) (entry : RateWindow) :
    HoldsOnly key { book with windows := book.windows.insert key entry } := by
  intro k hk
  rcases (AList.mem_insert _).1 hk with hk | hk
  · exact hk
  · exact h k hk

/-- One window is not large enough to prune. -/
theorem HoldsOnly.prune {key : String} {book : RateLimitBook} (h : book.HoldsOnly key) (now : Instant) :
    book.prune now = book := by
  have hkeys : book.windows.keys = List.replicate book.windows.keys.length key :=
    List.eq_replicate_of_mem fun k hk => h k (AList.mem_keys.2 hk)
  have hone : book.windows.keys.length ≤ 1 := by
    have hnodup := book.windows.keys_nodup
    rw [hkeys] at hnodup
    exact List.nodup_replicate.1 hnodup
  have hlen : book.windows.keys.length = book.windows.entries.length := List.length_map _
  unfold RateLimitBook.prune
  rw [if_neg (by omega)]

theorem HoldsOnly.check {book : RateLimitBook} (h : book.HoldsOnly (bucketKey ip bucket)) (now : Instant) :
    (book.check now ip bucket rule).2 =
      { book with
        windows := book.windows.insert (bucketKey ip bucket)
          (counted (book.current (bucketKey ip bucket) now rule) rule.limit) } := by
  unfold RateLimitBook.check counted
  dsimp only
  split
  · rfl
  · exact (h.insert _).prune now

/-- After `times`, the last of them not after `last`, the book holds the window of these calls. -/
structure Tracks (ip bucket : String) (rule : RateRule) (book : RateLimitBook) (last : Instant)
    (times : List Instant) : Prop where
  only : book.HoldsOnly (bucketKey ip bucket)
  window : ∀ later, last ≤ later → book.current (bucketKey ip bucket) later rule =
    windowOf id (fun _ => rule.limit) (FixedWindow.windowAt id rule.window times later) later

theorem tracks_empty : Tracks ip bucket rule empty 0 [] := by
  refine ⟨?_, ?_⟩
  · intro k hk
    exact absurd hk (AList.notMem_empty k)
  · intro later _
    unfold current
    simp [empty, windowOf_nil]

theorem Tracks.check {book : RateLimitBook} {last now : Instant} {times : List Instant}
    (h : Tracks ip bucket rule book last times) (hlast : last ≤ now) :
    Tracks ip bucket rule (book.check now ip bucket rule).2 now (times ++ [now]) := by
  have hcheck := @HoldsOnly.check ip bucket rule book h.only now
  refine ⟨?_, ?_⟩
  · rw [hcheck]
    exact h.only.insert _
  · intro later _
    rw [hcheck, current_insert, if_pos rfl, h.window now hlast, FixedWindow.windowAt_append]
    exact windowOf_next id (fun _ => rule.limit) _ now rule.window later

/-- A call is admitted exactly if it is among the first `limit` of its window. -/
theorem Tracks.ok_iff {book : RateLimitBook} {last now : Instant} {times : List Instant}
    (h : Tracks ip bucket rule book last times) (hlast : last ≤ now) :
    (book.check now ip bucket rule).1 = .ok () ↔
      (FixedWindow.windowAt id rule.window times now).length < rule.limit := by
  unfold RateLimitBook.check
  dsimp only
  rw [h.window now hlast]
  unfold windowOf
  dsimp only
  rw [FixedWindow.passed_const, List.length_take]
  split
  next hfull =>
    refine iff_of_false (fun hok => by cases hok) ?_
    omega
  next hroom =>
    refine iff_of_true rfl ?_
    omega

/-- A refused call is told how long its window still runs. -/
theorem Tracks.error_iff {book : RateLimitBook} {last now retry : Instant} {times : List Instant}
    (h : Tracks ip bucket rule book last times) (hlast : last ≤ now) :
    (book.check now ip bucket rule).1 = .error retry ↔
      rule.limit ≤ (FixedWindow.windowAt id rule.window times now).length ∧
        retry = rule.window -
          (now - FixedWindow.startOf id (FixedWindow.windowAt id rule.window times now) now) := by
  -- the window is not over yet, so the time to retry is what is left of it
  have helapsed : Instant.since now
      (FixedWindow.startOf id (FixedWindow.windowAt id rule.window times now) now) ≤ rule.window := by
    rcases Nat.eq_zero_or_pos rule.window with hzero | hpos
    · rw [hzero, FixedWindow.windowAt_zero]
      exact Nat.le_of_eq (Nat.sub_self now)
    · exact Nat.le_of_lt (FixedWindow.sub_startOf_windowAt_lt hpos times now)
  unfold RateLimitBook.check
  dsimp only
  rw [h.window now hlast]
  unfold windowOf
  dsimp only
  rw [FixedWindow.passed_const, List.length_take, if_pos helapsed]
  split
  next hfull =>
    have hlimit : rule.limit ≤ (FixedWindow.windowAt id rule.window times now).length := by omega
    rw [and_iff_right hlimit, Except.error.injEq]
    exact eq_comm
  next hroom =>
    refine iff_of_false (fun herr => by cases herr) ?_
    omega

/-! ## Runs -/

variable (ip bucket rule)

/-- The book after the calls. -/
def afterCalls (times : List Instant) : RateLimitBook :=
  Runs.run (fun book now => (book.check now ip bucket rule).2) empty times

/-- The times of the calls that are admitted. -/
def admittedAt : RateLimitBook → List Instant → List Instant
  | _, [] => []
  | book, now :: times =>
      let rest := admittedAt (book.check now ip bucket rule).2 times
      if (book.check now ip bucket rule).1 = .ok () then now :: rest else rest

/-- What a sliding window promises. -/
structure Slides (times : List Instant) : Prop where
  /-- No interval of the length of the window has more than `limit` admitted calls. -/
  bounded : ∀ start, (FixedWindow.interval start rule.window
    (admittedAt ip bucket rule empty times)).length ≤ rule.limit
  /-- A refused call is told when the next one is admitted, if none comes in between. -/
  retries : ∀ before now after retry, times = before ++ now :: after →
    ((afterCalls ip bucket rule before).check now ip bucket rule).1 = .error retry →
    0 < retry ∧ retry ≤ rule.window ∧ ∀ later, now + retry ≤ later →
      ((afterCalls ip bucket rule (before ++ [now])).check later ip bucket rule).1 = .ok ()

/-- The rule admits calls at all; and, the times of the calls cut into windows, each two windows in a row are
clear of each other: a call that is among the first `limit` of the later window comes a window's length or more
after the call of the same place in the earlier one, or, where that has fewer than `limit`, after the call
`limit` places before it. -/
structure CallsSpaced (times : List Instant) : Prop where
  admits : times ≠ [] → 0 < rule.limit
  clear : (FixedWindow.windows rule.window times).IsChain (FixedWindow.Clear rule.window rule.limit)

variable {ip bucket rule}

/-- After calls in order the book holds the window of these calls. -/
theorem tracks_afterCalls (times : List Instant) : ∀ {last : Instant},
    times.Pairwise (· ≤ ·) → (∀ t ∈ times, t ≤ last) →
    Tracks ip bucket rule (afterCalls ip bucket rule times) last times := by
  induction times using List.reverseRecOn with
  | nil =>
      intro last _ _
      have hempty : Tracks ip bucket rule empty 0 [] := tracks_empty
      exact ⟨hempty.only, fun later _ => hempty.window later (Nat.zero_le later)⟩
  | append_singleton times now ih =>
      intro last hsorted hlast
      rcases List.pairwise_append.1 hsorted with ⟨hbefore, _, hle⟩
      have hprev := ih hbefore (fun t ht => hle t ht now (by simp))
      have hnext := hprev.check (Nat.le_refl now)
      rw [afterCalls, Runs.run_append_singleton]
      refine ⟨hnext.only, fun later hlater => ?_⟩
      exact hnext.window later (Nat.le_trans (hlast now (by simp)) hlater)

/-- The admitted calls are the first ones of each window. -/
theorem admittedAt_eq (times : List Instant) : ∀ {book : RateLimitBook} {last : Instant} {before : List Instant},
    Tracks ip bucket rule book last before → times.Pairwise (· ≤ ·) → (∀ t ∈ times, last ≤ t) →
    admittedAt ip bucket rule book times =
      FixedWindow.firstsFrom id rule.window rule.limit before times := by
  induction times with
  | nil =>
      intro book last before _ _ _
      rfl
  | cons now times ih =>
      intro book last before h hsorted hlast
      have hnow : last ≤ now := hlast now List.mem_cons_self
      have hrest := ih (h.check hnow) hsorted.of_cons fun t ht => List.rel_of_pairwise_cons hsorted ht
      unfold admittedAt FixedWindow.firstsFrom
      dsimp only
      rw [hrest]
      exact if_congr (h.ok_iff hnow) rfl rfl

/-- A call that is refused is admitted as soon as its retry time is over, if the rule admits calls at all. -/
theorem retries_of_pos (hlimit : 0 < rule.limit) {before : List Instant} {now retry : Instant}
    (hsorted : (before ++ [now]).Pairwise (· ≤ ·))
    (hrefused : ((afterCalls ip bucket rule before).check now ip bucket rule).1 = .error retry) :
    0 < retry ∧ retry ≤ rule.window ∧ ∀ later, now + retry ≤ later →
      ((afterCalls ip bucket rule (before ++ [now])).check later ip bucket rule).1 = .ok () := by
  rcases List.pairwise_append.1 hsorted with ⟨hbefore, _, hle⟩
  have hprev : ∀ t ∈ before, t ≤ now := fun t ht => hle t ht now (by simp)
  have htracks : Tracks ip bucket rule (afterCalls ip bucket rule before) now before :=
    tracks_afterCalls before hbefore hprev
  rcases (htracks.error_iff (Nat.le_refl now)).1 hrefused with ⟨hfull, hretry⟩
  have hwindow : 0 < rule.window := by
    rcases Nat.eq_zero_or_pos rule.window with hzero | hpos
    · rw [hzero, FixedWindow.windowAt_zero, List.length_nil] at hfull
      omega
    · exact hpos
  subst hretry
  refine ⟨Nat.sub_pos_of_lt (FixedWindow.sub_startOf_windowAt_lt hwindow before now), Nat.sub_le _ _, ?_⟩
  intro later hlater
  have hnow : now ≤ later := Nat.le_trans (Nat.le_add_right now _) hlater
  have hall : ∀ t ∈ before ++ [now], t ≤ now := by
    intro t ht
    rcases List.mem_append.1 ht with ht | ht
    · exact hprev t ht
    · exact Nat.le_of_eq (List.mem_singleton.1 ht)
  have hnext : Tracks ip bucket rule (afterCalls ip bucket rule (before ++ [now])) now (before ++ [now]) :=
    tracks_afterCalls (before ++ [now]) hsorted hall
  -- by then the window has run out
  have hover : FixedWindow.windowAt id rule.window (before ++ [now]) later = [] :=
    FixedWindow.windowAt_append_over hwindow hprev hlater
  rw [hnext.ok_iff hnow, hover]
  exact hlimit

/-- For every rule and every sequence of calls in order, the counter does what a sliding window promises
exactly when the calls are spaced. -/
theorem slides_iff (ip bucket : String) (rule : RateRule) (times : List Instant)
    (hsorted : times.Pairwise (· ≤ ·)) :
    Slides ip bucket rule times ↔ CallsSpaced rule times := by
  have hadmitted : admittedAt ip bucket rule empty times = FixedWindow.firsts id rule.window rule.limit times :=
    admittedAt_eq times tracks_empty hsorted fun t _ => Nat.zero_le t
  have hfirsts : (FixedWindow.firsts id rule.window rule.limit times).Pairwise (· ≤ ·) :=
    hsorted.sublist (FixedWindow.firstsFrom_sublist times [])
  have hbounded : (∀ start, (FixedWindow.interval start rule.window
      (FixedWindow.firsts id rule.window rule.limit times)).length ≤ rule.limit) ↔
      (FixedWindow.windows rule.window times).IsChain (FixedWindow.Clear rule.window rule.limit) :=
    (FixedWindow.length_interval_le_iff hfirsts).trans (FixedWindow.spaced_firsts_iff hsorted)
  constructor
  · rintro ⟨hbound, hretries⟩
    rw [hadmitted] at hbound
    refine ⟨?_, hbounded.1 hbound⟩
    intro hcalls
    cases times with
    | nil => exact absurd rfl hcalls
    | cons now times =>
        by_contra hnone
        -- a rule that admits nothing refuses the first call, and every later one
        have hzero : rule.limit = 0 := Nat.le_zero.1 (Nat.not_lt.1 hnone)
        have hempty : Tracks ip bucket rule empty 0 [] := tracks_empty
        have hrefused : ((afterCalls ip bucket rule []).check now ip bucket rule).1 = .error rule.window := by
          refine (hempty.error_iff (Nat.zero_le now)).2 ⟨by rw [hzero]; exact Nat.zero_le _, ?_⟩
          simp [FixedWindow.startOf]
        rcases hretries [] now times rule.window rfl hrefused with ⟨_, _, hlater⟩
        have hnext := hempty.check (Nat.zero_le now)
        have hok := (hnext.ok_iff (Nat.le_add_right now rule.window)).1 (hlater _ (Nat.le_refl _))
        rw [hzero] at hok
        exact Nat.not_lt_zero _ hok
  · rintro ⟨hadmits, hclear⟩
    refine ⟨?_, ?_⟩
    · rw [hadmitted]
      exact hbounded.2 hclear
    · rintro before now after retry rfl hrefused
      have hpos : 0 < rule.limit := hadmits (by simp)
      have hfront : (before ++ [now]).Pairwise (· ≤ ·) := by
        have happ : before ++ now :: after = (before ++ [now]) ++ after := by simp
        rw [happ] at hsorted
        exact (List.pairwise_append.1 hsorted).1
      exact retries_of_pos hpos hfront hrefused

end OneKey

/-! ## Nineteen logins in two seconds -/

/-- One login opens the window, nine come in its last second, and ten when it is over. -/
def straddling : List Instant :=
  0 :: (List.replicate 9 (Instant.secs 59) ++ List.replicate 10 (Instant.secs 60))

theorem slides_straddling :
    ¬ ∀ (ip bucket : String) (rule : RateRule) (times : List Instant), times.Pairwise (· ≤ ·) →
      Slides ip bucket rule times := by
  intro h
  have hall := h "10.0.0.2" "/v1/recovery/login" (rateRuleFor "/v1/recovery/login" "POST") straddling
    (by decide)
  have hbound := hall.bounded (Instant.secs 59)
  revert hbound
  decide +kernel

/-- Three logins in a minute and a half. -/
theorem slides_iff_three :
    Slides "10.0.0.2" "/v1/recovery/login" (perMinute 10) [0, Instant.secs 30, Instant.secs 90] := by
  have hsorted : [0, Instant.secs 30, Instant.secs 90].Pairwise (· ≤ ·) := by decide
  refine (slides_iff "10.0.0.2" "/v1/recovery/login" (perMinute 10) _ hsorted).2 ⟨?_, ?_⟩
  · intro _
    decide
  · have hwindows : FixedWindow.windows (perMinute 10).window [0, Instant.secs 30, Instant.secs 90] =
        [[0, Instant.secs 30], [Instant.secs 90]] := by
      decide
    rw [hwindows, List.isChain_cons_cons]
    refine ⟨?_, List.IsChain.singleton _⟩
    -- the window with two calls has none ten places before the next
    intro k m t u hk hkm ht hu
    have hin := (List.getElem?_eq_some_iff.1 ht).1
    have hlimit : (perMinute 10).limit = 10 := rfl
    simp only [hlimit, List.length_cons, List.length_nil] at hk hkm hin
    have hm := (List.getElem?_eq_some_iff.1 hu).1
    simp only [List.length_cons, List.length_nil] at hm
    omega

end RateLimitBook

end Node
end Thunderducks
