import Thunderducks.Lib.Unwinding
import Thunderducks.Node.RateLimit

/-!
# RateRuns — one client cannot use up another's requests (`td-node/src/rpc.rs`)

All clients share one map of windows, whose keys are an address and a path joined to one text, and which
drops old windows when it grows large.  `check` reads the map through `current` alone, and a window that is
dropped has run out for every rule there is, so that the decisions for one address and path are those of the
run of its requests alone (`decisions_isolated`).
-/

namespace Thunderducks
namespace Node

open Lib

/-- The text of an `IpAddr`: digits in groups, with dots or colons between them. -/
structure ClientIp where
  text : String
  written : ∀ c ∈ text.toList, c.isAlphanum = true ∨ c = '.' ∨ c = ':'

/-- A request as the middleware sees it. -/
structure RateCall where
  now : Instant
  ip : ClientIp
  path : String
  method : String

namespace RateLimitBook

/-- The rate limit of `authn_rate_middleware`: the path is the bucket. -/
def limit (book : RateLimitBook) (call : RateCall) : Except Instant Unit × RateLimitBook :=
  book.check call.now call.ip.text call.path (rateRuleFor call.path call.method)

/-! ## Keys -/

theorem bar_not_mem (ip : ClientIp) : '|' ∉ ip.text.toList := by
  intro h
  have := ip.written '|' h
  revert this
  decide

/-- The address ends at the first bar, so the key tells the address and the path. -/
theorem bucketKey_inj {ip ip' : ClientIp} {path path' : String}
    (h : bucketKey ip.text path = bucketKey ip'.text path') : ip.text = ip'.text ∧ path = path' := by
  have hchars : ip.text.toList ++ '|' :: path.toList = ip'.text.toList ++ '|' :: path'.toList := by
    have := congrArg String.toList h
    simpa [bucketKey] using this
  have hsplit := Text.splitOnce_append path.toList (bar_not_mem ip)
  rw [hchars, Text.splitOnce_append path'.toList (bar_not_mem ip')] at hsplit
  simp only [Option.some.injEq, Prod.mk.injEq] at hsplit
  exact ⟨String.toList_inj.1 hsplit.1.symm, String.toList_inj.1 hsplit.2.symm⟩

/-! ## What the map says of one key -/

section View

variable {book book' : RateLimitBook} {key key' : String} {now later : Instant} {entry : RateWindow}
  {rule : RateRule}

/-- The window of a key after a window was stored. -/
theorem current_insert : ({ book with windows := book.windows.insert key' entry }).current key now rule =
    if key = key' then
      if Instant.since now entry.start ≥ rule.window then { start := now, count := 0 } else entry
    else book.current key now rule := by
  unfold current
  dsimp only
  rw [HashMap.lookup_insert_eq]
  by_cases h : key = key'
  · rw [if_pos h, if_pos h]
    rfl
  · rw [if_neg h, if_neg h]

/-- A window that is pruned has run out for every rule of two minutes or less. -/
theorem current_prune (hle : now ≤ later) (hwindow : rule.window ≤ Instant.secs 120) :
    (book.prune now).current key later rule = book.current key later rule := by
  unfold prune
  split
  · cases hl : book.windows.lookup key with
    | none =>
        have hnone : (book.windows.retain fun _ w => w.start + Instant.secs 120 > now).lookup key = none := by
          rw [Option.eq_none_iff_forall_ne_some]
          intro w hw
          rw [(HashMap.lookup_retain.1 hw).1] at hl
          cases hl
        unfold current
        dsimp only
        rw [hnone, hl]
    | some w =>
        by_cases hkept : w.start + Instant.secs 120 > now
        · have hsome : (book.windows.retain fun _ w => w.start + Instant.secs 120 > now).lookup key = some w :=
            HashMap.lookup_retain.2 ⟨hl, decide_eq_true hkept⟩
          unfold current
          dsimp only
          rw [hsome, hl]
        · -- what is dropped began two minutes ago: a window found there would begin anew as well
          have hnone : (book.windows.retain fun _ w => w.start + Instant.secs 120 > now).lookup key = none := by
            rw [Option.eq_none_iff_forall_ne_some]
            intro w' hw'
            rcases HashMap.lookup_retain.1 hw' with ⟨hl', hp⟩
            rw [hl] at hl'
            cases hl'
            exact hkept (of_decide_eq_true hp)
          have hold : Instant.secs 120 + w.start ≤ now := by
            rw [Nat.add_comm]
            exact Nat.le_of_not_lt hkept
          have hover : Instant.since later w.start ≥ rule.window :=
            hwindow.trans (Nat.le_sub_of_add_le (hold.trans hle))
          unfold current
          dsimp only
          rw [hnone, hl]
          simp only [Option.getD_none, Option.getD_some, if_pos hover, ite_self]
  · rfl

end View

theorem rateRuleFor_perMinute (path method : String) : ∃ n, rateRuleFor path method = perMinute n := by
  unfold rateRuleFor
  dsimp only
  split
  · exact ⟨10, rfl⟩
  split
  · exact ⟨20, rfl⟩
  split
  · exact ⟨120, rfl⟩
  split
  · exact ⟨180, rfl⟩
  · exact ⟨600, rfl⟩

/-- The window that a request leaves in its place: it is counted if it is admitted. -/
def counted (entry : RateWindow) (limit : Nat) : RateWindow :=
  if entry.count ≥ limit then entry else { entry with count := entry.count + 1 }

/-- A request replaces the window of its own key and says nothing of the others. -/
theorem current_check {book : RateLimitBook} {key ip bucket : String} {now later : Instant} {n limit : Nat}
    (hle : now ≤ later) :
    (book.check now ip bucket (perMinute n)).2.current key later (perMinute limit) =
      if key = bucketKey ip bucket then
        let entry := counted (book.current key now (perMinute n)) n
        if Instant.since later entry.start ≥ Instant.secs 60 then { start := later, count := 0 } else entry
      else book.current key later (perMinute limit) := by
  have hlimit : (perMinute n).limit = n := rfl
  have hwindow : (perMinute limit).window = Instant.secs 60 := rfl
  have hprune : (perMinute limit).window ≤ Instant.secs 120 := by
    rw [hwindow]
    decide
  unfold check counted
  dsimp only
  rw [hlimit]
  by_cases hkey : key = bucketKey ip bucket
  · rw [if_pos hkey, ← hkey]
    by_cases hfull : (book.current key now (perMinute n)).count ≥ n
    · rw [if_pos hfull, if_pos hfull, current_insert, if_pos rfl, hwindow]
    · rw [if_neg hfull, if_neg hfull, current_prune hle hprune, current_insert, if_pos rfl, hwindow]
  · rw [if_neg hkey]
    by_cases hfull : (book.current (bucketKey ip bucket) now (perMinute n)).count ≥ n
    · rw [if_pos hfull, current_insert, if_neg hkey]
    · rw [if_neg hfull, current_prune hle hprune, current_insert, if_neg hkey]

/-- The decision is read off the window of the key. -/
theorem check_congr {book book' : RateLimitBook} {ip bucket : String} {now : Instant} {rule : RateRule}
    (h : book.current (bucketKey ip bucket) now rule = book'.current (bucketKey ip bucket) now rule) :
    (book.check now ip bucket rule).1 = (book'.check now ip bucket rule).1 := by
  unfold check
  dsimp only
  rw [h]
  split
  · rfl
  · rfl

/-! ## Two books that say the same of one key -/

/-- From `now` on the books have the same window for the key, whatever the limit. -/
def SameFor (key : String) (now : Instant) (book book' : RateLimitBook) : Prop :=
  ∀ later limit, now ≤ later →
    book.current key later (perMinute limit) = book'.current key later (perMinute limit)

/-- The request is one of the address and the path. -/
def isOf (ip : ClientIp) (path : String) (call : RateCall) : Bool :=
  call.ip.text = ip.text ∧ call.path = path

theorem unwinds_limit (ip : ClientIp) (path : String) :
    Unwinding.Unwinds limit (isOf ip path) RateCall.now (SameFor (bucketKey ip.text path)) := by
  refine ⟨?_, ?_, ?_⟩
  · intro now now' book book' hle h later n hlater
    exact h later n (hle.trans hlater)
  · -- a request of the address and the path is decided on the window that the books agree on
    intro book book' call hown h
    have hcall : call.ip.text = ip.text ∧ call.path = path := by
      simpa [isOf] using hown
    rcases rateRuleFor_perMinute call.path call.method with ⟨n, hrule⟩
    have hnow := h call.now n (Nat.le_refl _)
    unfold limit
    rw [hrule, hcall.1, hcall.2]
    refine ⟨check_congr hnow, ?_⟩
    intro later m hlater
    rw [current_check hlater, current_check hlater, if_pos rfl, if_pos rfl, hnow]
  · -- any other has another key
    intro book book' call hother h later m hlater
    have hne : bucketKey ip.text path ≠ bucketKey call.ip.text call.path := by
      intro heq
      rcases bucketKey_inj heq with ⟨hip, hpath⟩
      simp [isOf, hip, hpath] at hother
    rcases rateRuleFor_perMinute call.path call.method with ⟨n, hrule⟩
    unfold limit
    rw [hrule, current_check hlater, if_neg hne]
    exact h later m hlater

/-- In every run of requests at nondecreasing times, from a book without windows, the decisions for one
address and path are those of the run of its requests alone. -/
theorem decisions_isolated (calls : List RateCall) (ip : ClientIp) (path : String)
    (hsorted : calls.Pairwise fun a b => a.now ≤ b.now) :
    Unwinding.answersTo limit (isOf ip path) empty calls =
      Runs.answers limit empty (calls.filter (isOf ip path)) := by
  refine Unwinding.answersTo_eq_answers_filter (unwinds_limit ip path) calls ?_ hsorted ?_ (t := 0)
  · intro call _
    exact Nat.zero_le _
  · intro later n _
    rfl

/-! ## A guest that uses up its logins -/

def guestIp : ClientIp :=
  ⟨"10.0.0.2", @of_decide_eq_true _ (List.decidableBAll _ _) (by decide)⟩

def ownerIp : ClientIp :=
  ⟨"10.0.0.1", @of_decide_eq_true _ (List.decidableBAll _ _) (by decide)⟩

def loginCall (ip : ClientIp) (now : Instant) : RateCall :=
  { now := now
    ip := ip
    path := "/v1/recovery/login"
    method := "POST" }

/-- Twelve logins of a guest, two of them refused, leave the owner's login as it would be alone. -/
theorem decisions_isolated_guest :
    Unwinding.answersTo limit (isOf ownerIp "/v1/recovery/login") empty
        (List.replicate 12 (loginCall guestIp 5) ++ [loginCall ownerIp 6]) =
      Runs.answers limit empty
        ((List.replicate 12 (loginCall guestIp 5) ++ [loginCall ownerIp 6]).filter
          (isOf ownerIp "/v1/recovery/login")) :=
  decisions_isolated _ ownerIp "/v1/recovery/login" (by decide)

end RateLimitBook

end Node
end Thunderducks
