import Thunderducks.Node.OwnerSessions
import Thunderducks.Node.RateWindows

/-!
# RateClasses — the limits of one path share a counter (`authn_rate_middleware` in `td-node/src/rpc.rs`)

`rate_rule_for` gives a request a limit by its path and its method, but the middleware counts under the path
alone: requests of another method, with a limit of their own, use up the allowance of this one.
`Follows` reads the windows of one client as those of its requests on each path; `refusesOwnClass_iff` says
exactly in which runs nobody is refused on account of requests of another class.
-/

namespace Thunderducks
namespace Node

open Lib Event

namespace Arrival

def now (a : Arrival) : Instant :=
  a.draw.now

/-- The rule that the middleware applies to the request. -/
def rule (a : Arrival) : RateRule :=
  rateRuleFor a.req.path a.req.method

def limit (a : Arrival) : Nat :=
  a.rule.limit

/-- The requests on one path. -/
def onPath (path : String) (as : List Arrival) : List Arrival :=
  as.filter fun a => a.req.path = path

/-- The requests before `a` in the window that it falls into. -/
def earlier (before : List Arrival) (a : Arrival) : List Arrival :=
  FixedWindow.windowAt now (Instant.secs 60) (onPath a.req.path before) a.now

theorem onPath_append (path : String) (as : List Arrival) (a : Arrival) :
    onPath path (as ++ [a]) = if a.req.path = path then onPath path as ++ [a] else onPath path as := by
  unfold onPath
  rw [List.filter_append]
  split
  next h => simp [h]
  next h => simp [h]

theorem rule_perMinute (a : Arrival) : a.rule = perMinute a.limit := by
  unfold limit rule
  rcases RateLimitBook.rateRuleFor_perMinute a.req.path a.req.method with ⟨n, hrule⟩
  rw [hrule]
  rfl

/-- All rules have a window of a minute, so a rule is its limit. -/
theorem rule_eq_iff {a b : Arrival} : a.rule = b.rule ↔ a.limit = b.limit := by
  refine ⟨fun h => congrArg RateRule.limit h, fun h => ?_⟩
  rw [rule_perMinute, rule_perMinute, h]

end Arrival

/-! ## The windows of one client -/

namespace RateLimitBook

/-- From `last` on the book holds, for each path, the window of the requests that the client made there. -/
def Follows (ip : String) (book : RateLimitBook) (last : Instant) (hits : List Arrival) : Prop :=
  ∀ path later n, last ≤ later → book.current (bucketKey ip path) later (perMinute n) =
    windowOf Arrival.now Arrival.limit
      (FixedWindow.windowAt Arrival.now (Instant.secs 60) (Arrival.onPath path hits) later) later

theorem bucketKey_path {ip path path' : String} : bucketKey ip path = bucketKey ip path' ↔ path = path' := by
  refine ⟨fun h => ?_, fun h => congrArg _ h⟩
  have hchars := congrArg String.toList h
  simpa [bucketKey, String.toList_inj] using hchars

variable {ip : String} {book : RateLimitBook} {last : Instant} {hits : List Arrival} {a : Arrival}

theorem follows_new (hnew : ∀ path, book.windows.lookup (bucketKey ip path) = none) :
    book.Follows ip 0 [] := by
  intro path later n _
  unfold current
  rw [hnew path]
  simp [Arrival.onPath, windowOf_nil]

/-- A request is refused if its limit were admitted in its window. -/
theorem Follows.refused_iff (h : book.Follows ip last hits) (hlast : last ≤ a.now) :
    (book.check a.now ip a.req.path a.rule).1 ≠ .ok () ↔
      a.limit ≤ (FixedWindow.passed Arrival.limit (a.earlier hits)).length := by
  unfold check
  dsimp only
  rw [a.rule_perMinute, h a.req.path a.now a.limit hlast]
  have hlimit : (perMinute a.limit).limit = a.limit := rfl
  rw [hlimit]
  unfold windowOf Arrival.earlier
  dsimp only
  split
  next hfull => simpa using hfull
  next hroom => simpa using hroom

theorem Follows.check (h : book.Follows ip last hits) (hlast : last ≤ a.now) :
    (book.check a.now ip a.req.path a.rule).2.Follows ip a.now (hits ++ [a]) := by
  intro path later m hlater
  rw [a.rule_perMinute, current_check hlater, Arrival.onPath_append]
  by_cases hpath : path = a.req.path
  · subst hpath
    rw [if_pos rfl, if_pos rfl, h _ _ _ hlast, FixedWindow.windowAt_append]
    exact windowOf_next Arrival.now Arrival.limit _ a (Instant.secs 60) later
  · rw [if_neg (fun hkey => hpath (bucketKey_path.1 hkey)), if_neg (fun heq => hpath heq.symm)]
    exact h path later m (hlast.trans hlater)

end RateLimitBook

/-! ## Runs of the server -/

/-- The middleware refuses the request with 429. -/
def Reply.rateLimited : Reply → Bool
  | .refused (.error 429 _ _) => true
  | _ => false

namespace RpcState

/-- The requests of a run come from one client, which the rate limits do not know yet, in order of time. -/
structure FromClient (st : RpcState) (ip : String) (arrivals : List Arrival) : Prop where
  one : ∀ a ∈ arrivals, a.req.ip = ip
  unseen : ∀ path, st.rateLimits.windows.lookup (RateLimitBook.bucketKey ip path) = none
  ordered : arrivals.Pairwise fun a b => a.now ≤ b.now

theorem FromClient.front {st : RpcState} {ip : String} {as bs : List Arrival}
    (h : st.FromClient ip (as ++ bs)) : st.FromClient ip as :=
  ⟨fun b hb => h.one b (List.mem_append_left _ hb), h.unseen, (List.pairwise_append.1 h.ordered).1⟩

theorem FromClient.le_last {st : RpcState} {ip : String} {as : List Arrival} {a : Arrival}
    (h : st.FromClient ip (as ++ [a])) : ∀ b ∈ as, b.now ≤ a.now :=
  fun b hb => (List.pairwise_append.1 h.ordered).2.2 b hb a (by simp)

section Serve

variable [Primitives] [Unicode] [JsonBody ClaimRequest] [JsonBody RecoveryLoginRequest]

/-- The requests that the rate limit lets through. -/
def admitted : RpcState → List Arrival → List Arrival
  | _, [] => []
  | st, a :: as =>
      let rest := admitted (st.serve a).2 as
      if (st.serve a).1.rateLimited then rest else a :: rest

/-- When the current window of the request's path began. -/
def windowStart (st : RpcState) (a : Arrival) : Instant :=
  (st.rateLimits.current (RateLimitBook.bucketKey a.req.ip a.req.path) a.now a.rule).start

/-- The requests of the same path and the same rule that were admitted in the current window. -/
def sameClass (st : RpcState) (before : List Arrival) (a : Arrival) : List Arrival :=
  (st.admitted before).filter fun b =>
    b.req.path = a.req.path ∧ b.rule = a.rule ∧ (st.after before).windowStart a ≤ b.now

/-- A request is refused with 429 only if its limit of requests of its class were admitted. -/
def RefusesOwnClass (st : RpcState) (arrivals : List Arrival) : Prop :=
  ∀ before a after, arrivals = before ++ a :: after → ((st.after before).serve a).1.rateLimited = true →
    a.rule.limit ≤ (st.sameClass before a).length

omit [Primitives] [Unicode] [JsonBody ClaimRequest] [JsonBody RecoveryLoginRequest] in
theorem checkOwner_not_rateLimited (st : RpcState) (now : Instant) (req : Request) {resp : Response}
    (h : (st.checkOwner now req).1 = some resp) : (Reply.refused resp).rateLimited = false := by
  unfold checkOwner OwnerState.requireOwnerToken at h
  split at h
  · dsimp only at h
    split at h
    · cases h
      rfl
    · split at h
      · cases h
        rfl
      · cases h
  · cases h

omit [Primitives] [Unicode] [JsonBody ClaimRequest] [JsonBody RecoveryLoginRequest] in
theorem checkOwner_rateLimits (st : RpcState) (now : Instant) (req : Request) :
    (st.checkOwner now req).2.rateLimits = st.rateLimits ∧
      (st.checkOwner now req).2.rateLimitEnabled = st.rateLimitEnabled := by
  unfold checkOwner
  split
  · exact ⟨rfl, rfl⟩
  · exact ⟨rfl, rfl⟩

/-- What one request does to the rate limits. -/
structure Limited (st : RpcState) (a : Arrival) : Prop where
  refused : (st.serve a).1.rateLimited = true ↔ st.rateLimitEnabled = true ∧
    (st.rateLimits.check a.now a.req.ip a.req.path a.rule).1 ≠ .ok ()
  enabled : (st.serve a).2.rateLimitEnabled = st.rateLimitEnabled
  book : (st.serve a).2.rateLimits =
    if st.rateLimitEnabled then (st.rateLimits.check a.now a.req.ip a.req.path a.rule).2
    else st.rateLimits

omit [Primitives] [Unicode] [JsonBody ClaimRequest] [JsonBody RecoveryLoginRequest] in
theorem checkRate_cases (st : RpcState) (a : Arrival) :
    (∃ resp, st.checkRate a.draw.now a.req =
        (some resp, { st with rateLimits := (st.rateLimits.check a.now a.req.ip a.req.path a.rule).2 }) ∧
      (Reply.refused resp).rateLimited = true ∧ st.rateLimitEnabled = true ∧
      (st.rateLimits.check a.now a.req.ip a.req.path a.rule).1 ≠ .ok ()) ∨
    (st.checkRate a.draw.now a.req =
        (none, { st with rateLimits :=
          if st.rateLimitEnabled then (st.rateLimits.check a.now a.req.ip a.req.path a.rule).2
          else st.rateLimits }) ∧
      ¬ (st.rateLimitEnabled = true ∧ (st.rateLimits.check a.now a.req.ip a.req.path a.rule).1 ≠ .ok ())) := by
  unfold checkRate Arrival.now Arrival.rule
  by_cases hon : st.rateLimitEnabled = true
  · rw [if_pos hon, if_pos hon]
    rcases st.rateLimits.check a.draw.now a.req.ip a.req.path (rateRuleFor a.req.path a.req.method) with
      ⟨res, book⟩
    cases res with
    | error retry => exact Or.inl ⟨_, rfl, rfl, hon, by simp⟩
    | ok u => exact Or.inr ⟨rfl, by simp⟩
  · rw [if_neg hon, if_neg hon]
    exact Or.inr ⟨rfl, fun h => hon h.1⟩

theorem limited (st : RpcState) (a : Arrival) : st.Limited a := by
  -- refused by the limit, or let on to the owner check
  rcases checkRate_cases st a with ⟨resp, hrate, hlimited, hon, hno⟩ | ⟨hrate, hpass⟩
  · have heq : st.serve a = (.refused resp,
        { st with rateLimits := (st.rateLimits.check a.now a.req.ip a.req.path a.rule).2 }) := by
      simp [serve, hrate]
    refine ⟨?_, by rw [heq], by rw [heq, if_pos hon]⟩
    rw [heq]
    exact iff_of_true hlimited ⟨hon, hno⟩
  · generalize hst₁ : { st with rateLimits :=
      if st.rateLimitEnabled then (st.rateLimits.check a.now a.req.ip a.req.path a.rule).2
      else st.rateLimits } = st₁ at hrate
    have hbook : st₁.rateLimits = if st.rateLimitEnabled then
        (st.rateLimits.check a.now a.req.ip a.req.path a.rule).2 else st.rateLimits := by
      rw [← hst₁]
    have henabled : st₁.rateLimitEnabled = st.rateLimitEnabled := by
      rw [← hst₁]
    have hkept := checkOwner_rateLimits st₁ a.draw.now a.req
    have howner : ∀ resp, (st₁.checkOwner a.draw.now a.req).1 = some resp →
        (Reply.refused resp).rateLimited = false :=
      fun resp h => checkOwner_not_rateLimited st₁ a.draw.now a.req h
    rcases hcheck : st₁.checkOwner a.draw.now a.req with ⟨refusal, st₂⟩
    rw [hcheck] at hkept howner
    -- an answer of the owner check is none of the limit
    cases refusal with
    | some resp =>
        have heq : st.serve a = (.refused resp, st₂) := by
          simp [serve, hrate, hcheck]
        refine ⟨?_, by rw [heq]; exact hkept.2.trans henabled, by rw [heq]; exact hkept.1.trans hbook⟩
        rw [heq]
        exact iff_of_false (by simp [howner resp rfl]) hpass
    | none =>
        have heq : st.serve a =
            (.reached (st₂.inner.handle a).1, { st₂ with inner := (st₂.inner.handle a).2 }) := by
          simp [serve, hrate, hcheck]
        refine ⟨?_, by rw [heq]; exact hkept.2.trans henabled, by rw [heq]; exact hkept.1.trans hbook⟩
        rw [heq]
        exact iff_of_false (by simp [Reply.rateLimited]) hpass

/-! ## Runs of one client -/

theorem after_append (st : RpcState) (as : List Arrival) (a : Arrival) :
    st.after (as ++ [a]) = ((st.after as).serve a).2 :=
  Runs.run_append_singleton

theorem after_enabled (st : RpcState) (as : List Arrival) :
    (st.after as).rateLimitEnabled = st.rateLimitEnabled := by
  induction as using List.reverseRecOn with
  | nil => rfl
  | append_singleton as a ih => rw [after_append, (limited _ a).enabled, ih]

theorem admitted_append (as : List Arrival) (a : Arrival) : ∀ st : RpcState,
    st.admitted (as ++ [a]) =
      st.admitted as ++ if ((st.after as).serve a).1.rateLimited then [] else [a] := by
  induction as with
  | nil =>
      intro st
      unfold admitted admitted
      rfl
  | cons b as ih =>
      intro st
      have hafter : st.after (b :: as) = (st.serve b).2.after as := rfl
      rw [List.cons_append, admitted, admitted, ih, hafter]
      split
      · rfl
      · rfl

/-- The rate limits hold the windows of the requests so far. -/
theorem follows_after {st : RpcState} {ip : String} (hon : st.rateLimitEnabled = true) (as : List Arrival) :
    ∀ {last : Instant}, st.FromClient ip as → (∀ a ∈ as, a.now ≤ last) →
      (st.after as).rateLimits.Follows ip last as := by
  induction as using List.reverseRecOn with
  | nil =>
      intro last h _ path later n _
      exact RateLimitBook.follows_new h.unseen path later n (Nat.zero_le later)
  | append_singleton as a ih =>
      intro last h hlast path later n hlater
      have hprev := ih h.front h.le_last
      have hip : a.req.ip = ip := h.one a (by simp)
      have hon' : (st.after as).rateLimitEnabled = true := (after_enabled st as).trans hon
      have hnext := hprev.check (Nat.le_refl a.now)
      rw [after_append, (limited _ a).book, if_pos hon', hip]
      exact hnext path later n (Nat.le_trans (hlast a (by simp)) hlater)

/-- A request is refused with 429 if its limit have passed in its window. -/
theorem rateLimited_iff {st : RpcState} {ip : String} (hon : st.rateLimitEnabled = true) {as : List Arrival}
    {a : Arrival} (h : st.FromClient ip (as ++ [a])) :
    ((st.after as).serve a).1.rateLimited = true ↔
      a.limit ≤ (FixedWindow.passed Arrival.limit (a.earlier as)).length := by
  have hprev := follows_after hon as h.front h.le_last
  have hip : a.req.ip = ip := h.one a (by simp)
  rw [(limited _ a).refused, hip, after_enabled, and_iff_right hon]
  exact hprev.refused_iff (Nat.le_refl a.now)

/-- The requests of one path that are let through are those that pass in its windows. -/
theorem onPath_admitted {st : RpcState} {ip : String} (hon : st.rateLimitEnabled = true) (path : String)
    (as : List Arrival) (h : st.FromClient ip as) :
    Arrival.onPath path (st.admitted as) =
      FixedWindow.admitted Arrival.now Arrival.limit (Instant.secs 60) (Arrival.onPath path as) := by
  induction as using List.reverseRecOn with
  | nil => rfl
  | append_singleton as a ih =>
      have hrefused := rateLimited_iff hon h
      have hprev := ih h.front
      rw [admitted_append, Arrival.onPath_append]
      by_cases hpath : a.req.path = path
      · subst hpath
        rw [if_pos rfl, FixedWindow.admitted_append, ← hprev]
        unfold Arrival.earlier at hrefused
        by_cases hstop : ((st.after as).serve a).1.rateLimited = true
        · rw [if_pos hstop, if_pos (hrefused.1 hstop), List.append_nil, List.append_nil]
        · rw [if_neg hstop, if_neg (fun hfull => hstop (hrefused.2 hfull)), Arrival.onPath_append, if_pos rfl]
      · rw [if_neg hpath, ← hprev]
        split
        · rw [List.append_nil]
        · rw [Arrival.onPath_append, if_neg hpath]

/-- The requests of its class that a request finds admitted are those that passed in its window. -/
theorem length_sameClass {st : RpcState} {ip : String} (hon : st.rateLimitEnabled = true) {as : List Arrival}
    {a : Arrival} (h : st.FromClient ip (as ++ [a])) :
    (st.sameClass as a).length =
      (FixedWindow.passed Arrival.limit (a.earlier as)).countP fun b => b.limit = a.limit := by
  have hip : a.req.ip = ip := h.one a (by simp)
  have hstart : (st.after as).windowStart a =
      FixedWindow.startOf Arrival.now (a.earlier as) a.now := by
    unfold windowStart
    rw [a.rule_perMinute, hip, follows_after hon as h.front h.le_last _ _ _ (Nat.le_refl a.now)]
    rfl
  have hsorted : (Arrival.onPath a.req.path as).Pairwise fun b c => b.now ≤ c.now :=
    h.front.ordered.sublist List.filter_sublist
  have hle : ∀ b ∈ Arrival.onPath a.req.path as, b.now ≤ a.now :=
    fun b hb => h.le_last b (List.mem_of_mem_filter hb)
  have hsince : ((FixedWindow.admitted Arrival.now Arrival.limit (Instant.secs 60) _).filter _) = _ :=
    FixedWindow.admitted_since (show 0 < Instant.secs 60 by decide) hsorted hle
  unfold Arrival.earlier at hstart ⊢
  rw [← hsince, ← hstart, ← onPath_admitted hon _ as h.front, List.countP_eq_length_filter]
  unfold sameClass Arrival.onPath
  rw [List.filter_filter, List.filter_filter]
  congr 1
  refine List.filter_congr fun b _ => ?_
  rw [Bool.eq_iff_iff]
  simp [Arrival.rule_eq_iff]
  tauto

/-- A request whose own class has requests left comes before its limit are allowed in its window, each class
counted up to its own limit. -/
def OwnClassFirst (arrivals : List Arrival) : Prop :=
  ∀ before a after, arrivals = before ++ a :: after →
    ((FixedWindow.allowed Arrival.limit (a.earlier before)).filter fun b => b.rule = a.rule).length < a.rule.limit →
    (FixedWindow.allowed Arrival.limit (a.earlier before)).length < a.rule.limit

omit [Primitives] [Unicode] [JsonBody ClaimRequest] [JsonBody RecoveryLoginRequest] in
theorem ownClassFirst_iff (arrivals : List Arrival) : OwnClassFirst arrivals ↔
    ∀ path, FixedWindow.OwnFirst Arrival.now Arrival.limit (Instant.secs 60) (Arrival.onPath path arrivals) := by
  unfold OwnClassFirst FixedWindow.OwnFirst Arrival.onPath
  rw [FixedWindow.forall_split_filter]
  refine forall₄_congr fun before a after _ => ?_
  have hcount : ((FixedWindow.allowed Arrival.limit (a.earlier before)).filter fun b => b.rule = a.rule).length =
      (FixedWindow.allowed Arrival.limit (a.earlier before)).countP fun b => b.limit = a.limit := by
    rw [List.countP_eq_length_filter]
    simp only [Arrival.rule_eq_iff]
  rw [hcount]
  rfl

/-- For every run of requests of one client, the middleware refuses a request only on account of requests of
its own class exactly when its rate limit is off or each request of a class with requests left comes first. -/
theorem refusesOwnClass_iff (st : RpcState) (ip : String) (arrivals : List Arrival)
    (h : st.FromClient ip arrivals) :
    st.RefusesOwnClass arrivals ↔ (st.rateLimitEnabled = true → OwnClassFirst arrivals) := by
  by_cases hon : st.rateLimitEnabled = true
  · rw [ownClassFirst_iff, forall_congr' fun path => (FixedWindow.refusesOwn_iff _).symm]
    unfold RefusesOwnClass FixedWindow.RefusesOwn Arrival.onPath
    rw [FixedWindow.forall_split_filter, iff_true_intro hon, true_imp_iff]
    refine forall₄_congr fun before a after hsplit => ?_
    have hfront : st.FromClient ip (before ++ [a]) := by
      rw [hsplit, List.append_cons] at h
      exact h.front
    rw [rateLimited_iff hon hfront, length_sameClass hon hfront]
    rfl
  · refine iff_of_true ?_ fun henabled => absurd henabled hon
    intro before a after _ hrefused
    rw [(limited _ a).refused, after_enabled] at hrefused
    exact absurd hrefused.1 hon

end Serve

/-! ## Ten looks at the claim -/

section Looks

attribute [local instance] Checksum.primitives asciiUppercase claimBody noLogin

/-- A browser asks whether the node is claimed: a read, of which a minute allows 600. -/
def look : Arrival :=
  { claim with req := { claim.req with method := "GET" } }

theorem fromClient_looks (n : Nat) :
    unclaimed.FromClient "10.0.0.2" (List.replicate n look ++ [claim]) := by
  refine ⟨?_, fun path => AList.lookup_empty _, ?_⟩
  · intro a ha
    rcases List.mem_append.1 ha with ha | ha
    · rw [List.eq_of_mem_replicate ha]
      rfl
    · rw [List.mem_singleton.1 ha]
      rfl
  · refine List.pairwise_append.2 ⟨List.pairwise_replicate.2 (Or.inr (Nat.le_refl _)), List.pairwise_singleton _ _, ?_⟩
    intro a ha b hb
    rw [List.eq_of_mem_replicate ha, List.mem_singleton.1 hb]
    exact Nat.le_refl _

/-- The first claim of the run is refused. -/
theorem refusesOwnClass_looks :
    ¬ ∀ (st : RpcState) (ip : String) (arrivals : List Arrival), st.FromClient ip arrivals →
      st.RefusesOwnClass arrivals := by
  intro h
  have hrefused : ((unclaimed.after (List.replicate 10 look)).serve claim).1.rateLimited = true := by
    decide +kernel
  have hclass : (unclaimed.sameClass (List.replicate 10 look) claim).length = 0 := by
    decide +kernel
  have hlimit : claim.rule.limit = 10 := by
    decide +kernel
  have hall := h unclaimed "10.0.0.2" _ (fromClient_looks 10) (List.replicate 10 look) claim [] rfl hrefused
  rw [hclass, hlimit] at hall
  exact absurd hall (by decide)

theorem refusesOwnClass_iff_look : unclaimed.RefusesOwnClass [look, claim] := by
  refine (refusesOwnClass_iff unclaimed "10.0.0.2" [look, claim] (fromClient_looks 1)).2 fun _ => ?_
  refine (@FixedWindow.forall_split_append _ _ [look] claim).2 ⟨?_, ?_⟩
  · refine (@FixedWindow.forall_split_append _ _ [] look).2 ⟨?_, ?_⟩
    · intro before a after hsplit
      simp at hsplit
    · decide +kernel
  · decide +kernel

end Looks

end RpcState

end Node
end Thunderducks
