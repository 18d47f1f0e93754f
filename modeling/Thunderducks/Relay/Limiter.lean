import Thunderducks.Lib.FixedWindow
import Thunderducks.Relay.Serve

/-!
# Limiter — how many envelopes a sender gets through (`RateLimiter` in `relays/td-relay/src/main.rs`)

All senders share one window, and each has its own count in it.  A window need not begin with a put of the sender:
`sender_bound` says that a second never holds more than twice the limit of one sender, and `refused_after` that a
sender is refused only after as many of its own envelopes came through within the last second, whatever the others
send.
-/

namespace Thunderducks
namespace Relay

open Lib Event Net

/-! ## One call of the limiter -/

namespace RateLimiter

/-- The window has run out, and the next begins. -/
def turned (limiter : RateLimiter) (now : Instant) : RateLimiter :=
  if Instant.since now limiter.windowStart ≥ rateWindow then
    { limiter with windowStart := now, counts := ∅ }
  else
    limiter

/-- The times at which `sender` was let through are counted as the limiter counts them. -/
def Counts (limiter : RateLimiter) (sender : DeviceId) (times : List Nat) : Prop :=
  ∃ cur, FixedWindow.Counted rateWindow limiter.maxPerWindow limiter.windowStart times cur ∧
    (limiter.counts.lookup sender.bytes).getD 0 = cur.length

variable {limiter : RateLimiter} {sender : DeviceId} {times : List Nat} {now : Instant}

theorem counts_new (start : Instant) (max : Nat) (sender : DeviceId) : (new start max).Counts sender [] :=
  ⟨[], FixedWindow.Counted.nil _ _ _, rfl⟩

@[simp] theorem turned_maxPerWindow (limiter : RateLimiter) (now : Instant) :
    (limiter.turned now).maxPerWindow = limiter.maxPerWindow := by
  unfold turned
  split
  · rfl
  · rfl

/-- At the time of a call the open window has begun and has not run out. -/
theorem turned_open (hle : limiter.windowStart ≤ now) :
    (limiter.turned now).windowStart ≤ now ∧ now < (limiter.turned now).windowStart + rateWindow := by
  have hpos : 0 < rateWindow := by decide
  unfold turned Instant.since
  split
  · exact ⟨Nat.le_refl now, Nat.lt_add_of_pos_right hpos⟩
  next hopen =>
    refine ⟨hle, ?_⟩
    have hlt := Nat.lt_of_not_le hopen
    exact (Nat.sub_lt_iff_lt_add' hle).1 hlt

theorem Counts.turned (h : limiter.Counts sender times) (now : Instant) :
    (limiter.turned now).Counts sender times := by
  rcases h with ⟨cur, hcur, hcount⟩
  unfold RateLimiter.turned
  split
  next hover =>
    refine ⟨[], hcur.turn ?_, rfl⟩
    have hpos : 0 < rateWindow := by decide
    have hle : rateWindow ≤ now - limiter.windowStart := hover
    have hbegun : limiter.windowStart ≤ now :=
      Nat.le_of_lt (Nat.lt_of_sub_pos (Nat.lt_of_lt_of_le hpos hle))
    exact (Nat.le_sub_iff_add_le' hbegun).1 hle
  next => exact ⟨cur, hcur, hcount⟩

theorem allow_eq (limiter : RateLimiter) (now : Instant) (sender : DeviceId) :
    limiter.allow now sender =
      if (limiter.turned now).maxPerWindow ≤ ((limiter.turned now).counts.lookup sender.bytes).getD 0 then
        (false, { limiter.turned now with
          counts := (limiter.turned now).counts.insert sender.bytes
            (((limiter.turned now).counts.lookup sender.bytes).getD 0) })
      else
        (true, { limiter.turned now with
          counts := (limiter.turned now).counts.insert sender.bytes
            (((limiter.turned now).counts.lookup sender.bytes).getD 0 + 1) }) :=
  rfl

@[simp] theorem allow_windowStart (limiter : RateLimiter) (now : Instant) (sender : DeviceId) :
    (limiter.allow now sender).2.windowStart = (limiter.turned now).windowStart := by
  rw [allow_eq]
  split
  · rfl
  · rfl

@[simp] theorem allow_maxPerWindow (limiter : RateLimiter) (now : Instant) (sender : DeviceId) :
    (limiter.allow now sender).2.maxPerWindow = limiter.maxPerWindow := by
  rw [allow_eq]
  split
  · exact turned_maxPerWindow limiter now
  · exact turned_maxPerWindow limiter now

/-- A call for any device keeps the count of each sender right. -/
theorem Counts.allow (h : limiter.Counts sender times) (hle : limiter.windowStart ≤ now) (device : DeviceId) :
    (limiter.allow now device).2.Counts sender
      (times ++ if device = sender ∧ (limiter.allow now device).1 = true then [now] else []) := by
  rcases h.turned now with ⟨cur, hcur, hcount⟩
  rcases turned_open hle with ⟨hstart, hend⟩
  rw [allow_eq]
  split
  next hfull =>
    -- refused: the count is written back
    rw [if_neg fun h => Bool.false_ne_true h.2, List.append_nil]
    refine ⟨cur, hcur, ?_⟩
    dsimp only
    rw [HashMap.lookup_insert_eq]
    split
    next heq =>
      rw [Option.getD_some, ← heq]
      exact hcount
    next => exact hcount
  next hroom =>
    by_cases hdevice : device = sender
    · subst hdevice
      rw [hcount] at hroom
      rw [if_pos ⟨rfl, rfl⟩]
      refine ⟨cur ++ [now], hcur.pass (Nat.lt_of_not_le hroom) hstart hend, ?_⟩
      dsimp only
      rw [HashMap.lookup_insert_eq, if_pos rfl, Option.getD_some, hcount, List.length_append,
        List.length_singleton]
    · rw [if_neg fun h => hdevice h.1, List.append_nil]
      refine ⟨cur, hcur, ?_⟩
      have hne : sender.bytes ≠ device.bytes := fun heq => hdevice (congrArg DeviceId.mk heq.symm)
      dsimp only
      rw [HashMap.lookup_insert_eq, if_neg hne]
      exact hcount

/-- A sender is refused only after `maxPerWindow` of its own puts in less than a window. -/
theorem Counts.refused (h : limiter.Counts sender times) (hle : limiter.windowStart ≤ now)
    (hno : (limiter.allow now sender).1 = false) :
    limiter.maxPerWindow ≤ (times.filter fun t => now < t + rateWindow).length := by
  rcases h.turned now with ⟨cur, hcur, hcount⟩
  have hfull : (limiter.turned now).maxPerWindow ≤ cur.length := by
    rw [← hcount]
    by_contra hroom
    rw [allow_eq, if_neg hroom] at hno
    cases hno
  have hrecent := hcur.le_recent hfull (turned_open hle).2
  rwa [turned_maxPerWindow] at hrecent

end RateLimiter

/-- The store has errors of its own. -/
theorem EnvelopeStore.put_ne_rateLimited [Primitives] (store : EnvelopeStore) (envelope : RelayEnvelope) :
    (store.put envelope).1 ≠ .error .rateLimited := by
  unfold EnvelopeStore.put
  split
  · intro h
    cases h
  · dsimp only
    split
    · intro h
      cases h
    · split
      · intro h
        cases h
      · intro h
        cases h

theorem handle_rateLimited_iff [Primitives] (st : RelayState) (now : Instant)
    (o : IterOrder (Bytes32 × EnvelopeRow)) (envelope : RelayEnvelope) :
    (st.handle now o (.put envelope)).1 = .error .rateLimited ↔
      (st.limiter.allow now envelope.senderDevice).1 = false := by
  dsimp only [RelayState.handle]
  split
  next hallow => exact iff_of_true rfl (congrArg Prod.fst hallow)
  next hallow =>
    have hpass : ¬ (st.limiter.allow now envelope.senderDevice).1 = false := by
      rw [hallow]
      exact Bool.noConfusion
    refine iff_of_false ?_ hpass
    split
    next hstore =>
      intro h
      cases h
      exact EnvelopeStore.put_ne_rateLimited _ _ (congrArg Prod.fst hstore)
    next =>
      intro h
      cases h

/-! ## Runs of the relay -/

section Runs

variable [Primitives]

namespace RelayCall

/-- The call puts an envelope of `sender` that the limiter lets through. -/
def passes (sender : DeviceId) (st : RelayState) (call : RelayCall) : Bool :=
  match call.request with
  | .put envelope => decide (envelope.senderDevice = sender) && (st.limiter.allow call.now sender).1
  | .fetch _ _ _ => false
  | .ack _ _ => false

/-- When envelopes of `sender` are let through. -/
def passedTimes (sender : DeviceId) : RelayState → List RelayCall → List Nat
  | _, [] => []
  | st, call :: calls =>
      (if passes sender st call = true then [call.now] else []) ++ passedTimes sender (call.step st) calls

/-- The clock does not go back, and the limiter was made before the first call. -/
def InOrder (start : Instant) (calls : List RelayCall) : Prop :=
  (start :: calls.map RelayCall.now).Pairwise (· ≤ ·)

theorem step_limiter (st : RelayState) (call : RelayCall) :
    (call.step st).limiter =
      match call.request with
      | .put envelope => (st.limiter.allow call.now envelope.senderDevice).2
      | .fetch _ _ _ => st.limiter
      | .ack _ _ => st.limiter := by
  rcases call with ⟨now, order, request⟩
  unfold step
  cases request with
  | fetch recipient sinceTs limit => rfl
  | ack recipient ids => rfl
  | put envelope =>
      dsimp only [RelayState.handle]
      split
      next hallow => exact (congrArg Prod.snd hallow).symm
      next hallow =>
        split
        · exact (congrArg Prod.snd hallow).symm
        · exact (congrArg Prod.snd hallow).symm

/-- Whatever the relay is asked, it goes on counting right. -/
theorem step_counts {st : RelayState} {sender : DeviceId} {times : List Nat} (h : st.limiter.Counts sender times)
    {call : RelayCall} (hle : st.limiter.windowStart ≤ call.now) :
    (call.step st).limiter.Counts sender (times ++ if passes sender st call = true then [call.now] else []) ∧
      (call.step st).limiter.windowStart ≤ call.now ∧
      (call.step st).limiter.maxPerWindow = st.limiter.maxPerWindow := by
  rw [step_limiter]
  unfold passes
  cases call.request with
  | put envelope =>
      dsimp only
      refine ⟨?_, ?_, RateLimiter.allow_maxPerWindow _ _ _⟩
      · have hcounts := h.allow hle envelope.senderDevice
        by_cases hsender : envelope.senderDevice = sender
        · subst hsender
          simpa using hcounts
        · simpa [hsender] using hcounts
      · rw [RateLimiter.allow_windowStart]
        exact (RateLimiter.turned_open hle).1
  | fetch recipient sinceTs limit =>
      rw [if_neg Bool.false_ne_true, List.append_nil]
      exact ⟨h, hle, rfl⟩
  | ack recipient ids =>
      rw [if_neg Bool.false_ne_true, List.append_nil]
      exact ⟨h, hle, rfl⟩

/-- Along a run, by induction on the calls: the times counted are those before and those of the run. -/
theorem run_counts (calls : List RelayCall) : ∀ (st : RelayState) {sender : DeviceId} {times : List Nat},
    st.limiter.Counts sender times → InOrder st.limiter.windowStart calls →
    (Runs.run step st calls).limiter.Counts sender (times ++ passedTimes sender st calls) ∧
      (∀ now, st.limiter.windowStart ≤ now → (∀ call ∈ calls, call.now ≤ now) →
        (Runs.run step st calls).limiter.windowStart ≤ now) ∧
      (Runs.run step st calls).limiter.maxPerWindow = st.limiter.maxPerWindow := by
  induction calls with
  | nil =>
      intro st sender times h _
      rw [passedTimes, List.append_nil]
      exact ⟨h, fun now hle _ => hle, rfl⟩
  | cons call calls ih =>
      intro st sender times h horder
      rcases List.pairwise_cons.1 horder with ⟨hstart, hlater⟩
      rcases step_counts h (hstart call.now (by simp)) with ⟨hnext, hwindow, hmax⟩
      have hrest : InOrder (call.step st).limiter.windowStart calls := by
        rcases List.pairwise_cons.1 hlater with ⟨hafter, hcalls⟩
        exact List.pairwise_cons.2 ⟨fun now hnow => Nat.le_trans hwindow (hafter now hnow), hcalls⟩
      rcases ih _ hnext hrest with ⟨hcounts, hopened, hsame⟩
      rw [passedTimes, ← List.append_assoc]
      refine ⟨hcounts, ?_, hsame.trans hmax⟩
      intro now _ hnow
      exact hopened now (Nat.le_trans hwindow (hnow call (by simp))) fun c hc => hnow c (by simp [hc])

theorem passedTimes_sublist (sender : DeviceId) (calls : List RelayCall) : ∀ st : RelayState,
    (passedTimes sender st calls).Sublist (calls.map RelayCall.now) := by
  induction calls with
  | nil =>
      intro st
      exact List.Sublist.refl _
  | cons call calls ih =>
      intro st
      rw [passedTimes, List.map_cons]
      split
      · exact (ih _).cons_cons call.now
      · exact (ih _).cons call.now

/-- In every run of the relay, from whatever is stored, no half-open second holds more than twice the limit of
envelopes that one sender gets through. -/
theorem sender_bound (store : EnvelopeStore) (start : Instant) (max : Nat) (calls : List RelayCall)
    (horder : InOrder start calls) (sender : DeviceId) (begin : Instant) :
    (FixedWindow.interval begin rateWindow
      (passedTimes sender { store := store, limiter := RateLimiter.new start max } calls)).length ≤ 2 * max := by
  rcases (run_counts calls { store := store, limiter := RateLimiter.new start max }
    (RateLimiter.counts_new start max sender) horder).1 with ⟨cur, hcounted, _⟩
  have hsorted : (passedTimes sender { store := store, limiter := RateLimiter.new start max } calls).Pairwise
      (· ≤ ·) := List.Pairwise.sublist (passedTimes_sublist sender calls _) horder.of_cons
  have hspaced := hcounted.spaced
  rw [(run_counts calls { store := store, limiter := RateLimiter.new start max }
    (RateLimiter.counts_new start max sender) horder).2.2] at hspaced
  exact (FixedWindow.length_interval_le_iff hsorted).2 hspaced begin

/-- The relay says that a sender is over the limit only if as many of its own envelopes as the limit came through
less than a second ago. -/
theorem refused_after (store : EnvelopeStore) (start : Instant) (max : Nat) (calls : List RelayCall)
    (call : RelayCall) (horder : InOrder start (calls ++ [call])) (envelope : RelayEnvelope)
    (hput : call.request = .put envelope)
    (hrefused : ((Runs.run step { store := store, limiter := RateLimiter.new start max } calls).handle call.now
      call.order call.request).1 = .error .rateLimited) :
    max ≤ ((passedTimes envelope.senderDevice { store := store, limiter := RateLimiter.new start max } calls).filter
      fun t => call.now < t + rateWindow).length := by
  unfold InOrder at horder
  rw [List.map_append, ← List.cons_append, List.pairwise_append] at horder
  rcases horder with ⟨hbefore, _, hlast⟩
  have hafter : ∀ now ∈ start :: calls.map RelayCall.now, now ≤ call.now := fun now hnow =>
    hlast now hnow call.now (by simp)
  rcases run_counts calls { store := store, limiter := RateLimiter.new start max }
    (RateLimiter.counts_new start max envelope.senderDevice) hbefore with ⟨hcounts, hopened, hmax⟩
  have hwindow := hopened call.now (hafter start (by simp)) fun c hc =>
    hafter c.now (List.mem_cons_of_mem _ (List.mem_map_of_mem hc))
  generalize Runs.run step { store := store, limiter := RateLimiter.new start max } calls = st at *
  rw [hput] at hrefused
  have hno := (handle_rateLimited_iff st call.now call.order envelope).1 hrefused
  have hlimit := hcounts.refused hwindow hno
  rw [hmax] at hlimit
  exact hlimit

end RelayCall

end Runs

/-! ## Two a second -/

section Example

attribute [local instance] tailPrimitives

def slow : RelayState :=
  { store := EnvelopeStore.empty, limiter := RateLimiter.new postDay 2 }

/-- One letter every two fifths of a second. -/
def letters : List RelayCall :=
  [⟨400000000, IterOrder.stored, .put (mail [1] 0)⟩, ⟨800000000, IterOrder.stored, .put (mail [2] 1)⟩,
    ⟨1200000000, IterOrder.stored, .put (mail [3] 2)⟩]

/-- All three are let through, since the window ends between the last two. -/
example : RelayCall.passedTimes drake slow letters = [400000000, 800000000, 1200000000] := by
  decide +kernel

theorem sender_bound_letters :
    (FixedWindow.interval 400000000 rateWindow (RelayCall.passedTimes drake slow letters)).length ≤ 4 := by
  refine RelayCall.sender_bound EnvelopeStore.empty postDay 2 letters ?_ drake 400000000
  unfold RelayCall.InOrder
  decide

def hurried (tsMs : UInt64) : RelayCall :=
  ⟨500000000, IterOrder.stored, .put (mail [1] tsMs)⟩

theorem refused_after_third :
    2 ≤ ((RelayCall.passedTimes drake slow [hurried 0, hurried 1]).filter
      fun t => 500000000 < t + rateWindow).length := by
  refine RelayCall.refused_after EnvelopeStore.empty postDay 2 [hurried 0, hurried 1] (hurried 2) ?_
    (mail [1] 2) rfl ?_
  · unfold RelayCall.InOrder
    decide
  · refine (handle_rateLimited_iff _ _ _ (mail [1] 2)).2 ?_
    decide +kernel

end Example

end Relay
end Thunderducks
