import Thunderducks.Lib.Causal
import Thunderducks.Lib.Runs
import Thunderducks.Event.Checksum
import Thunderducks.Event.Dag

/-!
# DagRuns — what every run of `ingest` leaves in a `RoomDag`

`RoomDag.accepted` lists the events a run took, in the order in which it took them.  `BuiltFrom` ties the
two maps of the DAG to that list; it holds of the new DAG and every call keeps it.  What a reader of the
DAG relies on, `Sound`, follows from it, and so does `sameDag_of_accepted`: the DAG depends on the set of
accepted events and not on their order.
-/

namespace Thunderducks
namespace Event
namespace RoomDag

open Lib

/-! ## Runs -/

section Run

variable [Primitives]

/-- The DAG after a call, whatever it answers. -/
def step (dag : RoomDag) (ev : SignedEvent) : RoomDag :=
  (dag.ingest ev).2

/-- The call answers `Ok(true)`. -/
def Accepts (dag : RoomDag) (ev : SignedEvent) : Prop :=
  (dag.ingest ev).1 = .ok true

instance (dag : RoomDag) (ev : SignedEvent) : Decidable (dag.Accepts ev) :=
  match h : (dag.ingest ev).1 with
  | .ok true => isTrue h
  | .ok false => isFalse fun hacc => by
      unfold Accepts at hacc
      rw [h] at hacc
      cases hacc
  | .error _ => isFalse fun hacc => by
      unfold Accepts at hacc
      rw [h] at hacc
      cases hacc

/-- The events that the calls of a run accepted, in order. -/
def accepted : RoomDag → List SignedEvent → List SignedEvent
  | _, [] => []
  | dag, ev :: evs =>
      if dag.Accepts ev then
        ev :: accepted (dag.step ev) evs
      else
        accepted (dag.step ev) evs

end Run

/-- The DAG of `room` into which the events of `log` went, in that order. -/
structure BuiltFrom [Primitives] (dag : RoomDag) (room : RoomId) (log : List SignedEvent) : Prop where
  wellFormed : dag.WellFormed room
  verified : ∀ e ∈ log, Verified e
  stored : ∀ {i e}, dag.events.lookup i = some e ↔ e ∈ log ∧ e.id = i
  distinct : (log.map SignedEvent.id).Nodup
  ordered : Causal.ParentsFirst SignedEvent.id SignedEvent.parents log

/-- The events of a DAG. -/
def stored (dag : RoomDag) : Set SignedEvent :=
  {e | ∃ i, dag.events.lookup i = some e}

/-- Two DAGs with the same room, events, links and tips. -/
structure SameDag (x y : RoomDag) : Prop where
  roomId : x.roomId = y.roomId
  events : ∀ i, x.get i = y.get i
  children : ∀ p c, c ∈ x.childrenOf p ↔ c ∈ y.childrenOf p
  tips : ∀ i, i ∈ x.tips ↔ i ∈ y.tips

/-- What the users of a DAG of `room` rely on; `log` are its events in the order of their insertion. -/
structure Sound [Primitives] (dag : RoomDag) (room : RoomId) (log : List SignedEvent) : Prop where
  keyed : ∀ {i e}, dag.events.lookup i = some e → Verified e ∧ e.id = i ∧ e.roomId = room
  closed : ∀ {i e}, dag.events.lookup i = some e → ∀ p ∈ e.parents, p ∈ dag.events
  acyclic : Causal.Acyclic SignedEvent.id SignedEvent.parents dag.stored
  inserted : ∀ e, e ∈ log ↔ e ∈ dag.stored
  extension : log.Nodup ∧ Causal.ParentsFirst SignedEvent.id SignedEvent.parents log
  links : ∀ p c, c ∈ dag.childrenOf p ↔ ∃ e, dag.events.lookup c = some e ∧ p ∈ e.parents
  tips_nodup : dag.tips.Nodup
  tips_iff : ∀ i, i ∈ dag.tips ↔ i ∈ dag.events ∧ ∀ e ∈ dag.stored, i ∉ e.parents
  tips_empty : dag.tips = [] ↔ dag.events = ∅

section Calls

variable [Primitives] {dag dag' : RoomDag} {room : RoomId} {log log' : List SignedEvent}

/-! ## One call -/

theorem builtFrom_new (room : RoomId) : (new room).BuiltFrom room [] := by
  refine ⟨wellFormed_new room, by simp, ?_, by simp, Causal.ParentsFirst.nil⟩
  intro i e
  simp [new]

/-- A call that is not accepted changes nothing. -/
theorem step_of_not_accepts (h : dag.roomId = some room) {ev : SignedEvent}
    (hno : ¬ dag.Accepts ev) : dag.step ev = dag := by
  unfold step
  rcases @ingest_cases _ dag ev room h with ⟨e, _, heq⟩ | ⟨_, _, heq⟩ | ⟨_, _, _, heq⟩ |
    ⟨_, _, _, q, _, _, heq⟩ | ⟨_, _, _, _, heq⟩
  · rw [heq]
  · rw [heq]
  · rw [heq]
  · rw [heq]
  · exact absurd (congrArg Prod.fst heq) hno

/-- What an accepted event met, and what the call made of the DAG. -/
theorem accepts_spec (h : dag.roomId = some room) {ev : SignedEvent} (hacc : dag.Accepts ev) :
    Verified ev ∧ ev.roomId = room ∧ ev.id ∉ dag.events ∧ (∀ p ∈ ev.parents, p ∈ dag.events) ∧
      dag.step ev = dag.inserted ev := by
  have hnot : ∀ {res dag'}, dag.ingest ev = (res, dag') → res ≠ .ok true → False := by
    intro res dag' heq hres
    exact hres ((congrArg Prod.fst heq).symm.trans hacc)
  rcases @ingest_cases _ dag ev room h with ⟨e, _, heq⟩ | ⟨_, _, heq⟩ | ⟨_, _, _, heq⟩ |
    ⟨_, _, _, q, _, _, heq⟩ | ⟨hv, hroom, hnew, hp, heq⟩
  · exact (hnot heq (by simp)).elim
  · exact (hnot heq (by simp)).elim
  · exact (hnot heq (by simp)).elim
  · exact (hnot heq (by simp)).elim
  · exact ⟨hv, hroom, hnew, hp, congrArg Prod.snd heq⟩

/-- An accepted event goes to the end of the list. -/
theorem BuiltFrom.accept (h : dag.BuiltFrom room log) {ev : SignedEvent} (hacc : dag.Accepts ev) :
    (dag.step ev).BuiltFrom room (log ++ [ev]) := by
  rcases accepts_spec h.wellFormed.ofRoom hacc with ⟨hv, hroom, hnew, hp, heq⟩
  have hfresh : ∀ e ∈ log, e.id ≠ ev.id := by
    intro e he hid
    exact hnew (HashMap.mem_of_lookup (h.stored.2 ⟨he, hid⟩))
  rw [heq]
  refine ⟨h.wellFormed.inserted hroom hnew hp, ?_, ?_, ?_, ?_⟩
  · intro e he
    rcases List.mem_append.1 he with he | he
    · exact h.verified e he
    · cases List.mem_singleton.1 he
      exact hv
  · intro i e
    rw [events_inserted, HashMap.lookup_insert_eq, List.mem_append, List.mem_singleton]
    by_cases hi : i = ev.id
    · rw [if_pos hi, Option.some.injEq]
      constructor
      · intro hev
        exact ⟨Or.inr hev.symm, by rw [← hev, hi]⟩
      · rintro ⟨he | he, hid⟩
        · exact absurd (hid.trans hi) (hfresh e he)
        · exact he.symm
    · rw [if_neg hi, h.stored]
      constructor
      · rintro ⟨he, hid⟩
        exact ⟨Or.inl he, hid⟩
      · rintro ⟨he | he, hid⟩
        · exact ⟨he, hid⟩
        · exact absurd (by rw [← hid, he]) hi
  · rw [List.map_append, List.nodup_append]
    refine ⟨h.distinct, by simp, ?_⟩
    intro i hi j hj
    rcases List.mem_map.1 hi with ⟨e, he, rfl⟩
    have hj' : j = ev.id := by
      simpa using hj
    rw [hj']
    exact hfresh e he
  -- its parents are in the DAG, so they come before it
  · refine h.ordered.concat ?_
    intro p hpe
    rcases HashMap.mem_iff_lookup.1 (hp p hpe) with ⟨e, hl⟩
    exact ⟨e, h.stored.1 hl⟩

/-! ## Whole runs -/

/-- Every run extends the list it started from by the events it accepts. -/
theorem BuiltFrom.run (evs : List SignedEvent) : ∀ {dag : RoomDag} {log : List SignedEvent},
    dag.BuiltFrom room log → (Runs.run step dag evs).BuiltFrom room (log ++ accepted dag evs) := by
  induction evs with
  | nil =>
      intro dag log h
      simpa [Runs.run, accepted] using h
  | cons ev evs ih =>
      intro dag log h
      by_cases hacc : dag.Accepts ev
      · have hrest := ih (h.accept hacc)
        have hlist : log ++ accepted dag (ev :: evs) = log ++ [ev] ++ accepted (dag.step ev) evs := by
          simp [accepted, hacc]
        rw [hlist]
        exact hrest
      · have hsame : dag.step ev = dag := step_of_not_accepts h.wellFormed.ofRoom hacc
        have hrest := ih h
        have hlist : accepted dag (ev :: evs) = accepted dag evs := by
          simp [accepted, hacc, hsame]
        have hrun : Runs.run step dag (ev :: evs) = Runs.run step dag evs := by
          change Runs.run step (dag.step ev) evs = Runs.run step dag evs
          rw [hsame]
        rw [hlist, hrun]
        exact hrest

theorem builtFrom_run (room : RoomId) (evs : List SignedEvent) :
    (Runs.run step (new room) evs).BuiltFrom room (accepted (new room) evs) :=
  BuiltFrom.run evs (builtFrom_new room)

/-! ## What follows -/

namespace BuiltFrom

theorem mem_iff (h : dag.BuiltFrom room log) {e : SignedEvent} : e ∈ log ↔ e ∈ dag.stored := by
  constructor
  · intro he
    exact ⟨e.id, h.stored.2 ⟨he, rfl⟩⟩
  · rintro ⟨i, hl⟩
    exact (h.stored.1 hl).1

/-- The event accepted last is a tip. -/
theorem tips_ne_nil (h : dag.BuiltFrom room log) (hne : log ≠ []) : dag.tips ≠ [] := by
  rcases List.eq_nil_or_concat log with rfl | ⟨init, last, rfl⟩
  · exact absurd rfl hne
  · have hmem : last ∈ init.concat last := by simp
    have hl : dag.events.lookup last.id = some last := h.stored.2 ⟨hmem, rfl⟩
    have hordered := h.ordered
    have hdistinct := h.distinct
    rw [List.concat_eq_append] at hordered hdistinct
    have htip : last.id ∈ dag.tips := by
      refine h.wellFormed.tips_iff.2 ⟨HashMap.mem_of_lookup hl, ?_⟩
      intro c e hc
      have he : e ∈ init ++ [last] := by
        simpa using (h.stored.1 hc).1
      exact hordered.last_childless hdistinct e he
    exact List.ne_nil_of_mem htip

theorem sound (h : dag.BuiltFrom room log) : dag.Sound room log := by
  have hset : dag.stored = {e | e ∈ log} := Set.ext fun e => h.mem_iff.symm
  refine ⟨?_, h.wellFormed.closed, ?_, fun e => h.mem_iff, ⟨List.Nodup.of_map _ h.distinct, h.ordered⟩,
    h.wellFormed.links, ?_, ?_, ?_⟩
  · intro i e hl
    exact ⟨h.verified e (h.stored.1 hl).1, h.wellFormed.keyed hl, h.wellFormed.inRoom hl⟩
  · rw [hset]
    exact h.ordered.acyclic h.distinct
  · exact dag.events.keys_nodup.filter _
  · intro i
    rw [h.wellFormed.tips_iff]
    refine and_congr_right fun _ => ?_
    constructor
    · rintro hno e ⟨c, hl⟩
      exact hno hl
    · intro hno c e hl
      exact hno e ⟨c, hl⟩
  · constructor
    · intro htips
      -- a log that is not empty has a last event, which is a tip
      have hlog : log = [] := by
        by_contra hne
        exact h.tips_ne_nil hne htips
      refine AList.ext ?_
      refine List.eq_nil_iff_forall_not_mem.2 ?_
      rintro ⟨i, e⟩ hin
      have hl : dag.events.lookup i = some e := AList.mem_lookup_iff.2 hin
      have hin' := (h.stored.1 hl).1
      rw [hlog] at hin'
      cases hin'
    · intro hempty
      refine List.eq_nil_iff_forall_not_mem.2 ?_
      intro i hi
      have hmem := (h.wellFormed.tips_iff.1 hi).1
      rw [hempty] at hmem
      exact AList.notMem_empty i hmem

/-- The DAG is fixed by the set of the events it was built from. -/
theorem same (h : dag.BuiltFrom room log) (h' : dag'.BuiltFrom room log')
    (hset : ∀ e, e ∈ log ↔ e ∈ log') : dag.SameDag dag' := by
  have hevents : ∀ i, dag.events.lookup i = dag'.events.lookup i := by
    intro i
    refine Option.ext fun e => ?_
    rw [h.stored, h'.stored, hset]
  have hmem : ∀ i, i ∈ dag.events ↔ i ∈ dag'.events := by
    intro i
    rw [HashMap.mem_iff_lookup, HashMap.mem_iff_lookup, hevents]
  refine ⟨h.wellFormed.ofRoom.trans h'.wellFormed.ofRoom.symm, hevents, ?_, ?_⟩
  · intro p c
    rw [h.wellFormed.links, h'.wellFormed.links, hevents]
  · intro i
    rw [h.wellFormed.tips_iff, h'.wellFormed.tips_iff, hmem]
    refine and_congr_right fun _ => ?_
    constructor
    · intro hno c e hl
      exact hno ((hevents c).trans hl)
    · intro hno c e hl
      exact hno ((hevents c).symm.trans hl)

end BuiltFrom

/-- A run whose calls are all accepted takes all its events. -/
theorem accepted_of_along (evs : List SignedEvent) : ∀ {dag : RoomDag},
    Runs.Along step Accepts dag evs → accepted dag evs = evs := by
  induction evs with
  | nil =>
      intro dag _
      rfl
  | cons ev evs ih =>
      intro dag h
      rcases h with ⟨hacc, hrest⟩
      rw [accepted, if_pos hacc, ih hrest]

/-- Every run of `ingest` from the new DAG of a room leaves a sound DAG; a call that is not accepted
changes nothing; and two orders in which all events of a set are accepted give the same DAG. -/
theorem ingest_run_sound (room : RoomId) :
    (∀ evs : List SignedEvent,
      (Runs.run step (new room) evs).Sound room (accepted (new room) evs)) ∧
    (∀ (evs : List SignedEvent) (ev : SignedEvent),
      ((Runs.run step (new room) evs).ingest ev).1 ≠ .ok true →
        ((Runs.run step (new room) evs).ingest ev).2 = Runs.run step (new room) evs) ∧
    ∀ evs evs' : List SignedEvent, (∀ e, e ∈ evs ↔ e ∈ evs') →
      Runs.Along step Accepts (new room) evs → Runs.Along step Accepts (new room) evs' →
        (Runs.run step (new room) evs).SameDag (Runs.run step (new room) evs') := by
  refine ⟨fun evs => (builtFrom_run room evs).sound, ?_, ?_⟩
  · intro evs ev hno
    exact step_of_not_accepts (builtFrom_run room evs).wellFormed.ofRoom hno
  · intro evs evs' hset hall hall'
    have h := builtFrom_run room evs
    have h' := builtFrom_run room evs'
    rw [accepted_of_along evs hall] at h
    rw [accepted_of_along evs' hall'] at h'
    exact h.same h' hset

end Calls

/-! ## Two replies to one event -/

section Example

open Checksum

attribute [local instance] Checksum.primitives

def hatch : SignedEvent :=
  event 1 (Checksum.room 1) [] .createRoom [] 1

/-- Device `n` replies to the first event, which it names twice. -/
def chirp (n : Nat) : SignedEvent :=
  event n (Checksum.room 1) [hatch.id, hatch.id] .message [] 2

/-- Both orders of the two replies are accepted, and so give the same DAG. -/
theorem ingest_run_sound_chirps :
    (Runs.run step (new (Checksum.room 1)) [hatch, chirp 1, chirp 2]).SameDag
        (Runs.run step (new (Checksum.room 1)) [hatch, chirp 2, chirp 1]) ∧
      (Runs.run step (new (Checksum.room 1)) [hatch, chirp 1, chirp 2]).events.keys.length = 3 := by
  have hall : (new (Checksum.room 1)).Accepts hatch ∧ ((new (Checksum.room 1)).step hatch).Accepts (chirp 1) ∧
      ((new (Checksum.room 1)).step hatch).Accepts (chirp 2) ∧
      (((new (Checksum.room 1)).step hatch).step (chirp 1)).Accepts (chirp 2) ∧
      (((new (Checksum.room 1)).step hatch).step (chirp 2)).Accepts (chirp 1) ∧
      (Runs.run step (new (Checksum.room 1)) [hatch, chirp 1, chirp 2]).events.keys.length = 3 := by
    decide +kernel
  rcases hall with ⟨hhatch, hone, htwo, honetwo, htwoone, hlength⟩
  refine ⟨(ingest_run_sound (Checksum.room 1)).2.2 _ _ ?_ ?_ ?_, hlength⟩
  · intro e
    simp only [List.mem_cons, List.not_mem_nil, or_false]
    exact or_congr_right or_comm
  · exact ⟨hhatch, hone, honetwo, trivial⟩
  · exact ⟨hhatch, htwo, htwoone, trivial⟩

end Example

end RoomDag
end Event
end Thunderducks
