import Thunderducks.Lib.HashMap
import Thunderducks.Event.Event

/-!
# Dag — the in-memory per-room causal DAG (`td-event/src/dag.rs`)

`RoomDag.ingest` and `RoomDag.tips` are the source's; `RoomDag.WellFormed` is what every DAG built
by `ingest` satisfies, and `tips_iff` reads the tips off it.
-/

namespace Thunderducks
namespace Event

open Lib

inductive DagError
  | event (e : EventError)
  | roomMismatch
  | missingParent (p : EventId)
  deriving DecidableEq

/-- In-memory per-room causal DAG. -/
structure RoomDag where
  roomId : Option RoomId
  events : HashMap EventId SignedEvent
  children : HashMap EventId (List EventId)
  deriving DecidableEq

namespace RoomDag

def new (roomId : RoomId) : RoomDag :=
  { roomId := some roomId
    events := ∅
    children := ∅ }

def get (dag : RoomDag) (id : EventId) : Option SignedEvent :=
  dag.events.lookup id

/-- The children recorded for an event. -/
def childrenOf (dag : RoomDag) (id : EventId) : List EventId :=
  (dag.children.lookup id).getD []

/-- tips = events with no children -/
def tips (dag : RoomDag) : List EventId :=
  dag.events.keys.filter fun id => ((dag.children.lookup id).map List.isEmpty).getD true

/-- `self.children.entry(p).or_default().push(child)`. -/
def pushChild (child : EventId) (children : HashMap EventId (List EventId)) (p : EventId) :
    HashMap EventId (List EventId) :=
  children.insert p ((children.lookup p).getD [] ++ [child])

/-- The DAG with `ev` and its parent links recorded. -/
def inserted (dag : RoomDag) (ev : SignedEvent) : RoomDag :=
  { dag with
    children := ev.parents.foldl (pushChild ev.id) dag.children
    events := dag.events.insert ev.id ev }

/-- The first of `parents` that the DAG lacks. -/
def firstMissing (dag : RoomDag) (parents : List EventId) : Option EventId :=
  parents.find? fun p => p ∉ dag.events

variable [Primitives]

/-- Ingest a verified event.  Returns `ok true` if newly inserted, `ok false` if duplicate. -/
def ingest (dag : RoomDag) (ev : SignedEvent) : Except DagError Bool × RoomDag :=
  match verifyEvent ev with
  | .error e => (.error (.event e), dag)
  | .ok () =>
      if dag.roomId.any (fun rid => ev.roomId ≠ rid) then
        (.error .roomMismatch, dag)
      else
        let dag := { dag with roomId := some ev.roomId }
        if ev.id ∈ dag.events then
          (.ok false, dag)
        else
          match dag.firstMissing ev.parents with
          | some p => (.error (.missingParent p), dag)
          | none => (.ok true, dag.inserted ev)

/-! ## What one call does -/

omit [Primitives] in
theorem firstMissing_eq_none {dag : RoomDag} {parents : List EventId} :
    dag.firstMissing parents = none ↔ ∀ p ∈ parents, p ∈ dag.events := by
  simp [firstMissing]

omit [Primitives] in
theorem firstMissing_eq_some {dag : RoomDag} {parents : List EventId} {p : EventId}
    (h : dag.firstMissing parents = some p) : p ∈ parents ∧ p ∉ dag.events := by
  refine ⟨List.mem_of_find?_eq_some h, ?_⟩
  simpa using List.find?_some h

section Calls

variable {dag : RoomDag} {ev : SignedEvent}

theorem ingest_unverified {e : EventError} (h : verifyEvent ev = .error e) :
    dag.ingest ev = (.error (.event e), dag) := by
  simp [ingest, h]

theorem ingest_mismatch {room : RoomId} (hv : Verified ev) (hr : dag.roomId = some room)
    (hne : ev.roomId ≠ room) : dag.ingest ev = (.error .roomMismatch, dag) := by
  have hv' : verifyEvent ev = .ok () := hv
  simp [ingest, hv', hr, hne]

theorem ingest_duplicate (hv : Verified ev) (hr : dag.roomId = some ev.roomId)
    (hmem : ev.id ∈ dag.events) : dag.ingest ev = (.ok false, dag) := by
  have hv' : verifyEvent ev = .ok () := hv
  cases dag
  simp_all [ingest]

theorem ingest_new (hv : Verified ev) (hr : dag.roomId = some ev.roomId)
    (hmem : ev.id ∉ dag.events) (hp : ∀ p ∈ ev.parents, p ∈ dag.events) :
    dag.ingest ev = (.ok true, dag.inserted ev) := by
  have hv' : verifyEvent ev = .ok () := hv
  have hfind : dag.firstMissing ev.parents = none := firstMissing_eq_none.2 hp
  cases dag
  simp_all [ingest]

theorem ingest_missing {p : EventId} (hv : Verified ev) (hr : dag.roomId = some ev.roomId)
    (hmem : ev.id ∉ dag.events) (hp : p ∈ ev.parents) (hno : p ∉ dag.events) :
    ∃ q ∈ ev.parents, q ∉ dag.events ∧ dag.ingest ev = (.error (.missingParent q), dag) := by
  have hv' : verifyEvent ev = .ok () := hv
  cases hfind : dag.firstMissing ev.parents with
  | none => exact absurd (firstMissing_eq_none.1 hfind p hp) hno
  | some q =>
      rcases firstMissing_eq_some hfind with ⟨hq, hqno⟩
      refine ⟨q, hq, hqno, ?_⟩
      cases dag
      simp_all [ingest]

/-- Every way a call on a DAG with a room can end, with its guard. -/
theorem ingest_cases {room : RoomId} (hr : dag.roomId = some room) :
    (∃ e, verifyEvent ev = .error e ∧ dag.ingest ev = (.error (.event e), dag)) ∨
    (Verified ev ∧ ev.roomId ≠ room ∧ dag.ingest ev = (.error .roomMismatch, dag)) ∨
    (Verified ev ∧ ev.roomId = room ∧ ev.id ∈ dag.events ∧ dag.ingest ev = (.ok false, dag)) ∨
    (Verified ev ∧ ev.roomId = room ∧ ev.id ∉ dag.events ∧ (∃ q ∈ ev.parents, q ∉ dag.events ∧
      dag.ingest ev = (.error (.missingParent q), dag))) ∨
    (Verified ev ∧ ev.roomId = room ∧ ev.id ∉ dag.events ∧ (∀ p ∈ ev.parents, p ∈ dag.events) ∧
      dag.ingest ev = (.ok true, dag.inserted ev)) := by
  cases hv : verifyEvent ev with
  | error e => exact Or.inl ⟨e, rfl, ingest_unverified hv⟩
  | ok u =>
      have hv' : Verified ev := hv
      refine Or.inr ?_
      by_cases hroom : ev.roomId = room
      · subst hroom
        by_cases hmem : ev.id ∈ dag.events
        · exact Or.inr (Or.inl ⟨hv', rfl, hmem, ingest_duplicate hv' hr hmem⟩)
        · by_cases hp : ∀ p ∈ ev.parents, p ∈ dag.events
          · exact Or.inr (Or.inr (Or.inr ⟨hv', rfl, hmem, hp, ingest_new hv' hr hmem hp⟩))
          · push Not at hp
            rcases hp with ⟨p, hp, hno⟩
            exact Or.inr (Or.inr (Or.inl ⟨hv', rfl, hmem, ingest_missing hv' hr hmem hp hno⟩))
      · exact Or.inl ⟨hv', hroom, ingest_mismatch hv' hr hroom⟩

/-- The event is of the DAG's room, new to it, and its parents are there. -/
def Admits (dag : RoomDag) (ev : SignedEvent) : Prop :=
  (∀ rid, dag.roomId = some rid → rid = ev.roomId) ∧ ev.id ∉ dag.events ∧
    ∀ p ∈ ev.parents, p ∈ dag.events

/-- A verified event enters exactly the DAGs that admit it; any other DAG keeps its events. -/
theorem ingest_admits (hv : Verified ev) :
    (dag.Admits ev ∧ ∃ dag', dag.ingest ev = (.ok true, dag') ∧
      dag'.events = dag.events.insert ev.id ev) ∨
    (¬ dag.Admits ev ∧ (dag.ingest ev).1 ≠ .ok true ∧ (dag.ingest ev).2.events = dag.events) := by
  have hv' : verifyEvent ev = .ok () := hv
  -- without the signature check
  have hdag : dag.ingest ev = if dag.roomId.any (fun rid => ev.roomId ≠ rid) then
      (.error .roomMismatch, dag)
    else if ev.id ∈ dag.events then
      (.ok false, { dag with roomId := some ev.roomId })
    else
      match dag.firstMissing ev.parents with
      | some p => (.error (.missingParent p), { dag with roomId := some ev.roomId })
      | none => (.ok true, { dag with roomId := some ev.roomId }.inserted ev) := by
    unfold ingest
    rw [hv']
    rfl
  by_cases hroom : dag.roomId.any (fun rid => ev.roomId ≠ rid) = true
  · rw [if_pos hroom] at hdag
    refine Or.inr ⟨?_, by simp [hdag], by simp [hdag]⟩
    rintro ⟨hr, _⟩
    cases hd : dag.roomId with
    | none => simp [hd] at hroom
    | some rid => simp [hd, hr rid hd] at hroom
  · rw [if_neg hroom] at hdag
    by_cases hmem : ev.id ∈ dag.events
    · rw [if_pos hmem] at hdag
      exact Or.inr ⟨fun ha => ha.2.1 hmem, by simp [hdag], by simp [hdag]⟩
    · rw [if_neg hmem] at hdag
      cases hfind : dag.firstMissing ev.parents with
      | some q =>
          rcases firstMissing_eq_some hfind with ⟨hq, hqno⟩
          rw [hfind] at hdag
          exact Or.inr ⟨fun ha => hqno (ha.2.2 q hq), by simp [hdag], by simp [hdag]⟩
      | none =>
          have hr : ∀ rid, dag.roomId = some rid → rid = ev.roomId := by
            intro rid hrid
            simp only [hrid, Option.any_some, decide_eq_true_eq, not_not] at hroom
            exact hroom.symm
          rw [hfind] at hdag
          exact Or.inl ⟨⟨hr, hmem, firstMissing_eq_none.1 hfind⟩, _, hdag, rfl⟩

theorem ingest_roomId (ev : SignedEvent) (h : dag.roomId = some ev.roomId) :
    (dag.ingest ev).2.roomId = some ev.roomId := by
  rcases @ingest_cases _ dag ev ev.roomId h with ⟨e, _, hing⟩ | ⟨_, hne, _⟩ | ⟨_, _, _, hing⟩ |
    ⟨_, _, _, q, _, _, hing⟩ | ⟨_, _, _, _, hing⟩
  · rw [hing]
    exact h
  · exact absurd rfl hne
  · rw [hing]
    exact h
  · rw [hing]
    exact h
  · rw [hing]
    exact h

end Calls

/-! ## Well-formed DAGs -/

omit [Primitives]

/-- Parent links: recording `child` under each of `ps` adds exactly those links. -/
theorem mem_foldl_pushChild {child c q : EventId} (ps : List EventId)
    (children : HashMap EventId (List EventId)) :
    c ∈ ((ps.foldl (pushChild child) children).lookup q).getD [] ↔
      c ∈ (children.lookup q).getD [] ∨ (c = child ∧ q ∈ ps) := by
  induction ps generalizing children with
  | nil => simp
  | cons p ps ih =>
      rw [List.foldl_cons, ih]
      by_cases hq : q = p
      · subst hq
        simp only [pushChild, HashMap.lookup_insert_eq, if_true, Option.getD_some,
          List.mem_append, List.mem_cons, true_or, and_true]
        tauto
      · simp [pushChild, hq]

/-- What holds of every DAG of `room` that `ingest` built from `RoomDag.new room`. -/
structure WellFormed (dag : RoomDag) (room : RoomId) : Prop where
  ofRoom : dag.roomId = some room
  keyed : ∀ {i e}, dag.events.lookup i = some e → e.id = i
  inRoom : ∀ {i e}, dag.events.lookup i = some e → e.roomId = room
  closed : ∀ {i e}, dag.events.lookup i = some e → ∀ p ∈ e.parents, p ∈ dag.events
  links : ∀ p c, c ∈ dag.childrenOf p ↔ ∃ e, dag.events.lookup c = some e ∧ p ∈ e.parents

theorem wellFormed_new (room : RoomId) : (new room).WellFormed room := by
  constructor <;> simp [new, childrenOf]

@[simp] theorem roomId_inserted (dag : RoomDag) (ev : SignedEvent) :
    (dag.inserted ev).roomId = dag.roomId := rfl

@[simp] theorem events_inserted (dag : RoomDag) (ev : SignedEvent) :
    (dag.inserted ev).events = dag.events.insert ev.id ev := rfl

namespace WellFormed

variable {dag : RoomDag} {room : RoomId} {ev : SignedEvent}

theorem inserted (h : dag.WellFormed room) (hroom : ev.roomId = room) (hnew : ev.id ∉ dag.events)
    (hp : ∀ p ∈ ev.parents, p ∈ dag.events) : (dag.inserted ev).WellFormed room := by
  refine ⟨h.ofRoom, ?_, ?_, ?_, ?_⟩
  · intro i e hl
    rw [events_inserted, HashMap.lookup_insert_eq] at hl
    split at hl
    · cases hl
      exact Eq.symm ‹_›
    · exact h.keyed hl
  · intro i e hl
    rw [events_inserted, HashMap.lookup_insert_eq] at hl
    split at hl
    · cases hl
      exact hroom
    · exact h.inRoom hl
  · intro i e hl p hpe
    rw [events_inserted, AList.mem_insert]
    rw [events_inserted, HashMap.lookup_insert_eq] at hl
    split at hl
    · cases hl
      exact Or.inr (hp p hpe)
    · exact Or.inr (h.closed hl p hpe)
  · intro p c
    have hlink : c ∈ (dag.inserted ev).childrenOf p ↔
        c ∈ dag.childrenOf p ∨ (c = ev.id ∧ p ∈ ev.parents) :=
      mem_foldl_pushChild ev.parents dag.children
    rw [hlink, h.links, events_inserted, HashMap.lookup_insert_eq]
    -- the links are the old ones and those of the new event
    by_cases hc : c = ev.id
    · subst hc
      have hnone : dag.events.lookup ev.id = none := AList.lookup_eq_none.2 hnew
      simp [hnone]
    · simp [hc]

/-- The tips are the stored events that no stored event names as a parent. -/
theorem tips_iff (h : dag.WellFormed room) {i : EventId} :
    i ∈ dag.tips ↔ i ∈ dag.events ∧ ∀ {c e}, dag.events.lookup c = some e → i ∉ e.parents := by
  have hchild : ((dag.children.lookup i).map List.isEmpty).getD true = true ↔
      ∀ c, c ∉ dag.childrenOf i := by
    unfold childrenOf
    cases hl : dag.children.lookup i with
    | none => simp
    | some cs =>
        simp only [Option.map_some, Option.getD_some, List.isEmpty_iff]
        exact List.eq_nil_iff_forall_not_mem
  rw [tips, List.mem_filter, ← AList.mem_keys, hchild]
  constructor
  · rintro ⟨hmem, hno⟩
    refine ⟨hmem, ?_⟩
    intro c e hl hp
    exact hno c ((h.links i c).2 ⟨e, hl, hp⟩)
  · rintro ⟨hmem, hno⟩
    refine ⟨hmem, ?_⟩
    intro c hc
    rcases (h.links i c).1 hc with ⟨e, hl, hp⟩
    exact hno hl hp

end WellFormed

end RoomDag

end Event
end Thunderducks
