import Thunderducks.Event.Applied
import Thunderducks.Node.Sync

/-!
# Rebuild — the registry that a listing of the log rebuilds

After a restart the events of a room are applied to an empty registry in the order of `list_events`:
by parent count, then by time.  `RoomHistory` is the order in which the registry took them before.
`Rebuildable` compares the two: wherever the order of two events can matter to membership, the listing
must have them in the order of the history.  `applyAll_rebuilds` says that the room then comes out with the
same creator, name and members.
-/

namespace Thunderducks
namespace Node

open Lib Event Extension RoomRegistry

/-! ## The order of a listing -/

/-- Every listing has `a` before `b`. -/
def ListedBefore (a b : SignedEvent) : Prop :=
  a.parents.length < b.parents.length ∨ (a.parents.length = b.parents.length ∧ a.tsMs < b.tsMs)

theorem ListedBefore.asymm {a b : SignedEvent} (h : ListedBefore a b) : ¬ ListedBefore b a := by
  rcases h with hlen | ⟨hlen, hts⟩
  · rintro (hlen' | ⟨hlen', _⟩) <;> omega
  · rintro (hlen' | ⟨_, hts'⟩)
    · omega
    · exact UInt64.lt_asymm hts hts'

/-- The listing order is total, and strict where it is not the other way round. -/
theorem not_causalLe_iff {a b : SignedEvent} : ¬ DeviceNode.causalLe b a ↔ ListedBefore a b := by
  unfold DeviceNode.causalLe ListedBefore
  constructor
  · intro h
    push Not at h
    rcases h with ⟨hlen, hts⟩
    rcases Nat.lt_or_eq_of_le hlen with hlt | heq
    · exact Or.inl hlt
    · exact Or.inr ⟨heq, UInt64.not_le.1 (hts heq.symm)⟩
  · rintro (hlt | ⟨heq, hts⟩) (hlt' | ⟨heq', hts'⟩)
    · omega
    · omega
    · omega
    · exact UInt64.not_lt.2 hts' hts

theorem listedBefore_respected {l : List SignedEvent} (h : l.Pairwise DeviceNode.causalLe) :
    Respects ListedBefore l :=
  h.imp fun hle hlt => not_causalLe_iff.2 hlt hle

instance total_causalLe : Std.Total DeviceNode.causalLe := by
  refine ⟨fun a b => ?_⟩
  by_cases h : DeviceNode.causalLe a b
  · exact Or.inl h
  · rcases not_causalLe_iff.1 h with hlen | ⟨hlen, hts⟩
    · exact Or.inr (Or.inl hlen)
    · exact Or.inr (Or.inr ⟨hlen, UInt64.le_of_lt hts⟩)

instance trans_causalLe : IsTrans SignedEvent DeviceNode.causalLe := by
  refine ⟨fun a b c hab hbc => ?_⟩
  rcases hab with hlen | ⟨hlen, hts⟩
  · rcases hbc with hlen' | ⟨hlen', _⟩
    · exact Or.inl (hlen.trans hlen')
    · exact Or.inl (hlen' ▸ hlen)
  · rcases hbc with hlen' | ⟨hlen', hts'⟩
    · exact Or.inl (hlen ▸ hlen')
    · exact Or.inr ⟨hlen.trans hlen', UInt64.le_trans hts hts'⟩

theorem pairwise_causalLe (l : List SignedEvent) :
    (l.insertionSort DeviceNode.causalLe).Pairwise DeviceNode.causalLe :=
  List.pairwise_insertionSort DeviceNode.causalLe l

/-! ## The history of a room -/

section Rebuild

variable [Primitives] [Deserialize CreateRoomPayload] [Deserialize MembershipPayload]

/-- The events of a room in the order in which a registry took them, and the room they made. -/
inductive RoomHistory (r : RoomId) : List SignedEvent → Option RoomState → Prop
  | unknown : RoomHistory r [] none
  | founded {ev : SignedEvent} {payload : CreateRoomPayload} : Verified ev → ev.roomId = r →
      ev.kind = .createRoom → Deserialize.fromSlice ev.payload = some payload → ev.parents = [] →
      RoomHistory r [ev] (some (RoomRegistry.founded ev payload))
  | attached {hist : List SignedEvent} {room : RoomState} {ev : SignedEvent} :
      RoomHistory r hist (some room) → Verified ev → ev.roomId = r → Eligible room ev →
      room.dag.Admits ev → RoomHistory r (hist ++ [ev]) (some (attach room ev).2)

omit [Primitives] [Deserialize CreateRoomPayload] in
open Classical in
/-- The events of `l` that act on `d`, in order. -/
noncomputable def actingOn (d : DeviceId) (l : List SignedEvent) : List SignedEvent :=
  l.filter fun e => Targets e d

omit [Primitives] [Deserialize CreateRoomPayload] in
@[simp] theorem mem_actingOn {d : DeviceId} {l : List SignedEvent} {e : SignedEvent} :
    e ∈ actingOn d l ↔ e ∈ l ∧ Targets e d := by
  simp [actingOn]

omit [Primitives] [Deserialize CreateRoomPayload] in
theorem actingOn_append (d : DeviceId) (l l' : List SignedEvent) :
    actingOn d (l ++ l') = actingOn d l ++ actingOn d l' := by
  simp [actingOn]

omit [Primitives] [Deserialize CreateRoomPayload] in
theorem targets_kind {e : SignedEvent} {d : DeviceId} (h : Targets e d) : e.kind = .membership := by
  rcases h with ⟨payload, hp, _⟩
  by_contra hk
  simp [payloadOf, hk] at hp

omit [Primitives] [Deserialize CreateRoomPayload] in
/-- The member states after one more event. -/
theorem attach_memberState (room : RoomState) (ev : SignedEvent) (d : DeviceId) (init : Option MemberState)
    (l : List SignedEvent)
    (h : room.memberState d = foldActions init ((actingOn d l).map actionOf)) :
    (attach room ev).2.memberState d =
      foldActions init ((actingOn d (l ++ [ev])).map actionOf) := by
  rw [actingOn_append, List.map_append, foldActions_append, ← h]
  by_cases ht : Targets ev d
  · have hone : actingOn d [ev] = [ev] := by
      simp [actingOn, ht]
    rcases ht with ⟨payload, hpay, rfl⟩
    have hact : actionOf ev = payload.action := by
      simp [actionOf, hpay]
    rw [hone, List.map_singleton, hact]
    change _ = payload.action.step (room.memberState payload.target)
    unfold attach MembershipAction.step
    simp only [hpay, fold_eq]
    -- the fold refuses or stores the result, on both sides
    by_cases href : payload.action.Refuses (room.members.lookup payload.target)
    · have href' : payload.action.Refuses (room.memberState payload.target) := href
      simp only [href, href', if_true]
      rfl
    · have href' : ¬ payload.action.Refuses (room.memberState payload.target) := href
      simp only [href, href', if_false]
      exact AList.lookup_insert _
  · -- an event that acts on another device, or on none
    have hnone : actingOn d [ev] = [] := by
      simp [actingOn, ht]
    rw [hnone]
    change _ = room.memberState d
    unfold attach
    cases hpay : payloadOf ev with
    | none => rfl
    | some payload =>
        have hd : d ≠ payload.target := by
          rintro rfl
          exact ht ⟨payload, hpay, rfl⟩
        dsimp only
        rw [fold_eq]
        by_cases href : payload.action.Refuses (room.members.lookup payload.target)
        · rw [if_pos href]
          rfl
        · rw [if_neg href]
          exact AList.lookup_insert_ne hd

omit [Primitives] [Deserialize CreateRoomPayload] [Deserialize MembershipPayload] in
theorem mem_founded (ev : SignedEvent) (payload : CreateRoomPayload) (i : EventId) :
    i ∈ (RoomRegistry.founded ev payload).dag.events ↔ i = ev.id := by
  change i ∈ ((RoomDag.new ev.roomId).inserted ev).events ↔ _
  rw [RoomDag.events_inserted, AList.mem_insert]
  simp [RoomDag.new]

omit [Primitives] [Deserialize CreateRoomPayload] [Deserialize MembershipPayload] in
theorem memberState_founded (ev : SignedEvent) (payload : CreateRoomPayload) (d : DeviceId) :
    (RoomRegistry.founded ev payload).memberState d = initial payload.creator d := by
  change ((∅ : HashMap DeviceId MemberState).insert payload.creator .joined).lookup d =
    initial payload.creator d
  rw [HashMap.lookup_insert_eq, AList.lookup_empty]
  rfl

/-- What a history says about its room: `c` made it. -/
structure Chronicle (r : RoomId) (hist : List SignedEvent) (room : RoomState) (c : SignedEvent)
    (payload : CreateRoomPayload) : Prop where
  head : hist.head? = some c
  kind : c.kind = .createRoom
  decoded : Deserialize.fromSlice c.payload = some payload
  root : c.parents = []
  name : room.name = payload.name
  creator : room.creator = payload.creator
  dag : room.dag.WellFormed r
  events : ∀ i, i ∈ room.dag.events ↔ ∃ e ∈ hist, e.id = i
  ids : (hist.map SignedEvent.id).Nodup
  members : ∀ d, room.memberState d =
    foldActions (initial payload.creator d) ((actingOn d hist).map actionOf)

theorem RoomHistory.chronicle {r : RoomId} {hist : List SignedEvent} {found : Option RoomState}
    (h : RoomHistory r hist found) :
    (hist = [] ∧ found = none) ∨ ∃ room c payload, found = some room ∧ Chronicle r hist room c payload := by
  induction h with
  | unknown => exact Or.inl ⟨rfl, rfl⟩
  -- the founding acts on nobody
  | @founded ev payload hv hr hk hdec hroot =>
      subst hr
      refine Or.inr ⟨_, ev, payload, rfl, rfl, hk, hdec, hroot, rfl, rfl, ?_, ?_, by simp, ?_⟩
      · exact (RoomDag.wellFormed_new ev.roomId).inserted rfl (AList.notMem_empty _) (by simp [hroot])
      · intro i
        rw [mem_founded]
        simp [eq_comm]
      · intro d
        have hnone : actingOn d [ev] = [] := by
          refine List.eq_nil_iff_forall_not_mem.2 fun x hx => ?_
          rcases mem_actingOn.1 hx with ⟨hx, ht⟩
          have hkind := targets_kind ht
          rw [List.mem_singleton.1 hx, hk] at hkind
          cases hkind
        rw [hnone]
        exact memberState_founded ev payload d
  | @attached hist room ev _ hv hr _ hadm ih =>
      rcases ih with ⟨_, hnone⟩ | ⟨room', c, payload, hsome, hch⟩
      · cases hnone
      · cases hsome
        -- the DAG has admitted it, so its id is new to the history
        have hnew : ∀ e ∈ hist, e.id ≠ ev.id := fun e he hid =>
          hadm.2.1 ((hch.events ev.id).2 ⟨e, he, hid⟩)
        refine Or.inr ⟨_, c, payload, rfl, ?_, hch.kind, hch.decoded, hch.root, ?_, ?_, ?_, ?_, ?_, ?_⟩
        · rw [List.head?_append_of_ne_nil]
          · exact hch.head
          · rintro rfl
            have hhead := hch.head
            cases hhead
        · rw [attach_name, hch.name]
        · rw [attach_creator, hch.creator]
        · rw [attach_dag]
          exact hch.dag.inserted hr hadm.2.1 hadm.2.2
        · intro i
          rw [attach_dag, RoomDag.events_inserted, AList.mem_insert, hch.events]
          constructor
          · rintro (rfl | ⟨e, he, hid⟩)
            · exact ⟨ev, by simp, rfl⟩
            · exact ⟨e, by simp [he], hid⟩
          · rintro ⟨e, he, hid⟩
            rcases List.mem_append.1 he with he | he
            · exact Or.inr ⟨e, he, hid⟩
            · rw [List.mem_singleton.1 he] at hid
              exact Or.inl hid.symm
        · rw [List.map_append, List.map_singleton, List.nodup_append]
          refine ⟨hch.ids, by simp, ?_⟩
          intro a ha b hb hab
          rcases List.mem_map.1 ha with ⟨e, he, rfl⟩
          rw [List.mem_singleton.1 hb] at hab
          exact hnew e he hab
        · intro d
          exact attach_memberState room ev d _ hist (hch.members d)

/-- What the room was when an event of its history came. -/
theorem RoomHistory.at {r : RoomId} {hist : List SignedEvent} {found : Option RoomState}
    (h : RoomHistory r hist found) : ∀ {before after : List SignedEvent} {e : SignedEvent},
      hist = before ++ e :: after →
      Verified e ∧ e.roomId = r ∧ Readable e ∧
      ((before = [] ∧ e.parents = [] ∧ e.kind = .createRoom) ∨
        ∃ room, RoomHistory r before (some room) ∧ Eligible room e ∧ room.dag.Admits e) := by
  induction h with
  | unknown =>
      intro before after e heq
      have hlen := congrArg List.length heq
      simp at hlen
  | @founded ev payload hv hr hk hdec hroot =>
      intro before after e heq
      rcases List.append_eq_singleton_iff.1 heq.symm with ⟨rfl, htail⟩ | ⟨_, htail⟩
      · cases htail
        exact ⟨hv, hr, readable_of_create hk hdec, Or.inl ⟨rfl, hroot, hk⟩⟩
      · cases htail
  | @attached hist room ev hprev hv hr hel hadm ih =>
      intro before after e heq
      -- it is the last event of the history, or one before it
      rcases List.eq_nil_or_concat after with rfl | ⟨after', x, rfl⟩
      · have hsplit : hist = before ∧ ev = e := by
          simpa using List.append_inj' heq (by simp)
        rcases hsplit with ⟨rfl, rfl⟩
        exact ⟨hv, hr, hel.readable, Or.inr ⟨room, hprev, hel, hadm⟩⟩
      · have hsplit : hist = before ++ e :: after' ∧ ev = x := by
          have heq' : hist ++ [ev] = (before ++ e :: after') ++ [x] := by
            simpa using heq
          simpa using List.append_inj' heq' (by simp)
        exact ih hsplit.1

/-! ### Every room has a history -/

/-- A registry that `apply_event` has built. -/
structure Recorded (reg : RoomRegistry) : Prop where
  wellFormed : reg.WellFormed
  history : ∀ r, ∃ hist, RoomHistory r hist (reg.get r)

theorem recorded_new : Recorded RoomRegistry.new :=
  ⟨wellFormed_new, fun _ => ⟨[], RoomHistory.unknown⟩⟩

theorem Recorded.applyEvent {reg : RoomRegistry} (h : Recorded reg) (ev : SignedEvent) :
    Recorded (reg.applyEvent ev).2 := by
  refine ⟨h.wellFormed.applyEvent ev, ?_⟩
  intro r
  rcases applyEvent_effect h.wellFormed ev with ⟨payload, hf, _, heq⟩ | ⟨room, ha, _, heq⟩ |
    ⟨_, _, _, hsame⟩
  · rw [heq, get_setRoom]
    split
    next hr => exact ⟨[ev], RoomHistory.founded hf.verified hr.symm hf.kind hf.decoded hf.root⟩
    · exact h.history r
  · rw [heq, get_setRoom]
    split
    next hr =>
      rcases h.history r with ⟨hist, hhist⟩
      rw [hr, ha.known] at hhist
      refine ⟨hist ++ [ev], RoomHistory.attached ?_ ha.verified hr.symm ha.eligible ha.admitted⟩
      rw [hr]
      exact hhist
    · exact h.history r
  · rw [hsame]
    exact h.history r

theorem Recorded.applyAll (evs : List SignedEvent) : ∀ {reg : RoomRegistry}, Recorded reg →
    Recorded (reg.applyAll evs) := by
  induction evs with
  | nil =>
      intro reg h
      exact h
  | cons ev evs ih =>
      intro reg h
      exact ih (h.applyEvent ev)

/-- The DAG of a room holds its history. -/
theorem RoomHistory.lookup {r : RoomId} {hist : List SignedEvent} {found : Option RoomState}
    (h : RoomHistory r hist found) : ∀ e ∈ hist, ∃ room, found = some room ∧
      room.dag.events.lookup e.id = some e := by
  induction h with
  | unknown =>
      intro e he
      cases he
  | @founded ev payload _ _ _ _ _ =>
      intro e he
      rw [List.mem_singleton.1 he]
      refine ⟨_, rfl, ?_⟩
      exact AList.lookup_insert _
  | @attached hist room ev _ _ _ _ hadm ih =>
      intro e he
      refine ⟨_, rfl, ?_⟩
      rw [attach_dag, RoomDag.events_inserted, HashMap.lookup_insert_eq]
      rcases List.mem_append.1 he with he | he
      · rcases ih e he with ⟨room', hroom', hl⟩
        cases hroom'
        rw [if_neg]
        · exact hl
        · intro hid
          exact hadm.2.1 (hid ▸ HashMap.mem_of_lookup hl)
      · rw [List.mem_singleton.1 he, if_pos rfl]

/-! ## When a listing rebuilds the room -/

/-- An event that no registry takes: it cannot be read, or it descends from one that cannot. -/
inductive Barred (evs : Set SignedEvent) : SignedEvent → Prop
  | unread {e : SignedEvent} : e ∈ evs → ¬ Readable e → Barred evs e
  | orphan {e z : SignedEvent} : e ∈ evs → z.id ∈ e.parents → Barred evs z → Barred evs e

omit [Primitives] [Deserialize CreateRoomPayload] [Deserialize MembershipPayload] in
/-- The event counts only if `d` is in the room. -/
def Speaks (e : SignedEvent) (d : DeviceId) : Prop :=
  e.kind ≠ .createRoom ∧ e.kind ≠ .membership ∧ e.authorDevice = d

omit [Primitives] [Deserialize CreateRoomPayload] in
/-- Both events concern the membership of one device, and one of them changes it. -/
def Touch (x y : SignedEvent) : Prop :=
  ∃ d, (Targets x d ∧ (Targets y d ∨ Speaks y d)) ∨ (Speaks x d ∧ Targets y d)

/-- The listing of the events `evs` of a room agrees with the history `hist` of the room wherever it can
matter: every membership event was taken, or never will be; the `CreateRoom` that made the room is
listed before any other that could; and of two events that bear on membership, one a parent of the other
or both touching one device, the one taken first is listed first. -/
structure Rebuildable (evs : Set SignedEvent) (hist : List SignedEvent) : Prop where
  membership : ∀ e ∈ evs, e.kind = .membership → e ∈ hist ∨ Barred evs e
  creates : ∀ e ∈ evs, e.kind = .createRoom → Readable e → e.parents = [] →
    ∃ c, hist.head? = some c ∧ (e = c ∨ ListedBefore c e)
  first : ∀ c, hist.head? = some c → ∀ e ∈ hist, e ≠ c → Bears hist e → ListedBefore c e
  inOrder : hist.Pairwise fun x y => Bears hist x → Bears hist y →
    (x.id ∈ y.parents ∨ Touch x y) → ListedBefore x y

/-! ## The replay -/

omit [Deserialize CreateRoomPayload] [Deserialize MembershipPayload] in
/-- `l` lists the verified events `evs` of one room. -/
structure Lists (r : RoomId) (evs : Set SignedEvent) (l : List SignedEvent) : Prop where
  mem : ∀ e, e ∈ l ↔ e ∈ evs
  nodup : l.Nodup
  order : Respects ListedBefore l
  verified : ∀ e ∈ evs, Verified e
  inRoom : ∀ e ∈ evs, e.roomId = r
  ids : IdsIdentify evs

section Listing

variable {r : RoomId} {evs : Set SignedEvent} {done rest : List SignedEvent} {e x : SignedEvent}

omit [Deserialize CreateRoomPayload] [Deserialize MembershipPayload]

theorem Lists.before (h : Lists r evs (done ++ e :: rest)) (hx : x ∈ evs) (hlt : ListedBefore x e) :
    x ∈ done := by
  rcases List.mem_append.1 ((h.mem x).2 hx) with hin | hin
  · exact hin
  · rcases List.mem_cons.1 hin with rfl | hin
    · exact absurd hlt hlt.asymm
    · exact absurd hlt (h.order.after hin)

theorem Lists.not_before (h : Lists r evs (done ++ e :: rest)) (hlt : ListedBefore e x) : x ∉ done :=
  fun hx => h.order.before hx hlt

theorem Lists.new (h : Lists r evs (done ++ e :: rest)) : e ∉ done := by
  intro he
  exact (List.nodup_append.1 h.nodup).2.2 e he e (by simp) rfl

theorem Lists.next (h : Lists r evs (done ++ e :: rest)) : e ∈ evs :=
  (h.mem e).1 (by simp)

theorem Lists.listed (h : Lists r evs (done ++ rest)) (hx : x ∈ done) : x ∈ evs :=
  (h.mem x).1 (by simp [hx])

end Listing

section Replay

variable {r : RoomId} {evs : Set SignedEvent} {done rest hist : List SignedEvent}
  {c e x y : SignedEvent} {payload : CreateRoomPayload} {live room : RoomState} {reg : RoomRegistry}

omit [Primitives] [Deserialize CreateRoomPayload] in
theorem bears_of_targets {d : DeviceId} (he : e ∈ hist) (ht : Targets e d) : Bears hist e :=
  ⟨e, he, targets_kind ht, Or.inl rfl⟩

omit [Primitives] in
/-- Of two related events of the history the earlier one is listed first. -/
theorem Rebuildable.ordered (h : Rebuildable evs hist) {past future : List SignedEvent}
    (hsplit : hist = past ++ y :: future) (hx : x ∈ past) (hbx : Bears hist x) (hby : Bears hist y)
    (hrel : x.id ∈ y.parents ∨ Touch x y) : ListedBefore x y := by
  have hpair := h.inOrder
  rw [hsplit] at hpair hbx hby
  exact (List.pairwise_append.1 hpair).2.2 x hx y (by simp) hbx hby hrel

omit [Primitives] in
theorem Rebuildable.acting_sorted (h : Rebuildable evs hist) (d : DeviceId) :
    (actingOn d hist).Pairwise ListedBefore := by
  refine List.Pairwise.imp_of_mem ?_ (h.inOrder.filter _)
  intro x y hx hy hlt
  rcases mem_actingOn.1 hx with ⟨hxh, hxt⟩
  rcases mem_actingOn.1 hy with ⟨hyh, hyt⟩
  exact hlt (bears_of_targets hxh hxt) (bears_of_targets hyh hyt) (Or.inr ⟨d, Or.inl ⟨hxt, Or.inl hyt⟩⟩)

/-- The listing has the events of the history that act on `d` in the order of the history. -/
theorem Rebuildable.listing_sorted (h : Rebuildable evs hist) (hl : Lists r evs (done ++ rest))
    (d : DeviceId) : (actingOn d (done.filter (· ∈ hist))).Pairwise ListedBefore := by
  have hcmp : ∀ {x y}, x ∈ actingOn d hist → y ∈ actingOn d hist → x ≠ y →
      ListedBefore x y ∨ ListedBefore y x := by
    intro x y hx hy hne
    have hsym : Std.Symm fun x y : SignedEvent => ListedBefore x y ∨ ListedBefore y x :=
      ⟨fun _ _ => Or.symm⟩
    have hpair : (actingOn d hist).Pairwise fun x y => ListedBefore x y ∨ ListedBefore y x :=
      (h.acting_sorted d).imp Or.inl
    exact hpair.forall hx hy hne
  have hdone : done.Pairwise fun x y => x ≠ y ∧ ¬ ListedBefore y x :=
    (List.nodup_append.1 hl.nodup).1.and (hl.order.sublist (List.sublist_append_left done rest))
  refine List.Pairwise.imp_of_mem ?_ ((hdone.filter _).filter _)
  rintro x y hx hy ⟨hne, hnot⟩
  rcases mem_actingOn.1 hx with ⟨hxh, hxt⟩
  rcases mem_actingOn.1 hy with ⟨hyh, hyt⟩
  have hxh' : x ∈ hist := by
    simpa using (List.mem_filter.1 hxh).2
  have hyh' : y ∈ hist := by
    simpa using (List.mem_filter.1 hyh).2
  exact (hcmp (mem_actingOn.2 ⟨hxh', hxt⟩) (mem_actingOn.2 ⟨hyh', hyt⟩) hne).resolve_right hnot

/-- The room after the events of `done`: what bears on membership is back, nothing that is barred came
in, and the members are those of the history so far. -/
structure Retaken (evs : Set SignedEvent) (hist : List SignedEvent) (c : SignedEvent)
    (payload : CreateRoomPayload) (done : List SignedEvent) (room : RoomState) : Prop where
  name : room.name = payload.name
  creator : room.creator = payload.creator
  bearing : ∀ e ∈ done, e ∈ hist → e = c ∨ Bears hist e → e.id ∈ room.dag.events
  listed : ∀ i ∈ room.dag.events, ∃ e ∈ done, e.id = i ∧ ¬ Barred evs e
  members : ∀ d, room.memberState d =
    foldActions (initial payload.creator d) ((actingOn d (done.filter (· ∈ hist))).map actionOf)

/-- The registry after the events of `done`. -/
structure Retold (r : RoomId) (evs : Set SignedEvent) (hist : List SignedEvent) (c : SignedEvent)
    (payload : CreateRoomPayload) (done : List SignedEvent) (reg : RoomRegistry) : Prop where
  wellFormed : reg.WellFormed
  notYet : c ∉ done → reg.get r = none
  known : c ∈ done → ∃ room, reg.get r = some room ∧ Retaken evs hist c payload done room

/-- A room that is to be rebuilt from the events `evs`: `c` made it, and `hist` is its history. -/
structure Story (r : RoomId) (evs : Set SignedEvent) (hist : List SignedEvent) (live : RoomState)
    (c : SignedEvent) (payload : CreateRoomPayload) : Prop where
  history : RoomHistory r hist (some live)
  chronicle : Chronicle r hist live c payload
  rebuildable : Rebuildable evs hist
  logged : ∀ e ∈ hist, e ∈ evs

theorem Story.founder_mem (h : Story r evs hist live c payload) : c ∈ hist :=
  List.mem_of_mem_head? h.chronicle.head

/-- The maker of the room stands before all that bears on it. -/
theorem Story.bearing_after (h : Story r evs hist live c payload) (hl : Lists r evs (done ++ c :: rest))
    (he : e ∈ hist) (hb : Bears hist e) : e ∉ done := by
  by_cases hc : e = c
  · subst hc
    exact hl.new
  · exact hl.not_before (h.rebuildable.first c h.chronicle.head e he hc hb)

theorem Story.founder_not_barred (h : Story r evs hist live c payload) : ¬ Barred evs c := by
  intro hbar
  cases hbar with
  | unread _ hno =>
      refine hno ⟨fun _ => ⟨payload, h.chronicle.decoded⟩, fun hm => ?_⟩
      rw [h.chronicle.kind] at hm
      cases hm
  | orphan _ hp _ =>
      rw [h.chronicle.root] at hp
      cases hp

/-- The maker of the room makes it again. -/
theorem Retold.founder_step (hr : Retold r evs hist c payload done reg)
    (h : Story r evs hist live c payload) (hl : Lists r evs (done ++ c :: rest)) :
    Retold r evs hist c payload (done ++ [c]) (reg.applyEvent c).2 := by
  have hroom : c.roomId = r := hl.inRoom c hl.next
  have hnone : reg.get c.roomId = none := by
    rw [hroom]
    exact hr.notYet hl.new
  have hf : Founds reg c payload :=
    ⟨hl.verified c hl.next, h.chronicle.kind, h.chronicle.decoded, hnone, h.chronicle.root⟩
  have hback : (reg.applyEvent c).2 = reg.setRoom c.roomId (founded c payload) := by
    rcases applyEvent_effect hr.wellFormed c with ⟨payload', hf', _, heq⟩ | ⟨room, ha, _, _⟩ | ⟨hno, _⟩
    · have hsame : payload' = payload := Option.some.inj (hf'.decoded.symm.trans hf.decoded)
      rw [heq, hsame]
    · have hsome := ha.known
      rw [hnone] at hsome
      cases hsome
    · exact absurd hf (hno payload)
  -- what bears on the room is listed after its maker
  have hacting : ∀ d, actingOn d ((done ++ [c]).filter (· ∈ hist)) = [] := by
    intro d
    refine List.eq_nil_iff_forall_not_mem.2 fun x hx => ?_
    rcases mem_actingOn.1 hx with ⟨hxd, ht⟩
    rcases List.mem_filter.1 hxd with ⟨hxd, hxh⟩
    have hxh' : x ∈ hist := by
      simpa using hxh
    rcases List.mem_append.1 hxd with hxd | hxd
    · exact h.bearing_after hl hxh' (bears_of_targets hxh' ht) hxd
    · have hkind := targets_kind ht
      rw [List.mem_singleton.1 hxd, h.chronicle.kind] at hkind
      cases hkind
  refine ⟨hr.wellFormed.applyEvent c, fun hno => absurd (by simp) hno, fun _ => ?_⟩
  rw [hback, get_setRoom, if_pos hroom.symm]
  refine ⟨_, rfl, rfl, rfl, ?_, ?_, ?_⟩
  · intro x hx hxh hb
    rw [mem_founded]
    rcases List.mem_append.1 hx with hx | hx
    · rcases hb with rfl | hb
      · rfl
      · exact absurd hx (h.bearing_after hl hxh hb)
    · rw [List.mem_singleton.1 hx]
  · intro i hi
    rw [mem_founded] at hi
    exact ⟨c, by simp, hi.symm, h.founder_not_barred⟩
  · intro d
    rw [hacting]
    exact memberState_founded c payload d

/-- Before its maker nothing makes the room. -/
theorem Retold.early_step (hr : Retold r evs hist c payload done reg)
    (h : Story r evs hist live c payload) (hl : Lists r evs (done ++ e :: rest)) (hc : c ∉ done)
    (hne : e ≠ c) : Retold r evs hist c payload (done ++ [e]) (reg.applyEvent e).2 := by
  have hroom : e.roomId = r := hl.inRoom e hl.next
  have hnone : reg.get r = none := hr.notYet hc
  refine ⟨hr.wellFormed.applyEvent e, fun _ => ?_, fun hin => ?_⟩
  · rcases applyEvent_effect hr.wellFormed e with ⟨payload', hf, _, _⟩ | ⟨room, ha, _, _⟩ | ⟨_, _, _, hsame⟩
    · have hread : Readable e := readable_of_create hf.kind hf.decoded
      rcases h.rebuildable.creates e hl.next hf.kind hread hf.root with ⟨c', hc', heq | hlt⟩
      · rw [h.chronicle.head] at hc'
        cases hc'
        exact absurd heq hne
      · rw [h.chronicle.head] at hc'
        cases hc'
        exact absurd (hl.before (h.logged c h.founder_mem) hlt) hc
    · have hsome := ha.known
      rw [hroom, hnone] at hsome
      cases hsome
    · rw [hsame, hnone]
  · rcases List.mem_append.1 hin with hin | hin
    · exact absurd hin hc
    · exact absurd (List.mem_singleton.1 hin).symm hne

/-- The events that act on the author of `e` are the same when `e` is listed and when it was taken. -/
theorem Story.acting_at (h : Story r evs hist live c payload) (hl : Lists r evs (done ++ e :: rest))
    {past future : List SignedEvent} (hsplit : hist = past ++ e :: future) {d : DeviceId}
    (hb : Bears hist e) (hs : Speaks e d) :
    actingOn d (done.filter (· ∈ hist)) = actingOn d past := by
  refine eq_of_pairwise (fun x y hxy => hxy.asymm) (h.rebuildable.listing_sorted hl d) ?_ ?_
  · refine (h.rebuildable.acting_sorted d).sublist (List.Sublist.filter _ ?_)
    rw [hsplit]
    exact List.sublist_append_left past (e :: future)
  · intro x
    rw [mem_actingOn, mem_actingOn, List.mem_filter, decide_eq_true_eq]
    constructor
    · rintro ⟨⟨hxd, hxh⟩, ht⟩
      refine ⟨?_, ht⟩
      have hbx := bears_of_targets hxh ht
      rw [hsplit] at hxh
      rcases List.mem_append.1 hxh with hx | hx
      · exact hx
      rcases List.mem_cons.1 hx with rfl | hx
      · exact absurd (targets_kind ht) hs.2.1
      · -- what acts on the author later is listed later
        rcases List.append_of_mem hx with ⟨mid, last, rfl⟩
        have hat : hist = (past ++ e :: mid) ++ x :: last := by
          simpa using hsplit
        have hlt : ListedBefore e x :=
          h.rebuildable.ordered hat (by simp) hb hbx (Or.inr ⟨d, Or.inr ⟨hs, ht⟩⟩)
        exact absurd hxd (hl.not_before hlt)
    · rintro ⟨hx, ht⟩
      have hxh : x ∈ hist := by
        rw [hsplit]
        simp [hx]
      refine ⟨⟨?_, hxh⟩, ht⟩
      exact hl.before (h.logged x hxh) (h.rebuildable.ordered hsplit hx (bears_of_targets hxh ht) hb
        (Or.inr ⟨d, Or.inl ⟨ht, Or.inr hs⟩⟩))

/-- What bears on membership is taken again. -/
theorem Retaken.attaches (ht : Retaken evs hist c payload done room) (hwf : reg.WellFormed)
    (h : Story r evs hist live c payload) (hl : Lists r evs (done ++ e :: rest)) (hc : c ∈ done)
    (hroom : reg.get r = some room) (he : e ∈ hist) (hb : Bears hist e) : Attaches reg e room := by
  have hrid : e.roomId = r := hl.inRoom e hl.next
  rcases List.append_of_mem he with ⟨past, future, hsplit⟩
  rcases h.history.at hsplit with ⟨hv, _, hread, ⟨hnil, _, _⟩ | ⟨then_, hthen, hel, hadm⟩⟩
  · -- the first event of the history is the maker, which is listed already
    have hhead := h.chronicle.head
    rw [hsplit, hnil] at hhead
    cases hhead
    exact absurd hc hl.new
  rcases hthen.chronicle with ⟨_, hnone⟩ | ⟨st, c', payload', hst, hpast⟩
  · cases hnone
  cases hst
  have hfounder : payload' = payload := by
    have hhead := h.chronicle.head
    have hpastHead := hpast.head
    cases past with
    | nil => cases hpastHead
    | cons z zs =>
        rw [hsplit] at hhead
        cases hhead
        cases hpastHead
        exact Option.some.inj (hpast.decoded.symm.trans h.chronicle.decoded)
  refine ⟨hv, by rw [hrid]; exact hroom, ?_, ?_, ?_, ?_⟩
  · by_cases hk : e.kind = .createRoom ∨ e.kind = .membership
    · exact hread.eligible hk
    · push Not at hk
      rw [eligible_other hk.1 hk.2] at hel ⊢
      have hsame := h.acting_at hl hsplit hb ⟨hk.1, hk.2, rfl⟩
      rw [ht.members, hsame, ← hel, hpast.members, hfounder]
  · intro rid hrid'
    rw [(hwf.dag hroom).ofRoom] at hrid'
    rw [← Option.some.inj hrid', hrid]
  · intro hin
    rcases ht.listed e.id hin with ⟨z, hz, hid, _⟩
    have hEq : z = e := hl.ids z (hl.listed hz) e hl.next hid
    subst hEq
    exact hl.new hz
  · intro p hp
    rcases (hpast.events p).1 (hadm.2.2 p hp) with ⟨z, hz, rfl⟩
    have hzh : z ∈ hist := by
      rw [hsplit]
      simp [hz]
    have hbz : Bears hist z := (relevant_bears hist).parent e he hb z hzh hp
    have hlt : ListedBefore z e := h.rebuildable.ordered hsplit hz hbz hb (Or.inl hp)
    exact ht.bearing z (hl.before (h.logged z hzh) hlt) hzh (Or.inr hbz)

omit [Primitives] [Deserialize CreateRoomPayload] in
theorem actingOn_filter_append (d : DeviceId) (hnot : e ∉ hist ∨ ¬ Targets e d) :
    actingOn d ((done ++ [e]).filter (· ∈ hist)) = actingOn d (done.filter (· ∈ hist)) := by
  rw [List.filter_append, actingOn_append]
  have hnil : actingOn d ([e].filter (· ∈ hist)) = [] := by
    refine List.eq_nil_iff_forall_not_mem.2 fun x hx => ?_
    rcases mem_actingOn.1 hx with ⟨hx, ht⟩
    rcases List.mem_filter.1 hx with ⟨hx, hxh⟩
    rw [List.mem_singleton.1 hx] at hxh ht
    rcases hnot with hnot | hnot
    · simp [hnot] at hxh
    · exact hnot ht
  rw [hnil, List.append_nil]

/-- An event that the DAG of the room takes is not barred. -/
theorem Retaken.not_barred (ht : Retaken evs hist c payload done room)
    (hl : Lists r evs (done ++ e :: rest)) (ha : Attaches reg e room) : ¬ Barred evs e := by
  intro hbar
  cases hbar with
  | unread _ hno => exact hno ha.eligible.readable
  | @orphan _ z _ hp hz =>
      rcases ht.listed z.id (ha.admitted.2.2 z.id hp) with ⟨z', hz', hid, hfree⟩
      have hzmem : z ∈ evs := by
        cases hz with
        | unread hmem _ => exact hmem
        | orphan hmem _ _ => exact hmem
      have hEq : z' = z := hl.ids z' (hl.listed hz') z hzmem hid
      subst hEq
      exact hfree hz

theorem Retaken.attach (ht : Retaken evs hist c payload done room) (h : Story r evs hist live c payload)
    (hl : Lists r evs (done ++ e :: rest)) (ha : Attaches reg e room) :
    Retaken evs hist c payload (done ++ [e]) (RoomRegistry.attach room e).2 := by
  have hfree := ht.not_barred hl ha
  refine ⟨?_, ?_, ?_, ?_, ?_⟩
  · rw [attach_name, ht.name]
  · rw [attach_creator, ht.creator]
  · intro x hx hxh hb
    rw [attach_dag, RoomDag.events_inserted, AList.mem_insert]
    rcases List.mem_append.1 hx with hx | hx
    · exact Or.inr (ht.bearing x hx hxh hb)
    · rw [List.mem_singleton.1 hx]
      exact Or.inl rfl
  · intro i hi
    rw [attach_dag, RoomDag.events_inserted, AList.mem_insert] at hi
    rcases hi with rfl | hi
    · exact ⟨e, by simp, rfl, hfree⟩
    · rcases ht.listed i hi with ⟨x, hx, hid, hxfree⟩
      exact ⟨x, by simp [hx], hid, hxfree⟩
  · intro d
    have hstep := attach_memberState room e d _ _ (ht.members d)
    by_cases he : e ∈ hist
    · have hfilter : (done ++ [e]).filter (· ∈ hist) = done.filter (· ∈ hist) ++ [e] := by
        simp [List.filter_append, he]
      rw [hfilter]
      exact hstep
    · -- every membership event that can come in is of the history
      have hnot : ¬ Targets e d := by
        intro htar
        rcases h.rebuildable.membership e hl.next (targets_kind htar) with hin | hbar
        · exact he hin
        · exact hfree hbar
      have hone : actingOn d [e] = [] := by
        simp [actingOn, hnot]
      rw [hstep, actingOn_append, hone, List.append_nil, actingOn_filter_append d (Or.inl he)]

theorem Retold.late_step (hr : Retold r evs hist c payload done reg)
    (h : Story r evs hist live c payload) (hl : Lists r evs (done ++ e :: rest)) (hc : c ∈ done) :
    Retold r evs hist c payload (done ++ [e]) (reg.applyEvent e).2 := by
  have hrid : e.roomId = r := hl.inRoom e hl.next
  rcases hr.known hc with ⟨room, hroom, ht⟩
  refine ⟨hr.wellFormed.applyEvent e, fun hno => absurd (by simp [hc]) hno, fun _ => ?_⟩
  rcases applyEvent_effect hr.wellFormed e with ⟨payload', hf, _, _⟩ | ⟨room', ha, _, heq⟩ |
    ⟨_, hno, _, hsame⟩
  · have hnone := hf.unknown
    rw [hrid, hroom] at hnone
    cases hnone
  · have hknown := ha.known
    rw [hrid, hroom] at hknown
    cases hknown
    rw [heq, get_setRoom, if_pos hrid.symm]
    exact ⟨_, rfl, ht.attach h hl ha⟩
  · -- an event that bears on membership would have been taken
    have hidle : ∀ x ∈ done ++ [e], x ∈ hist → x = c ∨ Bears hist x → x ∈ done := by
      intro x hx hxh hb
      rcases List.mem_append.1 hx with hx | hx
      · exact hx
      · have hxe : x = e := List.mem_singleton.1 hx
        subst hxe
        rcases hb with rfl | hb
        · exact hc
        · exact absurd (ht.attaches hr.wellFormed h hl hc hroom hxh hb) (hno room)
    refine ⟨room, by rw [hsame, hroom], ht.name, ht.creator, ?_, ?_, ?_⟩
    · intro x hx hxh hb
      exact ht.bearing x (hidle x hx hxh hb) hxh hb
    · intro i hi
      rcases ht.listed i hi with ⟨x, hx, hid, hfree⟩
      exact ⟨x, by simp [hx], hid, hfree⟩
    · intro d
      have hnot : e ∉ hist ∨ ¬ Targets e d := by
        by_contra hboth
        push Not at hboth
        rcases hboth with ⟨he, htar⟩
        exact hl.new (hidle e (by simp) he (Or.inr (bears_of_targets he htar)))
      rw [actingOn_filter_append d hnot]
      exact ht.members d

/-! ### The whole listing -/

theorem Retold.applyAll (h : Story r evs hist live c payload) (rest : List SignedEvent) :
    ∀ {done : List SignedEvent} {reg : RoomRegistry}, Lists r evs (done ++ rest) →
      Retold r evs hist c payload done reg →
      Retold r evs hist c payload (done ++ rest) (reg.applyAll rest) := by
  induction rest with
  | nil =>
      intro done reg _ hr
      rw [List.append_nil]
      exact hr
  | cons e rest ih =>
      intro done reg hl hr
      have hstep : Retold r evs hist c payload (done ++ [e]) (reg.applyEvent e).2 := by
        by_cases hc : c ∈ done
        · exact hr.late_step h hl hc
        · by_cases hec : e = c
          · subst hec
            exact hr.founder_step h hl
          · exact hr.early_step h hl hc hec
      have hnext := ih (by simpa using hl) hstep
      simpa [RoomRegistry.applyAll] using hnext

/-- Two rooms with the same creator, name and members. -/
structure SameMembers (x y : RoomState) : Prop where
  creator : x.creator = y.creator
  name : x.name = y.name
  members : ∀ d, x.memberState d = y.memberState d

theorem Story.rebuilt (h : Story r evs hist live c payload) {l : List SignedEvent} (hl : Lists r evs l)
    (hwf : reg.WellFormed) (hnone : reg.get r = none) :
    ∃ room, (reg.applyAll l).get r = some room ∧ SameMembers live room := by
  have hstart : Retold r evs hist c payload [] reg :=
    ⟨hwf, fun _ => hnone, fun hc => absurd hc (by simp)⟩
  have hlist : Lists r evs ([] ++ l) := hl
  have hend := Retold.applyAll h l hlist hstart
  rw [List.nil_append] at hend
  have hc : c ∈ l := (hl.mem c).2 (h.logged c h.founder_mem)
  rcases hend.known hc with ⟨room, hroom, ht⟩
  refine ⟨room, hroom, ?_, ?_, ?_⟩
  · rw [h.chronicle.creator, ht.creator]
  · rw [h.chronicle.name, ht.name]
  · intro d
    -- both lists hold the same events, in the same order
    have hsame : actingOn d (l.filter (· ∈ hist)) = actingOn d hist := by
      have hall : Lists r evs (l ++ []) := by
        rw [List.append_nil]
        exact hl
      have hsorted := h.rebuildable.listing_sorted hall d
      refine eq_of_pairwise (fun x y hxy => hxy.asymm) hsorted (h.rebuildable.acting_sorted d) ?_
      intro x
      rw [mem_actingOn, mem_actingOn, List.mem_filter, decide_eq_true_eq]
      constructor
      · rintro ⟨⟨_, hxh⟩, ht⟩
        exact ⟨hxh, ht⟩
      · rintro ⟨hxh, ht⟩
        exact ⟨⟨(hl.mem x).2 (h.logged x hxh), hxh⟩, ht⟩
    rw [h.chronicle.members, ht.members, hsame]

/-- A room that was never made is not made by the listing either. -/
theorem applyAll_unknown (h : Rebuildable evs []) (rest : List SignedEvent) : ∀ {reg : RoomRegistry},
    (∀ e ∈ rest, e ∈ evs ∧ e.roomId = r) → reg.WellFormed → reg.get r = none →
    (reg.applyAll rest).get r = none := by
  induction rest with
  | nil =>
      intro reg _ _ hnone
      exact hnone
  | cons e rest ih =>
      intro reg hin hwf hnone
      rcases hin e (by simp) with ⟨he, hrid⟩
      refine ih (fun x hx => hin x (List.mem_cons_of_mem _ hx)) (hwf.applyEvent e) ?_
      rcases applyEvent_effect hwf e with ⟨payload, hf, _, _⟩ | ⟨room, ha, _, _⟩ | ⟨_, _, _, hsame⟩
      · have hread : Readable e := readable_of_create hf.kind hf.decoded
        rcases h.creates e he hf.kind hread hf.root with ⟨c, hc, _⟩
        cases hc
      · have hsome := ha.known
        rw [hrid, hnone] at hsome
        cases hsome
      · rw [hsame, hnone]

/-- The listing of a room's events rebuilds the room, into a registry that does not have it. -/
theorem applyAll_rebuilds {found : Option RoomState} (hh : RoomHistory r hist found)
    (hre : Rebuildable evs hist) (hsub : ∀ e ∈ hist, e ∈ evs) {l : List SignedEvent}
    (hl : Lists r evs l) (hwf : reg.WellFormed) (hnone : reg.get r = none) :
    Option.Rel SameMembers found ((reg.applyAll l).get r) := by
  rcases hh.chronicle with ⟨rfl, rfl⟩ | ⟨live, c, payload, rfl, hch⟩
  · have hin : ∀ e ∈ l, e ∈ evs ∧ e.roomId = r := by
      intro e he
      have hmem := (hl.mem e).1 he
      exact ⟨hmem, hl.inRoom e hmem⟩
    rw [applyAll_unknown hre l hin hwf hnone]
    exact Option.Rel.none
  · have hstory : Story r evs hist live c payload := ⟨hh, hch, hre, hsub⟩
    rcases hstory.rebuilt hl hwf hnone with ⟨room, hroom, hsame⟩
    rw [hroom]
    exact Option.Rel.some hsame

end Replay

end Rebuild

end Node
end Thunderducks
