import Thunderducks.Event.Fate

/-!
# Stable — the sets of events whose order of arrival makes no difference

`ArrivalStable` says that in every fate of the events the actions let in on each device are settled, and always to
the same state.  This is enough for one member table in all causal orders, and it is needed as well, but where the
author of a message that membership rests on may or may not be joined when it comes (`arrivalIndependent_stable`).
-/

namespace Thunderducks
namespace Event
namespace RoomRegistry

open Lib Extension

section Stable

variable [Primitives] [Deserialize CreateRoomPayload] [Deserialize MembershipPayload]

variable {roomId : RoomId} {evs : List SignedEvent} {create : SignedEvent} {creator : DeviceId}
  {live : Set SignedEvent} {payload : CreateRoomPayload} {l L : List SignedEvent} {e : SignedEvent}

/-! ## Orders that bring an event as early, or as late, as can be -/

section Orders

omit [Deserialize CreateRoomPayload] [Deserialize MembershipPayload] in
/-- Putting an event and its descendants last gives another causal order. -/
theorem CausalOrder.postponed (hR : RoomEvents roomId evs create) {l₁ l₂ : List SignedEvent}
    {e : SignedEvent} (hord : CausalOrder evs (l₁ ++ e :: l₂)) :
    CausalOrder evs (Respects.postponed (Before evs) l₁ e l₂) := by
  have hperm := (Respects.postponed_perm (Before evs) l₁ e l₂).trans hord.perm
  have hresp : Respects (Before evs) (Respects.postponed (Before evs) l₁ e l₂) :=
    (hord.respects hR.nodup hR.ids).postpone Before.trans
  refine CausalOrder.of_respects hperm ?_ ?_
  · intro x hx hp
    exact hord.irrefl hR.ids x (Before.parent hx hp)
  · refine List.Pairwise.imp_of_mem ?_ hresp
    intro x y hx _ hnot hp
    exact hnot (Before.parent (hperm.mem_iff.1 hx) hp)

omit [Deserialize CreateRoomPayload] [Deserialize MembershipPayload] in
theorem RoomEvents.not_before (hR : RoomEvents roomId evs create) {x y : SignedEvent} (hx : x ∈ evs)
    (hpar : x.parents = []) : ¬ Before evs y x := by
  intro hr
  rcases Relation.TransGen.head'_iff.1 hr with ⟨_, ⟨z, hz, hid, hp⟩, _⟩
  have hEq : z = x := hR.ids z hz x hx hid
  rw [hEq, hpar] at hp
  cases hp

omit [Deserialize CreateRoomPayload] [Deserialize MembershipPayload] in
/-- A first part of a causal order, completed. -/
theorem CausalOrder.completed (hR : RoomEvents roomId evs create) (hord : CausalOrder evs L)
    {p : List SignedEvent} (hp : Initial (Before evs) L p) : CausalOrder evs (completed L p) := by
  rcases hp.complete (hord.perm.nodup_iff.2 hR.nodup) (hord.respects hR.nodup hR.ids) with ⟨hperm, hresp⟩
  refine CausalOrder.of_respects (hperm.trans hord.perm) ?_ ?_
  · intro x hx hself
    exact hord.irrefl hR.ids x (Before.parent hx hself)
  · refine List.Pairwise.imp_of_mem ?_ hresp
    intro x y hx _ hnot hpar
    exact hnot (Before.parent ((hperm.trans hord.perm).mem_iff.1 hx) hpar)

omit [Deserialize CreateRoomPayload] [Deserialize MembershipPayload] in
theorem RoomEvents.initial_singleton (hR : RoomEvents roomId evs create) (hord : CausalOrder evs L)
    (he : e ∈ evs) (hpar : e.parents = []) : Initial (Before evs) L [e] := by
  refine ⟨by simp, ?_, ?_, List.pairwise_singleton _ _⟩
  · intro x hx
    rw [List.mem_singleton.1 hx]
    exact hord.perm.mem_iff.2 he
  · intro x hx y _ hr
    rw [List.mem_singleton.1 hx] at hr
    exact absurd hr (hR.not_before he hpar)

omit [Deserialize CreateRoomPayload] [Deserialize MembershipPayload] in
theorem CausalOrder.reach (hR : RoomEvents roomId evs create) (hord : CausalOrder evs L)
    {p : List SignedEvent} (hp : Initial (Before evs) L p) (he : e ∈ evs) (hnew : e ∉ p) :
    Initial (Before evs) L (p ++ missing (Before evs) L p e ++ [e]) :=
  hp.reach Before.trans (fun x _ => hord.irrefl hR.ids x) (hord.perm.nodup_iff.2 hR.nodup)
    (hord.respects hR.nodup hR.ids) (hord.perm.mem_iff.2 he) hnew

omit [Deserialize CreateRoomPayload] in
/-- The `CreateRoom`, and then `m` as the actions on a device. -/
theorem exists_initial (hR : RoomEvents roomId evs create) (hpar : create.parents = [])
    (hord : CausalOrder evs L) {d : DeviceId} (m : List SignedEvent) : m.Nodup → Respects (Before evs) m →
    (∀ x ∈ m, x ∈ acting evs live d) → (∀ x ∈ m, ∀ y ∈ acting evs live d, Before evs y x → y ∈ m) →
    ∃ p, Initial (Before evs) L p ∧ create ∈ p ∧
      (∀ x ∈ p, x = create ∨ ∃ y ∈ m, x = y ∨ Before evs x y) ∧ actions live d p = m := by
  induction m using List.reverseRecOn with
  | nil =>
      intro _ _ _ _
      refine ⟨[create], hR.initial_singleton hord hR.create_mem hpar, by simp, ?_, ?_⟩
      · intro x hx
        exact Or.inl (List.mem_singleton.1 hx)
      · refine actions_eq_nil ?_
        rintro x hx ⟨_, htgt⟩
        have hk := htgt.kind
        rw [List.mem_singleton.1 hx, hR.create_kind] at hk
        cases hk
  | append_singleton m x ih =>
      intro hnd hresp hacts hclosed
      have hx : x ∈ acting evs live d := hacts x (by simp)
      have hxm : x ∉ m := fun hx => (List.nodup_append.1 hnd).2.2 x hx x (by simp) rfl
      have hclosed' : ∀ y ∈ m, ∀ z ∈ acting evs live d, Before evs z y → z ∈ m := by
        intro y hy z hz hr
        rcases List.mem_append.1 (hclosed y (by simp [hy]) z hz hr) with hzm | hzx
        · exact hzm
        · rw [List.mem_singleton.1 hzx] at hr
          exact absurd hr (Respects.before hresp hy)
      rcases ih (List.nodup_append.1 hnd).1 (hresp.sublist (List.sublist_append_left m [x]))
        (fun y hy => hacts y (by simp [hy])) hclosed' with ⟨p, hp, hcreate, honly, hact⟩
      have hxp : x ∉ p := by
        intro hin
        exact hxm (hact ▸ mem_actions.2 ⟨hin, hx.2.1, hx.2.2⟩)
      refine ⟨_, hord.reach hR hp hx.1 hxp, by simp [hcreate], ?_, ?_⟩
      · intro y hy
        rcases List.mem_append.1 hy with hy | hy
        · rcases List.mem_append.1 hy with hy | hy
          · rcases honly y hy with rfl | ⟨z, hz, hr⟩
            · exact Or.inl rfl
            · exact Or.inr ⟨z, by simp [hz], hr⟩
          · exact Or.inr ⟨x, by simp, Or.inr (mem_missing.1 hy).2.2⟩
        · exact Or.inr ⟨x, by simp, Or.inl (List.mem_singleton.1 hy)⟩
      · -- what is missing before `x` does not act on the device
        have hnone : actions live d (missing (Before evs) L p x) = [] := by
          refine actions_eq_nil ?_
          rintro y hy ⟨hlive, htgt⟩
          rcases mem_missing.1 hy with ⟨hyL, hyp, hr⟩
          have hyact : y ∈ acting evs live d := ⟨hord.perm.mem_iff.1 hyL, hlive, htgt⟩
          rcases List.mem_append.1 (hclosed x (by simp) y hyact hr) with hym | hyx
          · rw [← hact] at hym
            exact hyp (mem_actions.1 hym).1
          · rw [List.mem_singleton.1 hyx] at hr
            exact hord.irrefl hR.ids x hr
        rw [actions_append, actions_append, hact, hnone, actions_singleton hx.2, List.append_nil]

omit [Deserialize CreateRoomPayload] in
/-- Some causal order brings just the actions `m` on a device before `e`, in their order. -/
theorem exists_order (hR : RoomEvents roomId evs create) (hpar : create.parents = [])
    (hord : CausalOrder evs L) (he : e ∈ evs) (hne : e ≠ create) {d : DeviceId} {m : List SignedEvent}
    (hm : MayPrecede evs live d e m) (hem : e ∉ m) :
    ∃ l rest, CausalOrder evs (l ++ e :: rest) ∧ create ∈ l ∧ actions live d l = m := by
  rcases exists_initial hR hpar hord m hm.nodup hm.respects hm.acts hm.closed with
    ⟨p, hp, hcreate, honly, hact⟩
  have hep : e ∉ p := by
    intro hin
    rcases honly e hin with heq | ⟨y, hy, rfl | hr⟩
    · exact hne heq
    · exact hem hy
    · exact hm.notAfter y hy hr
  have hwhole := hord.completed hR (hord.reach hR hp he hep)
  unfold Extension.completed at hwhole
  rw [List.append_assoc (p ++ missing (Before evs) L p e), List.singleton_append] at hwhole
  refine ⟨_, _, hwhole, by simp [hcreate], ?_⟩
  have hnone : actions live d (missing (Before evs) L p e) = [] := by
    refine actions_eq_nil ?_
    rintro y hy ⟨hlive, htgt⟩
    rcases mem_missing.1 hy with ⟨hyL, hyp, hr⟩
    have hym := hm.ancestors y ⟨hord.perm.mem_iff.1 hyL, hlive, htgt⟩ hr
    rw [← hact] at hym
    exact hyp (mem_actions.1 hym).1
  rw [actions_append, hact, hnone, List.append_nil]

end Orders

/-! ## An order for each fate -/

section Realised

/-- Before the `CreateRoom` come only events that are to stay out, and after it none of those that could. -/
def Comes (evs : List SignedEvent) (create : SignedEvent) (live : Set SignedEvent) (L : List SignedEvent) : Prop :=
  ∃ l₀ l₁, L = l₀ ++ create :: l₁ ∧ (∀ x ∈ l₀, x ∉ live) ∧ ∀ x ∈ l₁, Bears evs x → x ∉ live → x.parents ≠ []

omit [Deserialize CreateRoomPayload] [Deserialize MembershipPayload] in
theorem CausalOrder.exists_comes (hR : RoomEvents roomId evs create) (hpar : create.parents = [])
    (hord : CausalOrder evs L) (hlive : create ∈ live) : ∃ L', CausalOrder evs L' ∧ Comes evs create live L' := by
  classical
  let first : List SignedEvent := L.filter fun x => x ∉ live ∧ x.parents = []
  have hfirst : ∀ {x}, x ∈ first ↔ x ∈ L ∧ x ∉ live ∧ x.parents = [] := by
    simp [first]
  have hnopar : ∀ x ∈ first ++ [create], x ∈ evs ∧ x.parents = [] := by
    intro x hx
    rcases List.mem_append.1 hx with hx | hx
    · exact ⟨hord.perm.mem_iff.1 (hfirst.1 hx).1, (hfirst.1 hx).2.2⟩
    · rw [List.mem_singleton.1 hx]
      exact ⟨hR.create_mem, hpar⟩
  have hinitial : Initial (Before evs) L (first ++ [create]) := by
    refine ⟨?_, fun x hx => hord.perm.mem_iff.2 (hnopar x hx).1, ?_, ?_⟩
    · have hnd : first.Nodup := (hord.perm.nodup_iff.2 hR.nodup).filter _
      refine List.nodup_append.2 ⟨hnd, by simp, ?_⟩
      intro x hx y hy hEq
      rw [List.mem_singleton.1 hy] at hEq
      exact (hfirst.1 hx).2.1 (hEq ▸ hlive)
    · intro x hx y _ hr
      exact absurd hr (hR.not_before (hnopar x hx).1 (hnopar x hx).2)
    · refine List.Pairwise.imp_of_mem ?_ (List.pairwise_of_forall (R := fun _ _ => True) fun _ _ => trivial)
      intro x y hx _ _ hr
      exact hR.not_before (hnopar x hx).1 (hnopar x hx).2 hr
  refine ⟨_, hord.completed hR hinitial, first, L.filter fun y => y ∉ first ++ [create], ?_,
    fun x hx => (hfirst.1 hx).2.1, ?_⟩
  · simp [Extension.completed]
  · intro x hx _ hout hnone
    have hx' := List.mem_filter.1 hx
    have hnot : x ∉ first ++ [create] := by
      simpa using hx'.2
    exact hnot (List.mem_append_left _ (hfirst.2 ⟨hx'.1, hout, hnone⟩))

omit [Primitives] [Deserialize CreateRoomPayload] [Deserialize MembershipPayload] in
/-- Which side of the `CreateRoom` an event is on. -/
theorem Comes.sides {p rest : List SignedEvent} (h : Comes evs create live (p ++ e :: rest)) (hcreate : create ∈ live)
    (hne : e ≠ create) : (create ∉ p → e ∉ live) ∧ (create ∈ p → Bears evs e → e ∉ live → e.parents ≠ []) := by
  rcases h with ⟨l₀, l₁, heq, hbefore, hafter⟩
  have hno : create ∉ l₀ := fun hin => hbefore create hin hcreate
  rcases List.append_eq_append_iff.1 heq with ⟨m, hl₀, hm⟩ | ⟨m, hp, hm⟩
  · -- `p` ends before the `CreateRoom`
    have hp : create ∉ p := fun hin => hno (by simp [hl₀, hin])
    refine ⟨fun _ => ?_, fun hin => absurd hin hp⟩
    rcases List.cons_eq_append_iff.1 hm with ⟨_, hcons⟩ | ⟨m', rfl, _⟩
    · exact absurd (List.cons.inj hcons).1.symm hne
    · exact hbefore e (by simp [hl₀])
  · rcases List.cons_eq_append_iff.1 hm with ⟨_, hcons⟩ | ⟨m', rfl, hl₁⟩
    · exact absurd (List.cons.inj hcons).1 hne
    · refine ⟨fun hin => absurd (by simp [hp]) hin, fun _ => hafter e (by simp [hl₁])⟩

/-- In an order made for a fate that leaves no author open, the events that enter the DAG are those it lets in. -/
theorem Fate.folded (hR : RoomEvents roomId evs create)
    (hdec : Deserialize.fromSlice create.payload = some payload) (hpar : create.parents = [])
    (h : Fate evs create payload.creator l) (hknown : AuthorsKnown evs create payload.creator l)
    (hord : CausalOrder evs L) (hcomes : Comes evs create {x | x ∈ l} L) :
    ∀ p rest, L = p ++ rest → Folded roomId evs create payload.creator {e | Bears evs e} {x | x ∈ l} p
      (RoomRegistry.new.applyAll p) := by
  refine applyAll_folded hR (relevant_bears evs) hdec rfl hpar hord ?_
  rintro p e rest rfl hfold he
  have hn := hord.next hR
  by_cases hne : e = create
  · subst hne
    exact iff_of_true (enters_create hR hdec hpar (hfold.notYet hn.fresh).1) h.letIn.create_mem
  have hb : Bears evs e := he.resolve_left hne
  rcases hcomes.sides h.letIn.create_mem hne with ⟨hearly, hlate⟩
  by_cases hin : create ∈ p
  swap
  · exact iff_of_false (applyEvent_early hR hn.mem hne (hfold.notYet hin).1).2 (hearly hin)
  rw [hfold.enters_iff hR (relevant_bears evs) hn hne hb hin]
  have hmay : MayPrecede evs {x | x ∈ l} e.authorDevice e (actions {x | x ∈ l} e.authorDevice p) := hn.mayPrecede _
  constructor
  · rintro ⟨hps, hread, hjoined⟩
    by_contra hout
    cases h.out e hn.mem hb hout with
    | early hnone => exact hlate hin hb hout hnone
    | orphan hno => exact hno hps
    | unread hm hno =>
        rcases hread hm with ⟨payload', hp⟩
        rw [hno] at hp
        cases hp
    | away hm hmay' hno => exact hknown e hn.mem hne hm hb hps ⟨_, _, hmay, hmay', hjoined hm, hno⟩
  · intro hlet
    rcases (h.letIn.entry e hlet).resolve_left hne with ⟨before, hbefore, hsub, _, henter⟩
    have hps : ParentsLive evs {x | x ∈ l} e := henter.parents.mono hsub
    refine ⟨hps, henter.readable, fun hm => ?_⟩
    by_contra hno
    rcases henter.joined hm with ⟨m, hm', hjoined⟩
    exact hknown e hn.mem hne hm hb hps
      ⟨_, _, hbefore.mayPrecede hR hpar hn.mem henter.parents hsub hm', hmay, hjoined, hno⟩

/-- One member table in all causal orders needs settled actions, and one state for each device. -/
theorem Fate.settlesTo (hR : RoomEvents roomId evs create)
    (hdec : Deserialize.fromSlice create.payload = some payload) (hpar : create.parents = [])
    (h : Fate evs create payload.creator l) (hknown : AuthorsKnown evs create payload.creator l)
    (hord : CausalOrder evs L) (hind : ArrivalIndependent roomId evs) (d : DeviceId) :
    SettlesTo actionOf (Before evs) (initial payload.creator d) (acting evs {x | x ∈ l} d)
      ((RoomRegistry.new.applyAll L).memberState roomId d) := by
  classical
  have hcreate : create ∈ {x | x ∈ l} := h.letIn.create_mem
  rcases hord.exists_comes hR hpar hcreate with ⟨L', hord', hcomes⟩
  have hstate : ∀ {M}, CausalOrder evs M → Comes evs create {x | x ∈ l} M →
      foldActions (initial payload.creator d) ((actions {x | x ∈ l} d M).map actionOf) =
        (RoomRegistry.new.applyAll L).memberState roomId d := by
    intro M hM hc
    rw [← (h.folded hR hdec hpar hknown hM hc M [] (by simp)).memberState (hM.perm.mem_iff.2 hR.create_mem)]
    exact hind _ _ hM hord d
  rw [← hstate hord' hcomes]
  refine Settled.settlesTo ?_ (hord'.orders hR d) (hord.irrefl hR.ids) (initial_ne_banned payload.creator d)
  refine settled_of_agree (s := (RoomRegistry.new.applyAll L).memberState roomId d)
    (initial_ne_banned payload.creator d) Before.trans (hord.irrefl hR.ids) ?_
  intro e he
  -- put `e` last, after the `CreateRoom`
  rcases hcomes with ⟨l₀, l₁, rfl, hbefore, hafter⟩
  have hne : e ≠ create := by
    rintro rfl
    have hk := he.2.2.kind
    rw [hR.create_kind] at hk
    cases hk
  have hel₁ : e ∈ l₁ := by
    have hin := hord'.perm.mem_iff.2 he.1
    rcases List.mem_append.1 hin with hin | hin
    · exact absurd he.2.1 (hbefore e hin)
    · exact (List.mem_cons.1 hin).resolve_left hne
  rcases List.append_of_mem hel₁ with ⟨u, v, rfl⟩
  have hsame : l₀ ++ create :: (u ++ e :: v) = (l₀ ++ create :: u) ++ e :: v := by
    simp
  rw [hsame] at hord'
  have hlast := hord'.postponed hR
  have hcomes' : Comes evs create {x | x ∈ l} (Respects.postponed (Before evs) (l₀ ++ create :: u) e v) := by
    refine ⟨l₀, u ++ (v.filter fun y => ¬ Before evs e y) ++ e :: v.filter fun y => Before evs e y, ?_, hbefore, ?_⟩
    · simp [Respects.postponed]
    · intro x hx
      refine hafter x ?_
      simp only [List.mem_append, List.mem_cons, List.mem_filter] at hx ⊢
      tauto
  -- its actions: `e`, and after it only what descends from it
  have hsplit : actions {x | x ∈ l} d (Respects.postponed (Before evs) (l₀ ++ create :: u) e v) =
      actions {x | x ∈ l} d (l₀ ++ create :: u ++ v.filter fun y => ¬ Before evs e y) ++
        e :: actions {x | x ∈ l} d (v.filter fun y => Before evs e y) := by
    have hcons : ∀ m, actions {x | x ∈ l} d (e :: m) = e :: actions {x | x ∈ l} d m := by
      intro m
      rw [← List.singleton_append, actions_append, actions_singleton ⟨he.2.1, he.2.2⟩]
      rfl
    rw [Respects.postponed, actions_append, hcons]
  have horders : Orders (Before evs) (acting evs {x | x ∈ l} d)
      (actions {x | x ∈ l} d (Respects.postponed (Before evs) (l₀ ++ create :: u) e v)) := hlast.orders hR d
  have hfold := hstate hlast hcomes'
  rw [hsplit] at horders hfold
  refine ⟨_, _, horders, ?_, hfold⟩
  intro y hy
  have hy' := (List.mem_filter.1 (mem_actions.1 hy).1).2
  simpa using hy'

end Realised

/-! ## Events that enter alike -/

namespace EntersAlike

theorem folded (h : EntersAlike evs) (hR : RoomEvents roomId evs create)
    (hdec : Deserialize.fromSlice create.payload = some payload) (hpar : create.parents = [])
    (hord : CausalOrder evs L) {L' : List SignedEvent} (hord' : CausalOrder evs L') :
    ∀ l rest, L' = l ++ rest → Folded roomId evs create payload.creator {e | Bears evs e} {e | EntersIn L e} l
      (RoomRegistry.new.applyAll l) := by
  refine applyAll_folded hR (relevant_bears evs) hdec rfl hpar hord' ?_
  rintro l e rest rfl _ he
  rw [← entersIn_iff (hord'.perm.nodup_iff.2 hR.nodup)]
  rcases he with rfl | hb
  · exact iff_of_true (entersIn_create hR hdec hpar hord') (entersIn_create hR hdec hpar hord)
  · exact h _ _ hord' hord e (hord'.perm.mem_iff.1 (by simp)) hb

/-- Some order brings just the actions `m` on its author before the event, so they decide in all orders. -/
theorem entersIn_iff_of_mayPrecede (h : EntersAlike evs) (hR : RoomEvents roomId evs create)
    (hdec : Deserialize.fromSlice create.payload = some payload) (hpar : create.parents = [])
    (hord : CausalOrder evs L) (he : e ∈ evs) (hne : e ≠ create) (hb : Bears evs e) {m : List SignedEvent}
    (hm : MayPrecede evs {e | EntersIn L e} e.authorDevice e m) (hem : e ∉ m) :
    EntersIn L e ↔ ParentsLive evs {e | EntersIn L e} e ∧
      (e.kind = .membership → ∃ payload, payloadOf e = some payload) ∧
      (e.kind ≠ .membership → foldActions (initial payload.creator e.authorDevice) (m.map actionOf) =
        some .joined) := by
  rcases exists_order hR hpar hord he hne hm hem with ⟨l, rest, hord', hin, hact⟩
  have hn := hord'.next hR
  rw [h _ _ hord hord' e he hb, entersIn_iff (hord'.perm.nodup_iff.2 hR.nodup),
    (h.folded hR hdec hpar hord hord' l (e :: rest) rfl).enters_iff hR (relevant_bears evs) hn hne hb hin, hact]

/-- What may enter does. -/
theorem letIn (h : EntersAlike evs) (hR : RoomEvents roomId evs create)
    (hdec : Deserialize.fromSlice create.payload = some payload) (hpar : create.parents = [])
    (hord : CausalOrder evs L) (hlet : LetIn evs create payload.creator l) : ∀ x ∈ l, EntersIn L x := by
  induction hlet with
  | create =>
      intro x hx
      rw [List.mem_singleton.1 hx]
      exact entersIn_create hR hdec hpar hord
  | @next l e hl he hel hb hmay ih =>
      have hne : e ≠ create := by
        rintro rfl
        exact hel hl.create_mem
      intro x hx
      rcases List.mem_append.1 hx with hx | hx
      · exact ih x hx
      rw [List.mem_singleton.1 hx]
      have hps : ParentsLive evs {e | EntersIn L e} e := hmay.parents.mono ih
      by_cases hm : e.kind = .membership
      · -- the actions that precede it in `L` will do
        rcases List.append_of_mem (hord.perm.mem_iff.2 he) with ⟨p, rest, hL⟩
        have hn : Next evs p e := CausalOrder.next hR (hL ▸ hord)
        refine (h.entersIn_iff_of_mayPrecede hR hdec hpar hord he hne hb (hn.mayPrecede e.authorDevice)
          fun hin => hn.fresh (mem_actions.1 hin).1).2 ⟨hps, hmay.readable, fun hno => absurd hm hno⟩
      · rcases hmay.joined hm with ⟨m, hm', hjoined⟩
        have hem : e ∉ m := fun hin => hm (hm'.acts e hin).2.2.kind
        exact (h.entersIn_iff_of_mayPrecede hR hdec hpar hord he hne hb
          (hl.mayPrecede hR hpar he hmay.parents ih hm') hem).2 ⟨hps, fun hno => absurd hno hm, fun _ => hjoined⟩

theorem authorsKnown (h : EntersAlike evs) (hR : RoomEvents roomId evs create)
    (hdec : Deserialize.fromSlice create.payload = some payload) (hpar : create.parents = [])
    (hord : CausalOrder evs L) (hlet : LetIn evs create payload.creator l) :
    AuthorsKnown evs create payload.creator l := by
  rintro e he hne hm hb hps ⟨m, m', hm', hm'', hjoined, hno⟩
  have hsub := h.letIn hR hdec hpar hord hlet
  have hiff : ∀ {n}, MayPrecede evs {x | x ∈ l} e.authorDevice e n → (EntersIn L e ↔ _) := fun hn =>
    h.entersIn_iff_of_mayPrecede hR hdec hpar hord he hne hb (hlet.mayPrecede hR hpar he hps hsub hn)
      fun hin => hm (hn.acts e hin).2.2.kind
  have hin : EntersIn L e := (hiff hm').2 ⟨hps.mono hsub, fun hk => absurd hk hm, fun _ => hjoined⟩
  exact hno (((hiff hm'').1 hin).2.2 hm)

end EntersAlike

/-! ## Rooms that are never made -/

/-- A `CreateRoom` that cannot be read, or names parents, never makes a room. -/
theorem applyAll_dead (hR : RoomEvents roomId evs create)
    (hdead : create.parents ≠ [] ∨
      (Deserialize.fromSlice create.payload : Option CreateRoomPayload) = none) (l : List SignedEvent) :
    (∀ e ∈ l, e ∈ evs) → (RoomRegistry.new.applyAll l).get roomId = none := by
  induction l using List.reverseRecOn with
  | nil =>
      intro _
      simp [applyAll, RoomRegistry.new, get]
  | append_singleton l e ih =>
      intro hsub
      have he : e ∈ evs := hsub e (by simp)
      have hnone := ih fun x hx => hsub x (by simp [hx])
      have hrun : RoomRegistry.new.applyAll (l ++ [e]) = ((RoomRegistry.new.applyAll l).applyEvent e).2 := by
        simp [applyAll]
      rw [hrun]
      -- neither the creation nor anything after it is taken
      by_cases hne : e = create
      · subst hne
        rw [applyEvent_create (hR.verified e he) hR.create_kind,
          applyCreate_dead (hR.verified e he) (by rw [hR.inRoom e he]; exact hnone) hdead]
        exact hnone
      · rw [(applyEvent_early hR he hne hnone).1]
        exact hnone

theorem arrivalIndependent_of_dead (hR : RoomEvents roomId evs create)
    (hdead : create.parents ≠ [] ∨
      (Deserialize.fromSlice create.payload : Option CreateRoomPayload) = none) :
    ArrivalIndependent roomId evs := by
  intro l l' hord hord' d
  rw [memberState, memberState, applyAll_dead hR hdead l fun e he => hord.perm.mem_iff.1 he,
    applyAll_dead hR hdead l' fun e he => hord'.perm.mem_iff.1 he]

/-- What keeps membership independent of arrival: no room is made at all, or, whatever is let in, the actions on each
device are settled, and always to the same state. -/
def ArrivalStable (evs : List SignedEvent) (create : SignedEvent) : Prop :=
  (create.parents ≠ [] ∨
    (Deserialize.fromSlice create.payload : Option CreateRoomPayload) = none) ∨
  ∃ (payload : CreateRoomPayload) (table : DeviceId → Option MemberState),
    Deserialize.fromSlice create.payload = some payload ∧ create.parents = [] ∧
      ∀ l, Fate evs create payload.creator l → ∀ d,
        SettlesTo actionOf (Before evs) (initial payload.creator d) (acting evs {x | x ∈ l} d) (table d)

/-- In some fate it hangs on the order whether the author of a message that membership rests on is joined. -/
def AuthorOpen (evs : List SignedEvent) (create : SignedEvent) : Prop :=
  ∃ payload : CreateRoomPayload, Deserialize.fromSlice create.payload = some payload ∧
    ∃ l, Fate evs create payload.creator l ∧ ¬ AuthorsKnown evs create payload.creator l

theorem ArrivalStable.independent (hR : RoomEvents roomId evs create) (h : ArrivalStable evs create) :
    ArrivalIndependent roomId evs := by
  rcases h with hdead | ⟨payload, table, hdec, hpar, hset⟩
  · exact arrivalIndependent_of_dead hR hdead
  have hstate : ∀ {L}, CausalOrder evs L → ∀ d, (RoomRegistry.new.applyAll L).memberState roomId d = table d := by
    intro L hord d
    rw [(folded_entering hR hdec hpar hord L [] (by simp)).memberState (hord.perm.mem_iff.2 hR.create_mem)]
    exact (hset _ (fate_entering hR hdec hpar hord) d).fold_eq (hord.orders hR d) (hord.irrefl hR.ids)
      (initial_ne_banned payload.creator d)
  intro l l' hord hord' d
  rw [hstate hord, hstate hord']

/-- The condition is enough for one member table in all causal orders.  It is needed as well, unless a message that
membership rests on may or may not find its author joined, and an event enters the DAG in one order and not in
another. -/
theorem arrivalIndependent_stable (hR : RoomEvents roomId evs create) (hord : CausalOrder evs L) :
    (ArrivalStable evs create → ArrivalIndependent roomId evs) ∧
    (ArrivalIndependent roomId evs →
      ArrivalStable evs create ∨ (AuthorOpen evs create ∧ ¬ EntersAlike evs)) := by
  refine ⟨fun h => h.independent hR, fun hind => ?_⟩
  cases hdec : (Deserialize.fromSlice create.payload : Option CreateRoomPayload) with
  | none => exact Or.inl (Or.inl (Or.inr hdec))
  | some payload =>
      by_cases hpar : create.parents = []
      swap
      · exact Or.inl (Or.inl (Or.inl hpar))
      by_cases hopen : AuthorOpen evs create
      · refine Or.inr ⟨hopen, fun halike => ?_⟩
        rcases hopen with ⟨payload', hdec', l, hfate, hunknown⟩
        cases hdec.symm.trans hdec'
        exact hunknown (halike.authorsKnown hR hdec hpar hord hfate.letIn)
      · refine Or.inl (Or.inr ⟨payload, (RoomRegistry.new.applyAll L).memberState roomId, hdec, hpar, ?_⟩)
        intro l hfate
        refine hfate.settlesTo hR hdec hpar ?_ hord hind
        by_contra hunknown
        exact hopen ⟨payload, hdec, l, hfate, hunknown⟩

end Stable

/-! ## A leave and a ban cross -/

section Example

open Checksum

attribute [local instance] Checksum.primitives createReader membershipReader

/-- The ids of the four events differ. -/
theorem crossing_ids : ([createPond, invite, leave, ban].map SignedEvent.id).Nodup := by
  decide +kernel

theorem crossing_roomEvents : RoomEvents (room 1) [createPond, invite, leave, ban] createPond := by
  refine ⟨List.Nodup.of_map _ crossing_ids, ?_, ?_, ?_, by simp, rfl, ?_⟩
  · intro e he
    simp only [List.mem_cons, List.not_mem_nil, or_false] at he
    rcases he with rfl | rfl | rfl | rfl <;> exact event_verified _ _ _ _ _ _
  · intro e he
    simp only [List.mem_cons, List.not_mem_nil, or_false] at he
    rcases he with rfl | rfl | rfl | rfl <;> rfl
  · intro e he e' he' hid
    exact List.inj_on_of_nodup_map crossing_ids he he' hid
  · intro e he hk
    simp only [List.mem_cons, List.not_mem_nil, or_false] at he
    rcases he with rfl | rfl | rfl | rfl
    · rfl
    · cases hk
    · cases hk
    · cases hk

/-- The invited device leaves while the creator bans it: the order decides whether it can come
back. -/
theorem apply_order_matters :
    ¬ ∀ (roomId : RoomId) (evs : List SignedEvent) (create : SignedEvent),
      RoomEvents roomId evs create → ArrivalIndependent roomId evs := by
  intro h
  have hids := crossing_ids
  simp only [List.map_cons, List.map_nil, List.nodup_cons, List.mem_cons, List.not_mem_nil, or_false,
    not_or, not_false_eq_true, List.nodup_nil, and_true] at hids
  rcases hids with ⟨⟨hci, hcl, hcb⟩, ⟨hil, hib⟩, hlb⟩
  have hc : createPond.parents = [] := rfl
  have hi : invite.parents = [createPond.id] := rfl
  have hl : leave.parents = [invite.id] := rfl
  have hb : ban.parents = [invite.id] := rfl
  have hself : ∀ x ∈ [createPond, invite, leave, ban], x.id ∉ x.parents := by
    simp [hc, hi, hl, hb, Ne.symm hci, Ne.symm hil, Ne.symm hib]
  have hfirst : CausalOrder [createPond, invite, leave, ban] [createPond, invite, leave, ban] := by
    refine CausalOrder.of_respects (List.Perm.refl _) hself ?_
    simp [Respects, hc, hi, hl, Ne.symm hcl, Ne.symm hcb, Ne.symm hib]
  have hsecond : CausalOrder [createPond, invite, leave, ban] [createPond, invite, ban, leave] := by
    refine CausalOrder.of_respects (((List.Perm.swap leave ban []).cons invite).cons createPond)
      hself ?_
    simp [Respects, hc, hi, hb, Ne.symm hcl, Ne.symm hcb, Ne.symm hil]
  have hends : (RoomRegistry.new.applyAll [createPond, invite, leave, ban]).memberState (room 1)
      (device 2) = some .banned ∧
      (RoomRegistry.new.applyAll [createPond, invite, ban, leave]).memberState (room 1) (device 2) =
        some .left := by
    decide +kernel
  rcases hends with ⟨hbanned, hleft⟩
  have hsame := h (room 1) _ createPond crossing_roomEvents _ _ hfirst hsecond (device 2)
  rw [hbanned, hleft] at hsame
  cases hsame

/-- A room with one invitation is stable. -/
theorem arrivalIndependent_stable_invite : ArrivalIndependent (room 1) [createPond, invite] := by
  have hne : createPond.id ≠ invite.id := by
    have hids := crossing_ids
    simp only [List.map_cons, List.nodup_cons, List.mem_cons, not_or] at hids
    exact hids.1.1
  have hmem : ∀ e ∈ [createPond, invite], e = createPond ∨ e = invite := by
    simp
  have hR : RoomEvents (room 1) [createPond, invite] createPond := by
    have hsub : ∀ e ∈ [createPond, invite], e ∈ [createPond, invite, leave, ban] := by
      simp
    refine ⟨?_, fun e he => crossing_roomEvents.verified e (hsub e he),
      fun e he => crossing_roomEvents.inRoom e (hsub e he),
      fun e he e' he' => crossing_roomEvents.ids e (hsub e he) e' (hsub e' he'), by simp, rfl,
      fun e he => crossing_roomEvents.create_one e (hsub e he)⟩
    refine List.Nodup.of_map SignedEvent.id ?_
    simpa using hne
  have hi : invite.parents = [createPond.id] := rfl
  have hpay : payloadOf invite = some invitation := read_invite
  have hord : CausalOrder [createPond, invite] [createPond, invite] := by
    have hc : createPond.parents = [] := rfl
    refine CausalOrder.of_respects (List.Perm.refl _) ?_ ?_
    · simp [hc, hi, hne.symm]
    · simp [Respects, hc]
  have hread : Deserialize.fromSlice createPond.payload = some pond := by
    decide +kernel
  have honly : ∀ {live d}, ∀ x ∈ acting [createPond, invite] live d, x = invite ∧ d = device 2 := by
    rintro live d x ⟨hx, _, payload, hp, rfl⟩
    rcases hmem x hx with rfl | rfl
    · simp [payloadOf, show createPond.kind = .createRoom from rfl] at hp
    · rw [hpay] at hp
      cases hp
      exact ⟨rfl, rfl⟩
  refine (arrivalIndependent_stable hR hord).1 (Or.inr ⟨pond,
    fun d => if d = device 2 then some .invited else initial pond.creator d, hread, rfl, ?_⟩)
  intro l hfate d
  dsimp only
  -- the invitation cannot stay out
  have hin : invite ∈ l := by
    by_contra hout
    have hb : Bears [createPond, invite] invite := ⟨invite, by simp, rfl, Or.inl rfl⟩
    cases hfate.out invite (by simp) hb hout with
    | early hnone =>
        rw [hi] at hnone
        cases hnone
    | orphan hno =>
        refine hno fun p hp => ⟨createPond, by simp, ?_, hfate.letIn.create_mem⟩
        rw [hi] at hp
        exact (List.mem_singleton.1 hp).symm
    | unread _ hno =>
        rw [hpay] at hno
        cases hno
    | away hm => exact hm rfl
  by_cases hd : d = device 2
  · have hlast : SettlesTo actionOf (Before [createPond, invite]) (initial pond.creator d)
        (acting [createPond, invite] {x | x ∈ l} d) (some (actionOf invite).result) := by
      refine .last ⟨?_, ?_⟩ ⟨by simp, hin, invitation, hpay, hd.symm⟩ ?_
      · intro x hx hban
        rw [(honly x hx).1] at hban
        simp [actionOf, hpay, invitation] at hban
      · intro x hx y hy _ _
        rw [(honly x hx).1, (honly y hy).1]
      · intro y hy hr
        rw [(honly y hy).1] at hr
        exact hord.irrefl hR.ids invite hr
    have hinvited : (actionOf invite).result = .invited := by
      simp [actionOf, hpay, invitation, MembershipAction.result]
    rw [if_pos hd, ← hinvited]
    exact hlast
  · rw [if_neg hd]
    exact .untouched (Set.eq_empty_iff_forall_notMem.2 fun x hx => hd (honly x hx).2)

end Example

end RoomRegistry
end Event
end Thunderducks
