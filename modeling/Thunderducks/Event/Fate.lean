import Thunderducks.Event.Arrival

/-!
# Fate — which events of a room may enter its DAG

Which events enter may itself hang on the order in which they come: an event without parents may come before its
`CreateRoom`, and a message before its author has joined, or after it has left.  `Fate` asks of each event alone
what lets it in and what may keep it out, and what enters in a causal order is one of the fates (`fate_entering`).
-/

namespace Thunderducks
namespace Event
namespace RoomRegistry

open Lib Extension

section Fate

variable [Primitives] [Deserialize CreateRoomPayload] [Deserialize MembershipPayload]

/-! ## What may enter, and what may stay out -/

omit [Primitives] [Deserialize CreateRoomPayload] in
/-- An order in which the live actions on `d` may come before `e`: it has all those that `e` descends from and
none that descends from `e`, and with each action those that it descends from. -/
structure MayPrecede (evs : List SignedEvent) (live : Set SignedEvent) (d : DeviceId) (e : SignedEvent)
    (l : List SignedEvent) : Prop where
  nodup : l.Nodup
  respects : Respects (Before evs) l
  acts : ∀ x ∈ l, x ∈ acting evs live d
  notAfter : ∀ x ∈ l, ¬ Before evs e x
  ancestors : ∀ x ∈ acting evs live d, Before evs x e → x ∈ l
  closed : ∀ x ∈ l, ∀ y ∈ acting evs live d, Before evs y x → y ∈ l

omit [Primitives] [Deserialize CreateRoomPayload] in
/-- `e` may enter the DAG after the events `live`: its parents are among them, it can be read, and, if it is no
membership event, its author may be joined. -/
structure MayEnter (evs : List SignedEvent) (creator : DeviceId) (live : Set SignedEvent) (e : SignedEvent) :
    Prop where
  parents : ParentsLive evs live e
  readable : e.kind = .membership → ∃ payload, payloadOf e = some payload
  joined : e.kind ≠ .membership → ∃ l, MayPrecede evs live e.authorDevice e l ∧
    foldActions (initial creator e.authorDevice) (l.map actionOf) = some .joined

omit [Primitives] [Deserialize CreateRoomPayload] in
/-- `e` may stay out if just `live` enter: it may come before the `CreateRoom`, lacks a parent, cannot be read, or
its author may not be joined. -/
inductive MayStayOut (evs : List SignedEvent) (creator : DeviceId) (live : Set SignedEvent) (e : SignedEvent) :
    Prop
  | early (hpar : e.parents = [])
  | orphan (hps : ¬ ParentsLive evs live e)
  | unread (hm : e.kind = .membership) (hno : payloadOf e = none)
  | away (hm : e.kind ≠ .membership) {l : List SignedEvent} (hmay : MayPrecede evs live e.authorDevice e l)
      (hno : foldActions (initial creator e.authorDevice) (l.map actionOf) ≠ some .joined)

omit [Primitives] [Deserialize CreateRoomPayload] in
/-- The events of `l` may enter one by one, of those that membership rests on. -/
inductive LetIn (evs : List SignedEvent) (create : SignedEvent) (creator : DeviceId) : List SignedEvent → Prop
  | create : LetIn evs create creator [create]
  | next {l : List SignedEvent} {e : SignedEvent} : LetIn evs create creator l → e ∈ evs → e ∉ l → Bears evs e →
      MayEnter evs creator {x | x ∈ l} e → LetIn evs create creator (l ++ [e])

omit [Primitives] [Deserialize CreateRoomPayload] in
/-- The events of `l` may enter, and the others stay out, of those that membership rests on. -/
structure Fate (evs : List SignedEvent) (create : SignedEvent) (creator : DeviceId) (l : List SignedEvent) : Prop where
  letIn : LetIn evs create creator l
  out : ∀ e ∈ evs, Bears evs e → e ∉ l → MayStayOut evs creator {x | x ∈ l} e

omit [Primitives] [Deserialize CreateRoomPayload] in
/-- Some orders of the actions on its author that may come before `e` leave the author joined, and some do not. -/
def Open (evs : List SignedEvent) (creator : DeviceId) (live : Set SignedEvent) (e : SignedEvent) : Prop :=
  ∃ l l', MayPrecede evs live e.authorDevice e l ∧ MayPrecede evs live e.authorDevice e l' ∧
    foldActions (initial creator e.authorDevice) (l.map actionOf) = some .joined ∧
    foldActions (initial creator e.authorDevice) (l'.map actionOf) ≠ some .joined

omit [Primitives] [Deserialize CreateRoomPayload] in
/-- Whether the author of a message is joined when it comes does not hang on the order. -/
def AuthorsKnown (evs : List SignedEvent) (create : SignedEvent) (creator : DeviceId) (l : List SignedEvent) : Prop :=
  ∀ e ∈ evs, e ≠ create → e.kind ≠ .membership → Bears evs e → ParentsLive evs {x | x ∈ l} e →
    ¬ Open evs creator {x | x ∈ l} e

variable {roomId : RoomId} {evs : List SignedEvent} {create : SignedEvent} {creator : DeviceId}
  {live : Set SignedEvent} {payload : CreateRoomPayload} {l : List SignedEvent} {e : SignedEvent}

omit [Primitives] [Deserialize CreateRoomPayload] in
/-- What has come before `e` in an order may precede it. -/
theorem Next.mayPrecede {l : List SignedEvent} {e : SignedEvent} (hn : Next evs l e) (d : DeviceId) :
    MayPrecede evs live d e (actions live d l) := by
  have hsub : (actions live d l).Sublist l := List.filter_sublist
  refine ⟨hn.nodup.sublist hsub, hn.respects.sublist hsub, ?_, fun x hx => hn.after x (hsub.subset hx), ?_, ?_⟩
  · intro x hx
    rcases mem_actions.1 hx with ⟨hxl, hlive, htgt⟩
    exact ⟨hn.sub x hxl, hlive, htgt⟩
  · rintro x ⟨hx, hlive, htgt⟩ hr
    exact mem_actions.2 ⟨hn.before x hx hr, hlive, htgt⟩
  · rintro x hx y ⟨hy, hlive, htgt⟩ hr
    exact mem_actions.2 ⟨hn.closed x (hsub.subset hx) y hy hr, hlive, htgt⟩

omit [Primitives] [Deserialize CreateRoomPayload] [Deserialize MembershipPayload] in
theorem ParentsLive.mono {live' : Set SignedEvent} (h : ParentsLive evs live e) (hsub : live ⊆ live') :
    ParentsLive evs live' e := by
  intro p hp
  rcases h p hp with ⟨y, hy, hid, hlive⟩
  exact ⟨y, hy, hid, hsub hlive⟩

omit [Primitives] [Deserialize CreateRoomPayload] [Deserialize MembershipPayload] in
/-- Where all have their parents, all have their ancestors. -/
theorem ParentsLive.ancestors (hids : IdsIdentify {e | e ∈ evs}) (hsub : ∀ x ∈ live, x ∈ evs)
    (hall : ∀ x ∈ live, ParentsLive evs live x) (he : e ∈ evs) (h : ParentsLive evs live e) {y : SignedEvent}
    (hy : y ∈ evs) (hr : Before evs y e) : y ∈ live := by
  have key : ∀ {i p}, Causal.Ancestor SignedEvent.id SignedEvent.parents {e | e ∈ evs} i p → i = e.id →
      ∃ x ∈ live, x.id = p := by
    intro i p ha
    induction ha with
    | single hstep =>
        rintro rfl
        rcases hstep with ⟨z, hz, hid, hp⟩
        have hEq : z = e := hids z hz e he hid
        rcases h _ (hEq ▸ hp) with ⟨x, _, hxid, hx⟩
        exact ⟨x, hx, hxid⟩
    | tail _ hstep ih =>
        rintro rfl
        rcases ih rfl with ⟨x, hx, rfl⟩
        rcases hstep with ⟨z, hz, hid, hp⟩
        have hEq : z = x := hids z hz x (hsub x hx) hid
        rcases hall x hx _ (hEq ▸ hp) with ⟨w, _, hwid, hw⟩
        exact ⟨w, hw, hwid⟩
  rcases key hr rfl with ⟨x, hx, hid⟩
  exact hids x (hsub x hx) y hy hid ▸ hx

omit [Primitives] [Deserialize CreateRoomPayload] in
/-- An order of some of the actions is one of all, if those that come before it are there. -/
theorem MayPrecede.mono {live' : Set SignedEvent} {d : DeviceId} (h : MayPrecede evs live d e l)
    (hsub : live ⊆ live') (hanc : ∀ y ∈ evs, Before evs y e → y ∈ live)
    (hclosed : ∀ x ∈ live, ∀ y ∈ evs, Before evs y x → y ∈ live) : MayPrecede evs live' d e l := by
  refine ⟨h.nodup, h.respects, ?_, h.notAfter, ?_, ?_⟩
  · intro x hx
    rcases h.acts x hx with ⟨hxe, hlive, htgt⟩
    exact ⟨hxe, hsub hlive, htgt⟩
  · rintro x ⟨hx, _, htgt⟩ hr
    exact h.ancestors x ⟨hx, hanc x hx hr, htgt⟩ hr
  · rintro x hx y ⟨hy, _, htgt⟩ hr
    exact h.closed x hx y ⟨hy, hclosed x (h.acts x hx).2.1 y hy hr, htgt⟩ hr

namespace LetIn

omit [Primitives] [Deserialize CreateRoomPayload] in
theorem create_mem (h : LetIn evs create creator l) : create ∈ l := by
  induction h with
  | create => simp
  | next _ _ _ _ _ ih => simp [ih]

omit [Primitives] [Deserialize CreateRoomPayload] in
theorem sub (h : LetIn evs create creator l) (hcreate : create ∈ evs) : ∀ x ∈ l, x ∈ evs := by
  induction h with
  | create => simpa using hcreate
  | next _ he _ _ _ ih =>
      intro x hx
      rcases List.mem_append.1 hx with hx | hx
      · exact ih x hx
      · exact List.mem_singleton.1 hx ▸ he

omit [Primitives] [Deserialize CreateRoomPayload] in
/-- What was in when an event of the list entered. -/
theorem entry (h : LetIn evs create creator l) : ∀ x ∈ l, x = create ∨ ∃ before, LetIn evs create creator before ∧
    (∀ y ∈ before, y ∈ l) ∧ Bears evs x ∧ MayEnter evs creator {y | y ∈ before} x := by
  induction h with
  | create => simp
  | @next l e hl _ _ hb hmay ih =>
      intro x hx
      rcases List.mem_append.1 hx with hx | hx
      · refine (ih x hx).imp_right ?_
        rintro ⟨before, hletIn, hsub, hrest⟩
        exact ⟨before, hletIn, fun y hy => List.mem_append_left _ (hsub y hy), hrest⟩
      · rw [List.mem_singleton.1 hx]
        exact Or.inr ⟨l, hl, fun y hy => List.mem_append_left _ hy, hb, hmay⟩

omit [Primitives] [Deserialize CreateRoomPayload] in
theorem parentsLive (h : LetIn evs create creator l) (hpar : create.parents = []) :
    ∀ x ∈ l, ParentsLive evs {y | y ∈ l} x := by
  intro x hx
  rcases h.entry x hx with rfl | ⟨before, _, hsub, _, hmay⟩
  · intro p hp
    rw [hpar] at hp
    cases hp
  · exact hmay.parents.mono hsub

omit [Deserialize CreateRoomPayload] in
theorem closed (h : LetIn evs create creator l) (hR : RoomEvents roomId evs create) (hpar : create.parents = []) :
    ∀ x ∈ l, ∀ y ∈ evs, Before evs y x → y ∈ l := by
  intro x hx y hy hr
  exact (h.parentsLive hpar x hx).ancestors hR.ids (h.sub hR.create_mem) (h.parentsLive hpar)
    (h.sub hR.create_mem x hx) hy hr

omit [Deserialize CreateRoomPayload] in
/-- An order of the actions let in so far is one of all that are let in. -/
theorem mayPrecede (h : LetIn evs create creator l) (hR : RoomEvents roomId evs create) (hpar : create.parents = [])
    (he : e ∈ evs) (hps : ParentsLive evs {y | y ∈ l} e) {live' : Set SignedEvent} (hsub : ∀ y ∈ l, y ∈ live')
    {d : DeviceId} {m : List SignedEvent} (hm : MayPrecede evs {y | y ∈ l} d e m) : MayPrecede evs live' d e m :=
  hm.mono hsub
    (fun _ hy hr => hps.ancestors hR.ids (h.sub hR.create_mem) (h.parentsLive hpar) he hy hr) (h.closed hR hpar)

end LetIn

/-! ## The fate of an order -/

/-- The event enters the DAG of its room when the events come in the order `L`. -/
def EntersIn (L : List SignedEvent) (e : SignedEvent) : Prop :=
  ∃ l rest, L = l ++ e :: rest ∧ Enters (RoomRegistry.new.applyAll l) e

/-- An event that membership rests on enters the DAG in every causal order or in none. -/
def EntersAlike (evs : List SignedEvent) : Prop :=
  ∀ L L', CausalOrder evs L → CausalOrder evs L' → ∀ e ∈ evs, Bears evs e → (EntersIn L e ↔ EntersIn L' e)

theorem entersIn_iff {l rest : List SignedEvent} {e : SignedEvent} (hnd : (l ++ e :: rest).Nodup) :
    EntersIn (l ++ e :: rest) e ↔ Enters (RoomRegistry.new.applyAll l) e := by
  have hl : e ∉ l := fun he => List.disjoint_of_nodup_append hnd he (by simp)
  have hrest : e ∉ rest := (List.nodup_cons.1 (List.nodup_append.1 hnd).2.1).1
  constructor
  · rintro ⟨l', rest', hsplit, henters⟩
    rcases (List.append_cons_inj_of_notMem hl hrest).1 hsplit with ⟨hEq, _⟩
    exact hEq ▸ henters
  · intro henters
    exact ⟨l, rest, rfl, henters⟩

section Entering

variable {L : List SignedEvent}

/-- Without the `CreateRoom` there is no room. -/
theorem applyAll_noRoom (hR : RoomEvents roomId evs create) (l : List SignedEvent) :
    (∀ e ∈ l, e ∈ evs) → create ∉ l → (RoomRegistry.new.applyAll l).get roomId = none := by
  induction l using List.reverseRecOn with
  | nil =>
      intro _ _
      simp [applyAll, RoomRegistry.new, get]
  | append_singleton l e ih =>
      intro hsub hno
      have hnone := ih (fun x hx => hsub x (by simp [hx])) (fun hin => hno (by simp [hin]))
      have hne : e ≠ create := by
        rintro rfl
        exact hno (by simp)
      have hrun : RoomRegistry.new.applyAll (l ++ [e]) = ((RoomRegistry.new.applyAll l).applyEvent e).2 := by
        simp [applyAll]
      rw [hrun, (applyEvent_early hR (hsub e (by simp)) hne hnone).1]
      exact hnone

theorem entersIn_create (hR : RoomEvents roomId evs create)
    (hdec : Deserialize.fromSlice create.payload = some payload) (hpar : create.parents = [])
    (hord : CausalOrder evs L) : EntersIn L create := by
  rcases List.append_of_mem (hord.perm.mem_iff.2 hR.create_mem) with ⟨l, rest, rfl⟩
  have hn := hord.next hR
  exact ⟨l, rest, rfl, enters_create hR hdec hpar (applyAll_noRoom hR l hn.sub hn.fresh)⟩

open Classical in
/-- The events of `l`, of those that membership rests on, that enter the DAG in the order `L`. -/
noncomputable def entering (evs : List SignedEvent) (create : SignedEvent) (L l : List SignedEvent) :
    List SignedEvent :=
  l.filter fun e => EntersIn L e ∧ (e = create ∨ Bears evs e)

theorem mem_entering {l : List SignedEvent} :
    e ∈ entering evs create L l ↔ e ∈ l ∧ EntersIn L e ∧ (e = create ∨ Bears evs e) := by
  simp [entering]

theorem entering_append (p p' : List SignedEvent) :
    entering evs create L (p ++ p') = entering evs create L p ++ entering evs create L p' := by
  simp [entering]

theorem folded_entering (hR : RoomEvents roomId evs create)
    (hdec : Deserialize.fromSlice create.payload = some payload) (hpar : create.parents = [])
    (hord : CausalOrder evs L) :
    ∀ l rest, L = l ++ rest → Folded roomId evs create payload.creator {e | Bears evs e}
      {x | x ∈ entering evs create L L} l (RoomRegistry.new.applyAll l) := by
  refine applyAll_folded hR (relevant_bears evs) hdec rfl hpar hord ?_
  rintro l e rest rfl _ he
  rw [← entersIn_iff (hord.perm.nodup_iff.2 hR.nodup)]
  constructor
  · intro henters
    exact mem_entering.2 ⟨by simp, henters, he⟩
  · intro hin
    exact (mem_entering.1 hin).2.1

/-- What has entered before an event is what enters of what has come. -/
theorem actions_entering (d : DeviceId) {p rest : List SignedEvent} (hL : L = p ++ rest) :
    actions {x | x ∈ entering evs create L p} d p = actions {x | x ∈ entering evs create L L} d p := by
  refine List.filter_congr fun x hx => ?_
  have hiff : x ∈ entering evs create L p ↔ x ∈ entering evs create L L := by
    rw [mem_entering, mem_entering]
    simp [hL, hx]
  simp [hiff]

theorem letIn_entering (hR : RoomEvents roomId evs create)
    (hdec : Deserialize.fromSlice create.payload = some payload) (hpar : create.parents = [])
    (hord : CausalOrder evs L) (p : List SignedEvent) : ∀ rest, L = p ++ rest → create ∈ p →
      LetIn evs create payload.creator (entering evs create L p) := by
  induction p using List.reverseRecOn with
  | nil =>
      intro _ _ hin
      cases hin
  | append_singleton p e ih =>
      intro rest hL hin
      rw [List.append_assoc, List.singleton_append] at hL
      have hfold := folded_entering hR hdec hpar hord p (e :: rest) hL
      have hn : Next evs p e := CausalOrder.next hR (hL ▸ hord)
      rw [entering_append]
      by_cases hcreate : create ∈ p
      swap
      · -- the `CreateRoom` comes, and nothing has entered
        have hEq : e = create := by
          rcases List.mem_append.1 hin with hp | he
          · exact absurd hp hcreate
          · exact (List.mem_singleton.1 he).symm
        subst hEq
        have hnone : entering evs e L p = [] := by
          refine List.eq_nil_iff_forall_not_mem.2 fun x hx => ?_
          rcases mem_entering.1 hx with ⟨hxp, henters, hb⟩
          have hb' : Bears evs x := hb.resolve_left fun hEq => hcreate (hEq ▸ hxp)
          exact (hfold.notYet hcreate).2 x hxp hb' (mem_entering.2 ⟨by simp [hL, hxp], henters, hb⟩)
        have hself : entering evs e L [e] = [e] := by
          simp [entering, entersIn_create hR hdec hpar hord]
        rw [hnone, hself]
        exact .create
      have hlet := ih (e :: rest) hL hcreate
      have hne : e ≠ create := by
        rintro rfl
        exact hn.fresh hcreate
      by_cases he : EntersIn L e ∧ (e = create ∨ Bears evs e)
      swap
      · have hnone : entering evs create L [e] = [] := by
          simp [entering, he]
        rw [hnone, List.append_nil]
        exact hlet
      have hself : entering evs create L [e] = [e] := by
        simp [entering, he]
      have hb : Bears evs e := he.2.resolve_left hne
      have hnd : (p ++ e :: rest).Nodup := hL ▸ hord.perm.nodup_iff.2 hR.nodup
      have henters : Enters (RoomRegistry.new.applyAll p) e := (entersIn_iff hnd).1 (hL ▸ he.1)
      rcases (hfold.enters_iff hR (relevant_bears evs) hn hne hb hcreate).1 henters with ⟨hps, hread, hjoined⟩
      rw [hself]
      refine .next hlet hn.mem (fun hin => hn.fresh (mem_entering.1 hin).1) hb ⟨?_, hread, fun hm => ?_⟩
      · intro q hq
        rcases hps q hq with ⟨y, hy, rfl, hylive⟩
        exact ⟨y, hy, rfl, mem_entering.2
          ⟨hn.before y hy (Before.parent hn.mem hq), (mem_entering.1 hylive).2⟩⟩
      · refine ⟨_, hn.mayPrecede e.authorDevice, ?_⟩
        rw [actions_entering _ hL]
        exact hjoined hm

/-- What enters in a causal order is one of the fates. -/
theorem fate_entering (hR : RoomEvents roomId evs create)
    (hdec : Deserialize.fromSlice create.payload = some payload) (hpar : create.parents = [])
    (hord : CausalOrder evs L) : Fate evs create payload.creator (entering evs create L L) := by
  refine ⟨letIn_entering hR hdec hpar hord L [] (by simp) (hord.perm.mem_iff.2 hR.create_mem), ?_⟩
  intro e he hb hout
  rcases List.append_of_mem (hord.perm.mem_iff.2 he) with ⟨p, rest, hL⟩
  have hn : Next evs p e := CausalOrder.next hR (hL ▸ hord)
  have hfold := folded_entering hR hdec hpar hord p (e :: rest) hL
  have hno : ¬ Enters (RoomRegistry.new.applyAll p) e := by
    intro henters
    have hin : EntersIn L e := ⟨p, rest, hL, henters⟩
    exact hout (mem_entering.2 ⟨hord.perm.mem_iff.2 he, hin, Or.inr hb⟩)
  by_cases hcreate : create ∈ p
  swap
  · by_cases hnone : e.parents = []
    · exact .early hnone
    · refine .orphan fun hps => ?_
      rcases List.exists_mem_of_ne_nil _ hnone with ⟨q, hq⟩
      rcases hps q hq with ⟨y, hy, rfl, hylive⟩
      exact (hfold.notYet hcreate).2 y (hn.before y hy (Before.parent he hq))
        ((relevant_bears evs).parent e he hb y hy hq) hylive
  have hne : e ≠ create := by
    rintro rfl
    exact hn.fresh hcreate
  rw [hfold.enters_iff hR (relevant_bears evs) hn hne hb hcreate] at hno
  by_cases hps : ParentsLive evs {x | x ∈ entering evs create L L} e
  swap
  · exact .orphan hps
  by_cases hm : e.kind = .membership
  · refine .unread hm ?_
    by_contra hread
    exact hno ⟨hps, fun _ => Option.ne_none_iff_exists'.1 hread, fun hno => absurd hm hno⟩
  · refine .away hm (hn.mayPrecede e.authorDevice) fun hjoined => ?_
    exact hno ⟨hps, fun h => absurd h hm, fun _ => hjoined⟩

end Entering

end Fate

end RoomRegistry
end Event
end Thunderducks
