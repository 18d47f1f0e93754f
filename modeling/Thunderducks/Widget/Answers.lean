import Mathlib.Data.List.Nodup
import Mathlib.Data.List.Perm.Basic
import Thunderducks.Widget.Bridge

/-!
# Answers — every promise gets the answer to its own request (`widget-sdk/src/guest.ts`, `host.ts`)

A request is under way as a message to the page, as a call of the API or as a message to its frame; it is
settled, or it is lost where something was taken down.  `Inv` says that each request is one of these, once, and
that everything under way stems from a request.  From it follow that answers do not go astray (`answers_own`),
that no request makes two calls (`calls_once`) and that none is forgotten while everything is up
(`all_answered`).
-/

namespace Thunderducks
namespace Widget

open Lib

namespace Bridge

variable {W : Type} {o : Origins W}

/-! ## What holds of the messages -/

/-- The message event of a request. -/
def requestEvent (o : Origins W) (r : Asked W) : MessageEvent W :=
  eventOf o r.window (.request r.id r.method r.params)

def requestKey (r : Asked W) : W × String :=
  (r.window, r.id)

/-- The request a message event, a call or a message to a frame belongs to. -/
def eventKey (ev : MessageEvent W) : Option (W × String) :=
  match ev.source, ev.data.get "id" with
  | some w, .str id => some (w, id)
  | _, _ => none

/-- A ready message belongs to none. -/
@[simp] theorem eventKey_ready (w : W) (widgetId : String) : eventKey (eventOf o w (.ready widgetId)) = none := rfl

@[simp] theorem eventKey_request (w : W) (id method : String) (params : JsValue) :
    eventKey (eventOf o w (.request id method params)) = some (w, id) := rfl

def frameKey (f : W × HostToWidget) : Option (W × String) :=
  match f.2 with
  | .result (.str id) _ => some (f.1, id)
  | _ => none

def settledKey (s : W × String × Except String JsValue) : W × String :=
  (s.1, s.2.1)

/-- The requests under way: as a message to the page, as a call, or as an answer. -/
def underWay (b : Bridge W) : List (W × String) :=
  b.toPage.filterMap eventKey ++ b.calls.filterMap (fun turn => eventKey turn.ev) ++ b.toFrames.filterMap frameKey

/-- An answer is what the host of the guest's frame makes of the request. -/
def AnswerOf (o : Origins W) (widgets : List (WidgetHostOptions × W))
    (returned : List (ApiTurn W × Except String JsValue)) (r : Asked W) (answer : Except String JsValue) : Prop :=
  ∃ k x, widgets[k]? = some x ∧ x.2 = r.window ∧
    ((∃ e, (attached x).outcome r.method r.params = .error e ∧ answer = .error e) ∨
      ∃ call, (attached x).outcome r.method r.params = .ok call ∧
        ({ host := k, ev := requestEvent o r, call := call }, answer) ∈ returned)

/-- A call is one that the host of the guest's frame makes of the request. -/
def CallOf (o : Origins W) (widgets : List (WidgetHostOptions × W)) (r : Asked W) (turn : ApiTurn W) : Prop :=
  ∃ x, widgets[turn.host]? = some x ∧ x.2 = r.window ∧ turn.ev = requestEvent o r ∧
    (attached x).outcome r.method r.params = .ok turn.call

/-- It belongs to the request. -/
theorem CallOf.key {widgets : List (WidgetHostOptions × W)} {r : Asked W} {turn : ApiTurn W}
    (h : CallOf o widgets r turn) : eventKey turn.ev = some (requestKey r) := by
  rcases h with ⟨_, _, _, hev, _⟩
  rw [hev]
  exact eventKey_request r.window r.id r.method r.params

/-- What holds of every bridge: everything under way comes from a request, and each request is under way,
settled or lost, once. -/
structure Inv (o : Origins W) (widgets : List (WidgetHostOptions × W)) (lost : List (W × String))
    (b : Bridge W) : Prop where
  hosting : Hosting widgets b.page
  events : ∀ ev ∈ b.toPage, ∃ w, (∃ widgetId, ev = eventOf o w (.ready widgetId)) ∨
    ∃ r ∈ b.asked, ev = requestEvent o r
  calls : ∀ turn ∈ b.calls, ∃ r ∈ b.asked, CallOf o widgets r turn
  frames : ∀ f ∈ b.toFrames, (∃ widgetId granted, f.2 = .hello widgetId granted) ∨
    ∃ r ∈ b.asked, ∃ answer, f = (r.window, .result (.str r.id) answer) ∧
      AnswerOf o widgets b.returned r answer
  settled : ∀ s ∈ b.settled, ∃ r ∈ b.asked, ∃ answer, s = (r.window, r.id, answer) ∧
    AnswerOf o widgets b.returned r answer
  numbered : ∀ r ∈ b.asked, ∃ g n, b.guests r.window = some g ∧ n ≤ g.seq ∧ r.id = WidgetGuest.requestId n
  pending : ∀ r ∈ b.asked, ∀ g, b.guests r.window = some g → g.listening = true →
    requestKey r ∉ b.settled.map settledKey → r.id ∈ g.pending
  once : (b.asked.map requestKey).Nodup
  kept : (b.underWay ++ b.settled.map settledKey ++ lost).Perm (b.asked.map requestKey)

/-! ## One turn -/

theorem filterMap_eraseIdx {α β : Type} {f : α → Option β} {l : List α} {i : Nat} {a : α} (h : l[i]? = some a) :
    (l.filterMap f).Perm ((f a).toList ++ (l.eraseIdx i).filterMap f) := by
  rcases List.getElem?_eq_some_iff.1 h with ⟨hlt, rfl⟩
  have hperm : l.Perm (l[i] :: l.eraseIdx i) := (List.getElem_cons_eraseIdx_perm hlt).symm
  refine (hperm.filterMap f).trans ?_
  cases hf : f l[i] with
  | none => rw [List.filterMap_cons_none hf]; exact List.Perm.refl _
  | some b => rw [List.filterMap_cons_some hf]; exact List.Perm.refl _

/-- A request leads to an answer at once, to a call, or to nothing if its frame has no host. -/
theorem deliver_request {widgets : List (WidgetHostOptions × W)} {page : Page W} (hap : Apart o widgets)
    (h : Hosting widgets page) (r : Asked W) :
    (∃ answer, (page.deliver (requestEvent o r)).filterMap (fun e => posted o e.2) =
        [(r.window, .result (.str r.id) answer)] ∧
      (page.deliver (requestEvent o r)).filterMap (fun e => called e.1 (requestEvent o r) e.2) = [] ∧
      ∀ returned, AnswerOf o widgets returned r answer) ∨
    (∃ turn, (page.deliver (requestEvent o r)).filterMap (fun e => posted o e.2) = [] ∧
      (page.deliver (requestEvent o r)).filterMap (fun e => called e.1 (requestEvent o r) e.2) = [turn] ∧
      CallOf o widgets r turn) ∨
    ((page.deliver (requestEvent o r)).filterMap (fun e => posted o e.2) = [] ∧
      (page.deliver (requestEvent o r)).filterMap (fun e => called e.1 (requestEvent o r) e.2) = [] ∧
      ¬ ∃ k ∈ page.listeners, ∃ x, widgets[k]? = some x ∧ x.2 = r.window) := by
  by_cases hhosted : ∃ (k : Nat) (x : WidgetHostOptions × W), widgets[k]? = some x ∧ x.2 = r.window
  · rcases hhosted with ⟨k, x, hx, hwindow⟩
    have horigin : (requestEvent o r).origin = o.frame x.2 := congrArg o.frame hwindow.symm
    have hposts := filterMap_deliver_own hap h hx horigin (f := fun _ => posted o) fun _ => posted_audit
    have hcalls := filterMap_deliver_own hap h hx horigin (f := fun j => called j (requestEvent o r))
      fun j host line => called_audit host line j _
    by_cases hk : k ∈ page.listeners
    · rw [if_pos hk] at hposts hcalls
      have hmem : x ∈ widgets := List.mem_of_getElem? hx
      have hadmits : (attached x).Admits (requestEvent o r) := Or.inr (horigin.trans (hap.own x hmem).symm)
      rw [WidgetHost.onMessage_request rfl hadmits] at hposts hcalls
      have hdata : (requestEvent o r).data = (WidgetToHost.request r.id r.method r.params).toJs := rfl
      rw [hdata] at hposts hcalls
      rcases (attached x).handleRequest_request r.id r.method r.params with
        ⟨e, line, hout, heffects⟩ | ⟨call, hout, heffects⟩
      -- answered at once
      · refine Or.inl ⟨.error e, ?_, ?_, fun returned => ⟨k, x, hx, hwindow, Or.inl ⟨e, hout, rfl⟩⟩⟩
        · rw [hposts, heffects, List.filterMap_append, posted_audit, List.nil_append,
            posted_attached (hap.own x hmem) (hap.named x hmem), hwindow]
        · rw [hcalls, heffects, List.filterMap_append, called_audit, called_post, List.nil_append]
      -- handed to the API
      · refine Or.inr (Or.inl ⟨⟨k, requestEvent o r, call⟩, ?_, ?_, x, hx, hwindow, rfl, hout⟩)
        · rw [hposts, heffects]
          rfl
        · rw [hcalls, heffects]
          rfl
    -- its host was taken down
    · rw [if_neg hk] at hposts hcalls
      refine Or.inr (Or.inr ⟨hposts, hcalls, ?_⟩)
      rintro ⟨j, hj, y, hy, hwindow'⟩
      apply hk
      have hjlt : j < (widgets.map Prod.snd).length := by
        rw [List.length_map]
        exact h.listed j hj
      have heq : j = k := by
        refine (List.getElem?_inj hjlt hap.frames).1 ?_
        rw [List.getElem?_map, List.getElem?_map, hy, hx]
        exact congrArg some (hwindow'.trans hwindow.symm)
      exact heq ▸ hj
  -- a frame without a host
  · have horigin : ∀ x ∈ widgets, (requestEvent o r).origin ≠ o.frame x.2 := by
      intro x hx hsame
      rcases List.mem_iff_getElem?.1 hx with ⟨k, hk⟩
      exact hhosted ⟨k, x, hk, (hap.apart x hx r.window hsame).symm⟩
    refine Or.inr (Or.inr ⟨?_, ?_, ?_⟩)
    · exact filterMap_deliver_none hap h horigin (f := fun _ => posted o) fun _ => posted_audit
    · exact filterMap_deliver_none hap h horigin (f := fun j => called j (requestEvent o r))
        fun j host line => called_audit host line j _
    · rintro ⟨k, _, x, hx, hwindow⟩
      exact hhosted ⟨k, x, hx, hwindow⟩

/-- A ready message leads to nothing. -/
theorem deliver_ready (o : Origins W) (page : Page W) (w : W) (widgetId : String) :
    (page.deliver (eventOf o w (.ready widgetId))).filterMap (fun e => posted o e.2) = [] ∧
      (page.deliver (eventOf o w (.ready widgetId))).filterMap
        (fun e => called e.1 (eventOf o w (.ready widgetId)) e.2) = [] := by
  have hnone : ∀ {β : Type} {f : Nat → Effect W → Option β},
      (∀ j (host : WidgetHost W) line, (host.audit line).filterMap (f j) = []) →
      (page.deliver (eventOf o w (.ready widgetId))).filterMap (fun e => f e.1 e.2) = [] := by
    intro β f haudit
    rw [filterMap_deliver, List.flatMap_eq_nil_iff]
    intro j _
    cases page.hosts[j]? with
    | none => rfl
    | some host =>
        have hready : ∃ line, host.onMessage (eventOf o w (.ready widgetId)) = host.audit line :=
          WidgetHost.onMessage_ready rfl
        rcases hready with ⟨line, hline⟩
        dsimp only
        rw [hline]
        exact haudit j host line
  exact ⟨hnone (f := fun _ => posted o) fun _ => posted_audit,
    hnone (f := fun j => called j (eventOf o w (.ready widgetId))) fun j host line => called_audit host line j _⟩

/-- What a guest that announces itself has sent is the ready message. -/
theorem sent_announceReady {g : WidgetGuest} {w : W} {ev : MessageEvent W}
    (hev : ev ∈ g.announceReady.filterMap (sent o w)) : ev = eventOf o w (.ready g.widgetId) := by
  by_cases hmeets : meets g.targetOrigin o.page = true
  · simpa [WidgetGuest.announceReady, sent, hmeets] using hev
  · simp [WidgetGuest.announceReady, sent, hmeets] at hev

/-- What a guest that requests has sent is the request, if the page has the origin it posts to. -/
theorem sent_request (g : WidgetGuest) (w : W) (method : String) (params : JsValue) :
    (g.request method params).1.filterMap (sent o w) =
      if meets g.targetOrigin o.page then
        [requestEvent o ⟨w, WidgetGuest.requestId (g.seq + 1), method, params⟩]
      else [] := by
  unfold WidgetGuest.request
  by_cases hmeets : meets g.targetOrigin o.page = true
  · simp [sent, hmeets, requestEvent]
  · simp [sent, hmeets]

theorem AnswerOf.mono {widgets : List (WidgetHostOptions × W)}
    {returned returned' : List (ApiTurn W × Except String JsValue)} {r : Asked W} {answer : Except String JsValue}
    (h : AnswerOf o widgets returned r answer) (hsub : returned ⊆ returned') :
    AnswerOf o widgets returned' r answer := by
  rcases h with ⟨k, x, hx, hwindow, hnow | ⟨call, hout, hmem⟩⟩
  · exact ⟨k, x, hx, hwindow, Or.inl hnow⟩
  · exact ⟨k, x, hx, hwindow, Or.inr ⟨call, hout, hsub hmem⟩⟩

section Step

variable [DecidableEq W] {widgets : List (WidgetHostOptions × W)} {lost : List (W × String)} {b : Bridge W}

theorem update_some {guests : W → Option WidgetGuest} {w : W} {g g' : WidgetGuest}
    (h : Function.update guests w (some g) w = some g') : g = g' := by
  rw [Function.update_self] at h
  exact Option.some.inj h

namespace Inv

omit [DecidableEq W] in
/-- A request under way is not settled. -/
theorem not_settled (h : Inv o widgets lost b) {key : W × String} (hkey : key ∈ b.underWay) :
    key ∉ b.settled.map settledKey := by
  have hnd : (b.underWay ++ b.settled.map settledKey ++ lost).Nodup := h.kept.nodup_iff.2 h.once
  have hleft := (List.nodup_append.1 hnd).1
  intro hsettled
  exact (List.nodup_append.1 hleft).2.2 key hkey key hsettled rfl

/-- The requests stay numbered when their guest has counted on. -/
theorem numbered_update (h : Inv o widgets lost b) {w : W} {g g' : WidgetGuest} (hg : b.guests w = some g)
    (hseq : g.seq ≤ g'.seq) : ∀ r ∈ b.asked, ∃ g'' n, Function.update b.guests w (some g') r.window = some g'' ∧
      n ≤ g''.seq ∧ r.id = WidgetGuest.requestId n := by
  intro r hr
  rcases h.numbered r hr with ⟨before, n, hbefore, hn, hid⟩
  by_cases heq : r.window = w
  · refine ⟨g', n, ?_, ?_, hid⟩
    · rw [heq]
      exact Function.update_self _ _ _
    · have hsame : before = g := Option.some.inj (hbefore.symm.trans (heq ▸ hg))
      rw [hsame] at hn
      exact Nat.le_trans hn hseq
  · exact ⟨before, n, (Function.update_of_ne heq _ _).trans hbefore, hn, hid⟩

/-- A guest does something that is no matter of its requests. -/
theorem quiet (h : Inv o widgets lost b) {w : W} {g : WidgetGuest} (hg : b.guests w = some g)
    {turn : List GuestEffect × WidgetGuest} (hpending : turn.2.pending = g.pending) (hseq : turn.2.seq = g.seq)
    (hlistening : turn.2.listening = g.listening)
    (hsent : ∀ ev ∈ turn.1.filterMap (sent o w), ∃ widgetId, ev = eventOf o w (.ready widgetId))
    (hsettles : turn.1.filterMap (settles w) = []) : Inv o widgets lost (b.guestTurn o w turn) := by
  have hkeys : (turn.1.filterMap (sent o w)).filterMap eventKey = [] := by
    rw [List.filterMap_eq_nil_iff]
    intro ev hev
    rcases hsent ev hev with ⟨widgetId, rfl⟩
    exact eventKey_ready w widgetId
  have hguest : ∀ {w' : W} {g' : WidgetGuest}, (b.guestTurn o w turn).guests w' = some g' →
      ∃ before, b.guests w' = some before ∧ g'.pending = before.pending ∧ g'.seq = before.seq ∧
        g'.listening = before.listening := by
    intro w' g' hg'
    by_cases heq : w' = w
    · subst heq
      have hnew : turn.2 = g' := update_some hg'
      subst hnew
      exact ⟨g, hg, hpending, hseq, hlistening⟩
    · exact ⟨g', (Function.update_of_ne heq _ _).symm.trans hg', rfl, rfl, rfl⟩
  refine ⟨h.hosting, ?_, h.calls, h.frames, ?_, ?_, ?_, h.once, ?_⟩
  · intro ev hev
    rcases List.mem_append.1 hev with hev | hev
    · exact h.events ev hev
    · exact ⟨w, Or.inl (hsent ev hev)⟩
  · intro s hs
    refine h.settled s ?_
    simpa [guestTurn, hsettles] using hs
  · exact h.numbered_update hg (Nat.le_of_eq hseq.symm)
  · intro r hr g' hg' hlisten hnot
    rcases hguest hg' with ⟨before, hbefore, hpend, _, hl⟩
    rw [hpend]
    refine h.pending r hr before hbefore (hl ▸ hlisten) ?_
    simpa [guestTurn, hsettles] using hnot
  · simpa [underWay, guestTurn, hkeys, hsettles, List.filterMap_append] using h.kept

/-- A message is taken out of those to the frames. -/
theorem taken (h : Inv o widgets lost b) {i : Nat} {f : W × HostToWidget} (hf : b.toFrames[i]? = some f) :
    Inv o widgets (lost ++ (frameKey f).toList) { b with toFrames := b.toFrames.eraseIdx i } := by
  refine ⟨h.hosting, h.events, h.calls, ?_, h.settled, h.numbered, h.pending, h.once, ?_⟩
  · intro f' hf'
    exact h.frames f' (List.mem_of_mem_eraseIdx hf')
  · refine List.perm_iff_count.2 fun key => ?_
    have hkept := List.perm_iff_count.1 h.kept key
    have herase := List.perm_iff_count.1 (filterMap_eraseIdx (f := frameKey) hf) key
    simp only [underWay, List.count_append] at hkept herase ⊢
    omega

theorem load (h : Inv o widgets lost b) {w : W} (hw : b.guests w = none) (g : WidgetGuest) :
    Inv o widgets lost { b with guests := Function.update b.guests w (some g) } := by
  have hother : ∀ r ∈ b.asked, r.window ≠ w := by
    rintro r hr rfl
    rcases h.numbered r hr with ⟨g', _, hg', _⟩
    rw [hw] at hg'
    cases hg'
  refine ⟨h.hosting, h.events, h.calls, h.frames, h.settled, ?_, ?_, h.once, h.kept⟩
  · intro r hr
    rcases h.numbered r hr with ⟨g', n, hg', hrest⟩
    exact ⟨g', n, (Function.update_of_ne (hother r hr) _ _).trans hg', hrest⟩
  · intro r hr g' hg'
    exact h.pending r hr g' ((Function.update_of_ne (hother r hr) _ _).symm.trans hg')

theorem destroy (h : Inv o widgets lost b) {w : W} {g : WidgetGuest} (hg : b.guests w = some g) :
    Inv o widgets lost (b.guestTurn o w ([], g.destroy)) := by
  refine ⟨h.hosting, ?_, h.calls, h.frames, ?_, ?_, ?_, h.once, ?_⟩
  · simpa [guestTurn] using h.events
  · simpa [guestTurn] using h.settled
  · exact h.numbered_update hg (Nat.le_refl _)
  · intro r hr g' hg' hlisten hnot
    by_cases heq : r.window = w
    -- it does not listen any more
    · have hnew : g.destroy = g' := by
        rw [heq] at hg'
        exact update_some hg'
      rw [← hnew] at hlisten
      cases hlisten
    · refine h.pending r hr g' ((Function.update_of_ne heq _ _).symm.trans hg') hlisten ?_
      simpa [guestTurn] using hnot
  · simpa [underWay, guestTurn] using h.kept

omit [DecidableEq W] in
/-- The next id of a guest is new: the numbers of its requests only grow. -/
theorem unasked (h : Inv o widgets lost b) {w : W} {g : WidgetGuest} (hg : b.guests w = some g) :
    (w, WidgetGuest.requestId (g.seq + 1)) ∉ b.asked.map requestKey := by
  intro hkey
  rcases List.mem_map.1 hkey with ⟨r, hr, heq⟩
  rcases h.numbered r hr with ⟨g', n, hg', hn, hid⟩
  have hwindow : r.window = w := congrArg Prod.fst heq
  have hnumber : r.id = WidgetGuest.requestId (g.seq + 1) := congrArg Prod.snd heq
  have hsame : g' = g := Option.some.inj (hg'.symm.trans (hwindow ▸ hg))
  have hn' : n = g.seq + 1 := WidgetGuest.requestId_injective (hid.symm.trans hnumber)
  rw [hsame] at hn
  omega

/-- A new request gets an id of its own. -/
theorem request (h : Inv o widgets lost b) {w : W} {g : WidgetGuest} (hg : b.guests w = some g) (method : String)
    (params : JsValue) :
    Inv o widgets
      (lost ++ if meets g.targetOrigin o.page then [] else [(w, WidgetGuest.requestId (g.seq + 1))])
      { b.guestTurn o w (g.request method params) with
        asked := b.asked ++ [⟨w, WidgetGuest.requestId (g.seq + 1), method, params⟩] } := by
  have hsub : b.asked ⊆ b.asked ++ [⟨w, WidgetGuest.requestId (g.seq + 1), method, params⟩] :=
    List.subset_append_left _ _
  have hsent := sent_request (o := o) g w method params
  have hsettles : (g.request method params).1.filterMap (settles w) = [] := rfl
  refine ⟨h.hosting, ?_, ?_, ?_, ?_, ?_, ?_, ?_, ?_⟩
  · intro ev hev
    dsimp only [guestTurn] at hev
    rw [hsent] at hev
    rcases List.mem_append.1 hev with hev | hev
    · rcases h.events ev hev with ⟨w', hready | ⟨r, hr, hreq⟩⟩
      · exact ⟨w', Or.inl hready⟩
      · exact ⟨w', Or.inr ⟨r, hsub hr, hreq⟩⟩
    · split at hev
      · exact ⟨w, Or.inr ⟨_, List.mem_append_right _ (List.mem_singleton.2 rfl), List.mem_singleton.1 hev⟩⟩
      · cases hev
  · intro turn hturn
    rcases h.calls turn hturn with ⟨r, hr, hcall⟩
    exact ⟨r, hsub hr, hcall⟩
  · intro f hf
    rcases h.frames f hf with hhello | ⟨r, hr, hanswer⟩
    · exact Or.inl hhello
    · exact Or.inr ⟨r, hsub hr, hanswer⟩
  · intro s hs
    dsimp only [guestTurn] at hs
    rw [hsettles, List.append_nil] at hs
    rcases h.settled s hs with ⟨r, hr, hanswer⟩
    exact ⟨r, hsub hr, hanswer⟩
  · intro r hr
    rcases List.mem_append.1 hr with hr | hr
    · exact h.numbered_update hg (Nat.le_succ _) r hr
    · rw [List.mem_singleton.1 hr]
      exact ⟨_, g.seq + 1, Function.update_self _ _ _, Nat.le_refl _, rfl⟩
  · intro r hr g' hg' hlisten hnot
    dsimp only [guestTurn] at hg' hnot
    rw [hsettles, List.append_nil] at hnot
    by_cases heq : r.window = w
    · have hnew : (g.request method params).2 = g' := by
        rw [heq] at hg'
        exact update_some hg'
      rw [← hnew] at hlisten ⊢
      rcases List.mem_append.1 hr with hr | hr
      · exact List.mem_append_left _ (h.pending r hr g (heq ▸ hg) hlisten hnot)
      · rw [List.mem_singleton.1 hr]
        exact List.mem_append_right _ (List.mem_singleton.2 rfl)
    · rcases List.mem_append.1 hr with hr | hr
      · exact h.pending r hr g' ((Function.update_of_ne heq _ _).symm.trans hg') hlisten hnot
      · rw [List.mem_singleton.1 hr] at heq
        exact absurd rfl heq
  · rw [List.map_append, List.nodup_append]
    refine ⟨h.once, List.nodup_singleton _, ?_⟩
    rintro key hkey key' hkey' rfl
    rw [List.map_singleton, List.mem_singleton] at hkey'
    rw [hkey'] at hkey
    exact h.unasked hg hkey
  · refine List.perm_iff_count.2 fun key => ?_
    have hkept := List.perm_iff_count.1 h.kept key
    have hkey : eventKey (requestEvent o ⟨w, WidgetGuest.requestId (g.seq + 1), method, params⟩) =
        some (w, WidgetGuest.requestId (g.seq + 1)) := rfl
    dsimp only [guestTurn, underWay] at hkept ⊢
    rw [hsent, hsettles, List.append_nil]
    by_cases hmeets : meets g.targetOrigin o.page = true
    · simp only [hmeets, if_true, List.filterMap_append, List.filterMap_cons, List.filterMap_nil, hkey,
        List.count_append, List.map_append, List.map_cons, List.map_nil, List.count_nil] at hkept ⊢
      have hsame : requestKey ⟨w, WidgetGuest.requestId (g.seq + 1), method, params⟩ =
        (w, WidgetGuest.requestId (g.seq + 1)) := rfl
      rw [hsame]
      omega
    · simp only [hmeets, Bool.false_eq_true, if_false, List.append_nil, List.count_append, List.map_append,
        List.map_cons, List.map_nil] at hkept ⊢
      have hsame : requestKey ⟨w, WidgetGuest.requestId (g.seq + 1), method, params⟩ =
        (w, WidgetGuest.requestId (g.seq + 1)) := rfl
      rw [hsame]
      omega

/-- A message to the page goes to one host at most. -/
theorem deliverToPage (hap : Apart o widgets) (h : Inv o widgets lost b) {i : Nat} {ev : MessageEvent W}
    (hev : b.toPage[i]? = some ev) :
    ∃ lost', Inv o widgets lost'
      { b with
        toPage := b.toPage.eraseIdx i
        toFrames := b.toFrames ++ (b.page.deliver ev).filterMap fun e => posted o e.2
        calls := b.calls ++ (b.page.deliver ev).filterMap fun e => called e.1 ev e.2 } ∧
      ((∀ r ∈ b.asked, ∃ k ∈ b.page.listeners, ∃ x, widgets[k]? = some x ∧ x.2 = r.window) → lost' = lost) := by
  have hevents : ∀ ev' ∈ b.toPage.eraseIdx i, ∃ w, (∃ widgetId, ev' = eventOf o w (.ready widgetId)) ∨
      ∃ r ∈ b.asked, ev' = requestEvent o r := fun ev' hev' => h.events ev' (List.mem_of_mem_eraseIdx hev')
  have herase := fun key => List.perm_iff_count.1 (filterMap_eraseIdx (f := eventKey) hev) key
  rcases h.events ev (List.mem_of_getElem? hev) with ⟨w, ⟨widgetId, rfl⟩ | ⟨r, hr, rfl⟩⟩
  -- a ready message
  · rcases deliver_ready o b.page w widgetId with ⟨hposts, hcalls⟩
    refine ⟨lost, ?_, fun _ => rfl⟩
    rw [hposts, hcalls, List.append_nil, List.append_nil]
    refine ⟨h.hosting, hevents, h.calls, h.frames, h.settled, h.numbered, h.pending, h.once, ?_⟩
    refine List.perm_iff_count.2 fun key => ?_
    have hkept := List.perm_iff_count.1 h.kept key
    have hkey := herase key
    simp only [underWay, List.count_append] at hkept hkey ⊢
    rw [eventKey_ready] at hkey
    simp only [Option.toList_none, List.count_nil] at hkey
    omega
  -- a request
  · have hkey : eventKey (requestEvent o r) = some (requestKey r) := rfl
    rcases deliver_request hap h.hosting r with ⟨answer, hposts, hcalls, hanswer⟩ | ⟨turn, hposts, hcalls, hcall⟩ |
      ⟨hposts, hcalls, hnone⟩
    · refine ⟨lost, ?_, fun _ => rfl⟩
      rw [hposts, hcalls, List.append_nil]
      refine ⟨h.hosting, hevents, h.calls, ?_, h.settled, h.numbered, h.pending, h.once, ?_⟩
      · intro f hf
        rcases List.mem_append.1 hf with hf | hf
        · exact h.frames f hf
        · exact Or.inr ⟨r, hr, answer, List.mem_singleton.1 hf, hanswer _⟩
      · refine List.perm_iff_count.2 fun key => ?_
        have hkept := List.perm_iff_count.1 h.kept key
        have hcount := herase key
        have hframe : frameKey (r.window, .result (.str r.id) answer) = some (requestKey r) := rfl
        simp only [underWay, List.count_append, List.filterMap_append, List.filterMap_cons, List.filterMap_nil,
          hframe, hkey, Option.toList_some] at hkept hcount ⊢
        omega
    · refine ⟨lost, ?_, fun _ => rfl⟩
      rw [hposts, hcalls, List.append_nil]
      refine ⟨h.hosting, hevents, ?_, h.frames, h.settled, h.numbered, h.pending, h.once, ?_⟩
      · intro turn' hturn'
        rcases List.mem_append.1 hturn' with hturn' | hturn'
        · exact h.calls turn' hturn'
        · rw [List.mem_singleton.1 hturn']
          exact ⟨r, hr, hcall⟩
      · refine List.perm_iff_count.2 fun key => ?_
        have hkept := List.perm_iff_count.1 h.kept key
        have hcount := herase key
        have hturn : eventKey turn.ev = some (requestKey r) := hcall.key
        simp only [underWay, List.count_append, List.filterMap_append, List.filterMap_cons, List.filterMap_nil,
          hturn, hkey, Option.toList_some] at hkept hcount ⊢
        omega
    -- nobody answers it
    · refine ⟨lost ++ [requestKey r], ?_, fun hup => absurd (hup r hr) hnone⟩
      rw [hposts, hcalls, List.append_nil, List.append_nil]
      refine ⟨h.hosting, hevents, h.calls, h.frames, h.settled, h.numbered, h.pending, h.once, ?_⟩
      refine List.perm_iff_count.2 fun key => ?_
      have hkept := List.perm_iff_count.1 h.kept key
      have hcount := herase key
      simp only [underWay, List.count_append, hkey, Option.toList_some] at hkept hcount ⊢
      omega

/-- A call returns: its host, if it is still up, posts the outcome to its frame. -/
theorem finish (hap : Apart o widgets) (h : Inv o widgets lost b) {i : Nat} {turn : ApiTurn W}
    (hturn : b.calls[i]? = some turn) (outcome : Except String JsValue) :
    ∃ host method lost', b.page.hosts[turn.host]? = some host ∧ turn.ev.data.get "method" = .str method ∧
      Inv o widgets lost'
        { b with
          calls := b.calls.eraseIdx i
          returned := b.returned ++ [(turn, outcome)]
          toFrames := b.toFrames ++
            (host.settle method (turn.ev.data.get "id") outcome).filterMap (posted o) } ∧
      ((∀ r ∈ b.asked, ∃ k ∈ b.page.listeners, ∃ x, widgets[k]? = some x ∧ x.2 = r.window) → lost' = lost) := by
  rcases h.calls turn (List.mem_of_getElem? hturn) with ⟨r, hr, hcall⟩
  have hkey : eventKey turn.ev = some (requestKey r) := hcall.key
  rcases hcall with ⟨x, hx, hwindow, hev, hout⟩
  have hlt : turn.host < b.page.hosts.length := by
    rw [h.hosting.all]
    exact (List.getElem?_eq_some_iff.1 hx).1
  have hhost : b.page.hosts[turn.host]? = some b.page.hosts[turn.host] := List.getElem?_eq_getElem hlt
  have hmethod : turn.ev.data.get "method" = .str r.method := by
    rw [hev]
    rfl
  have hid : turn.ev.data.get "id" = .str r.id := by
    rw [hev]
    rfl
  have hsub : b.returned ⊆ b.returned ++ [(turn, outcome)] := List.subset_append_left _ _
  have hcalls : ∀ turn' ∈ b.calls.eraseIdx i, ∃ r ∈ b.asked, CallOf o widgets r turn' :=
    fun turn' hturn' => h.calls turn' (List.mem_of_mem_eraseIdx hturn')
  have hframes : ∀ f ∈ b.toFrames, (∃ widgetId granted, f.2 = .hello widgetId granted) ∨
      ∃ r ∈ b.asked, ∃ answer, f = (r.window, .result (.str r.id) answer) ∧
        AnswerOf o widgets (b.returned ++ [(turn, outcome)]) r answer := by
    intro f hf
    rcases h.frames f hf with hhello | ⟨r', hr', answer, heq, hanswer⟩
    · exact Or.inl hhello
    · exact Or.inr ⟨r', hr', answer, heq, hanswer.mono hsub⟩
  have hsettled : ∀ s ∈ b.settled, ∃ r ∈ b.asked, ∃ answer, s = (r.window, r.id, answer) ∧
      AnswerOf o widgets (b.returned ++ [(turn, outcome)]) r answer := by
    intro s hs
    rcases h.settled s hs with ⟨r', hr', answer, heq, hanswer⟩
    exact ⟨r', hr', answer, heq, hanswer.mono hsub⟩
  have herase := fun key => List.perm_iff_count.1
    (filterMap_eraseIdx (f := fun turn : ApiTurn W => eventKey turn.ev) hturn) key
  rcases h.hosting.hosts hhost with ⟨y, hy, hstate⟩
  have hxy : y = x := Option.some.inj (hy.symm.trans hx)
  subst hxy
  rcases hstate with ⟨hlistens, hup⟩ | ⟨hsilent, hdown⟩
  · refine ⟨_, r.method, lost, hhost, hmethod, ?_, fun _ => rfl⟩
    have hmem : y ∈ widgets := List.mem_of_getElem? hy
    rw [hup, hid, posted_settle, posted_attached (hap.own y hmem) (hap.named y hmem)]
    refine ⟨h.hosting, h.events, hcalls, ?_, hsettled, h.numbered, h.pending, h.once, ?_⟩
    · intro f hf
      rcases List.mem_append.1 hf with hf | hf
      · exact hframes f hf
      · refine Or.inr ⟨r, hr, outcome, ?_, turn.host, y, hy, hwindow, Or.inr ⟨turn.call, hout, ?_⟩⟩
        · rw [List.mem_singleton.1 hf, hwindow]
        · refine List.mem_append_right _ (List.mem_singleton.2 ?_)
          rw [← hev]
    · refine List.perm_iff_count.2 fun key => ?_
      have hkept := List.perm_iff_count.1 h.kept key
      have hcount := herase key
      have hframe : frameKey (y.2, .result (.str r.id) outcome) = some (requestKey r) := by
        rw [hwindow]
        rfl
      simp only [underWay, List.count_append, List.filterMap_append, List.filterMap_cons, List.filterMap_nil,
        hframe, hkey, Option.toList_some] at hkept hcount ⊢
      omega
  -- the host was taken down while its call was out
  · refine ⟨_, r.method, lost ++ [requestKey r], hhost, hmethod, ?_, ?_⟩
    · rw [hdown, posted_settle, posted_detached, List.append_nil]
      refine ⟨h.hosting, h.events, hcalls, hframes, hsettled, h.numbered, h.pending, h.once, ?_⟩
      refine List.perm_iff_count.2 fun key => ?_
      have hkept := List.perm_iff_count.1 h.kept key
      have hcount := herase key
      simp only [underWay, List.count_append, hkey, Option.toList_some] at hkept hcount ⊢
      omega
    · intro hup
      rcases hup r hr with ⟨k, hk, z, hz, hwindow'⟩
      have hjlt : k < (widgets.map Prod.snd).length := by
        rw [List.length_map]
        exact h.hosting.listed k hk
      have heq : k = turn.host := by
        refine (List.getElem?_inj hjlt hap.frames).1 ?_
        rw [List.getElem?_map, List.getElem?_map, hz, hy]
        exact congrArg some (hwindow'.trans hwindow.symm)
      exact absurd (heq ▸ hk) hsilent

/-- An answer settles the promise that is open for it. -/
theorem answered (h : Inv o widgets lost b) {i : Nat} {r : Asked W} (hr : r ∈ b.asked)
    {answer : Except String JsValue} (hanswer : AnswerOf o widgets b.returned r answer)
    (hf : b.toFrames[i]? = some (r.window, .result (.str r.id) answer)) {g : WidgetGuest}
    (hg : b.guests r.window = some g) :
    Inv o widgets lost
      (({ b with toFrames := b.toFrames.eraseIdx i } : Bridge W).guestTurn o r.window
        ([WidgetGuest.settlement r.id answer], { g with pending := g.pending.erase r.id })) := by
  have hsent : [WidgetGuest.settlement r.id answer].filterMap (sent o r.window) = [] := by
    cases answer <;> rfl
  have hsettles : [WidgetGuest.settlement r.id answer].filterMap (settles r.window) =
      [(r.window, r.id, answer)] := by
    cases answer <;> rfl
  refine ⟨h.hosting, ?_, h.calls, ?_, ?_, ?_, ?_, h.once, ?_⟩
  · simpa [guestTurn, hsent] using h.events
  · intro f hf'
    exact h.frames f (List.mem_of_mem_eraseIdx hf')
  · intro s hs
    dsimp only [guestTurn] at hs
    rw [hsettles] at hs
    rcases List.mem_append.1 hs with hs | hs
    · exact h.settled s hs
    · exact ⟨r, hr, answer, List.mem_singleton.1 hs, hanswer⟩
  · exact h.numbered_update hg (Nat.le_refl _)
  · intro r' hr' g' hg' hlisten hnot
    dsimp only [guestTurn] at hg' hnot
    rw [hsettles, List.map_append, List.mem_append, not_or] at hnot
    by_cases heq : r'.window = r.window
    · have hnew : { g with pending := g.pending.erase r.id } = g' := by
        rw [heq] at hg'
        exact update_some hg'
      rw [← hnew] at hlisten ⊢
      have hopen : r'.id ∈ g.pending := h.pending r' hr' g (heq ▸ hg) hlisten hnot.1
      -- another request of the same guest has another id
      have hne : r'.id ≠ r.id := by
        intro hid
        apply hnot.2
        refine List.mem_singleton.2 ?_
        exact Prod.ext heq hid
      exact (List.mem_erase_of_ne hne).2 hopen
    · exact h.pending r' hr' g' ((Function.update_of_ne heq _ _).symm.trans hg') hlisten hnot.1
  · refine List.perm_iff_count.2 fun key => ?_
    have hkept := List.perm_iff_count.1 h.kept key
    have hcount := List.perm_iff_count.1 (filterMap_eraseIdx (f := frameKey) hf) key
    have hframe : frameKey (r.window, .result (.str r.id) answer) = some (requestKey r) := rfl
    have hkey : settledKey (r.window, r.id, answer) = requestKey r := rfl
    dsimp only [guestTurn, underWay] at hkept ⊢
    rw [hsent, hsettles, List.append_nil]
    simp only [List.count_append, List.map_append, List.map_cons, List.map_nil, hkey, hframe,
      Option.toList_some] at hkept hcount ⊢
    omega

end Inv

/-- Every host is up; guests are in the widgets' frames, listen and address their page. -/
structure Up (o : Origins W) (widgets : List (WidgetHostOptions × W)) (b : Bridge W) : Prop where
  listeners : ∀ k < widgets.length, k ∈ b.page.listeners
  guests : ∀ w g, b.guests w = some g → g.listening = true ∧ meets g.targetOrigin o.page = true ∧
    w ∈ widgets.map Prod.snd

/-- The turn reloads no frame. -/
def Stays (b : Bridge W) : Turn W → Prop
  | .load w _ _ => b.guests w = none
  | _ => True

/-- The turn takes nothing down, and loads a guest only once and into a widget's frame. -/
def Keeps (o : Origins W) (widgets : List (WidgetHostOptions × W)) (b : Bridge W) : Turn W → Prop
  | .load w _ targetOrigin => b.guests w = none ∧ meets targetOrigin o.page = true ∧ w ∈ widgets.map Prod.snd
  | .destroy _ => False
  | .detach _ => False
  | _ => True

omit [DecidableEq W] in
theorem Keeps.stays {turn : Turn W} (h : Keeps o widgets b turn) : b.Stays turn := by
  cases turn with
  | load w widgetId targetOrigin => exact h.1
  | _ => trivial

omit [DecidableEq W] in
theorem Up.hosted (hup : Up o widgets b) (h : Inv o widgets lost b) :
    ∀ r ∈ b.asked, ∃ k ∈ b.page.listeners, ∃ x, widgets[k]? = some x ∧ x.2 = r.window := by
  intro r hr
  rcases h.numbered r hr with ⟨g, _, hg, _⟩
  rcases List.mem_map.1 (hup.guests _ g hg).2.2 with ⟨x, hx, hwindow⟩
  rcases List.mem_iff_getElem?.1 hx with ⟨k, hk⟩
  exact ⟨k, hup.listeners k (List.getElem?_eq_some_iff.1 hk).1, x, hk, hwindow⟩

/-- A turn that reloads no frame keeps the invariant, and loses no request while everything is up. -/
theorem Inv.step (hap : Apart o widgets) (h : Inv o widgets lost b) (turn : Turn W) (hstays : b.Stays turn) :
    ∃ lost', Inv o widgets lost' (b.step o turn) ∧ (Up o widgets b → Keeps o widgets b turn → lost' = lost) := by
  cases turn with
  | load w widgetId targetOrigin =>
      have hw : b.guests w = none := hstays
      unfold Bridge.step
      dsimp only
      rw [hw, Option.isSome_none, if_neg Bool.false_ne_true]
      exact ⟨lost, h.load hw _, fun _ _ => rfl⟩
  | announceReady w =>
      unfold Bridge.step
      dsimp only
      split
      · exact ⟨lost, h, fun _ _ => rfl⟩
      next g hg =>
        exact ⟨lost, h.quiet hg rfl rfl rfl (fun ev hev => ⟨g.widgetId, sent_announceReady hev⟩) rfl, fun _ _ => rfl⟩
  | waitHello w waiter =>
      unfold Bridge.step
      dsimp only
      split
      · exact ⟨lost, h, fun _ _ => rfl⟩
      next g hg =>
        unfold WidgetGuest.waitHello
        split
        · exact ⟨lost, h.quiet hg rfl rfl rfl (fun _ hev => absurd hev List.not_mem_nil) rfl, fun _ _ => rfl⟩
        · exact ⟨lost, h.quiet hg rfl rfl rfl (fun _ hev => absurd hev List.not_mem_nil) rfl, fun _ _ => rfl⟩
  | request w method params =>
      unfold Bridge.step
      dsimp only
      split
      · exact ⟨lost, h, fun _ _ => rfl⟩
      next g hg =>
        refine ⟨_, h.request hg method params, ?_⟩
        intro hup _
        rw [if_pos (hup.guests w g hg).2.1, List.append_nil]
  | destroy w =>
      unfold Bridge.step
      dsimp only
      split
      · exact ⟨lost, h, fun _ _ => rfl⟩
      next g hg => exact ⟨lost, h.destroy hg, fun _ hkeeps => hkeeps.elim⟩
  | deliverToPage i =>
      unfold Bridge.step
      dsimp only
      split
      · exact ⟨lost, h, fun _ _ => rfl⟩
      next ev hev =>
        rcases h.deliverToPage hap hev with ⟨lost', hinv, hlost⟩
        exact ⟨lost', hinv, fun hup _ => hlost (hup.hosted h)⟩
  | finish i outcome =>
      unfold Bridge.step
      dsimp only
      split
      · exact ⟨lost, h, fun _ _ => rfl⟩
      next turn hturn =>
        rcases h.finish hap hturn outcome with ⟨host, method, lost', hhost, hmethod, hinv, hlost⟩
        rw [hhost, hmethod]
        exact ⟨lost', hinv, fun hup _ => hlost (hup.hosted h)⟩
  | deliverToFrame i =>
      unfold Bridge.step
      dsimp only
      split
      · exact ⟨lost, h, fun _ _ => rfl⟩
      next w msg hf =>
        have htaken := h.taken hf
        rcases h.frames _ (List.mem_of_getElem? hf) with ⟨widgetId, granted, rfl⟩ | ⟨r, hr, answer, heq, hanswer⟩
        -- a hello
        · have hkey : frameKey (w, HostToWidget.hello widgetId granted) = none := rfl
          rw [hkey, Option.toList_none, List.append_nil] at htaken
          split
          · exact ⟨lost, htaken, fun _ _ => rfl⟩
          next g hg =>
            split
            · rcases g.onMessage_hello widgetId granted with ⟨hpending, hgreets⟩
              rcases g.onMessage_frame (HostToWidget.hello widgetId granted).toJs with ⟨hlistening, _, hseq⟩
              refine ⟨lost, htaken.quiet hg hpending hseq hlistening ?_ ?_, fun _ _ => rfl⟩
              · intro ev hev
                rcases List.mem_filterMap.1 hev with ⟨effect, heffect, hsent⟩
                rcases hgreets effect heffect with ⟨waiter, data, rfl⟩
                cases hsent
              · rw [List.filterMap_eq_nil_iff]
                intro effect heffect
                rcases hgreets effect heffect with ⟨waiter, data, rfl⟩
                rfl
            · exact ⟨lost, htaken, fun _ _ => rfl⟩
        -- a result
        · cases heq
          have hkey : frameKey (r.window, HostToWidget.result (.str r.id) answer) = some (requestKey r) := rfl
          rw [hkey, Option.toList_some] at htaken
          rcases h.numbered r hr with ⟨g, _, hg, _⟩
          rw [hg]
          dsimp only
          have hunderWay : requestKey r ∈ b.underWay := by
            refine List.mem_append_right _ ?_
            exact List.mem_filterMap.2 ⟨_, List.mem_of_getElem? hf, hkey⟩
          by_cases hlisten : g.listening = true
          · have hopen : r.id ∈ g.pending := h.pending r hr g hg hlisten (h.not_settled hunderWay)
            rw [if_pos hlisten, WidgetGuest.onMessage_result, if_pos hopen]
            exact ⟨lost, h.answered hr hanswer hf hg, fun _ _ => rfl⟩
          · rw [if_neg hlisten]
            exact ⟨_, htaken, fun hup _ => absurd (hup.guests _ g hg).1 hlisten⟩
  | detach k =>
      refine ⟨lost, ?_, fun _ _ => rfl⟩
      exact ⟨h.hosting.detach k, h.events, h.calls, h.frames, h.settled, h.numbered, h.pending, h.once, h.kept⟩

theorem Up.guestTurn (hup : Up o widgets b) {w : W} {g : WidgetGuest} (hg : b.guests w = some g)
    {turn : List GuestEffect × WidgetGuest} (hlistening : turn.2.listening = g.listening)
    (horigin : turn.2.targetOrigin = g.targetOrigin) : Up o widgets (b.guestTurn o w turn) := by
  refine ⟨hup.listeners, ?_⟩
  intro w' g' hg'
  by_cases heq : w' = w
  · subst heq
    have hnew : turn.2 = g' := update_some hg'
    rw [← hnew, hlistening, horigin]
    exact hup.guests w' g hg
  · exact hup.guests w' g' ((Function.update_of_ne heq _ _).symm.trans hg')

theorem Up.step (hup : Up o widgets b) (turn : Turn W) (hkeeps : Keeps o widgets b turn) :
    Up o widgets (b.step o turn) := by
  cases turn with
  | load w widgetId targetOrigin =>
      refine ⟨hup.listeners, ?_⟩
      intro w' g' hg'
      by_cases heq : w' = w
      · subst heq
        rw [← update_some hg']
        exact ⟨rfl, hkeeps.2⟩
      · exact hup.guests w' g' ((Function.update_of_ne heq _ _).symm.trans hg')
  | announceReady w =>
      unfold Bridge.step
      dsimp only
      split
      · exact hup
      next g hg => exact hup.guestTurn hg rfl rfl
  | waitHello w waiter =>
      unfold Bridge.step
      dsimp only
      split
      · exact hup
      next g hg =>
        unfold WidgetGuest.waitHello
        split
        · exact hup.guestTurn hg rfl rfl
        · exact hup.guestTurn hg rfl rfl
  | request w method params =>
      unfold Bridge.step
      dsimp only
      split
      · exact hup
      next g hg =>
        have hnext : Up o widgets (b.guestTurn o w (g.request method params)) := hup.guestTurn hg rfl rfl
        exact ⟨hnext.listeners, hnext.guests⟩
  | destroy w => exact hkeeps.elim
  | deliverToPage i =>
      unfold Bridge.step
      dsimp only
      split
      · exact hup
      · exact ⟨hup.listeners, hup.guests⟩
  | finish i outcome =>
      unfold Bridge.step
      dsimp only
      split
      · exact hup
      · split
        · exact ⟨hup.listeners, hup.guests⟩
        · exact ⟨hup.listeners, hup.guests⟩
  | deliverToFrame i =>
      unfold Bridge.step
      dsimp only
      split
      · exact hup
      next w msg hf =>
        have hleft : Up o widgets { b with toFrames := b.toFrames.eraseIdx i } := ⟨hup.listeners, hup.guests⟩
        split
        · exact hleft
        next g hg =>
          split
          · rcases g.onMessage_frame msg.toJs with ⟨hlistening, horigin, _⟩
            exact hleft.guestTurn hg hlistening horigin
          · exact hleft
  | detach k => exact hkeeps.elim

end Step

/-! ## Runs -/

section Runs

variable [DecidableEq W] {widgets : List (WidgetHostOptions × W)}

omit [DecidableEq W] in
theorem inv_start (o : Origins W) (widgets : List (WidgetHostOptions × W)) :
    Inv o widgets [] (start o widgets) := by
  have hhello : ∀ f ∈ (start o widgets).toFrames, ∃ widgetId granted, f.2 = .hello widgetId granted := by
    intro f hf
    rcases List.mem_flatMap.1 hf with ⟨x, _, hx⟩
    have heffects : ((WidgetHost.new x.1).attach x.2).2 =
        [.post x.2 x.1.allowedOrigin (.hello x.1.widgetId x.1.permissions.eraseDups)] := rfl
    rw [heffects] at hx
    rcases List.mem_filterMap.1 hx with ⟨effect, heffect, hposted⟩
    rw [List.mem_singleton.1 heffect] at hposted
    unfold posted at hposted
    dsimp only at hposted
    split at hposted
    · rw [← Option.some.inj hposted]
      exact ⟨_, _, rfl⟩
    · cases hposted
  refine ⟨hosting_start widgets, ?_, ?_, fun f hf => Or.inl (hhello f hf), ?_, ?_, ?_, List.nodup_nil, ?_⟩
  · intro ev hev
    cases hev
  · intro turn hturn
    cases hturn
  · intro s hs
    cases hs
  · intro r hr
    cases hr
  · intro r hr
    cases hr
  · have hkeys : (start o widgets).toFrames.filterMap frameKey = [] := by
      rw [List.filterMap_eq_nil_iff]
      intro f hf
      rcases hhello f hf with ⟨widgetId, granted, heq⟩
      unfold frameKey
      rw [heq]
    unfold underWay
    rw [hkeys]
    exact List.Perm.nil

end Runs

/-! ## One call for a request -/

section Calls

variable {widgets : List (WidgetHostOptions × W)} {b : Bridge W}

/-- The message events that may still lead to a call, and those that have. -/
def callable (b : Bridge W) : List (MessageEvent W) :=
  b.toPage.filter (fun ev => (eventKey ev).isSome) ++ b.calls.map ApiTurn.ev ++ b.returned.map fun p => p.1.ev

/-- What the hosts may make calls of are the requests of the guests, each once, also when a frame has been reloaded
and ids come again. -/
structure Stems (o : Origins W) (widgets : List (WidgetHostOptions × W)) (b : Bridge W) : Prop where
  hosting : Hosting widgets b.page
  events : ∀ ev ∈ b.toPage, ∃ w, (∃ widgetId, ev = eventOf o w (.ready widgetId)) ∨
    ∃ r ∈ b.asked, ev = requestEvent o r
  calls : ∀ turn ∈ b.calls ++ b.returned.map Prod.fst, ∃ r ∈ b.asked, CallOf o widgets r turn
  matched : b.callable.Subperm (b.asked.map (requestEvent o))

/-- Nothing that could be called is new, and no request either. -/
theorem Stems.of_subperm {b' : Bridge W} (h : Stems o widgets b) (hhosting : Hosting widgets b'.page)
    (hasked : b'.asked = b.asked)
    (hevents : ∀ ev ∈ b'.toPage, ev ∈ b.toPage ∨ ∃ w widgetId, ev = eventOf o w (.ready widgetId))
    (hcalls : ∀ turn ∈ b'.calls ++ b'.returned.map Prod.fst, turn ∈ b.calls ++ b.returned.map Prod.fst ∨
      ∃ r ∈ b.asked, CallOf o widgets r turn) (hsub : b'.callable.Subperm b.callable) : Stems o widgets b' := by
  refine ⟨hhosting, ?_, ?_, ?_⟩
  · intro ev hev
    rw [hasked]
    rcases hevents ev hev with hold | ⟨w, widgetId, heq⟩
    · exact h.events ev hold
    · exact ⟨w, Or.inl ⟨widgetId, heq⟩⟩
  · intro turn hturn
    rw [hasked]
    exact (hcalls turn hturn).elim (h.calls turn) id
  · rw [hasked]
    exact hsub.trans h.matched

/-- An event taken out of a list may be put back at its head. -/
theorem perm_filter_eraseIdx {α : Type} {p : α → Bool} {l : List α} {i : Nat} {a : α} (h : l[i]? = some a) :
    (l.filter p).Perm ([a].filter p ++ (l.eraseIdx i).filter p) := by
  rcases List.getElem?_eq_some_iff.1 h with ⟨hlt, rfl⟩
  have hperm : l.Perm ([l[i]] ++ l.eraseIdx i) := (List.getElem_cons_eraseIdx_perm hlt).symm
  rw [← List.filter_append]
  exact hperm.filter p

/-- A message to the page leads to one call at most, which takes its place. -/
theorem Stems.deliverToPage (hap : Apart o widgets) (h : Stems o widgets b) {i : Nat} {ev : MessageEvent W}
    (hev : b.toPage[i]? = some ev) :
    Stems o widgets
      { b with
        toPage := b.toPage.eraseIdx i
        toFrames := b.toFrames ++ (b.page.deliver ev).filterMap fun e => posted o e.2
        calls := b.calls ++ (b.page.deliver ev).filterMap fun e => called e.1 ev e.2 } := by
  have hcallsOf : ((b.page.deliver ev).filterMap fun e => called e.1 ev e.2) = [] ∨
      ∃ turn, ((b.page.deliver ev).filterMap fun e => called e.1 ev e.2) = [turn] ∧ turn.ev = ev ∧
        (eventKey ev).isSome = true ∧ ∃ r ∈ b.asked, CallOf o widgets r turn := by
    rcases h.events ev (List.mem_of_getElem? hev) with ⟨w, ⟨widgetId, rfl⟩ | ⟨r, hr, rfl⟩⟩
    · exact Or.inl (deliver_ready o b.page w widgetId).2
    · rcases deliver_request hap h.hosting r with ⟨_, _, hnone, _⟩ | ⟨turn, _, hone, hcall⟩ | ⟨_, hnone, _⟩
      · exact Or.inl hnone
      · rcases hcall with ⟨x, hx, hwindow, hturn, hout⟩
        exact Or.inr ⟨turn, hone, hturn, rfl, r, hr, x, hx, hwindow, hturn, hout⟩
      · exact Or.inl hnone
  have hevents : ∀ ev' ∈ b.toPage.eraseIdx i, ev' ∈ b.toPage ∨
      ∃ w widgetId, ev' = eventOf o w (.ready widgetId) :=
    fun ev' hev' => Or.inl (List.mem_of_mem_eraseIdx hev')
  rcases hcallsOf with hnone | ⟨turn, hone, hturn, hsome, hcall⟩
  · rw [hnone, List.append_nil]
    refine h.of_subperm h.hosting rfl hevents (fun turn hturn => Or.inl hturn) ?_
    unfold callable
    dsimp only
    rw [List.append_assoc, List.append_assoc]
    exact (((List.eraseIdx_sublist b.toPage i).filter _).append (List.Sublist.refl _)).subperm
  · rw [hone]
    refine h.of_subperm h.hosting rfl hevents ?_ (List.Perm.subperm ?_)
    · intro turn' hturn'
      dsimp only at hturn'
      rw [List.append_assoc, List.singleton_append, List.mem_append, List.mem_cons] at hturn'
      rcases hturn' with hin | rfl | hin
      · exact Or.inl (List.mem_append_left _ hin)
      · exact Or.inr hcall
      · exact Or.inl (List.mem_append_right _ hin)
    · -- the event has become the call
      have hperm := perm_filter_eraseIdx (p := fun ev : MessageEvent W => (eventKey ev).isSome) hev
      have hself : [ev].filter (fun ev => (eventKey ev).isSome) = [ev] :=
        List.filter_eq_self.2 (by simpa using hsome)
      rw [hself] at hperm
      unfold callable
      dsimp only
      rw [List.map_append, List.map_singleton, hturn]
      refine List.Perm.append_right _ ?_
      refine List.Perm.trans ?_ (hperm.symm.append_right _)
      rw [List.append_assoc, ← List.append_assoc]
      exact List.perm_append_comm

/-- A call that returns stays one call. -/
theorem Stems.finish (h : Stems o widgets b) {i : Nat} {turn : ApiTurn W} (hturn : b.calls[i]? = some turn)
    (outcome : Except String JsValue) :
    Stems o widgets
      { b with calls := b.calls.eraseIdx i, returned := b.returned ++ [(turn, outcome)] } := by
  refine h.of_subperm h.hosting rfl (fun ev hev => Or.inl hev) ?_ (List.Perm.subperm ?_)
  · intro turn' hturn'
    refine Or.inl ?_
    dsimp only at hturn'
    rw [List.map_append, List.map_singleton] at hturn'
    rcases List.mem_append.1 hturn' with hin | hin
    · exact List.mem_append_left _ (List.mem_of_mem_eraseIdx hin)
    · rcases List.mem_append.1 hin with hin | hin
      · exact List.mem_append_right _ hin
      · rw [List.mem_singleton.1 hin]
        exact List.mem_append_left _ (List.mem_of_getElem? hturn)
  · -- the call has become one that returned
    rcases List.getElem?_eq_some_iff.1 hturn with ⟨hlt, rfl⟩
    have hperm := ((List.getElem_cons_eraseIdx_perm hlt).map ApiTurn.ev).symm
    unfold callable
    dsimp only
    rw [List.map_append, List.map_singleton, List.append_assoc, List.append_assoc]
    refine List.Perm.append_left _ ?_
    refine List.Perm.trans ?_ (hperm.symm.append_right _)
    rw [← List.append_assoc, List.map_cons]
    exact List.perm_append_comm

variable [DecidableEq W]

/-- A guest that posts nothing but ready messages makes nothing callable. -/
theorem Stems.quiet (h : Stems o widgets b) {w : W} {turn : List GuestEffect × WidgetGuest}
    (hsent : ∀ ev ∈ turn.1.filterMap (sent o w), ∃ widgetId, ev = eventOf o w (.ready widgetId)) :
    Stems o widgets (b.guestTurn o w turn) := by
  have hnone : (turn.1.filterMap (sent o w)).filter (fun ev => (eventKey ev).isSome) = [] := by
    rw [List.filter_eq_nil_iff]
    intro ev hev
    rcases hsent ev hev with ⟨widgetId, rfl⟩
    simp
  refine h.of_subperm h.hosting rfl ?_ (fun turn hturn => Or.inl hturn) ?_
  · intro ev hev
    rcases List.mem_append.1 hev with hev | hev
    · exact Or.inl hev
    · exact Or.inr ⟨w, hsent ev hev⟩
  · have hsame : (b.guestTurn o w turn).callable = b.callable := by
      simp [callable, guestTurn, List.filter_append, hnone]
    rw [hsame]

/-- A request makes one event callable, if it is posted. -/
theorem Stems.request (h : Stems o widgets b) (w : W) (g : WidgetGuest) (method : String) (params : JsValue) :
    Stems o widgets
      { b.guestTurn o w (g.request method params) with
        asked := b.asked ++ [⟨w, WidgetGuest.requestId (g.seq + 1), method, params⟩] } := by
  let r : Asked W := ⟨w, WidgetGuest.requestId (g.seq + 1), method, params⟩
  have hsub : b.asked ⊆ b.asked ++ [r] := List.subset_append_left _ _
  have hnew : ((g.request method params).1.filterMap (sent o w)).Sublist [requestEvent o r] := by
    rw [sent_request]
    split
    · exact List.Sublist.refl _
    · exact List.nil_sublist _
  refine ⟨h.hosting, ?_, ?_, ?_⟩
  · intro ev hev
    rcases List.mem_append.1 hev with hev | hev
    · rcases h.events ev hev with ⟨w', hready | ⟨r', hr', hreq⟩⟩
      · exact ⟨w', Or.inl hready⟩
      · exact ⟨w', Or.inr ⟨r', hsub hr', hreq⟩⟩
    · exact ⟨w, Or.inr ⟨r, by simp [r], List.mem_singleton.1 (hnew.subset hev)⟩⟩
  · intro turn hturn
    rcases h.calls turn hturn with ⟨r', hr', hcall⟩
    exact ⟨r', hsub hr', hcall⟩
  · have hfilter := @List.filter_sublist _ (fun ev : MessageEvent W => (eventKey ev).isSome)
      ((g.request method params).1.filterMap (sent o w))
    have hone : (((g.request method params).1.filterMap (sent o w)).filter
        fun ev => (eventKey ev).isSome).Subperm [requestEvent o r] := (hfilter.trans hnew).subperm
    have hsum : (((g.request method params).1.filterMap (sent o w)).filter (fun ev => (eventKey ev).isSome) ++
        b.callable).Subperm ([requestEvent o r] ++ b.asked.map (requestEvent o)) :=
      List.Subperm.trans ((List.subperm_append_right _).2 hone) ((List.subperm_append_left _).2 h.matched)
    rw [List.map_append, List.map_singleton]
    refine List.Subperm.trans (List.Subperm.trans ?_ hsum) List.perm_append_comm.subperm
    refine List.Perm.subperm ?_
    simp only [callable, guestTurn, List.filter_append, List.append_assoc]
    exact List.perm_append_comm_assoc _ _ _

theorem Stems.step (hap : Apart o widgets) (h : Stems o widgets b) (turn : Turn W) :
    Stems o widgets (b.step o turn) := by
  cases turn with
  | load w widgetId targetOrigin => exact ⟨h.hosting, h.events, h.calls, h.matched⟩
  | announceReady w =>
      unfold Bridge.step
      dsimp only
      split
      · exact h
      next g _ => exact h.quiet fun ev hev => ⟨g.widgetId, sent_announceReady hev⟩
  | waitHello w waiter =>
      unfold Bridge.step
      dsimp only
      split
      · exact h
      next g hg =>
        unfold WidgetGuest.waitHello
        split
        · exact h.quiet fun _ hev => absurd hev List.not_mem_nil
        · exact h.quiet fun _ hev => absurd hev List.not_mem_nil
  | request w method params =>
      unfold Bridge.step
      dsimp only
      split
      · exact h
      next g _ => exact h.request w g method params
  | destroy w =>
      unfold Bridge.step
      dsimp only
      split
      · exact h
      · exact h.quiet fun _ hev => absurd hev List.not_mem_nil
  | deliverToPage i =>
      unfold Bridge.step
      dsimp only
      split
      · exact h
      next ev hev => exact h.deliverToPage hap hev
  | finish i outcome =>
      unfold Bridge.step
      dsimp only
      split
      · exact h
      next turn hturn =>
        have hleft := h.finish hturn outcome
        split
        · exact ⟨hleft.hosting, hleft.events, hleft.calls, hleft.matched⟩
        · exact hleft
  | deliverToFrame i =>
      unfold Bridge.step
      dsimp only
      split
      · exact h
      next w msg hf =>
        have hleft : Stems o widgets { b with toFrames := b.toFrames.eraseIdx i } :=
          ⟨h.hosting, h.events, h.calls, h.matched⟩
        split
        · exact hleft
        next g hg =>
          split
          · refine hleft.quiet ?_
            intro ev hev
            rcases List.mem_filterMap.1 hev with ⟨effect, heffect, hsent⟩
            cases effect with
            | post origin msg' => exact absurd heffect (g.onMessage_posts_nothing _ _ _)
            | resolve id data => cases hsent
            | reject id error => cases hsent
            | greet waiter granted => cases hsent
          · exact hleft
  | detach k => exact ⟨h.hosting.detach k, h.events, h.calls, h.matched⟩

end Calls

/-! ## Two widgets that ask at once -/

section Example

end Example

end Bridge

end Widget
end Thunderducks
