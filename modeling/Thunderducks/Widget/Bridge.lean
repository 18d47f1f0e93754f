import Mathlib.Data.List.Nodup
import Mathlib.Data.List.Perm.Basic
import Thunderducks.Widget.Guest

/-!
# Bridge — widgets, their hosts and the messages between them (`widget-sdk/src/guest.ts`, `host.ts`)

The windows of a page post messages to each other, which are delivered in any order; the calls of the page's
API return in any order too.  `Bridge.step` is one turn of this: something a guest does, one delivery, one
return.  When every frame has an origin of its own and a host that admits that origin, the host of a frame is
the only one to do anything about the messages of its guest (`filterMap_deliver_own`).
-/

namespace Thunderducks
namespace Widget

open Lib

/-! ## The parties -/

/-- The origins of the page and of its frames. -/
structure Origins (W : Type) where
  page : String
  frame : W → String

/-- A request that a guest made. -/
structure Asked (W : Type) where
  window : W
  id : String
  method : String
  params : JsValue

/-- A call of the API that a host made for a message event. -/
structure ApiTurn (W : Type) where
  host : Nat
  ev : MessageEvent W
  call : ApiCall

structure Bridge (W : Type) where
  page : Page W
  /-- The guest of each frame, once its script is loaded. -/
  guests : W → Option WidgetGuest
  toPage : List (MessageEvent W)
  toFrames : List (W × HostToWidget)
  /-- The calls of the API that have not returned. -/
  calls : List (ApiTurn W)
  returned : List (ApiTurn W × Except String JsValue)
  asked : List (Asked W)
  settled : List (W × String × Except String JsValue)

inductive Turn (W : Type)
  /-- The script of the frame is loaded, for the first time or again. -/
  | load (w : W) (widgetId targetOrigin : String)
  | announceReady (w : W)
  | waitHello (w : W) (waiter : Nat)
  | request (w : W) (method : String) (params : JsValue)
  | destroy (w : W)
  | deliverToPage (i : Nat)
  | finish (i : Nat) (outcome : Except String JsValue)
  | deliverToFrame (i : Nat)
  | detach (k : Nat)

namespace Bridge

variable {W : Type}

/-- `targetOrigin` of `postMessage`: a message for another origin is dropped.  The text `null` of an opaque origin is
no URL, and the call throws: such a frame is reached with `*` only. -/
def meets (targetOrigin origin : String) : Bool :=
  targetOrigin = "*" ∨ (targetOrigin = origin ∧ targetOrigin ≠ "null")

def posted (o : Origins W) : Effect W → Option (W × HostToWidget)
  | .post window origin msg => if meets origin (o.frame window) then some (window, msg) else none
  | _ => none

def called (k : Nat) (ev : MessageEvent W) : Effect W → Option (ApiTurn W)
  | .call call => some { host := k, ev := ev, call := call }
  | _ => none

/-- The message event of what a guest posts to its parent. -/
def eventOf (o : Origins W) (w : W) (msg : WidgetToHost) : MessageEvent W :=
  { source := some w
    origin := o.frame w
    data := msg.toJs }

def sent (o : Origins W) (w : W) : GuestEffect → Option (MessageEvent W)
  | .post origin msg => if meets origin o.page then some (eventOf o w msg) else none
  | _ => none

def settles (w : W) : GuestEffect → Option (W × String × Except String JsValue)
  | .resolve id data => some (w, id, .ok data)
  | .reject id e => some (w, id, .error e)
  | _ => none

/-- The page makes and attaches a host for each widget, one after the other. -/
def setup (widgets : List (WidgetHostOptions × W)) : List (PageStep W) :=
  widgets.zipIdx.flatMap fun x => [.construct x.1.1, .attach x.2 x.1.2]

/-- The host of a widget. -/
def attached (x : WidgetHostOptions × W) : WidgetHost W :=
  ((WidgetHost.new x.1).attach x.2).1

def start (o : Origins W) (widgets : List (WidgetHostOptions × W)) : Bridge W :=
  { page := Runs.run Page.step Page.empty (setup widgets)
    guests := fun _ => none
    toPage := []
    toFrames := widgets.flatMap fun x => ((WidgetHost.new x.1).attach x.2).2.filterMap (posted o)
    calls := []
    returned := []
    asked := []
    settled := [] }

variable [DecidableEq W]

/-- What a guest does with an effect list, and the guest it leaves. -/
def guestTurn (o : Origins W) (b : Bridge W) (w : W) (r : List GuestEffect × WidgetGuest) : Bridge W :=
  { b with
    guests := Function.update b.guests w (some r.2)
    toPage := b.toPage ++ r.1.filterMap (sent o w)
    settled := b.settled ++ r.1.filterMap (settles w) }

def step (o : Origins W) (b : Bridge W) : Turn W → Bridge W
  | .load w widgetId targetOrigin =>
      -- a reload ends the guest of the frame, with its promises and the messages on their way to it
      { b with
        guests := Function.update b.guests w (some (WidgetGuest.new widgetId targetOrigin))
        toFrames := if (b.guests w).isSome then b.toFrames.filter fun f => f.1 ≠ w else b.toFrames }
  | .announceReady w =>
      match b.guests w with
      | none => b
      | some g => b.guestTurn o w (g.announceReady, g)
  | .waitHello w waiter =>
      match b.guests w with
      | none => b
      | some g => b.guestTurn o w (g.waitHello waiter)
  | .request w method params =>
      match b.guests w with
      | none => b
      | some g =>
          { b.guestTurn o w (g.request method params) with
            asked := b.asked ++ [⟨w, WidgetGuest.requestId (g.seq + 1), method, params⟩] }
  | .destroy w =>
      match b.guests w with
      | none => b
      | some g => b.guestTurn o w ([], g.destroy)
  | .deliverToPage i =>
      match b.toPage[i]? with
      | none => b
      | some ev =>
          { b with
            toPage := b.toPage.eraseIdx i
            toFrames := b.toFrames ++ (b.page.deliver ev).filterMap fun e => posted o e.2
            calls := b.calls ++ (b.page.deliver ev).filterMap fun e => called e.1 ev e.2 }
  | .finish i outcome =>
      match b.calls[i]? with
      | none => b
      | some turn =>
          let left := { b with calls := b.calls.eraseIdx i, returned := b.returned ++ [(turn, outcome)] }
          match b.page.hosts[turn.host]?, turn.ev.data.get "method" with
          | some host, .str method =>
              { left with
                toFrames := b.toFrames ++
                  (host.settle method (turn.ev.data.get "id") outcome).filterMap (posted o) }
          | _, _ => left
  | .deliverToFrame i =>
      match b.toFrames[i]? with
      | none => b
      | some (w, msg) =>
          let left := { b with toFrames := b.toFrames.eraseIdx i }
          match b.guests w with
          | none => left
          | some g => if g.listening then left.guestTurn o w (g.onMessage msg.toJs) else left
  | .detach k => { b with page := b.page.step (.detach k) }

end Bridge

/-! ## What a host makes of a request -/

namespace WidgetHost

variable {W : Type}

/-- An answer at once, or a call whose outcome is the answer. -/
def outcome (host : WidgetHost W) (method : String) (params : JsValue) : Except String ApiCall :=
  if forbidden method then
    .error ("permission denied: " ++ method)
  else
    host.dispatch method (params.orElse (.literal []))

/-- A request is answered at once or leads to one call. -/
theorem handleRequest_request (host : WidgetHost W) (id method : String) (params : JsValue) :
    (∃ e line, host.outcome method params = .error e ∧
      host.handleRequest (WidgetToHost.request id method params).toJs =
        host.audit line ++ host.post (.result (.str id) (.error e))) ∨
    ∃ call, host.outcome method params = .ok call ∧
      host.handleRequest (WidgetToHost.request id method params).toJs = [.call call] := by
  have hmethod : (WidgetToHost.request id method params).toJs.get "method" = .str method := rfl
  have hid : (WidgetToHost.request id method params).toJs.get "id" = .str id := rfl
  have hparams : (WidgetToHost.request id method params).toJs.get "params" = params := rfl
  unfold handleRequest outcome
  rw [hmethod]
  dsimp only
  rw [hid, hparams]
  by_cases hforbidden : forbidden method = true
  · rw [if_pos hforbidden, if_pos hforbidden]
    exact Or.inl ⟨_, _, rfl, rfl⟩
  · rw [if_neg hforbidden, if_neg hforbidden]
    unfold JsValue.literal
    cases host.dispatch method (params.orElse (.object [] (some "[object Object]"))) with
    | error e => exact Or.inl ⟨e, _, rfl, rfl⟩
    | ok call => exact Or.inr ⟨call, rfl, rfl⟩

/-- An admitted request is handled. -/
theorem onMessage_request {host : WidgetHost W} {ev : MessageEvent W} {id method : String} {params : JsValue}
    (hdata : ev.data = (WidgetToHost.request id method params).toJs) (hadmits : host.Admits ev) :
    host.onMessage ev = host.handleRequest ev.data := by
  have hin : ¬ (host.allowedOrigin ≠ "*" ∧ ev.origin ≠ host.allowedOrigin) := by
    rintro ⟨hstar, horigin⟩
    exact hadmits.elim hstar horigin
  unfold onMessage
  rw [if_neg hin, hdata]
  rfl

/-- A ready message is noted and no more. -/
theorem onMessage_ready {host : WidgetHost W} {ev : MessageEvent W} {widgetId : String}
    (hdata : ev.data = (WidgetToHost.ready widgetId).toJs) : ∃ line, host.onMessage ev = host.audit line := by
  unfold onMessage
  split
  · exact ⟨_, rfl⟩
  · rw [hdata]
    exact ⟨_, rfl⟩

/-- What comes from elsewhere is dropped. -/
theorem onMessage_foreign {host : WidgetHost W} {ev : MessageEvent W} (h : ¬ host.Admits ev) :
    ∃ line, host.onMessage ev = host.audit line := by
  have hout : host.allowedOrigin ≠ "*" ∧ ev.origin ≠ host.allowedOrigin :=
    ⟨fun hstar => h (Or.inl hstar), fun horigin => h (Or.inr horigin)⟩
  unfold onMessage
  rw [if_pos hout]
  exact ⟨_, rfl⟩

end WidgetHost

namespace Bridge

variable {W : Type} {o : Origins W}

theorem posted_audit (host : WidgetHost W) (line : String) : (host.audit line).filterMap (posted o) = [] := by
  unfold WidgetHost.audit
  split <;> rfl

theorem called_audit (host : WidgetHost W) (line : String) (k : Nat) (ev : MessageEvent W) :
    (host.audit line).filterMap (called k ev) = [] := by
  unfold WidgetHost.audit
  split <;> rfl

theorem called_post (host : WidgetHost W) (msg : HostToWidget) (k : Nat) (ev : MessageEvent W) :
    (host.post msg).filterMap (called k ev) = [] := by
  unfold WidgetHost.post
  split <;> rfl

/-- The host of a widget reaches its frame. -/
theorem posted_attached {x : WidgetHostOptions × W} (hx : x.1.allowedOrigin = o.frame x.2)
    (hnull : o.frame x.2 ≠ "null") (msg : HostToWidget) :
    ((attached x).post msg).filterMap (posted o) = [(x.2, msg)] := by
  have hmeets : meets (attached x).allowedOrigin (o.frame x.2) = true := by
    have horigin : (attached x).allowedOrigin = o.frame x.2 := hx
    simp [meets, horigin, hnull]
  unfold WidgetHost.post
  have htarget : (attached x).target = some x.2 := rfl
  rw [htarget]
  simp [posted, hmeets]

/-- A host that was taken down reaches nobody. -/
theorem posted_detached (host : WidgetHost W) (msg : HostToWidget) :
    (host.detach.post msg).filterMap (posted o) = [] := rfl

/-- Once its call has returned, a host posts the outcome as the answer. -/
theorem posted_settle (host : WidgetHost W) (method : String) (id : JsValue) (outcome : Except String JsValue) :
    (host.settle method id outcome).filterMap (posted o) =
      (host.post (.result id outcome)).filterMap (posted o) := by
  cases outcome with
  | ok data => rfl
  | error e =>
      calc
        (host.settle method id (.error e)).filterMap (posted o)
            = (host.audit ("error method=" ++ method ++ " " ++ e)).filterMap (posted o) ++
                (host.post (.result id (.error e))).filterMap (posted o) := List.filterMap_append
        _ = (host.post (.result id (.error e))).filterMap (posted o) := by rw [posted_audit, List.nil_append]

/-! ## The hosts of the page -/

theorem setup_append (widgets : List (WidgetHostOptions × W)) (x : WidgetHostOptions × W) :
    setup (widgets ++ [x]) = setup widgets ++ [.construct x.1, .attach widgets.length x.2] := by
  simp [setup, List.zipIdx_append]

/-- Every widget has its host, and every host listens. -/
theorem page_start (widgets : List (WidgetHostOptions × W)) :
    Runs.run Page.step Page.empty (setup widgets) =
      { hosts := widgets.map attached
        listeners := List.range widgets.length } := by
  induction widgets using List.reverseRecOn with
  | nil => rfl
  | append_singleton widgets x ih =>
      rw [setup_append, Runs.run_append, ih]
      have hbound : (WidgetHost.new x.1 : WidgetHost W).bound = false := rfl
      have hset : (widgets.map attached ++ [WidgetHost.new x.1]).set widgets.length
          ((WidgetHost.new x.1).attach x.2).1 = widgets.map attached ++ [attached x] := by
        rw [List.set_append_right _ _ (by simp)]
        simp [attached]
      simp [Runs.run, Page.step, hbound, hset, List.range_succ]

/-- Each host is that of its widget, attached if it listens and taken down otherwise. -/
structure Hosting (widgets : List (WidgetHostOptions × W)) (page : Page W) : Prop where
  hosts : ∀ {k : Nat} {host : WidgetHost W}, page.hosts[k]? = some host → ∃ x, widgets[k]? = some x ∧
    ((k ∈ page.listeners ∧ host = attached x) ∨ (k ∉ page.listeners ∧ host = (attached x).detach))
  all : page.hosts.length = widgets.length
  once : page.listeners.Nodup
  listed : ∀ k ∈ page.listeners, k < widgets.length

theorem hosting_start (widgets : List (WidgetHostOptions × W)) :
    Hosting widgets (Runs.run Page.step Page.empty (setup widgets)) := by
  rw [page_start]
  refine ⟨?_, List.length_map _, List.nodup_range, fun k hk => List.mem_range.1 hk⟩
  intro k host hk
  simp only [List.getElem?_map, Option.map_eq_some_iff] at hk
  rcases hk with ⟨x, hx, rfl⟩
  have hlt : k < widgets.length := (List.getElem?_eq_some_iff.1 hx).1
  exact ⟨x, hx, Or.inl ⟨List.mem_range.2 hlt, rfl⟩⟩

/-- A host that is taken down once more stays as it is. -/
theorem detach_detach (host : WidgetHost W) : host.detach.detach = host.detach := rfl

theorem Hosting.detach {widgets : List (WidgetHostOptions × W)} {page : Page W} (h : Hosting widgets page) (k : Nat) :
    Hosting widgets (page.step (.detach k)) := by
  unfold Page.step
  dsimp only
  cases hk : page.hosts[k]? with
  | none => exact h
  | some host =>
      have hlt : k < page.hosts.length := (List.getElem?_eq_some_iff.1 hk).1
      rcases h.hosts hk with ⟨x, hx, hstate⟩
      -- in both cases the host is taken down and does not listen
      have hnew : host.detach = (attached x).detach := by
        rcases hstate with ⟨_, rfl⟩ | ⟨_, rfl⟩
        · rfl
        · exact detach_detach _
      have hlisteners : ∀ j, j ∈ (if host.bound then page.listeners.filter (· ≠ k) else page.listeners) ↔
          j ∈ page.listeners ∧ j ≠ k := by
        intro j
        rcases hstate with ⟨_, rfl⟩ | ⟨hout, rfl⟩
        · have hbound : (attached x).bound = true := rfl
          simp [hbound]
        · have hbound : (attached x).detach.bound = false := rfl
          rw [hbound]
          refine ⟨fun hj => ⟨hj, ?_⟩, fun hj => hj.1⟩
          rintro rfl
          exact hout hj
      refine ⟨?_, ?_, ?_, ?_⟩
      · intro j host' hj
        dsimp only at hj
        by_cases heq : j = k
        · subst heq
          rw [List.getElem?_set_self hlt] at hj
          cases hj
          refine ⟨x, hx, Or.inr ⟨?_, hnew⟩⟩
          rw [hlisteners]
          exact fun hmem => hmem.2 rfl
        · rw [List.getElem?_set_ne (Ne.symm heq)] at hj
          rcases h.hosts hj with ⟨y, hy, ⟨hin, rfl⟩ | ⟨hout, rfl⟩⟩
          · exact ⟨y, hy, Or.inl ⟨(hlisteners j).2 ⟨hin, heq⟩, rfl⟩⟩
          · exact ⟨y, hy, Or.inr ⟨fun hin => hout ((hlisteners j).1 hin).1, rfl⟩⟩
      · dsimp only
        rw [List.length_set]
        exact h.all
      · dsimp only
        split
        · exact h.once.filter _
        · exact h.once
      · intro j hj
        exact h.listed j ((hlisteners j).1 hj).1

/-! ## Frames with origins of their own -/

/-- Every widget has a frame of its own whose origin, which is not opaque, no other window has, and its host admits
that origin and no other. -/
structure Apart (o : Origins W) (widgets : List (WidgetHostOptions × W)) : Prop where
  own : ∀ x ∈ widgets, x.1.allowedOrigin = o.frame x.2
  named : ∀ x ∈ widgets, o.frame x.2 ≠ "null"
  closed : ∀ x ∈ widgets, x.1.allowedOrigin ≠ "*"
  frames : (widgets.map Prod.snd).Nodup
  apart : ∀ x ∈ widgets, ∀ w, o.frame w = o.frame x.2 → w = x.2

/-- Only one entry of a list without repetitions contributes. -/
theorem flatMap_eq_of_only {α β : Type} [DecidableEq α] {f : α → List β} {a : α} : ∀ {l : List α}, l.Nodup →
    (∀ b ∈ l, b ≠ a → f b = []) → l.flatMap f = if a ∈ l then f a else [] := by
  intro l
  induction l with
  | nil =>
      intro _ _
      rfl
  | cons b l ih =>
      intro hnd honly
      have hrest : l.flatMap f = if a ∈ l then f a else [] :=
        ih (List.nodup_cons.1 hnd).2 fun c hc => honly c (List.mem_cons_of_mem _ hc)
      rw [List.flatMap_cons, hrest]
      by_cases heq : b = a
      · subst heq
        rw [if_neg (List.nodup_cons.1 hnd).1, if_pos List.mem_cons_self, List.append_nil]
      · rw [honly b List.mem_cons_self heq, List.nil_append]
        have hiff : a ∈ b :: l ↔ a ∈ l := by
          rw [List.mem_cons]
          exact ⟨fun h => h.resolve_left fun h' => heq h'.symm, Or.inr⟩
        rw [if_congr hiff rfl rfl]

/-- The effects of an event, host by host. -/
theorem filterMap_deliver {β : Type} (page : Page W) (ev : MessageEvent W) (f : Nat → Effect W → Option β) :
    (page.deliver ev).filterMap (fun e => f e.1 e.2) = page.listeners.flatMap fun k =>
      match page.hosts[k]? with
      | none => []
      | some host => (host.onMessage ev).filterMap (f k) := by
  unfold Page.deliver
  induction page.listeners with
  | nil => rfl
  | cons k rest ih =>
      rw [List.flatMap_cons, List.flatMap_cons, List.filterMap_append, ih]
      congr 1
      cases page.hosts[k]? with
      | none => rfl
      | some host =>
          dsimp only
          rw [List.filterMap_map]
          rfl

section Deliver

variable {widgets : List (WidgetHostOptions × W)} {page : Page W}

/-- The host of another frame does nothing but note the event. -/
theorem foreign_of_apart (hap : Apart o widgets) {j k : Nat} {x y : WidgetHostOptions × W}
    (hx : widgets[k]? = some x) (hy : widgets[j]? = some y) (hne : j ≠ k) {ev : MessageEvent W}
    (horigin : ev.origin = o.frame x.2) : ¬ (attached y).Admits ev := by
  rintro (hstar | hsame)
  · exact hap.closed y (List.mem_of_getElem? hy) hstar
  · have hframe : o.frame x.2 = o.frame y.2 := by
      calc
        o.frame x.2 = ev.origin := horigin.symm
        _ = y.1.allowedOrigin := hsame
        _ = o.frame y.2 := hap.own y (List.mem_of_getElem? hy)
    have hwindow : x.2 = y.2 := hap.apart y (List.mem_of_getElem? hy) x.2 hframe
    apply hne
    have hjlt : j < (widgets.map Prod.snd).length := by
      rw [List.length_map]
      exact (List.getElem?_eq_some_iff.1 hy).1
    refine (List.getElem?_inj hjlt hap.frames).1 ?_
    rw [List.getElem?_map, List.getElem?_map, hy, hx]
    exact congrArg some hwindow.symm

/-- Only the host of its own frame does anything about an event. -/
theorem filterMap_deliver_own {β : Type} (hap : Apart o widgets) (h : Hosting widgets page) {k : Nat}
    {x : WidgetHostOptions × W} (hx : widgets[k]? = some x) {ev : MessageEvent W}
    (horigin : ev.origin = o.frame x.2) {f : Nat → Effect W → Option β}
    (haudit : ∀ j (host : WidgetHost W) line, (host.audit line).filterMap (f j) = []) :
    (page.deliver ev).filterMap (fun e => f e.1 e.2) =
      if k ∈ page.listeners then ((attached x).onMessage ev).filterMap (f k) else [] := by
  rw [filterMap_deliver]
  have honly : ∀ j ∈ page.listeners, j ≠ k → (match page.hosts[j]? with
      | none => []
      | some host => (host.onMessage ev).filterMap (f j)) = ([] : List β) := by
    intro j hj hne
    cases hhost : page.hosts[j]? with
    | none => rfl
    | some host =>
        rcases h.hosts hhost with ⟨y, hy, ⟨_, rfl⟩ | ⟨hout, _⟩⟩
        · rcases WidgetHost.onMessage_foreign (foreign_of_apart hap hx hy hne horigin) with ⟨line, hline⟩
          dsimp only
          rw [hline]
          exact haudit j _ line
        · exact absurd hj hout
  rw [flatMap_eq_of_only h.once honly]
  by_cases hk : k ∈ page.listeners
  · rw [if_pos hk, if_pos hk]
    have hlt : k < page.hosts.length := by
      rw [h.all]
      exact h.listed k hk
    have hhost : page.hosts[k]? = some page.hosts[k] := List.getElem?_eq_getElem hlt
    rcases h.hosts hhost with ⟨y, hy, ⟨_, heq⟩ | ⟨hout, _⟩⟩
    · have hxy : x = y := Option.some.inj (hx.symm.trans hy)
      rw [hhost, heq, hxy]
    · exact absurd hk hout
  · rw [if_neg hk, if_neg hk]

/-- The event of a guest without a host leads to nothing. -/
theorem filterMap_deliver_none {β : Type} (hap : Apart o widgets) (h : Hosting widgets page)
    {ev : MessageEvent W} (horigin : ∀ x ∈ widgets, ev.origin ≠ o.frame x.2) {f : Nat → Effect W → Option β}
    (haudit : ∀ j (host : WidgetHost W) line, (host.audit line).filterMap (f j) = []) :
    (page.deliver ev).filterMap (fun e => f e.1 e.2) = [] := by
  rw [filterMap_deliver, List.flatMap_eq_nil_iff]
  intro j hj
  cases hhost : page.hosts[j]? with
  | none => rfl
  | some host =>
      rcases h.hosts hhost with ⟨y, hy, ⟨_, rfl⟩ | ⟨hout, _⟩⟩
      · have hmem : y ∈ widgets := List.mem_of_getElem? hy
        have hforeign : ¬ (attached y).Admits ev := by
          rintro (hstar | hsame)
          · exact hap.closed y hmem hstar
          · exact horigin y hmem (hsame.trans (hap.own y hmem))
        rcases WidgetHost.onMessage_foreign hforeign with ⟨line, hline⟩
        dsimp only
        rw [hline]
        exact haudit j _ line
      · exact absurd hj hout

end Deliver

end Bridge

end Widget
end Thunderducks
