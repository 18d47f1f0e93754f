import Mathlib.Data.List.Infix
import Thunderducks.Lib.Checked
import Thunderducks.Lib.Runs

/-!
# Host — widget hosts on one page (`widget-sdk/src/host.ts`, `protocol.ts`)

Each `WidgetHost` serves one iframe.  All hosts of a page listen to the same `message` event, and
`onMessage` looks at the origin of an event and at its data, not at the window it comes from.  So a host
answers a request of any window whose origin it admits; `isolated_iff` says when every request is
served by the host of its own window.
-/

namespace Thunderducks
namespace Widget

open Lib

/-! ## Protocol -/

/-- What a message carries: values that can be cloned.  An object has the properties a script can read
and the text `String` makes of it, if it makes one. -/
inductive JsValue
  | undefined
  | null
  | primitive (text : String)
  | str (s : String)
  | object (props : List (String × JsValue)) (text : Option String)

namespace JsValue

/-- A property; absent ones are `undefined`. -/
def get : JsValue → String → JsValue
  | .object props _, key => (props.lookup key).getD .undefined
  | _, _ => .undefined

/-- `String(v)`. -/
def toStr : JsValue → Except String String
  | .undefined => .ok "undefined"
  | .null => .ok "null"
  | .primitive text => .ok text
  | .str s => .ok s
  | .object _ (some text) => .ok text
  | .object _ none => .error "Cannot convert object to primitive value"

/-- `v ?? w`. -/
def orElse (v w : JsValue) : JsValue :=
  match v with
  | .undefined => w
  | .null => w
  | v => v

/-- `v === s` for a string. -/
def isStr : JsValue → String → Bool
  | .str s, t => s = t
  | _, _ => false

theorem isStr_iff {v : JsValue} {s : String} : v.isStr s = true ↔ v = .str s := by
  cases v <;> simp [isStr]

end JsValue

def tdWidgetChannel : String :=
  "td-widget-v1"

/-- Capabilities a widget may request.  Deny-by-default. -/
inductive WidgetPermission
  | roomSend
  | roomRead
  | roomList
  | devicePublicId
  deriving DecidableEq

def WidgetPermission.name : WidgetPermission → String
  | .roomSend => "room.send"
  | .roomRead => "room.read"
  | .roomList => "room.list"
  | .devicePublicId => "device.public_id"

/-- Permissions that must NEVER be granted to widgets. -/
def forbiddenPermissions : List String :=
  ["keys.read", "keys.export", "e2ee.session", "device.private_key", "signing_key", "megolm.export",
    "olm.export"]

inductive HostToWidget
  | hello (widgetId : String) (granted : List WidgetPermission)
  | result (id : JsValue) (answer : Except String JsValue)

def isWidgetMessage : JsValue → Bool
  | .object props text => (JsValue.get (.object props text) "channel").isStr tdWidgetChannel
  | _ => false

/-! ## Hosts -/

/-- Which functions of `HostRoomApi` the page provides. -/
structure HostRoomApi where
  send : Bool
  listMessages : Bool
  listRooms : Bool
  publicDeviceId : Bool

/-- A call of a function of `HostRoomApi`. -/
inductive ApiCall
  | send (roomId text : String)
  | listMessages (roomId : String)
  | listRooms
  | publicDeviceId
  deriving DecidableEq

structure WidgetHostOptions where
  widgetId : String
  /-- Permissions granted to this widget instance. -/
  permissions : List WidgetPermission
  /-- Origin expected from the iframe (use "*" only in local demos). -/
  allowedOrigin : String
  api : HostRoomApi
  /-- Whether there is a sink for audit log lines. -/
  onAudit : Bool

/-- A host; `W` is the type of windows. -/
structure WidgetHost (W : Type) where
  widgetId : String
  permissions : List WidgetPermission
  allowedOrigin : String
  api : HostRoomApi
  onAudit : Bool
  target : Option W
  bound : Bool

/-- A `message` event. -/
structure MessageEvent (W : Type) where
  source : Option W
  origin : String
  data : JsValue

/-- What a handler does. -/
inductive Effect (W : Type)
  | audit (line : String)
  | post (window : W) (origin : String) (msg : HostToWidget)
  | call (call : ApiCall)

namespace WidgetHost

variable {W : Type}

def new (opts : WidgetHostOptions) : WidgetHost W :=
  { widgetId := opts.widgetId
    permissions := opts.permissions.eraseDups
    allowedOrigin := opts.allowedOrigin
    api := opts.api
    onAudit := opts.onAudit
    target := none
    bound := false }

def audit (host : WidgetHost W) (line : String) : List (Effect W) :=
  if host.onAudit then [.audit line] else []

def post (host : WidgetHost W) (msg : HostToWidget) : List (Effect W) :=
  match host.target with
  | none => []
  | some window => [.post window host.allowedOrigin msg]

/-- Attach to iframe contentWindow and start listening. -/
def attach (host : WidgetHost W) (iframeWindow : W) : WidgetHost W × List (Effect W) :=
  let host := { host with target := some iframeWindow, bound := true }
  (host, host.post (.hello host.widgetId host.permissions))

def detach (host : WidgetHost W) : WidgetHost W :=
  { host with target := none, bound := false }

def require (host : WidgetHost W) (perm : WidgetPermission) : Except String Unit :=
  if perm ∈ host.permissions then .ok () else .error ("missing permission: " ++ perm.name)

/-- `String(params.key ?? "")`. -/
def param (params : JsValue) (key : String) : Except String String :=
  ((params.get key).orElse (.str "")).toStr

/-- The call that a request comes to, or the message of what is thrown before it. -/
def dispatch (host : WidgetHost W) (method : String) (params : JsValue) : Except String ApiCall :=
  if method = "room.send" then do
    host.require .roomSend
    let roomId ← param params "roomId"
    let text ← param params "text"
    if host.api.send then .ok (.send roomId text) else .error "send api unavailable"
  else if method = "room.read" then do
    host.require .roomRead
    let roomId ← param params "roomId"
    if host.api.listMessages then .ok (.listMessages roomId) else .error "listMessages api unavailable"
  else if method = "room.list" then do
    host.require .roomList
    if host.api.listRooms then .ok .listRooms else .error "listRooms api unavailable"
  else if method = "device.public_id" then do
    host.require .devicePublicId
    if host.api.publicDeviceId then .ok .publicDeviceId else .error "publicDeviceId api unavailable"
  else
    .error ("unknown method: " ++ method)

/-- Hard deny key-related methods regardless of grants. -/
def forbidden (method : String) : Bool :=
  method ∈ forbiddenPermissions ∨ "keys.".toList <+: method.toList ∨
    "private".toList <:+: method.toList ∨ "signing".toList <:+: method.toList

/-- The catch block of `handleRequest`. -/
def refuse (host : WidgetHost W) (method : String) (id : JsValue) (error : String) : List (Effect W) :=
  host.audit ("error method=" ++ method ++ " " ++ error) ++ host.post (.result id (.error error))

/-- A request up to its API call; `settle` is the rest.  A method that is no string has no `startsWith`. -/
def handleRequest (host : WidgetHost W) (msg : JsValue) : List (Effect W) :=
  match msg.get "method" with
  | .str method =>
      if forbidden method then
        host.audit ("DENY forbidden method=" ++ method) ++
          host.post (.result (msg.get "id") (.error ("permission denied: " ++ method)))
      else
        match host.dispatch method ((msg.get "params").orElse (.object [] (some "[object Object]"))) with
        | .error e => host.refuse method (msg.get "id") e
        | .ok call => [.call call]
  | _ => []

/-- What follows a call once its result is there. -/
def settle (host : WidgetHost W) (method : String) (id : JsValue) :
    Except String JsValue → List (Effect W)
  | .ok data => host.post (.result id (.ok data))
  | .error e => host.refuse method id e

def onMessage (host : WidgetHost W) (ev : MessageEvent W) : List (Effect W) :=
  if host.allowedOrigin ≠ "*" ∧ ev.origin ≠ host.allowedOrigin then
    host.audit ("drop: bad origin " ++ ev.origin)
  else if isWidgetMessage ev.data = false then
    []
  else if (ev.data.get "type").isStr "ready" then
    match (ev.data.get "widgetId").toStr with
    | .ok widgetId => host.audit ("ready widget=" ++ widgetId)
    | .error _ => []
  else if (ev.data.get "type").isStr "request" then
    host.handleRequest ev.data
  else
    []

end WidgetHost

/-! ## When a host makes a call -/

def ApiCall.permission : ApiCall → WidgetPermission
  | .send _ _ => .roomSend
  | .listMessages _ => .roomRead
  | .listRooms => .roomList
  | .publicDeviceId => .devicePublicId

/-- The page provides the function that a permission is for. -/
def HostRoomApi.has (api : HostRoomApi) : WidgetPermission → Bool
  | .roomSend => api.send
  | .roomRead => api.listMessages
  | .roomList => api.listRooms
  | .devicePublicId => api.publicDeviceId

/-- The parameters of the requests that a permission is for. -/
def WidgetPermission.params : WidgetPermission → List String
  | .roomSend => ["roomId", "text"]
  | .roomRead => ["roomId"]
  | .roomList => []
  | .devicePublicId => []

/-- The arguments of a request. -/
def MessageEvent.params {W : Type} (ev : MessageEvent W) : JsValue :=
  (ev.data.get "params").orElse (.object [] (some "[object Object]"))

namespace WidgetHost

variable {W : Type} {host : WidgetHost W} {ev : MessageEvent W}

/-- The host admits the origin of the event. -/
def Admits (host : WidgetHost W) (ev : MessageEvent W) : Prop :=
  host.allowedOrigin = "*" ∨ ev.origin = host.allowedOrigin

/-- The event is a request for the method of a permission, with arguments that are made into texts. -/
structure Requests (ev : MessageEvent W) (perm : WidgetPermission) : Prop where
  channel : isWidgetMessage ev.data = true
  request : ev.data.get "type" = .str "request"
  method : ev.data.get "method" = .str perm.name
  params : ∀ key ∈ perm.params, ∃ text, param ev.params key = .ok text

theorem require_ok_iff {perm : WidgetPermission} :
    host.require perm = .ok () ↔ perm ∈ host.permissions := by
  unfold require
  split
  next h => simp [h]
  next h => simp [h]

theorem name_not_forbidden (perm : WidgetPermission) : forbidden perm.name = false := by
  cases perm <;> decide +kernel

theorem ite_ok_iff {α : Type} {c : Bool} {a b : α} {e : String} :
    (if c = true then Except.ok a else Except.error e) = .ok b ↔ c = true ∧ a = b := by
  cases c <;> simp

/-- A call is made for the method of its permission, which the host was granted. -/
theorem dispatch_granted {method : String} {params : JsValue} {call : ApiCall}
    (h : host.dispatch method params = .ok call) :
    method = call.permission.name ∧ call.permission ∈ host.permissions ∧
      host.api.has call.permission = true ∧
        ∀ key ∈ call.permission.params, ∃ text, param params key = .ok text := by
  unfold dispatch at h
  split at h
  -- room.send
  next hmethod =>
      simp only [bind_ok_iff, ite_ok_iff] at h
      rcases h with ⟨_, hgrant, roomId, hroom, text, htext, hapi, rfl⟩
      refine ⟨hmethod, require_ok_iff.1 hgrant, hapi, ?_⟩
      intro key hkey
      simp only [ApiCall.permission, WidgetPermission.params, List.mem_cons, List.not_mem_nil,
        or_false] at hkey
      rcases hkey with rfl | rfl
      · exact ⟨roomId, hroom⟩
      · exact ⟨text, htext⟩
  split at h
  -- room.read
  next hmethod =>
      simp only [bind_ok_iff, ite_ok_iff] at h
      rcases h with ⟨_, hgrant, roomId, hroom, hapi, rfl⟩
      refine ⟨hmethod, require_ok_iff.1 hgrant, hapi, ?_⟩
      intro key hkey
      rw [List.mem_singleton.1 hkey]
      exact ⟨roomId, hroom⟩
  split at h
  -- room.list
  next hmethod =>
      simp only [bind_ok_iff, ite_ok_iff] at h
      rcases h with ⟨_, hgrant, hapi, rfl⟩
      exact ⟨hmethod, require_ok_iff.1 hgrant, hapi, fun _ hkey => absurd hkey List.not_mem_nil⟩
  split at h
  -- device.public_id
  next hmethod =>
      simp only [bind_ok_iff, ite_ok_iff] at h
      rcases h with ⟨_, hgrant, hapi, rfl⟩
      exact ⟨hmethod, require_ok_iff.1 hgrant, hapi, fun _ hkey => absurd hkey List.not_mem_nil⟩
  next => cases h

/-- A granted method whose function is there is called. -/
theorem dispatch_call {perm : WidgetPermission} {params : JsValue} (hperm : perm ∈ host.permissions)
    (hapi : host.api.has perm = true)
    (hparams : ∀ key ∈ perm.params, ∃ text, param params key = .ok text) :
    ∃ call, host.dispatch perm.name params = .ok call := by
  have hgrant : host.require perm = .ok () := require_ok_iff.2 hperm
  cases perm with
  | roomSend =>
      have hname : WidgetPermission.roomSend.name = "room.send" := rfl
      rcases hparams "roomId" (by decide) with ⟨roomId, hroom⟩
      rcases hparams "text" (by decide) with ⟨text, htext⟩
      refine ⟨.send roomId text, ?_⟩
      rw [dispatch, if_pos hname]
      simp only [bind_ok_iff, ite_ok_iff]
      exact ⟨(), hgrant, roomId, hroom, text, htext, hapi, rfl⟩
  | roomRead =>
      have hname : WidgetPermission.roomRead.name = "room.read" := rfl
      rcases hparams "roomId" (by decide) with ⟨roomId, hroom⟩
      refine ⟨.listMessages roomId, ?_⟩
      rw [dispatch, if_neg (by decide), if_pos hname]
      simp only [bind_ok_iff, ite_ok_iff]
      exact ⟨(), hgrant, roomId, hroom, hapi, rfl⟩
  | roomList =>
      have hname : WidgetPermission.roomList.name = "room.list" := rfl
      refine ⟨.listRooms, ?_⟩
      rw [dispatch, if_neg (by decide), if_neg (by decide), if_pos hname]
      simp only [bind_ok_iff, ite_ok_iff]
      exact ⟨(), hgrant, hapi, trivial⟩
  | devicePublicId =>
      have hname : WidgetPermission.devicePublicId.name = "device.public_id" := rfl
      refine ⟨.publicDeviceId, ?_⟩
      rw [dispatch, if_neg (by decide), if_neg (by decide), if_neg (by decide), if_pos hname]
      simp only [bind_ok_iff, ite_ok_iff]
      exact ⟨(), hgrant, hapi, trivial⟩

/-- An audit line or a message posted is no call. -/
theorem call_not_mem_audit {line : String} {call : ApiCall} :
    Effect.call call ∉ host.audit line := by
  unfold audit
  split <;> simp

theorem call_not_mem_post {msg : HostToWidget} {call : ApiCall} :
    Effect.call call ∉ host.post msg := by
  unfold post
  split <;> simp

theorem handleRequest_call_iff {msg : JsValue} {call : ApiCall} :
    .call call ∈ host.handleRequest msg ↔
      ∃ method, msg.get "method" = .str method ∧ forbidden method = false ∧
        host.dispatch method ((msg.get "params").orElse (.object [] (some "[object Object]"))) =
          .ok call := by
  unfold handleRequest
  split
  next method hmethod =>
      simp only [hmethod, JsValue.str.injEq, exists_eq_left']
      split
      -- a forbidden name is answered before it is dispatched
      next hforbidden =>
          refine iff_of_false ?_ (by simp [hforbidden])
          rw [List.mem_append]
          exact fun h => h.elim call_not_mem_audit call_not_mem_post
      next hallowed =>
          have hallowed : forbidden method = false := eq_false_of_ne_true hallowed
          split
          next e he =>
              refine iff_of_false ?_ (by simp [he])
              rw [refuse, List.mem_append]
              exact fun h => h.elim call_not_mem_audit call_not_mem_post
          next c hc =>
              rw [hc]
              simp [hallowed, eq_comm]
  -- a method that is no string is ignored
  next hother =>
      refine iff_of_false List.not_mem_nil ?_
      rintro ⟨method, hmethod, _⟩
      exact hother method hmethod

/-- A host makes a call exactly if it admits the origin and the event requests a method that it was granted
and has the function of.  It never asks where the event comes from. -/
theorem onMessage_call_iff :
    (∃ call, .call call ∈ host.onMessage ev) ↔ host.Admits ev ∧
      ∃ perm ∈ host.permissions, host.api.has perm = true ∧ Requests ev perm := by
  unfold onMessage
  split
  next hbad =>
      refine iff_of_false ?_ ?_
      · rintro ⟨call, hcall⟩
        exact call_not_mem_audit hcall
      · rintro ⟨hstar | horigin, _⟩
        · exact hbad.1 hstar
        · exact hbad.2 horigin
  next hgood =>
  have hadmits : host.Admits ev := by
    by_cases hstar : host.allowedOrigin = "*"
    · exact Or.inl hstar
    · exact Or.inr (not_not.1 fun hne => hgood ⟨hstar, hne⟩)
  -- the other messages make no call and are no requests
  have hnone : ∀ {effects : List (Effect W)}, (∀ call, Effect.call call ∉ effects) →
      (∀ perm, ¬ Requests ev perm) → ((∃ call, Effect.call call ∈ effects) ↔ host.Admits ev ∧
        ∃ perm ∈ host.permissions, host.api.has perm = true ∧ Requests ev perm) := by
    intro effects heffects hreq
    refine iff_of_false (fun h => heffects _ h.choose_spec) ?_
    rintro ⟨_, perm, _, _, hperm⟩
    exact hreq perm hperm
  split
  next hchannel =>
      refine hnone (fun _ => List.not_mem_nil) fun perm hperm => ?_
      rw [hperm.channel] at hchannel
      cases hchannel
  next hchannel =>
  split
  next hready =>
      refine hnone ?_ fun perm hperm => ?_
      · intro call
        split
        · exact call_not_mem_audit
        · exact List.not_mem_nil
      · rw [hperm.request] at hready
        exact absurd (JsValue.isStr_iff.1 hready) (by simp)
  split
  next hrequest =>
      simp only [handleRequest_call_iff]
      constructor
      · rintro ⟨call, method, hmethod, _, hcall⟩
        rcases dispatch_granted hcall with ⟨rfl, hperm, hapi, hparams⟩
        exact ⟨hadmits, call.permission, hperm, hapi, eq_true_of_ne_false hchannel,
          JsValue.isStr_iff.1 hrequest, hmethod, hparams⟩
      · rintro ⟨_, perm, hperm, hapi, hreq⟩
        rcases dispatch_call hperm hapi hreq.params with ⟨call, hcall⟩
        exact ⟨call, perm.name, hreq.method, name_not_forbidden perm, hcall⟩
  next hother =>
      refine hnone (fun _ => List.not_mem_nil) fun perm hperm => ?_
      exact hother (JsValue.isStr_iff.2 hperm.request)

/-- A call is one that the host was granted and the event requests. -/
theorem onMessage_granted {call : ApiCall} (h : .call call ∈ host.onMessage ev) :
    call.permission ∈ host.permissions ∧ ev.data.get "method" = .str call.permission.name := by
  unfold onMessage at h
  split at h
  · exact absurd h call_not_mem_audit
  split at h
  · exact absurd h List.not_mem_nil
  split at h
  · split at h
    · exact absurd h call_not_mem_audit
    · exact absurd h List.not_mem_nil
  split at h
  · rcases handleRequest_call_iff.1 h with ⟨method, hmethod, _, hcall⟩
    rcases dispatch_granted hcall with ⟨rfl, hperm, _, _⟩
    exact ⟨hperm, hmethod⟩
  · exact absurd h List.not_mem_nil

end WidgetHost

/-! ## The page -/

/-- The hosts that scripts of a page have made, and those listening, in the order they were registered. -/
structure Page (W : Type) where
  hosts : List (WidgetHost W)
  listeners : List Nat

inductive PageStep (W : Type)
  | construct (opts : WidgetHostOptions)
  | attach (k : Nat) (iframeWindow : W)
  | detach (k : Nat)

namespace Page

variable {W : Type}

def empty : Page W :=
  { hosts := []
    listeners := [] }

def step (page : Page W) : PageStep W → Page W
  | .construct opts => { page with hosts := page.hosts ++ [WidgetHost.new opts] }
  | .attach k iframeWindow =>
      match page.hosts[k]? with
      | none => page
      | some host =>
          { hosts := page.hosts.set k (host.attach iframeWindow).1
            listeners := if host.bound then page.listeners else page.listeners ++ [k] }
  | .detach k =>
      match page.hosts[k]? with
      | none => page
      | some host =>
          { hosts := page.hosts.set k host.detach
            listeners := if host.bound then page.listeners.filter (· ≠ k) else page.listeners }

/-- What the listeners do at an event, host by host. -/
def deliver (page : Page W) (ev : MessageEvent W) : List (Nat × Effect W) :=
  page.listeners.flatMap fun k =>
    match page.hosts[k]? with
    | none => []
    | some host => (host.onMessage ev).map fun effect => (k, effect)

/-- A call is made only by the host of the window that the event comes from, with a grant of its own. -/
def Isolated (page : Page W) (ev : MessageEvent W) : Prop :=
  ∀ k call, (k, .call call) ∈ page.deliver ev → ∃ host window, page.hosts[k]? = some host ∧
    host.target = some window ∧ ev.source = some window ∧
      ∃ perm ∈ host.permissions, ev.data.get "method" = .str perm.name

/-- Every listening host that admits the origin, and has a grant and a function for what is requested,
is attached to the window that the event comes from. -/
def Addressed (page : Page W) (ev : MessageEvent W) : Prop :=
  ∀ k ∈ page.listeners, ∀ host, page.hosts[k]? = some host → host.Admits ev →
    (∃ perm ∈ host.permissions, host.api.has perm = true ∧ WidgetHost.Requests ev perm) →
      host.target = ev.source

/-- A host that listens is bound and has a target. -/
def WellFormed (page : Page W) : Prop :=
  ∀ k ∈ page.listeners, ∃ host window, page.hosts[k]? = some host ∧ host.bound = true ∧
    host.target = some window

theorem WellFormed.empty : WellFormed (Page.empty : Page W) :=
  fun _ h => absurd h List.not_mem_nil

theorem WellFormed.step {page : Page W} (h : page.WellFormed) (s : PageStep W) :
    (page.step s).WellFormed := by
  cases s with
  | construct opts =>
      intro k hk
      rcases h k hk with ⟨host, window, hhost, hrest⟩
      have hlt : k < page.hosts.length := (List.getElem?_eq_some_iff.1 hhost).1
      refine ⟨host, window, ?_, hrest⟩
      rw [Page.step, List.getElem?_append_left hlt]
      exact hhost
  | attach k window =>
      cases hk : page.hosts[k]? with
      | none => simpa [Page.step, hk] using h
      | some host =>
          have hlt : k < page.hosts.length := (List.getElem?_eq_some_iff.1 hk).1
          simp only [Page.step, hk]
          intro k' hk'
          by_cases heq : k' = k
          · subst heq
            refine ⟨(host.attach window).1, window, ?_, rfl, rfl⟩
            exact List.getElem?_set_self hlt
          · have hold : k' ∈ page.listeners := by
              dsimp only at hk'
              split at hk'
              · exact hk'
              · simpa [heq] using hk'
            rcases h k' hold with ⟨host', window', hhost, hrest⟩
            refine ⟨host', window', ?_, hrest⟩
            dsimp only
            rw [List.getElem?_set_ne (Ne.symm heq)]
            exact hhost
  | detach k =>
      cases hk : page.hosts[k]? with
      | none => simpa [Page.step, hk] using h
      | some host =>
          simp only [Page.step, hk]
          intro k' hk'
          -- the detached host no longer listens
          have hold : k' ∈ page.listeners ∧ k' ≠ k := by
            dsimp only at hk'
            split at hk'
            · simpa using hk'
            next hunbound =>
                refine ⟨hk', ?_⟩
                rintro rfl
                rcases h k' hk' with ⟨host', _, hhost, hbound, _⟩
                rw [hk] at hhost
                cases hhost
                exact hunbound hbound
          rcases h k' hold.1 with ⟨host', window', hhost, hrest⟩
          refine ⟨host', window', ?_, hrest⟩
          dsimp only
          rw [List.getElem?_set_ne (Ne.symm hold.2)]
          exact hhost

theorem mem_deliver {page : Page W} {ev : MessageEvent W} {k : Nat} {effect : Effect W} :
    (k, effect) ∈ page.deliver ev ↔ k ∈ page.listeners ∧
      ∃ host, page.hosts[k]? = some host ∧ effect ∈ host.onMessage ev := by
  unfold deliver
  rw [List.mem_flatMap]
  constructor
  · rintro ⟨k', hk', hmem⟩
    cases hhost : page.hosts[k']? with
    | none =>
        rw [hhost] at hmem
        cases hmem
    | some host =>
        simp only [hhost, List.mem_map, Prod.mk.injEq] at hmem
        rcases hmem with ⟨_, heffect, rfl, rfl⟩
        exact ⟨hk', host, hhost, heffect⟩
  · rintro ⟨hk, host, hhost, heffect⟩
    refine ⟨k, hk, ?_⟩
    rw [hhost]
    exact List.mem_map.2 ⟨effect, heffect, rfl⟩

/-- On every page that scripts can set up, and for every event, calls stay with the window that asked for
them exactly if every host that would serve the request is attached to that window. -/
theorem isolated_iff (steps : List (PageStep W)) (ev : MessageEvent W) :
    Isolated (Runs.run step empty steps) ev ↔ Addressed (Runs.run step empty steps) ev := by
  have hwf : (Runs.run step empty steps).WellFormed :=
    Runs.run_invariant (J := WellFormed) (fun _ s h => WellFormed.step h s) steps WellFormed.empty
  generalize Runs.run step empty steps = page at hwf
  constructor
  · intro hisolated k hk host hhost hadmits hserves
    rcases WidgetHost.onMessage_call_iff.2 ⟨hadmits, hserves⟩ with ⟨call, hcall⟩
    rcases hisolated k call (mem_deliver.2 ⟨hk, host, hhost, hcall⟩) with
      ⟨host', window, hhost', htarget, hsource, _⟩
    rw [hhost] at hhost'
    cases hhost'
    rw [htarget, hsource]
  · intro haddressed k call hcall
    rcases mem_deliver.1 hcall with ⟨hk, host, hhost, hmem⟩
    rcases hwf k hk with ⟨host', window, hhost', _, htarget⟩
    rw [hhost] at hhost'
    cases hhost'
    rcases WidgetHost.onMessage_call_iff.1 ⟨call, hmem⟩ with ⟨hadmits, hserves⟩
    have hsource : host.target = ev.source := haddressed k hk host hhost hadmits hserves
    rcases WidgetHost.onMessage_granted hmem with ⟨hperm, hmethod⟩
    refine ⟨host, window, hhost, htarget, ?_, call.permission, hperm, hmethod⟩
    rw [← hsource, htarget]

/-! ## Two widgets of one origin -/

section Example

/-- A widget of the origin of a sandboxed frame, with one permission. -/
def sandboxed (widgetId : String) (perm : WidgetPermission) : WidgetHostOptions :=
  { widgetId := widgetId
    permissions := [perm]
    allowedOrigin := "null"
    api := { send := true, listMessages := true, listRooms := true, publicDeviceId := true }
    onAudit := false }

/-- A widget that may read in window 0 and one that may send in window 1. -/
def twoWidgets : List (PageStep Nat) :=
  [.construct (sandboxed "reader" .roomRead), .construct (sandboxed "sender" .roomSend), .attach 0 0,
    .attach 1 1]

/-- The reader's window asks to send. -/
def sendRequest : MessageEvent Nat :=
  { source := some 0
    origin := "null"
    data :=
      .object
        [("channel", .str "td-widget-v1"), ("type", .str "request"), ("id", .str "r1"),
          ("method", .str "room.send"),
          ("params", .object [("roomId", .str "r"), ("text", .str "honk")] (some "[object Object]"))]
        (some "[object Object]") }

/-- The sender's host sends what the reader's window wrote. -/
theorem sendRequest_not_isolated :
    ¬ ∀ (steps : List (PageStep Nat)) (ev : MessageEvent Nat),
      Isolated (Runs.run step empty steps) ev := by
  intro hall
  have hserves : ∃ call, Effect.call call ∈
      ((WidgetHost.new (sandboxed "sender" .roomSend)).attach 1).1.onMessage sendRequest := by
    refine WidgetHost.onMessage_call_iff.2 ⟨Or.inr rfl, .roomSend, by decide, rfl, ?_⟩
    refine ⟨by decide, rfl, rfl, ?_⟩
    intro key hkey
    simp only [WidgetPermission.params, List.mem_cons, List.not_mem_nil, or_false] at hkey
    rcases hkey with rfl | rfl
    · exact ⟨"r", rfl⟩
    · exact ⟨"honk", rfl⟩
  rcases hserves with ⟨call, hmem⟩
  have hcall : (1, Effect.call call) ∈ (Runs.run step empty twoWidgets).deliver sendRequest :=
    mem_deliver.2 ⟨by decide, _, rfl, hmem⟩
  rcases hall twoWidgets sendRequest 1 _ hcall with ⟨host, window, hhost, htarget, hsource, _⟩
  have hone : host.target = some 1 := by
    cases hhost
    rfl
  rw [hone] at htarget
  cases htarget
  cases hsource

end Example

end Page

end Widget
end Thunderducks
