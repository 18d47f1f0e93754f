import Thunderducks.Lib.Text
import Thunderducks.Widget.Host

/-!
# Guest — the widget's half of the bridge (`widget-sdk/src/guest.ts`, `protocol.ts`)

A `WidgetGuest` numbers its requests, keeps the ones whose promises are open in `pending` and settles one
when a result with its id comes.  Ids are `r1`, `r2`, …, so they tell the requests of one guest apart and not
the guests of a page.  Neither a hello nor a result is asked where it comes from.
-/

namespace Thunderducks
namespace Widget

open Lib

/-! ## Messages as they are posted -/

namespace JsValue

/-- Whether `if (v)` takes its branch. -/
def truthy : JsValue → Bool
  | .undefined => false
  | .null => false
  | .primitive text => text ∉ ["false", "0", "NaN"]
  | .str s => s ≠ ""
  | .object _ _ => true

/-- `new Error(v).message`. -/
def errorMessage : JsValue → Except String String
  | .undefined => .ok ""
  | v => v.toStr

/-- An object literal. -/
def literal (props : List (String × JsValue)) : JsValue :=
  .object props (some "[object Object]")

end JsValue

/-- The array of the permissions' names. -/
def grantedArray (granted : List WidgetPermission) : JsValue :=
  .object
    (granted.zipIdx.map (fun p => (Text.decimal p.2, .str p.1.name)) ++
      [("length", .primitive (Text.decimal granted.length))])
    (some (",".intercalate (granted.map WidgetPermission.name)))

def HostToWidget.toJs : HostToWidget → JsValue
  | .hello widgetId granted =>
      .literal
        [("channel", .str tdWidgetChannel), ("type", .str "hello"), ("widgetId", .str widgetId),
          ("granted", grantedArray granted)]
  | .result id (.ok data) =>
      .literal
        [("channel", .str tdWidgetChannel), ("type", .str "result"), ("id", id), ("ok", .primitive "true"),
          ("data", data)]
  | .result id (.error e) =>
      .literal
        [("channel", .str tdWidgetChannel), ("type", .str "result"), ("id", id), ("ok", .primitive "false"),
          ("error", .str e)]

inductive WidgetToHost
  | ready (widgetId : String)
  | request (id method : String) (params : JsValue)

def WidgetToHost.toJs : WidgetToHost → JsValue
  | .ready widgetId =>
      .literal [("channel", .str tdWidgetChannel), ("type", .str "ready"), ("widgetId", .str widgetId)]
  | .request id method params =>
      .literal
        [("channel", .str tdWidgetChannel), ("type", .str "request"), ("id", .str id),
          ("method", .str method), ("params", params)]

/-! ## Guests -/

structure WidgetGuest where
  widgetId : String
  granted : JsValue
  /-- The ids of the requests whose promises are open, in the order they were made. -/
  pending : List String
  seq : Nat
  targetOrigin : String
  ready : Bool
  /-- Who waits for a hello: each waiter has put itself in the place of the one before. -/
  onHello : List Nat
  /-- Whether `onMessage` is registered. -/
  listening : Bool

/-- What a guest does. -/
inductive GuestEffect
  | post (origin : String) (msg : WidgetToHost)
  | resolve (id : String) (data : JsValue)
  | reject (id : String) (error : String)
  | greet (waiter : Nat) (granted : JsValue)

namespace WidgetGuest

def new (widgetId targetOrigin : String) : WidgetGuest :=
  { widgetId := widgetId
    granted := .object [("length", .primitive "0")] (some "")
    pending := []
    seq := 0
    targetOrigin := targetOrigin
    ready := false
    onHello := []
    listening := true }

/-- The id of the `n`-th request. -/
def requestId (n : Nat) : String :=
  "r" ++ Text.decimal n

/-- Notify host that widget script is loaded. -/
def announceReady (guest : WidgetGuest) : List GuestEffect :=
  [.post guest.targetOrigin (.ready guest.widgetId)]

/-- A promise for the permissions.  One that times out is rejected and stays in its place. -/
def waitHello (guest : WidgetGuest) (waiter : Nat) : List GuestEffect × WidgetGuest :=
  if guest.ready then
    ([.greet waiter guest.granted], guest)
  else
    ([], { guest with onHello := waiter :: guest.onHello })

def request (guest : WidgetGuest) (method : String) (params : JsValue) : List GuestEffect × WidgetGuest :=
  let id := requestId (guest.seq + 1)
  ([.post guest.targetOrigin (.request id method params)],
    { guest with
      seq := guest.seq + 1
      pending := guest.pending ++ [id] })

def destroy (guest : WidgetGuest) : WidgetGuest :=
  { guest with
    listening := false
    pending := [] }

/-- A result for a promise that is open. -/
def settle (id : String) (msg : JsValue) : List GuestEffect :=
  if (msg.get "ok").truthy then
    [.resolve id (msg.get "data")]
  else
    match (msg.get "error").errorMessage with
    | .ok text => [.reject id text]
    | .error _ => []

def onMessage (guest : WidgetGuest) (data : JsValue) : List GuestEffect × WidgetGuest :=
  if isWidgetMessage data = false then
    ([], guest)
  else if (data.get "type").isStr "hello" then
    let greeted := { guest with granted := data.get "granted", ready := true }
    match guest.onHello with
    | [] => ([], greeted)
    | waiter :: before => ([.greet waiter (data.get "granted")], { greeted with onHello := before })
  else if (data.get "type").isStr "result" then
    match data.get "id" with
    | .str id =>
        if id ∈ guest.pending then
          (settle id data, { guest with pending := guest.pending.erase id })
        else
          ([], guest)
    | _ => ([], guest)
  else
    ([], guest)

/-! ## What a guest makes of the host's messages -/

theorem requestId_injective : Function.Injective requestId := by
  intro n m h
  have hlist : (Text.decimal n).toList = (Text.decimal m).toList := by
    have htext := congrArg String.toList h
    simpa [requestId] using htext
  have hread : Text.digits (Text.decimal n).toList = Text.digits (Text.decimal m).toList := by rw [hlist]
  rw [Text.digits_decimal, Text.digits_decimal] at hread
  exact Option.some.inj hread

/-- No message makes a guest deaf, changes where it posts or what it has numbered. -/
theorem onMessage_frame (guest : WidgetGuest) (data : JsValue) :
    (guest.onMessage data).2.listening = guest.listening ∧
      (guest.onMessage data).2.targetOrigin = guest.targetOrigin ∧ (guest.onMessage data).2.seq = guest.seq := by
  unfold onMessage
  split
  · exact ⟨rfl, rfl, rfl⟩
  split
  · split <;> exact ⟨rfl, rfl, rfl⟩
  split
  · split
    · split <;> exact ⟨rfl, rfl, rfl⟩
    · exact ⟨rfl, rfl, rfl⟩
  · exact ⟨rfl, rfl, rfl⟩

/-- A message is not answered with a message. -/
theorem onMessage_posts_nothing (guest : WidgetGuest) (data : JsValue) (origin : String) (msg : WidgetToHost) :
    GuestEffect.post origin msg ∉ (guest.onMessage data).1 := by
  unfold onMessage
  split
  · exact List.not_mem_nil
  split
  · split
    · exact List.not_mem_nil
    · simp
  split
  · split
    · split
      · unfold settle
        split
        · simp
        · split <;> simp
      · exact List.not_mem_nil
    · exact List.not_mem_nil
  · exact List.not_mem_nil

/-- A hello settles no request. -/
theorem onMessage_hello (guest : WidgetGuest) (widgetId : String) (granted : List WidgetPermission) :
    (guest.onMessage (HostToWidget.hello widgetId granted).toJs).2.pending = guest.pending ∧
      ∀ effect ∈ (guest.onMessage (HostToWidget.hello widgetId granted).toJs).1, ∃ waiter data,
        effect = .greet waiter data := by
  have hmsg : isWidgetMessage (HostToWidget.hello widgetId granted).toJs = true := rfl
  have htype : ((HostToWidget.hello widgetId granted).toJs.get "type").isStr "hello" = true := rfl
  unfold onMessage
  rw [if_neg (by rw [hmsg]; decide), if_pos htype]
  cases guest.onHello with
  | nil => exact ⟨rfl, fun effect h => absurd h List.not_mem_nil⟩
  | cons waiter before =>
      refine ⟨rfl, ?_⟩
      intro effect h
      exact ⟨waiter, _, List.mem_singleton.1 h⟩

/-- How the promise of a request is settled by an answer. -/
def settlement (id : String) : Except String JsValue → GuestEffect
  | .ok data => .resolve id data
  | .error e => .reject id e

/-- A result settles the request of its id, if that is open, and no other. -/
theorem onMessage_result (guest : WidgetGuest) (id : String) (answer : Except String JsValue) :
    guest.onMessage (HostToWidget.result (.str id) answer).toJs =
      if id ∈ guest.pending then
        ([settlement id answer], { guest with pending := guest.pending.erase id })
      else
        ([], guest) := by
  cases answer with
  | ok data => rfl
  | error e => rfl

end WidgetGuest

end Widget
end Thunderducks
