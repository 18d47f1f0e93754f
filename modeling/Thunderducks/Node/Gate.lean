import Thunderducks.Lib.IpAddr
import Thunderducks.Node.OwnerSessions

/-!
# Gate — where a node asks for its owner (`prepare_serve` in `td-node/src/rpc.rs`)

Whether the middleware asks for an owner session is read off the text that names the address to listen on.
`isLoopbackBind_iff` says what that text must be: an address that cannot be reached from outside, written without
a scope.  So `exposed_gated`: on any other address nobody gets past the public routes whom no claim and no login
let in.
-/

namespace Thunderducks
namespace Node

open Lib IpText Event

/-! ## The options and the state they make -/

/-- The fields of `ServeOptions` that concern the middleware. -/
structure GateOptions where
  /-- When RPC is not loopback-only, require owner session for non-public routes. -/
  requireOwnerNonLoopback : Bool
  /-- Enable per-IP rate limits (default true). -/
  rateLimit : Bool

namespace GateOptions

/-- A switch of the environment, which is on unless it says otherwise. -/
def switch (value : Option String) : Bool :=
  (value.map fun v =>
    let v := Text.toAsciiLowercase (Text.trim v)
    !(v = "0" || v = "false" || v = "off" || v = "no")).getD true

def fromEnv (env : String → Option String) : GateOptions :=
  { requireOwnerNonLoopback := switch (env "TD_REQUIRE_OWNER")
    rateLimit := switch (env "TD_RATE_LIMIT") }

end GateOptions

/-- The `host` of `is_loopback_bind`. -/
def bindHost (bind : String) : String :=
  let host := ((Text.rsplitOnce ':' bind.toList).map Prod.fst).getD bind.toList
  Text.trimEndMatches ']' (Text.trimStartMatches '[' (Text.trim (String.ofList host)))

def isLoopbackBind (bind : String) : Bool :=
  let host := bindHost bind
  host = "127.0.0.1" || host = "localhost" || host = "::1" ||
    ((IpAddr.parse host.toList).map IpAddr.isLoopback).getD false

/-- The state that `prepare_serve` gives the router. -/
def prepareServe (opts : GateOptions) (bind : String) (inner : OwnerState) : RpcState :=
  { inner := inner
    requireOwner := opts.requireOwnerNonLoopback && !isLoopbackBind bind
    rateLimits := RateLimitBook.empty
    rateLimitEnabled := opts.rateLimit }

/-! ## The texts of addresses -/

/-- No character of an address is white space. -/
theorem isWhitespace_addrChar {c : Char} (h : isAddrChar c = true) : Text.isWhitespace c = false := by
  have hrange : 46 ≤ c.toNat ∧ c.toNat ≤ 102 := by
    have hkind : isDigit 16 c = true ∨ c = '.' ∨ c = ':' := by
      simpa [isAddrChar, or_assoc] using h
    rcases hkind with hdigit | rfl | rfl
    · exact ⟨Nat.le_trans (by decide) (hexDigit_range hdigit).1, (hexDigit_range hdigit).2⟩
    · decide
    · decide
  simp only [Text.isWhitespace, Bool.or_eq_false_iff, Bool.and_eq_false_iff, decide_eq_false_iff_not]
  omega

theorem not_mem_addrChars {c : Char} {l : List Char} (hl : ∀ c ∈ l, isAddrChar c = true)
    (hc : isAddrChar c = false) : c ∉ l := by
  intro hmem
  rw [hl c hmem] at hc
  cases hc

theorem bindHost_bare {host digits : List Char} (hdigits : ':' ∉ digits)
    (hchars : ∀ c ∈ host, isAddrChar c = true) :
    bindHost (String.ofList (host ++ ':' :: digits)) = String.ofList host := by
  have htrim : Text.trim (String.ofList host) = String.ofList host := by
    have hspace : ∀ c ∈ (String.ofList host).toList, Text.isWhitespace c = false := by
      intro c hc
      rw [String.toList_ofList] at hc
      exact isWhitespace_addrChar (hchars c hc)
    have hpadded := Text.trim_padded hspace (List.forall_mem_nil _) (List.forall_mem_nil _)
    rwa [List.nil_append, List.append_nil, String.ofList_toList] at hpadded
  unfold bindHost
  rw [String.toList_ofList, Text.rsplitOnce_append host hdigits]
  dsimp only [Option.map_some, Option.getD_some]
  rw [htrim, Text.trimMatches_bare (not_mem_addrChars hchars (by decide)) (not_mem_addrChars hchars (by decide))]

theorem bindHost_enclosed {inner digits : List Char} (hdigits : ':' ∉ digits) (hopen : '[' ∉ inner)
    (hclose : ']' ∉ inner) :
    bindHost (String.ofList ('[' :: (inner ++ [']']) ++ ':' :: digits)) = String.ofList inner := by
  have htrim : Text.trim (String.ofList ('[' :: (inner ++ [']']))) = String.ofList ('[' :: (inner ++ [']'])) :=
    Text.trim_eq_self (l := '[' :: inner) (a := '[') (b := ']') (by simp) (by simp) (by decide) (by decide)
  unfold bindHost
  rw [String.toList_ofList, Text.rsplitOnce_append _ hdigits]
  dsimp only [Option.map_some, Option.getD_some]
  rw [htrim, Text.trimMatches_enclosed hopen hclose (by decide)]

/-- The names that are listed are addresses, but for one. -/
theorem isLoopbackBind_eq {bind : String} {host : List Char} (h : bindHost bind = String.ofList host)
    (hname : host ≠ "localhost".toList) :
    isLoopbackBind bind = ((IpAddr.parse host).map IpAddr.isLoopback).getD false := by
  unfold isLoopbackBind
  rw [h]
  dsimp only
  rw [String.toList_ofList]
  by_cases hipv4 : host = "127.0.0.1".toList
  · subst hipv4
    decide
  by_cases hipv6 : host = "::1".toList
  · subst hipv6
    decide
  have hne : ∀ {s : String}, host ≠ s.toList → String.ofList host ≠ s := by
    rintro s hs rfl
    exact hs String.toList_ofList.symm
  simp [hne hipv4, hne hipv6, hne hname]

/-- The gate takes an address for local if it is, and if it is written without a scope. -/
theorem isLoopbackBind_iff {bind : String} {addr : SocketAddr} (h : SocketAddr.parse bind.toList = some addr) :
    isLoopbackBind bind = true ↔ addr.ip.isLoopback = true ∧ '%' ∉ bind.toList := by
  rcases SocketAddr.parse_split h with ⟨host, digits, htext, hport, hhost⟩
  have hbind : bind = String.ofList (host ++ ':' :: digits) := by
    rw [← htext, String.ofList_toList]
  have hcolon : ':' ∉ digits := fun hmem => absurd (hport ':' hmem) (by decide)
  have hpercent : '%' ∉ digits := fun hmem => absurd (hport '%' hmem) (by decide)
  -- the letters of a name are no address
  have hname : ∀ {l : List Char}, (∀ c ∈ l, isAddrChar c = true) → l ≠ "localhost".toList := by
    rintro l hl rfl
    exact absurd (hl 'l' (by decide)) (by decide)
  have habsent : ∀ {l : List Char} {c : Char}, (∀ c ∈ l, isAddrChar c = true) → isAddrChar c = false → c ∉ l :=
    fun hl hc => not_mem_addrChars hl hc
  rw [htext]
  cases hhost with
  | plain hchars hparse =>
      have hscope : '%' ∉ host := habsent hchars (by decide)
      rw [hbind, isLoopbackBind_eq (bindHost_bare hcolon hchars) (hname hchars), hparse]
      simp [hscope, hpercent]
  | @bracketed inner hchars hparse =>
      have hscope : '%' ∉ inner := habsent hchars (by decide)
      have htake := bindHost_enclosed hcolon (habsent hchars (by decide)) (habsent hchars (by decide))
      rw [hbind, isLoopbackBind_eq htake (hname hchars), hparse]
      simp [hscope, hpercent]
  | @withScope inner zone hchars hzone hparse =>
      have hopen : '[' ∉ inner ++ '%' :: zone := by
        have hdigit : '[' ∉ zone := fun hmem => absurd (hzone '[' hmem) (by decide)
        simp [habsent hchars (show isAddrChar '[' = false by decide), hdigit]
      have hclose : ']' ∉ inner ++ '%' :: zone := by
        have hdigit : ']' ∉ zone := fun hmem => absurd (hzone ']' hmem) (by decide)
        simp [habsent hchars (show isAddrChar ']' = false by decide), hdigit]
      have hother : inner ++ '%' :: zone ≠ "localhost".toList := by
        intro heq
        have hmem : '%' ∈ "localhost".toList := heq ▸ by simp
        exact absurd hmem (by decide)
      rw [hbind, isLoopbackBind_eq (bindHost_enclosed hcolon hopen hclose) hother, hparse]
      simp

/-! ## What gets through -/

namespace RpcState

section Exposed

variable [Primitives] [Unicode] [JsonBody ClaimRequest] [JsonBody RecoveryLoginRequest]

/-- A node that is not told otherwise, and that listens on an address which can be reached from outside: a request
that reaches a route which is not public carries a token that a claim or a login minted since the node was started. -/
theorem exposed_gated {opts : GateOptions} (hopts : opts.requireOwnerNonLoopback = true) {bind : String}
    {addr : SocketAddr} (hbind : SocketAddr.parse bind.toList = some addr) (hexposed : addr.ip.isLoopback = false)
    {inner : OwnerState} (hfresh : inner.ownerSessions = ∅) (as : List Arrival) (a : Arrival) (resp : Response)
    (hreach : (((prepareServe opts bind inner).after as).serve a).1 = .reached resp)
    (hpub : isPublicPath a.req.method a.req.path = false) :
    ∃ token, Carries a.req token ∧ ∃ before b later, as = before ++ b :: later ∧
      ((prepareServe opts bind inner).after before).Mints b token := by
  have hlocal : isLoopbackBind bind = false := by
    by_contra hno
    have hloopback := (isLoopbackBind_iff hbind).1 (eq_true_of_ne_false hno)
    rw [hexposed] at hloopback
    cases hloopback.1
  have hown : (prepareServe opts bind inner).requireOwner = true := by
    simp [prepareServe, hopts, hlocal]
  have hkept := (after_invariant (prepareServe opts bind inner) as
    (by simp [prepareServe, OwnerState.size, hfresh])).1
  rcases (served _ a).gate resp hreach (hkept.trans hown) hpub with ⟨token, s, hcarry, hlive, _⟩
  -- the session is of this run
  let has : RpcState → String → Prop := fun st token => ∃ s, st.inner.ownerSessions.lookup token = some s
  have hstep : ∀ st b token, has (st.serve b).2 token → (has st token ∧ ¬ st.LogsOut b token) ∨ st.Mints b token := by
    rintro st b token ⟨s, hs⟩
    rcases (served st b).origin hs with ⟨hold, hkeep⟩ | ⟨hmint, _⟩
    · exact Or.inl ⟨⟨s, hold⟩, hkeep⟩
    · exact Or.inr hmint
  have hinit : ∀ token, ¬ has (prepareServe opts bind inner) token := by
    rintro token ⟨s, hs⟩
    change inner.ownerSessions.lookup token = some s at hs
    rw [hfresh] at hs
    cases hs
  rcases Runs.provenance hstep hinit as ⟨s, hlive⟩ with ⟨before, b, later, hsplit, hmint, _⟩
  exact ⟨token, hcarry, before, b, later, hsplit, hmint⟩

end Exposed

section Reached

attribute [local instance] Checksum.primitives asciiUppercase claimBody noLogin

/-- A node that listens everywhere, with nothing set in its environment. -/
def exposed : RpcState :=
  prepareServe (GateOptions.fromEnv fun _ => none) "0.0.0.0:8788"
    (OwnerState.new (Checksum.device 1) ClaimState.default)

theorem exposed_gated_devices : ((exposed.after [claim]).serve listDevices).1 = .reached .answered ∧
    ∃ token, Carries listDevices.req token ∧ ∃ before b later, [claim] = before ++ b :: later ∧
      (exposed.after before).Mints b token := by
  have hreach : ((exposed.after [claim]).serve listDevices).1 = .reached .answered := by
    decide +kernel
  have hpub : isPublicPath listDevices.req.method listDevices.req.path = false := by
    decide +kernel
  have hbind : SocketAddr.parse "0.0.0.0:8788".toList = some (.v4 ⟨0, 0, 0, 0⟩ 8788) := by
    decide +kernel
  exact ⟨hreach, exposed_gated rfl hbind rfl rfl [claim] listDevices .answered hreach hpub⟩

end Reached

end RpcState

end Node
end Thunderducks
