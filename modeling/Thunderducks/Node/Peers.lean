import Thunderducks.Lib.Runs
import Thunderducks.Net.Dial
import Thunderducks.Node.Session

/-!
# Peers — the peer table and what is dialled from it (`upsert_peer`, `add_peer`, `send_message`)

`upsertPeer` sorts addresses by their scheme and knows `http://`, `https://` and `td://` only.  An address
with another scheme becomes an HTTP base when it comes as `uri`, and the host of a plain address
when it comes as `p2p`, so that the table never holds any but plain addresses (`PlainTable`).
`keepsTransport_iff` says which addresses are stored and dialled as what they are.
-/

namespace Thunderducks
namespace Node

open Lib Event Crypto Net

/-! ## The table -/

structure AddPeerRequest where
  name : String
  /-- Primary uri: `http://…` RPC and/or `td://…` P2P (auto-classified). -/
  uri : Option String
  rpc : Option String
  p2p : Option String
  /-- Optional peer device id (hex) for relay Olm targeting. -/
  deviceId : Option String

namespace PeerEndpoint

def new (name : String) : PeerEndpoint :=
  { name := name
    p2p := none
    rpc := none
    deviceId := none }

/-- The first part of `upsert_peer`: classify `uri`. -/
def setUri (ep : PeerEndpoint) (uri : String) : PeerEndpoint :=
  let u := Text.trim uri
  if Text.startsWith "http://" u || Text.startsWith "https://" u then
    { ep with rpc := some (Text.trimEndMatches '/' u) }
  else if Text.startsWith "td://" u then
    { ep with p2p := some u }
  else if u ≠ "" then
    { ep with rpc := some ("http://" ++ Text.trimEndMatches '/' u) }
  else
    ep

def setRpc (ep : PeerEndpoint) (rpc : String) : PeerEndpoint :=
  let r := Text.trimEndMatches '/' (Text.trim rpc)
  if r ≠ "" then
    { ep with rpc := some (if Text.startsWith "http" r then r else "http://" ++ r) }
  else
    ep

def setP2p (ep : PeerEndpoint) (p2p : String) : PeerEndpoint :=
  let p := Text.trim p2p
  if p ≠ "" then
    { ep with p2p := some (if Text.startsWith "td://" p then p else "td://" ++ p) }
  else
    ep

def upsert (ep : PeerEndpoint) (uri : String) (rpc p2p : Option String) : PeerEndpoint :=
  let ep := ep.setUri uri
  let ep :=
    match rpc with
    | none => ep
    | some r => ep.setRpc r
  match p2p with
  | none => ep
  | some p => ep.setP2p p

end PeerEndpoint

section Session

variable [Olm]

namespace NodeSession

def upsertPeer (s : NodeSession) (name uri : String) (rpc p2p : Option String) : NodeSession :=
  let ep := (s.peers.lookup name).getD (PeerEndpoint.new name)
  { s with peers := (s.peers.erase name).insert name (ep.upsert uri rpc p2p) }

/-- `add_peer`, for a caller that may. -/
def addPeer (s : NodeSession) (req : AddPeerRequest) : NodeSession :=
  let s := s.upsertPeer req.name (req.uri.getD "") req.rpc req.p2p
  match req.deviceId.bind Text.trimmed with
  | none => s
  | some did =>
      match s.peers.lookup req.name with
      | none => s
      | some ep => { s with peers := s.peers.insert req.name { ep with deviceId := some did } }

end NodeSession

end Session

/-! ## The push -/

/-- What a dial finds: whether there is a QUIC configuration, and which texts are socket addresses. -/
structure DialEnv where
  quicTls : Bool
  isSocketAddr : String → Bool

/-- The P2P connection that `send_message` makes for one endpoint. -/
def pushContact (env : DialEnv) (ep : PeerEndpoint) : Option Contact :=
  match ep.p2p with
  | none => none
  | some uri =>
      match PeerUri.parse uri with
      | .error _ => none
      | .ok peer =>
          if peer.quic then
            if env.quicTls then quicDialWithConfig env.isSocketAddr peer else none
          else
            some (dial peer)

/-- The push makes the connection that a stored address asks for, if any, exactly if that is not Noise. -/
theorem pushContact_iff {env : DialEnv} {ep : PeerEndpoint} {peer : PeerUri}
    (hone : ¬ (peer.noise = true ∧ peer.quic = true)) (hstored : ep.p2p = some peer.toStringUri) :
    (∀ contact, pushContact env ep = some contact → contact = peer.contact) ↔ peer.noise = false := by
  have hpush : pushContact env ep =
      if peer.quic then
        if env.quicTls then quicDialWithConfig env.isSocketAddr peer else none
      else
        some (dial peer) := by
    unfold pushContact
    rw [hstored]
    dsimp only
    rw [PeerUri.parse_toStringUri hone]
  rw [hpush]
  cases hquic : peer.quic with
  | false =>
      simp only [Bool.false_eq_true, if_false, Option.some.injEq, forall_eq', dial_eq_contact_iff,
        PeerUri.Plain, hquic, and_true]
  | true =>
      -- an address of QUIC is dialled over QUIC or not at all
      have hnoise : peer.noise = false := eq_false_of_ne_true fun hnoise => hone ⟨hnoise, hquic⟩
      refine iff_of_true ?_ hnoise
      intro contact hcontact
      simp only [if_true, Option.ite_none_right_eq_some] at hcontact
      have hquicDial := hcontact.2
      unfold quicDialWithConfig at hquicDial
      split at hquicDial
      · cases hquicDial
      split at hquicDial
      · cases hquicDial
      · cases hquicDial
        rw [PeerUri.contact, PeerUri.transport, if_pos hquic]

/-! ## An address that is given -/

/-- The request gives the address for P2P: as `p2p`, or as `uri` with `p2p` blank. -/
def AddPeerRequest.Gives (req : AddPeerRequest) (peer : PeerUri) : Prop :=
  req.p2p = some peer.toStringUri ∨
    (req.uri = some peer.toStringUri ∧ ∀ p, req.p2p = some p → Text.trim p = "")

namespace PeerEndpoint

theorem setUri_plain (ep : PeerEndpoint) {peer : PeerUri} (h : peer.Plain) :
    ep.setUri peer.toStringUri = { ep with p2p := some peer.toStringUri } := by
  have htd : Text.startsWith "td://" peer.toStringUri = true := (PeerUri.startsWith_td_iff peer).2 h
  unfold PeerEndpoint.setUri
  simp [PeerUri.trim_toStringUri, PeerUri.startsWith_http peer, htd]

theorem setP2p_plain (ep : PeerEndpoint) {peer : PeerUri} (h : peer.Plain) :
    ep.setP2p peer.toStringUri = { ep with p2p := some peer.toStringUri } := by
  have htd : Text.startsWith "td://" peer.toStringUri = true := (PeerUri.startsWith_td_iff peer).2 h
  unfold PeerEndpoint.setP2p
  simp [PeerUri.trim_toStringUri, PeerUri.toStringUri_ne_empty, htd]

theorem setP2p_blank (ep : PeerEndpoint) {p : String} (h : Text.trim p = "") : ep.setP2p p = ep := by
  unfold PeerEndpoint.setP2p
  simp [h]

theorem setRpc_p2p (ep : PeerEndpoint) (rpc : String) : (ep.setRpc rpc).p2p = ep.p2p := by
  unfold PeerEndpoint.setRpc
  dsimp only
  split
  · rfl
  · rfl

theorem setP2p_rpc (ep : PeerEndpoint) (p2p : String) : (ep.setP2p p2p).rpc = ep.rpc := by
  unfold PeerEndpoint.setP2p
  dsimp only
  split
  · rfl
  · rfl

/-- A plain address that is given is stored as it stands. -/
theorem upsert_p2p {req : AddPeerRequest} {peer : PeerUri} (ep : PeerEndpoint) (h : peer.Plain)
    (hgives : req.Gives peer) :
    (ep.upsert (req.uri.getD "") req.rpc req.p2p).p2p = some peer.toStringUri := by
  unfold PeerEndpoint.upsert
  dsimp only
  rcases hgives with hp2p | ⟨huri, hblank⟩
  · rw [hp2p]
    dsimp only
    rw [setP2p_plain _ h]
  · -- the fields that follow the URI are blank
    have hset : (ep.setUri (req.uri.getD "")).p2p = some peer.toStringUri := by
      rw [huri, Option.getD_some, setUri_plain ep h]
    generalize ep.setUri (req.uri.getD "") = ep at hset
    cases hrpc : req.rpc with
    | none =>
        cases hp2p : req.p2p with
        | none => exact hset
        | some p =>
            dsimp only
            rw [setP2p_blank _ (hblank p hp2p)]
            exact hset
    | some r =>
        cases hp2p : req.p2p with
        | none =>
            dsimp only
            rw [setRpc_p2p]
            exact hset
        | some p =>
            dsimp only
            rw [setP2p_blank _ (hblank p hp2p), setRpc_p2p]
            exact hset

theorem setRpc_rpc {ep ep' : PeerEndpoint} (h : ep.rpc = ep'.rpc) (rpc : String) :
    (ep.setRpc rpc).rpc = (ep'.setRpc rpc).rpc := by
  unfold PeerEndpoint.setRpc
  dsimp only
  split
  · rfl
  · exact h

/-- A plain address as `uri` leaves the HTTP base as it would be without. -/
theorem upsert_rpc {peer : PeerUri} (ep : PeerEndpoint) (rpc p2p : Option String) (h : peer.Plain) :
    (ep.upsert peer.toStringUri rpc p2p).rpc = (ep.upsert "" rpc p2p).rpc := by
  have hempty : ep.setUri "" = ep := by
    simp [PeerEndpoint.setUri, Text.trim, Text.startsWith]
  have hsame : (ep.setUri peer.toStringUri).rpc = ep.rpc := by
    rw [setUri_plain ep h]
  unfold PeerEndpoint.upsert
  rw [hempty]
  generalize ep.setUri peer.toStringUri = ep' at hsame
  dsimp only
  cases rpc with
  | none =>
      cases p2p with
      | none => exact hsame
      | some p =>
          dsimp only
          rw [setP2p_rpc, setP2p_rpc]
          exact hsame
  | some r =>
      cases p2p with
      | none => exact setRpc_rpc hsame r
      | some p =>
          dsimp only
          rw [setP2p_rpc, setP2p_rpc]
          exact setRpc_rpc hsame r

end PeerEndpoint

/-! ## Only plain addresses are stored -/

/-- The address of an endpoint has the plain scheme. -/
def PeerEndpoint.PlainP2p (ep : PeerEndpoint) : Prop :=
  ∀ uri, ep.p2p = some uri → Text.startsWith "td://" uri = true

namespace PeerEndpoint

variable {ep : PeerEndpoint}

theorem PlainP2p.setUri (h : ep.PlainP2p) (uri : String) : (ep.setUri uri).PlainP2p := by
  unfold PeerEndpoint.setUri
  dsimp only
  split
  · exact h
  split
  next htd =>
      intro u hu
      cases hu
      exact htd
  next =>
      split
      · exact h
      · exact h

theorem PlainP2p.setRpc (h : ep.PlainP2p) (rpc : String) : (ep.setRpc rpc).PlainP2p := by
  unfold PeerEndpoint.setRpc
  dsimp only
  split
  · exact h
  · exact h

theorem PlainP2p.setP2p (h : ep.PlainP2p) (p2p : String) : (ep.setP2p p2p).PlainP2p := by
  unfold PeerEndpoint.setP2p
  dsimp only
  split
  next =>
      intro u hu
      rw [← Option.some.inj hu]
      split
      next htd => exact htd
      next => exact Text.startsWith_append _ _
  next => exact h

theorem PlainP2p.upsert (h : ep.PlainP2p) (uri : String) (rpc p2p : Option String) :
    (ep.upsert uri rpc p2p).PlainP2p := by
  have huri := h.setUri uri
  unfold PeerEndpoint.upsert
  generalize ep.setUri uri = ep at huri
  dsimp only
  cases rpc with
  | none =>
      cases p2p with
      | none => exact huri
      | some p => exact huri.setP2p p
  | some r =>
      cases p2p with
      | none => exact huri.setRpc r
      | some p => exact (huri.setRpc r).setP2p p

end PeerEndpoint

section Session

variable [Olm]

namespace NodeSession

/-- Every address in the table has the plain scheme. -/
def PlainTable (s : NodeSession) : Prop :=
  ∀ name ep, s.peers.lookup name = some ep → ep.PlainP2p

variable {s : NodeSession}

theorem PlainTable.endpoint (h : s.PlainTable) (name : String) :
    ((s.peers.lookup name).getD (PeerEndpoint.new name)).PlainP2p := by
  cases hlook : s.peers.lookup name with
  | none =>
      intro uri huri
      cases huri
  | some ep => exact h name ep hlook

/-- The endpoint that a request leaves under its name. -/
def endpointAfter (s : NodeSession) (req : AddPeerRequest) : PeerEndpoint :=
  let ep := (s.peers.lookup req.name).getD (PeerEndpoint.new req.name)
  let ep := ep.upsert (req.uri.getD "") req.rpc req.p2p
  match req.deviceId.bind Text.trimmed with
  | none => ep
  | some did => { ep with deviceId := some did }

theorem addPeer_lookup (s : NodeSession) (req : AddPeerRequest) (name : String) :
    (s.addPeer req).peers.lookup name =
      if name = req.name then some (s.endpointAfter req) else s.peers.lookup name := by
  have hupsert : ∀ name', (s.upsertPeer req.name (req.uri.getD "") req.rpc req.p2p).peers.lookup name' =
      if name' = req.name then some (((s.peers.lookup req.name).getD (PeerEndpoint.new req.name)).upsert
        (req.uri.getD "") req.rpc req.p2p) else s.peers.lookup name' := by
    intro name'
    unfold upsertPeer
    dsimp only
    rw [HashMap.lookup_insert_eq, HashMap.lookup_erase_eq]
    split
    · rfl
    · rfl
  unfold addPeer endpointAfter
  dsimp only
  cases hdid : req.deviceId.bind Text.trimmed with
  | none => exact hupsert name
  | some did =>
      have hself := hupsert req.name
      rw [if_pos rfl] at hself
      simp only [hself]
      rw [HashMap.lookup_insert_eq, hupsert]
      split
      · rfl
      · rfl

theorem endpointAfter_p2p (s : NodeSession) (req : AddPeerRequest) :
    (s.endpointAfter req).p2p = (((s.peers.lookup req.name).getD (PeerEndpoint.new req.name)).upsert
      (req.uri.getD "") req.rpc req.p2p).p2p := by
  unfold endpointAfter
  dsimp only
  split
  · rfl
  · rfl

theorem endpointAfter_rpc (s : NodeSession) (req : AddPeerRequest) :
    (s.endpointAfter req).rpc = (((s.peers.lookup req.name).getD (PeerEndpoint.new req.name)).upsert
      (req.uri.getD "") req.rpc req.p2p).rpc := by
  unfold endpointAfter
  dsimp only
  split
  · rfl
  · rfl

theorem PlainTable.endpointAfter (h : s.PlainTable) (req : AddPeerRequest) :
    (s.endpointAfter req).PlainP2p := by
  intro uri huri
  rw [endpointAfter_p2p] at huri
  exact (h.endpoint req.name).upsert _ _ _ uri huri

theorem PlainTable.addPeer (h : s.PlainTable) (req : AddPeerRequest) : (s.addPeer req).PlainTable := by
  intro name ep hep
  rw [addPeer_lookup] at hep
  split at hep
  · cases hep
    exact h.endpointAfter req
  · exact h name ep hep

/-! ## What becomes of an address -/

/-- The P2P address stored under a name. -/
def p2pOf (s : NodeSession) (name : String) : Option String :=
  (s.peers.lookup name).bind fun ep => ep.p2p

def rpcOf (s : NodeSession) (name : String) : Option String :=
  (s.peers.lookup name).bind fun ep => ep.rpc

/-- Once a request has given an address, the table reads it back, the push and the relay client make
the connection it asks for, and the request's `uri` has not become an HTTP base. -/
structure KeepsTransport (env : DialEnv) (s : NodeSession) (req : AddPeerRequest) (peer : PeerUri) :
    Prop where
  stored : ∃ uri, (s.addPeer req).p2pOf req.name = some uri ∧ PeerUri.parse uri = .ok peer
  pushed : ∀ contact, ((s.addPeer req).peers.lookup req.name).bind (pushContact env) = some contact →
    contact = peer.contact
  notRpc : req.uri = some peer.toStringUri →
    (s.addPeer req).rpcOf req.name = (s.addPeer { req with uri := none }).rpcOf req.name
  relayed : relayContact peer.toStringUri = some peer.contact

theorem p2pOf_addPeer (s : NodeSession) (req : AddPeerRequest) :
    (s.addPeer req).p2pOf req.name = (s.endpointAfter req).p2p := by
  rw [p2pOf, addPeer_lookup, if_pos rfl, Option.bind_some]

theorem rpcOf_addPeer (s : NodeSession) (req : AddPeerRequest) :
    (s.addPeer req).rpcOf req.name = (s.endpointAfter req).rpc := by
  rw [rpcOf, addPeer_lookup, if_pos rfl, Option.bind_some]

/-- The table reads an address back exactly if it is plain. -/
theorem PlainTable.stored_iff (h : s.PlainTable) {req : AddPeerRequest} {peer : PeerUri}
    (hgives : req.Gives peer) :
    (∃ uri, (s.addPeer req).p2pOf req.name = some uri ∧ PeerUri.parse uri = .ok peer) ↔
      peer.Plain := by
  rw [p2pOf_addPeer]
  constructor
  · rintro ⟨uri, hstored, hparse⟩
    rcases Text.startsWith_iff.1 (h.endpointAfter req uri hstored) with ⟨r, rfl⟩
    exact PeerUri.plain_of_parse hparse
  · intro hplain
    refine ⟨peer.toStringUri, ?_, PeerUri.parse_toStringUri hplain.not_both⟩
    rw [endpointAfter_p2p]
    exact PeerEndpoint.upsert_p2p _ hplain hgives

/-- After any run of requests: an address that is given for P2P is stored and dialled as what it is exactly
if it asks for plain TCP. -/
theorem keepsTransport_iff [Primitives] (bundle : DeviceBundle) (account : Olm.Account)
    (reqs : List AddPeerRequest) (env : DialEnv) (req : AddPeerRequest) (peer : PeerUri)
    (hgives : req.Gives peer) :
    KeepsTransport env (Runs.run addPeer (NodeSession.new bundle account) reqs) req peer ↔
      peer.noise = false ∧ peer.quic = false := by
  have hnew : (NodeSession.new bundle account).PlainTable := by
    intro name ep hep
    cases hep
  have htable : (Runs.run addPeer (NodeSession.new bundle account) reqs).PlainTable :=
    Runs.run_invariant (J := PlainTable) (fun _ r h => h.addPeer r) reqs hnew
  generalize Runs.run addPeer (NodeSession.new bundle account) reqs = s at htable
  constructor
  · intro hkeeps
    exact (htable.stored_iff hgives).1 hkeeps.stored
  · intro (hplain : peer.Plain)
    refine ⟨(htable.stored_iff hgives).2 hplain, ?_, ?_, (relayContact_iff hplain.not_both).2 hplain⟩
    · intro contact hcontact
      have hp2p : (s.endpointAfter req).p2p = some peer.toStringUri := by
        rw [endpointAfter_p2p]
        exact PeerEndpoint.upsert_p2p _ hplain hgives
      rw [addPeer_lookup, if_pos rfl, Option.bind_some] at hcontact
      exact (pushContact_iff hplain.not_both hp2p).2 hplain.1 contact hcontact
    · intro huri
      have hnone := endpointAfter_rpc s { req with uri := none }
      rw [rpcOf_addPeer, rpcOf_addPeer s { req with uri := none }, endpointAfter_rpc, hnone, huri]
      exact PeerEndpoint.upsert_rpc _ req.rpc req.p2p hplain

end NodeSession

end Session

/-! ## A plain and a Noise address -/

section Example

open Checksum

attribute [local instance] Checksum.primitives

/-- A peer, with or without Noise. -/
def bob (noise : Bool) : PeerUri :=
  { host := "bob"
    port := 7070
    noise := noise
    quic := false }

/-- The request that gives an address as `uri`. -/
def addBob (noise : Bool) : AddPeerRequest :=
  { name := "bob"
    uri := some (bob noise).toStringUri
    rpc := none
    p2p := none
    deviceId := none }

theorem addBob_gives (noise : Bool) : (addBob noise).Gives (bob noise) := by
  refine Or.inr ⟨rfl, ?_⟩
  intro p hp
  cases hp

theorem keepsTransport_iff_bob :
    letI := Symbolic.olm []
    NodeSession.KeepsTransport ⟨true, fun _ => true⟩
      (Runs.run NodeSession.addPeer (NodeSession.new ⟨device 1, key 1⟩ ⟨"curve"⟩) []) (addBob false)
      (bob false) :=
  letI := Symbolic.olm []
  (NodeSession.keepsTransport_iff _ _ _ _ _ _ (addBob_gives false)).2 ⟨rfl, rfl⟩

/-- The Noise address becomes the base of a web address, and nothing is stored for P2P. -/
theorem addBob_noise_not_kept :
    letI := Symbolic.olm []
    let s := NodeSession.new ⟨device 1, key 1⟩ ⟨"curve"⟩
    (s.addPeer (addBob true)).rpcOf "bob" = some "http://td-noise://bob:7070" ∧
      ¬ NodeSession.KeepsTransport ⟨true, fun _ => true⟩ s (addBob true) (bob true) := by
  intro s
  let _ := Symbolic.olm []
  have hstored : (s.addPeer (addBob true)).p2pOf (addBob true).name = none := by
    decide +kernel
  have hbase : (s.addPeer (addBob true)).rpcOf "bob" = some "http://td-noise://bob:7070" := by
    decide +kernel
  refine ⟨hbase, ?_⟩
  intro hkeeps
  rcases hkeeps.stored with ⟨uri, huri, _⟩
  rw [hstored] at huri
  cases huri

end Example

end Node
end Thunderducks
