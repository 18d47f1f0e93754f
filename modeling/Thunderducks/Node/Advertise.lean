import Thunderducks.Lib.IpRead
import Thunderducks.Net.Dial

/-!
# Advertise — the address of a socket as a `PeerUri` (`td-net/src/peer.rs`, `td-node/src/rpc.rs`)

`from_tcp_addr` and its siblings keep the text of the IP address alone, and `socket_addr` puts a colon and the
port behind it.  `advertise_p2p_uri` writes the whole socket address, an IPv6 address in its brackets.
`agrees_iff` says for which addresses both ways lead back to the address they began with.
-/

namespace Thunderducks

open Lib Lib.IpText

/-! ## Addresses of sockets -/

namespace Net
namespace PeerUri

def fromTcpAddr (addr : SocketAddr) : PeerUri :=
  { host := String.ofList addr.ipText
    port := addr.port
    noise := false
    quic := false }

def fromTcpAddrNoise (addr : SocketAddr) : PeerUri :=
  { host := String.ofList addr.ipText
    port := addr.port
    noise := true
    quic := false }

def fromTcpAddrQuic (addr : SocketAddr) : PeerUri :=
  { host := String.ofList addr.ipText
    port := addr.port
    noise := false
    quic := true }

/-- `socket_addr().parse::<SocketAddr>()`, which `quic_dial_with_config` dials. -/
def parsedAddr (uri : PeerUri) : Option SocketAddr :=
  SocketAddr.parse uri.socketAddr.toList

theorem toList_socketAddr (uri : PeerUri) :
    uri.socketAddr.toList = uri.host.toList ++ ':' :: decimal uri.port.toNat := by
  simp [socketAddr, Text.decimal, decimal]

/-- The host of an IPv4 address and its port are the address again; those of an IPv6 address are none. -/
theorem parsedAddr_ipText {uri : PeerUri} {addr : SocketAddr} (hhost : uri.host = String.ofList addr.ipText)
    (hport : uri.port = addr.port) : uri.parsedAddr = if addr.isIpv4 then some addr else none := by
  unfold parsedAddr
  rw [toList_socketAddr, hhost, hport, String.toList_ofList]
  cases addr with
  | v4 ip port => exact parse_text (.v4 ip port)
  | v6 ip port flowinfo scopeId => exact parse_ipv6_text ip _

theorem parsedAddr_ipText_iff {uri : PeerUri} {addr : SocketAddr} (hhost : uri.host = String.ofList addr.ipText)
    (hport : uri.port = addr.port) : uri.parsedAddr = some addr ↔ addr.isIpv4 = true := by
  rw [parsedAddr_ipText hhost hport]
  split
  next h => exact ⟨fun _ => h, fun _ => rfl⟩
  next h => exact ⟨nofun, fun hv4 => absurd hv4 h⟩

/-- No address of an IPv6 socket can be dialled over QUIC. -/
theorem quicDialWithConfig_fromTcpAddrQuic (addr : SocketAddr) :
    (quicDialWithConfig (fun s => (SocketAddr.parse s.toList).isSome) (fromTcpAddrQuic addr)).isSome =
      addr.isIpv4 := by
  have hparsed : SocketAddr.parse (fromTcpAddrQuic addr).socketAddr.toList =
      if addr.isIpv4 then some addr else none :=
    parsedAddr_ipText rfl rfl
  unfold quicDialWithConfig
  rw [if_neg (by simp [fromTcpAddrQuic])]
  simp only [hparsed]
  cases addr.isIpv4 with
  | false => rfl
  | true => rfl

end PeerUri
end Net

/-! ## Advertised addresses -/

namespace Node

open Net

def advertiseAddr (localAddr : SocketAddr) (advertiseHost : Option String) : String :=
  match advertiseHost.bind Text.trimmed with
  | some h =>
      -- already host:port; an IPv6 address without brackets has more than one colon
      if ':' ∈ h.toList ∧ h.toList.head? ≠ some '[' ∧
          ((Text.rsplitOnce ':' h.toList).bind fun parts => Text.parseU16 parts.2).isSome ∧
          h.toList.count ':' = 1 then
        h
      else
        h ++ ":" ++ Text.decimal localAddr.port.toNat
  | none => String.ofList localAddr.text

def advertiseP2pUri (localAddr : SocketAddr) (advertiseHost : Option String) (noise quic : Bool) : String :=
  let adv := advertiseAddr localAddr advertiseHost
  let scheme := if quic then "td-quic" else if noise then "td-noise" else "td"
  if Text.startsWith "td://" adv || Text.startsWith "td-noise://" adv || Text.startsWith "td-quic://" adv then
    adv
  else
    scheme ++ "://" ++ adv

/-- The peer that is advertised for a socket without a host of its own. -/
def advertised (addr : SocketAddr) (noise quic : Bool) : PeerUri :=
  { host := String.ofList addr.hostText
    port := addr.port
    noise := !quic && noise
    quic := quic }

theorem toList_socketAddr_advertised (addr : SocketAddr) (noise quic : Bool) :
    (advertised addr noise quic).socketAddr.toList = addr.text := by
  rw [PeerUri.toList_socketAddr]
  simp [advertised, SocketAddr.text]

/-- The text of an address begins with a digit or a bracket. -/
theorem text_head (addr : SocketAddr) : addr.text.head? ≠ some 't' := by
  intro h
  cases addr with
  | v4 ip port =>
      unfold SocketAddr.text SocketAddr.hostText Ipv4Addr.text decimal at h
      rw [List.append_assoc, List.head?_append_of_ne_nil _ Nat.toDigits_ne_nil] at h
      have hdigit := (toDigits_spec (by decide) (by decide) ip.a.toNat).1 't' (List.mem_of_mem_head? h)
      exact absurd hdigit (by decide)
  | v6 ip port flowinfo scopeId => cases h

theorem startsWith_text {p : String} (hp : p.toList.head? = some 't') (addr : SocketAddr) :
    Text.startsWith p (String.ofList addr.text) = false := by
  rw [Bool.eq_false_iff]
  intro h
  rcases Text.startsWith_iff.1 h with ⟨r, hr⟩
  rcases List.head?_eq_some_iff.1 hp with ⟨t, ht⟩
  have htext : addr.text = p.toList ++ r.toList := by
    rw [← String.toList_append, ← hr, String.toList_ofList]
  refine text_head addr ?_
  rw [htext, ht]
  rfl

/-- The address that is advertised is that of one peer, in the words of `toStringUri`. -/
theorem advertiseP2pUri_none (addr : SocketAddr) (noise quic : Bool) :
    advertiseP2pUri addr none noise quic = (advertised addr noise quic).toStringUri := by
  have hadv : advertiseAddr addr none = String.ofList addr.text := rfl
  have haddr : (advertised addr noise quic).socketAddr = String.ofList addr.text := by
    rw [← toList_socketAddr_advertised addr noise quic, String.ofList_toList]
  unfold advertiseP2pUri PeerUri.toStringUri
  rw [haddr, hadv]
  dsimp only
  rw [startsWith_text (by decide), startsWith_text (by decide), startsWith_text (by decide)]
  cases quic with
  | true => rfl
  | false =>
      cases noise with
      | true => rfl
      | false => rfl

theorem advertised_not_both (addr : SocketAddr) (noise quic : Bool) :
    ¬ ((advertised addr noise quic).noise = true ∧ (advertised addr noise quic).quic = true) := by
  rintro ⟨hnoise, hquic⟩
  cases quic with
  | true => cases hnoise
  | false => cases hquic

theorem parse_advertiseP2pUri (addr : SocketAddr) (noise quic : Bool) :
    PeerUri.parse (advertiseP2pUri addr none noise quic) = .ok (advertised addr noise quic) := by
  rw [advertiseP2pUri_none]
  exact PeerUri.parse_toStringUri (advertised_not_both addr noise quic)

/-- The advertised text shows all of an address but its flow information. -/
theorem parsedAddr_advertised_iff (addr : SocketAddr) (noise quic : Bool) :
    (advertised addr noise quic).parsedAddr = some addr ↔ addr.flowinfo = 0 := by
  unfold PeerUri.parsedAddr
  rw [toList_socketAddr_advertised, parse_text]
  cases addr with
  | v4 ip port => exact ⟨fun _ => rfl, fun _ => rfl⟩
  | v6 ip port flowinfo scopeId =>
      simp only [SocketAddr.shown, SocketAddr.flowinfo, Option.some.injEq, SocketAddr.v6.injEq, true_and, and_true]
      exact eq_comm

/-! ## Both ways -/

/-- The address of a peer: its URI is read back, and what it dials is the socket it is for. -/
structure LeadsBack (uri : PeerUri) (addr : SocketAddr) : Prop where
  parse : PeerUri.parse uri.toStringUri = .ok uri
  parsedAddr : uri.parsedAddr = some addr

structure Agrees (addr : SocketAddr) : Prop where
  tcp : LeadsBack (PeerUri.fromTcpAddr addr) addr
  noise : LeadsBack (PeerUri.fromTcpAddrNoise addr) addr
  quic : LeadsBack (PeerUri.fromTcpAddrQuic addr) addr
  advertised : ∀ noise quic, ∃ uri,
    PeerUri.parse (advertiseP2pUri addr none noise quic) = .ok uri ∧ LeadsBack uri addr

/-- Every way from an address to a peer leads back to it exactly if it is an IPv4 address. -/
theorem agrees_iff (addr : SocketAddr) : Agrees addr ↔ addr.isIpv4 = true := by
  constructor
  · intro h
    have hdials : (PeerUri.fromTcpAddr addr).parsedAddr = some addr := h.tcp.parsedAddr
    exact (PeerUri.parsedAddr_ipText_iff rfl rfl).1 hdials
  · intro hv4
    have hflow : addr.flowinfo = 0 := by
      cases addr with
      | v4 ip port => rfl
      | v6 ip port flowinfo scopeId => cases hv4
    -- the three constructors differ in the transport alone
    have hfrom : ∀ {uri : PeerUri}, uri.host = String.ofList addr.ipText → uri.port = addr.port →
        ¬ (uri.noise = true ∧ uri.quic = true) → LeadsBack uri addr := by
      intro uri hhost hport hboth
      exact ⟨PeerUri.parse_toStringUri hboth, (PeerUri.parsedAddr_ipText_iff hhost hport).2 hv4⟩
    refine ⟨hfrom rfl rfl ?_, hfrom rfl rfl ?_, hfrom rfl rfl ?_, ?_⟩
    · simp [PeerUri.fromTcpAddr]
    · simp [PeerUri.fromTcpAddrNoise]
    · simp [PeerUri.fromTcpAddrQuic]
    · intro noise quic
      exact ⟨advertised addr noise quic, parse_advertiseP2pUri addr noise quic,
        PeerUri.parse_toStringUri (advertised_not_both addr noise quic),
        (parsedAddr_advertised_iff addr noise quic).2 hflow⟩

/-- The loopback address of IPv6, at port 7000. -/
def loopback6 : SocketAddr :=
  .v6 { segments := [0, 0, 0, 0, 0, 0, 0, 1], eight := rfl } 7000 0 0

/-- Its host has no brackets, so what is dialled is no socket address, though the advertised text is one. -/
theorem agrees_loopback6 :
    (PeerUri.fromTcpAddrQuic loopback6).socketAddr = "::1:7000" ∧
      (PeerUri.fromTcpAddrQuic loopback6).parsedAddr = none ∧
      advertiseP2pUri loopback6 none false true = "td-quic://[::1]:7000" ∧ ¬ Agrees loopback6 := by
  have hparsed : (PeerUri.fromTcpAddrQuic loopback6).parsedAddr = none := by
    decide
  refine ⟨by decide, hparsed, by decide, ?_⟩
  intro h
  rw [h.quic.parsedAddr] at hparsed
  cases hparsed

end Node
end Thunderducks
