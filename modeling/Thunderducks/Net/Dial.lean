import Thunderducks.Net.RelayProto

/-!
# Dial — which connection is made for a peer address (`td-net/src/peer.rs`, `quic.rs`, `relay_client.rs`)

`toStringUri` writes a `PeerUri` with the scheme of its transport, and `parse` reads it back.  What is
dialled for it is another matter: `dial` opens a plain TCP connection for every address, and
`RelayClient::connect` dials.
-/

namespace Thunderducks
namespace Net

open Lib

/-! ## Writing addresses -/

namespace PeerUri

def socketAddr (uri : PeerUri) : String :=
  uri.host ++ ":" ++ Text.decimal uri.port.toNat

def toStringUri (uri : PeerUri) : String :=
  if uri.quic then "td-quic://" ++ uri.socketAddr
  else if uri.noise then "td-noise://" ++ uri.socketAddr
  else "td://" ++ uri.socketAddr

/-- Neither Noise nor QUIC. -/
def Plain (uri : PeerUri) : Prop :=
  uri.noise = false ∧ uri.quic = false

instance (uri : PeerUri) : Decidable uri.Plain :=
  inferInstanceAs (Decidable (_ ∧ _))

theorem Plain.not_both {uri : PeerUri} (h : uri.Plain) : ¬ (uri.noise = true ∧ uri.quic = true) := by
  rintro ⟨hnoise, _⟩
  rw [h.1] at hnoise
  cases hnoise

/-- The host and the port are told apart at the last colon. -/
theorem rsplitOnce_socketAddr (uri : PeerUri) :
    Text.rsplitOnce ':' uri.socketAddr.toList =
      some (uri.host.toList, (Text.decimal uri.port.toNat).toList) := by
  have hcolon : ':' ∉ (Text.decimal uri.port.toNat).toList := by
    intro h
    exact absurd (Text.isDigit_of_mem_decimal h) (by decide)
  have hsplit : uri.socketAddr.toList =
      uri.host.toList ++ ':' :: (Text.decimal uri.port.toNat).toList := by
    simp [socketAddr]
  rw [hsplit]
  exact Text.rsplitOnce_append _ hcolon

theorem parse_socketAddr {s : String} {uri : PeerUri} {noise quic : Bool}
    (h : scheme s = (uri.socketAddr, noise, quic)) :
    parse s = .ok { host := uri.host, port := uri.port, noise := noise, quic := quic } := by
  unfold parse
  rw [h]
  dsimp only
  rw [rsplitOnce_socketAddr]
  simp only [Text.parseU16_decimal, String.ofList_toList]

theorem scheme_quic (r : String) : scheme ("td-quic://" ++ r) = (r, false, true) := by
  rw [scheme, Text.stripPrefix_append]

theorem scheme_noise (r : String) : scheme ("td-noise://" ++ r) = (r, true, false) := by
  have hquic : Text.stripPrefix "td-quic://" ("td-noise://" ++ r) = none := by
    simp [Text.stripPrefix]
  rw [scheme, hquic]
  dsimp only
  rw [Text.stripPrefix_append]

theorem scheme_plain (r : String) : scheme ("td://" ++ r) = (r, false, false) := by
  have hquic : Text.stripPrefix "td-quic://" ("td://" ++ r) = none := by
    simp [Text.stripPrefix]
  have hnoise : Text.stripPrefix "td-noise://" ("td://" ++ r) = none := by
    simp [Text.stripPrefix]
  rw [scheme, hquic]
  dsimp only
  rw [hnoise]
  dsimp only
  rw [Text.stripPrefix_append]

/-- An address that asks for one transport at most is read back. -/
theorem parse_toStringUri {uri : PeerUri} (h : ¬ (uri.noise = true ∧ uri.quic = true)) :
    parse uri.toStringUri = .ok uri := by
  rcases uri with ⟨host, port, noise, quic⟩
  cases noise with
  | false =>
      cases quic with
      | false => exact parse_socketAddr (scheme_plain _)
      | true => exact parse_socketAddr (scheme_quic _)
  | true =>
      cases quic with
      | false => exact parse_socketAddr (scheme_noise _)
      | true => exact absurd ⟨rfl, rfl⟩ h

/-- The text of an address starts with a letter and ends with a digit. -/
theorem toStringUri_ends (uri : PeerUri) : uri.toStringUri.toList.head? = some 't' ∧
    ∃ l b, uri.toStringUri.toList = l ++ [b] ∧ b.isDigit = true := by
  have hport : ∃ l b, (Text.decimal uri.port.toNat).toList = l ++ [b] := by
    rcases List.eq_nil_or_concat (Text.decimal uri.port.toNat).toList with hnil | ⟨l, b, hl⟩
    · simp [Text.decimal, Nat.toDigits_ne_nil] at hnil
    · exact ⟨l, b, by simpa using hl⟩
  rcases hport with ⟨l, b, hl⟩
  have hb : b.isDigit = true := Text.isDigit_of_mem_decimal (by rw [hl]; simp)
  have hform : ∃ front, uri.toStringUri.toList = 't' :: front ++ (Text.decimal uri.port.toNat).toList := by
    unfold toStringUri socketAddr
    split
    · exact ⟨"d-quic://".toList ++ (uri.host ++ ":").toList, by simp⟩
    split
    · exact ⟨"d-noise://".toList ++ (uri.host ++ ":").toList, by simp⟩
    · exact ⟨"d://".toList ++ (uri.host ++ ":").toList, by simp⟩
  rcases hform with ⟨front, hfront⟩
  refine ⟨by simp [hfront], 't' :: front ++ l, b, ?_, hb⟩
  rw [hfront, hl, List.append_assoc]

theorem trim_toStringUri (uri : PeerUri) : Text.trim uri.toStringUri = uri.toStringUri := by
  rcases toStringUri_ends uri with ⟨hhead, l, b, hlast, hb⟩
  exact Text.trim_eq_self hhead hlast (by decide) (Text.isWhitespace_of_isDigit hb)

theorem toStringUri_ne_empty (uri : PeerUri) : uri.toStringUri ≠ "" := by
  intro h
  have hhead := (toStringUri_ends uri).1
  rw [h] at hhead
  cases hhead

theorem startsWith_td_iff (uri : PeerUri) :
    Text.startsWith "td://" uri.toStringUri = true ↔ uri.Plain := by
  rcases uri with ⟨host, port, noise, quic⟩
  cases noise <;> cases quic <;> simp [Text.startsWith, toStringUri, Plain]

/-- No address has the scheme of a web page. -/
theorem startsWith_http (uri : PeerUri) : Text.startsWith "http://" uri.toStringUri = false ∧
    Text.startsWith "https://" uri.toStringUri = false := by
  rcases uri with ⟨host, port, noise, quic⟩
  cases noise <;> cases quic <;> simp [Text.startsWith, toStringUri, List.isPrefixOf]

/-- What is read from the plain scheme is plain. -/
theorem plain_of_parse {r : String} {uri : PeerUri} (h : parse ("td://" ++ r) = .ok uri) :
    uri.Plain := by
  unfold parse at h
  rw [scheme_plain] at h
  dsimp only at h
  split at h
  · cases h
  · split at h
    · cases h
    · cases h
      exact ⟨rfl, rfl⟩

end PeerUri

/-! ## Connections -/

inductive Transport
  | tcp
  | noise
  | quic
  deriving DecidableEq

/-- The transport that an address asks for. -/
def PeerUri.transport (uri : PeerUri) : Transport :=
  if uri.quic then .quic
  else if uri.noise then .noise
  else .tcp

/-- An attempt to connect. -/
structure Contact where
  transport : Transport
  addr : String
  deriving DecidableEq

/-- The connection that an address asks for. -/
def PeerUri.contact (uri : PeerUri) : Contact :=
  ⟨uri.transport, uri.socketAddr⟩

/-- `TcpStream::connect`, whatever the address asks for. -/
def dial (uri : PeerUri) : Contact :=
  ⟨.tcp, uri.socketAddr⟩

/-- Dial with explicit TLS policy; `isSocketAddr` says which texts are read as a `SocketAddr`. -/
def quicDialWithConfig (isSocketAddr : String → Bool) (uri : PeerUri) : Option Contact :=
  if uri.quic = false then none
  else if isSocketAddr uri.socketAddr = false then none
  else some ⟨.quic, uri.socketAddr⟩

/-- `RelayClient::connect`. -/
def connect (uri : PeerUri) : Contact :=
  dial uri

/-- The connection that a poll or a push makes for the configured relay. -/
def relayContact (relayUri : String) : Option Contact :=
  match PeerUri.parse relayUri with
  | .error _ => none
  | .ok peer => some (connect peer)

theorem dial_eq_contact_iff {uri : PeerUri} : dial uri = uri.contact ↔ uri.Plain := by
  cases hn : uri.noise <;> cases hq : uri.quic <;>
    simp [dial, PeerUri.contact, PeerUri.transport, PeerUri.Plain, hn, hq]

/-- A relay is reached by the transport its address asks for exactly if that is plain TCP. -/
theorem relayContact_iff {uri : PeerUri} (h : ¬ (uri.noise = true ∧ uri.quic = true)) :
    relayContact uri.toStringUri = some uri.contact ↔ uri.Plain := by
  unfold relayContact
  rw [PeerUri.parse_toStringUri h]
  simp only [connect, Option.some.injEq]
  exact dial_eq_contact_iff

end Net
end Thunderducks
