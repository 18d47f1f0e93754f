import Thunderducks.Lib.Text
import Thunderducks.Crypto.OneTimeKeys

/-!
# Ratchet — what the Olm library promises, and a ratchet that keeps it

`OlmLaws` says what two devices may rely on when they use keys that the other one has published: a session
that one of them opens, the first message that lets the other one join, and messages that arrive in the order
they were sent.  `Ratchet.olm` is a ratchet to run: a session is known by the three keys and the fresh key it
was opened with, and a message decrypts in no other session.
-/

namespace Thunderducks
namespace Crypto

open Lib

/-- The promises of the library.  A list holds messages on their way, with their plaintexts, oldest first. -/
class OlmLaws [Olm] [OneTimeKeys] where
  /-- `x` was opened with these keys and has sent these messages; nothing has come back. -/
  Opening : (opener receiver otk : Olm.CurveKey) → Olm.Session → List (Olm.Message × Bytes) → Prop
  /-- The two ends of a session, with what is on its way to each. -/
  Joined : (x y : Olm.Session) → (toY toX : List (Olm.Message × Bytes)) → Prop
  fromJson_toJson : ∀ m, Olm.messageFromJson (Olm.messageToJson m) = some m
  identity_read : ∀ account, ∃ k, Olm.curveFromBase64 (Olm.identityKey account) = some k
  oneTime_read : ∀ account, ∀ k ∈ OneTimeKeys.published account, ∃ otk, Olm.curveFromBase64 k = some otk
  mark_published : ∀ account, ∀ k ∈ OneTimeKeys.unpublished account,
    k ∈ OneTimeKeys.published (OneTimeKeys.markPublished account)
  create_outbound : ∀ {account their : Olm.Account} {opener receiver otk k},
    Olm.curveFromBase64 (Olm.identityKey account) = some opener →
    Olm.curveFromBase64 (Olm.identityKey their) = some receiver →
    k ∈ OneTimeKeys.published their → Olm.curveFromBase64 k = some otk →
    ∃ x account', Olm.createOutboundSession account receiver otk = (.ok x, account') ∧
      Opening opener receiver otk x []
  opening_preKey : ∀ {opener receiver otk x m plain sent},
    Opening opener receiver otk x ((m, plain) :: sent) → Olm.isPreKey m = true
  encrypt_opening : ∀ {opener receiver otk x sent}, Opening opener receiver otk x sent → ∀ plain,
    ∃ m x', Olm.encrypt x plain = (.ok m, x') ∧ Opening opener receiver otk x' (sent ++ [(m, plain)])
  create_inbound : ∀ {account opener receiver otk k x m plain sent},
    Opening opener receiver otk x ((m, plain) :: sent) →
    Olm.curveFromBase64 (Olm.identityKey account) = some receiver →
    k ∈ OneTimeKeys.published account → Olm.curveFromBase64 k = some otk →
    ∃ y account', Olm.createInboundSession account opener m = (.ok (y, plain), account') ∧ Joined x y sent []
  joined_symm : ∀ {x y toY toX}, Joined x y toY toX → Joined y x toX toY
  encrypt_joined : ∀ {x y toY toX}, Joined x y toY toX → ∀ plain,
    ∃ m x', Olm.encrypt x plain = (.ok m, x') ∧ Joined x' y (toY ++ [(m, plain)]) toX
  decrypt_joined : ∀ {x y m plain toY toX}, Joined x y ((m, plain) :: toY) toX →
    ∃ y', Olm.decrypt y m = (.ok plain, y') ∧ Joined x y' toY toX

/-! ## A ratchet to run -/

namespace Ratchet

/-- A Curve25519 key is a number, and its text has that many letters. -/
def curveText (k : Nat) : String :=
  String.ofList (List.replicate k 'k')

def readCurve (s : String) : Option Nat :=
  if s = curveText s.length then some s.length else none

theorem readCurve_curveText (k : Nat) : readCurve (curveText k) = some k := by
  have hlen : (curveText k).length = k := by
    simp [curveText]
  unfold readCurve
  rw [hlen, if_pos rfl]

/-- The one-time keys are numbered as they are drawn. -/
structure Account where
  identity : Nat
  drawn : Nat
  unpublished : List Nat
  published : List Nat
  deriving DecidableEq

/-- What both ends of a session know: the identity keys, the one-time key, and the key drawn by the opener. -/
structure Secret where
  opener : Nat
  receiver : Nat
  otk : Nat
  base : Nat
  deriving DecidableEq

structure Session where
  secret : Secret
  opened : Bool
  sent : Nat
  seen : Nat
  deriving DecidableEq

structure Message where
  secret : Secret
  fromOpener : Bool
  preKey : Bool
  position : Nat
  plain : Bytes
  deriving DecidableEq

/-! ### The text of a message -/

def unary (n : Nat) : Bytes :=
  List.replicate n 1 ++ [0]

def takeUnary : Bytes → Nat × Bytes
  | [] => (0, [])
  | b :: rest =>
      if b = 1 then
        let (n, rest) := takeUnary rest
        (n + 1, rest)
      else
        (0, rest)

theorem takeUnary_unary (n : Nat) (rest : Bytes) : takeUnary (unary n ++ rest) = (n, rest) := by
  unfold unary
  induction n with
  | zero => rfl
  | succ n ih =>
      rw [List.replicate_succ, List.cons_append, List.cons_append, takeUnary, if_pos rfl, ih]

namespace Message

def bytes (m : Message) : Bytes :=
  unary m.secret.opener ++ (unary m.secret.receiver ++ (unary m.secret.otk ++ (unary m.secret.base ++
    (unary m.fromOpener.toNat ++ (unary m.preKey.toNat ++ (unary m.position ++ m.plain))))))

def ofBytes (b : Bytes) : Message :=
  let (opener, b) := takeUnary b
  let (receiver, b) := takeUnary b
  let (otk, b) := takeUnary b
  let (base, b) := takeUnary b
  let (fromOpener, b) := takeUnary b
  let (preKey, b) := takeUnary b
  let (position, plain) := takeUnary b
  { secret := ⟨opener, receiver, otk, base⟩
    fromOpener := fromOpener = 1
    preKey := preKey = 1
    position := position
    plain := plain }

theorem ofBytes_bytes (m : Message) : ofBytes m.bytes = m := by
  simp only [ofBytes, bytes, takeUnary_unary]
  rcases m with ⟨secret, fromOpener, preKey, position, plain⟩
  cases fromOpener <;> cases preKey <;> rfl

def toJson (m : Message) : String :=
  Text.hexEncode m.bytes

def fromJson (s : String) : Option Message :=
  (Text.hexDecode s.toList).map ofBytes

theorem fromJson_toJson (m : Message) : fromJson m.toJson = some m := by
  unfold fromJson toJson
  rw [Text.hexDecode_hexEncode, Option.map_some, ofBytes_bytes]

end Message

/-! ### The operations -/

def createOutboundSession (account : Account) (receiver otk : Nat) : Except String Session × Account :=
  (.ok
    { secret := ⟨account.identity, receiver, otk, account.drawn⟩
      opened := true
      sent := 0
      seen := 0 },
    { account with drawn := account.drawn + 1 })

/-- The one-time key is used up. -/
def createInboundSession (account : Account) (opener : Nat) (m : Message) :
    Except String (Session × Bytes) × Account :=
  if m.secret.opener ≠ opener then
    (.error "mismatched identity key", account)
  else if m.secret.otk ∉ account.published then
    (.error "missing one-time key", account)
  else if m.secret.receiver ≠ account.identity then
    (.error "invalid MAC", account)
  else
    (.ok ({ secret := m.secret, opened := false, sent := 0, seen := m.position + 1 }, m.plain),
      { account with published := account.published.erase m.secret.otk })

/-- The opener sends pre-key messages until it has seen an answer. -/
def encrypt (s : Session) (plain : Bytes) : Except String Message × Session :=
  (.ok
    { secret := s.secret
      fromOpener := s.opened
      preKey := s.opened && s.seen = 0
      position := s.sent
      plain := plain },
    { s with sent := s.sent + 1 })

def decrypt (s : Session) (m : Message) : Except String Bytes × Session :=
  if m.secret ≠ s.secret ∨ m.fromOpener = s.opened then
    (.error "invalid MAC", s)
  else if m.position < s.seen then
    (.error "missing message key", s)
  else
    (.ok m.plain, { s with seen := m.position + 1 })

@[reducible] def olm : Olm :=
  { Account := Account
    Session := Session
    Message := Message
    CurveKey := Nat
    curveFromBase64 := readCurve
    identityKey := fun account => curveText account.identity
    messageToJson := Message.toJson
    messageFromJson := Message.fromJson
    isPreKey := Message.preKey
    createOutboundSession := createOutboundSession
    createInboundSession := createInboundSession
    encrypt := encrypt
    decrypt := decrypt }

@[reducible] def oneTimeKeys : @OneTimeKeys olm :=
  letI := olm
  { unpublished := fun account => account.unpublished.map curveText
    published := fun account => account.published.map curveText
    generate := fun account n =>
      { account with
        drawn := account.drawn + n
        unpublished := account.unpublished ++ (List.range n).map (account.drawn + ·) }
    markPublished := fun account =>
      { account with
        unpublished := []
        published := account.published ++ account.unpublished } }

/-! ### It keeps the promises -/

/-- The messages of one direction, numbered from `n` on. -/
def Numbered (secret : Secret) (fromOpener : Bool) : Nat → List (Message × Bytes) → Prop
  | _, [] => True
  | n, (m, plain) :: rest =>
      (m.secret = secret ∧ m.fromOpener = fromOpener ∧ m.position = n ∧ m.plain = plain) ∧
        Numbered secret fromOpener (n + 1) rest

theorem Numbered.snoc {secret : Secret} {fromOpener : Bool} {m : Message} {plain : Bytes}
    (hsecret : m.secret = secret) (hfrom : m.fromOpener = fromOpener) (hplain : m.plain = plain) :
    ∀ {n : Nat} {l : List (Message × Bytes)}, Numbered secret fromOpener n l → m.position = n + l.length →
      Numbered secret fromOpener n (l ++ [(m, plain)]) := by
  intro n l
  induction l generalizing n with
  | nil =>
      intro _ hpos
      exact ⟨⟨hsecret, hfrom, hpos, hplain⟩, trivial⟩
  | cons e l ih =>
      rintro ⟨he, hl⟩ hpos
      rw [List.length_cons] at hpos
      exact ⟨he, ih hl (by omega)⟩

structure Opening (opener receiver otk : Nat) (x : Session) (sent : List (Message × Bytes)) : Prop where
  keys : x.secret.opener = opener ∧ x.secret.receiver = receiver ∧ x.secret.otk = otk
  opened : x.opened = true
  unseen : x.seen = 0
  preKey : ∀ e ∈ sent, e.1.preKey = true
  numbered : Numbered x.secret true 0 sent
  count : x.sent = sent.length

/-- What `x` has sent and `y` has not seen. -/
structure Flow (x y : Session) (toY : List (Message × Bytes)) : Prop where
  numbered : Numbered x.secret x.opened y.seen toY
  count : x.sent = y.seen + toY.length

structure Joined (x y : Session) (toY toX : List (Message × Bytes)) : Prop where
  secret : x.secret = y.secret
  ends : x.opened ≠ y.opened
  there : Flow x y toY
  back : Flow y x toX

theorem Opening.encrypt {opener receiver otk : Nat} {x : Session} {sent : List (Message × Bytes)}
    (h : Opening opener receiver otk x sent) (plain : Bytes) :
    ∃ m x', Ratchet.encrypt x plain = (.ok m, x') ∧
      Opening opener receiver otk x' (sent ++ [(m, plain)]) := by
  refine ⟨_, _, rfl, h.keys, h.opened, h.unseen, ?_, ?_, ?_⟩
  · intro e he
    rcases List.mem_append.1 he with hold | hnew
    · exact h.preKey e hold
    · rw [List.mem_singleton.1 hnew]
      simp [h.opened, h.unseen]
  · apply Numbered.snoc
    · rfl
    · exact h.opened
    · rfl
    · exact h.numbered
    · rw [Nat.zero_add]
      exact h.count
  · simp [h.count]

theorem Opening.createInbound {account : Account} {opener receiver otk : Nat} {x : Session} {m : Message}
    {plain : Bytes} {sent : List (Message × Bytes)} (h : Opening opener receiver otk x ((m, plain) :: sent))
    (hself : account.identity = receiver) (hotk : otk ∈ account.published) :
    ∃ y account', createInboundSession account opener m = (.ok (y, plain), account') ∧
      Joined x y sent [] := by
  rcases h.numbered with ⟨⟨hsecret, _, hpos, hplain⟩, hrest⟩
  rcases h.keys with ⟨hopener, hreceiver, hkey⟩
  refine ⟨{ secret := m.secret, opened := false, sent := 0, seen := m.position + 1 },
    { account with published := account.published.erase m.secret.otk }, ?_, ?_⟩
  · unfold createInboundSession
    rw [hsecret, hopener, hreceiver, hkey, hself, hplain]
    simp [hotk]
  · refine ⟨hsecret.symm, by simp [h.opened], ⟨?_, ?_⟩, ⟨trivial, ?_⟩⟩
    · rw [h.opened, hpos]
      exact hrest
    · rw [h.count, hpos, List.length_cons]
      exact (Nat.add_comm _ _).trans (by simp)
    · simp [h.unseen]

theorem Joined.encrypt {x y : Session} {toY toX : List (Message × Bytes)} (h : Joined x y toY toX)
    (plain : Bytes) :
    ∃ m x', Ratchet.encrypt x plain = (.ok m, x') ∧ Joined x' y (toY ++ [(m, plain)]) toX := by
  refine ⟨_, _, rfl, h.secret, h.ends, ⟨?_, ?_⟩, ⟨h.back.numbered, h.back.count⟩⟩
  · apply Numbered.snoc
    · rfl
    · rfl
    · rfl
    · exact h.there.numbered
    · exact h.there.count
  · simp [h.there.count, Nat.add_assoc]

theorem Joined.decrypt {x y : Session} {m : Message} {plain : Bytes} {toY toX : List (Message × Bytes)}
    (h : Joined x y ((m, plain) :: toY) toX) :
    ∃ y', Ratchet.decrypt y m = (.ok plain, y') ∧ Joined x y' toY toX := by
  rcases h.there.numbered with ⟨⟨hsecret, hfrom, hpos, hplain⟩, hrest⟩
  refine ⟨{ y with seen := m.position + 1 }, ?_, h.secret, h.ends, ⟨?_, ?_⟩, ⟨h.back.numbered, h.back.count⟩⟩
  · unfold Ratchet.decrypt
    rw [if_neg, if_neg, hplain]
    · omega
    · rw [hsecret, h.secret, hfrom]
      simpa using h.ends
  · rw [hpos]
    exact hrest
  · have hcount := h.there.count
    rw [List.length_cons] at hcount
    dsimp only
    omega

section Laws

attribute [local instance] olm oneTimeKeys

@[reducible] def laws : OlmLaws :=
  { Opening := Opening
    Joined := Joined
    fromJson_toJson := Message.fromJson_toJson
    identity_read := fun account => ⟨account.identity, readCurve_curveText _⟩
    oneTime_read := by
      intro account k hk
      rcases List.mem_map.1 hk with ⟨n, _, rfl⟩
      exact ⟨n, readCurve_curveText n⟩
    mark_published := by
      intro account k hk
      rcases List.mem_map.1 hk with ⟨n, hn, rfl⟩
      exact List.mem_map.2 ⟨n, List.mem_append.2 (Or.inr hn), rfl⟩
    create_outbound := by
      intro account their opener receiver otk k hself _ _ _
      have hid : account.identity = opener := by
        rw [← Option.some.injEq, ← readCurve_curveText]
        exact hself
      exact ⟨_, _, rfl, ⟨hid, rfl, rfl⟩, rfl, rfl, by simp, trivial, rfl⟩
    opening_preKey := fun h => h.preKey _ (List.mem_cons_self ..)
    encrypt_opening := fun h plain => h.encrypt plain
    create_inbound := by
      intro account opener receiver otk k x m plain sent h hself hk hread
      have hid : account.identity = receiver := by
        rw [← Option.some.injEq, ← readCurve_curveText]
        exact hself
      rcases List.mem_map.1 hk with ⟨n, hn, rfl⟩
      have hotk : n = otk := by
        rw [← Option.some.injEq, ← readCurve_curveText]
        exact hread
      exact h.createInbound hid (hotk ▸ hn)
    joined_symm := fun h => ⟨h.secret.symm, h.ends.symm, h.back, h.there⟩
    encrypt_joined := fun h plain => h.encrypt plain
    decrypt_joined := fun h => h.decrypt }

end Laws

end Ratchet

end Crypto
end Thunderducks
