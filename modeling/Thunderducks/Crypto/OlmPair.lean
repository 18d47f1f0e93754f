import Mathlib.Logic.Function.Basic
import Thunderducks.Lib.Runs
import Thunderducks.Crypto.Ratchet

/-!
# OlmPair — two devices that talk over Olm (`td-crypto/src/e2ee.rs`)

Each device keeps one session for the other, whoever opened it.  `decrypts_run` says that every message that
arrives is read as it was written, as long as neither device opens a session while the other one has one.  When
both do, `olm_decrypt` tries the session it has and never gets to the pre-key message.
-/

namespace Thunderducks
namespace Crypto

open Lib Event

/-! ## The system -/

inductive Side
  | a
  | b
  deriving DecidableEq

def Side.other : Side → Side
  | .a => .b
  | .b => .a

@[simp] theorem Side.other_other (s : Side) : s.other.other = s := by
  cases s <;> rfl

@[simp] theorem Side.other_ne (s : Side) : s.other ≠ s := by
  cases s <;> simp [Side.other]

theorem Side.eq_or_other (s t : Side) : t = s ∨ t = s.other := by
  cases s <;> cases t <;> simp [Side.other]

section System

variable [Olm]

/-- The keys are those of the device, and no session has used the one-time key. -/
structure E2eeDevice.Offers [OneTimeKeys] (dev : E2eeDevice) (keys : OlmDeviceKeys) : Prop where
  deviceId : dev.deviceId = keys.deviceId
  identity : Olm.identityKey dev.account = keys.curve25519B64
  unused : keys.oneTimeKeyB64 ∈ OneTimeKeys.published dev.account

/-- Two devices, the keys each has published, the ciphertexts on their way to each with what was encrypted, and
what came of those that arrived. -/
structure Pair where
  dev : Side → E2eeDevice
  keys : Side → OlmDeviceKeys
  inFlight : Side → List (OlmCiphertext × Bytes)
  delivered : List (Bytes × Except E2eeError Bytes)

namespace Pair

inductive Act
  | establish (s : Side)
  | encrypt (s : Side) (plain : Bytes)
  | deliver (s : Side)
  deriving DecidableEq

def withDev (p : Pair) (s : Side) (dev : E2eeDevice) : Pair :=
  { p with dev := Function.update p.dev s dev }

def sent (p : Pair) (s : Side) (ct : OlmCiphertext) (plain : Bytes) : Pair :=
  { p with inFlight := Function.update p.inFlight s.other (p.inFlight s.other ++ [(ct, plain)]) }

def received (p : Pair) (s : Side) (rest : List (OlmCiphertext × Bytes)) (plain : Bytes)
    (res : Except E2eeError Bytes) : Pair :=
  { p with
    inFlight := Function.update p.inFlight s rest
    delivered := p.delivered ++ [(plain, res)] }

/-- A delivery takes the oldest ciphertext of its direction. -/
def step (p : Pair) : Act → Pair
  | .establish s => p.withDev s ((p.dev s).establishOlmOutbound (p.keys s.other)).2
  | .encrypt s plain =>
      match (p.dev s).olmEncrypt (p.keys s.other).deviceId plain with
      | (.error _, dev) => p.withDev s dev
      | (.ok ct, dev) => (p.withDev s dev).sent s ct plain
  | .deliver s =>
      match p.inFlight s with
      | [] => p
      | (ct, plain) :: rest =>
          let (res, dev) := (p.dev s).olmDecrypt (p.keys s.other).curve25519B64 ct
          (p.withDev s dev).received s rest plain res

/-- A message on its way to `s`. -/
def ciphertext (p : Pair) (s : Side) (m : Olm.Message) : OlmCiphertext :=
  { senderDevice := (p.keys s.other).deviceId
    recipientDevice := (p.keys s).deviceId
    messageJson := Olm.messageToJson m }

def session (p : Pair) (s : Side) : Option Olm.Session :=
  (p.dev s).olmSessions.lookup (p.keys s.other).deviceId

/-- Each device has the keys of the other, and they have not met. -/
structure Introduced [OneTimeKeys] (p : Pair) : Prop where
  offers : ∀ s, (p.dev s).Offers (p.keys s)
  apart : ∀ s, p.session s = none
  quiet : ∀ s, p.inFlight s = []
  fresh : p.delivered = []

/-- What arrived was read as it was written. -/
def Faithful (p : Pair) : Prop :=
  ∀ d ∈ p.delivered, d.2 = .ok d.1

/-- No session is opened towards a device that has one in this direction. -/
def Uncrossed (p : Pair) : Act → Prop
  | .establish s => (p.session s).isSome ∨ p.session s.other = none
  | _ => True

/-! ## One device -/

section Steps

variable {p : Pair} {s : Side}

theorem withDev_self : p.withDev s (p.dev s) = p := by
  unfold withDev
  rw [Function.update_eq_self]

theorem session_withDev (dev : E2eeDevice) :
    (p.withDev s dev).session s = dev.olmSessions.lookup (p.keys s.other).deviceId := by
  simp [session, withDev]

theorem session_withDev_other (dev : E2eeDevice) :
    (p.withDev s dev).session s.other = p.session s.other := by
  simp [session, withDev]

theorem deviceId_withDev {dev : E2eeDevice} (h : ∀ t, (p.dev t).deviceId = (p.keys t).deviceId)
    (hdev : dev.deviceId = (p.dev s).deviceId) :
    ∀ t, ((p.withDev s dev).dev t).deviceId = (p.keys t).deviceId := by
  intro t
  rcases Side.eq_or_other s t with rfl | rfl
  · simp [withDev, hdev, h]
  · simp [withDev, h]

/-- Nothing is opened where there is a session. -/
theorem step_establish_known {x : Olm.Session} (h : p.session s = some x) : p.step (.establish s) = p := by
  have hknown : (p.dev s).establishOlmOutbound (p.keys s.other) = (.ok (), p.dev s) := by
    unfold E2eeDevice.establishOlmOutbound
    rw [if_pos (HashMap.mem_of_lookup h)]
  unfold step
  dsimp only
  rw [hknown]
  exact withDev_self

/-- Nothing is sent without a session. -/
theorem step_encrypt_apart (h : p.session s = none) (plain : Bytes) : p.step (.encrypt s plain) = p := by
  have hnone : (p.dev s).olmEncrypt (p.keys s.other).deviceId plain =
      (.error (.missingOlm (p.keys s.other).deviceId), p.dev s) := by
    unfold E2eeDevice.olmEncrypt
    unfold session at h
    rw [h]
  unfold step
  dsimp only
  rw [hnone]
  exact withDev_self

theorem step_deliver_quiet (h : p.inFlight s = []) : p.step (.deliver s) = p := by
  unfold step
  dsimp only
  rw [h]

/-- The device once it has `x` as its session. -/
def withSession (dev : E2eeDevice) (peer : DeviceId) (x : Olm.Session) : E2eeDevice :=
  { dev with olmSessions := dev.olmSessions.insert peer x }

theorem step_encrypt {x x' : Olm.Session} {plain : Bytes} {m : Olm.Message} (h : p.session s = some x)
    (hid : (p.dev s).deviceId = (p.keys s).deviceId) (henc : Olm.encrypt x plain = (.ok m, x')) :
    p.step (.encrypt s plain) =
      (p.withDev s (withSession (p.dev s) (p.keys s.other).deviceId x')).sent s
        (p.ciphertext s.other m) plain := by
  unfold session at h
  unfold step E2eeDevice.olmEncrypt withSession ciphertext
  dsimp only
  rw [h]
  dsimp only
  rw [henc, hid, Side.other_other]

theorem step_establish {x : Olm.Session} {account : Olm.Account} {receiver otk : Olm.CurveKey}
    (h : p.session s = none) (hreceiver : Olm.curveFromBase64 (p.keys s.other).curve25519B64 = some receiver)
    (hotk : Olm.curveFromBase64 (p.keys s.other).oneTimeKeyB64 = some otk)
    (hcreate : Olm.createOutboundSession (p.dev s).account receiver otk = (.ok x, account)) :
    p.step (.establish s) =
      p.withDev s (withSession { p.dev s with account := account } (p.keys s.other).deviceId x) := by
  unfold step E2eeDevice.establishOlmOutbound withSession
  dsimp only
  rw [if_neg (AList.lookup_eq_none.1 h), hreceiver, hotk]
  dsimp only
  rw [hcreate]

variable [OneTimeKeys] [OlmLaws]

/-- A device that has a session reads with it. -/
theorem step_deliver_known {y y' : Olm.Session} {m : Olm.Message} {plain read : Bytes}
    {rest : List (OlmCiphertext × Bytes)} (h : p.session s = some y)
    (hid : (p.dev s).deviceId = (p.keys s).deviceId)
    (hin : p.inFlight s = (p.ciphertext s m, plain) :: rest) (hdec : Olm.decrypt y m = (.ok read, y')) :
    p.step (.deliver s) =
      (p.withDev s (withSession (p.dev s) (p.keys s.other).deviceId y')).received s rest plain (.ok read) := by
  unfold session at h
  unfold step E2eeDevice.olmDecrypt withSession
  dsimp only
  rw [hin]
  dsimp only [ciphertext]
  rw [if_neg (by simp [hid]), OlmLaws.fromJson_toJson]
  dsimp only
  rw [h]
  dsimp only
  rw [hdec]

/-- A device that has none joins the session of a pre-key message. -/
theorem step_deliver_first {y : Olm.Session} {account : Olm.Account} {opener : Olm.CurveKey} {m : Olm.Message}
    {plain read : Bytes} {rest : List (OlmCiphertext × Bytes)} (h : p.session s = none)
    (hid : (p.dev s).deviceId = (p.keys s).deviceId)
    (hin : p.inFlight s = (p.ciphertext s m, plain) :: rest) (hpre : Olm.isPreKey m = true)
    (hopener : Olm.curveFromBase64 (p.keys s.other).curve25519B64 = some opener)
    (hcreate : Olm.createInboundSession (p.dev s).account opener m = (.ok (y, read), account)) :
    p.step (.deliver s) =
      (p.withDev s (withSession { p.dev s with account := account } (p.keys s.other).deviceId y)).received s
        rest plain (.ok read) := by
  unfold session at h
  unfold step E2eeDevice.olmDecrypt withSession
  dsimp only
  rw [hin]
  dsimp only [ciphertext]
  rw [if_neg (by simp [hid]), OlmLaws.fromJson_toJson]
  dsimp only
  rw [h]
  dsimp only
  rw [if_pos hpre, hopener]
  dsimp only
  rw [hcreate]

end Steps

/-! ## The two devices -/

section Phases

variable [OneTimeKeys] [OlmLaws]

/-- The ciphertexts of messages on their way to `s`. -/
def wire (p : Pair) (s : Side) (l : List (Olm.Message × Bytes)) : List (OlmCiphertext × Bytes) :=
  l.map fun e => (p.ciphertext s e.1, e.2)

/-- `s` has opened a session, and the other has seen nothing of it. -/
structure Opened (p : Pair) (idKey otk : Side → Olm.CurveKey) (s : Side) (x : Olm.Session)
    (sent : List (Olm.Message × Bytes)) : Prop where
  session : p.session s = some x
  none : p.session s.other = none
  offers : (p.dev s.other).Offers (p.keys s.other)
  opening : OlmLaws.Opening (idKey s) (idKey s.other) (otk s.other) x sent
  there : p.inFlight s.other = p.wire s.other sent
  back : p.inFlight s = []

/-- Both have the session. -/
structure Linked (p : Pair) (s : Side) (x y : Olm.Session) (toY toX : List (Olm.Message × Bytes)) : Prop where
  session : p.session s = some x
  session_other : p.session s.other = some y
  joined : OlmLaws.Joined x y toY toX
  there : p.inFlight s.other = p.wire s.other toY
  back : p.inFlight s = p.wire s toX

theorem Linked.symm {p : Pair} {s : Side} {x y : Olm.Session} {toY toX : List (Olm.Message × Bytes)}
    (h : p.Linked s x y toY toX) : p.Linked s.other y x toX toY := by
  refine ⟨h.session_other, ?_, OlmLaws.joined_symm h.joined, ?_, h.there⟩
  · rw [Side.other_other]
    exact h.session
  · rw [Side.other_other]
    exact h.back

/-- How far the two have come. -/
inductive Phase (p : Pair) (idKey otk : Side → Olm.CurveKey) : Prop
  | apart (hnone : ∀ s, p.session s = none) (hoffers : ∀ s, (p.dev s).Offers (p.keys s))
      (hquiet : ∀ s, p.inFlight s = [])
  | opened (s : Side) (x : Olm.Session) (sent : List (Olm.Message × Bytes)) (h : p.Opened idKey otk s x sent)
  | linked (s : Side) (x y : Olm.Session) (toY toX : List (Olm.Message × Bytes)) (h : p.Linked s x y toY toX)

/-- Once linked, either side will do. -/
theorem Linked.from {p : Pair} {s : Side} {x y : Olm.Session} {toY toX : List (Olm.Message × Bytes)}
    (h : p.Linked s x y toY toX) (t : Side) : ∃ x y toY toX, p.Linked t x y toY toX := by
  rcases Side.eq_or_other s t with rfl | rfl
  · exact ⟨x, y, toY, toX, h⟩
  · exact ⟨y, x, toX, toY, h.symm⟩

/-- What holds all along. -/
structure Connected (p : Pair) (idKey otk : Side → Olm.CurveKey) : Prop where
  deviceId : ∀ s, (p.dev s).deviceId = (p.keys s).deviceId
  idKey_read : ∀ s, Olm.curveFromBase64 (p.keys s).curve25519B64 = some (idKey s)
  otk_read : ∀ s, Olm.curveFromBase64 (p.keys s).oneTimeKeyB64 = some (otk s)
  phase : Phase p idKey otk
  faithful : p.Faithful

theorem Connected.introduced {p : Pair} (h : p.Introduced) : ∃ idKey otk, p.Connected idKey otk := by
  have hid : ∀ s, ∃ k, Olm.curveFromBase64 (p.keys s).curve25519B64 = some k := by
    intro s
    rw [← (h.offers s).identity]
    exact OlmLaws.identity_read _
  have hotk : ∀ s, ∃ k, Olm.curveFromBase64 (p.keys s).oneTimeKeyB64 = some k :=
    fun s => OlmLaws.oneTime_read _ _ (h.offers s).unused
  choose idKey hidKey using hid
  choose otk hotk using hotk
  refine ⟨idKey, otk, fun s => (h.offers s).deviceId, hidKey, hotk, .apart h.apart h.offers h.quiet, ?_⟩
  intro d hd
  rw [h.fresh] at hd
  cases hd

variable {p : Pair} {s : Side} {idKey otk : Side → Olm.CurveKey}

/-- Keys are never changed. -/
theorem Connected.next {p' : Pair} (h : p.Connected idKey otk) (hkeys : p'.keys = p.keys)
    (hid : ∀ s, (p'.dev s).deviceId = (p.keys s).deviceId) (hphase : Phase p' idKey otk)
    (hfaithful : p'.Faithful) : p'.Connected idKey otk := by
  refine ⟨?_, ?_, ?_, hphase, hfaithful⟩
  · rw [hkeys]
    exact hid
  · rw [hkeys]
    exact h.idKey_read
  · rw [hkeys]
    exact h.otk_read

omit [OneTimeKeys] [OlmLaws] in
theorem session_withSession (dev : E2eeDevice) (x : Olm.Session) :
    (p.withDev s (withSession dev (p.keys s.other).deviceId x)).session s = some x := by
  rw [session_withDev]
  exact AList.lookup_insert _

theorem Connected.establish (h : p.Connected idKey otk) (hun : p.Uncrossed (.establish s)) :
    (p.step (.establish s)).Connected idKey otk := by
  rcases h.phase with ⟨hnone, hoffers, hquiet⟩ | ⟨t, x, sent, ht⟩ | ⟨t, x, y, toY, toX, ht⟩
  · have hself : Olm.curveFromBase64 (Olm.identityKey (p.dev s).account) = some (idKey s) := by
      rw [(hoffers s).identity]
      exact h.idKey_read s
    have hother : Olm.curveFromBase64 (Olm.identityKey (p.dev s.other).account) = some (idKey s.other) := by
      rw [(hoffers s.other).identity]
      exact h.idKey_read s.other
    rcases OlmLaws.create_outbound hself hother (hoffers s.other).unused (h.otk_read s.other) with
      ⟨x, account, hcreate, hopening⟩
    rw [step_establish (hnone s) (h.idKey_read _) (h.otk_read _) hcreate]
    refine h.next rfl (deviceId_withDev h.deviceId rfl) (.opened s x [] ?_) h.faithful
    refine ⟨session_withSession _ x, ?_, ?_, hopening, hquiet _, hquiet _⟩
    · rw [session_withDev_other]
      exact hnone _
    · simpa [withDev] using hoffers s.other
  · -- the one that opened it has it, and the other may not open one of its own
    rcases Side.eq_or_other t s with rfl | rfl
    · rw [step_establish_known ht.session]
      exact h
    · simp [Uncrossed, ht.none, ht.session] at hun
  · rcases ht.from s with ⟨x, y, toY, toX, hs⟩
    rw [step_establish_known hs.session]
    exact h

omit [OneTimeKeys] [OlmLaws] in
theorem session_sent (ct : OlmCiphertext) (plain : Bytes) (t : Side) :
    (p.sent s ct plain).session t = p.session t := rfl

omit [OneTimeKeys] [OlmLaws] in
theorem inFlight_sent {q : Pair} {m : Olm.Message} {plain : Bytes} {l : List (Olm.Message × Bytes)}
    (hkeys : q.keys = p.keys) (h : q.inFlight s.other = p.wire s.other l) :
    (q.sent s (p.ciphertext s.other m) plain).inFlight s.other =
      (q.sent s (p.ciphertext s.other m) plain).wire s.other (l ++ [(m, plain)]) := by
  have hwire : (q.sent s (p.ciphertext s.other m) plain).wire = p.wire := by
    unfold wire ciphertext sent
    rw [hkeys]
  rw [hwire]
  simp [Pair.sent, h, wire]

omit [OneTimeKeys] [OlmLaws] in
theorem inFlight_sent_self (ct : OlmCiphertext) (plain : Bytes) :
    (p.sent s ct plain).inFlight s = p.inFlight s := by
  unfold Pair.sent
  exact Function.update_of_ne (Side.other_ne s).symm _ _

theorem Connected.encrypt (h : p.Connected idKey otk) (plain : Bytes) :
    (p.step (.encrypt s plain)).Connected idKey otk := by
  rcases h.phase with ⟨hnone, hoffers, hquiet⟩ | ⟨t, x, sent, ht⟩ | ⟨t, x, y, toY, toX, ht⟩
  · rw [step_encrypt_apart (hnone s)]
    exact h
  · rcases Side.eq_or_other t s with rfl | rfl
    · rcases OlmLaws.encrypt_opening ht.opening plain with ⟨m, x', henc, hopening⟩
      rw [step_encrypt ht.session (h.deviceId _) henc]
      refine h.next rfl (deviceId_withDev h.deviceId rfl) (.opened s x' (sent ++ [(m, plain)]) ?_) h.faithful
      refine ⟨?_, ?_, ?_, hopening, inFlight_sent rfl ht.there, ?_⟩
      · rw [session_sent, session_withSession]
      · rw [session_sent, session_withDev_other]
        exact ht.none
      · simpa [withDev, Pair.sent] using ht.offers
      · rw [inFlight_sent_self]
        exact ht.back
    · rw [step_encrypt_apart ht.none]
      exact h
  · rcases ht.from s with ⟨x, y, toY, toX, hs⟩
    rcases OlmLaws.encrypt_joined hs.joined plain with ⟨m, x', henc, hjoined⟩
    rw [step_encrypt hs.session (h.deviceId _) henc]
    refine h.next rfl (deviceId_withDev h.deviceId rfl) (.linked s x' y (toY ++ [(m, plain)]) toX ?_) h.faithful
    refine ⟨?_, ?_, hjoined, inFlight_sent rfl hs.there, ?_⟩
    · rw [session_sent, session_withSession]
    · rw [session_sent, session_withDev_other]
      exact hs.session_other
    · rw [inFlight_sent_self]
      exact hs.back

omit [OneTimeKeys] [OlmLaws] in
theorem session_received (rest : List (OlmCiphertext × Bytes)) (plain : Bytes) (res : Except E2eeError Bytes)
    (t : Side) : (p.received s rest plain res).session t = p.session t := rfl

omit [OneTimeKeys] [OlmLaws] in
theorem inFlight_received_other (rest : List (OlmCiphertext × Bytes)) (plain : Bytes)
    (res : Except E2eeError Bytes) : (p.received s rest plain res).inFlight s.other = p.inFlight s.other := by
  unfold Pair.received
  exact Function.update_of_ne (Side.other_ne s) _ _

omit [OneTimeKeys] [OlmLaws] in
theorem inFlight_received (rest : List (OlmCiphertext × Bytes)) (plain : Bytes) (res : Except E2eeError Bytes) :
    (p.received s rest plain res).inFlight s = rest := by
  unfold Pair.received
  exact Function.update_self _ _ _

omit [OneTimeKeys] [OlmLaws] in
theorem Faithful.received {p' : Pair} {plain : Bytes} (h : p.Faithful)
    (hread : p'.delivered = p.delivered ++ [(plain, .ok plain)]) : p'.Faithful := by
  intro d hd
  rw [hread] at hd
  rcases List.mem_append.1 hd with hold | hnew
  · exact h d hold
  · rw [List.mem_singleton.1 hnew]

/-- The message that lets the other side join. -/
theorem Connected.join {x : Olm.Session} {sent : List (Olm.Message × Bytes)} (h : p.Connected idKey otk)
    (hs : p.Opened idKey otk s x sent) : (p.step (.deliver s.other)).Connected idKey otk := by
  cases sent with
  | nil =>
      rw [step_deliver_quiet hs.there]
      exact h
  | cons e sent =>
      rcases e with ⟨m, plain⟩
      have hself : Olm.curveFromBase64 (Olm.identityKey (p.dev s.other).account) = some (idKey s.other) := by
        rw [hs.offers.identity]
        exact h.idKey_read s.other
      have hopener : Olm.curveFromBase64 (p.keys s.other.other).curve25519B64 = some (idKey s) := by
        rw [Side.other_other]
        exact h.idKey_read s
      rcases OlmLaws.create_inbound hs.opening hself hs.offers.unused (h.otk_read s.other) with
        ⟨y, account, hcreate, hjoined⟩
      rw [step_deliver_first hs.none (h.deviceId _) hs.there (OlmLaws.opening_preKey hs.opening) hopener hcreate]
      refine h.next rfl (deviceId_withDev h.deviceId rfl) (.linked s.other y x [] sent ?_)
        (h.faithful.received rfl)
      refine ⟨?_, ?_, OlmLaws.joined_symm hjoined, ?_, ?_⟩
      · rw [session_received, session_withSession]
      · rw [session_received, session_withDev_other, Side.other_other]
        exact hs.session
      · rw [inFlight_received_other, Side.other_other]
        exact hs.back
      · rw [inFlight_received]
        rfl

theorem Connected.deliver (h : p.Connected idKey otk) : (p.step (.deliver s)).Connected idKey otk := by
  rcases h.phase with ⟨hnone, hoffers, hquiet⟩ | ⟨t, x, sent, ht⟩ | ⟨t, x, y, toY, toX, ht⟩
  · -- nothing is on its way yet
    rw [step_deliver_quiet (hquiet s)]
    exact h
  · rcases Side.eq_or_other t s with rfl | rfl
    · rw [step_deliver_quiet ht.back]
      exact h
    · -- the first message makes the other side's session
      exact h.join ht
  · rcases ht.from s.other with ⟨x, y, toY, toX, hs⟩
    have hsession : p.session s = some y := by
      rw [← Side.other_other s]
      exact hs.session_other
    have hthere : p.inFlight s = p.wire s toY := by
      have hthere := hs.there
      rw [Side.other_other] at hthere
      exact hthere
    cases toY with
    | nil =>
        rw [step_deliver_quiet hthere]
        exact h
    | cons e toY =>
        rcases e with ⟨m, plain⟩
        rcases OlmLaws.decrypt_joined hs.joined with ⟨y', hdec, hjoined⟩
        rw [step_deliver_known hsession (h.deviceId _) hthere hdec]
        refine h.next rfl (deviceId_withDev h.deviceId rfl) (.linked s y' x toX toY ?_) (h.faithful.received rfl)
        refine ⟨?_, ?_, OlmLaws.joined_symm hjoined, ?_, ?_⟩
        · rw [session_received, session_withSession]
        · rw [session_received, session_withDev_other]
          exact hs.session
        · rw [inFlight_received_other]
          exact hs.back
        · rw [inFlight_received]
          rfl

theorem Connected.step (h : p.Connected idKey otk) {act : Act} (hun : p.Uncrossed act) :
    (p.step act).Connected idKey otk := by
  cases act with
  | establish s => exact h.establish hun
  | encrypt s plain => exact h.encrypt plain
  | deliver s => exact h.deliver

/-- Two devices that do not cross read all that reaches them. -/
theorem decrypts_run (h : p.Introduced) (acts : List Act) (hun : Runs.Along Pair.step Uncrossed p acts) :
    Runs.Always Pair.step Faithful p acts := by
  rcases Connected.introduced h with ⟨idKey, otk, hconn⟩
  exact Runs.always_of_invariant (fun _ _ hp hact => Connected.step hp hact) (fun _ hp => hp.faithful) acts
    hconn hun

/-- What `publish_keys` hands out can be used. -/
theorem publishKeys_offers {dev dev' : E2eeDevice} {keys : OlmDeviceKeys}
    (h : dev.publishKeys = (.ok keys, dev')) : dev'.Offers keys := by
  unfold E2eeDevice.publishKeys at h
  cases hkeys : OneTimeKeys.unpublished (E2eeDevice.stocked dev.account) with
  | nil =>
      simp [hkeys] at h
  | cons otk rest =>
      simp only [hkeys, Prod.mk.injEq, Except.ok.injEq] at h
      rcases h with ⟨rfl, rfl⟩
      refine ⟨rfl, rfl, OlmLaws.mark_published _ _ ?_⟩
      rw [hkeys]
      exact List.mem_cons_self ..

end Phases

end Pair

end System

/-! ## Two strangers -/

namespace Pair

section Example

attribute [local instance] Ratchet.olm Ratchet.oneTimeKeys Ratchet.laws

def number : Side → Nat
  | .a => 1
  | .b => 2

def newDevice (s : Side) : E2eeDevice :=
  E2eeDevice.new ⟨Vector.replicate 32 (UInt8.ofNat (number s))⟩
    (OneTimeKeys.generate
      { identity := number s
        drawn := 0
        unpublished := []
        published := [] : Ratchet.Account } 10)

/-- Two new devices have published a key each. -/
def strangers : Pair :=
  { dev := fun s => (newDevice s).publishKeys.2
    keys := fun s =>
      { deviceId := (newDevice s).deviceId
        curve25519B64 := Ratchet.curveText (number s)
        oneTimeKeyB64 := Ratchet.curveText 0 }
    inFlight := fun _ => []
    delivered := [] }

theorem introduced_strangers : strangers.Introduced := by
  refine ⟨?_, ?_, fun _ => rfl, rfl⟩
  · intro s
    have hkeys : (newDevice s).publishKeys.1 = .ok (strangers.keys s) := by
      cases s <;> decide +kernel
    exact publishKeys_offers (Prod.ext hkeys rfl)
  · intro s
    cases s <;> rfl

/-- A greeting and its answer. -/
theorem decrypts_greeting :
    Runs.Always Pair.step Faithful strangers
      [.establish .a, .encrypt .a [1], .deliver .b, .encrypt .b [2], .deliver .a] ∧
    (Runs.run Pair.step strangers
      [.establish .a, .encrypt .a [1], .deliver .b, .encrypt .b [2], .deliver .a]).delivered =
        [([1], .ok [1]), ([2], .ok [2])] := by
  refine ⟨decrypts_run introduced_strangers _ ⟨Or.inr rfl, trivial, trivial, trivial, trivial, trivial⟩, ?_⟩
  decide +kernel

/-- Both open a session before anything arrives, and the first message is tried in the wrong one. -/
theorem crossing_refused :
    ¬ ∀ p : Pair, p.Introduced → ∀ acts, Runs.Always Pair.step Faithful p acts := by
  intro h
  have hall := (h strangers introduced_strangers
    [.establish .a, .establish .b, .encrypt .a [1], .deliver .b]).final
  have hread : (Runs.run Pair.step strangers
      [.establish .a, .establish .b, .encrypt .a [1], .deliver .b]).delivered =
        [([1], .error (.decrypt "invalid MAC"))] := by
    decide +kernel
  unfold Faithful at hall
  rw [hread] at hall
  cases hall _ (List.mem_singleton.2 rfl)

end Example


end Pair

end Crypto
end Thunderducks
