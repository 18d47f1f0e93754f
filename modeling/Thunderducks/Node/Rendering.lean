import Thunderducks.Crypto.RoomImport
import Thunderducks.Lib.JsonRead
import Thunderducks.Node.Handlers
import Thunderducks.Node.Waiting

/-!
# Rendering — the texts of messages (`list_messages` and `decrypt_message_text` in `td-node/src/rpc.rs`)

The text of a message is wrapped in JSON, encrypted for the room, wrapped in JSON once more and signed.  Each
time messages are listed they are decrypted anew, with the inbound session the node holds then.  Of a message that
was sent a node shows the text if the first key it got for the session reaches back to it, and a failure if not
(`shown_run`); whoever writes a message can always read it (`own_message_shown`).
-/

namespace Thunderducks
namespace Lib

/-! ## Values that are read -/

namespace Json

/-- `Value::get` -/
def get : Json → String → Option Json
  | .obj fields, key => fields.lookup key
  | _, _ => none

def asStr : Json → Option String
  | .str s => some s
  | _ => none

/-- A text or a number. -/
def scalar : Json → Bool
  | .str _ => true
  | .num _ => true
  | _ => false

end Json

instance : Serialize Json where
  toJson := id

/-- A reader of values reads back an object of texts and numbers whose keys ascend, as `serde_json` writes its
maps. -/
def ReadsObjects [Deserialize Json] : Prop :=
  ∀ fields : List (String × Json), (fields.map Prod.fst).Pairwise (· < ·) → (∀ f ∈ fields, f.2.scalar = true) →
    Deserialize.fromSlice (Json.obj fields).render = some (Json.obj fields)

namespace Text

/-! ## Bytes that need not be UTF-8 -/

/-- How many bytes follow a leading byte, and the bounds of the first of them. -/
def leadBounds (b : UInt8) : Option (Nat × UInt8 × UInt8) :=
  if 0xC2 ≤ b ∧ b ≤ 0xDF then some (1, 0x80, 0xBF)
  else if b = 0xE0 then some (2, 0xA0, 0xBF)
  else if b = 0xED then some (2, 0x80, 0x9F)
  else if 0xE1 ≤ b ∧ b ≤ 0xEF then some (2, 0x80, 0xBF)
  else if b = 0xF0 then some (3, 0x90, 0xBF)
  else if 0xF1 ≤ b ∧ b ≤ 0xF3 then some (3, 0x80, 0xBF)
  else if b = 0xF4 then some (3, 0x80, 0x8F)
  else none

/-- The continuation bytes at the start, `k` at most. -/
def continuation : (k : Nat) → (lo hi : UInt8) → Bytes → Bytes
  | 0, _, _, _ => []
  | _, _, _, [] => []
  | k + 1, lo, hi, b :: rest => if lo ≤ b ∧ b ≤ hi then b :: continuation k 0x80 0xBF rest else []

def lossyChars : (fuel : Nat) → Bytes → List Char
  | 0, _ => []
  | _, [] => []
  | fuel + 1, b :: rest =>
      if b < 0x80 then
        Char.ofNat b.toNat :: lossyChars fuel rest
      else
        match leadBounds b with
        | none => '\uFFFD' :: lossyChars fuel rest
        | some (k, lo, hi) =>
            let more := continuation k lo hi rest
            let c :=
              if more.length = k then
                Char.ofNat (more.foldl (fun n m => n * 64 + m.toNat % 64) (b.toNat % 2 ^ (6 - k)))
              else '\uFFFD'
            c :: lossyChars fuel (rest.drop more.length)

/-- `String::from_utf8_lossy`: the replacement character for each maximal part of a sequence that breaks off. -/
def fromUtf8Lossy (bs : Bytes) : String :=
  String.ofList (lossyChars bs.length bs)

example : fromUtf8Lossy [104, 0xC3, 0xB6, 0xE2, 0x82, 0x28, 0xFF] = "hö\uFFFD(\uFFFD" := by decide

end Text
end Lib

namespace Node

open Lib Event Crypto

/-! ## The text of an event -/

section Text

variable [Deserialize Json]

/-- The text under the key `text`, if there is one. -/
def textField (v : Json) : Option String :=
  (v.get "text").bind Json.asStr

def stringField (v : Json) (key : String) : String :=
  ((v.get key).bind Json.asStr).getD ""

/-- What is shown of a message that cannot be decrypted. -/
def decryptFailed : String :=
  "[e2ee:decrypt-failed]"

/-- The text inside a decrypted message. -/
def plainText (plain : Bytes) : String :=
  match (Deserialize.fromSlice plain).bind textField with
  | some text => text
  | none => Text.fromUtf8Lossy plain

variable [Olm] (ofB64 : String → Encoded MegolmMessage)

/-- `ofB64` reads a ciphertext. -/
def decryptMessageText (e2ee : E2eeDevice) (ev : SignedEvent) : String :=
  match (Deserialize.fromSlice ev.payload : Option Json) with
  | some v =>
      if (v.get "enc").bind Json.asStr = some "megolm" then
        match e2ee.megolmDecrypt
            { senderDevice := ev.authorDevice
              sessionId := stringField v "session_id"
              ciphertextB64 := ofB64 (stringField v "ciphertext_b64") } with
        | .ok plain => plainText plain
        | .error _ => decryptFailed
      else
        match textField v with
        | some text => text
        | none => Text.fromUtf8Lossy ev.payload
  | none => Text.fromUtf8Lossy ev.payload

structure MessageView where
  eventId : String
  author : String
  tsMs : UInt64
  text : String

structure MessagesResponse where
  roomId : String
  messages : List MessageView

def messageView (e2ee : E2eeDevice) (ev : SignedEvent) : MessageView :=
  { eventId := hex32 ev.id.bytes
    author := hex32 ev.authorDevice.bytes
    tsMs := ev.tsMs
    text := decryptMessageText ofB64 e2ee ev }

/-- The handler `list_messages`; `o` is the order the log is listed in. -/
def NodeSession.listMessages (s : NodeSession) (o : IterOrder SignedEvent) (roomId : String) :
    Except RoomIdError MessagesResponse :=
  match parseRoomId roomId with
  | .error e => .error e
  | .ok room =>
      .ok
        { roomId := roomId
          messages := (s.node.listMessages o room).map (messageView ofB64 s.e2ee) }

end Text

/-! ## What was sent is read back -/

section ReadBack

variable [Deserialize Json] [Olm] {ofB64 : String → Encoded MegolmMessage} {b64 : Encoded MegolmMessage → String}

omit [Olm] in
theorem plainText_plaintextOf (hread : ReadsObjects) (text : String) :
    plainText (NodeSession.plaintextOf text) = text := by
  have hback := hread [("text", .str text)] (List.pairwise_singleton _ _) (by
    intro f hf
    rw [List.mem_singleton.1 hf]
    rfl)
  unfold plainText NodeSession.plaintextOf
  rw [hback]
  rfl

/-- A message that was sent is shown as it was written, or as a failure when the session does not reach back
to it. -/
theorem decryptMessageText_sent (hread : ReadsObjects) (hb64 : ∀ m, ofB64 (b64 (.of m)) = .of m)
    {dev : E2eeDevice} (hkeyed : InboundKeyed dev) {m : MegolmMessage} {text : String}
    (hm : m.plaintext = NodeSession.plaintextOf text) {sender : DeviceId} {ev : SignedEvent}
    (hev : ev.payload = NodeSession.messagePayload b64 ⟨sender, m.sessionId, .of m⟩) :
    decryptMessageText ofB64 dev ev =
      match dev.inboundMegolm.lookup m.sessionId with
      | some s => if s.firstKnownIndex ≤ m.messageIndex then text else decryptFailed
      | none => decryptFailed := by
  let fields : List (String × Json) :=
    [("ciphertext_b64", .str (b64 (.of m))), ("enc", .str "megolm"),
      ("sender_device", .str (hex32 sender.bytes)), ("session_id", .str m.sessionId), ("v", .num 1)]
  have hback : Deserialize.fromSlice ev.payload = some (Json.obj fields) := by
    rw [hev]
    refine hread fields ?_ ?_
    · have hkeys : fields.map Prod.fst = ["ciphertext_b64", "enc", "sender_device", "session_id", "v"] := rfl
      rw [hkeys]
      decide
    · intro f hf
      simp only [fields, List.mem_cons, List.not_mem_nil, or_false] at hf
      rcases hf with rfl | rfl | rfl | rfl | rfl <;> rfl
  have henc : ((Json.obj fields).get "enc").bind Json.asStr = some "megolm" := rfl
  have hsession : stringField (Json.obj fields) "session_id" = m.sessionId := rfl
  have hcipher : stringField (Json.obj fields) "ciphertext_b64" = b64 (.of m) := rfl
  unfold decryptMessageText
  rw [hback]
  dsimp only
  rw [if_pos henc, hsession, hcipher, hb64]
  unfold E2eeDevice.megolmDecrypt
  dsimp only
  cases hlookup : dev.inboundMegolm.lookup m.sessionId with
  | none => rfl
  | some s =>
      have hsid : ¬ m.sessionId ≠ s.sessionId := not_not.2 (hkeyed _ _ hlookup).symm
      rw [Encoded.decode_of]
      unfold InboundGroupSession.decrypt
      dsimp only
      rw [if_neg hsid]
      by_cases hreach : s.firstKnownIndex ≤ m.messageIndex
      · rw [if_pos hreach, if_neg (Nat.not_lt.2 hreach), hm]
        exact plainText_plaintextOf hread text
      · rw [if_neg hreach, if_pos (Nat.lt_of_not_le hreach)]

end ReadBack

/-! ## The keys a node gets -/

section Keys

variable [Olm] {ι : Type} [DecidableEq ι]

namespace Network

/-- The session key node `j` gets by an action: that of the session it makes, or that of a package. -/
def gained (net : Network ι) (j : ι) : NetAction ι → Option SessionKey
  | .send i roomHex freshId _ =>
      if i = j ∧ (net.nodes i).hasOutbound roomHex = false then some (GroupSession.new freshId).sessionKey else none
  | .deliver i pkg => if i = j ∧ pkg.v = 1 then pkg.sessionKeyB64.decode else none

/-- The keys node `j` gets in a run, in order. -/
def keysOf (j : ι) : Network ι → List (NetAction ι) → List SessionKey
  | _, [] => []
  | net, act :: acts => (net.gained j act).toList ++ keysOf j (net.step act) acts

/-- A session that is made has an id under which its maker holds nothing yet. -/
def Fresh (net : Network ι) : NetAction ι → Prop
  | .send i roomHex freshId _ =>
      (net.nodes i).hasOutbound roomHex = false → freshId ∉ (net.nodes i).inboundMegolm
  | .deliver _ _ => True

end Network

/-- The inbound session that a key brings, if it is one of session `sid`. -/
def broughtBy (key : Option SessionKey) (sid : String) : Option InboundGroupSession :=
  (key.filter fun key => key.sessionId = sid).map InboundGroupSession.new

omit [Olm] in
@[simp] theorem broughtBy_none (sid : String) : broughtBy none sid = none :=
  rfl

omit [Olm] in
@[simp] theorem broughtBy_some (key : SessionKey) (sid : String) :
    broughtBy (some key) sid = if sid = key.sessionId then some (InboundGroupSession.new key) else none := by
  by_cases hsid : sid = key.sessionId
  · simp [broughtBy, Option.filter, hsid]
  · have hne : ¬ key.sessionId = sid := fun h => hsid h.symm
    simp [broughtBy, Option.filter, hsid, hne]

omit [Olm] in
theorem broughtBy_self (key : SessionKey) :
    broughtBy (some key) key.sessionId = some (InboundGroupSession.new key) := by
  rw [broughtBy_some, if_pos rfl]

theorem sendMegolm_inbound (e2ee : E2eeDevice) (roomHex freshId : String) (plain : Bytes) :
    (sendMegolm e2ee roomHex freshId plain).2.2.inboundMegolm =
      (ensureRoomE2ee e2ee roomHex freshId).inboundMegolm := by
  simp only [sendMegolm, E2eeDevice.megolmEncrypt]
  split
  · rfl
  · rfl

theorem ensureRoomE2ee_inbound {e2ee : E2eeDevice} {roomHex freshId : String}
    (hfresh : e2ee.hasOutbound roomHex = false → freshId ∉ e2ee.inboundMegolm) (sid : String) :
    (ensureRoomE2ee e2ee roomHex freshId).inboundMegolm.lookup sid =
      (e2ee.inboundMegolm.lookup sid).or
        (broughtBy (if e2ee.hasOutbound roomHex = false then some (GroupSession.new freshId).sessionKey else none)
          sid) := by
  unfold ensureRoomE2ee
  cases hout : e2ee.hasOutbound roomHex with
  | true => simp
  | false =>
      have hnone : e2ee.groupSessionId roomHex = none := by
        have hmem : roomHex ∉ e2ee.outboundMegolm := by
          simpa [E2eeDevice.hasOutbound] using hout
        rw [E2eeDevice.groupSessionId, AList.lookup_eq_none.2 hmem]
        rfl
      have hmade : (e2ee.createGroupSession roomHex freshId).2.inboundMegolm =
          e2ee.inboundMegolm.insert freshId (InboundGroupSession.new (GroupSession.new freshId).sessionKey) := by
        simp [E2eeDevice.createGroupSession, hnone]
      rw [if_neg Bool.false_ne_true, hmade, HashMap.lookup_insert_eq, if_pos rfl]
      by_cases hsid : sid = freshId
      · subst hsid
        rw [AList.lookup_eq_none.2 (hfresh hout)]
        simp [GroupSession.sessionKey, GroupSession.new]
      · simp [GroupSession.sessionKey, GroupSession.new, hsid]

theorem importRoomOutbound_brought (e2ee : E2eeDevice) (pkg : RoomOutboundPackage) (sid : String) :
    (e2ee.importRoomOutbound pkg).2.inboundMegolm.lookup sid =
      (e2ee.inboundMegolm.lookup sid).or (broughtBy (if pkg.v = 1 then pkg.sessionKeyB64.decode else none) sid) := by
  have hstored : ∀ {key}, pkg.sessionKeyB64.decode = some key →
      (e2ee.importGroupSessionKey pkg.sessionKeyB64).2.inboundMegolm.lookup sid =
        (e2ee.inboundMegolm.lookup sid).or (broughtBy (some key) sid) := by
    intro key hkey
    rw [importGroupSessionKey_inbound e2ee hkey, broughtBy_some]
  have hturn := e2ee.importRoomOutbound_turn pkg
  rcases hrun : e2ee.importRoomOutbound pkg with ⟨res, dev'⟩
  rw [hrun] at hturn
  -- the key is stored unless the version is unknown or it cannot be read
  cases hturn with
  | unread hno =>
      have hnone : (if pkg.v = 1 then pkg.sessionKeyB64.decode else none) = none := by
        split
        next hv =>
          cases hkey : pkg.sessionKeyB64.decode with
          | none => rfl
          | some key => exact absurd hv (hno key hkey)
        · rfl
      rw [hnone]
      simp
  | spoilt hv hkey _ =>
      rw [if_pos hv, hkey]
      exact hstored hkey
  | imported hv hkey _ hinbound _ =>
      dsimp only
      rw [if_pos hv, hkey, hinbound]
      exact hstored hkey

namespace Network

/-- A step adds the key it brings, unless the node has one of that session. -/
theorem step_inbound {net : Network ι} {act : NetAction ι} (hfresh : net.Fresh act) (j : ι) (sid : String) :
    ((net.step act).nodes j).inboundMegolm.lookup sid =
      ((net.nodes j).inboundMegolm.lookup sid).or (broughtBy (net.gained j act) sid) := by
  cases act with
  | send i roomHex freshId plain =>
      simp only [step, gained]
      by_cases hj : i = j
      · subst hj
        rw [Function.update_self, sendMegolm_inbound, ensureRoomE2ee_inbound hfresh]
        simp
      · have hne : j ≠ i := fun h => hj h.symm
        simp [Function.update_of_ne hne, hj]
  | deliver i pkg =>
      simp only [step, gained]
      by_cases hj : i = j
      · subst hj
        rw [Function.update_self, importRoomOutbound_brought]
        simp
      · have hne : j ≠ i := fun h => hj h.symm
        simp [Function.update_of_ne hne, hj]

/-- After a run each session is the one held before, or that of the first key the node got for it. -/
theorem run_inbound (acts : List (NetAction ι)) : ∀ {net : Network ι}, Runs.Along step Fresh net acts →
    ∀ j sid, ((Runs.run step net acts).nodes j).inboundMegolm.lookup sid =
      ((net.nodes j).inboundMegolm.lookup sid).or
        (((keysOf j net acts).find? fun key => key.sessionId = sid).map InboundGroupSession.new) := by
  induction acts with
  | nil =>
      intro net _ j sid
      simp [Runs.run, keysOf]
  | cons act acts ih =>
      intro net hok j sid
      have hcons : Runs.run step net (act :: acts) = Runs.run step (net.step act) acts := rfl
      rw [hcons, ih hok.2, step_inbound hok.1, keysOf, List.find?_append, Option.or_assoc]
      congr 1
      cases net.gained j act with
      | none => simp
      | some key =>
          by_cases hsid : sid = key.sessionId
          · simp [hsid]
          · have hne : ¬ key.sessionId = sid := fun h => hsid h.symm
            simp [hsid, hne]

omit [DecidableEq ι] in
theorem start_inbound {deviceId : ι → DeviceId} {account : ι → Olm.Account} (j : ι) (sid : String) :
    ((start deviceId account).nodes j).inboundMegolm.lookup sid = none :=
  rfl

/-- Nodes that start with nothing keep every inbound session under its own id. -/
theorem inboundKeyed_run {deviceId : ι → DeviceId} {account : ι → Olm.Account} {acts : List (NetAction ι)}
    (hok : Runs.Along step Fresh (start deviceId account) acts) (j : ι) :
    InboundKeyed ((Runs.run step (start deviceId account) acts).nodes j) := by
  intro sid s hs
  rw [run_inbound acts hok, start_inbound, Option.none_or, Option.map_eq_some_iff] at hs
  rcases hs with ⟨key, hfind, rfl⟩
  have hsid : key.sessionId = sid := by
    simpa using List.find?_some hfind
  exact hsid

end Network

section Shown

variable [Deserialize Json] {ofB64 : String → Encoded MegolmMessage} {b64 : Encoded MegolmMessage → String}
variable {deviceId : ι → DeviceId} {account : ι → Olm.Account}

/-- What a node shows of a message after a run: the first key it got for the session decides. -/
theorem decryptMessageText_run (hread : ReadsObjects) (hb64 : ∀ m, ofB64 (b64 (.of m)) = .of m)
    (acts : List (NetAction ι))
    (hok : Runs.Along Network.step Network.Fresh (Network.start deviceId account) acts) (j : ι)
    (sender : DeviceId) (m : MegolmMessage) (text : String) (hm : m.plaintext = NodeSession.plaintextOf text)
    (ev : SignedEvent) (hev : ev.payload = NodeSession.messagePayload b64 ⟨sender, m.sessionId, .of m⟩) :
    decryptMessageText ofB64 ((Runs.run Network.step (Network.start deviceId account) acts).nodes j) ev =
      match (Network.keysOf j (Network.start deviceId account) acts).find? fun key => key.sessionId = m.sessionId with
      | some key => if key.messageIndex ≤ m.messageIndex then text else decryptFailed
      | none => decryptFailed := by
  rw [decryptMessageText_sent hread hb64 (Network.inboundKeyed_run hok j) hm hev, Network.run_inbound acts hok,
    Network.start_inbound, Option.none_or]
  cases (Network.keysOf j (Network.start deviceId account) acts).find? fun key => key.sessionId = m.sessionId with
  | none => rfl
  | some key => rfl

end Shown

end Keys

/-! ## One's own messages -/

section Own

variable [Olm] {ι : Type} [DecidableEq ι]

namespace Network

/-- A session that is made has an id that no package carries; only exported packages are delivered. -/
def Honest (net : Network ι) : NetAction ι → Prop
  | .send i roomHex freshId _ =>
      (net.nodes i).hasOutbound roomHex = false → ∀ pkg ∈ net.exported, pkg.sessionId ≠ freshId
  | .deliver _ pkg => pkg ∈ net.exported

/-- Each session belongs to one room, and a node that can send in it can read what it sends. -/
structure Own (net : Network ι) : Prop where
  packed : ∀ pkg ∈ net.exported, ∃ dev roomHex s, pkg = packageOf dev roomHex s
  oneRoom : ∀ pkg ∈ net.exported, ∀ pkg' ∈ net.exported, pkg.sessionId = pkg'.sessionId → pkg.roomId = pkg'.roomId
  outbound : ∀ i roomHex s, (net.nodes i).outboundMegolm.lookup roomHex = some s →
    ∃ pkg ∈ net.exported, pkg.sessionId = s.sessionId ∧ pkg.roomId = roomHex
  inbound : ∀ i sid, sid ∈ (net.nodes i).inboundMegolm →
    ∃ pkg ∈ net.exported, pkg.sessionId = sid ∧ pkg.roomId ∈ (net.nodes i).outboundMegolm
  reads : ∀ i roomHex s, (net.nodes i).outboundMegolm.lookup roomHex = some s →
    ∃ inb, (net.nodes i).inboundMegolm.lookup s.sessionId = some inb ∧ inb.firstKnownIndex ≤ s.messageIndex

omit [DecidableEq ι] in
theorem own_start (deviceId : ι → DeviceId) (account : ι → Olm.Account) : (start deviceId account).Own := by
  refine ⟨?_, ?_, ?_, ?_, ?_⟩
  · intro pkg hpkg
    cases hpkg
  · intro pkg hpkg
    cases hpkg
  · intro i roomHex s hs
    cases hs
  · intro i sid hsid
    rcases HashMap.mem_iff_lookup.1 hsid with ⟨s, hs⟩
    cases hs
  · intro i roomHex s hs
    cases hs

omit [DecidableEq ι] in
/-- In honest runs no node holds anything under the id of a session that is made. -/
theorem Own.fresh {net : Network ι} (h : net.Own) {act : NetAction ι} (hok : net.Honest act) : net.Fresh act := by
  cases act with
  | deliver i pkg => trivial
  | send i roomHex freshId plain =>
      intro hout hmem
      rcases h.inbound i freshId hmem with ⟨pkg, hpkg, hsid, _⟩
      exact hok hout pkg hpkg hsid

/-- What a node holds of a session it keeps. -/
theorem inbound_kept {net : Network ι} {act : NetAction ι} (hfresh : net.Fresh act) {j : ι} {sid : String}
    {inb : InboundGroupSession} (hinb : (net.nodes j).inboundMegolm.lookup sid = some inb) :
    ((net.step act).nodes j).inboundMegolm.lookup sid = some inb := by
  rw [step_inbound hfresh, hinb, Option.some_or]

/-- What a send does to the outbound sessions. -/
theorem send_outbound (net : Network ι) (i : ι) (roomHex freshId : String) (plain : Bytes) (j : ι) (r : String) :
    ((net.step (.send i roomHex freshId plain)).nodes j).outboundMegolm.lookup r =
      if j = i ∧ r = roomHex then some ((roomSession (net.nodes i) roomHex freshId).encrypt plain).2
      else (net.nodes j).outboundMegolm.lookup r := by
  rcases net.step_send i roomHex freshId plain with ⟨dev, e2ee', heq, hl, hother⟩
  rw [heq]
  by_cases hj : j = i
  · subst hj
    dsimp only
    rw [Function.update_self]
    by_cases hr : r = roomHex
    · subst hr
      rw [if_pos ⟨rfl, rfl⟩, hl]
    · rw [if_neg fun h => hr h.2, hother r hr]
  · rw [if_neg fun h => hj h.1]
    simp [Function.update_of_ne hj]

/-- Whoever sends a message can read it as soon as it is sent. -/
theorem Own.sender_reads {net : Network ι} (h : net.Own) {i : ι} {roomHex freshId : String} {plain : Bytes}
    (hok : net.Honest (.send i roomHex freshId plain)) :
    ∃ inb, ((net.step (.send i roomHex freshId plain)).nodes i).inboundMegolm.lookup
        (roomSession (net.nodes i) roomHex freshId).sessionId = some inb ∧
      inb.firstKnownIndex ≤ (roomSession (net.nodes i) roomHex freshId).messageIndex := by
  have hfresh := h.fresh hok
  rcases net.roomSession_cases i roomHex freshId with hl | ⟨hnone, hnew⟩
  · rcases h.reads i roomHex _ hl with ⟨inb, hinb, hle⟩
    exact ⟨inb, inbound_kept hfresh hinb, hle⟩
  · -- the key of the new session is stored with it
    have hout : (net.nodes i).hasOutbound roomHex = false := by
      simpa [E2eeDevice.hasOutbound] using AList.lookup_eq_none.1 hnone
    have hfree : (net.nodes i).inboundMegolm.lookup freshId = none := AList.lookup_eq_none.2 (hfresh hout)
    have hsid : (GroupSession.new freshId).sessionId = freshId := rfl
    rw [hnew, step_inbound hfresh, hsid, hfree, Option.none_or]
    refine ⟨InboundGroupSession.new (GroupSession.new freshId).sessionKey, ?_, Nat.le_refl _⟩
    rw [gained, if_pos ⟨rfl, hout⟩]
    exact broughtBy_self (GroupSession.new freshId).sessionKey

omit [DecidableEq ι] in
/-- The packages of the session that a send uses are all for its room. -/
theorem Own.sender_room {net : Network ι} (h : net.Own) {i : ι} {roomHex freshId : String} {plain : Bytes}
    (hok : net.Honest (.send i roomHex freshId plain)) :
    ∀ pkg ∈ net.exported, pkg.sessionId = (roomSession (net.nodes i) roomHex freshId).sessionId →
      pkg.roomId = roomHex := by
  intro pkg hpkg hsid
  rcases net.roomSession_cases i roomHex freshId with hl | ⟨hnone, hnew⟩
  · rcases h.outbound i roomHex _ hl with ⟨pkg', hpkg', hsid', hroom'⟩
    exact (h.oneRoom pkg hpkg pkg' hpkg' (hsid.trans hsid'.symm)).trans hroom'
  · have hout : (net.nodes i).hasOutbound roomHex = false := by
      simpa [E2eeDevice.hasOutbound] using AList.lookup_eq_none.1 hnone
    rw [hnew] at hsid
    exact absurd hsid (hok hout pkg hpkg)

theorem Own.send {net : Network ι} (h : net.Own) {i : ι} {roomHex freshId : String} {plain : Bytes}
    (hok : net.Honest (.send i roomHex freshId plain)) : (net.step (.send i roomHex freshId plain)).Own := by
  have hfresh := h.fresh hok
  have hreads := h.sender_reads hok
  have hthis := h.sender_room hok
  have hlook := net.send_outbound i roomHex freshId plain
  have hcases := net.roomSession_cases i roomHex freshId
  rcases net.step_send i roomHex freshId plain with ⟨dev, e2ee', heq, _, _⟩
  generalize hs : roomSession (net.nodes i) roomHex freshId = s at *
  have hexported : (net.step (.send i roomHex freshId plain)).exported =
      net.exported ++ [packageOf dev roomHex s] := by
    rw [heq]
  have hmem : packageOf dev roomHex s ∈ (net.step (.send i roomHex freshId plain)).exported := by
    rw [hexported]
    exact List.mem_append_right _ (List.mem_singleton_self _)
  have hold : ∀ pkg ∈ net.exported, pkg ∈ (net.step (.send i roomHex freshId plain)).exported := by
    intro pkg hpkg
    rw [hexported]
    exact List.mem_append_left _ hpkg
  have hroom : roomHex ∈ ((net.step (.send i roomHex freshId plain)).nodes i).outboundMegolm := by
    refine HashMap.mem_of_lookup (v := (s.encrypt plain).2) ?_
    rw [hlook, if_pos ⟨rfl, rfl⟩]
  refine ⟨?_, ?_, ?_, ?_, ?_⟩
  · intro pkg hpkg
    rw [hexported] at hpkg
    rcases List.mem_append.1 hpkg with hpkg | hpkg
    · exact h.packed pkg hpkg
    · exact ⟨dev, roomHex, s, List.mem_singleton.1 hpkg⟩
  · intro pkg hpkg pkg' hpkg' hsid
    rw [hexported] at hpkg hpkg'
    rcases List.mem_append.1 hpkg with hpkg | hpkg <;> rcases List.mem_append.1 hpkg' with hpkg' | hpkg'
    · exact h.oneRoom pkg hpkg pkg' hpkg' hsid
    · rw [List.mem_singleton.1 hpkg'] at hsid ⊢
      exact hthis pkg hpkg hsid
    · rw [List.mem_singleton.1 hpkg] at hsid ⊢
      exact (hthis pkg' hpkg' hsid.symm).symm
    · rw [List.mem_singleton.1 hpkg, List.mem_singleton.1 hpkg']
  · intro j r s' hs'
    rw [hlook] at hs'
    split at hs'
    next hat =>
      cases hs'
      exact ⟨_, hmem, rfl, hat.2.symm⟩
    next =>
      rcases h.outbound j r s' hs' with ⟨pkg, hpkg, hrest⟩
      exact ⟨pkg, hold pkg hpkg, hrest⟩
  · intro j sid hsid
    by_cases hbefore : sid ∈ (net.nodes j).inboundMegolm
    · rcases h.inbound j sid hbefore with ⟨pkg, hpkg, hname, hin⟩
      refine ⟨pkg, hold pkg hpkg, hname, ?_⟩
      rcases HashMap.mem_iff_lookup.1 hin with ⟨s', hs'⟩
      by_cases hat : j = i ∧ pkg.roomId = roomHex
      · rw [hat.1, hat.2]
        exact hroom
      · refine HashMap.mem_of_lookup (v := s') ?_
        rw [hlook, if_neg hat, hs']
    · -- only the maker of a new session gets a key
      rcases HashMap.mem_iff_lookup.1 hsid with ⟨inb, hinb⟩
      rw [step_inbound hfresh, AList.lookup_eq_none.2 hbefore, Option.none_or, gained] at hinb
      split at hinb
      next hmade =>
        rcases hmade with ⟨rfl, hout⟩
        rw [broughtBy_some] at hinb
        split at hinb
        next hname =>
          refine ⟨_, hmem, ?_, hroom⟩
          have hnone : (net.nodes i).outboundMegolm.lookup roomHex = none :=
            AList.lookup_eq_none.2 (by simpa [E2eeDevice.hasOutbound] using hout)
          rcases hcases with hl | ⟨_, hnew⟩
          · rw [hnone] at hl
            cases hl
          · rw [hname, hnew]
            rfl
        next => cases hinb
      next => cases hinb
  · intro j r s' hs'
    rw [hlook] at hs'
    split at hs'
    next hat =>
      rcases hat with ⟨rfl, rfl⟩
      cases hs'
      rcases hreads with ⟨inb, hinb, hle⟩
      exact ⟨inb, hinb, Nat.le_succ_of_le hle⟩
    next =>
      rcases h.reads j r s' hs' with ⟨inb, hinb, hle⟩
      exact ⟨inb, inbound_kept hfresh hinb, hle⟩

/-- A package that is delivered leaves a session for its room: the one of the package, or the one that was there. -/
theorem deliver_outbound (net : Network ι) (i : ι) (dev : DeviceId) (roomHex : String) (s : GroupSession) (j : ι)
    (r : String) :
    ((net.step (.deliver i (packageOf dev roomHex s))).nodes j).outboundMegolm.lookup r =
        (net.nodes j).outboundMegolm.lookup r ∧ (j = i → r = roomHex → r ∈ (net.nodes j).outboundMegolm) ∨
      (j = i ∧ r = roomHex ∧
        ((net.step (.deliver i (packageOf dev roomHex s))).nodes j).outboundMegolm.lookup r = some s ∧
        ∀ loc, (net.nodes j).outboundMegolm.lookup r = some loc →
          loc.sessionId = s.sessionId ∧ loc.messageIndex ≤ s.messageIndex) := by
  have hholds : E2eeDevice.PackageHolds (packageOf dev roomHex s) s := ⟨rfl, by simp [packageOf], rfl, rfl⟩
  by_cases hj : j = i
  · subst hj
    simp only [step, Function.update_self]
    rcases (net.nodes j).importRoomOutbound_cases (packageOf dev roomHex s) with
      ⟨hloc, hsame⟩ | ⟨session, hsession, hloc, hnew⟩
    · refine Or.inl ⟨by rw [hsame], fun _ hr => ?_⟩
      rcases hloc s hholds with ⟨loc, hl, _⟩
      rw [hr]
      exact HashMap.mem_of_lookup hl
    · have heq : session = s := Option.some.inj (hsession.pickle.symm.trans hholds.pickle)
      subst heq
      rw [hnew, HashMap.lookup_insert_eq]
      by_cases hr : r = roomHex
      · refine Or.inr ⟨trivial, hr, if_pos hr, ?_⟩
        rw [hr]
        exact hloc
      · exact Or.inl ⟨if_neg hr, fun _ h => absurd h hr⟩
  · refine Or.inl ⟨?_, fun h => absurd h hj⟩
    simp [step, hj]

theorem Own.deliver {net : Network ι} (h : net.Own) {i : ι} {pkg : RoomOutboundPackage}
    (hpkg : pkg ∈ net.exported) : (net.step (.deliver i pkg)).Own := by
  have hfresh : net.Fresh (.deliver i pkg) := trivial
  rcases h.packed pkg hpkg with ⟨dev, roomHex, s, rfl⟩
  have hlook := net.deliver_outbound i dev roomHex s
  have hmono : ∀ j r, r ∈ (net.nodes j).outboundMegolm →
      r ∈ ((net.step (.deliver i (packageOf dev roomHex s))).nodes j).outboundMegolm := by
    intro j r hr
    rcases hlook j r with ⟨hsame, _⟩ | ⟨_, _, hnew, _⟩
    · rcases HashMap.mem_iff_lookup.1 hr with ⟨s', hs'⟩
      exact HashMap.mem_of_lookup (hsame.trans hs')
    · exact HashMap.mem_of_lookup hnew
  refine ⟨h.packed, h.oneRoom, ?_, ?_, ?_⟩
  · intro j r s' hs'
    rcases hlook j r with ⟨hsame, _⟩ | ⟨_, rfl, hnew, _⟩
    · exact h.outbound j r s' (hsame.symm.trans hs')
    · rw [hnew] at hs'
      cases hs'
      exact ⟨_, hpkg, rfl, rfl⟩
  · intro j sid hsid
    by_cases hbefore : sid ∈ (net.nodes j).inboundMegolm
    · rcases h.inbound j sid hbefore with ⟨pkg, hin, hname, hroom⟩
      exact ⟨pkg, hin, hname, hmono j _ hroom⟩
    · rcases HashMap.mem_iff_lookup.1 hsid with ⟨inb, hinb⟩
      rw [step_inbound hfresh, AList.lookup_eq_none.2 hbefore, Option.none_or, gained] at hinb
      split at hinb
      next hto =>
        have hkey : (packageOf dev roomHex s).sessionKeyB64.decode = some s.sessionKey := Encoded.decode_of _
        rw [hkey, broughtBy_some] at hinb
        split at hinb
        next hname =>
          refine ⟨_, hpkg, hname.symm, ?_⟩
          rcases hlook j roomHex with ⟨_, hin⟩ | ⟨_, _, hnew, _⟩
          · exact hmono j _ (hin hto.1.symm rfl)
          · exact HashMap.mem_of_lookup hnew
        next => cases hinb
      next => cases hinb
  · intro j r s' hs'
    rcases hlook j r with ⟨hsame, _⟩ | ⟨hj, hr, hnew, hloc⟩
    · rcases h.reads j r s' (hsame.symm.trans hs') with ⟨inb, hinb, hle⟩
      exact ⟨inb, inbound_kept hfresh hinb, hle⟩
    · rw [hnew] at hs'
      cases hs'
      cases hbefore : (net.nodes j).outboundMegolm.lookup r with
      | some loc =>
          -- the key of the copy that is replaced reaches back further
          rcases h.reads j r loc hbefore with ⟨inb, hinb, hle⟩
          rcases hloc loc hbefore with ⟨hsid, hidx⟩
          rw [hsid] at hinb
          exact ⟨inb, inbound_kept hfresh hinb, Nat.le_trans hle hidx⟩
      | none =>
          -- with no session in the room the node has no key of this session either
          have hnokey : s.sessionId ∉ (net.nodes j).inboundMegolm := by
            intro hmem
            rcases h.inbound j _ hmem with ⟨pkg, hin, hname, hroom⟩
            have hsame : pkg.roomId = roomHex := h.oneRoom pkg hin _ hpkg hname
            rw [hsame, ← hr] at hroom
            exact AList.lookup_eq_none.1 hbefore hroom
          rw [step_inbound hfresh, AList.lookup_eq_none.2 hnokey, Option.none_or]
          refine ⟨InboundGroupSession.new s.sessionKey, ?_, Nat.le_refl _⟩
          have hkey : (packageOf dev roomHex s).sessionKeyB64.decode = some s.sessionKey := Encoded.decode_of _
          rw [gained, if_pos ⟨hj.symm, rfl⟩, hkey]
          exact broughtBy_self s.sessionKey

theorem Own.step {net : Network ι} (h : net.Own) {act : NetAction ι} (hok : net.Honest act) :
    (net.step act).Own := by
  cases act with
  | send i roomHex freshId plain => exact h.send hok
  | deliver i pkg => exact h.deliver hok

theorem Own.along_fresh {net : Network ι} (h : net.Own) {acts : List (NetAction ι)}
    (hok : Runs.Along Network.step Honest net acts) : Runs.Along Network.step Fresh net acts := by
  induction acts generalizing net with
  | nil => trivial
  | cons act acts ih => exact ⟨h.fresh hok.1, ih (h.step hok.1) hok.2⟩

end Network

section Shown

variable [Deserialize Json] {ofB64 : String → Encoded MegolmMessage} {b64 : Encoded MegolmMessage → String}
variable {deviceId : ι → DeviceId} {account : ι → Olm.Account}

/-- In every run in which only exported packages are delivered, a node shows a message that was sent in the run as
it was written exactly if the first key the node got for the session reaches back to the message; otherwise it shows
the failure. -/
theorem shown_run (hread : ReadsObjects) (hb64 : ∀ m, ofB64 (b64 (.of m)) = .of m)
    (before after : List (NetAction ι)) (i : ι) (roomHex freshId text : String)
    (hok : Runs.Along Network.step Network.Honest (Network.start deviceId account)
      (before ++ .send i roomHex freshId (NodeSession.plaintextOf text) :: after))
    (ct : MegolmCiphertext)
    (hct : (sendMegolm ((Runs.run Network.step (Network.start deviceId account) before).nodes i) roomHex freshId
      (NodeSession.plaintextOf text)).2.1 = .ok ct)
    (m : MegolmMessage) (hm : ct.ciphertextB64.decode = some m)
    (ev : SignedEvent) (hev : ev.payload = NodeSession.messagePayload b64 ct) (j : ι) :
    decryptMessageText ofB64
      ((Runs.run Network.step (Network.start deviceId account)
        (before ++ .send i roomHex freshId (NodeSession.plaintextOf text) :: after)).nodes j) ev =
      match (Network.keysOf j (Network.start deviceId account)
          (before ++ .send i roomHex freshId (NodeSession.plaintextOf text) :: after)).find?
            fun key => key.sessionId = ct.sessionId with
      | some key => if key.messageIndex ≤ m.messageIndex then text else decryptFailed
      | none => decryptFailed := by
  have hfresh := (Network.own_start deviceId account).along_fresh hok
  rcases sendMegolm_spec ((Runs.run Network.step (Network.start deviceId account) before).nodes i) roomHex freshId
    (NodeSession.plaintextOf text) with ⟨dev, e2ee', hsent, _⟩
  rw [hsent] at hct
  cases hct
  cases hm
  exact decryptMessageText_run hread hb64 _ hfresh j dev
    ((roomSession _ roomHex freshId).encrypt (NodeSession.plaintextOf text)).1 text rfl ev hev

/-- In every run in which only exported packages are delivered, whoever sends a message is shown it as it was
written ever after. -/
theorem own_message_shown (hread : ReadsObjects) (hb64 : ∀ m, ofB64 (b64 (.of m)) = .of m)
    (before after : List (NetAction ι)) (i : ι) (roomHex freshId text : String)
    (hok : Runs.Along Network.step Network.Honest (Network.start deviceId account)
      (before ++ .send i roomHex freshId (NodeSession.plaintextOf text) :: after))
    (ct : MegolmCiphertext)
    (hct : (sendMegolm ((Runs.run Network.step (Network.start deviceId account) before).nodes i) roomHex freshId
      (NodeSession.plaintextOf text)).2.1 = .ok ct)
    (ev : SignedEvent) (hev : ev.payload = NodeSession.messagePayload b64 ct) :
    decryptMessageText ofB64
      ((Runs.run Network.step (Network.start deviceId account)
        (before ++ .send i roomHex freshId (NodeSession.plaintextOf text) :: after)).nodes i) ev = text := by
  have hstart := Network.own_start deviceId account
  have hkeyed := Network.inboundKeyed_run (hstart.along_fresh hok) i
  rcases hok.append with ⟨hbefore, hsend, hafter⟩
  rw [Runs.run_append] at hkeyed ⊢
  generalize hnet : Runs.run Network.step (Network.start deviceId account) before = net at *
  have hown : net.Own := by
    rw [← hnet]
    exact Runs.invariant (fun net act h hact => h.step hact) before hstart hbefore
  -- the sender has the key right after the send, and keeps it
  rcases hown.sender_reads hsend with ⟨inb, hinb, hle⟩
  have hkept : ((Runs.run Network.step (net.step (.send i roomHex freshId (NodeSession.plaintextOf text)))
      after).nodes i).inboundMegolm.lookup (roomSession (net.nodes i) roomHex freshId).sessionId = some inb := by
    rw [Network.run_inbound after ((hown.step hsend).along_fresh hafter), hinb, Option.some_or]
  rcases sendMegolm_spec (net.nodes i) roomHex freshId (NodeSession.plaintextOf text) with ⟨dev, e2ee', hsent, _⟩
  rw [hsent] at hct
  cases hct
  have hshown := decryptMessageText_sent hread hb64 hkeyed
    (m := ((roomSession (net.nodes i) roomHex freshId).encrypt (NodeSession.plaintextOf text)).1) rfl hev
  have hrun : Runs.run Network.step net (.send i roomHex freshId (NodeSession.plaintextOf text) :: after) =
      Runs.run Network.step (net.step (.send i roomHex freshId (NodeSession.plaintextOf text))) after := rfl
  rw [hshown, hrun]
  have hlookup : _ = some inb := hkept
  rw [show ((roomSession (net.nodes i) roomHex freshId).encrypt (NodeSession.plaintextOf text)).1.sessionId =
    (roomSession (net.nodes i) roomHex freshId).sessionId from rfl, hlookup]
  exact if_pos hle

end Shown

end Own

/-! ## A key that comes late -/

section Example

attribute [local instance] noBook

@[reducible] def jsonReader : Deserialize Json :=
  ⟨Json.read⟩

attribute [local instance] jsonReader

theorem readsObjects_read : ReadsObjects := by
  intro fields _ _
  exact Json.read_render _

/-- A ciphertext as a text: its session, its position and what it carries. -/
def megolmText : Encoded MegolmMessage → String
  | .of m =>
      Text.hexEncode
        (Json.arr [.str m.sessionId, .num m.messageIndex, .str (Text.hexEncode m.plaintext)]).render
  | .malformed => ""

def megolmOfText (t : String) : Encoded MegolmMessage :=
  match (Text.hexDecode t.toList).bind Json.read with
  | some (.arr [.str sid, .num index, .str plain]) =>
      match Text.hexDecode plain.toList with
      | some plain => .of ⟨sid, index, plain⟩
      | none => .malformed
  | _ => .malformed

theorem megolmOfText_megolmText (m : MegolmMessage) : megolmOfText (megolmText (.of m)) = .of m := by
  unfold megolmOfText megolmText
  rw [Text.hexDecode_hexEncode, Option.bind_some, Json.read_render]
  dsimp only
  rw [Text.hexDecode_hexEncode]

/-- The first of two messages, as its author signs it. -/
def shownFirst : SignedEvent :=
  { id := ⟨Vector.replicate 32 0⟩
    roomId := ⟨Vector.replicate 32 0⟩
    parents := []
    kind := .message
    payload := NodeSession.messagePayload megolmText
      ⟨⟨Vector.replicate 32 1⟩, "session", .of ⟨"session", 0, NodeSession.plaintextOf "hi"⟩⟩
    authorDevice := ⟨Vector.replicate 32 1⟩
    tsMs := 0
    authorVk := Vector.replicate 32 0
    signature := [] }

/-- Two messages are sent, and only the second package arrives. -/
def latePackage : List (NetAction Bool) :=
  [.send true "room" "session" (NodeSession.plaintextOf "hi"),
    .send true "room" "other" (NodeSession.plaintextOf "again"),
    .deliver false (packageOf ⟨Vector.replicate 32 1⟩ "room" { sessionId := "session", messageIndex := 1 })]

theorem latePackage_honest : Runs.Along Network.step Network.Honest pair latePackage := by
  refine ⟨?_, ?_, ?_, trivial⟩
  · intro _ pkg hpkg
    cases hpkg
  · intro hout
    have hheld : (((pair.step (.send true "room" "session" (NodeSession.plaintextOf "hi"))).nodes true).hasOutbound
        "room") = true := by
      decide +kernel
    rw [hheld] at hout
    cases hout
  · change packageOf _ _ _ ∈ (Runs.run Network.step pair (latePackage.take 2)).exported
    decide +kernel

/-- The ciphertext of the first message. -/
def firstSent : MegolmCiphertext :=
  ⟨⟨Vector.replicate 32 1⟩, "session", .of ⟨"session", 0, NodeSession.plaintextOf "hi"⟩⟩

theorem sendMegolm_firstSent :
    (sendMegolm (pair.nodes true) "room" "session" (NodeSession.plaintextOf "hi")).2.1 = .ok firstSent := by
  decide +kernel

/-- The peer that got the second package only does not read the first message. -/
theorem shown_run_late :
    decryptMessageText megolmOfText ((Runs.run Network.step pair latePackage).nodes false) shownFirst =
      decryptFailed := by
  have hkeys : ((Network.keysOf false pair latePackage).find? fun key => key.sessionId = firstSent.sessionId) =
      some ⟨"session", 1⟩ := by
    decide +kernel
  have hshown := shown_run readsObjects_read megolmOfText_megolmText [] (latePackage.drop 1) true "room" "session"
    "hi" latePackage_honest firstSent sendMegolm_firstSent ⟨"session", 0, NodeSession.plaintextOf "hi"⟩ rfl shownFirst
    rfl false
  have hacts : [] ++ NetAction.send true "room" "session" (NodeSession.plaintextOf "hi") :: latePackage.drop 1 =
      latePackage := rfl
  rw [hacts, show Network.start _ _ = pair from rfl, hkeys] at hshown
  exact hshown

/-- The author of the first message still reads it after the second. -/
theorem own_message_shown_first :
    decryptMessageText megolmOfText ((Runs.run Network.step pair latePackage).nodes true) shownFirst = "hi" :=
  own_message_shown readsObjects_read megolmOfText_megolmText [] (latePackage.drop 1) true "room" "session" "hi"
    latePackage_honest firstSent sendMegolm_firstSent shownFirst rfl

end Example

end Node
end Thunderducks
