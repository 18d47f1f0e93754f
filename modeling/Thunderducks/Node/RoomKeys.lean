import Thunderducks.Crypto.RoomRatchet
import Thunderducks.Node.E2eeRequests
import Thunderducks.Node.SyncPeer

/-!
# RoomKeys — the names under which the outbound sessions of rooms are kept (`td-node/src/rpc.rs`)

The outbound Megolm sessions are kept by the text of a room id.  `send_message` reads the id and writes it
again, so its key is lower-case hex; `export_session` and `share_session_with_peer` take the text of the
request, and `import_session_olm` that of a package.  `oneSessionPerRoom_iff` says along which runs a room
never gets two sessions under two spellings.
-/

namespace Thunderducks
namespace Node

open Lib Event Crypto

/-! ## Requests -/

section Requests

variable [Olm]

namespace Served

/-- `export_session`; the export only reads. -/
def exportSession (o : DurableOrder) (s : Served) (roomId freshId : String) : Served :=
  s.ensureRoom o roomId freshId

variable [Primitives] [Deserialize CreateRoomPayload] [Deserialize MembershipPayload]
  [Serialize RoomOutboundPackage]

/-- `send_message` from the text of the room id on. -/
def sendTo (b64 : Encoded MegolmMessage → String) (sk : Primitives.SigningKey) (o : DurableOrder)
    (s : Served) (roomId text freshId : String) (ts : UInt64) (replies : List (Except String OlmKeysHttp)) :
    Served :=
  match parseRoomId roomId with
  | .error _ => s
  | .ok roomId => s.sendMessage b64 sk o roomId text freshId ts replies

end Served

/-- The requests that store outbound sessions.  `o` is the order in which a write lists the maps, `freshId`
the id that a new session would draw. -/
inductive RoomRequest
  | sendMessage (o : DurableOrder) (roomId text freshId : String) (ts : UInt64)
      (replies : List (Except String OlmKeysHttp))
  | exportSession (o : DurableOrder) (roomId freshId : String)
  | shareSession (o : DurableOrder) (roomId freshId : String) (reply : Except String OlmKeysHttp)
  | importSessionOlm (senderCurve25519B64 : String) (olm : OlmCiphertext)

namespace RoomRequest

variable [Primitives] [Deserialize CreateRoomPayload] [Deserialize MembershipPayload]
  [Serialize RoomOutboundPackage] [Deserialize RoomOutboundPackage] [Deserialize (Encoded SessionKey)]

def step (b64 : Encoded MegolmMessage → String) (sk : Primitives.SigningKey) (s : Served) :
    RoomRequest → Served
  | .sendMessage o roomId text freshId ts replies => s.sendTo b64 sk o roomId text freshId ts replies
  | .exportSession o roomId freshId => s.exportSession o roomId freshId
  | .shareSession o roomId freshId reply => s.shareMegolmOlmToPeer o roomId freshId none reply
  | .importSessionOlm curve olm => s.importSessionOlm curve olm

end RoomRequest

end Requests

/-! ## The key a request names -/

section Keys

variable [Olm]

/-- `import_room_outbound` gets as far as the outbound sessions. -/
def Accepted (pkg : RoomOutboundPackage) : Prop :=
  pkg.v = 1 ∧ pkg.sessionKeyB64.decode ≠ none ∧
    ∃ session, pkg.pickleB64.decode = some session ∧ session.sessionId = pkg.sessionId

/-- The member check of `send_message`: the room is not known here, or the device may write to it. -/
def MayMessage (s : NodeSession) (roomId : RoomId) : Prop :=
  s.rooms.assertCanMessage roomId s.deviceId = .ok () ∨ (s.node.roomEventIds roomId).isEmpty = false

/-- The request looks for an outbound session under the key, and stores one if there is none. -/
inductive RoomRequest.Names [Deserialize RoomOutboundPackage] (s : Served) : RoomRequest → String → Prop
  | sendMessage {o : DurableOrder} {roomId text freshId : String} {ts : UInt64}
      {replies : List (Except String OlmKeysHttp)} {room : RoomId} (hroom : parseRoomId roomId = .ok room)
      (hmay : MayMessage s.session room) :
      Names s (.sendMessage o roomId text freshId ts replies) (hex32 room.bytes)
  | exportSession {o : DurableOrder} {roomId freshId : String} :
      Names s (.exportSession o roomId freshId) roomId
  | shareSession {o : DurableOrder} {roomId freshId : String} {keys : OlmKeysHttp} {peerDev : DeviceId}
      (hpeer : NodeSession.parseCryptoDeviceId keys.deviceId = .ok peerDev) :
      Names s (.shareSession o roomId freshId (.ok keys)) roomId
  | importSessionOlm {curve : String} {olm : OlmCiphertext} {plain : Bytes} {pkg : RoomOutboundPackage}
      (hplain : (s.session.e2ee.olmDecrypt curve olm).1 = .ok plain)
      (hpkg : Deserialize.fromSlice plain = some pkg) (haccepted : Accepted pkg) :
      Names s (.importSessionOlm curve olm) pkg.roomId

/-- A request names one key. -/
theorem RoomRequest.Names.unique [Deserialize RoomOutboundPackage] {s : Served} {req : RoomRequest}
    {k k' : String} (h : Names s req k) (h' : Names s req k') : k = k' := by
  cases h with
  | sendMessage hroom hmay =>
      cases h' with
      | sendMessage hroom' hmay' =>
          rw [hroom] at hroom'
          cases hroom'
          rfl
  | exportSession =>
      cases h'
      rfl
  | shareSession hpeer =>
      cases h'
      rfl
  | importSessionOlm hplain hpkg haccepted =>
      cases h' with
      | importSessionOlm hplain' hpkg' haccepted' =>
          rw [hplain] at hplain'
          cases hplain'
          rw [hpkg] at hpkg'
          cases hpkg'
          rfl

/-! ## The keys after a request -/

theorem mem_createGroupSession {dev : E2eeDevice} {roomKey freshId k : String} :
    k ∈ (dev.createGroupSession roomKey freshId).2.outboundMegolm ↔
      k ∈ dev.outboundMegolm ∨ k = roomKey := by
  unfold E2eeDevice.createGroupSession
  split
  next sid hsid =>
      have hmem : roomKey ∈ dev.outboundMegolm := by
        rcases Option.map_eq_some_iff.1 hsid with ⟨session, hlook, _⟩
        exact HashMap.mem_of_lookup hlook
      constructor
      · exact Or.inl
      · rintro (h | rfl)
        · exact h
        · exact hmem
  next => exact (AList.mem_insert _).trans or_comm

theorem mem_ensureRoom {s : Served} {o : DurableOrder} {roomHex freshId k : String} :
    k ∈ (s.ensureRoom o roomHex freshId).session.e2ee.outboundMegolm ↔
      k ∈ s.session.e2ee.outboundMegolm ∨ k = roomHex := by
  unfold Served.ensureRoom
  split
  next hhas =>
      have hmem : roomHex ∈ s.session.e2ee.outboundMegolm := by
        simpa [E2eeDevice.hasOutbound] using hhas
      constructor
      · exact Or.inl
      · rintro (h | rfl)
        · exact h
        · exact hmem
  next => exact mem_createGroupSession

theorem mem_sendMegolm {dev : E2eeDevice} {roomHex freshId k : String} {plain : Bytes} :
    k ∈ (sendMegolm dev roomHex freshId plain).2.2.outboundMegolm ↔
      k ∈ dev.outboundMegolm ∨ k = roomHex := by
  rcases sendMegolm_spec dev roomHex freshId plain with ⟨dev', e2ee', heq, hself, hother⟩
  rw [heq]
  dsimp only
  by_cases hk : k = roomHex
  · subst hk
    exact iff_of_true (HashMap.mem_of_lookup hself) (Or.inr rfl)
  · rw [← AList.lookup_isSome, hother k hk, AList.lookup_isSome]
    simp [hk]

/-- Olm leaves the outbound sessions. -/
theorem establishOlmOutbound_outbound (dev : E2eeDevice) (their : OlmDeviceKeys) :
    (dev.establishOlmOutbound their).2.outboundMegolm = dev.outboundMegolm := by
  unfold E2eeDevice.establishOlmOutbound
  split
  · rfl
  split
  · split
    · rfl
    · rfl
  · rfl

theorem olmEncrypt_outbound (dev : E2eeDevice) (peer : DeviceId) (plain : Bytes) :
    (dev.olmEncrypt peer plain).2.outboundMegolm = dev.outboundMegolm := by
  unfold E2eeDevice.olmEncrypt
  split
  · rfl
  split
  · rfl
  · rfl

theorem olmDecrypt_outbound (dev : E2eeDevice) (curve : String) (olm : OlmCiphertext) :
    (dev.olmDecrypt curve olm).2.outboundMegolm = dev.outboundMegolm := by
  unfold E2eeDevice.olmDecrypt
  split
  · rfl
  split
  · rfl
  split
  · split
    · rfl
    · rfl
  · split
    · split
      · rfl
      · split
        · rfl
        · rfl
    · rfl

omit [Olm] in
theorem accepted_iff {pkg : RoomOutboundPackage} :
    Accepted pkg ↔ ∃ session, E2eeDevice.PackageHolds pkg session := by
  constructor
  · rintro ⟨hv, hkey, session, hpickle, hname⟩
    exact ⟨session, hv, hkey, hpickle, hname⟩
  · rintro ⟨session, h⟩
    exact ⟨h.version, h.key, session, h.pickle, h.named⟩

theorem mem_importRoomOutbound {dev : E2eeDevice} {pkg : RoomOutboundPackage} {k : String} :
    k ∈ (dev.importRoomOutbound pkg).2.outboundMegolm ↔
      k ∈ dev.outboundMegolm ∨ (Accepted pkg ∧ k = pkg.roomId) := by
  rw [accepted_iff]
  rcases dev.importRoomOutbound_cases pkg with ⟨hno, hout⟩ | ⟨session, hholds, _, hout⟩
  · rw [hout]
    constructor
    · exact Or.inl
    · rintro (h | ⟨⟨session, hholds⟩, rfl⟩)
      · exact h
      -- the room has a session, so its key is there already
      rcases hno session hholds with ⟨loc, hloc, _⟩
      exact HashMap.mem_of_lookup hloc
  · rw [hout, AList.mem_insert, or_comm]
    have hex : ∃ session, E2eeDevice.PackageHolds pkg session := ⟨session, hholds⟩
    simp [hex]

theorem mem_importSessionOlm [Deserialize RoomOutboundPackage] [Deserialize (Encoded SessionKey)] {s : Served}
    {curve : String} {olm : OlmCiphertext} {k : String} :
    k ∈ (s.importSessionOlm curve olm).session.e2ee.outboundMegolm ↔
      k ∈ s.session.e2ee.outboundMegolm ∨ (RoomRequest.importSessionOlm curve olm).Names s k := by
  have hout := olmDecrypt_outbound s.session.e2ee curve olm
  have hnone : ∀ {dev : E2eeDevice}, dev.outboundMegolm = s.session.e2ee.outboundMegolm →
      ¬ (RoomRequest.importSessionOlm curve olm).Names s k →
      (k ∈ dev.outboundMegolm ↔ k ∈ s.session.e2ee.outboundMegolm ∨
        (RoomRequest.importSessionOlm curve olm).Names s k) := by
    intro dev hsame hno
    rw [hsame]
    simp [hno]
  unfold Served.importSessionOlm
  rcases hrun : s.session.e2ee.olmDecrypt curve olm with ⟨res, dev⟩
  rw [hrun] at hout
  have hfst : (s.session.e2ee.olmDecrypt curve olm).1 = res := congrArg Prod.fst hrun
  cases res with
  -- what cannot be decrypted imports nothing
  | error e =>
      refine hnone hout fun hnames => ?_
      cases hnames with
      | importSessionOlm hplain hpkg hacc =>
          rw [hfst] at hplain
          cases hplain
  | ok plain =>
      dsimp only
      cases hread : Deserialize.fromSlice (α := RoomOutboundPackage) plain with
      | some pkg =>
          refine mem_importRoomOutbound.trans (or_congr ?_ ?_)
          · rw [← hout]
          · constructor
            · rintro ⟨hacc, rfl⟩
              exact .importSessionOlm hfst hread hacc
            · intro hnames
              cases hnames with
              | importSessionOlm hplain hpkg hacc =>
                  rw [hfst] at hplain
                  cases hplain
                  rw [hread] at hpkg
                  cases hpkg
                  exact ⟨hacc, rfl⟩
      -- no package: the text is tried as a bare session key, which names no room
      | none =>
          have hno : ¬ (RoomRequest.importSessionOlm curve olm).Names s k := by
            intro hnames
            cases hnames with
            | importSessionOlm hplain hpkg hacc =>
                rw [hfst] at hplain
                cases hplain
                rw [hread] at hpkg
                cases hpkg
          dsimp only
          split
          · exact hnone hout hno
          · exact hnone ((dev.importGroupSessionKey_outbound _).trans hout) hno

/-! ### Shares -/

/-- The peer answers with keys and a device id that can be read. -/
def AnswersWithKeys (reply : Except String OlmKeysHttp) : Prop :=
  ∃ keys peerDev, reply = .ok keys ∧ NodeSession.parseCryptoDeviceId keys.deviceId = .ok peerDev

theorem mem_share [Serialize RoomOutboundPackage] {o : DurableOrder} {s : Served} {roomHex freshId : String}
    {preExported : Option RoomOutboundPackage} {reply : Except String OlmKeysHttp} {k : String} :
    k ∈ (s.shareMegolmOlmToPeer o roomHex freshId preExported reply).session.e2ee.outboundMegolm ↔
      k ∈ s.session.e2ee.outboundMegolm ∨ (AnswersWithKeys reply ∧ k = roomHex) := by
  unfold Served.shareMegolmOlmToPeer
  cases reply with
  | error e =>
      have hno : ¬ AnswersWithKeys (.error e) := by
        rintro ⟨keys, peerDev, hkeys, _⟩
        cases hkeys
      simp [hno]
  | ok keys =>
      dsimp only
      cases hpeer : NodeSession.parseCryptoDeviceId keys.deviceId with
      | error e =>
          have hno : ¬ AnswersWithKeys (.ok keys) := by
            rintro ⟨keys', peerDev, hkeys, hparse⟩
            cases hkeys
            rw [hpeer] at hparse
            cases hparse
          simp [hno]
      | ok peerDev =>
          have hyes : AnswersWithKeys (.ok keys) := ⟨keys, peerDev, rfl, hpeer⟩
          have hroom : ∀ {dev : E2eeDevice},
              dev.outboundMegolm = (s.ensureRoom o roomHex freshId).session.e2ee.outboundMegolm →
              (k ∈ dev.outboundMegolm ↔
                k ∈ s.session.e2ee.outboundMegolm ∨ (AnswersWithKeys (.ok keys) ∧ k = roomHex)) := by
            intro dev hsame
            rw [hsame, mem_ensureRoom]
            simp [hyes]
          have hestablished : ∀ {dev : E2eeDevice} {their : OlmDeviceKeys}
              {res : Except E2eeError Unit × E2eeDevice}, dev.establishOlmOutbound their = res →
                res.2.outboundMegolm = dev.outboundMegolm := by
            rintro dev their res rfl
            exact establishOlmOutbound_outbound dev their
          -- everything after the room session is made is Olm
          dsimp only
          split
          next e e2ee hrun => exact hroom (hestablished hrun)
          next e2ee hrun =>
              split
              · exact hroom (hestablished hrun)
              · exact hroom ((olmEncrypt_outbound _ _ _).trans (hestablished hrun))

/-- Once a room has its session, no share adds a key. -/
theorem mem_shares [Serialize RoomOutboundPackage] (o : DurableOrder) (roomHex freshId : String)
    (preExported : Option RoomOutboundPackage) (replies : List (Except String OlmKeysHttp)) {k : String} :
    ∀ {s : Served}, roomHex ∈ s.session.e2ee.outboundMegolm →
      (k ∈ (replies.foldl (fun s reply => s.shareMegolmOlmToPeer o roomHex freshId preExported reply)
        s).session.e2ee.outboundMegolm ↔ k ∈ s.session.e2ee.outboundMegolm) := by
  induction replies with
  | nil =>
      intro s _
      exact Iff.rfl
  | cons reply replies ih =>
      intro s hmem
      have hone : ∀ {k : String}, k ∈ (s.shareMegolmOlmToPeer o roomHex freshId preExported
          reply).session.e2ee.outboundMegolm ↔ k ∈ s.session.e2ee.outboundMegolm := by
        intro k
        rw [mem_share]
        constructor
        · rintro (h | ⟨_, rfl⟩)
          · exact h
          · exact hmem
        · exact Or.inl
      rw [List.foldl_cons, ih (hone.2 hmem), hone]

/-! ### Messages -/

section Messages

variable [Primitives] [Deserialize CreateRoomPayload] [Deserialize MembershipPayload]
  {b64 : Encoded MegolmMessage → String} {sk : Primitives.SigningKey}

theorem sendInRoom_e2ee (s : NodeSession) (roomId : RoomId) (text freshId : String) (ts : UInt64) :
    (s.sendInRoom b64 sk roomId text freshId ts).2.e2ee =
      (sendMegolm s.e2ee (hex32 roomId.bytes) freshId (NodeSession.plaintextOf text)).2.2 := by
  unfold NodeSession.sendInRoom
  dsimp only
  split
  · rfl
  split
  · rfl
  split
  · rfl
  · rfl

/-- A message that the member check lets through. -/
theorem sendMessage_may {s : NodeSession} {roomId : RoomId} (h : MayMessage s roomId)
    (text freshId : String) (ts : UInt64) :
    s.sendMessage b64 sk roomId text freshId ts = s.sendInRoom b64 sk roomId text freshId ts := by
  unfold NodeSession.sendMessage
  rcases h with hok | hknown
  · rw [hok]
  · split
    · rfl
    · rw [hknown]
      rfl

theorem sendMessage_mayNot {s : NodeSession} {roomId : RoomId} (h : ¬ MayMessage s roomId)
    (text freshId : String) (ts : UInt64) :
    ∃ e, s.sendMessage b64 sk roomId text freshId ts = (.error (.room e), s) := by
  unfold NodeSession.sendMessage
  cases hcan : s.rooms.assertCanMessage roomId s.deviceId with
  | ok u => exact absurd (Or.inl hcan) h
  | error e =>
      have hempty : (s.node.roomEventIds roomId).isEmpty = true :=
        eq_true_of_ne_false fun hfull => h (Or.inr hfull)
      exact ⟨e, by simp [hempty]⟩

theorem sendInRoom_not_room (s : NodeSession) (roomId : RoomId) (text freshId : String) (ts : UInt64)
    (e : RoomError) : (s.sendInRoom b64 sk roomId text freshId ts).1 ≠ .error (.room e) := by
  unfold NodeSession.sendInRoom
  dsimp only
  split
  · simp
  split
  · simp
  split
  · simp
  · simp

theorem mem_sendMessage [Serialize RoomOutboundPackage] {o : DurableOrder} {s : Served} {roomId : RoomId}
    {text freshId : String} {ts : UInt64} {replies : List (Except String OlmKeysHttp)} {k : String} :
    k ∈ (s.sendMessage b64 sk o roomId text freshId ts replies).session.e2ee.outboundMegolm ↔
      k ∈ s.session.e2ee.outboundMegolm ∨ (MayMessage s.session roomId ∧ k = hex32 roomId.bytes) := by
  by_cases hmay : MayMessage s.session roomId
  · have hsend : s.session.sendMessage b64 sk roomId text freshId ts =
        s.session.sendInRoom b64 sk roomId text freshId ts := sendMessage_may hmay text freshId ts
    have hdev : (s.session.sendInRoom b64 sk roomId text freshId ts).2.e2ee =
        (sendMegolm s.session.e2ee (hex32 roomId.bytes) freshId (NodeSession.plaintextOf text)).2.2 :=
      sendInRoom_e2ee s.session roomId text freshId ts
    have hroom : ∀ e, (s.session.sendInRoom b64 sk roomId text freshId ts).1 ≠ .error (.room e) :=
      sendInRoom_not_room s.session roomId text freshId ts
    have hencrypt := (sendMessage_frame b64 s.session sk roomId text freshId ts).2.2.2
    rw [← hsend] at hdev hroom
    unfold Served.sendMessage
    rcases hrun : s.session.sendMessage b64 sk roomId text freshId ts with ⟨res, session⟩
    rw [hrun] at hdev hroom hencrypt
    -- the room's session is made before anything can fail
    have hmem : ∀ {k : String}, k ∈ session.e2ee.outboundMegolm ↔
        k ∈ s.session.e2ee.outboundMegolm ∨ (MayMessage s.session roomId ∧ k = hex32 roomId.bytes) := by
      intro k
      change session.e2ee = _ at hdev
      rw [hdev, mem_sendMegolm]
      simp [hmay]
    cases res with
    | error e =>
        cases e with
        | room e => exact absurd rfl (hroom e)
        | encrypt e => exact absurd rfl (hencrypt e)
        | sign e => exact hmem
        | commit e => exact hmem
    | ok signed => exact (mem_shares o _ freshId _ replies (hmem.2 (Or.inr ⟨hmay, rfl⟩))).trans hmem
  · have hrefused : ∃ e, s.session.sendMessage b64 sk roomId text freshId ts = (.error (.room e), s.session) :=
      sendMessage_mayNot hmay text freshId ts
    rcases hrefused with ⟨e, hsend⟩
    unfold Served.sendMessage
    rw [hsend]
    simp [hmay]

end Messages

end Keys

/-! ## One session for each room -/

section Runs

variable [Olm] [Primitives] [Deserialize CreateRoomPayload] [Deserialize MembershipPayload]
  [Serialize RoomOutboundPackage] [Deserialize RoomOutboundPackage] [Deserialize (Encoded SessionKey)]
  {b64 : Encoded MegolmMessage → String} {sk : Primitives.SigningKey}

/-- No two keys of the outbound sessions are spellings of one room id. -/
def OneSessionPerRoom (s : Served) : Prop :=
  ∀ k ∈ s.session.e2ee.outboundMegolm, ∀ k' ∈ s.session.e2ee.outboundMegolm, ∀ room,
    parseRoomId k = .ok room → parseRoomId k' = .ok room → k = k'

/-- If the room that the request names has an outbound session, it is kept under the request's spelling. -/
def SameSpelling (s : Served) (req : RoomRequest) : Prop :=
  ∀ key, req.Names s key → ∀ k ∈ s.session.e2ee.outboundMegolm, ∀ room,
    parseRoomId key = .ok room → parseRoomId k = .ok room → k = key

/-- A request adds the key it names, and nothing else. -/
theorem mem_step {s : Served} {req : RoomRequest} {k : String} :
    k ∈ (req.step b64 sk s).session.e2ee.outboundMegolm ↔
      k ∈ s.session.e2ee.outboundMegolm ∨ req.Names s k := by
  cases req with
  | sendMessage o roomId text freshId ts replies =>
      have hstep : (RoomRequest.sendMessage o roomId text freshId ts replies).step b64 sk s =
          s.sendTo b64 sk o roomId text freshId ts replies := rfl
      rw [hstep, Served.sendTo]
      cases hparse : parseRoomId roomId with
      -- a name that does not parse names no room
      | error e =>
          refine ⟨Or.inl, ?_⟩
          rintro (h | hnames)
          · exact h
          · cases hnames with
            | sendMessage hroom hmay =>
                rw [hparse] at hroom
                cases hroom
      | ok room =>
          refine mem_sendMessage.trans (or_congr Iff.rfl ⟨?_, ?_⟩)
          · rintro ⟨hmay, rfl⟩
            exact .sendMessage hparse hmay
          · intro hnames
            cases hnames with
            | sendMessage hroom hmay =>
                rw [hparse] at hroom
                cases hroom
                exact ⟨hmay, rfl⟩
  | exportSession o roomId freshId =>
      refine mem_ensureRoom.trans (or_congr Iff.rfl ⟨?_, ?_⟩)
      · rintro rfl
        exact .exportSession
      · intro hnames
        cases hnames
        rfl
  | shareSession o roomId freshId reply =>
      refine mem_share.trans (or_congr Iff.rfl ⟨?_, ?_⟩)
      · rintro ⟨⟨keys, peerDev, rfl, hpeer⟩, rfl⟩
        exact .shareSession hpeer
      · intro hnames
        cases hnames with
        | shareSession hpeer => exact ⟨⟨_, _, rfl, hpeer⟩, rfl⟩
  | importSessionOlm curve olm => exact mem_importSessionOlm

theorem oneSessionPerRoom_step {s : Served} (hs : OneSessionPerRoom s) (req : RoomRequest) :
    OneSessionPerRoom (req.step b64 sk s) ↔ SameSpelling s req := by
  constructor
  · intro h key hnames k hk room hkey hroom
    exact h k (mem_step.2 (Or.inl hk)) key (mem_step.2 (Or.inr hnames)) room hroom hkey
  · intro hsame k hk k' hk' room hroom hroom'
    rcases mem_step.1 hk with hold | hnames
    · rcases mem_step.1 hk' with hold' | hnames'
      · exact hs k hold k' hold' room hroom hroom'
      · exact hsame k' hnames' k hold room hroom' hroom
    · rcases mem_step.1 hk' with hold' | hnames'
      · exact (hsame k hnames k' hold' room hroom hroom').symm
      · exact hnames.unique hnames'

/-- A run keeps one session for each room exactly if every request that names a room spells its id as
the session's key does. -/
theorem oneSessionPerRoom_iff {s : Served} (hs : OneSessionPerRoom s) (reqs : List RoomRequest) :
    Runs.Always (RoomRequest.step b64 sk) OneSessionPerRoom s reqs ↔
      Runs.Along (RoomRequest.step b64 sk) SameSpelling s reqs :=
  Runs.always_iff_along_of_inv (J := fun _ => True) (fun _ _ h => h)
    (fun _ req _ h => oneSessionPerRoom_step h req) reqs trivial hs

end Runs

/-! ## Two spellings of one room -/

section Example

open Checksum RoomRegistry

attribute [local instance] Checksum.primitives Ratchet.olm createReader membershipReader packageWriter
  noPackages noKeys

theorem oneSessionPerRoom_newcomer : OneSessionPerRoom newcomer := by
  intro k hk
  cases hk

/-- The room id of sixty-four times one digit. -/
def spelt (digit : Char) : String :=
  String.ofList (List.replicate 64 digit)

/-- The same text of the id twice. -/
theorem oneSessionPerRoom_iff_lower :
    Runs.Always (RoomRequest.step noText (key 1)) OneSessionPerRoom newcomer
      [.exportSession .stored (spelt 'a') "megolm", .exportSession .stored (spelt 'a') "megolm2"] := by
  refine (oneSessionPerRoom_iff oneSessionPerRoom_newcomer _).2 ⟨?_, ?_, trivial⟩
  · intro key _ k hk
    cases hk
  · intro key hkey k hk room _ _
    cases hkey
    rcases mem_step.1 hk with hold | hnames
    · cases hold
    · cases hnames
      rfl

/-- The session is exported under both spellings, and the room has two. -/
theorem export_twoSpellings :
    ¬ ∀ (s : Served) (reqs : List RoomRequest), s.session.e2ee.outboundMegolm = ∅ →
      Runs.Always (RoomRequest.step noText (key 1)) OneSessionPerRoom s reqs := by
  intro h
  have hfinal := (h newcomer [.exportSession .stored (spelt 'a') "megolm",
    .exportSession .stored (spelt 'A') "megolm2"] rfl).final
  have hkeys : spelt 'a' ∈ (Runs.run (RoomRequest.step noText (key 1)) newcomer
      [.exportSession .stored (spelt 'a') "megolm",
        .exportSession .stored (spelt 'A') "megolm2"]).session.e2ee.outboundMegolm ∧
      spelt 'A' ∈ (Runs.run (RoomRequest.step noText (key 1)) newcomer
      [.exportSession .stored (spelt 'a') "megolm",
        .exportSession .stored (spelt 'A') "megolm2"]).session.e2ee.outboundMegolm := by
    decide +kernel
  have hroom : parseRoomId (spelt 'a') = .ok ⟨Vector.replicate 32 170⟩ ∧
      parseRoomId (spelt 'A') = .ok ⟨Vector.replicate 32 170⟩ := by
    decide +kernel
  have hsame : spelt 'a' = spelt 'A' := hfinal _ hkeys.1 _ hkeys.2 _ hroom.1 hroom.2
  exact absurd hsame (by decide +kernel)

end Example

end Node
end Thunderducks
