import Thunderducks.Event.Checksum
import Thunderducks.Event.ContentAddress
import Thunderducks.Lib.JsonUnique
import Thunderducks.Lib.Runs
import Thunderducks.Node.Session

/-!
# Link — linking devices (`td-crypto/src/link.rs`, `device.rs`)

A request is signed by the new device, an approval by a trusted one, and both signatures are over the
same payload bytes.  The registries of all nodes run together: what one node signs may be presented to
another, and in the other role.  A signature that verifies is one that some call has made (`Ideal`), so
every trusted device is a local one or was signed for by a device that was trusted when it was added
(`linked_by_trusted`).
-/

namespace Thunderducks
namespace Node

open Lib Event

/-! ## Keys -/

section Keys

variable [Primitives]

/-- A signing key and the id of its verifying key. -/
structure DeviceKeypair where
  signing : Primitives.SigningKey
  deviceId : DeviceId
  named : deviceId = DeviceId.fromVerifyingKey (Primitives.verifyingKey signing)

namespace DeviceKeypair

/-- `generate`, with the key drawn, and `from_seed_bytes`. -/
def ofSigningKey (signing : Primitives.SigningKey) : DeviceKeypair :=
  { signing := signing
    deviceId := DeviceId.fromVerifyingKey (Primitives.verifyingKey signing)
    named := rfl }

def verifyingKey (kp : DeviceKeypair) : Bytes32 :=
  Primitives.verifyingKey kp.signing

def publicBundle (kp : DeviceKeypair) : DeviceBundle :=
  { deviceId := kp.deviceId
    verifyingKey := kp.verifyingKey }

end DeviceKeypair

/-- The bundle carries the id of its key. -/
def DeviceBundle.Named (b : DeviceBundle) : Prop :=
  DeviceId.fromVerifyingKey b.verifyingKey = b.deviceId

theorem DeviceKeypair.publicBundle_named (kp : DeviceKeypair) : kp.publicBundle.Named :=
  kp.named.symm

/-- Such bundles with one key are one bundle. -/
theorem DeviceBundle.Named.eq_of_key {a b : DeviceBundle} (ha : a.Named) (hb : b.Named)
    (h : a.verifyingKey = b.verifyingKey) : a = b := by
  rcases a with ⟨aid, akey⟩
  rcases b with ⟨bid, bkey⟩
  unfold DeviceBundle.Named at ha hb
  simp only at ha hb h
  rw [← ha, ← hb, h]

end Keys

/-! ## Requests and approvals -/

inductive LinkError
  | invalidSignature
  | invalidKey
  | deviceMismatch
  | notAuthorized
  deriving DecidableEq

structure DeviceLinkPayload where
  newDevice : DeviceBundle
  requestedAtMs : UInt64
  deriving DecidableEq

structure LinkRequest where
  payload : DeviceLinkPayload
  requestSig : Bytes

structure LinkApproval where
  payload : DeviceLinkPayload
  approvedBy : DeviceId
  approverVk : Bytes32
  approvalSig : Bytes

def DeviceBundle.json (b : DeviceBundle) : Json :=
  .obj [("device_id", .bytes b.deviceId.bytes.toList), ("verifying_key", .bytes b.verifyingKey.toList)]

instance : Serialize DeviceLinkPayload where
  toJson p := .obj [("new_device", p.newDevice.json), ("requested_at_ms", .num p.requestedAtMs.toNat)]

theorem DeviceBundle.json_injective {a b : DeviceBundle} (h : a.json = b.json) : a = b := by
  simp only [DeviceBundle.json, Json.obj.injEq, List.cons.injEq, Prod.mk.injEq, true_and,
    and_true] at h
  have hid : a.deviceId.bytes = b.deviceId.bytes := Vector.toList_inj.1 (Json.bytes_injective h.1)
  have hkey : a.verifyingKey = b.verifyingKey := Vector.toList_inj.1 (Json.bytes_injective h.2)
  rcases a with ⟨⟨aid⟩, akey⟩
  rcases b with ⟨⟨bid⟩, bkey⟩
  simp only at hid hkey
  rw [hid, hkey]

/-- The signed bytes tell the payload. -/
theorem DeviceLinkPayload.toVec_injective {a b : DeviceLinkPayload} (h : toVec a = toVec b) :
    a = b := by
  have hjson := Json.render_injective h
  simp only [Serialize.toJson, Json.obj.injEq, List.cons.injEq, Prod.mk.injEq, true_and, and_true,
    Json.num.injEq] at hjson
  have hdevice : a.newDevice = b.newDevice := DeviceBundle.json_injective hjson.1
  have hms : a.requestedAtMs = b.requestedAtMs := UInt64.toNat_inj.1 hjson.2
  cases a
  cases b
  simp only at hdevice hms
  rw [hdevice, hms]

/-- `<[u8; 64]>::try_from` on a slice. -/
def signatureFromSlice (b : Bytes) : Option Bytes64 :=
  if h : b.length = 64 then some ⟨b.toArray, List.size_toArray.trans h⟩ else none

theorem signatureFromSlice_toList (sig : Bytes64) : signatureFromSlice sig.toList = some sig := by
  have hlen : sig.toList.length = 64 := by
    simp
  unfold signatureFromSlice
  rw [dif_pos hlen, Option.some.injEq]
  apply Vector.toArray_inj.1
  exact Array.toArray_toList

/-! ## The registry -/

namespace LinkRegistry

def new : LinkRegistry :=
  { trusted := ∅ }

def isLinked (link : LinkRegistry) (id : DeviceId) : Bool :=
  (link.trusted.lookup id).isSome

variable [Primitives]

def trustLocal (link : LinkRegistry) (kp : DeviceKeypair) : LinkRegistry :=
  { trusted := link.trusted.insert kp.publicBundle.deviceId kp.publicBundle }

def createLinkRequest (newDevice : DeviceKeypair) : LinkRequest :=
  let payload : DeviceLinkPayload :=
    { newDevice := newDevice.publicBundle
      requestedAtMs := 0 }
  { payload := payload
    requestSig := (Primitives.sign newDevice.signing (toVec payload)).toList }

/-- The signature is one of the key's over the payload. -/
def signed (vk : Bytes32) (payload : DeviceLinkPayload) (sig : Bytes) : Bool :=
  match signatureFromSlice sig with
  | none => false
  | some sig => Primitives.verify vk (toVec payload) sig

def approveLink (link : LinkRegistry) (approver : DeviceKeypair) (request : LinkRequest) :
    Except LinkError LinkApproval :=
  if link.isLinked approver.deviceId = false then
    .error .notAuthorized
  else if Primitives.validKey request.payload.newDevice.verifyingKey = false then
    .error .invalidKey
  else if DeviceId.fromVerifyingKey request.payload.newDevice.verifyingKey ≠
      request.payload.newDevice.deviceId then
    .error .deviceMismatch
  else if signed request.payload.newDevice.verifyingKey request.payload request.requestSig = false then
    .error .invalidSignature
  else
    .ok
      { payload := request.payload
        approvedBy := approver.deviceId
        approverVk := approver.verifyingKey
        approvalSig := (Primitives.sign approver.signing (toVec request.payload)).toList }

def applyApproval (link : LinkRegistry) (approval : LinkApproval) :
    Except LinkError Unit × LinkRegistry :=
  if link.isLinked approval.approvedBy = false then
    (.error .notAuthorized, link)
  else if Primitives.validKey approval.approverVk = false then
    (.error .invalidKey, link)
  else if DeviceId.fromVerifyingKey approval.approverVk ≠ approval.approvedBy then
    (.error .deviceMismatch, link)
  else if signed approval.approverVk approval.payload approval.approvalSig = false then
    (.error .invalidSignature, link)
  else if Primitives.validKey approval.payload.newDevice.verifyingKey = false then
    (.error .invalidKey, link)
  else
    let newId := DeviceId.fromVerifyingKey approval.payload.newDevice.verifyingKey
    if newId ≠ approval.payload.newDevice.deviceId then
      (.error .deviceMismatch, link)
    else
      (.ok (), { trusted := link.trusted.insert newId approval.payload.newDevice })

variable {link : LinkRegistry}

/-- What an approval has to be to be applied. -/
structure Applies (link : LinkRegistry) (approval : LinkApproval) : Prop where
  linked : link.isLinked approval.approvedBy = true
  named : DeviceId.fromVerifyingKey approval.approverVk = approval.approvedBy
  signed : signed approval.approverVk approval.payload approval.approvalSig = true
  new_named : approval.payload.newDevice.Named

/-- An approval is refused and nothing changes, or it adds its device. -/
theorem applyApproval_cases (link : LinkRegistry) (approval : LinkApproval) :
    (∃ e, link.applyApproval approval = (.error e, link)) ∨
      Applies link approval ∧ link.applyApproval approval =
        (.ok (), LinkRegistry.mk (link.trusted.insert approval.payload.newDevice.deviceId
          approval.payload.newDevice)) := by
  unfold applyApproval
  split
  · exact Or.inl ⟨_, rfl⟩
  next hlinked =>
    split
    · exact Or.inl ⟨_, rfl⟩
    · split
      · exact Or.inl ⟨_, rfl⟩
      next hnamed =>
        split
        · exact Or.inl ⟨_, rfl⟩
        next hsigned =>
          split
          · exact Or.inl ⟨_, rfl⟩
          · dsimp only
            split
            · exact Or.inl ⟨_, rfl⟩
            next hnew =>
              have hnew' := not_not.1 hnew
              refine Or.inr ⟨⟨by simpa using hlinked, not_not.1 hnamed, by simpa using hsigned,
                hnew'⟩, ?_⟩
              rw [hnew']

theorem lookup_trustLocal {kp : DeviceKeypair} {id : DeviceId} {b : DeviceBundle}
    (h : (link.trustLocal kp).trusted.lookup id = some b) :
    link.trusted.lookup id = some b ∨ id = kp.deviceId ∧ kp.publicBundle = b := by
  unfold trustLocal at h
  rw [HashMap.lookup_insert_eq] at h
  split at h
  next hid => exact Or.inr ⟨hid, Option.some.inj h⟩
  · exact Or.inl h

theorem linkedDevices_trustLocal (link : LinkRegistry) (kp : DeviceKeypair) :
    (link.trustLocal kp).linkedDevices = kp.deviceId :: link.linkedDevices.erase kp.deviceId :=
  AList.keys_insert link.trusted

theorem lookup_applyApproval {approval : LinkApproval} {id : DeviceId} {b : DeviceBundle}
    (h : (link.applyApproval approval).2.trusted.lookup id = some b) :
    link.trusted.lookup id = some b ∨
      Applies link approval ∧ id = b.deviceId ∧ approval.payload.newDevice = b := by
  rcases applyApproval_cases link approval with ⟨e, herr⟩ | ⟨happlies, hok⟩
  · rw [herr] at h
    exact Or.inl h
  · rw [hok] at h
    dsimp only at h
    rw [HashMap.lookup_insert_eq] at h
    split at h
    next hid =>
      have hb := Option.some.inj h
      exact Or.inr ⟨happlies, by rw [← hb]; exact hid, hb⟩
    · exact Or.inl h

omit [Primitives] in
/-- A device that is linked stays linked. -/
theorem isLinked_insert {id id' : DeviceId} {b : DeviceBundle} (h : link.isLinked id = true) :
    (LinkRegistry.mk (link.trusted.insert id' b)).isLinked id = true := by
  unfold isLinked at h ⊢
  dsimp only
  rw [HashMap.lookup_insert_eq]
  split
  · rfl
  · exact h

section Honest

variable [SignsVerify]

theorem signed_sign (sk : Primitives.SigningKey) (payload : DeviceLinkPayload) :
    signed (Primitives.verifyingKey sk) payload (Primitives.sign sk (toVec payload)).toList =
      true := by
  unfold signed
  rw [signatureFromSlice_toList]
  exact SignsVerify.verifies sk (toVec payload)

/-- A trusted approver approves what a device asks for itself. -/
theorem approveLink_createLinkRequest {approver : DeviceKeypair} (newDevice : DeviceKeypair)
    (h : link.isLinked approver.deviceId = true) :
    link.approveLink approver (createLinkRequest newDevice) =
      .ok
        { payload := (createLinkRequest newDevice).payload
          approvedBy := approver.deviceId
          approverVk := approver.verifyingKey
          approvalSig := (Primitives.sign approver.signing
            (toVec (createLinkRequest newDevice).payload)).toList } := by
  have hvalid : Primitives.validKey (createLinkRequest newDevice).payload.newDevice.verifyingKey =
      true := SignsVerify.valid newDevice.signing
  have hnamed : DeviceId.fromVerifyingKey
      (createLinkRequest newDevice).payload.newDevice.verifyingKey =
        (createLinkRequest newDevice).payload.newDevice.deviceId := newDevice.publicBundle_named
  have hsigned : signed (createLinkRequest newDevice).payload.newDevice.verifyingKey
      (createLinkRequest newDevice).payload (createLinkRequest newDevice).requestSig = true :=
    signed_sign newDevice.signing _
  unfold approveLink
  rw [h, hvalid, hsigned, hnamed]
  simp only [Bool.true_eq_false, if_false, ne_eq, not_true_eq_false]

/-- An approval that a trusted key has signed is applied. -/
theorem applyApproval_signed {approver : DeviceKeypair} {newDevice : DeviceKeypair}
    (h : link.isLinked approver.deviceId = true) :
    link.applyApproval
        { payload := (createLinkRequest newDevice).payload
          approvedBy := approver.deviceId
          approverVk := approver.verifyingKey
          approvalSig := (Primitives.sign approver.signing
            (toVec (createLinkRequest newDevice).payload)).toList } =
      (.ok (), link.trustLocal newDevice) := by
  have hvalid : Primitives.validKey approver.verifyingKey = true := SignsVerify.valid approver.signing
  have hnamed : DeviceId.fromVerifyingKey approver.verifyingKey = approver.deviceId :=
    approver.named.symm
  have hsigned := signed_sign approver.signing (createLinkRequest newDevice).payload
  have hnew : DeviceId.fromVerifyingKey
      (createLinkRequest newDevice).payload.newDevice.verifyingKey =
        (createLinkRequest newDevice).payload.newDevice.deviceId := newDevice.publicBundle_named
  have hnewValid : Primitives.validKey
      (createLinkRequest newDevice).payload.newDevice.verifyingKey = true :=
    SignsVerify.valid newDevice.signing
  unfold applyApproval
  dsimp only
  have hsigned' : signed approver.verifyingKey (createLinkRequest newDevice).payload
      (Primitives.sign approver.signing (toVec (createLinkRequest newDevice).payload)).toList =
        true := hsigned
  rw [h, hvalid, hsigned', hnewValid, hnamed, hnew]
  simp only [Bool.true_eq_false, if_false, ne_eq, not_true_eq_false]
  rfl

end Honest

end LinkRegistry

/-! ## The registries of all nodes -/

/-- A call on the registry of node `r`; requests and approvals may be forged. -/
inductive LinkCall [Primitives] (R : Type)
  | trustLocal (r : R) (kp : DeviceKeypair)
  | createLinkRequest (r : R) (newDevice : DeviceKeypair)
  | approveLink (r : R) (approver : DeviceKeypair) (request : LinkRequest)
  | applyApproval (r : R) (approval : LinkApproval)

namespace LinkCall

variable [Primitives] {R : Type} [DecidableEq R]

def step (regs : R → LinkRegistry) : LinkCall R → R → LinkRegistry
  | .trustLocal r kp => Function.update regs r ((regs r).trustLocal kp)
  | .createLinkRequest _ _ => regs
  | .approveLink _ _ _ => regs
  | .applyApproval r approval => Function.update regs r ((regs r).applyApproval approval).2

/-- The registries after a run; all of them start empty. -/
def after (calls : List (LinkCall R)) : R → LinkRegistry :=
  Runs.run step (fun _ => LinkRegistry.new) calls

/-- The call signs these bytes with the key behind `vk`. -/
def Signs (regs : R → LinkRegistry) (vk : Bytes32) (bytes : Bytes) : LinkCall R → Prop
  | .createLinkRequest _ newDevice =>
      newDevice.verifyingKey = vk ∧ toVec (LinkRegistry.createLinkRequest newDevice).payload = bytes
  | .approveLink r approver request =>
      (∃ approval, (regs r).approveLink approver request = .ok approval) ∧
        approver.verifyingKey = vk ∧ toVec request.payload = bytes
  | _ => False

/-- The call is given a signature over these bytes that verifies under `vk`. -/
def Verifies (vk : Bytes32) (bytes : Bytes) : LinkCall R → Prop
  | .approveLink _ _ request =>
      LinkRegistry.signed request.payload.newDevice.verifyingKey request.payload
          request.requestSig = true ∧
        request.payload.newDevice.verifyingKey = vk ∧ toVec request.payload = bytes
  | .applyApproval _ approval =>
      LinkRegistry.signed approval.approverVk approval.payload approval.approvalSig = true ∧
        approval.approverVk = vk ∧ toVec approval.payload = bytes
  | _ => False

/-- Nobody but the holder of a key makes signatures that verify under it: what verifies, an earlier call
has signed. -/
def Ideal (calls : List (LinkCall R)) : Prop :=
  ∀ before call later, calls = before ++ call :: later → ∀ vk bytes, Verifies vk bytes call →
    ∃ first signing rest, before = first ++ signing :: rest ∧ Signs (after first) vk bytes signing

/-- The keys that a call names. -/
def keys : LinkCall R → List Bytes32
  | .trustLocal _ kp => [kp.verifyingKey]
  | .createLinkRequest _ newDevice => [newDevice.verifyingKey]
  | .approveLink _ approver request =>
      [approver.verifyingKey, request.payload.newDevice.verifyingKey]
  | .applyApproval _ approval => [approval.approverVk, approval.payload.newDevice.verifyingKey]

/-- No two keys of the run have one id. -/
def DistinctIds (calls : List (LinkCall R)) : Prop :=
  ∀ vk ∈ calls.flatMap keys, ∀ vk' ∈ calls.flatMap keys, CollisionFree vk.toList vk'.toList

/-- The call adds a device to the registry of a node. -/
inductive Adds (regs : R → LinkRegistry) (r : R) (b : DeviceBundle) : LinkCall R → Prop
  | locally {kp : DeviceKeypair} : kp.publicBundle = b → Adds regs r b (.trustLocal r kp)
  | approved {approval : LinkApproval} : (regs r).Applies approval →
      approval.payload.newDevice = b → Adds regs r b (.applyApproval r approval)

variable {calls : List (LinkCall R)} {r : R} {id : DeviceId} {b : DeviceBundle}

theorem step_trustLocal (regs : R → LinkRegistry) (q : R) (kp : DeviceKeypair) (r : R) :
    step regs (.trustLocal q kp) r = if r = q then (regs q).trustLocal kp else regs r :=
  Function.update_apply regs q _ r

theorem step_applyApproval (regs : R → LinkRegistry) (q : R) (approval : LinkApproval) (r : R) :
    step regs (.applyApproval q approval) r =
      if r = q then ((regs q).applyApproval approval).2 else regs r :=
  Function.update_apply regs q _ r

/-- What a registry has after a call, it had before or the call adds it. -/
theorem lookup_step {regs : R → LinkRegistry} {call : LinkCall R}
    (h : ((step regs call) r).trusted.lookup id = some b) :
    (regs r).trusted.lookup id = some b ∨ id = b.deviceId ∧ Adds regs r b call := by
  cases call with
  | trustLocal q kp =>
      rw [step_trustLocal] at h
      split at h
      next hq =>
        subst hq
        rcases LinkRegistry.lookup_trustLocal h with hold | ⟨hid, hb⟩
        · exact Or.inl hold
        · refine Or.inr ⟨?_, Adds.locally hb⟩
          rw [hid, ← hb]
          rfl
      · exact Or.inl h
  | createLinkRequest q newDevice => exact Or.inl h
  | approveLink q approver request => exact Or.inl h
  | applyApproval q approval =>
      rw [step_applyApproval] at h
      split at h
      next hq =>
        subst hq
        rcases LinkRegistry.lookup_applyApproval h with hold | ⟨happlies, hid, hb⟩
        · exact Or.inl hold
        · exact Or.inr ⟨hid, Adds.approved happlies hb⟩
      · exact Or.inl h

/-- A device that is linked stays linked. -/
theorem isLinked_step {regs : R → LinkRegistry} {call : LinkCall R}
    (h : (regs r).isLinked id = true) : ((step regs call) r).isLinked id = true := by
  cases call with
  | trustLocal q kp =>
      rw [step_trustLocal]
      split
      next hq =>
        subst hq
        exact LinkRegistry.isLinked_insert h
      · exact h
  | createLinkRequest q newDevice => exact h
  | approveLink q approver request => exact h
  | applyApproval q approval =>
      rw [step_applyApproval]
      split
      next hq =>
        subst hq
        rcases LinkRegistry.applyApproval_cases (regs r) approval with ⟨e, herr⟩ | ⟨_, hok⟩
        · rw [herr]
          exact h
        · rw [hok]
          exact LinkRegistry.isLinked_insert h
      · exact h

/-- A trusted device stands under its own id, and some call added it. -/
theorem added (h : ((after calls) r).trusted.lookup id = some b) :
    id = b.deviceId ∧ ∃ before call later, calls = before ++ call :: later ∧
      Adds (after before) r b call := by
  have hstep : ∀ (regs : R → LinkRegistry) (call : LinkCall R) (e : DeviceId × DeviceBundle),
      ((step regs call) r).trusted.lookup e.1 = some e.2 →
        ((regs r).trusted.lookup e.1 = some e.2 ∧ ¬ False) ∨
          (e.1 = e.2.deviceId ∧ Adds regs r e.2 call) := by
    intro regs call e he
    rcases lookup_step he with hold | hadds
    · exact Or.inl ⟨hold, not_false⟩
    · exact Or.inr hadds
  have hinit : ∀ e : DeviceId × DeviceBundle,
      ¬ (LinkRegistry.new.trusted.lookup e.1 = some e.2) := by
    intro e he
    cases he
  rcases @Runs.provenance _ _ step _ (fun regs e => (regs r).trusted.lookup e.1 = some e.2)
    (fun regs call e => e.1 = e.2.deviceId ∧ Adds regs r e.2 call) (fun _ _ _ => False) hstep
    (fun _ => LinkRegistry.new) hinit calls (id, b) h with
    ⟨before, call, later, hsplit, ⟨hid, hadds⟩, _⟩
  exact ⟨hid, before, call, later, hsplit, hadds⟩

omit [DecidableEq R] in
/-- The bundle that a call adds carries the id of its key, which the call names. -/
theorem Adds.named {regs : R → LinkRegistry} {call : LinkCall R} (h : Adds regs r b call) :
    b.Named ∧ b.verifyingKey ∈ call.keys := by
  cases h with
  | locally hb =>
      subst hb
      exact ⟨DeviceKeypair.publicBundle_named _, by simp [keys, DeviceKeypair.publicBundle]⟩
  | approved happlies hb =>
      subst hb
      exact ⟨happlies.new_named, by simp [keys]⟩

/-- The payload was approved by the holder of a key. -/
def Approved (calls : List (LinkCall R)) (vk : Bytes32) (payload : DeviceLinkPayload) : Prop :=
  ∃ first q approver request rest, calls = first ++ .approveLink q approver request :: rest ∧
    (∃ approval, ((after first) q).approveLink approver request = .ok approval) ∧
    approver.verifyingKey = vk ∧ request.payload = payload

/-- The holder of a key asked for its own device to be linked. -/
def Requested (calls : List (LinkCall R)) (vk : Bytes32) (payload : DeviceLinkPayload) : Prop :=
  ∃ first q newDevice rest, calls = first ++ .createLinkRequest q newDevice :: rest ∧
    newDevice.verifyingKey = vk ∧ (LinkRegistry.createLinkRequest newDevice).payload = payload

/-- A signature over a payload was made in one of the two roles. -/
theorem signed_in_role {vk : Bytes32} {payload : DeviceLinkPayload} {first rest : List (LinkCall R)}
    {signing : LinkCall R} (hsplit : calls = first ++ signing :: rest)
    (h : Signs (after first) vk (toVec payload) signing) :
    Approved calls vk payload ∨ Requested calls vk payload := by
  cases signing with
  | trustLocal q kp => cases h
  | applyApproval q approval => cases h
  | createLinkRequest q newDevice =>
      exact Or.inr ⟨first, q, newDevice, rest, hsplit, h.1,
        DeviceLinkPayload.toVec_injective h.2⟩
  | approveLink q approver request =>
      exact Or.inl ⟨first, q, approver, request, rest, hsplit, h.1, h.2.1,
        DeviceLinkPayload.toVec_injective h.2.2⟩

/-- A trusted device carries the id of its key, and a call of the run names the key. -/
theorem named_of_trusted (h : ((after calls) r).trusted.lookup id = some b) :
    b.deviceId = id ∧ b.Named ∧ b.verifyingKey ∈ calls.flatMap keys := by
  rcases added h with ⟨hid, before, call, later, hsplit, hadds⟩
  rcases hadds.named with ⟨hnamed, hkey⟩
  refine ⟨hid.symm, hnamed, List.mem_flatMap.2 ⟨call, ?_, hkey⟩⟩
  rw [hsplit]
  simp

/-- The device behind an approval that applies is trusted under the key that the approval names. -/
theorem signer_of_applies {before later : List (LinkCall R)} {approval : LinkApproval}
    (hids : DistinctIds calls) (hsplit : calls = before ++ .applyApproval r approval :: later)
    (happlies : ((after before) r).Applies approval) :
    ∃ signer, ((after before) r).trusted.lookup approval.approvedBy = some signer ∧ signer.Named ∧
      signer.verifyingKey = approval.approverVk := by
  rcases Option.isSome_iff_exists.1 happlies.linked with ⟨signer, hsigner⟩
  rcases named_of_trusted hsigner with ⟨hid, hnamed, hkey⟩
  refine ⟨signer, hsigner, hnamed, ?_⟩
  have hmem : signer.verifyingKey ∈ calls.flatMap keys := by
    rw [hsplit, List.flatMap_append]
    exact List.mem_append_left _ hkey
  have hmem' : approval.approverVk ∈ calls.flatMap keys := by
    refine List.mem_flatMap.2 ⟨.applyApproval r approval, ?_, by simp [keys]⟩
    rw [hsplit]
    simp
  have hsame : DeviceId.fromVerifyingKey signer.verifyingKey =
      DeviceId.fromVerifyingKey approval.approverVk := by
    rw [hnamed, hid, happlies.named]
  exact Vector.toList_inj.1 (hids _ hmem _ hmem' (DeviceId.mk.inj hsame))

omit [DecidableEq R] in
/-- A device that asks for itself asks for its own bundle. -/
theorem requested_self {vk : Bytes32} {payload : DeviceLinkPayload}
    (h : Requested calls vk payload) :
    payload.newDevice.Named ∧ payload.newDevice.verifyingKey = vk := by
  rcases h with ⟨first, q, newDevice, rest, _, hvk, hpayload⟩
  subst hpayload
  exact ⟨newDevice.publicBundle_named, hvk⟩

/-- Over any run on any registries, with signatures that only holders make and ids that do not collide:
every trusted device stands under the id of its own key, and it is a local one or its payload was signed
by a device that was trusted when it was added, as an approval or, for that device itself, as a request.
And a trusted approver gets an honest request through. -/
theorem linked_by_trusted [SignsVerify] (calls : List (LinkCall R)) (hideal : Ideal calls)
    (hids : DistinctIds calls) :
    (∀ r id b, ((after calls) r).trusted.lookup id = some b →
      id = DeviceId.fromVerifyingKey b.verifyingKey ∧ b.deviceId = id ∧
      ((∃ before kp later, calls = before ++ .trustLocal r kp :: later ∧ kp.publicBundle = b) ∨
        ∃ before approval later, calls = before ++ .applyApproval r approval :: later ∧
          approval.payload.newDevice = b ∧
          ∃ signer, ((after before) r).trusted.lookup approval.approvedBy = some signer ∧
            (Approved before signer.verifyingKey approval.payload ∨
              Requested before signer.verifyingKey approval.payload ∧ signer = b))) ∧
    ∀ r approver newDevice, ((after calls) r).isLinked approver.deviceId = true →
      ∃ approval, ((after calls) r).approveLink approver
          (LinkRegistry.createLinkRequest newDevice) = .ok approval ∧
        ∀ mid, ((after (calls ++ mid)) r).applyApproval approval =
          (.ok (), ((after (calls ++ mid)) r).trustLocal newDevice) := by
  constructor
  · intro r id b hb
    rcases added hb with ⟨hid, before, call, later, hsplit, hadds⟩
    have hnamed : DeviceId.fromVerifyingKey b.verifyingKey = b.deviceId := hadds.named.1
    refine ⟨hid.trans hnamed.symm, hid.symm, ?_⟩
    cases hadds with
    | locally hkp => exact Or.inl ⟨before, _, later, hsplit, hkp⟩
    | approved happlies hnew =>
        next approval =>
        rcases signer_of_applies hids hsplit happlies with ⟨signer, hsigner, hsnamed, hskey⟩
        -- the signature was made by a call before, in one of the two roles
        rcases hideal before _ later hsplit approval.approverVk (toVec approval.payload)
          ⟨happlies.signed, rfl, rfl⟩ with ⟨first, signing, rest, hbefore, hsigns⟩
        refine Or.inr ⟨before, approval, later, hsplit, hnew, signer, hsigner, ?_⟩
        rw [hskey]
        rcases signed_in_role hbefore hsigns with happroved | hrequested
        · exact Or.inl happroved
        · rcases requested_self hrequested with ⟨hself, hselfkey⟩
          rw [hnew] at hself hselfkey
          exact Or.inr ⟨hrequested, hsnamed.eq_of_key hself (hskey.trans hselfkey.symm)⟩
  · intro r approver newDevice hlinked
    refine ⟨_, LinkRegistry.approveLink_createLinkRequest newDevice hlinked, fun mid => ?_⟩
    have hlater : ((after (calls ++ mid)) r).isLinked approver.deviceId = true := by
      unfold after
      rw [Runs.run_append]
      exact Runs.run_invariant (J := fun regs : R → LinkRegistry => (regs r).isLinked approver.deviceId = true)
        (fun regs call h => isLinked_step h) mid hlinked
    exact LinkRegistry.applyApproval_signed hlater

end LinkCall

/-! ## Two devices -/

namespace LinkCall

attribute [local instance] Checksum.primitives

/-- The key pair with number `n`. -/
def keypair (n : Nat) : DeviceKeypair :=
  DeviceKeypair.ofSigningKey (Checksum.key n)

def asked : LinkRequest :=
  LinkRegistry.createLinkRequest (keypair 2)

def approval : LinkApproval :=
  { payload := asked.payload
    approvedBy := (keypair 1).deviceId
    approverVk := (keypair 1).verifyingKey
    approvalSig := (Primitives.sign (keypair 1).signing (toVec asked.payload)).toList }

/-- The signature of the request, presented as an approval by the new device. -/
def replayed : LinkApproval :=
  { payload := asked.payload
    approvedBy := (keypair 2).deviceId
    approverVk := (keypair 2).verifyingKey
    approvalSig := asked.requestSig }

def linking : List (LinkCall Unit) :=
  [.trustLocal () (keypair 1), .createLinkRequest () (keypair 2), .approveLink () (keypair 1) asked,
    .applyApproval () approval, .applyApproval () replayed]

/-- Every signature of the run was made in it. -/
theorem ideal_linking : Ideal linking := by
  have hok : ∃ approved, ((after [.trustLocal () (keypair 1),
      .createLinkRequest () (keypair 2)]) ()).approveLink (keypair 1) asked = .ok approved :=
    ⟨_, LinkRegistry.approveLink_createLinkRequest (keypair 2) (by decide +kernel)⟩
  intro before call later hsplit vk bytes hver
  rcases before with _ | ⟨c1, _ | ⟨c2, _ | ⟨c3, _ | ⟨c4, _ | ⟨c5, before⟩⟩⟩⟩⟩
  · cases hsplit
    cases hver
  · cases hsplit
    cases hver
  · cases hsplit
    exact ⟨[.trustLocal () (keypair 1)], .createLinkRequest () (keypair 2), [], rfl, hver.2⟩
  · cases hsplit
    exact ⟨[.trustLocal () (keypair 1), .createLinkRequest () (keypair 2)],
      .approveLink () (keypair 1) asked, [], rfl, hok, hver.2⟩
  · cases hsplit
    exact ⟨[.trustLocal () (keypair 1)], .createLinkRequest () (keypair 2), _, rfl, hver.2⟩
  · simp [linking] at hsplit

/-- Two devices, and the request replayed as an approval. -/
theorem linked_by_trusted_replay :
    ((after linking) ()).trusted.lookup (keypair 2).deviceId = some (keypair 2).publicBundle ∧
      ((∃ before kp later, linking = before ++ .trustLocal () kp :: later ∧
          kp.publicBundle = (keypair 2).publicBundle) ∨
        ∃ before approval later, linking = before ++ .applyApproval () approval :: later ∧
          approval.payload.newDevice = (keypair 2).publicBundle) := by
  have hids : DistinctIds linking := by
    unfold DistinctIds CollisionFree
    decide +kernel
  have hlookup : ((after linking) ()).trusted.lookup (keypair 2).deviceId =
      some (keypair 2).publicBundle := by
    decide +kernel
  refine ⟨hlookup, ?_⟩
  rcases (linked_by_trusted linking ideal_linking hids).1 () _ _ hlookup with ⟨_, _, hlocal | happ⟩
  · exact Or.inl hlocal
  · rcases happ with ⟨before, approval, later, hsplit, hnew, _⟩
    exact Or.inr ⟨before, approval, later, hsplit, hnew⟩

end LinkCall

end Node
end Thunderducks
