import AnotherDimension.Identity.DeviceLink
import AnotherDimension.Identity.Theorems.Registry
import AnotherDimension.Library.Fallible

-- How long a device-link request and the certificate issued for it are valid.

open DeviceLink

namespace DeviceLinkRequest

variable {sha256 : Bytes → ByteBlock 32} {ed25519 : Ed25519} {toUppercase : Char → List Char}
  {fromSlice : Bytes → Option RequestWire} {request : DeviceLinkRequest}
  {approval : DeviceLinkApproval} {root : AccountRootKey} {code : String} {now : UInt64}

theorem fixedHex_toHex {n : Nat} (block : ByteBlock n) :
    fixedHex n (Bytes.toHex block.val) = .ok block := by
  simp [fixedHex, Bytes.fromHex_toHex, ByteBlock.ofBytes, block.property]

theorem ofWire_toWire
    (digest : request.requestDigest = digestRequest sha256 request.requestId request.deviceId
      request.devicePublicKey request.protocolPackageHash request.createdAt request.expiresAt)
    (lives : request.createdAt < request.expiresAt) :
    ofWire sha256 request.toWire = .ok request := by
  have hl : ¬request.expiresAt ≤ request.createdAt := UInt64.not_le.mpr lives
  simp [ofWire, toWire, fixedHex_toHex, ← digest, hl, pure, Except.pure, bind, Except.bind]

-- A request whose digest is right is read as it was written.
theorem parse_encode (reads : fromSlice request.toWire.bytes = some request.toWire)
    (digest : request.requestDigest = digestRequest sha256 request.requestId request.deviceId
      request.devicePublicKey request.protocolPackageHash request.createdAt request.expiresAt)
    (lives : request.createdAt < request.expiresAt) :
    parse sha256 fromSlice request.encode = .ok request := by
  simp [parse, encode, Text.stripPrefix_append, Bytes.fromHex_toHex, reads,
    ofWire_toWire digest lives]

theorem lives_of_ofWire {wire : RequestWire} (h : ofWire sha256 wire = .ok request) :
    request.createdAt < request.expiresAt := by
  unfold ofWire at h
  split at h
  case isTrue => cases h
  case isFalse =>
    obtain ⟨_, _, h⟩ := Except.bind_eq_ok.mp h
    obtain ⟨_, _, h⟩ := Except.bind_eq_ok.mp h
    obtain ⟨_, _, h⟩ := Except.bind_eq_ok.mp h
    obtain ⟨_, _, h⟩ := Except.bind_eq_ok.mp h
    obtain ⟨_, _, h⟩ := Except.bind_eq_ok.mp h
    dsimp only at h
    split at h
    case isTrue => cases h
    case isFalse hn =>
      cases h
      exact UInt64.not_le.mp (not_or.mp hn).right

theorem lives_of_parse {value : String} (h : parse sha256 fromSlice value = .ok request) :
    request.createdAt < request.expiresAt := by
  unfold parse at h
  split at h
  case h_1 => cases h
  case h_2 => exact lives_of_ofWire h

-- What an approval is made of.
theorem approve_ok (h : request.approve sha256 ed25519 toUppercase code root now = .ok approval) :
    now < request.expiresAt ∧ approval.requestId = request.requestId ∧
      approval.certificate = root.signedCertificate ed25519 request.deviceId
        request.devicePublicKey request.protocolPackageHash now request.expiresAt := by
  unfold approve at h
  split at h
  case isTrue => cases h
  case isFalse hn =>
    split at h
    case h_1 => cases h
    case h_2 =>
      split at h
      case isTrue  => cases h
      case isFalse =>
        split at h
        case h_1 => cases h
        case h_2 certificate hc =>
          cases h
          refine ⟨UInt64.not_le.mp hn, rfl, ?_⟩
          obtain ⟨deviceId, hd, hc⟩ := Except.bind_eq_ok.mp hc
          have hid : deviceId = request.deviceId := by
            unfold Identity.validateDeviceId at hd
            split at hd
            case isTrue  => cases hd
            case isFalse => exact (Except.ok.inj hd).symm
          split at hc
          case isTrue  => cases hc
          case isFalse => rw [← Except.ok.inj hc, hid]

-- The seconds a request names as its lifetime.
def lifetime (request : DeviceLinkRequest) : UInt64 :=
  request.expiresAt - request.createdAt

-- The approval falls into the lifetime of the request, and the certificate ends at most ten minutes
-- after the request was made.
structure IsBounded (request : DeviceLinkRequest) (approval : DeviceLinkApproval) (now : UInt64) :
    Prop where
  created : request.createdAt ≤ now
  expires : now ≤ request.expiresAt
  limited : approval.certificate.expiresAt.toNat ≤ request.createdAt.toNat + 10 * 60

theorem isBounded_iff {value : String} (hp : parse sha256 fromSlice value = .ok request)
    (ha : request.approve sha256 ed25519 toUppercase code root now = .ok approval) :
    request.IsBounded approval now ↔
      request.createdAt ≤ now ∧ request.lifetime ≤ maxDeviceLinkTtl := by
  obtain ⟨hnow, _, hcertificate⟩ := approve_ok ha
  have hlives := lives_of_parse hp
  have hlifetime : request.lifetime.toNat = request.expiresAt.toNat - request.createdAt.toNat :=
    UInt64.toNat_sub_of_le _ _ (UInt64.le_of_lt hlives)
  have hends : approval.certificate.expiresAt = request.expiresAt := by rw [hcertificate]; rfl
  have hmax : maxDeviceLinkTtl.toNat = 600 := rfl
  rw [UInt64.lt_iff_toNat_lt] at hlives
  constructor
  case mp =>
    intro h
    refine ⟨h.created, UInt64.le_iff_toNat_le.mpr ?_⟩
    have hl := h.limited
    rw [hends] at hl
    omega
  case mpr =>
    rintro ⟨hcreated, hl⟩
    refine ⟨hcreated, UInt64.le_of_lt hnow, ?_⟩
    rw [UInt64.le_iff_toNat_le] at hl
    rw [hends]
    omega

-- What the daemon registers and answers with is what the root key approved.
theorem approve_of_approveDeviceLink {readRegistry : Bytes → Option RegistryWire}
    {key : Option AccountRootKey} {registry : DeviceRegistry} {stored : Bool}
    (h : (registry.approveDeviceLink sha256 ed25519 toUppercase readRegistry key request code now
      stored).fst = .ok approval) :
    ∃ root, key = some root ∧
      request.approve sha256 ed25519 toUppercase code root now = .ok approval := by
  unfold DeviceRegistry.approveDeviceLink at h
  split at h
  case h_1 => cases h
  case h_2 root =>
    refine ⟨root, rfl, ?_⟩
    split at h
    case h_1 => cases h
    case h_2 ha =>
      split at h
      case h_1 => cases h
      case h_2 =>
        split at h
        case isTrue =>
          cases h
          exact ha
        case isFalse => split at h <;> cases h

-- A request as a device makes it keeps to the limit.
theorem lifetime_ofCreate {seed : Option (ByteBlock 32)} {requestId draw : Option (ByteBlock 16)}
    {deviceId : String} {package : ByteBlock 32} {pending : PendingDeviceKey}
    (h : PendingDeviceKey.create sha256 ed25519 seed requestId draw deviceId package now =
      .ok (pending, code)) :
    pending.request.createdAt = now ∧ pending.request.lifetime ≤ maxDeviceLinkTtl := by
  unfold PendingDeviceKey.create at h
  split at h
  case h_1 =>
    cases h
    refine ⟨rfl, UInt64.le_iff_toNat_le.mpr ?_⟩
    have hadd := now.toNat_saturatingAdd maxDeviceLinkTtl
    have hle : now ≤ now.saturatingAdd maxDeviceLinkTtl := by
      have := now.toNat_lt
      rw [UInt64.le_iff_toNat_le]
      omega
    have hsub := UInt64.toNat_sub_of_le _ _ hle
    rw [lifetime, ofCode, hsub]
    omega
  case h_2 => cases h

-- SHA-256 of the digests and code hashes of the two requests below, which differ in their last byte.
def sampleSha256 (bytes : Bytes) : ByteBlock 32 :=
  if bytes.getLast? = some 0x58 then
    ⟨[195, 79, 21, 134, 28, 24, 17, 118, 238, 21, 154, 230, 43, 223, 46, 34, 253, 114, 148, 105, 59,
      14, 136, 89, 23, 119, 10, 72, 26, 239, 146, 205], rfl⟩
  else if bytes.getLast? = some 0xcd then
    ⟨[75, 51, 96, 82, 203, 144, 111, 105, 210, 79, 63, 127, 136, 185, 149, 116, 252, 19, 68, 252, 36,
      166, 189, 106, 103, 236, 179, 209, 171, 34, 175, 100], rfl⟩
  else if bytes.getLast? = some 0xff then
    ⟨[189, 118, 144, 70, 141, 98, 67, 62, 170, 13, 186, 143, 55, 166, 3, 69, 68, 150, 12, 127, 146,
      242, 118, 120, 252, 188, 133, 26, 96, 191, 234, 133], rfl⟩
  else
    ⟨[145, 252, 183, 205, 142, 151, 174, 153, 148, 1, 116, 251, 25, 180, 93, 231, 194, 55, 138, 153,
      172, 151, 67, 9, 172, 247, 87, 147, 84, 113, 112, 47], rfl⟩

-- A request with a code of zeros.
def sampleRequest (createdAt expiresAt : UInt64) : DeviceLinkRequest :=
  ofCode sampleSha256 (.fill 16 0) "phone" (.fill 32 0) (.fill 32 0) createdAt expiresAt (.fill 16 0)

def sampleCode : String := "0000-0000-0000-0000-0000-0000-0000-0000"

def sampleReads (request : DeviceLinkRequest) (bytes : Bytes) : Option RequestWire :=
  if bytes = request.toWire.bytes then some request.toWire else none

def sampleApproval (now expiresAt : UInt64) : DeviceLinkApproval where
  requestId   := .fill 16 0
  certificate := (AccountRootKey.mk (.fill 32 1)).signedCertificate .sample "phone" (.fill 32 0)
    (.fill 32 0) now expiresAt

theorem sampleRequest_parse {createdAt expiresAt : UInt64} (h : createdAt < expiresAt) :
    parse sampleSha256 (sampleReads (sampleRequest createdAt expiresAt))
      (sampleRequest createdAt expiresAt).encode = .ok (sampleRequest createdAt expiresAt) :=
  parse_encode (if_pos rfl) rfl h

theorem sampleRequest_approve {createdAt expiresAt now : UInt64} (h : now < expiresAt) :
    (sampleRequest createdAt expiresAt).approve sampleSha256 .sample (fun c => [c]) sampleCode
      ⟨.fill 32 1⟩ now = .ok (sampleApproval now expiresAt) := by
  have hcode : (normalizeCode (fun c => [c]) sampleCode).bind Bytes.fromHex =
      some (ByteBlock.fill 16 0).val := by decide
  have hissue : (AccountRootKey.mk (.fill 32 1)).issueDeviceForPublicKey .sample "phone"
      (.fill 32 0) (.fill 32 0) now expiresAt = .ok (sampleApproval now expiresAt).certificate := by
    have hid : Identity.validateDeviceId "phone" = .ok "phone" := by decide
    have hn : ¬expiresAt ≤ now := UInt64.not_le.mpr h
    simp [AccountRootKey.issueDeviceForPublicKey, hid, hn, pure, Except.pure, bind, Except.bind,
      sampleApproval]
  have hnow : ¬now ≥ (sampleRequest createdAt expiresAt).expiresAt := UInt64.not_le.mpr h
  rw [approve, if_neg hnow, hcode]
  simp only
  rw [if_neg (by simp [sampleRequest, ofCode, ByteBlock.fill, codeBytes])]
  simp only [sampleRequest, ofCode, hissue]
  rfl

-- A request that names a creation time in the future and no end is approved.
set_option maxRecDepth 10000 in
theorem crafted_not_isBounded :
    let request := sampleRequest 2000000000 (2 ^ 64 - 1)
    parse sampleSha256 (sampleReads request) request.encode = .ok request ∧
      request.approve sampleSha256 .sample (fun c => [c]) sampleCode ⟨.fill 32 1⟩ 1700000100 =
        .ok (sampleApproval 1700000100 (2 ^ 64 - 1)) ∧
      ¬request.IsBounded (sampleApproval 1700000100 (2 ^ 64 - 1)) 1700000100 := by
  refine ⟨sampleRequest_parse (by decide), sampleRequest_approve (by decide), ?_⟩
  intro h
  exact absurd h.created (by decide)

theorem sampleRequest_isBounded_iff :
    (sampleRequest 1700000000 1700000600).IsBounded (sampleApproval 1700000100 1700000600)
        1700000100 ↔
      (sampleRequest 1700000000 1700000600).createdAt ≤ 1700000100 ∧
        (sampleRequest 1700000000 1700000600).lifetime ≤ maxDeviceLinkTtl :=
  isBounded_iff (sampleRequest_parse (by decide)) (sampleRequest_approve (by decide))

end DeviceLinkRequest
