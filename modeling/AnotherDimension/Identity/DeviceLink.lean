import AnotherDimension.Identity.Registry
import AnotherDimension.Library.Chunks
import AnotherDimension.Library.Integers
import AnotherDimension.Library.Lines

-- Requests of new devices to be linked to an account, and what the account's root key approves.

inductive DeviceLinkError
  | randomnessUnavailable
  | invalidRequest
  | invalidCode
  | expired
  | invalidApproval
  | identity (error : IdentityError)
  deriving DecidableEq, Repr

structure RequestWire where
  version             : UInt16
  requestId           : String
  deviceId            : String
  devicePublicKey     : String
  protocolPackageHash : String
  createdAt           : UInt64
  expiresAt           : UInt64
  requestDigest       : String
  codeHash            : String
  deriving DecidableEq, Repr

structure ApprovalWire where
  version             : UInt16
  requestId           : String
  accountPublicKey    : String
  deviceId            : String
  devicePublicKey     : String
  protocolPackageHash : String
  issuedAt            : UInt64
  expiresAt           : UInt64
  signature           : String
  deriving DecidableEq, Repr

structure DeviceLinkRequest where
  requestId           : ByteBlock 16
  deviceId            : String
  devicePublicKey     : ByteBlock 32
  protocolPackageHash : ByteBlock 32
  createdAt           : UInt64
  expiresAt           : UInt64
  requestDigest       : ByteBlock 32
  codeHash            : ByteBlock 32
  deriving DecidableEq

-- The seed stays on the device that made the request.
structure PendingDeviceKey where
  seed    : ByteBlock 32
  request : DeviceLinkRequest
  deriving DecidableEq

structure DeviceLinkApproval where
  requestId   : ByteBlock 16
  certificate : DeviceCertificate
  deriving DecidableEq

namespace RequestWire

def bytes (wire : RequestWire) : Bytes :=
  Bytes.utf8 <| Json.object [
    ("version", Json.number wire.version.toUInt64),
    ("request_id", Json.string wire.requestId),
    ("device_id", Json.string wire.deviceId),
    ("device_public_key", Json.string wire.devicePublicKey),
    ("protocol_package_hash", Json.string wire.protocolPackageHash),
    ("created_at", Json.number wire.createdAt),
    ("expires_at", Json.number wire.expiresAt),
    ("request_digest", Json.string wire.requestDigest),
    ("code_hash", Json.string wire.codeHash)
  ]

end RequestWire

namespace ApprovalWire

def bytes (wire : ApprovalWire) : Bytes :=
  Bytes.utf8 <| Json.object [
    ("version", Json.number wire.version.toUInt64),
    ("request_id", Json.string wire.requestId),
    ("account_public_key", Json.string wire.accountPublicKey),
    ("device_id", Json.string wire.deviceId),
    ("device_public_key", Json.string wire.devicePublicKey),
    ("protocol_package_hash", Json.string wire.protocolPackageHash),
    ("issued_at", Json.number wire.issuedAt),
    ("expires_at", Json.number wire.expiresAt),
    ("signature", Json.string wire.signature)
  ]

end ApprovalWire

namespace DeviceLink

open Identity

def requestVersion : UInt16 := 1

def requestPrefix : String := "ADDLINKREQ1."

def approvalPrefix : String := "ADDLINKAPP1."

def codeBytes : Nat := 16

def maxDeviceLinkTtl : UInt64 := 10 * 60

variable (sha256 : Bytes → ByteBlock 32)

def digestRequest (requestId : ByteBlock 16) (deviceId : String)
    (devicePublicKey protocolPackageHash : ByteBlock 32) (createdAt expiresAt : UInt64) :
    ByteBlock 32 :=
  sha256 <| Bytes.utf8 "another-dimension/device-link-request/v1\x00" ++ block requestId.val ++
    block (Bytes.utf8 deviceId) ++ block devicePublicKey.val ++ block protocolPackageHash.val ++
    Bytes.ofNat 8 createdAt.toNat ++ Bytes.ofNat 8 expiresAt.toNat

def hashCode (code : Bytes) (requestDigest : ByteBlock 32) : ByteBlock 32 :=
  sha256 <| Bytes.utf8 "another-dimension/device-link-code/v1\x00" ++ block code ++
    block requestDigest.val

-- `toUppercase` is `char::to_uppercase`.
def normalizeCode (toUppercase : Char → List Char) (value : String) : Option String :=
  let value := (value.toList.filter fun c => c ≠ '-' ∧ ¬Text.isWhitespace c).flatMap toUppercase
  if String.utf8Len value = codeBytes * 2 ∧ value.all fun c => (Bytes.hexValue c).isSome then
    some (.ofList value)
  else
    none

def formatCode (code : ByteBlock 16) : String :=
  .ofList <| (['-'].intercalate <| (Bytes.toHex code.val).toList.chunks 4).map Text.toAsciiUppercase

def fixedHex (n : Nat) (value : String) : Except DeviceLinkError (ByteBlock n) :=
  match (Bytes.fromHex value).bind (ByteBlock.ofBytes n) with
  | none       => .error .invalidRequest
  | some block => .ok block

end DeviceLink

open DeviceLink

namespace AccountRootKey

variable (ed25519 : Ed25519) (root : AccountRootKey)

-- `DeviceCertificate::signed`
def signedCertificate (deviceId : String) (devicePublicKey protocolPackageHash : ByteBlock 32)
    (issuedAt expiresAt : UInt64) : DeviceCertificate where
  accountPublicKey    := root.publicKey ed25519
  deviceId            := deviceId
  devicePublicKey     := devicePublicKey
  protocolPackageHash := protocolPackageHash
  issuedAt            := issuedAt
  expiresAt           := expiresAt
  signature           := ed25519.sign root.seed <| Identity.certificateMessage
    (root.publicKey ed25519) deviceId devicePublicKey protocolPackageHash issuedAt expiresAt
  revoked             := false

def issueDeviceForPublicKey (deviceId : String) (devicePublicKey protocolPackageHash : ByteBlock 32)
    (issuedAt expiresAt : UInt64) : Except IdentityError DeviceCertificate := do
  let deviceId ← Identity.validateDeviceId deviceId
  if expiresAt ≤ issuedAt then
    throw .invalidCertificate
  return root.signedCertificate ed25519 deviceId devicePublicKey protocolPackageHash issuedAt
    expiresAt

end AccountRootKey

namespace DeviceLinkRequest

variable (sha256 : Bytes → ByteBlock 32)

-- A request whose digest and code hash are those of its other parts.
def ofCode (requestId : ByteBlock 16) (deviceId : String)
    (devicePublicKey protocolPackageHash : ByteBlock 32) (createdAt expiresAt : UInt64)
    (code : ByteBlock 16) : DeviceLinkRequest :=
  let requestDigest :=
    digestRequest sha256 requestId deviceId devicePublicKey protocolPackageHash createdAt expiresAt
  { requestId, deviceId, devicePublicKey, protocolPackageHash, createdAt, expiresAt, requestDigest,
    codeHash := hashCode sha256 code.val requestDigest }

def toWire (request : DeviceLinkRequest) : RequestWire where
  version             := requestVersion
  requestId           := Bytes.toHex request.requestId.val
  deviceId            := request.deviceId
  devicePublicKey     := Bytes.toHex request.devicePublicKey.val
  protocolPackageHash := Bytes.toHex request.protocolPackageHash.val
  createdAt           := request.createdAt
  expiresAt           := request.expiresAt
  requestDigest       := Bytes.toHex request.requestDigest.val
  codeHash            := Bytes.toHex request.codeHash.val

def encode (request : DeviceLinkRequest) : String :=
  requestPrefix ++ Bytes.toHex request.toWire.bytes

def ofWire (wire : RequestWire) : Except DeviceLinkError DeviceLinkRequest := do
  if wire.version ≠ requestVersion then
    throw .invalidRequest
  let requestId ← fixedHex 16 wire.requestId
  let devicePublicKey ← fixedHex 32 wire.devicePublicKey
  let protocolPackageHash ← fixedHex 32 wire.protocolPackageHash
  let requestDigest ← fixedHex 32 wire.requestDigest
  let codeHash ← fixedHex 32 wire.codeHash
  let expectedDigest := digestRequest sha256 requestId wire.deviceId devicePublicKey
    protocolPackageHash wire.createdAt wire.expiresAt
  if expectedDigest ≠ requestDigest ∨ wire.expiresAt ≤ wire.createdAt then
    throw .invalidRequest
  return {
    requestId           := requestId
    deviceId            := wire.deviceId
    devicePublicKey     := devicePublicKey
    protocolPackageHash := protocolPackageHash
    createdAt           := wire.createdAt
    expiresAt           := wire.expiresAt
    requestDigest       := requestDigest
    codeHash            := codeHash
  }

-- `fromSlice` is what `serde_json` reads.
def parse (fromSlice : Bytes → Option RequestWire) (value : String) :
    Except DeviceLinkError DeviceLinkRequest :=
  match (Text.stripPrefix requestPrefix value).bind Bytes.fromHex >>= fromSlice with
  | none      => .error .invalidRequest
  | some wire => ofWire sha256 wire

def approve (ed25519 : Ed25519) (toUppercase : Char → List Char) (request : DeviceLinkRequest)
    (code : String) (root : AccountRootKey) (now : UInt64) :
    Except DeviceLinkError DeviceLinkApproval :=
  if now ≥ request.expiresAt then
    .error .expired
  else
    match (normalizeCode toUppercase code).bind Bytes.fromHex with
    | none      => .error .invalidCode
    | some code =>
      if code.length ≠ codeBytes ∨ hashCode sha256 code request.requestDigest ≠ request.codeHash then
        .error .invalidCode
      else
        match root.issueDeviceForPublicKey ed25519 request.deviceId request.devicePublicKey
            request.protocolPackageHash now request.expiresAt with
        | .error e        => .error (.identity e)
        | .ok certificate => .ok { requestId := request.requestId, certificate }

end DeviceLinkRequest

namespace PendingDeviceKey

-- `seed`, `requestId` and `code` are drawn in this order; `none` is a draw that fails.
def create (sha256 : Bytes → ByteBlock 32) (ed25519 : Ed25519) (seed : Option (ByteBlock 32))
    (requestId code : Option (ByteBlock 16)) (deviceId : String) (protocolPackageHash : ByteBlock 32)
    (now : UInt64) : Except DeviceLinkError (PendingDeviceKey × String) :=
  match seed, requestId, code with
  | some seed, some requestId, some code =>
    let request := DeviceLinkRequest.ofCode sha256 requestId deviceId (ed25519.publicKey seed)
      protocolPackageHash now (now.saturatingAdd maxDeviceLinkTtl) code
    .ok ({ seed, request }, formatCode code)
  | _, _, _                              => .error .randomnessUnavailable

end PendingDeviceKey

namespace DeviceLinkApproval

def toWire (approval : DeviceLinkApproval) : ApprovalWire where
  version             := requestVersion
  requestId           := Bytes.toHex approval.requestId.val
  accountPublicKey    := Bytes.toHex approval.certificate.accountPublicKey.val
  deviceId            := approval.certificate.deviceId
  devicePublicKey     := Bytes.toHex approval.certificate.devicePublicKey.val
  protocolPackageHash := Bytes.toHex approval.certificate.protocolPackageHash.val
  issuedAt            := approval.certificate.issuedAt
  expiresAt           := approval.certificate.expiresAt
  signature           := Bytes.toHex approval.certificate.signature.val

def encode (approval : DeviceLinkApproval) : String :=
  approvalPrefix ++ Bytes.toHex approval.toWire.bytes

end DeviceLinkApproval

inductive DeviceActionError
  | currentDevice
  | rootUnavailable
  | registry (error : DeviceRegistryError)
  | link (error : DeviceLinkError)
  | storage
  deriving DecidableEq, Repr

namespace DeviceRegistry

-- `approve_device_link`. `stored` is what the write of the registry's record returns; after a failed
-- one the registry is read back from what was encoded before.
def approveDeviceLink (sha256 : Bytes → ByteBlock 32) (ed25519 : Ed25519)
    (toUppercase : Char → List Char) (fromSlice : Bytes → Option RegistryWire)
    (root : Option AccountRootKey) (registry : DeviceRegistry) (request : DeviceLinkRequest)
    (code : String) (now : UInt64) (stored : Bool) :
    Except DeviceActionError DeviceLinkApproval × DeviceRegistry :=
  match root with
  | none      => (.error .rootUnavailable, registry)
  | some root =>
    match request.approve sha256 ed25519 toUppercase code root now with
    | .error e     => (.error (.link e), registry)
    | .ok approval =>
      match registry.register ed25519 approval.certificate now with
      | .error e      => (.error (.registry e), registry)
      | .ok registry' =>
        if stored then
          (.ok approval, registry')
        else
          match decode ed25519 fromSlice registry.encode with
          | .error _        => (.error (.registry .corrupt), registry')
          | .ok registry    => (.error .storage, registry)

end DeviceRegistry
