import AnotherDimension.Library.Text

-- Device certificates and their revocation, signed by the root key of an account.

-- What `ed25519_dalek` does. A public key that is not a point verifies nothing.
structure Ed25519 where
  publicKey : (seed : ByteBlock 32) → ByteBlock 32
  sign      : (seed : ByteBlock 32) → (message : Bytes) → ByteBlock 64
  verify    : (publicKey : ByteBlock 32) → (message : Bytes) → (signature : ByteBlock 64) → Bool

inductive IdentityError
  | randomnessUnavailable
  | invalidSeed
  | invalidDeviceId
  | invalidDisplayName
  | invalidRelayOrigin
  | invalidCertificate
  | expiredCertificate
  | certificateNotYetValid
  | deviceAlreadyRevoked
  deriving DecidableEq, Repr

namespace Identity

def maxDeviceIdBytes : Nat := 64

def domainCertificate : Bytes := Bytes.utf8 "another-dimension/daemon/device-certificate/v1"

def domainRevocation : Bytes := Bytes.utf8 "another-dimension/daemon/device-revocation/v1"

def validateDeviceId (value : String) : Except IdentityError String :=
  if value.isEmpty ∨ value.utf8ByteSize > maxDeviceIdBytes ∨
      ¬value.toList.all fun c => Text.isAsciiAlphanumeric c || c = '-' || c = '_' then
    .error .invalidDeviceId
  else
    .ok value

def accountIdFromPublic (publicKey : ByteBlock 32) : String :=
  "ad1pk" ++ Bytes.toHex publicKey.val

-- What `append_bytes` writes.
def block (value : Bytes) : Bytes :=
  Bytes.ofNat 4 value.length ++ value

def certificateMessage (account : ByteBlock 32) (deviceId : String) (device package : ByteBlock 32)
    (issued expires : UInt64) : Bytes :=
  domainCertificate ++ block account.val ++ block (Bytes.utf8 deviceId) ++ block device.val ++
    block package.val ++ Bytes.ofNat 8 issued.toNat ++ Bytes.ofNat 8 expires.toNat

def revocationMessage (account : ByteBlock 32) (deviceId : String) (device : ByteBlock 32)
    (revokedAt : UInt64) : Bytes :=
  domainRevocation ++ block account.val ++ block (Bytes.utf8 deviceId) ++ block device.val ++
    Bytes.ofNat 8 revokedAt.toNat

end Identity

open Identity

structure DeviceCertificate where
  accountPublicKey    : ByteBlock 32
  deviceId            : String
  devicePublicKey     : ByteBlock 32
  protocolPackageHash : ByteBlock 32
  issuedAt            : UInt64
  expiresAt           : UInt64
  signature           : ByteBlock 64
  revoked             : Bool
  deriving DecidableEq

structure DeviceRevocation where
  accountPublicKey : ByteBlock 32
  deviceId         : String
  devicePublicKey  : ByteBlock 32
  revokedAt        : UInt64
  signature        : ByteBlock 64
  deriving DecidableEq

variable (ed25519 : Ed25519)

namespace DeviceRevocation

def verify (revocation : DeviceRevocation) (certificate : DeviceCertificate) :
    Except IdentityError Unit :=
  if certificate.accountPublicKey ≠ revocation.accountPublicKey ∨
      certificate.deviceId ≠ revocation.deviceId ∨
      certificate.devicePublicKey ≠ revocation.devicePublicKey ∨
      ¬(validateDeviceId revocation.deviceId).isOk then
    .error .invalidCertificate
  else
    let message := revocationMessage revocation.accountPublicKey revocation.deviceId
      revocation.devicePublicKey revocation.revokedAt
    if ed25519.verify revocation.accountPublicKey message revocation.signature then
      .ok ()
    else
      .error .invalidCertificate

end DeviceRevocation

namespace DeviceCertificate

variable (certificate : DeviceCertificate)

def message : Bytes :=
  certificateMessage certificate.accountPublicKey certificate.deviceId certificate.devicePublicKey
    certificate.protocolPackageHash certificate.issuedAt certificate.expiresAt

def verifySignature : Except IdentityError Unit :=
  if certificate.expiresAt ≤ certificate.issuedAt ∨
      ¬(validateDeviceId certificate.deviceId).isOk then
    .error .invalidCertificate
  else if ed25519.verify certificate.accountPublicKey certificate.message certificate.signature then
    .ok ()
  else
    .error .invalidCertificate

def verify (now : UInt64) : Except IdentityError Unit :=
  if certificate.revoked then
    .error .invalidCertificate
  else if now < certificate.issuedAt then
    .error .certificateNotYetValid
  else if certificate.expiresAt ≤ now then
    .error .expiredCertificate
  else if certificate.expiresAt ≤ certificate.issuedAt ∨
      ¬(validateDeviceId certificate.deviceId).isOk then
    .error .invalidCertificate
  else
    certificate.verifySignature ed25519

-- The certificate's time does not matter for its revocation.
def applyRevocation (revocation : DeviceRevocation) : Except IdentityError DeviceCertificate := do
  certificate.verifySignature ed25519
  revocation.verify ed25519 certificate
  return { certificate with revoked := true }

end DeviceCertificate

-- The root key of an account, by its seed.
structure AccountRootKey where
  seed : ByteBlock 32

namespace AccountRootKey

variable (root : AccountRootKey)

def publicKey : ByteBlock 32 :=
  ed25519.publicKey root.seed

def revokeDevice (certificate : DeviceCertificate) (revokedAt : UInt64) :
    Except IdentityError DeviceRevocation :=
  if certificate.revoked ∨ certificate.accountPublicKey ≠ root.publicKey ed25519 then
    .error .deviceAlreadyRevoked
  else
    .ok {
      accountPublicKey := root.publicKey ed25519
      deviceId         := certificate.deviceId
      devicePublicKey  := certificate.devicePublicKey
      revokedAt        := revokedAt
      signature        := ed25519.sign root.seed <| revocationMessage (root.publicKey ed25519)
        certificate.deviceId certificate.devicePublicKey revokedAt
    }

end AccountRootKey
