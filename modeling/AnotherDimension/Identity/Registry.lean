import AnotherDimension.Identity.Certificate
import AnotherDimension.Library.Decode

-- The devices of an account, and the registry as one JSON record of the encrypted store.

inductive DeviceState
  | provisioning
  | active
  | revoked
  deriving DecidableEq, Repr

inductive DeviceChangeKind
  | registered
  | revoked
  deriving DecidableEq, Repr

structure DeviceChangeEvent where
  deviceId   : String
  kind       : DeviceChangeKind
  happenedAt : UInt64
  deriving DecidableEq, Repr

structure DeviceRecord where
  certificate : DeviceCertificate
  state       : DeviceState
  revokedAt   : Option UInt64
  deriving DecidableEq

structure DeviceRegistry where
  accountPublicKey : ByteBlock 32
  devices          : Std.ExtTreeMap String DeviceRecord
  events           : List DeviceChangeEvent

inductive DeviceRegistryError
  | identity (error : IdentityError)
  | wrongAccount
  | duplicateDevice
  | unknownDevice
  | deviceNotActive
  | corrupt
  deriving DecidableEq, Repr

-- The registry as it is written and read; nothing about the lengths of its keys is known yet.
structure DeviceRecordWire where
  accountPublicKey    : Bytes
  deviceId            : String
  devicePublicKey     : Bytes
  protocolPackageHash : Bytes
  issuedAt            : UInt64
  expiresAt           : UInt64
  signature           : Bytes
  revoked             : Bool
  state               : DeviceState
  revokedAt           : Option UInt64
  deriving DecidableEq, Repr

structure RegistryWire where
  accountPublicKey : Bytes
  devices          : List DeviceRecordWire
  events           : List DeviceChangeEvent
  deriving DecidableEq, Repr

namespace DeviceState

def name : DeviceState → String
  | provisioning => "provisioning"
  | active       => "active"
  | revoked      => "revoked"

end DeviceState

namespace DeviceChangeKind

def name : DeviceChangeKind → String
  | registered => "registered"
  | revoked    => "revoked"

end DeviceChangeKind

namespace RegistryWire

-- `Vec<u8>`
def bytesJson (bytes : Bytes) : String :=
  Json.array <| bytes.map fun byte => Json.number byte.toUInt64

def eventJson (event : DeviceChangeEvent) : String :=
  Json.object [
    ("device_id", Json.string event.deviceId),
    ("kind", Json.string event.kind.name),
    ("at", Json.number event.happenedAt)
  ]

def deviceJson (device : DeviceRecordWire) : String :=
  Json.object [
    ("account_public_key", bytesJson device.accountPublicKey),
    ("device_id", Json.string device.deviceId),
    ("device_public_key", bytesJson device.devicePublicKey),
    ("protocol_package_hash", bytesJson device.protocolPackageHash),
    ("issued_at", Json.number device.issuedAt),
    ("expires_at", Json.number device.expiresAt),
    ("signature", bytesJson device.signature),
    ("revoked", Json.bool device.revoked),
    ("state", Json.string device.state.name),
    ("revoked_at", Json.option Json.number device.revokedAt)
  ]

def bytes (wire : RegistryWire) : Bytes :=
  Bytes.utf8 <| Json.object [
    ("account_public_key", bytesJson wire.accountPublicKey),
    ("devices", Json.array <| wire.devices.map deviceJson),
    ("events", Json.array <| wire.events.map eventJson)
  ]

end RegistryWire

-- `Vec<u8>::try_into::<[u8; n]>`
def ByteBlock.ofBytes (n : Nat) (bytes : Bytes) : Option (ByteBlock n) :=
  if h : bytes.length = n then some ⟨bytes, h⟩ else none

namespace DeviceRecord

def toWire (record : DeviceRecord) : DeviceRecordWire where
  accountPublicKey    := record.certificate.accountPublicKey.val
  deviceId            := record.certificate.deviceId
  devicePublicKey     := record.certificate.devicePublicKey.val
  protocolPackageHash := record.certificate.protocolPackageHash.val
  issuedAt            := record.certificate.issuedAt
  expiresAt           := record.certificate.expiresAt
  signature           := record.certificate.signature.val
  revoked             := record.certificate.revoked
  state               := record.state
  revokedAt           := record.revokedAt

end DeviceRecord

namespace DeviceRecordWire

-- The certificate of an entry, when its parts have the right lengths.
def certificate (item : DeviceRecordWire) : Option DeviceCertificate := do
  return {
    accountPublicKey    := ← ByteBlock.ofBytes 32 item.accountPublicKey
    deviceId            := item.deviceId
    devicePublicKey     := ← ByteBlock.ofBytes 32 item.devicePublicKey
    protocolPackageHash := ← ByteBlock.ofBytes 32 item.protocolPackageHash
    issuedAt            := item.issuedAt
    expiresAt           := item.expiresAt
    signature           := ← ByteBlock.ofBytes 64 item.signature
    revoked             := item.revoked
  }

end DeviceRecordWire

namespace DeviceRegistry

variable (ed25519 : Ed25519) (registry : DeviceRegistry)

def maxDeviceEvents : Nat := 64

def newForPublicKey (accountPublicKey : ByteBlock 32) : DeviceRegistry where
  accountPublicKey := accountPublicKey
  devices          := ∅
  events           := []

def toWire : RegistryWire where
  accountPublicKey := registry.accountPublicKey.val
  devices          := registry.devices.toList.map fun e => e.snd.toWire
  events           := registry.events

def encode : Bytes :=
  registry.toWire.bytes

-- One turn of the loop of `decode`.
def decodeDevice (accountPublicKey : ByteBlock 32) (devices : Std.ExtTreeMap String DeviceRecord)
    (item : DeviceRecordWire) :
    Except DeviceRegistryError (Std.ExtTreeMap String DeviceRecord) :=
  match item.certificate with
  | none             => .error .corrupt
  | some certificate =>
    match certificate.verifySignature ed25519 with
    | .error e => .error (.identity e)
    | .ok ()   =>
      if certificate.accountPublicKey ≠ accountPublicKey ∨
          devices.contains certificate.deviceId ∨
          ¬(certificate.verifySignature ed25519).isOk ∨
          item.state = .provisioning ∨
          certificate.revoked ≠ decide (item.state = .revoked) ∨
          certificate.revoked ≠ item.revokedAt.isSome then
        .error .corrupt
      else
        .ok <| devices.insert certificate.deviceId
          { certificate, state := item.state, revokedAt := item.revokedAt }

def ofWire (wire : RegistryWire) : Except DeviceRegistryError DeviceRegistry :=
  match ByteBlock.ofBytes 32 wire.accountPublicKey with
  | none                  => .error .corrupt
  | some accountPublicKey =>
    match wire.devices.foldlM (decodeDevice ed25519 accountPublicKey) ∅ with
    | .error e    => .error e
    | .ok devices =>
      if wire.events.length > maxDeviceEvents ∨ wire.events.any (·.deviceId.isEmpty) then
        .error .corrupt
      else
        .ok { accountPublicKey, devices, events := wire.events }

-- `fromSlice` is what `serde_json` reads.
def decode (fromSlice : Bytes → Option RegistryWire) (bytes : Bytes) :
    Except DeviceRegistryError DeviceRegistry :=
  (fromSlice bytes).elim (.error .corrupt) (ofWire ed25519)

-- The oldest events are dropped.
def recordEvent (event : DeviceChangeEvent) : DeviceRegistry :=
  let events := registry.events ++ [event]
  { registry with events := events.drop (events.length - maxDeviceEvents) }

def register (certificate : DeviceCertificate) (now : UInt64) :
    Except DeviceRegistryError DeviceRegistry :=
  if certificate.accountPublicKey ≠ registry.accountPublicKey then
    .error .wrongAccount
  else
    match certificate.verify ed25519 now with
    | .error e => .error (.identity e)
    | .ok ()   =>
      if registry.devices.contains certificate.deviceId then
        .error .duplicateDevice
      else
        let record := { certificate, state := .active, revokedAt := none }
        .ok <| { registry with
          devices := registry.devices.insert certificate.deviceId record }.recordEvent
            { deviceId := certificate.deviceId, kind := .registered, happenedAt := now }

def revoke (root : AccountRootKey) (deviceId : String) (revokedAt : UInt64) :
    Except DeviceRegistryError (DeviceRevocation × DeviceRegistry) :=
  if root.publicKey ed25519 ≠ registry.accountPublicKey then
    .error .wrongAccount
  else
    match registry.devices[deviceId]? with
    | none        => .error .unknownDevice
    | some record =>
      if record.state ≠ .active then
        .error .deviceNotActive
      else
        match root.revokeDevice ed25519 record.certificate revokedAt with
        | .error e       => .error (.identity e)
        | .ok revocation =>
          match record.certificate.applyRevocation ed25519 revocation with
          | .error e        => .error (.identity e)
          | .ok certificate =>
            let record := { certificate, state := .revoked, revokedAt := some revokedAt }
            .ok (revocation, { registry with
              devices := registry.devices.insert deviceId record }.recordEvent
                { deviceId, kind := .revoked, happenedAt := revokedAt })

def authorize (deviceId : String) (now : UInt64) : Except DeviceRegistryError Unit :=
  match registry.devices[deviceId]? with
  | none        => .error .unknownDevice
  | some record =>
    if record.state ≠ .active then
      .error .deviceNotActive
    else
      (record.certificate.verify ed25519 now).mapError .identity

end DeviceRegistry
