import AnotherDimension.Identity.Certificate
import AnotherDimension.Library.Blobs

-- The identity record of a profile: of the device that holds the account's root key, or of a device
-- that was linked to it.

structure IdentitySummary where
  rootSeed         : Option (ByteBlock 32)
  deviceSeed       : ByteBlock 32
  accountPublicKey : ByteBlock 32
  accountId        : String
  deviceId         : String
  displayName      : String
  deriving DecidableEq

namespace IdentitySummary

open Identity

variable (ed25519 : Ed25519)

def identityRecordMagic : Bytes := Bytes.utf8 "ADIDENTITY1" ++ [0, 0]

def linkedIdentityRecordMagic : Bytes := Bytes.utf8 "ADIDENTITY2" ++ [0, 0]

def encode (magic : Bytes) (key deviceSeed : ByteBlock 32) (deviceId displayName : String) : Bytes :=
  magic ++ Bytes.blob key.val ++ Bytes.blob deviceSeed.val ++ Bytes.blob (Bytes.utf8 deviceId) ++
    Bytes.blob (Bytes.utf8 displayName)

def encodeIdentity (rootSeed deviceSeed : ByteBlock 32) (deviceId displayName : String) : Bytes :=
  encode identityRecordMagic rootSeed deviceSeed deviceId displayName

def encodeLinkedIdentity (accountPublicKey deviceSeed : ByteBlock 32)
    (deviceId displayName : String) : Bytes :=
  encode linkedIdentityRecordMagic accountPublicKey deviceSeed deviceId displayName

-- The fields behind the magic bytes: a key, the seed of the device, its id and the display name.
def decodeFields (bytes : Bytes) : Option (ByteBlock 32 × ByteBlock 32 × String × String) := do
  let (key, offset)         ← Bytes.readBlob bytes identityRecordMagic.length
  let (deviceSeed, offset)  ← Bytes.readBlob bytes offset
  let (deviceId, offset)    ← Bytes.readBlob bytes offset
  let (displayName, stop)   ← Bytes.readBlob bytes offset
  if h : stop = bytes.length ∧ key.length = 32 ∧ deviceSeed.length = 32 then
    return (⟨key, h.right.left⟩, ⟨deviceSeed, h.right.right⟩, ← Bytes.fromUtf8 deviceId,
      ← Bytes.fromUtf8 displayName)
  else
    none

def decode (bytes : Bytes) : Option IdentitySummary :=
  if bytes.length < identityRecordMagic.length then
    none
  else if bytes.take identityRecordMagic.length = identityRecordMagic then do
    let (rootSeed, deviceSeed, deviceId, displayName) ← decodeFields bytes
    let root : AccountRootKey := ⟨rootSeed⟩
    return {
      rootSeed, deviceSeed, deviceId, displayName
      accountPublicKey := root.publicKey ed25519
      accountId        := accountIdFromPublic (root.publicKey ed25519)
    }
  else if bytes.take linkedIdentityRecordMagic.length ≠ linkedIdentityRecordMagic then
    none
  else do
    let (accountPublicKey, deviceSeed, deviceId, displayName) ← decodeFields bytes
    return {
      accountPublicKey, deviceSeed, deviceId, displayName
      rootSeed  := none
      accountId := accountIdFromPublic accountPublicKey
    }

end IdentitySummary
