import AnotherDimension.Pairing.Session

-- The pairing as one JSON record of the encrypted store.

open FileProgram Storage

def PairingState.name : PairingState → String
  | idle          => "Idle"
  | inviteCreated => "InviteCreated"
  | verified      => "Verified"
  | established   => "Established"
  | rejected      => "Rejected"

def VerifiedInvite.toJson (peer : VerifiedInvite) : String :=
  Json.object [
    ("account_id", Json.string peer.accountId),
    ("device_id", Json.string peer.deviceId),
    ("expires_at", Json.number peer.expiresAt),
    ("relay_origin", Json.string peer.relayOrigin),
    ("inbox_url", Json.option Json.string peer.inboxUrl),
    ("conversation_id", Json.option Json.string peer.conversationId)
  ]

structure PairingSnapshot where
  schemaVersion  : UInt16
  state          : PairingState
  peer           : Option VerifiedInvite
  safetyVerified : Bool
  deriving DecidableEq, Repr

namespace PairingSnapshot

def pairingSnapshotVersion : UInt16 := 1

def toJson (snapshot : PairingSnapshot) : String :=
  Json.object [
    ("schema_version", Json.number snapshot.schemaVersion.toUInt64),
    ("state", Json.string snapshot.state.name),
    ("peer", Json.option VerifiedInvite.toJson snapshot.peer),
    ("safety_verified", Json.bool snapshot.safetyVerified)
  ]

-- The state, the peer and the flag fit together.
def validShape (snapshot : PairingSnapshot) : Bool :=
  let validStateShape :=
    match snapshot.state with
    | .idle | .inviteCreated   => snapshot.peer.isNone
    | .verified | .established => snapshot.peer.any validVerifiedPeer
    | .rejected                => snapshot.peer.isNone
  validStateShape && !(snapshot.safetyVerified &&
    !(snapshot.state = .verified || snapshot.state = .established))

end PairingSnapshot

namespace PairingSession

open PairingSnapshot

def snapshot (session : PairingSession) : PairingSnapshot where
  schemaVersion  := pairingSnapshotVersion
  state          := session.state
  peer           := session.peer
  safetyVerified := session.safetyVerified

def pairingKey : RecordKey :=
  (.contact, "pairing/state")

def encodedBytes (session : PairingSession) : Bytes :=
  Bytes.utf8 session.snapshot.toJson

def persist (session : PairingSession) (aead : Aead) (store : EncryptedStore)
    (nonce : Option Nonce) : FileProgram (Except StorageError Unit × EncryptedStore) :=
  store.put aead nonce pairingKey.fst pairingKey.snd session.encodedBytes

-- `fromSlice` is what `serde_json` reads.
def restore (fromSlice : Bytes → Option PairingSnapshot) (localAccountId localDeviceId : String)
    (store : EncryptedStore) : Except StorageError PairingSession :=
  let session := new localAccountId localDeviceId
  match store.get pairingKey.fst pairingKey.snd with
  | none       => .ok session
  | some bytes =>
    match fromSlice bytes with
    | none          => .error .corruptStore
    | some snapshot =>
      if snapshot.schemaVersion > pairingSnapshotVersion then
        .error .corruptStore
      else if !snapshot.validShape then
        .error .corruptStore
      else
        .ok { session with
          state          := snapshot.state
          peer           := snapshot.peer
          safetyVerified := snapshot.safetyVerified }

end PairingSession
