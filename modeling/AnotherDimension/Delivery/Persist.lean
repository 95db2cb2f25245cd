import AnotherDimension.Delivery.Ledger

-- The ledger as one JSON record of the encrypted store.

open FileProgram Storage

namespace DeliveryState

def name : DeliveryState → String
  | draft             => "Draft"
  | encrypted         => "Encrypted"
  | queued            => "Queued"
  | relayAccepted     => "RelayAccepted"
  | recipientReceived => "RecipientReceived"
  | decrypted         => "Decrypted"
  | retryable         => "Retryable"
  | failed            => "Failed"
  | cancelled         => "Cancelled"

end DeliveryState

namespace DeliveryRecord

def toJson (record : DeliveryRecord) : String :=
  Json.object [
    ("digest", Json.string record.digest),
    ("state", Json.string record.state.name),
    ("attempts", Json.number record.attempts.toUInt64),
    ("next_retry_at", Json.option Json.number record.nextRetryAt),
    ("relay_id", Json.option Json.string record.relayId),
    ("wire", Json.option Json.string record.wire),
    ("expires_at", Json.option Json.number record.expiresAt),
    ("destination", Json.option Json.string record.destination)
  ]

def maxDigestBytes : Nat := 128

def maxRelayIdBytes : Nat := 256

def maxWireBytes : Nat := 256 * 1024

def maxDestinationBytes : Nat := 2 * 1024

-- `is_some_and(|value| value.is_empty() || value.len() > limit)` does not hold.
def validText (limit : Nat) (value : Option String) : Bool :=
  value.all fun text => !text.isEmpty && text.utf8ByteSize ≤ limit

def validPersistedRecord (key : String) (record : DeliveryRecord) : Bool :=
  !key.isEmpty && key.utf8ByteSize ≤ maxDigestBytes && record.digest = key &&
    record.attempts ≤ 5 && validText maxRelayIdBytes record.relayId &&
    validText maxWireBytes record.wire && validText maxDestinationBytes record.destination &&
    match record.state with
    | .retryable => 0 < record.attempts && record.nextRetryAt.isSome && record.wire.isSome
    | .queued    => record.nextRetryAt.isNone && record.wire.isSome && record.destination.isSome
    | _          => record.nextRetryAt.isNone

end DeliveryRecord

namespace DeliveryLedger

variable (ledger : DeliveryLedger)

def ledgerKey : RecordKey :=
  (.outbox, "delivery/ledger")

def encodedBytes : Bytes :=
  Bytes.utf8 <| Json.object <| ledger.records.toList.map fun (key, record) => (key, record.toJson)

def persist (aead : Aead) (store : EncryptedStore) (nonce : Option Nonce) :
    FileProgram (Except StorageError Unit × EncryptedStore) :=
  store.put aead nonce ledgerKey.fst ledgerKey.snd ledger.encodedBytes

-- `fromSlice` is what `serde_json` reads.
def restore (fromSlice : Bytes → Option (Std.ExtTreeMap String DeliveryRecord))
    (store : EncryptedStore) : Except StorageError DeliveryLedger :=
  match store.get ledgerKey.fst ledgerKey.snd with
  | none       => .ok empty
  | some bytes =>
    match fromSlice bytes with
    | none         => .error .corruptStore
    | some records =>
      if records.size > maxRecords ∨
          records.toList.any fun (key, record) => !record.validPersistedRecord key then
        .error .corruptStore
      else
        .ok { records }

end DeliveryLedger
