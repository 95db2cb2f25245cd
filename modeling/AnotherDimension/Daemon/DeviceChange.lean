import AnotherDimension.Contacts.Directory
import AnotherDimension.Delivery.Endpoint
import AnotherDimension.Delivery.Envelope

-- The delivery of the commits that remove a device, after their checkpoints were stored.

-- What a relay does with a post. It may have the envelope although the daemon sees an error.
inductive PostOutcome
  | accepted (id : String)
  | lost (error : RelayError)
  | refused (error : RelayError)
  deriving DecidableEq, Repr

-- A commit, with what its delivery meets: the random bytes of the envelope, the relay, and whether
-- the ledger reaches the disk when the relay cannot be reached.
structure CommitDelivery where
  conversationId : String
  commit         : Bytes
  padding        : (n : Nat) → Option (ByteBlock n)
  id             : Option (ByteBlock 16)
  post           : PostOutcome
  written        : Bool

-- The part of the daemon the delivery reads.
structure DeviceChange where
  contacts    : ContactDirectory
  relayTlsPin : Option (ByteBlock 32)
  sha256      : Bytes → ByteBlock 32
  now         : UInt64

-- An envelope that is ready to be posted.
structure PreparedCommit where
  digest    : String
  wire      : String
  expiresAt : UInt64
  inboxUrl  : String
  deriving DecidableEq

-- The ledgers in memory and on the disk, and the conversations whose commit a relay has.
structure DeviceChangeState where
  ledger   : DeliveryLedger
  stored   : DeliveryLedger
  accepted : List String

namespace DeviceChange

variable (change : DeviceChange)

def prepare (entry : CommitDelivery) : Except RelayError PreparedCommit := do
  let expiresAt := change.now.saturatingAdd (10 * 60)
  let some contact := change.contacts.forConversation entry.conversationId
    | throw .invalidEndpoint
  let some inboxUrl := contact.inboxUrl | throw .invalidEndpoint
  let endpoint ← RelayEndpoint.fromInboxUrlWithPin inboxUrl change.relayTlsPin
  let envelope ← (RelayEnvelope.create endpoint.capability entry.commit expiresAt change.now
    entry.padding entry.id).mapError fun _ => .invalidResponse
  let digest ← (envelope.digest change.sha256).mapError fun _ => .invalidResponse
  let wire ← envelope.toWire.mapError fun _ => .invalidResponse
  return ⟨digest, wire, envelope.expiresAt, inboxUrl⟩

-- The ledger after a post that was answered.
def settle (ledger : DeliveryLedger) (digest relayId : String) :
    Except EnvelopeError Unit × DeliveryLedger :=
  match ledger.bindRelayId digest relayId with
  | (.error e, ledger) => (.error e, ledger)
  | (.ok (), ledger)   =>
    match ledger.transition digest .queued with
    | (.error e, ledger) => (.error e, ledger)
    | (.ok (), ledger)   => ledger.transition digest .relayAccepted

-- The post that failed: its record is scheduled again, and the ledger is stored, unless the process
-- ends before.
def reschedule (state : DeviceChangeState) (entry : CommitDelivery) (digest : String)
    (budget : Nat) : DeviceChangeState :=
  let ledger := (state.ledger.scheduleRetry digest change.now).snd
  match budget with
  | 0     => { state with ledger }
  | _ + 1 => if entry.written then { state with ledger, stored := ledger } else { state with ledger }

-- `deliver_device_change_commits`. The process ends when `budget` posts and writes were made; `none`
-- is the result of such a run. `written` says whether the last write reaches the disk.
def deliverDeviceChangeCommits (written : Bool) :
    (budget : Nat) → DeviceChangeState → (digests : List String) → List CommitDelivery →
      Option (Except RelayError (List String)) × DeviceChangeState
  | 0, state, _, []                => (none, state)
  | _ + 1, state, digests, []      =>
    if written then
      (some (.ok digests), { state with stored := state.ledger })
    else
      (some (.error .invalidResponse), state)
  | budget, state, digests, entry :: entries =>
    match change.prepare entry with
    | .error e     => (some (.error e), state)
    | .ok prepared =>
      match state.ledger.registerEncryptedWithDestination prepared.digest (some prepared.wire)
          (some prepared.expiresAt) (some prepared.inboxUrl) with
      | (.error _, _)    => (some (.error .invalidResponse), state)
      | (.ok (), ledger) =>
        let state := { state with ledger }
        match budget with
        | 0          => (none, state)
        | budget + 1 =>
          match entry.post with
          | .refused error => (some (.error error), change.reschedule state entry prepared.digest budget)
          | .lost error    =>
            let state := { state with accepted := entry.conversationId :: state.accepted }
            (some (.error error), change.reschedule state entry prepared.digest budget)
          | .accepted id   =>
            let state := { state with accepted := entry.conversationId :: state.accepted }
            match settle state.ledger prepared.digest id with
            | (.error _, ledger) => (some (.error .invalidResponse), { state with ledger })
            | (.ok (), ledger)   =>
              deliverDeviceChangeCommits written budget { state with ledger }
                (digests ++ [prepared.digest]) entries

end DeviceChange
