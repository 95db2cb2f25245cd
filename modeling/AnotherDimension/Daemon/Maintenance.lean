import AnotherDimension.Daemon.MessageList
import AnotherDimension.Daemon.Outbox

-- The maintenance of the daemon: `run_maintenance_tick` takes in the inbox, removes what has
-- expired, and repeats the deliveries whose time has come.

open Storage

namespace Daemon

variable {σ : Type} (services : Services σ) (read : Bytes → Option StoredMessage)
  (relayTlsPin : Option (ByteBlock 32)) (now : UInt64)

def maxAutomaticRetriesPerTick : Nat := 2

-- The keys of the stored messages that have expired. What cannot be read is passed over.
def expiredMessages (store : DurableStore) : List String :=
  (store.recordsWithPrefix .message MessageQuery.messagePrefix).filterMap fun (key, bytes) =>
    ((read bytes).filter (·.isExpired now)).map fun _ => key

-- The results of the deletions are dropped by the code; they are kept here to speak about them.
def deleteMessages : DurableStore → List String →
    List (Except StorageError Unit) × DurableStore
  | store, []          => ([], store)
  | store, key :: keys =>
    let (result, store) := store.delete .message key
    let (results, store) := deleteMessages store keys
    (result.map (fun _ => ()) :: results, store)

variable (d : Daemon σ)

def persisted : List (Except StorageError Unit) × Daemon σ :=
  let (result, d) := d.persistLedger
  ([result], d)

-- The ledger is marked before the messages are deleted, and written after it.
def expire : List (Except StorageError Unit) × Daemon σ :=
  let (expired, ledger) := d.ledger.expireDue now
  let (results, store) := deleteMessages d.store (expiredMessages read now d.store)
  let d := { d with ledger, store }
  if expired > 0 then
    let (written, d) := d.persisted
    (results ++ written, d)
  else
    (results, d)

-- The part of a tick between the answer with the items of the inbox and their acknowledgement. The
-- items that were taken in before an error are not counted.
def takeIn (capability : String) (items : List RelayItem) :
    List (Except StorageError Unit) × (Nat × List String) × Daemon σ :=
  let (result, d) := d.processInboxItems services now capability items
  let (results, d) := d.expire read now
  (results, result.toOption.getD (0, []), d)

-- The request of a retry. `post` is what the relay answers.
def retryResult (post : RelayEndpoint → RelayEnvelope → Except RelayError String)
    (record : DeliveryRecord) : Except RelayError String := do
  let some destination := record.destination | throw .invalidEndpoint
  let some wire := record.wire | throw .invalidResponse
  let endpoint ← RelayEndpoint.fromInboxUrlWithPin destination relayTlsPin
  let .ok envelope := RelayEnvelope.fromWire services.readWire wire now | throw .invalidResponse
  if envelope.mailbox ≠ endpoint.capability then
    throw .invalidResponse
  post endpoint envelope

-- What the loop of `retry_due_deliveries_detached` does with the answer: whether the delivery was
-- accepted.
def finishDueRetry (record : DeliveryRecord) :
    Except RelayError String → List (Except StorageError Unit) × Bool × Daemon σ
  | .ok id       =>
    match d.ledger.acceptRetry record.digest record.state id with
    | (.ok true, ledger) =>
      let (result, d) := { d with ledger }.persistLedger
      ([result], result.toBool, d)
    | (_, ledger)        => ([], false, { d with ledger })
  | .error error =>
    if error = .expired then
      let d := d.invalidateRelayBinding.snd
      let d := { d with ledger := (d.ledger.markFailedIfCurrent record.digest record.state).snd }
      let (results, d) := d.persisted
      (results, false, d)
    else if error = .invalidEndpoint ∨ error = .invalidResponse then
      let d := { d with ledger := (d.ledger.markFailedIfCurrent record.digest record.state).snd }
      let (results, d) := d.persisted
      (results, false, d)
    else
      let d := { d with
        ledger := (d.ledger.scheduleRetryIfCurrent record.digest record.state now).snd }
      let (results, d) := d.persisted
      (results, false, d)

def retryEach (post : RelayEndpoint → RelayEnvelope → Except RelayError String) :
    Daemon σ → List DeliveryRecord → List (Except StorageError Unit) × Daemon σ
  | d, []                => ([], d)
  | d, record :: records =>
    let (results, _, d) :=
      d.finishDueRetry now record (retryResult services relayTlsPin now post record)
    let (more, d) := retryEach post d records
    (results ++ more, d)

-- The records are chosen before the first request.
def retryDue (post : RelayEndpoint → RelayEnvelope → Except RelayError String) :
    List (Except StorageError Unit) × Daemon σ :=
  retryEach services relayTlsPin now post d
    ((d.ledger.dueRetries now).take maxAutomaticRetriesPerTick)

end Daemon

-- What the relays answer during a tick.
structure TickAnswers where
  sync : RelayEndpoint → Except RelayError (List RelayItem)
  post : RelayEndpoint → RelayEnvelope → Except RelayError String

namespace Daemon

variable {σ : Type} (services : Services σ) (read : Bytes → Option StoredMessage)
  (relayTlsPin : Option (ByteBlock 32)) (now : UInt64) (answers : TickAnswers) (d : Daemon σ)

def fetchInbox (inboxUrl : String) : Except RelayError (String × List RelayItem) :=
  match RelayEndpoint.fromInboxUrlWithPin inboxUrl relayTlsPin with
  | .error _     => .error .invalidEndpoint
  | .ok endpoint => (answers.sync endpoint).map fun items => (endpoint.capability, items)

-- `none` where there is no inbox.
def fetched : Except RelayError (Option (String × List RelayItem)) :=
  match d.authority.inboxUrl with
  | none          => .ok none
  | some inboxUrl => (fetchInbox relayTlsPin answers inboxUrl).map some

-- The results of the writes, the number of messages, and the daemon after the tick. The
-- acknowledgement of the items changes nothing here.
def runMaintenanceTick : List (Except StorageError Unit) × Nat × Daemon σ :=
  match d.fetched relayTlsPin answers with
  | .ok (some (capability, items)) =>
    let (results, (processed, _), d) := d.takeIn services read now capability items
    let (more, d) := d.retryDue services relayTlsPin now answers.post
    (results ++ more, processed, d)
  | .ok none                       =>
    let (results, d) := d.retryDue services relayTlsPin now answers.post
    (results, 0, d)
  | .error error                   =>
    let d := if error = .expired then d.invalidateRelayBinding.snd else d
    let (results, d) := d.retryDue services relayTlsPin now answers.post
    (results, 0, d)

end Daemon

-- The answer of a relay to one of the daemon's requests, with what the daemon kept of the request.
inductive RelayAnswer
  | post (inboxUrl digest : String) (answer : Except RelayError String)
  | retry (inboxUrl : String) (record : DeliveryRecord) (answer : Except RelayError String)
  | ack (inboxUrl : String) (ids : List String) (answer : Except RelayError Nat)
  | sync (inboxUrl conversationId : String) (background : Bool) (capability : String)
      (answer : Except RelayError (List RelayItem))
  | syncAck (inboxUrl : String) (messages : List String) (answer : Except RelayError Nat)
  | inbox (inboxUrl capability : String) (answer : Except RelayError (List RelayItem))
  | dueRetry (record : DeliveryRecord) (answer : Except RelayError String)

namespace RelayAnswer

-- The inbox that the request was about.
def inboxUrl : RelayAnswer → Option String
  | post inboxUrl _ _       => inboxUrl
  | retry inboxUrl _ _      => inboxUrl
  | ack inboxUrl _ _        => inboxUrl
  | sync inboxUrl _ _ _ _   => inboxUrl
  | syncAck inboxUrl _ _    => inboxUrl
  | inbox inboxUrl _ _      => inboxUrl
  | dueRetry record _       => record.destination

def hasExpired {α : Type} : Except RelayError α → Bool
  | .error error => error = .expired
  | .ok _        => false

def isExpired : RelayAnswer → Bool
  | post _ _ answer | retry _ _ answer | dueRetry _ answer => hasExpired answer
  | ack _ _ answer | syncAck _ _ answer                    => hasExpired answer
  | sync _ _ _ _ answer | inbox _ _ answer                 => hasExpired answer

end RelayAnswer

def Daemon.answered {σ : Type} (services : Services σ) (read : Bytes → Option StoredMessage)
    (d : Daemon σ) : UInt64 × RelayAnswer → Daemon σ
  | (now, .post _ digest answer)                                  =>
    (d.finishPost now digest answer).snd
  | (now, .retry _ record answer)                                 =>
    (d.finishRetry now record answer).snd
  | (_, .ack _ ids answer)                                        => (d.finishAck ids answer).snd
  | (now, .sync _ conversationId background capability answer)    =>
    (d.finishSync services now conversationId background capability answer).snd
  | (_, .syncAck _ messages answer)                               =>
    (d.finishSyncAck messages answer).snd
  | (now, .inbox _ capability (.ok items))                        =>
    (d.takeIn services read now capability items).snd.snd
  | (_, .inbox _ _ (.error error))                                =>
    if error = .expired then d.invalidateRelayBinding.snd else d
  | (now, .dueRetry record answer)                                =>
    (d.finishDueRetry now record answer).snd.snd
