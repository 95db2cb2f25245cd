import AnotherDimension.Daemon.Operations
import AnotherDimension.Daemon.Receive

-- The routes `delivery/post`, `delivery/retry`, `delivery/ack` and `delivery/sync`. No lock is held
-- while a relay is asked, so each route is cut in two: what it does before, and what it does with
-- the answer, in whatever state the daemon is by then.

open Storage

structure DeliveryPost where
  inboxUrl   : String
  ciphertext : Bytes
  expiresAt  : UInt64
  padding    : (n : Nat) → Option (ByteBlock n)
  id         : Option (ByteBlock 16)

structure PreparedPost where
  endpoint : RelayEndpoint
  envelope : RelayEnvelope
  digest   : String
  wire     : String
  deriving DecidableEq

structure PreparedRetry where
  endpoint : RelayEndpoint
  envelope : RelayEnvelope
  record   : DeliveryRecord
  deriving DecidableEq

namespace HttpReply

def relayCapabilityExpired : HttpReply := ⟨409, "relay_capability_expired"⟩

def relayAckConflict : HttpReply := ⟨409, "relay_ack_conflict"⟩

def relayUnavailable : HttpReply := ⟨503, "relay_unavailable"⟩

def storageUnavailable : HttpReply := ⟨503, "storage_unavailable"⟩

def unsupportedRelayEndpoint : HttpReply := ⟨422, "unsupported_relay_endpoint"⟩

def deliveryAccepted (id digest : String) : HttpReply where
  status := 202
  code   := "\x7b\"accepted\":true,\"id\":\"" ++ Daemon.jsonEscape id ++ "\",\"digest\":\"" ++
    Daemon.jsonEscape digest ++ "\",\"state\":\"relay-accepted\"\x7d"

def deliveryRetryable (digest : String) : HttpReply where
  status := 503
  code   := "\x7b\"error\":\"relay_unavailable\",\"digest\":\"" ++ Daemon.jsonEscape digest ++
    "\",\"state\":\"retryable\"\x7d"

end HttpReply

-- A request that a relay answers with 410 was about an inbox the relay no longer knows.
def RelayError.expired : RelayError :=
  .rejected 410

namespace Daemon

variable {σ : Type} (services : Services σ) (d : Daemon σ) (relayTlsPin : Option (ByteBlock 32))
  (now : UInt64)

def preparePost (request : DeliveryPost) : Except HttpReply PreparedPost :=
  match RelayEndpoint.fromInboxUrlWithPin request.inboxUrl relayTlsPin with
  | .error _     => .error .unsupportedRelayEndpoint
  | .ok endpoint =>
    match RelayEnvelope.create endpoint.capability request.ciphertext request.expiresAt now
        request.padding request.id with
    | .error _     => .error ⟨422, "invalid_delivery_envelope"⟩
    | .ok envelope =>
      match envelope.digest services.sha256, envelope.toWire with
      | .ok digest, .ok wire => .ok { endpoint, envelope, digest, wire }
      | _, _                 => .error ⟨422, "invalid_delivery_envelope"⟩

-- A record that could not be written is taken back.
def beginPost (request : DeliveryPost) : Except HttpReply PreparedPost × Daemon σ :=
  match preparePost services relayTlsPin now request with
  | .error reply => (.error reply, d)
  | .ok post     =>
    match d.ledger.registerQueuedWithDestination post.digest post.wire post.envelope.expiresAt
        request.inboxUrl with
    | (.error _, ledger) => (.error ⟨409, "duplicate_delivery"⟩, { d with ledger })
    | (.ok (), ledger)   =>
      match { d with ledger }.persistLedger with
      | (.error _, d) => (.error .storageUnavailable,
          { d with ledger := (d.ledger.discardIfState post.digest .queued).snd })
      | (.ok (), d)   => (.ok post, d)

def prepareRetry (inboxUrl digest : String) : Except HttpReply PreparedRetry :=
  match RelayEndpoint.fromInboxUrlWithPin inboxUrl relayTlsPin with
  | .error _     => .error .unsupportedRelayEndpoint
  | .ok endpoint =>
    match d.ledger.get digest with
    | none        => .error ⟨404, "delivery_not_found"⟩
    | some record =>
      if record.state = .failed then
        .error ⟨409, "delivery_retry_exhausted"⟩
      else if record.state ≠ .retryable ∧ record.state ≠ .queued then
        .error ⟨409, "delivery_not_retryable"⟩
      else if record.nextRetryAt.any (· > now) then
        .error ⟨429, "delivery_retry_backoff"⟩
      else
        match record.wire.map (RelayEnvelope.fromWire services.readWire · now) with
        | some (.ok envelope) =>
          if envelope.mailbox ≠ endpoint.capability then
            .error ⟨422, "delivery_endpoint_mismatch"⟩
          else
            .ok { endpoint, envelope, record }
        | _                   => .error ⟨409, "delivery_not_retriable"⟩

-- What both routes do with the answer to a post. `expectedState` is the state of the record when the
-- post was made.
def finishDelivery (digest : String) (expectedState : DeliveryState) (unavailable : HttpReply) :
    Except RelayError String → HttpReply × Daemon σ
  | .ok id       =>
    match d.ledger.acceptRetry digest expectedState id with
    | (.ok true, ledger) =>
      match { d with ledger }.persistLedger with
      | (.error _, d) => (⟨409, "delivery_state_changed"⟩, d)
      | (.ok (), d)   => (.deliveryAccepted id digest, d)
    | (_, ledger)        => (⟨409, "delivery_state_changed"⟩, { d with ledger })
  | .error error =>
    if error = .expired then
      let d := { d with ledger := (d.ledger.markFailedIfCurrent digest expectedState).snd }
      (.relayCapabilityExpired, d.invalidateRelayBinding.snd.persistLedger.snd)
    else
      let d := { d with
        ledger := (d.ledger.scheduleRetryIfCurrent digest expectedState now).snd }
      (unavailable, d.persistLedger.snd)

def finishPost (digest : String) (answer : Except RelayError String) : HttpReply × Daemon σ :=
  d.finishDelivery now digest .queued (.deliveryRetryable digest) answer

def finishRetry (record : DeliveryRecord) (answer : Except RelayError String) :
    HttpReply × Daemon σ :=
  d.finishDelivery now record.digest record.state .relayUnavailable answer

def beginAck (inboxUrl : String) : Except HttpReply RelayEndpoint :=
  (RelayEndpoint.fromInboxUrlWithPin inboxUrl relayTlsPin).mapError
    fun _ => .unsupportedRelayEndpoint

-- An acknowledgement that a relay did not take.
def failedAck (error : RelayError) : HttpReply × Daemon σ :=
  if error = .rejected 409 then
    (.relayAckConflict, d)
  else if error = .expired then
    (.relayCapabilityExpired, d.invalidateRelayBinding.snd)
  else
    (.relayUnavailable, d)

def finishAck (ids : List String) : Except RelayError Nat → HttpReply × Daemon σ
  | .error error     => d.failedAck error
  | .ok acknowledged =>
    match d.persistLedger with
    | (.error _, d) => (.storageUnavailable, d)
    | (.ok (), d)   => (⟨200, "\x7b\"acknowledged\":" ++ toString acknowledged ++
        ",\"relay_acknowledged\":" ++ toString (d.ledger.acknowledgeRelayIds ids) ++ "\x7d"⟩, d)

def beginSync (inboxUrl conversationId : String) : Except HttpReply RelayEndpoint :=
  if d.authority.contacts.isBlockedConversation conversationId then
    .error ⟨403, "contact_blocked"⟩
  else
    beginAck relayTlsPin inboxUrl

-- The items of the inbox are taken in before they are acknowledged.
def finishSync (conversationId : String) (background : Bool) (capability : String) :
    Except RelayError (List RelayItem) → Except HttpReply SyncProcessResult × Daemon σ
  | .ok items    => d.processSyncItems services conversationId background now capability items
  | .error error =>
    if error = .expired then
      (.error .relayCapabilityExpired, d.invalidateRelayBinding.snd)
    else
      (.error .relayUnavailable, d)

-- Where there is nothing to acknowledge no relay is asked, and the answer is zero.
def finishSyncAck (messages : List String) : Except RelayError Nat → HttpReply × Daemon σ
  | .error error     => d.failedAck error
  | .ok acknowledged => (⟨200, "\x7b\"acknowledged\":" ++ toString acknowledged ++
      ",\"messages\":[" ++ ",".intercalate messages ++ "]\x7d"⟩, d)

end Daemon
