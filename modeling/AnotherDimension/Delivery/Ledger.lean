import AnotherDimension.Library.Integers
import AnotherDimension.Library.Json
import AnotherDimension.Storage.Store

-- The ledger of outgoing and incoming envelopes.

open FileProgram Storage

inductive EnvelopeError
  | invalidMailbox
  | invalidCiphertext
  | invalidExpiry
  | invalidWire
  | expired
  | tooLarge
  deriving DecidableEq, Repr

inductive DeliveryState
  | draft
  | encrypted
  | queued
  | relayAccepted
  | recipientReceived
  | decrypted
  | retryable
  | failed
  | cancelled
  deriving DecidableEq, Repr

structure DeliveryRecord where
  digest      : String
  state       : DeliveryState
  attempts    : UInt8
  nextRetryAt : Option UInt64
  relayId     : Option String
  wire        : Option String
  expiresAt   : Option UInt64
  destination : Option String
  deriving DecidableEq, Repr

structure DeliveryLedger where
  records : Std.ExtTreeMap String DeliveryRecord
  deriving DecidableEq

namespace DeliveryState

def validTransition : (source target : DeliveryState) → Bool
  | encrypted, queued                => true
  | queued, relayAccepted            => true
  | relayAccepted, recipientReceived => true
  | recipientReceived, decrypted     => true
  | retryable, queued                => true
  | _, _                             => false

-- The states a retry is not scheduled in.
def isSettled : DeliveryState → Bool
  | recipientReceived | decrypted | failed | cancelled => true
  | _                                                  => false

-- The states a delivery can no longer be cancelled in.
def isBeyondCancel : DeliveryState → Bool
  | relayAccepted | recipientReceived | decrypted | failed | cancelled => true
  | _                                                                  => false

end DeliveryState

-- What the operations do to the record they find.
namespace DeliveryRecord

variable (record : DeliveryRecord)

def transition (state : DeliveryState) : Except EnvelopeError Unit × DeliveryRecord :=
  if record.state.validTransition state then
    (.ok (), { record with state, nextRetryAt := none })
  else
    (.error .invalidWire, record)

def acknowledgeRecipient : Except EnvelopeError Bool × DeliveryRecord :=
  if record.state = .recipientReceived ∨ record.state = .decrypted then
    (.ok false, record)
  else if record.state ≠ .relayAccepted then
    (.error .invalidWire, record)
  else
    (.ok true, { record with state := .recipientReceived })

def bindRelayId (relayId : String) : Except EnvelopeError Unit × DeliveryRecord :=
  (.ok (), { record with relayId })

def markDecrypted : Except EnvelopeError Bool × DeliveryRecord :=
  if record.state = .decrypted then
    (.ok false, record)
  else if record.state ≠ .recipientReceived then
    (.error .invalidWire, record)
  else
    (.ok true, { record with state := .decrypted })

def cancel : Except EnvelopeError Bool × DeliveryRecord :=
  if record.state.isBeyondCancel then
    (.ok false, record)
  else
    (.ok true, { record with state := .cancelled, nextRetryAt := none, wire := none })

def isDue (now : UInt64) : Bool :=
  record.expiresAt.any (· ≤ now) && record.state ≠ .decrypted && record.state ≠ .cancelled

def expireDue (now : UInt64) : DeliveryRecord :=
  if record.isDue now then
    { record with state := .failed, nextRetryAt := none, wire := none }
  else
    record

def scheduleRetry (now : UInt64) : Except EnvelopeError Bool × DeliveryRecord :=
  if record.state.isSettled then
    (.ok false, record)
  else
    let attempts := record.attempts.saturatingAdd 1
    if 5 < attempts then
      (.ok false, { record with attempts, state := .failed, nextRetryAt := none })
    else
      let power := UInt64.saturatingPow 2 (attempts - 1).toNat
      let backoff := min (UInt64.saturatingMul 5 power) 3600
      (.ok true, { record with
        attempts, state := .retryable, nextRetryAt := some (now.saturatingAdd backoff) })

def markFailed : Except EnvelopeError Bool × DeliveryRecord :=
  if record.state = .failed then
    (.ok false, record)
  else
    (.ok true, { record with
      state := .failed, nextRetryAt := none, wire := none, destination := none })

-- The `_if_current` forms leave a record in another state alone.
def ifCurrent (expectedState : DeliveryState)
    (update : Except EnvelopeError Bool × DeliveryRecord) :
    Except EnvelopeError Bool × DeliveryRecord :=
  if record.state ≠ expectedState then (.ok false, record) else update

def acceptRetry (expectedState : DeliveryState) (relayId : String) :
    Except EnvelopeError Bool × DeliveryRecord :=
  if record.state ≠ expectedState ∧ record.state ≠ .cancelled then
    (.ok false, record)
  else
    (.ok true, { record with relayId, state := .relayAccepted, nextRetryAt := none })

-- What a retry needs: a text, a destination, and that its time has come.
def isRetry (now : UInt64) : Bool :=
  (record.state = .retryable || record.state = .queued) && record.nextRetryAt.all (· ≤ now) &&
    record.wire.isSome && record.destination.isSome

end DeliveryRecord

namespace DeliveryLedger

variable (ledger : DeliveryLedger)

def empty : DeliveryLedger where
  records := ∅

def get (digest : String) : Option DeliveryRecord :=
  ledger.records[digest]?

theorem get_eq_none_iff {ledger : DeliveryLedger} {digest : String} :
    ledger.get digest = none ↔ digest ∉ ledger.records := by
  simp [get]

def insertNew (record : DeliveryRecord) : DeliveryLedger where
  records := ledger.records.insert record.digest record

-- `get_mut`: the operation works on the record of the digest, if there is one.
def withRecord {α : Type} (digest : String)
    (update : DeliveryRecord → Except EnvelopeError α × DeliveryRecord) :
    Except EnvelopeError α × DeliveryLedger :=
  match ledger.get digest with
  | none        => (.error .invalidWire, ledger)
  | some record =>
    let (result, record) := update record
    (result, { records := ledger.records.insert digest record })

theorem get_withRecord {ledger : DeliveryLedger} {α : Type} {digest : String}
    {record : DeliveryRecord} {update : DeliveryRecord → Except EnvelopeError α × DeliveryRecord}
    (h : ledger.get digest = some record) (key : String) :
    (ledger.withRecord digest update).snd.get key =
      if digest = key then some (update record).snd else ledger.get key := by
  rw [withRecord, h]
  simp [get, Std.ExtTreeMap.getElem?_insert]

theorem mem_withRecord {ledger : DeliveryLedger} {α : Type} {digest key : String}
    {update : DeliveryRecord → Except EnvelopeError α × DeliveryRecord} :
    key ∈ (ledger.withRecord digest update).snd.records ↔ key ∈ ledger.records := by
  match hr : ledger.get digest with
  | none        => simp [withRecord, hr]
  | some record =>
    have hm : digest ∈ ledger.records := by
      by_contra hn
      simp [get_eq_none_iff.mpr hn] at hr
    rw [withRecord, hr]
    simp only [Std.ExtTreeMap.mem_insert, Std.LawfulEqOrd.compare_eq_iff_eq]
    exact ⟨fun h => h.elim (· ▸ hm) id, .inr⟩

theorem size_withRecord (ledger : DeliveryLedger) {α : Type} (digest : String)
    (update : DeliveryRecord → Except EnvelopeError α × DeliveryRecord) :
    (ledger.withRecord digest update).snd.records.size = ledger.records.size := by
  match hr : ledger.get digest with
  | none        => simp [withRecord, hr]
  | some record =>
    have hm : digest ∈ ledger.records := by
      by_contra hn
      simp [get_eq_none_iff.mpr hn] at hr
    rw [withRecord, hr]
    simp [Std.ExtTreeMap.size_insert, hm]

-- The registrations of an outgoing envelope differ in the state they start in.
def registerAs (state : DeliveryState) (digest : String) (wire : Option String)
    (expiresAt : Option UInt64) (destination : Option String) :
    Except EnvelopeError Unit × DeliveryLedger :=
  if digest.isEmpty ∨ digest ∈ ledger.records then
    (.error .invalidWire, ledger)
  else
    (.ok (), ledger.insertNew
      { digest, state, attempts := 0, nextRetryAt := none, relayId := none, wire, expiresAt,
        destination })

def registerEncryptedWithDestination (digest : String) (wire : Option String)
    (expiresAt : Option UInt64) (destination : Option String) :
    Except EnvelopeError Unit × DeliveryLedger :=
  ledger.registerAs .encrypted digest wire expiresAt destination

def registerEncryptedWithWireAndExpiry (digest : String) (wire : Option String)
    (expiresAt : Option UInt64) : Except EnvelopeError Unit × DeliveryLedger :=
  ledger.registerEncryptedWithDestination digest wire expiresAt none

def registerEncryptedWithWire (digest : String) (wire : Option String) :
    Except EnvelopeError Unit × DeliveryLedger :=
  ledger.registerEncryptedWithWireAndExpiry digest wire none

def registerEncrypted (digest : String) : Except EnvelopeError Unit × DeliveryLedger :=
  ledger.registerEncryptedWithWire digest none

def registerQueuedWithDestination (digest : String) (wire : Option String)
    (expiresAt : Option UInt64) (destination : Option String) :
    Except EnvelopeError Unit × DeliveryLedger :=
  ledger.registerAs .queued digest wire expiresAt destination

def discardIfState (digest : String) (expectedState : DeliveryState) : Bool × DeliveryLedger :=
  if (ledger.get digest).any (·.state = expectedState) then
    (true, { records := ledger.records.erase digest })
  else
    (false, ledger)

def transition (digest : String) (state : DeliveryState) :
    Except EnvelopeError Unit × DeliveryLedger :=
  ledger.withRecord digest (·.transition state)

def acknowledgeRecipient (digest : String) : Except EnvelopeError Bool × DeliveryLedger :=
  ledger.withRecord digest (·.acknowledgeRecipient)

def bindRelayId (digest relayId : String) : Except EnvelopeError Unit × DeliveryLedger :=
  ledger.withRecord digest (·.bindRelayId relayId)

def registerRecipientReceived (digest relayId : String) :
    Except EnvelopeError Bool × DeliveryLedger :=
  if digest.isEmpty then
    (.error .invalidWire, ledger)
  else if digest ∈ ledger.records then
    (.ok false, ledger)
  else
    (.ok true, ledger.insertNew
      { digest, state := .recipientReceived, attempts := 0, nextRetryAt := none, relayId,
        wire := none, expiresAt := none, destination := none })

def markDecrypted (digest : String) : Except EnvelopeError Bool × DeliveryLedger :=
  ledger.withRecord digest (·.markDecrypted)

def cancel (digest : String) : Except EnvelopeError Bool × DeliveryLedger :=
  ledger.withRecord digest (·.cancel)

-- The number of expired records, and the ledger with those marked.
def expireDue (now : UInt64) : Nat × DeliveryLedger :=
  (ledger.records.toList.countP fun (_, record) => record.isDue now,
    { records := ledger.records.map fun _ record => record.expireDue now })

def scheduleRetry (digest : String) (now : UInt64) : Except EnvelopeError Bool × DeliveryLedger :=
  ledger.withRecord digest (·.scheduleRetry now)

def scheduleRetryIfCurrent (digest : String) (expectedState : DeliveryState) (now : UInt64) :
    Except EnvelopeError Bool × DeliveryLedger :=
  ledger.withRecord digest fun record =>
    record.ifCurrent expectedState (record.scheduleRetry now)

def markFailed (digest : String) : Except EnvelopeError Bool × DeliveryLedger :=
  ledger.withRecord digest (·.markFailed)

def markFailedIfCurrent (digest : String) (expectedState : DeliveryState) :
    Except EnvelopeError Bool × DeliveryLedger :=
  ledger.withRecord digest fun record => record.ifCurrent expectedState record.markFailed

def acceptRetry (digest : String) (expectedState : DeliveryState) (relayId : String) :
    Except EnvelopeError Bool × DeliveryLedger :=
  ledger.withRecord digest (·.acceptRetry expectedState relayId)

-- A relay's acknowledgement changes no record, it is only counted.
def acknowledgeRelayIds (ids : List String) : Nat :=
  ledger.records.toList.countP fun (_, record) =>
    record.relayId.any ids.contains && record.state = .relayAccepted

def dueRetries (now : UInt64) : List DeliveryRecord :=
  (ledger.records.toList.map (·.snd)).filter (·.isRetry now)

theorem mem_dueRetries {ledger : DeliveryLedger} {record : DeliveryRecord} {now : UInt64} :
    record ∈ ledger.dueRetries now ↔
      (∃ key, ledger.get key = some record) ∧ record.isRetry now := by
  simp [dueRetries, Std.ExtTreeMap.mem_toList_iff_getElem?_eq_some, get]

end DeliveryLedger

-- A call of one of the operations that change the ledger.
inductive LedgerOp
  | registerEncryptedWithDestination (digest : String) (wire : Option String)
      (expiresAt : Option UInt64) (destination : Option String)
  | registerQueuedWithDestination (digest : String) (wire : Option String)
      (expiresAt : Option UInt64) (destination : Option String)
  | discardIfState (digest : String) (expectedState : DeliveryState)
  | transition (digest : String) (state : DeliveryState)
  | acknowledgeRecipient (digest : String)
  | bindRelayId (digest relayId : String)
  | registerRecipientReceived (digest relayId : String)
  | markDecrypted (digest : String)
  | cancel (digest : String)
  | expireDue (now : UInt64)
  | scheduleRetry (digest : String) (now : UInt64)
  | scheduleRetryIfCurrent (digest : String) (expectedState : DeliveryState) (now : UInt64)
  | markFailed (digest : String)
  | markFailedIfCurrent (digest : String) (expectedState : DeliveryState)
  | acceptRetry (digest : String) (expectedState : DeliveryState) (relayId : String)

-- The ledger after the call, whatever it returned.
def DeliveryLedger.step (ledger : DeliveryLedger) : LedgerOp → DeliveryLedger
  | .registerEncryptedWithDestination digest wire expiresAt destination =>
    (ledger.registerEncryptedWithDestination digest wire expiresAt destination).snd
  | .registerQueuedWithDestination digest wire expiresAt destination    =>
    (ledger.registerQueuedWithDestination digest wire expiresAt destination).snd
  | .discardIfState digest expectedState                                =>
    (ledger.discardIfState digest expectedState).snd
  | .transition digest state                                            =>
    (ledger.transition digest state).snd
  | .acknowledgeRecipient digest                                        =>
    (ledger.acknowledgeRecipient digest).snd
  | .bindRelayId digest relayId                                         =>
    (ledger.bindRelayId digest relayId).snd
  | .registerRecipientReceived digest relayId                           =>
    (ledger.registerRecipientReceived digest relayId).snd
  | .markDecrypted digest                                               =>
    (ledger.markDecrypted digest).snd
  | .cancel digest                                                      =>
    (ledger.cancel digest).snd
  | .expireDue now                                                      =>
    (ledger.expireDue now).snd
  | .scheduleRetry digest now                                           =>
    (ledger.scheduleRetry digest now).snd
  | .scheduleRetryIfCurrent digest expectedState now                    =>
    (ledger.scheduleRetryIfCurrent digest expectedState now).snd
  | .markFailed digest                                                  =>
    (ledger.markFailed digest).snd
  | .markFailedIfCurrent digest expectedState                           =>
    (ledger.markFailedIfCurrent digest expectedState).snd
  | .acceptRetry digest expectedState relayId                           =>
    (ledger.acceptRetry digest expectedState relayId).snd
