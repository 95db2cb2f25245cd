import AnotherDimension.Daemon.State

-- Operations of the local API that change the pairing, a contact or a delivery in memory, and then
-- write what they changed to the store.

-- A pairing that could not be written is reported as an invalid transition, and a directory as
-- corrupt; here both are kept apart from the errors of the operations themselves.
inductive OperationError
  | pairing (error : PairingError)
  | contact (error : ContactDirectoryError)
  | delivery (error : EnvelopeError)
  | session (error : SessionCatalogError)
  | storage
  deriving DecidableEq, Repr

namespace Daemon

variable {σ : Type} (d : Daemon σ)

def withPairing (pairing : PairingSession) : Daemon σ :=
  { d with authority := { d.authority with pairing } }

def withContacts (contacts : ContactDirectory) : Daemon σ :=
  { d with authority := d.authority.withContacts contacts }

def write (key : RecordKey) (value : Bytes) : Except OperationError Unit × Daemon σ :=
  match d.store.put key.fst key.snd value with
  | (.error _, store) => (.error .storage, { d with store })
  | (.ok (), store)   => (.ok (), { d with store })

-- The changed pairing is written when the operation succeeded.
def changePairing (change : Except PairingError Unit × PairingSession) :
    Except OperationError Unit × Daemon σ :=
  match change with
  | (.error e, pairing) => (.error (.pairing e), d.withPairing pairing)
  | (.ok (), pairing)   =>
    (d.withPairing pairing).write PairingSession.pairingKey pairing.encodedBytes

def allowDuplicate :
    Except PairingError Unit × PairingSession → Except PairingError Unit × PairingSession
  | (.error .duplicate, pairing) => (.ok (), pairing)
  | change                       => change

def markInviteCreated : Except OperationError Unit × Daemon σ :=
  d.changePairing d.authority.pairing.markInviteCreated

def stagePeer (invite : VerifiedInvite) (now : UInt64) : Except OperationError Unit × Daemon σ :=
  d.changePairing (d.authority.pairing.verifyPeer invite now)

-- A pairing that is established already is written again.
def approvePairing (now : UInt64) : Except OperationError Unit × Daemon σ :=
  d.changePairing (allowDuplicate (d.authority.pairing.approve now))

def confirmSafety (sha256 : Bytes → ByteBlock 32) (value : String) :
    Except OperationError Unit × Daemon σ :=
  d.changePairing (d.authority.pairing.confirmSafety sha256 value)

def unverifySafety : Except OperationError Unit × Daemon σ :=
  d.changePairing d.authority.pairing.unverifySafety

def rejectPairing : Except OperationError Unit × Daemon σ :=
  d.changePairing d.authority.pairing.reject

def invalidateRelayBinding : Except OperationError Unit × Daemon σ :=
  d.changePairing d.authority.pairing.invalidateBinding

-- The same for the directory.
def changeContacts {α : Type} (change : Except ContactDirectoryError α × ContactDirectory) :
    Except OperationError α × Daemon σ :=
  match change with
  | (.error e, contacts) => (.error (.contact e), d.withContacts contacts)
  | (.ok a, contacts)    =>
    let (result, d) :=
      (d.withContacts contacts).write ContactDirectory.directoryKey contacts.snapshotBytes
    (result.map fun _ => a, d)

def setContactAlias (accountId aliasName : String) : Except OperationError Unit × Daemon σ :=
  d.changeContacts (d.authority.contacts.setAlias accountId aliasName)

def setContactBlocked (accountId : String) (blocked : Bool) :
    Except OperationError Unit × Daemon σ :=
  d.changeContacts <|
    if blocked then d.authority.contacts.block accountId else d.authority.contacts.unblock accountId

def removeContact (accountId : String) : Except OperationError ContactRecord × Daemon σ :=
  d.changeContacts (d.authority.contacts.remove accountId)

def bindContactConversation (accountId conversationId : String) :
    Except OperationError Unit × Daemon σ :=
  d.changeContacts (d.authority.contacts.bindConversation accountId conversationId)

def markContactRead (accountId : String) : Except OperationError Unit × Daemon σ :=
  d.changeContacts (d.authority.contacts.markRead accountId)

def registerApprovedContact (now : UInt64) : Except OperationError Unit × Daemon σ :=
  match d.authority.pairing.peer with
  | none      => (.error (.contact .contactNotFound), d)
  | some peer => d.changeContacts (d.authority.contacts.registerApproved peer now)

-- The route `delivery/cancel`. Only a delivery that was cancelled is written.
def cancelDelivery (digest : String) : Except OperationError Bool × Daemon σ :=
  match d.ledger.cancel digest with
  | (.error e, ledger)   => (.error (.delivery e), { d with ledger })
  | (.ok false, ledger)  => (.ok false, { d with ledger })
  | (.ok true, ledger)   =>
    match { d with ledger }.persistLedger with
    | (.error _, d) => (.error .storage, d)
    | (.ok (), d)   => (.ok true, d)

-- The route `contacts/delete`: the contact goes first, then the session of its conversation.
def deleteContact (accountId : String) : Except OperationError Unit × Daemon σ :=
  match d.removeContact accountId with
  | (.error e, d)    => (.error e, d)
  | (.ok removed, d) =>
    match removed.conversationId with
    | none                => (.ok (), d)
    | some conversationId =>
      let (result, catalog, store) := d.catalog.remove conversationId d.store
      let d := { d with catalog, store }
      match result with
      | .ok ()                       => (.ok (), d)
      | .error .unknownConversation => (.ok (), d)
      | .error e                     => (.error (.session e), d)

end Daemon

-- A call of one of the operations with a single write.
inductive StoredOp
  | markInviteCreated
  | stagePeer (invite : VerifiedInvite) (now : UInt64)
  | approvePairing (now : UInt64)
  | confirmSafety (value : String)
  | unverifySafety
  | rejectPairing
  | invalidateRelayBinding
  | setContactAlias (accountId aliasName : String)
  | setContactBlocked (accountId : String) (blocked : Bool)
  | removeContact (accountId : String)
  | bindContactConversation (accountId conversationId : String)
  | markContactRead (accountId : String)
  | registerApprovedContact (now : UInt64)
  | cancelDelivery (digest : String)

def Daemon.perform {σ : Type} (sha256 : Bytes → ByteBlock 32) (d : Daemon σ) :
    StoredOp → Except OperationError Unit × Daemon σ
  | .markInviteCreated                             => d.markInviteCreated
  | .stagePeer invite now                          => d.stagePeer invite now
  | .approvePairing now                            => d.approvePairing now
  | .confirmSafety value                           => d.confirmSafety sha256 value
  | .unverifySafety                                => d.unverifySafety
  | .rejectPairing                                 => d.rejectPairing
  | .invalidateRelayBinding                        => d.invalidateRelayBinding
  | .setContactAlias accountId aliasName               => d.setContactAlias accountId aliasName
  | .setContactBlocked accountId blocked           => d.setContactBlocked accountId blocked
  | .removeContact accountId                       =>
    let (result, d) := d.removeContact accountId
    (result.map fun _ => (), d)
  | .bindContactConversation accountId conversationId =>
    d.bindContactConversation accountId conversationId
  | .markContactRead accountId                     => d.markContactRead accountId
  | .registerApprovedContact now                   => d.registerApprovedContact now
  | .cancelDelivery digest                         =>
    let (result, d) := d.cancelDelivery digest
    (result.map fun _ => (), d)
