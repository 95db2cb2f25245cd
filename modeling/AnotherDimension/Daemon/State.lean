import AnotherDimension.Contacts.Persist
import AnotherDimension.Delivery.Envelope
import AnotherDimension.Delivery.Persist
import AnotherDimension.Messages.Payload
import AnotherDimension.Mls.Catalog
import AnotherDimension.Pairing.Persist

-- The state of an unlocked daemon: its authority, sessions, store and delivery ledger.

open Storage

-- What the daemon takes from other libraries: MLS, SHA-256 and what `serde_json` reads.
structure Services (σ : Type) where
  mls            : Mls σ
  sha256         : Bytes → ByteBlock 32
  readWire       : String → Option WireEnvelope
  readMessage    : Bytes → Option MessagePayload
  readDescriptor : Bytes → Option AttachmentDescriptor
  readLedger     : Bytes → Option (Std.ExtTreeMap String DeliveryRecord)
  readDirectory  : Bytes → Option DirectorySnapshot
  readPairing    : Bytes → Option PairingSnapshot

structure InviteAuthority where
  accountId              : String
  deviceId               : String
  relayOrigin            : String
  inboxUrl               : Option String
  pairing                : PairingSession
  contacts               : ContactDirectory
  receivedAttachments    : Std.ExtTreeMap String AttachmentDescriptor
  pendingRendezvousCodes : List String
  pendingConversationId  : Option String
  pendingKeyPackages     : List Bytes
  deriving DecidableEq

-- A reply of the local API; only its status and its code matter here.
structure HttpReply where
  status : Nat
  code   : String
  deriving DecidableEq, Repr

namespace InviteAuthority

variable (authority : InviteAuthority)

def withContacts (contacts : ContactDirectory) : InviteAuthority :=
  { authority with contacts }

def withReceivedAttachments (receivedAttachments : Std.ExtTreeMap String AttachmentDescriptor) :
    InviteAuthority :=
  { authority with receivedAttachments }

-- `restore_contacts`
def restoreContacts (fromSlice : Bytes → Option DirectorySnapshot) (store : DurableStore) :
    Except StorageError Unit × InviteAuthority :=
  match ContactDirectory.restore fromSlice store.store with
  | .error e     => (.error e, authority)
  | .ok contacts => (.ok (), authority.withContacts contacts)

def receivedPrefix : String := "received/"

def receivedKey (attachmentId : String) : RecordKey :=
  (.attachment, receivedPrefix ++ attachmentId)

-- The loop of `restore_received_attachments`.
def readReceived (fromSlice : Bytes → Option AttachmentDescriptor) :
    Std.ExtTreeMap String AttachmentDescriptor → List (String × Bytes) →
      Except StorageError Unit × Std.ExtTreeMap String AttachmentDescriptor
  | received, []                      => (.ok (), received)
  | received, (key, value) :: entries =>
    match Text.stripPrefix receivedPrefix key, fromSlice value with
    | some attachmentId, some descriptor =>
      match descriptor.validate with
      | .error _ => (.error .corruptStore, received)
      | .ok ()   => readReceived fromSlice (received.insert attachmentId descriptor) entries
    | _, _                               => (.error .corruptStore, received)

-- What was read before an error is kept.
def restoreReceivedAttachments (fromSlice : Bytes → Option AttachmentDescriptor)
    (store : DurableStore) : Except StorageError Unit × InviteAuthority :=
  let (result, received) :=
    readReceived fromSlice ∅ (store.recordsWithPrefix .attachment receivedPrefix)
  (result, authority.withReceivedAttachments received)

def stageReceivedAttachment (attachmentId : String) (descriptor : AttachmentDescriptor) :
    Bytes × InviteAuthority :=
  (descriptor.encoded,
    authority.withReceivedAttachments
      (authority.receivedAttachments.insert attachmentId descriptor))

-- The words of a message with one space between them, at most 160 characters.
def preview (plaintext : Bytes) : String :=
  .ofList <| ([' '].intercalate <|
    Text.splitWhitespace (Bytes.fromUtf8Lossy plaintext).toList).take 160

def stageContactMessage (conversationId : String) (plaintext : Bytes) (now : UInt64)
    (background : Bool) : Except ContactDirectoryError Unit × InviteAuthority :=
  let (result, contacts) :=
    authority.contacts.recordMessage conversationId (preview plaintext) now background
  (result, authority.withContacts contacts)

end InviteAuthority

structure Daemon (σ : Type) where
  authority : InviteAuthority
  catalog   : MlsSessionCatalog σ
  store     : DurableStore
  ledger    : DeliveryLedger
  deriving DecidableEq

namespace Daemon

variable {σ : Type} (services : Services σ) (d : Daemon σ)

def poison (conversationId : String) : Daemon σ :=
  { d with catalog := d.catalog.poison conversationId }

-- After a failed batch: contacts, attachments and ledger are read back from the store, each of them
-- if it can be.
def restoreStaged : Daemon σ :=
  let authority := (d.authority.restoreContacts services.readDirectory d.store).snd
  let authority := (authority.restoreReceivedAttachments services.readDescriptor d.store).snd
  match DeliveryLedger.restore services.readLedger d.store.store with
  | .error _   => { d with authority }
  | .ok ledger => { d with authority, ledger }

def persistLedger : Except StorageError Unit × Daemon σ :=
  let (result, store) :=
    d.store.put DeliveryLedger.ledgerKey.fst DeliveryLedger.ledgerKey.snd d.ledger.encodedBytes
  (result, { d with store })

-- The start of a new process on the same data directory. Of the authority only what is read from
-- the identity is left.
def restart (outcomes : List CommitOutcome) : Option (Daemon σ) :=
  let store := d.store.reopened outcomes
  let authority := { d.authority with
    receivedAttachments    := ∅
    pendingRendezvousCodes := []
    pendingConversationId  := none
    pendingKeyPackages     := [] }
  match MlsSessionCatalog.new.restoreAll services.mls store,
      PairingSession.restore services.readPairing authority.accountId authority.deviceId store.store,
      ContactDirectory.restore services.readDirectory store.store,
      authority.restoreReceivedAttachments services.readDescriptor store,
      DeliveryLedger.restore services.readLedger store.store with
  | (.ok _, catalog), .ok pairing, .ok contacts, (.ok (), authority), .ok ledger =>
    some { authority := { authority with pairing, contacts }, catalog, store, ledger }
  | _, _, _, _, _                                                                  => none

end Daemon
