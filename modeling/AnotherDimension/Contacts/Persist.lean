import AnotherDimension.Library.Json
import AnotherDimension.Contacts.Directory

-- The contact directory as one JSON record of the encrypted store.

open FileProgram Storage

namespace ContactRecord

def toJson (contact : ContactRecord) : String :=
  Json.object [
    ("account_id", Json.string contact.accountId),
    ("device_id", Json.string contact.deviceId),
    ("relay_origin", Json.string contact.relayOrigin),
    ("inbox_url", Json.option Json.string contact.inboxUrl),
    ("alias", Json.option Json.string contact.aliasName),
    ("state", Json.string contact.state),
    ("conversation_id", Json.option Json.string contact.conversationId),
    ("last_message_preview", Json.option Json.string contact.lastMessagePreview),
    ("last_message_at", Json.option Json.number contact.lastMessageAt),
    ("unread_count", Json.number contact.unreadCount.toUInt64)
  ]

-- The inbox as a text: the relay's inbox path comes first, no query, and a capability comes last.
def validBoundInbox (origin value : String) : Bool :=
  (origin.toList ++ inboxPath.toList).isPrefixOf value.toList && value.utf8ByteSize ≤ 2 * 1024 &&
    !value.toList.contains '?' && isCapability (Text.lastSegment '/' value.toList)

def validPersistedContact (key : String) (contact : ContactRecord) : Bool :=
  key = contact.accountId && validateProtocolIdentifier contact.accountId &&
    validateProtocolIdentifier contact.deviceId && validRelayOrigin contact.relayOrigin &&
    contact.inboxUrl.all (validBoundInbox contact.relayOrigin) &&
    (contact.state = "verified" || contact.state = "blocked") &&
    (contact.aliasName.all fun value =>
      value.utf8ByteSize ≤ maxAliasBytes && !value.toList.any Text.isControl) &&
    contact.conversationId.all validConversationId &&
    contact.lastMessagePreview.all fun value => value.utf8ByteSize ≤ maxPreviewBytes

end ContactRecord

structure DirectorySnapshot where
  version  : UInt16
  contacts : Std.ExtTreeMap String ContactRecord
  deriving DecidableEq

namespace ContactDirectory

def directoryVersion : UInt16 := 1

def maxContacts : Nat := maxRecords

def directoryKey : RecordKey :=
  (.contact, "contacts/directory")

def snapshot (directory : ContactDirectory) : DirectorySnapshot where
  version  := directoryVersion
  contacts := directory.contacts

def snapshotBytes (directory : ContactDirectory) : Bytes :=
  Bytes.utf8 <| Json.object [
    ("version", Json.number directory.snapshot.version.toUInt64),
    ("contacts", Json.object <|
      directory.snapshot.contacts.toList.map fun entry => (entry.fst, entry.snd.toJson))
  ]

def persist (directory : ContactDirectory) (aead : Aead) (store : EncryptedStore)
    (nonce : Option Nonce) : FileProgram (Except StorageError Unit × EncryptedStore) :=
  store.put aead nonce directoryKey.fst directoryKey.snd directory.snapshotBytes

-- `fromSlice` is what `serde_json` reads.
def restore (fromSlice : Bytes → Option DirectorySnapshot) (store : EncryptedStore) :
    Except StorageError ContactDirectory :=
  match store.get directoryKey.fst directoryKey.snd with
  | none       => .ok new
  | some bytes =>
    match fromSlice bytes with
    | none          => .error .corruptStore
    | some snapshot =>
      if snapshot.version ≠ directoryVersion then
        .error .corruptStore
      else if snapshot.contacts.size > maxContacts ∨
          snapshot.contacts.toList.any fun entry => !entry.snd.validPersistedContact entry.fst then
        .error .corruptStore
      else
        .ok { contacts := snapshot.contacts }

end ContactDirectory
