import AnotherDimension.Pairing.Peer
import AnotherDimension.Storage.Store

-- The contacts of the daemon, by account.

structure ContactRecord where
  accountId          : String
  deviceId           : String
  relayOrigin        : String
  inboxUrl           : Option String
  aliasName          : Option String
  state              : String
  conversationId     : Option String
  lastMessagePreview : Option String
  lastMessageAt      : Option UInt64
  unreadCount        : UInt32
  deriving DecidableEq, Repr

inductive ContactDirectoryError
  | duplicateDevice
  | contactNotFound
  | invalidAlias
  | corrupt
  | invalidState
  deriving DecidableEq, Repr

namespace ContactRecord

def maxAliasBytes : Nat := 128

def maxPreviewBytes : Nat := 4 * 1024

def holdsConversation (contact : ContactRecord) (conversationId : String) : Bool :=
  contact.conversationId = some conversationId

-- A verified peer updates where it is reached, and everything else stays as it was.
def upserted (existing : Option ContactRecord) (accountId deviceId relayOrigin : String)
    (inboxUrl : Option String) (now : UInt64) : ContactRecord where
  accountId          := accountId
  deviceId           := deviceId
  relayOrigin        := relayOrigin
  inboxUrl           := inboxUrl.or (existing.bind (·.inboxUrl))
  aliasName          := existing.bind (·.aliasName)
  state              := existing.elim "verified" (·.state)
  conversationId     := existing.bind (·.conversationId)
  lastMessagePreview := existing.bind (·.lastMessagePreview)
  lastMessageAt      := (existing.bind (·.lastMessageAt)).or now
  unreadCount        := existing.elim 0 (·.unreadCount)

def withAlias (contact : ContactRecord) (aliasName : String) : ContactRecord :=
  { contact with
    aliasName := if (Text.trim aliasName).isEmpty then none else some (Text.trim aliasName) }

def withMessage (contact : ContactRecord) (preview : String) (now : UInt64) (background : Bool) :
    ContactRecord :=
  { contact with
    lastMessageAt      := some now
    lastMessagePreview := some preview
    unreadCount        := if background then contact.unreadCount.saturatingAdd 1 else 0 }

end ContactRecord

structure ContactDirectory where
  contacts : Std.ExtTreeMap String ContactRecord
  deriving DecidableEq

namespace ContactDirectory

open ContactRecord

def new : ContactDirectory where
  contacts := ∅

variable (directory : ContactDirectory)

def get (accountId : String) : Option ContactRecord :=
  directory.contacts[accountId]?

def insert (accountId : String) (contact : ContactRecord) : ContactDirectory where
  contacts := directory.contacts.insert accountId contact

-- `get_mut`: the operation works on the contact of the account, if there is one.
def withContact (accountId : String)
    (update : ContactRecord → Except ContactDirectoryError ContactRecord) :
    Except ContactDirectoryError Unit × ContactDirectory :=
  match directory.get accountId with
  | none         => (.error .contactNotFound, directory)
  | some contact =>
    match update contact with
    | .error e    => (.error e, directory)
    | .ok contact => (.ok (), directory.insert accountId contact)

def upsertVerifiedWithInbox (accountId deviceId relayOrigin : String) (inboxUrl : Option String)
    (now : UInt64) : Except ContactDirectoryError Unit × ContactDirectory :=
  let existing := directory.get accountId
  if existing.any (·.deviceId ≠ deviceId) then
    (.error .duplicateDevice, directory)
  else
    (.ok (), directory.insert accountId <|
      upserted existing accountId deviceId relayOrigin inboxUrl now)

def setAlias (accountId aliasName : String) :
    Except ContactDirectoryError Unit × ContactDirectory :=
  if aliasName.utf8ByteSize > maxAliasBytes ∨ aliasName.toList.any Text.isControl then
    (.error .invalidAlias, directory)
  else
    directory.withContact accountId fun contact => .ok <| contact.withAlias aliasName

def bindConversation (accountId conversationId : String) :
    Except ContactDirectoryError Unit × ContactDirectory :=
  directory.withContact accountId fun contact =>
    if conversationId.isEmpty ∨ conversationId.utf8ByteSize > 128 ∨
        !conversationId.toList.all Text.isAscii then
      .error .invalidAlias
    else
      .ok { contact with conversationId := some conversationId }

def markRead (accountId : String) : Except ContactDirectoryError Unit × ContactDirectory :=
  directory.withContact accountId fun contact => .ok { contact with unreadCount := 0 }

def block (accountId : String) : Except ContactDirectoryError Unit × ContactDirectory :=
  directory.withContact accountId fun contact => .ok { contact with state := "blocked" }

def unblock (accountId : String) : Except ContactDirectoryError Unit × ContactDirectory :=
  directory.withContact accountId fun contact => .ok { contact with state := "verified" }

def remove (accountId : String) : Except ContactDirectoryError ContactRecord × ContactDirectory :=
  match directory.get accountId with
  | none         => (.error .contactNotFound, directory)
  | some contact => (.ok contact, { contacts := directory.contacts.erase accountId })

-- The first entry, in the order of the accounts, that holds the conversation.
def entryFor (conversationId : String) : Option (String × ContactRecord) :=
  directory.contacts.toList.find? (·.snd.holdsConversation conversationId)

def forConversation (conversationId : String) : Option ContactRecord :=
  (directory.entryFor conversationId).map (·.snd)

def isBlockedConversation (conversationId : String) : Bool :=
  directory.contacts.toList.any fun entry =>
    entry.snd.state = "blocked" && entry.snd.holdsConversation conversationId

def recordMessage (conversationId preview : String) (now : UInt64) (background : Bool) :
    Except ContactDirectoryError Unit × ContactDirectory :=
  match directory.entryFor conversationId with
  | none                      => (.error .contactNotFound, directory)
  | some (accountId, contact) =>
    (.ok (), directory.insert accountId (contact.withMessage preview now background))

-- The part of `register_approved_contact` that works on the directory.
def registerApproved (peer : VerifiedInvite) (now : UInt64) :
    Except ContactDirectoryError Unit × ContactDirectory :=
  match directory.upsertVerifiedWithInbox peer.accountId peer.deviceId peer.relayOrigin
      peer.inboxUrl now with
  | (.error e, directory) => (.error e, directory)
  | (.ok (), directory)   =>
    match peer.conversationId with
    | none                => (.ok (), directory)
    | some conversationId => directory.bindConversation peer.accountId conversationId

end ContactDirectory

-- A call of one of the operations that change the directory.
inductive ContactOp
  | registerApproved (peer : VerifiedInvite) (now : UInt64)
  | setAlias (accountId aliasName : String)
  | bindConversation (accountId conversationId : String)
  | block (accountId : String)
  | unblock (accountId : String)
  | markRead (accountId : String)
  | recordMessage (conversationId preview : String) (now : UInt64) (background : Bool)
  | remove (accountId : String)

-- The directory after the call, whatever it returned.
def ContactDirectory.step (directory : ContactDirectory) : ContactOp → ContactDirectory
  | .registerApproved peer now                          =>
    (directory.registerApproved peer now).snd
  | .setAlias accountId aliasName                           =>
    (directory.setAlias accountId aliasName).snd
  | .bindConversation accountId conversationId          =>
    (directory.bindConversation accountId conversationId).snd
  | .block accountId                                    =>
    (directory.block accountId).snd
  | .unblock accountId                                  =>
    (directory.unblock accountId).snd
  | .markRead accountId                                 =>
    (directory.markRead accountId).snd
  | .recordMessage conversationId preview now background =>
    (directory.recordMessage conversationId preview now background).snd
  | .remove accountId                                   =>
    (directory.remove accountId).snd
