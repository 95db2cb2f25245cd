import AnotherDimension.Library.Integers
import AnotherDimension.Library.JsonValue
import AnotherDimension.Library.Fallible

-- The relay's state: what it holds in memory, and the files it starts from.

namespace Relay

structure Item where
  id         : String
  envelope   : String
  receivedAt : UInt64
  deriving DecidableEq, Repr

structure Invite where
  version          : UInt8
  codeHash         : String
  invite           : String
  inviteDigest     : String
  createdAt        : UInt64
  expiresAt        : UInt64
  consumedAt       : Option UInt64
  pairingResponses : List JsonValue

structure RateWindow where
  startedAt : UInt64
  requests  : UInt32
  deriving DecidableEq, Repr

-- The files of one blob.
structure Blob where
  content  : Option Bytes
  metadata : Option Bytes
  deriving DecidableEq, Repr

-- What the relay takes from elsewhere. `readItems` and `readInvites` are what `serde_json` makes of
-- the files, `sign` is made with the relay's receipt key.
structure Services where
  fromSlice      : Bytes → Option JsonValue
  readItems      : Bytes → Option (List Item)
  readInvites    : Bytes → Option (List Invite)
  sha256         : Bytes → ByteBlock 32
  toUppercase    : Char → List Char
  validateInvite : (invite origin : String) → (now : UInt64) → Bool
  verifyingKey   : ByteBlock 32
  sign           : Bytes → ByteBlock 64

structure State where
  capability : String
  origin     : String
  items      : List Item
  invites    : List Invite
  window     : RateWindow
  inboxFile  : Option Bytes
  inviteFile : Option Bytes
  blobs      : String → Blob

-- What a request meets: the clock when the rate is checked, when the invite is checked and when the
-- handler reads it again, whether the file can be replaced, and the random bytes of a code.
structure Call where
  arrivedAt : UInt64
  checkedAt : UInt64
  now       : UInt64
  stored    : Bool
  random    : Option (ByteBlock 32)

-- The handlers answer with JSON, or with a part of a blob; the rest comes from the server library.
inductive Reply
  | json (status : Nat) (body : JsonValue)
  | content (offset total : Nat) (bytes : Bytes)
  | plain (status : Nat) (message : String)

def maxEnvelopeBytes : Nat := 96 * 1024

def maxInboxItems : Nat := 256

def maxInvites : Nat := 256

def maxRelayBodyBytes : Nat := 192 * 1024

def maxBlobBytes : Nat := 32 * 1024 * 1024

def ttlSeconds : UInt64 := 7 * 24 * 60 * 60

def rateWindowSeconds : UInt64 := 60

def maxRequestsPerWindow : UInt32 := 120

namespace Reply

def status : Reply → Nat
  | json status _    => status
  | content _ _ _    => 200
  | plain status _   => status

def bodySize : Reply → Nat
  | json _ body       => body.text.utf8ByteSize
  | content _ _ bytes => bytes.length
  | plain _ message   => message.utf8ByteSize

def error (status : Nat) (value : String) : Reply :=
  json status <| .object [("error", .string value)]

def storageError : Reply :=
  error 500 "storage_error"

end Reply

namespace Item

def toJson (item : Item) : JsonValue :=
  .object [
    ("id", .string item.id),
    ("envelope", .string item.envelope),
    ("receivedAt", .u64 item.receivedAt)
  ]

-- What `load_store` asks of an item.
def loads (item : Item) : Bool :=
  item.id.utf8ByteSize = 64 && item.envelope.utf8ByteSize ≤ maxEnvelopeBytes &&
    "ADENV1.".toList.isPrefixOf item.envelope.toList

end Item

namespace Invite

def toJson (invite : Invite) : JsonValue :=
  .object <| [
    ("version", .nat invite.version.toNat),
    ("codeHash", .string invite.codeHash),
    ("invite", .string invite.invite),
    ("inviteDigest", .string invite.inviteDigest),
    ("createdAt", .u64 invite.createdAt),
    ("expiresAt", .u64 invite.expiresAt)
  ] ++ (invite.consumedAt.toList.map fun time => ("consumedAt", .u64 time)) ++
    (if invite.pairingResponses.isEmpty then []
      else [("pairingResponses", .array invite.pairingResponses)])

end Invite

-- `serde_json::to_vec`
def itemsFile (items : List Item) : Bytes :=
  Bytes.utf8 (JsonValue.array <| items.map (·.toJson)).text

def invitesFile (invites : List Invite) : Bytes :=
  Bytes.utf8 (JsonValue.array <| invites.map (·.toJson)).text

-- A file that is not there is an empty list.
def loadStore (readItems : Bytes → Option (List Item)) (file : Option Bytes) :
    Except String (List Item) :=
  match file with
  | none       => .ok []
  | some bytes =>
    match readItems bytes with
    | none       => .error "relay state is corrupt"
    | some items =>
      if items.length > maxInboxItems ∨ items.any (!·.loads) then
        .error "relay state exceeds safe limits"
      else
        .ok items

def loadInvites (readInvites : Bytes → Option (List Invite)) (file : Option Bytes) :
    Except String (List Invite) :=
  match file with
  | none       => .ok []
  | some bytes =>
    match readInvites bytes with
    | none         => .error "invite state is corrupt"
    | some invites =>
      if invites.length > maxInvites ∨ invites.any (·.invite.utf8ByteSize > 96 * 1024) then
        .error "invite state exceeds safe limits"
      else
        .ok invites

namespace State

-- A relay that has never been started before.
def fresh (capability origin : String) (now : UInt64) : State where
  capability := capability
  origin     := origin
  items      := []
  invites    := []
  window     := ⟨now, 0⟩
  inboxFile  := none
  inviteFile := none
  blobs      := fun _ => ⟨none, none⟩

-- The start of the process. The capability and the receipt key are read back from their files.
def restart (services : Services) (s : State) (now : UInt64) : Except String State := do
  let invites ← loadInvites services.readInvites s.inviteFile
  let items ← loadStore services.readItems s.inboxFile
  return { s with items := items, invites := invites, window := ⟨now, 0⟩ }

def rateLimited (s : State) (timestamp : UInt64) : Bool × State :=
  let window :=
    if timestamp.saturatingSub s.window.startedAt ≥ rateWindowSeconds then ⟨timestamp, 0⟩
    else s.window
  let window := { window with requests := window.requests.saturatingAdd 1 }
  (window.requests > maxRequestsPerWindow, { s with window := window })

-- Every handler starts with the rate.
def limited (s : State) (call : Call) (handler : State → Reply × State) : Reply × State :=
  match s.rateLimited call.arrivedAt with
  | (true, s)  => (.error 429 "rate_limit_exceeded", s)
  | (false, s) => handler s

-- The replacement of the file; when it fails, memory stays as it is.
def persist (s : State) (call : Call) (reply : Reply) : Reply × State :=
  if call.stored then
    (reply, { s with inboxFile := some (itemsFile s.items) })
  else
    (.storageError, s)

def persistInvites (s : State) (call : Call) (reply : Reply) : Reply × State :=
  if call.stored then
    (reply, { s with inviteFile := some (invitesFile s.invites) })
  else
    (.storageError, s)

end State

end Relay
