import AnotherDimension.Library.Uri

-- The peer of a pairing, and the checks on what it says about itself.

structure VerifiedInvite where
  accountId      : String
  deviceId       : String
  expiresAt      : UInt64
  relayOrigin    : String
  inboxUrl       : Option String
  conversationId : Option String
  deriving DecidableEq, Repr

def maxProtocolIdentifierBytes : Nat := 128

def validateProtocolIdentifier (value : String) : Bool :=
  !value.isEmpty && value.utf8ByteSize ≤ maxProtocolIdentifierBytes &&
    value.toList.all fun c => Text.isAscii c && !Text.isControl c

-- The characters of a relay capability and of a conversation id.
def isTokenChar (c : Char) : Bool :=
  Text.isAsciiAlphanumeric c || c == '-' || c == '_'

def isCapability (cs : List Char) : Bool :=
  cs.length = 43 && cs.all isTokenChar

-- The same check stands in `pairing.rs` and in `contacts.rs`.
def validRelayOrigin (value : String) : Bool :=
  match Text.splitOnce "://".toList value.toList with
  | none                     => false
  | some (scheme, authority) =>
    (scheme = "http".toList || scheme = "https".toList) && !authority.isEmpty &&
      String.utf8Len authority ≤ 2 * 1024 && !authority.contains '/' && !authority.contains '@' &&
      !authority.contains '?' && !authority.contains '#' &&
      !authority.any fun c => Text.isWhitespace c || Text.isControl c

def inboxPath : String := "/api/v1/inbox/"

-- The inbox as a parsed URI: at the relay, without a query, and ending in a capability.
def validateBoundInboxUrl (relayOrigin inboxUrl : String) : Bool :=
  match Uri.parse inboxUrl with
  | some { scheme := some scheme, authority := some authority, path, query } =>
    (scheme = "http" || scheme = "https") && scheme ++ "://" ++ authority = relayOrigin &&
      query.isNone && inboxPath.toList.isPrefixOf path.toList &&
      isCapability (Text.lastSegment '/' path.toList)
  | _                                                                          => false

def validConversationId (value : String) : Bool :=
  !value.isEmpty && value.utf8ByteSize ≤ 128 && value.toList.all isTokenChar

def validVerifiedPeer (peer : VerifiedInvite) : Bool :=
  validateProtocolIdentifier peer.accountId && validateProtocolIdentifier peer.deviceId &&
    validRelayOrigin peer.relayOrigin &&
    peer.inboxUrl.all (validateBoundInboxUrl peer.relayOrigin) &&
    peer.conversationId.all validConversationId
