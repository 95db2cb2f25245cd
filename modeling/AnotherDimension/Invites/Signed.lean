import AnotherDimension.Identity.Registry
import AnotherDimension.Library.Integers
import AnotherDimension.Library.Lines
import AnotherDimension.Pairing.Peer

-- Signed invites: how a daemon makes one, and how another daemon checks it.

namespace Invites

def maxInviteTtlSeconds : UInt64 := 10 * 60

-- The lines of what is signed.
def lines (accountId deviceId : String) (codeHash : ByteBlock 32) (expiresAt : UInt64)
    (relayOrigin : String) (inboxUrl conversationId : Option String) : List String :=
  ["another-dimension/invite/v1", accountId, deviceId, Bytes.toHex codeHash.val,
    Text.formatU64 expiresAt, relayOrigin, inboxUrl.getD "", conversationId.getD ""]

def payload (accountId deviceId : String) (codeHash : ByteBlock 32) (expiresAt : UInt64)
    (relayOrigin : String) (inboxUrl conversationId : Option String) : String :=
  (String.singleton '\n').intercalate
    (lines accountId deviceId codeHash expiresAt relayOrigin inboxUrl conversationId)

-- `hex_decode` of the daemon: no empty text, an even number of digits.
def hexDecode (value : String) : Option Bytes :=
  if value.isEmpty then none else Bytes.fromHex value

def isAsciiHexdigit (c : Char) : Bool :=
  (Bytes.hexValue c).isSome

-- The checks on the lines of a payload, without its signature. A line that is empty or missing at
-- the end stands for an inbox or a conversation that is not there.
def readLines (sha256 : Bytes → ByteBlock 32) (expectedCode : Option String) (now : UInt64) :
    List String → Option VerifiedInvite
  | header :: accountId :: deviceId :: codeHash :: expiresAt :: relayOrigin :: rest => do
    let expiresAt ← Text.parseU64 expiresAt
    let inboxUrl := rest[0]?.filter (!·.isEmpty)
    let conversationId := rest[1]?.filter (!·.isEmpty)
    if header ≠ "another-dimension/invite/v1" ∨ rest.length > 2 ∨
        (Text.stripPrefix "ad1pk" accountId).isNone ∨ now ≥ expiresAt ∨
        expiresAt > now.saturatingAdd maxInviteTtlSeconds ∨
        conversationId.any (fun value =>
          (Text.stripPrefix "adconv" value).isNone || value.utf8ByteSize > 80) ∨
        ¬inboxUrl.all (validateBoundInboxUrl relayOrigin) ∨
        ¬codeHash.toList.all isAsciiHexdigit ∨ codeHash.utf8ByteSize ≠ 64 then
      none
    else if expectedCode.any fun code =>
        code.isEmpty || codeHash ≠
          Bytes.toHex (sha256 <| Bytes.utf8 <| .ofList <| code.toList.filter (· ≠ '-')).val then
      none
    else
      return { accountId, deviceId, expiresAt, relayOrigin, inboxUrl, conversationId }
  | _ => none

-- The key in an account id.
def accountKey (accountId : String) : Option (ByteBlock 32) := do
  let bytes ← hexDecode (← Text.stripPrefix "ad1pk" accountId)
  ByteBlock.ofBytes 32 bytes

def verifySignedInviteWithCode (ed25519 : Ed25519) (sha256 : Bytes → ByteBlock 32)
    (expectedCode : Option String) (signedInvite : String) (now : UInt64) : Option VerifiedInvite :=
  match Text.split '.' signedInvite with
  | [kind, payload, signature] => do
    let payload ← hexDecode payload
    let signature ← hexDecode signature
    let signature ← ByteBlock.ofBytes 64 signature
    let text ← Bytes.fromUtf8 payload
    let invite ← readLines sha256 expectedCode now (Text.split '\n' text)
    let key ← accountKey invite.accountId
    if kind ≠ "ADDAINV1" ∨ ¬ed25519.verify key payload signature then
      none
    else
      return invite
  | _                          => none

def verifySignedInvite (ed25519 : Ed25519) (sha256 : Bytes → ByteBlock 32) (code : String)
    (signedInvite : String) (now : UInt64) : Option VerifiedInvite :=
  verifySignedInviteWithCode ed25519 sha256 (some code) signedInvite now

def verifySignedInviteUnbound (ed25519 : Ed25519) (sha256 : Bytes → ByteBlock 32)
    (signedInvite : String) (now : UInt64) : Option VerifiedInvite :=
  verifySignedInviteWithCode ed25519 sha256 none signedInvite now

end Invites

-- The fields of the authority that make an invite.
structure InviteIssuer where
  root           : Option AccountRootKey
  deviceId       : String
  relayOrigin    : String
  inboxUrl       : Option String
  deviceRegistry : DeviceRegistry
  pending        : Option (ByteBlock 32 × UInt64)

namespace InviteIssuer

open Identity Invites

variable (ed25519 : Ed25519) (sha256 : Bytes → ByteBlock 32) (toUppercase : Char → List Char)

-- `random` are the bytes `getrandom` gives, if it does.
def create (issuer : InviteIssuer) (now : UInt64) (conversationId : Option String)
    (random : Option (ByteBlock 32)) : Option (String × String) × InviteIssuer :=
  match issuer.deviceRegistry.authorize ed25519 issuer.deviceId now, issuer.root, random with
  | .ok (), some root, some bytes =>
    let code := (Bytes.toHex bytes.val).toList.map Text.toAsciiUppercase
    let expiresAt := now.saturatingAdd 600
    let normalizedCode := (code.filter (· ≠ '-')).flatMap toUppercase
    let codeHash := sha256 <| Bytes.utf8 <| .ofList normalizedCode
    let payload := payload (accountIdFromPublic <| root.publicKey ed25519) issuer.deviceId codeHash
      expiresAt issuer.relayOrigin issuer.inboxUrl conversationId
    let signature := ed25519.sign root.seed (Bytes.utf8 payload)
    let signedInvite := "ADDAINV1." ++ Bytes.toHex (Bytes.utf8 payload) ++ "." ++
      Bytes.toHex signature.val
    (some (.ofList code, signedInvite), { issuer with pending := some (codeHash, expiresAt) })
  | _, _, _                       => (none, issuer)

end InviteIssuer
