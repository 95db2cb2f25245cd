import AnotherDimension.Invites.Signed

-- The receipts of a relay, and how a daemon checks them.

-- The keys a relay may sign with, from a manifest.
structure RelayTrust where
  allowedKeyIds : List String
  revokedKeyIds : List String

namespace RelayTrust

def allows (sha256 : Bytes → ByteBlock 32) (trust : RelayTrust) (publicKey : ByteBlock 32) : Bool :=
  let keyId := Bytes.toHex (sha256 publicKey.val).val
  trust.allowedKeyIds.contains keyId && !trust.revokedKeyIds.contains keyId

end RelayTrust

namespace Invites

variable (verifyStrict : (publicKey : ByteBlock 32) → (message : Bytes) → ByteBlock 64 → Bool)
  (sha256 : Bytes → ByteBlock 32) (toUppercase : Char → List Char)

def normalizedCode (code : String) : String :=
  .ofList <| (code.toList.filter (· ≠ '-')).flatMap toUppercase

-- `verifyStrict` is false for a key that is no point of the curve.
def verifyRelayReceipt (code signedInvite receipt : String) (invite : VerifiedInvite)
    (publicKey : Option (ByteBlock 32)) (relayTrust : Option RelayTrust) (now : UInt64) : Bool :=
  match Text.split '.' receipt, publicKey with
  | [kind, keyId, origin, codeHash, inviteDigest, consumedAt, signature], some publicKey =>
    let origin := Bytes.fromUtf8 <| (hexDecode origin).getD []
    let consumedAt := Text.parseU64 consumedAt
    let signature := (hexDecode signature).bind (ByteBlock.ofBytes 64)
    let signedBody := (Text.rsplitOnce '.' receipt).map Prod.fst
    kind = "ADRECEIPT1" && relayTrust.all (·.allows sha256 publicKey) &&
      origin = some invite.relayOrigin && keyId = Bytes.toHex (sha256 publicKey.val).val &&
      codeHash = Bytes.toHex (sha256 <| Bytes.utf8 <| normalizedCode toUppercase code).val &&
      inviteDigest = Bytes.toHex (sha256 <| Bytes.utf8 signedInvite).val &&
      consumedAt.any (· ≤ now.saturatingAdd 300) &&
      (signature.bind fun signature => signedBody.map fun body =>
        verifyStrict publicKey (Bytes.utf8 body) signature) = some true
  | _, _ => false

end Invites
