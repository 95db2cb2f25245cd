import AnotherDimension.Library.Decode
import AnotherDimension.Delivery.Ledger

-- The envelope a relay carries, and an item of a relay's inbox.

structure RelayEnvelope where
  version    : UInt8
  mailbox    : String
  envelopeId : String
  expiresAt  : UInt64
  ciphertext : Bytes
  padding    : Bytes
  deriving DecidableEq, Repr

-- The fields of an envelope on the wire.
structure WireEnvelope where
  v : UInt8
  m : String
  i : String
  e : UInt64
  c : String
  p : String
  deriving DecidableEq, Repr

structure RelayItem where
  id       : String
  envelope : String
  deriving DecidableEq, Repr

def WireEnvelope.toJson (wire : WireEnvelope) : String :=
  Json.object [
    ("v", Json.number wire.v.toUInt64),
    ("m", Json.string wire.m),
    ("i", Json.string wire.i),
    ("e", Json.number wire.e),
    ("c", Json.string wire.c),
    ("p", Json.string wire.p)
  ]

namespace RelayEnvelope

def currentVersion : UInt8 := 1

def blockSize : Nat := 256

def maxCiphertextBytes : Nat := 96 * 1024

def maxMailboxBytes : Nat := 128

def expiryBucketSeconds : Nat := 300

def maxEnvelopeTtlSeconds : UInt64 := 7 * 24 * 60 * 60

def validateMailbox (mailbox : String) : Except EnvelopeError Unit :=
  if mailbox.isEmpty ∨ mailbox.utf8ByteSize > maxMailboxBytes ∨
      !mailbox.toList.all fun c => '!' ≤ c && c ≤ '~' && c ≠ '"' && c ≠ '\\' then
    .error .invalidMailbox
  else
    .ok ()

-- The expiry in whole buckets. The product can leave the 64 bits of the code's type.
def roundedExpiry (expiresAt : UInt64) : Nat :=
  (expiresAt.toNat + expiryBucketSeconds - 1) / expiryBucketSeconds * expiryBucketSeconds

def paddedLength (ciphertext : Bytes) : Nat :=
  (ciphertext.length + blockSize - 1) / blockSize * blockSize

-- The padding and the id are random, and `getrandom` can fail.
def create (mailbox : String) (ciphertext : Bytes) (expiresAt now : UInt64)
    (randomPadding : (n : Nat) → Option (ByteBlock n)) (randomId : Option (ByteBlock 16)) :
    Except EnvelopeError RelayEnvelope :=
  match validateMailbox mailbox with
  | .error e => .error e
  | .ok ()   =>
    if ciphertext.isEmpty then
      .error .invalidCiphertext
    else if ciphertext.length > maxCiphertextBytes then
      .error .tooLarge
    else if expiresAt ≤ now ∨ expiresAt > now.saturatingAdd maxEnvelopeTtlSeconds then
      .error .invalidExpiry
    else
      match randomPadding (paddedLength ciphertext - ciphertext.length), randomId with
      | some padding, some id => .ok {
          version    := currentVersion
          mailbox    := mailbox
          envelopeId := Bytes.toHex id.val
          expiresAt  := UInt64.ofNat (roundedExpiry expiresAt)
          ciphertext := ciphertext
          padding    := padding.val }
      | _, _                  => .error .invalidWire

def wire (envelope : RelayEnvelope) : WireEnvelope where
  v := envelope.version
  m := envelope.mailbox
  i := envelope.envelopeId
  e := envelope.expiresAt
  c := Bytes.toHex envelope.ciphertext
  p := Bytes.toHex envelope.padding

def toWire (envelope : RelayEnvelope) : Except EnvelopeError String :=
  if envelope.version ≠ currentVersion ∨
      envelope.ciphertext.length + envelope.padding.length > maxCiphertextBytes + blockSize then
    .error .invalidWire
  else
    .ok envelope.wire.toJson

-- The checks of `from_wire` after the text was read.
def ofWire (parsed : WireEnvelope) (now : UInt64) : Except EnvelopeError RelayEnvelope :=
  if parsed.v ≠ currentVersion ∨ parsed.e ≤ now ∨
      parsed.e > now.saturatingAdd maxEnvelopeTtlSeconds then
    .error (if parsed.e ≤ now then .expired else .invalidWire)
  else
    match validateMailbox parsed.m with
    | .error e => .error e
    | .ok ()   =>
      if parsed.i.utf8ByteSize ≠ 32 ∨ !parsed.i.toList.all fun c => (Bytes.hexValue c).isSome then
        .error .invalidWire
      else
        match Bytes.fromHex parsed.c, Bytes.fromHex parsed.p with
        | some ciphertext, some padding =>
          if ciphertext.isEmpty ∨ ciphertext.length > maxCiphertextBytes ∨
              ciphertext.length + padding.length > maxCiphertextBytes + blockSize then
            .error .tooLarge
          else if (ciphertext.length + padding.length) % blockSize ≠ 0 then
            .error .invalidWire
          else
            .ok { version := parsed.v, mailbox := parsed.m, envelopeId := parsed.i,
                  expiresAt := parsed.e, ciphertext, padding }
        | _, _                          => .error .invalidWire

-- `fromStr` is what `serde_json` reads.
def fromWire (fromStr : String → Option WireEnvelope) (text : String) (now : UInt64) :
    Except EnvelopeError RelayEnvelope :=
  match fromStr text with
  | none        => .error .invalidWire
  | some parsed => ofWire parsed now

def digest (sha256 : Bytes → ByteBlock 32) (envelope : RelayEnvelope) :
    Except EnvelopeError String :=
  envelope.toWire.map fun text => Bytes.toHex (sha256 <| Bytes.utf8 text).val

-- An envelope that was read can be written again.
theorem toWire_of_ofWire {parsed : WireEnvelope} {now : UInt64} {envelope : RelayEnvelope}
    (h : ofWire parsed now = .ok envelope) : envelope.toWire = .ok envelope.wire.toJson := by
  unfold ofWire at h
  split at h
  case isTrue => cases h
  case isFalse hv =>
    split at h
    case h_1 => cases h
    split at h
    case isTrue => cases h
    split at h
    case h_2 => cases h
    split at h
    case isTrue => cases h
    case isFalse hl =>
      split at h
      case isTrue => cases h
      cases h
      simp only [not_or, Decidable.not_not] at hv hl
      simp [toWire, hv.left, hl.right.right]

end RelayEnvelope
