import AnotherDimension.Library.Decode
import AnotherDimension.Library.Integers
import AnotherDimension.Pairing.Peer

-- The descriptor of an attachment, as it travels inside a message and as it is stored.

inductive AttachmentError
  | empty
  | tooLarge
  | invalidManifest
  | invalidChunk
  | authenticationFailed
  | randomnessUnavailable
  deriving DecidableEq, Repr

structure AttachmentChunkDescriptor where
  index          : UInt32
  nonce          : String
  ciphertextSize : UInt32
  deriving DecidableEq, Repr

structure AttachmentDescriptor where
  version      : UInt8
  blobId       : String
  key          : ByteBlock 32
  chunkSize    : UInt32
  originalSize : UInt64
  chunks       : List AttachmentChunkDescriptor
  fileName     : Option String
  mediaType    : Option String
  deriving DecidableEq, Repr

namespace AttachmentChunkDescriptor

def toJson (chunk : AttachmentChunkDescriptor) : String :=
  Json.object [
    ("index", Json.number chunk.index.toUInt64),
    ("nonce", Json.string chunk.nonce),
    ("ciphertext_size", Json.number chunk.ciphertextSize.toUInt64)
  ]

end AttachmentChunkDescriptor

namespace AttachmentDescriptor

def attachmentVersion : UInt8 := 1

def standardChunkSize : Nat := 64 * 1024

def maxAttachmentBytes : Nat := 32 * 1024 * 1024

def maxChunks : Nat := (maxAttachmentBytes + standardChunkSize - 1) / standardChunkSize

-- A name or a media type that is not there is not written.
def optionalMember (name : String) (value : Option String) : List (String × String) :=
  value.toList.map fun text => (name, Json.string text)

-- `serde_json::to_vec`
def encoded (descriptor : AttachmentDescriptor) : Bytes :=
  Bytes.utf8 <| Json.object <| [
    ("version", Json.number descriptor.version.toUInt64),
    ("blob_id", Json.string descriptor.blobId),
    ("key", Json.array <| descriptor.key.val.map fun byte => Json.number byte.toUInt64),
    ("chunk_size", Json.number descriptor.chunkSize.toUInt64),
    ("original_size", Json.number descriptor.originalSize),
    ("chunks", Json.array <| descriptor.chunks.map (·.toJson))
  ] ++ optionalMember "file_name" descriptor.fileName ++
    optionalMember "media_type" descriptor.mediaType

def validBlobId (value : String) : Bool :=
  32 ≤ value.utf8ByteSize && value.utf8ByteSize ≤ 128 && value.toList.all isTokenChar

def sanitizeFileName (value : Option String) : Except AttachmentError (Option String) :=
  match value.filter (!·.isEmpty) with
  | none       => .ok none
  | some value =>
    if value.utf8ByteSize > 255 ∨ value.toList.contains '/' ∨ value.toList.contains '\\' ∨
        value.toList.contains '\x00' then
      .error .invalidManifest
    else
      .ok (some value)

def sanitizeMediaType (value : Option String) : Except AttachmentError (Option String) :=
  match value.filter (!·.isEmpty) with
  | none       => .ok none
  | some value =>
    if value.utf8ByteSize > 128 ∨ !value.toList.all Text.isAscii ∨ value.toList.contains '\r' ∨
        value.toList.contains '\n' then
      .error .invalidManifest
    else
      .ok (some value)

-- The loop of `validate_descriptor`: `expected` is the position of the next chunk.
def validateChunks (count : Nat) : (expected : Nat) → (plaintextSize : UInt64) →
    List AttachmentChunkDescriptor → Except AttachmentError UInt64
  | _, plaintextSize, []                      => .ok plaintextSize
  | expected, plaintextSize, chunk :: chunks =>
    if chunk.index ≠ UInt32.ofNat expected ∨ chunk.ciphertextSize < 16 ∨
        chunk.ciphertextSize.toNat > standardChunkSize + 16 ∨
        (Bytes.fromHex chunk.nonce).all (·.length ≠ 12) then
      .error .invalidChunk
    else
      match plaintextSize.checkedAdd (chunk.ciphertextSize - 16).toUInt64 with
      | none               => .error .tooLarge
      | some plaintextSize =>
        if expected + 1 < count ∧ chunk.ciphertextSize.toNat ≠ standardChunkSize + 16 then
          .error .invalidChunk
        else
          validateChunks count (expected + 1) plaintextSize chunks

def validate (descriptor : AttachmentDescriptor) : Except AttachmentError Unit :=
  if !validBlobId descriptor.blobId ∨ descriptor.version ≠ attachmentVersion ∨
      descriptor.chunkSize.toNat ≠ standardChunkSize ∨ descriptor.originalSize = 0 ∨
      descriptor.originalSize.toNat > maxAttachmentBytes ∨ descriptor.chunks.isEmpty ∨
      descriptor.chunks.length > maxChunks then
    .error .invalidManifest
  else do
    let _ ← sanitizeFileName descriptor.fileName
    let _ ← sanitizeMediaType descriptor.mediaType
    let plaintextSize ← validateChunks descriptor.chunks.length 0 0 descriptor.chunks
    if plaintextSize ≠ descriptor.originalSize then .error .invalidManifest else .ok ()

end AttachmentDescriptor

def attachmentMessagePrefix : Bytes :=
  Bytes.utf8 "ADATT1."

-- `fromSlice` is what `serde_json` reads.
def attachmentDescriptorFromPlaintext (fromSlice : Bytes → Option AttachmentDescriptor)
    (plaintext : Bytes) : Option AttachmentDescriptor :=
  (Bytes.stripPrefix attachmentMessagePrefix plaintext).bind fromSlice
