import AnotherDimension.Library.Aead
import AnotherDimension.Library.Chunks
import AnotherDimension.Attachments.Descriptor

-- Encryption of an attachment in chunks, at once and step by step, and the way back.

structure AttachmentChunk where
  index      : UInt32
  nonce      : String
  ciphertext : String
  deriving DecidableEq, Repr

structure AttachmentManifest where
  version      : UInt8
  chunkSize    : UInt32
  originalSize : UInt64
  chunks       : List AttachmentChunk
  deriving DecidableEq, Repr

structure EncryptedAttachment where
  descriptor : AttachmentDescriptor
  blob       : Bytes
  deriving DecidableEq, Repr

structure AttachmentJob where
  blobId    : String
  key       : ByteBlock 32
  total     : Nat
  nextIndex : UInt32
  received  : Nat
  chunks    : List AttachmentChunkDescriptor
  blob      : Bytes
  fileName  : Option String
  mediaType : Option String
  deriving DecidableEq, Repr

namespace Attachment

open AttachmentDescriptor

def aad (index : UInt32) (originalSize : UInt64) : Bytes :=
  Bytes.utf8 "another-dimension/attachment/v1" ++ Bytes.ofNat 4 index.toNat ++
    Bytes.ofNat 8 originalSize.toNat

-- Unlike elsewhere in the daemon, no digits at all are not accepted.
def decodeHex (value : String) : Option Bytes :=
  if value.isEmpty then none else Bytes.fromHex value

-- `decode_hex` followed by the check that there are 12 bytes.
def decodeNonce (value : String) : Option (ByteBlock 12) :=
  (decodeHex value).bind fun bytes => if h : bytes.length = 12 then some ⟨bytes, h⟩ else none

-- `nonces` are the random nonces in the order in which they are drawn; `getrandom` can fail.
def encryptChunk (aead : Aead) (key : ByteBlock 32) (originalSize : UInt64)
    (nonces : Nat → Option (ByteBlock 12)) (chunk : Bytes × Nat) :
    Except AttachmentError AttachmentChunk :=
  match nonces chunk.snd with
  | none       => .error .randomnessUnavailable
  | some nonce =>
    match aead.encrypt key nonce (aad (.ofNat chunk.snd) originalSize) chunk.fst with
    | none            => .error .authenticationFailed
    | some ciphertext => .ok {
        index      := .ofNat chunk.snd
        nonce      := Bytes.toHex nonce.val
        ciphertext := Bytes.toHex ciphertext }

def encrypt (aead : Aead) (plaintext : Bytes) (key : ByteBlock 32)
    (nonces : Nat → Option (ByteBlock 12)) : Except AttachmentError AttachmentManifest :=
  if plaintext.isEmpty then
    .error .empty
  else if plaintext.length > maxAttachmentBytes then
    .error .tooLarge
  else do
    let chunks ← (plaintext.chunks standardChunkSize).zipIdx.mapM <|
      encryptChunk aead key (.ofNat plaintext.length) nonces
    return {
      version      := attachmentVersion
      chunkSize    := .ofNat standardChunkSize
      originalSize := .ofNat plaintext.length
      chunks       := chunks }

-- One round of the loop of `decrypt`.
def decryptChunk (aead : Aead) (key : ByteBlock 32) (originalSize : UInt64) (count : Nat)
    (chunk : AttachmentChunk × Nat) : Except AttachmentError Bytes :=
  if chunk.fst.index ≠ .ofNat chunk.snd then
    .error .invalidChunk
  else
    match decodeNonce chunk.fst.nonce, decodeHex chunk.fst.ciphertext with
    | some nonce, some ciphertext =>
      if ciphertext.length < 16 ∨ ciphertext.length > standardChunkSize + 16 then
        .error .invalidChunk
      else
        match aead.decrypt key nonce (aad chunk.fst.index originalSize) ciphertext with
        | none           => .error .authenticationFailed
        | some plaintext =>
          if plaintext.length > standardChunkSize ∨
              chunk.snd + 1 < count ∧ plaintext.length ≠ standardChunkSize then
            .error .invalidChunk
          else
            .ok plaintext
    | _, _                        => .error .invalidChunk

def decrypt (aead : Aead) (manifest : AttachmentManifest) (key : ByteBlock 32) :
    Except AttachmentError Bytes :=
  if manifest.version ≠ attachmentVersion ∨ manifest.chunkSize.toNat ≠ standardChunkSize ∨
      manifest.originalSize = 0 ∨ manifest.originalSize.toNat > maxAttachmentBytes ∨
      manifest.chunks.isEmpty then
    .error .invalidManifest
  else if manifest.chunks.length > maxChunks then
    .error .tooLarge
  else do
    let parts ← manifest.chunks.zipIdx.mapM <|
      decryptChunk aead key manifest.originalSize manifest.chunks.length
    let plaintext := parts.flatten
    if plaintext.length ≠ manifest.originalSize.toNat then
      .error .invalidManifest
    else
      .ok plaintext

def describeChunk (chunk : AttachmentChunk) :
    Except AttachmentError (AttachmentChunkDescriptor × Bytes) :=
  match decodeHex chunk.ciphertext with
  | none            => .error .invalidChunk
  | some ciphertext =>
    .ok ({ index := chunk.index, nonce := chunk.nonce, ciphertextSize := .ofNat ciphertext.length },
      ciphertext)

def encryptForBlob (aead : Aead) (plaintext : Bytes) (key : ByteBlock 32) (blobId : String)
    (nonces : Nat → Option (ByteBlock 12)) : Except AttachmentError EncryptedAttachment :=
  if !validBlobId blobId then
    .error .invalidManifest
  else do
    let manifest ← encrypt aead plaintext key nonces
    let chunks ← manifest.chunks.mapM describeChunk
    return {
      descriptor := {
        version      := manifest.version
        blobId       := blobId
        key          := key
        chunkSize    := manifest.chunkSize
        originalSize := manifest.originalSize
        chunks       := chunks.map Prod.fst
        fileName     := none
        mediaType    := none }
      blob       := (chunks.map Prod.snd).flatten }

-- The loop of `decrypt_blob`: the chunks cut out of the blob, and where the last of them ends.
def splitBlob (blob : Bytes) : (expected offset : Nat) → List AttachmentChunkDescriptor →
    Except AttachmentError (List AttachmentChunk × Nat)
  | _, offset, []                      => .ok ([], offset)
  | expected, offset, chunk :: chunks =>
    if chunk.index ≠ .ofNat expected ∨ chunk.ciphertextSize < 16 ∨
        chunk.ciphertextSize.toNat > standardChunkSize + 16 ∨
        offset + chunk.ciphertextSize.toNat ≥ 2 ^ 64 then
      .error .invalidChunk
    else if offset + chunk.ciphertextSize.toNat > blob.length then
      .error .invalidChunk
    else do
      let ciphertext := (blob.drop offset).take chunk.ciphertextSize.toNat
      let (rest, final) ←
        splitBlob blob (expected + 1) (offset + chunk.ciphertextSize.toNat) chunks
      return ({ index := chunk.index, nonce := chunk.nonce, ciphertext := Bytes.toHex ciphertext }
        :: rest, final)

def decryptBlob (aead : Aead) (descriptor : AttachmentDescriptor) (blob : Bytes) :
    Except AttachmentError Bytes := do
  descriptor.validate
  let (chunks, final) ← splitBlob blob 0 0 descriptor.chunks
  if final ≠ blob.length then
    .error .invalidManifest
  else
    decrypt aead {
      version      := descriptor.version
      chunkSize    := descriptor.chunkSize
      originalSize := descriptor.originalSize
      chunks       := chunks } descriptor.key

def decryptBlobChunk (aead : Aead) (descriptor : AttachmentDescriptor) (index : UInt32)
    (ciphertext : Bytes) : Except AttachmentError Bytes := do
  descriptor.validate
  match descriptor.chunks[index.toNat]? with
  | none       => .error .invalidChunk
  | some chunk =>
    if chunk.index ≠ index ∨ chunk.ciphertextSize.toNat ≠ ciphertext.length ∨
        ciphertext.length < 16 ∨ ciphertext.length > standardChunkSize + 16 then
      .error .invalidChunk
    else
      match decodeNonce chunk.nonce with
      | none       => .error .invalidChunk
      | some nonce =>
        match aead.decrypt descriptor.key nonce (aad index descriptor.originalSize) ciphertext with
        | none           => .error .authenticationFailed
        | some plaintext => .ok plaintext

end Attachment

namespace AttachmentJob

open AttachmentDescriptor

-- `key` is the random key, when there is one.
def startWithMetadata (blobId : String) (total : Nat) (fileName mediaType : Option String)
    (key : Option (ByteBlock 32)) : Except AttachmentError AttachmentJob :=
  if !validBlobId blobId then
    .error .invalidManifest
  else if total = 0 then
    .error .empty
  else if total > maxAttachmentBytes then
    .error .tooLarge
  else do
    let fileName ← sanitizeFileName fileName
    let mediaType ← sanitizeMediaType mediaType
    match key with
    | none     => .error .randomnessUnavailable
    | some key => .ok {
        blobId    := blobId
        key       := key
        total     := total
        nextIndex := 0
        received  := 0
        chunks    := []
        blob      := []
        fileName  := fileName
        mediaType := mediaType }

def start (blobId : String) (total : Nat) (key : Option (ByteBlock 32)) :
    Except AttachmentError AttachmentJob :=
  startWithMetadata blobId total none none key

-- A failed call leaves the job as it is.
def append (aead : Aead) (job : AttachmentJob) (index : UInt32) (plaintext : Bytes)
    (nonce : Option (ByteBlock 12)) : Except AttachmentError AttachmentJob :=
  if index ≠ job.nextIndex ∨ plaintext.isEmpty ∨ plaintext.length > standardChunkSize then
    .error .invalidChunk
  else if job.received + plaintext.length > job.total ∨
      job.received + plaintext.length < job.total ∧ plaintext.length ≠ standardChunkSize then
    .error .invalidChunk
  else
    match nonce with
    | none       => .error .randomnessUnavailable
    | some nonce =>
      match aead.encrypt job.key nonce (Attachment.aad index (.ofNat job.total)) plaintext with
      | none            => .error .authenticationFailed
      | some ciphertext => .ok { job with
          blob      := job.blob ++ ciphertext
          chunks    := job.chunks ++ [{
            index          := index
            nonce          := Bytes.toHex nonce.val
            ciphertextSize := .ofNat ciphertext.length }]
          received  := job.received + plaintext.length
          nextIndex := job.nextIndex.saturatingAdd 1 }

def finish (job : AttachmentJob) : Except AttachmentError EncryptedAttachment :=
  if job.received ≠ job.total ∨ job.blob.isEmpty then
    .error .invalidManifest
  else
    .ok {
      descriptor := {
        version      := attachmentVersion
        blobId       := job.blobId
        key          := job.key
        chunkSize    := .ofNat standardChunkSize
        originalSize := .ofNat job.total
        chunks       := job.chunks
        fileName     := job.fileName
        mediaType    := job.mediaType }
      blob       := job.blob }

-- The calls the local interface makes for a whole file.
def appendAll (aead : Aead) (nonces : Nat → Option (ByteBlock 12)) (job : AttachmentJob)
    (chunks : List (Bytes × Nat)) : Except AttachmentError AttachmentJob :=
  chunks.foldlM (fun job chunk => job.append aead (.ofNat chunk.snd) chunk.fst (nonces chunk.snd))
    job

end AttachmentJob
