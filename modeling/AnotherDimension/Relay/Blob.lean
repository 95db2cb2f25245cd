import AnotherDimension.Relay.State

-- Blobs are uploaded in chunks. The handler takes its file steps one by one, without a lock.

namespace Relay

-- A header that is missing has its default; one that is no number is an error.
def headerUsize (header : Option String) (default : Nat) : Option Nat :=
  match header with
  | none      => some default
  | some text => (Text.parseU64 text).map UInt64.toNat

-- A chunk, with the two headers of its request.
structure ChunkRequest where
  id           : String
  offsetHeader : Option String
  totalHeader  : Option String
  body         : Bytes
  now          : UInt64
  deriving DecidableEq, Repr

-- The same after the headers were read.
structure Chunk where
  id     : String
  offset : Nat
  total  : Nat
  body   : Bytes
  now    : UInt64
  deriving DecidableEq, Repr

-- What happens to a file step. A write can fail after some bytes, or before the file is touched.
inductive WriteFate
  | done
  | failed (written : Nat)
  | refused
  deriving DecidableEq, Repr

-- The file step an upload takes next, or the reply that ended it.
inductive Upload
  | reading
  | opening
  | measuring
  | writing
  | recording
  | replied (reply : Reply)

-- Writing from an offset on; a gap is filled with zeros.
def overwrite (content : Bytes) (offset : Nat) (body : Bytes) : Bytes :=
  content.take offset ++ .replicate (offset - content.length) 0 ++ body ++
    content.drop (offset + body.length)

def Blob.write (blob : Blob) (offset : Nat) (body : Bytes) : Blob :=
  { blob with content := some (overwrite (blob.content.getD []) offset body) }

namespace Chunk

def finish (chunk : Chunk) : Nat :=
  chunk.offset + chunk.body.length

def accepted (chunk : Chunk) (complete : Bool) (duplicate : List (String × JsonValue))
    (received : Nat) : Reply :=
  .json (if complete then 201 else 202) <| .object <|
    [("accepted", .bool true), ("complete", .bool complete)] ++ duplicate ++
    [("received", .nat received), ("total", .nat chunk.total),
      ("expiresAt", .u64 <| chunk.now + ttlSeconds),
      ("blobUrl", .string <| "/api/v1/blobs/" ++ chunk.id)]

-- The reply to a chunk that is there already.
def duplicate (chunk : Chunk) (existing : Bytes) : Reply :=
  chunk.accepted (existing.length = chunk.total) [("duplicate", .bool true)] existing.length

def written (chunk : Chunk) : Reply :=
  chunk.accepted (chunk.finish = chunk.total) [] chunk.finish

def metadata (chunk : Chunk) : Bytes :=
  Bytes.utf8 <| JsonValue.text <| .object [
    ("version", .nat 1),
    ("total", .nat chunk.total),
    ("received", .nat chunk.finish),
    ("complete", .bool (chunk.finish = chunk.total)),
    ("expiresAt", .u64 <| chunk.now + ttlSeconds)
  ]

-- The checks before the first file step.
def ofRequest (request : ChunkRequest) : Except Reply Chunk :=
  match headerUsize request.offsetHeader 0 with
  | none        => .error (.error 400 "invalid_blob_metadata")
  | some offset =>
    match headerUsize request.totalHeader 0 with
    | none       => .error (.error 400 "invalid_blob_metadata")
    | some total =>
      if total = 0 ∨ total > maxBlobBytes then
        .error (.error 400 "invalid_blob_metadata")
      else if offset > total ∨ offset + request.body.length > total then
        .error (.error 400 "blob_chunk_out_of_bounds")
      else
        .ok ⟨request.id, offset, total, request.body, request.now⟩

-- One file step of an upload.
def step (chunk : Chunk) (upload : Upload) (blob : Blob) (fate : WriteFate) : Upload × Blob :=
  match upload with
  | .reading =>
    match fate, blob.content with
    | .done, some existing =>
      if chunk.offset < existing.length then
        if chunk.finish ≤ existing.length ∧
            (existing.drop chunk.offset).take chunk.body.length = chunk.body then
          (.replied <| chunk.duplicate existing, blob)
        else
          (.replied <| .error 409 "blob_chunk_conflict", blob)
      else if chunk.offset ≠ existing.length then
        (.replied <| .error 400 "blob_offset_mismatch", blob)
      else
        (.opening, blob)
    -- A file that cannot be read is taken for one that is not there.
    | _, _ => (.opening, blob)
  | .opening =>
    match fate with
    | .done => (.measuring, { blob with content := some (blob.content.getD []) })
    | _     =>
      if chunk.offset ≠ 0 then
        (.replied <| .error 400 "blob_offset_mismatch", blob)
      else
        (.replied <| .error 500 "blob_storage_error", blob)
  | .measuring =>
    match fate with
    | .done =>
      if (blob.content.getD []).length ≠ chunk.offset then
        (.replied <| .error 400 "blob_offset_mismatch", blob)
      else
        (.writing, blob)
    | _     => (.replied <| .error 400 "blob_offset_mismatch", blob)
  | .writing =>
    match fate with
    | .done           => (.recording, blob.write chunk.offset chunk.body)
    | .failed written =>
      (.replied <| .error 500 "blob_storage_error",
        blob.write chunk.offset (chunk.body.take written))
    | .refused        => (.replied <| .error 500 "blob_storage_error", blob)
  | .recording =>
    match fate with
    | .done           => (.replied chunk.written, { blob with metadata := some chunk.metadata })
    | .failed written =>
      (.replied <| .error 500 "blob_storage_error",
        { blob with metadata := some (chunk.metadata.take written) })
    | .refused        => (.replied <| .error 500 "blob_storage_error", blob)
  | .replied reply => (.replied reply, blob)

end Chunk

-- The fate of each file step of an upload.
structure UploadFates where
  read    : WriteFate
  create  : WriteFate
  measure : WriteFate
  write   : WriteFate
  record  : WriteFate
  deriving DecidableEq, Repr

def UploadFates.of (fates : UploadFates) : Upload → WriteFate
  | .reading   => fates.read
  | .opening   => fates.create
  | .measuring => fates.measure
  | .writing   => fates.write
  | .recording => fates.record
  | .replied _ => .done

def Chunk.advance (chunk : Chunk) (fates : UploadFates) (progress : Upload × Blob) :
    Upload × Blob :=
  chunk.step progress.fst progress.snd (fates.of progress.fst)

-- The steps of an upload that nothing comes between. There are at most five.
def Chunk.run (chunk : Chunk) (fates : UploadFates) (progress : Upload × Blob) : Upload × Blob :=
  (chunk.advance fates)^[5] progress

namespace Blob

-- An upload that nothing comes between, and whose writes succeed.
def post (blob : Blob) (request : ChunkRequest) : Reply × Blob :=
  match Chunk.ofRequest request with
  | .error reply => (reply, blob)
  | .ok chunk    =>
    let append : Reply × Blob :=
      if (blob.content.getD []).length ≠ chunk.offset then
        (.error 400 "blob_offset_mismatch", { blob with content := some (blob.content.getD []) })
      else
        (chunk.written,
          { blob.write chunk.offset chunk.body with metadata := some chunk.metadata })
    match blob.content with
    | none          => append
    | some existing =>
      if chunk.offset < existing.length then
        if chunk.finish ≤ existing.length ∧
            (existing.drop chunk.offset).take chunk.body.length = chunk.body then
          (chunk.duplicate existing, blob)
        else
          (.error 409 "blob_chunk_conflict", blob)
      else if chunk.offset ≠ existing.length then
        (.error 400 "blob_offset_mismatch", blob)
      else
        append

-- The same when file steps can fail.
def tryPost (blob : Blob) (request : ChunkRequest) (fates : UploadFates) : Upload × Blob :=
  match Chunk.ofRequest request with
  | .error reply => (.replied reply, blob)
  | .ok chunk    => chunk.run fates (.reading, blob)

-- Nobody looks at what became of the two removals.
def delete (blob : Blob) (contentFate metadataFate : WriteFate) : Reply × Blob :=
  (.json 200 <| .object [("deleted", .bool true)], {
    content  := if contentFate = .done then none else blob.content
    metadata := if metadataFate = .done then none else blob.metadata
  })

def get (blob : Blob) (offsetHeader lengthHeader : Option String) : Reply :=
  match blob.content with
  | none       => .error 404 "blob_not_found"
  | some bytes =>
    match headerUsize offsetHeader 0 with
    | none        => .error 400 "invalid_blob_range"
    | some offset =>
      if offset > bytes.length then
        .error 400 "invalid_blob_range"
      else
        let length := ((headerUsize lengthHeader (bytes.length - offset)).getD 0).min
          (bytes.length - offset)
        .content offset bytes.length ((bytes.drop offset).take length)

end Blob

def validBlobId (value : String) : Bool :=
  32 ≤ value.utf8ByteSize && value.utf8ByteSize ≤ 128 &&
    value.toList.all fun c => Text.isAsciiAlphanumeric c || c = '_' || c = '-'

inductive BlobMethod
  | get (offsetHeader lengthHeader : Option String)
  | post (offsetHeader totalHeader : Option String) (body : Bytes)
  | delete

namespace State

-- The handler when nothing comes between its file steps.
def blobImpl (s : State) (call : Call) (id : String) (header : Option String)
    (method : BlobMethod) : Reply × State :=
  s.limited call fun s =>
    if !validBlobId id then
      (.error 400 "invalid_blob_id", s)
    else if header ≠ some s.capability then
      (.error 403 "relay_capability_required", s)
    else
      match method with
      | .delete =>
        let (reply, blob) := (s.blobs id).delete .done .done
        (reply, { s with blobs := Function.update s.blobs id blob })
      | .get offsetHeader lengthHeader =>
        ((s.blobs id).get offsetHeader lengthHeader, s)
      | .post offsetHeader totalHeader body =>
        let (reply, blob) := (s.blobs id).post ⟨id, offsetHeader, totalHeader, body, call.now⟩
        (reply, { s with blobs := Function.update s.blobs id blob })

end State

end Relay
