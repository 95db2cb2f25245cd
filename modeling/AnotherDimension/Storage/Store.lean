import AnotherDimension.Library.Integers
import AnotherDimension.Storage.File

-- The encrypted store. Random bytes are inputs (`none` when the generator fails), and the files
-- are reached through file programs only.

open FileProgram

structure EncryptedStore where
  path     : FilePath
  key      : DatabaseKey
  salt     : Salt
  revision : UInt64
  records  : Records
  locked   : Bool
  deriving DecidableEq

inductive RecordMutation
  | put (cls : RecordClass) (key : String) (value : Bytes)
  | delete (cls : RecordClass) (key : String)
  deriving DecidableEq

namespace Storage

-- Any failure of the file step is an `Io` error.
def atomicWrite (path : FilePath) (contents : Bytes) : FileProgram (Except StorageError Unit) := do
  match ← perform (.write path contents) with
  | .ok _    => return .ok ()
  | .error _ => return .error .io

-- Whether the file is there. Its type and permissions are not part of the disk's model.
def ensurePrivateFile (path : FilePath) : FileProgram (Except StorageError Bool) := do
  match ← perform (.read path) with
  | .ok _            => return .ok true
  | .error .notFound => return .ok false
  | .error .other    => return .error .io

def readMarker (path : FilePath) : FileProgram (Except StorageError (Option UInt64)) := do
  match ← perform (.read path) with
  | .ok bytes        => return (parseMarker bytes).map some
  | .error .notFound => return .ok none
  | .error .other    => return .error .io

section

variable (path : FilePath) (disk : Disk)

@[simp]
theorem atomicWrite_run (contents : Bytes) :
    (atomicWrite path contents).run disk = (Function.update disk path (some contents), .ok ()) :=
  rfl

@[simp]
theorem ensurePrivateFile_run : (ensurePrivateFile path).run disk = (disk, .ok (disk path).isSome) := by
  cases h : disk path <;> simp [ensurePrivateFile, run, FileOp.answer, FileOp.effect, h]

@[simp]
theorem readMarker_run : (readMarker path).run disk =
    (disk, (disk path).elim (.ok none) fun bytes => (parseMarker bytes).map some) := by
  cases h : disk path <;> simp [readMarker, run, FileOp.answer, FileOp.effect, h]

end

def validatePassphrase (passphrase : String) : Except StorageError Unit :=
  if passphrase.length < 12 then
    .error .weakPassphrase
  else if passphrase.length > 1024 then
    .error .invalidPassphrase
  else
    .ok ()

end Storage

namespace RecordMutation

open Storage

-- The checks `apply_batch` makes before it applies a mutation.
def validate : RecordMutation → Except StorageError Unit
  | put _ key value =>
    match validateRecordKey key with
    | .error e => .error e
    | .ok ()   => if value.length > maxValueBytes then .error .recordTooLarge else .ok ()
  | delete _ key    => validateRecordKey key

def apply : RecordMutation → Records → Records
  | put cls key value, records => records.insert (cls, key) value
  | delete cls key, records    => records.erase (cls, key)

-- The loop of `apply_batch`: it stops at the first mutation that is not valid, and leaves the
-- records as they are at that point.
def applyEach : List RecordMutation → Records → Except StorageError Unit × Records
  | [], records                    => (.ok (), records)
  | mutation :: mutations, records =>
    match mutation.validate with
    | .error e => (.error e, records)
    | .ok ()   => applyEach mutations (mutation.apply records)

end RecordMutation

namespace EncryptedStore

open Storage

variable (aead : Aead) (kdf : String → Salt → Option DatabaseKey)

def markerPath (store : EncryptedStore) : FilePath :=
  Storage.markerPath store.path

def writeMarker (store : EncryptedStore) (revision : UInt64) :
    FileProgram (Except StorageError Unit) :=
  atomicWrite store.markerPath (markerBytes revision)

-- The bytes of the store file for the records in memory, at the given revision.
def sealAt (store : EncryptedStore) (nonce : Option Nonce) (revision : UInt64) :
    Except StorageError Bytes :=
  match encodeRecords store.records with
  | .error e      => .error e
  | .ok plaintext =>
    match nonce with
    | none       => .error .io
    | some nonce =>
      match aead.encrypt store.key nonce (associatedData store.salt revision) plaintext with
      | none            => .error .io
      | some ciphertext => .ok (encodeFile store.salt revision nonce ciphertext)

-- The part of `commit` before it touches a file: the next revision and the new file's bytes.
def prepareCommit (store : EncryptedStore) (nonce : Option Nonce) :
    Except StorageError (UInt64 × Bytes) :=
  if store.locked then
    .error .locked
  else if store.records.size > maxRecords then
    .error .tooManyRecords
  else
    match store.revision.checkedAdd 1 with
    | none              => .error .rollbackDetected
    | some nextRevision => (store.sealAt aead nonce nextRevision).map (nextRevision, ·)

-- Puts the marker back as it was before a commit, by removing it when there was none.
def restoreMarker (store : EncryptedStore) (previous : Option Bytes) : FileProgram Bool :=
  match previous with
  | some bytes => do
    match ← atomicWrite store.markerPath bytes with
    | .ok ()   => return true
    | .error _ => return false
  | none       => do
    match ← perform (.remove store.markerPath) with
    | .ok _            => return true
    | .error .notFound => return true
    | .error .other    => return false

-- The rollback of `commit` after the marker could not be written.
def rollBack (store : EncryptedStore) (previousStore : Bytes) (previousMarker : Option Bytes)
    (e : StorageError) : FileProgram (Except StorageError Unit) := do
  let storeRestored ← atomicWrite store.path previousStore
  let markerRestored ← store.restoreMarker previousMarker
  if ¬storeRestored.isOk ∨ ¬markerRestored then
    return .error .io
  else
    return .error e

-- The writes of `commit`: first the store file, then the marker.
def writeFiles (store : EncryptedStore) (nextRevision : UInt64) (bytes previousStore : Bytes)
    (previousMarker : Option Bytes) : FileProgram (Except StorageError Unit) := do
  match ← atomicWrite store.path bytes with
  | .error e => return .error e
  | .ok ()   =>
    match ← store.writeMarker nextRevision with
    | .ok ()   => return .ok ()
    | .error e => store.rollBack previousStore previousMarker e

-- The part of `commit` that reads the two files and replaces them.
def replaceFiles (store : EncryptedStore) (nextRevision : UInt64) (bytes : Bytes) :
    FileProgram (Except StorageError Unit) := do
  match ← perform (.read store.path) with
  | .error _          => return .error .io
  | .ok previousStore =>
    match ← perform (.read store.markerPath) with
    | .ok previousMarker => store.writeFiles nextRevision bytes previousStore previousMarker
    | .error .notFound   => store.writeFiles nextRevision bytes previousStore none
    | .error .other      => return .error .io

def commit (store : EncryptedStore) (nonce : Option Nonce) :
    FileProgram (Except StorageError Unit × EncryptedStore) :=
  match store.prepareCommit aead nonce with
  | .error e                   => return (.error e, store)
  | .ok (nextRevision, bytes) => do
    match ← store.replaceFiles nextRevision bytes with
    | .error e => return (.error e, store)
    | .ok ()   => return (.ok (), { store with revision := nextRevision })

def put (store : EncryptedStore) (nonce : Option Nonce) (cls : RecordClass) (key : String)
    (value : Bytes) : FileProgram (Except StorageError Unit × EncryptedStore) :=
  if store.locked then
    return (.error .locked, store)
  else
    match validateRecordKey key with
    | .error e => return (.error e, store)
    | .ok ()   =>
      if value.length > maxValueBytes then
        return (.error .recordTooLarge, store)
      else do
        let previous := store.records[(cls, key)]?
        match ← { store with records := store.records.insert (cls, key) value }.commit aead nonce with
        | (.ok (), store)   => return (.ok (), store)
        | (.error e, store) =>
          match previous with
          | some old =>
            return (.error e, { store with records := store.records.insert (cls, key) old })
          | none     => return (.error e, { store with records := store.records.erase (cls, key) })

def delete (store : EncryptedStore) (nonce : Option Nonce) (cls : RecordClass) (key : String) :
    FileProgram (Except StorageError Bool × EncryptedStore) :=
  if store.locked then
    return (.error .locked, store)
  else
    match store.records[(cls, key)]? with
    | none          => return (.ok false, store)
    | some previous => do
      match ← { store with records := store.records.erase (cls, key) }.commit aead nonce with
      | (.ok (), store)   => return (.ok true, store)
      | (.error e, store) =>
        return (.error e, { store with records := store.records.insert (cls, key) previous })

def applyBatch (store : EncryptedStore) (nonce : Option Nonce) (mutations : List RecordMutation) :
    FileProgram (Except StorageError Unit × EncryptedStore) :=
  if store.locked then
    return (.error .locked, store)
  else
    match RecordMutation.applyEach mutations store.records with
    | (.error e, records) => return (.error e, { store with records })
    | (.ok (), records)   => do
      match ← { store with records }.commit aead nonce with
      | (.ok (), store')   => return (.ok (), store')
      | (.error e, store') => return (.error e, { store' with records := store.records })

def get (store : EncryptedStore) (cls : RecordClass) (key : String) : Option Bytes :=
  if store.locked then none else store.records[(cls, key)]?

end EncryptedStore

-- The operations that change records.
inductive StoreOp
  | put (cls : RecordClass) (key : String) (value : Bytes)
  | delete (cls : RecordClass) (key : String)
  | applyBatch (mutations : List RecordMutation)

namespace StoreOp

-- What the operation does to the records when it succeeds.
def apply : StoreOp → Records → Records
  | put cls key value, records    => records.insert (cls, key) value
  | delete cls key, records       => records.erase (cls, key)
  | applyBatch mutations, records => mutations.foldl (fun records m => m.apply records) records

def program (aead : Aead) (store : EncryptedStore) (nonce : Option Nonce) :
    StoreOp → FileProgram (Except StorageError Unit × EncryptedStore)
  | put cls key value    => store.put aead nonce cls key value
  | delete cls key       => do
    let (result, store') ← store.delete aead nonce cls key
    return (result.map fun _ => (), store')
  | applyBatch mutations => store.applyBatch aead nonce mutations

-- One operation after the other on the same store, each with its own random bytes.
def programs (aead : Aead) :
    EncryptedStore → List (StoreOp × Option Nonce) → FileProgram EncryptedStore
  | store, []                 => return store
  | store, (op, nonce) :: ops => do
    let (_, store') ← op.program aead store nonce
    programs aead store' ops

end StoreOp
