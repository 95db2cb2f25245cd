import AnotherDimension.Storage.Store

-- Creating, opening and re-encrypting a store.

open FileProgram Storage

namespace EncryptedStore

variable (aead : Aead) (kdf : String → Salt → Option DatabaseKey)

def persist (store : EncryptedStore) (nonce : Option Nonce) :
    FileProgram (Except StorageError Unit) :=
  match store.sealAt aead nonce store.revision with
  | .error e  => return .error e
  | .ok bytes =>
    (atomicWrite store.path bytes).andThen fun _ => do
      match ← store.writeMarker store.revision with
      | .ok ()   => return .ok ()
      | .error e =>
        let _ ← perform (.remove store.path)
        let _ ← perform (.remove store.markerPath)
        return .error e

def initializeWithKey (path : FilePath) (key : DatabaseKey) (salt : Salt) (nonce : Option Nonce) :
    FileProgram (Except StorageError EncryptedStore) :=
  (ensurePrivateFile path).andThen fun present =>
    if present then
      return .error .corruptStore
    else do
      let store : EncryptedStore := { path, key, salt, revision := 0, records := ∅, locked := false }
      match ← store.persist aead nonce with
      | .ok ()   => return .ok store
      | .error e =>
        let _ ← perform (.remove store.path)
        let _ ← perform (.remove store.markerPath)
        return .error e

def deriveKey (passphrase : String) (salt : Salt) : Except StorageError DatabaseKey :=
  (kdf passphrase salt).elim (.error .authenticationFailed) .ok

def initializeStore (path : FilePath) (passphrase : String) (salt : Option Salt)
    (nonce : Option Nonce) : FileProgram (Except StorageError EncryptedStore) :=
  match validatePassphrase passphrase with
  | .error e => return .error e
  | .ok ()   =>
    match salt with
    | none      => return .error .io
    | some salt =>
      match deriveKey kdf passphrase salt with
      | .error e => return .error e
      | .ok key  => initializeWithKey aead path key salt nonce

-- The part of `open_with_key` after decryption: the store is refused when the marker names a later
-- revision, and the marker is brought up to date when it is missing or behind.
def admitRevision (store : EncryptedStore) : FileProgram (Except StorageError EncryptedStore) :=
  (ensurePrivateFile store.markerPath).andThen fun _ =>
  (readMarker store.markerPath).andThen fun marker =>
    if marker.any (store.revision < ·) then
      return .error .rollbackDetected
    else
      (readMarker store.markerPath).andThen fun marker =>
        if marker.all (· < store.revision) then
          (store.writeMarker store.revision).andThen fun _ => return .ok store
        else
          return .ok store

def openWithKey (path : FilePath) (key : DatabaseKey) (parsed : ParsedFile) :
    FileProgram (Except StorageError EncryptedStore) :=
  let aad := associatedData parsed.salt parsed.revision
  match aead.decrypt key parsed.nonce aad parsed.ciphertext with
  | none           => return .error .authenticationFailed
  | some plaintext =>
    match decodeRecords plaintext with
    | .error e    => return .error e
    | .ok records =>
      admitRevision
        { path, key, salt := parsed.salt, revision := parsed.revision, records, locked := false }

-- Reads and parses the store file, and opens it with the key that belongs to its salt.
def openWith (path : FilePath) (keyFor : Salt → Except StorageError DatabaseKey) :
    FileProgram (Except StorageError EncryptedStore) :=
  (ensurePrivateFile path).andThen fun _ => do
    match ← perform (.read path) with
    | .error _  => return .error .io
    | .ok bytes =>
      match parseFile bytes with
      | .error e   => return .error e
      | .ok parsed =>
        match keyFor parsed.salt with
        | .error e => return .error e
        | .ok key  => openWithKey aead path key parsed

def openWithDatabaseKey (path : FilePath) (key : DatabaseKey) :
    FileProgram (Except StorageError EncryptedStore) :=
  openWith aead path fun _ => .ok key

def openStore (path : FilePath) (passphrase : String) :
    FileProgram (Except StorageError EncryptedStore) :=
  match validatePassphrase passphrase with
  | .error e => return .error e
  | .ok ()   => openWith aead path (deriveKey kdf passphrase)

-- Every record is put again, in one batch, into a fresh store under a fresh key.
def rekeyTo (store : EncryptedStore) (destination : FilePath) (newPassphrase : String)
    (salt : Option Salt) (nonce₀ nonce₁ : Option Nonce) : FileProgram (Except StorageError Unit) :=
  if store.locked then
    return .error .locked
  else
    (initializeStore aead kdf destination newPassphrase salt nonce₀).andThen fun replacement => do
      let mutations := store.records.toList.map fun e => .put e.fst.fst e.fst.snd e.snd
      let (result, _) ← replacement.applyBatch aead nonce₁ mutations
      return result

end EncryptedStore
