import AnotherDimension.Storage.Open

-- The programs of a store change its own two files only.

open FileProgram Storage

namespace Storage

variable {path target : FilePath}

theorem atomicWrite_avoids {contents : Bytes} (h : path ≠ target) :
    (atomicWrite target contents).Avoids path :=
  ⟨h, fun answer => by cases answer <;> trivial⟩

theorem ensurePrivateFile_avoids : (ensurePrivateFile target).Avoids path :=
  ⟨trivial, fun
    | .ok _            => trivial
    | .error .notFound => trivial
    | .error .other    => trivial⟩

theorem readMarker_avoids : (readMarker target).Avoids path :=
  ⟨trivial, fun
    | .ok _            => trivial
    | .error .notFound => trivial
    | .error .other    => trivial⟩

end Storage

namespace EncryptedStore

variable {aead : Aead} {kdf : String → Salt → Option DatabaseKey} {store : EncryptedStore}
  {path : FilePath} {nonce : Option Nonce}

theorem restoreMarker_avoids {previous : Option Bytes} (h : path ≠ store.markerPath) :
    (store.restoreMarker previous).Avoids path := by
  cases previous
  case some => exact (atomicWrite_avoids h).bind fun r => by cases r <;> trivial
  case none =>
    exact ⟨h, fun
      | .ok _            => trivial
      | .error .notFound => trivial
      | .error .other    => trivial⟩

theorem rollBack_avoids {previous : Option Bytes} {old : Bytes} {e : StorageError}
    (hs : path ≠ store.path) (hm : path ≠ store.markerPath) :
    (store.rollBack old previous e).Avoids path :=
  (atomicWrite_avoids hs).bind fun _ => (restoreMarker_avoids hm).bind fun _ => by
    split <;> trivial

theorem replaceFiles_avoids {revision : UInt64} {bytes : Bytes} (hs : path ≠ store.path)
    (hm : path ≠ store.markerPath) : (store.replaceFiles revision bytes).Avoids path := by
  have hw : ∀ old previous, (store.writeFiles revision bytes old previous).Avoids path :=
    fun old previous => (atomicWrite_avoids hs).bind fun
      | .error _ => trivial
      | .ok ()   => (atomicWrite_avoids hm).bind fun
        | .ok ()   => trivial
        | .error _ => rollBack_avoids hs hm
  exact ⟨trivial, fun
    | .error _ => trivial
    | .ok old  => ⟨trivial, fun
      | .ok previous     => hw old previous
      | .error .notFound => hw old none
      | .error .other    => trivial⟩⟩

theorem commit_avoids (hs : path ≠ store.path) (hm : path ≠ store.markerPath) :
    (store.commit aead nonce).Avoids path := by
  unfold commit
  split
  case h_1 => trivial
  case h_2 => exact (replaceFiles_avoids hs hm).bind fun r => by cases r <;> trivial

theorem applyBatch_avoids {mutations : List RecordMutation} (hs : path ≠ store.path)
    (hm : path ≠ store.markerPath) : (store.applyBatch aead nonce mutations).Avoids path := by
  unfold applyBatch
  split
  case isTrue  => trivial
  case isFalse =>
    split
    case h_1           => trivial
    case h_2 records _ =>
      have hc : ({ store with records }.commit aead nonce).Avoids path := commit_avoids hs hm
      exact hc.bind fun r => by split <;> trivial

theorem persist_avoids (hs : path ≠ store.path) (hm : path ≠ store.markerPath) :
    (store.persist aead nonce).Avoids path := by
  unfold persist
  split
  case h_1 => trivial
  case h_2 =>
    exact (atomicWrite_avoids hs).andThen fun _ => (atomicWrite_avoids hm).bind fun
      | .ok ()   => trivial
      | .error _ => ⟨hs, fun _ => ⟨hm, fun _ => trivial⟩⟩

theorem initializeStore_avoids {target : FilePath} {passphrase : String} {salt : Option Salt}
    (hs : path ≠ target) (hm : path ≠ Storage.markerPath target) :
    (initializeStore aead kdf target passphrase salt nonce).Avoids path := by
  unfold initializeStore
  split
  case h_1 => trivial
  case h_2 =>
    split
    case h_1      => trivial
    case h_2 salt =>
      split
      case h_1       => trivial
      case h_2 key _ =>
        refine ensurePrivateFile_avoids.andThen fun present => ?_
        split
        case isTrue  => trivial
        case isFalse =>
          let new : EncryptedStore :=
            { path := target, key, salt, revision := 0, records := ∅, locked := false }
          have hp : (new.persist aead nonce).Avoids path := persist_avoids hs hm
          exact hp.bind fun
            | .ok ()   => trivial
            | .error _ => ⟨hs, fun _ => ⟨hm, fun _ => trivial⟩⟩

theorem initializeStore_yields {target : FilePath} {passphrase : String} {salt : Option Salt} :
    (initializeStore aead kdf target passphrase salt nonce).Yields
      fun r => ∀ store, r = .ok store → store.path = target := by
  unfold initializeStore
  split
  case h_1 => rintro _ ⟨⟩
  case h_2 =>
    split
    case h_1      => rintro _ ⟨⟩
    case h_2 salt =>
      split
      case h_1       => rintro _ ⟨⟩
      case h_2 key _ =>
        refine (yields_true _).bind fun present _ => ?_
        match present with
        | .error _     => rintro _ ⟨⟩
        | .ok true     => rintro _ ⟨⟩
        | .ok false    =>
          refine (yields_true _).bind fun result _ => ?_
          cases result
          case ok    => rintro _ ⟨⟩; rfl
          case error => rintro _ _ _ ⟨⟩

theorem rekeyTo_avoids {target : FilePath} {passphrase : String} {salt : Option Salt}
    {nonce₀ nonce₁ : Option Nonce} (hs : path ≠ target) (hm : path ≠ Storage.markerPath target) :
    (store.rekeyTo aead kdf target passphrase salt nonce₀ nonce₁).Avoids path := by
  unfold rekeyTo
  split
  case isTrue  => trivial
  case isFalse =>
    refine (initializeStore_avoids hs hm).bind_of_yields initializeStore_yields fun r hr => ?_
    match r with
    | .error _        => trivial
    | .ok replacement =>
      cases hr replacement rfl
      exact (applyBatch_avoids hs hm).bind fun _ => trivial

theorem openWith_avoids {target : FilePath} {keyFor : Salt → Except StorageError DatabaseKey}
    (hm : path ≠ Storage.markerPath target) : (openWith aead target keyFor).Avoids path := by
  refine ensurePrivateFile_avoids.andThen fun _ => ⟨trivial, fun answer => ?_⟩
  match answer with
  | .error _  => trivial
  | .ok bytes =>
    dsimp only [FileProgram.bind]
    split
    case h_1          => trivial
    case h_2 parsed _ =>
      split
      case h_1       => trivial
      case h_2 key _ =>
        unfold openWithKey
        dsimp only
        split
        case h_1             => trivial
        case h_2 plaintext _ =>
          split
          case h_1           => trivial
          case h_2 records _ =>
            refine ensurePrivateFile_avoids.andThen fun _ =>
              readMarker_avoids.andThen fun _ => ?_
            split
            case isTrue  => trivial
            case isFalse =>
              refine readMarker_avoids.andThen fun _ => ?_
              split
              case isTrue  => exact (atomicWrite_avoids hm).andThen fun _ => trivial
              case isFalse => trivial

theorem openStore_avoids {target : FilePath} {passphrase : String} (aead : Aead)
    (kdf : String → Salt → Option DatabaseKey) (h : path ≠ Storage.markerPath target) :
    (openStore aead kdf target passphrase).Avoids path := by
  unfold openStore
  split
  case h_1 => trivial
  case h_2 => exact openWith_avoids h

end EncryptedStore
