import AnotherDimension.Storage.Theorems.Codec
import AnotherDimension.Storage.Theorems.Crash

-- A store that is opened again after successful operations is the store that was in memory.

open FileProgram Storage EncryptedStore

namespace EncryptedStore

variable {aead : Aead} {kdf : String → Salt → Option DatabaseKey} {store store' : EncryptedStore}
  {nonce : Option Nonce} {disk disk' : Disk} {fates rest : List Fate} {bytes : Bytes}
  {revision : UInt64}

def initializeWithDatabaseKey (aead : Aead) (path : FilePath) (key : DatabaseKey)
    (salt : Option Salt) (nonce : Option Nonce) :
    FileProgram (Except StorageError EncryptedStore) :=
  match salt with
  | none      => return .error .io
  | some salt => initializeWithKey aead path key salt nonce

-- The bytes are those of a store file with the salt, the revision and the records of the store.
def IsSealed (aead : Aead) (store : EncryptedStore) (bytes : Bytes) : Prop :=
  ∃ nonce ciphertext plaintext,
    parseFile bytes = .ok { salt := store.salt, revision := store.revision, nonce, ciphertext } ∧
    aead.decrypt store.key nonce (associatedData store.salt store.revision) ciphertext =
      some plaintext ∧ decodeRecords plaintext = .ok store.records

-- Everything the store has in memory is also in its files.
structure OnFiles (aead : Aead) (store : EncryptedStore) (disk : Disk) : Prop where
  unlocked : store.locked = false
  sealed   : ∃ bytes, disk store.path = some bytes ∧ store.IsSealed aead bytes
  marker   : ∃ bytes, disk store.markerPath = some bytes ∧ parseMarker bytes = .ok store.revision

theorem sealAt_isSealed (h : store.sealAt aead nonce revision = .ok bytes) :
    { store with revision }.IsSealed aead bytes := by
  unfold sealAt at h
  split at h
  case h_1 => cases h
  case h_2 plaintext hp =>
    split at h
    case h_1 => cases h
    case h_2 nonce =>
      split at h
      case h_1 => cases h
      case h_2 ciphertext he =>
        cases h
        have hl : 16 ≤ ciphertext.length := by
          have := aead.length_encrypt he
          omega
        exact ⟨nonce, ciphertext, plaintext, parseFile_encodeFile _ _ _ hl,
          aead.decrypt_encrypt he, decodeRecords_encodeRecords hp⟩

theorem prepareCommit_isSealed (h : store.prepareCommit aead nonce = .ok (revision, bytes)) :
    { store with revision }.IsSealed aead bytes := by
  unfold prepareCommit at h
  split_ifs at h
  case neg =>
    split at h
    case h_1 => cases h
    case h_2 next _ =>
      have ⟨_, hs, he⟩ := Except.map_eq_ok.mp h
      cases he
      exact sealAt_isSealed hs

-- A commit succeeds only when every one of its file steps does.
theorem writeFiles_exec_ok {old : Bytes} {previous : Option Bytes}
    (h : (store.writeFiles revision bytes old previous).exec disk fates =
      (disk', some (.ok (), rest))) :
    disk' = Function.update (Function.update disk store.path (some bytes)) store.markerPath
      (some <| markerBytes revision) := by
  have hr : ∀ {e disk fates}, (store.rollBack old previous e).exec disk fates ≠
      (disk', some (.ok (), rest)) := by
    intro e disk fates h
    rw [rollBack, exec_bind] at h
    split at h
    case h_1 => cases h
    case h_2 =>
      rw [exec_bind] at h
      split at h
      case h_1 => cases h
      case h_2 => split at h <;> cases h
  simp only [writeFiles, writeMarker, atomicWrite_bind] at h
  obtain _ | ⟨_ | _ | _, fates⟩ := fates
  case nil            => cases h
  case cons.untouched => cases h
  case cons.replaced  => cases h
  case cons.succeeds  =>
    obtain _ | ⟨_ | _ | _, fates⟩ := fates
    case nil            => cases h
    case cons.succeeds  => cases h; rfl
    case cons.untouched => exact absurd h hr
    case cons.replaced  => exact absurd h hr

theorem replaceFiles_exec_ok
    (h : (store.replaceFiles revision bytes).exec disk fates = (disk', some (.ok (), rest))) :
    disk' = Function.update (Function.update disk store.path (some bytes)) store.markerPath
      (some <| markerBytes revision) := by
  simp only [replaceFiles, perform_bind] at h
  obtain _ | ⟨_ | _ | _, fates⟩ := fates
  case nil            => cases h
  case cons.untouched => cases h
  case cons.replaced  => cases h
  case cons.succeeds  =>
    cases ho : disk store.path
    case none     => simp [exec, FileOp.answer, ho] at h
    case some old =>
      simp only [exec, FileOp.answer, FileOp.effect, ho, Option.elim] at h
      obtain _ | ⟨_ | _ | _, fates⟩ := fates
      case nil            => cases h
      case cons.untouched => cases h
      case cons.replaced  => cases h
      case cons.succeeds  =>
        cases hm : disk store.markerPath <;>
          simp only [exec, FileOp.answer, FileOp.effect, hm, Option.elim] at h <;>
          exact writeFiles_exec_ok h

theorem OnFiles.run_openWith {keyFor : Salt → Except StorageError DatabaseKey}
    (h : store.OnFiles aead disk) (hk : keyFor store.salt = .ok store.key) :
    (openWith aead store.path keyFor).run disk = (disk, .ok store) := by
  have ⟨bytes, hb, nonce, ciphertext, plaintext, hp, hd, hr⟩ := h.sealed
  have ⟨marker, hm, hv⟩ := h.marker
  have hs : { store with locked := false } = store := by rw [← h.unlocked]
  have ha : store.admitRevision.run disk = (disk, .ok store) := by
    rw [run_admitRevision]
    simp [hm, hv]
  have hlt : ¬store.revision < store.revision := UInt64.lt_irrefl _
  simp only [openWith, run_andThen, ensurePrivateFile_run, perform_bind, run, FileOp.answer,
    FileOp.effect, hb, Option.elim, hp, hk, openWithKey, hd, hr, hs, ha]

theorem OnFiles.program (op : StoreOp) (h : store.OnFiles aead disk)
    (hx : (op.program aead store nonce).exec disk fates = (disk', some ((.ok (), store'), rest))) :
    store'.OnFiles aead disk' ∧ store'.path = store.path ∧ store'.key = store.key ∧
      store'.salt = store.salt := by
  obtain ⟨result, hr, hp⟩ | ⟨revision, bytes, hc, hp⟩ := StoreOp.attempts aead nonce h.unlocked op
  case inl =>
    rw [hp, exec] at hx
    cases hx
    rw [(hr rfl).left]
    exact ⟨h, rfl, rfl, rfl⟩
  case inr =>
    rw [hp, exec_bind] at hx
    rcases hw : (store.replaceFiles revision bytes).exec disk fates with ⟨_, _ | ⟨_ | _, _⟩⟩
    case none       => rw [hw] at hx; cases hx
    case some.error => rw [hw] at hx; cases hx
    case some.ok    =>
      rw [hw] at hx
      cases hx
      have hd := replaceFiles_exec_ok hw
      have hne : store.markerPath ≠ store.path := markerPath_ne _
      refine ⟨⟨h.unlocked, ⟨bytes, ?_, prepareCommit_isSealed hc⟩,
        ⟨markerBytes revision, ?_, parseMarker_markerBytes revision⟩⟩, rfl, rfl, rfl⟩
      case refine_1 => simp [hd, hne.symm]
      case refine_2 =>
        rw [hd]
        exact Function.update_self store.markerPath _ _

end EncryptedStore

-- What a store is opened with.
inductive Credential
  | passphrase (text : String)
  | databaseKey (key : DatabaseKey)

namespace Credential

variable {aead : Aead} {kdf : String → Salt → Option DatabaseKey} {path : FilePath}
  {credential : Credential} {disk disk' : Disk} {store store' : EncryptedStore}

def creation (aead : Aead) (kdf : String → Salt → Option DatabaseKey) (path : FilePath)
    (salt : Option Salt) (nonce : Option Nonce) :
    Credential → FileProgram (Except StorageError EncryptedStore)
  | passphrase text => initializeStore aead kdf path text salt nonce
  | databaseKey key => initializeWithDatabaseKey aead path key salt nonce

def opening (aead : Aead) (kdf : String → Salt → Option DatabaseKey) (path : FilePath) :
    Credential → FileProgram (Except StorageError EncryptedStore)
  | passphrase text => openStore aead kdf path text
  | databaseKey key => openWithDatabaseKey aead path key

-- The store was just created with the credential, or opened with it.
def Starts (aead : Aead) (kdf : String → Salt → Option DatabaseKey) (path : FilePath)
    (credential : Credential) (disk : Disk) (store : EncryptedStore) : Prop :=
  ∃ before, (∃ salt nonce,
      (credential.creation aead kdf path salt nonce).run before = (disk, .ok store)) ∨
    (credential.opening aead kdf path).run before = (disk, .ok store)

-- The credential belongs to the store.
def Fits (kdf : String → Salt → Option DatabaseKey) (store : EncryptedStore) : Credential → Prop
  | passphrase text => validatePassphrase text = .ok () ∧
    deriveKey kdf text store.salt = .ok store.key
  | databaseKey key => key = store.key

theorem run_opening (hf : credential.Fits kdf store) (h : store.OnFiles aead disk) :
    (credential.opening aead kdf store.path).run disk = (disk, .ok store) := by
  match credential with
  | passphrase text =>
    simp only [opening, openStore, hf.left]
    exact h.run_openWith hf.right
  | databaseKey key =>
    rw [opening, openWithDatabaseKey]
    exact h.run_openWith (congrArg Except.ok hf)

theorem onFiles_of_initializeWithKey {key : DatabaseKey} {salt : Salt} {nonce : Option Nonce}
    (h : (initializeWithKey aead path key salt nonce).run disk = (disk', .ok store)) :
    store.OnFiles aead disk' ∧ store.path = path ∧ store.key = key ∧ store.salt = salt := by
  simp only [initializeWithKey, run_andThen, ensurePrivateFile_run] at h
  split at h
  case isTrue => cases h
  case isFalse =>
    let new : EncryptedStore := { path, key, salt, revision := 0, records := ∅, locked := false }
    cases hs : new.sealAt aead nonce new.revision
    case error e  => simp [persist, new, hs, run] at h
    case ok bytes =>
      have hne := markerPath_ne path
      simp only [persist, hs, run_bind, run_andThen, atomicWrite_run, writeMarker, new, run,
        pure_eq_done, EncryptedStore.markerPath] at h
      cases h
      refine ⟨⟨rfl, ⟨bytes, ?_, sealAt_isSealed hs⟩,
        ⟨markerBytes 0, ?_, parseMarker_markerBytes 0⟩⟩, rfl, rfl, rfl⟩
      case refine_1 => simp [hne.symm]
      case refine_2 => exact Function.update_self (Storage.markerPath path) _ _

theorem onFiles_of_admitRevision (hl : store.locked = false)
    (hs : ∃ bytes, disk store.path = some bytes ∧ store.IsSealed aead bytes)
    (h : store.admitRevision.run disk = (disk', .ok store')) :
    store' = store ∧ store.OnFiles aead disk' := by
  have hne : store.markerPath ≠ store.path := markerPath_ne _
  have hnew : store.OnFiles aead
      (Function.update disk store.markerPath (some <| markerBytes store.revision)) := by
    have ⟨bytes, hb, hs⟩ := hs
    exact ⟨hl, ⟨bytes, by simp [hne.symm, hb], hs⟩,
      ⟨_, Function.update_self store.markerPath _ _, parseMarker_markerBytes _⟩⟩
  rw [run_admitRevision] at h
  split at h
  case h_1 => cases h; exact ⟨rfl, hnew⟩
  case h_2 bytes hm =>
    split at h
    case h_1 => cases h
    case h_2 marker hp =>
      split_ifs at h <;> cases h
      case pos => exact ⟨rfl, hnew⟩
      case neg h₁ h₂ =>
        have he : marker = store.revision :=
          UInt64.le_antisymm (UInt64.not_lt.mp h₁) (UInt64.not_lt.mp h₂)
        exact ⟨rfl, hl, hs, bytes, hm, he ▸ hp⟩

theorem onFiles_of_openWith {keyFor : Salt → Except StorageError DatabaseKey}
    (h : (openWith aead path keyFor).run disk = (disk', .ok store)) :
    store.OnFiles aead disk' ∧ store.path = path ∧ keyFor store.salt = .ok store.key := by
  match hb : disk path with
  | none       => simp [openWith, run_andThen, run, FileOp.answer, FileOp.effect, hb] at h
  | some bytes =>
    simp only [openWith, run_andThen, ensurePrivateFile_run, perform_bind, run, FileOp.answer,
      FileOp.effect, hb, Option.elim] at h
    split at h
    case h_1           => cases h
    case h_2 parsed hp =>
      split at h
      case h_1        => cases h
      case h_2 key hk =>
        simp only [openWithKey] at h
        split at h
        case h_1              => cases h
        case h_2 plaintext hd =>
          split at h
          case h_1            => cases h
          case h_2 records hr =>
            obtain ⟨rfl, ho⟩ := onFiles_of_admitRevision rfl
              ⟨bytes, hb, parsed.nonce, parsed.ciphertext, plaintext, hp, hd, hr⟩ h
            exact ⟨ho, rfl, hk⟩

theorem Starts.onFiles (h : credential.Starts aead kdf path disk store) :
    store.OnFiles aead disk ∧ store.path = path ∧ credential.Fits kdf store := by
  obtain ⟨before, ⟨salt, nonce, hc⟩ | ho⟩ := h
  case inl =>
    cases credential
    case passphrase text =>
      simp only [creation, initializeStore] at hc
      split at hc
      case h_1    => cases hc
      case h_2 hv =>
        split at hc
        case h_1 => cases hc
        case h_2 salt =>
          split at hc
          case h_1        => cases hc
          case h_2 key hk =>
            obtain ⟨ho, hp, he, hs⟩ := onFiles_of_initializeWithKey hc
            exact ⟨ho, hp, hv, by rw [hs, he, hk]⟩
    case databaseKey key =>
      cases salt
      case none      => cases hc
      case some salt =>
        obtain ⟨ho, hp, he, _⟩ := onFiles_of_initializeWithKey hc
        exact ⟨ho, hp, he.symm⟩
  case inr =>
    cases credential
    case passphrase text =>
      simp only [opening, openStore] at ho
      split at ho
      case h_1    => cases ho
      case h_2 hv =>
        obtain ⟨ho, hp, hk⟩ := onFiles_of_openWith ho
        exact ⟨ho, hp, hv, hk⟩
    case databaseKey key =>
      rw [opening, openWithDatabaseKey] at ho
      obtain ⟨ho, hp, hk⟩ := onFiles_of_openWith ho
      exact ⟨ho, hp, Except.ok.inj hk⟩

end Credential

namespace StoreOp

-- The operations are performed one after the other, and each of them succeeds.
inductive Succeed (aead : Aead) : Disk → EncryptedStore → List StoreOp → Disk → EncryptedStore → Prop
  | nil {disk store} : Succeed aead disk store [] disk store
  | cons {disk store op nonce fates disk₁ store₁ rest ops disk₂ store₂} :
    (op.program aead store nonce).exec disk fates = (disk₁, some ((.ok (), store₁), rest)) →
    Succeed aead disk₁ store₁ ops disk₂ store₂ →
    Succeed aead disk store (op :: ops) disk₂ store₂

theorem Succeed.onFiles {aead : Aead} {disk disk' : Disk} {store store' : EncryptedStore}
    {ops : List StoreOp} (hs : Succeed aead disk store ops disk' store')
    (h : store.OnFiles aead disk) :
    store'.OnFiles aead disk' ∧ store'.path = store.path ∧ store'.key = store.key ∧
      store'.salt = store.salt := by
  induction hs
  case nil => exact ⟨h, rfl, rfl, rfl⟩
  case cons hx _ hi =>
    have ⟨h₁, hp₁, hk₁, hs₁⟩ := h.program _ hx
    have ⟨h₂, hp₂, hk₂, hs₂⟩ := hi h₁
    exact ⟨h₂, hp₂.trans hp₁, hk₂.trans hk₁, hs₂.trans hs₁⟩

end StoreOp

-- The codec of the store, and what it is for: opening the files again gives the store in memory.
theorem Storage.codec_correct (aead : Aead) (kdf : String → Salt → Option DatabaseKey) :
    (∀ records : Records, records.size ≤ maxRecords → (∀ e ∈ records.toList, ValidEntry e) →
      ∃ bytes, encodeRecords records = .ok bytes ∧ decodeRecords bytes = .ok records) ∧
    (∀ bytes, decodeRecordsAt bytes = some (decodeRecords bytes)) ∧
    (∀ bytes records, decodeRecords bytes = .ok records →
      ∃ entries : List (RecordKey × Bytes), entries.length ≤ maxRecords ∧
        (∀ e ∈ entries, ValidEntry e) ∧ (entries.map Prod.fst).Nodup ∧
        bytes = payloadMagic ++ Bytes.ofNat 4 entries.length ++ entries.flatMap encodeRecord ∧
        entries.Perm records.toList) ∧
    (∀ salt revision nonce ciphertext, 16 ≤ ciphertext.length →
      parseFile (encodeFile salt revision nonce ciphertext) =
        .ok { salt, revision, nonce, ciphertext }) ∧
    ∀ path credential disk store ops disk' store',
      Credential.Starts aead kdf path credential disk store →
      StoreOp.Succeed aead disk store ops disk' store' →
      (credential.opening aead kdf path).run disk' = (disk', .ok store') := by
  refine ⟨fun records hs hv => ?_, decodeRecordsAt_eq, fun _ _ => decodeRecords_ok,
    fun _ _ _ _ => parseFile_encodeFile _ _ _, ?_⟩
  case refine_1 =>
    have he := encodeRecords_eq hs hv
    exact ⟨_, he, decodeRecords_encodeRecords he⟩
  case refine_2 =>
    intro path credential disk store ops disk' store' hstart hops
    obtain ⟨ho, rfl, hf⟩ := hstart.onFiles
    have ⟨ho', hp, hk, hs⟩ := hops.onFiles ho
    have hf' : credential.Fits kdf store' := by
      cases credential <;> simpa [Credential.Fits, hk, hs] using hf
    exact hp ▸ Credential.run_opening hf' ho'

-- A ciphertext without room for its tag is not accepted.
theorem Storage.noTag_not_parsed :
    parseFile (encodeFile ⟨.replicate 16 0, rfl⟩ 1 ⟨.replicate 12 0, rfl⟩ []) =
      .error .corruptStore :=
  rfl
