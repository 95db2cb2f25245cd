import AnotherDimension.Storage.Open

-- When the files of a store open, and to what.

open FileProgram Storage

namespace EncryptedStore

variable {aead : Aead} {store store' : EncryptedStore} {nonce : Option Nonce} {disk disk' : Disk}
  {key : DatabaseKey} {bytes : Bytes} {revision : UInt64} {records : Records}

-- The bytes of a store file decrypt under the key to the records, at the revision.
def Opens (aead : Aead) (key : DatabaseKey) (bytes : Bytes) (revision : UInt64)
    (records : Records) : Prop :=
  ∃ parsed plaintext, parseFile bytes = .ok parsed ∧ parsed.revision = revision ∧
    aead.decrypt key parsed.nonce (associatedData parsed.salt parsed.revision) parsed.ciphertext =
      some plaintext ∧ decodeRecords plaintext = .ok records

theorem Opens.revision_unique {key₁ key₂ : DatabaseKey} {r₁ r₂ : UInt64}
    {records₁ records₂ : Records} (h₁ : Opens aead key₁ bytes r₁ records₁)
    (h₂ : Opens aead key₂ bytes r₂ records₂) : r₁ = r₂ := by
  obtain ⟨parsed, _, hp₁, rfl, _⟩ := h₁
  obtain ⟨_, _, hp₂, rfl, _⟩ := h₂
  cases hp₁.symm.trans hp₂
  rfl

theorem Opens.records_unique {key₁ key₂ : DatabaseKey} {r₁ r₂ : UInt64}
    {records₁ records₂ : Records} (unique : aead.UniqueDecryption)
    (h₁ : Opens aead key₁ bytes r₁ records₁) (h₂ : Opens aead key₂ bytes r₂ records₂) :
    records₁ = records₂ := by
  obtain ⟨_, plaintext₁, hp₁, -, hd₁, hr₁⟩ := h₁
  obtain ⟨_, plaintext₂, hp₂, -, hd₂, hr₂⟩ := h₂
  cases hp₁.symm.trans hp₂
  cases unique hd₁ hd₂
  cases hr₁.symm.trans hr₂
  rfl

theorem sealAt_opens (h : store.sealAt aead nonce revision = .ok bytes) :
    Opens aead store.key bytes revision store.records := by
  unfold sealAt at h
  split at h
  case h_1 => cases h
  case h_2 plaintext hp =>
    split at h
    case h_1 => cases h
    case h_2 nonce =>
      split at h
      case h_1 => cases h
      case h_2 ciphertext he =>
        cases h
        have hl : 16 ≤ ciphertext.length := by
          have := aead.length_encrypt he
          omega
        exact ⟨_, plaintext, parseFile_encodeFile _ _ _ hl, rfl, aead.decrypt_encrypt he,
          decodeRecords_encodeRecords hp⟩

theorem prepareCommit_spec (h : store.prepareCommit aead nonce = .ok (revision, bytes)) :
    revision.toNat = store.revision.toNat + 1 ∧
      Opens aead store.key bytes revision store.records := by
  unfold prepareCommit at h
  split at h
  case isTrue => cases h
  case isFalse =>
    split at h
    case isTrue => cases h
    case isFalse =>
      split at h
      case h_1 => cases h
      case h_2 next hn =>
        cases hs : store.sealAt aead nonce next <;> rw [hs] at h <;> cases h
        exact ⟨UInt64.toNat_of_checkedAdd hn, sealAt_opens hs⟩

-- The marker is missing or names a revision that is not above the given one.
def MarkerAtMost (marker : Option Bytes) (revision : UInt64) : Prop :=
  ∀ bytes, marker = some bytes → ∃ m, parseMarker bytes = .ok m ∧ m ≤ revision

theorem MarkerAtMost.mono {r₁ r₂ : UInt64} {marker : Option Bytes} (h : MarkerAtMost marker r₁)
    (hr : r₁ ≤ r₂) : MarkerAtMost marker r₂ := fun bytes hb =>
  have ⟨m, hm, hl⟩ := h bytes hb
  ⟨m, hm, UInt64.le_trans hl hr⟩

theorem markerAtMost_markerBytes (revision : UInt64) :
    MarkerAtMost (some <| markerBytes revision) revision := fun _ h => by
  cases h
  exact ⟨revision, parseMarker_markerBytes revision, UInt64.le_refl _⟩

-- The files of a store open to the records at the revision.
structure FilesHold (aead : Aead) (path : FilePath) (key : DatabaseKey) (disk : Disk)
    (revision : UInt64) (records : Records) : Prop where
  opens  : ∃ bytes, disk path = some bytes ∧ Opens aead key bytes revision records
  marker : MarkerAtMost (disk <| Storage.markerPath path) revision

-- Store file and marker agree on the revision.
structure UpToDate (aead : Aead) (path : FilePath) (key : DatabaseKey) (disk : Disk)
    (revision : UInt64) (records : Records) : Prop where
  opens  : ∃ bytes, disk path = some bytes ∧ Opens aead key bytes revision records
  marker : ∃ bytes, disk (Storage.markerPath path) = some bytes ∧ parseMarker bytes = .ok revision

theorem UpToDate.filesHold {path : FilePath} (h : UpToDate aead path key disk revision records) :
    FilesHold aead path key disk revision records where
  opens  := h.opens
  marker := fun bytes hb => by
    have ⟨bytes', hb', hm⟩ := h.marker
    cases hb.symm.trans hb'
    exact ⟨revision, hm, UInt64.le_refl _⟩

-- The marker is written again where it is missing or behind.
def Renewed (path : FilePath) (revision : UInt64) (disk disk' : Disk) : Prop :=
  disk' = disk ∨
    disk' = Function.update disk (Storage.markerPath path) (some <| markerBytes revision)

theorem run_admitRevision : store.admitRevision.run disk =
    match disk store.markerPath with
    | none       => (Function.update disk store.markerPath (some <| markerBytes store.revision),
        .ok store)
    | some bytes =>
      match parseMarker bytes with
      | .error e   => (disk, .error e)
      | .ok marker =>
        if store.revision < marker then
          (disk, .error .rollbackDetected)
        else if marker < store.revision then
          (Function.update disk store.markerPath (some <| markerBytes store.revision), .ok store)
        else
          (disk, .ok store) := by
  cases hm : disk store.markerPath
  case none       => simp [admitRevision, writeMarker, run_andThen, run, hm]
  case some bytes =>
    cases hp : parseMarker bytes
    case error     => simp [admitRevision, run_andThen, hm, hp, Except.map]
    case ok marker =>
      by_cases h₁ : store.revision < marker
      case pos => simp [admitRevision, run_andThen, run, hm, hp, Except.map, h₁]
      case neg =>
        by_cases h₂ : marker < store.revision <;>
          simp [admitRevision, writeMarker, run_andThen, run, hm, hp, Except.map, h₁, h₂]

-- The marker check lets only those stores pass that are not behind the marker.
theorem run_admitRevision_cases (store : EncryptedStore) (disk : Disk) :
    (∃ e, store.admitRevision.run disk = (disk, .error e)) ∨
    (∃ disk', store.admitRevision.run disk = (disk', .ok store) ∧
      MarkerAtMost (disk store.markerPath) store.revision ∧
      Renewed store.path store.revision disk disk') := by
  rw [run_admitRevision]
  split
  case h_1 hm       => exact .inr ⟨_, rfl, by simp [MarkerAtMost, hm], .inr rfl⟩
  case h_2 bytes hm =>
    split
    case h_1 e _       => exact .inl ⟨e, rfl⟩
    case h_2 marker hp =>
      split
      case isTrue     => exact .inl ⟨_, rfl⟩
      case isFalse hl =>
        have ha : MarkerAtMost (disk store.markerPath) store.revision := fun bytes' hb =>
          ⟨marker, by cases hm.symm.trans hb; exact hp, UInt64.not_lt.mp hl⟩
        split
        case isTrue  => exact .inr ⟨_, rfl, ha, .inr rfl⟩
        case isFalse => exact .inr ⟨_, rfl, ha, .inl rfl⟩

theorem run_admitRevision_of_markerAtMost (store : EncryptedStore)
    (h : MarkerAtMost (disk store.markerPath) store.revision) :
    ∃ disk', store.admitRevision.run disk = (disk', .ok store) := by
  rw [run_admitRevision]
  split
  case h_1 => exact ⟨_, rfl⟩
  case h_2 bytes hm =>
    have ⟨marker, hp, hl⟩ := h bytes hm
    rw [hp]
    simp only [UInt64.not_lt.mpr hl, ↓reduceIte]
    split <;> exact ⟨_, rfl⟩

theorem FilesHold.renewed {path : FilePath} (h : FilesHold aead path key disk revision records)
    (hr : Renewed path revision disk disk') : FilesHold aead path key disk' revision records := by
  obtain rfl | rfl := hr
  case inl => exact h
  case inr =>
    have ⟨bytes, hb, ho⟩ := h.opens
    have hne := markerPath_ne path
    exact ⟨⟨bytes, by simp [hne.symm, hb], ho⟩, by simpa using markerAtMost_markerBytes revision⟩

theorem UpToDate.renewed {path : FilePath} (h : UpToDate aead path key disk revision records)
    (hr : Renewed path revision disk disk') : UpToDate aead path key disk' revision records := by
  obtain rfl | rfl := hr
  case inl => exact h
  case inr =>
    have ⟨bytes, hb, ho⟩ := h.opens
    have hne := markerPath_ne path
    exact ⟨⟨bytes, by simp [hne.symm, hb], ho⟩,
      ⟨markerBytes revision, by simp, parseMarker_markerBytes revision⟩⟩

theorem UpToDate.avoided {α : Type} {path : FilePath} {p : FileProgram α}
    (h : UpToDate aead path key disk revision records) (hp : p.Avoids path)
    (hm : p.Avoids (Storage.markerPath path)) :
    UpToDate aead path key (p.run disk).fst revision records where
  opens  := by simpa only [hp.run_eq disk] using h.opens
  marker := by simpa only [hm.run_eq disk] using h.marker

-- Opening such files succeeds, shows the records, and keeps the files that way.
theorem FilesHold.run_open {path : FilePath} (h : FilesHold aead path key disk revision records) :
    ∃ disk' salt, (openWithDatabaseKey aead path key).run disk =
      (disk', .ok { path, key, salt, revision, records, locked := false }) ∧
      FilesHold aead path key disk' revision records := by
  have ⟨bytes, hb, parsed, plaintext, hp, hr, hd, hs⟩ := h.opens
  subst hr
  have ⟨_, hx⟩ := run_admitRevision_of_markerAtMost
    { path, key, salt := parsed.salt, revision := parsed.revision, records, locked := false } h.marker
  obtain ⟨e, he⟩ | ⟨disk', he, -, hn⟩ := run_admitRevision_cases
    { path, key, salt := parsed.salt, revision := parsed.revision, records, locked := false } disk
  case inl => cases he.symm.trans hx
  case inr =>
    refine ⟨disk', parsed.salt, ?_, h.renewed hn⟩
    rw [← he]
    simp [openWithDatabaseKey, openWith, openWithKey, run_andThen, run, FileOp.answer,
      FileOp.effect, hb, hp, hd, hs]

-- Opening fails and changes nothing, or the store was read from files that hold its records.
theorem run_openWith_cases (aead : Aead) (path : FilePath)
    (keyFor : Salt → Except StorageError DatabaseKey) (disk : Disk) :
    (∃ e, (openWith aead path keyFor).run disk = (disk, .error e)) ∨
    (∃ disk' store, (openWith aead path keyFor).run disk = (disk', .ok store) ∧
      store.path = path ∧ store.locked = false ∧ (∃ salt, keyFor salt = .ok store.key) ∧
      Renewed path store.revision disk disk' ∧
      FilesHold aead path store.key disk store.revision store.records) := by
  cases hb : disk path
  case none       =>
    exact .inl ⟨.io, by simp [openWith, run_andThen, run, FileOp.answer, FileOp.effect, hb]⟩
  case some bytes =>
    simp only [openWith, run_andThen, ensurePrivateFile_run, perform_bind, run, FileOp.answer,
      FileOp.effect, hb, Option.elim]
    split
    case h_1 e _       => exact .inl ⟨e, rfl⟩
    case h_2 parsed hp =>
      split
      case h_1 e _    => exact .inl ⟨e, rfl⟩
      case h_2 key hk =>
        simp only [openWithKey]
        split
        case h_1              => exact .inl ⟨_, rfl⟩
        case h_2 plaintext hd =>
          split
          case h_1 e _        => exact .inl ⟨e, rfl⟩
          case h_2 records hr =>
            refine (run_admitRevision_cases _ disk).imp id fun ha => ?_
            obtain ⟨disk', hx, hm, hn⟩ := ha
            exact ⟨disk', _, hx, rfl, rfl, ⟨_, hk⟩, hn,
              ⟨bytes, hb, parsed, plaintext, hp, rfl, hd, hr⟩, hm⟩

theorem run_openWith_ok {path : FilePath} {keyFor : Salt → Except StorageError DatabaseKey}
    (h : (openWith aead path keyFor).run disk = (disk', .ok store)) :
    store.path = path ∧ store.locked = false ∧ (∃ salt, keyFor salt = .ok store.key) ∧
      Renewed path store.revision disk disk' ∧
      FilesHold aead path store.key disk store.revision store.records := by
  obtain ⟨e, he⟩ | ⟨disk'', store', he, hs⟩ := run_openWith_cases aead path keyFor disk
  case inl => cases he.symm.trans h
  case inr =>
    cases he.symm.trans h
    exact hs

-- A new store is empty, and its files say so.
theorem run_initializeWithKey_ok {path : FilePath} {salt : Salt}
    (h : (initializeWithKey aead path key salt nonce).run disk = (disk', .ok store)) :
    store = { path, key, salt, revision := 0, records := ∅, locked := false } ∧
      UpToDate aead path key disk' 0 ∅ := by
  simp only [initializeWithKey, run_andThen, ensurePrivateFile_run] at h
  split at h
  case isTrue => cases h
  case isFalse =>
    let new : EncryptedStore := { path, key, salt, revision := 0, records := ∅, locked := false }
    match hs : new.sealAt aead nonce new.revision with
    | .error e  => simp [persist, new, hs, run] at h
    | .ok bytes =>
      have hne := markerPath_ne path
      simp [persist, new, hs, run_bind, run_andThen, run, writeMarker] at h
      obtain ⟨hd, rfl⟩ := h
      refine ⟨rfl, ⟨bytes, ?_, sealAt_opens hs⟩, ⟨markerBytes 0, ?_, parseMarker_markerBytes 0⟩⟩
      case refine_1 => simp [← hd, markerPath, hne.symm]
      case refine_2 => simp [← hd, markerPath]

end EncryptedStore
