import AnotherDimension.Library.Run
import AnotherDimension.Cli.Theorems.Rotate
import AnotherDimension.Storage.Theorems.Rollback

-- Runs of commits, restarts and rotations on one data directory, and the detection of a store file
-- that was put back.

open FileProgram Storage EncryptedStore Cli

-- A data directory, the store that is running on it, if one is, and every content that the store
-- file ever had.
structure Directory where
  disk  : Disk
  store : Option EncryptedStore
  held  : List Bytes

namespace Directory

-- An operation comes with the fates of its file steps; the process dies where they end. A rotation
-- has none when nothing interferes with its files. It is run while the daemon is stopped.
inductive Event
  | op (op : StoreOp) (nonce : Option Nonce) (fates : List Fate)
  | reopen (passphrase : String)
  | rotate (pid : String) (passphraseOutput : Option FilePath) (credentials : String)
      (random : RotationRandom) (saved : Bool) (fates : Option (List Fate))

variable {aead : Aead} {kdf : String → Salt → Option DatabaseKey} {dataDir : FilePath}
  {s : Directory} {e : Event} {disk disk' : Disk} {key : DatabaseKey} {revision : UInt64}
  {records : Records} {bytes : Bytes} {path : FilePath}

-- The contents of the store file on some disks.
def contents (dataDir : FilePath) (disks : List Disk) : List Bytes :=
  disks.filterMap (· <| storePath dataDir)

def step (aead : Aead) (kdf : String → Salt → Option DatabaseKey) (dataDir : FilePath)
    (s : Directory) : Event → Directory
  | .op op nonce fates =>
    match s.store with
    | none       => s
    | some store =>
      let program := op.program aead store nonce
      let (disk, result) := program.exec s.disk fates
      { disk, store := result.map fun r => r.fst.snd
        held := s.held ++ contents dataDir (program.visited s.disk fates) }
  | .reopen passphrase =>
    let program := EncryptedStore.openStore aead kdf (storePath dataDir) passphrase
    let (disk, result) := program.run s.disk
    { disk, store := result.toOption, held := s.held ++ contents dataDir (program.trace s.disk) }
  | .rotate pid passphraseOutput credentials random saved fates =>
    let program := Cli.rotate aead kdf { dataDir, pid, passphraseOutput } credentials random saved
    match fates with
    | none       =>
      { disk := (program.run s.disk).fst, store := none
        held := s.held ++ contents dataDir (program.trace s.disk) }
    | some fates =>
      { disk := (program.exec s.disk fates).fst, store := none
        held := s.held ++ contents dataDir (program.visited s.disk fates) }

def marker (dataDir : FilePath) (disk : Disk) : Option UInt64 :=
  disk (revisionPath dataDir) |>.bind fun bytes => (parseMarker bytes).toOption

-- The marker is still there after the event and has not decreased.
def MarkerKept (aead : Aead) (kdf : String → Salt → Option DatabaseKey) (dataDir : FilePath)
    (s : Directory) (e : Event) : Prop :=
  ∀ m ∈ marker dataDir s.disk,
    ∃ m' ∈ marker dataDir (s.step aead kdf dataDir e).disk, m ≤ m'

-- With an earlier content of other records in its place the store does not open.
def Detects (aead : Aead) (kdf : String → Salt → Option DatabaseKey) (dataDir : FilePath)
    (s : Directory) : Prop :=
  ∀ bytes ∈ s.held, ∀ current, s.disk (storePath dataDir) = some current →
    ∀ key revision records key' revision' records',
      Opens aead key bytes revision records → Opens aead key' current revision' records' →
      records ≠ records' →
      ∀ passphrase, ∃ e, ((EncryptedStore.openStore aead kdf (storePath dataDir) passphrase).run
        (Function.update s.disk (storePath dataDir) (some bytes))).snd = .error e

-- A commit that has replaced the store file also replaces the marker, and a rotation is not
-- interfered with and finds a store with at most one commit.
def MarkerKeepsUp (dataDir : FilePath) (s : Directory) : Event → Prop
  | .op _ _ fates            => MarkerFollows fates
  | .reopen _                => True
  | .rotate _ _ _ _ _ fates => fates = none ∧ ∀ m ∈ marker dataDir s.disk, m ≤ 1

-- A store was just set up in the directory.
def Started (aead : Aead) (kdf : String → Salt → Option DatabaseKey) (dataDir : FilePath)
    (s : Directory) : Prop :=
  ∃ disk passphrase salt nonce store,
    (initializeStore aead kdf (storePath dataDir) passphrase salt nonce).run disk =
      (s.disk, .ok store) ∧ s.store = some store ∧ s.held = contents dataDir [s.disk]

-- Whatever the content decrypts to is of an earlier revision, or the current records.
def Superseded (aead : Aead) (revision : UInt64) (records : Records) (bytes : Bytes) : Prop :=
  ∀ key r records', Opens aead key bytes r records' →
    r < revision ∨ (r = revision ∧ records' = records)

structure Current (aead : Aead) (dataDir : FilePath) (key : DatabaseKey) (revision : UInt64)
    (records : Records) (s : Directory) : Prop where
  files   : UpToDate aead (storePath dataDir) key s.disk revision records
  running : ∀ store ∈ s.store, store.path = storePath dataDir ∧ store.key = key ∧
    store.revision = revision ∧ store.locked = false
  held    : ∀ bytes ∈ s.held, Superseded aead revision records bytes

theorem mem_contents {disks : List Disk} :
    bytes ∈ contents dataDir disks ↔ ∃ d ∈ disks, d (storePath dataDir) = some bytes :=
  List.mem_filterMap

theorem marker_eq (h : UpToDate aead (storePath dataDir) key disk revision records) :
    marker dataDir disk = some revision := by
  have ⟨bytes, hb, hp⟩ := h.marker
  have hr : revisionPath dataDir = Storage.markerPath (storePath dataDir) :=
    Rotation.activeRevision_eq (r := ⟨dataDir, "", none⟩)
  simp [marker, hr, hb, hp, Except.toOption]

theorem superseded_of_opens (unique : aead.UniqueDecryption)
    (h : Opens aead key bytes revision records) : Superseded aead revision records bytes :=
  fun _ _ _ h' => .inr ⟨h'.revision_unique h, h'.records_unique unique h⟩

theorem Superseded.mono {revision' : UInt64} {records' : Records}
    (h : Superseded aead revision records bytes) (hr : revision < revision') :
    Superseded aead revision' records' bytes := by
  intro key r records'' ho
  obtain hl | ⟨rfl, -⟩ := h key r records'' ho
  case inl => exact .inl <| UInt64.lt_trans hl hr
  case inr => exact .inl hr

theorem Superseded.mono_of_le {revision' : UInt64} (h : Superseded aead revision records bytes)
    (hr : revision ≤ revision') : Superseded aead revision' records bytes := by
  obtain hlt | heq := UInt64.lt_or_eq_of_le hr
  case inl => exact h.mono hlt
  case inr => exact heq ▸ h

-- The marker check refuses what is behind it, whatever the passphrase.
theorem Current.detects (h : Current aead dataDir key revision records s)
    (unique : aead.UniqueDecryption) : Detects aead kdf dataDir s := by
  intro bytes hb current hc key₁ r₁ records₁ key₂ r₂ records₂ ho₁ ho₂ hne passphrase
  have ⟨current', hc', hcur⟩ := h.files.opens
  cases hc.symm.trans hc'
  have hlt : r₁ < revision := by
    refine (h.held bytes hb key₁ r₁ records₁ ho₁).resolve_right fun ⟨_, hr⟩ => hne ?_
    exact hr.trans (hcur.records_unique unique ho₂)
  have hmarker := markerPath_ne (storePath dataDir)
  obtain ⟨e, he⟩ | ⟨_, store, -, -, -, -, hf⟩ := EncryptedStore.run_openStore_cases aead kdf
    (storePath dataDir) passphrase (Function.update s.disk (storePath dataDir) (some bytes))
  case inl => exact ⟨e, by rw [he]⟩
  case inr =>
    have ⟨bytes', hb', ho⟩ := hf.opens
    have ⟨mark, hm, hp⟩ := h.files.marker
    have ⟨m, hp', hle⟩ := hf.marker mark (by simp [hmarker, hm])
    cases hp.symm.trans hp'
    have hb'' : bytes' = bytes := by simpa using hb'.symm
    have hr : store.revision = r₁ := (hb'' ▸ ho).revision_unique ho₁
    exact absurd hlt <| UInt64.not_lt.mpr (hr ▸ hle)

-- Contents seen while the store file was left alone are the current one.
theorem Current.held_append (h : Current aead dataDir key revision records s)
    (unique : aead.UniqueDecryption) {disks : List Disk}
    (hd : ∀ d ∈ disks, d (storePath dataDir) = s.disk (storePath dataDir)) :
    ∀ bytes ∈ s.held ++ contents dataDir disks, Superseded aead revision records bytes := by
  intro bytes hb
  obtain hb | hb := List.mem_append.mp hb
  case inl => exact h.held bytes hb
  case inr =>
    have ⟨d, hd', hb⟩ := mem_contents.mp hb
    have ⟨current, hc, ho⟩ := h.files.opens
    cases (hd d hd' ▸ hb).symm.trans hc
    exact superseded_of_opens unique ho

theorem Current.op (kdf : String → Salt → Option DatabaseKey)
    (h : Current aead dataDir key revision records s) (unique : aead.UniqueDecryption)
    (op : StoreOp) (nonce : Option Nonce) {fates : List Fate} (hm : MarkerFollows fates) :
    ∃ revision' records', revision ≤ revision' ∧
      Current aead dataDir key revision' records'
        (s.step aead kdf dataDir (.op op nonce fates)) := by
  cases hstore : s.store
  case none       => exact ⟨revision, records, UInt64.le_refl _, by simpa [step, hstore] using h⟩
  case some store =>
    obtain ⟨hpath, rfl, rfl, hl⟩ := h.running store hstore
    obtain ⟨old, ho, hopens⟩ := h.files.opens
    rw [← hpath] at ho
    obtain ⟨hd, hv, hr⟩ | ⟨revision', bytes, rest, hn, hopens', he, hv⟩ :=
      op.program_of_markerFollows aead nonce hl ho hm
    case inl =>
      refine ⟨store.revision, records, UInt64.le_refl _, ?_, ?_, ?_⟩
      case refine_1 => simpa only [step, hstore, hd] using h.files
      case refine_2 =>
        intro store' hs
        simp only [step, hstore, Option.mem_def] at hs
        obtain ⟨r, hr', rfl⟩ := Option.map_eq_some_iff.mp hs
        obtain ⟨_, hr⟩ := hr r hr'
        simp [hr, hpath, hl]
      case refine_3 =>
        simp only [step, hstore]
        exact h.held_append unique fun d hd => by rw [hv d hd]
    case inr =>
      have hlt : store.revision < revision' := by
        rw [UInt64.lt_iff_toNat_lt, hn]
        exact Nat.lt_succ_self _
      have hne : Storage.markerPath store.path ≠ store.path := markerPath_ne _
      refine ⟨revision', op.apply store.records, UInt64.le_of_lt hlt, ?_, ?_, ?_⟩
      case refine_1 =>
        simp only [step, hstore, he]
        rw [← hpath]
        exact ⟨⟨bytes, by simp [EncryptedStore.markerPath, hne.symm], hopens'⟩,
          ⟨markerBytes revision', by simp [EncryptedStore.markerPath], parseMarker_markerBytes _⟩⟩
      case refine_2 => simp [step, hstore, he, hpath, hl]
      case refine_3 =>
        simp only [step, hstore]
        intro b hb
        obtain hb | hb := List.mem_append.mp hb
        case inl => exact (h.held b hb).mono hlt
        case inr =>
          obtain ⟨d, hd, hb⟩ := mem_contents.mp hb
          rw [← hpath] at hb
          obtain hd | hd := hv d hd
          all_goals cases hd.symm.trans hb
          case inl => exact (superseded_of_opens unique hopens).mono hlt
          case inr => exact superseded_of_opens unique hopens'

theorem Current.reopen (kdf : String → Salt → Option DatabaseKey)
    (h : Current aead dataDir key revision records s) (unique : aead.UniqueDecryption)
    (passphrase : String) :
    ∃ key', Current aead dataDir key' revision records
      (s.step aead kdf dataDir (.reopen passphrase)) := by
  have hp : (EncryptedStore.openStore aead kdf (storePath dataDir) passphrase).Avoids
    (storePath dataDir) := openStore_avoids aead kdf (markerPath_ne _).symm
  have hheld := h.held_append unique fun _ hd => hp.trace_eq hd
  obtain ⟨e, he⟩ | ⟨disk', store, he, hpath, hl, hn, hf⟩ :=
    EncryptedStore.run_openStore_cases aead kdf (storePath dataDir) passphrase s.disk
  case inl =>
    refine ⟨key, ?_, ?_, ?_⟩
    case refine_1 => simpa [step, he] using h.files
    case refine_2 => simp [step, he, Except.toOption]
    case refine_3 => exact hheld
  case inr =>
    have ⟨bytes, hb, ho⟩ := h.files.opens
    have ⟨bytes', hb', ho'⟩ := hf.opens
    cases hb.symm.trans hb'
    have hr : store.revision = revision := ho'.revision_unique ho
    have hs : store.records = records := ho'.records_unique unique ho
    subst hr hs
    have hu : UpToDate aead (storePath dataDir) store.key s.disk store.revision store.records :=
      ⟨hf.opens, h.files.marker⟩
    refine ⟨store.key, ?_, ?_, ?_⟩
    case refine_1 => simpa [step, he] using hu.renewed hn
    case refine_2 => simp [step, he, Except.toOption, hpath, hl]
    case refine_3 => exact hheld

theorem Current.rotate (kdf : String → Salt → Option DatabaseKey)
    (h : Current aead dataDir key revision records s) (unique : aead.UniqueDecryption)
    (hr : revision ≤ 1) (pid : String)
    (passphraseOutput : Option FilePath) (credentials : String) (random : RotationRandom)
    (saved : Bool) :
    ∃ key' revision', revision ≤ revision' ∧ Current aead dataDir key' revision' records
      (s.step aead kdf dataDir
        (.rotate pid passphraseOutput credentials random saved none)) := by
  let r : Rotation := { dataDir, pid, passphraseOutput }
  have hu : UpToDate aead r.active key s.disk revision records := h.files
  have hk := Rotation.rotate_keeps_or_replaces kdf unique hu credentials random saved
  simp only [step]
  generalize Cli.rotate aead kdf r credentials random saved = program at hk
  obtain ⟨hk, hsame⟩ | ⟨key', bytes, ho, hs, hm, htrace⟩ := hk
  case inl => exact ⟨key, revision, UInt64.le_refl _, hk, by simp, h.held_append unique hsame⟩
  case inr =>
    rw [Rotation.activeRevision_eq] at hm
    refine ⟨key', 1, hr, ⟨⟨bytes, hs, ho⟩, ⟨_, hm, parseMarker_markerBytes 1⟩⟩, by simp, ?_⟩
    intro b hb
    obtain hb | hb := List.mem_append.mp hb
    case inl => exact (h.held b hb).mono_of_le hr
    case inr =>
      have ⟨d, hd, hb⟩ := mem_contents.mp hb
      have ⟨old, hold, hopens⟩ := h.files.opens
      obtain hd | hd | hd := htrace d hd
      case inl     =>
        cases hold.symm.trans (hd.symm.trans hb)
        exact (superseded_of_opens unique hopens).mono_of_le hr
      case inr.inl => cases hd.symm.trans hb
      case inr.inr =>
        cases hd.symm.trans hb
        exact superseded_of_opens unique ho

-- An event under the condition keeps the marker and the directory current.
theorem Current.step (kdf : String → Salt → Option DatabaseKey)
    (h : Current aead dataDir key revision records s) (unique : aead.UniqueDecryption)
    (hc : MarkerKeepsUp dataDir s e) :
    ∃ key' revision' records', revision ≤ revision' ∧
      Current aead dataDir key' revision' records' (s.step aead kdf dataDir e) := by
  match e with
  | .op op nonce fates =>
    have ⟨revision', records', hr, h'⟩ := h.op kdf unique op nonce hc
    exact ⟨key, revision', records', hr, h'⟩
  | .reopen passphrase =>
    have ⟨key', h'⟩ := h.reopen kdf unique passphrase
    exact ⟨key', revision, records, UInt64.le_refl _, h'⟩
  | .rotate pid passphraseOutput credentials random saved fates =>
    obtain ⟨rfl, hm⟩ := hc
    have ⟨key', revision', hr, h'⟩ := h.rotate kdf unique (hm revision <| marker_eq h.files) pid
      passphraseOutput credentials random saved
    exact ⟨key', revision', records, hr, h'⟩

theorem Started.current (h : Started aead kdf dataDir s) (unique : aead.UniqueDecryption) :
    ∃ key, Current aead dataDir key 0 ∅ s := by
  obtain ⟨disk, passphrase, salt, nonce, store, hi, hs, hh⟩ := h
  obtain ⟨key, salt, rfl, hu⟩ := run_initializeStore_ok hi
  refine ⟨key, hu, by simp [hs], fun bytes hb => ?_⟩
  have ⟨d, hd, hb⟩ := mem_contents.mp (hh ▸ hb)
  cases List.mem_singleton.mp hd
  have ⟨bytes', hb', ho⟩ := hu.opens
  cases hb.symm.trans hb'
  exact superseded_of_opens unique ho

-- A key derivation in which every byte counts, to run a directory on concrete inputs.
def sampleKdf (passphrase : String) (salt : Salt) : Option DatabaseKey :=
  some ⟨Bytes.ofNat 32 (Bytes.toNat (Bytes.utf8 passphrase ++ salt.val) % (2 ^ 255 - 19)),
    Bytes.length_ofNat _ _⟩

def samplePassphrase : String :=
  "correct horse battery staple"

def sample : Directory :=
  let (disk, result) := (initializeStore .sample sampleKdf (storePath "data") samplePassphrase
    (some sampleStore.salt) sampleNonce).run emptyDisk
  { disk, store := result.toOption, held := contents "data" [disk] }

theorem sample_started : Started .sample sampleKdf "data" sample := by
  let store : EncryptedStore := { sampleStore with
    path := storePath "data"
    key := ((sampleKdf samplePassphrase sampleStore.salt).getD sampleStore.key) }
  have hr : ((initializeStore .sample sampleKdf (storePath "data") samplePassphrase
      (some sampleStore.salt) sampleNonce).run emptyDisk).snd = .ok store := by decide
  exact ⟨emptyDisk, samplePassphrase, some sampleStore.salt, sampleNonce, store, Prod.ext rfl hr,
    by simp only [sample, hr]; rfl, rfl⟩

def samplePut (value : UInt8) (fates : List Fate) : Event :=
  .op (.put .device "a" [value]) sampleNonce fates

def sampleRotate : Event :=
  .rotate "7" none samplePassphrase
    { newPassphrase := "a fresh generated passphrase", salt := sampleStore.salt,
      nonce₀ := sampleNonce, nonce₁ := sampleNonce } false none

-- The records one sees by opening the store with the passphrase.
def shown (passphrase : String) (disk : Disk) : Option Records :=
  ((EncryptedStore.openStore .sample sampleKdf (storePath "data") passphrase).run disk).snd.toOption
    |>.map (·.records)

theorem opens_of_shown {passphrase : String} (h : shown passphrase disk = some records)
    (hb : disk (storePath "data") = some bytes) :
    ∃ key revision, Opens .sample key bytes revision records := by
  obtain ⟨e, he⟩ | ⟨_, store, he, -, -, -, hf⟩ :=
    EncryptedStore.run_openStore_cases .sample sampleKdf (storePath "data") passphrase disk
  case inl => simp [shown, he, Except.toOption] at h
  case inr =>
    have ⟨_, hb', ho⟩ := hf.opens
    cases hb.symm.trans hb'
    simp only [shown, he, Except.toOption, Option.map_some, Option.some.injEq] at h
    exact ⟨store.key, store.revision, h ▸ ho⟩

-- An earlier content that opens to other records than the current one is not detected.
theorem not_detects_of_shown (passphrase passphrase' : String) (bytes : Bytes)
    (h : bytes ∈ s.held ∧ (s.disk (storePath "data")).isSome ∧ (shown passphrase s.disk).isSome ∧
      (shown passphrase' (Function.update s.disk (storePath "data") (some bytes))).isSome ∧
      shown passphrase' (Function.update s.disk (storePath "data") (some bytes)) ≠
        shown passphrase s.disk) :
    ¬Detects .sample sampleKdf "data" s := by
  intro hd
  obtain ⟨hh, hc, hs, hs', hne⟩ := h
  have ⟨current, hc⟩ := Option.isSome_iff_exists.mp hc
  have ⟨records, hs⟩ := Option.isSome_iff_exists.mp hs
  have ⟨records', hs'⟩ := Option.isSome_iff_exists.mp hs'
  have ⟨key, revision, ho⟩ := opens_of_shown hs hc
  have ⟨key', revision', ho'⟩ := opens_of_shown hs' (Function.update_self _ _ _)
  have hr : records' ≠ records := by simpa [hs, hs'] using hne
  have ⟨e, he⟩ := hd bytes hh current hc key' revision' records' key revision records ho' ho hr
    passphrase'
  simp [shown, he, Except.toOption] at hs'

def sampleStep : Directory → Event → Directory :=
  step .sample sampleKdf "data"

-- Two commits.
def sampleTwice : Directory :=
  [samplePut 1 (List.replicate 4 .succeeds), samplePut 2 (List.replicate 4 .succeeds)].foldl
    sampleStep sample

def content (s : Directory) : Bytes :=
  (s.disk (storePath "data")).getD []

-- A commit, a rotation, a restart with the new passphrase, a commit that cannot be written, and
-- another one that can.
def sampleEvents : List Event := [
  samplePut 1 (List.replicate 4 .succeeds),
  sampleRotate,
  .reopen "a fresh generated passphrase",
  samplePut 2 [.succeeds, .succeeds, .untouched],
  samplePut 3 (List.replicate 4 .succeeds)
]

end Directory
