import AnotherDimension.Cli.Recovery
import AnotherDimension.Storage.Theorems.Frame
import AnotherDimension.Storage.Theorems.Crash

-- What `recovery rotate` leaves in the data directory.

open FileProgram Storage EncryptedStore

namespace EncryptedStore

variable {aead : Aead} {kdf : String → Salt → Option DatabaseKey} {disk disk' : Disk}
  {store : EncryptedStore} {target : FilePath} {passphrase : String} {salt : Option Salt}
  {nonce₀ nonce₁ : Option Nonce}

theorem run_initializeStore_ok
    (h : (initializeStore aead kdf target passphrase salt nonce₀).run disk = (disk', .ok store)) :
    ∃ key salt, store =
      { path := target, key, salt, revision := 0, records := ∅, locked := false } ∧
      UpToDate aead target key disk' 0 ∅ := by
  unfold initializeStore at h
  split at h
  case h_1 => cases h
  case h_2 =>
    split at h
    case h_1      => cases h
    case h_2 salt =>
      split at h
      case h_1       => cases h
      case h_2 key _ => exact ⟨key, salt, run_initializeWithKey_ok h⟩

-- Putting the records of a store into an empty one, one after the other, gives the same records.
theorem apply_putAll (records : Records) :
    (StoreOp.applyBatch (records.toList.map fun e => .put e.fst.fst e.fst.snd e.snd)).apply ∅ =
      records := by
  have h := OrderedMap.insertMany_toList records
  rw [Std.ExtTreeMap.insertMany_list_eq_foldl] at h
  simpa [StoreOp.apply, List.foldl_map, RecordMutation.apply] using h

-- The new store is at revision 1 and holds the records of the old one.
theorem run_rekeyTo_ok
    (h : (store.rekeyTo aead kdf target passphrase salt nonce₀ nonce₁).run disk =
      (disk', .ok ())) :
    ∃ key bytes, disk' target = some bytes ∧ Opens aead key bytes 1 store.records ∧
      disk' (Storage.markerPath target) = some (markerBytes 1) := by
  unfold rekeyTo at h
  split at h
  case isTrue  => cases h
  case isFalse =>
    rw [run_andThen] at h
    split at h
    case h_2 => cases h
    case h_1 disk₁ replacement hi =>
      obtain ⟨key, salt, rfl, hh⟩ := run_initializeStore_ok hi
      have ⟨old, ho, _⟩ := hh.opens
      rw [run_bind] at h
      have ⟨revision, bytes, hp, hd⟩ :=
        applyBatch_run_ok ho (Prod.ext rfl <| Prod.ext (congrArg Prod.snd h) rfl)
      have ⟨hr, hx⟩ := prepareCommit_spec hp
      have hone : revision = 1 := UInt64.toNat_inj.mp hr
      have hne := markerPath_ne target
      subst hone
      rw [apply_putAll] at hx
      have hf : disk' = _ := (congrArg Prod.fst h).symm.trans hd
      exact ⟨key, bytes, by simp [hf, markerPath, hne.symm], hx, by simp [hf, markerPath]⟩

theorem run_openStore_cases (aead : Aead) (kdf : String → Salt → Option DatabaseKey)
    (path : FilePath) (passphrase : String) (disk : Disk) :
    (∃ e, (openStore aead kdf path passphrase).run disk = (disk, .error e)) ∨
    (∃ disk' store, (openStore aead kdf path passphrase).run disk = (disk', .ok store) ∧
      store.path = path ∧ store.locked = false ∧ Renewed path store.revision disk disk' ∧
      FilesHold aead path store.key disk store.revision store.records) := by
  unfold openStore
  split
  case h_1 e _ => exact .inl ⟨e, rfl⟩
  case h_2     =>
    refine (run_openWith_cases aead path _ disk).imp_right fun ⟨disk', store, hr, hs⟩ => ?_
    exact ⟨disk', store, hr, hs.left, hs.right.left, hs.right.right.right⟩

end EncryptedStore

namespace Cli

variable {aead : Aead} {kdf : String → Salt → Option DatabaseKey} {disk : Disk}

theorem run_openStore_cases (aead : Aead) (kdf : String → Salt → Option DatabaseKey)
    (dataDir : FilePath) (passphrase : String) (disk : Disk) :
    (∃ e, (openStore aead kdf dataDir passphrase).run disk = (disk, .error e)) ∨
    (∃ disk' store, (openStore aead kdf dataDir passphrase).run disk = (disk', .ok store) ∧
      Renewed (storePath dataDir) store.revision disk disk' ∧
      FilesHold aead (storePath dataDir) store.key disk store.revision store.records) := by
  cases hp : disk (storePath dataDir)
  case none =>
    exact .inl ⟨.notInitialized, by simp [openStore, isFile, run, FileOp.answer, FileOp.effect, hp,
      Except.isOk, Except.toBool]⟩
  case some =>
    have hr : (openStore aead kdf dataDir passphrase).run disk =
        (((EncryptedStore.openStore aead kdf (storePath dataDir) passphrase).run disk).fst,
          ((EncryptedStore.openStore aead kdf (storePath dataDir) passphrase).run disk).snd.mapError
            .storage) := by
      simp [openStore, isFile, run, FileOp.answer, FileOp.effect, hp, Except.isOk, Except.toBool,
        run_bind]
    rw [hr]
    obtain ⟨e, he⟩ | ⟨disk', store, he, -, -, hn, hf⟩ :=
      EncryptedStore.run_openStore_cases aead kdf (storePath dataDir) passphrase disk
    case inl => exact .inl ⟨.storage e, by rw [he]; rfl⟩
    case inr => exact .inr ⟨disk', store, by rw [he]; rfl, hn, hf⟩

end Cli

namespace Cli.Rotation

variable {aead : Aead} {kdf : String → Salt → Option DatabaseKey} {disk disk' d : Disk}
  {r : Rotation}

theorem activeRevision_eq : r.activeRevision = Storage.markerPath r.active := by
  simp [activeRevision, revisionPath, Storage.markerPath, active, storePath, String.append_assoc]

-- The files a rotation works with are all different.
theorem paths_nodup :
    [r.active, r.activeRevision, r.temporary, r.temporaryRevision, r.oldStore, r.oldRevision].Nodup
    := by
  simp [active, storePath, activeRevision, revisionPath, temporary, temporaryRevision, oldStore,
    oldRevision, String.append_assoc, String.ext_iff]

-- The replacement ends up in the place of the active store, which is missing in between.
theorem swap_run {store revision newStore newRevision : Bytes} (ha : disk r.active = some store)
    (hr : disk r.activeRevision = some revision) (ht : disk r.temporary = some newStore)
    (htr : disk r.temporaryRevision = some newRevision) :
    (r.swap.run disk).snd = .ok () ∧ (r.swap.run disk).fst r.active = some newStore ∧
      (r.swap.run disk).fst r.activeRevision = some newRevision ∧
      ∀ d ∈ r.swap.trace disk,
        d r.active = some store ∨ d r.active = none ∨ d r.active = some newStore := by
  -- Each inequality of two paths is needed in both directions.
  have hp := r.paths_nodup
  have hq := List.nodup_reverse.mpr r.paths_nodup
  simp only [List.reverse_cons, List.reverse_nil, List.nil_append, List.cons_append,
    List.nodup_cons, List.mem_cons, List.not_mem_nil, not_or, or_false] at hp hq
  simp [swap, rename, removeFile, run, trace, FileOp.answer, FileOp.effect, ha, hr, ht, htr, hp, hq]

theorem removeOutput_avoids {path : FilePath} (ho : some path ≠ r.passphraseOutput) :
    r.removeOutput.Avoids path := by
  unfold removeOutput
  split
  case h_1 target h =>
    have hne : path ≠ target := by simpa [h] using ho
    exact ⟨hne, fun _ => trivial⟩
  case h_2 => trivial

theorem writeOutput_avoids {path : FilePath} {passphrase : String}
    (ho : some path ≠ r.passphraseOutput) : (r.writeOutput passphrase).Avoids path := by
  unfold writeOutput
  split
  case h_1 target h =>
    have hne : path ≠ target := by simpa [h] using ho
    exact ⟨hne, fun answer => by cases answer <;> trivial⟩
  case h_2 => trivial

theorem rekey_avoids {path : FilePath} {random : RotationRandom} {store : EncryptedStore}
    (ht : path ≠ r.temporary) (htr : path ≠ r.temporaryRevision)
    (ho : some path ≠ r.passphraseOutput) : (r.rekey aead kdf random store).Avoids path := by
  unfold rekey
  split
  case h_1 => trivial
  case h_2 =>
    refine (writeOutput_avoids ho).andThen fun _ => ⟨ht, fun _ => ⟨htr, fun _ => ?_⟩⟩
    exact (rekeyTo_avoids ht htr).bind fun
      | .ok ()   => trivial
      | .error _ => (removeOutput_avoids ho).bind fun _ => trivial

theorem run_rekey_ok {random : RotationRandom} {store : EncryptedStore}
    (h : (r.rekey aead kdf random store).run disk = (disk', .ok ())) :
    ∃ key bytes, disk' r.temporary = some bytes ∧ Opens aead key bytes 1 store.records ∧
      disk' r.temporaryRevision = some (markerBytes 1) := by
  unfold rekey at h
  split at h
  case h_1 => cases h
  case h_2 =>
    rw [run_andThen] at h
    split at h
    case h_2 => cases h
    case h_1 =>
      simp only [removeFile, perform_bind, step_bind, pure_eq_done, done_bind, run, run_bind] at h
      split at h
      case h_1 hk =>
        have hf : _ = disk' := congrArg Prod.fst h
        exact run_rekeyTo_ok (Prod.ext hf hk)
      case h_2 =>
        rw [run_bind] at h
        cases congrArg Prod.snd h

-- The active files are as they were, at every point of the run.
def Keeps (aead : Aead) (r : Rotation) (key : DatabaseKey) (revision : UInt64) (records : Records)
    (disk : Disk) (p : FileProgram (Except CliError Unit)) : Prop :=
  UpToDate aead r.active key (p.run disk).fst revision records ∧
    ∀ d ∈ p.trace disk, d r.active = disk r.active

-- The active files are replaced by a store with the given records at revision 1.
def Replaces (aead : Aead) (r : Rotation) (records : Records) (disk : Disk)
    (p : FileProgram (Except CliError Unit)) : Prop :=
  ∃ key bytes, Opens aead key bytes 1 records ∧ (p.run disk).fst r.active = some bytes ∧
    (p.run disk).fst r.activeRevision = some (markerBytes 1) ∧
    ∀ d ∈ p.trace disk, d r.active = disk r.active ∨ d r.active = none ∨ d r.active = some bytes

section

variable {key : DatabaseKey} {revision : UInt64} {records : Records} {store : EncryptedStore}
  {random : RotationRandom} {saved : Bool}

theorem updateKeychain_avoids {path : FilePath} (h : path ≠ profileKeychainPath r.dataDir) :
    (r.updateKeychain saved).Avoids path := by
  refine ⟨trivial, fun answer => ?_⟩
  match answer with
  | .error _ => trivial
  | .ok id   =>
    dsimp only [FileProgram.bind]
    split
    case isTrue  => exact ⟨h, fun answer => by cases answer <;> trivial⟩
    case isFalse => trivial

theorem finish_replaces (saved : Bool) {bytes : Bytes}
    (h : UpToDate aead r.active key disk revision records)
    (ht : disk r.temporary = some bytes) (htr : disk r.temporaryRevision = some (markerBytes 1)) :
    ((r.finish saved).run disk).fst r.active = some bytes ∧
      ((r.finish saved).run disk).fst r.activeRevision = some (markerBytes 1) ∧
      ∀ d ∈ (r.finish saved).trace disk,
        d r.active = disk r.active ∨ d r.active = none ∨ d r.active = some bytes := by
  have ⟨old, ho, _⟩ := h.opens
  have ⟨mark, hm, _⟩ := h.marker
  rw [← activeRevision_eq] at hm
  have ⟨hok, ha, hr, htrace⟩ := swap_run ho hm ht htr
  have hs : r.swap.run disk = ((r.swap.run disk).fst, .ok ()) := Prod.ext rfl hok
  have hka : r.active ≠ profileKeychainPath r.dataDir := by
    simp [active, storePath, profileKeychainPath, String.ext_iff]
  have hkr : r.activeRevision ≠ profileKeychainPath r.dataDir := by
    simp [activeRevision, revisionPath, profileKeychainPath, String.ext_iff]
  have ht : (r.finish saved).run disk =
      ((r.updateKeychain saved).run (r.swap.run disk).fst |>.fst, .ok ()) := by
    rw [finish, run_andThen, hs]
    exact run_bind _ _ _
  refine ⟨?_, ?_, fun d hd => ?_⟩
  case refine_1 => rw [ht, (updateKeychain_avoids hka).run_eq, ha]
  case refine_2 => rw [ht, (updateKeychain_avoids hkr).run_eq, hr]
  case refine_3 =>
    obtain hd | ⟨disk', _, hs', hd⟩ := mem_trace_andThen hd
    case inl => exact ho ▸ htrace d hd
    case inr =>
      have hk : ((r.updateKeychain saved) >>= fun _ => done (.ok ()) :
          FileProgram (Except CliError Unit)).Avoids r.active :=
        (updateKeychain_avoids hka).bind fun _ => trivial
      rw [hk.trace_eq hd]
      rw [hs'] at ha
      exact .inr <| .inr ha

-- Until the swap a rotation leaves the active files alone.
theorem rekey_finish (kdf : String → Salt → Option DatabaseKey) (random : RotationRandom)
    (saved : Bool) (store : EncryptedStore)
    (h : UpToDate aead r.active key disk revision records)
    (ho : some r.active ≠ r.passphraseOutput) (hor : some r.activeRevision ≠ r.passphraseOutput) :
    Keeps aead r key revision records disk
        ((r.rekey aead kdf random store).andThen fun _ => r.finish saved) ∨
      Replaces aead r store.records disk
        ((r.rekey aead kdf random store).andThen fun _ => r.finish saved) := by
  have hp := r.paths_nodup
  simp only [List.nodup_cons, List.mem_cons, not_or] at hp
  have hka : (r.rekey aead kdf random store).Avoids r.active :=
    rekey_avoids hp.left.right.left hp.left.right.right.left ho
  have hkr : (r.rekey aead kdf random store).Avoids r.activeRevision :=
    rekey_avoids hp.right.left.left hp.right.left.right.left hor
  have hu := h.avoided hka (by rwa [← activeRevision_eq])
  match hr : (r.rekey aead kdf random store).run disk with
  | (disk', .error e) =>
    rw [hr] at hu
    refine .inl ⟨by rwa [run_andThen, hr], fun d hd => ?_⟩
    obtain hd | ⟨_, _, hr', -⟩ := mem_trace_andThen hd
    case inl => exact hka.trace_eq hd
    case inr => cases hr.symm.trans hr'
  | (disk', .ok ()) =>
    rw [hr] at hu
    have ⟨newKey, bytes, ht, hopens, htr⟩ := run_rekey_ok hr
    have ⟨ha, hm, htrace⟩ := finish_replaces saved hu ht htr
    have hsame : disk' r.active = disk r.active := by simpa [hr] using hka.run_eq disk
    refine .inr ⟨newKey, bytes, hopens, ?_, ?_, fun d hd => ?_⟩
    case refine_1 => rwa [run_andThen, hr]
    case refine_2 => rwa [run_andThen, hr]
    case refine_3 =>
      obtain hd | ⟨_, _, hr', hd⟩ := mem_trace_andThen hd
      case inl => exact .inl <| hka.trace_eq hd
      case inr =>
        cases hr.symm.trans hr'
        exact hsame ▸ htrace d hd

theorem outputExists_run :
    r.outputExists.run disk = (disk, r.passphraseOutput.elim false fun path => (disk path).isSome)
    := by
  unfold outputExists
  split
  case h_2 ho      => simp [run, ho]
  case h_1 path ho =>
    cases hp : disk path <;>
      simp [isFile, run, ho, hp, FileOp.answer, FileOp.effect, Except.isOk, Except.toBool]

theorem outputExists_avoids : r.outputExists.Avoids r.active := by
  unfold outputExists
  split
  case h_1 => exact ⟨trivial, fun _ => trivial⟩
  case h_2 => trivial

theorem openStore_avoids (aead : Aead) (kdf : String → Salt → Option DatabaseKey) (r : Rotation)
    (passphrase : String) : (Cli.openStore aead kdf r.dataDir passphrase).Avoids r.active := by
  have ha : (EncryptedStore.openStore aead kdf r.active passphrase).Avoids r.active :=
    EncryptedStore.openStore_avoids aead kdf (markerPath_ne _).symm
  have hf : (isFile (storePath r.dataDir)).Avoids r.active := ⟨trivial, fun _ => trivial⟩
  exact hf.bind fun
    | true  => ha.bind fun _ => trivial
    | false => trivial

-- A first part that leaves the active store alone does not matter.
theorem keeps_or_replaces_bind {α : Type} {p : FileProgram α} {a : α}
    {f : α → FileProgram (Except CliError Unit)} (hr : p.run disk = (disk', a))
    (hp : p.Avoids r.active)
    (h : Keeps aead r key revision records disk' (f a) ∨ Replaces aead r records disk' (f a)) :
    Keeps aead r key revision records disk (p >>= f) ∨ Replaces aead r records disk (p >>= f) := by
  have ha : disk' r.active = disk r.active := by simpa [hr] using hp.run_eq disk
  have hrun : (p >>= f).run disk = (f a).run disk' := by rw [run_bind, hr]
  have htrace : ∀ d ∈ (p >>= f).trace disk, d r.active = disk r.active ∨ d ∈ (f a).trace disk' :=
    fun d hd => (mem_trace_bind hd).imp hp.trace_eq fun hd => by rwa [hr] at hd
  refine h.imp (fun hk => ⟨hrun ▸ hk.left, fun d hd => ?_⟩) fun hx => ?_
  case refine_1 => exact (htrace d hd).elim id fun hd => (hk.right d hd).trans ha
  case refine_2 =>
    have ⟨key', bytes, ho, hs, hm, hk⟩ := hx
    refine ⟨key', bytes, ho, hrun ▸ hs, hrun ▸ hm, fun d hd => ?_⟩
    exact (htrace d hd).elim .inl fun hd => ha ▸ hk d hd

theorem keeps_done (h : UpToDate aead r.active key disk revision records)
    (result : Except CliError Unit) : Keeps aead r key revision records disk (done result) :=
  ⟨h, fun d hd => by cases List.mem_singleton.mp hd; rfl⟩

theorem open_rekey_finish (unique : aead.UniqueDecryption)
    (h : UpToDate aead r.active key disk revision records)
    (ho : some r.active ≠ r.passphraseOutput) (hor : some r.activeRevision ≠ r.passphraseOutput)
    (passphrase : String) :
    let p := (Cli.openStore aead kdf r.dataDir passphrase).andThen fun store =>
      (r.rekey aead kdf random store).andThen fun _ => r.finish saved
    Keeps aead r key revision records disk p ∨ Replaces aead r records disk p := by
  have hp := openStore_avoids aead kdf r passphrase
  obtain ⟨e, he⟩ | ⟨disk', store, he, hn, hf⟩ :=
    Cli.run_openStore_cases aead kdf r.dataDir passphrase disk
  case inl => exact keeps_or_replaces_bind he hp <| .inl <| keeps_done h _
  case inr =>
    have ⟨bytes, hb, hopens⟩ := h.opens
    have ⟨bytes', hb', hopens'⟩ := hf.opens
    cases hb.symm.trans hb'
    have hr : store.revision = revision := hopens'.revision_unique hopens
    have hs : store.records = records := hopens'.records_unique unique hopens
    have h' : UpToDate aead r.active key disk' revision records := h.renewed (hr ▸ hn)
    refine keeps_or_replaces_bind he hp ?_
    have hk := rekey_finish kdf random saved store h' ho hor
    rwa [hs] at hk

-- A rotation keeps the active store, or puts one with the same records at revision 1 in its place.
theorem rotate_keeps_or_replaces (kdf : String → Salt → Option DatabaseKey)
    (unique : aead.UniqueDecryption)
    (h : UpToDate aead r.active key disk revision records) (credentials : String)
    (random : RotationRandom) (saved : Bool) :
    Keeps aead r key revision records disk (rotate aead kdf r credentials random saved) ∨
      Replaces aead r records disk (rotate aead kdf r credentials random saved) := by
  unfold rotate
  dsimp only
  split
  case isTrue  => exact .inl <| keeps_done h _
  case isFalse =>
    refine keeps_or_replaces_bind outputExists_run outputExists_avoids ?_
    split
    case isTrue     => exact .inl <| keeps_done h _
    case isFalse he =>
      -- The output file does not exist, so it is not one of the active files.
      have hout : ∀ path, (disk path).isSome → some path ≠ r.passphraseOutput := by
        intro path hp ho
        simp [← ho, hp] at he
      have ⟨_, hb, _⟩ := h.opens
      have ⟨_, hm, _⟩ := h.marker
      rw [← activeRevision_eq] at hm
      exact open_rekey_finish unique h (hout _ <| by simp [hb]) (hout _ <| by simp [hm]) _

end

end Cli.Rotation
