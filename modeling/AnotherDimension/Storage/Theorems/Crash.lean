import AnotherDimension.Storage.Theorems.Open
import AnotherDimension.Storage.Theorems.Batch

-- What is left of an operation after file failures and crashes, as seen by opening the store again.

open FileProgram Storage

namespace EncryptedStore

variable {aead : Aead} {store store' : EncryptedStore} {nonce : Option Nonce} {disk disk' : Disk}
  {fates rest : List Fate} {key : DatabaseKey} {bytes : Bytes} {revision : UInt64}
  {records : Records}

-- The two files of the store are the same on both disks.
def SameFiles (store : EncryptedStore) (disk₁ disk₂ : Disk) : Prop :=
  disk₁ store.path = disk₂ store.path ∧ disk₁ store.markerPath = disk₂ store.markerPath

-- The new store file is in place, and the marker is the old or the new one.
def NewFiles (store : EncryptedStore) (disk disk' : Disk) (revision : UInt64) (bytes : Bytes) :
    Prop :=
  disk' store.path = some bytes ∧
    (disk' store.markerPath = disk store.markerPath ∨
      disk' store.markerPath = some (markerBytes revision))

-- The fates under which a commit keeps its promise: the write of the store file does not fail after
-- it has replaced the file, and the process does not die between the two rollback writes of a commit
-- whose marker had already been replaced.
def SafeFates (fates : List Fate) : Prop :=
  fates[2]? ≠ some .replaced ∧ ¬(fates[3]? = some .replaced ∧ fates.length = 5)

@[simp]
theorem atomicWrite_bind {β : Type} (path : FilePath)
    (f : Except StorageError Unit → FileProgram β) :
    (atomicWrite path bytes >>= f) = step (.write path bytes) fun
      | .ok _    => f (.ok ())
      | .error _ => f (.error .io) := by
  simp only [atomicWrite, perform_bind, step_bind]
  congr
  funext answer
  cases answer <;> rfl

theorem restoreMarker_exec_nil (previous : Option Bytes) :
    (store.restoreMarker previous).exec disk [] = (disk, none) := by
  cases previous <;> simp [restoreMarker, exec]

theorem restoreMarker_exec (previous : Option Bytes) :
    (store.restoreMarker previous).exec disk (.succeeds :: fates) =
      (Function.update disk store.markerPath previous, some (true, fates)) := by
  cases previous
  case some => simp [restoreMarker, exec, FileOp.effect, FileOp.answer]
  case none =>
    cases h : disk store.markerPath <;>
      simp [restoreMarker, exec, FileOp.effect, FileOp.answer, h]

-- A rollback whose own steps do not fail ends with the old files, unless the process dies first.
theorem rollBack_exec {old : Bytes} {previous : Option Bytes} {e : StorageError}
    (hf : failures fates = 0) :
    (store.rollBack old previous e).exec disk fates =
      match fates with
      | []              => (disk, none)
      | [_]             => (Function.update disk store.path (some old), none)
      | _ :: _ :: fates => (Function.update (Function.update disk store.path (some old))
          store.markerPath previous, some (.error e, fates)) := by
  have hs : ∀ fate ∈ fates, fate = .succeeds := by simpa [failures] using hf
  match fates with
  | []                      => simp [rollBack, exec]
  | [fate]                  =>
    cases hs fate (by simp)
    simp [rollBack, exec, FileOp.effect, FileOp.answer, exec_bind, restoreMarker_exec_nil]
  | fate₁ :: fate₂ :: fates =>
    cases hs fate₁ (by simp)
    cases hs fate₂ (by simp)
    simp [rollBack, exec, FileOp.effect, FileOp.answer, exec_bind, restoreMarker_exec, Except.isOk,
      Except.toBool]

-- The two reads of a commit hand the old contents to its writes.
theorem replaceFiles_exec_reads {old : Bytes} (ho : disk store.path = some old) :
    (store.replaceFiles revision bytes).exec disk (.succeeds :: .succeeds :: fates) =
      (store.writeFiles revision bytes old (disk store.markerPath)).exec disk fates := by
  cases hm : disk store.markerPath <;>
    simp [replaceFiles, exec, FileOp.effect, FileOp.answer, ho, hm]

theorem replaceFiles_visited_reads {old : Bytes} (ho : disk store.path = some old) :
    (store.replaceFiles revision bytes).visited disk (.succeeds :: .succeeds :: fates) =
      disk :: disk ::
        (store.writeFiles revision bytes old (disk store.markerPath)).visited disk fates := by
  cases hm : disk store.markerPath <;>
    simp [replaceFiles, visited, FileOp.effect, FileOp.answer, ho, hm]

theorem writeFiles_exec_marker_fails {old : Bytes} {previous : Option Bytes} {fate : Fate}
    (hfate : fate ≠ .succeeds) :
    (store.writeFiles revision bytes old previous).exec disk (.succeeds :: fate :: fates) =
      (store.rollBack old previous .io).exec
        (if fate = .replaced then
          Function.update (Function.update disk store.path (some bytes)) store.markerPath
            (some <| markerBytes revision)
        else
          Function.update disk store.path (some bytes)) fates := by
  cases fate <;>
    simp_all [writeFiles, writeMarker, exec, FileOp.effect, FileOp.answer]

-- What a commit leaves of the two files under safe fates: after an error the old ones, after
-- success the new ones, and after a crash either of the two.
theorem replaceFiles_outcome (revision : UInt64) (bytes : Bytes) (hd : (disk store.path).isSome)
    (hf : failures fates ≤ 1) (hs : SafeFates fates) :
    match (store.replaceFiles revision bytes).exec disk fates with
    | (disk', none)               =>
      SameFiles store disk' disk ∨ NewFiles store disk disk' revision bytes
    | (disk', some (.ok (), _))   => NewFiles store disk disk' revision bytes
    | (disk', some (.error _, _)) => SameFiles store disk' disk := by
  obtain ⟨old, ho⟩ := Option.isSome_iff_exists.mp hd
  have hne : store.markerPath ≠ store.path := markerPath_ne _
  obtain _ | ⟨_ | _ | _, fates⟩ := fates
  case nil            => simp [replaceFiles, exec, SameFiles]
  case cons.untouched => simp [replaceFiles, exec, SameFiles, FileOp.effect]
  case cons.replaced  => simp [replaceFiles, exec, SameFiles, FileOp.effect]
  case cons.succeeds  =>
    obtain _ | ⟨_ | _ | _, fates⟩ := fates
    case nil            => simp [replaceFiles, exec, SameFiles, FileOp.effect, FileOp.answer, ho]
    case cons.untouched => simp [replaceFiles, exec, SameFiles, FileOp.effect, FileOp.answer, ho]
    case cons.replaced  => simp [replaceFiles, exec, SameFiles, FileOp.effect, FileOp.answer, ho]
    case cons.succeeds  =>
      rw [replaceFiles_exec_reads ho]
      obtain _ | ⟨_ | _ | _, fates⟩ := fates
      case nil            => simp [writeFiles, exec, SameFiles]
      case cons.untouched => simp [writeFiles, exec, SameFiles]
      case cons.replaced  => simp [SafeFates] at hs
      case cons.succeeds  =>
        obtain _ | ⟨_ | _ | _, fates⟩ := fates
        case nil            =>
          simp [writeFiles, writeMarker, exec, NewFiles, FileOp.effect, FileOp.answer, hne]
        case cons.succeeds  =>
          simp [writeFiles, writeMarker, exec, NewFiles, FileOp.effect, FileOp.answer, hne.symm]
        case cons.untouched =>
          have hz : failures fates = 0 := by simpa [failures] using hf
          rw [writeFiles_exec_marker_fails (by decide), rollBack_exec hz]
          obtain _ | ⟨_, _ | ⟨_, _⟩⟩ := fates
          case nil       => simp [NewFiles, hne]
          case cons.nil  => simp [SameFiles, ho, hne]
          case cons.cons => simp [SameFiles, ho, hne.symm]
        case cons.replaced  =>
          have hz : failures fates = 0 := by simpa [failures] using hf
          rw [writeFiles_exec_marker_fails (by decide), rollBack_exec hz]
          obtain _ | ⟨_, _ | ⟨_, _⟩⟩ := fates
          case nil       => simp [NewFiles, hne.symm]
          case cons.nil  => simp [SafeFates] at hs
          case cons.cons => simp [SameFiles, ho, hne.symm]

-- Without faults a commit that gets past its checks replaces both files.
theorem commit_run (aead : Aead) (nonce : Option Nonce) {old : Bytes}
    (ho : disk store.path = some old) :
    (store.commit aead nonce).run disk =
      match store.prepareCommit aead nonce with
      | .error e              => (disk, .error e, store)
      | .ok (revision, bytes) =>
        (Function.update (Function.update disk store.path (some bytes)) store.markerPath
          (some <| markerBytes revision), .ok (), { store with revision }) := by
  match hp : store.prepareCommit aead nonce with
  | .error e => simp [commit, hp, run]
  | .ok _    =>
    cases hm : disk store.markerPath <;>
      simp [commit, hp, replaceFiles, writeFiles, writeMarker, run, FileOp.effect, FileOp.answer,
        ho, hm]

theorem applyBatch_run_ok {mutations : List RecordMutation} {old : Bytes}
    (ho : disk store.path = some old)
    (h : (store.applyBatch aead nonce mutations).run disk = (disk', .ok (), store')) :
    ∃ revision bytes,
      { store with
        records := (StoreOp.applyBatch mutations).apply store.records }.prepareCommit aead nonce =
        .ok (revision, bytes) ∧
      disk' = Function.update (Function.update disk store.path (some bytes)) store.markerPath
        (some <| markerBytes revision) := by
  have ha := RecordMutation.applyEach_snd mutations store.records
  have hv := RecordMutation.applyEach_fst_eq_ok_iff mutations store.records
  unfold applyBatch at h
  split at h
  case isTrue  => cases h
  case isFalse =>
    split at h
    case h_1 => cases h
    case h_2 records he =>
      simp only [he, true_iff] at ha hv
      have hr : records = (StoreOp.applyBatch mutations).apply store.records := by rw [ha, hv]; rfl
      rw [← hr]
      have hc : ({ store with records }.commit aead nonce).run disk = _ := commit_run aead nonce ho
      match hp : { store with records }.prepareCommit aead nonce with
      | .error e              => simp [run_bind, hc, hp, run] at h
      | .ok (revision, bytes) =>
        simp only [run_bind, hc, hp] at h
        exact ⟨revision, bytes, rfl, (congrArg Prod.fst h).symm⟩

-- How an operation that is to turn the records into `records` runs: it returns at once, without
-- touching a file and with the records `early` in memory, or it is a commit of the new records that
-- falls back on the old store.
def Attempts (aead : Aead) (store : EncryptedStore) (nonce : Option Nonce) (early records : Records)
    (p : FileProgram (Except StorageError Unit × EncryptedStore)) : Prop :=
  (∃ result, (result = .ok () → early = store.records ∧ records = store.records) ∧
    p = done (result, { store with records := early })) ∨
  (∃ revision bytes, { store with records }.prepareCommit aead nonce = .ok (revision, bytes) ∧
    p = do
      match ← store.replaceFiles revision bytes with
      | .ok ()   => return (.ok (), { store with records, revision })
      | .error e => return (.error e, store))

theorem attempts_commit {early : Records}
    {next : Except StorageError Unit × EncryptedStore →
      FileProgram (Except StorageError Unit × EncryptedStore)}
    (hok : ∀ store', next (.ok (), store') = done (.ok (), store'))
    (he : ∀ e, next (.error e, { store with records }) = done (.error e, store))
    (hearly : early = store.records) :
    Attempts aead store nonce early records
      ({ store with records }.commit aead nonce >>= next) := by
  match hp : { store with records }.prepareCommit aead nonce with
  | .error e              =>
    refine .inl ⟨.error e, by simp, ?_⟩
    simp [commit, hp, he, hearly]
  | .ok (revision, bytes) =>
    refine .inr ⟨revision, bytes, hp, ?_⟩
    have hr : { store with records }.replaceFiles revision bytes =
      store.replaceFiles revision bytes := rfl
    simp only [commit, hp, hr, FileProgram.bind_assoc]
    congr
    funext result
    cases result <;> simp [hok, he]

end EncryptedStore

namespace StoreOp

open EncryptedStore

variable {aead : Aead} {store : EncryptedStore} {nonce : Option Nonce}

-- The records in memory after the operation returned without a commit: a batch stops at the first
-- mutation that is not valid.
def early (records : Records) : StoreOp → Records
  | applyBatch mutations =>
    let valid := RecordMutation.validPart mutations
    if valid = mutations then records else (applyBatch valid).apply records
  | _                    => records

-- A batch that fails on one of its mutations leaves the records as they were.
def KeepsRecords (records : Records) : StoreOp → Prop
  | applyBatch mutations =>
    let valid := RecordMutation.validPart mutations
    valid = mutations ∨ (applyBatch valid).apply records = records
  | _                    => True

theorem KeepsRecords.early_eq {records : Records} {op : StoreOp} (h : op.KeepsRecords records) :
    op.early records = records := by
  cases op
  case applyBatch => obtain hv | hr := h <;> simp_all [early]
  all_goals rfl

theorem put_attempts (hl : store.locked = false) (cls : RecordClass) (key : String)
    (value : Bytes) :
    Attempts aead store nonce store.records ((put cls key value).apply store.records)
      ((put cls key value).program aead store nonce) := by
  rw [program, EncryptedStore.put, if_neg (by simp [hl])]
  split
  case h_1 e _ => exact .inl ⟨.error e, by simp, rfl⟩
  case h_2     =>
    split
    case isTrue  => exact .inl ⟨.error .recordTooLarge, by simp, rfl⟩
    case isFalse =>
      refine attempts_commit (fun _ => rfl) (fun e => ?_) rfl
      cases h : store.records[(cls, key)]?
      case none     => simp [apply, OrderedMap.erase_insert_self value h]
      case some old => simp [apply, OrderedMap.insert_insert_self value h]

theorem delete_attempts (hl : store.locked = false) (cls : RecordClass) (key : String) :
    Attempts aead store nonce store.records ((delete cls key).apply store.records)
      ((delete cls key).program aead store nonce) := by
  rw [program, EncryptedStore.delete, if_neg (by simp [hl])]
  cases h : store.records[(cls, key)]?
  case none          =>
    exact .inl ⟨.ok (), fun _ => ⟨rfl, OrderedMap.erase_eq_self h⟩, rfl⟩
  case some previous =>
    simp only [FileProgram.bind_assoc]
    refine attempts_commit (fun _ => rfl) (fun e => ?_) rfl
    simp [apply, OrderedMap.insert_erase_self h, Except.map]

theorem applyBatch_attempts (hl : store.locked = false) (mutations : List RecordMutation) :
    Attempts aead store nonce ((applyBatch mutations).early store.records)
      ((applyBatch mutations).apply store.records)
      ((applyBatch mutations).program aead store nonce) := by
  have ha := RecordMutation.applyEach_snd mutations store.records
  have hv := RecordMutation.applyEach_fst_eq_ok_iff mutations store.records
  rw [program, EncryptedStore.applyBatch, if_neg (by simp [hl])]
  split
  case h_1 e records he =>
    simp only [he, reduceCtorEq, false_iff] at ha hv
    refine .inl ⟨.error e, by simp, ?_⟩
    simp [ha, early, hv, apply]
  case h_2 records he =>
    simp only [he, true_iff] at ha hv
    have hr : records = (applyBatch mutations).apply store.records := by rw [ha, hv]; rfl
    subst hr
    exact attempts_commit (fun _ => rfl) (fun _ => rfl) (by simp [early, hv])

theorem attempts (aead : Aead) (nonce : Option Nonce) (hl : store.locked = false) :
    (op : StoreOp) → Attempts aead store nonce (op.early store.records) (op.apply store.records)
      (op.program aead store nonce)
  | put cls key value    => put_attempts hl cls key value
  | delete cls key       => delete_attempts hl cls key
  | applyBatch mutations => applyBatch_attempts hl mutations

-- An operation that returns success has made its change in memory.
theorem exec_ok (op : StoreOp) {disk disk' : Disk} {fates rest : List Fate}
    {store' : EncryptedStore} (hl : store.locked = false)
    (h : (op.program aead store nonce).exec disk fates = (disk', some ((.ok (), store'), rest))) :
    store'.records = op.apply store.records ∧ store'.locked = false := by
  obtain ⟨result, hr, hx⟩ | ⟨revision, bytes, -, hx⟩ := attempts aead nonce hl op
  case inl =>
    rw [hx, exec] at h
    cases h
    have ⟨he, ha⟩ := hr rfl
    exact ⟨he.trans ha.symm, hl⟩
  case inr =>
    rw [hx, exec_bind] at h
    match hc : (store.replaceFiles revision bytes).exec disk fates with
    | (_, none)               => rw [hc] at h; cases h
    | (_, some (.error _, _)) => rw [hc] at h; cases h
    | (_, some (.ok (), _))   =>
      rw [hc] at h
      cases h
      exact ⟨rfl, hl⟩

end StoreOp
