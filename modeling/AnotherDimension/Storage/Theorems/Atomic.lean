import AnotherDimension.Library.Run
import AnotherDimension.Storage.Theorems.Crash

-- Runs of the store over crashes and restarts: every operation is atomic on the disk.

open FileProgram Storage EncryptedStore

-- A data directory and the store that is running on it, if one is.
structure Session where
  disk  : Disk
  store : Option EncryptedStore

namespace Session

-- An operation comes with its random bytes and the fates of its file steps; the process dies where
-- the fates end. A restart opens the files again with the same key.
inductive Event
  | op (op : StoreOp) (nonce : Option Nonce) (fates : List Fate)
  | reopen

variable {aead : Aead} {path : FilePath} {key : DatabaseKey} {s : Session} {e : Event}

def step (aead : Aead) (path : FilePath) (key : DatabaseKey) (s : Session) : Event → Session
  | .reopen            =>
    let (disk, result) := (openWithDatabaseKey aead path key).run s.disk
    { disk, store := result.toOption }
  | .op op nonce fates =>
    match s.store with
    | none       => s
    | some store =>
      let (disk, result) := (op.program aead store nonce).exec s.disk fates
      { disk, store := result.map fun r => r.fst.snd }

-- The records one would see by opening the files now.
def shown (aead : Aead) (path : FilePath) (key : DatabaseKey) (disk : Disk) :
    Except StorageError Records :=
  ((openWithDatabaseKey aead path key).run disk).snd.map (·.records)

-- The operation is seen by whoever opens the files after it in full when it succeeded, not at all
-- when it failed, and one or the other when the process died on the way.
def Atomic (aead : Aead) (path : FilePath) (key : DatabaseKey) (s : Session) : Event → Prop
  | .reopen            => ∃ records, shown aead path key s.disk = .ok records
  | .op op nonce fates => ∀ store, s.store = some store →
    ∃ before, shown aead path key s.disk = .ok before ∧
      match (op.program aead store nonce).exec s.disk fates with
      | (disk, none)                    =>
        shown aead path key disk = .ok before ∨ shown aead path key disk = .ok (op.apply before)
      | (disk, some ((.ok (), _), _))   => shown aead path key disk = .ok (op.apply before)
      | (disk, some ((.error _, _), _)) => shown aead path key disk = .ok before

def AtMostOneFailure : Event → Prop
  | .reopen        => True
  | .op _ _ fates => failures fates ≤ 1

-- The fates are safe for a commit, and a batch does not stop halfway.
def Safe (s : Session) : Event → Prop
  | .reopen        => True
  | .op op _ fates => SafeFates fates ∧ ∀ store ∈ s.store, op.KeepsRecords store.records

-- The session was started on this directory, with a fresh store or an existing one.
def Started (aead : Aead) (path : FilePath) (key : DatabaseKey) (s : Session) : Prop :=
  ∃ store, s.store = some store ∧
    ((∃ disk salt nonce,
        (initializeWithKey aead path key salt nonce).run disk = (s.disk, .ok store)) ∨
     (∃ disk, (openWithDatabaseKey aead path key).run disk = (s.disk, .ok store)))

-- The files hold what the running store has in memory.
def Synced (aead : Aead) (path : FilePath) (key : DatabaseKey) (s : Session) : Prop :=
  ∃ revision records, FilesHold aead path key s.disk revision records ∧
    ∀ store, s.store = some store → store.path = path ∧ store.key = key ∧
      store.revision = revision ∧ store.records = records ∧ store.locked = false

theorem shown_of_filesHold {disk : Disk} {revision : UInt64} {records : Records}
    (h : FilesHold aead path key disk revision records) :
    shown aead path key disk = .ok records := by
  have ⟨_, _, hr, _⟩ := h.run_open
  simp [shown, hr, Except.map]

theorem filesHold_of_sameFiles {store : EncryptedStore} {disk disk' : Disk} {revision : UInt64}
    {records : Records} (h : FilesHold aead store.path key disk revision records)
    (hs : SameFiles store disk' disk) : FilesHold aead store.path key disk' revision records where
  opens  := hs.left ▸ h.opens
  marker := (hs.right : disk' (Storage.markerPath store.path) = _) ▸ h.marker

theorem filesHold_of_newFiles {store : EncryptedStore} {disk disk' : Disk} {r₁ r₂ : UInt64}
    {records₁ records₂ : Records} {bytes : Bytes}
    (h : FilesHold aead store.path key disk r₁ records₁) (hr : r₁ ≤ r₂)
    (ho : Opens aead key bytes r₂ records₂) (hn : NewFiles store disk disk' r₂ bytes) :
    FilesHold aead store.path key disk' r₂ records₂ where
  opens  := ⟨bytes, hn.left, ho⟩
  marker := by
    obtain hm | hm := hn.right
    case inl => exact hm ▸ h.marker.mono hr
    case inr => exact hm ▸ markerAtMost_markerBytes r₂

-- What one operation leaves on the disk and in memory under safe fates.
theorem program_outcome {store : EncryptedStore} {disk : Disk} {op : StoreOp} {fates : List Fate}
    (nonce : Option Nonce) (hl : store.locked = false) (hk : op.KeepsRecords store.records)
    (hh : FilesHold aead store.path store.key disk store.revision store.records)
    (hf : failures fates ≤ 1) (hs : SafeFates fates) :
    let before disk := FilesHold aead store.path store.key disk store.revision store.records
    let after revision disk :=
      FilesHold aead store.path store.key disk revision (op.apply store.records)
    match (op.program aead store nonce).exec disk fates with
    | (disk', none)                         => before disk' ∨ ∃ revision, after revision disk'
    | (disk', some ((.ok (), store'), _))   => ∃ revision, after revision disk' ∧
        store' = { store with records := op.apply store.records, revision }
    | (disk', some ((.error _, store'), _)) => before disk' ∧ store' = store := by
  intro before after
  obtain ⟨result, hr, hx⟩ | ⟨revision, bytes, hp, hx⟩ := StoreOp.attempts aead nonce hl op
  case inl =>
    rw [hx, hk.early_eq]
    cases result
    case error => exact ⟨hh, rfl⟩
    case ok    =>
      have hr := (hr rfl).right
      exact ⟨store.revision, by simpa [after, hr] using hh, by rw [hr]⟩
  case inr =>
    have ⟨hn, ho⟩ := prepareCommit_spec hp
    have hle : store.revision ≤ revision := UInt64.le_iff_toNat_le.mpr <| by simp at hn; omega
    have hd : (disk store.path).isSome := by
      have ⟨_, hb, _⟩ := hh.opens
      simp [hb]
    have hout := replaceFiles_outcome revision bytes hd hf hs
    rw [hx, exec_bind]
    match hc : (store.replaceFiles revision bytes).exec disk fates with
    | (disk', none)               =>
      rw [hc] at hout
      exact hout.imp (filesHold_of_sameFiles hh) fun hn =>
        ⟨revision, filesHold_of_newFiles hh hle ho hn⟩
    | (disk', some (.ok (), _))   =>
      rw [hc] at hout
      exact ⟨revision, filesHold_of_newFiles hh hle ho hout, rfl⟩
    | (disk', some (.error _, _)) =>
      rw [hc] at hout
      exact ⟨filesHold_of_sameFiles hh hout, rfl⟩

theorem Started.synced (h : Started aead path key s) : Synced aead path key s := by
  obtain ⟨store, hs, ⟨disk, salt, nonce, hi⟩ | ⟨disk, ho⟩⟩ := h
  case inl =>
    have ⟨he, hf⟩ := run_initializeWithKey_ok hi
    exact ⟨0, ∅, hf.filesHold, by simp [hs, he]⟩
  case inr =>
    have ⟨hp, hl, ⟨_, hk⟩, hn, hf⟩ := run_openWith_ok ho
    cases hk
    exact ⟨store.revision, store.records, hf.renewed hn, by simp [hs, hp, hl]⟩

-- Under safe fates an event is atomic and leaves the session synced.
theorem Synced.step (hs : Synced aead path key s) (hf : AtMostOneFailure e) (safe : Safe s e) :
    Atomic aead path key s e ∧ Synced aead path key (s.step aead path key e) := by
  obtain ⟨revision, records, hh, hm⟩ := hs
  match e with
  | .reopen            =>
    have ⟨disk', salt, hr, hh'⟩ := hh.run_open
    refine ⟨⟨records, shown_of_filesHold hh⟩, revision, records, ?_⟩
    simp [Session.step, hr, hh', Except.toOption]
  | .op op nonce fates =>
    match hstore : s.store with
    | none       =>
      refine ⟨by simp [Atomic, hstore], revision, records, ?_⟩
      simp [Session.step, hstore, hh]
    | some store =>
      obtain ⟨rfl, rfl, rfl, rfl, hl⟩ := hm store hstore
      have hout := program_outcome nonce hl (safe.right store hstore) hh hf safe.left
      simp only [Atomic, Session.step, hstore, Option.some.injEq, forall_eq']
      match hx : (op.program aead store nonce).exec s.disk fates with
      | (disk, none)                          =>
        rw [hx] at hout
        obtain hb | ⟨revision, ha⟩ := hout
        case inl =>
          exact ⟨⟨_, shown_of_filesHold hh, .inl <| shown_of_filesHold hb⟩, _, _, hb, by simp⟩
        case inr =>
          exact ⟨⟨_, shown_of_filesHold hh, .inr <| shown_of_filesHold ha⟩, _, _, ha, by simp⟩
      | (disk, some ((.ok (), store'), _))   =>
        rw [hx] at hout
        obtain ⟨revision, ha, rfl⟩ := hout
        exact ⟨⟨_, shown_of_filesHold hh, shown_of_filesHold ha⟩, _, _, ha, by simp [hl]⟩
      | (disk, some ((.error _, store'), _)) =>
        rw [hx] at hout
        obtain ⟨hb, rfl⟩ := hout
        exact ⟨⟨_, shown_of_filesHold hh, shown_of_filesHold hb⟩, _, _, hb, by simp [hl]⟩

-- In a run whose file failures are safe, every operation is atomic and the files always open.
theorem atomic_of_safe (events : List Event) (start : Started aead path key s)
    (one : Run.Meets (step aead path key) (fun _ e => AtMostOneFailure e) s events)
    (safe : Run.Meets (step aead path key) Safe s events) :
    Run.Meets (step aead path key) (Atomic aead path key) s events ∧
      ∀ s' ∈ Run.states (step aead path key) s events,
        ∃ records, shown aead path key s'.disk = .ok records := by
  have ⟨ha, hs⟩ := Run.Meets.of_invariant (fun _ _ hs h => hs.step h.left h.right) start.synced
    (one.and safe)
  refine ⟨ha, fun s' h => ?_⟩
  have ⟨_, records, hh, _⟩ := hs s' h
  exact ⟨records, shown_of_filesHold hh⟩

-- A session just started on an empty directory.
def sample : Session where
  disk  := ((initializeWithKey .sample "store" sampleStore.key sampleStore.salt sampleNonce).run
    emptyDisk).fst
  store := some sampleStore

theorem sample_started : Started .sample "store" sampleStore.key sample :=
  ⟨sampleStore, rfl, .inl ⟨emptyDisk, sampleStore.salt, sampleNonce,
    Prod.ext rfl (by decide)⟩⟩

-- The store file is replaced, but its directory cannot be synced.
def failsReplaced : List Fate :=
  [.succeeds, .succeeds, .replaced]

-- The marker is replaced, but its directory cannot be synced; the store file is rolled back, and
-- the process dies before the marker is.
def diesInRollback : List Fate :=
  [.succeeds, .succeeds, .succeeds, .replaced, .succeeds]

-- The first leaves a failed operation that shows after a restart, the second a store that does not
-- open.
set_option maxRecDepth 10000 in
theorem put_not_atomic :
    Started .sample "store" sampleStore.key sample ∧
    (failures failsReplaced ≤ 1 ∧ ¬Atomic .sample "store" sampleStore.key sample
      (.op (.put .device "a" [1]) sampleNonce failsReplaced)) ∧
    (failures diesInRollback ≤ 1 ∧ ¬Atomic .sample "store" sampleStore.key sample
      (.op (.put .device "a" [1]) sampleNonce diesInRollback)) := by
  let program := (StoreOp.put .device "a" [1]).program .sample sampleStore sampleNonce
  refine ⟨sample_started, ⟨by decide, fun h => ?_⟩, ⟨by decide, fun h => ?_⟩⟩
  case refine_1 =>
    have hx : program.exec sample.disk failsReplaced =
        ((program.exec sample.disk failsReplaced).fst, some ((.error .io, sampleStore), [])) :=
      Prod.ext rfl (by decide)
    obtain ⟨before, hb, ha⟩ := h sampleStore rfl
    rw [hx] at ha
    exact absurd (ha.trans hb.symm) (by decide)
  case refine_2 =>
    have hx : program.exec sample.disk diesInRollback =
        ((program.exec sample.disk diesInRollback).fst, none) :=
      Prod.ext rfl (by decide)
    have hr : shown .sample "store" sampleStore.key (program.exec sample.disk diesInRollback).fst =
        .error .rollbackDetected := by decide
    obtain ⟨before, hb, ha⟩ := h sampleStore rfl
    rw [hx] at ha
    simp [hr] at ha

-- A put that succeeds, a put whose marker cannot be written, a crash, and a restart.
def sampleEvents : List Event := [
  .op (.put .device "a" [1]) sampleNonce (List.replicate 4 .succeeds),
  .op (.put .device "b" [2]) sampleNonce
    [.succeeds, .succeeds, .succeeds, .untouched, .succeeds, .succeeds],
  .op (.delete .device "a") sampleNonce [.succeeds, .succeeds, .succeeds],
  .reopen
]

theorem sampleEvents_atomic :
    Run.Meets (step .sample "store" sampleStore.key) (fun _ e => AtMostOneFailure e) sample
      sampleEvents ∧
    Run.Meets (step .sample "store" sampleStore.key) Safe sample sampleEvents ∧
    Run.Meets (step .sample "store" sampleStore.key) (Atomic .sample "store" sampleStore.key)
      sample sampleEvents := by
  have one : Run.Meets (step .sample "store" sampleStore.key) (fun _ e => AtMostOneFailure e)
    sample sampleEvents := by simp [sampleEvents, Run.Meets, AtMostOneFailure, failures]
  have safe : Run.Meets (step .sample "store" sampleStore.key) Safe sample sampleEvents := by
    simp [sampleEvents, Run.Meets, Safe, SafeFates, StoreOp.KeepsRecords]
  exact ⟨one, safe, (atomic_of_safe sampleEvents sample_started one safe).left⟩

end Session
