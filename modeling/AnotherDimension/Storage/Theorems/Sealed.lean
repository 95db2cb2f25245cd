import AnotherDimension.Library.CrashLogic
import AnotherDimension.Storage.Theorems.Atomic
import AnotherDimension.Storage.Theorems.Frame
import AnotherDimension.Storage.Theorems.Reopen

-- Whatever happens to a store, its file can be opened with the credential it was started with.

open FileProgram Storage EncryptedStore

namespace EncryptedStore

variable {aead : Aead} {store : EncryptedStore} {disk : Disk} {fates : List Fate} {bytes : Bytes}
  {revision : UInt64} {path : FilePath} {keyFor : Salt → Except StorageError DatabaseKey}

-- At every point of a commit the store file is the old or the new one.
theorem replaceFiles_exec_path {old : Bytes} (ho : disk store.path = some old) :
    ((store.replaceFiles revision bytes).exec disk fates).fst store.path = some old ∨
      ((store.replaceFiles revision bytes).exec disk fates).fst store.path = some bytes := by
  have hne : store.path ≠ store.markerPath := (markerPath_ne _).symm
  let inv (disk : Disk) := disk store.path = some old ∨ disk store.path = some bytes
  have hold (disk : Disk) (_ : inv disk) : inv (Function.update disk store.path (some old)) :=
    .inl <| Function.update_self _ _ _
  have hnew (disk : Disk) (_ : inv disk) : inv (Function.update disk store.path (some bytes)) :=
    .inr <| Function.update_self _ _ _
  have hmarker (contents : Option Bytes) (disk : Disk) (h : inv disk) :
      inv (Function.update disk store.markerPath contents) := by
    simpa only [inv, Function.update_of_ne hne] using h
  have hrestore (previous : Option Bytes) : (store.restoreMarker previous).Preserves inv := by
    cases previous
    case none       =>
      refine ⟨hmarker none, fun answer => ?_⟩
      rcases answer with e | _
      case error => cases e <;> trivial
      case ok    => trivial
    case some bytes =>
      simp only [restoreMarker, atomicWrite_bind]
      exact ⟨hmarker _, fun answer => by cases answer <;> trivial⟩
  have hroll (previous : Option Bytes) (e : StorageError) :
      (store.rollBack old previous e).Preserves inv := by
    simp only [rollBack, atomicWrite_bind]
    exact ⟨hold, fun answer => by
      cases answer <;> exact (hrestore previous).bind fun _ => by split <;> trivial⟩
  have hwrite : (store.writeFiles revision bytes old (disk store.markerPath)).Preserves inv := by
    simp only [writeFiles, writeMarker, atomicWrite_bind]
    refine ⟨hnew, fun answer => ?_⟩
    cases answer
    case error => trivial
    case ok    =>
      refine ⟨hmarker _, fun answer => ?_⟩
      cases answer
      case error => exact hroll _ _
      case ok    => trivial
  obtain _ | ⟨_ | _ | _, fates⟩ := fates
  case nil            => exact .inl ho
  case cons.untouched => exact .inl ho
  case cons.replaced  => exact .inl ho
  case cons.succeeds  =>
    obtain _ | ⟨_ | _ | _, fates⟩ := fates
    case cons.succeeds =>
      rw [replaceFiles_exec_reads ho]
      exact hwrite.exec (.inl ho)
    all_goals simp [replaceFiles, exec, FileOp.effect, FileOp.answer, ho]

theorem admitRevision_yields : store.admitRevision.Yields fun result =>
    ∀ store', result = .ok store' → store' = store := by
  refine yields_andThen (by rintro _ _ ⟨⟩) fun _ => yields_andThen (by rintro _ _ ⟨⟩) fun _ => ?_
  split
  case isTrue  => rintro _ ⟨⟩
  case isFalse =>
    refine yields_andThen (by rintro _ _ ⟨⟩) fun _ => ?_
    split
    case isTrue  => exact yields_andThen (by rintro _ _ ⟨⟩) fun _ => by rintro _ ⟨⟩; rfl
    case isFalse => rintro _ ⟨⟩; rfl

-- What an opening can return, whatever the files answer.
theorem openWith_yields : (openWith aead path keyFor).Yields fun result =>
    ∀ store, result = .ok store →
      store.path = path ∧ keyFor store.salt = .ok store.key ∧ store.locked = false := by
  refine yields_andThen (by rintro _ _ ⟨⟩) fun _ answer => ?_
  match answer with
  | .error _  => rintro _ ⟨⟩
  | .ok bytes =>
    dsimp only [FileProgram.bind]
    split
    case h_1          => rintro _ ⟨⟩
    case h_2 parsed _ =>
      split
      case h_1        => rintro _ ⟨⟩
      case h_2 key hk =>
        unfold openWithKey
        dsimp only
        split
        case h_1 => rintro _ ⟨⟩
        case h_2 =>
          split
          case h_1 => rintro _ ⟨⟩
          case h_2 =>
            refine admitRevision_yields.mono fun result hr store hs => ?_
            cases hr store hs
            exact ⟨rfl, hk, rfl⟩

end EncryptedStore

theorem Credential.Fits.of_eq {kdf : String → Salt → Option DatabaseKey} {credential : Credential}
    {store store' : EncryptedStore} (h : credential.Fits kdf store) (hk : store'.key = store.key)
    (hs : store'.salt = store.salt) : credential.Fits kdf store' := by
  cases credential <;> simpa [Fits, hk, hs] using h

namespace Session

variable {aead : Aead} {kdf : String → Salt → Option DatabaseKey} {path : FilePath}
  {credential : Credential} {s : Session}

-- An operation or a restart, with the fates of its file steps; the process dies where they end.
inductive Episode
  | op (op : StoreOp) (nonce : Option Nonce) (fates : List Fate)
  | reopen (fates : List Fate)

def live (aead : Aead) (kdf : String → Salt → Option DatabaseKey) (path : FilePath)
    (credential : Credential) (s : Session) : Episode → Session
  | .reopen fates      =>
    let (disk, result) := (credential.opening aead kdf path).exec s.disk fates
    { disk, store := result.bind fun r => r.fst.toOption }
  | .op op nonce fates =>
    match s.store with
    | none       => s
    | some store =>
      let (disk, result) := (op.program aead store nonce).exec s.disk fates
      { disk, store := result.map fun r => r.fst.snd }

-- The store file is sealed for the credential, and so is everything the running store will write.
structure IsSealed (aead : Aead) (kdf : String → Salt → Option DatabaseKey) (path : FilePath)
    (credential : Credential) (s : Session) : Prop where
  file    : ∃ bytes store, s.disk path = some bytes ∧ store.IsSealed aead bytes ∧
    credential.Fits kdf store
  running : ∀ store, s.store = some store →
    store.path = path ∧ credential.Fits kdf store ∧ store.locked = false

variable {e : Episode}

theorem IsSealed.start {store : EncryptedStore} (hs : s.store = some store)
    (h : credential.Starts aead kdf path s.disk store) :
    s.IsSealed aead kdf path credential := by
  obtain ⟨ho, rfl, hf⟩ := h.onFiles
  have ⟨bytes, hb, hsealed⟩ := ho.sealed
  refine ⟨⟨bytes, store, hb, hsealed, hf⟩, fun store' h' => ?_⟩
  cases hs.symm.trans h'
  exact ⟨rfl, hf, ho.unlocked⟩

theorem opening_avoids : (credential.opening aead kdf path).Avoids path := by
  have hne := (markerPath_ne path).symm
  cases credential
  case passphrase  => exact openStore_avoids aead kdf hne
  case databaseKey =>
    rw [Credential.opening, openWithDatabaseKey]
    exact openWith_avoids hne

theorem opening_yields : (credential.opening aead kdf path).Yields fun result =>
    ∀ store, result = .ok store →
      store.path = path ∧ credential.Fits kdf store ∧ store.locked = false := by
  cases credential
  case passphrase text =>
    simp only [Credential.opening, openStore]
    split
    case h_1    => rintro _ ⟨⟩
    case h_2 hv =>
      refine openWith_yields.mono fun result h store hs => ?_
      obtain ⟨hp, hk, hl⟩ := h store hs
      exact ⟨hp, ⟨hv, hk⟩, hl⟩
  case databaseKey key =>
    rw [Credential.opening, openWithDatabaseKey]
    refine openWith_yields.mono fun result h store hs => ?_
    obtain ⟨hp, hk, hl⟩ := h store hs
    exact ⟨hp, Except.ok.inj hk, hl⟩

theorem IsSealed.reopen {fates : List Fate} (h : s.IsSealed aead kdf path credential) :
    (s.live aead kdf path credential (.reopen fates)).IsSealed aead kdf path credential := by
  have hd : ((credential.opening aead kdf path).exec s.disk fates).fst path = s.disk path :=
    opening_avoids.exec_eq
  obtain ⟨bytes, store, hb, hs, hf⟩ := h.file
  refine ⟨⟨bytes, store, hd.trans hb, hs, hf⟩, fun store hs => ?_⟩
  simp only [live, Option.bind_eq_some_iff] at hs
  obtain ⟨⟨result, rest⟩, hx, hr⟩ := hs
  cases result
  case error => cases hr
  case ok    => exact opening_yields.exec (Prod.ext rfl hx) _ <| congrArg _ <| Option.some.inj hr

theorem IsSealed.op {op : StoreOp} {nonce : Option Nonce} {fates : List Fate}
    (h : s.IsSealed aead kdf path credential) :
    (s.live aead kdf path credential (.op op nonce fates)).IsSealed aead kdf path credential := by
  obtain ⟨old, sealedStore, ho, hsealed, hfits⟩ := h.file
  cases hs : s.store
  case none       => simpa only [live, hs] using h
  case some store =>
    obtain ⟨rfl, hf, hl⟩ := h.running store hs
    simp only [live, hs]
    obtain ⟨result, -, hx⟩ | ⟨revision, bytes, hp, hx⟩ := StoreOp.attempts aead nonce hl op
    case inl =>
      rw [hx]
      refine ⟨h.file, fun store' h' => ?_⟩
      cases h'
      exact ⟨rfl, hf.of_eq rfl rfl, hl⟩
    case inr =>
      have hnew := prepareCommit_isSealed hp
      have hpath : let d := ((store.replaceFiles revision bytes).exec s.disk fates).fst
          ∃ bytes store', d store.path = some bytes ∧ store'.IsSealed aead bytes ∧
            credential.Fits kdf store' := by
        obtain hd | hd := replaceFiles_exec_path ho
        case inl => exact ⟨_, _, hd, hsealed, hfits⟩
        case inr => exact ⟨_, _, hd, hnew, hf.of_eq rfl rfl⟩
      rw [hx, exec_bind]
      rcases hc : (store.replaceFiles revision bytes).exec s.disk fates with
        ⟨disk, _ | ⟨_ | _, _⟩⟩
      · rw [hc] at hpath
        exact ⟨hpath, by rintro _ ⟨⟩⟩
      · rw [hc] at hpath
        exact ⟨hpath, by rintro _ ⟨⟩; exact ⟨rfl, hf, hl⟩⟩
      · rw [hc] at hpath
        exact ⟨hpath, by rintro _ ⟨⟩; exact ⟨rfl, hf.of_eq rfl rfl, hl⟩⟩

theorem IsSealed.live (h : s.IsSealed aead kdf path credential) :
    (s.live aead kdf path credential e).IsSealed aead kdf path credential :=
  match e with
  | .op _ _ _ => h.op
  | .reopen _ => h.reopen

end Session
