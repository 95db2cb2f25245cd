import AnotherDimension.Cli.Theorems.Directory
import AnotherDimension.Cli.Theorems.Steps
import AnotherDimension.Identity.Theorems.Registry
import AnotherDimension.Library.Reader
import AnotherDimension.Library.Run
import AnotherDimension.Storage.Theorems.Artifact
import AnotherDimension.Storage.Theorems.Frame
import AnotherDimension.Storage.Theorems.Open
import AnotherDimension.Storage.Theorems.Reopen

-- What a staged recovery leaves of the live files, whatever happens while it is applied.

open FileProgram Storage

namespace Storage

theorem recoveryPendingPath_storePath (dataDir : FilePath) :
    recoveryPendingPath (Cli.storePath dataDir) = dataDir ++ "/store.recovery.pending" := by
  have hr : (Cli.storePath dataDir).toList.reverse =
      "erotsda".toList ++ '.' :: 'e' :: ("rots/".toList ++ dataDir.toList.reverse) := by
    simp [Cli.storePath]
  simp [recoveryPendingPath, withExtension, hr, String.ext_iff]

end Storage

namespace Cli.Recovery

variable {r : Recovery} {d d₀ : Disk}

theorem pending_eq : r.pending = r.dataDir ++ "/store.recovery.pending" :=
  recoveryPendingPath_storePath r.dataDir

theorem paths_nodup :
    [r.pending, r.checkPath, r.checkRevision, r.liveStore, r.liveRevision, r.oldStore,
      r.oldRevision].Nodup := by
  simp [pending_eq, checkPath, checkRevision, liveStore, storePath,
    liveRevision, revisionPath, oldStore, oldRevision, String.append_assoc, String.ext_iff]

theorem oldStore_avoids {pid : String} (h : pid ≠ r.pid) :
    { r with pid }.oldStore ∉ [r.pending, r.checkPath, r.checkRevision, r.liveStore,
      r.liveRevision, r.oldStore, r.oldRevision] := by
  simp [pending_eq, checkPath, checkRevision, liveStore, storePath,
    liveRevision, revisionPath, oldStore, oldRevision, String.append_assoc, String.ext_iff]
  exact fun he => h <| String.ext he

-- The files of a recovery: the live pair and the pair it moves aside.
inductive Slot
  | liveStore
  | liveRevision
  | oldStore
  | oldRevision
  deriving DecidableEq

def path (r : Recovery) : Slot → FilePath
  | .liveStore    => r.liveStore
  | .liveRevision => r.liveRevision
  | .oldStore     => r.oldStore
  | .oldRevision  => r.oldRevision

theorem path_injective (r : Recovery) : Function.Injective r.path := by
  have hp := r.paths_nodup
  have hq := List.nodup_reverse.mpr r.paths_nodup
  simp only [List.reverse_cons, List.reverse_nil, List.nil_append, List.cons_append,
    List.nodup_cons, List.mem_cons, List.not_mem_nil, not_or, or_false] at hp hq
  intro slot₁ slot₂ h
  cases slot₁ <;> cases slot₂ <;> simp_all [path]

theorem path_ne_pending (slot : Slot) : r.path slot ≠ r.pending := by
  have hq := List.nodup_reverse.mpr r.paths_nodup
  simp only [List.reverse_cons, List.reverse_nil, List.nil_append, List.cons_append,
    List.nodup_cons, List.mem_cons, List.not_mem_nil, not_or, or_false] at hq
  cases slot <;> simp [path, hq]

theorem oldStore_ne_path {pid : String} (h : pid ≠ r.pid) (slot : Slot) :
    { r with pid }.oldStore ≠ r.path slot := by
  have ho := r.oldStore_avoids h
  simp only [List.mem_cons, not_or] at ho
  cases slot <;> simp [path, ho]

-- What the disk holds in the slots. The staged artifact, and what other processes moved aside, are as
-- they were at the start.
structure At (r : Recovery) (d₀ : Disk) (files : Slot → Option Bytes) (d : Disk) : Prop where
  slots   : ∀ slot, d (r.path slot) = files slot
  pending : d r.pending = d₀ r.pending
  others  : ∀ pid ≠ r.pid, d { r with pid }.oldStore = d₀ { r with pid }.oldStore

theorem At.set {files : Slot → Option Bytes} (h : r.At d₀ files d) (slot : Slot)
    (contents : Option Bytes) :
    r.At d₀ (Function.update files slot contents) (Function.update d (r.path slot) contents) where
  slots slot'    := by
    by_cases hs : slot' = slot
    case pos => simp [hs]
    case neg => simp [hs, r.path_injective.eq_iff, h.slots slot']
  pending        := by rw [Function.update_of_ne (path_ne_pending slot).symm, h.pending]
  others pid hp := by rw [Function.update_of_ne (oldStore_ne_path hp slot), h.others pid hp]

def files (liveStore liveRevision oldStore oldRevision : Option Bytes) : Slot → Option Bytes
  | .liveStore    => liveStore
  | .liveRevision => liveRevision
  | .oldStore     => oldStore
  | .oldRevision  => oldRevision

section

variable (a b c e x : Option Bytes)

@[simp]
theorem update_liveStore : Function.update (files a b c e) .liveStore x = files x b c e := by
  funext slot; cases slot <;> rfl

@[simp]
theorem update_liveRevision : Function.update (files a b c e) .liveRevision x = files a x c e := by
  funext slot; cases slot <;> rfl

@[simp]
theorem update_oldStore : Function.update (files a b c e) .oldStore x = files a b x e := by
  funext slot; cases slot <;> rfl

@[simp]
theorem update_oldRevision : Function.update (files a b c e) .oldRevision x = files a b c x := by
  funext slot; cases slot <;> rfl

end

-- The process can die anywhere and any step can fail, with two exceptions: what could not be renamed or
-- removed is still there, and the check whether there is a live store does not fail.
def environment (r : Recovery) : Environment
  | _, none                  => True
  | .read path, some fate    => path = r.liveStore → fate = .succeeds
  | .write _ _, some _       => True
  | .remove _, some fate     => fate ≠ .replaced
  | .rename _ _, some fate   => fate ≠ .replaced

theorem environment_plain (r : Recovery) : Plain r.environment :=
  ⟨fun _ _ h => h rfl, fun _ h => h rfl⟩

def Installed (r : Recovery) (store revision : Bytes) (d : Disk) : Prop :=
  d r.liveStore = some store ∧ d r.liveRevision = some revision

-- Where the process can die: the live store of the start is in its place or was moved aside, unless the
-- candidate is installed.
structure Midway (r : Recovery) (d₀ : Disk) (store revision : Bytes) (d : Disk) : Prop where
  kept    : d r.liveStore = d₀ r.liveStore ∨ d r.oldStore = d₀ r.liveStore ∨
    r.Installed store revision d
  pending : d r.pending = d₀ r.pending
  others  : ∀ pid ≠ r.pid, d { r with pid }.oldStore = d₀ { r with pid }.oldStore

-- How it returns: with the live pair of the start or with the candidate's.
structure Returned (r : Recovery) (d₀ : Disk) (store revision : Bytes) (d : Disk) : Prop where
  pair    : (d r.liveStore = d₀ r.liveStore ∧ d r.liveRevision = d₀ r.liveRevision) ∨
    r.Installed store revision d
  pending : d r.pending = d₀ r.pending ∨ d r.pending = none ∧ r.Installed store revision d
  others  : ∀ pid ≠ r.pid, d { r with pid }.oldStore = d₀ { r with pid }.oldStore

section

variable {store revision : Bytes} {s m x y n : Option Bytes} {budget : Nat}

theorem At.midway (h : r.At d₀ (files x y s n) d)
    (hk : x = d₀ r.liveStore ∨ s = d₀ r.liveStore ∨ x = some store ∧ y = some revision) :
    r.Midway d₀ store revision d := by
  have hs := h.slots .liveStore
  have hr := h.slots .liveRevision
  have ho := h.slots .oldStore
  simp only [path, files] at hs hr ho
  exact ⟨by simpa only [Installed, hs, hr, ho] using hk, h.pending, h.others⟩

theorem At.returned (h : r.At d₀ (files x y s n) d)
    (hk : x = d₀ r.liveStore ∧ y = d₀ r.liveRevision ∨ x = some store ∧ y = some revision) :
    r.Returned d₀ store revision d := by
  have hs := h.slots .liveStore
  have hr := h.slots .liveRevision
  simp only [path, files] at hs hr
  exact ⟨by simpa only [Installed, hs, hr] using hk, .inl h.pending, h.others⟩

-- Moving a file from one slot to another.
theorem At.move {fs : Slot → Option Bytes} (h : r.At d₀ fs d) (source target : Slot)
    {contents : Bytes} (hc : d (r.path source) = some contents) :
    r.At d₀ (Function.update (Function.update fs source none) target (fs source))
      (Function.update (Function.update d (r.path source) none) (r.path target) (some contents)) := by
  rw [← h.slots source, hc]
  exact (h.set source none).set target (some contents)

theorem renameWhen_slot_safe {fs : Slot → Option Bytes} {crash : Disk → Prop}
    {post : Except CliError Unit → Disk → Nat → Prop} (source target : Slot) (h : r.At d₀ fs d)
    (hn : fs target = none) (hc : crash d)
    (hs : ∀ d', r.At d₀ (Function.update (Function.update fs source none) target (fs source)) d' →
      post (.ok ()) d' budget)
    (hf : ∀ left, budget = left + 1 → post (.error .io) d left) :
    (renameWhen (fs source).isSome (r.path source) (r.path target)).Safe r.environment crash post
      d budget := by
  have hsource := h.slots source
  refine renameWhen_safe r.environment_plain hc (fun contents _ hd => ?_) (fun hc hd => ?_)
    (fun left _ => hf left) fun hskip => ?_
  case refine_1 => exact hs _ <| h.move source target hd
  case refine_2 => simp [← hsource, hd] at hc
  case refine_3 =>
    have hnone : fs source = none := by simpa using hskip
    have hcleared : Function.update fs source none = fs :=
      Function.update_eq_self_iff.mpr hnone.symm
    have hsame : Function.update fs target (fs source) = fs :=
      Function.update_eq_self_iff.mpr <| hnone.trans hn.symm
    exact hs _ <| by rwa [hcleared, hsame]

theorem moveBack_safe {fs : Slot → Option Bytes} {crash : Disk → Prop}
    {post : Unit → Disk → Nat → Prop} (source target : Slot) (h : r.At d₀ fs d)
    (hn : fs target = none) (hc : crash d)
    (hp : ∀ d', r.At d₀ (Function.update (Function.update fs source none) target (fs source)) d' →
      post () d' 0) :
    (moveBack (fs source).isSome (r.path source) (r.path target)).Safe r.environment crash post
      d 0 := by
  have hthere : ((fs source).isSome && (d (r.path source)).isSome) = (fs source).isSome := by
    rw [h.slots source, Bool.and_self]
  refine Safe.bind <| isFileWhen_safe hc ?_ (by simp)
  rw [hthere]
  exact Safe.bind <| renameWhen_slot_safe source target h hn hc hp (by simp)

-- Without a further failure the way back ends with the pair of the start.
theorem undo_safe (hs : d₀ r.liveStore = s) (hm : d₀ r.liveRevision = m)
    (h : r.At d₀ (files x y s m) d) :
    (r.undo s.isSome m.isSome).Safe r.environment (r.Midway d₀ store revision)
      (fun _ d _ => r.Returned d₀ store revision d) d 0 := by
  have plain := r.environment_plain
  have h₁ := h.set .liveStore none
  have h₂ := h₁.set .liveRevision none
  rw [update_liveStore] at h₁ h₂
  rw [update_liveRevision] at h₂
  refine Safe.bind <| removeFile_safe plain (h.midway <| .inr <| .inl hs.symm) ?_ (by simp)
  refine Safe.bind <| removeFile_safe plain (h₁.midway <| .inr <| .inl hs.symm) ?_ (by simp)
  refine Safe.bind <| moveBack_safe .oldStore .liveStore h₂ rfl (h₂.midway <| .inr <| .inl hs.symm) ?_
  intro d' h₃
  rw [update_oldStore, update_liveStore] at h₃
  refine moveBack_safe .oldRevision .liveRevision h₃ rfl (h₃.midway <| .inl hs.symm) ?_
  intro d' h₄
  rw [update_oldRevision, update_liveRevision] at h₄
  exact h₄.returned <| .inl ⟨hs.symm, hm.symm⟩

-- Once the candidate is installed, only what is left over is removed.
theorem finish_safe (hp : (d₀ r.pending).isSome)
    (h : r.At d₀ (files (some store) (some revision) x y) d) :
    (deleteFile r.pending).Safe r.environment (r.Midway d₀ store revision)
      (fun _ d _ => r.Returned d₀ store revision d) d budget := by
  have hreturned : r.Returned d₀ store revision d := h.returned <| .inr ⟨rfl, rfl⟩
  refine deleteFile_safe r.environment_plain (h.midway <| .inr <| .inr ⟨rfl, rfl⟩) (fun _ => ?_)
    (fun hn => ?_) fun _ _ => hreturned
  case refine_1 =>
    have hinstalled : r.Installed store revision (Function.update d r.pending none) := by
      have hstore : d r.liveStore = some store := h.slots .liveStore
      have hrevision : d r.liveRevision = some revision := h.slots .liveRevision
      exact ⟨(Function.update_of_ne (path_ne_pending .liveStore) _ _).trans hstore,
        (Function.update_of_ne (path_ne_pending .liveRevision) _ _).trans hrevision⟩
    refine ⟨.inr hinstalled, .inr ⟨Function.update_self _ _ _, hinstalled⟩, fun pid hpid => ?_⟩
    have ho := r.oldStore_avoids hpid
    simp only [List.mem_cons, not_or] at ho
    rw [Function.update_of_ne ho.left, h.others pid hpid]
  case refine_2 => simp [← h.pending, hn] at hp

-- The candidate is installed in full, or everything is put back.
theorem install_safe {movedRevision : Bool} (hs : d₀ r.liveStore = s) (hm : d₀ r.liveRevision = m)
    (hp : (d₀ r.pending).isSome) (h : r.At d₀ (files none y s n) d)
    (hb : budget = 0 ∨ budget = 1 ∧ n = m ∧ movedRevision = m.isSome) :
    (r.install store revision s.isSome movedRevision).Safe r.environment
      (r.Midway d₀ store revision) (fun _ d _ => r.Returned d₀ store revision d) d budget := by
  have plain := r.environment_plain
  have hkept {x y n : Option Bytes} {d : Disk} (h : r.At d₀ (files x y s n) d) :
      r.Midway d₀ store revision d := h.midway <| .inr <| .inl hs.symm
  -- The only failure that is allowed has just happened.
  have back {x y : Option Bytes} {left : Nat} {d : Disk} {e : CliError} (hl : budget = left + 1)
      (h : r.At d₀ (files x y s n) d) :
      (do r.undo s.isSome movedRevision; return .error e : FileProgram _).Safe r.environment
        (r.Midway d₀ store revision) (fun (_ : Except CliError Unit) d _ =>
          r.Returned d₀ store revision d) d left := by
    obtain rfl | ⟨rfl, rfl, rfl⟩ := hb
    case inl => cases hl
    case inr =>
      cases hl
      exact Safe.bind <| undo_safe hs hm h
  have h₁ := h.set .liveStore (some store)
  rw [update_liveStore] at h₁
  have h₂ := h₁.set .liveRevision (some revision)
  rw [update_liveRevision] at h₂
  refine Safe.bind <| Safe.andThen <| atomicWrite_safe (hkept h) ?_
    fun left hl => ⟨back hl h, back hl h₁⟩
  refine atomicWrite_safe (hkept h₁) ?_ fun left hl => ⟨back hl h₁, back hl h₂⟩
  have hdone {x y : Option Bytes} {d : Disk}
      (h : r.At d₀ (files (some store) (some revision) x y) d) :
      r.Midway d₀ store revision d := h.midway <| .inr <| .inr ⟨rfl, rfl⟩
  have last {x : Option Bytes} {d : Disk} {left : Nat}
      (h : r.At d₀ (files (some store) (some revision) x n) d) :
      (do removeFile r.oldRevision; deleteFile r.pending : FileProgram _).Safe r.environment
        (r.Midway d₀ store revision) (fun _ d _ => r.Returned d₀ store revision d) d left := by
    have h' := h.set .oldRevision none
    rw [update_oldRevision] at h'
    exact Safe.bind <| removeFile_safe plain (hdone h) (finish_safe hp h') fun _ _ => finish_safe hp h
  have h₃ := h₂.set .oldStore none
  rw [update_oldStore] at h₃
  exact Safe.bind <| removeFile_safe plain (hdone h₂) (last h₃) fun _ _ => last h₂

-- The live files are moved aside and replaced, or stay where they are.
theorem replace_safe (store revision : Bytes) (hs : d₀ r.liveStore = s) (hm : d₀ r.liveRevision = m)
    (hp : (d₀ r.pending).isSome) (h : r.At d₀ (files s m none none) d) (hb : budget ≤ 1) :
    (r.replace store revision).Safe r.environment (r.Midway d₀ store revision)
      (fun _ d _ => r.Returned d₀ store revision d) d budget := by
  have plain := r.environment_plain
  have hlive : d r.liveStore = s := h.slots .liveStore
  refine Safe.bind <| isFile_safe (h.midway <| .inl hs.symm) ?_ fun left _ he => ?_
  case refine_2 => exact he.elim (fun he => by cases he rfl) fun he => by cases he rfl
  case refine_1 =>
    rw [hlive]
    refine Safe.andThen <| renameWhen_slot_safe .liveStore .oldStore h rfl
      (h.midway <| .inl hs.symm) (fun d₁ h₁ => ?_) fun left _ => h.returned <| .inl ⟨hs.symm, hm.symm⟩
    rw [update_liveStore, update_oldStore] at h₁
    have hkept : r.Midway d₀ store revision d₁ := h₁.midway <| .inr <| .inl hs.symm
    have hlive : d₁ r.liveRevision = m := h₁.slots .liveRevision
    refine Safe.bind <| isFile_safe hkept ?_ fun left hl _ => ?_
    case refine_1 =>
      rw [hlive]
      refine Safe.bind <| renameWhen_slot_safe .liveRevision .oldRevision h₁ rfl hkept
        (fun d₂ h₂ => ?_) fun left hl => ?_
      case refine_1 =>
        rw [update_liveRevision, update_oldRevision] at h₂
        exact install_safe hs hm hp h₂ <|
          (Nat.le_one_iff_eq_zero_or_eq_one.mp hb).imp_right fun h => ⟨h, rfl, rfl⟩
      case refine_2 =>
        obtain rfl : left = 0 := by omega
        refine Safe.bind <| renameWhen_slot_safe .oldStore .liveStore h₁ rfl hkept
          (fun d₂ h₂ => ?_) (by simp)
        rw [update_oldStore, update_liveStore] at h₂
        exact h₂.returned <| .inl ⟨hs.symm, hm.symm⟩
    case refine_2 =>
      exact install_safe hs hm hp h₁ (.inl (by omega))

variable {services : Services}

-- Validating the candidate changes its own two files only.
theorem validate_avoids {path : FilePath} (h : ¬(path = r.checkPath ∨ path = r.checkRevision)) :
    (r.validate services store revision).Avoids path := by
  have ⟨hc, hr⟩ := not_or.mp h
  have removes {target : FilePath} (ht : path ≠ target) : (removeFile target).Avoids path :=
    ⟨ht, fun _ => trivial⟩
  have writes {target : FilePath} {contents : Bytes} (ht : path ≠ target) :
      (atomicWrite target contents).Avoids path :=
    ⟨ht, fun answer => by cases answer <;> trivial⟩
  have deletes {target : FilePath} (ht : path ≠ target) : (deleteFile target).Avoids path :=
    ⟨ht, fun answer => by cases answer <;> trivial⟩
  refine (writes hc).andThen fun _ => (writes hr).andThen fun _ => ?_
  refine (EncryptedStore.openStore_avoids services.aead services.kdf hr).bind fun result => ?_
  cases result
  case error => exact (removes hc).bind fun _ => (removes hr).bind fun _ => trivial
  case ok    => exact (deletes hc).andThen fun _ => (deletes hr).andThen fun _ => trivial

theorem at_of_own (h : ∀ path, ¬(path = r.checkPath ∨ path = r.checkRevision) → d path = d₀ path) :
    r.At d₀ (files (d₀ r.liveStore) (d₀ r.liveRevision) (d₀ r.oldStore) (d₀ r.oldRevision)) d := by
  have hp := r.paths_nodup
  have hq := List.nodup_reverse.mpr r.paths_nodup
  simp only [List.reverse_cons, List.reverse_nil, List.nil_append, List.cons_append,
    List.nodup_cons, List.mem_cons, List.not_mem_nil, not_or, or_false] at hp hq
  refine ⟨fun slot => ?_, h _ (by simp [hp]), fun pid hpid => h _ ?_⟩
  case refine_1 => cases slot <;> exact h _ (by simp [path, hq])
  case refine_2 =>
    have ho := r.oldStore_avoids hpid
    simp only [List.mem_cons, not_or] at ho
    simp [ho]

-- Whatever happens, the live pair stays, or the candidate takes its place.
theorem applyPendingRecovery_safe {artifact : Bytes} (hartifact : d₀ r.pending = some artifact)
    (hparse : parseRecoveryArtifact services.artifacts artifact = .ok (store, revision))
    (hfree : d₀ r.oldStore = none ∧ d₀ r.oldRevision = none) (hb : budget ≤ 1) :
    (applyPendingRecovery services r).Safe r.environment (r.Midway d₀ store revision)
      (fun _ d _ => r.Returned d₀ store revision d) d₀ budget := by
  have hstart : r.At d₀ _ d₀ := at_of_own fun _ _ => rfl
  have hmidway : r.Midway d₀ store revision d₀ := hstart.midway <| .inl rfl
  have hreturned : r.Returned d₀ store revision d₀ := hstart.returned <| .inl ⟨rfl, rfl⟩
  refine Safe.bind <| isFile_safe hmidway ?_ fun _ _ _ => hreturned
  rw [hartifact]
  refine Safe.andThen <| readFile_safe hmidway (fun bytes hbytes => ?_) (by simp [hartifact])
    fun _ _ => hreturned
  cases hartifact.symm.trans hbytes
  dsimp only
  rw [hparse]
  refine Safe.andThen <| (preserves_of_avoids fun _ => validate_avoids).safe
    (fun _ _ => rfl) (fun d hd => (at_of_own hd).midway <| .inl rfl) fun result d left hd hl => ?_
  have hat := at_of_own hd
  match result with
  | .error e => exact hat.returned <| .inl ⟨rfl, rfl⟩
  | .ok ()   =>
    rw [hfree.left, hfree.right] at hat
    have hmidway : r.Midway d₀ store revision d := hat.midway <| .inl rfl
    have replaced {left : Nat} (hl : left ≤ 1) :=
      replace_safe store revision rfl rfl (by simp [hartifact]) hat hl
    have hold : d r.oldStore = none := hat.slots .oldStore
    have holdRevision : d r.oldRevision = none := hat.slots .oldRevision
    have next {left : Nat} (hl : left ≤ 1) :
        (do
          if ← isFile r.oldRevision then
            return .error .invalidRecovery
          else
            r.replace store revision : FileProgram _).Safe r.environment
          (r.Midway d₀ store revision) (fun _ d _ => r.Returned d₀ store revision d) d left :=
      Safe.bind <| isFile_safe hmidway (by rw [holdRevision]; exact replaced hl)
        fun left' hl' _ => replaced (by omega)
    exact Safe.bind <| isFile_safe hmidway (by rw [hold]; exact next (by omega))
      fun left' hl' _ => next (by omega)

-- The store that the candidate's file opens to.
def candidate (services : Services) (r : Recovery) (store : Bytes) :
    Except StorageError EncryptedStore :=
  match validatePassphrase r.passphrase with
  | .error e => .error e
  | .ok ()   =>
    match parseFile store with
    | .error e   => .error e
    | .ok parsed =>
      match EncryptedStore.deriveKey services.kdf r.passphrase parsed.salt with
      | .error e => .error e
      | .ok key  =>
        let aad := associatedData parsed.salt parsed.revision
        match services.aead.decrypt key parsed.nonce aad parsed.ciphertext with
        | none           => .error .authenticationFailed
        | some plaintext =>
          (decodeRecords plaintext).map fun records =>
            { path := r.checkPath, key, salt := parsed.salt, revision := parsed.revision, records,
              locked := false }

-- The candidate opens with the passphrase of the start, and its device is authorized at its time.
def Accepts (services : Services) (r : Recovery) (store : Bytes) : Prop :=
  ∃ opened, r.candidate services store = .ok opened ∧
    validateCandidate services opened r.now = .ok ()

theorem decode_eq_ok {bytes : Bytes} {wire : RegistryWire} {registry : DeviceRegistry}
    (hread : services.readRegistry bytes = some wire)
    (hwire : DeviceRegistry.ofWire services.ed25519 wire = .ok registry) :
    DeviceRegistry.decode services.ed25519 services.readRegistry bytes = .ok registry := by
  rw [DeviceRegistry.decode, hread, Option.elim_some, hwire]

theorem validateCandidate_eq_ok {opened : EncryptedStore} {summary : IdentitySummary} {bytes : Bytes}
    {registry : DeviceRegistry} {now : UInt64}
    (hidentity : (opened.get .accountRoot "identity").bind (IdentitySummary.decode services.ed25519) =
      some summary)
    (hregistry : opened.get .device "registry" = some bytes)
    (hdecode : DeviceRegistry.decode services.ed25519 services.readRegistry bytes = .ok registry)
    (hauthorize : registry.authorize services.ed25519 summary.deviceId now = .ok ()) :
    validateCandidate services opened now = .ok () := by
  have ⟨record, hrecord, hsummary⟩ := Option.bind_eq_some_iff.mp hidentity
  rw [validateCandidate, hrecord]
  simp [hsummary, decodeRegistry, hregistry, hdecode, hauthorize, Except.mapError, Bind.bind,
    Except.bind]

theorem candidate_of_isSealed {sealedStore : EncryptedStore}
    (hs : sealedStore.IsSealed services.aead store)
    (hf : (Credential.passphrase r.passphrase).Fits services.kdf sealedStore) :
    r.candidate services store = .ok { sealedStore with path := r.checkPath, locked := false } := by
  have ⟨nonce, ciphertext, plaintext, hp, hd, hr⟩ := hs
  simp only [candidate, hf.left, hp, hf.right, hd, hr]
  rfl

theorem openStore_run (ha : RevisionsAgree store revision) (hs : d r.checkPath = some store)
    (hr : d r.checkRevision = some revision) :
    (EncryptedStore.openStore services.aead services.kdf r.checkPath r.passphrase).run d =
      (d, r.candidate services store) := by
  have ⟨parsed, hp, hm⟩ := ha
  have ⟨text, ht, hv⟩ := Option.bind_eq_some_iff.mp hm
  have hmarker : parseMarker revision = .ok parsed.revision := by simp [parseMarker, ht, hv]
  have hlt : ¬parsed.revision < parsed.revision := UInt64.lt_irrefl _
  cases hpass : validatePassphrase r.passphrase
  case error e => simp only [EncryptedStore.openStore, candidate, hpass]; rfl
  case ok =>
    simp only [EncryptedStore.openStore, candidate, hpass, EncryptedStore.openWith, run_andThen,
      ensurePrivateFile_run, perform_bind, run, FileOp.answer, FileOp.effect, hs, Option.elim, hp]
    cases hkey : EncryptedStore.deriveKey services.kdf r.passphrase parsed.salt
    case error => rfl
    case ok key =>
      simp only [EncryptedStore.openWithKey]
      cases hplain : services.aead.decrypt key parsed.nonce
        (associatedData parsed.salt parsed.revision) parsed.ciphertext
      case none => rfl
      case some plaintext =>
        dsimp only
        cases hrecords : decodeRecords plaintext
        case error => rfl
        case ok records =>
          dsimp only
          rw [EncryptedStore.run_admitRevision]
          simp only [EncryptedStore.markerPath]
          rw [show d (Storage.markerPath r.checkPath) = some revision from hr]
          simp only [hmarker, hlt, ↓reduceIte]
          rfl

theorem replace_run {artifact : Bytes} (hp : d r.pending = some artifact) :
    ((r.replace store revision).run d).snd = .ok () ∧
      r.Installed store revision ((r.replace store revision).run d).fst ∧
      ((r.replace store revision).run d).fst r.pending = none := by
  have hn := r.paths_nodup
  have hq := List.nodup_reverse.mpr r.paths_nodup
  simp only [List.reverse_cons, List.reverse_nil, List.nil_append, List.cons_append,
    List.nodup_cons, List.mem_cons, List.not_mem_nil, not_or, or_false] at hn hq
  cases hs : d r.liveStore <;> cases hm : d r.liveRevision <;>
    simp [replace, install, renameWhen, rename, isFile, atomicWrite, removeFile, deleteFile, run,
      FileOp.answer, FileOp.effect, Installed, Except.isOk, Except.toBool, hs, hm, hp, hn, hq]

theorem validate_run (d : Disk) (ha : RevisionsAgree store revision) (hv : r.Accepts services store) :
    ((r.validate services store revision).run d).snd = .ok () ∧
      ∀ path, ¬(path = r.checkPath ∨ path = r.checkRevision) →
        ((r.validate services store revision).run d).fst path = d path := by
  refine ⟨?_, fun path hp => (validate_avoids hp).run_eq d⟩
  have ⟨opened, ho, hc⟩ := hv
  have hne : r.checkPath ≠ r.checkRevision := (markerPath_ne r.checkPath).symm
  let d' := Function.update (Function.update d r.checkPath (some store)) r.checkRevision
    (some revision)
  have hs : d' r.checkPath = some store := by simp [d', hne]
  have hr : d' r.checkRevision = some revision := by simp [d']
  have hopen : (EncryptedStore.openStore services.aead services.kdf r.checkPath r.passphrase).run d' =
      (d', r.candidate services store) := openStore_run ha hs hr
  rw [validate, run_andThen]
  simp only [atomicWrite, perform_bind, run, FileOp.answer, FileOp.effect, pure_eq_done, run_andThen]
  rw [run_bind, hopen, ho]
  simp [deleteFile, run, FileOp.answer, FileOp.effect, hs, hr, hne.symm, hc]

-- An accepted candidate takes over on a disk that differs in the files of the check only.
theorem applyPendingRecovery_accepts {artifact : Bytes} (hartifact : d₀ r.pending = some artifact)
    (hparse : parseRecoveryArtifact services.artifacts artifact = .ok (store, revision))
    (hv : r.Accepts services store) :
    ∃ d, r.At d₀ (files (d₀ r.liveStore) (d₀ r.liveRevision) (d₀ r.oldStore) (d₀ r.oldRevision)) d ∧
      (applyPendingRecovery services r).run d₀ = (r.takeOver store revision).run d ∧
      ∀ d' ∈ (r.takeOver store revision).trace d, d' ∈ (applyPendingRecovery services r).trace d₀ := by
  obtain ⟨_, _, ha⟩ := parseRecoveryArtifact_eq_ok_iff.mp hparse
  obtain ⟨hok, hown⟩ := validate_run d₀ ha hv
  have hpending : (isFile r.pending).run d₀ = (d₀, true) := by
    simp [isFile, run, FileOp.answer, FileOp.effect, hartifact, Except.isOk, Except.toBool]
  have hread : (readFile r.pending).run d₀ = (d₀, .ok artifact) := by
    simp [readFile, run, FileOp.answer, FileOp.effect, hartifact, Except.mapError]
  rcases hd : (r.validate services store revision).run d₀ with ⟨d, result⟩
  rw [hd] at hok hown
  cases hok
  refine ⟨d, at_of_own hown, ?_, fun d' h => ?_⟩
  case refine_1 =>
    rw [applyPendingRecovery, run_bind, hpending]
    simp only [not_true_eq_false, ↓reduceIte, run_andThen, hread, hparse, hd]
  case refine_2 =>
    rw [applyPendingRecovery]
    refine mem_trace_of_run ?_
    rw [hpending]
    simp only [not_true_eq_false, ↓reduceIte]
    refine mem_trace_of_run ?_
    rw [hread]
    simp only [hparse]
    refine mem_trace_of_run ?_
    rw [hd]
    exact h

theorem applyPendingRecovery_run {artifact : Bytes} (hartifact : d₀ r.pending = some artifact)
    (hparse : parseRecoveryArtifact services.artifacts artifact = .ok (store, revision))
    (hfree : d₀ r.oldStore = none ∧ d₀ r.oldRevision = none) (hv : r.Accepts services store) :
    ((applyPendingRecovery services r).run d₀).snd = .ok () ∧
      r.Installed store revision ((applyPendingRecovery services r).run d₀).fst ∧
      ((applyPendingRecovery services r).run d₀).fst r.pending = none := by
  have ⟨d, hat, hrun, _⟩ := applyPendingRecovery_accepts hartifact hparse hv
  have hold : d r.oldStore = none := (hat.slots .oldStore).trans hfree.left
  have holdRevision : d r.oldRevision = none := (hat.slots .oldRevision).trans hfree.right
  have htake : (r.takeOver store revision).run d = (r.replace store revision).run d := by
    simp [takeOver, isFile, run, FileOp.answer, FileOp.effect, Except.isOk, Except.toBool, hold,
      holdRevision]
  rw [hrun, htake]
  exact replace_run (hat.pending.trans hartifact)

-- The process can die when it has moved the live store aside.
theorem exists_moved {artifact s : Bytes} (hartifact : d₀ r.pending = some artifact)
    (hparse : parseRecoveryArtifact services.artifacts artifact = .ok (store, revision))
    (hfree : d₀ r.oldStore = none ∧ d₀ r.oldRevision = none) (hv : r.Accepts services store)
    (hs : d₀ r.liveStore = some s) :
    ∃ d ∈ (applyPendingRecovery services r).trace d₀, d r.liveStore = none ∧
      d r.oldStore = some s ∧ d r.pending = some artifact := by
  have ⟨d, hat, _, htrace⟩ := applyPendingRecovery_accepts hartifact hparse hv
  have hlive : d r.liveStore = some s := (hat.slots .liveStore).trans hs
  have hold : d r.oldStore = none := (hat.slots .oldStore).trans hfree.left
  have holdRevision : d r.oldRevision = none := (hat.slots .oldRevision).trans hfree.right
  have hmoved := hat.move .liveStore .oldStore hlive
  rw [hs, update_liveStore, update_oldStore] at hmoved
  refine ⟨_, htrace _ ?_, hmoved.slots .liveStore, hmoved.slots .oldStore,
    hmoved.pending.trans hartifact⟩
  have isFile_run (path : FilePath) : (isFile path).run d = (d, (d path).isSome) := by
    cases hp : d path <;>
      simp [isFile, run, FileOp.answer, FileOp.effect, hp, Except.isOk, Except.toBool]
  have rename_run : (rename r.liveStore r.oldStore).run d =
      (Function.update (Function.update d r.liveStore none) r.oldStore (some s), .ok ()) := by
    simp [rename, run, FileOp.answer, FileOp.effect, hlive]
  rw [takeOver]
  refine mem_trace_of_run ?_
  rw [isFile_run, hold]
  refine mem_trace_of_run ?_
  rw [isFile_run, holdRevision]
  refine mem_trace_of_run ?_
  rw [isFile_run, hlive]
  refine mem_trace_of_run ?_
  simp only [renameWhen, Option.isSome_some, ↓reduceIte]
  rw [rename_run]
  exact self_mem_trace _ _

-- A later start with the same process id gives up.
theorem takeOver_blocked {contents : Bytes} (h : d r.oldStore = some contents) :
    (r.takeOver store revision).run d = (d, .error .invalidRecovery) := by
  simp [takeOver, isFile, run, FileOp.answer, FileOp.effect, Except.isOk, Except.toBool, h]

end

end Cli.Recovery

-- The starts of a daemon with a staged artifact, one after the other. `installed` remembers whether the
-- candidate's files have been the live ones after one of them.
structure Restoration where
  disk      : Disk
  installed : Bool

namespace Restoration

open Cli

-- One start; the process dies where the fates end.
structure Attempt where
  pid        : String
  passphrase : String
  now        : UInt64
  fates      : List Fate

-- The data directory, the live pair before the first start, and the files of the staged artifact.
structure Setting where
  services : Services
  dataDir  : FilePath
  old      : Option Bytes × Option Bytes
  artifact : Bytes
  store    : Bytes
  revision : Bytes

variable {g : Setting} {s : Restoration} {a : Attempt} {d : Disk}

def Attempt.recovery (a : Attempt) (dataDir : FilePath) : Recovery where
  dataDir    := dataDir
  pid        := a.pid
  passphrase := a.passphrase
  now        := a.now

def Setting.program (g : Setting) (a : Attempt) : FileProgram (Except CliError Unit) :=
  applyPendingRecovery g.services (a.recovery g.dataDir)

def Setting.pending (g : Setting) : FilePath :=
  recoveryPendingPath (storePath g.dataDir)

def Setting.isInstalled (g : Setting) (d : Disk) : Bool :=
  d (storePath g.dataDir) = some g.store && d (revisionPath g.dataDir) = some g.revision

def step (g : Setting) (s : Restoration) (a : Attempt) : Restoration :=
  let disk := ((g.program a).exec s.disk a.fates).fst
  { disk, installed := s.installed || g.isInstalled disk }

-- The live files are the old pair or the candidate's pair.
def Settled (g : Setting) (d : Disk) : Prop :=
  (d (storePath g.dataDir) = g.old.fst ∧ d (revisionPath g.dataDir) = g.old.snd) ∨ g.isInstalled d

-- The bytes of the old store are the live ones, or some process moved them aside.
def Holds (g : Setting) (d : Disk) : Prop :=
  ∀ bytes, g.old.fst = some bytes → d (storePath g.dataDir) = some bytes ∨
    ∃ pid, d (g.dataDir ++ "/store.adstore.before-recovery-" ++ pid) = some bytes

-- When it returns, the live files are one of the pairs; and when nothing failed and the candidate is
-- accepted, they are the candidate's.
def Completes (g : Setting) (s : Restoration) (a : Attempt) : Prop :=
  match (g.program a).exec s.disk a.fates with
  | (_, none)             => True
  | (d, some (result, _)) => Settled g d ∧
    (failures a.fates = 0 → (a.recovery g.dataDir).Accepts g.services g.store →
      result = .ok () ∧ g.isInstalled d)

-- The process id is not one whose files were left over, at most one file step fails, and none does
-- where the live files are not a pair; such a start has the right passphrase, in time.
structure Allowed (g : Setting) (s : Restoration) (a : Attempt) : Prop where
  fresh       : s.disk (a.recovery g.dataDir).oldStore = none ∧
    s.disk (a.recovery g.dataDir).oldRevision = none
  environment : (g.program a).Within (a.recovery g.dataDir).environment s.disk a.fates
  single      : failures a.fates ≤ 1
  resumes     : Settled g s.disk ∨
    failures a.fates = 0 ∧ (a.recovery g.dataDir).Accepts g.services g.store

-- There was a live store, and it returns without one.
theorem not_completes_of_missing {result : Except CliError Unit} {rest : List Fate}
    (hold : g.old.fst ≠ none) (hx : (g.program a).exec s.disk a.fates = (d, some (result, rest)))
    (hd : d (storePath g.dataDir) = none) : ¬Completes g s a := by
  intro h
  rw [Completes, hx] at h
  obtain ⟨⟨hs, _⟩ | hi, _⟩ := h
  case inl => exact hold <| hs.symm.trans hd
  case inr =>
    simp only [Setting.isInstalled, Bool.and_eq_true, decide_eq_true_eq] at hi
    exact absurd (hi.left.symm.trans hd) (by simp)

-- The artifact is staged until the candidate is installed, and the old store is kept until then.
structure Sound (g : Setting) (s : Restoration) : Prop where
  staged : s.disk g.pending = some g.artifact ∨ s.disk g.pending = none ∧ g.isInstalled s.disk
  kept   : Holds g s.disk ∨ s.installed

theorem settled_start (h : g.old = (d (storePath g.dataDir), d (revisionPath g.dataDir))) :
    Settled g d :=
  .inl <| Prod.ext_iff.mp h.symm

theorem allowed_of_no_failures (hf : failures a.fates = 0)
    (hfresh : s.disk (a.recovery g.dataDir).oldStore = none ∧
      s.disk (a.recovery g.dataDir).oldRevision = none)
    (hresumes : Settled g s.disk ∨ (a.recovery g.dataDir).Accepts g.services g.store) :
    Allowed g s a where
  fresh       := hfresh
  environment := within_of_no_failures (fun op => by cases op <;> simp [Recovery.environment])
    (fun _ => trivial) hf
  single      := by omega
  resumes     := hresumes.imp_right fun h => ⟨hf, h⟩

-- A start that dies when it has moved the live store aside, and another one with the same process id:
-- it gives up, and there is no live store.
theorem exists_not_completes {d₀ : Disk} {s : Bytes}
    (old : g.old = (d₀ (storePath g.dataDir), d₀ (revisionPath g.dataDir)))
    (staged : d₀ g.pending = some g.artifact)
    (parsed : parseRecoveryArtifact g.services.artifacts g.artifact = .ok (g.store, g.revision))
    (fresh : d₀ (a.recovery g.dataDir).oldStore = none ∧
      d₀ (a.recovery g.dataDir).oldRevision = none)
    (accepted : (a.recovery g.dataDir).Accepts g.services g.store)
    (live : d₀ (storePath g.dataDir) = some s) :
    ∃ m n, ¬Completes g (step g ⟨d₀, false⟩ { a with fates := .replicate m .succeeds })
      { a with fates := .replicate n .succeeds } := by
  let r := a.recovery g.dataDir
  have hartifact : d₀ r.pending = some g.artifact := staged
  have ⟨d, hd, hlive, hmoved, hpending⟩ := Recovery.exists_moved hartifact parsed fresh accepted live
  have ⟨m, hm⟩ := exists_exec_of_mem_trace hd
  have ⟨d', hat, hrun, _⟩ := Recovery.applyPendingRecovery_accepts hpending parsed accepted
  have hblocked : (r.takeOver g.store g.revision).run d' = (d', .error .invalidRecovery) :=
    Recovery.takeOver_blocked ((hat.slots .oldStore).trans hmoved)
  have hlive' : d' r.liveStore = none := (hat.slots .liveStore).trans hlive
  have ⟨n, hn⟩ := exists_exec_eq_run (applyPendingRecovery g.services r) d
  rw [hrun, hblocked] at hn
  have hdisk : (step g ⟨d₀, false⟩ { a with fates := .replicate m .succeeds }).disk = d := hm
  have hx : (g.program { a with fates := .replicate n .succeeds }).exec d (.replicate n .succeeds) =
      (d', some (.error .invalidRecovery, [])) := hn
  exact ⟨m, n, not_completes_of_missing (by simp [old, live]) (by rw [hdisk]; exact hx) hlive'⟩

theorem isInstalled_iff : g.isInstalled d ↔
    (a.recovery g.dataDir).Installed g.store g.revision d := by
  simp [Setting.isInstalled, Recovery.Installed, Recovery.liveStore, Recovery.liveRevision,
    Attempt.recovery]

theorem Holds.of_kept {d' : Disk} (h : Holds g d)
    (hfree : d (a.recovery g.dataDir).oldStore = none)
    (hkept : d' (storePath g.dataDir) = d (storePath g.dataDir) ∨
      d' (a.recovery g.dataDir).oldStore = d (storePath g.dataDir) ∨ g.isInstalled d')
    (hothers : ∀ pid ≠ a.pid, d' { a.recovery g.dataDir with pid }.oldStore =
      d { a.recovery g.dataDir with pid }.oldStore) :
    Holds g d' ∨ g.isInstalled d' := by
  by_cases hi : g.isInstalled d'
  case pos => exact .inr hi
  case neg =>
    refine .inl fun bytes hb => ?_
    obtain hl | ⟨pid, hp⟩ := h bytes hb
    case inl =>
      obtain hk | hk | hk := hkept
      case inl         => exact .inl <| hk.trans hl
      case inr.inl     => exact .inr ⟨a.pid, hk.trans hl⟩
      case inr.inr     => exact absurd hk hi
    case inr =>
      by_cases hpid : pid = a.pid
      case pos =>
        subst hpid
        exact absurd (hp.symm.trans hfree) (by simp)
      case neg => exact .inr ⟨pid, (hothers pid hpid).trans hp⟩

-- With nothing staged the start goes on with the files as they are.
theorem exec_of_none (h : s.disk g.pending = none) :
    ((g.program a).exec s.disk a.fates).fst = s.disk ∧
      ∀ result rest, ((g.program a).exec s.disk a.fates).snd = some (result, rest) →
        result = .ok () := by
  have hp : s.disk (a.recovery g.dataDir).pending = none := h
  rw [Setting.program, applyPendingRecovery]
  match a.fates with
  | []              => exact ⟨rfl, by rintro _ _ ⟨⟩⟩
  | .untouched :: _ => exact ⟨rfl, by rintro _ _ ⟨⟩; rfl⟩
  | .replaced :: _  => exact ⟨rfl, by rintro _ _ ⟨⟩; rfl⟩
  | .succeeds :: _  =>
    simp [isFile, exec, FileOp.answer, FileOp.effect, hp, Except.isOk, Except.toBool]

theorem Sound.step (hparse : parseRecoveryArtifact g.services.artifacts g.artifact =
      .ok (g.store, g.revision)) (h : Sound g s) (ha : Allowed g s a) :
    Completes g s a ∧ Sound g (Restoration.step g s a) := by
  obtain hp | ⟨hn, hi⟩ := h.staged
  case inr =>
    have ⟨hd, hr⟩ : ((g.program a).exec s.disk a.fates).fst = s.disk ∧ _ := exec_of_none hn
    refine ⟨?_, ?_⟩
    case refine_1 =>
      rw [Completes]
      match hx : (g.program a).exec s.disk a.fates with
      | (_, none)          => trivial
      | (d, some (result, _)) =>
        rw [hx] at hd hr
        cases hd
        exact ⟨.inr hi, fun _ _ => ⟨hr _ _ rfl, hi⟩⟩
    case refine_2 =>
      simp only [Restoration.step, hd]
      exact ⟨.inr ⟨hn, hi⟩, .inr (by simp [hi])⟩
  case inl =>
    let r := a.recovery g.dataDir
    have hartifact : s.disk r.pending = some g.artifact := hp
    have hsafe : (applyPendingRecovery g.services r).Safe r.environment
        (r.Midway s.disk g.store g.revision)
        (fun _ d _ => r.Returned s.disk g.store g.revision d) s.disk 1 :=
      Recovery.applyPendingRecovery_safe hartifact hparse ha.fresh (Nat.le_refl 1)
    have hends : Ends (r.Midway s.disk g.store g.revision)
        (fun _ d _ => r.Returned s.disk g.store g.revision d) 1
        ((g.program a).exec s.disk a.fates) := hsafe.exec ha.environment ha.single
    -- What is kept of the old store, and the flag where it is not.
    have keep {d : Disk} (hx : ((g.program a).exec s.disk a.fates).fst = d)
        (hk : d r.liveStore = s.disk r.liveStore ∨ d r.oldStore = s.disk r.liveStore ∨
          r.Installed g.store g.revision d)
        (ho : ∀ pid ≠ r.pid, d { r with pid }.oldStore = s.disk { r with pid }.oldStore) :
        Holds g (Restoration.step g s a).disk ∨ (Restoration.step g s a).installed := by
      have hdisk : (Restoration.step g s a).disk = d := hx
      have hflag : (Restoration.step g s a).installed = (s.installed || g.isInstalled d) := by
        simp only [Restoration.step, hx]
      rw [hdisk, hflag, Bool.or_eq_true]
      obtain hh | hi := h.kept
      case inl =>
        exact (hh.of_kept ha.fresh.left (hk.imp_right <| .imp_right isInstalled_iff.mpr) ho).imp_right
          .inr
      case inr => exact .inr <| .inl hi
    rw [Completes]
    match hx : (g.program a).exec s.disk a.fates with
    | (d, none)                =>
      rw [hx] at hends
      have hm : r.Midway s.disk g.store g.revision d := hends
      refine ⟨trivial, .inl ?_, keep (by rw [hx]) hm.kept hm.others⟩
      simp only [Restoration.step, hx]
      exact hm.pending.trans hp
    | (d, some (result, rest)) =>
      rw [hx] at hends
      have ⟨_, _, hr, _⟩ := hends
      have complete (hz : failures a.fates = 0) (hv : r.Accepts g.services g.store) :
          result = .ok () ∧ g.isInstalled d := by
        have hrun := run_of_exec hz hx
        have ⟨hok, hi, _⟩ := Recovery.applyPendingRecovery_run hartifact hparse ha.fresh hv
        rw [show (applyPendingRecovery g.services r).run s.disk = (d, result) from hrun] at hok hi
        exact ⟨hok, isInstalled_iff.mpr hi⟩
      refine ⟨⟨?_, complete⟩, ?_, keep (by rw [hx]) ?_ hr.others⟩
      case refine_1 =>
        obtain hsame | hi := hr.pair
        case inr => exact .inr <| isInstalled_iff.mpr hi
        case inl =>
          obtain hs | ⟨hz, hv⟩ := ha.resumes
          case inr => exact .inr (complete hz hv).right
          case inl =>
            obtain hold | hi := hs
            case inl => exact .inl ⟨hsame.left.trans hold.left, hsame.right.trans hold.right⟩
            case inr =>
              have hi' : r.Installed g.store g.revision s.disk := isInstalled_iff.mp hi
              exact .inr <| isInstalled_iff.mpr
                ⟨hsame.left.trans hi'.left, hsame.right.trans hi'.right⟩
      case refine_2 =>
        simp only [Restoration.step, hx]
        exact hr.pending.imp (·.trans hp) fun ⟨hn, hi⟩ => ⟨hn, isInstalled_iff.mpr hi⟩
      case refine_3 => exact hr.pair.imp And.left .inr

-- In every run of allowed starts, each one that returns leaves the old or the new pair, the one after a
-- crash finishes the recovery, and the old store is kept until the candidate is installed.
theorem completes_of_allowed {g : Setting} {d₀ : Disk} (attempts : List Attempt)
    (old : g.old = (d₀ (storePath g.dataDir), d₀ (revisionPath g.dataDir)))
    (staged : d₀ g.pending = some g.artifact)
    (parsed : parseRecoveryArtifact g.services.artifacts g.artifact = .ok (g.store, g.revision))
    (allowed : Run.Meets (step g) (Allowed g) ⟨d₀, false⟩ attempts) :
    Run.Meets (step g) (Completes g) ⟨d₀, false⟩ attempts ∧
      ∀ s ∈ Run.states (step g) ⟨d₀, false⟩ attempts, Holds g s.disk ∨ s.installed := by
  have start : Sound g ⟨d₀, false⟩ := by
    refine ⟨.inl staged, .inl fun bytes hb => .inl ?_⟩
    rw [old] at hb
    exact hb
  have ⟨hc, hs⟩ := Run.Meets.of_invariant (fun _ _ hs ha => hs.step parsed ha) start allowed
  exact ⟨hc, fun s h => (hs s h).kept⟩

end Restoration

namespace Restoration

open Cli EncryptedStore

def sampleCertificate : DeviceCertificate :=
  let unsigned : DeviceCertificate := {
    accountPublicKey    := .fill 32 1
    deviceId            := "laptop"
    devicePublicKey     := .fill 32 2
    protocolPackageHash := .fill 32 0
    issuedAt            := 1600000000
    expiresAt           := 1800000000
    signature           := .fill 64 0
    revoked             := false
  }
  { unsigned with signature := Ed25519.sample.sign (.fill 32 1) unsigned.message }

def sampleRegistry : DeviceRegistry where
  accountPublicKey := sampleCertificate.accountPublicKey
  devices          := (∅ : Std.ExtTreeMap String DeviceRecord).insert "laptop"
    { certificate := sampleCertificate, state := .active, revokedAt := none }
  events           := [⟨"laptop", .registered, 1600000000⟩]

@[irreducible]
def sampleRegistryBytes : Bytes :=
  sampleRegistry.encode

def sampleCandidate : EncryptedStore where
  path     := storePath "data"
  key      := ((Directory.sampleKdf Directory.samplePassphrase sampleStore.salt).getD sampleStore.key)
  salt     := sampleStore.salt
  revision := 1
  records  := (∅ : Records)
    |>.insert (.accountRoot, "identity") (IdentitySummary.encodeIdentity (.fill 32 1)
      (.fill 32 2) "laptop" "Alice")
    |>.insert (.device, "registry") sampleRegistryBytes
  locked   := false

@[irreducible]
def sampleFile : Bytes :=
  ((sampleCandidate.sealAt .sample sampleNonce 1).toOption).getD []

theorem sampleCandidate_isSealed : sampleCandidate.IsSealed .sample sampleFile := by
  have hok : (sampleCandidate.sealAt .sample sampleNonce 1).isOk := by decide +kernel
  match hs : sampleCandidate.sealAt .sample sampleNonce 1 with
  | .error e  => simp [hs, Except.isOk, Except.toBool] at hok
  | .ok bytes =>
    have hfile : sampleFile = bytes := by
      unfold sampleFile
      simp only [hs, Except.toOption, Option.getD_some]
    exact hfile ▸ sealAt_isSealed hs

-- The SHA-256 digests of the candidate's two files.
def sampleSha256 (bytes : Bytes) : ByteBlock 32 :=
  if bytes = sampleFile then
    ⟨[227, 143, 58, 45, 110, 92, 23, 201, 214, 96, 92, 88, 104, 113, 106, 189, 14, 46, 37, 249,
      153, 80, 185, 26, 13, 240, 1, 65, 69, 54, 74, 48], rfl⟩
  else
    secondMarkerDigest

def sampleManifest : RecoveryManifest :=
  .of ⟨sampleSha256, fun _ => none⟩ 1700000000 sampleFile (markerBytes 1)

def sampleArtifacts : ArtifactServices where
  sha256       := sampleSha256
  readManifest := Reader.of RecoveryManifest.bytes id [sampleManifest]

def sampleServices : Services where
  aead         := .sample
  kdf          := Directory.sampleKdf
  artifacts    := sampleArtifacts
  ed25519      := .sample
  readRegistry := Reader.of RegistryWire.bytes id [sampleRegistry.toWire]

def sampleSetting : Setting where
  services := sampleServices
  dataDir  := "data"
  old      := (Directory.sample.disk <| storePath "data", Directory.sample.disk <| revisionPath "data")
  artifact := recoveryArtifact sampleArtifacts 1700000000 sampleFile (markerBytes 1)
  store    := sampleFile
  revision := markerBytes 1

def sampleDisk : Disk :=
  Function.update Directory.sample.disk sampleSetting.pending (some sampleSetting.artifact)

def sampleAttempt : Attempt where
  pid        := "42"
  passphrase := Directory.samplePassphrase
  now        := 1700000000
  fates      := .replicate 40 .succeeds

theorem sampleArtifact_parsed :
    parseRecoveryArtifact sampleArtifacts
      (recoveryArtifact sampleArtifacts 1700000000 sampleFile (markerBytes 1)) =
        .ok (sampleFile, markerBytes 1) := by
  have hlen : (recoveryArtifact sampleArtifacts 1700000000 sampleFile (markerBytes 1)).length =
      artifactSize 1700000000 sampleFile (markerBytes 1) := length_recoveryArtifact
  have hsmall : artifactSize 1700000000 sampleFile (markerBytes 1) ≤ 2000 := by decide +kernel
  have hmax : 2000 ≤ maxRecoveryArtifactBytes := by decide
  have ⟨_, _, _, hp, _⟩ := sampleCandidate_isSealed
  refine parseRecoveryArtifact_eq_ok_iff.mpr
    ⟨by omega, framed_recoveryArtifact ?_ (by omega), _, hp, ?_⟩
  case refine_1 =>
    have hm : RecoveryManifest.of sampleArtifacts 1700000000 sampleFile (markerBytes 1) =
        sampleManifest := rfl
    rw [hm]
    exact Reader.of_singleton RecoveryManifest.bytes sampleManifest
  case refine_2 => exact (by decide : markerRevision (markerBytes 1) = some 1)

theorem sampleRegistryBytes_decode :
    ∃ registry, DeviceRegistry.decode sampleServices.ed25519 sampleServices.readRegistry
        sampleRegistryBytes = .ok registry ∧
      registry.authorize sampleServices.ed25519 "laptop" 1700000000 = .ok () := by
  have hread : sampleServices.readRegistry sampleRegistryBytes = some sampleRegistry.toWire := by
    unfold sampleRegistryBytes
    rw [show sampleServices.readRegistry = Reader.of RegistryWire.bytes id [sampleRegistry.toWire]
      from rfl, DeviceRegistry.encode, Reader.of_singleton]
  have hauthorized : (DeviceRegistry.ofWire .sample sampleRegistry.toWire).map
      (·.authorize .sample "laptop" 1700000000) = .ok (.ok ()) := by decide +kernel
  cases hw : DeviceRegistry.ofWire .sample sampleRegistry.toWire
  case error e     => simp [hw, Except.map] at hauthorized
  case ok registry =>
    rw [hw] at hauthorized
    exact ⟨registry, Recovery.decode_eq_ok hread hw, Except.ok.inj hauthorized⟩

set_option maxRecDepth 10000 in
theorem sample_accepted :
    (sampleAttempt.recovery sampleSetting.dataDir).Accepts sampleSetting.services
      sampleSetting.store := by
  have hf : (Credential.passphrase Directory.samplePassphrase).Fits Directory.sampleKdf
      sampleCandidate := ⟨by decide, by decide⟩
  refine ⟨_, Recovery.candidate_of_isSealed sampleCandidate_isSealed hf, ?_⟩
  have hidentity : (sampleCandidate.get .accountRoot "identity").bind (IdentitySummary.decode .sample)
      = some ⟨some ⟨.replicate 32 1, rfl⟩, ⟨.replicate 32 2, rfl⟩, ⟨.replicate 32 1, rfl⟩,
        Identity.accountIdFromPublic ⟨.replicate 32 1, rfl⟩, "laptop", "Alice"⟩ := by
    decide
  have hregistry : sampleCandidate.get .device "registry" = some sampleRegistryBytes := by
    simp [sampleCandidate, EncryptedStore.get]
  have ⟨registry, hdecode, hauthorize⟩ := sampleRegistryBytes_decode
  exact Recovery.validateCandidate_eq_ok hidentity hregistry hdecode hauthorize

theorem sampleDisk_pending : sampleDisk sampleSetting.pending = some sampleSetting.artifact :=
  Function.update_self ..

theorem sampleDisk_of_ne {path : FilePath} (h : path ≠ sampleSetting.pending) :
    sampleDisk path = Directory.sample.disk path :=
  Function.update_of_ne h ..

theorem sampleDisk_old : sampleSetting.old =
    (sampleDisk (storePath sampleSetting.dataDir), sampleDisk (revisionPath sampleSetting.dataDir)) := by
  rw [sampleDisk_of_ne (by decide), sampleDisk_of_ne (by decide)]
  rfl

theorem sampleDisk_fresh :
    sampleDisk (sampleAttempt.recovery sampleSetting.dataDir).oldStore = none ∧
      sampleDisk (sampleAttempt.recovery sampleSetting.dataDir).oldRevision = none := by
  rw [sampleDisk_of_ne (by decide), sampleDisk_of_ne (by decide)]
  exact ⟨by decide, by decide⟩

-- The process dies between the two renames, and the next start has its process id.
theorem samePid_not_completes :
    sampleSetting.old =
        (sampleDisk (storePath sampleSetting.dataDir),
          sampleDisk (revisionPath sampleSetting.dataDir)) ∧
      sampleDisk sampleSetting.pending = some sampleSetting.artifact ∧
      parseRecoveryArtifact sampleSetting.services.artifacts sampleSetting.artifact =
        .ok (sampleSetting.store, sampleSetting.revision) ∧
      ∃ m n, ¬Completes sampleSetting
        (step sampleSetting ⟨sampleDisk, false⟩
          { sampleAttempt with fates := .replicate m .succeeds })
        { sampleAttempt with fates := .replicate n .succeeds } := by
  have ⟨bytes, hlive⟩ : ∃ bytes, sampleDisk (storePath sampleSetting.dataDir) = some bytes := by
    rw [sampleDisk_of_ne (by decide)]
    exact Option.isSome_iff_exists.mp (by decide)
  exact ⟨sampleDisk_old, sampleDisk_pending, sampleArtifact_parsed,
    exists_not_completes sampleDisk_old sampleDisk_pending sampleArtifact_parsed sampleDisk_fresh
      sample_accepted hlive⟩

theorem sampleAttempt_completes :
    Run.Meets (step sampleSetting) (Completes sampleSetting) ⟨sampleDisk, false⟩ [sampleAttempt] := by
  refine (completes_of_allowed [sampleAttempt] sampleDisk_old sampleDisk_pending
    sampleArtifact_parsed ?_).left
  exact ⟨allowed_of_no_failures (by decide) sampleDisk_fresh (.inl <| settled_start sampleDisk_old),
    trivial⟩

end Restoration
