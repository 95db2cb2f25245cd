import AnotherDimension.Cli.Artifact
import AnotherDimension.Library.Reader
import AnotherDimension.Storage.Theorems.Artifact

-- Which artifacts `recovery import` accepts, compared with those that can be staged.

open FileProgram Storage

namespace Cli

variable {services : ArtifactServices} {bytes store revision : Bytes}

theorem readArtifact_eq_ok_iff :
    readArtifact services bytes = .ok (store, revision) ↔
      Framed services bytes store revision ∧ 32 ≤ store.length ∧ revision ≠ [] := by
  have hmagic : (bytes.length < recoveryMagic.length ∨
      bytes.take recoveryMagic.length ≠ recoveryMagic) ↔ ¬recoveryMagic.isPrefixOf bytes := by
    rw [List.isPrefixOf_iff_prefix, List.prefix_iff_eq_take, eq_comm, or_iff_right_of_imp]
    intro hl ht
    exact absurd (congrArg List.length ht) (by rw [List.length_take]; omega)
  constructor
  case mp =>
    intro h
    unfold readArtifact at h
    split at h
    case isTrue => cases h
    case isFalse hl =>
      rw [hmagic, not_not] at hl
      split at h
      case h_1 => cases h
      case h_2 manifest s r stop hb =>
        split at h
        case h_1 => cases h
        case h_2 m hm =>
          split at h <;> cases h
          case isFalse hc =>
            simp only [not_or, not_not, Nat.not_lt] at hc
            rw [hc.right.left] at hb
            have ⟨hf, hs⟩ := eq_frame_of_readBlobs hl hb
            exact ⟨⟨hs, manifest, m, hf, hm, hc.left, hc.right.right.left⟩, hc.right.right.right⟩
  case mpr =>
    intro ⟨hf, hs, hr⟩
    have ⟨manifest, m, hb, hm, hv, hd, hp⟩ := hf.readBlobs
    rw [readArtifact, if_neg (hmagic.not.mpr <| not_not.mpr hp)]
    simp [hb, hm, hv, hd, hr, Nat.not_lt.mpr hs]

end Cli

namespace Cli.Importation

variable {services : ArtifactServices} {i : Importation} {disk : Disk}
  {bytes store revision : Bytes}

theorem paths_nodup :
    [i.activeStore, i.activeRevision, i.temporaryStore, i.temporaryRevision].Nodup := by
  simp [activeStore, storePath, activeRevision, revisionPath, temporaryStore, temporaryRevision,
    String.append_assoc, String.ext_iff]

-- There is no file in the data directory.
def IsEmpty (i : Importation) (disk : Disk) : Prop :=
  ∀ name, disk (i.dataDir ++ "/" ++ name) = none

theorem IsEmpty.active (h : i.IsEmpty disk) :
    disk i.activeStore = none ∧ disk i.activeRevision = none := by
  refine ⟨?_, ?_⟩
  case refine_1 => simpa [activeStore, storePath, String.append_assoc] using h "store.adstore"
  case refine_2 =>
    simpa [activeRevision, revisionPath, String.append_assoc] using h "store.adstore.revision"

theorem install_run (i : Importation) (disk : Disk) (store revision : Bytes) :
    ((i.install store revision).run disk).snd.isOk ∧
      ((i.install store revision).run disk).fst i.activeStore = some store ∧
      ((i.install store revision).run disk).fst i.activeRevision = some revision := by
  have hp := i.paths_nodup
  have hq := List.nodup_reverse.mpr i.paths_nodup
  simp only [List.reverse_cons, List.reverse_nil, List.nil_append, List.cons_append,
    List.nodup_cons, List.mem_cons, List.not_mem_nil, not_or, or_false] at hp hq
  simp [install, atomicWrite, rename, removeFile, run, FileOp.answer, FileOp.effect, hp, hq,
    Except.isOk, Except.toBool]

theorem importRecovery_run (he : i.IsEmpty disk) (hi : disk i.input = some bytes) :
    (importRecovery services i).run disk =
      match readArtifact services bytes with
      | .error e              => (disk, .error e)
      | .ok (store, revision) => (i.install store revision).run disk := by
  have ⟨hs, hr⟩ := he.active
  cases hb : readArtifact services bytes <;>
    simp [importRecovery, isFile, readFile, run, FileOp.answer, FileOp.effect, hs, hr, hi,
      Except.isOk, Except.toBool, Except.mapError, hb]

-- Importing and staging agree on the bytes, and import installs the files that would be staged.
def Agrees (services : ArtifactServices) (i : Importation) (disk : Disk) (bytes : Bytes) : Prop :=
  let imported := (importRecovery services i).run disk
  (imported.snd.isOk ↔ (parseRecoveryArtifact services bytes).isOk) ∧
    ∀ store revision, parseRecoveryArtifact services bytes = .ok (store, revision) →
      imported.fst i.activeStore = some store ∧ imported.fst i.activeRevision = some revision

-- Two files whose revisions are known to agree, in a container that is not too large to be staged.
def IsConsistent (services : ArtifactServices) (bytes : Bytes) : Prop :=
  ∀ store revision, Framed services bytes store revision → 32 ≤ store.length → revision ≠ [] →
    bytes.length ≤ maxRecoveryArtifactBytes ∧ RevisionsAgree store revision

theorem Agrees.isConsistent (empty : i.IsEmpty disk) (input : disk i.input = some bytes)
    (h : Agrees services i disk bytes) : IsConsistent services bytes := by
  intro store revision hf hs hr
  rw [Agrees, importRecovery_run empty input, readArtifact_eq_ok_iff.mpr ⟨hf, hs, hr⟩] at h
  have hok := h.left.mp (install_run i disk store revision).left
  match hp : parseRecoveryArtifact services bytes with
  | .error e  => simp [hp, Except.isOk, Except.toBool] at hok
  | .ok files =>
    obtain ⟨hl, hf', hagree⟩ := parseRecoveryArtifact_eq_ok_iff.mp hp
    obtain ⟨rfl, rfl⟩ := hf.unique hf'
    exact ⟨hl, hagree⟩

theorem agrees_iff_isConsistent (services : ArtifactServices) (i : Importation) (disk : Disk)
    (bytes : Bytes) (empty : i.IsEmpty disk) (input : disk i.input = some bytes) :
    Agrees services i disk bytes ↔ IsConsistent services bytes := by
  constructor
  case mp  => exact Agrees.isConsistent empty input
  case mpr =>
    intro hc
    rw [Agrees, importRecovery_run empty input]
    -- What can be staged is always imported.
    have staged {files : Bytes × Bytes}
        (hp : parseRecoveryArtifact services bytes = .ok files) :
        readArtifact services bytes = .ok files := by
      have ⟨_, hf, hagree⟩ := parseRecoveryArtifact_eq_ok_iff.mp hp
      have hl := hagree.length_le
      exact readArtifact_eq_ok_iff.mpr ⟨hf, by omega, hagree.ne_nil.right⟩
    cases hb : readArtifact services bytes
    case error e =>
      cases hp : parseRecoveryArtifact services bytes
      case error    => simp [Except.isOk, Except.toBool]
      case ok files => cases hb.symm.trans <| staged hp
    case ok files =>
      have ⟨hf, hs, hr⟩ := readArtifact_eq_ok_iff.mp hb
      have ⟨hl, hagree⟩ := hc _ _ hf hs hr
      have hp := parseRecoveryArtifact_eq_ok_iff.mpr ⟨hl, hf, hagree⟩
      have ⟨hok, ha, hrev⟩ := install_run i disk files.fst files.snd
      rw [hp]
      refine ⟨iff_of_true hok rfl, fun store revision h => ?_⟩
      cases h
      exact ⟨ha, hrev⟩

-- A store file at revision 1, with the SHA-256 digests of the file and of two markers.
def sampleFile : Bytes :=
  encodeFile (.fill 16 0) 1 (.fill 12 0) (.replicate 16 0)

def sampleSha256 (bytes : Bytes) : ByteBlock 32 :=
  if bytes = sampleFile then
    ⟨[192, 206, 255, 168, 114, 100, 197, 47, 62, 5, 36, 81, 26, 43, 98, 48, 222, 234, 194,
   251, 106, 189, 221, 31, 207, 237, 114, 243, 83, 94, 202, 208], rfl⟩
  else if bytes = markerBytes 1 then
    secondMarkerDigest
  else
    firstMarkerDigest

def sampleServices (marker : Bytes) : ArtifactServices where
  sha256         := sampleSha256
  readManifest   := Reader.of RecoveryManifest.bytes id
    [.of ⟨sampleSha256, fun _ => none⟩ 1700000000 sampleFile marker]

def sampleArtifact (marker : Bytes) : Bytes :=
  recoveryArtifact (sampleServices marker) 1700000000 sampleFile marker

def sampleImport : Importation where
  dataDir := "profile"
  pid     := "42"
  input   := "backup"

def sampleDisk (marker : Bytes) : Disk :=
  Function.update (fun _ => none) "backup" (some <| sampleArtifact marker)

theorem sampleDisk_isEmpty (marker : Bytes) : sampleImport.IsEmpty (sampleDisk marker) := by
  intro name
  refine Function.update_of_ne ?_ _ _
  simp [sampleImport, String.ext_iff]

theorem sampleFile_revision : (parseFile sampleFile).map (·.revision) = .ok 1 := by
  decide

-- The artifact holds the file and the marker, and is not too large.
theorem sampleArtifact_framed {marker : Bytes} (h : marker.length = 1) :
    (sampleArtifact marker).length ≤ maxRecoveryArtifactBytes ∧
      Framed (sampleServices marker) (sampleArtifact marker) sampleFile marker := by
  have hm : RecoveryManifest.of (sampleServices marker) = .of ⟨sampleSha256, fun _ => none⟩ := rfl
  have hr : (sampleServices marker).readManifest = Reader.of RecoveryManifest.bytes id
    [.of ⟨sampleSha256, fun _ => none⟩ 1700000000 sampleFile marker] := rfl
  have hl : (sampleArtifact marker).length ≤ maxRecoveryArtifactBytes := by
    rw [sampleArtifact, length_recoveryArtifact, artifactSize, h]
    decide
  have hmax : maxRecoveryArtifactBytes < 2 ^ 64 := by decide
  refine ⟨hl, framed_recoveryArtifact ?_ (hl.trans_lt hmax)⟩
  rw [hm, hr, Reader.of_singleton]

-- The marker is one commit behind the store file.
theorem behindMarker_not_agrees :
    let marker := markerBytes 0
    sampleImport.IsEmpty (sampleDisk marker) ∧
      sampleDisk marker sampleImport.input = some (sampleArtifact marker) ∧
      ¬Agrees (sampleServices marker) sampleImport (sampleDisk marker) (sampleArtifact marker) := by
  intro marker
  refine ⟨sampleDisk_isEmpty _, rfl, fun h => ?_⟩
  have hf := (sampleArtifact_framed (by decide : marker.length = 1)).right
  have ha := Agrees.isConsistent (sampleDisk_isEmpty _) rfl h _ _ hf (by decide) (by decide)
  have hm : markerRevision marker = some 0 := by decide
  exact absurd ((revisionsAgree_iff sampleFile_revision hm).mp ha.right) (by decide)

theorem sampleArtifact_agrees :
    let marker := markerBytes 1
    sampleImport.IsEmpty (sampleDisk marker) ∧
      sampleDisk marker sampleImport.input = some (sampleArtifact marker) ∧
      IsConsistent (sampleServices marker) (sampleArtifact marker) ∧
      Agrees (sampleServices marker) sampleImport (sampleDisk marker) (sampleArtifact marker) := by
  intro marker
  have hm : markerRevision marker = some 1 := by decide
  obtain ⟨hl, hf⟩ := sampleArtifact_framed (by decide : marker.length = 1)
  have hc : IsConsistent (sampleServices marker) (sampleArtifact marker) := by
    intro store revision hf' _ _
    obtain ⟨rfl, rfl⟩ := hf.unique hf'
    exact ⟨hl, (revisionsAgree_iff sampleFile_revision hm).mpr rfl⟩
  exact ⟨sampleDisk_isEmpty _, rfl, hc,
    (agrees_iff_isConsistent _ _ _ _ (sampleDisk_isEmpty _) rfl).mpr hc⟩

end Cli.Importation
