import AnotherDimension.Library.Decode
import AnotherDimension.Storage.Artifact

-- Which byte strings are recovery artifacts.

namespace Storage

variable {services : ArtifactServices} {bytes manifest store revision : Bytes} {createdAt : UInt64}

theorem length_frame : (frame manifest store revision).length =
    recoveryMagic.length + (8 + manifest.length) + (8 + store.length) + (8 + revision.length) := by
  simp [frame]
  omega

theorem readBlobs_frame (h : (frame manifest store revision).length < 2 ^ 64) :
    readBlobs (frame manifest store revision) =
      some (manifest, store, revision, (frame manifest store revision).length) := by
  have h₁ : Bytes.readBlob (frame manifest store revision) recoveryMagic.length =
      some (manifest, recoveryMagic.length + (8 + manifest.length)) :=
    Bytes.readBlob_blob rfl h
  have h₂ : Bytes.readBlob (frame manifest store revision)
      (recoveryMagic.length + (8 + manifest.length)) =
      some (store, recoveryMagic.length + (8 + manifest.length) + (8 + store.length)) := by
    rw [frame, ← List.append_assoc] at h ⊢
    exact Bytes.readBlob_blob (by simp) h
  have h₃ : Bytes.readBlob (frame manifest store revision)
      (recoveryMagic.length + (8 + manifest.length) + (8 + store.length)) =
      some (revision, (frame manifest store revision).length) := by
    rw [length_frame]
    rw [frame, ← List.append_assoc, ← List.append_assoc, ← List.append_nil (Bytes.blob revision)]
      at h ⊢
    exact Bytes.readBlob_blob (by simp; omega) h
  rw [readBlobs, h₁]
  simp only [Option.bind_eq_bind, Option.bind_some, h₂, h₃]
  rfl

theorem eq_frame_of_readBlobs (hm : recoveryMagic.isPrefixOf bytes)
    (h : readBlobs bytes = some (manifest, store, revision, bytes.length)) :
    bytes = frame manifest store revision ∧ bytes.length < 2 ^ 64 := by
  unfold readBlobs at h
  have ⟨⟨m, o₁⟩, h₁, h⟩ := Option.bind_eq_some_iff.mp h
  have ⟨⟨s, o₂⟩, h₂, h⟩ := Option.bind_eq_some_iff.mp h
  have ⟨⟨r, o₃⟩, h₃, h⟩ := Option.bind_eq_some_iff.mp h
  cases h
  have ⟨e₁, _, _⟩ := Bytes.eq_of_readBlob h₁
  have ⟨e₂, _, _⟩ := Bytes.eq_of_readBlob h₂
  have ⟨e₃, _, _, hl⟩ := Bytes.eq_of_readBlob h₃
  have ⟨rest, hp⟩ := List.isPrefixOf_iff_prefix.mp hm
  refine ⟨?_, hl⟩
  conv_lhs => rw [← hp]
  have hr : rest = bytes.drop recoveryMagic.length := by rw [← hp, List.drop_left]
  rw [hr, e₁, e₂, e₃, List.drop_length, List.append_nil, frame]

-- The bytes are a container of the two files whose manifest describes them.
structure Framed (services : ArtifactServices) (bytes store revision : Bytes) : Prop where
  small    : bytes.length < 2 ^ 64
  manifest : ∃ manifest m, bytes = frame manifest store revision ∧
    services.readManifest manifest = some m ∧ m.schemaVersion = 2 ∧
    m.describes services store revision

theorem Framed.readBlobs (h : Framed services bytes store revision) :
    ∃ manifest m, Storage.readBlobs bytes = some (manifest, store, revision, bytes.length) ∧
      services.readManifest manifest = some m ∧ m.schemaVersion = 2 ∧
      m.describes services store revision ∧ recoveryMagic.isPrefixOf bytes := by
  obtain ⟨manifest, m, rfl, hm⟩ := h.manifest
  exact ⟨manifest, m, readBlobs_frame h.small, hm.left, hm.right.left, hm.right.right,
    List.isPrefixOf_iff_prefix.mpr <| List.prefix_append _ _⟩

theorem Framed.unique {store' revision' : Bytes} (h : Framed services bytes store revision)
    (h' : Framed services bytes store' revision') : store = store' ∧ revision = revision' := by
  have ⟨_, _, hb, _⟩ := h.readBlobs
  have ⟨_, _, hb', _⟩ := h'.readBlobs
  cases hb.symm.trans hb'
  exact ⟨rfl, rfl⟩

-- Store file and marker name the same revision.
def RevisionsAgree (store revision : Bytes) : Prop :=
  ∃ parsed, parseFile store = .ok parsed ∧ markerRevision revision = some parsed.revision

-- Both revisions can be read off the bytes.
theorem revisionsAgree_iff {fileRevision marker : UInt64}
    (hf : (parseFile store).map (·.revision) = .ok fileRevision)
    (hm : markerRevision revision = some marker) :
    RevisionsAgree store revision ↔ fileRevision = marker := by
  cases hp : parseFile store <;> rw [hp] at hf <;> cases hf
  simp [RevisionsAgree, hp, hm, eq_comm]

theorem RevisionsAgree.length_le (h : RevisionsAgree store revision) : 61 ≤ store.length := by
  have ⟨parsed, hp, _⟩ := h
  unfold parseFile at hp
  split at hp
  case isTrue     => cases hp
  case isFalse hn => exact Nat.not_lt.mp (not_or.mp hn).left

theorem RevisionsAgree.ne_nil (h : RevisionsAgree store revision) : store ≠ [] ∧ revision ≠ [] := by
  have hl := h.length_le
  refine ⟨fun hs => by simp [hs] at hl, fun hr => ?_⟩
  have ⟨_, _, hm⟩ := h
  rw [hr, show markerRevision [] = none by decide] at hm
  cases hm

theorem parseRecoveryArtifact_eq_ok_iff :
    parseRecoveryArtifact services bytes = .ok (store, revision) ↔
      bytes.length ≤ maxRecoveryArtifactBytes ∧ Framed services bytes store revision ∧
        RevisionsAgree store revision := by
  constructor
  case mp =>
    intro h
    unfold parseRecoveryArtifact at h
    split at h
    case isTrue => cases h
    case isFalse hl =>
      simp only [not_or, Nat.not_lt, not_not] at hl
      split at h
      case h_1 => cases h
      case h_2 manifest s r stop hb =>
        split at h
        case h_1 => cases h
        case h_2 m hm =>
          split at h
          case isTrue => cases h
          case isFalse hc =>
            simp only [not_or, not_not] at hc
            split at h
            case h_1 => cases h
            case h_2 parsed hp =>
              split at h
              case h_1 => cases h
              case h_2 marker hr =>
                split at h <;> cases h
                case isFalse he =>
                  rw [hc.left] at hb
                  have ⟨hf, hs⟩ := eq_frame_of_readBlobs hl.right hb
                  exact ⟨hl.left, ⟨hs, manifest, m, hf, hm, hc.right.left, hc.right.right.left⟩,
                    parsed, hp, hr.trans <| congrArg some (not_not.mp he).symm⟩
  case mpr =>
    intro ⟨hl, hf, ha⟩
    have ⟨manifest, m, hb, hm, hv, hd, hp⟩ := hf.readBlobs
    have ⟨hs, hr⟩ := ha.ne_nil
    obtain ⟨parsed, hparse, hmark⟩ := ha
    simp [parseRecoveryArtifact, Nat.not_lt.mpr hl, hp, hb, hm, hv, hd, hs, hr, hparse, hmark]

-- The bytes of the artifact for two files.
def artifactSize (createdAt : UInt64) (store revision : Bytes) : Nat :=
  store.length + revision.length + (Text.formatU64 createdAt).utf8ByteSize +
    (Text.formatU64 <| .ofNat store.length).utf8ByteSize +
    (Text.formatU64 <| .ofNat revision.length).utf8ByteSize + 271

theorem length_recoveryArtifact :
    (recoveryArtifact services createdAt store revision).length =
      artifactSize createdAt store revision := by
  have hd (bytes : Bytes) : (Json.string (services.digest bytes)).utf8ByteSize = 66 := by
    rw [ArtifactServices.digest, (Json.isPlain_toHex _).utf8ByteSize_string,
      Bytes.utf8ByteSize_toHex, (services.sha256 bytes).property]
  have hn : (["schema_version", "created_at", "store_bytes", "revision_bytes", "store_sha256",
      "revision_sha256"].map fun name => (Json.string name).utf8ByteSize) =
      [16, 12, 13, 16, 14, 17] := by decide
  have hv : (Json.number (2 : UInt16).toUInt64).utf8ByteSize = 1 := by decide
  have hp : "\x7b".utf8ByteSize = 1 ∧ "\x7d".utf8ByteSize = 1 ∧ ":".utf8ByteSize = 1 ∧
      ",".utf8ByteSize = 1 := by decide
  have hm : recoveryMagic.length = 13 := by decide
  simp only [List.map_cons, List.map_nil, List.cons.injEq, and_true] at hn
  rw [recoveryArtifact, length_frame, hm]
  simp only [RecoveryManifest.bytes, RecoveryManifest.of, Bytes.length_utf8, Json.object,
    Json.members, String.utf8ByteSize_append, hp, hn, hd, hv]
  simp only [Json.number, artifactSize]
  omega

theorem framed_recoveryArtifact
    (reads : services.readManifest (RecoveryManifest.of services createdAt store revision).bytes =
      some (.of services createdAt store revision))
    (h : (recoveryArtifact services createdAt store revision).length < 2 ^ 64) :
    Framed services (recoveryArtifact services createdAt store revision) store revision :=
  ⟨h, _, _, rfl, reads, rfl, by simp [RecoveryManifest.describes, RecoveryManifest.of]⟩

-- The SHA-256 digests of the markers `0` and `1`.
def firstMarkerDigest : ByteBlock 32 :=
  ⟨[95, 236, 235, 102, 255, 200, 111, 56, 217, 82, 120, 108, 109, 105, 108, 121, 194, 219,
    194, 57, 221, 78, 145, 180, 103, 41, 215, 58, 39, 251, 87, 233], rfl⟩

def secondMarkerDigest : ByteBlock 32 :=
  ⟨[107, 134, 178, 115, 255, 52, 252, 225, 157, 107, 128, 78, 255, 90, 63, 87, 71, 173,
    164, 234, 162, 47, 29, 73, 192, 30, 82, 221, 183, 135, 91, 75], rfl⟩

end Storage
