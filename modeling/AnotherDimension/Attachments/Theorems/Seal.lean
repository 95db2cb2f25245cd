import AnotherDimension.Attachments.Theorems.Layout

-- Both ways of encrypting an attachment make the same package, and it is a valid one.

open AttachmentDescriptor

namespace Attachment

variable {aead : Aead} {key : ByteBlock 32} {size : UInt64} {nonces : Nat → ByteBlock 12}
  {plaintext : Bytes} {blobId : String} {fileName mediaType : Option String}

def pieces (plaintext : Bytes) : List (Bytes × Nat) :=
  (plaintext.chunks standardChunkSize).zipIdx

def sealedChunk (aead : Aead) (key : ByteBlock 32) (size : UInt64) (nonces : Nat → ByteBlock 12)
    (piece : Bytes × Nat) : Bytes :=
  aead.sealed key (nonces piece.snd) (aad (.ofNat piece.snd) size) piece.fst

def sealedDescriptor (aead : Aead) (key : ByteBlock 32) (size : UInt64)
    (nonces : Nat → ByteBlock 12) (piece : Bytes × Nat) : AttachmentChunkDescriptor where
  index          := .ofNat piece.snd
  nonce          := Bytes.toHex (nonces piece.snd).val
  ciphertextSize := .ofNat (sealedChunk aead key size nonces piece).length

def sealedManifestChunk (aead : Aead) (key : ByteBlock 32) (size : UInt64)
    (nonces : Nat → ByteBlock 12) (piece : Bytes × Nat) : AttachmentChunk where
  index      := .ofNat piece.snd
  nonce      := Bytes.toHex (nonces piece.snd).val
  ciphertext := Bytes.toHex (sealedChunk aead key size nonces piece)

-- The package for a plaintext, given the key and the nonces.
def package (aead : Aead) (key : ByteBlock 32) (nonces : Nat → ByteBlock 12) (plaintext : Bytes)
    (blobId : String) (fileName mediaType : Option String) : EncryptedAttachment where
  descriptor := {
    version      := attachmentVersion
    blobId       := blobId
    key          := key
    chunkSize    := .ofNat standardChunkSize
    originalSize := .ofNat plaintext.length
    chunks       := (pieces plaintext).map <| sealedDescriptor aead key (.ofNat plaintext.length) nonces
    fileName     := fileName
    mediaType    := mediaType }
  blob       :=
    ((pieces plaintext).map <| sealedChunk aead key (.ofNat plaintext.length) nonces).flatten

theorem length_aad (index : UInt32) (size : UInt64) : (aad index size).length = 43 := by
  have ht : "another-dimension/attachment/v1".utf8ByteSize = 31 := by decide
  simp [aad, ht]

-- A piece is of the size of a chunk at most, and full unless it is the last one.
structure IsPiece (count : Nat) (piece : Bytes × Nat) : Prop where
  nonempty : 0 < piece.fst.length
  fits     : piece.fst.length ≤ standardChunkSize
  full     : piece.snd + 1 < count → piece.fst.length = standardChunkSize

theorem isPiece_of_mem_zipIdx {chunks : List Bytes} {first : Nat}
    (h : chunks.IsChunked standardChunkSize) {piece : Bytes × Nat}
    (hp : piece ∈ chunks.zipIdx first) : IsPiece (first + chunks.length) piece := by
  induction chunks generalizing first
  case nil => simp at hp
  case cons chunk chunks hi =>
    rw [List.zipIdx_cons, List.mem_cons] at hp
    cases hp
    case inl hp =>
      have ⟨hn, hf, hl⟩ := h.head (by decide)
      cases hp
      refine ⟨hn, hf, fun hc => hl ?_⟩
      rintro rfl
      simp at hc
    case inr hp =>
      rw [List.length_cons, Nat.add_comm chunks.length, ← Nat.add_assoc]
      exact hi h.tail hp

theorem isPiece_of_mem_pieces {piece : Bytes × Nat} (h : piece ∈ pieces plaintext) :
    IsPiece (pieces plaintext).length piece := by
  have := isPiece_of_mem_zipIdx (List.isChunked_chunks (by decide) plaintext) h
  rwa [Nat.zero_add, ← List.length_zipIdx] at this

section Gcm

variable (gcm : aead.IsGcm)
include gcm

theorem encrypt_piece {count : Nat} {piece : Bytes × Nat} (h : IsPiece count piece) :
    aead.encrypt key (nonces piece.snd) (aad (.ofNat piece.snd) size) piece.fst =
      some (sealedChunk aead key size nonces piece) := by
  refine gcm.encrypt_eq _ _ ?_ <| h.fits.trans (by decide)
  rw [length_aad]
  decide

theorem length_sealedChunk {count : Nat} {piece : Bytes × Nat} (h : IsPiece count piece) :
    (sealedChunk aead key size nonces piece).length = piece.fst.length + 16 :=
  aead.length_encrypt <| encrypt_piece gcm h

theorem sealedChunk_ne_nil {count : Nat} {piece : Bytes × Nat} (h : IsPiece count piece) :
    sealedChunk aead key size nonces piece ≠ [] :=
  List.ne_nil_of_length_pos <| by rw [length_sealedChunk gcm h]; omega

theorem toNat_ciphertextSize {count : Nat} {piece : Bytes × Nat} (h : IsPiece count piece) :
    (sealedDescriptor aead key size nonces piece).ciphertextSize.toNat = piece.fst.length + 16 := by
  have hf := h.fits
  unfold standardChunkSize at hf
  rw [sealedDescriptor, length_sealedChunk gcm h, UInt32.toNat_ofNat', Nat.mod_eq_of_lt]
  omega

theorem encryptChunk_piece {count : Nat} {piece : Bytes × Nat} (h : IsPiece count piece) :
    encryptChunk aead key size (fun i => some (nonces i)) piece =
      .ok (sealedManifestChunk aead key size nonces piece) := by
  simp only [encryptChunk, encrypt_piece gcm h]
  rfl

theorem describeChunk_piece {count : Nat} {piece : Bytes × Nat} (h : IsPiece count piece) :
    describeChunk (sealedManifestChunk aead key size nonces piece) =
      .ok (sealedDescriptor aead key size nonces piece, sealedChunk aead key size nonces piece) := by
  rw [describeChunk, sealedManifestChunk, decodeHex_toHex (sealedChunk_ne_nil gcm h)]
  rfl

theorem encrypt_eq (hn : plaintext ≠ []) (hm : plaintext.length ≤ maxAttachmentBytes) :
    encrypt aead plaintext key (fun i => some (nonces i)) = .ok {
      version      := attachmentVersion
      chunkSize    := .ofNat standardChunkSize
      originalSize := .ofNat plaintext.length
      chunks       := (pieces plaintext).map <|
        sealedManifestChunk aead key (.ofNat plaintext.length) nonces } := by
  rw [encrypt, if_neg (by simpa using hn), if_neg (Nat.not_lt.mpr hm)]
  exact Except.bind_eq_ok.mpr
    ⟨_, Except.mapM_eq_ok_map fun _ h => encryptChunk_piece gcm (isPiece_of_mem_pieces h), rfl⟩

theorem encryptForBlob_eq_package (hb : validBlobId blobId) (hn : plaintext ≠ [])
    (hm : plaintext.length ≤ maxAttachmentBytes) :
    encryptForBlob aead plaintext key blobId (fun i => some (nonces i)) =
      .ok (package aead key nonces plaintext blobId none none) := by
  have hd : ((pieces plaintext).map <| sealedManifestChunk aead key (.ofNat plaintext.length) nonces
      ).mapM describeChunk = .ok ((pieces plaintext).map fun piece =>
        (sealedDescriptor aead key (.ofNat plaintext.length) nonces piece,
          sealedChunk aead key (.ofNat plaintext.length) nonces piece)) := by
    rw [List.mapM_map]
    exact Except.mapM_eq_ok_map fun _ h => describeChunk_piece gcm (isPiece_of_mem_pieces h)
  rw [encryptForBlob, if_neg (by simp [hb])]
  refine Except.bind_eq_ok.mpr ⟨_, encrypt_eq gcm hn hm, Except.bind_eq_ok.mpr ⟨_, hd, ?_⟩⟩
  simp only [List.map_map]
  rfl

-- The descriptors say how large the plaintext is.
theorem plaintextSize_sealed {chunks : List Bytes} {first : Nat}
    (h : chunks.IsChunked standardChunkSize) :
    plaintextSize ((chunks.zipIdx first).map <| sealedDescriptor aead key size nonces) =
      chunks.flatten.length := by
  induction chunks generalizing first
  case nil => rfl
  case cons chunk chunks hi =>
    have hp := isPiece_of_mem_zipIdx h (List.mem_cons_self (a := (chunk, first)))
    rw [List.zipIdx_cons, List.map_cons, plaintextSize_cons, hi h.tail, List.flatten_cons,
      List.length_append, toNat_ciphertextSize gcm hp, Nat.add_sub_cancel]

-- Every piece grows by its tag.
theorem length_sealed {chunks : List Bytes} {first : Nat} (h : chunks.IsChunked standardChunkSize) :
    ((chunks.zipIdx first).map <| sealedChunk aead key size nonces).flatten.length =
      chunks.flatten.length + 16 * chunks.length := by
  induction chunks generalizing first
  case nil => rfl
  case cons chunk chunks hi =>
    have hp := isPiece_of_mem_zipIdx h (List.mem_cons_self (a := (chunk, first)))
    rw [List.zipIdx_cons, List.map_cons, List.flatten_cons, List.length_append, hi h.tail,
      length_sealedChunk gcm hp, List.flatten_cons, List.length_append, List.length_cons]
    simp only
    omega

theorem length_blob (key : ByteBlock 32) (nonces : Nat → ByteBlock 12) (plaintext : Bytes)
    (blobId : String) (fileName mediaType : Option String) :
    (package aead key nonces plaintext blobId fileName mediaType).blob.length =
      plaintext.length + 16 * ((plaintext.length + standardChunkSize - 1) / standardChunkSize) := by
  rw [package, pieces]
  simp only
  rw [length_sealed gcm (List.isChunked_chunks (by decide) plaintext),
    List.flatten_chunks (by decide), List.length_chunks (by decide)]

theorem isChunk_sealed {count : Nat} {piece : Bytes × Nat} (h : IsPiece count piece) :
    (sealedDescriptor aead key size nonces piece).IsChunk count piece.snd where
  index := rfl
  tag   := by rw [toNat_ciphertextSize gcm h]; omega
  fits  := by rw [toNat_ciphertextSize gcm h]; exact Nat.add_le_add_right h.fits 16
  nonce := by rw [sealedDescriptor, decodeNonce_toHex]; rfl
  full  := fun hl => by rw [toNat_ciphertextSize gcm h, h.full hl]

end Gcm

-- The position of a piece is the one it carries.
theorem mem_pieces_of_mem_zipIdx {piece : (Bytes × Nat) × Nat}
    (h : piece ∈ (pieces plaintext).zipIdx) :
    piece.fst ∈ pieces plaintext ∧ piece.snd = piece.fst.snd := by
  rw [List.mem_zipIdx_iff_getElem?] at h
  refine ⟨List.mem_of_getElem? h, ?_⟩
  rw [pieces, List.getElem?_zipIdx, Nat.zero_add] at h
  obtain ⟨_, _, he⟩ := Option.map_eq_some_iff.mp h
  rw [← he]

theorem length_pieces_le (hm : plaintext.length ≤ maxAttachmentBytes) :
    (pieces plaintext).length ≤ maxChunks := by
  rw [pieces, List.length_zipIdx, List.length_chunks (by decide)]
  exact Nat.div_le_div_right <| by omega

theorem package_isLayout (gcm : aead.IsGcm) (hb : validBlobId blobId) (hn : plaintext ≠ [])
    (hm : plaintext.length ≤ maxAttachmentBytes) (hf : (sanitizeFileName fileName).isOk)
    (ht : (sanitizeMediaType mediaType).isOk) :
    (package aead key nonces plaintext blobId fileName mediaType).descriptor.IsLayout := by
  have hs : (UInt64.ofNat plaintext.length).toNat = plaintext.length := by
    rw [UInt64.toNat_ofNat', Nat.mod_eq_of_lt]
    exact hm.trans_lt (by decide)
  have hl := List.length_pos_of_ne_nil hn
  exact {
    blobId       := hb
    version      := rfl
    chunkSize    := show (UInt32.ofNat standardChunkSize).toNat = _ by decide
    nonempty     := fun h => by
      rw [package, ← UInt64.toNat_inj, hs] at h
      exact hl.ne' h
    fits         := hs.trans_le hm
    someChunk    := by
      simp only [package, pieces, ne_eq, List.map_eq_nil_iff, List.zipIdx_eq_nil_iff]
      exact List.chunks_ne_nil (by decide) hn
    chunksFit    := by
      rw [package, List.length_map]
      exact length_pieces_le hm
    fileName     := hf
    mediaType    := ht
    chunks       := fun c hc => by
      rw [package, List.zipIdx_map] at hc
      obtain ⟨piece, hp, rfl⟩ := List.mem_map.mp hc
      have ⟨hp, hi⟩ := mem_pieces_of_mem_zipIdx hp
      simp only [package, Prod.map_fst, Prod.map_snd, hi, id_eq, List.length_map]
      exact isChunk_sealed gcm (isPiece_of_mem_pieces hp)
    originalSize := by
      rw [package, hs]
      simp only [pieces]
      rw [plaintextSize_sealed gcm (List.isChunked_chunks (by decide) plaintext),
        List.flatten_chunks (by decide)] }

end Attachment

namespace AttachmentJob

open Attachment

variable {aead : Aead} {job : AttachmentJob} {nonces : Nat → ByteBlock 12} {plaintext : Bytes}

-- The next piece of the file is taken, and sealed.
theorem append_eq (gcm : aead.IsGcm) (nonces : Nat → ByteBlock 12) {piece : Bytes × Nat} {count : Nat} (h : IsPiece count piece)
    (hi : job.nextIndex = .ofNat piece.snd) (hl : job.received + piece.fst.length ≤ job.total)
    (hf : job.received + piece.fst.length < job.total → piece.snd + 1 < count)
    (hc : piece.snd + 1 < 2 ^ 32) :
    job.append aead (.ofNat piece.snd) piece.fst (some (nonces piece.snd)) = .ok { job with
      blob      := job.blob ++ sealedChunk aead job.key (.ofNat job.total) nonces piece
      chunks    := job.chunks ++ [sealedDescriptor aead job.key (.ofNat job.total) nonces piece]
      received  := job.received + piece.fst.length
      nextIndex := .ofNat (piece.snd + 1) } := by
  have hs : (UInt32.ofNat piece.snd).saturatingAdd 1 = .ofNat (piece.snd + 1) := by
    have hm : (UInt32.ofNat piece.snd).toNat = piece.snd := by
      rw [UInt32.toNat_ofNat', Nat.mod_eq_of_lt (by omega)]
    rw [UInt32.saturatingAdd, hm, show (1 : UInt32).toNat = 1 from rfl, Nat.min_eq_left (by omega)]
  have hn : piece.fst.isEmpty = false := by
    have := h.nonempty
    cases hp : piece.fst <;> simp_all
  have h₁ : ¬(UInt32.ofNat piece.snd ≠ job.nextIndex ∨ piece.fst.isEmpty ∨
      piece.fst.length > standardChunkSize) := by
    simp [hi, hn, h.fits]
  have h₂ : ¬(job.received + piece.fst.length > job.total ∨
      job.received + piece.fst.length < job.total ∧ piece.fst.length ≠ standardChunkSize) := by
    rintro (hg | ⟨hg, hne⟩)
    case inl => omega
    case inr => exact hne <| h.full <| hf hg
  rw [append, if_neg h₁, if_neg h₂]
  simp only [encrypt_piece gcm h, hi, hs]
  rfl

theorem appendAll_eq (gcm : aead.IsGcm) {chunks : List Bytes} {first : Nat}
    (h : chunks.IsChunked standardChunkSize) (hi : job.nextIndex = .ofNat first)
    (hr : job.received + chunks.flatten.length = job.total) (hc : first + chunks.length < 2 ^ 32) :
    job.appendAll aead (fun i => some (nonces i)) (chunks.zipIdx first) = .ok { job with
      blob      := job.blob ++ ((chunks.zipIdx first).map <|
        sealedChunk aead job.key (.ofNat job.total) nonces).flatten
      chunks    := job.chunks ++ (chunks.zipIdx first).map
        (sealedDescriptor aead job.key (.ofNat job.total) nonces)
      received  := job.total
      nextIndex := .ofNat (first + chunks.length) } := by
  induction chunks generalizing first job
  case nil =>
    obtain ⟨_, _, total, nextIndex, received⟩ := job
    cases (show nextIndex = .ofNat first from hi)
    cases (show received = total by simpa using hr)
    simp [appendAll, pure, Except.pure]
  case cons chunk chunks hind =>
    have hp := isPiece_of_mem_zipIdx h (List.mem_cons_self (a := (chunk, first)))
    rw [List.flatten_cons, List.length_append] at hr
    rw [List.length_cons] at hc hp
    have ha := append_eq gcm nonces hp hi (by simp; omega) (fun hlt => by
      have hne : chunks ≠ [] := by rintro rfl; simp at hlt hr; omega
      have := List.length_pos_of_ne_nil hne
      simp only
      omega) (by simp only; omega)
    rw [appendAll, List.zipIdx_cons, List.foldlM_cons]
    refine Except.bind_eq_ok.mpr ⟨_, ha, ?_⟩
    refine (hind h.tail rfl (by simp only; omega) (by omega)).trans ?_
    simp only [List.map_cons, List.flatten_cons, List.append_assoc, List.singleton_append,
      List.length_cons, Nat.add_right_comm first, Nat.add_assoc]

-- A job that is fed the whole file in chunks makes the same package.
theorem finish_eq_package (gcm : aead.IsGcm) (key : ByteBlock 32) (nonces : Nat → ByteBlock 12)
    {blobId : String} {fileName mediaType name type : Option String} (hb : validBlobId blobId)
    (hn : plaintext ≠ []) (hm : plaintext.length ≤ maxAttachmentBytes)
    (hf : sanitizeFileName fileName = .ok name) (ht : sanitizeMediaType mediaType = .ok type) :
    ∃ job job', startWithMetadata blobId plaintext.length fileName mediaType (some key) = .ok job ∧
      job.appendAll aead (fun i => some (nonces i)) (pieces plaintext) = .ok job' ∧
      job'.finish = .ok (package aead key nonces plaintext blobId name type) := by
  have hl := List.length_pos_of_ne_nil hn
  have hc := length_pieces_le hm
  rw [pieces, List.length_zipIdx] at hc
  refine ⟨⟨blobId, key, plaintext.length, 0, 0, [], [], name, type⟩, _, ?_,
    appendAll_eq gcm (List.isChunked_chunks (by decide) plaintext) rfl ?_ ?_, ?_⟩
  case refine_1 => simp [startWithMetadata, hb, hl.ne', hf, ht, hm, bind, Except.bind]
  case refine_2 => simp [List.flatten_chunks (show 0 < standardChunkSize by decide)]
  case refine_3 => exact (Nat.zero_add _).trans_lt <| hc.trans_lt (by decide)
  case refine_4 =>
    have hs := length_blob gcm key nonces plaintext blobId name type
    have hne : (package aead key nonces plaintext blobId name type).blob ≠ [] :=
      List.ne_nil_of_length_pos <| by omega
    rw [finish, if_neg]
    case hnc =>
      rintro (h | h)
      case inl => exact h rfl
      case inr => exact hne <| List.isEmpty_iff.mp h
    rfl

end AttachmentJob
