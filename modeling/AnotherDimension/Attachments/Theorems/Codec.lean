import AnotherDimension.Attachments.Theorems.Seal

-- A blob is decrypted at once exactly as it is decrypted chunk by chunk.

open AttachmentDescriptor

namespace Attachment

variable {aead : Aead} {descriptor : AttachmentDescriptor} {chunk : AttachmentChunkDescriptor}
  {piece part blob plaintext : Bytes} {i : Nat}

def sizes (chunks : List AttachmentChunkDescriptor) : List Nat :=
  chunks.map (·.ciphertextSize.toNat)

-- A chunk of the manifest that is put together from a descriptor and a blob.
def cutChunk (chunk : AttachmentChunkDescriptor) (piece : Bytes) : AttachmentChunk where
  index      := chunk.index
  nonce      := chunk.nonce
  ciphertext := Bytes.toHex piece

-- The chunk of a valid descriptor at a position.
structure ChunkAt (descriptor : AttachmentDescriptor) (i : Nat)
    (chunk : AttachmentChunkDescriptor) : Prop where
  found   : descriptor.chunks[i]? = some chunk
  isChunk : chunk.IsChunk descriptor.chunks.length i
  small   : i < 2 ^ 32

theorem chunkAt_of_isLayout (h : descriptor.IsLayout) :
    ∀ c ∈ descriptor.chunks.zipIdx, ChunkAt descriptor c.snd c.fst := by
  intro c hc
  have hx := List.mem_zipIdx_iff_getElem?.mp hc
  refine ⟨hx, h.chunks c hc, ?_⟩
  have hl := (List.getElem?_eq_some_iff.mp hx).choose
  exact hl.trans <| h.chunksFit.trans_lt (by decide)

-- What either way of decrypting a chunk comes down to.
def openChunk (aead : Aead) (descriptor : AttachmentDescriptor) (chunk : AttachmentChunkDescriptor)
    (piece : Bytes) : Except AttachmentError Bytes :=
  match decodeNonce chunk.nonce with
  | none       => .error .invalidChunk
  | some nonce =>
    match aead.decrypt descriptor.key nonce (aad chunk.index descriptor.originalSize) piece with
    | none           => .error .authenticationFailed
    | some plaintext => .ok plaintext

theorem decryptBlobChunk_eq (h : descriptor.IsLayout) (hc : ChunkAt descriptor i chunk)
    (hl : piece.length = chunk.ciphertextSize.toNat) :
    decryptBlobChunk aead descriptor (.ofNat i) piece = openChunk aead descriptor chunk piece := by
  have hi : (UInt32.ofNat i).toNat = i := by
    rw [UInt32.toNat_ofNat', Nat.mod_eq_of_lt hc.small]
  have ht := hc.isChunk.tag
  have hf := hc.isChunk.fits
  have hg : ¬(chunk.index ≠ .ofNat i ∨ chunk.ciphertextSize.toNat ≠ piece.length ∨
      piece.length < 16 ∨ piece.length > standardChunkSize + 16) := by
    simp only [hc.isChunk.index]
    simp
    omega
  rw [decryptBlobChunk, validate_eq_ok_iff.mpr h]
  simp only [bind, Except.bind, hi, hc.found]
  refine (if_neg hg).trans ?_
  rw [openChunk, hc.isChunk.index] <;> rfl

section Gcm

variable (gcm : aead.IsGcm)
include gcm

-- The tag is all that is lost.
theorem length_of_openChunk (h : openChunk aead descriptor chunk piece = .ok part) :
    piece.length = part.length + 16 := by
  unfold openChunk at h
  split at h
  case h_1 => cases h
  split at h
  case h_1   => cases h
  case h_2 hd =>
    cases h
    exact gcm.length_decrypt hd

-- The checks of the plaintext's length repeat those of the descriptor.
theorem decryptChunk_eq (hc : ChunkAt descriptor i chunk)
    (hl : piece.length = chunk.ciphertextSize.toNat) :
    decryptChunk aead descriptor.key descriptor.originalSize descriptor.chunks.length
      (cutChunk chunk piece, i) = openChunk aead descriptor chunk piece := by
  have ht := hc.isChunk.tag
  have hf := hc.isChunk.fits
  have hp : piece ≠ [] := List.ne_nil_of_length_pos <| by omega
  obtain ⟨nonce, hn⟩ := Option.isSome_iff_exists.mp hc.isChunk.nonce
  have hg : ¬(piece.length < 16 ∨ piece.length > standardChunkSize + 16) := by omega
  rw [openChunk, hn]
  simp only [decryptChunk, cutChunk, hc.isChunk.index, hn, decodeHex_toHex hp,
    ne_eq, not_true_eq_false, if_false, if_neg hg]
  cases hd : aead.decrypt descriptor.key nonce (aad (.ofNat i) descriptor.originalSize) piece
  case none      => rfl
  case some part =>
    have hs := gcm.length_decrypt hd
    have hu : ¬(part.length > standardChunkSize ∨ i + 1 < descriptor.chunks.length ∧
        part.length ≠ standardChunkSize) := by
      rintro (h | ⟨h, hne⟩)
      case inl => omega
      case inr =>
        have := hc.isChunk.full h
        omega
    exact if_neg hu

theorem mapM_decryptChunk (hl : descriptor.IsLayout) {chunks : List AttachmentChunkDescriptor}
    {ps : List Bytes} {first : Nat} (hs : ps.map List.length = sizes chunks)
    (hc : ∀ c ∈ chunks.zipIdx first, ChunkAt descriptor c.snd c.fst) :
    ((List.zipWith cutChunk chunks ps).zipIdx first).mapM
        (decryptChunk aead descriptor.key descriptor.originalSize descriptor.chunks.length) =
      (ps.zipIdx first).mapM fun p => decryptBlobChunk aead descriptor (.ofNat p.snd) p.fst := by
  induction chunks generalizing ps first
  case nil =>
    cases List.map_eq_nil_iff.mp hs
    rfl
  case cons chunk chunks hi =>
    obtain ⟨p, ps, rfl, hp, hs⟩ := List.map_eq_cons_iff.mp hs
    have ⟨hx, hc⟩ := List.forall_mem_cons.mp (List.zipIdx_cons ▸ hc)
    simp only [List.zipWith_cons_cons, List.zipIdx_cons, List.mapM_cons, decryptChunk_eq gcm hx hp,
      decryptBlobChunk_eq hl hx hp, hi hs hc]

theorem length_parts (hl : descriptor.IsLayout) {chunks : List AttachmentChunkDescriptor}
    {ps parts : List Bytes} {first : Nat} (hs : ps.map List.length = sizes chunks)
    (hc : ∀ c ∈ chunks.zipIdx first, ChunkAt descriptor c.snd c.fst)
    (h : (ps.zipIdx first).mapM (fun p => decryptBlobChunk aead descriptor (.ofNat p.snd) p.fst) =
      .ok parts) : parts.flatten.length = plaintextSize chunks := by
  induction chunks generalizing ps parts first
  case nil =>
    cases List.map_eq_nil_iff.mp hs
    cases h
    rfl
  case cons chunk chunks hi =>
    obtain ⟨p, ps, rfl, hp, hs⟩ := List.map_eq_cons_iff.mp hs
    have ⟨hx, hc⟩ := List.forall_mem_cons.mp (List.zipIdx_cons ▸ hc)
    rw [List.zipIdx_cons, List.mapM_cons] at h
    obtain ⟨part, hpart, h⟩ := Except.bind_eq_ok.mp h
    obtain ⟨parts, hparts, h⟩ := Except.bind_eq_ok.mp h
    cases h
    rw [decryptBlobChunk_eq hl hx hp] at hpart
    have hp : p.length = chunk.ciphertextSize.toNat := hp
    have := length_of_openChunk gcm hpart
    rw [List.flatten_cons, List.length_append, hi hs hc hparts, plaintextSize_cons]
    omega

end Gcm

-- Cutting fails only where the blob ends too early.
theorem splitBlob_eq {chunks : List AttachmentChunkDescriptor} {first offset : Nat}
    (hc : ∀ c ∈ chunks.zipIdx first, ChunkAt descriptor c.snd c.fst) (ho : offset ≤ blob.length)
    (hs : offset + (sizes chunks).sum < 2 ^ 64) :
    splitBlob blob first offset chunks =
      if offset + (sizes chunks).sum ≤ blob.length then
        .ok (List.zipWith cutChunk chunks (List.slices (sizes chunks) (blob.drop offset)),
          offset + (sizes chunks).sum)
      else
        .error .invalidChunk := by
  induction chunks generalizing first offset
  case nil => simp [splitBlob, sizes, ho]
  case cons chunk chunks hi =>
    have ⟨hx, hc⟩ := List.forall_mem_cons.mp (List.zipIdx_cons ▸ hc)
    have hx : ChunkAt descriptor first chunk := hx
    have ht := hx.isChunk.tag
    have hf := hx.isChunk.fits
    have hsum : (sizes (chunk :: chunks)).sum =
      chunk.ciphertextSize.toNat + (sizes chunks).sum := List.sum_cons
    rw [hsum, ← Nat.add_assoc] at hs ⊢
    have hg : ¬(chunk.index ≠ .ofNat first ∨ chunk.ciphertextSize < 16 ∨
        chunk.ciphertextSize.toNat > standardChunkSize + 16 ∨
        offset + chunk.ciphertextSize.toNat ≥ 2 ^ 64) := by
      rw [UInt32.lt_iff_toNat_lt, show (16 : UInt32).toNat = 16 from rfl]
      rintro (h | h | h | h)
      case inl => exact h hx.isChunk.index
      all_goals omega
    rw [splitBlob, if_neg hg]
    by_cases hb : offset + chunk.ciphertextSize.toNat > blob.length
    case pos => rw [if_pos hb, if_neg (by omega)]
    case neg =>
      rw [if_neg hb, hi hc (Nat.not_lt.mp hb) hs]
      split_ifs
      case pos => simp [sizes, List.slices, cutChunk, bind, Except.bind, pure, Except.pure]
      case neg => rfl

theorem sum_sizes {chunks : List AttachmentChunkDescriptor} {first : Nat}
    (hc : ∀ c ∈ chunks.zipIdx first, ChunkAt descriptor c.snd c.fst) :
    (sizes chunks).sum = plaintextSize chunks + 16 * chunks.length := by
  induction chunks generalizing first
  case nil => rfl
  case cons chunk chunks hi =>
    have ⟨hx, hc⟩ := List.forall_mem_cons.mp (List.zipIdx_cons ▸ hc)
    have ht : 16 ≤ chunk.ciphertextSize.toNat := hx.isChunk.tag
    have hs := hi hc
    rw [plaintextSize_cons, List.length_cons, sizes, List.map_cons, List.sum_cons, ← sizes, hs]
    omega

theorem isLayout_of_decryptBlobChunk {index : UInt32}
    (h : decryptBlobChunk aead descriptor index piece = .ok part) : descriptor.IsLayout := by
  have ⟨_, hv, _⟩ := Except.bind_eq_ok.mp h
  exact validate_eq_ok_iff.mp hv

theorem isLayout_of_decryptBlob (h : decryptBlob aead descriptor blob = .ok plaintext) :
    descriptor.IsLayout := by
  have ⟨_, hv, _⟩ := Except.bind_eq_ok.mp h
  exact validate_eq_ok_iff.mp hv

theorem decryptBlob_of_isLayout (gcm : aead.IsGcm) (h : descriptor.IsLayout) :
    decryptBlob aead descriptor blob = .ok plaintext ↔
      (sizes descriptor.chunks).sum = blob.length ∧
      ∃ parts, ((List.slices (sizes descriptor.chunks) blob).zipIdx.mapM fun p =>
        decryptBlobChunk aead descriptor (.ofNat p.snd) p.fst) = .ok parts ∧
        plaintext = parts.flatten := by
  have hc := chunkAt_of_isLayout h
  have hs := sum_sizes hc
  have hlt : 0 + (sizes descriptor.chunks).sum < 2 ^ 64 := by
    have hf := h.fits
    have hn := h.chunksFit
    have hm : maxChunks = 512 := by decide
    rw [h.originalSize, maxAttachmentBytes] at hf
    omega
  rw [decryptBlob, validate_eq_ok_iff.mpr h]
  simp only [bind, Except.bind, splitBlob_eq hc (Nat.zero_le _) hlt, Nat.zero_add, List.drop_zero]
  by_cases hb : (sizes descriptor.chunks).sum = blob.length
  case neg =>
    refine ⟨fun he => ?_, fun he => absurd he.left hb⟩
    by_cases hle : (sizes descriptor.chunks).sum ≤ blob.length
    case pos => simp [hle, hb] at he
    case neg => simp [hle] at he
  case pos =>
    have hl := List.map_length_slices hb.le
    have hz : (List.zipWith cutChunk descriptor.chunks
        (List.slices (sizes descriptor.chunks) blob)).length = descriptor.chunks.length := by
      rw [List.length_zipWith, List.length_slices, sizes, List.length_map, Nat.min_self]
    have hg : ¬(descriptor.version ≠ attachmentVersion ∨
        descriptor.chunkSize.toNat ≠ standardChunkSize ∨ descriptor.originalSize = 0 ∨
        descriptor.originalSize.toNat > maxAttachmentBytes ∨
        (List.zipWith cutChunk descriptor.chunks
          (List.slices (sizes descriptor.chunks) blob)).isEmpty) := by
      have hne := List.length_pos_of_ne_nil h.someChunk
      have he := List.ne_nil_of_length_pos (hz.symm ▸ hne)
      simp only [h.version, h.chunkSize, h.nonempty, List.isEmpty_iff, he, ne_eq,
        not_true_eq_false, false_or, or_false, Nat.not_lt]
      exact h.fits
    rw [if_pos hb.le, and_iff_right hb]
    simp only [ne_eq, hb, not_true_eq_false, if_false, decrypt]
    rw [if_neg hg, hz, if_neg (Nat.not_lt.mpr h.chunksFit), mapM_decryptChunk gcm h hl hc,
      Except.bind_eq_ok]
    refine exists_congr fun parts => and_congr_right fun hp => ?_
    rw [if_neg, Except.ok.injEq, eq_comm]
    rw [h.originalSize, length_parts gcm h hl hc hp]
    exact fun h => h rfl

-- A blob whose descriptor has chunks is decrypted exactly when it falls into pieces that are.
theorem decryptBlob_eq_ok_iff (gcm : aead.IsGcm) (hn : descriptor.chunks ≠ []) :
    decryptBlob aead descriptor blob = .ok plaintext ↔
      ∃ ps parts : List Bytes, ps.map List.length = sizes descriptor.chunks ∧ ps.flatten = blob ∧
        (ps.zipIdx.mapM fun p => decryptBlobChunk aead descriptor (.ofNat p.snd) p.fst) =
          .ok parts ∧ plaintext = parts.flatten := by
  constructor
  case mp =>
    intro h
    have hl := isLayout_of_decryptBlob h
    have ⟨hs, parts, hp, hf⟩ := (decryptBlob_of_isLayout gcm hl).mp h
    exact ⟨_, parts, List.map_length_slices hs.le, List.flatten_slices hs, hp, hf⟩
  case mpr =>
    intro ⟨ps, parts, hm, hb, hp, hf⟩
    have hl : descriptor.IsLayout := by
      obtain ⟨p, ps, rfl⟩ : ∃ p rest, ps = p :: rest := by
        refine List.exists_cons_of_ne_nil fun he => hn ?_
        rw [he] at hm
        exact List.map_eq_nil_iff.mp hm.symm
      rw [List.zipIdx_cons, List.mapM_cons] at hp
      have ⟨_, hp, _⟩ := Except.bind_eq_ok.mp hp
      exact isLayout_of_decryptBlobChunk hp
    refine (decryptBlob_of_isLayout gcm hl).mpr ⟨?_, parts, ?_, hf⟩
    case refine_1 => rw [← hm, ← hb, List.length_flatten]
    case refine_2 => rwa [← hm, ← hb, List.slices_flatten]

section Package

variable {key : ByteBlock 32} {nonces : Nat → ByteBlock 12} {blobId : String}
  {fileName mediaType : Option String}

theorem mem_zipIdx_of_mem_pieces {α : Type} (f : Bytes × Nat → α) {p : Bytes × Nat}
    (h : p ∈ pieces plaintext) : (f p, p.snd) ∈ ((pieces plaintext).map f).zipIdx := by
  have hx := List.mem_zipIdx_iff_getElem?.mp h
  rw [List.mem_zipIdx_iff_getElem?, List.getElem?_map, pieces, List.getElem?_zipIdx, hx]
  simp

theorem decryptBlobChunk_sealed (gcm : aead.IsGcm) {p : Bytes × Nat} (hp : p ∈ pieces plaintext)
    (hl : (package aead key nonces plaintext blobId fileName mediaType).descriptor.IsLayout) :
    decryptBlobChunk aead (package aead key nonces plaintext blobId fileName mediaType).descriptor
      (.ofNat p.snd) (sealedChunk aead key (.ofNat plaintext.length) nonces p) = .ok p.fst := by
  have hi := isPiece_of_mem_pieces hp
  have hc := chunkAt_of_isLayout hl _ <|
    mem_zipIdx_of_mem_pieces (sealedDescriptor aead key (.ofNat plaintext.length) nonces) hp
  rw [decryptBlobChunk_eq hl hc <|
    (length_sealedChunk gcm hi).trans (toNat_ciphertextSize gcm hi).symm]
  simp only [openChunk, sealedDescriptor, decodeNonce_toHex, package,
    aead.decrypt_encrypt (encrypt_piece gcm hi)]

theorem decryptBlob_package (gcm : aead.IsGcm)
    (hl : (package aead key nonces plaintext blobId fileName mediaType).descriptor.IsLayout) :
    decryptBlob aead (package aead key nonces plaintext blobId fileName mediaType).descriptor
      (package aead key nonces plaintext blobId fileName mediaType).blob = .ok plaintext := by
  refine (decryptBlob_eq_ok_iff gcm hl.someChunk).mpr
    ⟨_, plaintext.chunks standardChunkSize, ?_, rfl, ?_, (List.flatten_chunks (by decide) _).symm⟩
  case refine_1 =>
    simp only [sizes, package, List.map_map]
    refine List.map_congr_left fun p hp => ?_
    have hi := isPiece_of_mem_pieces hp
    exact (length_sealedChunk gcm hi).trans (toNat_ciphertextSize gcm hi).symm
  case refine_2 =>
    have hf : (pieces plaintext).zipIdx.map (fun p => p.fst.fst) =
        plaintext.chunks standardChunkSize := by
      rw [show (fun p : (Bytes × Nat) × Nat => p.fst.fst) = Prod.fst ∘ Prod.fst from rfl,
        ← List.map_map, List.zipIdx_map_fst, pieces, List.zipIdx_map_fst]
    rw [List.zipIdx_map, List.mapM_map, ← hf]
    refine Except.mapM_eq_ok_map fun p hp => ?_
    obtain ⟨hp, hi⟩ := mem_pieces_of_mem_zipIdx hp
    simp only [Function.comp, Prod.map_fst, Prod.map_snd, hi, id_eq]
    exact decryptBlobChunk_sealed gcm hp hl

end Package

-- Feeding a file to a job gives the package that encrypting it at once gives, up to the metadata; the
-- package is valid and decrypts to the file. Any blob is decrypted at once exactly when it falls into
-- pieces that are decrypted one by one.
theorem codec_agrees (gcm : aead.IsGcm) :
    (∀ (key : ByteBlock 32) (nonces : Nat → ByteBlock 12) (plaintext : Bytes) (blobId : String)
      (fileName mediaType name type : Option String),
      1 ≤ plaintext.length → plaintext.length ≤ 32 * 1024 * 1024 → validBlobId blobId →
      sanitizeFileName fileName = .ok name → sanitizeMediaType mediaType = .ok type →
      ∃ job job' streamed whole,
        AttachmentJob.startWithMetadata blobId plaintext.length fileName mediaType (some key) =
          .ok job ∧
        job.appendAll aead (fun i => some (nonces i)) (plaintext.chunks standardChunkSize).zipIdx =
          .ok job' ∧
        job'.finish = .ok streamed ∧
        encryptForBlob aead plaintext key blobId (fun i => some (nonces i)) = .ok whole ∧
        streamed = { whole with
          descriptor := { whole.descriptor with fileName := name, mediaType := type } } ∧
        streamed.descriptor.validate = .ok () ∧ whole.descriptor.validate = .ok () ∧
        decryptBlob aead streamed.descriptor streamed.blob = .ok plaintext ∧
        decryptBlob aead whole.descriptor whole.blob = .ok plaintext) ∧
    ∀ (descriptor : AttachmentDescriptor) (blob plaintext : Bytes), descriptor.chunks ≠ [] →
      (decryptBlob aead descriptor blob = .ok plaintext ↔
        ∃ ps parts : List Bytes,
          ps.map List.length = descriptor.chunks.map (·.ciphertextSize.toNat) ∧ ps.flatten = blob ∧
          (ps.zipIdx.mapM fun p => decryptBlobChunk aead descriptor (.ofNat p.snd) p.fst) =
            .ok parts ∧ plaintext = parts.flatten) := by
  refine ⟨?_, fun _ _ _ hn => decryptBlob_eq_ok_iff gcm hn⟩
  intro key nonces plaintext blobId fileName mediaType name type hl hm hb hf ht
  have hn := List.ne_nil_of_length_pos hl
  have ⟨job, job', hs, ha, hfin⟩ := AttachmentJob.finish_eq_package gcm key nonces hb hn hm hf ht
  have hwhole : (package aead key nonces plaintext blobId none none).descriptor.IsLayout :=
    package_isLayout gcm hb hn hm rfl rfl
  have hstreamed : (package aead key nonces plaintext blobId name type).descriptor.IsLayout :=
    package_isLayout gcm hb hn hm (sanitizeFileName_idem hf) (sanitizeMediaType_idem ht)
  exact ⟨job, job', _, _, hs, ha, hfin, encryptForBlob_eq_package gcm hb hn hm, rfl,
    validate_eq_ok_iff.mpr hstreamed, validate_eq_ok_iff.mpr hwhole,
    decryptBlob_package gcm hstreamed, decryptBlob_package gcm hwhole⟩

-- A descriptor without chunks is not valid, although there is no chunk that fails.
theorem noChunks_not_decrypted :
    let descriptor : AttachmentDescriptor :=
      { version := 1, blobId := "01234567890123456789012345678901",
        key := ⟨.replicate 32 0, List.length_replicate⟩, chunkSize := 65536, originalSize := 1,
        chunks := [], fileName := none, mediaType := none }
    (∃ ps parts : List Bytes,
      ps.map List.length = descriptor.chunks.map (·.ciphertextSize.toNat) ∧ ps.flatten = [] ∧
      (ps.zipIdx.mapM fun p => decryptBlobChunk .sample descriptor (.ofNat p.snd) p.fst) =
        .ok parts) ∧
    decryptBlob .sample descriptor [] = .error .invalidManifest :=
  ⟨⟨[], [], rfl, rfl, rfl⟩, rfl⟩

theorem codec_agrees_sample :
    ∃ streamed : EncryptedAttachment,
      encryptForBlob .sample [7] ⟨.replicate 32 1, List.length_replicate⟩
        "01234567890123456789012345678901" (fun _ => some ⟨.replicate 12 2, List.length_replicate⟩) =
        .ok streamed ∧
      decryptBlob .sample streamed.descriptor streamed.blob = .ok [7] :=
  have ⟨_, _, _, whole, _, _, _, hw, _, _, _, _, hd⟩ := (codec_agrees Aead.sample_isGcm).left
    ⟨.replicate 32 1, List.length_replicate⟩ (fun _ => ⟨.replicate 12 2, List.length_replicate⟩) [7]
    "01234567890123456789012345678901" none none none none (by decide) (by decide) (by decide) rfl rfl
  ⟨whole, hw, hd⟩

end Attachment
