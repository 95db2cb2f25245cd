import AnotherDimension.Library.Fallible
import AnotherDimension.Attachments.Codec

-- The layout a valid descriptor has.

open AttachmentDescriptor

namespace Attachment

theorem decodeHex_toHex {bytes : Bytes} (h : bytes ≠ []) :
    decodeHex (Bytes.toHex bytes) = some bytes := by
  have he : (Bytes.toHex bytes).isEmpty = false := by
    have hl := Bytes.utf8ByteSize_toHex bytes
    have := List.length_pos_of_ne_nil h
    rw [String.isEmpty_eq_false_iff]
    intro he
    rw [he, String.utf8ByteSize_empty] at hl
    omega
  rw [decodeHex, he, Bytes.fromHex_toHex]
  rfl

theorem decodeNonce_toHex (nonce : ByteBlock 12) :
    decodeNonce (Bytes.toHex nonce.val) = some nonce := by
  have hn : nonce.val ≠ [] := List.ne_nil_of_length_pos <| by rw [nonce.property]; decide
  simp [decodeNonce, decodeHex_toHex hn, nonce.property]

-- The check of `validate_descriptor`, in which no digits at all need no case of their own.
theorem isSome_decodeNonce (value : String) :
    (decodeNonce value).isSome ↔ ¬(Bytes.fromHex value).all (·.length ≠ 12) := by
  by_cases he : value = ""
  case pos => rw [he]; decide
  case neg =>
    have he : value.isEmpty = false := by simpa using he
    rw [decodeNonce, decodeHex, he]
    match Bytes.fromHex value with
    | none       => simp
    | some bytes => by_cases hl : bytes.length = 12 <;> simp [hl]

end Attachment

-- What is checked of the chunk at a position.
structure AttachmentChunkDescriptor.IsChunk (count expected : Nat)
    (chunk : AttachmentChunkDescriptor) : Prop where
  index : chunk.index = .ofNat expected
  tag   : 16 ≤ chunk.ciphertextSize.toNat
  fits  : chunk.ciphertextSize.toNat ≤ standardChunkSize + 16
  nonce : (Attachment.decodeNonce chunk.nonce).isSome
  full  : expected + 1 < count → chunk.ciphertextSize.toNat = standardChunkSize + 16

namespace AttachmentDescriptor

variable {descriptor : AttachmentDescriptor} {count expected : Nat}
  {chunk : AttachmentChunkDescriptor} {chunks : List AttachmentChunkDescriptor}

def plaintextSize (chunks : List AttachmentChunkDescriptor) : Nat :=
  (chunks.map fun chunk => chunk.ciphertextSize.toNat - 16).sum

theorem plaintextSize_cons (chunk : AttachmentChunkDescriptor)
    (chunks : List AttachmentChunkDescriptor) :
    plaintextSize (chunk :: chunks) = chunk.ciphertextSize.toNat - 16 + plaintextSize chunks :=
  List.sum_cons

theorem validateChunks_eq_ok_iff {size total : UInt64} :
    validateChunks count expected size chunks = .ok total ↔
      (∀ c ∈ chunks.zipIdx expected, c.fst.IsChunk count c.snd) ∧
        total.toNat = size.toNat + plaintextSize chunks := by
  induction chunks generalizing expected size
  case nil => simp [validateChunks, plaintextSize, ← UInt64.toNat_inj, eq_comm]
  case cons chunk chunks hi =>
    rw [validateChunks, List.zipIdx_cons, List.forall_mem_cons, plaintextSize_cons]
    split
    case isTrue hc =>
      refine ⟨nofun, fun ⟨⟨h, _⟩, _⟩ => ?_⟩
      rcases hc with hx | ht | hf | hn
      case inl             => exact absurd h.index hx
      case inr.inl         => exact absurd h.tag <| Nat.not_le.mpr <| UInt32.lt_iff_toNat_lt.mp ht
      case inr.inr.inl     => exact absurd h.fits <| Nat.not_le.mpr hf
      case inr.inr.inr     => exact absurd hn <| (Attachment.isSome_decodeNonce _).mp h.nonce
    case isFalse hc =>
      simp only [not_or, not_not, UInt32.not_lt, Nat.not_lt, UInt32.le_iff_toNat_le] at hc
      obtain ⟨hx, ht, hf, hn⟩ := hc
      have hs : (chunk.ciphertextSize - 16).toUInt64.toNat = chunk.ciphertextSize.toNat - 16 := by
        rw [UInt32.toNat_toUInt64, UInt32.toNat_sub_of_le _ _ (UInt32.le_iff_toNat_le.mpr ht)]
        rfl
      have ht : 16 ≤ chunk.ciphertextSize.toNat := ht
      have isChunk (h : ¬(expected + 1 < count ∧
          chunk.ciphertextSize.toNat ≠ standardChunkSize + 16)) : chunk.IsChunk count expected :=
        ⟨hx, ht, hf, (Attachment.isSome_decodeNonce _).mpr hn, fun hl => by_contra fun he => h ⟨hl, he⟩⟩
      split
      case h_1 ho =>
        refine ⟨nofun, fun ⟨_, he⟩ => ?_⟩
        have := total.toNat_lt
        simp only [UInt64.checkedAdd, hs, ite_eq_right_iff, reduceCtorEq, imp_false] at ho
        omega
      case h_2 size' ho =>
        have ho := UInt64.toNat_of_checkedAdd ho
        split
        case isTrue h => exact ⟨nofun, fun ⟨⟨hc, _⟩, _⟩ => absurd (hc.full h.left) h.right⟩
        case isFalse h => rw [hi, ho, hs, and_iff_right (isChunk h), Nat.add_assoc]

-- What was accepted once is accepted again.
theorem sanitizeFileName_idem {value name : Option String} (h : sanitizeFileName value = .ok name) :
    (sanitizeFileName name).isOk := by
  unfold sanitizeFileName at h
  split at h
  case h_1 => cases h; rfl
  case h_2 value hv =>
    split_ifs at h with hc
    cases h
    have he := (Option.filter_eq_some_iff.mp hv).right
    have hv : (some value).filter (!·.isEmpty) = some value := by simp [Option.filter, he]
    simp only [sanitizeFileName, hv, if_neg hc]
    rfl

theorem sanitizeMediaType_idem {value type : Option String}
    (h : sanitizeMediaType value = .ok type) : (sanitizeMediaType type).isOk := by
  unfold sanitizeMediaType at h
  split at h
  case h_1 => cases h; rfl
  case h_2 value hv =>
    split_ifs at h with hc
    cases h
    have he := (Option.filter_eq_some_iff.mp hv).right
    have hv : (some value).filter (!·.isEmpty) = some value := by simp [Option.filter, he]
    simp only [sanitizeMediaType, hv, if_neg hc]
    rfl

structure IsLayout (descriptor : AttachmentDescriptor) : Prop where
  blobId       : validBlobId descriptor.blobId
  version      : descriptor.version = attachmentVersion
  chunkSize    : descriptor.chunkSize.toNat = standardChunkSize
  nonempty     : descriptor.originalSize ≠ 0
  fits         : descriptor.originalSize.toNat ≤ maxAttachmentBytes
  someChunk    : descriptor.chunks ≠ []
  chunksFit    : descriptor.chunks.length ≤ maxChunks
  fileName     : (sanitizeFileName descriptor.fileName).isOk
  mediaType    : (sanitizeMediaType descriptor.mediaType).isOk
  chunks       : ∀ c ∈ descriptor.chunks.zipIdx, c.fst.IsChunk descriptor.chunks.length c.snd
  originalSize : descriptor.originalSize.toNat = plaintextSize descriptor.chunks

theorem validate_eq_ok_iff : descriptor.validate = .ok () ↔ descriptor.IsLayout := by
  unfold validate
  split
  case isTrue h =>
    refine ⟨nofun, fun hl => ?_⟩
    simp [hl.blobId, hl.version, hl.chunkSize, hl.nonempty, hl.someChunk, Nat.not_lt.mpr hl.fits,
      Nat.not_lt.mpr hl.chunksFit] at h
  case isFalse h =>
    simp only [not_or, Bool.not_eq_true', Bool.not_eq_false, not_not, Nat.not_lt,
      List.isEmpty_iff] at h
    obtain ⟨hb, hv, hc, hz, hm, hn, hl⟩ := h
    simp only [Except.bind_eq_ok, validateChunks_eq_ok_iff, UInt64.toNat_zero, Nat.zero_add]
    constructor
    case mp =>
      intro ⟨name, hname, media, hmedia, size, ⟨hchunks, hsize⟩, he⟩
      refine ⟨hb, hv, hc, hz, hm, hn, hl, by rw [hname]; rfl, by rw [hmedia]; rfl, hchunks, ?_⟩
      split_ifs at he with hs
      exact not_not.mp hs ▸ hsize
    case mpr =>
      intro h
      obtain ⟨name, hname⟩ : ∃ name, sanitizeFileName descriptor.fileName = .ok name := by
        have := h.fileName
        match hs : sanitizeFileName descriptor.fileName with
        | .ok name => exact ⟨name, rfl⟩
        | .error _ => rw [hs] at this; cases this
      obtain ⟨media, hmedia⟩ : ∃ media, sanitizeMediaType descriptor.mediaType = .ok media := by
        have := h.mediaType
        match hs : sanitizeMediaType descriptor.mediaType with
        | .ok media => exact ⟨media, rfl⟩
        | .error _  => rw [hs] at this; cases this
      exact ⟨name, hname, media, hmedia, _, ⟨h.chunks, h.originalSize⟩, by simp⟩

end AttachmentDescriptor
