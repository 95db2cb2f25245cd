import AnotherDimension.Delivery.Envelope

-- When an envelope that was created can be read again.

namespace RelayEnvelope

variable {mailbox : String} {ciphertext : Bytes} {expiresAt now now' : UInt64}
  {padding : (n : Nat) → ByteBlock n} {id : ByteBlock 16} {envelope : RelayEnvelope}
  {fromStr : String → Option WireEnvelope}

-- The parameters a caller may choose freely.
structure IsRequest (mailbox : String) (ciphertext : Bytes) (expiresAt now : UInt64) : Prop where
  mailbox    : validateMailbox mailbox = .ok ()
  nonempty   : 1 ≤ ciphertext.length
  fits       : ciphertext.length ≤ 96 * 1024
  unexpired  : now < expiresAt
  withinWeek : expiresAt.toNat ≤ now.toNat + 7 * 24 * 60 * 60

-- The envelope `create` builds for them.
def created (mailbox : String) (ciphertext : Bytes) (expiresAt : UInt64)
    (padding : (n : Nat) → ByteBlock n) (id : ByteBlock 16) : RelayEnvelope where
  version    := currentVersion
  mailbox    := mailbox
  envelopeId := Bytes.toHex id.val
  expiresAt  := UInt64.ofNat (roundedExpiry expiresAt)
  ciphertext := ciphertext
  padding    := (padding (paddedLength ciphertext - ciphertext.length)).val

-- The last second that is at most a week away.
theorem toNat_weekAfter (now : UInt64) :
    (now.saturatingAdd maxEnvelopeTtlSeconds).toNat =
      min (now.toNat + 7 * 24 * 60 * 60) (2 ^ 64 - 1) := by
  have ht : maxEnvelopeTtlSeconds.toNat = 7 * 24 * 60 * 60 := by decide
  rw [UInt64.saturatingAdd, UInt64.saturatingOfNat, ht, UInt64.toNat_ofNat', Nat.mod_eq_of_lt]
  omega

theorem create_eq (h : IsRequest mailbox ciphertext expiresAt now) :
    create mailbox ciphertext expiresAt now (fun n => some (padding n)) (some id) =
      .ok (created mailbox ciphertext expiresAt padding id) := by
  have hn : ciphertext.isEmpty = false := by
    have := h.nonempty
    cases ciphertext <;> simp_all
  have hl : ¬ciphertext.length > maxCiphertextBytes := Nat.not_lt.mpr h.fits
  have hw : ¬(expiresAt ≤ now ∨ expiresAt > now.saturatingAdd maxEnvelopeTtlSeconds) := by
    have hu := UInt64.lt_iff_toNat_lt.mp h.unexpired
    have he := expiresAt.toNat_lt
    have := h.withinWeek
    rw [not_or, UInt64.not_le, gt_iff_lt, UInt64.not_lt, UInt64.lt_iff_toNat_lt,
      UInt64.le_iff_toNat_le, toNat_weekAfter]
    omega
  simp [create, h.mailbox, hn, hl, hw, created]

theorem ciphertext_le_paddedLength (ciphertext : Bytes) :
    ciphertext.length ≤ paddedLength ciphertext := by
  unfold paddedLength blockSize
  omega

theorem created_length (mailbox : String) (ciphertext : Bytes) (expiresAt : UInt64)
    (padding : (n : Nat) → ByteBlock n) (id : ByteBlock 16) :
    let envelope := created mailbox ciphertext expiresAt padding id
    envelope.ciphertext.length + envelope.padding.length = paddedLength ciphertext := by
  have hp := (padding (paddedLength ciphertext - ciphertext.length)).property
  have := ciphertext_le_paddedLength ciphertext
  simp only [created]
  omega

theorem paddedLength_le (h : ciphertext.length ≤ 96 * 1024) :
    paddedLength ciphertext ≤ maxCiphertextBytes := by
  unfold paddedLength maxCiphertextBytes blockSize
  omega

-- What reading an envelope checks about everything but the time.
structure WellFormed (envelope : RelayEnvelope) : Prop where
  version    : envelope.version = currentVersion
  mailbox    : validateMailbox envelope.mailbox = .ok ()
  idSize     : envelope.envelopeId.utf8ByteSize = 32
  idDigits   : ∀ c ∈ envelope.envelopeId.toList, (Bytes.hexValue c).isSome
  nonempty   : envelope.ciphertext ≠ []
  fits       : envelope.ciphertext.length ≤ maxCiphertextBytes
  paddedFits : envelope.ciphertext.length + envelope.padding.length ≤ maxCiphertextBytes + blockSize
  padded     : (envelope.ciphertext.length + envelope.padding.length) % blockSize = 0

theorem created_wellFormed (padding : (n : Nat) → ByteBlock n) (id : ByteBlock 16)
    (h : IsRequest mailbox ciphertext expiresAt now) :
    (created mailbox ciphertext expiresAt padding id).WellFormed where
  version    := rfl
  mailbox    := h.mailbox
  idSize     := by rw [created, Bytes.utf8ByteSize_toHex, id.property]
  idDigits   := fun _ hc => Bytes.isSome_hexValue_of_mem_toHex hc
  nonempty   := List.ne_nil_of_length_pos h.nonempty
  fits       := h.fits
  paddedFits := by
    have := paddedLength_le h.fits
    rw [created_length]
    omega
  padded     := by
    rw [created_length]
    exact Nat.mul_mod_left ..

theorem WellFormed.toWire_eq (h : envelope.WellFormed) :
    envelope.toWire = .ok envelope.wire.toJson := by
  simp [toWire, h.version, h.paddedFits]

-- The time checks are the only ones left.
theorem WellFormed.ofWire_eq_ok_iff (h : envelope.WellFormed) :
    ofWire envelope.wire now = .ok envelope ↔
      now < envelope.expiresAt ∧
        envelope.expiresAt ≤ now.saturatingAdd maxEnvelopeTtlSeconds := by
  have hd : envelope.envelopeId.toList.all (fun c => (Bytes.hexValue c).isSome) = true :=
    List.all_eq_true.mpr h.idDigits
  have hc : Bytes.fromHex envelope.wire.c = some envelope.ciphertext := Bytes.fromHex_toHex _
  have hp : Bytes.fromHex envelope.wire.p = some envelope.padding := Bytes.fromHex_toHex _
  have hs : ¬(envelope.ciphertext.isEmpty ∨ envelope.ciphertext.length > maxCiphertextBytes ∨
      envelope.ciphertext.length + envelope.padding.length > maxCiphertextBytes + blockSize) := by
    simp [h.nonempty, h.fits, h.paddedFits]
  unfold ofWire
  simp only [hc, hp, hs, h.padded, ↓reduceIte]
  by_cases ht : now < envelope.expiresAt ∧
      envelope.expiresAt ≤ now.saturatingAdd maxEnvelopeTtlSeconds
  case pos =>
    have hx : ¬envelope.expiresAt ≤ now := UInt64.not_le.mpr ht.left
    have hy : ¬now.saturatingAdd maxEnvelopeTtlSeconds < envelope.expiresAt :=
      UInt64.not_lt.mpr ht.right
    have hv : envelope = { envelope with version := currentVersion } := h.version ▸ rfl
    rw [iff_true_right ht, hv]
    simp [wire, h.mailbox, h.idSize, hd, hx, hy]
  case neg =>
    have hw : envelope.wire.v ≠ currentVersion ∨ envelope.wire.e ≤ now ∨
        envelope.wire.e > now.saturatingAdd maxEnvelopeTtlSeconds := by
      rw [not_and_or, UInt64.not_lt, UInt64.not_le] at ht
      exact .inr ht
    simp [hw, ht]

-- The whole way: an envelope is created without overflow, written, and read again at any time until
-- it expires. Its padding fills the last block and its expiry is the next bucket's.
structure RoundTrips (fromStr : String → Option WireEnvelope) (mailbox : String)
    (ciphertext : Bytes) (expiresAt now : UInt64) (padding : (n : Nat) → ByteBlock n)
    (id : ByteBlock 16) : Prop where
  noOverflow : roundedExpiry expiresAt < 2 ^ 64
  reads      : ∃ envelope text,
    create mailbox ciphertext expiresAt now (fun n => some (padding n)) (some id) = .ok envelope ∧
    envelope.toWire = .ok text ∧
    (∀ now', now ≤ now' → now' < envelope.expiresAt → fromWire fromStr text now' = .ok envelope) ∧
    (ciphertext.length + envelope.padding.length) % 256 = 0 ∧ envelope.padding.length < 256 ∧
    IsLeast { t | 300 ∣ t ∧ expiresAt.toNat ≤ t } envelope.expiresAt.toNat

theorem isLeast_roundedExpiry (expiresAt : UInt64) :
    IsLeast { t | 300 ∣ t ∧ expiresAt.toNat ≤ t } (roundedExpiry expiresAt) := by
  unfold roundedExpiry expiryBucketSeconds
  refine ⟨⟨Nat.dvd_mul_left .., by omega⟩, fun t ⟨⟨k, hk⟩, ht⟩ => ?_⟩
  omega

-- Whatever the text says, an envelope that expires later than in a week is not read.
theorem expiresAt_le_of_fromWire {text : String} (h : fromWire fromStr text now = .ok envelope) :
    envelope.expiresAt ≤ now.saturatingAdd maxEnvelopeTtlSeconds := by
  unfold fromWire ofWire at h
  split at h
  case h_1 => cases h
  split at h
  case isTrue => cases h
  case isFalse hw =>
    split at h
    case h_1 => cases h
    split at h
    case isTrue => cases h
    split at h
    case h_2 => cases h
    split_ifs at h
    cases h
    exact UInt64.not_lt.mp fun hlt => hw <| .inr <| .inr hlt

theorem toNat_roundedExpiry (h : roundedExpiry expiresAt < 2 ^ 64) :
    (UInt64.ofNat (roundedExpiry expiresAt)).toNat = roundedExpiry expiresAt := by
  rw [UInt64.toNat_ofNat', Nat.mod_eq_of_lt h]

theorem IsRequest.lt_roundedExpiry (h : IsRequest mailbox ciphertext expiresAt now) :
    now.toNat < roundedExpiry expiresAt :=
  (UInt64.lt_iff_toNat_lt.mp h.unexpired).trans_le (isLeast_roundedExpiry expiresAt).left.right

theorem RoundTrips.roundedExpiry_le (h : IsRequest mailbox ciphertext expiresAt now)
    (hr : RoundTrips fromStr mailbox ciphertext expiresAt now padding id) :
    roundedExpiry expiresAt ≤ (now.saturatingAdd maxEnvelopeTtlSeconds).toNat := by
  have ⟨ho, envelope, text, hc, _, hreads, _⟩ := hr
  cases (create_eq h).symm.trans hc
  have hx := toNat_roundedExpiry ho
  have hlt := UInt64.lt_iff_toNat_lt.mpr <| hx.symm ▸ h.lt_roundedExpiry
  have hok := hreads now UInt64.le_rfl hlt
  exact hx ▸ UInt64.le_iff_toNat_le.mp (expiresAt_le_of_fromWire hok)

-- Rounding can move the expiry out of the week for which an envelope is read.
theorem roundTrips_iff_roundedExpiry_le (h : IsRequest mailbox ciphertext expiresAt now)
    (round : ∀ envelope,
      create mailbox ciphertext expiresAt now (fun n => some (padding n)) (some id) =
        .ok envelope → fromStr envelope.wire.toJson = some envelope.wire) :
    RoundTrips fromStr mailbox ciphertext expiresAt now padding id ↔
      roundedExpiry expiresAt ≤ (now.saturatingAdd maxEnvelopeTtlSeconds).toNat := by
  refine ⟨RoundTrips.roundedExpiry_le h, fun hle => ?_⟩
  have ho : roundedExpiry expiresAt < 2 ^ 64 := by
    have := (now.saturatingAdd maxEnvelopeTtlSeconds).toNat_lt
    omega
  have hf := created_wellFormed padding id h
  refine ⟨ho, _, _, create_eq h, hf.toWire_eq, fun now' hge hlt => ?_, hf.padded, ?_,
    (toNat_roundedExpiry ho).symm ▸ isLeast_roundedExpiry expiresAt⟩
  case refine_1 =>
    rw [fromWire, round _ (create_eq h)]
    refine hf.ofWire_eq_ok_iff.mpr ⟨hlt, ?_⟩
    have hge := UInt64.le_iff_toNat_le.mp hge
    rw [UInt64.le_iff_toNat_le, created, toNat_roundedExpiry ho]
    rw [toNat_weekAfter] at hle ⊢
    omega
  case refine_2 =>
    have hl := (padding (paddedLength ciphertext - ciphertext.length)).property
    simp only [created, hl]
    unfold paddedLength blockSize
    omega

-- An envelope for a whole week cannot be read when it is made, and one for five minutes can.
def zeroPadding (n : Nat) : ByteBlock n :=
  .fill n 0

theorem isRequest_of_week : IsRequest "mailbox" [7] 604801 1 where
  mailbox    := by decide
  nonempty   := by decide
  fits       := by decide
  unexpired  := by decide
  withinWeek := by decide

theorem week_not_roundTrips :
    IsRequest "mailbox" [7] 604801 1 ∧
    ∀ fromStr, ¬RoundTrips fromStr "mailbox" [7] 604801 1 zeroPadding (zeroPadding 16) := by
  refine ⟨isRequest_of_week, fun fromStr h => ?_⟩
  exact absurd (h.roundedExpiry_le isRequest_of_week) (by decide)

theorem fiveMinutes_roundTrips :
    RoundTrips
      (fun _ => some (created "mailbox" [7] 300 zeroPadding (zeroPadding 16)).wire)
      "mailbox" [7] 300 1 zeroPadding (zeroPadding 16) := by
  have h : IsRequest "mailbox" [7] 300 1 :=
    ⟨by decide, by decide, by decide, by decide, by decide⟩
  refine (roundTrips_iff_roundedExpiry_le h fun envelope hc => ?_).mpr (by decide)
  cases (create_eq h).symm.trans hc
  rfl

end RelayEnvelope
