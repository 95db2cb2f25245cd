import AnotherDimension.Identity.Attestation
import AnotherDimension.Identity.Theorems.Registry
import AnotherDimension.Invites.Signed
import AnotherDimension.Library.Frames

-- The messages that are signed say what they are for and what is in them.

open Identity

theorem Text.formatU64_injective : Function.Injective Text.formatU64 := by
  intro m n h
  have hs : Text.parseU64 (Text.formatU64 m) = Text.parseU64 (Text.formatU64 n) := by rw [h]
  simpa [Text.parseU64_formatU64] using hs

theorem Text.newline_not_mem_formatU64 (n : UInt64) : '\n' ∉ (Text.formatU64 n).toList := fun h =>
  absurd (Text.isDigit_of_mem_formatU64 h) (by decide)

theorem Bytes.not_mem_toHex {c : Char} (hc : (Bytes.hexValue c).isNone) (bytes : Bytes) :
    c ∉ (Bytes.toHex bytes).toList := fun h => by
  have hs := Bytes.isSome_hexValue_of_mem_toHex h
  rw [Option.isNone_iff_eq_none.mp hc] at hs
  cases hs

namespace Invites

variable {accountId deviceId relayOrigin : String} {codeHash : ByteBlock 32} {expiresAt : UInt64}
  {inboxUrl conversationId : Option String}

theorem exists_payload_eq : ∃ rest, payload accountId deviceId codeHash expiresAt relayOrigin
    inboxUrl conversationId = "another-dimension/invite/v1\n" ++ rest := by
  refine ⟨(String.singleton '\n').intercalate
    (lines accountId deviceId codeHash expiresAt relayOrigin inboxUrl conversationId).tail, ?_⟩
  refine String.toList_inj.mp ?_
  simp [payload, lines]

theorem newline_not_mem_lines
    (h : ∀ field ∈ [accountId, deviceId, relayOrigin, inboxUrl.getD "", conversationId.getD ""],
      '\n' ∉ field.toList) :
    ∀ line ∈ lines accountId deviceId codeHash expiresAt relayOrigin inboxUrl conversationId,
      '\n' ∉ line.toList := by
  simp only [List.forall_mem_cons] at h
  have ⟨ha, hd, ho, hi, hc, _⟩ := h
  simp only [lines, List.forall_mem_cons]
  exact ⟨by decide, ha, hd, Bytes.not_mem_toHex (by decide) _, Text.newline_not_mem_formatU64 _, ho,
    hi, hc, by simp⟩

end Invites

-- What is signed, with the fields that go into the message.
inductive SignedContent
  | certificate (account : ByteBlock 32) (deviceId : String) (device package : ByteBlock 32)
      (issued expires : UInt64)
  | revocation (account : ByteBlock 32) (deviceId : String) (device : ByteBlock 32)
      (revokedAt : UInt64)
  | credential (certificate : DeviceCertificate)
  | invite (accountId deviceId : String) (codeHash : ByteBlock 32) (expiresAt : UInt64)
      (relayOrigin : String) (inboxUrl conversationId : Option String)
  | attestation (attestorId subjectId subjectDeviceKey : String) (createdAt : UInt64)

namespace SignedContent

inductive Kind
  | certificate
  | revocation
  | credential
  | invite
  | attestation
  deriving DecidableEq, Repr

def kind : SignedContent → Kind
  | certificate ..  => .certificate
  | revocation ..   => .revocation
  | credential ..   => .credential
  | invite ..       => .invite
  | attestation ..  => .attestation

def message : SignedContent → Bytes
  | .certificate account deviceId device package issued expires                        =>
    certificateMessage account deviceId device package issued expires
  | .revocation account deviceId device revokedAt                                      =>
    revocationMessage account deviceId device revokedAt
  | .credential signed                                                                 =>
    credentialMessage signed
  | .invite accountId deviceId codeHash expiresAt relayOrigin inboxUrl conversationId =>
    Bytes.utf8 <| Invites.payload accountId deviceId codeHash expiresAt relayOrigin inboxUrl
      conversationId
  | .attestation attestorId subjectId subjectDeviceKey createdAt                       =>
    attestationTranscript attestorId subjectId subjectDeviceKey createdAt

-- How every message of a kind starts.
def domain : Kind → Bytes
  | .certificate => domainCertificate
  | .revocation  => domainRevocation
  | .credential  => domainMlsCredential
  | .invite      => Bytes.utf8 "another-dimension/invite/v1\n"
  | .attestation => Bytes.utf8 "another-dimension/attestation/v1\nattestor="

theorem domain_separates (k₁ k₂ : Kind) (h : domain k₁ <+: domain k₂) : k₁ = k₂ := by
  have hd : ∀ k₁ ∈ [.certificate, .revocation, .credential, .invite, .attestation],
      ∀ k₂ ∈ [.certificate, .revocation, .credential, .invite, .attestation],
        (domain k₁).isPrefixOf (domain k₂) → k₁ = k₂ := by
    decide
  refine hd k₁ ?_ k₂ ?_ (List.isPrefixOf_iff_prefix.mpr h)
  case refine_1 => cases k₁ <;> simp
  case refine_2 => cases k₂ <;> simp

theorem exists_message_eq (m : SignedContent) : ∃ rest, m.message = domain m.kind ++ rest := by
  cases m
  case invite =>
    obtain ⟨rest, hr⟩ := Invites.exists_payload_eq
    exact ⟨Bytes.utf8 rest, by rw [message, hr, Bytes.utf8_append, kind, domain]⟩
  all_goals
    simp only [message, certificateMessage, revocationMessage, credentialMessage,
      attestationTranscript, Bytes.utf8_append, List.append_assoc, kind, domain]
    exact ⟨_, rfl⟩

theorem kind_eq_of_message_eq {m₁ m₂ : SignedContent} (h : m₁.message = m₂.message) :
    m₁.kind = m₂.kind := by
  have ⟨_, h₁⟩ := exists_message_eq m₁
  have ⟨_, h₂⟩ := exists_message_eq m₂
  have hp₁ : domain m₁.kind <+: m₁.message := ⟨_, h₁.symm⟩
  have hp₂ : domain m₂.kind <+: m₁.message := ⟨_, (h.trans h₂).symm⟩
  cases List.prefix_or_prefix_of_prefix hp₁ hp₂
  case inl hp => exact domain_separates _ _ hp
  case inr hp => exact (domain_separates _ _ hp).symm

end SignedContent

namespace Identity

theorem block_append_inj {a b x y : Bytes} (ha : a.length < 2 ^ 32) (hb : b.length < 2 ^ 32)
    (h : block a ++ x = block b ++ y) : a = b ∧ x = y :=
  Bytes.framed_append_inj ha hb h

theorem byteBlock_append_inj {n : Nat} {a b : ByteBlock n} {x y : Bytes} (hn : n < 2 ^ 32)
    (h : block a.val ++ x = block b.val ++ y) : a = b ∧ x = y := by
  have ⟨hv, hx⟩ := block_append_inj (a.property.trans_lt hn) (b.property.trans_lt hn) h
  exact ⟨Subtype.ext hv, hx⟩

theorem text_append_inj {a b : String} {x y : Bytes} (ha : a.utf8ByteSize < 2 ^ 32)
    (hb : b.utf8ByteSize < 2 ^ 32)
    (h : block (Bytes.utf8 a) ++ x = block (Bytes.utf8 b) ++ y) : a = b ∧ x = y := by
  have ⟨hv, hx⟩ := block_append_inj ha hb h
  exact ⟨Bytes.utf8_injective hv, hx⟩

theorem u64_append_inj {a b : UInt64} {x y : Bytes}
    (h : Bytes.ofNat 8 a.toNat ++ x = Bytes.ofNat 8 b.toNat ++ y) : a = b ∧ x = y := by
  have ⟨hv, hx⟩ := Bytes.ofNat_append_inj a.toNat_lt b.toNat_lt h
  exact ⟨UInt64.toNat_inj.mp hv, hx⟩

theorem u64_inj {a b : UInt64} (h : Bytes.ofNat 8 a.toNat = Bytes.ofNat 8 b.toNat) : a = b :=
  (u64_append_inj (congrArg (· ++ []) h)).left

variable {account₁ account₂ device₁ device₂ package₁ package₂ : ByteBlock 32}
  {deviceId₁ deviceId₂ : String} {issued₁ issued₂ expires₁ expires₂ revokedAt₁ revokedAt₂ : UInt64}

theorem certificateMessage_inj (h₁ : deviceId₁.utf8ByteSize < 2 ^ 32)
    (h₂ : deviceId₂.utf8ByteSize < 2 ^ 32)
    (h : certificateMessage account₁ deviceId₁ device₁ package₁ issued₁ expires₁ =
      certificateMessage account₂ deviceId₂ device₂ package₂ issued₂ expires₂) :
    account₁ = account₂ ∧ deviceId₁ = deviceId₂ ∧ device₁ = device₂ ∧ package₁ = package₂ ∧
      issued₁ = issued₂ ∧ expires₁ = expires₂ := by
  simp only [certificateMessage, List.append_assoc, List.append_right_inj] at h
  have ⟨ha, h⟩ := byteBlock_append_inj (by decide) h
  have ⟨hi, h⟩ := text_append_inj h₁ h₂ h
  have ⟨hd, h⟩ := byteBlock_append_inj (by decide) h
  have ⟨hp, h⟩ := byteBlock_append_inj (by decide) h
  have ⟨hs, h⟩ := u64_append_inj h
  exact ⟨ha, hi, hd, hp, hs, u64_inj h⟩

theorem revocationMessage_inj (h₁ : deviceId₁.utf8ByteSize < 2 ^ 32)
    (h₂ : deviceId₂.utf8ByteSize < 2 ^ 32)
    (h : revocationMessage account₁ deviceId₁ device₁ revokedAt₁ =
      revocationMessage account₂ deviceId₂ device₂ revokedAt₂) :
    account₁ = account₂ ∧ deviceId₁ = deviceId₂ ∧ device₁ = device₂ ∧ revokedAt₁ = revokedAt₂ := by
  simp only [revocationMessage, List.append_assoc, List.append_right_inj] at h
  have ⟨ha, h⟩ := byteBlock_append_inj (by decide) h
  have ⟨hi, h⟩ := text_append_inj h₁ h₂ h
  have ⟨hd, h⟩ := byteBlock_append_inj (by decide) h
  exact ⟨ha, hi, hd, u64_inj h⟩

-- A certificate is the same up to the mark that it is revoked.
theorem credentialMessage_inj {certificate₁ certificate₂ : DeviceCertificate}
    (h₁ : certificate₁.deviceId.utf8ByteSize < 2 ^ 32)
    (h₂ : certificate₂.deviceId.utf8ByteSize < 2 ^ 32)
    (h : credentialMessage certificate₁ = credentialMessage certificate₂) :
    { certificate₁ with revoked := false } = { certificate₂ with revoked := false } := by
  simp only [credentialMessage, List.append_assoc, List.append_right_inj] at h
  have ⟨ha, h⟩ := byteBlock_append_inj (by decide) h
  have ⟨hi, h⟩ := text_append_inj h₁ h₂ h
  have ⟨hd, h⟩ := byteBlock_append_inj (by decide) h
  have ⟨hp, h⟩ := byteBlock_append_inj (by decide) h
  have ⟨hs, h⟩ := u64_append_inj h
  have ⟨he, h⟩ := u64_append_inj h
  have ⟨hg, _⟩ := byteBlock_append_inj (by decide) (congrArg (· ++ []) h)
  rw [ha, hi, hd, hp, hs, he, hg]

end Identity

namespace Invites

theorem getD_filter (o : Option String) : (o.filter (!·.isEmpty)).getD "" = o.getD "" := by
  cases o
  case none   => rfl
  case some s =>
    by_cases h : s.isEmpty
    case pos => simp [Option.filter, String.isEmpty_iff.mp h]
    case neg => simp [Option.filter, h]

theorem filter_eq_of_getD_eq {o₁ o₂ : Option String} (h : o₁.getD "" = o₂.getD "") :
    o₁.filter (!·.isEmpty) = o₂.filter (!·.isEmpty) := by
  have hs (o : Option String) : o.filter (!·.isEmpty) =
      if (o.getD "").isEmpty then none else some (o.getD "") := by
    cases o
    case none   => rfl
    case some s => by_cases h : s.isEmpty <;> simp [Option.filter, h]
  rw [hs, hs, h]

-- The fields of an invite, up to an inbox or a conversation that is empty and one that is not there.
theorem lines_inj {accountId₁ accountId₂ deviceId₁ deviceId₂ relayOrigin₁ relayOrigin₂ : String}
    {codeHash₁ codeHash₂ : ByteBlock 32} {expiresAt₁ expiresAt₂ : UInt64}
    {inboxUrl₁ inboxUrl₂ conversationId₁ conversationId₂ : Option String}
    (h : lines accountId₁ deviceId₁ codeHash₁ expiresAt₁ relayOrigin₁ inboxUrl₁ conversationId₁ =
      lines accountId₂ deviceId₂ codeHash₂ expiresAt₂ relayOrigin₂ inboxUrl₂ conversationId₂) :
    accountId₁ = accountId₂ ∧ deviceId₁ = deviceId₂ ∧ codeHash₁ = codeHash₂ ∧
      expiresAt₁ = expiresAt₂ ∧ relayOrigin₁ = relayOrigin₂ ∧
      inboxUrl₁.filter (!·.isEmpty) = inboxUrl₂.filter (!·.isEmpty) ∧
      conversationId₁.filter (!·.isEmpty) = conversationId₂.filter (!·.isEmpty) := by
  simp only [lines, List.cons.injEq, and_true, true_and] at h
  have ⟨ha, hd, hc, he, ho, hi, hv⟩ := h
  exact ⟨ha, hd, Subtype.ext <| Bytes.toHex_injective hc, Text.formatU64_injective he, ho,
    filter_eq_of_getD_eq hi, filter_eq_of_getD_eq hv⟩

end Invites

namespace Identity

def attestationLines (attestorId subjectId subjectDeviceKey : String) (createdAt : UInt64) :
    List String :=
  ["another-dimension/attestation/v1", "attestor=" ++ attestorId, "subject=" ++ subjectId,
    "subject_device_key=" ++ subjectDeviceKey, "created_at=" ++ Text.formatU64 createdAt, ""]

variable {attestorId subjectId subjectDeviceKey : String} {createdAt : UInt64}

theorem attestationTranscript_eq :
    attestationTranscript attestorId subjectId subjectDeviceKey createdAt =
      Bytes.utf8 ((String.singleton '\n').intercalate
        (attestationLines attestorId subjectId subjectDeviceKey createdAt)) := by
  unfold attestationTranscript
  refine congrArg Bytes.utf8 <| String.toList_inj.mp ?_
  simp [attestationLines]

theorem newline_not_mem_attestationLines
    (h : ∀ field ∈ [attestorId, subjectId, subjectDeviceKey], '\n' ∉ field.toList) :
    ∀ line ∈ attestationLines attestorId subjectId subjectDeviceKey createdAt,
      '\n' ∉ line.toList := by
  simp only [List.forall_mem_cons] at h
  have ⟨ha, hs, hk, _⟩ := h
  have hc := Text.newline_not_mem_formatU64 createdAt
  simp only [attestationLines, List.forall_mem_cons, String.toList_append, List.mem_append, not_or]
  exact ⟨by decide, ⟨by decide, ha⟩, ⟨by decide, hs⟩, ⟨by decide, hk⟩, ⟨by decide, hc⟩, by decide,
    by simp⟩

end Identity

namespace SignedContent

-- The fields are short enough for their length fields, or have no line feeds in them.
def Fits : SignedContent → Prop
  | .certificate _ deviceId _ _ _ _                                 => deviceId.utf8ByteSize < 2 ^ 32
  | .revocation _ deviceId _ _                                      => deviceId.utf8ByteSize < 2 ^ 32
  | .credential signed                                              =>
    signed.deviceId.utf8ByteSize < 2 ^ 32
  | .invite accountId deviceId _ _ relayOrigin inboxUrl conversationId =>
    ∀ field ∈ [accountId, deviceId, relayOrigin, inboxUrl.getD "", conversationId.getD ""],
      '\n' ∉ field.toList
  | .attestation attestorId subjectId subjectDeviceKey _            =>
    ∀ field ∈ [attestorId, subjectId, subjectDeviceKey], '\n' ∉ field.toList

-- What the message does not tell: whether a certificate was revoked since, and an inbox or a
-- conversation that is empty from one that is not there.
def canonical : SignedContent → SignedContent
  | .credential signed                                                               =>
    .credential { signed with revoked := false }
  | .invite accountId deviceId codeHash expiresAt relayOrigin inboxUrl conversationId =>
    .invite accountId deviceId codeHash expiresAt relayOrigin (inboxUrl.filter (!·.isEmpty))
      (conversationId.filter (!·.isEmpty))
  | content                                                                          => content

theorem message_canonical (m : SignedContent) : m.canonical.message = m.message := by
  cases m
  case invite     =>
    simp only [canonical, message, Invites.payload, Invites.lines, Invites.getD_filter]
  case credential => rfl
  all_goals rfl

theorem canonical_eq_of_message_eq {m₁ m₂ : SignedContent} (h₁ : m₁.Fits) (h₂ : m₂.Fits)
    (h : m₁.message = m₂.message) : m₁.canonical = m₂.canonical := by
  have hk := kind_eq_of_message_eq h
  cases m₁ <;> cases m₂ <;> cases hk
  case certificate =>
    obtain ⟨rfl, rfl, rfl, rfl, rfl, rfl⟩ := certificateMessage_inj h₁ h₂ h
    rfl
  case revocation =>
    obtain ⟨rfl, rfl, rfl, rfl⟩ := revocationMessage_inj h₁ h₂ h
    rfl
  case credential => exact congrArg credential <| credentialMessage_inj h₁ h₂ h
  case invite =>
    have hl := (Text.intercalate_inj (Invites.newline_not_mem_lines h₁)
      (Invites.newline_not_mem_lines h₂) (List.cons_ne_nil _ _) (List.cons_ne_nil _ _)).mp <|
        Bytes.utf8_injective h
    obtain ⟨rfl, rfl, rfl, rfl, rfl, hi, hc⟩ := Invites.lines_inj hl
    rw [canonical, canonical, hi, hc]
  case attestation =>
    rw [message, message, attestationTranscript_eq, attestationTranscript_eq] at h
    have hl := (Text.intercalate_inj (newline_not_mem_attestationLines h₁)
      (newline_not_mem_attestationLines h₂) (List.cons_ne_nil _ _) (List.cons_ne_nil _ _)).mp <|
        Bytes.utf8_injective h
    simp only [attestationLines, List.cons.injEq, String.append_right_inj, and_true, true_and] at hl
    obtain ⟨rfl, rfl, rfl, hc⟩ := hl
    rw [Text.formatU64_injective hc]

-- A message tells its kind and, when the fields fit, its fields. So a signature of a key that signed
-- nothing but `signed` is one for the same kind and the same fields.
theorem message_unambiguous {ed25519 : Ed25519} {key : ByteBlock 32} {signed : List SignedContent}
    (unforgeable : ∀ message signature, ed25519.verify key message signature →
      ∃ m ∈ signed, message = m.message) (m₁ m₂ : SignedContent) :
    (m₁.message = m₂.message → m₁.kind = m₂.kind) ∧
      (m₁.Fits → m₂.Fits → (m₁.message = m₂.message ↔ m₁.canonical = m₂.canonical)) ∧
      ∀ signature, ed25519.verify key m₁.message signature →
        ∃ m ∈ signed, m.kind = m₁.kind ∧ (m.Fits → m₁.Fits → m.canonical = m₁.canonical) := by
  refine ⟨kind_eq_of_message_eq, fun h₁ h₂ => ⟨canonical_eq_of_message_eq h₁ h₂, fun h => ?_⟩, ?_⟩
  case refine_1 => rw [← message_canonical m₁, h, message_canonical]
  case refine_2 =>
    intro signature hv
    have ⟨m, hm, he⟩ := unforgeable _ _ hv
    exact ⟨m, hm, kind_eq_of_message_eq he.symm, fun h h₁ => canonical_eq_of_message_eq h h₁ he.symm⟩

def sampleInvite (inboxUrl : Option String) : SignedContent :=
  .invite "ad1pk00" "laptop" ⟨.replicate 32 7, rfl⟩ 1700000600 "https://relay.example" inboxUrl none

-- An inbox that is there but empty is written like none.
theorem emptyInbox_message_eq :
    (sampleInvite none).Fits ∧ (sampleInvite (some "")).Fits ∧
      sampleInvite none ≠ sampleInvite (some "") ∧
      (sampleInvite none).message = (sampleInvite (some "")).message :=
  ⟨by simp [sampleInvite, Fits], by simp [sampleInvite, Fits], by simp [sampleInvite], rfl⟩

-- A key that signed one content only.
def sampleKey (m : SignedContent) : Ed25519 :=
  { Ed25519.sample with
    verify := fun key message signature =>
      message = m.message && Ed25519.sample.verify key message signature }

def sampleRevocation : SignedContent :=
  .revocation (.fill 32 1) "laptop" (.fill 32 2) 1700000001

theorem sampleRevocation_unambiguous :
    ∃ m ∈ [sampleRevocation], m.kind = sampleRevocation.kind ∧
      (m.Fits → sampleRevocation.Fits → m.canonical = sampleRevocation.canonical) := by
  have unforgeable : ∀ message signature,
      (sampleKey sampleRevocation).verify ⟨.replicate 32 1, rfl⟩ message signature →
        ∃ m ∈ [sampleRevocation], message = m.message := by
    intro message signature h
    simp only [sampleKey, Bool.and_eq_true, decide_eq_true_eq] at h
    exact ⟨sampleRevocation, List.mem_singleton_self _, h.left⟩
  refine (message_unambiguous unforgeable sampleRevocation sampleRevocation).right.right
    ((sampleKey sampleRevocation).sign ⟨.replicate 32 1, rfl⟩ sampleRevocation.message) ?_
  decide +kernel

end SignedContent
