import AnotherDimension.Identity.Theorems.Messages
import AnotherDimension.Relay.Signed

-- The invites a daemon makes are accepted by the relay and by other daemons.

open Identity

namespace Text

-- `char::to_uppercase` of the ASCII characters.
def UppercaseOfAscii (toUppercase : Char → List Char) : Prop :=
  ∀ c, isAscii c → toUppercase c = [toAsciiUppercase c]

theorem not_lower_toAsciiUppercase_hexDigit : ∀ n < 16,
    let c := toAsciiUppercase (Bytes.hexDigit n)
    toAsciiUppercase c = c ∧ c ≠ '-' ∧ isAscii c ∧ ¬('a' ≤ c ∧ c ≤ 'z') := by
  decide

end Text

namespace Invites

-- The code of an invite, from its random bytes.
def codeOf (bytes : Bytes) : String :=
  .ofList <| (Bytes.toHex bytes).toList.map Text.toAsciiUppercase

theorem mem_codeOf {bytes : Bytes} {c : Char} (h : c ∈ (codeOf bytes).toList) :
    Text.toAsciiUppercase c = c ∧ c ≠ '-' ∧ Text.isAscii c ∧ ¬('a' ≤ c ∧ c ≤ 'z') := by
  simp only [codeOf, String.toList_ofList, List.mem_map] at h
  have ⟨d, hd, hc⟩ := h
  have ⟨n, hn, hx⟩ := Bytes.mem_toHex hd
  rw [← hc, hx]
  exact Text.not_lower_toAsciiUppercase_hexDigit n hn

theorem filter_codeOf {bytes : Bytes} :
    (codeOf bytes).toList.filter (· ≠ '-') = (codeOf bytes).toList :=
  List.filter_eq_self.mpr fun c hc => by simpa using (mem_codeOf hc).right.left

theorem flatMap_codeOf {bytes : Bytes} {toUppercase : Char → List Char}
    (h : Text.UppercaseOfAscii toUppercase) :
    (codeOf bytes).toList.flatMap toUppercase = (codeOf bytes).toList := by
  have hu : ∀ c ∈ (codeOf bytes).toList, toUppercase c = [c] := by
    intro c hc
    have ⟨hu, _, ha, _⟩ := mem_codeOf hc
    rw [h c ha, hu]
  rw [List.flatMap_congr hu, List.flatMap_singleton']

theorem isEmpty_codeOf (bytes : ByteBlock 32) : (codeOf bytes.val).isEmpty = false := by
  have hl : (codeOf bytes.val).length = 64 := by
    rw [← String.length_toList, codeOf, String.toList_ofList, List.length_map, String.length_toList,
      Bytes.length_toHex, bytes.property]
  rw [String.isEmpty_eq_false_iff]
  intro he
  rw [he] at hl
  exact absurd hl (by decide)

-- A way to write a code: with hyphens anywhere, in upper or lower case.
def IsForm (code form : String) : Prop :=
  (form.toList.filter (· ≠ '-')).map Text.toAsciiUppercase = code.toList

instance (code form : String) : Decidable (IsForm code form) :=
  inferInstanceAs (Decidable (_ = _))

def HasLowercase (form : String) : Prop :=
  ∃ c ∈ form.toList, 'a' ≤ c ∧ c ≤ 'z'

theorem filter_form_eq_iff {bytes : Bytes} {form : String} (h : IsForm (codeOf bytes) form) :
    form.toList.filter (· ≠ '-') = (codeOf bytes).toList ↔ ¬HasLowercase form := by
  constructor
  case mp =>
    intro he hl
    have ⟨c, hc, hlow⟩ := hl
    have hd : c ≠ '-' := by
      rintro rfl
      exact absurd hlow (by decide)
    have hm : c ∈ (codeOf bytes).toList := he ▸ List.mem_filter.mpr ⟨hc, by simpa using hd⟩
    exact (mem_codeOf hm).right.right.right hlow
  case mpr =>
    intro hl
    have hid : ∀ c ∈ form.toList.filter (· ≠ '-'), Text.toAsciiUppercase c = id c := by
      intro c hc
      have hn : ¬('a' ≤ c ∧ c ≤ 'z') := fun hlow => hl ⟨c, (List.mem_filter.mp hc).left, hlow⟩
      simp [Text.toAsciiUppercase, hn]
    rw [← h, List.map_congr_left hid, List.map_id]

theorem hexDecode_toHex {bytes : Bytes} (h : bytes ≠ []) :
    hexDecode (Bytes.toHex bytes) = some bytes := by
  have hn : (Bytes.toHex bytes).isEmpty = false := by
    have hl := Bytes.utf8ByteSize_toHex bytes
    have hp := List.length_pos_of_ne_nil h
    simp only [String.isEmpty_eq_false_iff]
    rintro he
    rw [he] at hl
    exact absurd hl (by simp; omega)
  rw [hexDecode, hn, if_neg (by simp), Bytes.fromHex_toHex]

def signedInvite (payload : String) (signature : ByteBlock 64) : String :=
  "ADDAINV1." ++ Bytes.toHex (Bytes.utf8 payload) ++ "." ++ Bytes.toHex signature.val

theorem split_signedInvite (payload : String) (signature : ByteBlock 64) :
    Text.split '.' (signedInvite payload signature) =
      ["ADDAINV1", Bytes.toHex (Bytes.utf8 payload), Bytes.toHex signature.val] := by
  have he : signedInvite payload signature = (String.singleton '.').intercalate
      ["ADDAINV1", Bytes.toHex (Bytes.utf8 payload), Bytes.toHex signature.val] := by
    refine String.toList_inj.mp ?_
    simp [signedInvite]
  rw [he, Text.split_intercalate _ (List.cons_ne_nil _ _)]
  simp only [List.forall_mem_cons]
  exact ⟨by decide, Bytes.not_mem_toHex (by decide) _, Bytes.not_mem_toHex (by decide) _, by simp⟩

variable {ed25519 : Ed25519} {sha256 : Bytes → ByteBlock 32} {text origin : String}
  {signature : ByteBlock 64} {code : Option String} {now : UInt64}

theorem verifySignedInviteWithCode_signedInvite (hp : Bytes.utf8 text ≠ []) :
    verifySignedInviteWithCode ed25519 sha256 code (signedInvite text signature) now =
      (readLines sha256 code now (Text.split '\n' text)).bind fun invite =>
        (accountKey invite.accountId).bind fun key =>
          if ed25519.verify key (Bytes.utf8 text) signature then some invite else none := by
  have hs : signature.val ≠ [] := List.ne_nil_of_length_pos (by rw [signature.property]; decide)
  have hb : ByteBlock.ofBytes 64 signature.val = some signature := by
    simp [ByteBlock.ofBytes, signature.property]
  rw [verifySignedInviteWithCode, split_signedInvite]
  simp only [hexDecode_toHex hp, hexDecode_toHex hs, hb, Bytes.fromUtf8_utf8, Option.bind_eq_bind,
    Option.bind_some, ne_eq, not_true_eq_false, false_or]
  refine Option.bind_congr fun invite _ => Option.bind_congr fun key _ => ?_
  by_cases hv : ed25519.verify key (Bytes.utf8 text) signature <;> simp [hv]

theorem validateInvite_signedInvite :
    Relay.validateInvite ed25519 (signedInvite text signature) origin now =
      Relay.validateLines ed25519 (Bytes.utf8 text) signature origin now
        (Text.split '\n' text) := by
  have hb : ByteBlock.ofBytes 64 signature.val = some signature := by
    simp [ByteBlock.ofBytes, signature.property]
  rw [Relay.validateInvite, split_signedInvite]
  simp [Relay.hexDecode_toHex, hb]

-- More lines than an invite has are refused.

theorem readLines_of_length {ls : List String} (h : 8 < ls.length) :
    readLines sha256 code now ls = none := by
  match ls with
  | header :: accountId :: deviceId :: codeHash :: expiresAt :: relayOrigin :: rest =>
    have hr : rest.length > 2 := by
      simp only [List.length_cons] at h
      omega
    rw [readLines]
    cases Text.parseU64 expiresAt
    case none => rfl
    case some => simp [hr]
  | [] | [_] | [_, _] | [_, _, _] | [_, _, _, _] | [_, _, _, _, _] => simp at h

theorem validateLines_of_length {ls : List String} {bytes : Bytes} (h : 8 < ls.length) :
    Relay.validateLines ed25519 bytes signature origin now ls = false := by
  match ls with
  | header :: accountId :: deviceId :: codeHash :: expiresAt :: relayOrigin :: rest =>
    have hr : ¬rest.length ≤ 2 := by
      simp only [List.length_cons] at h
      omega
    rw [Relay.validateLines]
    split
    case h_1 => simp [hr]
    case h_2 => rfl
  | [] | [_] | [_, _] | [_, _, _] | [_, _, _, _] | [_, _, _, _, _] => simp at h

-- A conversation id as the daemon makes them.
def IsConversationId (conversationId : String) : Prop :=
  ∃ bytes : ByteBlock 16, conversationId = "adconv" ++ Bytes.toHex bytes.val

theorem filter_inboxUrl {relayOrigin : String} {inboxUrl : Option String}
    (h : inboxUrl.all (validateBoundInboxUrl relayOrigin)) :
    (some (inboxUrl.getD "")).filter (!·.isEmpty) = inboxUrl := by
  cases inboxUrl
  case none     => rfl
  case some url =>
    have hn : url.isEmpty = false := by
      rw [String.isEmpty_eq_false_iff]
      rintro rfl
      have he : Uri.parse "" = none := by decide
      simp [validateBoundInboxUrl, he] at h
    simp [Option.filter, hn]

theorem conversationId_spec {conversationId : Option String}
    (h : ∀ id ∈ conversationId, IsConversationId id) :
    (some (conversationId.getD "")).filter (!·.isEmpty) = conversationId ∧
      conversationId.any (fun value =>
        (Text.stripPrefix "adconv" value).isNone || value.utf8ByteSize > 80) = false := by
  cases conversationId
  case none    => exact ⟨rfl, rfl⟩
  case some id =>
    obtain ⟨bytes, rfl⟩ := h id rfl
    have hs : ("adconv" ++ Bytes.toHex bytes.val).utf8ByteSize = 38 := by
      rw [String.utf8ByteSize_append, Bytes.utf8ByteSize_toHex, bytes.property]
      decide
    have hn : ("adconv" ++ Bytes.toHex bytes.val).isEmpty = false := by
      rw [String.isEmpty_eq_false_iff]
      intro he
      rw [he] at hs
      exact absurd hs (by decide)
    simp [Option.filter, hn, Text.stripPrefix_append, hs]

-- The code that comes with an invite has the hash in it.
def matchesCode (sha256 : Bytes → ByteBlock 32) (codeHash : ByteBlock 32) (code : String) : Bool :=
  !code.isEmpty && sha256 (Bytes.utf8 <| .ofList <| code.toList.filter (· ≠ '-')) = codeHash

section

variable {key : ByteBlock 32} {deviceId relayOrigin : String} {codeHash : ByteBlock 32}
  {expiresAt : UInt64} {inboxUrl conversationId : Option String}

theorem readLines_lines (hinbox : inboxUrl.all (validateBoundInboxUrl relayOrigin))
    (hconversation : ∀ id ∈ conversationId, IsConversationId id)
    (hexpires : expiresAt ≤ now.saturatingAdd maxInviteTtlSeconds) :
    readLines sha256 code now (lines (accountIdFromPublic key) deviceId codeHash expiresAt
        relayOrigin inboxUrl conversationId) =
      if now < expiresAt ∧ code.all (matchesCode sha256 codeHash) then
        some ⟨accountIdFromPublic key, deviceId, expiresAt, relayOrigin, inboxUrl, conversationId⟩
      else
        none := by
  have ⟨hc, hany⟩ := conversationId_spec hconversation
  have hhex : (Bytes.toHex codeHash.val).toList.all isAsciiHexdigit = true :=
    List.all_eq_true.mpr fun c hc => Bytes.isSome_hexValue_of_mem_toHex hc
  have hlen : (Bytes.toHex codeHash.val).utf8ByteSize = 64 := by
    rw [Bytes.utf8ByteSize_toHex, codeHash.property]
  have hcode : (code.any fun code => code.isEmpty || decide (Bytes.toHex codeHash.val ≠
      Bytes.toHex (sha256 <| Bytes.utf8 <| .ofList <| code.toList.filter (· ≠ '-')).val)) =
        !code.all (matchesCode sha256 codeHash) := by
    cases code
    case none      => rfl
    case some form =>
      simp only [Option.any_some, Option.all_some, matchesCode, Bool.not_and, Bool.not_not,
        Bytes.toHex_injective.ne_iff, ne_eq, decide_not, Subtype.ext_iff, @eq_comm Bytes codeHash.val]
  simp only [readLines, lines, Text.parseU64_formatU64, Option.bind_eq_bind, Option.bind_some,
    List.getElem?_cons_zero, List.getElem?_cons_succ, filter_inboxUrl hinbox, hc, hcode]
  by_cases hnow : now < expiresAt
  case neg =>
    rw [if_pos (by simp [UInt64.not_lt.mp hnow]), if_neg (fun h => hnow h.left)]
  case pos =>
    have hle : ¬expiresAt ≤ now := UInt64.not_le.mpr hnow
    have hgt : ¬now.saturatingAdd maxInviteTtlSeconds < expiresAt := UInt64.not_lt.mpr hexpires
    rw [if_neg (by
      simp [accountIdFromPublic, Text.stripPrefix_append, hle, hgt, hany, hinbox, hhex, hlen])]
    by_cases hm : code.all (matchesCode sha256 codeHash) <;> simp [hm, hnow]

theorem validateLines_lines {bytes : Bytes} :
    Relay.validateLines ed25519 bytes signature relayOrigin now (lines (accountIdFromPublic key)
        deviceId codeHash expiresAt relayOrigin inboxUrl conversationId) =
      (now < expiresAt && ed25519.verify key bytes signature) := by
  have hkey : ByteBlock.ofBytes 32 key.val = some key := by simp [ByteBlock.ofBytes, key.property]
  simp [Relay.validateLines, lines, accountIdFromPublic, Text.stripPrefix_append, Relay.hexDecode_toHex,
    hkey, Text.parseU64_formatU64]

theorem accountKey_accountIdFromPublic : accountKey (accountIdFromPublic key) = some key := by
  have hn : key.val ≠ [] := List.ne_nil_of_length_pos (by rw [key.property]; decide)
  simp [accountKey, accountIdFromPublic, Text.stripPrefix_append, hexDecode_toHex hn, ByteBlock.ofBytes,
    key.property]

-- No line feed is in the fields that go into an invite.
def IsSingleLine (deviceId relayOrigin : String) (inboxUrl : Option String) : Prop :=
  '\n' ∉ deviceId.toList ∧ '\n' ∉ relayOrigin.toList ∧ '\n' ∉ (inboxUrl.getD "").toList

theorem newline_not_mem_conversationId (h : ∀ id ∈ conversationId, IsConversationId id) :
    '\n' ∉ (conversationId.getD "").toList := by
  cases conversationId
  case none    => simp
  case some id =>
    obtain ⟨bytes, rfl⟩ := h id rfl
    simp only [Option.getD_some, String.toList_append, List.mem_append, not_or]
    exact ⟨by decide, Bytes.not_mem_toHex (by decide) _⟩

theorem newline_not_mem_accountId : '\n' ∉ (accountIdFromPublic key).toList := by
  simp only [accountIdFromPublic, String.toList_append, List.mem_append, not_or]
  exact ⟨by decide, Bytes.not_mem_toHex (by decide) _⟩

theorem utf8_payload_ne_nil : Bytes.utf8 (payload (accountIdFromPublic key) deviceId codeHash
    expiresAt relayOrigin inboxUrl conversationId) ≠ [] := by
  obtain ⟨rest, hr⟩ := exists_payload_eq
  rw [hr, Bytes.utf8_append]
  exact List.append_ne_nil_of_left_ne_nil (by decide) _

theorem split_payload (h : IsSingleLine deviceId relayOrigin inboxUrl)
    (hc : ∀ id ∈ conversationId, IsConversationId id) :
    Text.split '\n' (payload (accountIdFromPublic key) deviceId codeHash expiresAt relayOrigin inboxUrl
        conversationId) =
      lines (accountIdFromPublic key) deviceId codeHash expiresAt relayOrigin inboxUrl
        conversationId := by
  refine Text.split_intercalate (newline_not_mem_lines ?_) (List.cons_ne_nil _ _)
  simp only [List.forall_mem_cons]
  exact ⟨newline_not_mem_accountId, h.left, h.right.left, h.right.right,
    newline_not_mem_conversationId hc, by simp⟩

theorem length_split_payload (h : ¬IsSingleLine deviceId relayOrigin inboxUrl) :
    8 < (Text.split '\n' (payload (accountIdFromPublic key) deviceId codeHash expiresAt relayOrigin
      inboxUrl conversationId)).length := by
  have hpos : 0 < deviceId.toList.count '\n' + relayOrigin.toList.count '\n' +
      (inboxUrl.getD "").toList.count '\n' := by
    by_contra hz
    refine h ⟨?_, ?_, ?_⟩
    all_goals
      refine List.count_eq_zero.mp ?_
      omega
  have hn : lines (accountIdFromPublic key) deviceId codeHash expiresAt relayOrigin inboxUrl
      conversationId ≠ [] := List.cons_ne_nil _ _
  unfold payload
  rw [Text.length_split_intercalate hn]
  simp only [lines, List.length_cons, List.length_nil, List.map_cons, List.sum_cons]
  omega

end

end Invites

namespace InviteIssuer

open Invites

variable {ed25519 : Ed25519} {sha256 : Bytes → ByteBlock 32} {toUppercase : Char → List Char}
  {issuer : InviteIssuer} {now later : UInt64} {conversationId : Option String}
  {random : Option (ByteBlock 32)} {code signed form : String}

-- What is created for a code: the fields, signed by the root key.
def signedBy (ed25519 : Ed25519) (issuer : InviteIssuer) (root : AccountRootKey)
    (codeHash : ByteBlock 32) (now : UInt64) (conversationId : Option String) : String :=
  let payload := payload (accountIdFromPublic <| root.publicKey ed25519) issuer.deviceId codeHash
    (now.saturatingAdd 600) issuer.relayOrigin issuer.inboxUrl conversationId
  signedInvite payload (ed25519.sign root.seed <| Bytes.utf8 payload)

theorem create_of_authorize {root : AccountRootKey} {bytes : ByteBlock 32}
    (uppercase : Text.UppercaseOfAscii toUppercase)
    (hauthorize : issuer.deviceRegistry.authorize ed25519 issuer.deviceId now = .ok ())
    (hroot : issuer.root = some root) :
    (issuer.create ed25519 sha256 toUppercase now conversationId (some bytes)).fst =
      some (codeOf bytes.val, issuer.signedBy ed25519 root (sha256 <| Bytes.utf8 <| codeOf bytes.val)
        now conversationId) := by
  have hl : (Bytes.toHex bytes.val).toList.map Text.toAsciiUppercase = (codeOf bytes.val).toList := by
    simp [codeOf]
  simp only [create, hauthorize, hroot, hl, filter_codeOf, flatMap_codeOf uppercase,
    String.ofList_toList]
  rfl

theorem create_eq_some (uppercase : Text.UppercaseOfAscii toUppercase)
    (h : (issuer.create ed25519 sha256 toUppercase now conversationId random).fst =
      some (code, signed)) :
    ∃ (root : AccountRootKey) (bytes : ByteBlock 32), issuer.root = some root ∧
      code = codeOf bytes.val ∧
      signed = issuer.signedBy ed25519 root (sha256 <| Bytes.utf8 code) now conversationId := by
  match ha : issuer.deviceRegistry.authorize ed25519 issuer.deviceId now, hroot : issuer.root,
      random with
  | .error _, _, _                => simp [create, ha] at h
  | .ok (), none, _               => simp [create, ha, hroot] at h
  | .ok (), some _, none          => simp [create, ha, hroot] at h
  | .ok (), some root, some bytes =>
    rw [create_of_authorize uppercase ha hroot, Option.some.injEq, Prod.mk.injEq] at h
    obtain ⟨rfl, rfl⟩ := h
    exact ⟨root, bytes, rfl, rfl, rfl⟩

-- All three accept the invite and return what was signed.
def Agrees (ed25519 : Ed25519) (sha256 : Bytes → ByteBlock 32) (issuer : InviteIssuer)
    (root : AccountRootKey) (conversationId : Option String) (signed form : String)
    (now later : UInt64) : Prop :=
  let fields : VerifiedInvite := {
    accountId      := accountIdFromPublic (root.publicKey ed25519)
    deviceId       := issuer.deviceId
    expiresAt      := now.saturatingAdd 600
    relayOrigin    := issuer.relayOrigin
    inboxUrl       := issuer.inboxUrl
    conversationId := conversationId
  }
  Relay.validateInvite ed25519 signed issuer.relayOrigin later = true ∧
    verifySignedInviteUnbound ed25519 sha256 signed later = some fields ∧
    verifySignedInvite ed25519 sha256 form signed later = some fields

theorem lt_saturatingAdd_iff (valid : later.toNat < now.toNat + 600) :
    later < now.saturatingAdd 600 ↔ later.toNat ≠ 2 ^ 64 - 1 := by
  have hl := later.toNat_lt
  have h600 : (600 : UInt64).toNat = 600 := rfl
  rw [UInt64.lt_iff_toNat_lt, UInt64.toNat_saturatingAdd, h600]
  omega

theorem saturatingAdd_mono (started : now ≤ later) :
    now.saturatingAdd 600 ≤ later.saturatingAdd maxInviteTtlSeconds := by
  have h600 : maxInviteTtlSeconds.toNat = (600 : UInt64).toNat := rfl
  have hs := UInt64.le_iff_toNat_le.mp started
  rw [UInt64.le_iff_toNat_le, UInt64.toNat_saturatingAdd, UInt64.toNat_saturatingAdd, h600]
  omega

theorem matchesCode_form_iff {bytes : ByteBlock 32} (written : IsForm (codeOf bytes.val) form)
    (collisionFree : let stripped := String.ofList (form.toList.filter (· ≠ '-'))
      sha256 (Bytes.utf8 stripped) = sha256 (Bytes.utf8 <| codeOf bytes.val) →
        stripped = codeOf bytes.val) :
    matchesCode sha256 (sha256 <| Bytes.utf8 <| codeOf bytes.val) form ↔ ¬HasLowercase form := by
  have hn : form.isEmpty = false := by
    rw [String.isEmpty_eq_false_iff]
    rintro rfl
    have he : (codeOf bytes.val).toList = [] := written.symm
    have hc := isEmpty_codeOf bytes
    rw [String.isEmpty_eq_false_iff] at hc
    exact hc <| String.toList_eq_nil_iff.mp he
  rw [← filter_form_eq_iff written]
  simp only [matchesCode, hn, Bool.not_false, Bool.true_and, decide_eq_true_eq]
  constructor
  case mp =>
    intro h
    rw [← collisionFree h, String.toList_ofList]
  case mpr =>
    intro h
    rw [h, String.ofList_toList]

theorem agrees_signedBy_iff {root : AccountRootKey} {codeHash : ByteBlock 32}
    (bound : issuer.inboxUrl.all (validateBoundInboxUrl issuer.relayOrigin))
    (conversation : ∀ id ∈ conversationId, IsConversationId id) (started : now ≤ later)
    (correct : ∀ message,
      ed25519.verify (root.publicKey ed25519) message (ed25519.sign root.seed message)) :
    Agrees ed25519 sha256 issuer root conversationId
        (issuer.signedBy ed25519 root codeHash now conversationId) form now later ↔
      IsSingleLine issuer.deviceId issuer.relayOrigin issuer.inboxUrl ∧
        later < now.saturatingAdd 600 ∧ matchesCode sha256 codeHash form := by
  rw [Agrees, signedBy, validateInvite_signedInvite, verifySignedInviteUnbound, verifySignedInvite,
    verifySignedInviteWithCode_signedInvite utf8_payload_ne_nil,
    verifySignedInviteWithCode_signedInvite utf8_payload_ne_nil]
  by_cases hs : IsSingleLine issuer.deviceId issuer.relayOrigin issuer.inboxUrl
  case neg =>
    rw [validateLines_of_length (length_split_payload hs)]
    simp [hs]
  case pos =>
    rw [split_payload hs conversation, validateLines_lines,
      readLines_lines bound conversation (saturatingAdd_mono started),
      readLines_lines bound conversation (saturatingAdd_mono started)]
    have hkey := @accountKey_accountIdFromPublic (root.publicKey ed25519)
    by_cases hl : later < now.saturatingAdd 600
    case neg => simp [hl]
    case pos =>
      by_cases hm : matchesCode sha256 codeHash form
      case neg => simp [hl, hm]
      case pos => simp [hl, hm, hs, hkey, correct]

-- The relay, a daemon without the code and a daemon with any form of it agree with the daemon that
-- made the invite, but for a form in lower case, for line feeds, and at the end of time.
theorem agrees_iff {root : AccountRootKey}
    (created : (issuer.create ed25519 sha256 toUppercase now conversationId random).fst =
      some (code, signed))
    (hroot : issuer.root = some root)
    (bound : issuer.inboxUrl.all (validateBoundInboxUrl issuer.relayOrigin))
    (conversation : ∀ id ∈ conversationId, IsConversationId id)
    (written : IsForm code form) (started : now ≤ later) (valid : later.toNat < now.toNat + 600)
    (correct : ∀ seed message,
      ed25519.verify (ed25519.publicKey seed) message (ed25519.sign seed message))
    (uppercase : Text.UppercaseOfAscii toUppercase)
    (collisionFree : let stripped := String.ofList (form.toList.filter (· ≠ '-'))
      sha256 (Bytes.utf8 stripped) = sha256 (Bytes.utf8 code) → stripped = code) :
    Agrees ed25519 sha256 issuer root conversationId signed form now later ↔
      IsSingleLine issuer.deviceId issuer.relayOrigin issuer.inboxUrl ∧
        later.toNat ≠ 2 ^ 64 - 1 ∧ ¬HasLowercase form := by
  obtain ⟨root', bytes, hroot', rfl, rfl⟩ := create_eq_some uppercase created
  cases hroot.symm.trans hroot'
  rw [agrees_signedBy_iff bound conversation started (correct root.seed),
    ← matchesCode_form_iff written collisionFree, ← lt_saturatingAdd_iff valid]

def sampleCode : ByteBlock 32 := ⟨.replicate 32 0xab, rfl⟩

-- The SHA-256 digests of a code in upper and in lower case.
def sampleSha256 (bytes : Bytes) : ByteBlock 32 :=
  if bytes = Bytes.utf8 (codeOf sampleCode.val) then
    ⟨[85, 191, 235, 17, 34, 194, 166, 196, 189, 216, 172, 34, 200, 232, 17, 214,
      176, 186, 234, 198, 214, 240, 163, 137, 62, 71, 229, 193, 58, 162, 238, 28], rfl⟩
  else
    ⟨[39, 26, 65, 59, 211, 57, 197, 112, 159, 220, 234, 236, 65, 241, 79, 17,
      233, 251, 251, 80, 66, 215, 45, 51, 28, 101, 243, 43, 40, 76, 208, 154], rfl⟩

def sampleUppercase (c : Char) : List Char := [Text.toAsciiUppercase c]

def sampleIssuer : InviteIssuer where
  root           := some RegistryTrace.sampleRoot
  deviceId       := "laptop"
  relayOrigin    := "https://relay.example"
  inboxUrl       := none
  deviceRegistry := RegistryTrace.sampleRegistered
  pending        := none

def sampleInvite : String :=
  sampleIssuer.signedBy .sample RegistryTrace.sampleRoot
    (sampleSha256 <| Bytes.utf8 <| codeOf sampleCode.val) 1700000000 none

theorem sampleInvite_created :
    (sampleIssuer.create .sample sampleSha256 sampleUppercase 1700000000 none (some sampleCode)).fst =
      some (codeOf sampleCode.val, sampleInvite) := by
  have ha : sampleIssuer.deviceRegistry.authorize .sample sampleIssuer.deviceId 1700000000 = .ok () := by
    decide +kernel
  exact create_of_authorize (fun _ _ => rfl) ha rfl

-- The code in lower case, as a person may type it.
theorem lowercase_not_agrees :
    (sampleIssuer.create .sample sampleSha256 sampleUppercase 1700000000 none (some sampleCode)).fst =
        some (codeOf sampleCode.val, sampleInvite) ∧
      IsForm (codeOf sampleCode.val) (Bytes.toHex sampleCode.val) ∧
      ¬Agrees .sample sampleSha256 sampleIssuer RegistryTrace.sampleRoot none sampleInvite
        (Bytes.toHex sampleCode.val) 1700000000 1700000000 := by
  refine ⟨sampleInvite_created, by decide, fun h => ?_⟩
  unfold sampleInvite at h
  have ⟨_, _, hm⟩ := (agrees_signedBy_iff rfl (by simp) (UInt64.le_refl _)
    (Ed25519.sample_correct _)).mp h
  exact absurd hm (by decide)

theorem uppercase_agrees :
    Agrees .sample sampleSha256 sampleIssuer RegistryTrace.sampleRoot none sampleInvite
        (codeOf sampleCode.val) 1700000000 1700000000 ↔
      IsSingleLine sampleIssuer.deviceId sampleIssuer.relayOrigin sampleIssuer.inboxUrl ∧
        (1700000000 : UInt64).toNat ≠ 2 ^ 64 - 1 ∧ ¬HasLowercase (codeOf sampleCode.val) :=
  agrees_iff sampleInvite_created rfl rfl (by simp) (by decide) (UInt64.le_refl _)
    (by decide) Ed25519.sample_correct (fun _ _ => rfl) (by decide)

end InviteIssuer
