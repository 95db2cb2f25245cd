import AnotherDimension.Invites.Receipt
import AnotherDimension.Invites.Theorems.Agreement
import AnotherDimension.Relay.Theorems.Durability

-- The receipt for a consumed code is accepted by the daemon that consumed it, and no other is.

open Identity

namespace Relay

variable {services : Services} {ed25519 : Ed25519} {call : Call} {request : Request} {s : State}
  {r : Reply × State} {record : Invite} {origin code form invite : String} {timestamp : UInt64}

section

variable (services : Services) (origin code invite : String) (timestamp : UInt64)

-- The parts of a receipt that are signed.
def receiptParts : List String :=
  ["ADRECEIPT1", Bytes.toHex (services.sha256 services.verifyingKey.val).val,
    Bytes.toHex (Bytes.utf8 origin), codeHash services code,
    Bytes.toHex (services.sha256 <| Bytes.utf8 invite).val, Text.formatU64 timestamp]

def receiptBody : String :=
  (String.singleton '.').intercalate (receiptParts services origin code invite timestamp)

theorem receiptParts_ne_nil : receiptParts services origin code invite timestamp ≠ [] :=
  List.cons_ne_nil _ _

theorem receipt_eq :
    receipt services origin code invite timestamp =
      (String.singleton '.').intercalate (receiptParts services origin code invite timestamp ++
        [Bytes.toHex (services.sign <| Bytes.utf8 <|
          receiptBody services origin code invite timestamp).val]) := by
  have hb : receiptBody services origin code invite timestamp = "ADRECEIPT1." ++
      Bytes.toHex (services.sha256 services.verifyingKey.val).val ++ "." ++
      Bytes.toHex (Bytes.utf8 origin) ++ "." ++ codeHash services code ++ "." ++
      Bytes.toHex (services.sha256 <| Bytes.utf8 invite).val ++ "." ++ Text.formatU64 timestamp := by
    refine String.toList_inj.mp ?_
    simp [receiptBody, receiptParts]
  rw [Text.intercalate_concat (receiptParts_ne_nil services origin code invite timestamp)]
  change _ = receiptBody services origin code invite timestamp ++ _ ++ _
  rw [hb]
  rfl

theorem dot_not_mem_receiptParts :
    ∀ part ∈ receiptParts services origin code invite timestamp, '.' ∉ part.toList := by
  have hd : '.' ∉ (Text.formatU64 timestamp).toList := fun h =>
    absurd (Text.isDigit_of_mem_formatU64 h) (by decide)
  simp only [receiptParts, codeHash, List.forall_mem_cons]
  exact ⟨by decide, Bytes.not_mem_toHex (by decide) _, Bytes.not_mem_toHex (by decide) _,
    Bytes.not_mem_toHex (by decide) _, Bytes.not_mem_toHex (by decide) _, hd, by simp⟩

end

-- What the handlers do to the list of codes.

def Invite.IsValidated (services : Services) (origin : String) (record : Invite) : Prop :=
  ∃ time, services.validateInvite record.invite origin time = true

-- A record of the list before, or one for an invite that was checked.
def State.Gives (services : Services) (s : State) (record : Invite) : Prop :=
  record ∈ s.invites ∨ record.IsValidated services s.origin

theorem gives_limited {handler : State → Reply × State}
    (h : ∀ s, ∀ record ∈ (handler s).snd.invites, s.Gives services record) :
    ∀ record ∈ (s.limited call handler).snd.invites, s.Gives services record := by
  unfold State.limited
  split
  case h_1 hr =>
    obtain ⟨_, rfl⟩ := Prod.mk.inj hr
    exact fun _ => .inl
  case h_2 hr =>
    obtain ⟨_, rfl⟩ := Prod.mk.inj hr
    exact h _

theorem gives_createInvite {body : Bytes} :
    ∀ record ∈ (s.createInvite services call body).snd.invites, s.Gives services record := by
  refine gives_limited fun s record => ?_
  split
  case h_1 => exact .inl
  case h_2 =>
    split
    case h_1 => exact .inl
    case h_2 =>
      split
      case isTrue => exact .inl
      case isFalse hv =>
        split
        case h_1 => exact .inl
        case h_2 =>
          simp only [State.persistInvites]
          split_ifs
          case pos => exact fun h => .inl <| List.mem_of_mem_filter h
          all_goals
            intro h
            rcases List.mem_append.mp h with h | h
            case inl => exact .inl <| List.mem_of_mem_filter h
            case inr =>
              cases List.mem_singleton.mp h
              exact .inr ⟨call.checkedAt, by simpa using (not_or.mp hv).right⟩

theorem exists_invite_of_mem_updateFirst {p : Invite → Bool} {f : Invite → Invite}
    {invites : List Invite} (hf : ∀ record, (f record).invite = record.invite)
    (h : record ∈ updateFirst p f invites) : ∃ old ∈ invites, old.invite = record.invite := by
  fun_induction updateFirst p f invites
  case case1 => cases h
  case case2 invite invites _ =>
    rcases List.mem_cons.mp h with rfl | h
    case inl => exact ⟨invite, List.mem_cons_self, (hf invite).symm⟩
    case inr => exact ⟨record, List.mem_cons_of_mem _ h, rfl⟩
  case case3 invite invites _ hi =>
    rcases List.mem_cons.mp h with rfl | h
    case inl => exact ⟨record, List.mem_cons_self, rfl⟩
    case inr =>
      obtain ⟨old, ho, he⟩ := hi h
      exact ⟨old, List.mem_cons_of_mem _ ho, he⟩

-- The file is the one before, or is that of the codes now.
theorem Effect.inviteFile (he : Effect services call request s r) :
    r.snd.origin = s.origin ∧
      (r.snd.inviteFile = s.inviteFile ∨ r.snd.inviteFile = some (invitesFile r.snd.invites)) := by
  cases he
  case post | get | ack =>
    rw [State.persist]
    split_ifs <;> exact ⟨rfl, .inl rfl⟩
  case create | consume | respond =>
    rw [State.persistInvites]
    split_ifs
    case pos => exact ⟨rfl, .inr rfl⟩
    case neg => exact ⟨rfl, .inl rfl⟩
  all_goals exact ⟨rfl, .inl rfl⟩

theorem Effect.exists_invite (he : Effect services call request s r)
    (hn : ∀ body, request ≠ .createInvite body) (h : record ∈ r.snd.invites) :
    ∃ old ∈ s.invites, old.invite = record.invite := by
  cases he
  case post | get | ack =>
    rw [State.persist] at h
    split_ifs at h <;> exact ⟨record, h, rfl⟩
  case consume code _ _ _ =>
    rw [State.persistInvites] at h
    split_ifs at h
    all_goals exact exists_invite_of_mem_updateFirst (f := Invite.consume call.now) (fun _ => rfl) h
  case respond response _ _ _ _ _ =>
    rw [State.persistInvites] at h
    split_ifs at h
    all_goals exact exists_invite_of_mem_updateFirst (f := Invite.respond response) (fun _ => rfl) h
  case createFull | create => exact absurd rfl (hn _)
  all_goals exact ⟨record, h, rfl⟩

theorem isValidated_handle (hi : ∀ record ∈ s.invites, record.IsValidated services s.origin)
    (h : record ∈ (s.handle services call request).snd.invites) :
    record.IsValidated services s.origin := by
  by_cases hc : ∃ body, request = .createInvite body
  case pos =>
    obtain ⟨body, rfl⟩ := hc
    unfold State.handle at h
    split at h
    case isTrue  => exact hi record h
    case isFalse => exact (gives_createInvite record h).elim (hi record) id
  case neg =>
    have ⟨_, he⟩ := handle_effect services s call request
    have ⟨old, ho, hold⟩ := he.exists_invite (fun body hb => hc ⟨body, hb⟩) h
    rw [Invite.IsValidated, ← hold]
    exact hi old ho

-- Every invite a code was given for was checked against the origin of the relay.
structure State.IsIssued (services : Services) (origin : String) (s : State) : Prop where
  isAt    : s.origin = origin
  invites : ∀ record ∈ s.invites, record.IsValidated services origin
  file    : ∀ saved, loadInvites services.readInvites s.inviteFile = .ok saved →
    ∀ record ∈ saved, record.IsValidated services origin

theorem mem_loadInvites {file : Bytes} {saved invites : List Invite}
    (hr : services.readInvites file = some invites)
    (h : loadInvites services.readInvites (some file) = .ok saved) : saved = invites := by
  simp only [loadInvites, hr] at h
  split_ifs at h
  exact (Except.ok.inj h).symm

theorem State.IsIssued.step {event : Event} (h : s.IsIssued services origin)
    (hr : (s.step services event).Reads services) :
    (s.step services event).IsIssued services origin := by
  cases event
  case request call request =>
    obtain ⟨_, he⟩ := handle_effect services s call request
    obtain ⟨ho, hf⟩ := he.inviteFile
    have hi : ∀ record ∈ (s.handle services call request).snd.invites,
        record.IsValidated services origin := by
      intro record hm
      rw [← h.isAt]
      exact isValidated_handle (h.isAt ▸ h.invites) hm
    refine ⟨ho.trans h.isAt, hi, fun saved hs => ?_⟩
    rcases hf with hf | hf
    case inl => exact h.file saved <| hf ▸ hs
    case inr =>
      change loadInvites services.readInvites (s.handle services call request).snd.inviteFile = _ at hs
      rw [hf] at hs
      exact mem_loadInvites hr.right hs ▸ hi
  case restart now =>
    rw [State.step]
    split
    case h_1 s' hs =>
      unfold State.restart at hs
      cases hl : loadInvites services.readInvites s.inviteFile
      case error => simp [hl, bind, Except.bind] at hs
      case ok saved =>
        cases hi : loadStore services.readItems s.inboxFile
        case error => simp [hl, hi, bind, Except.bind] at hs
        case ok items =>
          simp only [hl, hi, bind, Except.bind, pure, Except.pure, Except.ok.injEq] at hs
          subst hs
          exact ⟨h.isAt, h.file saved hl, h.file⟩
    case h_2 => exact ⟨h.isAt, by simp, h.file⟩

theorem isIssued_fresh (capability origin : String) (now : UInt64) :
    (State.fresh capability origin now).IsIssued services origin where
  isAt    := rfl
  invites := nofun
  file    := by
    intro saved hs
    cases hs
    exact nofun

-- Both programs read one origin in a signed invite.

theorem hexPairs_of_fromHexDigits {cs : List Char} {bytes : Bytes}
    (h : Bytes.fromHexDigits cs = some bytes) : hexPairs cs = some bytes := by
  fun_induction Bytes.fromHexDigits cs generalizing bytes
  case case1 => exact h
  case case2 => cases h
  case case3 c₁ c₂ cs hi =>
    simp only [Option.bind_eq_bind, Option.bind_eq_some_iff] at h
    obtain ⟨high, hh, low, hl, rest, hr, hb⟩ := h
    have hp : c₁ ≠ '+' := by
      rintro rfl
      have hn : Bytes.hexValue '+' = none := by decide
      simp [hn] at hh
    simp only [hexPairs, hexPair, if_neg hp, hh, hl, hi hr, Option.bind_eq_bind, Option.bind_some,
      pure]
    exact hb

theorem hexDecode_of_hexDecode {value : String} {bytes : Bytes}
    (h : Invites.hexDecode value = some bytes) : hexDecode value = some bytes := by
  unfold Invites.hexDecode at h
  split_ifs at h
  exact hexPairs_of_fromHexDigits h

theorem readLines_relayOrigin {sha256 : Bytes → ByteBlock 32} {expected : Option String}
    {ls : List String} {now : UInt64} {verified : VerifiedInvite}
    (h : Invites.readLines sha256 expected now ls = some verified) :
    ls[5]? = some verified.relayOrigin := by
  unfold Invites.readLines at h
  split at h
  case h_2 => cases h
  case h_1 =>
    simp only [Option.bind_eq_bind, Option.bind_eq_some_iff] at h
    obtain ⟨_, _, h⟩ := h
    split_ifs at h
    cases h
    rfl

theorem validateLines_origin {payload : Bytes} {signature : ByteBlock 64} {ls : List String}
    {now : UInt64} (h : validateLines ed25519 payload signature origin now ls) :
    ls[5]? = some origin := by
  unfold validateLines at h
  split at h
  case h_2 => cases h
  case h_1 =>
    simp only at h
    split at h
    case h_2 => cases h
    case h_1 =>
      simp only [Bool.and_eq_true, decide_eq_true_eq] at h
      exact congrArg some h.left.left.right

theorem relayOrigin_of_validateInvite {sha256 : Bytes → ByteBlock 32} {time now : UInt64}
    {verified : VerifiedInvite} (hv : validateInvite ed25519 invite origin time)
    (hs : Invites.verifySignedInviteUnbound ed25519 sha256 invite now = some verified) :
    verified.relayOrigin = origin := by
  unfold Invites.verifySignedInviteUnbound Invites.verifySignedInviteWithCode at hs
  split at hs
  case h_2 => cases hs
  case h_1 kind payload signature hparts =>
    simp only [Option.bind_eq_bind, Option.bind_eq_some_iff] at hs
    obtain ⟨bytes, hp, sbytes, hsb, block, hb, text, ht, read, hr, key, _, hs⟩ := hs
    split_ifs at hs
    cases hs
    simp only [validateInvite, hparts, hexDecode_of_hexDecode hp, hexDecode_of_hexDecode hsb,
      Option.bind_some, hb, ht, Bool.and_eq_true] at hv
    exact Option.some.inj <| (readLines_relayOrigin hr).symm.trans (validateLines_origin hv.right)

-- The ways to write a code of the relay.

theorem mem_codeAlphabet {c : Char} (h : c ∈ codeAlphabet) :
    Text.toAsciiUppercase c = c ∧ Text.isAscii c ∧ c ≠ '-' ∧ c ≠ ' ' := by
  have ha : codeAlphabet.all fun c =>
      Text.toAsciiUppercase c = c && Text.isAscii c && c ≠ '-' && c ≠ ' ' := by
    decide
  simpa [and_assoc] using List.all_eq_true.mp ha c h

theorem mem_inviteCode {random : ByteBlock 32} {c : Char} (h : c ∈ (inviteCode random).toList)
    (hc : c ≠ '-') : c ∈ codeAlphabet := by
  have hi : ∀ pieces : List (List Char), c ∈ List.intercalate ['-'] pieces → c ∈ pieces.flatten := by
    intro pieces
    induction pieces
    case nil => exact id
    case cons piece pieces hi =>
      match pieces with
      | []      => simp
      | _ :: _  =>
        rw [List.intercalate_cons_cons]
        simp only [List.mem_append, List.mem_singleton, List.flatten_cons, hc, or_false]
        exact Or.imp_right (by simpa using hi)
  rw [inviteCode, String.toList_ofList] at h
  have hm := hi _ h
  rw [List.flatten_chunks (by decide)] at hm
  have ⟨byte, _, hb⟩ := List.mem_map.mp hm
  have hl : byte.toNat % 32 < codeAlphabet.length := Nat.mod_lt _ (by decide)
  rw [← hb, List.getD_eq_getElem _ _ hl]
  exact List.getElem_mem hl

-- Hyphens and spaces anywhere, in upper or lower case.
def IsDisplayForm (code form : String) : Prop :=
  (form.toList.filter fun c => c ≠ '-' ∧ c ≠ ' ').map Text.toAsciiUppercase =
    code.toList.filter (· ≠ '-')

instance (code form : String) : Decidable (IsDisplayForm code form) :=
  inferInstanceAs (Decidable (_ = _))

theorem isAscii_of_toAsciiUppercase {c : Char} (h : Text.isAscii (Text.toAsciiUppercase c)) :
    Text.isAscii c := by
  unfold Text.toAsciiUppercase at h
  split_ifs at h with hl
  case neg => exact h
  case pos =>
    simp only [Bool.and_eq_true, decide_eq_true_eq] at hl
    have hz : c.toNat ≤ 'z'.toNat := hl.right
    exact decide_eq_true (hz.trans_lt (by decide))

section

variable {random : ByteBlock 32} {toUppercase : Char → List Char}

theorem normalizedCode_inviteCode (hu : Text.UppercaseOfAscii toUppercase) :
    (Invites.normalizedCode toUppercase (inviteCode random)).toList =
      (inviteCode random).toList.filter (· ≠ '-') := by
  have hc : ∀ c ∈ (inviteCode random).toList.filter (· ≠ '-'), toUppercase c = [c] := by
    intro c hc
    have ⟨hm, hn⟩ := List.mem_filter.mp hc
    have ⟨hup, ha, _⟩ := mem_codeAlphabet <| mem_inviteCode hm (by simpa using hn)
    rw [hu c ha, hup]
  rw [Invites.normalizedCode, String.toList_ofList, List.flatMap_congr hc, List.flatMap_singleton']

theorem normalizedCode_form_iff (hu : Text.UppercaseOfAscii toUppercase)
    (h : IsDisplayForm (inviteCode random) form) :
    Invites.normalizedCode toUppercase form =
      Invites.normalizedCode toUppercase (inviteCode random) ↔ ' ' ∉ form.toList := by
  rw [← String.toList_inj, normalizedCode_inviteCode hu]
  constructor
  case mp =>
    intro he hs
    have hm : ' ' ∈ (Invites.normalizedCode toUppercase form).toList := by
      rw [Invites.normalizedCode, String.toList_ofList, List.mem_flatMap]
      exact ⟨' ', List.mem_filter.mpr ⟨hs, rfl⟩, by rw [hu ' ' rfl]; decide⟩
    have ⟨hc, hn⟩ := List.mem_filter.mp (he ▸ hm)
    exact (mem_codeAlphabet <| mem_inviteCode hc (by decide)).right.right.right rfl
  case mpr =>
    intro hs
    have hf : form.toList.filter (· ≠ '-') = form.toList.filter fun c => c ≠ '-' ∧ c ≠ ' ' := by
      refine List.filter_congr fun c hc => ?_
      have hn : c ≠ ' ' := fun he => hs (he ▸ hc)
      simp [hn]
    have hup : ∀ c ∈ form.toList.filter fun c => c ≠ '-' ∧ c ≠ ' ',
        toUppercase c = [Text.toAsciiUppercase c] := by
      intro c hc
      have hm := h ▸ List.mem_map_of_mem (f := Text.toAsciiUppercase) hc
      have ⟨hc, hn⟩ := List.mem_filter.mp hm
      have ⟨_, ha, _⟩ := mem_codeAlphabet <| mem_inviteCode hc (by simpa using hn)
      exact hu c <| isAscii_of_toAsciiUppercase ha
    rw [← h, Invites.normalizedCode, String.toList_ofList, hf, List.flatMap_congr hup,
      ← List.map_eq_flatMap]

end

-- What a request finds that names a code and is not refused for its rate.
theorem consumeInvite_eq {body : Bytes} {value : JsonValue}
    (hl : (s.rateLimited call.arrivedAt).fst = false) (hb : services.fromSlice body = some value)
    (hc : (value.get "code").bind JsonValue.asStr = some code) (hs : call.stored)
    (hf : s.invites.find? (·.isOpen (codeHash services code) call.now) = some record) :
    (s.consumeInvite services call body).fst =
      consumedReply services s.origin code record call.now := by
  have hp : s.rateLimited call.arrivedAt = (false, (s.rateLimited call.arrivedAt).snd) :=
    Prod.ext hl rfl
  have hf' : (s.rateLimited call.arrivedAt).snd.invites.find?
      (·.isOpen (codeHash services code) call.now) = some record := hf
  unfold State.consumeInvite State.limited
  rw [hp]
  simp only [hb, hc, hf', State.persistInvites, hs, if_true]
  rfl

theorem createInvite_eq {body : Bytes} {value : JsonValue} {random : ByteBlock 32}
    (hl : (s.rateLimited call.arrivedAt).fst = false) (hb : services.fromSlice body = some value)
    (hi : (value.get "invite").bind JsonValue.asStr = some invite)
    (hm : invite.utf8ByteSize ≤ 96 * 1024)
    (hv : services.validateInvite invite s.origin call.checkedAt) (hr : call.random = some random)
    (hn : s.invites = []) :
    s.createInvite services call body =
      State.persistInvites { (s.rateLimited call.arrivedAt).snd with
        invites := [Invite.created services call random invite] } call
        (createdReply (inviteCode random) <| Invite.created services call random invite) := by
  have hp : s.rateLimited call.arrivedAt = (false, (s.rateLimited call.arrivedAt).snd) :=
    Prod.ext hl rfl
  have hn' : (s.rateLimited call.arrivedAt).snd.invites = [] := hn
  have hv' : services.validateInvite invite (s.rateLimited call.arrivedAt).snd.origin
      call.checkedAt = true := hv
  unfold State.createInvite State.limited
  rw [hp]
  simp only [hb, hi, hr, hn', hv', List.filter_nil, List.length_nil, List.nil_append]
  rw [if_neg (by simpa using hm), if_neg (by decide)]
  rfl

section

-- Ed25519 with the strict check, and the two functions both programs share.
variable {verifyStrict : (publicKey : ByteBlock 32) → (message : Bytes) → ByteBlock 64 → Bool}
  {trust : Option RelayTrust} {verified : VerifiedInvite} {now : UInt64} {text : String}

theorem hexDecode_toHex_getD (bytes : Bytes) :
    (Invites.hexDecode (Bytes.toHex bytes)).getD [] = bytes := by
  by_cases h : bytes = []
  case pos =>
    rw [h]
    rfl
  case neg => rw [Invites.hexDecode_toHex h, Option.getD_some]

theorem verifyRelayReceipt_receipt
    (correct : let message := Bytes.utf8 <| receiptBody services origin code invite timestamp
      verifyStrict services.verifyingKey message (services.sign message))
    (trusted : trust.all (·.allows services.sha256 services.verifyingKey))
    (ho : verified.relayOrigin = origin)
    (clock : timestamp.toNat ≤ now.toNat + 300) :
    Invites.verifyRelayReceipt verifyStrict services.sha256 services.toUppercase code invite
      (receipt services origin code invite timestamp) verified (some services.verifyingKey) trust
      now := by
  have hd := dot_not_mem_receiptParts services origin code invite timestamp
  have hn := receiptParts_ne_nil services origin code invite timestamp
  have hle : timestamp ≤ now.saturatingAdd 300 := by
    have h300 : (300 : UInt64).toNat = 300 := rfl
    have := timestamp.toNat_lt
    rw [UInt64.le_iff_toNat_le, UInt64.toNat_saturatingAdd, h300]
    omega
  generalize hb : services.sign (Bytes.utf8 <| receiptBody services origin code invite timestamp) =
    signature
  have hs : '.' ∉ (Bytes.toHex signature.val).toList := Bytes.not_mem_toHex (by decide) _
  have hsplit : Text.split '.' (receipt services origin code invite timestamp) =
      receiptParts services origin code invite timestamp ++ [Bytes.toHex signature.val] := by
    rw [receipt_eq, hb]
    exact Text.split_intercalate (List.forall_mem_append.mpr ⟨hd, List.forall_mem_singleton.mpr hs⟩)
      (List.concat_ne_nil _ _)
  have hbody : Text.rsplitOnce '.' (receipt services origin code invite timestamp) =
      some (receiptBody services origin code invite timestamp, Bytes.toHex signature.val) := by
    rw [receipt_eq, hb]
    exact Text.rsplitOnce_intercalate hd hs hn
  have hblock : (Invites.hexDecode (Bytes.toHex signature.val)).bind (ByteBlock.ofBytes 64) =
      some signature := by
    have hne : signature.val ≠ [] := List.ne_nil_of_length_pos (by rw [signature.property]; decide)
    simp [Invites.hexDecode_toHex hne, ByteBlock.ofBytes, signature.property]
  simp only [hb] at correct
  unfold Invites.verifyRelayReceipt
  simp only [hsplit, receiptParts, List.cons_append, List.nil_append, hbody, hblock, trusted,
    hexDecode_toHex_getD, Bytes.fromUtf8_utf8, ho, Text.parseU64_formatU64, Option.any_some,
    Option.map_some, Option.bind_some, correct, hle, codeHash, Invites.normalizedCode, decide_true,
    Bool.and_self]

-- What the relay has signed with its key: nothing else passes the check.
structure Services.HasSigned (services : Services)
    (verifyStrict : (publicKey : ByteBlock 32) → (message : Bytes) → ByteBlock 64 → Bool)
    (signed : (origin code invite : String) → (timestamp : UInt64) → Prop) : Prop where
  correct : ∀ origin code invite timestamp, signed origin code invite timestamp →
    let message := Bytes.utf8 <| receiptBody services origin code invite timestamp
    verifyStrict services.verifyingKey message (services.sign message)
  unforgeable : ∀ message signature, verifyStrict services.verifyingKey message signature →
    ∃ origin code invite timestamp, signed origin code invite timestamp ∧
      message = Bytes.utf8 (receiptBody services origin code invite timestamp)

-- A receipt that is accepted was signed, for the same origin, code and invite.
theorem exists_signed_of_verifyRelayReceipt {signed : String → String → String → UInt64 → Prop}
    (hsigned : services.HasSigned verifyStrict signed)
    (h : Invites.verifyRelayReceipt verifyStrict services.sha256 services.toUppercase code invite
      text verified (some services.verifyingKey) trust now) :
    trust.all (·.allows services.sha256 services.verifyingKey) ∧
      ∃ code' invite' timestamp, signed verified.relayOrigin code' invite' timestamp ∧
        codeHash services code' = codeHash services code ∧
        services.sha256 (Bytes.utf8 invite') = services.sha256 (Bytes.utf8 invite) ∧
        timestamp ≤ now.saturatingAdd 300 := by
  unfold Invites.verifyRelayReceipt at h
  split at h
  case h_2 => cases h
  case h_1 kind keyId origin' hash digest consumedAt signature key hparts hkey =>
    cases hkey
    simp only [Bool.and_eq_true, decide_eq_true_eq] at h
    obtain ⟨⟨⟨⟨⟨⟨⟨_, htrust⟩, horigin⟩, _⟩, hhash⟩, hdigest⟩, htime⟩, hsig⟩ := h
    refine ⟨htrust, ?_⟩
    rw [Option.bind_eq_some_iff] at hsig
    obtain ⟨block, hblock, hsig⟩ := hsig
    rw [Option.map_eq_some_iff] at hsig
    obtain ⟨body, hbody, hsig⟩ := hsig
    obtain ⟨o, c, i, t, hs, he⟩ := hsigned.unforgeable _ _ hsig
    have hall : ∀ part ∈ Text.split '.' text, '.' ∉ part.toList := fun _ =>
      Text.not_mem_of_mem_split
    rw [hparts] at hall
    have hlast : '.' ∉ signature.toList := hall signature (by simp)
    have hb : body = (String.singleton '.').intercalate
        [kind, keyId, origin', hash, digest, consumedAt] := by
      simpa [Text.rsplitOnce, hparts] using hbody.symm
    -- The text is that of the signed parts and the signature, so these are its parts.
    have htext : text = (String.singleton '.').intercalate
        (receiptParts services o c i t ++ [signature]) := by
      rw [Text.intercalate_concat (receiptParts_ne_nil services o c i t)]
      change _ = receiptBody services o c i t ++ _ ++ _
      rw [← Bytes.utf8_injective he, hb, ← Text.intercalate_concat (List.cons_ne_nil _ _),
        ← Text.intercalate_split '.' text, hparts]
      rfl
    have hsplit := Text.split_intercalate (List.forall_mem_append.mpr
      ⟨dot_not_mem_receiptParts services o c i t, List.forall_mem_singleton.mpr hlast⟩)
      (List.concat_ne_nil _ _)
    rw [← htext, hparts] at hsplit
    simp only [receiptParts, List.cons_append, List.nil_append, List.cons.injEq] at hsplit
    obtain ⟨_, _, ho, hc, hd, ht, _⟩ := hsplit
    rw [ho, hexDecode_toHex_getD, Bytes.fromUtf8_utf8, Option.some.injEq] at horigin
    rw [ht, Text.parseU64_formatU64, Option.any_some, decide_eq_true_eq] at htime
    refine ⟨c, i, t, horigin ▸ hs, ?_, ?_, htime⟩
    case refine_1 => exact hc.symm.trans hhash
    case refine_2 => exact Subtype.ext <| Bytes.toHex_injective <| hd.symm.trans hdigest

-- A request with a form of a code that is open.
structure Redemption (services : Services) (s : State) (call : Call) (body : Bytes)
    (code form : String) (record : Invite) : Prop where
  written  : IsDisplayForm code form
  isOpen   : s.invites.find? (·.isOpen (codeHash services code) call.now) = some record
  named    : ∃ value, services.fromSlice body = some value ∧
    (value.get "code").bind JsonValue.asStr = some form
  admitted : (s.rateLimited call.arrivedAt).fst = false
  stored   : call.stored

-- The relay finds the record of the code, and the daemon accepts what the relay answers.
def Redeems
    (verifyStrict : (publicKey : ByteBlock 32) → (message : Bytes) → ByteBlock 64 → Bool)
    (services : Services) (s : State) (call : Call) (body : Bytes) (form : String) (record : Invite)
    (verified : VerifiedInvite) (trust : Option RelayTrust) (now : UInt64) : Prop :=
  s.invites.find? (·.isOpen (codeHash services form) call.now) = some record ∧
    (s.consumeInvite services call body).fst =
      consumedReply services s.origin form record call.now ∧
    Invites.verifyRelayReceipt verifyStrict services.sha256 services.toUppercase form record.invite
      (receipt services s.origin form record.invite call.now) verified (some services.verifyingKey)
      trust now

variable {signed : String → String → String → UInt64 → Prop} {random : ByteBlock 32} {body : Bytes}

theorem codeHash_form_iff (uppercase : Text.UppercaseOfAscii services.toUppercase)
    (written : IsDisplayForm (inviteCode random) form)
    (collisionFree : let normalized := Invites.normalizedCode services.toUppercase
      services.sha256 (Bytes.utf8 <| normalized form) =
        services.sha256 (Bytes.utf8 <| normalized <| inviteCode random) →
          normalized form = normalized (inviteCode random)) :
    codeHash services form = codeHash services (inviteCode random) ↔ ' ' ∉ form.toList := by
  rw [← normalizedCode_form_iff uppercase written]
  constructor
  case mp  => exact fun h => collisionFree <| Subtype.ext <| Bytes.toHex_injective h
  case mpr => exact fun h => congrArg (fun text => Bytes.toHex (services.sha256 <| Bytes.utf8 text).val) h

theorem redeems_iff (issued : s.IsIssued services origin)
    (uppercase : Text.UppercaseOfAscii services.toUppercase)
    (validates : services.validateInvite = validateInvite ed25519)
    (request : Redemption services s call body (inviteCode random) form record)
    (hverified : Invites.verifySignedInviteUnbound ed25519 services.sha256 record.invite now =
      some verified)
    (trusted : trust.all (·.allows services.sha256 services.verifyingKey))
    (clock : call.now.toNat ≤ now.toNat + 300)
    (correct : let message := Bytes.utf8 <| receiptBody services s.origin form record.invite call.now
      s.invites.find? (·.isOpen (codeHash services form) call.now) = some record →
        verifyStrict services.verifyingKey message (services.sign message))
    (collisionFree : let normalized := Invites.normalizedCode services.toUppercase
      services.sha256 (Bytes.utf8 <| normalized form) =
        services.sha256 (Bytes.utf8 <| normalized <| inviteCode random) →
          normalized form = normalized (inviteCode random)) :
    Redeems verifyStrict services s call body form record verified trust now ↔
      ' ' ∉ form.toList := by
  rw [← codeHash_form_iff uppercase request.written collisionFree]
  constructor
  case mp =>
    rintro ⟨hf, _⟩
    have hform := List.find?_some hf
    have hcode := List.find?_some request.isOpen
    simp only [Invite.isOpen, Bool.and_eq_true, decide_eq_true_eq] at hform hcode
    exact hform.left.left.symm.trans hcode.left.left
  case mpr =>
    intro hh
    have hf : s.invites.find? (·.isOpen (codeHash services form) call.now) = some record := by
      rw [hh]
      exact request.isOpen
    obtain ⟨value, hb, hc⟩ := request.named
    obtain ⟨time, hv⟩ := issued.invites record <| List.mem_of_find?_eq_some hf
    have ho : verified.relayOrigin = s.origin := by
      rw [issued.isAt]
      exact relayOrigin_of_validateInvite (validates ▸ hv) hverified
    exact ⟨hf, consumeInvite_eq request.admitted hb hc request.stored hf,
      verifyRelayReceipt_receipt (correct hf) trusted ho clock⟩

-- In every state the relay reaches, a form of an open code is redeemed but for a space in it, and
-- a daemon accepts no receipt that the relay has not signed.
theorem redeems_iff_and_signed {capability origin : String} {start : UInt64} {events : List Event}
    (reached : s ∈ Run.states (State.step services) (.fresh capability origin start) events)
    (reads : ∀ s ∈ Run.states (State.step services) (.fresh capability origin start) events,
      s.Reads services)
    (uppercase : Text.UppercaseOfAscii services.toUppercase)
    (validates : services.validateInvite = validateInvite ed25519)
    (hsigned : services.HasSigned verifyStrict signed)
    (request : Redemption services s call body (inviteCode random) form record)
    (hverified : Invites.verifySignedInviteUnbound ed25519 services.sha256 record.invite now =
      some verified)
    (trusted : trust.all (·.allows services.sha256 services.verifyingKey))
    (clock : call.now.toNat ≤ now.toNat + 300)
    (signs : s.invites.find? (·.isOpen (codeHash services form) call.now) = some record →
      signed s.origin form record.invite call.now)
    (collisionFree : let normalized := Invites.normalizedCode services.toUppercase
      services.sha256 (Bytes.utf8 <| normalized form) =
        services.sha256 (Bytes.utf8 <| normalized <| inviteCode random) →
          normalized form = normalized (inviteCode random)) :
    (Redeems verifyStrict services s call body form record verified trust now ↔
      ' ' ∉ form.toList) ∧
    ∀ code invite text verified trust now,
      Invites.verifyRelayReceipt verifyStrict services.sha256 services.toUppercase code invite text
        verified (some services.verifyingKey) trust now →
      trust.all (·.allows services.sha256 services.verifyingKey) ∧
        ∃ code' invite' timestamp, signed verified.relayOrigin code' invite' timestamp ∧
          codeHash services code' = codeHash services code ∧
          services.sha256 (Bytes.utf8 invite') = services.sha256 (Bytes.utf8 invite) ∧
          timestamp ≤ now.saturatingAdd 300 := by
  have hissued : ∀ s ∈ Run.states (State.step services) (.fresh capability origin start) events,
      s.IsIssued services origin :=
    (Run.Meets.of_forall_next reads).forall_states (fun _ _ h hr => h.step hr)
      (isIssued_fresh capability origin start)
  exact ⟨redeems_iff (hissued s reached) uppercase validates request hverified trusted clock
    (fun hf => hsigned.correct _ _ _ _ <| signs hf) collisionFree,
    fun _ _ _ _ _ _ => exists_signed_of_verifyRelayReceipt hsigned⟩

end

-- A relay with one code, that a person types in lower case or reads with spaces.

def typedForm : String := "aaaa-aaaa-aaaa-aaaa-aaaa-aaaa-aa"

def spacedForm : String := "AAAA AAAA AAAA AAAA AAAA AAAA AA"

-- The SHA-256 digests of the code, of the code with spaces, of the key and of the invite.
def receiptSha256 (bytes : Bytes) : ByteBlock 32 :=
  if bytes = Bytes.utf8 "AAAAAAAAAAAAAAAAAAAAAAAAAA" then
    ⟨[6, 244, 105, 201, 124, 20, 232, 76, 116, 133, 59, 185, 106, 167, 147, 5,
      235, 79, 102, 53, 41, 27, 241, 32, 44, 79, 218, 219, 130, 112, 98, 4], rfl⟩
  else if bytes = Bytes.utf8 spacedForm then
    ⟨[251, 41, 216, 254, 195, 23, 23, 113, 93, 114, 191, 185, 194, 121, 28, 68,
      51, 40, 183, 158, 60, 179, 103, 175, 210, 255, 148, 128, 88, 250, 69, 213], rfl⟩
  else if bytes = .replicate 32 7 then
    ⟨[75, 176, 111, 142, 78, 58, 119, 21, 210, 1, 213, 115, 208, 170, 66, 55,
      98, 229, 93, 171, 214, 26, 44, 2, 39, 143, 165, 108, 198, 210, 148, 224], rfl⟩
  else
    ⟨[193, 186, 153, 60, 5, 41, 88, 218, 219, 242, 114, 82, 118, 203, 72, 122,
      15, 122, 201, 50, 97, 22, 49, 238, 183, 73, 248, 64, 95, 134, 150, 0], rfl⟩

def receiptRandom : ByteBlock 32 := ⟨.replicate 32 10, rfl⟩

def receiptCall : Call where
  arrivedAt := 1700000000
  checkedAt := 1700000000
  now       := 1700000000
  stored    := true
  random    := some receiptRandom

def unreadServices : Services where
  fromSlice body :=
    match body with
    | [1] => some <| .object [("invite", .string InviteIssuer.sampleInvite)]
    | [2] => some <| .object [("code", .string typedForm)]
    | [3] => some <| .object [("code", .string spacedForm)]
    | _   => none
  readItems      := Reader.of itemsFile id [[]]
  readInvites _  := none
  sha256         := receiptSha256
  toUppercase c  := [Text.toAsciiUppercase c]
  validateInvite := validateInvite .sample
  verifyingKey   := .fill 32 7
  sign           := Ed25519.sample.sign (.fill 32 7)

def receiptRecord : Invite :=
  .created unreadServices receiptCall receiptRandom InviteIssuer.sampleInvite

def receiptServices : Services :=
  { unreadServices with
    readInvites := fun bytes => if bytes.length = 2 then some [] else some [receiptRecord] }

def receiptFresh : State := .fresh "inbox" "https://relay.example" 1700000000

def receiptState : State :=
  { receiptFresh with
    invites    := [receiptRecord]
    window     := ⟨1700000000, 1⟩
    inviteFile := some (invitesFile [receiptRecord]) }

def receiptEvents : List Event := [.request receiptCall (.createInvite [1])]

theorem sampleIssuer_isSingleLine :
    Invites.IsSingleLine InviteIssuer.sampleIssuer.deviceId InviteIssuer.sampleIssuer.relayOrigin
      InviteIssuer.sampleIssuer.inboxUrl := by
  simp [Invites.IsSingleLine, InviteIssuer.sampleIssuer]

theorem sampleRoot_correct (message : Bytes) :
    Ed25519.sample.verify (RegistryTrace.sampleRoot.publicKey .sample) message
      (Ed25519.sample.sign RegistryTrace.sampleRoot.seed message) :=
  Ed25519.sample_correct _ message

theorem sampleInvite_valid : validateInvite .sample InviteIssuer.sampleInvite
    "https://relay.example" 1700000000 := by
  unfold InviteIssuer.sampleInvite InviteIssuer.signedBy
  rw [Invites.validateInvite_signedInvite, Invites.split_payload sampleIssuer_isSingleLine (by simp)]
  refine Invites.validateLines_lines.trans ?_
  rw [Bool.and_eq_true]
  exact ⟨by decide, sampleRoot_correct _⟩

def sampleVerified : VerifiedInvite where
  accountId      := accountIdFromPublic (RegistryTrace.sampleRoot.publicKey .sample)
  deviceId       := "laptop"
  expiresAt      := 1700000600
  relayOrigin    := "https://relay.example"
  inboxUrl       := none
  conversationId := none

theorem sampleInvite_verified (sha256 : Bytes → ByteBlock 32) :
    Invites.verifySignedInviteUnbound .sample sha256 InviteIssuer.sampleInvite 1700000000 =
      some sampleVerified := by
  unfold InviteIssuer.sampleInvite InviteIssuer.signedBy
  rw [Invites.verifySignedInviteUnbound,
    Invites.verifySignedInviteWithCode_signedInvite Invites.utf8_payload_ne_nil,
    Invites.split_payload sampleIssuer_isSingleLine (by simp),
    Invites.readLines_lines rfl (by simp) (by decide), if_pos ⟨by decide, rfl⟩,
    Option.bind_some, Invites.accountKey_accountIdFromPublic, Option.bind_some,
    if_pos (sampleRoot_correct _)]
  rfl

theorem utf8ByteSize_payload_le (accountId deviceId : String) (codeHash : ByteBlock 32)
    (expiresAt : UInt64) (relayOrigin : String) (inboxUrl conversationId : Option String) :
    (Invites.payload accountId deviceId codeHash expiresAt relayOrigin inboxUrl
      conversationId).utf8ByteSize ≤ accountId.utf8ByteSize + deviceId.utf8ByteSize +
        relayOrigin.utf8ByteSize + (inboxUrl.getD "").utf8ByteSize +
        (conversationId.getD "").utf8ByteSize + 118 := by
  have hn : (Text.formatU64 expiresAt).utf8ByteSize ≤ 20 := Json.utf8ByteSize_number_le expiresAt
  have ht : "another-dimension/invite/v1".utf8ByteSize = 27 := by decide
  have hs : (String.singleton '\n').utf8ByteSize = 1 := by decide
  simp only [Invites.payload, Invites.lines, String.intercalate_cons_cons,
    String.intercalate_singleton, String.utf8ByteSize_append, Bytes.utf8ByteSize_toHex,
    codeHash.property, ht, hs]
  omega

theorem sampleInvite_size : InviteIssuer.sampleInvite.utf8ByteSize ≤ 96 * 1024 := by
  have ha : (accountIdFromPublic (RegistryTrace.sampleRoot.publicKey .sample)).utf8ByteSize = 69 := by
    rw [accountIdFromPublic, String.utf8ByteSize_append, Bytes.utf8ByteSize_toHex,
      (RegistryTrace.sampleRoot.publicKey .sample).property]
    decide
  have ht : InviteIssuer.sampleIssuer.deviceId.utf8ByteSize = 6 ∧
      InviteIssuer.sampleIssuer.relayOrigin.utf8ByteSize = 21 ∧
      (InviteIssuer.sampleIssuer.inboxUrl.getD "").utf8ByteSize = 0 ∧
      ((none : Option String).getD "").utf8ByteSize = 0 := by decide
  have hk : "ADDAINV1.".utf8ByteSize = 9 ∧ ".".utf8ByteSize = 1 := by decide
  unfold InviteIssuer.sampleInvite InviteIssuer.signedBy
  generalize hp : Invites.payload _ _ _ _ _ _ _ = payload
  have hs : payload.utf8ByteSize ≤ 69 + 6 + 21 + 0 + 0 + 118 := by
    rw [← hp]
    refine (utf8ByteSize_payload_le ..).trans_eq ?_
    rw [ha, ht.left, ht.right.left, ht.right.right.left, ht.right.right.right]
  have hb := (Ed25519.sample.sign RegistryTrace.sampleRoot.seed (Bytes.utf8 payload)).property
  simp only [Invites.signedInvite, String.utf8ByteSize_append, Bytes.utf8ByteSize_toHex,
    Bytes.length_utf8, hk]
  omega

theorem receiptFresh_step :
    receiptFresh.step receiptServices (.request receiptCall (.createInvite [1])) = receiptState := by
  have hi : ((JsonValue.object [("invite", .string InviteIssuer.sampleInvite)]).get "invite").bind
      JsonValue.asStr = some InviteIssuer.sampleInvite := rfl
  have hv : receiptServices.validateInvite InviteIssuer.sampleInvite receiptFresh.origin
      receiptCall.checkedAt = true := by
    simp only [receiptServices, unreadServices, receiptFresh, State.fresh, receiptCall]
    exact sampleInvite_valid
  have hc : receiptFresh.createInvite receiptServices receiptCall [1] =
      (createdReply (inviteCode receiptRandom) receiptRecord, receiptState) :=
    createInvite_eq rfl rfl hi sampleInvite_size hv rfl rfl
  rw [State.step, State.handle, if_neg (by decide), State.handler, hc]

theorem receiptStates :
    Run.states (State.step receiptServices) receiptFresh receiptEvents =
      [receiptFresh, receiptState] := by
  rw [receiptEvents, Run.states, receiptFresh_step, Run.states]

theorem receiptState_reached :
    receiptState ∈ Run.states (State.step receiptServices) receiptFresh receiptEvents := by
  simp [receiptStates]

theorem readInvites_receiptServices (bytes : Bytes) :
    receiptServices.readInvites bytes =
      if bytes.length = 2 then some [] else some [receiptRecord] :=
  rfl

theorem receiptServices_reads :
    ∀ s ∈ Run.states (State.step receiptServices) receiptFresh receiptEvents,
      s.Reads receiptServices := by
  have hitems : receiptServices.readItems (itemsFile []) = some [] := Reader.of_singleton itemsFile []
  have hlong : (invitesFile [receiptRecord]).length ≠ 2 := by
    have hopen : "[".utf8ByteSize = 1 ∧ "\x7b".utf8ByteSize = 1 := by decide
    have hclose : "]".utf8ByteSize = 1 ∧ "\x7d".utf8ByteSize = 1 := by decide
    simp only [invitesFile, Bytes.length_utf8, List.map_cons, List.map_nil, Invite.toJson,
      JsonValue.text, JsonValue.texts, Json.array, Json.elements, Json.object, String.utf8ByteSize_append,
      hopen, hclose]
    omega
  rw [receiptStates, List.forall_mem_cons, List.forall_mem_singleton]
  refine ⟨⟨hitems, ?_⟩, hitems, ?_⟩
  case refine_1 => exact (readInvites_receiptServices _).trans (if_pos (by decide))
  case refine_2 => exact (readInvites_receiptServices _).trans (if_neg hlong)

theorem receiptState_redemption {form : String} {body : Bytes}
    (written : IsDisplayForm (inviteCode receiptRandom) form)
    (named : receiptServices.fromSlice body = some (.object [("code", .string form)])) :
    Redemption receiptServices receiptState receiptCall body (inviteCode receiptRandom) form
      receiptRecord where
  written  := written
  isOpen   := by
    have ho : receiptRecord.isOpen (codeHash receiptServices (inviteCode receiptRandom))
        receiptCall.now = true := by
      rw [Invite.isOpen, Bool.and_eq_true, Bool.and_eq_true]
      exact ⟨⟨decide_eq_true rfl, by decide⟩, rfl⟩
    exact List.find?_cons_of_pos ho
  named    := ⟨_, named, rfl⟩
  admitted := rfl
  stored   := rfl

-- Both forms show the code, and only its letters and digits are hashed.
theorem receiptForms {form : String} (h : form ∈ [typedForm, spacedForm]) :
    let normalized := Invites.normalizedCode receiptServices.toUppercase
    IsDisplayForm (inviteCode receiptRandom) form ∧
      (receiptServices.sha256 (Bytes.utf8 <| normalized form) =
        receiptServices.sha256 (Bytes.utf8 <| normalized <| inviteCode receiptRandom) →
          normalized form = normalized (inviteCode receiptRandom)) := by
  revert form
  decide +kernel

-- The strict check of a key that has signed one receipt.
def receiptVerify (_ : ByteBlock 32) (message : Bytes) (signature : ByteBlock 64) : Bool :=
  message = Bytes.utf8 (receiptBody receiptServices "https://relay.example" typedForm
    InviteIssuer.sampleInvite 1700000000) && signature = receiptServices.sign message

def receiptTrust : RelayTrust where
  allowedKeyIds := [Bytes.toHex (receiptSha256 (.replicate 32 7)).val]
  revokedKeyIds := []

theorem receiptTrust_allows :
    (some receiptTrust).all (·.allows receiptServices.sha256 receiptServices.verifyingKey) := by
  have hk : receiptTrust.allowedKeyIds =
    [Bytes.toHex (receiptServices.sha256 receiptServices.verifyingKey.val).val] := rfl
  simp only [Option.all_some, RelayTrust.allows, hk, List.contains_cons, beq_self_eq_true,
    Bool.true_or, Bool.true_and]
  rfl

-- The code with spaces, as the protocol allows it.
theorem spacedForm_not_redeemed :
    receiptState ∈ Run.states (State.step receiptServices) receiptFresh receiptEvents ∧
      Redemption receiptServices receiptState receiptCall [3] (inviteCode receiptRandom) spacedForm
        receiptRecord ∧
      ¬Redeems receiptVerify receiptServices receiptState receiptCall [3] spacedForm receiptRecord
        sampleVerified (some receiptTrust) 1700000000 := by
  have hr : Redemption receiptServices receiptState receiptCall [3] (inviteCode receiptRandom)
      spacedForm receiptRecord := receiptState_redemption (receiptForms <| by simp).left rfl
  refine ⟨receiptState_reached, hr, fun ⟨hf, _⟩ => ?_⟩
  have hcode := List.find?_some hr.isOpen
  have hform := List.find?_some hf
  simp only [Invite.isOpen, Bool.and_eq_true, decide_eq_true_eq] at hform hcode
  have hn : ' ' ∉ spacedForm.toList :=
    (codeHash_form_iff (fun _ _ => rfl) hr.written
      (receiptForms <| by simp).right).mp (hform.left.left.symm.trans hcode.left.left)
  exact absurd hn (by simp [spacedForm])

theorem typedForm_redeemed :
    (Redeems receiptVerify receiptServices receiptState receiptCall [2] typedForm receiptRecord
      sampleVerified (some receiptTrust) 1700000000 ↔ ' ' ∉ typedForm.toList) ∧
    ∀ code invite text verified trust now,
      Invites.verifyRelayReceipt receiptVerify receiptServices.sha256 receiptServices.toUppercase
        code invite text verified (some receiptServices.verifyingKey) trust now →
      trust.all (·.allows receiptServices.sha256 receiptServices.verifyingKey) ∧
        ∃ code' invite' timestamp,
          (verified.relayOrigin = "https://relay.example" ∧ code' = typedForm ∧
            invite' = InviteIssuer.sampleInvite ∧ timestamp = 1700000000) ∧
          codeHash receiptServices code' = codeHash receiptServices code ∧
          receiptServices.sha256 (Bytes.utf8 invite') =
            receiptServices.sha256 (Bytes.utf8 invite) ∧
          timestamp ≤ now.saturatingAdd 300 := by
  have hsigned : receiptServices.HasSigned receiptVerify fun origin code invite timestamp =>
      origin = "https://relay.example" ∧ code = typedForm ∧ invite = InviteIssuer.sampleInvite ∧
        timestamp = 1700000000 := by
    constructor
    case correct =>
      rintro origin code invite timestamp ⟨rfl, rfl, rfl, rfl⟩
      simp only [receiptVerify, decide_true, Bool.and_self]
    case unforgeable =>
      intro message signature h
      simp only [receiptVerify, Bool.and_eq_true, decide_eq_true_eq] at h
      exact ⟨_, _, _, _, ⟨rfl, rfl, rfl, rfl⟩, h.left⟩
  exact redeems_iff_and_signed receiptState_reached receiptServices_reads
    (fun _ _ => rfl) rfl hsigned (receiptState_redemption (receiptForms <| by simp).left rfl)
    (sampleInvite_verified _) receiptTrust_allows (by decide) (fun _ => ⟨rfl, rfl, rfl, rfl⟩)
    (receiptForms <| by simp).right

end Relay
