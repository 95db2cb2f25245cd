import AnotherDimension.Library.JsonReader
import AnotherDimension.Library.Lines
import AnotherDimension.Library.Reader
import AnotherDimension.Library.Run
import AnotherDimension.Contacts.Persist
import AnotherDimension.Pairing.Theorems.Steps
import AnotherDimension.Storage.Theorems.Holds

-- Which runs of directory operations leave a directory that can be restored.

open FileProgram Storage

theorem validRelayOrigin_no_query {origin : String} (h : validRelayOrigin origin) :
    '?' ∉ origin.toList := by
  unfold validRelayOrigin at h
  split at h
  case h_1 => cases h
  case h_2 scheme authority hs =>
    simp only [Bool.and_eq_true, Bool.or_eq_true, decide_eq_true_eq, Bool.not_eq_true'] at h
    have hq : '?' ∉ authority := by simpa using h.left.left.right
    have hn : '?' ∉ scheme := by
      rcases h.left.left.left.left.left.left.left with rfl | rfl
      all_goals simp
    rw [Text.splitOnce_some hs]
    simp [hq, hn]

-- The inbox is written with the relay's origin in front, is not too long and has no fragment.
def InboxFits (relayOrigin inbox : String) : Prop :=
  relayOrigin.toList <+: inbox.toList ∧ inbox.utf8ByteSize ≤ 2 * 1024 ∧ '#' ∉ inbox.toList

instance (relayOrigin inbox : String) : Decidable (InboxFits relayOrigin inbox) :=
  inferInstanceAs <| Decidable (_ ∧ _ ∧ _)

-- For such an inbox the check of the parsed URI and the check of the text agree.
theorem validBoundInbox_of_validate {origin inbox : String} (ho : validRelayOrigin origin)
    (hv : validateBoundInboxUrl origin inbox) (hf : InboxFits origin inbox) :
    ContactRecord.validBoundInbox origin inbox := by
  have ⟨⟨rest, hrest⟩, hlen, hfrag⟩ := hf
  unfold validateBoundInboxUrl at hv
  split at hv
  case h_2 => cases hv
  case h_1 scheme authority path query hp =>
    simp only [Bool.and_eq_true, Option.isNone_iff_eq_none, decide_eq_true_eq] at hv
    obtain ⟨⟨⟨⟨_, horigin⟩, rfl⟩, hprefix⟩, hcap⟩ := hv
    have ⟨name, tail, htext, hname, hpath⟩ := Uri.parse_absolute hp
    -- Both ways to cut the text in two leave the same rest.
    have htail : rest = tail := by
      have hl : origin.toList.length = (name ++ authority.toList).length := by
        simp only [← horigin, String.toList_append, List.length_append, String.length_toList, hname]
        rfl
      exact (List.append_inj (hrest.trans htext) hl).right
    subst htail
    have hf' : '#' ∉ rest := fun h => hfrag <| hrest ▸ List.mem_append_right _ h
    have ⟨hq, hpath⟩ := Uri.ofPath_of_none hpath hf'
    have hne : rest.isEmpty = false := by
      by_contra hn
      rw [hpath, if_pos (by simpa using hn)] at hprefix
      exact absurd hprefix (by decide)
    rw [hpath, hne, if_neg Bool.false_ne_true, String.toList_ofList] at hprefix hcap
    have hslash : '/' ∈ rest :=
      (List.isPrefixOf_iff_prefix.mp hprefix).subset (by simp [inboxPath])
    have hquery : '?' ∉ inbox.toList := by
      rw [← hrest, List.mem_append, not_or]
      exact ⟨validRelayOrigin_no_query ho, hq⟩
    have hstart : origin.toList ++ inboxPath.toList <+: inbox.toList := by
      rw [← hrest, List.prefix_append_right_inj]
      exact List.isPrefixOf_iff_prefix.mp hprefix
    have hlast : isCapability (Text.lastSegment '/' inbox.toList) := by
      rwa [← hrest, Text.lastSegment_append hslash]
    simp [ContactRecord.validBoundInbox, hstart, hlen, hquery, hlast]

namespace ContactRecord

variable {contact : ContactRecord} {key : String}

-- A peer that brings no inbox leaves the old one in place, which belongs to the old relay.
theorem upserted_valid {peer : VerifiedInvite} {existing : Option ContactRecord} (now : UInt64)
    (hp : validVerifiedPeer peer)
    (he : ∀ contact ∈ existing, contact.validPersistedContact peer.accountId)
    (hi : ∀ inbox ∈ peer.inboxUrl, InboxFits peer.relayOrigin inbox)
    (hk : peer.inboxUrl = none →
      ∀ contact ∈ existing, contact.inboxUrl.isSome → contact.relayOrigin = peer.relayOrigin) :
    (upserted existing peer.accountId peer.deviceId peer.relayOrigin peer.inboxUrl
      now).validPersistedContact peer.accountId := by
  simp only [validVerifiedPeer, Bool.and_eq_true] at hp
  obtain ⟨⟨⟨⟨ha, hd⟩, hr⟩, hu⟩, _⟩ := hp
  have hinbox : (peer.inboxUrl.or (existing.bind (·.inboxUrl))).all
      (validBoundInbox peer.relayOrigin) := by
    match hu' : peer.inboxUrl with
    | some inbox =>
      have hv : validateBoundInboxUrl peer.relayOrigin inbox := by simpa [hu'] using hu
      simpa using validBoundInbox_of_validate hr hv (hi inbox hu')
    | none       =>
      match existing with
      | none         => rfl
      | some contact =>
        have hc := he contact rfl
        simp only [validPersistedContact, Bool.and_eq_true] at hc
        match hcu : contact.inboxUrl with
        | none   => simp [hcu]
        | some _ => simp_all
  match existing with
  | none         => simp_all [validPersistedContact, upserted]
  | some contact =>
    have hc := he contact rfl
    simp_all [validPersistedContact, upserted]

theorem withAlias_valid (h : contact.validPersistedContact key) {name : String}
    (hn : ¬(name.utf8ByteSize > maxAliasBytes ∨ name.toList.any Text.isControl)) :
    (contact.withAlias name).validPersistedContact key := by
  have hs := Text.trim_sublist name
  have hl : (Text.trim name).utf8ByteSize ≤ maxAliasBytes := by
    have := Text.utf8Len_le_of_sublist hs
    rw [String.utf8Len_toList, String.utf8Len_toList] at this
    omega
  have hc : ∀ c ∈ (Text.trim name).toList, Text.isControl c = false := by
    simp only [not_or, List.any_eq_true, not_exists, not_and] at hn
    exact fun c hc => by simpa using hn.right c (hs.subset hc)
  unfold withAlias
  split <;> simp_all [validPersistedContact]

theorem withMessage_valid (h : contact.validPersistedContact key) {preview : String} {now : UInt64}
    {background : Bool} (hp : preview.utf8ByteSize ≤ maxPreviewBytes) :
    (contact.withMessage preview now background).validPersistedContact key := by
  simp only [validPersistedContact, Bool.and_eq_true] at h ⊢
  exact ⟨h.left, by simpa [withMessage] using hp⟩

end ContactRecord

namespace ContactOp

-- The peer of the call went through `verify_peer`.
def Accepted : ContactOp → Prop
  | registerApproved peer _ =>
    ∃ session session' now, PairingSession.verifyPeer session peer now = (.ok (), session')
  | _                       => True

-- The checks of `verify_peer` on the peer itself.
def HasValidPeer : ContactOp → Prop
  | registerApproved peer _ => validVerifiedPeer peer ∧ 0 < peer.expiresAt
  | _                       => True

instance : (op : ContactOp) → Decidable op.HasValidPeer
  | registerApproved .. => inferInstanceAs <| Decidable (_ ∧ _)
  | setAlias .. | bindConversation .. | block _ | unblock _ | markRead _ | recordMessage ..
  | remove _            => .isTrue trivial

theorem HasValidPeer.accepted {op : ContactOp} (h : op.HasValidPeer) : op.Accepted := by
  cases op
  case registerApproved peer now =>
    have ⟨hv, he⟩ := h
    have hn : peer.accountId ≠ "" := by
      intro hn
      simp [validVerifiedPeer, validateProtocolIdentifier, hn] at hv
    refine ⟨.new "" "", ⟨"", "", .verified, some peer, false⟩, 0, ?_⟩
    simp [PairingSession.verifyPeer, PairingSession.new, hv, hn, UInt64.not_le.mpr he]
  all_goals trivial

end ContactOp

namespace ContactDirectory

open ContactRecord

variable {directory : ContactDirectory} {op : ContactOp} {accountId : String}
  {contact : ContactRecord} {fromSlice : Bytes → Option DirectorySnapshot}

theorem get_insert (directory : ContactDirectory) (accountId key : String)
    (contact : ContactRecord) : (directory.insert accountId contact).get key =
      if accountId = key then some contact else directory.get key := by
  simp [get, insert, Std.ExtTreeMap.getElem?_insert]

-- The directory comes back unchanged from every store that holds it as `persist` writes it.
def Restores (fromSlice : Bytes → Option DirectorySnapshot) (directory : ContactDirectory) : Prop :=
  ∀ store : EncryptedStore, store.Holds directoryKey directory.snapshotBytes →
    restore fromSlice store = .ok directory

-- The test of `restore`.
structure Valid (directory : ContactDirectory) : Prop where
  size     : directory.contacts.size ≤ maxContacts
  contacts : ∀ key contact, directory.get key = some contact → contact.validPersistedContact key

theorem valid_iff : directory.Valid ↔ ¬(directory.contacts.size > maxContacts ∨
    directory.contacts.toList.any fun entry => !entry.snd.validPersistedContact entry.fst) := by
  rw [not_or, Nat.not_lt, Bool.not_eq_true,
    OrderedMap.any_toList_eq_false (p := fun key contact => validPersistedContact key contact)]
  exact ⟨fun h => ⟨h.size, h.contacts⟩, fun h => ⟨h.left, h.right⟩⟩

theorem restores_iff_valid (round : fromSlice directory.snapshotBytes = some directory.snapshot) :
    directory.Restores fromSlice ↔ directory.Valid := by
  have hr (store : EncryptedStore) (h : store.Holds directoryKey directory.snapshotBytes) :
      restore fromSlice store =
        if directory.contacts.size > maxContacts ∨
            directory.contacts.toList.any fun entry =>
              !entry.snd.validPersistedContact entry.fst then
          .error .corruptStore
        else
          .ok directory := by
    have hv : ¬directory.snapshot.version ≠ directoryVersion := fun h => h rfl
    simp only [restore, show store.get _ _ = _ from h, round, if_neg hv]
    rfl
  rw [valid_iff]
  constructor
  case mp =>
    intro h
    have ⟨store, hs⟩ := EncryptedStore.exists_holds directoryKey directory.snapshotBytes
    have hr := (hr store hs).symm.trans (h store hs)
    split at hr
    case isTrue     => cases hr
    case isFalse hv => exact hv
  case mpr =>
    intro h store hs
    rw [hr store hs, if_neg h]

theorem valid_new : new.Valid where
  size     := by simp [new]
  contacts := by simp [new, get]

theorem Valid.insert (h : directory.Valid) (hc : contact.validPersistedContact accountId)
    (hs : directory.get accountId = none → directory.contacts.size < maxContacts) :
    (directory.insert accountId contact).Valid := by
  refine ⟨?_, fun key c hk => ?_⟩
  case refine_1 =>
    have hm : accountId ∈ directory.contacts ∨ directory.contacts.size < maxContacts := by
      by_cases hm : accountId ∈ directory.contacts
      case pos => exact .inl hm
      case neg => exact .inr <| hs <| by simp [get, hm]
    have := h.size
    simp only [ContactDirectory.insert, Std.ExtTreeMap.size_insert]
    split <;> grind
  case refine_2 =>
    rw [get_insert] at hk
    split at hk
    case isTrue he => cases hk; exact he ▸ hc
    case isFalse   => exact h.contacts key c hk

theorem Valid.withContact (h : directory.Valid)
    {update : ContactRecord → Except ContactDirectoryError ContactRecord}
    (hu : ∀ contact contact', contact.validPersistedContact accountId →
      update contact = .ok contact' → contact'.validPersistedContact accountId) :
    (directory.withContact accountId update).snd.Valid := by
  unfold ContactDirectory.withContact
  split
  case h_1 => exact h
  case h_2 contact hc =>
    split
    case h_1 => exact h
    case h_2 contact' hu' =>
      exact h.insert (hu contact contact' (h.contacts _ _ hc) hu') (by simp [hc])

theorem Valid.bindConversation (h : directory.Valid) {conversationId : String}
    (ht : conversationId.toList.all isTokenChar) :
    (directory.bindConversation accountId conversationId).snd.Valid := by
  refine h.withContact fun contact contact' hc hu => ?_
  split at hu
  case isTrue      => cases hu
  case isFalse hid =>
    cases hu
    simp_all [validPersistedContact, validConversationId]

theorem Valid.recordMessage (h : directory.Valid) {conversationId preview : String} {now : UInt64}
    {background : Bool} (hp : preview.utf8ByteSize ≤ maxPreviewBytes) :
    (directory.recordMessage conversationId preview now background).snd.Valid := by
  unfold ContactDirectory.recordMessage
  split
  case h_1 => exact h
  case h_2 key contact he =>
    have hg : directory.get key = some contact :=
      Std.ExtTreeMap.mem_toList_iff_getElem?_eq_some.mp <| List.mem_of_find?_eq_some he
    exact h.insert (withMessage_valid (h.contacts _ _ hg) hp) (by simp [hg])

theorem Valid.remove (h : directory.Valid) : (directory.remove accountId).snd.Valid := by
  unfold ContactDirectory.remove
  split
  case h_1 => exact h
  case h_2 =>
    refine ⟨Std.ExtTreeMap.size_erase_le.trans h.size, fun key c hk => h.contacts key c ?_⟩
    simp only [get, Std.ExtTreeMap.getElem?_erase] at hk
    split at hk
    case isTrue  => cases hk
    case isFalse => exact hk

-- The inputs of the call that `restore` is stricter about than the call itself.
def KeepsValid (directory : ContactDirectory) : ContactOp → Prop
  | .registerApproved peer _         =>
    (∀ inbox ∈ peer.inboxUrl, InboxFits peer.relayOrigin inbox) ∧
    (peer.inboxUrl = none → ∀ contact ∈ directory.get peer.accountId,
      contact.inboxUrl.isSome → contact.relayOrigin = peer.relayOrigin) ∧
    (directory.get peer.accountId = none → directory.contacts.size < maxContacts)
  | .bindConversation _ conversationId => conversationId.toList.all isTokenChar
  | .recordMessage _ preview _ _       => preview.utf8ByteSize ≤ maxPreviewBytes
  | _                                  => True

instance (directory : ContactDirectory) : (op : ContactOp) → Decidable (directory.KeepsValid op)
  | .registerApproved ..                                           =>
    inferInstanceAs <| Decidable (_ ∧ (_ → _) ∧ (_ → _))
  | .bindConversation ..                                           =>
    inferInstanceAs <| Decidable (_ = true)
  | .recordMessage ..                                              =>
    inferInstanceAs <| Decidable (_ ≤ _)
  | .setAlias .. | .block _ | .unblock _ | .markRead _ | .remove _ => .isTrue trivial

theorem Valid.registerApproved (h : directory.Valid) {peer : VerifiedInvite} {now : UInt64}
    (hp : validVerifiedPeer peer) (hk : directory.KeepsValid (.registerApproved peer now)) :
    (directory.registerApproved peer now).snd.Valid := by
  have ⟨hinbox, horigin, hsize⟩ := hk
  unfold ContactDirectory.registerApproved
  match hu : directory.upsertVerifiedWithInbox peer.accountId peer.deviceId peer.relayOrigin
      peer.inboxUrl now with
  | (.error e, directory') =>
    simp only [upsertVerifiedWithInbox] at hu
    split at hu <;> cases hu
    exact h
  | (.ok (), directory')   =>
    simp only [upsertVerifiedWithInbox] at hu
    split at hu
    case isTrue  => cases hu
    case isFalse =>
      cases hu
      have hv := h.insert (upserted_valid now hp (h.contacts _) hinbox horigin) hsize
      match hc : peer.conversationId with
      | none                => exact hv
      | some conversationId =>
        refine hv.bindConversation ?_
        simp only [validVerifiedPeer, Bool.and_eq_true, hc, Option.all_some] at hp
        have := hp.right
        simp only [validConversationId, Bool.and_eq_true] at this
        exact this.right

theorem Valid.step (h : directory.Valid) (ha : op.Accepted) (hk : directory.KeepsValid op) :
    (directory.step op).Valid := by
  match op with
  | .registerApproved peer now                           =>
    have ⟨_, _, _, hv⟩ := ha
    exact h.registerApproved (PairingSession.verifyPeer_ok hv).left hk
  | .setAlias accountId name                             =>
    simp only [ContactDirectory.step, setAlias]
    split
    case isTrue     => exact h
    case isFalse hn =>
      refine h.withContact fun contact contact' hc hu => ?_
      cases hu
      exact withAlias_valid hc hn
  | .bindConversation accountId conversationId           => exact h.bindConversation hk
  | .block accountId                                     =>
    refine h.withContact fun contact contact' hc hu => ?_
    cases hu
    simp_all [validPersistedContact]
  | .unblock accountId                                   =>
    refine h.withContact fun contact contact' hc hu => ?_
    cases hu
    simp_all [validPersistedContact]
  | .markRead accountId                                  =>
    refine h.withContact fun contact contact' hc hu => ?_
    cases hu
    simpa [validPersistedContact] using hc
  | .recordMessage conversationId preview now background => exact h.recordMessage hk
  | .remove accountId                                    => exact h.remove

-- A run keeps every directory restorable when each of its calls meets the condition.
theorem restores_of_keepsValid (ops : List ContactOp) (accepted : ∀ op ∈ ops, op.Accepted)
    (keeps : Run.Meets step KeepsValid new ops)
    (round : ∀ directory ∈ Run.states step new ops,
      fromSlice directory.snapshotBytes = some directory.snapshot) :
    ∀ directory ∈ Run.states step new ops, directory.Restores fromSlice := by
  have hv := (keeps.and (.of_forall_mem accepted)).forall_states
    (fun _ _ h hc => h.step hc.right hc.left) valid_new
  exact fun directory hd => (restores_iff_valid <| round directory hd).mpr <| hv directory hd

end ContactDirectory

-- The text of a directory tells what it holds.

def ContactRecord.toValue (contact : ContactRecord) : JsonValue :=
  .object [
    ("account_id", .string contact.accountId),
    ("device_id", .string contact.deviceId),
    ("relay_origin", .string contact.relayOrigin),
    ("inbox_url", contact.inboxUrl.elim .null .string),
    ("alias", contact.aliasName.elim .null .string),
    ("state", .string contact.state),
    ("conversation_id", contact.conversationId.elim .null .string),
    ("last_message_preview", contact.lastMessagePreview.elim .null .string),
    ("last_message_at", contact.lastMessageAt.elim .null .u64),
    ("unread_count", .u64 contact.unreadCount.toUInt64)
  ]

theorem ContactRecord.reads_toJson (contact : ContactRecord) :
    Json.Reads contact.toJson contact.toValue :=
  Json.reads_object <|
    .cons ⟨rfl, Json.reads_string _⟩ <| .cons ⟨rfl, Json.reads_string _⟩ <|
    .cons ⟨rfl, Json.reads_string _⟩ <| .cons ⟨rfl, Json.reads_option Json.reads_string _⟩ <|
    .cons ⟨rfl, Json.reads_option Json.reads_string _⟩ <| .cons ⟨rfl, Json.reads_string _⟩ <|
    .cons ⟨rfl, Json.reads_option Json.reads_string _⟩ <|
    .cons ⟨rfl, Json.reads_option Json.reads_string _⟩ <|
    .cons ⟨rfl, Json.reads_option Json.reads_u64 _⟩ <| .cons ⟨rfl, Json.reads_u64 _⟩ .nil

theorem ContactRecord.toValue_injective : Function.Injective toValue := by
  intro contact₁ contact₂ h
  simp only [toValue, JsonValue.object.injEq, List.cons.injEq, Prod.mk.injEq, true_and, and_true,
    JsonValue.string.injEq] at h
  obtain ⟨ha, hd, hr, hi, hn, hs, hc, hp, ht, hu⟩ := h
  obtain ⟨_, _, _, _, _, _, _, _, _, _⟩ := contact₁
  obtain ⟨_, _, _, _, _, _, _, _, _, _⟩ := contact₂
  cases ha
  cases hd
  cases hr
  cases hs
  cases JsonValue.elim_string_injective hi
  cases JsonValue.elim_string_injective hn
  cases JsonValue.elim_string_injective hc
  cases JsonValue.elim_string_injective hp
  cases JsonValue.elim_u64_injective ht
  cases UInt32.toUInt64_inj.mp <| JsonValue.u64_injective hu
  rfl

namespace ContactDirectory

def toValue (directory : ContactDirectory) : JsonValue :=
  .object [
    ("version", .u64 directory.snapshot.version.toUInt64),
    ("contacts", .object <|
      directory.snapshot.contacts.toList.map fun entry => (entry.fst, entry.snd.toValue))
  ]

theorem reads_toValue (directory : ContactDirectory) :
    ∃ text, directory.snapshotBytes = Bytes.utf8 text ∧ Json.Reads text directory.toValue :=
  ⟨_, rfl, Json.reads_object <| .cons ⟨rfl, Json.reads_u64 _⟩ <|
    .cons ⟨rfl, Json.reads_object_toList ContactRecord.reads_toJson _⟩ .nil⟩

theorem snapshotBytes_injective : Function.Injective snapshotBytes := by
  intro directory₁ directory₂ h
  obtain ⟨text₁, ht₁, hr₁⟩ := reads_toValue directory₁
  obtain ⟨text₂, ht₂, hr₂⟩ := reads_toValue directory₂
  cases Bytes.utf8_injective <| ht₁.symm.trans <| h.trans ht₂
  have hv := hr₁.unique hr₂
  simp only [toValue, snapshot, JsonValue.object.injEq, List.cons.injEq, Prod.mk.injEq, true_and,
    and_true] at hv
  cases directory₁
  cases directory₂
  exact congrArg mk <| Json.members_toList_injective ContactRecord.toValue_injective hv

def sampleCapability : String :=
  "AAAAAAAAAAAAAAAAAAAAAAAAAAAAAAAAAAAAAAAAAAA"

def samplePeer (relayOrigin : String) (inboxUrl : Option String) : VerifiedInvite where
  accountId      := "alice"
  deviceId       := "device-1"
  expiresAt      := 1700000000
  relayOrigin    := relayOrigin
  inboxUrl       := inboxUrl
  conversationId := some "adconv-1"

-- An inbox with a fragment, one with the scheme in capitals, a peer that moves to another relay
-- without naming an inbox there, and a conversation id with a space in it.
def failingRuns : List (List ContactOp) := [
  [.registerApproved (samplePeer "http://relay"
    ("http://relay/api/v1/inbox/" ++ sampleCapability ++ "#new")) 0],
  [.registerApproved (samplePeer "http://relay"
    ("HTTP://relay/api/v1/inbox/" ++ sampleCapability)) 0],
  [.registerApproved (samplePeer "http://relay"
    ("http://relay/api/v1/inbox/" ++ sampleCapability)) 0,
   .registerApproved (samplePeer "http://other" none) 1],
  [.registerApproved (samplePeer "http://relay" none) 0,
   .bindConversation "alice" "adconv 2"]
]

theorem failingRuns_not_restored : failingRuns.Forall fun ops => (∀ op ∈ ops, op.Accepted) ∧
    ∀ fromSlice, fromSlice (ops.foldl step new).snapshotBytes = some (ops.foldl step new).snapshot →
      ¬(ops.foldl step new).Restores fromSlice := by
  refine List.forall_iff_forall_mem.mpr fun ops hops => ?_
  have hv : ∀ ops ∈ failingRuns, ∀ op ∈ ops, op.HasValidPeer := by decide
  have hn : ∀ ops ∈ failingRuns, (ops.foldl step new).contacts.size > maxContacts ∨
      (ops.foldl step new).contacts.toList.any fun entry =>
        !entry.snd.validPersistedContact entry.fst := by decide
  refine ⟨fun op hop => (hv ops hops op hop).accepted, fun fromSlice round h => ?_⟩
  exact valid_iff.mp ((restores_iff_valid round).mp h) (hn ops hops)

-- A contact is registered, named, written to and blocked.
def sampleOps : List ContactOp := [
  .registerApproved (samplePeer "http://relay"
    ("http://relay/api/v1/inbox/" ++ sampleCapability)) 1700000000,
  .setAlias "alice" " Alice ",
  .recordMessage "adconv-1" "see you" 1700000001 true,
  .block "alice"
]

theorem sampleOps_keepsValid :
    let states := Run.states step new sampleOps
    let reader := Reader.of snapshotBytes snapshot states
    (∀ op ∈ sampleOps, op.Accepted) ∧ Run.Meets step KeepsValid new sampleOps ∧
    (∀ directory ∈ states, reader directory.snapshotBytes = some directory.snapshot) ∧
    ∀ directory ∈ states, directory.Restores reader := by
  intro states reader
  have hv : ∀ op ∈ sampleOps, op.HasValidPeer := by decide
  have accepted (op : ContactOp) (h : op ∈ sampleOps) : op.Accepted := (hv op h).accepted
  have keeps : Run.Meets step KeepsValid new sampleOps := by decide
  have round : ∀ directory ∈ states, reader directory.snapshotBytes = some directory.snapshot :=
    fun _ => Reader.of_encode_of_congr fun _ _ he => congrArg snapshot <| snapshotBytes_injective he
  exact ⟨accepted, keeps, round, restores_of_keepsValid sampleOps accepted keeps round⟩

end ContactDirectory
