import AnotherDimension.Daemon.Operations
import AnotherDimension.Storage.Theorems.Batch

-- What a failed write leaves in memory.

namespace PairingSession

variable {sha256 : Bytes → ByteBlock 32} {session : PairingSession} {peer : VerifiedInvite}
  {now : UInt64} {value : String}

-- Which of the operations that succeed leave the pairing as it is.

theorem markInviteCreated_same (h : session.markInviteCreated.fst = .ok ()) :
    session.markInviteCreated.snd = session ↔ session.state = .inviteCreated := by
  have he : session.markInviteCreated.snd = { session with state := .inviteCreated } := by
    unfold markInviteCreated at h ⊢
    cases hs : session.state <;> simp only [hs] at h ⊢
    case verified => cases h
  rw [he]
  constructor
  case mp  => exact fun hs => (congrArg PairingSession.state hs).symm
  case mpr => exact fun hs => by rw [← hs]

theorem verifyPeer_changes (h : (session.verifyPeer peer now).fst = .ok ()) :
    (session.verifyPeer peer now).snd ≠ session := by
  unfold verifyPeer at h ⊢
  split at h
  case isTrue => cases h
  case isFalse h₁ =>
    split at h
    case isTrue => cases h
    case isFalse h₂ =>
      split at h
      case isTrue => cases h
      case isFalse h₃ =>
        rw [if_neg h₁, if_neg h₂, if_neg h₃]
        cases hs : session.state <;> simp only [hs] at h ⊢
        case verified => cases h
        case established =>
          cases hp : session.peer <;> simp only [hp] at h ⊢
          case none => cases h
          case some trusted =>
            split at h
            case isTrue => cases h
            case isFalse ha =>
              rw [if_neg ha]
              intro he
              have hpeer := congrArg PairingSession.peer he
              rw [hp] at hpeer
              exact ha (congrArg VerifiedInvite.accountId (Option.some.inj hpeer)).symm
        all_goals
          intro he
          have hstate := congrArg PairingSession.state he
          rw [hs] at hstate
          cases hstate

theorem approve_changes (h : (session.approve now).fst = .ok ()) :
    (session.approve now).snd ≠ session ∧ session.state ≠ .established := by
  unfold approve at h ⊢
  cases hp : session.peer <;> simp only [hp] at h ⊢
  case none => cases h
  case some =>
    split at h
    case isTrue => cases h
    case isFalse h₁ =>
      split at h
      case isTrue => cases h
      case isFalse h₂ =>
        split at h
        case isTrue => cases h
        case isFalse h₃ =>
          split at h
          case isTrue => cases h
          case isFalse h₄ =>
            rw [if_neg h₁, if_neg h₂, if_neg h₃, if_neg h₄]
            exact ⟨fun he => h₂ (congrArg PairingSession.state he).symm, h₂⟩

theorem approve_duplicate (h : (session.approve now).fst = .error .duplicate) :
    (session.approve now).snd = session ∧ session.state = .established := by
  unfold approve at h ⊢
  cases hp : session.peer <;> simp only [hp] at h ⊢
  case none => cases h
  case some =>
    split at h
    case isTrue => cases h
    case isFalse h₁ =>
      split at h
      case isTrue h₂ => exact ⟨by rw [if_neg h₁, if_pos h₂], h₂⟩
      case isFalse =>
        split at h
        case isTrue => cases h
        case isFalse => split at h <;> cases h

theorem confirmSafety_same (h : (session.confirmSafety sha256 value).fst = .ok ()) :
    (session.confirmSafety sha256 value).snd = session ↔ session.safetyVerified := by
  unfold confirmSafety at h ⊢
  split at h
  case isTrue => cases h
  case isFalse h₁ =>
    split at h
    case isTrue => cases h
    case isFalse h₂ =>
      rw [if_neg h₁, if_neg h₂]
      constructor
      case mp => exact fun he => (congrArg PairingSession.safetyVerified he).symm
      case mpr => exact fun hs => by rw [← hs]

theorem unverifySafety_changes (h : session.unverifySafety.fst = .ok ()) :
    session.unverifySafety.snd ≠ session := by
  unfold unverifySafety at h ⊢
  split at h
  case isTrue => cases h
  case isFalse hn =>
    rw [if_neg hn]
    intro he
    have hs := congrArg PairingSession.safetyVerified he
    exact hn (.inr (by simp [← hs]))

theorem ended_ne_self (h : session.state ≠ .rejected) : session.ended ≠ session :=
  fun he => h (congrArg PairingSession.state he).symm

theorem reject_changes (h : session.reject.fst = .ok ()) : session.reject.snd ≠ session := by
  unfold reject at h ⊢
  split at h
  case isTrue hs =>
    rw [if_pos hs]
    refine ended_ne_self fun hr => ?_
    simp [hr] at hs
  case isFalse => cases h

theorem invalidateBinding_changes (h : session.invalidateBinding.fst = .ok ()) :
    session.invalidateBinding.snd ≠ session := by
  unfold invalidateBinding at h ⊢
  split at h
  case isTrue hs =>
    rw [if_pos hs]
    exact ended_ne_self fun hr => by simp [hr] at hs
  case isFalse => cases h

end PairingSession

namespace ContactDirectory

variable {directory : ContactDirectory} {accountId : String} {contact : ContactRecord}

theorem insert_eq_self_iff :
    directory.insert accountId contact = directory ↔ directory.get accountId = some contact := by
  constructor
  case mp =>
    intro h
    rw [← h]
    exact Std.ExtTreeMap.getElem?_insert_self
  case mpr =>
    intro h
    have hi : directory.contacts.insert accountId contact = directory.contacts := by
      refine Std.ExtTreeMap.ext_getElem? fun id => ?_
      by_cases hid : accountId = id
      case pos => simp [← hid, show directory.contacts[accountId]? = some contact from h]
      case neg => simp [Std.ExtTreeMap.getElem?_insert, hid]
    rw [insert, hi]

theorem withContact_ok {update : ContactRecord → Except ContactDirectoryError ContactRecord}
    (h : (directory.withContact accountId update).fst = .ok ()) :
    ∃ contact contact', directory.get accountId = some contact ∧ update contact = .ok contact' ∧
      (directory.withContact accountId update).snd = directory.insert accountId contact' := by
  cases hg : directory.get accountId
  case none => simp [withContact, hg] at h
  case some contact =>
    cases hu : update contact
    case error       => simp [withContact, hg, hu] at h
    case ok contact' => exact ⟨contact, contact', rfl, hu, by simp [withContact, hg, hu]⟩

-- An update that succeeds leaves the directory as it is when it leaves the contact as it is.
theorem withContact_same {update : ContactRecord → Except ContactDirectoryError ContactRecord}
    (h : (directory.withContact accountId update).fst = .ok ()) :
    (directory.withContact accountId update).snd = directory ↔
      ∃ contact, directory.get accountId = some contact ∧ update contact = .ok contact := by
  obtain ⟨contact, contact', hg, hu, hs⟩ := withContact_ok h
  rw [hs, insert_eq_self_iff, hg]
  constructor
  case mp =>
    intro he
    exact ⟨contact, rfl, by rw [hu, Option.some.inj he]⟩
  case mpr =>
    rintro ⟨_, he, hc⟩
    cases he
    rw [Except.ok.inj (hu.symm.trans hc)]

theorem remove_changes {removed : ContactRecord} (h : (directory.remove accountId).fst = .ok removed) :
    (directory.remove accountId).snd ≠ directory := by
  unfold remove at h ⊢
  cases hg : directory.get accountId <;> simp only [hg] at h ⊢
  case none => cases h
  case some contact =>
    intro he
    have hsame : directory.contacts.erase accountId = directory.contacts :=
      congrArg ContactDirectory.contacts he
    have hgone : (directory.contacts.erase accountId)[accountId]? = none := by simp
    rw [hsame] at hgone
    cases hg.symm.trans hgone

theorem insert_insert (contact contact' : ContactRecord) :
    (directory.insert accountId contact).insert accountId contact' =
      directory.insert accountId contact' := by
  have hi : (directory.contacts.insert accountId contact).insert accountId contact' =
      directory.contacts.insert accountId contact' := by
    refine Std.ExtTreeMap.ext_getElem? fun id => ?_
    by_cases hid : accountId = id
    case pos => simp [← hid]
    case neg => simp [Std.ExtTreeMap.getElem?_insert, hid]
  rw [insert, insert, insert, hi]

-- What a contact becomes when its peer is approved again.
def registered (contact : ContactRecord) (peer : VerifiedInvite) (now : UInt64) : ContactRecord :=
  let contact := ContactRecord.upserted (some contact) peer.accountId peer.deviceId peer.relayOrigin
    peer.inboxUrl now
  { contact with conversationId := peer.conversationId.or contact.conversationId }

theorem registerApproved_same {peer : VerifiedInvite} {now : UInt64}
    (h : (directory.registerApproved peer now).fst = .ok ()) :
    (directory.registerApproved peer now).snd = directory ↔
      ∃ contact, directory.get peer.accountId = some contact ∧ registered contact peer now = contact := by
  unfold registerApproved upsertVerifiedWithInbox at h ⊢
  by_cases hd : (directory.get peer.accountId).any (·.deviceId ≠ peer.deviceId)
  case pos =>
    simp only [hd, if_true] at h
    cases h
  case neg =>
    simp only [hd, Bool.false_eq_true, if_false] at h ⊢
    generalize hu : ContactRecord.upserted (directory.get peer.accountId) peer.accountId
      peer.deviceId peer.relayOrigin peer.inboxUrl now = contact at h ⊢
    -- Without a contact both sides fail, and otherwise they say the same of it.
    have hself (conversationId : Option String)
        (hc : peer.conversationId.or contact.conversationId = conversationId) :
        directory.get peer.accountId = some { contact with conversationId } ↔
          ∃ contact, directory.get peer.accountId = some contact ∧
            registered contact peer now = contact := by
      cases hg : directory.get peer.accountId
      case none => simp
      case some existing =>
        rw [hg] at hu
        have hr : registered existing peer now = { contact with conversationId } := by
          simp only [registered, hu, hc]
        simp [hr, eq_comm]
    cases hc : peer.conversationId <;> simp only [hc] at h ⊢
    case none =>
      rw [insert_eq_self_iff]
      exact hself contact.conversationId (by simp [hc])
    case some conversationId =>
      have hget : (directory.insert peer.accountId contact).get peer.accountId = some contact :=
        Std.ExtTreeMap.getElem?_insert_self
      obtain ⟨_, bound, hg, hb, hs⟩ := withContact_ok h
      cases hget.symm.trans hg
      have hbound : bound = { contact with conversationId := some conversationId } := by
        split at hb
        case isTrue  => cases hb
        case isFalse => exact (Except.ok.inj hb).symm
      rw [bindConversation, hs, insert_insert, insert_eq_self_iff, hbound]
      exact hself (some conversationId) (by simp [hc])

end ContactDirectory

namespace Daemon

variable {σ : Type} {sha256 : Bytes → ByteBlock 32} {d : Daemon σ}

-- What a restart reads from the store.
def memory (d : Daemon σ) : PairingSession × ContactDirectory × DeliveryLedger :=
  (d.authority.pairing, d.authority.contacts, d.ledger)

-- The operation would leave what is in memory as it is.
def IsIdle (d : Daemon σ) : StoredOp → Prop
  | .markInviteCreated                           => d.authority.pairing.state = .inviteCreated
  | .approvePairing _                            => d.authority.pairing.state = .established
  | .confirmSafety _                             => d.authority.pairing.safetyVerified
  | .setContactAlias accountId aliasName             => ∃ contact,
    d.authority.contacts.get accountId = some contact ∧ contact.withAlias aliasName = contact
  | .setContactBlocked accountId blocked         => ∃ contact,
    d.authority.contacts.get accountId = some contact ∧
      contact.state = if blocked then "blocked" else "verified"
  | .bindContactConversation accountId conversationId => ∃ contact,
    d.authority.contacts.get accountId = some contact ∧ contact.conversationId = some conversationId
  | .markContactRead accountId                   => ∃ contact,
    d.authority.contacts.get accountId = some contact ∧ contact.unreadCount = 0
  | .registerApprovedContact now                 => ∃ peer, d.authority.pairing.peer = some peer ∧
    ∃ contact, d.authority.contacts.get peer.accountId = some contact ∧
      ContactDirectory.registered contact peer now = contact
  | _                                            => False

theorem write_snd (d : Daemon σ) (key : RecordKey) (value : Bytes) :
    (d.write key value).snd = { d with store := (d.store.put key.fst key.snd value).snd } := by
  unfold write
  rcases d.store.put key.fst key.snd value with ⟨_ | _, store⟩ <;> rfl

theorem memory_write (d : Daemon σ) (key : RecordKey) (value : Bytes) :
    (d.write key value).snd.memory = d.memory := by
  rw [write_snd]
  rfl

-- A change of the pairing or of the directory touches nothing else in memory.

theorem changePairing_frame (d : Daemon σ) (change : Except PairingError Unit × PairingSession) :
    ∃ store, (d.changePairing change).snd = { d.withPairing change.snd with store } := by
  obtain ⟨_ | _, pairing⟩ := change
  case error => exact ⟨d.store, rfl⟩
  case ok    => exact ⟨_, write_snd _ _ _⟩

theorem changeContacts_frame {α : Type} (d : Daemon σ)
    (change : Except ContactDirectoryError α × ContactDirectory) :
    ∃ store, (d.changeContacts change).snd = { d.withContacts change.snd with store } := by
  obtain ⟨_ | _, contacts⟩ := change
  case error => exact ⟨d.store, rfl⟩
  case ok    => exact ⟨_, write_snd _ _ _⟩

theorem changePairing_storage {change : Except PairingError Unit × PairingSession}
    (h : (d.changePairing change).fst = .error .storage) :
    change.fst = .ok () ∧ (d.changePairing change).snd.memory =
      (change.snd, d.authority.contacts, d.ledger) := by
  obtain ⟨_ | _, pairing⟩ := change
  case error => cases h
  case ok    => exact ⟨rfl, memory_write _ _ _⟩

theorem changePairing_memory {change : Except PairingError Unit × PairingSession} {idle : Prop}
    (same : change.fst = .ok () → (change.snd = d.authority.pairing ↔ idle))
    (h : (d.changePairing change).fst = .error .storage) :
    (d.changePairing change).snd.memory = d.memory ↔ idle := by
  obtain ⟨hok, hm⟩ := changePairing_storage h
  rw [hm, ← same hok]
  simp [memory]

theorem changeContacts_storage {α : Type} {change : Except ContactDirectoryError α × ContactDirectory}
    (h : (d.changeContacts change).fst.map (fun _ => ()) = .error .storage) :
    (∃ a, change.fst = .ok a) ∧ (d.changeContacts change).snd.memory =
      (d.authority.pairing, change.snd, d.ledger) := by
  obtain ⟨_ | a, contacts⟩ := change
  case error => cases h
  case ok    => exact ⟨⟨a, rfl⟩, memory_write _ _ _⟩

theorem changeContacts_memory {α : Type} {change : Except ContactDirectoryError α × ContactDirectory}
    {idle : Prop}
    (same : ∀ a, change.fst = .ok a → (change.snd = d.authority.contacts ↔ idle))
    (h : (d.changeContacts change).fst.map (fun _ => ()) = .error .storage) :
    (d.changeContacts change).snd.memory = d.memory ↔ idle := by
  obtain ⟨⟨a, hok⟩, hm⟩ := changeContacts_storage h
  rw [hm, ← same a hok]
  simp [memory]

theorem map_unit {ε : Type} (result : Except ε Unit) : result.map (fun _ => ()) = result := by
  cases result <;> rfl

-- For the operations on one contact.
theorem withContact_memory {accountId : String} {idle : ContactRecord → Prop}
    {update : ContactRecord → Except ContactDirectoryError ContactRecord}
    (same : ∀ contact contact', update contact = .ok contact' →
      (contact' = contact ↔ idle contact))
    (h : (d.changeContacts (d.authority.contacts.withContact accountId update)).fst =
      .error .storage) :
    (d.changeContacts (d.authority.contacts.withContact accountId update)).snd.memory = d.memory ↔
      ∃ contact, d.authority.contacts.get accountId = some contact ∧ idle contact := by
  refine changeContacts_memory (fun _ hok => ?_) (by rw [map_unit, h])
  rw [ContactDirectory.withContact_same hok]
  obtain ⟨contact, contact', hg, hu, _⟩ := ContactDirectory.withContact_ok hok
  simp only [hg, Option.some.injEq, exists_eq_left', hu, Except.ok.injEq]
  exact same contact contact' hu

theorem cancel_changes {ledger : DeliveryLedger} {digest : String}
    (h : (ledger.cancel digest).fst = .ok true) : (ledger.cancel digest).snd ≠ ledger := by
  intro he
  cases hg : ledger.get digest
  case none => simp [DeliveryLedger.cancel, DeliveryLedger.withRecord, hg] at h
  case some record =>
    simp only [DeliveryLedger.cancel, DeliveryLedger.withRecord, hg] at h he
    have hnew : (ledger.records.insert digest record.cancel.snd)[digest]? = some record.cancel.snd :=
      Std.ExtTreeMap.getElem?_insert_self
    have hsame : ledger.records.insert digest record.cancel.snd = ledger.records :=
      congrArg DeliveryLedger.records he
    rw [hsame] at hnew
    have hr : record.cancel.snd = record := Option.some.inj (hnew.symm.trans hg)
    unfold DeliveryRecord.cancel at h hr
    split at h
    case isTrue => cases h
    case isFalse hn =>
      rw [if_neg hn] at hr
      exact hn (by rw [← congrArg DeliveryRecord.state hr]; rfl)

theorem cancelDelivery_memory {digest : String}
    (h : (d.cancelDelivery digest).fst.map (fun _ => ()) = .error .storage) :
    (d.cancelDelivery digest).snd.memory ≠ d.memory := by
  unfold cancelDelivery at h ⊢
  rcases hc : d.ledger.cancel digest with ⟨_ | _ | _, ledger⟩ <;> simp only [hc] at h ⊢
  case error    => cases h
  case ok.false => cases h
  case ok.true =>
    have hne := cancel_changes (show (d.ledger.cancel digest).fst = .ok true by rw [hc])
    rw [hc] at hne
    rcases hp : { d with ledger }.persistLedger with ⟨_ | _, d'⟩ <;> simp only [hp] at h ⊢
    case ok => cases h
    case error =>
      have hl : d'.ledger = ledger := (congrArg (fun result => result.snd.ledger) hp).symm
      intro hm
      exact hne (hl.symm.trans (congrArg (fun memory => memory.snd.snd) hm))

theorem approve_same {session : PairingSession} {now : UInt64}
    (h : (allowDuplicate (session.approve now)).fst = .ok ()) :
    (allowDuplicate (session.approve now)).snd = session ↔ session.state = .established := by
  rcases ha : session.approve now with ⟨e | _, pairing⟩
  case ok =>
    have hc := PairingSession.approve_changes (show (session.approve now).fst = .ok () by rw [ha])
    rw [ha] at hc
    exact iff_of_false hc.left hc.right
  case error =>
    rw [ha] at h
    cases e
    case duplicate =>
      have hd := PairingSession.approve_duplicate
        (show (session.approve now).fst = .error .duplicate by rw [ha])
      rw [ha] at hd
      exact iff_of_true hd.left hd.right
    all_goals cases h

theorem memory_iff_isIdle {op : StoredOp} (h : (d.perform sha256 op).fst = .error .storage) :
    (d.perform sha256 op).snd.memory = d.memory ↔ d.IsIdle op := by
  have never {session : PairingSession} {change : Except PairingError Unit × PairingSession}
      (changes : change.fst = .ok () → change.snd ≠ session) :
      change.fst = .ok () → (change.snd = session ↔ False) :=
    fun hok => iff_of_false (changes hok) id
  cases op
  case markInviteCreated => exact changePairing_memory PairingSession.markInviteCreated_same h
  case approvePairing    => exact changePairing_memory approve_same h
  case confirmSafety     => exact changePairing_memory PairingSession.confirmSafety_same h
  case stagePeer => exact changePairing_memory (never PairingSession.verifyPeer_changes) h
  case unverifySafety => exact changePairing_memory (never PairingSession.unverifySafety_changes) h
  case rejectPairing => exact changePairing_memory (never PairingSession.reject_changes) h
  case invalidateRelayBinding =>
    exact changePairing_memory (never PairingSession.invalidateBinding_changes) h
  case removeContact =>
    exact changeContacts_memory
      (fun _ hok => iff_of_false (ContactDirectory.remove_changes hok) id) h
  case setContactAlias accountId aliasName =>
    simp only [perform, setContactAlias, ContactDirectory.setAlias] at h ⊢
    split at h
    case isTrue => cases h
    case isFalse hn =>
      rw [if_neg hn]
      exact withContact_memory (fun _ _ hu => by rw [← Except.ok.inj hu]) h
  case setContactBlocked accountId blocked =>
    cases blocked
    all_goals
      simp only [perform, setContactBlocked, ContactDirectory.block, ContactDirectory.unblock, if_true,
        Bool.false_eq_true, if_false] at h ⊢
      refine withContact_memory (fun contact _ hu => ?_) h
      rw [← Except.ok.inj hu]
      refine ⟨fun he => (congrArg ContactRecord.state he).symm, fun hs => ?_⟩
      cases contact
      cases hs
      rfl
  case bindContactConversation accountId conversationId =>
    refine withContact_memory (fun contact _ hu => ?_) h
    split at hu
    case isTrue => cases hu
    case isFalse =>
      rw [← Except.ok.inj hu]
      exact ⟨fun he => (congrArg ContactRecord.conversationId he).symm, fun hs => by simp [← hs]⟩
  case markContactRead accountId =>
    refine withContact_memory (fun contact _ hu => ?_) h
    rw [← Except.ok.inj hu]
    exact ⟨fun he => (congrArg ContactRecord.unreadCount he).symm, fun hs => by simp [← hs]⟩
  case registerApprovedContact now =>
    simp only [perform, registerApprovedContact, IsIdle] at h ⊢
    cases hp : d.authority.pairing.peer <;> simp only [hp] at h ⊢
    case none => cases h
    case some peer =>
      rw [changeContacts_memory (fun _ hok => ContactDirectory.registerApproved_same hok)
        (by rw [map_unit, h])]
      simp
  case cancelDelivery => exact iff_of_false (cancelDelivery_memory h) id

-- A write failed, and the operation says so.
theorem memory_kept_iff (sha256 : Bytes → ByteBlock 32) (d : Daemon σ) (op : StoredOp)
    (h : (d.perform sha256 op).fst = .error .storage) :
    (d.perform sha256 op).snd.memory = d.memory ↔ d.IsIdle op :=
  memory_iff_isIdle h

def sampleContact : ContactRecord where
  accountId          := "peer"
  deviceId           := "phone"
  relayOrigin        := "http://127.0.0.1:8787"
  inboxUrl           := none
  aliasName          := none
  state              := "verified"
  conversationId     := some "adconv01"
  lastMessagePreview := none
  lastMessageAt      := some 1700000000
  unreadCount        := 0

-- A daemon with one contact, and a store whose commits end as given.
def sample (outcomes : List CommitOutcome) : Daemon Unit where
  authority := {
    accountId              := "own"
    deviceId               := "laptop"
    relayOrigin            := "http://127.0.0.1:8787"
    inboxUrl               := none
    pairing                := .new "own" "laptop"
    contacts               := ⟨(∅ : Std.ExtTreeMap String ContactRecord).insert "peer" sampleContact⟩
    receivedAttachments    := ∅
    pendingRendezvousCodes := []
    pendingConversationId  := none
    pendingKeyPackages     := [] }
  catalog   := .new
  store     := ⟨EncryptedStore.sampleStore, [], outcomes⟩
  ledger    := .empty

def sampleSha256 (_ : Bytes) : ByteBlock 32 := .fill 32 0

set_option maxRecDepth 10000 in
theorem sample_refused {accountId : String} {blocked : Bool} (h : accountId = "peer") :
    ((sample [.refused]).perform sampleSha256 (.setContactBlocked accountId blocked)).fst =
      .error .storage := by
  subst h
  cases blocked <;> decide

-- The contact counts as blocked although the store could not be written.
theorem blocked_not_kept :
    ((sample [.refused]).perform sampleSha256 (.setContactBlocked "peer" true)).fst =
        .error .storage ∧
      ((sample [.refused]).perform sampleSha256 (.setContactBlocked "peer" true)).snd.memory ≠
        (sample [.refused]).memory := by
  refine ⟨sample_refused rfl, fun h => ?_⟩
  obtain ⟨contact, hg, hs⟩ := (memory_iff_isIdle (sample_refused rfl)).mp h
  have hc : (sample [.refused]).authority.contacts.get "peer" = some sampleContact := by
    decide
  cases hc.symm.trans hg
  exact absurd hs (by decide)

theorem unblocked_kept :
    ((sample [.refused]).perform sampleSha256 (.setContactBlocked "peer" false)).snd.memory =
        (sample [.refused]).memory ↔
      (sample [.refused]).IsIdle (.setContactBlocked "peer" false) :=
  memory_kept_iff sampleSha256 (sample [.refused]) (.setContactBlocked "peer" false)
    (sample_refused rfl)

end Daemon
