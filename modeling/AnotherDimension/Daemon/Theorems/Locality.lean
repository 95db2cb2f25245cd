import AnotherDimension.Daemon.Maintenance
import AnotherDimension.Daemon.Theorems.Operations
import AnotherDimension.Daemon.Theorems.Receive
import AnotherDimension.Library.Run

-- What an expired inbox of one contact does to the pairing with another one.

open Storage

namespace Daemon

variable {σ : Type} {services : Services σ} {read : Bytes → Option StoredMessage} {d d' : Daemon σ}
  {now : UInt64}

-- Receiving leaves the pairing alone.

section Receive

variable {conversationId digest relayId capability : String} {plaintext : Option Bytes}
  {staged : Staged} {poisons ok : Bool} {items : List RelayItem} {allowed : String → Prop}

theorem stageContact_pairing (authority : InviteAuthority) (conversationId : String)
    (plaintext : Bytes) (now : UInt64) (background : Bool) :
    (stageContact authority conversationId plaintext now background).fst.pairing =
      authority.pairing := by
  have hs : (authority.stageContactMessage conversationId plaintext now background).snd.pairing =
      authority.pairing := rfl
  unfold stageContact
  rcases hx : authority.stageContactMessage conversationId plaintext now background with
    ⟨_ | _, authority'⟩ <;> simpa only [hx] using hs

theorem stageAttachment_pairing (authority : InviteAuthority)
    (descriptor : AttachmentDescriptor) (background : Bool) :
    (stageAttachment authority conversationId digest relayId descriptor now
      background).authority.pairing = authority.pairing :=
  stageContact_pairing ..

theorem IsStaged.pairing {authority : InviteAuthority}
    (h : IsStaged services authority conversationId digest relayId now plaintext staged) :
    staged.authority.pairing = authority.pairing := by
  obtain ⟨background, rfl⟩ | rfl := h
  case inl =>
    cases plaintext
    case none => rfl
    case some plaintext =>
      simp only [stageSync]
      split
      case h_1 => exact stageAttachment_pairing ..
      case h_2 =>
        simp only [stageSyncMessage]
        split
        case isTrue  => rfl
        case isFalse => exact stageContact_pairing ..
  case inr =>
    cases plaintext
    case none => rfl
    case some plaintext =>
      simp only [stageInbox]
      split
      case h_1 => exact stageAttachment_pairing ..
      case h_2 =>
        simp only [stageInboxMessage]
        split
        case h_1 => rfl
        case h_2 =>
          split
          case isTrue  => exact stageContact_pairing ..
          case isFalse => rfl

theorem restoreStaged_pairing (d : Daemon σ) :
    (d.restoreStaged services).authority.pairing = d.authority.pairing := by
  have hc : (d.authority.restoreContacts services.readDirectory d.store).snd.pairing =
      d.authority.pairing := by
    unfold InviteAuthority.restoreContacts
    split <;> rfl
  unfold restoreStaged
  split <;> exact hc

theorem poisonIf_pairing (d : Daemon σ) (poisons : Bool) (conversationId : String) :
    (d.poisonIf poisons conversationId).authority.pairing = d.authority.pairing := by
  cases poisons <;> rfl

theorem Stores.pairing (h : Stores services conversationId relayId digest staged poisons d ok d')
    (hs : staged.authority.pairing = d.authority.pairing) :
    d'.authority.pairing = d.authority.pairing := by
  cases h
  case unsaved  => exact poisonIf_pairing ..
  case unmarked => exact (poisonIf_pairing ..).trans hs
  case refused  => exact (restoreStaged_pairing _).trans hs
  case accepted => exact hs

theorem Receives.pairing (h : Receives services capability now items allowed d d') :
    d'.authority.pairing = d.authority.pairing := by
  induction h
  case refl => rfl
  case tail hs hi =>
    refine Eq.trans ?_ hi
    cases hs
    case tried                     => rfl
    case persisted hp              => cases hp; rfl
    case opened hg hst             => exact hst.pairing hg.pairing

end Receive

theorem persistLedger_pairing (d : Daemon σ) :
    d.persistLedger.snd.authority.pairing = d.authority.pairing := rfl

theorem invalidateRelayBinding_pairing (d : Daemon σ) :
    d.invalidateRelayBinding.snd.authority.pairing = d.authority.pairing.invalidateBinding.snd := by
  unfold invalidateRelayBinding changePairing
  split
  case h_1 hx => rw [hx]; rfl
  case h_2 hx => exact (congrArg Prod.fst (memory_write ..)).trans (by rw [hx]; rfl)

theorem expire_pairing (d : Daemon σ) :
    (d.expire read now).snd.authority.pairing = d.authority.pairing := by
  simp only [expire]
  split <;> rfl

-- Only an answer with 410 reaches the pairing, whatever request it answers.

section

open RelayAnswer

variable (d : Daemon σ)

-- The pairing after the answer.
def pairingAfter {α : Type} (answer : Except RelayError α) : PairingSession :=
  if hasExpired answer then d.authority.pairing.invalidateBinding.snd else d.authority.pairing

theorem finishDelivery_pairing (digest : String) (expectedState : DeliveryState)
    (unavailable : HttpReply) (answer : Except RelayError String) :
    (d.finishDelivery now digest expectedState unavailable answer).snd.authority.pairing =
      d.pairingAfter answer := by
  cases answer
  case ok id =>
    simp only [finishDelivery]
    split
    case h_1 =>
      split <;> rename_i hx <;> exact congrArg (·.snd.authority.pairing) hx.symm
    case h_2 => rfl
  case error error =>
    simp only [finishDelivery, pairingAfter, hasExpired, decide_eq_true_eq]
    split
    case isTrue  => exact invalidateRelayBinding_pairing _
    case isFalse => rfl

theorem failedAck_pairing {α : Type} (error : RelayError) :
    (d.failedAck error).snd.authority.pairing =
      d.pairingAfter (.error error : Except RelayError α) := by
  simp only [failedAck, pairingAfter, hasExpired, decide_eq_true_eq]
  split
  case isTrue h => rw [if_neg (by rw [h]; decide)]
  case isFalse  =>
    split
    case isTrue  => exact invalidateRelayBinding_pairing d
    case isFalse => rfl

theorem finishAck_pairing (ids : List String) (answer : Except RelayError Nat) :
    (d.finishAck ids answer).snd.authority.pairing = d.pairingAfter answer := by
  cases answer
  case error => exact d.failedAck_pairing _
  case ok    =>
    simp only [finishAck]
    split <;> rename_i hx <;> exact congrArg (·.snd.authority.pairing) hx.symm

theorem finishSyncAck_pairing (messages : List String) (answer : Except RelayError Nat) :
    (d.finishSyncAck messages answer).snd.authority.pairing = d.pairingAfter answer := by
  cases answer
  case error => exact d.failedAck_pairing _
  case ok    => rfl

theorem finishSync_pairing (conversationId : String) (background : Bool) (capability : String)
    (answer : Except RelayError (List RelayItem)) :
    (d.finishSync services now conversationId background capability
      answer).snd.authority.pairing = d.pairingAfter answer := by
  cases answer
  case ok items    => exact (processSyncItems_receives items).pairing
  case error error =>
    simp only [finishSync, pairingAfter, hasExpired, decide_eq_true_eq]
    split
    case isTrue  => exact invalidateRelayBinding_pairing d
    case isFalse => rfl

theorem takeIn_pairing (capability : String) (items : List RelayItem) :
    (d.takeIn services read now capability items).snd.snd.authority.pairing =
      d.authority.pairing :=
  (expire_pairing _).trans (processInboxItems_receives items).pairing

theorem finishDueRetry_pairing (record : DeliveryRecord) (answer : Except RelayError String) :
    (d.finishDueRetry now record answer).snd.snd.authority.pairing = d.pairingAfter answer := by
  cases answer
  case ok id =>
    simp only [finishDueRetry]
    split <;> rfl
  case error error =>
    simp only [finishDueRetry, pairingAfter, hasExpired, decide_eq_true_eq]
    split
    case isTrue  => exact invalidateRelayBinding_pairing d
    case isFalse => split <;> rfl

theorem answered_pairing (answer : UInt64 × RelayAnswer) :
    (d.answered services read answer).authority.pairing =
      if answer.snd.isExpired then d.authority.pairing.invalidateBinding.snd
      else d.authority.pairing := by
  obtain ⟨now, answer⟩ := answer
  cases answer
  case post inboxUrl digest answer       => exact d.finishDelivery_pairing ..
  case retry inboxUrl record answer      => exact d.finishDelivery_pairing ..
  case ack inboxUrl ids answer           => exact d.finishAck_pairing ids answer
  case sync inboxUrl conversationId background capability answer =>
    exact d.finishSync_pairing conversationId background capability answer
  case syncAck inboxUrl messages answer  => exact d.finishSyncAck_pairing messages answer
  case dueRetry record answer            => exact d.finishDueRetry_pairing record answer
  case inbox inboxUrl capability answer  =>
    cases answer
    case ok items    => exact d.takeIn_pairing capability items
    case error error =>
      simp only [answered, isExpired, hasExpired, decide_eq_true_eq]
      split
      case isTrue  => exact invalidateRelayBinding_pairing d
      case isFalse => rfl

end

-- The inbox is the peer's or the daemon's own.
def IsBoundTo (d : Daemon σ) (inboxUrl : String) : Prop :=
  d.authority.pairing.peer.bind (·.inboxUrl) = some inboxUrl ∨ d.authority.inboxUrl = some inboxUrl

-- The answer says that an inbox has expired, and the pairing is not bound to that inbox.
def IsForeign (d : Daemon σ) (answer : RelayAnswer) : Prop :=
  answer.isExpired ∧ ∀ inboxUrl, answer.inboxUrl = some inboxUrl → ¬d.IsBoundTo inboxUrl

-- Such an answer leaves the state of the pairing, the peer and the safety flag as they are.
def IsLocal (services : Services σ) (read : Bytes → Option StoredMessage) (d : Daemon σ)
    (answer : UInt64 × RelayAnswer) : Prop :=
  d.IsForeign answer.snd →
    (d.answered services read answer).authority.pairing.state = d.authority.pairing.state ∧
    (d.answered services read answer).authority.pairing.peer = d.authority.pairing.peer ∧
    (d.answered services read answer).authority.pairing.safetyVerified =
      d.authority.pairing.safetyVerified

theorem isLocal_iff (services : Services σ) (read : Bytes → Option StoredMessage) (d : Daemon σ)
    (answer : UInt64 × RelayAnswer) :
    d.IsLocal services read answer ↔
      (d.IsForeign answer.snd → d.authority.pairing.state ≠ .established) := by
  refine imp_congr_right fun hf => ?_
  rw [answered_pairing, if_pos hf.left, PairingSession.invalidateBinding]
  split
  case isTrue h =>
    refine iff_of_false (fun hs => ?_) (not_not_intro h)
    cases hs.left.trans h
  case isFalse h => exact iff_of_true ⟨rfl, rfl, rfl⟩ h

-- A run of answers, in whatever order the relays give them.
theorem expiry_isLocal_iff (services : Services σ) (read : Bytes → Option StoredMessage)
    (d : Daemon σ) (answers : List (UInt64 × RelayAnswer)) :
    Run.Meets (answered services read) (IsLocal services read) d answers ↔
      Run.Meets (answered services read)
        (fun d answer => d.IsForeign answer.snd → d.authority.pairing.state ≠ .established)
        d answers where
  mp  := Run.Meets.mono fun d answer => (isLocal_iff services read d answer).mp
  mpr := Run.Meets.mono fun d answer => (isLocal_iff services read d answer).mpr

def sampleInbox (letter : Char) : String :=
  "http://127.0.0.1:8787/api/v1/inbox/" ++ .ofList (List.replicate 43 letter)

def sampleFriend : ContactRecord :=
  { sampleContact with
    accountId      := "friend"
    inboxUrl       := some (sampleInbox 'f')
    conversationId := some "adconv02" }

-- A daemon that is paired with the first of its two contacts.
def samplePaired : Daemon Unit :=
  let d := sample []
  let pairing := { d.authority.pairing with
    state          := .established
    peer           := some {
      accountId      := "peer"
      deviceId       := "phone"
      expiresAt      := 1700000900
      relayOrigin    := "http://127.0.0.1:8787"
      inboxUrl       := some (sampleInbox 'p')
      conversationId := some "adconv01" }
    safetyVerified := true }
  { d with
    authority := { d.authority with
      pairing
      inboxUrl := some (sampleInbox 'o')
      contacts := ⟨d.authority.contacts.contacts.insert "friend" sampleFriend⟩ } }

-- The relay no longer knows the inbox of the other contact, and the pairing is gone.
theorem samplePaired_not_isLocal :
    samplePaired.authority.contacts.get "friend" = some sampleFriend ∧
      ∀ (services : Services Unit) (read : Bytes → Option StoredMessage),
        ¬Run.Meets (answered services read) (IsLocal services read) samplePaired
          [(1700000100,
            .post (sampleInbox 'f') (.ofList (List.replicate 64 'd')) (.error .expired))] := by
  refine ⟨by decide, fun services read h => ?_⟩
  refine (isLocal_iff services read _ _).mp h.left ⟨by decide, fun inboxUrl hi hb => ?_⟩ rfl
  obtain rfl := Option.some.inj hi
  cases hb
  case inl hb => exact absurd hb (by decide)
  case inr hb => exact absurd hb (by decide)

end Daemon
