import AnotherDimension.Pairing.Session

-- What the pairing operations do, one lemma for each.

namespace PairingSession

variable {sha256 : Bytes → ByteBlock 32} {session session' : PairingSession} {op : PairingOp}
  {peer : VerifiedInvite} {now : UInt64} {value : String}

-- The states in which no pairing is going on.
def IsOpen (session : PairingSession) : Prop :=
  session.state = .idle ∨ session.state = .inviteCreated ∨ session.state = .rejected

theorem markInviteCreated_ok (h : session.markInviteCreated = (.ok (), session')) :
    session.state ≠ .verified ∧ session' = { session with state := .inviteCreated } := by
  unfold markInviteCreated at h
  split at h
  case h_1 => cases h
  case h_2 hs =>
    cases h
    exact ⟨hs, rfl⟩

theorem verifyPeer_ok (h : session.verifyPeer peer now = (.ok (), session')) :
    validVerifiedPeer peer ∧ peer.accountId ≠ session.localAccountId ∧ now < peer.expiresAt ∧
    ((session.IsOpen ∧ session' =
        { session with peer := some peer, state := .verified, safetyVerified := false }) ∨
      (session.state = .established ∧
        (∃ trusted, session.peer = some trusted ∧ trusted.accountId ≠ peer.accountId) ∧
        session' = { session with peer := some peer, safetyVerified := true })) := by
  unfold verifyPeer at h
  split at h
  case isTrue     => cases h
  case isFalse hv =>
    split at h
    case isTrue     => cases h
    case isFalse hl =>
      split at h
      case isTrue     => cases h
      case isFalse he =>
        refine ⟨by simpa using hv, hl, UInt64.not_le.mp he, ?_⟩
        split at h
        case h_1 => cases h
        case h_2 hs =>
          split at h
          case h_1            => cases h
          case h_2 trusted ht =>
            split at h
            case isTrue     => cases h
            case isFalse ha =>
              cases h
              exact .inr ⟨hs, ⟨trusted, ht, ha⟩, rfl⟩
        case h_3 hv hs =>
          cases h
          refine .inl ⟨?_, rfl⟩
          unfold IsOpen
          cases he : session.state <;> simp_all

theorem approve_ok (h : session.approve now = (.ok (), session')) :
    session.state = .verified ∧ session.safetyVerified ∧
      (∃ peer, session.peer = some peer ∧ now < peer.expiresAt) ∧
      session' = { session with state := .established } := by
  unfold approve at h
  split at h
  case h_1 => cases h
  case h_2 peer hp =>
    split_ifs at h
    case neg he hn hv hs =>
      cases h
      exact ⟨by simpa using hv, by simpa using hs, ⟨peer, hp, UInt64.not_le.mp he⟩, rfl⟩
    all_goals cases h

theorem confirmSafety_ok (h : session.confirmSafety sha256 value = (.ok (), session')) :
    (session.state = .verified ∨ session.state = .established) ∧
      (session.state = .established → session.safetyVerified = false) ∧
      (session.safetyVerified = false → session.safetyNumber sha256 = some (Text.trim value)) ∧
      session' = { session with safetyVerified := true } := by
  unfold confirmSafety at h
  split_ifs at h
  case neg hs hm =>
    cases h
    refine ⟨?_, ?_, fun hn => by simpa [hn] using hm, rfl⟩
    case refine_1 => by_contra hc; simp_all
    case refine_2 => intro he; by_contra hc; simp_all
  all_goals cases h

theorem unverifySafety_ok (h : session.unverifySafety = (.ok (), session')) :
    session.state = .established ∧ session.safetyVerified ∧
      session' = { session with safetyVerified := false } := by
  unfold unverifySafety at h
  split at h
  case isTrue     => cases h
  case isFalse hn =>
    cases h
    simp only [not_or, ne_eq, Decidable.not_not] at hn
    exact ⟨hn.left, by simpa using hn.right, rfl⟩

theorem reject_ok (h : session.reject = (.ok (), session')) :
    (session.state = .verified ∨ session.state = .established) ∧ session' = session.ended := by
  unfold reject at h
  split at h
  case isTrue hs => cases h; exact ⟨hs, rfl⟩
  case isFalse   => cases h

theorem invalidateBinding_ok (h : session.invalidateBinding = (.ok (), session')) :
    session.state = .established ∧ session' = session.ended := by
  unfold invalidateBinding at h
  split at h
  case isTrue hs => cases h; exact ⟨hs, rfl⟩
  case isFalse   => cases h

theorem trim_safetyNumberFor :
    Text.trim (session.safetyNumberFor sha256 peer) = session.safetyNumberFor sha256 peer := by
  have hs : ∀ c ∈ "sha256-".toList, Text.isWhitespace c = false := by
    simp [Text.isWhitespace]
  refine Text.trim_eq_self fun c hc => ?_
  simp only [safetyNumberFor, String.toList_append, List.mem_append] at hc
  cases hc
  case inl hc => exact hs c hc
  case inr hc => exact Text.isWhitespace_of_mem_toHex hc

-- A call that fails changes nothing.
theorem perform_error {e : PairingError} (h : session.perform sha256 op = (.error e, session')) :
    session' = session := by
  cases op
  case markInviteCreated =>
    simp only [perform, markInviteCreated] at h
    split at h <;> cases h
    rfl
  case verifyPeer =>
    simp only [perform, verifyPeer] at h
    repeat' split at h
    all_goals cases h
    all_goals rfl
  case approve =>
    simp only [perform, approve] at h
    repeat' split at h
    all_goals cases h
    all_goals rfl
  case confirmSafety =>
    simp only [perform, confirmSafety] at h
    repeat' split at h
    all_goals cases h
    all_goals rfl
  case unverifySafety =>
    simp only [perform, unverifySafety] at h
    split at h <;> cases h
    rfl
  case reject =>
    simp only [perform, reject] at h
    split at h <;> cases h
    rfl
  case invalidateBinding =>
    simp only [perform, invalidateBinding] at h
    split at h <;> cases h
    rfl

def samplePeer (accountId : String) : VerifiedInvite where
  accountId      := accountId
  deviceId       := "device-1"
  expiresAt      := 100
  relayOrigin    := "https://relay.example"
  inboxUrl       := none
  conversationId := none

def sampleNumber (sha256 : Bytes → ByteBlock 32) (accountId : String) : String :=
  (new "bob" "device-1").safetyNumberFor sha256 (samplePeer accountId)

end PairingSession
