import AnotherDimension.Library.Run
import AnotherDimension.Pairing.Theorems.Steps

-- Which peers the messaging gate stands for, over whole histories of a pairing.

-- What a call that succeeded did.
inductive PairingEntry
  | invited
  | staged (peer : VerifiedInvite) (established : Bool)
  | confirmed (value : String)
  | withdrawn
  | approved
  | ended
  deriving DecidableEq

-- A pairing with everything that was done to it, the latest first.
structure PairingHistory where
  session : PairingSession
  entries : List PairingEntry

namespace PairingHistory

open PairingEntry
open PairingSession (samplePeer sampleNumber)

variable {sha256 : Bytes → ByteBlock 32} {h : PairingHistory} {op : PairingOp}

def entry (session : PairingSession) : PairingOp → PairingEntry
  | .markInviteCreated            => invited
  | .verifyPeer peer _            => staged peer (session.state = .established)
  | .approve _                    => approved
  | .confirmSafety value          => confirmed value
  | .unverifySafety               => withdrawn
  | .reject | .invalidateBinding => ended

def step (sha256 : Bytes → ByteBlock 32) (h : PairingHistory) (op : PairingOp) : PairingHistory :=
  match h.session.perform sha256 op with
  | (.ok (), session)   => { session, entries := entry h.session op :: h.entries }
  | (.error _, session) => { h with session }

def start (localAccountId localDeviceId : String) : PairingHistory where
  session := .new localAccountId localDeviceId
  entries := []

-- Nothing in between has put another peer or none in place.
def IsHeld (recent : List PairingEntry) : Prop :=
  ∀ e ∈ recent, e ≠ invited ∧ e ≠ ended ∧ ∀ peer established, e ≠ staged peer established

-- The number was confirmed, at some time.
def IsConfirmed (number : String) (recent : List PairingEntry) : Prop :=
  ∃ value, confirmed value ∈ recent ∧ Text.trim value = number

-- The number was confirmed and that was not withdrawn afterwards.
def StaysConfirmed (number : String) (recent : List PairingEntry) : Prop :=
  ∃ later value before, recent = later ++ confirmed value :: before ∧ withdrawn ∉ later ∧
    Text.trim value = number

-- The messaging gate stands for this peer alone: its own number is confirmed and it was approved.
def TrustsPeer (number : VerifiedInvite → String) (entries : List PairingEntry)
    (peer : VerifiedInvite) : Prop :=
  ∃ recent established earlier, entries = recent ++ staged peer established :: earlier ∧
    IsHeld recent ∧ StaysConfirmed (number peer) recent ∧ approved ∈ recent

-- An earlier peer had its own number confirmed and was approved, and the pairing has not ended
-- since.
def IsFounded (number : VerifiedInvite → String) (entries : List PairingEntry) : Prop :=
  ∃ later own founder before, entries = later ++ (own ++ staged founder false :: before) ∧
    IsHeld own ∧ IsConfirmed (number founder) own ∧ approved ∈ own ∧
    ∀ e ∈ later, e ≠ invited ∧ e ≠ ended ∧ ∀ peer, e ≠ staged peer false

-- The gate stands for this peer, or for the group that an earlier peer founded and that it was
-- added to. In either case a withdrawal was followed by a confirmation of its own number.
def TrustsPeerOrGroup (number : VerifiedInvite → String) (entries : List PairingEntry)
    (peer : VerifiedInvite) : Prop :=
  ∃ recent established earlier, entries = recent ++ staged peer established :: earlier ∧
    IsHeld recent ∧ (withdrawn ∈ recent → StaysConfirmed (number peer) recent) ∧
    (established = false → StaysConfirmed (number peer) recent ∧ approved ∈ recent) ∧
    (established = true → IsFounded number earlier)

variable {origin : PairingSession} {number : String} {e : PairingEntry} {peer : VerifiedInvite}
  {recent entries : List PairingEntry} {numbers : VerifiedInvite → String}

theorem IsHeld.cons (he : e ≠ invited ∧ e ≠ ended ∧ ∀ peer established, e ≠ staged peer established)
    (hr : IsHeld recent) : IsHeld (e :: recent) :=
  List.forall_mem_cons.mpr ⟨he, hr⟩

theorem IsConfirmed.cons (h : IsConfirmed number recent) : IsConfirmed number (e :: recent) :=
  have ⟨value, hv, hn⟩ := h
  ⟨value, List.mem_cons_of_mem _ hv, hn⟩

theorem StaysConfirmed.of_isConfirmed (hc : IsConfirmed number recent)
    (hw : withdrawn ∈ recent → StaysConfirmed number recent) : StaysConfirmed number recent := by
  by_cases hm : withdrawn ∈ recent
  case pos => exact hw hm
  case neg =>
    have ⟨value, hv, hn⟩ := hc
    have ⟨later, before, hs⟩ := List.append_of_mem hv
    exact ⟨later, value, before, hs, fun h => hm (hs ▸ List.mem_append_left _ h), hn⟩

-- A further peer that is added to a founded group leaves it founded.
theorem IsFounded.append (hr : IsHeld recent) (hf : IsFounded numbers entries) :
    IsFounded numbers (recent ++ staged peer true :: entries) := by
  have ⟨later, own, founder, before, hs, ho, hc, ha, hl⟩ := hf
  refine ⟨recent ++ staged peer true :: later, own, founder, before, by simp [hs], ho, hc, ha, ?_⟩
  intro e he
  rw [List.mem_append, List.mem_cons] at he
  rcases he with he | rfl | he
  case inl     => exact ⟨(hr e he).left, (hr e he).right.left, fun p => (hr e he).right.right p _⟩
  case inr.inl => simp
  case inr.inr => exact hl e he

-- A verified peer has only seen confirmations, its own number among them if the flag is set.
def Staged (numbers : VerifiedInvite → String) (h : PairingHistory) : Prop :=
  ∃ peer recent earlier, h.session.peer = some peer ∧
    h.entries = recent ++ staged peer false :: earlier ∧
    (∀ e ∈ recent, ∃ value, e = confirmed value) ∧
    (h.session.safetyVerified → IsConfirmed (numbers peer) recent)

-- An established peer was approved, or was added to a group whose founder was.
def Stands (numbers : VerifiedInvite → String) (h : PairingHistory) : Prop :=
  ∃ peer recent established earlier, h.session.peer = some peer ∧
    h.entries = recent ++ staged peer established :: earlier ∧ IsHeld recent ∧
    (established = false → IsConfirmed (numbers peer) recent ∧ approved ∈ recent) ∧
    (established = true → IsFounded numbers earlier) ∧
    (h.session.safetyVerified → withdrawn ∈ recent → StaysConfirmed (numbers peer) recent)

-- What the state of the session says about the entries.
structure Explains (sha256 : Bytes → ByteBlock 32) (origin : PairingSession) (h : PairingHistory) :
    Prop where
  account     : h.session.localAccountId = origin.localAccountId
  device      : h.session.localDeviceId = origin.localDeviceId
  verified    : h.session.state = .verified → h.Staged (origin.safetyNumberFor sha256)
  established : h.session.state = .established → h.Stands (origin.safetyNumberFor sha256)

theorem Explains.safetyNumber (x : h.Explains sha256 origin) :
    h.session.safetyNumber sha256 = h.session.peer.map (origin.safetyNumberFor sha256) := by
  have hn : h.session.safetyNumberFor sha256 = origin.safetyNumberFor sha256 := by
    funext peer
    simp only [PairingSession.safetyNumberFor, x.account, x.device]
  rw [PairingSession.safetyNumber, hn]

theorem Stands.isFounded (hs : h.Stands numbers) : IsFounded numbers h.entries := by
  have ⟨peer, recent, established, earlier, _, he, hr, hf, ht, _⟩ := hs
  cases established
  case true  => exact he ▸ (ht rfl).append hr
  case false => exact ⟨[], recent, peer, earlier, he, hr, (hf rfl).left, (hf rfl).right, by simp⟩

theorem Stands.trustsPeerOrGroup (hs : h.Stands numbers) (hv : h.session.safetyVerified) :
    ∃ peer, h.session.peer = some peer ∧ TrustsPeerOrGroup numbers h.entries peer := by
  have ⟨peer, recent, established, earlier, hp, he, hr, hf, ht, hw⟩ := hs
  refine ⟨peer, hp, recent, established, earlier, he, hr, hw hv, fun hn => ?_, ht⟩
  exact ⟨.of_isConfirmed (hf hn).left (hw hv), (hf hn).right⟩

theorem Explains.start {a d : String} : (start a d).Explains sha256 (.new a d) where
  account     := rfl
  device      := rfl
  verified    := nofun
  established := nofun

section Steps

variable {session : PairingSession} {now : UInt64} {value : String}

theorem Explains.markInviteCreated (x : h.Explains sha256 origin)
    (hp : h.session.markInviteCreated = (.ok (), session)) :
    Explains sha256 origin ⟨session, invited :: h.entries⟩ := by
  have ⟨_, hs⟩ := PairingSession.markInviteCreated_ok hp
  subst hs
  exact ⟨x.account, x.device, nofun, nofun⟩

theorem Explains.verifyPeer (x : h.Explains sha256 origin)
    (hp : h.session.verifyPeer peer now = (.ok (), session)) :
    Explains sha256 origin
      ⟨session, staged peer (h.session.state = .established) :: h.entries⟩ := by
  have ⟨_, _, _, hs⟩ := PairingSession.verifyPeer_ok hp
  rcases hs with ⟨ho, hs⟩ | ⟨he, _, hs⟩
  case inl =>
    have hn : h.session.state ≠ .established := by
      intro he
      simp [PairingSession.IsOpen, he] at ho
    subst hs
    refine ⟨x.account, x.device, fun _ => ?_, nofun⟩
    exact ⟨peer, [], h.entries, rfl, by simp [hn], nofun, nofun⟩
  case inr =>
    subst hs
    refine ⟨x.account, x.device, by simp [he], fun _ => ?_⟩
    exact ⟨peer, [], true, h.entries, rfl, by simp [he], nofun, nofun,
      fun _ => (x.established he).isFounded, fun _ => nofun⟩

theorem Explains.approve (x : h.Explains sha256 origin)
    (hp : h.session.approve now = (.ok (), session)) :
    Explains sha256 origin ⟨session, approved :: h.entries⟩ := by
  have ⟨hv, hsafe, _, hs⟩ := PairingSession.approve_ok hp
  have ⟨peer, recent, earlier, hpeer, he, honly, hc⟩ := x.verified hv
  subst hs
  refine ⟨x.account, x.device, nofun, fun _ => ?_⟩
  refine ⟨peer, approved :: recent, false, earlier, hpeer, by simp [he], ?_, fun _ => ?_, nofun, ?_⟩
  case refine_1 =>
    refine .cons (by simp) fun e he => ?_
    have ⟨value, hv⟩ := honly e he
    simp [hv]
  case refine_2 => exact ⟨(hc hsafe).cons, List.mem_cons_self⟩
  case refine_3 =>
    intro _ hw
    cases List.mem_cons.mp hw
    case inl hw => cases hw
    case inr hw =>
      have ⟨value, hv⟩ := honly _ hw
      cases hv

theorem Explains.confirmSafety (x : h.Explains sha256 origin)
    (hp : h.session.confirmSafety sha256 value = (.ok (), session)) :
    Explains sha256 origin ⟨session, confirmed value :: h.entries⟩ := by
  have ⟨_, hre, hn, hs⟩ := PairingSession.confirmSafety_ok hp
  rw [x.safetyNumber] at hn
  subst hs
  refine ⟨x.account, x.device, fun hv => ?_, fun he => ?_⟩
  case refine_1 =>
    have ⟨peer, recent, earlier, hpeer, he, honly, hc⟩ := x.verified hv
    refine ⟨peer, confirmed value :: recent, earlier, hpeer, by simp [he], ?_, fun _ => ?_⟩
    case refine_1 => exact List.forall_mem_cons.mpr ⟨⟨value, rfl⟩, honly⟩
    case refine_2 =>
      -- A flag that is set already lets any value pass: the number is among the earlier ones.
      cases hf : h.session.safetyVerified
      case true  => exact (hc hf).cons
      case false => exact ⟨value, List.mem_cons_self, by simpa [hpeer, eq_comm] using hn hf⟩
  case refine_2 =>
    have ⟨peer, recent, established, earlier, hpeer, hs, hr, hf, ht, _⟩ := x.established he
    have hnum := hn (hre he)
    refine ⟨peer, confirmed value :: recent, established, earlier, hpeer, by simp [hs],
      hr.cons (by simp), fun h => ⟨(hf h).left.cons, List.mem_cons_of_mem _ (hf h).right⟩, ht, ?_⟩
    exact fun _ _ => ⟨[], value, recent, rfl, nofun, by simpa [hpeer, eq_comm] using hnum⟩

theorem Explains.unverifySafety (x : h.Explains sha256 origin)
    (hp : h.session.unverifySafety = (.ok (), session)) :
    Explains sha256 origin ⟨session, withdrawn :: h.entries⟩ := by
  have ⟨he, _, hs⟩ := PairingSession.unverifySafety_ok hp
  have ⟨peer, recent, established, earlier, hpeer, hent, hr, hf, ht, _⟩ := x.established he
  subst hs
  refine ⟨x.account, x.device, by simp [he], fun _ => ?_⟩
  exact ⟨peer, withdrawn :: recent, established, earlier, hpeer, by simp [hent], hr.cons (by simp),
    fun h => ⟨(hf h).left.cons, List.mem_cons_of_mem _ (hf h).right⟩, ht, nofun⟩

theorem Explains.ended (x : h.Explains sha256 origin) :
    Explains sha256 origin ⟨h.session.ended, ended :: h.entries⟩ :=
  ⟨x.account, x.device, nofun, nofun⟩

theorem Explains.step (x : h.Explains sha256 origin) (op : PairingOp) :
    (h.step sha256 op).Explains sha256 origin := by
  unfold PairingHistory.step
  split
  case h_2 e session hp =>
    rw [PairingSession.perform_error hp]
    exact x
  case h_1 session hp =>
    cases op
    case markInviteCreated => exact x.markInviteCreated hp
    case verifyPeer        => exact x.verifyPeer hp
    case approve           => exact x.approve hp
    case confirmSafety     => exact x.confirmSafety hp
    case unverifySafety    => exact x.unverifySafety hp
    case reject            => exact (PairingSession.reject_ok hp).right ▸ x.ended
    case invalidateBinding => exact (PairingSession.invalidateBinding_ok hp).right ▸ x.ended

end Steps

theorem explains_of_mem_states {a d : String} {ops : List PairingOp}
    (hm : h ∈ Run.states (step sha256) (start a d) ops) : h.Explains sha256 (.new a d) :=
  Run.invariant_states (fun _ op x => x.step op) .start h hm

-- In every state of every run, the messaging gate stands for the peer that is held or for the
-- group it was added to.
theorem canMessage_trustsPeerOrGroup (sha256 : Bytes → ByteBlock 32) (a d : String)
    (ops : List PairingOp) :
    ∀ h ∈ Run.states (step sha256) (start a d) ops, h.session.canMessage →
      ∃ peer, h.session.peer = some peer ∧
        TrustsPeerOrGroup ((PairingSession.new a d).safetyNumberFor sha256) h.entries peer := by
  intro h hm hc
  simp only [PairingSession.canMessage, Bool.and_eq_true, decide_eq_true_eq] at hc
  exact (explains_of_mem_states hm).established hc.left |>.trustsPeerOrGroup hc.right

-- Once alice is trusted, carol is staged: messaging stays open although nobody compared numbers
-- with carol.
def groupOps (sha256 : Bytes → ByteBlock 32) : List PairingOp :=
  [.verifyPeer (samplePeer "alice") 0,
   .confirmSafety (sampleNumber sha256 "alice"),
   .approve 0,
   .verifyPeer (samplePeer "carol") 0]

def groupHistory (sha256 : Bytes → ByteBlock 32) : PairingHistory where
  session :=
    { localAccountId := "bob", localDeviceId := "device-1", state := .established
      peer := samplePeer "carol", safetyVerified := true }
  entries :=
    [staged (samplePeer "carol") true, approved,
     confirmed (sampleNumber sha256 "alice"),
     staged (samplePeer "alice") false]

theorem foldl_groupOps (sha256 : Bytes → ByteBlock 32) :
    (groupOps sha256).foldl (step sha256) (start "bob" "device-1") = groupHistory sha256 := by
  let after (state : PairingState) (peer : String) (verified : Bool) : PairingSession :=
    ⟨"bob", "device-1", state, samplePeer peer, verified⟩
  have h₀ : (PairingSession.new "bob" "device-1").state = .idle := rfl
  have h₁ : (PairingSession.new "bob" "device-1").verifyPeer (samplePeer "alice") 0 =
      (.ok (), after .verified "alice" false) := by decide
  have h₂ : (after .verified "alice" false).confirmSafety sha256 (sampleNumber sha256 "alice") =
      (.ok (), after .verified "alice" true) := by
    have hn : (after .verified "alice" false).safetyNumber sha256 =
        some (sampleNumber sha256 "alice") := rfl
    have ht : Text.trim (sampleNumber sha256 "alice") = sampleNumber sha256 "alice" :=
      PairingSession.trim_safetyNumberFor
    simp [PairingSession.confirmSafety, ht, hn, after]
  have h₃ : (after .verified "alice" true).approve 0 =
      (.ok (), after .established "alice" true) := by decide
  have h₄ : (after .established "alice" true).verifyPeer (samplePeer "carol") 0 =
      (.ok (), after .established "carol" true) := by decide
  simp [groupOps, step, start, PairingSession.perform, h₁, h₂, h₃, h₄, entry, groupHistory, after,
    h₀]

theorem groupHistory_mem_states {sha256 : Bytes → ByteBlock 32} :
    groupHistory sha256 ∈ Run.states (step sha256) (start "bob" "device-1") (groupOps sha256) :=
  foldl_groupOps sha256 ▸ Run.foldl_mem_states

-- Whatever the hash function is.
theorem groupOps_not_trustsPeer :
    ¬∃ sha256 : Bytes → ByteBlock 32,
      ∀ h ∈ Run.states (step sha256) (start "bob" "device-1") (groupOps sha256),
        h.session.canMessage → ∃ peer, h.session.peer = some peer ∧
          TrustsPeer ((PairingSession.new "bob" "device-1").safetyNumberFor sha256) h.entries
            peer := by
  intro ⟨sha256, trusts⟩
  have ⟨peer, hp, recent, established, earlier, he, _, _, ha⟩ :=
    trusts (groupHistory sha256) groupHistory_mem_states rfl
  cases hp
  match recent with
  | []              => cases ha
  | _ :: []         => cases he
  | _ :: _ :: []    => cases he
  | _ :: _ :: _ :: [] => simp [groupHistory, samplePeer] at he
  | _ :: _ :: _ :: _ :: _ => simp [groupHistory] at he

theorem groupOps_trustsPeerOrGroup :
    let sha256 : Bytes → ByteBlock 32 := fun _ => ⟨.replicate 32 0, List.length_replicate⟩
    ∃ h ∈ Run.states (step sha256) (start "bob" "device-1") (groupOps sha256),
      h.session.canMessage ∧ ∃ peer, h.session.peer = some peer ∧
        TrustsPeerOrGroup ((PairingSession.new "bob" "device-1").safetyNumberFor sha256) h.entries
          peer :=
  ⟨_, groupHistory_mem_states, rfl,
    canMessage_trustsPeerOrGroup _ "bob" "device-1" _ _ groupHistory_mem_states rfl⟩

end PairingHistory
