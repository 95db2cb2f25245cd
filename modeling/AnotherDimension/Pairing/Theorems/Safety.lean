import AnotherDimension.Library.Lines
import AnotherDimension.Pairing.Session

-- The safety number of a pairing is the same on both sides, but the devices are sorted apart from the
-- accounts they belong to.

-- One side of a pairing.
@[ext]
structure Party where
  account : String
  device  : String
  deriving DecidableEq, Repr

namespace Party

def IsValid (party : Party) : Prop :=
  validateProtocolIdentifier party.account ∧ validateProtocolIdentifier party.device

instance (party : Party) : Decidable party.IsValid :=
  inferInstanceAs (Decidable (_ ∧ _))

-- The parties `r` and `s` have the two accounts of `p` and `q`, each with the other one's device.
def Exchanged (p q r s : Party) : Prop :=
  p.account ≠ q.account ∧ p.device ≠ q.device ∧
    s(r, s) = s(⟨p.account, q.device⟩, ⟨q.account, p.device⟩)

theorem newline_not_mem {value : String} (h : validateProtocolIdentifier value) :
    '\n' ∉ value.toList := by
  intro hm
  simp only [validateProtocolIdentifier, Bool.and_eq_true, List.all_eq_true] at h
  have hc := h.right '\n' hm
  exact absurd hc (by decide)

def sorted (a b : String) : String × String :=
  if b < a then (b, a) else (a, b)

theorem sorted_comm (a b : String) : sorted a b = sorted b a := by
  unfold sorted
  split_ifs with h₁ h₂ h₂
  case pos => exact absurd h₂ (String.lt_asymm h₁)
  case neg => rfl
  case pos => rfl
  case neg => rw [String.le_antisymm (String.not_lt.mp h₁) (String.not_lt.mp h₂)]

theorem sorted_eq_or (a b : String) : sorted a b = (a, b) ∨ sorted a b = (b, a) := by
  unfold sorted
  split_ifs <;> simp

theorem sorted_eq_iff {a b c d : String} : sorted a b = sorted c d ↔ s(a, b) = s(c, d) := by
  rw [Sym2.eq_iff]
  constructor
  case mp =>
    intro h
    have ha := sorted_eq_or a b
    have hc := sorted_eq_or c d
    rw [h] at ha
    obtain ha | ha := ha <;> obtain hc | hc := hc <;> simp_all
  case mpr =>
    rintro (⟨rfl, rfl⟩ | ⟨rfl, rfl⟩)
    case inl => rfl
    case inr => exact sorted_comm a b

-- What is hashed, line by line.
def lines (p q : Party) : List String :=
  let accounts := sorted p.account q.account
  let devices := sorted p.device q.device
  ["another-dimension/safety/v1", "account-a=" ++ accounts.fst, "account-b=" ++ accounts.snd,
    "device-a=" ++ devices.fst, "device-b=" ++ devices.snd]

def transcript (p q : Party) : String :=
  (String.singleton '\n').intercalate (lines p q)

theorem newline_not_mem_lines {p q : Party} (hp : p.IsValid) (hq : q.IsValid) :
    ∀ line ∈ lines p q, '\n' ∉ line.toList := by
  have ha := sorted_eq_or p.account q.account
  have hd := sorted_eq_or p.device q.device
  have h₁ := newline_not_mem hp.left
  have h₂ := newline_not_mem hp.right
  have h₃ := newline_not_mem hq.left
  have h₄ := newline_not_mem hq.right
  simp only [lines, List.forall_mem_cons, String.toList_append, List.mem_append, not_or]
  refine ⟨by decide, ⟨by decide, ?_⟩, ⟨by decide, ?_⟩, ⟨by decide, ?_⟩, ⟨by decide, ?_⟩, by simp⟩
  case refine_1 => obtain ha | ha := ha <;> simpa only [ha]
  case refine_2 => obtain ha | ha := ha <;> simpa only [ha]
  case refine_3 => obtain hd | hd := hd <;> simpa only [hd]
  case refine_4 => obtain hd | hd := hd <;> simpa only [hd]

theorem lines_eq_iff {p q r s : Party} : lines p q = lines r s ↔
    s(p.account, q.account) = s(r.account, s.account) ∧
      s(p.device, q.device) = s(r.device, s.device) := by
  rw [← sorted_eq_iff, ← sorted_eq_iff]
  simp only [lines, List.cons.injEq, String.append_right_inj, and_true, true_and, Prod.ext_iff,
    and_assoc]

theorem transcript_eq_iff {p q r s : Party} (hp : p.IsValid) (hq : q.IsValid) (hr : r.IsValid)
    (hs : s.IsValid) : transcript p q = transcript r s ↔
      s(p.account, q.account) = s(r.account, s.account) ∧
        s(p.device, q.device) = s(r.device, s.device) :=
  (Text.intercalate_inj (newline_not_mem_lines hp hq) (newline_not_mem_lines hr hs)
    (List.cons_ne_nil _ _) (List.cons_ne_nil _ _)).trans lines_eq_iff

-- Two accounts and two devices make two unordered pairs of parties, or one.
theorem eq_or_exchanged {p q r s : Party}
    (ha : s(p.account, q.account) = s(r.account, s.account))
    (hd : s(p.device, q.device) = s(r.device, s.device)) :
    s(p, q) = s(r, s) ∨ Exchanged p q r s := by
  obtain ⟨a₁, d₁⟩ := p
  obtain ⟨a₂, d₂⟩ := q
  obtain ⟨a₃, d₃⟩ := r
  obtain ⟨a₄, d₄⟩ := s
  simp only [Sym2.eq_iff, Exchanged, mk.injEq] at *
  by_cases h₁ : a₁ = a₂ <;> by_cases h₂ : d₁ = d₂ <;>
    obtain ⟨rfl, rfl⟩ | ⟨rfl, rfl⟩ := ha <;> obtain ⟨rfl, rfl⟩ | ⟨rfl, rfl⟩ := hd <;> simp_all

theorem Exchanged.ne {p q r s : Party} (h : Exchanged p q r s) : s(p, q) ≠ s(r, s) := by
  have ⟨ha, hd, he⟩ := h
  rw [he, Ne, Sym2.eq_iff]
  rintro (⟨h₁, _⟩ | ⟨h₁, _⟩)
  case inl => exact hd (Party.ext_iff.mp h₁).right
  case inr => exact ha (Party.ext_iff.mp h₁).left

theorem Exchanged.transcript_eq {p q r s : Party} (h : Exchanged p q r s) :
    transcript p q = transcript r s := by
  have hl : lines p q = lines r s := by
    refine lines_eq_iff.mpr ?_
    have ⟨_, _, he⟩ := h
    obtain ⟨rfl, rfl⟩ | ⟨rfl, rfl⟩ := Sym2.eq_iff.mp he
    case inl => exact ⟨rfl, Sym2.eq_swap⟩
    case inr => exact ⟨Sym2.eq_swap, rfl⟩
  rw [transcript, hl, transcript]

end Party

namespace PairingSession

open Party

variable {sha256 : Bytes → ByteBlock 32} {session : PairingSession} {p q r s : Party}

-- This side and the other one.
def parties (session : PairingSession) : Option (Party × Party) :=
  session.peer.map fun peer =>
    (⟨session.localAccountId, session.localDeviceId⟩, ⟨peer.accountId, peer.deviceId⟩)

theorem safetyNumber_eq (h : session.parties = some (p, q)) : session.safetyNumber sha256 =
    some ("sha256-" ++ Bytes.toHex (sha256 <| Bytes.utf8 <| transcript p q).val) := by
  simp only [parties, Option.map_eq_some_iff, Prod.mk.injEq] at h
  have ⟨peer, hpeer, hp, hq⟩ := h
  subst hp hq
  have ht : transcript ⟨session.localAccountId, session.localDeviceId⟩
      ⟨peer.accountId, peer.deviceId⟩ =
        "another-dimension/safety/v1\naccount-a=" ++ (sorted session.localAccountId peer.accountId).fst ++
          "\naccount-b=" ++ (sorted session.localAccountId peer.accountId).snd ++
          "\ndevice-a=" ++ (sorted session.localDeviceId peer.deviceId).fst ++
          "\ndevice-b=" ++ (sorted session.localDeviceId peer.deviceId).snd := by
    refine String.toList_inj.mp ?_
    simp [transcript, lines]
  rw [safetyNumber, hpeer, Option.map_some, safetyNumberFor, ht]
  rfl

theorem safetyNumber_eq_iff {session₁ session₂ : PairingSession}
    (h₁ : session₁.parties = some (p, q)) (h₂ : session₂.parties = some (r, s)) :
    session₁.safetyNumber sha256 = session₂.safetyNumber sha256 ↔
      sha256 (Bytes.utf8 <| transcript p q) = sha256 (Bytes.utf8 <| transcript r s) := by
  rw [safetyNumber_eq h₁, safetyNumber_eq h₂, Option.some.injEq, String.append_right_inj,
    Bytes.toHex_injective.eq_iff, Subtype.ext_iff]

-- Both sides show the same number; and a number stands for one pair of parties only, unless the other
-- pairing has the devices exchanged.
theorem safetyNumber_identifies_iff {session mirror other : PairingSession}
    (hp : p.IsValid) (hq : q.IsValid) (hr : r.IsValid) (hs : s.IsValid)
    (hsession : session.parties = some (p, q)) (hmirror : mirror.parties = some (q, p))
    (hother : other.parties = some (r, s))
    (collisionFree : sha256 (Bytes.utf8 <| transcript p q) = sha256 (Bytes.utf8 <| transcript r s) →
      Bytes.utf8 (transcript p q) = Bytes.utf8 (transcript r s)) :
    (mirror.safetyNumber sha256 = session.safetyNumber sha256 ∧
        (session.safetyNumber sha256 = other.safetyNumber sha256 → s(p, q) = s(r, s))) ↔
      ¬Exchanged p q r s := by
  have hsame : mirror.safetyNumber sha256 = session.safetyNumber sha256 := by
    refine (safetyNumber_eq_iff hmirror hsession).mpr ?_
    rw [(transcript_eq_iff hq hp hp hq).mpr ⟨Sym2.eq_swap, Sym2.eq_swap⟩]
  constructor
  case mp =>
    intro ⟨_, h⟩ he
    refine he.ne <| h <| (safetyNumber_eq_iff hsession hother).mpr ?_
    rw [he.transcript_eq]
  case mpr =>
    intro hn
    refine ⟨hsame, fun h => ?_⟩
    have hb := collisionFree <| (safetyNumber_eq_iff hsession hother).mp h
    have ht := Bytes.utf8_injective hb
    have ⟨ha, hd⟩ := (transcript_eq_iff hp hq hr hs).mp ht
    exact (eq_or_exchanged ha hd).resolve_right hn

-- The session of `p` when it has verified an invite of `q`.
def between (p q : Party) : PairingSession where
  localAccountId := p.account
  localDeviceId  := p.device
  state          := .verified
  peer           := some {
    accountId      := q.account
    deviceId       := q.device
    expiresAt      := 1700000600
    relayOrigin    := "https://relay.example"
    inboxUrl       := none
    conversationId := none
  }
  safetyVerified := false

theorem parties_between (p q : Party) : (between p q).parties = some (p, q) :=
  rfl

-- Alice's phone with Bob's laptop, and Alice's laptop with Bob's phone.
theorem exchangedDevices_not_identified :
    (⟨"alice", "phone"⟩ : Party).IsValid ∧ (⟨"bob", "laptop"⟩ : Party).IsValid ∧
      (⟨"alice", "laptop"⟩ : Party).IsValid ∧ (⟨"bob", "phone"⟩ : Party).IsValid ∧
      s((⟨"alice", "phone"⟩ : Party), ⟨"bob", "laptop"⟩) ≠ s(⟨"alice", "laptop"⟩, ⟨"bob", "phone"⟩) ∧
      ∀ sha256, (between ⟨"alice", "phone"⟩ ⟨"bob", "laptop"⟩).safetyNumber sha256 =
        (between ⟨"alice", "laptop"⟩ ⟨"bob", "phone"⟩).safetyNumber sha256 := by
  have he : Exchanged ⟨"alice", "phone"⟩ ⟨"bob", "laptop"⟩ ⟨"alice", "laptop"⟩ ⟨"bob", "phone"⟩ :=
    ⟨by decide, by decide, rfl⟩
  refine ⟨by decide, by decide, by decide, by decide, he.ne, fun sha256 => ?_⟩
  rw [safetyNumber_eq (parties_between _ _), safetyNumber_eq (parties_between _ _),
    he.transcript_eq]

-- The SHA-256 digests of two transcripts.
def tableSha256 (bytes : Bytes) : ByteBlock 32 :=
  if bytes = Bytes.utf8 (transcript ⟨"alice", "phone"⟩ ⟨"bob", "laptop"⟩) then
    ⟨[139, 192, 238, 69, 13, 70, 88, 110, 84, 224, 76, 55, 246, 92, 187, 195,
      231, 130, 89, 58, 42, 169, 144, 86, 37, 96, 83, 98, 38, 84, 27, 84], rfl⟩
  else
    ⟨[81, 56, 16, 244, 16, 192, 217, 182, 97, 39, 196, 21, 148, 233, 16, 78,
      159, 237, 146, 234, 115, 210, 181, 213, 124, 155, 108, 253, 178, 212, 223, 54], rfl⟩

theorem otherPeer_identified :
    ((between ⟨"bob", "laptop"⟩ ⟨"alice", "phone"⟩).safetyNumber tableSha256 =
        (between ⟨"alice", "phone"⟩ ⟨"bob", "laptop"⟩).safetyNumber tableSha256 ∧
      ((between ⟨"alice", "phone"⟩ ⟨"bob", "laptop"⟩).safetyNumber tableSha256 =
          (between ⟨"alice", "phone"⟩ ⟨"carol", "tablet"⟩).safetyNumber tableSha256 →
        s((⟨"alice", "phone"⟩ : Party), ⟨"bob", "laptop"⟩) =
          s(⟨"alice", "phone"⟩, ⟨"carol", "tablet"⟩))) ↔
      ¬Exchanged ⟨"alice", "phone"⟩ ⟨"bob", "laptop"⟩ ⟨"alice", "phone"⟩ ⟨"carol", "tablet"⟩ :=
  safetyNumber_identifies_iff (by decide) (by decide) (by decide) (by decide)
    (parties_between _ _) (parties_between _ _) (parties_between _ _) (by decide)

end PairingSession
