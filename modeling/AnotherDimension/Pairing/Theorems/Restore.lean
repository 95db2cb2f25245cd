import AnotherDimension.Library.JsonReader
import AnotherDimension.Library.Lines
import AnotherDimension.Library.Reader
import AnotherDimension.Library.Run
import AnotherDimension.Pairing.Persist
import AnotherDimension.Pairing.Theorems.Steps
import AnotherDimension.Storage.Theorems.Holds

-- Which runs of pairing operations leave a pairing that can be restored.

open FileProgram Storage PairingSnapshot

namespace PairingSession

variable {sha256 : Bytes → ByteBlock 32} {session session' : PairingSession} {op : PairingOp}
  {fromSlice : Bytes → Option PairingSnapshot}

-- The pairing comes back unchanged from every store that holds it as `persist` writes it.
def Restores (fromSlice : Bytes → Option PairingSnapshot) (session : PairingSession) : Prop :=
  ∀ store : EncryptedStore, store.Holds pairingKey session.encodedBytes →
    restore fromSlice session.localAccountId session.localDeviceId store = .ok session

theorem restores_iff_validShape (round : fromSlice session.encodedBytes = some session.snapshot) :
    session.Restores fromSlice ↔ session.snapshot.validShape := by
  have hr (store : EncryptedStore) (h : store.Holds pairingKey session.encodedBytes) :
      restore fromSlice session.localAccountId session.localDeviceId store =
        if !session.snapshot.validShape then .error .corruptStore else .ok session := by
    have hv : ¬session.snapshot.schemaVersion > pairingSnapshotVersion :=
      UInt16.lt_irrefl _
    simp only [restore, show store.get _ _ = _ from h, round, if_neg hv]
    rfl
  constructor
  case mp =>
    intro h
    have ⟨store, hs⟩ := EncryptedStore.exists_holds pairingKey session.encodedBytes
    have hr := (hr store hs).symm.trans (h store hs)
    split at hr
    case isTrue     => cases hr
    case isFalse hv => simpa using hv
  case mpr =>
    intro h store hs
    simp [hr store hs, h]

-- A store in which the pairing was persisted holds it.
theorem persist_holds {aead : Aead} {nonce : Option Nonce} {disk disk' : Disk}
    {fates rest : List Fate} {store store' : EncryptedStore} (hl : store.locked = false)
    (h : (session.persist aead store nonce).exec disk fates =
      (disk', some ((.ok (), store'), rest))) : store'.Holds pairingKey session.encodedBytes :=
  EncryptedStore.put_holds hl h

-- No invite is created while the pairing is established: the peer would be kept in a state in
-- which `restore` does not expect one.
def KeepsShape (session : PairingSession) : PairingOp → Prop
  | .markInviteCreated => session.state ≠ .established
  | _                  => True

instance (session : PairingSession) : (op : PairingOp) → Decidable (session.KeepsShape op)
  | .markInviteCreated => inferInstanceAs <| Decidable (_ ≠ _)
  | .verifyPeer .. | .approve .. | .confirmSafety .. | .unverifySafety | .reject
  | .invalidateBinding => .isTrue trivial

theorem validShape_ended : session.ended.snapshot.validShape :=
  rfl

theorem validShape_markInviteCreated_iff (h : session.snapshot.validShape) :
    session.markInviteCreated.snd.snapshot.validShape ↔ session.state ≠ .established := by
  have ⟨_, _, state, peer, _⟩ := session
  cases state <;> cases peer <;> simp_all [validShape, snapshot, markInviteCreated]

theorem validShape_perform_ok (h : session.snapshot.validShape) (hn : op ≠ .markInviteCreated)
    (hp : session.perform sha256 op = (.ok (), session')) : session'.snapshot.validShape := by
  cases op
  case markInviteCreated => cases hn rfl
  case verifyPeer peer now =>
    have ⟨hv, _, _, hs⟩ := verifyPeer_ok hp
    rcases hs with ⟨_, rfl⟩ | ⟨he, _, rfl⟩
    case inl => simp [validShape, snapshot, hv]
    case inr => simp [validShape, snapshot, hv, he]
  case approve now =>
    have ⟨hv, _, _, hs⟩ := approve_ok hp
    subst hs
    simp_all [validShape, snapshot]
  case confirmSafety value =>
    have ⟨hst, _, _, hs⟩ := confirmSafety_ok hp
    subst hs
    rcases hst with hst | hst
    all_goals simp_all [validShape, snapshot]
  case unverifySafety =>
    have ⟨he, _, hs⟩ := unverifySafety_ok hp
    subst hs
    simp_all [validShape, snapshot]
  case reject            => exact (reject_ok hp).right ▸ validShape_ended
  case invalidateBinding => exact (invalidateBinding_ok hp).right ▸ validShape_ended

-- The condition says exactly which calls keep the shape.
theorem validShape_step_iff (h : session.snapshot.validShape) :
    (session.step sha256 op).snapshot.validShape ↔ session.KeepsShape op := by
  by_cases hn : op = .markInviteCreated
  case pos =>
    subst hn
    exact validShape_markInviteCreated_iff h
  case neg =>
    have hk : session.KeepsShape op := by cases op <;> trivial
    refine iff_of_true ?_ hk
    unfold step
    match hp : session.perform sha256 op with
    | (.ok (), session')   => exact validShape_perform_ok h hn hp
    | (.error e, session') => exact perform_error hp ▸ h

-- A run keeps every pairing restorable exactly when each of its calls meets the condition.
theorem restores_iff_keepsShape (sha256 : Bytes → ByteBlock 32)
    (localAccountId localDeviceId : String) (ops : List PairingOp)
    (round : ∀ session ∈ Run.states (step sha256) (new localAccountId localDeviceId) ops,
      fromSlice session.encodedBytes = some session.snapshot) :
    (∀ session ∈ Run.states (step sha256) (new localAccountId localDeviceId) ops,
      session.Restores fromSlice) ↔
    Run.Meets (step sha256) KeepsShape (new localAccountId localDeviceId) ops := by
  have hstep (session : PairingSession) (op : PairingOp) (_ : True)
      (h : session.snapshot.validShape) :
      (session.step sha256 op).snapshot.validShape ↔ session.KeepsShape op := validShape_step_iff h
  have hshape := forall₂_congr fun session hs => restores_iff_validShape <| round session hs
  exact hshape.trans <| Run.forall_states_iff hstep (.of_forall fun _ _ => trivial) rfl

end PairingSession

-- The text of a pairing tells what it holds.

def VerifiedInvite.toValue (peer : VerifiedInvite) : JsonValue :=
  .object [
    ("account_id", .string peer.accountId),
    ("device_id", .string peer.deviceId),
    ("expires_at", .u64 peer.expiresAt),
    ("relay_origin", .string peer.relayOrigin),
    ("inbox_url", peer.inboxUrl.elim .null .string),
    ("conversation_id", peer.conversationId.elim .null .string)
  ]

theorem VerifiedInvite.reads_toJson (peer : VerifiedInvite) : Json.Reads peer.toJson peer.toValue :=
  Json.reads_object <|
    .cons ⟨rfl, Json.reads_string _⟩ <| .cons ⟨rfl, Json.reads_string _⟩ <|
    .cons ⟨rfl, Json.reads_u64 _⟩ <| .cons ⟨rfl, Json.reads_string _⟩ <|
    .cons ⟨rfl, Json.reads_option Json.reads_string _⟩ <|
    .cons ⟨rfl, Json.reads_option Json.reads_string _⟩ .nil

theorem VerifiedInvite.toValue_injective : Function.Injective toValue := by
  intro peer₁ peer₂ h
  simp only [toValue, JsonValue.object.injEq, List.cons.injEq, Prod.mk.injEq, true_and, and_true,
    JsonValue.string.injEq] at h
  obtain ⟨ha, hd, he, hr, hi, hc⟩ := h
  obtain ⟨_, _, _, _, _, _⟩ := peer₁
  obtain ⟨_, _, _, _, _, _⟩ := peer₂
  cases ha
  cases hd
  cases hr
  cases JsonValue.u64_injective he
  cases JsonValue.elim_string_injective hi
  cases JsonValue.elim_string_injective hc
  rfl

theorem PairingState.name_injective : Function.Injective name := by
  intro s₁ s₂
  cases s₁ <;> cases s₂ <;> simp [name]

namespace PairingSnapshot

def toValue (snapshot : PairingSnapshot) : JsonValue :=
  .object [
    ("schema_version", .u64 snapshot.schemaVersion.toUInt64),
    ("state", .string snapshot.state.name),
    ("peer", snapshot.peer.elim .null VerifiedInvite.toValue),
    ("safety_verified", .bool snapshot.safetyVerified)
  ]

theorem reads_toJson (snapshot : PairingSnapshot) : Json.Reads snapshot.toJson snapshot.toValue :=
  Json.reads_object <|
    .cons ⟨rfl, Json.reads_u64 _⟩ <| .cons ⟨rfl, Json.reads_string _⟩ <|
    .cons ⟨rfl, Json.reads_option VerifiedInvite.reads_toJson _⟩ <|
    .cons ⟨rfl, Json.reads_bool _⟩ .nil

theorem toJson_injective : Function.Injective toJson := by
  intro snapshot₁ snapshot₂ h
  have h₂ := reads_toJson snapshot₂
  rw [← h] at h₂
  have hv := (reads_toJson snapshot₁).unique h₂
  simp only [toValue, JsonValue.object.injEq, List.cons.injEq, Prod.mk.injEq, true_and, and_true,
    JsonValue.string.injEq, JsonValue.bool.injEq] at hv
  obtain ⟨hn, hs, hp, hf⟩ := hv
  obtain ⟨_, _, _, _⟩ := snapshot₁
  obtain ⟨_, _, _, _⟩ := snapshot₂
  cases UInt16.toUInt64_inj.mp <| JsonValue.u64_injective hn
  cases PairingState.name_injective hs
  cases JsonValue.elim_null_injective VerifiedInvite.toValue_injective (fun _ => nofun) hp
  cases hf
  rfl

end PairingSnapshot

namespace PairingSession

-- The hash of the text that alice and bob compare.
def sampleSha256 (_ : Bytes) : ByteBlock 32 :=
  ⟨[205, 23, 101, 8, 89, 176, 60, 148, 149, 186, 135, 234, 183, 130, 181, 238,
    152, 167, 172, 205, 174, 83, 150, 49, 209, 95, 100, 108, 45, 114, 175, 170], rfl⟩

-- A pairing is established, and then another invite is created.
def inviteAgainOps : List PairingOp :=
  [.verifyPeer (samplePeer "alice") 0, .confirmSafety (sampleNumber sampleSha256 "alice"),
   .approve 0, .markInviteCreated]

theorem inviteAgainOps_not_restored :
    let session := inviteAgainOps.foldl (step sampleSha256) (new "bob" "device-1")
    ∀ fromSlice, fromSlice session.encodedBytes = some session.snapshot →
      ¬session.Restores fromSlice := by
  intro session fromSlice round h
  exact absurd ((restores_iff_validShape round).mp h) (by decide)

-- A pairing is established, locked and rejected.
def sampleOps : List PairingOp :=
  [.markInviteCreated, .verifyPeer (samplePeer "alice") 0,
   .confirmSafety (sampleNumber sampleSha256 "alice"), .approve 0, .unverifySafety, .reject]

theorem sampleOps_keepsShape :
    let states := Run.states (step sampleSha256) (new "bob" "device-1") sampleOps
    let reader := Reader.of encodedBytes snapshot states
    (∀ session ∈ states, reader session.encodedBytes = some session.snapshot) ∧
    Run.Meets (step sampleSha256) KeepsShape (new "bob" "device-1") sampleOps ∧
    ∀ session ∈ states, session.Restores reader := by
  intro states reader
  have round : ∀ session ∈ states, reader session.encodedBytes = some session.snapshot :=
    fun _ => Reader.of_encode_of_congr fun _ _ he =>
      PairingSnapshot.toJson_injective <| Bytes.utf8_injective he
  have keeps : Run.Meets (step sampleSha256) KeepsShape (new "bob" "device-1") sampleOps := by
    decide
  refine ⟨round, keeps, ?_⟩
  exact (restores_iff_keepsShape sampleSha256 "bob" "device-1" sampleOps round).mpr keeps

end PairingSession
