import AnotherDimension.Identity.Registry
import AnotherDimension.Library.OrderedMap
import AnotherDimension.Library.Reader
import AnotherDimension.Library.Run

-- What a registry of devices keeps along every sequence of registrations, revocations, encodings and
-- decodings.

open Identity

variable {ed25519 : Ed25519} {key : ByteBlock 32}

namespace DeviceCertificate

variable {certificate : DeviceCertificate}

theorem verifySignature_eq_ok : certificate.verifySignature ed25519 = .ok () ↔
    certificate.issuedAt < certificate.expiresAt ∧ (validateDeviceId certificate.deviceId).isOk ∧
      ed25519.verify certificate.accountPublicKey certificate.message certificate.signature := by
  unfold verifySignature
  split_ifs with h₁ h₂
  case pos =>
    simp only [false_iff]
    rintro ⟨ht, hd, _⟩
    exact h₁.elim (UInt64.not_le.mpr ht) fun h => h hd
  case pos =>
    have ⟨ht, hd⟩ := not_or.mp h₁
    simp [UInt64.not_le.mp ht, not_not.mp hd, h₂]
  case neg => simp [h₂]

theorem verify_eq_ok {now : UInt64} (h : certificate.verify ed25519 now = .ok ()) :
    certificate.revoked = false ∧ certificate.verifySignature ed25519 = .ok () := by
  unfold verify at h
  split_ifs at h with hr
  exact ⟨by simpa using hr, h⟩

theorem applyRevocation_eq_ok {revocation : DeviceRevocation} {revoked : DeviceCertificate}
    (h : certificate.applyRevocation ed25519 revocation = .ok revoked) :
    revoked = { certificate with revoked := true } := by
  unfold applyRevocation at h
  match h₁ : certificate.verifySignature ed25519, h₂ : revocation.verify ed25519 certificate with
  | .error _, _       => simp [h₁, Bind.bind, Except.bind] at h
  | .ok _, .error _   => simp [h₁, h₂, Bind.bind, Except.bind] at h
  | .ok _, .ok _      =>
    simp [h₁, h₂, Bind.bind, Except.bind, pure, Except.pure] at h
    exact h.symm

end DeviceCertificate

theorem Identity.ne_empty_of_validateDeviceId {value : String}
    (h : (validateDeviceId value).isOk) : value.isEmpty = false := by
  unfold validateDeviceId at h
  split_ifs at h with hv
  case pos => simp [Except.isOk, Except.toBool] at h
  case neg => simpa using (not_or.mp hv).left

-- A record under its device id: certified by the account, and revoked in all three places or in none.
structure DeviceRecord.IsSound (ed25519 : Ed25519) (key : ByteBlock 32) (id : String)
    (record : DeviceRecord) : Prop where
  deviceId  : record.certificate.deviceId = id
  account   : record.certificate.accountPublicKey = key
  certified : record.certificate.verifySignature ed25519 = .ok ()
  decided   : record.state ≠ .provisioning
  state     : record.certificate.revoked = decide (record.state = .revoked)
  revokedAt : record.certificate.revoked = record.revokedAt.isSome

namespace DeviceRegistry

variable {registry : DeviceRegistry} {fromSlice : Bytes → Option RegistryWire}

-- `history` are all events there were.
structure IsSound (ed25519 : Ed25519) (key : ByteBlock 32) (history : List DeviceChangeEvent)
    (registry : DeviceRegistry) : Prop where
  account : registry.accountPublicKey = key
  records : ∀ id record, registry.devices[id]? = some record → DeviceRecord.IsSound ed25519 key id record
  events  : registry.events = history.drop (history.length - maxDeviceEvents)
  named   : ∀ event ∈ history, event.deviceId.isEmpty = false

variable {history : List DeviceChangeEvent}

theorem isSound_new (ed25519 : Ed25519) (key : ByteBlock 32) :
    (newForPublicKey key).IsSound ed25519 key [] where
  account := rfl
  records := by simp [newForPublicKey]
  events  := rfl
  named   := by simp

-- The window moves on by one event.
theorem drop_append_window {α : Type} (history : List α) (event : α) (n : Nat) :
    (history.drop (history.length - n) ++ [event]).drop
        ((history.drop (history.length - n) ++ [event]).length - n) =
      (history ++ [event]).drop ((history ++ [event]).length - n) := by
  simp only [List.length_append, List.length_drop, List.length_singleton]
  by_cases h : history.length < n
  case pos =>
    rw [Nat.sub_eq_zero_of_le h.le, List.drop_zero]
    congr 1
  case neg =>
    have hd : history.length + 1 - n = history.length - n + 1 := by omega
    have hl : history.length - (history.length - n) + 1 - n = 1 := by omega
    rw [hd, hl, ← List.drop_drop, List.drop_append_of_le_length (Nat.sub_le _ _)]

-- The registry after a change of one record.
def change (registry : DeviceRegistry) (id : String) (record : DeviceRecord)
    (event : DeviceChangeEvent) : DeviceRegistry :=
  { registry with devices := registry.devices.insert id record }.recordEvent event

theorem IsSound.change {id : String} {record : DeviceRecord} {event : DeviceChangeEvent}
    (h : registry.IsSound ed25519 key history) (hr : record.IsSound ed25519 key id)
    (hn : event.deviceId.isEmpty = false) :
    (registry.change id record event).IsSound ed25519 key (history ++ [event]) where
  account := h.account
  records := by
    intro id' record' hd
    rw [DeviceRegistry.change, recordEvent, Std.ExtTreeMap.getElem?_insert] at hd
    split_ifs at hd with hk
    case pos =>
      cases hd
      exact Std.LawfulEqOrd.eq_of_compare hk ▸ hr
    case neg => exact h.records id' record' hd
  events  := by
    simp only [DeviceRegistry.change, recordEvent, h.events]
    exact drop_append_window history event maxDeviceEvents
  named   := List.forall_mem_append.mpr ⟨h.named, by simpa using hn⟩

theorem register_eq_ok {certificate : DeviceCertificate} {now : UInt64} {next : DeviceRegistry}
    (h : registry.register ed25519 certificate now = .ok next) :
    certificate.accountPublicKey = registry.accountPublicKey ∧
      certificate.verify ed25519 now = .ok () ∧ registry.devices[certificate.deviceId]? = none ∧
      next = registry.change certificate.deviceId ⟨certificate, .active, none⟩
        ⟨certificate.deviceId, .registered, now⟩ := by
  unfold register at h
  by_cases ha : certificate.accountPublicKey = registry.accountPublicKey
  case neg => simp [ha] at h
  case pos =>
    match hv : certificate.verify ed25519 now with
    | .error _ => simp [ha, hv] at h
    | .ok ()   =>
      by_cases hc : registry.devices.contains certificate.deviceId
      case pos => simp [ha, hv, hc] at h
      case neg =>
        simp only [ha, hv, hc, ne_eq, not_true_eq_false, if_false, Bool.false_eq_true,
          Except.ok.injEq] at h
        exact ⟨ha, rfl, by simpa [← Std.ExtTreeMap.contains_iff_mem] using hc, h.symm⟩

theorem revoke_eq_ok {root : AccountRootKey} {id : String} {revokedAt : UInt64}
    {revocation : DeviceRevocation} {next : DeviceRegistry}
    (h : registry.revoke ed25519 root id revokedAt = .ok (revocation, next)) :
    ∃ record, registry.devices[id]? = some record ∧ record.state = .active ∧
      next = registry.change id
        ⟨{ record.certificate with revoked := true }, .revoked, some revokedAt⟩
        ⟨id, .revoked, revokedAt⟩ := by
  unfold revoke at h
  by_cases hk : root.publicKey ed25519 = registry.accountPublicKey
  case neg => simp [hk] at h
  case pos =>
    match hr : registry.devices[id]? with
    | none        => simp [hk, hr] at h
    | some record =>
      by_cases hs : record.state = .active
      case neg => simp [hk, hr, hs] at h
      case pos =>
        match hv : root.revokeDevice ed25519 record.certificate revokedAt with
        | .error _     => simp [hk, hr, hs, hv] at h
        | .ok revoking =>
          match ha : record.certificate.applyRevocation ed25519 revoking with
          | .error _    => simp [hk, hr, hs, hv, ha] at h
          | .ok revoked =>
            simp only [hk, hr, hs, hv, ha, ne_eq, not_true_eq_false, if_false, Except.ok.injEq,
              Prod.mk.injEq] at h
            cases DeviceCertificate.applyRevocation_eq_ok ha
            exact ⟨record, rfl, hs, h.right.symm⟩

theorem IsSound.register {certificate : DeviceCertificate} {now : UInt64} {next : DeviceRegistry}
    (h : registry.IsSound ed25519 key history)
    (hr : registry.register ed25519 certificate now = .ok next) :
    next.IsSound ed25519 key (history ++ [⟨certificate.deviceId, .registered, now⟩]) := by
  obtain ⟨ha, hv, _, rfl⟩ := register_eq_ok hr
  have ⟨hrevoked, hsigned⟩ := DeviceCertificate.verify_eq_ok hv
  refine h.change ⟨rfl, ha.trans h.account, hsigned, by simp, by simp [hrevoked],
    by simp [hrevoked]⟩ ?_
  exact ne_empty_of_validateDeviceId (DeviceCertificate.verifySignature_eq_ok.mp hsigned).right.left

theorem IsSound.revoke {root : AccountRootKey} {id : String} {revokedAt : UInt64}
    {revocation : DeviceRevocation} {next : DeviceRegistry}
    (h : registry.IsSound ed25519 key history)
    (hr : registry.revoke ed25519 root id revokedAt = .ok (revocation, next)) :
    next.IsSound ed25519 key (history ++ [⟨id, .revoked, revokedAt⟩]) := by
  obtain ⟨record, hrecord, _, rfl⟩ := revoke_eq_ok hr
  have hs := h.records id record hrecord
  refine h.change ⟨hs.deviceId, hs.account, hs.certified, by simp, by simp, by simp⟩ ?_
  have hv := (DeviceCertificate.verifySignature_eq_ok.mp hs.certified).right.left
  exact hs.deviceId ▸ ne_empty_of_validateDeviceId hv

@[simp]
theorem certificate_toWire (record : DeviceRecord) :
    record.toWire.certificate = some record.certificate := by
  simp [DeviceRecordWire.certificate, DeviceRecord.toWire, ByteBlock.ofBytes,
    record.certificate.accountPublicKey.property, record.certificate.devicePublicKey.property,
    record.certificate.protocolPackageHash.property, record.certificate.signature.property]

theorem decodeDevice_toWire {devices : Std.ExtTreeMap String DeviceRecord} {id : String}
    {record : DeviceRecord} (h : record.IsSound ed25519 key id) (hd : devices[id]? = none) :
    decodeDevice ed25519 key devices record.toWire = .ok (devices.insert id record) := by
  have hc : devices.contains id = false := by
    simpa [← Std.ExtTreeMap.contains_iff_mem] using hd
  have hs := h.state
  have hr := h.revokedAt
  rw [decodeDevice, certificate_toWire]
  simp only [h.certified, h.account, h.deviceId, hc, DeviceRecord.toWire]
  rw [if_neg (by simp [Except.isOk, Except.toBool, h.decided, ← hs, ← hr])]

-- The entries of the wire format are read back one by one, in the order they were written.
theorem foldlM_decodeDevice (devices : Std.ExtTreeMap String DeviceRecord)
    {entries : List (String × DeviceRecord)}
    (hs : ∀ e ∈ entries, e.snd.IsSound ed25519 key e.fst)
    (hp : entries.Pairwise fun e₁ e₂ => e₁.fst ≠ e₂.fst)
    (hd : ∀ e ∈ entries, devices[e.fst]? = none) :
    (entries.map fun e => e.snd.toWire).foldlM (decodeDevice ed25519 key) devices =
      .ok (devices.insertMany entries) := by
  induction entries generalizing devices
  case nil => simp [pure, Except.pure]
  case cons e entries hi =>
    have ⟨he, hes⟩ := List.forall_mem_cons.mp hs
    have ⟨hn, hns⟩ := List.pairwise_cons.mp hp
    have ⟨hde, hds⟩ := List.forall_mem_cons.mp hd
    have hnext : ∀ e' ∈ entries, (devices.insert e.fst e.snd)[e'.fst]? = none := by
      intro e' he'
      rw [Std.ExtTreeMap.getElem?_insert, if_neg, hds e' he']
      rw [Std.LawfulEqOrd.compare_eq_iff_eq]
      exact hn e' he'
    rw [List.map_cons, List.foldlM_cons, decodeDevice_toWire he hde]
    simp only [Bind.bind, Except.bind, hi _ hes hns hnext]
    rw [Std.ExtTreeMap.insertMany_cons]

theorem IsSound.ofWire (h : registry.IsSound ed25519 key history) :
    DeviceRegistry.ofWire ed25519 registry.toWire = .ok registry := by
  have hs : ∀ e ∈ registry.devices.toList, DeviceRecord.IsSound ed25519 key e.fst e.snd :=
    OrderedMap.forall_mem_toList.mpr h.records
  have hp : registry.devices.toList.Pairwise fun e₁ e₂ => e₁.fst ≠ e₂.fst := by
    refine Std.ExtTreeMap.distinct_keys_toList.imp fun {e₁ e₂} hc he => hc ?_
    rw [he]
    exact Std.ReflCmp.compare_self
  have hf := foldlM_decodeDevice ∅ hs hp (by simp)
  have hl : registry.events.length ≤ maxDeviceEvents := by
    rw [h.events, List.length_drop]
    omega
  have hn : registry.events.any (·.deviceId.isEmpty) = false := by
    rw [List.any_eq_false, h.events]
    intro event he
    simp [h.named event (List.mem_of_mem_drop he)]
  have hk : ByteBlock.ofBytes 32 registry.accountPublicKey.val = some registry.accountPublicKey := by
    simp [ByteBlock.ofBytes, registry.accountPublicKey.property]
  have ha := h.account
  rw [OrderedMap.insertMany_toList, ← ha] at hf
  simp only [DeviceRegistry.ofWire, toWire, hk, hf]
  exact if_neg (by simp [hn, hl])

theorem IsSound.decode_encode (h : registry.IsSound ed25519 key history)
    (hr : fromSlice registry.toWire.bytes = some registry.toWire) :
    decode ed25519 fromSlice registry.encode = .ok registry := by
  rw [decode, encode, hr, Option.elim_some, h.ofWire]

def IsRevoked (registry : DeviceRegistry) (id : String) : Prop :=
  ∃ record, registry.devices[id]? = some record ∧ record.state = .revoked

theorem IsRevoked.change {id id' : String} {record : DeviceRecord} {event : DeviceChangeEvent}
    (h : registry.IsRevoked id) (hn : id' ≠ id) :
    (registry.change id' record event).IsRevoked id := by
  have ⟨old, ho, hs⟩ := h
  refine ⟨old, ?_, hs⟩
  rw [DeviceRegistry.change, recordEvent, Std.ExtTreeMap.getElem?_insert, if_neg (by simpa using hn), ho]

theorem IsRevoked.register {certificate : DeviceCertificate} {now : UInt64} {id : String}
    {next : DeviceRegistry} (h : registry.IsRevoked id)
    (hr : registry.register ed25519 certificate now = .ok next) :
    certificate.deviceId ≠ id ∧ next.IsRevoked id := by
  obtain ⟨_, _, hc, rfl⟩ := register_eq_ok hr
  have ⟨_, ho, _⟩ := h
  have hn : certificate.deviceId ≠ id := by
    rintro rfl
    rw [ho] at hc
    cases hc
  exact ⟨hn, h.change hn⟩

theorem IsRevoked.revoke {root : AccountRootKey} {id id' : String} {revokedAt : UInt64}
    {revocation : DeviceRevocation} {next : DeviceRegistry} (h : registry.IsRevoked id)
    (hr : registry.revoke ed25519 root id' revokedAt = .ok (revocation, next)) :
    next.IsRevoked id := by
  obtain ⟨record, hrecord, ha, rfl⟩ := revoke_eq_ok hr
  have ⟨old, ho, hs⟩ := h
  refine h.change ?_
  rintro rfl
  rw [hrecord] at ho
  cases ho
  exact absurd (ha.symm.trans hs) (by decide)

theorem IsRevoked.authorize {id : String} (h : registry.IsRevoked id) (now : UInt64) :
    registry.authorize ed25519 id now = .error .deviceNotActive := by
  have ⟨record, hr, hs⟩ := h
  simp [DeviceRegistry.authorize, hr, hs]

end DeviceRegistry

-- A registry on its way through a program: in memory, or encoded. `history` are all its events.
inductive RegistryForm
  | decoded (registry : DeviceRegistry)
  | encoded (bytes : Bytes)

structure RegistryTrace where
  form    : RegistryForm
  history : List DeviceChangeEvent

inductive RegistryOp
  | register (certificate : DeviceCertificate) (now : UInt64)
  | revoke (root : AccountRootKey) (id : String) (revokedAt : UInt64)
  | encode
  | decode

namespace RegistryTrace

open DeviceRegistry

variable {fromSlice : Bytes → Option RegistryWire}

def start (key : ByteBlock 32) : RegistryTrace where
  form    := .decoded (newForPublicKey key)
  history := []

-- What fails, and what does not apply to the form, changes nothing.
def step (ed25519 : Ed25519) (fromSlice : Bytes → Option RegistryWire) (t : RegistryTrace)
    (op : RegistryOp) : RegistryTrace :=
  match t.form, op with
  | .decoded registry, .register certificate now  =>
    match registry.register ed25519 certificate now with
    | .error _ => t
    | .ok next => ⟨.decoded next, t.history ++ [⟨certificate.deviceId, .registered, now⟩]⟩
  | .decoded registry, .revoke root id revokedAt =>
    match registry.revoke ed25519 root id revokedAt with
    | .error _      => t
    | .ok (_, next) => ⟨.decoded next, t.history ++ [⟨id, .revoked, revokedAt⟩]⟩
  | .decoded registry, .encode                   => { t with form := .encoded registry.encode }
  | .encoded bytes, .decode                      =>
    match DeviceRegistry.decode ed25519 fromSlice bytes with
    | .error _     => t
    | .ok registry => { t with form := .decoded registry }
  | _, _                                         => t

section Steps

variable {ed25519 : Ed25519} {registry next : DeviceRegistry} {history : List DeviceChangeEvent}

theorem step_register {certificate : DeviceCertificate} {now : UInt64}
    (h : registry.register ed25519 certificate now = .ok next) :
    step ed25519 fromSlice ⟨.decoded registry, history⟩ (.register certificate now) =
      ⟨.decoded next, history ++ [⟨certificate.deviceId, .registered, now⟩]⟩ := by
  simp only [step, h]

theorem step_revoke {root : AccountRootKey} {id : String} {revokedAt : UInt64}
    {revocation : DeviceRevocation}
    (h : registry.revoke ed25519 root id revokedAt = .ok (revocation, next)) :
    step ed25519 fromSlice ⟨.decoded registry, history⟩ (.revoke root id revokedAt) =
      ⟨.decoded next, history ++ [⟨id, .revoked, revokedAt⟩]⟩ := by
  simp only [step, h]

theorem step_encode : step ed25519 fromSlice ⟨.decoded registry, history⟩ .encode =
    ⟨.encoded registry.encode, history⟩ :=
  rfl

theorem step_decode {bytes : Bytes}
    (h : DeviceRegistry.decode ed25519 fromSlice bytes = .ok registry) :
    step ed25519 fromSlice ⟨.encoded bytes, history⟩ .decode = ⟨.decoded registry, history⟩ := by
  simp only [step, h]

end Steps

-- The registry in memory, or the one that was encoded.
def Holds (t : RegistryTrace) (registry : DeviceRegistry) : Prop :=
  t.form = .decoded registry ∨ t.form = .encoded registry.encode

-- `serde_json` reads what was written.
def Readable (fromSlice : Bytes → Option RegistryWire) (t : RegistryTrace) : Prop :=
  ∀ registry, t.form = .decoded registry → fromSlice registry.toWire.bytes = some registry.toWire

-- What a step keeps: the registry is sound, and what is encoded can be read back.
structure IsSound (ed25519 : Ed25519) (fromSlice : Bytes → Option RegistryWire)
    (key : ByteBlock 32) (t : RegistryTrace) (registry : DeviceRegistry) : Prop where
  sound    : registry.IsSound ed25519 key t.history
  holds    : t.Holds registry
  readable : fromSlice registry.toWire.bytes = some registry.toWire

variable {t : RegistryTrace} {op : RegistryOp} {registry : DeviceRegistry}

theorem isSound_start (h : Readable fromSlice (start key)) :
    (start key).IsSound ed25519 fromSlice key (newForPublicKey key) :=
  ⟨isSound_new ed25519 key, .inl rfl, h _ rfl⟩

theorem IsSound.step (h : t.IsSound ed25519 fromSlice key registry)
    (hr : Readable fromSlice (t.step ed25519 fromSlice op)) :
    ∃ next, (t.step ed25519 fromSlice op).IsSound ed25519 fromSlice key next ∧
      ∀ id, registry.IsRevoked id → next.IsRevoked id := by
  have same (hs : t.step ed25519 fromSlice op = t) :
      ∃ next, (t.step ed25519 fromSlice op).IsSound ed25519 fromSlice key next ∧
        ∀ id, registry.IsRevoked id → next.IsRevoked id :=
    ⟨registry, by rw [hs]; exact h, fun _ => id⟩
  obtain hf | hf := h.holds
  case inl =>
    cases op
    case register certificate now =>
      match hg : registry.register ed25519 certificate now with
      | .error _ => exact same (by simp [RegistryTrace.step, hf, hg])
      | .ok next =>
        have hs : t.step ed25519 fromSlice (.register certificate now) =
            ⟨.decoded next, t.history ++ [⟨certificate.deviceId, .registered, now⟩]⟩ := by
          simp [RegistryTrace.step, hf, hg]
        rw [hs] at hr ⊢
        exact ⟨next, ⟨h.sound.register hg, .inl rfl, hr next rfl⟩, fun _ hv => (hv.register hg).right⟩
    case revoke root id revokedAt =>
      match hg : registry.revoke ed25519 root id revokedAt with
      | .error _               => exact same (by simp [RegistryTrace.step, hf, hg])
      | .ok (revocation, next) =>
        have hs : t.step ed25519 fromSlice (.revoke root id revokedAt) =
            ⟨.decoded next, t.history ++ [⟨id, .revoked, revokedAt⟩]⟩ := by
          simp [RegistryTrace.step, hf, hg]
        rw [hs] at hr ⊢
        exact ⟨next, ⟨h.sound.revoke hg, .inl rfl, hr next rfl⟩, fun _ hv => hv.revoke hg⟩
    case encode =>
      have hs : t.step ed25519 fromSlice .encode = { t with form := .encoded registry.encode } := by
        simp [RegistryTrace.step, hf]
      exact ⟨registry, ⟨hs ▸ h.sound, .inr (by rw [hs]), h.readable⟩, fun _ => id⟩
    case decode => exact same (by simp [RegistryTrace.step, hf])
  case inr =>
    cases op
    case decode =>
      have hs : t.step ed25519 fromSlice .decode = { t with form := .decoded registry } := by
        simp [RegistryTrace.step, hf, h.sound.decode_encode h.readable]
      exact ⟨registry, ⟨hs ▸ h.sound, .inl (by rw [hs]), h.readable⟩, fun _ => id⟩
    all_goals exact same (by simp [RegistryTrace.step, hf])

theorem IsSound.run {ops : List RegistryOp} (h : t.IsSound ed25519 fromSlice key registry)
    (hr : ∀ t' ∈ Run.states (RegistryTrace.step ed25519 fromSlice) t ops, Readable fromSlice t') :
    ∃ next, (ops.foldl (RegistryTrace.step ed25519 fromSlice) t).IsSound ed25519 fromSlice key next ∧
      ∀ id, registry.IsRevoked id → next.IsRevoked id := by
  induction ops generalizing t registry
  case nil => exact ⟨registry, h, fun _ => id⟩
  case cons op ops hi =>
    have ⟨_, hrs⟩ := List.forall_mem_cons.mp hr
    have ⟨next, hn, hv⟩ := h.step (hrs _ Run.mem_states_self)
    have ⟨last, hl, hw⟩ := hi hn hrs
    exact ⟨last, hl, fun id => hw id ∘ hv id⟩

-- What holds of the registry in memory: it can be encoded and decoded, every record is certified by
-- the account and revoked in all three places or in none, and the last events are there.
structure Describes (ed25519 : Ed25519) (fromSlice : Bytes → Option RegistryWire)
    (key : ByteBlock 32) (certified : Bytes → Prop) (history : List DeviceChangeEvent)
    (registry : DeviceRegistry) : Prop where
  roundTrip : DeviceRegistry.decode ed25519 fromSlice registry.encode = .ok registry
  revoked   : ∀ (id : String) (record : DeviceRecord), registry.devices[id]? = some record →
    (record.certificate.revoked ↔ record.state = .revoked) ∧
      (record.state = .revoked ↔ record.revokedAt.isSome)
  certified : ∀ (id : String) (record : DeviceRecord), registry.devices[id]? = some record →
    record.certificate.accountPublicKey = key ∧ certified record.certificate.message
  events    : registry.events = history.drop (history.length - 64)

-- No certificate registers the device again, and it is not authorized at any time.
def Excludes (ed25519 : Ed25519) (registry : DeviceRegistry) (id : String) : Prop :=
  (∀ now, ¬(registry.authorize ed25519 id now).isOk) ∧
    ∀ certificate now, certificate.deviceId = id →
      ¬(registry.register ed25519 certificate now).isOk

theorem IsSound.describes {certified : Bytes → Prop}
    (h : t.IsSound ed25519 fromSlice key registry)
    (unforgeable : ∀ message signature, ed25519.verify key message signature → certified message) :
    Describes ed25519 fromSlice key certified t.history registry where
  roundTrip := h.sound.decode_encode h.readable
  revoked   := by
    intro id record hd
    have hs := h.sound.records id record hd
    have hstate := hs.state
    have hat := hs.revokedAt
    rw [← hat]
    simp [hstate]
  certified := by
    intro id record hd
    have hs := h.sound.records id record hd
    refine ⟨hs.account, unforgeable _ record.certificate.signature ?_⟩
    exact hs.account ▸ (DeviceCertificate.verifySignature_eq_ok.mp hs.certified).right.right
  events    := h.sound.events

theorem excludes_of_isRevoked {id : String} (h : registry.IsRevoked id) :
    Excludes ed25519 registry id := by
  refine ⟨fun now => ?_, fun certificate now hc hok => ?_⟩
  case refine_1 => simp [h.authorize now, Except.isOk, Except.toBool]
  case refine_2 =>
    match hg : registry.register ed25519 certificate now with
    | .error _ => simp [hg, Except.isOk, Except.toBool] at hok
    | .ok next => exact (h.register hg).left hc

theorem IsSound.unique {registry₁ registry₂ : DeviceRegistry}
    (h : t.IsSound ed25519 fromSlice key registry₁) (hf : t.form = .decoded registry₂) :
    registry₂ = registry₁ := by
  obtain hd | he := h.holds
  case inl =>
    rw [hd] at hf
    exact (RegistryForm.decoded.inj hf).symm
  case inr =>
    rw [he] at hf
    cases hf

end RegistryTrace

namespace Ed25519

-- Signatures in which every byte counts, to run the operations on concrete inputs.
def sample : Ed25519 where
  publicKey seed           := seed
  sign seed message        :=
    ⟨Bytes.ofNat 64 (Bytes.toNat (seed.val ++ message) % (2 ^ 511 - 187)), Bytes.length_ofNat _ _⟩
  verify publicKey message signature := signature.val =
    Bytes.ofNat 64 (Bytes.toNat (publicKey.val ++ message) % (2 ^ 511 - 187))

theorem sample_correct (seed : ByteBlock 32) (message : Bytes) :
    sample.verify (sample.publicKey seed) message (sample.sign seed message) := by
  simp only [sample, decide_true]

end Ed25519

namespace RegistryTrace

open DeviceRegistry

def sampleRoot : AccountRootKey := ⟨.replicate 32 1, rfl⟩

def sampleCertificate : DeviceCertificate :=
  let unsigned : DeviceCertificate := {
    accountPublicKey    := sampleRoot.publicKey .sample
    deviceId            := "laptop"
    devicePublicKey     := ⟨.replicate 32 2, rfl⟩
    protocolPackageHash := ⟨.replicate 32 0, rfl⟩
    issuedAt            := 1600000000
    expiresAt           := 1800000000
    signature           := ⟨.replicate 64 0, rfl⟩
    revoked             := false
  }
  { unsigned with signature := Ed25519.sample.sign sampleRoot.seed unsigned.message }

def sampleRegistered : DeviceRegistry :=
  (newForPublicKey (sampleRoot.publicKey .sample)).change "laptop" ⟨sampleCertificate, .active, none⟩
    ⟨"laptop", .registered, 1700000000⟩

def sampleRevoked : DeviceRegistry :=
  sampleRegistered.change "laptop"
    ⟨{ sampleCertificate with revoked := true }, .revoked, some 1700000001⟩
    ⟨"laptop", .revoked, 1700000001⟩

def sampleRegistries : List DeviceRegistry :=
  [newForPublicKey (sampleRoot.publicKey .sample), sampleRegistered, sampleRevoked]

def sampleReader : Bytes → Option RegistryWire :=
  Reader.of RegistryWire.bytes id (sampleRegistries.map toWire)

theorem sampleReader_reads {registry : DeviceRegistry} (h : registry ∈ sampleRegistries) :
    sampleReader registry.toWire.bytes = some registry.toWire :=
  Reader.of_encode (by decide +kernel) (List.mem_map_of_mem h)

theorem sample_register :
    (newForPublicKey (sampleRoot.publicKey .sample)).register .sample sampleCertificate 1700000000 =
      .ok sampleRegistered := by
  have hv : sampleCertificate.verify .sample 1700000000 = .ok () := by decide +kernel
  rw [register, if_neg (by decide), hv]
  rfl

def sampleRevocation : DeviceRevocation where
  accountPublicKey := sampleRoot.publicKey .sample
  deviceId         := "laptop"
  devicePublicKey  := ⟨.replicate 32 2, rfl⟩
  revokedAt        := 1700000001
  signature        := Ed25519.sample.sign sampleRoot.seed <| revocationMessage
    (sampleRoot.publicKey .sample) "laptop" ⟨.replicate 32 2, rfl⟩ 1700000001

theorem sample_revoke :
    sampleRegistered.revoke .sample sampleRoot "laptop" 1700000001 =
      .ok (sampleRevocation, sampleRevoked) := by
  have hrecord : sampleRegistered.devices["laptop"]? = some ⟨sampleCertificate, .active, none⟩ := by
    simp [sampleRegistered, change, recordEvent]
  have hrevoke : sampleRoot.revokeDevice .sample sampleCertificate 1700000001 =
      .ok sampleRevocation := by
    decide +kernel
  have happly : sampleCertificate.applyRevocation .sample sampleRevocation =
      .ok { sampleCertificate with revoked := true } := by
    decide +kernel
  rw [revoke, if_neg (by decide), hrecord]
  simp only [ne_eq, not_true_eq_false, if_false, hrevoke, happly]
  rfl

theorem sample_decode :
    decode .sample sampleReader sampleRevoked.encode = .ok sampleRevoked := by
  have hsound := ((isSound_new _ _).register sample_register).revoke sample_revoke
  exact hsound.decode_encode <| sampleReader_reads (by simp [sampleRegistries])

def sampleOps : List RegistryOp :=
  [.register sampleCertificate 1700000000, .revoke sampleRoot "laptop" 1700000001]

def sampleHistory : List DeviceChangeEvent :=
  [⟨"laptop", .registered, 1700000000⟩, ⟨"laptop", .revoked, 1700000001⟩]

theorem sample_states :
    Run.states (step .sample sampleReader) (start (sampleRoot.publicKey .sample))
        (sampleOps ++ [.encode, .decode]) =
      [start (sampleRoot.publicKey .sample), ⟨.decoded sampleRegistered, sampleHistory.take 1⟩,
        ⟨.decoded sampleRevoked, sampleHistory⟩, ⟨.encoded sampleRevoked.encode, sampleHistory⟩,
        ⟨.decoded sampleRevoked, sampleHistory⟩] := by
  have hid : sampleCertificate.deviceId = "laptop" := rfl
  simp only [Run.states, sampleOps, List.cons_append, List.nil_append, start,
    step_register sample_register, step_revoke sample_revoke, step_encode, step_decode sample_decode,
    hid, sampleHistory, List.take_succ_cons, List.take_zero]

theorem sample_foldl :
    sampleOps.foldl (step .sample sampleReader) (start (sampleRoot.publicKey .sample)) =
      ⟨.decoded sampleRevoked, sampleHistory⟩ := by
  have hid : sampleCertificate.deviceId = "laptop" := rfl
  simp only [sampleOps, List.foldl_cons, List.foldl_nil, start, step_register sample_register,
    step_revoke sample_revoke, List.nil_append, List.cons_append, hid, sampleHistory]

end RegistryTrace
