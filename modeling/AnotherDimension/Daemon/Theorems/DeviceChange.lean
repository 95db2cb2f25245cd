import AnotherDimension.Daemon.DeviceChange
import AnotherDimension.Library.Fallible

-- Which commits of a device change are lost.

namespace PostOutcome

def isAccepted : PostOutcome → Bool
  | accepted _ => true
  | _          => false

def isRefused : PostOutcome → Bool
  | refused _ => true
  | _         => false

end PostOutcome

namespace DeliveryLedger

variable {ledger : DeliveryLedger} {digest key : String}

theorem get_insertNew (ledger : DeliveryLedger) (record : DeliveryRecord) :
    (ledger.insertNew record).get record.digest = some record :=
  Std.ExtTreeMap.getElem?_insert_self

theorem mem_insertNew {record : DeliveryRecord} :
    key ∈ (ledger.insertNew record).records ↔ record.digest = key ∨ key ∈ ledger.records := by
  simp [insertNew, Std.ExtTreeMap.mem_insert]

-- An operation on a record that is there, and what it leaves.
theorem withRecord_of_get {α : Type} {record record' : DeliveryRecord} {result : Except EnvelopeError α}
    (update : DeliveryRecord → Except EnvelopeError α × DeliveryRecord)
    (h : ledger.get digest = some record) (hu : update record = (result, record')) :
    ∃ ledger', ledger.withRecord digest update = (result, ledger') ∧
      ledger'.get digest = some record' ∧ ∀ key, key ∈ ledger'.records ↔ key ∈ ledger.records := by
  refine ⟨(ledger.withRecord digest update).snd, ?_, ?_, fun _ => mem_withRecord⟩
  case refine_1 => simp [withRecord, h, hu]
  case refine_2 =>
    simp only [withRecord, h, hu]
    exact Std.ExtTreeMap.getElem?_insert_self

end DeliveryLedger

namespace DeviceChange

variable {change : DeviceChange} {state : DeviceChangeState} {entry : CommitDelivery}
  {entries : List CommitDelivery} {prepared : PreparedCommit} {budget : Nat}

theorem mapError_eq_ok {α ε ε' : Type} {x : Except ε α} {f : ε → ε'} {a : α} :
    x.mapError f = .ok a ↔ x = .ok a := by
  cases x <;> simp [Except.mapError]

theorem digest_ne_empty (h : change.prepare entry = .ok prepared) : prepared.digest ≠ "" := by
  unfold prepare at h
  simp only at h
  split at h
  case h_2 => cases h
  case h_1 =>
    split at h
    case h_2 => cases h
    case h_1 =>
      obtain ⟨_, _, h⟩ := Except.bind_eq_ok.mp h
      obtain ⟨envelope, _, h⟩ := Except.bind_eq_ok.mp h
      obtain ⟨digest, hd, h⟩ := Except.bind_eq_ok.mp h
      obtain ⟨_, _, h⟩ := Except.bind_eq_ok.mp h
      cases h
      rw [mapError_eq_ok, RelayEnvelope.digest, Except.map_eq_ok] at hd
      obtain ⟨text, _, rfl⟩ := hd
      have hl := Bytes.length_toHex (change.sha256 <| Bytes.utf8 text).val
      rw [(change.sha256 <| Bytes.utf8 text).property] at hl
      intro he
      simp only at he
      rw [he] at hl
      exact absurd hl (by decide)

-- The record a commit is registered with.
def registered (prepared : PreparedCommit) : DeliveryRecord where
  digest      := prepared.digest
  state       := .encrypted
  attempts    := 0
  nextRetryAt := none
  relayId     := none
  wire        := some prepared.wire
  expiresAt   := some prepared.expiresAt
  destination := some prepared.inboxUrl

theorem register_eq {ledger : DeliveryLedger} (h : change.prepare entry = .ok prepared)
    (hn : prepared.digest ∉ ledger.records) :
    ledger.registerEncryptedWithDestination prepared.digest (some prepared.wire)
        (some prepared.expiresAt) (some prepared.inboxUrl) =
      (.ok (), ledger.insertNew (registered prepared)) := by
  have he : prepared.digest.isEmpty = false := by
    rw [String.isEmpty_eq_false_iff]
    exact digest_ne_empty h
  rw [DeliveryLedger.registerEncryptedWithDestination, DeliveryLedger.registerAs,
    if_neg (by simp [he, hn])]
  rfl

theorem settle_eq {ledger : DeliveryLedger} (relayId : String)
    (h : ledger.get prepared.digest = some (registered prepared)) :
    ∃ ledger', settle ledger prepared.digest relayId = (.ok (), ledger') ∧
      ∀ key, key ∈ ledger'.records ↔ key ∈ ledger.records := by
  have htransition {record : DeliveryRecord} {next : DeliveryState}
      (hv : record.state.validTransition next) :
      record.transition next = (.ok (), { record with state := next, nextRetryAt := none }) :=
    if_pos hv
  obtain ⟨bound, hb, hbg, hbm⟩ :=
    DeliveryLedger.withRecord_of_get (·.bindRelayId relayId) h rfl
  obtain ⟨queued, hq, hqg, hqm⟩ :=
    DeliveryLedger.withRecord_of_get (·.transition .queued) hbg
      (htransition (rfl : DeliveryState.validTransition _ .queued))
  obtain ⟨taken, ht, _, htm⟩ :=
    DeliveryLedger.withRecord_of_get (·.transition .relayAccepted) hqg
      (htransition (rfl : DeliveryState.validTransition _ .relayAccepted))
  refine ⟨taken, ?_, fun key => ((htm key).trans (hqm key)).trans (hbm key)⟩
  simp only [settle, DeliveryLedger.bindRelayId, hb, DeliveryLedger.transition, hq, ht]

-- The commit is with a relay, or its record on the disk is one a retry will return.
def Holds (change : DeviceChange) (state : DeviceChangeState) (entry : CommitDelivery) : Prop :=
  entry.conversationId ∈ state.accepted ∨
    ∃ prepared record, change.prepare entry = .ok prepared ∧
      state.stored.get prepared.digest = some record ∧ record.wire = some prepared.wire ∧
      ∃ time, record ∈ state.stored.dueRetries time

-- Every commit is prepared and posted before the process ends, every relay but the last one takes
-- it, and when the last one does not, the record of the last commit reaches the disk.
def Delivers (change : DeviceChange) (budget : Nat) (entries : List CommitDelivery) : Prop :=
  (∀ entry ∈ entries, (change.prepare entry).isOk) ∧
    (∀ entry ∈ entries.dropLast, entry.post.isAccepted) ∧ entries.length ≤ budget ∧
    ∀ entry ∈ entries.getLast?, entry.post.isRefused → entry.written ∧ entries.length < budget

theorem delivers_cons_accepted (hp : (change.prepare entry).isOk) (ha : entry.post.isAccepted) :
    change.Delivers (budget + 1) (entry :: entries) ↔ change.Delivers budget entries := by
  have hr : entry.post.isRefused = false := by
    cases hpost : entry.post <;> simp_all [PostOutcome.isAccepted, PostOutcome.isRefused]
  cases entries
  case nil  => simp [Delivers, hp, hr]
  case cons => simp [Delivers, hp, ha]

theorem delivers_cons_not_accepted (hp : (change.prepare entry).isOk)
    (ha : entry.post.isAccepted = false) :
    change.Delivers (budget + 1) (entry :: entries) ↔
      entries = [] ∧ (entry.post.isRefused → entry.written ∧ 0 < budget) := by
  cases entries
  case nil  => simp [Delivers, hp]
  case cons => simp [Delivers, ha]

-- The commits and their digests are new to the ledgers, and differ from each other.
structure IsFresh (change : DeviceChange) (state : DeviceChangeState)
    (entries : List CommitDelivery) : Prop where
  ids      : (entries.map CommitDelivery.conversationId).Nodup
  accepted : ∀ entry ∈ entries, entry.conversationId ∉ state.accepted
  digests  : entries.Pairwise fun entry other => ∀ prepared prepared',
    change.prepare entry = .ok prepared → change.prepare other = .ok prepared' →
      prepared.digest ≠ prepared'.digest
  ledger   : ∀ entry ∈ entries, ∀ prepared, change.prepare entry = .ok prepared →
    prepared.digest ∉ state.ledger.records
  stored   : ∀ entry ∈ entries, ∀ prepared, change.prepare entry = .ok prepared →
    prepared.digest ∉ state.stored.records

theorem not_holds (hi : entry.conversationId ∉ state.accepted)
    (hs : ∀ prepared, change.prepare entry = .ok prepared → prepared.digest ∉ state.stored.records) :
    ¬change.Holds state entry := by
  rintro (ha | ⟨prepared, record, hp, hg, _⟩)
  case inl => exact hi ha
  case inr =>
    rw [DeliveryLedger.get_eq_none_iff.mpr (hs prepared hp)] at hg
    cases hg

-- The rest of the commits is fresh when the first one is in the ledger.
theorem IsFresh.tail {ledger : DeliveryLedger} (h : change.IsFresh state (entry :: entries))
    (hp : change.prepare entry = .ok prepared)
    (hl : ∀ key, key ∈ ledger.records → prepared.digest = key ∨ key ∈ state.ledger.records) :
    change.IsFresh
      { state with ledger, accepted := entry.conversationId :: state.accepted } entries := by
  have ⟨hid, hids⟩ := List.nodup_cons.mp h.ids
  have ⟨hd, hds⟩ := List.pairwise_cons.mp h.digests
  refine ⟨hids, fun other ho => ?_, hds, fun other ho prepared' hp' hm => ?_, fun other ho =>
    h.stored other (List.mem_cons_of_mem _ ho)⟩
  case refine_1 =>
    have hne : other.conversationId ≠ entry.conversationId := fun he =>
      hid (he ▸ List.mem_map_of_mem ho)
    simpa [hne] using h.accepted other (List.mem_cons_of_mem _ ho)
  case refine_2 =>
    rcases hl _ hm with he | hm
    case inl => exact hd other ho prepared prepared' hp hp' he
    case inr => exact h.ledger other (List.mem_cons_of_mem _ ho) prepared' hp' hm

theorem scheduleRetry_registered (now : UInt64) :
    (registered prepared).scheduleRetry now = (.ok true, { registered prepared with
      attempts := 1, state := .retryable, nextRetryAt := some (now.saturatingAdd 5) }) := by
  have ha : (0 : UInt8).saturatingAdd 1 = 1 := by decide
  have hb : min (UInt64.saturatingMul 5 (UInt64.saturatingPow 2 ((1 : UInt8) - 1).toNat)) 3600 = 5 := by
    decide
  simp only [DeliveryRecord.scheduleRetry, registered, DeliveryState.isSettled, ha, hb]
  rfl

theorem accepted_reschedule (change : DeviceChange) (state : DeviceChangeState)
    (entry : CommitDelivery) (digest : String) (budget : Nat) :
    (change.reschedule state entry digest budget).accepted = state.accepted := by
  unfold reschedule
  cases budget
  case zero => rfl
  case succ =>
    simp only
    split_ifs <;> rfl

-- What is accepted stays accepted.
theorem accepted_subset (change : DeviceChange) (written : Bool) (budget : Nat)
    (state : DeviceChangeState) (digests : List String) (entries : List CommitDelivery) :
    state.accepted ⊆
      (change.deliverDeviceChangeCommits written budget state digests entries).snd.accepted := by
  fun_induction deliverDeviceChangeCommits change written budget state digests entries
  case case7 =>
    rw [accepted_reschedule]
    exact List.Subset.refl _
  case case8 =>
    rw [accepted_reschedule]
    exact List.subset_cons_self _ _
  case case9     => exact List.subset_cons_self _ _
  case case10 hi => exact fun _ hm => hi (List.mem_cons_of_mem _ hm)
  all_goals exact List.Subset.refl _

-- One round, once the commit is prepared: what the run is after the first post.
theorem deliver_cons (budget : Nat) (written : Bool) (digests : List String)
    (h : change.IsFresh state (entry :: entries)) (hp : change.prepare entry = .ok prepared) :
    let ledger := state.ledger.insertNew (registered prepared)
    let taken := { state with ledger, accepted := entry.conversationId :: state.accepted }
    (change.deliverDeviceChangeCommits written 0 state digests (entry :: entries)).snd =
        { state with ledger } ∧
      match entry.post with
      | .refused _  =>
        (change.deliverDeviceChangeCommits written (budget + 1) state digests
          (entry :: entries)).snd =
            change.reschedule { state with ledger } entry prepared.digest budget
      | .lost _     =>
        (change.deliverDeviceChangeCommits written (budget + 1) state digests
          (entry :: entries)).snd = change.reschedule taken entry prepared.digest budget
      | .accepted _ => ∃ ledger',
        (change.deliverDeviceChangeCommits written (budget + 1) state digests
          (entry :: entries)).snd =
            (change.deliverDeviceChangeCommits written budget { taken with ledger := ledger' }
              (digests ++ [prepared.digest]) entries).snd ∧
        ∀ key, key ∈ ledger'.records → prepared.digest = key ∨ key ∈ state.ledger.records := by
  have hn := h.ledger entry List.mem_cons_self prepared hp
  have hr := register_eq hp hn
  constructor
  case left => simp only [deliverDeviceChangeCommits, hp, hr]
  case right =>
    split
    case h_1 hpost => simp only [deliverDeviceChangeCommits, hp, hr, hpost]
    case h_2 hpost => simp only [deliverDeviceChangeCommits, hp, hr, hpost]
    case h_3 id hpost =>
      obtain ⟨ledger', hs, hm⟩ := settle_eq id (state.ledger.get_insertNew <| registered prepared)
      refine ⟨ledger', ?_, fun key hk => DeliveryLedger.mem_insertNew.mp ((hm key).mp hk)⟩
      have hs' : settle (state.ledger.insertNew (registered prepared)) prepared.digest id =
          (.ok (), ledger') := hs
      simp only [deliverDeviceChangeCommits, hp, hr, hpost, hs']

section Failed

-- The state when the post of a commit fails: it is registered, and a relay may have it.
def failed (change : DeviceChange) (entry : CommitDelivery) (state : DeviceChangeState) (prepared : PreparedCommit) (accepted : List String)
    (budget : Nat) : DeviceChangeState :=
  change.reschedule { state with ledger := state.ledger.insertNew (registered prepared), accepted }
    entry prepared.digest budget

-- What stands on the disk then.
theorem stored_failed (change : DeviceChange) (entry : CommitDelivery) (state : DeviceChangeState)
    (prepared : PreparedCommit) (accepted : List String) (budget : Nat) :
    ∃ ledger record time, ledger.get prepared.digest = some record ∧
      record.wire = some prepared.wire ∧ record.isRetry time ∧
      (∀ key, key ∈ ledger.records → prepared.digest = key ∨ key ∈ state.ledger.records) ∧
      (change.failed entry state prepared accepted budget).stored =
        if entry.written ∧ 0 < budget then ledger else state.stored := by
  obtain ⟨ledger, hr, hg, hm⟩ :=
    DeliveryLedger.withRecord_of_get (·.scheduleRetry change.now)
      (state.ledger.get_insertNew <| registered prepared) (scheduleRetry_registered _)
  have hs : ((state.ledger.insertNew (registered prepared)).scheduleRetry prepared.digest
      change.now).snd = ledger := congrArg Prod.snd hr
  refine ⟨ledger, _, change.now.saturatingAdd 5, hg, rfl, ?_,
    fun key hk => DeliveryLedger.mem_insertNew.mp ((hm key).mp hk), ?_⟩
  case refine_1 => simp [DeliveryRecord.isRetry, registered]
  case refine_2 =>
    unfold failed reschedule
    rw [hs]
    cases budget
    case zero => simp
    case succ => by_cases hw : entry.written <;> simp [hw]

variable {accepted : List String} (budget) (fresh : change.IsFresh state (entry :: entries))
  (hp : change.prepare entry = .ok prepared)

include fresh hp

-- The commits after it are nowhere.
theorem holds_rest_failed (ha : accepted ⊆ entry.conversationId :: state.accepted) :
    (∀ other ∈ entries, change.Holds (change.failed entry state prepared accepted budget) other) ↔
      entries = [] := by
  have ⟨hid, _⟩ := List.nodup_cons.mp fresh.ids
  have ⟨hd, _⟩ := List.pairwise_cons.mp fresh.digests
  obtain ⟨ledger, _, _, _, _, _, hkeys, hstored⟩ :=
    change.stored_failed entry state prepared accepted budget
  constructor
  case mpr =>
    rintro rfl
    exact nofun
  case mp =>
    intro hall
    by_contra hne
    have ⟨other, ho⟩ := List.exists_mem_of_ne_nil _ hne
    have hmem := List.mem_cons_of_mem entry ho
    refine not_holds (fun hi => ?_) (fun prepared' hp' hm => ?_) (hall other ho)
    case refine_1 =>
      rw [failed, accepted_reschedule] at hi
      rcases List.mem_cons.mp (ha hi) with he | hi
      case inl => exact hid (he ▸ List.mem_map_of_mem ho)
      case inr => exact fresh.accepted other hmem hi
    case refine_2 =>
      rw [hstored] at hm
      split_ifs at hm
      case neg => exact fresh.stored other hmem prepared' hp' hm
      case pos =>
        rcases hkeys _ hm with he | hm
        case inl => exact hd other ho prepared prepared' hp hp' he
        case inr => exact fresh.ledger other hmem prepared' hp' hm

-- The commit itself is kept by its record.
theorem holds_failed_iff (ha : entry.conversationId ∉ accepted) :
    change.Holds (change.failed entry state prepared accepted budget) entry ↔
      entry.written ∧ 0 < budget := by
  obtain ⟨ledger, record, time, hg, hw, hr, _, hstored⟩ :=
    change.stored_failed entry state prepared accepted budget
  by_cases hc : entry.written ∧ 0 < budget
  case pos =>
    rw [if_pos hc] at hstored
    refine iff_of_true (.inr ⟨prepared, record, hp, ?_, hw, time, ?_⟩) hc
    case refine_1 =>
      rw [hstored]
      exact hg
    case refine_2 =>
      rw [hstored]
      exact DeliveryLedger.mem_dueRetries.mpr ⟨⟨_, hg⟩, hr⟩
  case neg =>
    rw [if_neg hc] at hstored
    refine iff_of_false (not_holds ?_ ?_) hc
    case refine_1 =>
      rw [failed, accepted_reschedule]
      exact ha
    case refine_2 =>
      rw [hstored]
      exact fresh.stored entry List.mem_cons_self

end Failed

-- Every commit is kept exactly when the posts come to the last commit, and that one is kept.
theorem holds_iff_delivers (written : Bool) (digests : List String)
    (fresh : change.IsFresh state entries) :
    (∀ entry ∈ entries, change.Holds
      (change.deliverDeviceChangeCommits written budget state digests entries).snd entry) ↔
      change.Delivers budget entries := by
  induction entries generalizing budget state digests
  case nil =>
    exact iff_of_true nofun ⟨nofun, nofun, Nat.zero_le _, nofun⟩
  case cons entry entries hi =>
    have hmem : entry ∈ entry :: entries := List.mem_cons_self
    match hp : change.prepare entry with
    | .error e     =>
      have hrun : (change.deliverDeviceChangeCommits written budget state digests
          (entry :: entries)).snd = state := by
        simp only [deliverDeviceChangeCommits, hp]
      refine iff_of_false (fun h => ?_) fun h => ?_
      case refine_1 =>
        exact not_holds (fresh.accepted entry hmem) (fresh.stored entry hmem) (hrun ▸ h entry hmem)
      case refine_2 =>
        have hok := h.left entry hmem
        rw [hp] at hok
        cases hok
    | .ok prepared =>
      have hok : (change.prepare entry).isOk := by
        rw [hp]
        rfl
      match budget with
      | 0          =>
        have hrun := (deliver_cons 0 written digests fresh hp).left
        refine iff_of_false (fun h => ?_) fun h => absurd h.right.right.left (Nat.not_succ_le_zero _)
        have hentry := h entry hmem
        rw [hrun] at hentry
        exact not_holds (fresh.accepted entry hmem)
          (fresh.stored entry hmem) hentry
      | budget + 1 =>
        have hrun := (deliver_cons budget written digests fresh hp).right
        have hget := state.ledger.get_insertNew (registered prepared)
        match hpost : entry.post with
        | .accepted id =>
          simp only [hpost] at hrun
          obtain ⟨ledger', hrun, hkeys⟩ := hrun
          rw [delivers_cons_accepted hok (by rw [hpost]; rfl), hrun, ← hi _ (fresh.tail hp hkeys),
            List.forall_mem_cons]
          exact and_iff_right (.inl <| change.accepted_subset _ _ _ _ _ List.mem_cons_self)
        | .lost e      =>
          simp only [hpost] at hrun
          have hrest := holds_rest_failed budget fresh hp (List.Subset.refl _)
          rw [delivers_cons_not_accepted hok (by rw [hpost]; rfl), hrun, List.forall_mem_cons]
          refine (and_iff_right ?_).trans (hrest.trans ?_)
          case refine_1 =>
            refine .inl ?_
            rw [accepted_reschedule]
            exact List.mem_cons_self
          case refine_2 =>
            rw [hpost]
            simp [PostOutcome.isRefused]
        | .refused e   =>
          simp only [hpost] at hrun
          have hrest := holds_rest_failed budget fresh hp (List.subset_cons_self _ _)
          have hentry := holds_failed_iff budget fresh hp (fresh.accepted entry hmem)
          rw [delivers_cons_not_accepted hok (by rw [hpost]; rfl), hrun, List.forall_mem_cons]
          refine (and_congr hentry hrest).trans ?_
          rw [hpost, and_comm]
          simp [PostOutcome.isRefused]

-- For every relay, every contact directory and every moment the process may end at.
theorem commits_kept_iff (written : Bool) (budget : Nat) (fresh : change.IsFresh state entries) :
    (∀ entry ∈ entries, change.Holds
      (change.deliverDeviceChangeCommits written budget state [] entries).snd entry) ↔
      change.Delivers budget entries :=
  holds_iff_delivers written [] fresh

def sampleContact : ContactRecord where
  accountId          := "peer"
  deviceId           := "phone"
  relayOrigin        := "http://127.0.0.1:8787"
  inboxUrl           := some ("http://127.0.0.1:8787/api/v1/inbox/" ++ .ofList (.replicate 43 'A'))
  aliasName          := none
  state              := "active"
  conversationId     := some "adconv01"
  lastMessagePreview := none
  lastMessageAt      := none
  unreadCount        := 0

-- The SHA-256 digest of the one envelope that is made.
def sampleDigest : ByteBlock 32 :=
  ⟨[161, 198, 5, 135, 77, 92, 201, 209, 95, 248, 179, 59, 224, 39, 253, 160,
    38, 205, 237, 226, 146, 208, 8, 76, 195, 26, 122, 201, 146, 34, 192, 57], rfl⟩

def sampleChange : DeviceChange where
  contacts    := ⟨(∅ : Std.ExtTreeMap String ContactRecord).insert "peer" sampleContact⟩
  relayTlsPin := none
  sha256 _    := sampleDigest
  now         := 1700000000

def sampleState : DeviceChangeState := ⟨.empty, .empty, []⟩

def sampleDelivery (conversationId : String) : CommitDelivery where
  conversationId := conversationId
  commit         := [1]
  padding n      := some ⟨.replicate n 0, List.length_replicate⟩
  id             := some ⟨.replicate 16 0, rfl⟩
  post           := .accepted "1"
  written        := true

theorem sampleState_isFresh (entry : CommitDelivery) :
    sampleChange.IsFresh sampleState [entry] where
  ids          := List.nodup_singleton _
  accepted _ _ := List.not_mem_nil
  digests      := List.pairwise_singleton _ _
  ledger       := by simp [sampleState, DeliveryLedger.empty]
  stored       := by simp [sampleState, DeliveryLedger.empty]

-- The process ends after the checkpoints were stored and before the post; and a conversation has no
-- contact, in a run that comes to its end.
theorem commits_lost :
    ¬(∀ entry ∈ [sampleDelivery "adconv01"], sampleChange.Holds
        (sampleChange.deliverDeviceChangeCommits true 0 sampleState []
          [sampleDelivery "adconv01"]).snd entry) ∧
      ¬∀ entry ∈ [sampleDelivery "adconv02"], sampleChange.Holds
        (sampleChange.deliverDeviceChangeCommits true 9 sampleState []
          [sampleDelivery "adconv02"]).snd entry := by
  constructor
  case left =>
    rw [holds_iff_delivers true [] (sampleState_isFresh _)]
    exact fun h => absurd h.right.right.left (by decide)
  case right =>
    rw [holds_iff_delivers true [] (sampleState_isFresh _)]
    intro h
    have hok := h.left _ List.mem_cons_self
    have hc : sampleChange.contacts.forConversation "adconv02" = none := by decide
    simp [prepare, sampleDelivery, hc, throw, throwThe, MonadExceptOf.throw] at hok
    cases hok

theorem sampleDelivery_kept :
    (∀ entry ∈ [sampleDelivery "adconv01"], sampleChange.Holds
      (sampleChange.deliverDeviceChangeCommits true 2 sampleState []
        [sampleDelivery "adconv01"]).snd entry) ↔
      sampleChange.Delivers 2 [sampleDelivery "adconv01"] :=
  commits_kept_iff true 2 (sampleState_isFresh _)

end DeviceChange
