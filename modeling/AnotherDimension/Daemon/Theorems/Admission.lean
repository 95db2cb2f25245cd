import AnotherDimension.Daemon.Admission
import AnotherDimension.Daemon.Theorems.Operations
import AnotherDimension.Mls.Theorems.Removal
import AnotherDimension.Storage.Theorems.Durable

-- Which welcomes are delivered when the admission of members fails on the way.

open Storage

variable {σ : Type} {mls : Mls σ} {isMember : σ → Bytes → Prop}

-- What the library says about key packages: `isMember` means that the signature key of a package is
-- in the group. Such a package is not added again, and a checkpoint keeps the members.
structure Mls.AdmitsOnce (mls : Mls σ) (isMember : σ → Bytes → Prop) : Prop where
  added    : ∀ {state state' keyPackage output},
    mls.addMembers state keyPackage = .ok (output, state') → isMember state' keyPackage
  kept     : ∀ {state state' keyPackage other output},
    mls.addMembers state keyPackage = .ok (output, state') → isMember state other →
      isMember state' other
  refused  : ∀ {state keyPackage}, isMember state keyPackage →
    ∃ e, mls.addMembers state keyPackage = .error e
  restored : ∀ {state state' bytes keyPackage}, mls.snapshot state = .ok bytes →
    mls.restore bytes = .ok state' → isMember state keyPackage → isMember state' keyPackage

namespace MlsSession

variable {conversationId : String} {session session' : MlsSession σ} {store store' : DurableStore}
  {keyPackage welcome : Bytes} {keyPackages : List Bytes} {e : SessionError}

theorem addMember_ok (h : session.addMember mls keyPackage = (.ok welcome, session')) :
    ∃ commit, mls.addMembers session.state keyPackage = .ok ((commit, welcome), session'.state) := by
  obtain ⟨-, state, ho, rfl⟩ := ifUsable_ok h
  cases ha : mls.addMembers session.state keyPackage <;> rw [ha] at ho
  case error => cases ho
  case ok output =>
    cases ho
    exact ⟨_, rfl⟩

theorem addMember_error (h : session.addMember mls keyPackage = (.error e, session')) :
    session' = session :=
  ifUsable_error h

theorem addMember_refused (library : mls.AdmitsOnce isMember)
    (h : isMember session.state keyPackage) :
    ∃ e, session.addMember mls keyPackage = (.error e, session) := by
  obtain ⟨e, he⟩ := library.refused h
  unfold addMember ifUsable
  split
  case isTrue  => exact ⟨_, rfl⟩
  case isFalse => exact ⟨e, by simp only [he]; rfl⟩

-- The group in memory and the one that a restart finds both have the member.
structure Holds (mls : Mls σ) (isMember : σ → Bytes → Prop) (conversationId : String)
    (keyPackage : Bytes) (session : MlsSession σ) (store : DurableStore) : Prop where
  memory  : isMember session.state keyPackage
  durable : ∀ bytes state, store.durable[key conversationId]? = some bytes →
    mls.restore bytes = .ok state → isMember state keyPackage

theorem snapshot_of_snapshotBytes {bytes : Bytes} (h : session.snapshotBytes mls = .ok bytes) :
    mls.snapshot session.state = .ok bytes := by
  unfold snapshotBytes at h
  split at h
  case isTrue => cases h
  case isFalse =>
    cases hs : mls.snapshot session.state <;> simp only [hs] at h
    case error => cases h
    case ok =>
      split at h
      case isTrue  => cases h
      case isFalse => cases h; rfl

-- The checkpoint of the session is on the disk.
def IsOnDisk (mls : Mls σ) (conversationId : String) (session : MlsSession σ)
    (store : DurableStore) : Prop :=
  ∃ bytes, session.snapshotBytes mls = .ok bytes ∧
    store.durable[key conversationId]? = some bytes

theorem persist_durable (session : MlsSession σ) (store : DurableStore) (conversationId : String) :
    (session.persist mls store conversationId).snd.durable = store.durable ∨
      session.IsOnDisk mls conversationId (session.persist mls store conversationId).snd := by
  unfold persist IsOnDisk
  cases hs : session.snapshotBytes mls
  case error => exact .inl rfl
  case ok bytes =>
    have hp := store.durable_put (key conversationId).fst (key conversationId).snd bytes
    rcases hx : store.put (key conversationId).fst (key conversationId).snd bytes with
      ⟨_ | _, store'⟩ <;> simp only [hx] at hp ⊢ <;>
      exact hp.imp_right fun hd => ⟨bytes, rfl, by simp [hd]⟩

theorem persist_ok (h : session.persist mls store conversationId = (.ok (), store')) :
    session.IsOnDisk mls conversationId store' := by
  unfold persist at h
  cases hs : session.snapshotBytes mls <;> simp only [hs] at h
  case error => cases h
  case ok bytes =>
    rcases hx : store.put (key conversationId).fst (key conversationId).snd bytes with
      ⟨_ | _, store''⟩ <;> simp only [hx] at h
    case error => cases h
    case ok =>
      cases h
      obtain ⟨hr, hd, -⟩ := DurableStore.put_ok hx
      exact ⟨bytes, hs, by simp [hd, hr]⟩

-- The ways one member can be added.
theorem addMemberAndPersist_cases (mls : Mls σ) (session : MlsSession σ) (store : DurableStore)
    (keyPackage : Bytes) (conversationId : String) :
    (∃ e, session.addMember mls keyPackage = (.error e, session) ∧
      session.addMemberAndPersist mls keyPackage store conversationId = (.error e, session, store)) ∨
    ∃ welcome session', session.addMember mls keyPackage = (.ok welcome, session') ∧
      ((∃ e store', session'.persist mls store conversationId = (.error e, store') ∧
        session.addMemberAndPersist mls keyPackage store conversationId =
          (.error e, { session' with poisoned := true }, store')) ∨
      ∃ store', session'.persist mls store conversationId = (.ok (), store') ∧
        session.addMemberAndPersist mls keyPackage store conversationId =
          (.ok welcome, session', store')) := by
  rcases ha : session.addMember mls keyPackage with ⟨e | welcome, session'⟩
  case error =>
    obtain rfl := addMember_error ha
    exact .inl ⟨e, rfl, by simp only [addMemberAndPersist, andPersist, ha]⟩
  case ok =>
    refine .inr ⟨welcome, session', rfl, ?_⟩
    rcases hp : session'.persist mls store conversationId with ⟨e | _, store'⟩
    case error =>
      exact .inl ⟨e, store', rfl, by
        simp only [addMemberAndPersist, andPersist, ha, persistOrPoison, hp]⟩
    case ok =>
      exact .inr ⟨store', rfl, by
        simp only [addMemberAndPersist, andPersist, ha, persistOrPoison, hp]⟩

section

variable (library : mls.AdmitsOnce isMember)

include library

theorem IsOnDisk.durable (h : session.IsOnDisk mls conversationId store)
    (hm : isMember session.state keyPackage) :
    ∀ bytes state, store.durable[key conversationId]? = some bytes →
      mls.restore bytes = .ok state → isMember state keyPackage := by
  obtain ⟨bytes, hs, hd⟩ := h
  intro bytes' state hb hr
  cases hd.symm.trans hb
  exact library.restored (snapshot_of_snapshotBytes hs) hr hm

-- A member stays while others are added.
theorem Holds.persist (h : session.Holds mls isMember conversationId keyPackage store)
    (hm : isMember session'.state keyPackage) :
    session'.Holds mls isMember conversationId keyPackage
      (session'.persist mls store conversationId).snd where
  memory  := hm
  durable := by
    obtain hd | hd := session'.persist_durable store conversationId
    case inl => exact hd ▸ h.durable
    case inr => exact hd.durable library hm

theorem Holds.addMembers (h : session.Holds mls isMember conversationId keyPackage store) :
    (MlsSessionCatalog.addMembers mls conversationId session store keyPackages).snd.fst.Holds mls
      isMember conversationId keyPackage
      (MlsSessionCatalog.addMembers mls conversationId session store keyPackages).snd.snd := by
  induction keyPackages generalizing session store
  case nil => exact h
  case cons other keyPackages hi =>
    rw [MlsSessionCatalog.addMembers]
    obtain ⟨e, -, hx⟩ | ⟨welcome, session', ha, ⟨e, store', hp, hx⟩ | ⟨store', hp, hx⟩⟩ :=
      addMemberAndPersist_cases mls session store other conversationId <;> simp only [hx]
    case inl => exact h
    case inr.inl =>
      obtain ⟨commit, ha⟩ := addMember_ok ha
      have hn := h.persist library (library.kept ha h.memory)
      rw [hp] at hn
      exact ⟨hn.memory, hn.durable⟩
    case inr.inr =>
      obtain ⟨commit, ha⟩ := addMember_ok ha
      have hn := h.persist library (library.kept ha h.memory)
      rw [hp] at hn
      exact hi hn

-- A package whose member is in the group stops the batch at once.
theorem addMembers_refused (h : isMember session.state keyPackage) :
    ∃ e, MlsSessionCatalog.addMembers mls conversationId session store
      (keyPackage :: keyPackages) = (.error e, session, store) := by
  obtain ⟨e, ha⟩ := addMember_refused library h
  exact ⟨e, by
    simp only [MlsSessionCatalog.addMembers, addMemberAndPersist, andPersist, ha]⟩

end

-- The package is added and the checkpoint with the new member is on the disk.
def Stores (mls : Mls σ) (conversationId : String) (session : MlsSession σ) (store : DurableStore)
    (keyPackage : Bytes) : Prop :=
  ∃ welcome session', session.addMember mls keyPackage = (.ok welcome, session') ∧
    session'.IsOnDisk mls conversationId (session'.persist mls store conversationId).snd

def StoresFirst (mls : Mls σ) (conversationId : String) (session : MlsSession σ)
    (store : DurableStore) (keyPackages : List Bytes) : Prop :=
  ∃ keyPackage, keyPackages.head? = some keyPackage ∧
    session.Stores mls conversationId store keyPackage

-- The batch comes to the package, and the new member reaches the disk.
inductive DurablyAdds (mls : Mls σ) (conversationId : String) :
    MlsSession σ → DurableStore → List Bytes → Bytes → Prop
  | here {session : MlsSession σ} {store : DurableStore} {keyPackage : Bytes}
    {keyPackages : List Bytes}
    (stores : session.Stores mls conversationId store keyPackage) :
    DurablyAdds mls conversationId session store (keyPackage :: keyPackages) keyPackage
  | there {session session' : MlsSession σ} {store store' : DurableStore}
    {welcome keyPackage other : Bytes} {keyPackages : List Bytes}
    (added : session.addMemberAndPersist mls other store conversationId =
      (.ok welcome, session', store'))
    (later : DurablyAdds mls conversationId session' store' keyPackages keyPackage) :
    DurablyAdds mls conversationId session store (other :: keyPackages) keyPackage

-- Every package is accepted in its turn, and every checkpoint written.
def Admits (mls : Mls σ) (conversationId : String) :
    MlsSession σ → DurableStore → List Bytes → Prop
  | _, _, []                                  => True
  | session, store, keyPackage :: keyPackages => ∃ welcome session' store',
    session.addMemberAndPersist mls keyPackage store conversationId =
      (.ok welcome, session', store') ∧
    Admits mls conversationId session' store' keyPackages

theorem stores_of_addMemberAndPersist
    (h : session.addMemberAndPersist mls keyPackage store conversationId =
      (.ok welcome, session', store')) : session.Stores mls conversationId store keyPackage := by
  obtain ⟨e, -, hx⟩ | ⟨welcome, session', ha, ⟨e, store', hp, hx⟩ | ⟨store', hp, hx⟩⟩ :=
    addMemberAndPersist_cases mls session store keyPackage conversationId <;> cases h.symm.trans hx
  exact ⟨_, _, ha, by rw [hp]; exact persist_ok hp⟩

theorem DurablyAdds.storesFirst (h : DurablyAdds mls conversationId session store keyPackages
    keyPackage) : session.StoresFirst mls conversationId store keyPackages := by
  cases h
  case here hs    => exact ⟨_, rfl, hs⟩
  case there ha _ => exact ⟨_, rfl, stores_of_addMemberAndPersist ha⟩

theorem DurablyAdds.mem (h : DurablyAdds mls conversationId session store keyPackages
    keyPackage) : keyPackage ∈ keyPackages := by
  induction h
  case here     => exact List.mem_cons_self
  case there hi => exact List.mem_cons_of_mem _ hi

theorem Admits.durablyAdds (h : Admits mls conversationId session store keyPackages)
    (hm : keyPackage ∈ keyPackages) :
    DurablyAdds mls conversationId session store keyPackages keyPackage := by
  induction keyPackages generalizing session store
  case nil => cases hm
  case cons other keyPackages hi =>
    obtain ⟨welcome, session', store', ha, hs⟩ := h
    cases hm
    case head    => exact .here (stores_of_addMemberAndPersist ha)
    case tail hm => exact .there ha (hi hs hm)

theorem addMembers_of_admits (h : Admits mls conversationId session store keyPackages) :
    ∃ welcomes, (MlsSessionCatalog.addMembers mls conversationId session store
      keyPackages).fst = .ok welcomes ∧ welcomes.length = keyPackages.length := by
  induction keyPackages generalizing session store
  case nil => exact ⟨[], rfl, rfl⟩
  case cons keyPackage keyPackages hi =>
    obtain ⟨welcome, session', store', ha, hs⟩ := h
    obtain ⟨welcomes, hw, hl⟩ := hi hs
    exact ⟨welcome :: welcomes, by simp [MlsSessionCatalog.addMembers, ha, hw, Except.map], by simp [hl]⟩

theorem addMembers_of_not_admits (h : ¬Admits mls conversationId session store keyPackages) :
    ∃ e, (MlsSessionCatalog.addMembers mls conversationId session store
      keyPackages).fst = .error e := by
  induction keyPackages generalizing session store
  case nil => exact absurd trivial h
  case cons keyPackage keyPackages hi =>
    rw [MlsSessionCatalog.addMembers]
    rcases hx : session.addMemberAndPersist mls keyPackage store conversationId with
      ⟨e | welcome, session', store'⟩
    case error => exact ⟨e, rfl⟩
    case ok =>
      obtain ⟨e, he⟩ := @hi session' store' fun hs => h ⟨welcome, session', store', hx, hs⟩
      exact ⟨e, by simp [he, Except.map]⟩

section

variable (library : mls.AdmitsOnce isMember)

include library

-- After a batch whose first member reached the disk, memory and disk have that member.
theorem StoresFirst.holds
    (h : session.StoresFirst mls conversationId store (keyPackage :: keyPackages)) :
    (MlsSessionCatalog.addMembers mls conversationId session store
        (keyPackage :: keyPackages)).snd.fst.Holds mls isMember conversationId keyPackage
      (MlsSessionCatalog.addMembers mls conversationId session store
        (keyPackage :: keyPackages)).snd.snd := by
  obtain ⟨_, hk, welcome, session', ha, hd⟩ := h
  obtain rfl := Option.some.inj hk
  obtain ⟨commit, hadd⟩ := addMember_ok ha
  have hm := library.added hadd
  have hh : session'.Holds mls isMember conversationId keyPackage
      (session'.persist mls store conversationId).snd := ⟨hm, hd.durable library hm⟩
  rw [MlsSessionCatalog.addMembers]
  obtain ⟨e, hx, -⟩ | ⟨welcome', session'', ha', ⟨e, store', hp, hx⟩ | ⟨store', hp, hx⟩⟩ :=
    addMemberAndPersist_cases mls session store keyPackage conversationId
  case inl => cases ha.symm.trans hx
  case inr.inl =>
    cases ha.symm.trans ha'
    rw [hp] at hh
    simp only [hx]
    exact ⟨hh.memory, hh.durable⟩
  case inr.inr =>
    cases ha.symm.trans ha'
    rw [hp] at hh
    simp only [hx]
    exact hh.addMembers library

theorem Admits.not_isMember (h : Admits mls conversationId session store keyPackages)
    (hm : keyPackage ∈ keyPackages) : ¬isMember session.state keyPackage := by
  induction keyPackages generalizing session store
  case nil => cases hm
  case cons other keyPackages hi =>
    intro hk
    obtain ⟨welcome, session', store', hx, hs⟩ := h
    obtain ⟨e, -, hx'⟩ | ⟨welcome', session'', ha, ⟨e, store'', hp, hx'⟩ | ⟨store'', hp, hx'⟩⟩ :=
      addMemberAndPersist_cases mls session store other conversationId <;>
      cases hx.symm.trans hx'
    cases hm
    case head =>
      obtain ⟨e, he⟩ := addMember_refused library hk
      cases he.symm.trans ha
    case tail hm =>
      obtain ⟨commit, ha⟩ := addMember_ok ha
      exact hi hs hm (library.kept ha hk)

-- A batch without an error has no package twice.
theorem Admits.nodup (h : Admits mls conversationId session store keyPackages) :
    keyPackages.Nodup := by
  induction keyPackages generalizing session store
  case nil => exact List.nodup_nil
  case cons keyPackage keyPackages hi =>
    obtain ⟨welcome, session', store', hx, hs⟩ := h
    refine List.nodup_cons.mpr ⟨fun hm => ?_, hi hs⟩
    obtain ⟨e, -, hx'⟩ | ⟨welcome', session'', ha, ⟨e, store'', hp, hx'⟩ | ⟨store'', hp, hx'⟩⟩ :=
      addMemberAndPersist_cases mls session store keyPackage conversationId <;>
      cases hx.symm.trans hx'
    obtain ⟨commit, ha⟩ := addMember_ok ha
    exact hs.not_isMember library hm (library.added ha)

end

end MlsSession

namespace MlsSession

variable {conversationId : String} {session : MlsSession σ} {store : DurableStore}

theorem restore_ok (h : restore mls store conversationId = .ok session) :
    ∃ bytes, store.get (key conversationId).fst (key conversationId).snd = some bytes ∧
      mls.restore bytes = .ok session.state := by
  unfold restore at h
  cases hg : store.get (key conversationId).fst (key conversationId).snd <;> simp only [hg] at h
  case none => cases h
  case some bytes =>
    split at h
    case isTrue => cases h
    case isFalse =>
      cases hr : mls.restore bytes <;> rw [hr] at h
      case error => cases h
      case ok    => cases h; exact ⟨bytes, rfl, hr⟩

end MlsSession

namespace MlsSessionCatalog

-- Every session comes from its checkpoint.
def IsRestored (mls : Mls σ) (store : DurableStore) (catalog : MlsSessionCatalog σ) : Prop :=
  ∀ id session, catalog.get id = some session → MlsSession.restore mls store id = .ok session

theorem IsRestored.restoreEach {store : DurableStore} {catalog : MlsSessionCatalog σ}
    (h : catalog.IsRestored mls store) (ids : List String) :
    (restoreEach mls store catalog ids).snd.IsRestored mls store := by
  induction ids generalizing catalog
  case nil => exact h
  case cons id ids hi =>
    have hr : (catalog.restore mls id store).snd.IsRestored mls store := by
      unfold restore
      split_ifs
      case pos => exact h
      case pos => exact h
      case neg =>
        cases hs : MlsSession.restore mls store id
        case error => exact h
        case ok session =>
          intro id' session' hg
          rw [get_insert] at hg
          split at hg
          case isTrue he =>
            cases hg
            exact he ▸ hs
          case isFalse => exact h id' session' hg
    rw [MlsSessionCatalog.restoreEach]
    rcases hx : catalog.restore mls id store with ⟨_ | _, catalog'⟩ <;> simp only [hx] at hr ⊢
    case error => exact hr
    case ok    => exact hi hr

end MlsSessionCatalog

namespace Daemon

variable {services : Services σ} {relayTlsPin : Option (ByteBlock 32)} {d d' : Daemon σ}

theorem restart_some {outcomes : List CommitOutcome} (h : d.restart services outcomes = some d') :
    d'.store = d.store.reopened outcomes ∧ d'.authority.pendingKeyPackages = [] ∧
      d'.catalog.IsRestored services.mls d'.store := by
  simp only [restart] at h
  split at h
  case h_2 => cases h
  case h_1 n catalog pairing contacts authority ledger hc _ _ ha _ =>
    cases h
    refine ⟨rfl, congrArg (·.snd.pendingKeyPackages) ha.symm, ?_⟩
    have hr : (MlsSessionCatalog.new.restoreAll services.mls
        (d.store.reopened outcomes)).snd.IsRestored services.mls (d.store.reopened outcomes) :=
      MlsSessionCatalog.IsRestored.restoreEach (fun id session hg => by
        simp [MlsSessionCatalog.new, MlsSessionCatalog.get] at hg) _
    rw [hc] at hr
    exact hr

theorem approveContact_frame (d : Daemon σ) (now : UInt64) : ∃ pairing contacts store,
    (d.approveContact now).snd =
      { d with authority := { d.authority with pairing, contacts }, store } := by
  obtain ⟨store, hp⟩ :=
    d.changePairing_frame (allowDuplicate (d.authority.pairing.approve now))
  unfold approveContact
  rcases hx : d.approvePairing now with ⟨_ | _, d₁⟩ <;>
    obtain rfl := (congrArg Prod.snd hx).symm.trans hp
  case error => exact ⟨_, _, _, rfl⟩
  case ok =>
    dsimp only [registerApprovedContact]
    split
    case h_1 => exact ⟨_, _, _, rfl⟩
    case h_2 peer _ =>
      obtain ⟨store', hc⟩ := changeContacts_frame _ _
      exact ⟨_, _, _, hc⟩

section

variable {conversationId : String} {keyPackages : List Bytes} {keyPackage : Bytes}
  {session : MlsSession σ}

theorem addMembers_of_get (hv : validConversationId conversationId)
    (hs : d.catalog.get conversationId = some session) :
    d.addMembers services conversationId keyPackages =
      ((MlsSessionCatalog.addMembers services.mls conversationId session d.store
          keyPackages).fst.mapError .session,
        { d with
          catalog := d.catalog.insert conversationId (MlsSessionCatalog.addMembers services.mls
            conversationId session d.store keyPackages).snd.fst
          store   := (MlsSessionCatalog.addMembers services.mls conversationId session d.store
            keyPackages).snd.snd }) := by
  simp [addMembers, MlsSessionCatalog.addMembersBatch, MlsSessionCatalog.withStoredSession, hv, hs]

theorem addMembers_of_not_get
    (h : ¬(validConversationId conversationId ∧ (d.catalog.get conversationId).isSome)) :
    ∃ e, d.addMembers services conversationId keyPackages = (.error e, d) := by
  simp only [addMembers, MlsSessionCatalog.addMembersBatch, MlsSessionCatalog.withStoredSession]
  by_cases hv : validConversationId conversationId
  case neg => exact ⟨.invalidConversation, by simp [hv]⟩
  case pos =>
    cases hs : d.catalog.get conversationId
    case none         => exact ⟨.unknownConversation, by simp [hv]⟩
    case some session => exact absurd ⟨hv, by simp [hs]⟩ h

-- The session of the conversation has the member.
def HasMember (isMember : σ → Bytes → Prop) (conversationId : String) (keyPackage : Bytes)
    (d : Daemon σ) : Prop :=
  ∀ session, d.catalog.get conversationId = some session → isMember session.state keyPackage

-- A batch that starts with the package of a member changes nothing.
theorem addMembers_stuck (library : services.mls.AdmitsOnce isMember)
    (h : d.HasMember isMember conversationId keyPackage) :
    ∃ e catalog, d.addMembers services conversationId (keyPackage :: keyPackages) =
      (.error e, { d with catalog }) ∧ ∀ id, catalog.get id = d.catalog.get id := by
  by_cases hg : validConversationId conversationId ∧ (d.catalog.get conversationId).isSome
  case neg =>
    obtain ⟨e, he⟩ := addMembers_of_not_get hg
    exact ⟨e, d.catalog, he, fun _ => rfl⟩
  case pos =>
    obtain ⟨session, hs⟩ := Option.isSome_iff_exists.mp hg.right
    obtain ⟨e, he⟩ := MlsSession.addMembers_refused library (h session hs)
    rw [addMembers_of_get hg.left hs, he]
    refine ⟨_, _, rfl, fun id => ?_⟩
    rw [MlsSessionCatalog.get_insert]
    split
    case isTrue hi => rw [← hi, hs]
    case isFalse   => rfl

end

-- All welcomes get to the relay. Only the last answer may be lost.
def Reaches (writes : Nat → WelcomeWrite) (place count : Nat) : Prop :=
  ∀ i < count, writes (place + i) = .written ∨ writes (place + i) = .lost ∧ i + 1 = count

theorem length_writeWelcomes_le (writes : Nat → WelcomeWrite) (place : Nat)
    (welcomes : List Bytes) :
    (writeWelcomes writes place welcomes).snd.length ≤ welcomes.length := by
  induction welcomes generalizing place
  case nil => simp [writeWelcomes]
  case cons welcome welcomes hi =>
    unfold writeWelcomes
    cases writes place
    case written => simpa using hi (place + 1)
    case lost    => simp
    case refused => simp

theorem reaches_zero (writes : Nat → WelcomeWrite) (place : Nat) : Reaches writes place 0 :=
  fun i hi => absurd hi (Nat.not_lt_zero i)

theorem reaches_succ (writes : Nat → WelcomeWrite) (place count : Nat) :
    Reaches writes place (count + 1) ↔
      (writes place = .written ∧ Reaches writes (place + 1) count) ∨
        (writes place = .lost ∧ count = 0) := by
  have hr : (∀ i < count, writes (place + (i + 1)) = .written ∨
      writes (place + (i + 1)) = .lost ∧ i + 1 + 1 = count + 1) ↔
        Reaches writes (place + 1) count := by
    refine forall₂_congr fun i _ => ?_
    rw [Nat.add_right_cancel_iff, Nat.add_assoc, Nat.add_comm 1 i]
  rw [Reaches, Nat.forall_lt_succ_left', hr, Nat.add_zero, Nat.zero_add, or_and_right]
  refine or_congr_right ⟨fun h => ⟨h.left.left, by omega⟩, fun h => ⟨⟨h.left, by omega⟩, ?_⟩⟩
  exact h.right ▸ reaches_zero writes (place + 1)

theorem length_writeWelcomes_iff (writes : Nat → WelcomeWrite) (place : Nat)
    (welcomes : List Bytes) :
    (writeWelcomes writes place welcomes).snd.length = welcomes.length ↔
      Reaches writes place welcomes.length := by
  induction welcomes generalizing place
  case nil => simp [writeWelcomes, reaches_zero]
  case cons welcome welcomes hi =>
    rw [List.length_cons, reaches_succ, writeWelcomes]
    cases hw : writes place
    case written => simpa using hi (place + 1)
    case lost    => simp
    case refused => simp

-- The batch of the request, with the daemon that starts it.
def admissionBatch (relayTlsPin : Option (ByteBlock 32)) (d : Daemon σ) :
    AdmissionRequest → Option (String × List Bytes × Daemon σ)
  | .addMember conversationId keyPackages => some (conversationId, keyPackages, d)
  | .approve now _                        =>
    match d.approveContact now with
    | (.error _, _) => none
    | (.ok (), d)   =>
      match d.pendingAdmission relayTlsPin with
      | .ok (some pending) => some (pending.conversationId, pending.keyPackages, d)
      | _                  => none

-- A member of the batch reaches the disk.
def DurablyAdds (services : Services σ) (relayTlsPin : Option (ByteBlock 32)) (d : Daemon σ)
    (request : AdmissionRequest) (keyPackage : Bytes) : Prop :=
  ∃ conversationId keyPackages d₁ session,
    d.admissionBatch relayTlsPin request = some (conversationId, keyPackages, d₁) ∧
    validConversationId conversationId ∧ d₁.catalog.get conversationId = some session ∧
    MlsSession.DurablyAdds services.mls conversationId session d₁.store keyPackages keyPackage

end Daemon

-- The same request once more.
def AdmissionRequest.Repeats : AdmissionRequest → AdmissionRequest → Prop
  | .addMember conversationId keyPackages, .addMember conversationId' keyPackages' =>
    conversationId = conversationId' ∧ keyPackages = keyPackages'
  | .approve _ _, .approve _ _                                                     => True
  | _, _                                                                           => False

def AdmissionEvent.Repeats (request : AdmissionRequest) : AdmissionEvent → Prop
  | .request request' => request.Repeats request'
  | .restart _        => True

namespace Daemon

variable {services : Services σ} {relayTlsPin : Option (ByteBlock 32)} {d d' : Daemon σ}

-- Repeating the request delivers the welcome of the package, with restarts on the way.
def DeliversLater (services : Services σ) (relayTlsPin : Option (ByteBlock 32)) (d : Daemon σ)
    (request : AdmissionRequest) (keyPackage : Bytes) : Prop :=
  ∃ events : List AdmissionEvent, (∀ event ∈ events, event.Repeats request) ∧
    ∃ request', request.Repeats request' ∧
      keyPackage ∈ (events.foldl (admissionStep services relayTlsPin) d).delivered services
        relayTlsPin request'

-- No member is left without a welcome.
def IsRetryable (services : Services σ) (relayTlsPin : Option (ByteBlock 32)) (d : Daemon σ)
    (request : AdmissionRequest) : Prop :=
  ∀ keyPackage, d.DurablyAdds services relayTlsPin request keyPackage →
    keyPackage ∈ d.delivered services relayTlsPin request ∨
      (d.handleAdmission services relayTlsPin request).DeliversLater services relayTlsPin request keyPackage

-- The welcomes of the request arrive, once the members are added.
def Arrives (request : AdmissionRequest) (count : Nat) : Prop :=
  match request with
  | .addMember _ _    => True
  | .approve _ writes => Reaches writes 0 count

-- When the first member of the batch reaches the disk, then so do all others, and their welcomes
-- arrive.
def IsAllOrNothing (services : Services σ) (relayTlsPin : Option (ByteBlock 32)) (d : Daemon σ)
    (request : AdmissionRequest) : Prop :=
  ∀ conversationId keyPackages d₁ session,
    d.admissionBatch relayTlsPin request = some (conversationId, keyPackages, d₁) →
    validConversationId conversationId → d₁.catalog.get conversationId = some session →
    session.StoresFirst services.mls conversationId d₁.store keyPackages →
      MlsSession.Admits services.mls conversationId session d₁.store keyPackages ∧
        Arrives request keyPackages.length

theorem pendingAdmission_some {pending : PendingAdmission}
    (h : d.pendingAdmission relayTlsPin = .ok (some pending)) :
    pending.keyPackages ≠ [] ∧ pending.keyPackages = d.authority.pendingKeyPackages ∧
      d.authority.pendingConversationId = some pending.conversationId := by
  unfold pendingAdmission at h
  split at h
  case isTrue => cases h
  case isFalse hn =>
    split at h
    case h_2 => cases h
    case h_1 hc =>
      split at h
      case h_1 => cases h
      case h_2 =>
        cases h
        exact ⟨by simpa using hn, rfl, hc⟩

section Approve

variable {now : UInt64} {writes : Nat → WelcomeWrite} {conversationId : String}
  {keyPackages : List Bytes} {keyPackage : Bytes} {d₁ : Daemon σ}

-- Catalog and pending members are as in the other daemon.
structure SamePending (d d' : Daemon σ) : Prop where
  catalog        : d'.catalog = d.catalog
  keyPackages    : d'.authority.pendingKeyPackages = d.authority.pendingKeyPackages
  conversationId : d'.authority.pendingConversationId = d.authority.pendingConversationId

theorem approveContact_samePending (d : Daemon σ) (now : UInt64) :
    d.SamePending (d.approveContact now).snd := by
  obtain ⟨pairing, contacts, store, h⟩ := d.approveContact_frame now
  rw [h]
  exact ⟨rfl, rfl, rfl⟩

-- The route either has nothing to add, or it makes its batch.
theorem approve_cases (services : Services σ) (relayTlsPin : Option (ByteBlock 32)) (d : Daemon σ)
    (now : UInt64) (writes : Nat → WelcomeWrite) :
    d.admissionBatch relayTlsPin (.approve now writes) = none ∧
        (d.approve services relayTlsPin now writes).snd.fst = [] ∧
        d.SamePending (d.approve services relayTlsPin now writes).snd.snd ∨
      ∃ pending d₁, d.admissionBatch relayTlsPin (.approve now writes) =
          some (pending.conversationId, pending.keyPackages, d₁) ∧
        pending.keyPackages ≠ [] ∧ pending.keyPackages = d.authority.pendingKeyPackages ∧
        d.authority.pendingConversationId = some pending.conversationId ∧ d.SamePending d₁ ∧
        (d.approve services relayTlsPin now writes).snd =
          (d₁.admitPending services pending writes).snd := by
  have hf := d.approveContact_samePending now
  unfold approve admissionBatch
  rcases hx : d.approveContact now with ⟨_ | _, d₁⟩ <;> simp only [hx] at hf ⊢
  case error => exact .inl ⟨trivial, trivial, hf⟩
  case ok =>
    rcases hp : d₁.pendingAdmission relayTlsPin with reply | _ | pending
    case error   => exact .inl ⟨rfl, rfl, hf⟩
    case ok.none => exact .inl ⟨rfl, rfl, hf⟩
    case ok.some =>
      obtain ⟨hn, hk, hc⟩ := pendingAdmission_some hp
      exact .inr ⟨pending, d₁, rfl, hn, hk.trans hf.keyPackages, hf.conversationId ▸ hc, hf, rfl⟩

-- The next batch starts with the package of a member, or there is none.
def Waits (isMember : σ → Bytes → Prop) (d : Daemon σ) : Prop :=
  d.authority.pendingKeyPackages = [] ∨ ∃ keyPackage conversationId,
    d.authority.pendingKeyPackages.head? = some keyPackage ∧
    d.authority.pendingConversationId = some conversationId ∧
    d.HasMember isMember conversationId keyPackage

theorem SamePending.waits (h : d.SamePending d') (hw : d.Waits isMember) : d'.Waits isMember := by
  unfold Waits HasMember
  rw [h.catalog, h.keyPackages, h.conversationId]
  exact hw

theorem SamePending.trans {d'' : Daemon σ} (h : d.SamePending d') (h' : d'.SamePending d'') :
    d.SamePending d'' where
  catalog        := h'.catalog.trans h.catalog
  keyPackages    := h'.keyPackages.trans h.keyPackages
  conversationId := h'.conversationId.trans h.conversationId

variable (library : services.mls.AdmitsOnce isMember)

include library

-- Then the route delivers nothing, and it stays so.
theorem Waits.approve (h : d.Waits isMember) :
    (d.approve services relayTlsPin now writes).snd.fst = [] ∧
      (d.approve services relayTlsPin now writes).snd.snd.Waits isMember := by
  obtain ⟨-, hs, hp⟩ | ⟨pending, d₁, -, hn, hk, hc, hp, ha⟩ :=
    approve_cases services relayTlsPin d now writes
  case inl => exact ⟨hs, hp.waits h⟩
  case inr =>
    have hw := hp.waits h
    obtain he | ⟨keyPackage, conversationId, hh, hc', hm⟩ := h
    case inl => exact absurd (hk.trans he) hn
    case inr =>
      obtain rfl := Option.some.inj (hc.symm.trans hc')
      obtain ⟨rest, hr⟩ : ∃ rest, pending.keyPackages = keyPackage :: rest := by
        rw [← hk] at hh
        exact ⟨_, (List.eq_cons_of_mem_head? hh)⟩
      have hm : d₁.HasMember isMember pending.conversationId keyPackage := by
        unfold HasMember
        rw [hp.catalog]
        exact hm
      obtain ⟨e, catalog, hx, hg⟩ := addMembers_stuck library hm
      rw [ha, admitPending, hr, hx]
      refine ⟨rfl, ?_⟩
      unfold Waits HasMember at hw ⊢
      simp only [hg]
      exact hw

-- After a batch whose first member reached the disk the route waits.
theorem waits_of_storesFirst {session : MlsSession σ}
    (hb : d.admissionBatch relayTlsPin (.approve now writes) = some (conversationId, keyPackages, d₁))
    (hv : validConversationId conversationId)
    (hs : d₁.catalog.get conversationId = some session)
    (hf : session.StoresFirst services.mls conversationId d₁.store keyPackages) :
    (d.handleAdmission services relayTlsPin (.approve now writes)).Waits isMember := by
  obtain ⟨hn, -⟩ | ⟨pending, d₂, hb', -, hk, hc, hp, ha⟩ :=
    approve_cases services relayTlsPin d now writes
  case inl => cases hb.symm.trans hn
  case inr =>
    cases hb.symm.trans hb'
    obtain ⟨keyPackage, hh, hst⟩ := hf
    obtain ⟨rest, hr⟩ : ∃ rest, pending.keyPackages = keyPackage :: rest :=
      ⟨_, List.eq_cons_of_mem_head? hh⟩
    have hf : session.StoresFirst services.mls pending.conversationId d₁.store
        (keyPackage :: rest) := ⟨keyPackage, rfl, hst⟩
    have hm := (hf.holds library).memory
    -- The daemon after the batch, before anything is cleared.
    have hw (store : DurableStore) : Waits isMember { d₁ with
        catalog := d₁.catalog.insert pending.conversationId (MlsSessionCatalog.addMembers
          services.mls pending.conversationId session d₁.store pending.keyPackages).snd.fst
        store } := by
      refine .inr ⟨keyPackage, pending.conversationId, ?_, ?_, fun session' hg => ?_⟩
      case refine_1 => exact (hp.keyPackages.trans hk.symm).symm ▸ hh
      case refine_2 => exact hp.conversationId.trans hc
      case refine_3 =>
        rw [MlsSessionCatalog.get_insert, if_pos rfl] at hg
        cases hg
        rwa [hr]
    rw [handleAdmission, ha, admitPending, addMembers_of_get hv hs]
    cases (MlsSessionCatalog.addMembers services.mls pending.conversationId session d₁.store
      pending.keyPackages).fst
    case error => exact hw _
    case ok welcomes =>
      dsimp only [Except.mapError]
      rcases writeWelcomes writes 0 welcomes with ⟨_ | _, stored⟩
      case false => exact hw _
      case true  => exact .inl rfl

end Approve

section AddMember

variable {conversationId : String} {keyPackages : List Bytes} {keyPackage : Bytes}

-- The session of the conversation has the member, and so has its checkpoint.
def IsStuck (services : Services σ) (isMember : σ → Bytes → Prop) (conversationId : String)
    (keyPackage : Bytes) (d : Daemon σ) : Prop :=
  d.HasMember isMember conversationId keyPackage ∧
    ∀ bytes state, d.store.durable[MlsSession.key conversationId]? = some bytes →
      services.mls.restore bytes = .ok state → isMember state keyPackage

theorem IsStuck.restart (h : d.IsStuck services isMember conversationId keyPackage)
    (outcomes : List CommitOutcome) :
    ((d.restart services outcomes).getD d).IsStuck services isMember conversationId keyPackage := by
  cases hr : d.restart services outcomes
  case none => exact h
  case some d' =>
    obtain ⟨hs, -, hc⟩ := restart_some hr
    refine ⟨fun session hg => ?_, fun bytes state hb => h.right bytes state ?_⟩
    case refine_1 =>
      obtain ⟨bytes, hb, hm⟩ := MlsSession.restore_ok (hc conversationId session hg)
      refine h.right bytes session.state ?_ hm
      rw [hs] at hb
      simpa [DurableStore.get, EncryptedStore.get, DurableStore.reopened] using hb
    case refine_2 =>
      rw [← hb]
      exact (congrArg (·.durable[MlsSession.key conversationId]?) hs).symm

variable (library : services.mls.AdmitsOnce isMember)

include library

theorem IsStuck.addMembers (h : d.IsStuck services isMember conversationId keyPackage)
    (keyPackages : List Bytes) :
    (∃ e, (d.addMembers services conversationId (keyPackage :: keyPackages)).fst = .error e) ∧
      (d.addMembers services conversationId (keyPackage :: keyPackages)).snd.IsStuck services
        isMember conversationId keyPackage := by
  obtain ⟨e, catalog, hx, hg⟩ := addMembers_stuck library h.left
  rw [hx]
  refine ⟨⟨e, rfl⟩, fun session hs => ?_, h.right⟩
  exact h.left session ((hg conversationId).symm.trans hs)

theorem isStuck_of_storesFirst {session : MlsSession σ} (hv : validConversationId conversationId)
    (hs : d.catalog.get conversationId = some session)
    (hf : session.StoresFirst services.mls conversationId d.store (keyPackage :: keyPackages)) :
    (d.addMembers services conversationId (keyPackage :: keyPackages)).snd.IsStuck services
      isMember conversationId keyPackage := by
  have hh := hf.holds library
  rw [addMembers_of_get hv hs]
  refine ⟨fun session' hg => ?_, hh.durable⟩
  rw [MlsSessionCatalog.get_insert, if_pos rfl] at hg
  cases hg
  exact hh.memory

end AddMember

-- What never delivers anything again delivers no package later.
theorem not_deliversLater {request : AdmissionRequest} {keyPackage : Bytes} {inv : Daemon σ → Prop}
    (keep : ∀ d event, event.Repeats request → inv d →
      inv (d.admissionStep services relayTlsPin event))
    (nothing : ∀ d request', request.Repeats request' → inv d →
      d.delivered services relayTlsPin request' = [])
    (h : inv d) : ¬d.DeliversLater services relayTlsPin request keyPackage := by
  rintro ⟨events, he, request', hr, hm⟩
  have hi : inv (events.foldl (admissionStep services relayTlsPin) d) := by
    induction events generalizing d
    case nil => exact h
    case cons event events hi =>
      obtain ⟨hev, hevs⟩ := List.forall_mem_cons.mp he
      exact hi (keep d event hev h) hevs hm
  rw [nothing _ request' hr hi] at hm
  cases hm

theorem Waits.restart (h : d.Waits isMember) (outcomes : List CommitOutcome) :
    ((d.restart services outcomes).getD d).Waits isMember := by
  cases hr : d.restart services outcomes
  case none    => exact h
  case some d' => exact .inl (restart_some hr).right.left

section

variable {request : AdmissionRequest} {conversationId : String} {keyPackages : List Bytes}
  {d₁ : Daemon σ} {session : MlsSession σ}
  (hb : d.admissionBatch relayTlsPin request = some (conversationId, keyPackages, d₁))
  (hv : validConversationId conversationId) (hs : d₁.catalog.get conversationId = some session)

include hb hv hs

theorem not_deliversLater_of_storesFirst (library : services.mls.AdmitsOnce isMember)
    (hf : session.StoresFirst services.mls conversationId d₁.store keyPackages)
    (keyPackage : Bytes) :
    ¬(d.handleAdmission services relayTlsPin request).DeliversLater services relayTlsPin request
      keyPackage := by
  cases request
  case approve now writes =>
    refine not_deliversLater (fun d event he hw => ?_) (fun d request' hr hw => ?_)
      (waits_of_storesFirst library hb hv hs hf)
    case refine_1 =>
      rcases event with ⟨_ | _⟩ | outcomes
      case request.addMember => cases he
      case request.approve   => exact (hw.approve library).right
      case restart           => exact hw.restart outcomes
    case refine_2 =>
      cases request'
      case addMember => cases hr
      case approve   => simp [delivered, (hw.approve library).left]
  case addMember =>
    cases hb
    obtain ⟨first, hh, hst⟩ := hf
    obtain ⟨rest, rfl⟩ : ∃ rest, keyPackages = first :: rest := ⟨_, List.eq_cons_of_mem_head? hh⟩
    refine not_deliversLater (fun d event he hw => ?_) (fun d request' hr hw => ?_)
      (isStuck_of_storesFirst library hv hs ⟨first, rfl, hst⟩)
    case refine_1 =>
      rcases event with ⟨_ | _⟩ | outcomes
      case request.approve   => cases he
      case request.addMember =>
        obtain ⟨rfl, rfl⟩ := he
        exact (hw.addMembers library rest).right
      case restart           => exact hw.restart outcomes
    case refine_2 =>
      cases request'
      case approve   => cases hr
      case addMember =>
        obtain ⟨rfl, rfl⟩ := hr
        obtain ⟨⟨e, he⟩, -⟩ := hw.addMembers library rest
        simp [delivered, he, Except.isOk, Except.toBool]

-- What the request delivers by itself.
theorem delivered_of_not_admits
    (h : ¬MlsSession.Admits services.mls conversationId session d₁.store keyPackages) :
    d.delivered services relayTlsPin request = [] := by
  obtain ⟨e, he⟩ := MlsSession.addMembers_of_not_admits h
  cases request
  case addMember =>
    cases hb
    simp [delivered, addMembers_of_get hv hs, he, Except.mapError, Except.isOk, Except.toBool]
  case approve now writes =>
    obtain ⟨hn, -⟩ | ⟨pending, d₂, hb', -, -, -, -, ha⟩ :=
      approve_cases services relayTlsPin d now writes
    case inl => cases hb.symm.trans hn
    case inr =>
      cases hb.symm.trans hb'
      rw [delivered, ha, admitPending, addMembers_of_get hv hs, he]
      rfl

theorem delivered_of_admits
    (h : MlsSession.Admits services.mls conversationId session d₁.store keyPackages) :
    ∃ count, d.delivered services relayTlsPin request = keyPackages.take count ∧
      (keyPackages.length ≤ count ↔ Arrives request keyPackages.length) := by
  obtain ⟨welcomes, hw, hl⟩ := MlsSession.addMembers_of_admits h
  cases request
  case addMember =>
    cases hb
    refine ⟨keyPackages.length, ?_, iff_of_true le_rfl trivial⟩
    simp [delivered, addMembers_of_get hv hs, hw, Except.mapError, Except.isOk, Except.toBool]
  case approve now writes =>
    obtain ⟨hn, -⟩ | ⟨pending, d₂, hb', -, hk, -, -, ha⟩ :=
      approve_cases services relayTlsPin d now writes
    case inl => cases hb.symm.trans hn
    case inr =>
      cases hb.symm.trans hb'
      have hle := length_writeWelcomes_le writes 0 welcomes
      have hiff := length_writeWelcomes_iff writes 0 welcomes
      refine ⟨(writeWelcomes writes 0 welcomes).snd.length, ?_, ?_⟩
      case refine_1 =>
        rw [delivered, ha, admitPending, addMembers_of_get hv hs, hw, hk]
        dsimp only [Except.mapError]
        rcases hx : writeWelcomes writes 0 welcomes with ⟨_ | _, stored⟩ <;> rfl
      case refine_2 =>
        rw [Arrives, ← hl, ← hiff]
        omega

end

theorem isRetryable_iff' (library : services.mls.AdmitsOnce isMember) (request : AdmissionRequest) :
    d.IsRetryable services relayTlsPin request ↔ d.IsAllOrNothing services relayTlsPin request := by
  constructor
  case mp =>
    intro h conversationId keyPackages d₁ session hb hv hs hf
    have hd (keyPackage : Bytes) (hk : MlsSession.DurablyAdds services.mls conversationId session
        d₁.store keyPackages keyPackage) : keyPackage ∈ d.delivered services relayTlsPin request :=
      (h keyPackage ⟨conversationId, keyPackages, d₁, session, hb, hv, hs, hk⟩).resolve_right <|
        not_deliversLater_of_storesFirst hb hv hs library hf keyPackage
    by_cases ha : MlsSession.Admits services.mls conversationId session d₁.store keyPackages
    case neg =>
      obtain ⟨first, hh, hst⟩ := hf
      obtain ⟨rest, rfl⟩ : ∃ rest, keyPackages = first :: rest :=
        ⟨_, List.eq_cons_of_mem_head? hh⟩
      have hm := hd first (.here hst)
      rw [delivered_of_not_admits hb hv hs ha] at hm
      cases hm
    case pos =>
      obtain ⟨count, hc, hl⟩ := delivered_of_admits hb hv hs ha
      refine ⟨ha, hl.mp ?_⟩
      have hsub : keyPackages ⊆ keyPackages.take count := fun keyPackage hm =>
        hc ▸ hd keyPackage (ha.durablyAdds hm)
      have hle := ((ha.nodup library).subperm hsub).length_le
      rw [List.length_take] at hle
      omega
  case mpr =>
    rintro h keyPackage ⟨conversationId, keyPackages, d₁, session, hb, hv, hs, hk⟩
    obtain ⟨ha, hr⟩ := h conversationId keyPackages d₁ session hb hv hs hk.storesFirst
    obtain ⟨count, hc, hl⟩ := delivered_of_admits hb hv hs ha
    refine .inl ?_
    rw [hc, List.take_of_length_le (hl.mpr hr)]
    exact hk.mem

-- A batch that fails leaves members behind who never get their welcome, unless it fails before the
-- first of them is stored.
theorem isRetryable_iff (services : Services σ) (isMember : σ → Bytes → Prop)
    (library : services.mls.AdmitsOnce isMember) (relayTlsPin : Option (ByteBlock 32))
    (d : Daemon σ) (request : AdmissionRequest) :
    d.IsRetryable services relayTlsPin request ↔ d.IsAllOrNothing services relayTlsPin request :=
  isRetryable_iff' library request

-- Groups of members that are known by one byte. Other packages are not valid.
def byteMls : Mls (List UInt8) where
  new                := fun _ => .ok []
  createGroup        := fun members => .ok members
  keyPackage         := fun _ => .error .openMls
  addMembers         := fun members keyPackage =>
    match keyPackage with
    | [member] =>
      if member ∈ members then .error .openMls else .ok (([], [member]), members ++ [member])
    | _        => .error .invalidWire
  members            := fun _ => none
  removeMembers      := fun members _ => (none, members)
  mergePendingCommit := fun members => (none, members)
  joinWelcome        := fun _ _ => .error .openMls
  createMessage      := fun _ _ => .error .openMls
  process            := fun _ _ => .error .openMls
  snapshot           := fun members => .ok members
  restore            := fun bytes => .ok bytes

def IsByteMember (members : List UInt8) (keyPackage : Bytes) : Prop :=
  ∃ member ∈ members, keyPackage = [member]

theorem byteMls_addMembers_ok {members members' : List UInt8} {keyPackage : Bytes}
    {output : Bytes × Bytes} (h : byteMls.addMembers members keyPackage = .ok (output, members')) :
    ∃ member, keyPackage = [member] ∧ members' = members ++ [member] := by
  simp only [byteMls] at h
  split at h
  case h_2 => cases h
  case h_1 member =>
    split at h
    case isTrue => cases h
    case isFalse =>
      cases h
      exact ⟨member, rfl, rfl⟩

theorem byteMls_admitsOnce : byteMls.AdmitsOnce IsByteMember where
  added h := by
    obtain ⟨member, rfl, rfl⟩ := byteMls_addMembers_ok h
    exact ⟨member, by simp, rfl⟩
  kept h hm := by
    obtain ⟨member, rfl, rfl⟩ := byteMls_addMembers_ok h
    obtain ⟨other, ho, rfl⟩ := hm
    exact ⟨other, List.mem_append_left _ ho, rfl⟩
  refused h := by
    obtain ⟨member, hm, rfl⟩ := h
    exact ⟨.openMls, by simp [byteMls, hm]⟩
  restored hs hr hm := by
    cases hs
    cases hr
    exact hm

def byteServices : Services (List UInt8) where
  mls            := byteMls
  sha256         := sampleSha256
  readWire       := fun _ => none
  readMessage    := fun _ => none
  readDescriptor := fun _ => none
  readLedger     := fun _ => none
  readDirectory  := fun _ => none
  readPairing    := fun _ => none

-- A daemon with a group of its own.
def sampleOwner : Daemon (List UInt8) where
  authority := (sample []).authority
  catalog   := MlsSessionCatalog.new.insert "adconv01" ⟨[0], false⟩
  store     := ⟨EncryptedStore.sampleStore, [], []⟩
  ledger    := .empty

-- The second package is not valid, and the first member never gets a welcome.
theorem sampleOwner_not_isRetryable :
    ¬sampleOwner.IsRetryable byteServices none (.addMember "adconv01" [[1], []]) := by
  intro h
  have hf : MlsSession.StoresFirst byteMls "adconv01" ⟨[0], false⟩ sampleOwner.store
      [[1], []] := by
    refine ⟨[1], rfl, [1], ⟨[0, 1], false⟩, rfl, [0, 1], rfl, ?_⟩
    decide
  have he : (MlsSessionCatalog.addMembers byteMls "adconv01" ⟨[0], false⟩ sampleOwner.store
      [[1], []]).fst = .error .invalidWire := by
    decide
  obtain ⟨ha, -⟩ := (isRetryable_iff' byteMls_admitsOnce _).mp h "adconv01" [[1], []] sampleOwner
    ⟨[0], false⟩ rfl (by decide) (by decide) hf
  obtain ⟨welcomes, hw, -⟩ := MlsSession.addMembers_of_admits ha
  cases he.symm.trans hw

theorem sampleOwner_isRetryable_iff :
    byteServices.mls.AdmitsOnce IsByteMember ∧
      (sampleOwner.IsRetryable byteServices none (.addMember "adconv01" [[1], [2]]) ↔
        sampleOwner.IsAllOrNothing byteServices none (.addMember "adconv01" [[1], [2]])) :=
  ⟨byteMls_admitsOnce, isRetryable_iff byteServices IsByteMember byteMls_admitsOnce none sampleOwner
    (.addMember "adconv01" [[1], [2]])⟩

end Daemon
