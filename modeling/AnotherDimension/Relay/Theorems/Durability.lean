import AnotherDimension.Relay.Theorems.Inbox

-- How far the files follow the memory when a write can fail.

namespace Relay

variable {services : Services} {call : Call} {s : State} {request : Request} {r : Reply × State}
  {event : Event} {items : List Item} {invites saved : List Invite}

-- What a successful reply says of the lists in the files.
def Described (services : Services) (s : State) (call : Call) (request : Request) (reply : Reply)
    (items : List Item) (invites : List Invite) : Prop :=
  match request with
  | .postInbox _ _ body =>
    ∃ envelope, postedEnvelope services body = some envelope ∧
      ∃ item ∈ items, item.id = State.envelopeId services envelope
  | .getInbox _ _       => reply = State.inboxReply items
  | .ackInbox _ _ body  => ∀ item ∈ items, item.id ∉ acknowledgedIds services body
  | .createInvite body  =>
    ∃ code record, reply = createdReply code record ∧ record ∈ invites ∧
      record.codeHash = codeHash services code ∧ postedInvite services body = some record.invite
  | .consumeInvite body =>
    ∃ code record, reply = consumedReply services s.origin code record call.now ∧
      record.consume call.now ∈ invites ∧
      requestedHash services body = some (codeHash services code) ∧
      record.codeHash = codeHash services code
  | .pairing body       =>
    ∃ record ∈ invites, requestedHash services body = some record.codeHash ∧
      (reply = State.responsesReply record.pairingResponses ∨
        reply = respondedReply ∧
          postedResponse services body = record.pairingResponses.getLast?)
  | .blob _ _ _         => True

-- A successful reply describes what the files hold, and a request that could not be stored has
-- changed nothing.
def Durable (services : Services) (s : State) : Event → Prop
  | .restart _            => True
  | .request call request =>
    let (reply, s') := s.handle services call request
    (200 ≤ reply.status → reply.status < 300 → ∃ items invites,
      loadStore services.readItems s'.inboxFile = .ok items ∧
      loadInvites services.readInvites s'.inviteFile = .ok invites ∧
      Described services s call request reply items invites) ∧
    (reply = .storageError → s'.items = s.items ∧ s'.invites = s.invites)

-- A write fails only where there is nothing new to write.
def StoredOrUnchanged (services : Services) (s : State) : Event → Prop
  | .restart _            => True
  | .request call request => call.stored ∨
    match request with
    | .getInbox _ _      => ∀ item ∈ s.items, call.now.saturatingSub ttlSeconds ≤ item.receivedAt
    | .ackInbox _ _ body => ∀ item ∈ s.items, item.id ∉ acknowledgedIds services body
    | .blob _ _ _        => True
    | _                  => False

-- What `serde_json` wrote of the two lists it reads again.
def State.Reads (services : Services) (s : State) : Prop :=
  services.readItems (itemsFile s.items) = some s.items ∧
  services.readInvites (invitesFile s.invites) = some s.invites

def Invite.loads (invite : Invite) : Prop :=
  invite.invite.utf8ByteSize ≤ 96 * 1024

-- The inbox is the one in its file; the invites are those in theirs, but for some that expired.
structure State.IsStored (services : Services) (s : State) : Prop where
  itemsFit   : s.items.length ≤ maxInboxItems
  itemsLoad  : ∀ item ∈ s.items, item.loads
  items      : loadStore services.readItems s.inboxFile = .ok s.items
  invitesFit : s.invites.length ≤ maxInvites
  invites    : ∃ saved, loadInvites services.readInvites s.inviteFile = .ok saved ∧
    s.invites.Sublist saved ∧ saved.length ≤ maxInvites ∧ ∀ invite ∈ saved, invite.loads

theorem loadStore_itemsFile (hf : items.length ≤ maxInboxItems) (hl : ∀ item ∈ items, item.loads)
    (hr : services.readItems (itemsFile items) = some items) :
    loadStore services.readItems (some (itemsFile items)) = .ok items := by
  simp only [loadStore, hr]
  rw [if_neg]
  rintro (h | h)
  case inl => exact Nat.not_lt.mpr hf h
  case inr =>
    obtain ⟨item, hi, hn⟩ := List.any_eq_true.mp h
    simp [hl item hi] at hn

theorem loadInvites_invitesFile (hf : invites.length ≤ maxInvites)
    (hl : ∀ invite ∈ invites, invite.loads)
    (hr : services.readInvites (invitesFile invites) = some invites) :
    loadInvites services.readInvites (some (invitesFile invites)) = .ok invites := by
  simp only [loadInvites, hr]
  rw [if_neg]
  rintro (h | h)
  case inl => exact Nat.not_lt.mpr hf h
  case inr =>
    have ⟨invite, hi, hn⟩ := List.any_eq_true.mp h
    exact Nat.not_lt.mpr (hl invite hi) (by simpa using hn)

namespace State.IsStored

theorem invites_load (h : s.IsStored services) : ∀ invite ∈ s.invites, invite.loads := by
  have ⟨_, _, hs, _, hl⟩ := h.invites
  exact fun invite hi => hl invite <| hs.mem hi

-- Nothing but the window, the blobs and what was dropped from memory differs.
theorem of_sublist (h : s.IsStored services) {invites : List Invite}
    (hs : invites.Sublist s.invites) {s' : State} (hi : s'.items = s.items)
    (hn : s'.invites = invites) (hf : s'.inboxFile = s.inboxFile)
    (hg : s'.inviteFile = s.inviteFile) : s'.IsStored services := by
  have ⟨saved, hl, hsub, hm, hall⟩ := h.invites
  exact {
    itemsFit   := hi ▸ h.itemsFit
    itemsLoad  := hi ▸ h.itemsLoad
    items      := by rw [hf, hi, h.items]
    invitesFit := hn ▸ hs.length_le.trans h.invitesFit
    invites    := ⟨saved, hg ▸ hl, hn ▸ hs.trans hsub, hm, hall⟩ }

theorem same (h : s.IsStored services) {s' : State} (hi : s'.items = s.items)
    (hn : s'.invites = s.invites) (hf : s'.inboxFile = s.inboxFile)
    (hg : s'.inviteFile = s.inviteFile) : s'.IsStored services :=
  h.of_sublist (.refl _) hi hn hf hg

-- A new list of items that was written.
theorem withItems (h : s.IsStored services) (hf : items.length ≤ maxInboxItems)
    (hl : ∀ item ∈ items, item.loads)
    (hr : services.readItems (itemsFile items) = some items) :
    { s with items := items, inboxFile := some (itemsFile items) : State }.IsStored services where
  itemsFit   := hf
  itemsLoad  := hl
  items      := loadStore_itemsFile hf hl hr
  invitesFit := h.invitesFit
  invites    := h.invites

theorem withInvites (h : s.IsStored services) (hf : invites.length ≤ maxInvites)
    (hl : ∀ invite ∈ invites, invite.loads)
    (hr : services.readInvites (invitesFile invites) = some invites) :
    { s with invites := invites, inviteFile := some (invitesFile invites) : State }.IsStored
      services where
  itemsFit   := h.itemsFit
  itemsLoad  := h.itemsLoad
  items      := h.items
  invitesFit := hf
  invites    := ⟨invites, loadInvites_invitesFile hf hl hr, .refl _, hf, hl⟩

theorem post (h : s.IsStored services) {envelope : String} {body : Bytes} {reply : Reply}
    (hb : postedEnvelope services body = some envelope) (hl : s.items.length < maxInboxItems)
    (hs : call.stored) (hr : (State.persist
      { s with items := s.items ++ [⟨State.envelopeId services envelope, envelope, call.now⟩] }
      call reply).snd.Reads services) : (State.persist
      { s with items := s.items ++ [⟨State.envelopeId services envelope, envelope, call.now⟩] }
      call reply).snd.IsStored services := by
  rw [State.persist, if_pos hs] at hr ⊢
  refine h.withItems (by simpa using hl) (List.forall_mem_append.mpr ⟨h.itemsLoad, ?_⟩) hr.left
  simpa using envelopeId_loads hb call.now

-- Dropping items is stored, or there are none to drop.
theorem filter (h : s.IsStored services) {p : Item → Bool} {reply : Reply}
    (hs : call.stored ∨ ∀ item ∈ s.items, p item)
    (hr : (State.persist { s with items := s.items.filter p } call reply).snd.Reads services) :
    (State.persist { s with items := s.items.filter p } call reply).snd.IsStored services := by
  by_cases hc : call.stored
  case pos =>
    rw [State.persist, if_pos hc] at hr ⊢
    exact h.withItems ((List.length_filter_le ..).trans h.itemsFit)
      (fun item hi => h.itemsLoad item <| List.mem_of_mem_filter hi) hr.left
  case neg =>
    rw [State.persist, if_neg hc]
    exact h.same (List.filter_eq_self.mpr <| hs.resolve_left hc) rfl rfl rfl

theorem changeInvites (h : s.IsStored services) {reply : Reply} (hf : invites.length ≤ maxInvites)
    (hl : ∀ invite ∈ invites, invite.loads) (hs : call.stored)
    (hr : (State.persistInvites { s with invites := invites } call reply).snd.Reads services) :
    (State.persistInvites { s with invites := invites } call reply).snd.IsStored services := by
  rw [State.persistInvites, if_pos hs] at hr ⊢
  exact h.withInvites hf hl hr.right

theorem update (h : s.IsStored services) {p : Invite → Bool} {f : Invite → Invite}
    {record : Invite} {reply : Reply} (hf : s.invites.find? p = some record)
    (hl : (f record).invite = record.invite) (hs : call.stored)
    (hr : (State.persistInvites { s with invites := updateFirst p f s.invites }
      call reply).snd.Reads services) :
    (State.persistInvites { s with invites := updateFirst p f s.invites }
      call reply).snd.IsStored services := by
  refine h.changeInvites ?_ (forall_mem_updateFirst hf h.invites_load ?_) hs hr
  case refine_1 => exact (length_updateFirst ..).trans_le h.invitesFit
  case refine_2 =>
    rw [Invite.loads, hl]
    exact h.invites_load record <| List.mem_of_find?_eq_some hf

theorem effect (he : Effect services call request s r) (h : s.IsStored services)
    (hc : StoredOrUnchanged services s (.request call request)) (hr : r.snd.Reads services) :
    r.snd.IsStored services := by
  cases he
  case post hb _ _ hl     => exact h.post hb hl (hc.resolve_right id) hr
  case get                =>
    exact h.filter (hc.imp_right fun hc item hi => decide_eq_true <| hc item hi) hr
  case ack hi             =>
    subst hi
    exact h.filter (hc.imp_right fun hc item hi => by simpa using hc item hi) hr
  case createFull         => exact h.of_sublist List.filter_sublist rfl rfl rfl rfl
  case create hb _ hl hm hi =>
    refine h.changeInvites (by simpa using hl) (List.forall_mem_append.mpr ⟨?_, ?_⟩)
      (hc.resolve_right id) hr
    case refine_1 =>
      exact fun invite hm => h.invites_load invite <| List.mem_of_mem_filter (hi ▸ hm)
    case refine_2 => exact List.forall_mem_singleton.mpr hm
  case consume hf         => exact h.update hf rfl (hc.resolve_right id) hr
  case respond hf         => exact h.update hf rfl (hc.resolve_right id) hr
  case blob               => exact h.same rfl rfl rfl rfl
  all_goals exact h

end State.IsStored

-- A successful reply from lists that are stored.
theorem State.IsStored.described {s' : State} {reply : Reply} (h : s'.IsStored services)
    (hn : reply ≠ .storageError)
    (hd : ∀ invites, (∀ invite ∈ s'.invites, invite ∈ invites) →
      Described services s call request reply s'.items invites) :
    (200 ≤ reply.status → reply.status < 300 → ∃ items invites,
      loadStore services.readItems s'.inboxFile = .ok items ∧
      loadInvites services.readInvites s'.inviteFile = .ok invites ∧
      Described services s call request reply items invites) ∧
    (reply = .storageError → s'.items = s.items ∧ s'.invites = s.invites) := by
  have ⟨saved, hl, hs, _⟩ := h.invites
  exact ⟨fun _ _ => ⟨_, saved, h.items, hl, hd saved fun _ => hs.mem⟩, fun he => absurd he hn⟩

theorem Effect.durable (he : Effect services call request s r)
    (hc : StoredOrUnchanged services s (.request call request)) (hr : r.snd.IsStored services) :
    (200 ≤ r.fst.status → r.fst.status < 300 → ∃ items invites,
      loadStore services.readItems r.snd.inboxFile = .ok items ∧
      loadInvites services.readInvites r.snd.inviteFile = .ok invites ∧
      Described services s call request r.fst items invites) ∧
    (r.fst = .storageError → r.snd.items = s.items ∧ r.snd.invites = s.invites) := by
  cases he
  case refused hs hn => exact ⟨fun _ hl => absurd hs (Nat.not_le.mpr <| hl.trans (by decide)),
    fun he => absurd (congrArg Reply.status he) hn⟩
  case noRandom => exact ⟨fun _ hl => absurd hl (show ¬500 < 300 by decide), fun _ => ⟨rfl, rfl⟩⟩
  case duplicate hb _ hd => exact hr.described (by rintro ⟨⟩) fun _ _ => ⟨_, hb, hd⟩
  case post hb _ _ _ =>
    rw [State.persist, if_pos (hc.resolve_right id)] at hr ⊢
    exact hr.described (by rintro ⟨⟩) fun _ _ =>
      ⟨_, hb, _, List.mem_append_right _ (List.mem_singleton_self _), rfl⟩
  case get =>
    by_cases hs : call.stored
    case pos =>
      rw [State.persist, if_pos hs] at hr ⊢
      exact hr.described (by rintro ⟨⟩) fun _ _ => rfl
    case neg =>
      rw [State.persist, if_neg hs]
      have hu := hc.resolve_left hs
      exact ⟨fun _ hl => absurd hl (show ¬500 < 300 by decide), fun _ =>
        ⟨List.filter_eq_self.mpr fun item hi => decide_eq_true <| hu item hi, rfl⟩⟩
  case ack hi =>
    by_cases hs : call.stored
    case pos =>
      rw [State.persist, if_pos hs] at hr ⊢
      refine hr.described (by rintro ⟨⟩) fun _ _ item hm => ?_
      have hf : item ∈ s.items.filter _ := hi ▸ hm
      simpa using (List.mem_filter.mp hf).right
    case neg =>
      rw [State.persist, if_neg hs]
      have hu := hc.resolve_left hs
      exact ⟨fun _ hl => absurd hl (show ¬500 < 300 by decide), fun _ =>
        ⟨hi.trans <| List.filter_eq_self.mpr fun item hm => by simpa using hu item hm, rfl⟩⟩
  case createFull => exact ⟨fun _ hl => absurd hl (show ¬429 < 300 by decide), by rintro ⟨⟩⟩
  case create _ hb _ _ _ =>
    rw [State.persistInvites, if_pos (hc.resolve_right id)] at hr ⊢
    exact hr.described (by rintro ⟨⟩) fun _ hm =>
      ⟨_, _, rfl, hm _ <| List.mem_append_right _ (List.mem_singleton_self _), rfl, hb⟩
  case consume hh hf =>
    rw [State.persistInvites, if_pos (hc.resolve_right id)] at hr ⊢
    have ho := List.find?_some hf
    simp only [Invite.isOpen, Bool.and_eq_true, decide_eq_true_eq] at ho
    exact hr.described (by rintro ⟨⟩) fun _ hm =>
      ⟨_, _, rfl, hm _ <| mem_updateFirst hf _, hh, ho.left.left⟩
  case read hh hf =>
    have ho := List.find?_some hf
    simp only [Invite.isConsumed, Bool.and_eq_true, decide_eq_true_eq] at ho
    exact hr.described (by rintro ⟨⟩) fun _ hm =>
      ⟨_, hm _ <| List.mem_of_find?_eq_some hf, ho.left.left ▸ hh, .inl rfl⟩
  case respond hh hb _ _ hf =>
    rw [State.persistInvites, if_pos (hc.resolve_right id)] at hr ⊢
    have ho := List.find?_some hf
    simp only [Invite.isConsumed, Bool.and_eq_true, decide_eq_true_eq] at ho
    refine hr.described (by rintro ⟨⟩) fun _ hm =>
      ⟨_, hm _ <| mem_updateFirst hf _, ho.left.left ▸ hh, .inr ⟨rfl, ?_⟩⟩
    rw [Invite.respond, List.getLast?_append, List.getLast?_singleton, hb]
    rfl
  case blob =>
    obtain ⟨saved, hl, _⟩ := hr.invites
    exact ⟨fun _ _ => ⟨_, saved, hr.items, hl, trivial⟩, fun _ => ⟨rfl, rfl⟩⟩

theorem State.IsStored.restart (h : s.IsStored services) (now : UInt64) :
    (s.step services (.restart now)).IsStored services := by
  have ⟨saved, hl, _, hf, hall⟩ := h.invites
  have hs : s.step services (.restart now) =
      { s with invites := saved, window := ⟨now, 0⟩ } := by
    rw [State.step, State.restart, hl, h.items]
    rfl
  rw [hs]
  exact ⟨h.itemsFit, h.itemsLoad, h.items, hf, saved, hl, .refl _, hf, hall⟩

theorem isStored_fresh (capability origin : String) (now : UInt64) :
    (State.fresh capability origin now).IsStored services where
  itemsFit   := Nat.zero_le _
  itemsLoad  := nofun
  items      := rfl
  invitesFit := Nat.zero_le _
  invites    := ⟨[], rfl, .refl _, Nat.zero_le _, nofun⟩

theorem isStored_step (h : s.IsStored services) (hc : StoredOrUnchanged services s event)
    (hr : (s.step services event).Reads services) :
    Durable services s event ∧ (s.step services event).IsStored services := by
  cases event
  case restart now => exact ⟨trivial, h.restart now⟩
  case request call request =>
    have ⟨window, he⟩ := handle_effect services s call request
    have hs : { s with window := window : State }.IsStored services := h.same rfl rfl rfl rfl
    have hn := State.IsStored.effect he hs hc hr
    exact ⟨he.durable hc hn, hn⟩

-- In every run in which a write fails only where there is nothing new to write, every reply can be
-- relied on.
theorem durable_of_storedOrUnchanged (capability origin : String) (now : UInt64)
    (events : List Event)
    (hc : Run.Meets (State.step services) (StoredOrUnchanged services)
      (.fresh capability origin now) events)
    (hr : ∀ s ∈ Run.states (State.step services) (.fresh capability origin now) events,
      s.Reads services) :
    Run.Meets (State.step services) (Durable services) (.fresh capability origin now) events :=
  (hc.and <| .of_forall_next hr).of_invariant (fun _ _ h hc => isStored_step h hc.left hc.right)
    (isStored_fresh capability origin now) |>.left

-- The post whose write fails stays in memory, and when it is sent again it is taken for a duplicate
-- although it is in no file.
def failingCall (now : UInt64) : Call :=
  { sampleCall now with stored := false }

theorem failedPost_not_durable :
    let fresh := State.fresh "inbox" "origin" 0
    let failing := Event.request (failingCall 5) (.postInbox "inbox" (some "inbox") [1])
    let again := Event.request (sampleCall 6) (.postInbox "inbox" (some "inbox") [1])
    ¬Durable sampleServices fresh failing ∧
      ¬Durable sampleServices (fresh.step sampleServices failing) again := by
  constructor
  case left =>
    intro ⟨_, h⟩
    exact absurd (h rfl).left (by decide)
  case right =>
    intro ⟨h, _⟩
    obtain ⟨items, _, hi, _, _, _, item, hm, _⟩ := h (by decide) (by decide)
    cases hi
    cases hm

-- A run in which a write fails while nothing has expired.
def durableEvents : List Event := [
    .request (sampleCall 5) (.postInbox "inbox" (some "inbox") [1]),
    .request (failingCall 6) (.getInbox "inbox" (some "inbox")),
    .restart 7,
    .request (sampleCall 8) (.ackInbox "inbox" (some "inbox") [2])
  ]

theorem durableEvents_lists :
    (Run.states (State.step sampleServices) (.fresh "inbox" "origin" 0) durableEvents).map
      (fun s => (s.items, s.invites.length)) =
        [([], 0), ([sampleItem], 0), ([sampleItem], 0), ([sampleItem], 0), ([], 0)] := by
  decide

theorem durableEvents_durable :
    Run.Meets (State.step sampleServices) (StoredOrUnchanged sampleServices)
      (.fresh "inbox" "origin" 0) durableEvents ∧
    Run.Meets (State.step sampleServices) (Durable sampleServices) (.fresh "inbox" "origin" 0)
      durableEvents := by
  have hc : Run.Meets (State.step sampleServices) (StoredOrUnchanged sampleServices)
      (.fresh "inbox" "origin" 0) durableEvents :=
    ⟨.inl rfl, .inr (by decide), trivial, .inl rfl, trivial⟩
  refine ⟨hc, durable_of_storedOrUnchanged "inbox" "origin" 0 durableEvents hc fun s hs => ?_⟩
  have hl := List.mem_map_of_mem (f := fun s => (s.items, s.invites.length)) hs
  rw [durableEvents_lists] at hl
  have ⟨hi, hn⟩ : s.items ∈ [[], [sampleItem]] ∧ s.invites.length = 0 := by
    simp only [List.mem_cons, Prod.mk.injEq, List.not_mem_nil, or_false] at hl ⊢
    tauto
  refine ⟨sampleServices_reads hi, ?_⟩
  have hr : ([[]].map fun invites => (invitesFile invites).length).Nodup := List.nodup_singleton _
  exact Reader.of_encode hr <| List.mem_singleton.mpr <| List.length_eq_zero_iff.mp hn

end Relay
