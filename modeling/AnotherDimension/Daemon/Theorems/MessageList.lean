import AnotherDimension.Daemon.MessageList
import AnotherDimension.Storage.Theorems.Batch
import AnotherDimension.Storage.Theorems.Durable

open Storage

namespace DurableStore

variable {s : DurableStore} {cls : RecordClass} {key start : String}

theorem mem_entriesWithPrefix {bytes : Bytes} : (key, bytes) ∈ s.entriesWithPrefix cls start ↔
    start.toList.isPrefixOf key.toList ∧ s.get cls key = some bytes := by
  unfold entriesWithPrefix get EncryptedStore.get
  split
  case isTrue => simp
  case isFalse =>
    simp only [List.mem_map, List.mem_filter, Std.ExtTreeMap.mem_toList_iff_getElem?_eq_some,
      Bool.and_eq_true, decide_eq_true_eq, Prod.exists, Prod.mk.injEq]
    constructor
    case mp =>
      rintro ⟨cls', key', value, ⟨hr, rfl, hp⟩, rfl, rfl⟩
      exact ⟨hp, hr⟩
    case mpr =>
      rintro ⟨hp, hr⟩
      exact ⟨cls, key, bytes, ⟨hr, rfl, hp⟩, rfl, rfl⟩

theorem recordsWithPrefix_eq_take (s : DurableStore) (cls : RecordClass) (start : String) :
    s.recordsWithPrefix cls start = (s.entriesWithPrefix cls start).take maxRecords := by
  unfold recordsWithPrefix entriesWithPrefix
  split <;> rfl

theorem nodup_entriesWithPrefix (s : DurableStore) (cls : RecordClass) (start : String) :
    ((s.entriesWithPrefix cls start).map Prod.fst).Nodup := by
  unfold entriesWithPrefix
  split
  case isTrue => exact List.nodup_nil
  case isFalse =>
    have hd : s.records.toList.Pairwise _ := Std.ExtTreeMap.distinct_keys_toList
    rw [List.map_map, List.Nodup, List.pairwise_map, List.pairwise_filter]
    refine hd.imp fun {e₁ e₂} hne h₁ h₂ he => hne ?_
    simp only [Bool.and_eq_true, decide_eq_true_eq] at h₁ h₂
    have hk : e₁.fst = e₂.fst := Prod.ext (h₁.left.trans h₂.left.symm) he
    rw [hk]
    exact Std.ReflCmp.compare_self

-- A deleted record leaves the list, and nothing else does.
theorem entriesWithPrefix_delete (s : DurableStore) (cls : RecordClass) (key start : String) :
    (s.delete cls key).snd.entriesWithPrefix cls start = s.entriesWithPrefix cls start ∨
      (s.delete cls key).snd.entriesWithPrefix cls start =
        (s.entriesWithPrefix cls start).filter (·.fst ≠ key) := by
  rcases hd : s.delete cls key with ⟨_ | found, s'⟩
  case error =>
    have hs := delete_error hd
    exact .inl (by simp only [entriesWithPrefix, records, hs])
  case ok =>
    obtain ⟨hr, _, hl, hl'⟩ := delete_ok hd
    refine .inr ?_
    simp only [entriesWithPrefix, hl, hl', hr, OrderedMap.toList_erase, Bool.false_eq_true,
      if_false, List.filter_map, List.filter_filter]
    congr 1
    refine List.filter_congr fun e _ => ?_
    rw [Bool.eq_iff_iff]
    simp only [ne_eq, decide_not, Bool.and_eq_true, decide_eq_true_eq, Bool.not_eq_true',
      decide_eq_false_iff_not, Function.comp_apply, Prod.ext_iff]
    tauto

end DurableStore

namespace MessageQuery

variable (query : MessageQuery) (read : Bytes → Option StoredMessage)

def entries (store : DurableStore) : List (String × Bytes) :=
  store.entriesWithPrefix .message messagePrefix

def page (store : DurableStore) (offset : Nat) : List (String × Bytes) :=
  ((entries store).drop offset).take query.pageLimit

-- A message of the conversation that is not expired.
def visible (entry : String × Bytes) : Option StoredMessage :=
  (read entry.snd).filter fun message =>
    message.conversationId = query.conversationId && !message.isExpired query.now

def visibleIn (entries : List (String × Bytes)) : List StoredMessage :=
  entries.filterMap (query.visible read)

def isExpiredEntry (entry : String × Bytes) : Bool :=
  (read entry.snd).any fun message =>
    message.conversationId = query.conversationId && message.isExpired query.now

-- The store without the expired messages of the conversation that are among the entries.
def purge (store : DurableStore) (entries : List (String × Bytes)) : DurableStore :=
  entries.foldl (fun store entry =>
    if query.isExpiredEntry read entry then (store.delete .message entry.fst).snd else store) store

def Readable (entries : List (String × Bytes)) : Prop :=
  ∀ entry ∈ entries, (read entry.snd).isSome

-- The entries that follow a page and that move to its place when its expired messages go.
def movedUp (store : DurableStore) (offset : Nat) : List (String × Bytes) :=
  ((entries store).drop (offset + query.pageLimit)).take
    ((entries store).length - (entries (query.purge read store (query.page store offset))).length)

-- Every page is readable, and no visible message moves to a place before the next page.
inductive NoneLost : DurableStore → (offset : Nat) → Prop
  | last {store offset} (readable : Readable read (query.page store offset))
      (fits : (entries store).length ≤ offset + query.pageLimit) : NoneLost store offset
  | more {store offset} (readable : Readable read (query.page store offset))
      (truncated : offset + query.pageLimit < (entries store).length)
      (moved : ∀ entry ∈ query.movedUp read store offset, query.visible read entry = none)
      (rest : NoneLost (query.purge read store (query.page store offset))
        (offset + query.pageLimit)) : NoneLost store offset

-- A client that starts at the beginning and follows the pages gets every visible message, each of
-- them once, and comes to an end.
def ListsAll (store : DurableStore) : Prop :=
  ∃ requests,
    query.follow read requests store 0 = some (.ok (query.visibleIn read (entries store)))

section

variable {query read} {store : DurableStore} {offset requests : Nat} {es : List (String × Bytes)}

theorem visibleIn_cons (e : String × Bytes) :
    query.visibleIn read (e :: es) = (query.visible read e).toList ++ query.visibleIn read es := by
  cases h : query.visible read e <;> simp [visibleIn, h]

theorem visibleIn_append (es₁ es₂ : List (String × Bytes)) :
    query.visibleIn read (es₁ ++ es₂) = query.visibleIn read es₁ ++ query.visibleIn read es₂ :=
  List.filterMap_append

theorem purge_cons (e : String × Bytes) :
    query.purge read store (e :: es) = query.purge read
      (if query.isExpiredEntry read e then (store.delete .message e.fst).snd else store) es :=
  rfl

theorem collect_eq (h : Readable read es) :
    query.collect read store es = (.ok (query.visibleIn read es), query.purge read store es) := by
  induction es generalizing store
  case nil => rfl
  case cons e es hi =>
    obtain ⟨he, hes⟩ := List.forall_mem_cons.mp h
    obtain ⟨message, hm⟩ := Option.isSome_iff_exists.mp he
    have hv : query.visible read e = if message.conversationId = query.conversationId ∧
        message.isExpired query.now = false then some message else none := by
      simp [visible, hm, Option.filter_some]
    have hx : query.isExpiredEntry read e = (message.conversationId = query.conversationId &&
        message.isExpired query.now) := by
      simp [isExpiredEntry, hm]
    rw [collect, visibleIn_cons, purge_cons, hv, hx, hm]
    by_cases hc : message.conversationId = query.conversationId
    case neg => simpa [hc] using hi hes
    case pos =>
      cases hx : message.isExpired query.now
      case true  => simpa [hc, hx] using hi hes
      case false => simp [hc, hx, hi hes, Except.map]

theorem collect_unreadable (h : ¬Readable read es) :
    ∃ reply, (query.collect read store es).fst = .error reply := by
  induction es generalizing store
  case nil => exact absurd (by simp [Readable]) h
  case cons e es hi =>
    unfold collect
    cases hm : read e.snd
    case none => exact ⟨_, rfl⟩
    case some message =>
      have hes : ¬Readable read es := by
        intro hr
        exact h <| List.forall_mem_cons.mpr ⟨by simp [hm], hr⟩
      dsimp only
      split
      case isTrue => exact hi hes
      case isFalse =>
        split
        case isTrue => exact hi hes
        case isFalse =>
          obtain ⟨reply, hr⟩ := @hi store hes
          exact ⟨reply, by simp [hr, Except.map]⟩

-- The entries around a page stay where they are relative to each other.
theorem entries_purge {before after : List (String × Bytes)}
    (h : entries store = before ++ es ++ after) :
    ∃ kept, kept.Sublist es ∧
      entries (query.purge read store es) = before ++ kept ++ after := by
  induction es generalizing store before
  case nil => exact ⟨[], .slnil, h⟩
  case cons e es hi =>
    -- A record that stays in the store joins the entries before the rest of the page.
    have stays {store' : DurableStore} (hs : entries store' = entries store) :
        ∃ kept, kept.Sublist (e :: es) ∧
          entries (query.purge read store' es) = before ++ kept ++ after := by
      have hs : entries store' = before ++ [e] ++ es ++ after := by simp [hs, h]
      obtain ⟨kept, hk, he⟩ := hi hs
      exact ⟨e :: kept, hk.cons_cons e, by simp [he]⟩
    rw [purge_cons]
    split
    case isFalse => exact stays rfl
    case isTrue =>
      obtain hs | hs := store.entriesWithPrefix_delete .message e.fst messagePrefix
      case inl => exact stays hs
      case inr =>
        have hn := store.nodup_entriesWithPrefix .message messagePrefix
        rw [← entries, h, List.append_assoc, List.cons_append] at hn
        have hs : entries (store.delete .message e.fst).snd = before ++ es ++ after := by
          rw [entries, hs, ← entries, h, List.append_assoc, List.cons_append,
            OrderedMap.filter_fst_ne hn, List.append_assoc]
        obtain ⟨kept, hk, he⟩ := hi hs
        exact ⟨kept, hk.cons e, he⟩

theorem entries_eq_page (query : MessageQuery) (store : DurableStore) (offset : Nat) :
    entries store = (entries store).take offset ++ query.page store offset ++
      (entries store).drop (offset + query.pageLimit) := by
  rw [page, List.append_assoc, ← List.drop_drop, List.take_append_drop, List.take_append_drop]

theorem drop_entries_purge (h : offset + query.pageLimit ≤ (entries store).length) :
    (entries store).drop (offset + query.pageLimit) = query.movedUp read store offset ++
      (entries (query.purge read store (query.page store offset))).drop
        (offset + query.pageLimit) := by
  obtain ⟨kept, hk, he⟩ := @entries_purge query read _ _ _ _ (query.entries_eq_page store offset)
  have hn : ((entries store).take offset ++ kept).length ≤ offset + query.pageLimit := by
    have hl := hk.length_le
    rw [page, List.length_take] at hl
    rw [List.length_append, List.length_take]
    omega
  have hm : (entries store).length - ((entries store).take offset ++ kept ++
      (entries store).drop (offset + query.pageLimit)).length =
        offset + query.pageLimit - ((entries store).take offset ++ kept).length := by
    rw [List.length_append, List.length_drop]
    omega
  rw [movedUp, he, hm, List.drop_append, List.drop_of_length_le hn, List.nil_append,
    List.take_append_drop]

theorem visibleIn_drop (h : offset + query.pageLimit ≤ (entries store).length) :
    query.visibleIn read ((entries store).drop offset) =
      query.visibleIn read (query.page store offset) ++
        (query.visibleIn read (query.movedUp read store offset) ++
          query.visibleIn read ((entries (query.purge read store (query.page store offset))).drop
            (offset + query.pageLimit))) := by
  rw [← visibleIn_append, ← drop_entries_purge h, ← visibleIn_append, page, ← List.drop_drop,
    List.take_append_drop]

theorem take_recordsWithPrefixPage (query : MessageQuery) (store : DurableStore) (offset : Nat) :
    (store.recordsWithPrefixPage .message messagePrefix offset (query.pageLimit + 1)).take
      query.pageLimit = query.page store offset := by
  rw [DurableStore.recordsWithPrefixPage, List.take_take, Nat.min_eq_left (Nat.le_succ _)]
  rfl

theorem length_recordsWithPrefixPage :
    (store.recordsWithPrefixPage .message messagePrefix offset (query.pageLimit + 1)).length >
      query.pageLimit ↔ offset + query.pageLimit < (entries store).length := by
  rw [DurableStore.recordsWithPrefixPage, List.length_take, List.length_drop, ← entries]
  omega

section

variable (hr : Readable read (query.page store offset))

include hr

theorem listMessages_eq :
    query.listMessages read store offset =
      (.ok { messages   := query.visibleIn read (query.page store offset)
             nextOffset := if offset + query.pageLimit < (entries store).length then
               some (offset + query.pageLimit) else none },
        query.purge read store (query.page store offset)) := by
  simp only [listMessages, take_recordsWithPrefixPage, length_recordsWithPrefixPage, collect_eq hr]
  rfl

theorem follow_last (h : (entries store).length ≤ offset + query.pageLimit) :
    query.follow read (requests + 1) store offset =
      some (.ok (query.visibleIn read (query.page store offset))) := by
  rw [follow, listMessages_eq hr]
  simp only [Nat.not_lt.mpr h, if_false]

theorem follow_more (h : offset + query.pageLimit < (entries store).length) :
    query.follow read (requests + 1) store offset =
      (query.follow read requests (query.purge read store (query.page store offset))
        (offset + query.pageLimit)).map
          (·.map (query.visibleIn read (query.page store offset) ++ ·)) := by
  rw [follow, listMessages_eq hr]
  simp only [h, if_true]

end

theorem follow_unreadable (hr : ¬Readable read (query.page store offset)) :
    ∃ reply, query.follow read (requests + 1) store offset = some (.error reply) := by
  obtain ⟨reply, h⟩ := @collect_unreadable query read store _ hr
  rcases hc : query.collect read store (query.page store offset) with ⟨result, store'⟩
  rw [hc] at h
  dsimp only at h
  exact ⟨reply, by simp only [follow, listMessages, take_recordsWithPrefixPage, hc, h, Except.map]⟩

-- What a client that got an answer saw: a last page, or a page and the answer to what follows it.
theorem follow_ok {messages : List StoredMessage}
    (h : query.follow read (requests + 1) store offset = some (.ok messages)) :
    Readable read (query.page store offset) ∧
      ((entries store).length ≤ offset + query.pageLimit ∧
        messages = query.visibleIn read (query.page store offset) ∨
      offset + query.pageLimit < (entries store).length ∧ ∃ rest,
        query.follow read requests (query.purge read store (query.page store offset))
          (offset + query.pageLimit) = some (.ok rest) ∧
        messages = query.visibleIn read (query.page store offset) ++ rest) := by
  by_cases hr : Readable read (query.page store offset)
  case neg =>
    obtain ⟨reply, hf⟩ := @follow_unreadable query read store offset requests hr
    cases hf.symm.trans h
  case pos =>
    refine ⟨hr, ?_⟩
    cases Nat.lt_or_ge (offset + query.pageLimit) (entries store).length
    case inl hl =>
      rw [follow_more hr hl, Option.map_eq_some_iff] at h
      obtain ⟨result, hn, hm⟩ := h
      cases result
      case error => cases hm
      case ok rest =>
        cases hm
        exact .inr ⟨hl, rest, hn, rfl⟩
    case inr hl =>
      rw [follow_last hr hl] at h
      cases h
      exact .inl ⟨hl, rfl⟩

-- A client never sees a message that is not there, one twice, or messages in another order.
theorem follow_sublist {messages : List StoredMessage}
    (h : query.follow read requests store offset = some (.ok messages)) :
    messages.Sublist (query.visibleIn read ((entries store).drop offset)) := by
  induction requests generalizing store offset messages
  case zero => cases h
  case succ requests hi =>
    obtain ⟨_, ⟨_, rfl⟩ | ⟨hl, rest, hn, rfl⟩⟩ := follow_ok h
    case inl => exact (List.take_sublist _ _).filterMap _
    case inr =>
      rw [visibleIn_drop hl.le]
      exact (List.Sublist.refl _).append <| (hi hn).trans <| List.sublist_append_right _ _

theorem visibleIn_page (h : (entries store).length ≤ offset + query.pageLimit) :
    query.visibleIn read (query.page store offset) =
      query.visibleIn read ((entries store).drop offset) := by
  rw [page, List.take_of_length_le]
  rw [List.length_drop]
  omega

theorem visibleIn_eq_nil : query.visibleIn read es = [] ↔ ∀ e ∈ es, query.visible read e = none :=
  List.filterMap_eq_nil_iff

theorem noneLost_of_follow
    (h : query.follow read requests store offset =
      some (.ok (query.visibleIn read ((entries store).drop offset)))) :
    query.NoneLost read store offset := by
  induction requests generalizing store offset
  case zero => cases h
  case succ requests hi =>
    obtain ⟨hr, ⟨hl, _⟩ | ⟨hl, rest, hn, he⟩⟩ := follow_ok h
    case inl => exact .last hr hl
    case inr =>
      -- What the client sees after this page is too short if a visible message moved up.
      have hs := follow_sublist hn
      rw [visibleIn_drop hl.le, List.append_cancel_left_eq] at he
      have hm : query.visibleIn read (query.movedUp read store offset) = [] := by
        have hlen := hs.length_le
        rw [← he, List.length_append] at hlen
        exact List.length_eq_zero_iff.mp (by omega)
      rw [hm, List.nil_append] at he
      exact .more hr hl (visibleIn_eq_nil.mp hm) (hi (he ▸ hn))

theorem follow_of_noneLost (h : query.NoneLost read store offset) :
    ∃ requests, query.follow read requests store offset =
      some (.ok (query.visibleIn read ((entries store).drop offset))) := by
  induction h
  case last hr hl => exact ⟨1, by rw [follow_last hr hl, visibleIn_page hl]⟩
  case more hr hl hm _ hi =>
    obtain ⟨requests, hf⟩ := hi
    refine ⟨requests + 1, ?_⟩
    rw [follow_more hr hl, hf, visibleIn_drop hl.le, visibleIn_eq_nil.mpr hm]
    rfl

theorem length_entries_purge (query : MessageQuery) (read : Bytes → Option StoredMessage)
    (store : DurableStore) (offset : Nat) :
    (entries (query.purge read store (query.page store offset))).length ≤
      (entries store).length := by
  obtain ⟨kept, hk, he⟩ := @entries_purge query read _ _ _ _ (query.entries_eq_page store offset)
  have hs := congrArg List.length (query.entries_eq_page store offset)
  have hl := hk.length_le
  rw [List.length_append, List.length_append] at hs
  rw [he, List.length_append, List.length_append]
  omega

theorem pageLimit_pos (query : MessageQuery) : 0 < query.pageLimit :=
  Nat.lt_of_lt_of_le Nat.one_pos (Nat.le_max_left _ _)

-- A client always comes to an end: every page leaves fewer entries to ask for.
theorem follow_isSome (h : (entries store).length ≤ offset + requests) :
    (query.follow read (requests + 1) store offset).isSome := by
  have hp := query.pageLimit_pos
  induction requests generalizing store offset
  case zero =>
    by_cases hr : Readable read (query.page store offset)
    case neg =>
      obtain ⟨reply, hf⟩ := @follow_unreadable query read store offset 0 hr
      rw [hf, Option.isSome_some]
    case pos => rw [follow_last hr (by omega), Option.isSome_some]
  case succ requests hi =>
    by_cases hr : Readable read (query.page store offset)
    case neg =>
      obtain ⟨reply, hf⟩ := @follow_unreadable query read store offset (requests + 1) hr
      rw [hf, Option.isSome_some]
    case pos =>
      cases Nat.lt_or_ge (offset + query.pageLimit) (entries store).length
      case inl hl =>
        have hle := query.length_entries_purge read store offset
        rw [follow_more hr hl, Option.isSome_map]
        exact hi (by omega)
      case inr hl => rw [follow_last hr hl, Option.isSome_some]

end

-- A client that starts at the beginning gets all of the conversation exactly when no message moves
-- to a place that the client has already passed.
theorem listsAll_iff (query : MessageQuery) (read : Bytes → Option StoredMessage)
    (store : DurableStore) : query.ListsAll read store ↔ query.NoneLost read store 0 where
  mp h := by
    obtain ⟨requests, h⟩ := h
    exact noneLost_of_follow h
  mpr h := follow_of_noneLost h

-- An expired message, and one that does not expire, in the order of their keys.

def sampleExpired : StoredMessage where
  conversationId := "adconv01"
  messageId      := "0f0f0f0f0f0f0f0f0f0f0f0f0f0f0f0f"
  direction      := "incoming"
  createdAt      := 1700000000
  expiresAt      := 1700000060
  text           := "hello"

def sampleMessage : StoredMessage where
  conversationId := "adconv01"
  messageId      := "2d2d2d2d2d2d2d2d2d2d2d2d2d2d2d2d"
  direction      := "incoming"
  createdAt      := 1700000030
  expiresAt      := 0
  text           := "still there"

def sampleRecords : Records :=
  (∅ : Records)
    |>.insert (.message,
      "messages/07df01118a02dc5ad978fab6c949019eff434d680127e0189e206a285b9a9f79")
      sampleExpired.encoded
    |>.insert (.message,
      "messages/15393686ea94ccc5f2a25ff0750833ef7f3e9af5601f5254adc178e5d9b98c57")
      sampleMessage.encoded

def sampleStore : DurableStore where
  store     := { EncryptedStore.sampleStore with records := sampleRecords }
  revisions := [sampleRecords]
  outcomes  := []

def sampleRead (bytes : Bytes) : Option StoredMessage :=
  [sampleExpired, sampleMessage].find? (·.encoded = bytes)

def sampleQuery : MessageQuery where
  conversationId := "adconv01"
  limit          := some 1
  now            := 1700000100

-- The second request starts after the message that the first one moved to the front.
theorem sampleStore_not_listsAll : ¬sampleQuery.ListsAll sampleRead sampleStore := by
  rintro ⟨requests, h⟩
  let key := "messages/15393686ea94ccc5f2a25ff0750833ef7f3e9af5601f5254adc178e5d9b98c57"
  obtain ⟨hl, hv, hm⟩ : ¬(entries sampleStore).length ≤ 0 + sampleQuery.pageLimit ∧
      sampleQuery.movedUp sampleRead sampleStore 0 = [(key, sampleMessage.encoded)] ∧
      sampleQuery.visible sampleRead (key, sampleMessage.encoded) ≠ none := by
    decide +kernel
  cases noneLost_of_follow h
  case last hf => exact hl hf
  case more hn _ =>
    rw [hv, List.forall_mem_singleton] at hn
    exact hm hn

end MessageQuery
