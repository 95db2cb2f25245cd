import AnotherDimension.Daemon.Receive

-- The route `messages/list`, which shows the messages of a conversation page by page.

open Storage

namespace DurableStore

variable (s : DurableStore)

-- All that `records_with_prefix_page` cuts its pages from.
def entriesWithPrefix (cls : RecordClass) (start : String) : List (String × Bytes) :=
  if s.store.locked then
    []
  else
    s.records.toList
      |>.filter (fun entry => entry.fst.fst = cls && start.toList.isPrefixOf entry.fst.snd.toList)
      |>.map (fun entry => (entry.fst.snd, entry.snd))

def recordsWithPrefixPage (cls : RecordClass) (start : String) (offset limit : Nat) :
    List (String × Bytes) :=
  ((s.entriesWithPrefix cls start).drop offset).take limit

end DurableStore

structure MessagePage where
  messages   : List StoredMessage
  nextOffset : Option Nat
  deriving DecidableEq, Repr

namespace MessagePage

def messageBody (message : StoredMessage) : String :=
  "\x7b\"message_id\":\"" ++ Daemon.jsonEscape message.messageId ++ "\",\"direction\":\"" ++
    Daemon.jsonEscape message.direction ++ "\",\"created_at\":" ++ Json.number message.createdAt ++
    ",\"expires_at\":" ++ Json.number message.expiresAt ++ ",\"plaintext\":\"" ++
    Bytes.toHex (Bytes.utf8 message.text) ++ "\"\x7d"

def body (page : MessagePage) : String :=
  "\x7b\"messages\":[" ++ ",".intercalate (page.messages.map messageBody) ++ "],\"next_offset\":" ++
    page.nextOffset.elim "null" toString ++ "\x7d"

end MessagePage

-- What all requests of a client that follows the pages have in common, the time included.
structure MessageQuery where
  conversationId : String
  limit          : Option UInt64
  now            : UInt64
  deriving DecidableEq, Repr

namespace MessageQuery

variable (query : MessageQuery) (read : Bytes → Option StoredMessage)

-- Between 1 and 200.
def pageLimit : Nat :=
  max 1 (min 200 (query.limit.getD 200).toNat)

-- The loop over a page. `read` is what `serde_json` reads. That an expired message could not be
-- deleted is not noticed.
def collect : DurableStore → List (String × Bytes) →
    Except HttpReply (List StoredMessage) × DurableStore
  | store, []                      => (.ok [], store)
  | store, (key, bytes) :: entries =>
    match read bytes with
    | none         => (.error ⟨503, "message_storage_corrupt"⟩, store)
    | some message =>
      if message.conversationId ≠ query.conversationId then
        collect store entries
      else if message.isExpired query.now then
        collect (store.delete .message key).snd entries
      else
        let (result, store) := collect store entries
        (result.map (message :: ·), store)

def messagePrefix : String := "messages/"

-- The reply of a request that was let in, with the page its body is made of.
def listMessages (store : DurableStore) (offset : Nat) :
    Except HttpReply MessagePage × DurableStore :=
  let page := store.recordsWithPrefixPage .message messagePrefix offset (query.pageLimit + 1)
  let truncated := page.length > query.pageLimit
  let (result, store) := query.collect read store (page.take query.pageLimit)
  let nextOffset := if truncated then some (offset + query.pageLimit) else none
  (result.map fun messages => { messages, nextOffset }, store)

-- A client that asks for one page after the other. It has no answer yet when it may not ask for as
-- many pages as there are.
def follow : (requests : Nat) → DurableStore → (offset : Nat) →
    Option (Except HttpReply (List StoredMessage))
  | 0, _, _                     => none
  | requests + 1, store, offset =>
    match query.listMessages read store offset with
    | (.error reply, _) => some (.error reply)
    | (.ok page, store) =>
      match page.nextOffset with
      | none      => some (.ok page.messages)
      | some next => (follow requests store next).map (·.map (page.messages ++ ·))

end MessageQuery
