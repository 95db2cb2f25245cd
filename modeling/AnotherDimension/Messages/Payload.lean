import AnotherDimension.Library.Decode
import AnotherDimension.Storage.Records

-- Text messages: what travels inside a ciphertext, and the record that is kept.

structure MessagePayload where
  id        : String
  createdAt : UInt64
  expiresAt : UInt64
  text      : String
  deriving DecidableEq, Repr

structure StoredMessage where
  conversationId : String
  messageId      : String
  direction      : String
  createdAt      : UInt64
  expiresAt      : UInt64
  text           : String
  deriving DecidableEq, Repr

namespace MessagePayload

def messagePrefix : Bytes :=
  Bytes.utf8 "ADMSG1."

def toJson (payload : MessagePayload) : String :=
  Json.object [
    ("id", Json.string payload.id),
    ("created_at", Json.number payload.createdAt),
    ("expires_at", Json.number payload.expiresAt),
    ("text", Json.string payload.text)
  ]

-- The id is random.
def encode (text : String) (now expiresAt : UInt64) (randomId : ByteBlock 16) :
    MessagePayload × Bytes :=
  let payload := { id := Bytes.toHex randomId.val, createdAt := now, expiresAt, text }
  (payload, messagePrefix ++ Bytes.utf8 payload.toJson)

-- `decode_message_payload`; `fromSlice` is what `serde_json` reads.
def decode (fromSlice : Bytes → Option MessagePayload) (plaintext : Bytes) :
    Option MessagePayload :=
  (Bytes.stripPrefix messagePrefix plaintext).bind fromSlice

def isExpired (payload : MessagePayload) (now : UInt64) : Bool :=
  payload.expiresAt ≠ 0 && payload.expiresAt ≤ now

end MessagePayload

namespace StoredMessage

def toJson (message : StoredMessage) : String :=
  Json.object [
    ("conversation_id", Json.string message.conversationId),
    ("message_id", Json.string message.messageId),
    ("direction", Json.string message.direction),
    ("created_at", Json.number message.createdAt),
    ("expires_at", Json.number message.expiresAt),
    ("text", Json.string message.text)
  ]

def encoded (message : StoredMessage) : Bytes :=
  Bytes.utf8 message.toJson

-- `message_record_key`
def key (sha256 : Bytes → ByteBlock 32) (conversationId messageId : String) : RecordKey :=
  (.message, "messages/" ++
    Bytes.toHex (sha256 <| Bytes.utf8 <| conversationId ++ "\n" ++ messageId).val)

def ofPayload (conversationId : String) (payload : MessagePayload) (direction : String) :
    StoredMessage where
  conversationId := conversationId
  messageId      := payload.id
  direction      := direction
  createdAt      := payload.createdAt
  expiresAt      := payload.expiresAt
  text           := payload.text

def isExpired (message : StoredMessage) (now : UInt64) : Bool :=
  message.expiresAt ≠ 0 && message.expiresAt ≤ now

end StoredMessage
