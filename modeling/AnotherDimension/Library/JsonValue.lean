import AnotherDimension.Library.Decode

-- A parsed JSON text, as `serde_json::Value` holds it. A number is kept as it is written.
inductive JsonValue
  | null
  | bool (b : Bool)
  | number (digits : String)
  | string (s : String)
  | array (values : List JsonValue)
  | object (members : List (String × JsonValue))
  deriving Repr

namespace JsonValue

def u64 (n : UInt64) : JsonValue :=
  number (Text.formatU64 n)

def nat (n : Nat) : JsonValue :=
  u64 (.ofNat n)

-- `Value::get`
def get (value : JsonValue) (key : String) : Option JsonValue :=
  match value with
  | object members => members.lookup key
  | _              => none

def asStr : JsonValue → Option String
  | string s => some s
  | _        => none

def asBool : JsonValue → Option Bool
  | bool b => some b
  | _      => none

def asArray : JsonValue → Option (List JsonValue)
  | array values => some values
  | _            => none

def asU64 : JsonValue → Option UInt64
  | number digits => Text.parseU64 digits
  | _             => none

def isObject : JsonValue → Bool
  | object _ => true
  | _        => false

@[simp]
theorem asU64_u64 (n : UInt64) : (u64 n).asU64 = some n :=
  Text.parseU64_formatU64 n

mutual

-- `Value::to_string`
def text : JsonValue → String
  | null           => "null"
  | bool b         => Json.bool b
  | number digits  => digits
  | string s       => Json.string s
  | array values   => Json.array (texts values)
  | object members => Json.object (memberTexts members)

def texts : List JsonValue → List String
  | []              => []
  | value :: values => value.text :: texts values

def memberTexts : List (String × JsonValue) → List (String × String)
  | []                     => []
  | (key, value) :: members => (key, value.text) :: memberTexts members

end

end JsonValue
