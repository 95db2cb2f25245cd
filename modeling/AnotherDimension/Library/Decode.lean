import AnotherDimension.Library.Json

-- Reading hexadecimal digits, UTF-8 with replacement characters and words, as Rust does.

namespace Bytes

-- `<[u8]>::strip_prefix`
def stripPrefix (start bytes : Bytes) : Option Bytes :=
  if start.isPrefixOf bytes then some (bytes.drop start.length) else none

theorem stripPrefix_append (start bytes : Bytes) :
    stripPrefix start (start ++ bytes) = some bytes := by
  simp [stripPrefix]

def hexValue (c : Char) : Option Nat :=
  if '0' ≤ c ∧ c ≤ '9' then
    some (c.toNat - '0'.toNat)
  else if 'a' ≤ c ∧ c ≤ 'f' then
    some (c.toNat - 'a'.toNat + 10)
  else if 'A' ≤ c ∧ c ≤ 'F' then
    some (c.toNat - 'A'.toNat + 10)
  else
    none

def fromHexDigits : List Char → Option Bytes
  | []            => some []
  | [_]           => none
  | c₁ :: c₂ :: cs => do
    let high ← hexValue c₁
    let low  ← hexValue c₂
    let rest ← fromHexDigits cs
    return UInt8.ofNat (16 * high + low) :: rest

-- `decode_hex`: an even number of hexadecimal digits, of either case.
def fromHex (s : String) : Option Bytes :=
  fromHexDigits s.toList

theorem hexValue_hexDigit : ∀ n < 16, hexValue (hexDigit n) = some n := by
  decide

theorem fromHex_toHex (bytes : Bytes) : fromHex (toHex bytes) = some bytes := by
  rw [fromHex, toHex, String.toList_ofList]
  induction bytes
  case nil          => rfl
  case cons b bs hi =>
    have hb := b.toNat_lt
    have hh := hexValue_hexDigit (b.toNat / 16) (by omega)
    have hl := hexValue_hexDigit (b.toNat % 16) (by omega)
    have hd : 16 * (b.toNat / 16) + b.toNat % 16 = b.toNat := by omega
    simp only [List.flatMap_cons, List.cons_append, List.nil_append, fromHexDigits, hh, hl, hi,
      Option.bind_eq_bind, Option.bind_some, hd, UInt8.ofNat_toNat, pure]

theorem mem_toHex {bytes : Bytes} {c : Char} (h : c ∈ (toHex bytes).toList) :
    ∃ n < 16, c = hexDigit n := by
  simp only [toHex, String.toList_ofList, List.mem_flatMap, List.mem_cons, List.not_mem_nil,
    or_false] at h
  obtain ⟨byte, _, rfl | rfl⟩ := h
  case inl => exact ⟨_, by have := byte.toNat_lt; omega, rfl⟩
  case inr => exact ⟨_, by omega, rfl⟩

theorem isSome_hexValue_of_mem_toHex {bytes : Bytes} {c : Char} (h : c ∈ (toHex bytes).toList) :
    (hexValue c).isSome := by
  have ⟨n, hn, hc⟩ := mem_toHex h
  simp [hc, hexValue_hexDigit n hn]

theorem utf8ByteSize_toHex (bytes : Bytes) : (toHex bytes).utf8ByteSize = 2 * bytes.length := by
  have ha : ∀ n < 16, (hexDigit n).val ≤ 127 := by decide
  rw [← String.utf8Len_toList, Text.utf8Len_of_ascii, String.length_toList, length_toHex]
  intro c hc
  have ⟨n, hn, hc⟩ := mem_toHex hc
  exact hc ▸ ha n hn

def replacementCharacter : Char := Char.ofNat 0xfffd

-- The bytes that continue a character, the first of them in a range of its own.
def lossyTail : (missing : Nat) → (low high : UInt8) → (value : Nat) → Bytes → Char × Bytes
  | 0, _, _, value, bytes                       => (Char.ofNat value, bytes)
  | _ + 1, _, _, _, []                          => (replacementCharacter, [])
  | missing + 1, low, high, value, byte :: bytes =>
    if low ≤ byte ∧ byte ≤ high then
      lossyTail missing 0x80 0xbf (64 * value + byte.toNat % 64) bytes
    else
      (replacementCharacter, byte :: bytes)

-- The character that starts with `byte`; what is no character is replaced, up to the byte that
-- makes it so.
def lossyChar (byte : UInt8) (bytes : Bytes) : Char × Bytes :=
  if byte < 0x80 then
    (Char.ofNat byte.toNat, bytes)
  else if 0xc2 ≤ byte ∧ byte ≤ 0xdf then
    lossyTail 1 0x80 0xbf (byte.toNat % 32) bytes
  else if 0xe0 ≤ byte ∧ byte ≤ 0xef then
    lossyTail 2 (if byte = 0xe0 then 0xa0 else 0x80) (if byte = 0xed then 0x9f else 0xbf)
      (byte.toNat % 16) bytes
  else if 0xf0 ≤ byte ∧ byte ≤ 0xf4 then
    lossyTail 3 (if byte = 0xf0 then 0x90 else 0x80) (if byte = 0xf4 then 0x8f else 0xbf)
      (byte.toNat % 8) bytes
  else
    (replacementCharacter, bytes)

def lossyChars : (fuel : Nat) → Bytes → List Char
  | 0, _ | _ + 1, []         => []
  | fuel + 1, byte :: bytes =>
    let (c, bytes) := lossyChar byte bytes
    c :: lossyChars fuel bytes

-- `String::from_utf8_lossy`
def fromUtf8Lossy (bytes : Bytes) : String :=
  .ofList <| lossyChars bytes.length bytes

end Bytes

namespace Text

-- `str::split_whitespace`
def splitWhitespace (cs : List Char) : List (List Char) :=
  (cs.splitOnP isWhitespace).filter (!·.isEmpty)

-- `str::strip_prefix`
def stripPrefix (start s : String) : Option String :=
  if start.toList.isPrefixOf s.toList then some (.ofList <| s.toList.drop start.length) else none

end Text

namespace Json

-- A text that is written as it is.
def IsPlain (s : String) : Prop :=
  ∀ c ∈ s.toList, escapeChar c = [c]

theorem IsPlain.string_eq {s : String} (h : IsPlain s) : string s = "\"" ++ s ++ "\"" := by
  have hs : s.toList.flatMap escapeChar = s.toList := by
    rw [List.flatMap_congr h, List.flatMap_singleton']
  rw [string, hs, String.ofList_toList]

theorem IsPlain.utf8ByteSize_string {s : String} (h : IsPlain s) :
    (string s).utf8ByteSize = s.utf8ByteSize + 2 := by
  rw [h.string_eq, String.utf8ByteSize_append, String.utf8ByteSize_append,
    show "\"".utf8ByteSize = 1 by decide]
  omega

theorem isPlain_toHex (bytes : Bytes) : IsPlain (Bytes.toHex bytes) := by
  have hd : ∀ n < 16, escapeChar (Bytes.hexDigit n) = [Bytes.hexDigit n] := by decide
  intro c hc
  have ⟨n, hn, hc⟩ := Bytes.mem_toHex hc
  exact hc ▸ hd n hn

def elements : List String → String
  | []      => ""
  | [v]     => v
  | v :: vs => v ++ "," ++ elements vs

def array (vs : List String) : String :=
  "[" ++ elements vs ++ "]"

end Json
