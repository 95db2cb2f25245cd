import AnotherDimension.Library.Text

-- The JSON text `serde_json` writes, and how long it gets.

namespace Json

-- Quotes, backslashes and control characters are escaped, everything else is written as it is.
def escapeChar (c : Char) : List Char :=
  match c with
  | '"'  => ['\\', '"']
  | '\\' => ['\\', '\\']
  | '\n' => ['\\', 'n']
  | '\r' => ['\\', 'r']
  | '\t' => ['\\', 't']
  | c    =>
    if c.toNat = 8 then
      ['\\', 'b']
    else if c.toNat = 12 then
      ['\\', 'f']
    else if c.toNat < 32 then
      ['\\', 'u', '0', '0', Bytes.hexDigit (c.toNat / 16), Bytes.hexDigit (c.toNat % 16)]
    else
      [c]

def string (s : String) : String :=
  "\"" ++ .ofList (s.toList.flatMap escapeChar) ++ "\""

def number (n : UInt64) : String :=
  Text.formatU64 n

def bool (b : Bool) : String :=
  if b then "true" else "false"

def option {α : Type} (write : α → String) : Option α → String
  | none   => "null"
  | some a => write a

-- The members of an object, with their values already written.
def members : List (String × String) → String
  | []      => ""
  | [m]     => string m.fst ++ ":" ++ m.snd
  | m :: ms => string m.fst ++ ":" ++ m.snd ++ "," ++ members ms

def object (ms : List (String × String)) : String :=
  "\x7b" ++ members ms ++ "\x7d"

theorem utf8ByteSize_number_le (n : UInt64) : (number n).utf8ByteSize ≤ 20 := by
  have hl : (Nat.toDigits 10 n.toNat).length ≤ 20 :=
    (Nat.length_toDigits_le_iff (by decide) (by decide)).mpr <| n.toNat_lt.trans (by decide)
  have ha : ∀ c ∈ (number n).toList, c.val ≤ 127 := fun _ h =>
    Text.ascii_of_isDigit <| Text.isDigit_of_mem_formatU64 h
  rw [← String.utf8Len_toList, Text.utf8Len_of_ascii ha]
  exact Text.toList_formatU64 n ▸ hl

theorem utf8Size_hexDigit (n : Nat) : (Bytes.hexDigit n).utf8Size = 1 := by
  by_cases h : n < 16
  case pos => interval_cases n <;> decide
  case neg =>
    have hl : "0123456789abcdef".toList.length ≤ n := Nat.not_lt.mp h
    rw [Bytes.hexDigit, List.getD_eq_default _ _ hl]
    decide

theorem utf8Len_escapeChar_le (c : Char) : String.utf8Len (escapeChar c) ≤ 6 * c.utf8Size := by
  have hc := c.utf8Size_pos
  -- Every escape has at most six characters of one byte.
  have escaped {cs : List Char} (h : String.utf8Len cs ≤ 6) : String.utf8Len cs ≤ 6 * c.utf8Size :=
    h.trans (by omega)
  unfold escapeChar
  split
  case h_6 =>
    split_ifs
    case pos => exact escaped (by decide)
    case pos => exact escaped (by decide)
    case pos =>
      refine escaped ?_
      simp only [String.utf8Len_cons, utf8Size_hexDigit]
      decide
    case neg =>
      simp only [String.utf8Len_cons, String.utf8Len_nil]
      omega
  all_goals exact escaped (by decide)

theorem utf8ByteSize_string_le (s : String) : (string s).utf8ByteSize ≤ 6 * s.utf8ByteSize + 2 := by
  have h (cs : List Char) : String.utf8Len (cs.flatMap escapeChar) ≤ 6 * String.utf8Len cs := by
    induction cs
    case nil          => simp
    case cons c cs hi =>
      have := utf8Len_escapeChar_le c
      simp only [List.flatMap_cons, String.utf8Len_append, String.utf8Len_cons]
      omega
  have := h s.toList
  simp only [string, String.utf8ByteSize_append, String.utf8ByteSize_ofList, String.utf8Len_toList]
    at this ⊢
  have hq : "\"".utf8ByteSize = 1 := by decide
  omega

theorem utf8ByteSize_members_le (ms : List (String × String)) :
    (members ms).utf8ByteSize ≤
      (ms.map fun m => (string m.fst).utf8ByteSize + m.snd.utf8ByteSize + 2).sum := by
  have hc : ":".utf8ByteSize = 1 := by decide
  have hd : ",".utf8ByteSize = 1 := by decide
  fun_induction members ms
  case case1         => simp
  case case2 m       =>
    simp only [String.utf8ByteSize_append, hc, List.map_cons, List.map_nil, List.sum_cons,
      List.sum_nil]
    omega
  case case3 m ms hi =>
    simp only [String.utf8ByteSize_append, hc, hd, List.map_cons, List.sum_cons]
    omega

end Json
