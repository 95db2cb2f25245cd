import AnotherDimension.Library.JsonValue
import AnotherDimension.Library.OrderedMap

-- Reading JSON texts, as `serde_json` does, and that it reads back what was written.

namespace Json

-- The digits of a `\u` escape.
def readHex : List Char → Option (Nat × List Char)
  | c₁ :: c₂ :: c₃ :: c₄ :: cs => do
    let d₁ ← Bytes.hexValue c₁
    let d₂ ← Bytes.hexValue c₂
    let d₃ ← Bytes.hexValue c₃
    let d₄ ← Bytes.hexValue c₄
    return (16 * (16 * (16 * d₁ + d₂) + d₃) + d₄, cs)
  | _                          => none

-- A character beyond the first plane takes two escapes, a high surrogate and a low one.
def readUnicode (cs : List Char) : Option (Char × List Char) := do
  let (high, cs) ← readHex cs
  if 0xdc00 ≤ high ∧ high < 0xe000 then
    none
  else if high < 0xd800 ∨ 0xdc00 ≤ high then
    return (.ofNat high, cs)
  else if ['\\', 'u'].isPrefixOf cs then
    let (low, cs) ← readHex (cs.drop 2)
    if 0xdc00 ≤ low ∧ low < 0xe000 then
      return (.ofNat (0x10000 + 0x400 * (high - 0xd800) + (low - 0xdc00)), cs)
    else
      none
  else
    none

-- What follows a backslash.
def readEscape : List Char → Option (Char × List Char)
  | []      => none
  | c :: cs =>
    match c with
    | '"'  => some ('"', cs)
    | '\\' => some ('\\', cs)
    | '/'  => some ('/', cs)
    | 'b'  => some (.ofNat 8, cs)
    | 'f'  => some (.ofNat 12, cs)
    | 'n'  => some ('\n', cs)
    | 'r'  => some ('\r', cs)
    | 't'  => some ('\t', cs)
    | 'u'  => readUnicode cs
    | _    => none

-- The characters up to the closing quote, and what follows it.
def readChars : (fuel : Nat) → List Char → Option (List Char × List Char)
  | 0, _ | _ + 1, []  => none
  | fuel + 1, c :: cs =>
    if c = '"' then
      some ([], cs)
    else if c = '\\' then do
      let (c, cs) ← readEscape cs
      let (s, cs) ← readChars fuel cs
      return (c :: s, cs)
    else if c.toNat < 32 then
      none
    else do
      let (s, cs) ← readChars fuel cs
      return (c :: s, cs)

-- `-`, an integer without leading zeros, a fraction and an exponent.

def isExponent : List Char → Bool
  | []      => true
  | e :: cs =>
    let digits := match cs with
      | '+' :: cs | '-' :: cs => cs
      | cs                    => cs
    (e = 'e' || e = 'E') && !digits.isEmpty && digits.all Char.isDigit

def isFraction : List Char → Bool
  | '.' :: cs => !(cs.takeWhile Char.isDigit).isEmpty && isExponent (cs.dropWhile Char.isDigit)
  | cs        => isExponent cs

def isInteger : List Char → Bool
  | []      => false
  | c :: cs =>
    if c = '0' then isFraction cs else c.isDigit && isFraction (cs.dropWhile Char.isDigit)

def isNumber : List Char → Bool
  | '-' :: cs => isInteger cs
  | cs        => isInteger cs

-- The characters a number can have. It ends at the first other one.
def isNumberChar (c : Char) : Bool :=
  c.isDigit || c = '+' || c = '-' || c = '.' || c = 'e' || c = 'E'

def readScalar (cs : List Char) : Option (JsonValue × List Char) :=
  if "null".toList.isPrefixOf cs then
    some (.null, cs.drop 4)
  else if "true".toList.isPrefixOf cs then
    some (.bool true, cs.drop 4)
  else if "false".toList.isPrefixOf cs then
    some (.bool false, cs.drop 5)
  else if isNumber (cs.takeWhile isNumberChar) then
    some (.number (.ofList <| cs.takeWhile isNumberChar), cs.dropWhile isNumberChar)
  else
    none

def isSpace (c : Char) : Bool :=
  c = ' ' || c = '\t' || c = '\n' || c = '\r'

-- The next token, without the space before it.
def token (cs : List Char) : List Char :=
  cs.dropWhile isSpace

-- What follows the character, when it is the next token.
def expect (c : Char) (cs : List Char) : Option (List Char) :=
  if (token cs).head? = some c then some (token cs).tail else none

-- The name of a member and the colon after it.
def readKey (fuel : Nat) (cs : List Char) : Option (String × List Char) := do
  let cs        ← expect '"' cs
  let (key, cs) ← readChars fuel cs
  let cs        ← expect ':' cs
  return (.ofList key, cs)

mutual

def readValue : (fuel : Nat) → List Char → Option (JsonValue × List Char)
  | 0, _         => none
  | fuel + 1, cs =>
    match (token cs).head? with
    | some '"'    => do
      let (s, cs) ← readChars fuel (token cs).tail
      return (.string (.ofList s), cs)
    | some '['    =>
      match expect ']' (token cs).tail with
      | some cs => some (.array [], cs)
      | none    => do
        let (values, cs) ← readElements fuel (token cs).tail
        return (.array values, cs)
    | some '\x7b' =>
      match expect '\x7d' (token cs).tail with
      | some cs => some (.object [], cs)
      | none    => do
        let (members, cs) ← readMembers fuel (token cs).tail
        return (.object members, cs)
    | _           => readScalar (token cs)

-- The elements of an array up to the closing bracket.
def readElements : (fuel : Nat) → List Char → Option (List JsonValue × List Char)
  | 0, _         => none
  | fuel + 1, cs => do
    let (value, cs) ← readValue fuel cs
    match expect ',' cs with
    | some cs =>
      let (values, cs) ← readElements fuel cs
      return (value :: values, cs)
    | none    =>
      let cs ← expect ']' cs
      return ([value], cs)

-- The members of an object up to the closing brace.
def readMembers : (fuel : Nat) → List Char → Option (List (String × JsonValue) × List Char)
  | 0, _         => none
  | fuel + 1, cs => do
    let (key, cs)   ← readKey fuel cs
    let (value, cs) ← readValue fuel cs
    match expect ',' cs with
    | some cs =>
      let (members, cs) ← readMembers fuel cs
      return ((key, value) :: members, cs)
    | none    =>
      let cs ← expect '\x7d' cs
      return ([(key, value)], cs)

end

-- `serde_json::from_str`: one value, and nothing but space after it.
def read (text : String) : Option JsonValue := do
  let (value, cs) ← readValue (text.length + 1) text.toList
  if token cs = [] then return value else none

-- What the reader makes of the parts of a text.

section

variable {fuel : Nat} {c : Char} {cs rest s : List Char}

theorem token_eq_self (h : isSpace c = false) : token (c :: cs) = c :: cs := by
  simp [token, h]

theorem expect_cons (h : isSpace c = false) : expect c (c :: cs) = some cs := by
  simp [expect, token_eq_self h]

theorem expect_cons_ne {d : Char} (h : isSpace d = false) (hd : d ≠ c) :
    expect c (d :: cs) = none := by
  simp [expect, token_eq_self h, hd]

theorem readChars_quote : readChars (fuel + 1) ('"' :: cs) = some ([], cs) := by
  simp [readChars]

-- A character that stands for itself.
theorem readChars_plain (hq : c ≠ '"') (hb : c ≠ '\\') (hc : 32 ≤ c.toNat) :
    readChars (fuel + 1) (c :: cs) =
      (readChars fuel cs).map fun (s, cs) => (c :: s, cs) := by
  simp [readChars, hq, hb, Nat.not_lt.mpr hc, Option.map_eq_bind]

theorem readChars_control (hc : c.toNat < 32) : readChars (fuel + 1) (c :: cs) = none := by
  have hq : c ≠ '"' := by rintro rfl; exact absurd hc (by decide)
  have hb : c ≠ '\\' := by rintro rfl; exact absurd hc (by decide)
  simp [readChars, hq, hb, hc]

theorem readChars_escaped {after : List Char} (h : readEscape cs = some (c, after)) :
    readChars (fuel + 1) ('\\' :: cs) =
      (readChars fuel after).map fun (s, cs) => (c :: s, cs) := by
  simp [readChars, h, Option.map_eq_bind]

-- Whatever a character is written as, it is read back.
theorem readChars_escapeChar (c : Char) :
    readChars (fuel + 1) (escapeChar c ++ cs) =
      (readChars fuel cs).map fun (s, cs) => (c :: s, cs) := by
  unfold escapeChar
  split
  case h_6 hq hb _ _ _ =>
    split_ifs with h₈ h₁₂ h₃₂
    case pos =>
      have hc : c = .ofNat 8 := by rw [← h₈, Char.ofNat_toNat]
      exact hc ▸ readChars_escaped rfl
    case pos =>
      have hc : c = .ofNat 12 := by rw [← h₁₂, Char.ofNat_toNat]
      exact hc ▸ readChars_escaped rfl
    case pos =>
      refine readChars_escaped ?_
      have h₀ : Bytes.hexValue '0' = some 0 := by decide
      have hh := Bytes.hexValue_hexDigit (c.toNat / 16) (by omega)
      have hl := Bytes.hexValue_hexDigit (c.toNat % 16) (by omega)
      have hn : 16 * (c.toNat / 16) + c.toNat % 16 = c.toNat := by omega
      have hs : ¬(0xdc00 ≤ c.toNat ∧ c.toNat < 0xe000) ∧ (c.toNat < 0xd800 ∨ 0xdc00 ≤ c.toNat) := by
        omega
      simp [readEscape, readUnicode, readHex, h₀, hh, hl, hn, hs, Char.ofNat_toNat]
    case neg => exact readChars_plain hq hb (Nat.not_lt.mp h₃₂)
  all_goals exact readChars_escaped rfl

theorem readChars_escape (h : s.length < fuel) :
    readChars fuel (s.flatMap escapeChar ++ '"' :: rest) = some (s, rest) := by
  induction s generalizing fuel
  case nil =>
    obtain ⟨fuel, rfl⟩ := Nat.exists_eq_add_one.mpr h
    exact readChars_quote
  case cons c s hi =>
    obtain ⟨fuel, rfl⟩ := Nat.exists_eq_add_one.mpr (Nat.zero_lt_of_lt h)
    rw [List.flatMap_cons, List.append_assoc, readChars_escapeChar, hi (Nat.lt_of_succ_lt_succ h)]
    rfl

end

-- What can follow a number.
def Ends (rest : List Char) : Prop :=
  ∀ c ∈ rest.head?, isNumberChar c = false

-- The text is read as the value, wherever it stands.
def Reads (text : String) (value : JsonValue) : Prop :=
  ∀ fuel rest, text.length < fuel → Ends rest →
    readValue fuel (text.toList ++ rest) = some (value, rest)

section

variable {text : String} {value : JsonValue} {rest : List Char}

theorem ends_nil : Ends [] := by
  simp [Ends]

theorem ends_cons {c : Char} (h : isNumberChar c = false) : Ends (c :: rest) := by
  simpa [Ends] using h

theorem Reads.read (h : Reads text value) : read text = some value := by
  have hv := h (text.length + 1) [] (Nat.lt_succ_self _) ends_nil
  rw [List.append_nil] at hv
  have ht : token [] = [] := rfl
  simp only [Json.read, hv, Option.bind_eq_bind, Option.bind_some, ht, ↓reduceIte, Option.pure_def]

-- A text is read as one value only.
theorem Reads.unique {other : JsonValue} (h : Reads text value) (ho : Reads text other) :
    value = other :=
  Option.some.inj <| h.read.symm.trans ho.read

theorem length_le_escape (cs : List Char) : cs.length ≤ (cs.flatMap escapeChar).length := by
  have hc (c : Char) : 1 ≤ (escapeChar c).length := by
    unfold escapeChar
    split
    case h_6 => split_ifs <;> simp
    all_goals simp
  induction cs
  case nil          => simp
  case cons c cs hi =>
    have := hc c
    simp only [List.flatMap_cons, List.length_append, List.length_cons]
    omega

theorem toList_string (s : String) :
    (string s).toList = '"' :: (s.toList.flatMap escapeChar ++ ['"']) := by
  simp [string]

theorem readChars_string {fuel : Nat} {s : String} (h : (string s).length ≤ fuel) :
    readChars fuel (s.toList.flatMap escapeChar ++ '"' :: rest) = some (s.toList, rest) := by
  have hl := length_le_escape s.toList
  have hs := congrArg List.length (toList_string s)
  simp only [String.length_toList, List.length_cons, List.length_append, List.length_nil] at hs
  exact readChars_escape (by rw [String.length_toList] at hl ⊢; omega)

theorem reads_string (s : String) : Reads (string s) (.string s) := by
  intro fuel rest h _
  obtain ⟨fuel, rfl⟩ := Nat.exists_eq_add_one.mpr (Nat.zero_lt_of_lt h)
  have ht (cs : List Char) : token ('"' :: cs) = '"' :: cs := token_eq_self rfl
  simp only [toList_string, List.cons_append, List.append_assoc, List.nil_append, readValue, ht,
    List.head?_cons, List.tail_cons, readChars_string (Nat.lt_succ_iff.mp h), Option.bind_eq_bind,
    Option.bind_some, Option.pure_def, String.ofList_toList]

theorem readKey_string {fuel : Nat} {key : String} {cs : List Char}
    (h : (string key).length ≤ fuel) :
    readKey fuel ((string key).toList ++ ':' :: cs) = some (key, cs) := by
  have hq (cs : List Char) : expect '"' ('"' :: cs) = some cs := expect_cons rfl
  have hc (cs : List Char) : expect ':' (':' :: cs) = some cs := expect_cons rfl
  simp only [toList_string, List.cons_append, List.append_assoc, List.nil_append, readKey, hq,
    readChars_string h, hc, Option.bind_eq_bind, Option.bind_some, Option.pure_def,
    String.ofList_toList]

-- A text that starts like none of the other values is a scalar.
theorem readValue_scalar {fuel : Nat} {c : Char} {cs : List Char}
    (hc : ∀ d ∈ ['"', '[', '\x7b', ' ', '\t', '\n', '\r'], c ≠ d) :
    readValue (fuel + 1) (c :: cs) = readScalar (c :: cs) := by
  have hs : isSpace c = false := by
    simp only [List.mem_cons, List.not_mem_nil, or_false, forall_eq_or_imp, forall_eq] at hc
    simp [isSpace, hc]
  rw [readValue, token_eq_self hs]
  simp only [List.mem_cons, List.not_mem_nil, or_false, forall_eq_or_imp, forall_eq] at hc
  split <;> simp_all

theorem reads_null : Reads "null" .null := by
  intro fuel rest h _
  obtain ⟨fuel, rfl⟩ := Nat.exists_eq_add_one.mpr (Nat.zero_lt_of_lt h)
  have ht : "null".toList = ['n', 'u', 'l', 'l'] := by simp
  rw [ht, List.cons_append, readValue_scalar (by simp)]
  simp [readScalar]

theorem reads_bool (b : Bool) : Reads (bool b) (.bool b) := by
  intro fuel rest h _
  obtain ⟨fuel, rfl⟩ := Nat.exists_eq_add_one.mpr (Nat.zero_lt_of_lt h)
  cases b
  case false =>
    have ht : (bool false).toList = ['f', 'a', 'l', 's', 'e'] := by simp [bool]
    rw [ht, List.cons_append, readValue_scalar (by simp)]
    simp [readScalar]
  case true =>
    have ht : (bool true).toList = ['t', 'r', 'u', 'e'] := by simp [bool]
    rw [ht, List.cons_append, readValue_scalar (by simp)]
    simp [readScalar]

-- A number has only the characters it can have.

theorem isNumberChar_of_isDigit {c : Char} (h : c.isDigit = true) : isNumberChar c = true := by
  simp [isNumberChar, h]

theorem isNumberChar_of_isExponent {cs : List Char} (h : isExponent cs) :
    ∀ c ∈ cs, isNumberChar c := by
  match cs with
  | []      => simp
  | e :: cs =>
    simp only [isExponent, Bool.and_eq_true, List.all_eq_true, Bool.or_eq_true,
      decide_eq_true_eq] at h
    have hs : ∀ c ∈ cs, isNumberChar c := by
      intro c hc
      have hd := h.right c
      split at hd
      case h_1 => 
        obtain rfl | hc := List.mem_cons.mp hc
        case inl => rfl
        case inr => exact isNumberChar_of_isDigit <| hd hc
      case h_2 =>
        obtain rfl | hc := List.mem_cons.mp hc
        case inl => rfl
        case inr => exact isNumberChar_of_isDigit <| hd hc
      case h_3 => exact isNumberChar_of_isDigit <| hd hc
    refine List.forall_mem_cons.mpr ⟨?_, hs⟩
    rcases h.left.left with rfl | rfl <;> rfl

theorem isNumberChar_of_dropWhile {cs : List Char}
    (h : ∀ c ∈ cs.dropWhile Char.isDigit, isNumberChar c) : ∀ c ∈ cs, isNumberChar c := by
  intro c hc
  rw [← List.takeWhile_append_dropWhile (p := Char.isDigit) (l := cs), List.mem_append] at hc
  cases hc
  case inl hc => exact isNumberChar_of_isDigit <| List.mem_takeWhile_imp hc
  case inr hc => exact h c hc

theorem isNumberChar_of_isFraction {cs : List Char} (h : isFraction cs) :
    ∀ c ∈ cs, isNumberChar c := by
  unfold isFraction at h
  split at h
  case h_1 =>
    have hd := isNumberChar_of_isExponent (Bool.and_eq_true_iff.mp h).right
    exact List.forall_mem_cons.mpr ⟨rfl, isNumberChar_of_dropWhile hd⟩
  case h_2 => exact isNumberChar_of_isExponent h

theorem isNumberChar_of_isInteger {cs : List Char} (h : isInteger cs) :
    ∀ c ∈ cs, isNumberChar c := by
  match cs with
  | []      => simp
  | c :: cs =>
    simp only [isInteger] at h
    split at h
    case isTrue hc =>
      exact List.forall_mem_cons.mpr ⟨by rw [hc]; rfl, isNumberChar_of_isFraction h⟩
    case isFalse   =>
      obtain ⟨hc, h⟩ := Bool.and_eq_true_iff.mp h
      have hd := isNumberChar_of_dropWhile (isNumberChar_of_isFraction h)
      exact List.forall_mem_cons.mpr ⟨isNumberChar_of_isDigit hc, hd⟩

theorem isNumberChar_of_isNumber {cs : List Char} (h : isNumber cs) : ∀ c ∈ cs, isNumberChar c := by
  unfold isNumber at h
  split at h
  case h_1 => exact List.forall_mem_cons.mpr ⟨rfl, isNumberChar_of_isInteger h⟩
  case h_2 => exact isNumberChar_of_isInteger h

-- It starts with a digit or a minus sign, and so like no other value.
theorem head_of_isNumber {cs : List Char} (h : isNumber cs) :
    ∃ c rest, cs = c :: rest ∧ (c = '-' ∨ c.isDigit) := by
  unfold isNumber at h
  split at h
  case h_1 cs => exact ⟨'-', cs, rfl, .inl rfl⟩
  case h_2    =>
    match cs with
    | []      => simp [isInteger] at h
    | c :: cs =>
      refine ⟨c, cs, rfl, .inr ?_⟩
      simp only [isInteger] at h
      split at h
      case isTrue hc => rw [hc]; rfl
      case isFalse   => exact (Bool.and_eq_true_iff.mp h).left

theorem reads_number {digits : String} (h : isNumber digits.toList) :
    Reads digits (.number digits) := by
  intro fuel rest hl he
  obtain ⟨fuel, rfl⟩ := Nat.exists_eq_add_one.mpr (Nat.zero_lt_of_lt hl)
  have ha := isNumberChar_of_isNumber h
  have htake : (digits.toList ++ rest).takeWhile isNumberChar = digits.toList := by
    rw [List.takeWhile_append_of_pos ha]
    cases rest <;> simp_all [Ends]
  have hdrop : (digits.toList ++ rest).dropWhile isNumberChar = rest := by
    rw [List.dropWhile_append_of_pos ha]
    cases rest <;> simp_all [Ends]
  obtain ⟨c, cs, hd, hc⟩ := head_of_isNumber h
  have hne : ∀ d ∈ ['"', '[', '\x7b', ' ', '\t', '\n', '\r'] ++ ['n', 't', 'f'], c ≠ d := by
    rintro d hm rfl
    simp only [List.cons_append, List.nil_append, List.mem_cons, List.not_mem_nil, or_false] at hm
    rcases hm with rfl | rfl | rfl | rfl | rfl | rfl | rfl | rfl | rfl | rfl <;> simp at hc
  have hv : readValue (fuel + 1) (digits.toList ++ rest) = readScalar (digits.toList ++ rest) := by
    rw [hd, List.cons_append]
    exact readValue_scalar fun d hm => hne d (List.mem_append_left _ hm)
  have hs (text : String) (d : Char) (ds : List Char) (ht : text.toList = d :: ds) (hn : c ≠ d) :
      text.toList.isPrefixOf (digits.toList ++ rest) = false := by
    simp [ht, hd, List.isPrefixOf, Ne.symm hn]
  rw [hv, readScalar, hs "null" 'n' ['u', 'l', 'l'] (by simp) (hne 'n' (by simp)),
    hs "true" 't' ['r', 'u', 'e'] (by simp) (hne 't' (by simp)),
    hs "false" 'f' ['a', 'l', 's', 'e'] (by simp) (hne 'f' (by simp))]
  simp only [Bool.false_eq_true, ↓reduceIte, htake, hdrop, h, String.ofList_toList]

theorem isNumber_of_isDigit {cs : List Char} (hn : cs ≠ []) (hd : ∀ c ∈ cs, c.isDigit)
    (hz : cs.head? = some '0' → cs = ['0']) : isNumber cs := by
  match cs with
  | c :: cs =>
    have hc := hd c List.mem_cons_self
    have hm : c ≠ '-' := by rintro rfl; simp at hc
    have hi : isNumber (c :: cs) = isInteger (c :: cs) := by simp [isNumber, hm]
    rw [hi, isInteger]
    split
    case isTrue h0 =>
      obtain rfl : cs = [] := by simpa [h0] using hz
      rfl
    case isFalse =>
      have hdrop : cs.dropWhile Char.isDigit = [] := by
        simpa [List.dropWhile_eq_nil_iff] using fun c hc => hd c (List.mem_cons_of_mem _ hc)
      rw [hdrop, hc]
      rfl

-- No number but zero starts with a zero.
theorem eq_zero_of_head_toDigits {n : Nat} (h : (Nat.toDigits 10 n).head? = some '0') : n = 0 := by
  induction n using Nat.strong_induction_on
  case h n hi =>
    rw [Nat.toDigits_eq_if (by decide)] at h
    split at h
    case isTrue hn =>
      interval_cases n <;> simp_all [Nat.digitChar]
    case isFalse hn =>
      rw [List.head?_append_of_ne_nil _ Nat.toDigits_ne_nil] at h
      have := hi (n / 10) (by omega) h
      omega

theorem reads_u64 (n : UInt64) : Reads (number n) (.u64 n) := by
  refine reads_number ?_
  rw [number, Text.toList_formatU64]
  refine isNumber_of_isDigit Nat.toDigits_ne_nil
    (fun c hc => Nat.isDigit_of_mem_toDigits (by decide) (by decide) hc) fun h => ?_
  rw [eq_zero_of_head_toDigits h]
  rfl

-- A value does not start with what closes an array.
theorem Reads.expect_bracket (h : Reads text value) (he : Ends rest) :
    expect ']' (text.toList ++ rest) = none := by
  by_contra hn
  have ht : (token (text.toList ++ rest)).head? = some ']' := by
    unfold expect at hn
    split at hn
    case isTrue ht => exact ht
    case isFalse   => exact absurd rfl hn
  have hr := h (text.length + 1) rest (Nat.lt_succ_self _) he
  obtain ⟨cs, hcs⟩ := List.head?_eq_some_iff.mp ht
  rw [readValue, hcs] at hr
  simp [readScalar, isNumber, isInteger, isNumberChar] at hr

theorem readElements_of_reads {texts : List String} {values : List JsonValue}
    (h : List.Forall₂ Reads texts values) (hn : texts ≠ []) {fuel : Nat}
    (hf : (elements texts).length + 1 < fuel) :
    readElements fuel ((elements texts).toList ++ ']' :: rest) = some (values, rest) := by
  have hb (cs : List Char) : expect ']' (']' :: cs) = some cs := expect_cons rfl
  have hc (cs : List Char) : expect ',' (',' :: cs) = some cs := expect_cons rfl
  have hbc (cs : List Char) : expect ',' (']' :: cs) = none := expect_cons_ne rfl (by decide)
  induction h generalizing fuel
  case nil => exact absurd rfl hn
  case cons text value texts values ht hts hi =>
    obtain ⟨fuel, rfl⟩ := Nat.exists_eq_add_one.mpr (Nat.zero_lt_of_lt hf)
    cases hts
    case nil =>
      have hv := ht fuel (']' :: rest) (by simpa [elements] using hf) (ends_cons rfl)
      simp [readElements, elements, hv, hbc, hb]
    case cons next other texts values hv hvs =>
      simp only [elements, String.length_append] at hf
      have hl : ",".length = 1 := rfl
      have hv := ht fuel (',' :: ((elements (next :: texts)).toList ++ ']' :: rest)) (by omega)
        (ends_cons rfl)
      have hi : readElements fuel ((elements (next :: texts)).toList ++ ']' :: rest) = _ :=
        hi (by simp) (by omega)
      have hcomma : ",".toList = [','] := by simp
      simp only [elements, String.toList_append, hcomma, List.append_assoc, List.cons_append,
        List.nil_append, readElements, hv, Option.bind_eq_bind, Option.bind_some, hc, hi,
        Option.pure_def]

theorem reads_array {texts : List String} {values : List JsonValue}
    (h : List.Forall₂ Reads texts values) : Reads (array texts) (.array values) := by
  intro fuel rest hf _
  obtain ⟨fuel, rfl⟩ := Nat.exists_eq_add_one.mpr (Nat.zero_lt_of_lt hf)
  have hs : (array texts).toList ++ rest = '[' :: ((elements texts).toList ++ ']' :: rest) := by
    simp [array]
  have ht (cs : List Char) : token ('[' :: cs) = '[' :: cs := token_eq_self rfl
  rw [hs, readValue, ht]
  cases h
  case nil =>
    have hb : expect ']' (']' :: rest) = some rest := expect_cons rfl
    simp [elements, hb]
  case cons text value texts values hv hvs =>
    have hl : (elements (text :: texts)).length + 1 < fuel := by
      have hb : "[".length = 1 ∧ "]".length = 1 := by decide
      simp only [array, String.length_append, hb] at hf
      omega
    have hb : expect ']' ((elements (text :: texts)).toList ++ ']' :: rest) = none := by
      cases texts
      case nil  => exact hv.expect_bracket (ends_cons rfl)
      case cons =>
        simp only [elements, String.toList_append, List.append_assoc]
        exact hv.expect_bracket (by simpa using ends_cons rfl)
    simp only [List.head?_cons, List.tail_cons, hb,
      readElements_of_reads (.cons hv hvs) (List.cons_ne_nil _ _) hl, Option.bind_eq_bind,
      Option.bind_some, Option.pure_def]

-- The name of a member, and its value.
def ReadsMember (m : String × String) (member : String × JsonValue) : Prop :=
  m.fst = member.fst ∧ Reads m.snd member.snd

theorem readMembers_of_reads {ms : List (String × String)} {values : List (String × JsonValue)}
    (h : List.Forall₂ ReadsMember ms values) (hn : ms ≠ []) {fuel : Nat}
    (hf : (members ms).length + 1 < fuel) :
    readMembers fuel ((members ms).toList ++ '\x7d' :: rest) = some (values, rest) := by
  have hb (cs : List Char) : expect '\x7d' ('\x7d' :: cs) = some cs := expect_cons rfl
  have hc (cs : List Char) : expect ',' (',' :: cs) = some cs := expect_cons rfl
  have hbc (cs : List Char) : expect ',' ('\x7d' :: cs) = none := expect_cons_ne rfl (by decide)
  have hl : ",".length = 1 ∧ ":".length = 1 := by decide
  have ht : ",".toList = [','] ∧ ":".toList = [':'] := by simp
  induction h generalizing fuel
  case nil => exact absurd rfl hn
  case cons m member ms values hm hms hi =>
    obtain ⟨fuel, rfl⟩ := Nat.exists_eq_add_one.mpr (Nat.zero_lt_of_lt hf)
    obtain ⟨key, value⟩ := member
    obtain ⟨rfl, hv⟩ := hm
    cases hms
    case nil =>
      simp only [members, String.length_append, hl] at hf
      have hk (cs : List Char) : readKey fuel ((string m.fst).toList ++ ':' :: cs) = some (m.fst, cs) :=
        readKey_string (by omega)
      have hv := hv fuel ('\x7d' :: rest) (by omega) (ends_cons rfl)
      simp only [members, String.toList_append, ht, List.append_assoc, List.cons_append,
        List.nil_append, readMembers, hk, hv, hbc, hb, Option.bind_eq_bind, Option.bind_some,
        Option.pure_def]
    case cons next other ms values hm hms =>
      simp only [members, String.length_append, hl] at hf
      have hk (cs : List Char) : readKey fuel ((string m.fst).toList ++ ':' :: cs) = some (m.fst, cs) :=
        readKey_string (by omega)
      have hv := hv fuel (',' :: ((members (next :: ms)).toList ++ '\x7d' :: rest)) (by omega)
        (ends_cons rfl)
      have hi : readMembers fuel ((members (next :: ms)).toList ++ '\x7d' :: rest) = _ :=
        hi (by simp) (by omega)
      simp only [members, String.toList_append, ht, List.append_assoc, List.cons_append,
        List.nil_append, readMembers, hk, hv, hc, hi, Option.bind_eq_bind, Option.bind_some,
        Option.pure_def]

theorem reads_object {ms : List (String × String)} {values : List (String × JsonValue)}
    (h : List.Forall₂ ReadsMember ms values) : Reads (object ms) (.object values) := by
  intro fuel rest hf _
  obtain ⟨fuel, rfl⟩ := Nat.exists_eq_add_one.mpr (Nat.zero_lt_of_lt hf)
  have hs : (object ms).toList ++ rest = '\x7b' :: ((members ms).toList ++ '\x7d' :: rest) := by
    simp [object]
  have ht (cs : List Char) : token ('\x7b' :: cs) = '\x7b' :: cs := token_eq_self rfl
  rw [hs, readValue, ht]
  cases h
  case nil =>
    have hb : expect '\x7d' ('\x7d' :: rest) = some rest := expect_cons rfl
    simp [members, hb]
  case cons m value ms values hv hvs =>
    have hl : (members (m :: ms)).length + 1 < fuel := by
      have hb : "\x7b".length = 1 ∧ "\x7d".length = 1 := by decide
      simp only [object, String.length_append, hb] at hf
      omega
    have hb : expect '\x7d' ((members (m :: ms)).toList ++ '\x7d' :: rest) = none := by
      have hq (cs : List Char) : expect '\x7d' ('"' :: cs) = none := expect_cons_ne rfl (by decide)
      cases ms <;> simp [members, toList_string, hq]
    simp only [List.head?_cons, List.tail_cons, hb,
      readMembers_of_reads (.cons hv hvs) (List.cons_ne_nil _ _) hl, Option.bind_eq_bind, Option.bind_some,
      Option.pure_def]

theorem reads_option {α : Type} {write : α → String} {toValue : α → JsonValue}
    (h : ∀ a, Reads (write a) (toValue a)) (o : Option α) :
    Reads (option write o) (o.elim .null toValue) := by
  cases o
  case none   => exact reads_null
  case some a => exact h a

end

-- A map that is written as one object.
section

variable {α : Type} {write : α → String} {toValue : α → JsonValue}

theorem reads_object_toList (h : ∀ a, Reads (write a) (toValue a)) (t : Std.ExtTreeMap String α) :
    Reads (object (t.toList.map fun e => (e.fst, write e.snd)))
      (.object (t.toList.map fun e => (e.fst, toValue e.snd))) := by
  refine reads_object ?_
  rw [List.forall₂_map_left_iff, List.forall₂_map_right_iff, List.forall₂_same]
  exact fun e _ => ⟨rfl, h e.snd⟩

theorem members_toList_injective (hi : Function.Injective toValue) :
    Function.Injective fun t : Std.ExtTreeMap String α =>
      t.toList.map fun e => (e.fst, toValue e.snd) := by
  intro t₁ t₂ h
  have hl : t₁.toList = t₂.toList := by
    refine List.map_injective_iff.mpr (fun e₁ e₂ he => ?_) h
    obtain ⟨hk, he⟩ := Prod.mk.injEq .. ▸ he
    exact Prod.ext hk (hi he)
  rw [← OrderedMap.insertMany_toList t₁, hl, OrderedMap.insertMany_toList]

end

end Json

namespace JsonValue

theorem u64_injective : Function.Injective u64 := by
  intro n₁ n₂ h
  have hp := congrArg asU64 h
  rwa [asU64_u64, asU64_u64, Option.some.injEq] at hp

theorem string_injective : Function.Injective string :=
  fun _ _ h => string.inj h

-- An optional value that is never `null` itself.
theorem elim_null_injective {α : Type} {f : α → JsonValue} (hf : Function.Injective f)
    (hn : ∀ a, f a ≠ null) : Function.Injective fun o : Option α => o.elim null f := by
  intro o₁ o₂ h
  cases o₁ <;> cases o₂
  case none.none         => rfl
  case none.some a       => exact absurd h.symm (hn a)
  case some.none a       => exact absurd h (hn a)
  case some.some a₁ a₂   => exact congrArg some (hf h)

theorem elim_string_injective : Function.Injective fun o : Option String => o.elim null string :=
  elim_null_injective string_injective fun _ => nofun

theorem elim_u64_injective : Function.Injective fun o : Option UInt64 => o.elim null u64 :=
  elim_null_injective u64_injective fun _ => nofun

end JsonValue
