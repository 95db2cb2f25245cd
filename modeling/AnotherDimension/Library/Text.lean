import AnotherDimension.Library.Bytes

-- The parts of Rust's `str` and `char` the daemon uses, over the list of a string's characters.

namespace Text

-- `char::is_whitespace`, the Unicode property White_Space.
def isWhitespace (c : Char) : Bool :=
  let n := c.toNat
  (9 ≤ n && n ≤ 13) || n == 0x20 || n == 0x85 || n == 0xa0 || n == 0x1680 ||
    (0x2000 ≤ n && n ≤ 0x200a) || n == 0x2028 || n == 0x2029 || n == 0x202f || n == 0x205f ||
    n == 0x3000

def trimStart (cs : List Char) : List Char :=
  cs.dropWhile isWhitespace

-- `str::trim`
def trim (s : String) : String :=
  .ofList (trimStart (trimStart s.toList).reverse).reverse

theorem trimStart_eq_self {cs : List Char} (h : ∀ c ∈ cs, isWhitespace c = false) :
    trimStart cs = cs := by
  cases cs
  case nil       => rfl
  case cons c cs => simp [trimStart, h c List.mem_cons_self]

theorem trim_eq_self {s : String} (h : ∀ c ∈ s.toList, isWhitespace c = false) : trim s = s := by
  have hr : ∀ c ∈ s.toList.reverse, isWhitespace c = false := by simpa using h
  simp [trim, trimStart_eq_self h, trimStart_eq_self hr]

theorem trim_sublist (s : String) : (trim s).toList.Sublist s.toList := by
  have h (cs : List Char) : (trimStart cs).Sublist cs := List.dropWhile_sublist _
  rw [trim, String.toList_ofList]
  refine List.Sublist.trans ?_ (h s.toList)
  simpa using (h (trimStart s.toList).reverse).reverse

theorem utf8Len_le_of_sublist {cs₁ cs₂ : List Char} (h : cs₁.Sublist cs₂) :
    String.utf8Len cs₁ ≤ String.utf8Len cs₂ := by
  induction h
  case slnil            => rfl
  case cons hi          => exact hi.trans (by simp)
  case cons_cons c _ hi => simpa using hi

theorem isWhitespace_of_isDigit {c : Char} (h : c.isDigit = true) : isWhitespace c = false := by
  simp only [Char.isDigit, Bool.and_eq_true, decide_eq_true_eq, UInt32.le_iff_toNat_le] at h
  have h₁ : 48 ≤ c.toNat := h.left
  have h₂ : c.toNat ≤ 57 := h.right
  simp [isWhitespace]
  omega

theorem isWhitespace_hexDigit (n : Nat) : isWhitespace (Bytes.hexDigit n) = false := by
  by_cases hn : n < 16
  case pos =>
    have h : ∀ m < 16, isWhitespace (Bytes.hexDigit m) = false := by decide
    exact h n hn
  case neg =>
    rw [Bytes.hexDigit, List.getD_eq_default _ _ (by simpa using hn)]
    rfl

theorem isWhitespace_of_mem_toHex {bytes : Bytes} {c : Char} (h : c ∈ (Bytes.toHex bytes).toList) :
    isWhitespace c = false := by
  simp only [Bytes.toHex, String.toList_ofList, List.mem_flatMap] at h
  obtain ⟨byte, _, h⟩ := h
  simp only [List.mem_cons, List.not_mem_nil, or_false] at h
  rcases h with rfl | rfl
  all_goals exact isWhitespace_hexDigit _

theorem ascii_of_isDigit {c : Char} (h : c.isDigit = true) : c.val ≤ 127 := by
  simp only [Char.isDigit, Bool.and_eq_true, decide_eq_true_eq] at h
  exact UInt32.le_trans h.right (by decide)

-- ASCII characters are single bytes.
theorem utf8Len_of_ascii {cs : List Char} (h : ∀ c ∈ cs, c.val ≤ 127) :
    String.utf8Len cs = cs.length := by
  induction cs
  case nil          => rfl
  case cons c cs hi =>
    have hc : c.utf8Size = 1 := Char.utf8Size_eq_one_iff.mpr <| h c List.mem_cons_self
    rw [String.utf8Len_cons, hi fun c hc => h c <| List.mem_cons_of_mem _ hc, hc]
    rfl

-- `char::is_control`, the Unicode category Cc.
def isControl (c : Char) : Bool :=
  c.toNat < 0x20 || (0x7f ≤ c.toNat && c.toNat ≤ 0x9f)

def isAscii (c : Char) : Bool :=
  c.toNat < 0x80

def isAsciiAlphanumeric (c : Char) : Bool :=
  c.isDigit || ('a' ≤ c && c ≤ 'z') || ('A' ≤ c && c ≤ 'Z')

def toAsciiLowercase (c : Char) : Char :=
  if 'A' ≤ c && c ≤ 'Z' then .ofNat (c.toNat + 32) else c

-- `str::split_once` at the first occurrence of the pattern.
def splitOnce (pattern : List Char) : List Char → Option (List Char × List Char)
  | []      => if pattern.isEmpty then some ([], []) else none
  | c :: cs =>
    if pattern.isPrefixOf (c :: cs) then
      some ([], (c :: cs).drop pattern.length)
    else
      (splitOnce pattern cs).map fun (before, after) => (c :: before, after)

theorem splitOnce_some {pattern cs before after : List Char}
    (h : splitOnce pattern cs = some (before, after)) : cs = before ++ pattern ++ after := by
  induction cs generalizing before after
  case nil =>
    simp only [splitOnce] at h
    split at h
    case isTrue hp =>
      cases h
      simpa using hp
    case isFalse => cases h
  case cons c cs hi =>
    simp only [splitOnce] at h
    split at h
    case isTrue hp =>
      cases h
      simpa using (List.prefix_iff_eq_append.mp <| List.isPrefixOf_iff_prefix.mp hp).symm
    case isFalse =>
      simp only [Option.map_eq_some_iff, Prod.mk.injEq] at h
      have ⟨⟨before', after'⟩, hs, hb, ha⟩ := h
      simp [← hb, ← ha, hi hs]

-- `str::rsplit(separator).next()`, the part after the last separator.
def lastSegment (separator : Char) (cs : List Char) : List Char :=
  (cs.reverse.takeWhile (· ≠ separator)).reverse

theorem lastSegment_append {separator : Char} {cs₁ cs₂ : List Char} (h : separator ∈ cs₂) :
    lastSegment separator (cs₁ ++ cs₂) = lastSegment separator cs₂ := by
  have hn : ¬∀ c ∈ cs₂.reverse, decide (c ≠ separator) = true := by
    intro hc
    simpa using hc separator (by simpa using h)
  have hl : (cs₂.reverse.takeWhile (· ≠ separator)).length ≠ cs₂.reverse.length := by
    intro hl
    exact hn <| List.takeWhile_eq_self_iff.mp <| (List.takeWhile_prefix _).eq_of_length hl
  rw [lastSegment, lastSegment, List.reverse_append, List.takeWhile_append, if_neg hl]

-- `str::lines().count()`: a line ends at a line feed, and the last one may do without.
def lineCount (s : String) : Nat :=
  let feeds := s.toList.count '\n'
  if s.isEmpty ∨ s.toList.getLast? = some '\n' then feeds else feeds + 1

-- `str::parse::<u64>`: decimal digits, after at most one plus sign, within range.
def parseU64 (s : String) : Option UInt64 :=
  let digits := match s.toList with
    | '+' :: cs => cs
    | cs        => cs
  if digits ≠ [] ∧ digits.all Char.isDigit ∧ Nat.ofDigitChars 10 digits 0 < 2 ^ 64 then
    some <| .ofNat <| Nat.ofDigitChars 10 digits 0
  else
    none

-- `u64::to_string`
def formatU64 (n : UInt64) : String :=
  toString n.toNat

theorem toList_formatU64 (n : UInt64) : (formatU64 n).toList = Nat.toDigits 10 n.toNat :=
  Nat.toList_repr

theorem isDigit_of_mem_formatU64 {n : UInt64} {c : Char} (h : c ∈ (formatU64 n).toList) :
    c.isDigit = true :=
  Nat.isDigit_of_mem_toDigits (by decide) (by decide) (toList_formatU64 n ▸ h)

theorem parseU64_formatU64 (n : UInt64) : parseU64 (formatU64 n) = some n := by
  have hn : ∀ c ∈ (formatU64 n).toList, c.isDigit = true := fun _ => isDigit_of_mem_formatU64
  have hs : (match (formatU64 n).toList with | '+' :: cs => cs | cs => cs) =
      Nat.toDigits 10 n.toNat := by
    split
    case h_1 cs he => exact absurd (hn '+' <| he ▸ List.mem_cons_self) (by decide)
    case h_2       => exact toList_formatU64 n
  have ha : (Nat.toDigits 10 n.toNat).all Char.isDigit := by
    simpa [toList_formatU64] using hn
  simp only [parseU64, hs, Nat.ofDigitChars_ten_toDigits]
  simp [ha, Nat.toDigits_ne_nil, n.toNat_lt]

theorem trim_formatU64 (n : UInt64) : trim (formatU64 n) = formatU64 n :=
  trim_eq_self fun _ h => isWhitespace_of_isDigit <| isDigit_of_mem_formatU64 h

end Text
