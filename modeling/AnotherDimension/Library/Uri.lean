import AnotherDimension.Library.Text

-- The grammar of `http::Uri`: an absolute path, an authority, or a scheme with an authority and a
-- path. A fragment is read over and dropped.

structure Uri where
  scheme    : Option String
  authority : Option String
  path      : String
  query     : Option String
  deriving DecidableEq, Repr

namespace Uri

def maxBytes : Nat := 65534

def maxSchemeLength : Nat := 64

def maxColons : Nat := 8

def isSchemeChar (c : Char) : Bool :=
  Text.isAsciiAlphanumeric c || "+-.".toList.contains c

def isUriChar (c : Char) : Bool :=
  Text.isAsciiAlphanumeric c || "!$&'()*+,-.:;=@[]_~".toList.contains c

def isPathChar (c : Char) : Bool :=
  let n := c.toNat
  n == 0x21 || (0x24 ≤ n && n ≤ 0x3b) || n == 0x3d || (0x40 ≤ n && n ≤ 0x5f) ||
    (0x61 ≤ n && n ≤ 0x7a) || n == 0x7c || 0x7e ≤ n || "\"\x7b\x7d".toList.contains c

def isQueryChar (c : Char) : Bool :=
  let n := c.toNat
  n == 0x21 || (0x24 ≤ n && n ≤ 0x3b) || n == 0x3d || 0x3f ≤ n

-- The scheme, if there is one, and the rest. The two known schemes are read in either case.
def splitScheme (cs : List Char) : Option (Option String × List Char) :=
  if (cs.take 7).map Text.toAsciiLowercase = "http://".toList then
    some ("http", cs.drop 7)
  else if (cs.take 8).map Text.toAsciiLowercase = "https://".toList then
    some ("https", cs.drop 8)
  else
    match cs.dropWhile isSchemeChar with
    | ':' :: '/' :: '/' :: rest =>
      let name := cs.takeWhile isSchemeChar
      if name.length > maxSchemeLength then none else some (String.ofList name, rest)
    | _                         => some (none, cs)

-- What is known of an authority after some of its characters.
structure AuthorityScan where
  colons  : Nat
  opened  : Bool
  closed  : Bool
  percent : Bool

def AuthorityScan.next (s : AuthorityScan) (c : Char) : Option AuthorityScan :=
  match c with
  | ':' => if s.colons ≥ maxColons then none else some { s with colons := s.colons + 1 }
  | '[' => if s.percent || s.opened then none else some { s with opened := true }
  | ']' =>
    if !s.opened || s.closed then
      none
    else
      some { s with closed := true, colons := 0, percent := false }
  | '@' => some { s with colons := 0, percent := false }
  | '%' => some { s with percent := true }
  | c   => if isUriChar c then some s else none

def endsAuthority (c : Char) : Bool :=
  c == '/' || c == '?' || c == '#'

def splitAuthority (cs : List Char) : Option (List Char × List Char) :=
  let authority := cs.takeWhile (!endsAuthority ·)
  match authority.foldlM AuthorityScan.next ⟨0, false, false, false⟩ with
  | none   => none
  | some s =>
    if s.opened ≠ s.closed ∨ s.colons > 1 ∨ authority.getLast? = some '@' ∨ s.percent then
      none
    else
      some (authority, cs.dropWhile (!endsAuthority ·))

-- The path and the query.
def splitPath (cs : List Char) : Option (List Char × Option (List Char)) :=
  let path := cs.takeWhile fun c => c ≠ '?' && c ≠ '#'
  if !path.all isPathChar then
    none
  else
    match cs.dropWhile fun c => c ≠ '?' && c ≠ '#' with
    | '?' :: rest =>
      let query := rest.takeWhile (· ≠ '#')
      if query.all isQueryChar then some (path, query) else none
    | _           => some (path, none)

def ofAuthority (cs : List Char) : Option Uri :=
  match splitAuthority cs with
  | some (authority, []) =>
    some { scheme := none, authority := some (.ofList authority), path := "", query := none }
  | _                    => none

def ofPath (scheme authority : Option String) (cs : List Char) : Option Uri :=
  (splitPath cs).map fun (path, query) => {
    scheme, authority
    path  := if path.isEmpty then "/" else .ofList path
    query := query.map .ofList }

def parse (text : String) : Option Uri :=
  if text.utf8ByteSize > maxBytes then
    none
  else
    match text.toList with
    | []        => none
    | ['*']     => some { scheme := none, authority := none, path := "*", query := none }
    | '/' :: cs => ofPath none none ('/' :: cs)
    | [c]       => ofAuthority [c]
    | cs        =>
      match splitScheme cs with
      | none                     => none
      | some (none, cs)          => ofAuthority cs
      | some (some scheme, rest) =>
        match splitAuthority rest with
        | none                   => none
        | some (authority, rest) =>
          if authority.isEmpty then none else ofPath scheme (String.ofList authority) rest

section

variable {text scheme authority path : String} {query : Option String} {cs rest : List Char}

theorem splitScheme_some (h : splitScheme cs = some (some scheme, rest)) :
    ∃ name, cs = name ++ rest ∧ name.length = scheme.length + 3 := by
  have known {pattern name : String} {n : Nat} (hn : pattern.length = n) (hs : name.length + 3 = n)
      (hp : (cs.take n).map Text.toAsciiLowercase = pattern.toList)
      (hr : some (some name, cs.drop n) = some (some scheme, rest)) :
      ∃ name, cs = name ++ rest ∧ name.length = scheme.length + 3 := by
    cases hr
    refine ⟨cs.take n, (List.take_append_drop n cs).symm, ?_⟩
    have hl := congrArg List.length hp
    rw [List.length_map] at hl
    rw [hl, hs, ← hn, String.length_toList]
  unfold splitScheme at h
  split_ifs at h
  case pos hp => exact known (by decide) (by decide) hp h
  case pos hp => exact known (by decide) (by decide) hp h
  case neg =>
    split at h
    case h_1 tail hd =>
      simp only at h
      split at h
      case isTrue  => cases h
      case isFalse =>
        cases h
        refine ⟨cs.takeWhile isSchemeChar ++ [':', '/', '/'], ?_, by simp⟩
        simpa [hd] using (List.takeWhile_append_dropWhile (p := isSchemeChar) (l := cs)).symm
    case h_2 => cases h

theorem splitAuthority_some {authority : List Char}
    (h : splitAuthority cs = some (authority, rest)) : cs = authority ++ rest := by
  simp only [splitAuthority] at h
  split at h
  case h_1 => cases h
  case h_2 =>
    split at h
    case isTrue  => cases h
    case isFalse =>
      cases h
      exact List.takeWhile_append_dropWhile.symm

-- A URI with a scheme is written as the scheme, the authority and the rest.
theorem parse_absolute (h : parse text = some ⟨some scheme, some authority, path, query⟩) :
    ∃ name tail, text.toList = name ++ authority.toList ++ tail ∧
      name.length = scheme.length + 3 ∧ ofPath (some scheme) (some authority) tail =
        some ⟨some scheme, some authority, path, query⟩ := by
  have relative {cs : List Char} {p : String} {q : Option String} :
      ofAuthority cs ≠ some ⟨some scheme, some authority, p, q⟩ := by
    intro h
    unfold ofAuthority at h
    split at h <;> cases h
  unfold parse at h
  split at h
  case isTrue  => cases h
  case isFalse =>
    split at h
    case h_1 => cases h
    case h_2 => cases h
    case h_3 =>
      simp only [ofPath, Option.map_eq_some_iff] at h
      have ⟨_, _, h⟩ := h
      cases h
    case h_4 => cases relative h
    case h_5 cs _ _ _ _ =>
      split at h
      case h_1 => cases h
      case h_2 => cases relative h
      case h_3 scheme' rest hs =>
        split at h
        case h_1 => cases h
        case h_2 authority' tail ha =>
          split at h
          case isTrue  => cases h
          case isFalse =>
            have ⟨name, hname, hlen⟩ := splitScheme_some hs
            have hrest := splitAuthority_some ha
            have hp := h
            simp only [ofPath, Option.map_eq_some_iff] at h
            have ⟨_, _, h⟩ := h
            cases h
            exact ⟨name, tail, by simp [hname, hrest], hlen, hp⟩

-- Without a fragment and a query, the rest is the path.
theorem ofPath_of_none {scheme authority : Option String}
    (h : ofPath scheme authority cs = some ⟨scheme, authority, path, none⟩) (hf : '#' ∉ cs) :
    '?' ∉ cs ∧ path = if cs.isEmpty then "/" else .ofList cs := by
  simp only [ofPath, Option.map_eq_some_iff] at h
  have ⟨⟨chars, q⟩, hs, hu⟩ := h
  have hq : q = none := by cases q <;> simp_all
  subst hq
  simp only [splitPath] at hs
  split at hs
  case isTrue  => cases hs
  case isFalse =>
    -- The scan for the end of the path reaches the end of the text.
    have hd : cs.dropWhile (fun c => c ≠ '?' && c ≠ '#') = [] := by
      by_contra hn
      have ⟨c, tail, hc⟩ := List.exists_cons_of_ne_nil hn
      have hm : c ∈ cs := List.dropWhile_subset _ (hc ▸ List.mem_cons_self)
      have hp := List.head_dropWhile_not _ hn
      simp only [hc, List.head_cons] at hp
      have hq : c = '?' := by
        by_contra hne
        have : c = '#' := by simpa [hne] using hp
        exact hf (this ▸ hm)
      subst hq
      simp only [hc] at hs
      split at hs <;> cases hs
    have hall := List.dropWhile_eq_nil_iff.mp hd
    have htake : cs.takeWhile (fun c => c ≠ '?' && c ≠ '#') = cs :=
      List.takeWhile_eq_self_iff.mpr hall
    rw [hd, htake] at hs
    cases hs
    refine ⟨fun hm => by simpa using hall _ hm, ?_⟩
    simpa using hu.symm

end

end Uri
