import AnotherDimension.Library.Decode

-- Texts put together with a separator, and taken apart at it.

theorem Bytes.utf8_injective : Function.Injective Bytes.utf8 := by
  intro s₁ s₂ h
  have hs : fromUtf8 (utf8 s₁) = fromUtf8 (utf8 s₂) := by rw [h]
  simpa using hs

theorem Bytes.utf8_append (s₁ s₂ : String) :
    Bytes.utf8 (s₁ ++ s₂) = Bytes.utf8 s₁ ++ Bytes.utf8 s₂ := by
  simp [utf8, String.toByteArray_append]

namespace Text

-- `str::split` at a character.
def split (separator : Char) (s : String) : List String :=
  (s.toList.splitOn separator).map .ofList

variable {separator : Char} {parts : List String} {s part : String}

theorem split_intercalate (h : ∀ part ∈ parts, separator ∉ part.toList) (hn : parts ≠ []) :
    split separator ((String.singleton separator).intercalate parts) = parts := by
  have hs : (String.singleton separator).toList = [separator] := by simp
  have hp : ∀ part ∈ parts.map String.toList, separator ∉ part := List.forall_mem_map.mpr h
  rw [split, String.toList_intercalate, hs, List.splitOn_intercalate _ hp (by simpa using hn)]
  simp

theorem intercalate_split (separator : Char) (s : String) :
    (String.singleton separator).intercalate (split separator s) = s := by
  refine String.toList_inj.mp ?_
  rw [split, String.toList_intercalate, List.map_map]
  simp [Function.comp_def, List.intercalate_splitOn]

-- Two lists of parts with one text are the same.
theorem intercalate_inj {parts₁ parts₂ : List String}
    (h₁ : ∀ part ∈ parts₁, separator ∉ part.toList) (h₂ : ∀ part ∈ parts₂, separator ∉ part.toList)
    (hn₁ : parts₁ ≠ []) (hn₂ : parts₂ ≠ []) :
    (String.singleton separator).intercalate parts₁ =
      (String.singleton separator).intercalate parts₂ ↔ parts₁ = parts₂ where
  mp h  := by rw [← split_intercalate h₁ hn₁, h, split_intercalate h₂ hn₂]
  mpr h := by rw [h]

-- There is one part more than there are separators.
theorem length_split (separator : Char) (s : String) :
    (split separator s).length = s.toList.count separator + 1 := by
  rw [split, List.length_map]
  induction s.toList
  case nil          => simp
  case cons c cs hi =>
    rw [List.splitOn_cons_eq_if_modifyHead]
    split_ifs with h
    case pos => simp_all
    case neg => simp_all

theorem length_split_intercalate (hn : parts ≠ []) :
    (split separator ((String.singleton separator).intercalate parts)).length =
      parts.length + (parts.map (·.toList.count separator)).sum := by
  rw [length_split, String.toList_intercalate]
  induction parts
  case nil            => exact absurd rfl hn
  case cons s parts hi =>
    match parts with
    | []             => simp [Nat.add_comm]
    | part :: parts' =>
      have hp := hi (List.cons_ne_nil _ _)
      simp only [List.map_cons] at hp
      rw [List.map_cons, List.map_cons, List.intercalate_cons_cons, List.count_append,
        List.count_append]
      simp only [String.toList_singleton, List.count_singleton_self, List.length_cons, List.map_cons,
        List.sum_cons] at hp ⊢
      omega

theorem split_ne_nil (separator : Char) (s : String) : split separator s ≠ [] := by
  refine List.ne_nil_of_length_pos ?_
  rw [length_split]
  exact Nat.succ_pos _

theorem not_mem_of_mem_split (h : part ∈ split separator s) : separator ∉ part.toList := by
  have hl := @length_split_intercalate separator _ (split_ne_nil separator s)
  rw [intercalate_split, Nat.left_eq_add, List.sum_eq_zero_iff] at hl
  exact List.count_eq_zero.mp <| hl _ <| List.mem_map_of_mem h

-- `str::rsplit_once` at a character.
def rsplitOnce (separator : Char) (s : String) : Option (String × String) :=
  match (split separator s).reverse with
  | last :: part :: parts =>
    some ((String.singleton separator).intercalate (part :: parts).reverse, last)
  | _                     => none

theorem intercalate_concat {last : String} (hn : parts ≠ []) :
    (String.singleton separator).intercalate (parts ++ [last]) =
      (String.singleton separator).intercalate parts ++ String.singleton separator ++ last := by
  refine String.toList_inj.mp ?_
  induction parts
  case nil             => exact absurd rfl hn
  case cons s parts hi =>
    match parts with
    | []             => simp
    | part :: parts' => simpa [List.intercalate_cons_cons] using hi (List.cons_ne_nil _ _)

theorem rsplitOnce_intercalate {last : String} (h : ∀ part ∈ parts, separator ∉ part.toList)
    (hl : separator ∉ last.toList) (hn : parts ≠ []) :
    rsplitOnce separator ((String.singleton separator).intercalate (parts ++ [last])) =
      some ((String.singleton separator).intercalate parts, last) := by
  have hp : ∀ part ∈ parts ++ [last], separator ∉ part.toList :=
    List.forall_mem_append.mpr ⟨h, List.forall_mem_singleton.mpr hl⟩
  have ⟨part, parts', hr⟩ := List.exists_cons_of_ne_nil (List.reverse_ne_nil_iff.mpr hn)
  have hs : (part :: parts').reverse = parts := by rw [← hr, List.reverse_reverse]
  rw [rsplitOnce, split_intercalate hp (List.concat_ne_nil _ _), List.reverse_append,
    List.reverse_singleton, List.singleton_append, hr]
  simp only [hs]

theorem stripPrefix_append (start rest : String) :
    stripPrefix start (start ++ rest) = some rest := by
  have hd : (start.toList ++ rest.toList).drop start.length = rest.toList := by
    rw [← String.length_toList, List.drop_left]
  simp [stripPrefix, hd]

def toAsciiUppercase (c : Char) : Char :=
  if 'a' ≤ c && c ≤ 'z' then .ofNat (c.toNat - 32) else c

end Text
