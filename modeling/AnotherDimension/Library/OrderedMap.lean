import Mathlib

-- Facts about finite ordered maps that a walk over all entries needs.

namespace OrderedMap

open Std

variable {κ β : Type} {cmp : κ → κ → Ordering} [TransCmp cmp] [LawfulEqCmp cmp]

theorem lawfulEqCmp_lex {α₁ α₂ : Type} [Ord α₁] [Ord α₂] [LawfulEqOrd α₁] [LawfulEqOrd α₂] :
    LawfulEqCmp (compareLex (compareOn Prod.fst) (compareOn Prod.snd) :
      α₁ × α₂ → α₁ × α₂ → Ordering) where
  compare_self {x} := by simp [compareLex_eq_eq, compareOn]
  eq_of_compare {x y} h := by
    simp only [compareLex_eq_eq, compareOn, LawfulEqOrd.compare_eq_iff_eq] at h
    exact Prod.ext h.left h.right

theorem forall_mem_toList {t : ExtTreeMap κ β cmp} {p : κ → β → Prop} :
    (∀ e ∈ t.toList, p e.fst e.snd) ↔ ∀ k v, t[k]? = some v → p k v where
  mp h k v hv := h (k, v) <| ExtTreeMap.mem_toList_iff_getElem?_eq_some.mpr hv
  mpr h e he  := h e.fst e.snd <| ExtTreeMap.mem_toList_iff_getElem?_eq_some.mp he

theorem any_toList_eq_false {t : ExtTreeMap κ β cmp} {p : κ → β → Bool} :
    (t.toList.any fun e => !p e.fst e.snd) = false ↔ ∀ k v, t[k]? = some v → p k v := by
  rw [← forall_mem_toList, List.any_eq_false]
  simp only [Bool.not_eq_true', Bool.not_eq_false]

-- Inserting the entries of a map one by one into an empty one gives the map back.
theorem insertMany_toList [DecidableEq κ] (t : ExtTreeMap κ β cmp) :
    (∅ : ExtTreeMap κ β cmp).insertMany t.toList = t := by
  refine ExtTreeMap.ext_getElem? fun k => ?_
  cases h : t[k]?
  case some v =>
    have hm : (k, v) ∈ t.toList := ExtTreeMap.mem_toList_iff_getElem?_eq_some.mpr h
    exact ExtTreeMap.getElem?_insertMany_list_of_mem ReflCmp.compare_self
      ExtTreeMap.distinct_keys_toList hm
  case none =>
    have hk : (t.toList.map Prod.fst).contains k = false := by
      rw [ExtTreeMap.map_fst_toList_eq_keys, ExtTreeMap.contains_keys]
      simpa [← ExtTreeMap.contains_iff_mem] using h
    simp [ExtTreeMap.getElem?_insertMany_list_of_contains_eq_false hk]

section

variable {t : ExtTreeMap κ β cmp} {k : κ}

theorem erase_eq_self (h : t[k]? = none) : t.erase k = t := by
  refine ExtTreeMap.ext_getElem? fun k' => ?_
  by_cases hk : k = k'
  case pos => simp [← hk, h]
  case neg => simp [ExtTreeMap.getElem?_erase, hk]

-- Undoing an insertion or a removal with the entry that was there before it.

theorem insert_insert_self {old : β} (v : β) (h : t[k]? = some old) :
    (t.insert k v).insert k old = t := by
  refine ExtTreeMap.ext_getElem? fun k' => ?_
  by_cases hk : k = k'
  case pos => simp [← hk, h]
  case neg => simp [ExtTreeMap.getElem?_insert, hk]

theorem erase_insert_self (v : β) (h : t[k]? = none) : (t.insert k v).erase k = t := by
  refine ExtTreeMap.ext_getElem? fun k' => ?_
  by_cases hk : k = k'
  case pos => simp [← hk, h]
  case neg => simp [ExtTreeMap.getElem?_insert, ExtTreeMap.getElem?_erase, hk]

theorem insert_erase_self {old : β} (h : t[k]? = some old) : (t.erase k).insert k old = t := by
  refine ExtTreeMap.ext_getElem? fun k' => ?_
  by_cases hk : k = k'
  case pos => simp [← hk, h]
  case neg => simp [ExtTreeMap.getElem?_insert, ExtTreeMap.getElem?_erase, hk]

end

section

variable {t : ExtTreeMap κ β cmp} {k : κ} {v : β}

theorem nodup_toList (t : ExtTreeMap κ β cmp) : t.toList.Nodup := by
  refine ExtTreeMap.distinct_keys_toList.imp fun {e₁ e₂} h he => h ?_
  rw [he]
  exact ReflCmp.compare_self

-- A new value for a key takes the place of the old one in the walk.
theorem toList_insert_perm (t : ExtTreeMap κ β cmp) (k : κ) (v : β) :
    (t.insert k v).toList.Perm ((k, v) :: (t.erase k).toList) := by
  have hn : ((k, v) :: (t.erase k).toList).Nodup := by
    refine List.nodup_cons.mpr ⟨fun h => ?_, nodup_toList _⟩
    have h := ExtTreeMap.mem_toList_iff_getElem?_eq_some.mp h
    simp at h
  refine (List.perm_ext_iff_of_nodup (nodup_toList _) hn).mpr fun (k', v') => ?_
  simp only [ExtTreeMap.mem_toList_iff_getElem?_eq_some, List.mem_cons, Prod.mk.injEq,
    ExtTreeMap.getElem?_insert, ExtTreeMap.getElem?_erase, LawfulEqCmp.compare_eq_iff_eq]
  by_cases h : k = k'
  case pos => simp [h, @eq_comm _ v]
  case neg => simp [h, Ne.symm h]

-- A walk over a map without a key is the walk over the map that leaves the key out.
theorem toList_erase [DecidableEq κ] (t : ExtTreeMap κ β cmp) (k : κ) :
    (t.erase k).toList = t.toList.filter (·.fst ≠ k) := by
  have hperm : (t.erase k).toList.Perm (t.toList.filter (·.fst ≠ k)) := by
    refine (List.perm_ext_iff_of_nodup (nodup_toList _) ((nodup_toList t).filter _)).mpr
      fun (k', v') => ?_
    simp only [List.mem_filter, ExtTreeMap.mem_toList_iff_getElem?_eq_some,
      ExtTreeMap.getElem?_erase, LawfulEqCmp.compare_eq_iff_eq, decide_eq_true_eq]
    by_cases h : k = k'
    case pos => simp [h]
    case neg => simp [h, Ne.symm h]
  refine hperm.eq_of_pairwise (fun e₁ e₂ _ _ h₁ h₂ => ?_) ExtTreeMap.ordered_keys_toList
    (ExtTreeMap.ordered_keys_toList.filter _)
  cases (OrientedCmp.gt_of_lt h₁).symm.trans h₂

theorem filter_fst_ne [DecidableEq κ] {e : κ × β} {before after : List (κ × β)}
    (h : ((before ++ e :: after).map Prod.fst).Nodup) :
    (before ++ e :: after).filter (·.fst ≠ e.fst) = before ++ after := by
  rw [List.map_append, List.map_cons, List.nodup_middle, List.nodup_cons, ← List.map_append] at h
  have hne (e') (he' : e' ∈ before ++ after) : e'.fst ≠ e.fst :=
    fun hc => h.left <| hc ▸ List.mem_map_of_mem he'
  rw [List.filter_append, List.filter_cons_of_neg (by simp), ← List.filter_append]
  exact List.filter_eq_self.mpr fun e' he' => by simp [hne e' he']

-- The total of some weight over the entries of a map.
def total (weight : κ → β → Nat) (t : ExtTreeMap κ β cmp) : Nat :=
  (t.toList.map fun e => weight e.fst e.snd).sum

variable {weight : κ → β → Nat}

theorem total_insert (t : ExtTreeMap κ β cmp) (k : κ) (v : β) :
    total weight (t.insert k v) = weight k v + total weight (t.erase k) := by
  rw [total, ((toList_insert_perm t k v).map _).sum_eq]
  rfl

theorem total_insert_of_none (v : β) (h : t[k]? = none) :
    total weight (t.insert k v) = weight k v + total weight t := by
  rw [total_insert, erase_eq_self h]

theorem total_of_some (weight : κ → β → Nat) (h : t[k]? = some v) :
    total weight t = weight k v + total weight (t.erase k) := by
  conv_lhs => rw [← insert_erase_self h, total_insert_of_none v (by simp)]

omit [LawfulEqCmp cmp] in
theorem total_map_le {f : κ → β → β} (h : ∀ k v, weight k (f k v) ≤ weight k v) :
    total weight (t.map f) ≤ total weight t := by
  rw [total, ExtTreeMap.toList_map, List.map_map]
  exact List.sum_le_sum fun e _ => h e.fst e.snd

theorem total_erase_le (weight : κ → β → Nat) (t : ExtTreeMap κ β cmp) (k : κ) :
    total weight (t.erase k) ≤ total weight t := by
  cases h : t[k]?
  case none   => rw [erase_eq_self h]
  case some v => exact (total_of_some weight h) ▸ Nat.le_add_left _ _

end

-- Removing many keys.

def eraseAll (t : ExtTreeMap κ β cmp) (keys : List κ) : ExtTreeMap κ β cmp :=
  keys.foldl ExtTreeMap.erase t

section

variable {k : κ} {keys : List κ}

theorem mem_eraseAll {t : ExtTreeMap κ β cmp} : k ∈ eraseAll t keys ↔ k ∈ t ∧ k ∉ keys := by
  induction keys generalizing t
  case nil => simp [eraseAll]
  case cons key keys hi =>
    rw [eraseAll, List.foldl_cons, ← eraseAll, hi, ExtTreeMap.mem_erase]
    simp only [ne_eq, LawfulEqCmp.compare_eq_iff_eq, List.mem_cons, not_or, @eq_comm _ key]
    tauto

theorem getElem?_eraseAll [DecidableEq κ] {t : ExtTreeMap κ β cmp} :
    (eraseAll t keys)[k]? = if k ∈ keys then none else t[k]? := by
  induction keys generalizing t
  case nil => simp [eraseAll]
  case cons key keys hi =>
    rw [eraseAll, List.foldl_cons, ← eraseAll, hi, ExtTreeMap.getElem?_erase]
    simp only [LawfulEqCmp.compare_eq_iff_eq, List.mem_cons, @eq_comm _ key]
    by_cases hk : k = key
    case pos => simp [hk]
    case neg => simp [hk]

omit [LawfulEqCmp cmp] in
-- What no removal of a single key makes larger, the removal of many does not.
theorem eraseAll_le {measure : ExtTreeMap κ β cmp → Nat}
    (h : ∀ t k, measure (t.erase k) ≤ measure t) (t : ExtTreeMap κ β cmp) :
    measure (eraseAll t keys) ≤ measure t := by
  induction keys generalizing t
  case nil              => exact le_rfl
  case cons key keys hi => exact (hi (t.erase key)).trans (h t key)

end

end OrderedMap
