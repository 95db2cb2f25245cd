import Mathlib

-- Cutting a list into pieces of one size, and along a list of sizes.

namespace List

variable {α : Type*} {n : Nat} {xs : List α}

-- `<[T]>::chunks`
def chunks (n : Nat) (xs : List α) : List (List α) :=
  if _h : xs = [] ∨ n = 0 then [] else xs.take n :: (xs.drop n).chunks n
termination_by xs.length
decreasing_by
  have := length_pos_of_ne_nil (not_or.mp _h).left
  rw [length_drop]
  omega

-- Every piece but the last one is full, and none is empty.
def IsChunked (n : Nat) : List (List α) → Prop
  | []            => True
  | [p]           => 0 < p.length ∧ p.length ≤ n
  | p :: q :: ps => p.length = n ∧ IsChunked n (q :: ps)

theorem IsChunked.tail {p : List α} {ps : List (List α)} (h : IsChunked n (p :: ps)) :
    IsChunked n ps := by
  cases ps
  case nil  => trivial
  case cons => exact h.right

theorem IsChunked.head {p : List α} {ps : List (List α)} (hn : 0 < n) (h : IsChunked n (p :: ps)) :
    0 < p.length ∧ p.length ≤ n ∧ (ps ≠ [] → p.length = n) := by
  cases ps
  case nil  => exact ⟨h.left, h.right, fun h => absurd rfl h⟩
  case cons => exact ⟨h.left ▸ hn, h.left.le, fun _ => h.left⟩

theorem chunks_nil : ([] : List α).chunks n = [] := by
  rw [chunks]
  simp

theorem chunks_of_ne_nil (hn : 0 < n) (hx : xs ≠ []) :
    xs.chunks n = xs.take n :: (xs.drop n).chunks n := by
  rw [chunks, dif_neg (not_or.mpr ⟨hx, hn.ne'⟩)]

-- Induction along the pieces.
theorem chunks_induction {motive : List α → Prop} (hn : 0 < n) (nil : motive [])
    (piece : ∀ xs, xs ≠ [] → motive (xs.drop n) → motive xs) (xs : List α) : motive xs := by
  induction hl : xs.length using Nat.strong_induction_on generalizing xs
  case h l hi =>
    by_cases hx : xs = []
    case pos => exact hx ▸ nil
    case neg =>
      have := length_pos_of_ne_nil hx
      refine piece xs hx <| hi _ ?_ _ rfl
      rw [length_drop]
      omega

theorem flatten_chunks (hn : 0 < n) (xs : List α) : (xs.chunks n).flatten = xs := by
  induction xs using chunks_induction hn
  case nil            => rw [chunks_nil, flatten_nil]
  case piece xs hx hi =>
    rw [chunks_of_ne_nil hn hx, flatten_cons, hi, take_append_drop]

theorem chunks_ne_nil (hn : 0 < n) (hx : xs ≠ []) : xs.chunks n ≠ [] := by
  rw [chunks_of_ne_nil hn hx]
  exact cons_ne_nil _ _

theorem isChunked_chunks (hn : 0 < n) (xs : List α) : IsChunked n (xs.chunks n) := by
  induction xs using chunks_induction hn
  case nil            => rw [chunks_nil]; trivial
  case piece xs hx hi =>
    rw [chunks_of_ne_nil hn hx]
    by_cases hd : xs.drop n = []
    case pos =>
      have := length_pos_of_ne_nil hx
      rw [hd, chunks_nil]
      refine ⟨?_, length_take_le ..⟩
      rw [length_take]
      omega
    case neg =>
      have hl : n < xs.length := by simpa using hd
      rw [chunks_of_ne_nil hn hd] at hi ⊢
      refine ⟨?_, hi⟩
      rw [length_take, Nat.min_eq_left hl.le]

-- The number of pieces, rounded up.
theorem length_chunks (hn : 0 < n) (xs : List α) :
    (xs.chunks n).length = (xs.length + n - 1) / n := by
  induction xs using chunks_induction hn
  case nil            =>
    rw [chunks_nil]
    exact (Nat.div_eq_of_lt (by simpa using hn)).symm
  case piece xs hx hi =>
    have := length_pos_of_ne_nil hx
    rw [chunks_of_ne_nil hn hx, length_cons, hi, length_drop]
    by_cases hl : xs.length ≤ n
    case pos =>
      have h₁ : (xs.length + n - 1) / n = 1 := Nat.div_eq_of_lt_le (by omega) (by omega)
      have h₂ : (xs.length - n + n - 1) / n = 0 := Nat.div_eq_of_lt (by omega)
      rw [h₁, h₂]
    case neg =>
      rw [← Nat.add_div_right _ hn]
      congr 1
      omega

-- The pieces of the given sizes, one after the other.
def slices : (sizes : List Nat) → List α → List (List α)
  | [], _             => []
  | size :: sizes, xs => xs.take size :: slices sizes (xs.drop size)

theorem length_slices (sizes : List Nat) (xs : List α) :
    (slices sizes xs).length = sizes.length := by
  induction sizes generalizing xs <;> simp [slices, *]

-- What is cut along its own lengths falls into the same pieces.
theorem slices_flatten (ps : List (List α)) : slices (ps.map length) ps.flatten = ps := by
  induction ps
  case nil          => rfl
  case cons p ps hi => simp [slices, hi]

theorem flatten_slices {sizes : List Nat} (h : sizes.sum = xs.length) :
    (slices sizes xs).flatten = xs := by
  induction sizes generalizing xs
  case nil => simpa [slices, eq_comm] using h
  case cons size sizes hi =>
    rw [slices, flatten_cons, hi, take_append_drop]
    rw [length_drop, ← h, sum_cons]
    omega

theorem map_length_slices {sizes : List Nat} (h : sizes.sum ≤ xs.length) :
    (slices sizes xs).map length = sizes := by
  induction sizes generalizing xs
  case nil => rfl
  case cons size sizes hi =>
    rw [sum_cons] at h
    rw [slices, map_cons, length_take, Nat.min_eq_left (by omega), hi]
    rw [length_drop]
    omega

end List
