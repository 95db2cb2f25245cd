import Mathlib

-- Taking apart computations that can fail.

namespace Except

variable {ε α β : Type}

theorem bind_eq_ok {x : Except ε α} {f : α → Except ε β} {b : β} :
    (x >>= f) = .ok b ↔ ∃ a, x = .ok a ∧ f a = .ok b := by
  cases x <;> simp [bind, Except.bind]

theorem bind_eq_error {x : Except ε α} {f : α → Except ε β} {e : ε} :
    (x >>= f) = .error e ↔ x = .error e ∨ ∃ a, x = .ok a ∧ f a = .error e := by
  cases x <;> simp [bind, Except.bind]

theorem map_eq_ok {x : Except ε α} {f : α → β} {b : β} :
    x.map f = .ok b ↔ ∃ a, x = .ok a ∧ f a = b := by
  cases x <;> simp [Except.map]

@[simp]
theorem isOk_map {x : Except ε α} {f : α → β} : (x.map f).isOk = x.isOk := by
  cases x <;> rfl

-- What a loop collects when no round fails.
theorem mapM_eq_ok_iff {f : α → Except ε β} {as : List α} {bs : List β} :
    as.mapM f = .ok bs ↔ List.Forall₂ (fun a b => f a = .ok b) as bs := by
  induction as generalizing bs
  case nil => simp [pure, Except.pure]
  case cons a as hi =>
    simp only [List.mapM_cons, bind_eq_ok, hi, pure, Except.pure, Except.ok.injEq,
      List.forall₂_cons_left_iff]
    constructor
    case mp =>
      intro ⟨b, hb, bs, hbs, h⟩
      exact ⟨b, bs, hb, hbs, h.symm⟩
    case mpr =>
      intro ⟨b, bs, hb, hbs, h⟩
      exact ⟨b, hb, bs, hbs, h.symm⟩

theorem mapM_eq_ok_map {f : α → Except ε β} {g : α → β} {as : List α}
    (h : ∀ a ∈ as, f a = .ok (g a)) : as.mapM f = .ok (as.map g) := by
  refine mapM_eq_ok_iff.mpr <| List.forall₂_map_right_iff.mpr ?_
  induction as
  case nil          => exact .nil
  case cons a as hi =>
    have ⟨ha, has⟩ := List.forall_mem_cons.mp h
    exact .cons ha (hi has)

theorem exists_of_mapM_eq_ok {f : α → Except ε β} {as : List α} {bs : List β} {a : α}
    (h : as.mapM f = .ok bs) (ha : a ∈ as) : ∃ b, f a = .ok b := by
  replace h := mapM_eq_ok_iff.mp h
  induction h
  case nil => cases ha
  case cons a' b as bs hb _ hi =>
    obtain rfl | ha := List.mem_cons.mp ha
    case inl => exact ⟨b, hb⟩
    case inr => exact hi ha

theorem exists_of_mapM_eq_error {f : α → Except ε β} {as : List α} {e : ε}
    (h : as.mapM f = .error e) : ∃ a ∈ as, f a = .error e := by
  induction as
  case nil => simp [pure, Except.pure] at h
  case cons a as hi =>
    simp only [List.mapM_cons, bind_eq_error, pure, Except.pure, reduceCtorEq, and_false,
      exists_false, or_false] at h
    obtain h | ⟨_, _, h⟩ := h
    case inl => exact ⟨a, List.mem_cons_self, h⟩
    case inr =>
      obtain ⟨a', hm, ha'⟩ := hi h
      exact ⟨a', List.mem_cons_of_mem _ hm, ha'⟩

end Except

namespace Option

variable {α β : Type}

theorem mapM_eq_some_iff {f : α → Option β} {as : List α} {bs : List β} :
    as.mapM f = some bs ↔ List.Forall₂ (fun a b => f a = some b) as bs := by
  induction as generalizing bs
  case nil => simp
  case cons a as hi =>
    simp only [List.mapM_cons, Option.bind_eq_bind, Option.bind_eq_some_iff, hi, Option.pure_def,
      Option.some.injEq, List.forall₂_cons_left_iff]
    constructor
    case mp =>
      rintro ⟨b, hb, bs, hbs, h⟩
      exact ⟨b, bs, hb, hbs, h.symm⟩
    case mpr =>
      rintro ⟨b, bs, hb, hbs, h⟩
      exact ⟨b, hb, bs, hbs, h.symm⟩

end Option
