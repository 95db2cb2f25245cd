import Mathlib

-- Runs of a deterministic machine: a state, a list of inputs, and the step they drive.

namespace Run

variable {σ α : Type*} {step : σ → α → σ} {s : σ} {as : List α}

-- The states a run passes through, the first and the last one included.
def states (step : σ → α → σ) : σ → List α → List σ
  | s, []      => [s]
  | s, a :: as => s :: states step (step s a) as

-- Every input of the run meets `cond` in the state it is taken in.
def Meets (step : σ → α → σ) (cond : σ → α → Prop) : σ → List α → Prop
  | _, []      => True
  | s, a :: as => cond s a ∧ Meets step cond (step s a) as

instance Meets.decidable {cond : σ → α → Prop} [∀ s a, Decidable (cond s a)] :
    (s : σ) → (as : List α) → Decidable (Meets step cond s as)
  | _, []      => .isTrue trivial
  | s, a :: as => @instDecidableAnd _ _ _ (Meets.decidable (step s a) as)

theorem mem_states_self : s ∈ states step s as := by
  cases as <;> simp [states]

theorem foldl_mem_states : as.foldl step s ∈ states step s as := by
  induction as generalizing s
  case nil          => simp [states]
  case cons a as hi => exact List.mem_cons_of_mem _ hi

theorem states_append_left {s' : σ} {bs : List α} (h : s' ∈ states step s as) :
    s' ∈ states step s (as ++ bs) := by
  induction as generalizing s
  case nil =>
    rw [states, List.mem_singleton] at h
    exact h ▸ mem_states_self
  case cons a as hi =>
    obtain rfl | h := List.mem_cons.mp h
    case inl => exact mem_states_self
    case inr => exact List.mem_cons_of_mem _ (hi h)

theorem states_append_right {s' : σ} {bs : List α} (h : s' ∈ states step (as.foldl step s) bs) :
    s' ∈ states step s (as ++ bs) := by
  induction as generalizing s
  case nil          => exact h
  case cons a as hi => exact List.mem_cons_of_mem _ (hi h)

-- An invariant of every step holds in every state of every run.
theorem invariant_states {inv : σ → Prop} (keep : ∀ s a, inv s → inv (step s a)) (hs : inv s) :
    ∀ s' ∈ states step s as, inv s' := by
  induction as generalizing s
  case nil          => simpa [states] using hs
  case cons a as hi => exact List.forall_mem_cons.mpr ⟨hs, hi <| keep s a hs⟩

theorem Meets.of_forall {cond : σ → α → Prop} (h : ∀ s a, cond s a) : Meets step cond s as := by
  induction as generalizing s
  case nil          => trivial
  case cons a as hi => exact ⟨h s a, hi⟩

theorem Meets.of_forall_mem {cond : α → Prop} (h : ∀ a ∈ as, cond a) :
    Meets step (fun _ => cond) s as := by
  induction as generalizing s
  case nil          => trivial
  case cons a as hi =>
    have ⟨ha, has⟩ := List.forall_mem_cons.mp h
    exact ⟨ha, hi has⟩

theorem Meets.of_forall_states {cond : σ → Prop} (h : ∀ s' ∈ states step s as, cond s') :
    Meets step (fun s _ => cond s) s as := by
  induction as generalizing s
  case nil          => trivial
  case cons a as hi =>
    have ⟨ha, has⟩ := List.forall_mem_cons.mp h
    exact ⟨ha, hi has⟩

theorem Meets.of_forall_next {cond : σ → Prop} (h : ∀ s' ∈ states step s as, cond s') :
    Meets step (fun s a => cond (step s a)) s as := by
  induction as generalizing s
  case nil          => trivial
  case cons a as hi =>
    have ⟨_, has⟩ := List.forall_mem_cons.mp h
    exact ⟨has _ mem_states_self, hi has⟩

theorem Meets.mono {c₁ c₂ : σ → α → Prop} (h : ∀ s a, c₁ s a → c₂ s a) (m : Meets step c₁ s as) :
    Meets step c₂ s as := by
  induction as generalizing s
  case nil          => trivial
  case cons a as hi => exact ⟨h s a m.left, hi m.right⟩

theorem Meets.and {c₁ c₂ : σ → α → Prop} (h₁ : Meets step c₁ s as) (h₂ : Meets step c₂ s as) :
    Meets step (fun s a => c₁ s a ∧ c₂ s a) s as := by
  induction as generalizing s
  case nil          => trivial
  case cons a as hi => exact ⟨⟨h₁.left, h₂.left⟩, hi h₁.right h₂.right⟩

-- An invariant that every step meeting `cond` keeps holds in every state of a run whose steps all
-- meet `cond`, and so does at every step whatever the invariant and `cond` imply for it.
theorem Meets.of_invariant {cond prop : σ → α → Prop} {inv : σ → Prop}
    (keep : ∀ s a, inv s → cond s a → prop s a ∧ inv (step s a)) (hs : inv s)
    (m : Meets step cond s as) : Meets step prop s as ∧ ∀ s' ∈ states step s as, inv s' := by
  induction as generalizing s
  case nil => exact ⟨trivial, by simpa [states] using hs⟩
  case cons a as hi =>
    have ⟨hp, hn⟩ := keep s a hs m.left
    have ⟨hps, hns⟩ := hi hn m.right
    refine ⟨⟨hp, hps⟩, fun s' h => ?_⟩
    cases List.mem_cons.mp h
    case inl h => exact h ▸ hs
    case inr h => exact hns s' h

theorem Meets.forall_states {cond : σ → α → Prop} {inv : σ → Prop}
    (keep : ∀ s a, inv s → cond s a → inv (step s a)) (hs : inv s) (m : Meets step cond s as) :
    ∀ s' ∈ states step s as, inv s' :=
  (m.of_invariant (fun s a hi hc => ⟨hc, keep s a hi hc⟩) hs).right

-- Two conditions that say the same where the invariant holds are met by the same runs.
theorem Meets.congr {pre : α → Prop} {c₁ c₂ : σ → α → Prop} {inv : σ → Prop}
    (keep : ∀ s a, inv s → pre a → inv (step s a))
    (same : ∀ s a, inv s → pre a → (c₁ s a ↔ c₂ s a)) (hs : inv s) (hp : ∀ a ∈ as, pre a) :
    Meets step c₁ s as ↔ Meets step c₂ s as := by
  induction as generalizing s
  case nil          => exact Iff.rfl
  case cons a as hi =>
    have ⟨ha, has⟩ := List.forall_mem_cons.mp hp
    exact and_congr (same s a hs ha) (hi (keep s a hs ha) has)

-- The same, where it is the condition itself that keeps the invariant.
theorem Meets.iff_of_invariant {c₁ c₂ : σ → α → Prop} {inv : σ → Prop}
    (keep : ∀ s a, inv s → c₁ s a → inv (step s a))
    (same : ∀ s a, inv s → (c₁ s a ↔ c₂ s a)) (hs : inv s) :
    Meets step c₁ s as ↔ Meets step c₂ s as := by
  induction as generalizing s
  case nil          => exact Iff.rfl
  case cons a as hi =>
    rw [Meets, Meets, ← same s a hs]
    exact and_congr_right fun hc => hi (keep s a hs hc)

-- When `cond` says exactly which steps keep the invariant, it says exactly which runs do.
theorem forall_states_iff {pre cond : σ → α → Prop} {inv : σ → Prop}
    (exact_step : ∀ s a, pre s a → inv s → (inv (step s a) ↔ cond s a))
    (hp : Meets step pre s as) (hs : inv s) :
    (∀ s' ∈ states step s as, inv s') ↔ Meets step cond s as := by
  induction as generalizing s
  case nil => simpa [states, Meets] using hs
  case cons a as hi =>
    have hc := exact_step s a hp.left hs
    constructor
    case mp =>
      intro h
      have ht : inv (step s a) := h _ <| List.mem_cons_of_mem _ mem_states_self
      exact ⟨hc.mp ht, hi hp.right ht |>.mp fun s' h' => h s' <| List.mem_cons_of_mem _ h'⟩
    case mpr =>
      intro ⟨h₁, h₂⟩ s' h'
      cases List.mem_cons.mp h'
      case inl h' => exact h' ▸ hs
      case inr h' => exact hi hp.right (hc.mpr h₁) |>.mpr h₂ s' h'

end Run
