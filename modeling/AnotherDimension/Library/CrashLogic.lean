import AnotherDimension.Library.FileProgram

-- Rules for file programs whose steps may fail and whose process may die.

namespace FileProgram

variable {α β : Type} {inv : Disk → Prop} {disk : Disk} {fates : List Fate}

-- Every step keeps the property of the disk, whatever the program was answered before.
def Preserves (inv : Disk → Prop) : FileProgram α → Prop
  | done _       => True
  | step op next => (∀ disk, inv disk → inv (op.effect disk)) ∧ ∀ answer, (next answer).Preserves inv

theorem Preserves.bind {p : FileProgram α} {f : α → FileProgram β} (hp : p.Preserves inv)
    (hf : ∀ a, (f a).Preserves inv) : (p >>= f).Preserves inv := by
  induction p
  case done a          => exact hf a
  case step op next hi => exact ⟨hp.left, fun answer => hi answer <| hp.right answer⟩

theorem Preserves.andThen {ε : Type} {p : FileProgram (Except ε α)}
    {f : α → FileProgram (Except ε β)} (hp : p.Preserves inv) (hf : ∀ a, (f a).Preserves inv) :
    (p.andThen f).Preserves inv :=
  hp.bind fun
    | .ok a    => hf a
    | .error _ => trivial

theorem Preserves.exec {p : FileProgram α} (hp : p.Preserves inv) (hd : inv disk) :
    inv (p.exec disk fates).fst := by
  induction p generalizing disk fates
  case done            => exact hd
  case step op next hi =>
    match fates with
    | []              => exact hd
    | .succeeds :: _  => exact hi _ (hp.right _) <| hp.left _ hd
    | .untouched :: _ => exact hi _ (hp.right _) hd
    | .replaced :: _  => exact hi _ (hp.right _) <| hp.left _ hd

-- A program that changes its own files only keeps what the disk holds elsewhere.
theorem preserves_of_avoids {p : FileProgram α} {own : FilePath → Prop} {d₀ : Disk}
    (h : ∀ path, ¬own path → p.Avoids path) :
    p.Preserves fun d => ∀ path, ¬own path → d path = d₀ path := by
  induction p
  case done            => trivial
  case step op next hi =>
    refine ⟨fun d hd path hp => ?_, fun answer => hi answer fun path hp => (h path hp).right answer⟩
    rw [(h path hp).left.effect_eq d, hd path hp]

theorem Avoids.exec_eq {path : FilePath} {p : FileProgram α} (h : p.Avoids path) :
    (p.exec disk fates).fst path = disk path := by
  induction p generalizing disk fates
  case done            => rfl
  case step op next hi =>
    match fates with
    | []              => rfl
    | .succeeds :: _  => exact (hi _ <| h.right _).trans <| h.left.effect_eq disk
    | .untouched :: _ => exact hi _ <| h.right _
    | .replaced :: _  => exact (hi _ <| h.right _).trans <| h.left.effect_eq disk

theorem Yields.exec {post : α → Prop} {p : FileProgram α} (h : p.Yields post) {disk' : Disk} {a : α}
    {rest : List Fate} (hx : p.exec disk fates = (disk', some (a, rest))) : post a := by
  induction p generalizing disk fates
  case done            => cases hx; exact h
  case step op next hi =>
    match fates with
    | []              => cases hx
    | .succeeds :: _  => exact hi _ (h _) hx
    | .untouched :: _ => exact hi _ (h _) hx
    | .replaced :: _  => exact hi _ (h _) hx

theorem Yields.mono {post post' : α → Prop} {p : FileProgram α} (h : p.Yields post)
    (hp : ∀ a, post a → post' a) : p.Yields post' := by
  induction p
  case done a          => exact hp a h
  case step op next hi => exact fun answer => hi answer <| h answer

theorem yields_andThen {ε : Type} {post : Except ε β → Prop} {p : FileProgram (Except ε α)}
    {f : α → FileProgram (Except ε β)} (he : ∀ e, post (.error e))
    (hf : ∀ a, (f a).Yields post) : (p.andThen f).Yields post :=
  (yields_true p).bind fun
    | .ok a, _    => hf a
    | .error e, _ => he e

-- A run in which nothing failed.
theorem run_of_exec {p : FileProgram α} {disk' : Disk} {a : α} {rest : List Fate}
    (hf : failures fates = 0) (hx : p.exec disk fates = (disk', some (a, rest))) :
    p.run disk = (disk', a) := by
  induction p generalizing disk fates
  case done            => cases hx; rfl
  case step op next hi =>
    match fates with
    | []              => cases hx
    | .succeeds :: _  => exact hi _ (by simpa [failures] using hf) hx
    | .untouched :: _ => simp [failures] at hf
    | .replaced :: _  => simp [failures] at hf

-- The same run, as an execution.
theorem exists_exec_eq_run (p : FileProgram α) (disk : Disk) :
    ∃ n, p.exec disk (.replicate n .succeeds) = ((p.run disk).fst, some ((p.run disk).snd, [])) := by
  induction p generalizing disk
  case done            => exact ⟨0, rfl⟩
  case step op next hi =>
    have ⟨n, hn⟩ := hi (op.answer disk) (op.effect disk)
    exact ⟨n + 1, hn⟩

theorem self_mem_trace (p : FileProgram α) (disk : Disk) : disk ∈ p.trace disk := by
  cases p <;> exact List.mem_cons_self

theorem mem_trace_of_run {p : FileProgram α} {f : α → FileProgram β} {d : Disk}
    (h : d ∈ (f (p.run disk).snd).trace (p.run disk).fst) : d ∈ (p >>= f).trace disk := by
  induction p generalizing disk
  case done            => exact h
  case step op next hi => exact List.mem_cons_of_mem _ <| hi _ h

-- The process can die on every disk that a run passes through.
theorem exists_exec_of_mem_trace {p : FileProgram α} {d : Disk} (h : d ∈ p.trace disk) :
    ∃ n, (p.exec disk (.replicate n .succeeds)).fst = d := by
  induction p generalizing disk
  case done            => exact ⟨0, (List.mem_singleton.mp h).symm⟩
  case step op next hi =>
    obtain rfl | h := List.mem_cons.mp h
    case inl => exact ⟨0, rfl⟩
    case inr =>
      have ⟨n, hn⟩ := hi _ h
      exact ⟨n + 1, hn⟩

-- What can happen at a step: the process dies before it, or the step has one of the fates.
abbrev Environment := FileOp → Option Fate → Prop

-- The schedule asks nothing else of the program's steps.
def Within (env : Environment) : FileProgram α → Disk → List Fate → Prop
  | done _, _, _                            => True
  | step op _, _, []                        => env op none
  | step op next, disk, .succeeds :: fates  =>
    env op (some .succeeds) ∧ (next <| op.answer disk).Within env (op.effect disk) fates
  | step op next, disk, .untouched :: fates =>
    env op (some .untouched) ∧ (next <| .error .other).Within env disk fates
  | step op next, disk, .replaced :: fates  =>
    env op (some .replaced) ∧ (next <| .error .other).Within env (op.effect disk) fates

theorem within_of_no_failures {env : Environment} {p : FileProgram α}
    (hs : ∀ op, env op (some .succeeds)) (hn : ∀ op, env op none) (hf : failures fates = 0) :
    p.Within env disk fates := by
  induction p generalizing disk fates
  case done            => trivial
  case step op next hi =>
    match fates with
    | []              => exact hn op
    | .succeeds :: _  => exact ⟨hs op, hi _ (by simpa [failures] using hf)⟩
    | .untouched :: _ => simp [failures] at hf
    | .replaced :: _  => simp [failures] at hf

-- With at most `budget` failures, the program dies on disks with `crash` only, and returns with
-- `post` of the value, of the disk and of the failures that are left.
def Safe (env : Environment) (crash : Disk → Prop) (post : α → Disk → Nat → Prop) :
    FileProgram α → Disk → (budget : Nat) → Prop
  | done a, disk, budget       => post a disk budget
  | step op next, disk, budget =>
    (env op none → crash disk) ∧
    (env op (some .succeeds) →
      (next <| op.answer disk).Safe env crash post (op.effect disk) budget) ∧
    ∀ budget', budget = budget' + 1 →
      (env op (some .untouched) → (next <| .error .other).Safe env crash post disk budget') ∧
      (env op (some .replaced) →
        (next <| .error .other).Safe env crash post (op.effect disk) budget')

variable {env : Environment} {crash crash' : Disk → Prop} {post post' : α → Disk → Nat → Prop}
  {budget : Nat}

-- How an execution ends.
def Ends (crash : Disk → Prop) (post : α → Disk → Nat → Prop) (budget : Nat) :
    Disk × Option (α × List Fate) → Prop
  | (disk, none)           => crash disk
  | (disk, some (a, rest)) => ∃ left ≤ budget, post a disk left ∧ failures rest ≤ left

theorem Ends.succ {outcome : Disk × Option (α × List Fate)} (h : Ends crash post budget outcome) :
    Ends crash post (budget + 1) outcome := by
  match outcome, h with
  | (_, none), h          => exact h
  | (_, some _), ⟨n, h, hp⟩ => exact ⟨n, Nat.le_succ_of_le h, hp⟩

theorem Safe.exec {p : FileProgram α} (h : p.Safe env crash post disk budget)
    (hw : p.Within env disk fates) (hf : failures fates ≤ budget) :
    Ends crash post budget (p.exec disk fates) := by
  induction p generalizing disk fates budget
  case done a          => exact ⟨budget, Nat.le_refl _, h, hf⟩
  case step op next hi =>
    -- A failure is paid from the budget.
    have pay {fate : Fate} {fates : List Fate} (hn : fate ≠ .succeeds)
        (hf : failures (fate :: fates) ≤ budget) :
        ∃ budget', budget = budget' + 1 ∧ failures fates ≤ budget' := by
      have : failures (fate :: fates) = failures fates + 1 := by simp [failures, hn]
      exact ⟨budget - 1, by omega, by omega⟩
    match fates with
    | []                  => exact h.left hw
    | .succeeds :: fates  =>
      exact hi _ (h.right.left hw.left) hw.right (by simpa [failures] using hf)
    | .untouched :: fates =>
      obtain ⟨budget', rfl, hb⟩ := pay (by decide) hf
      exact (hi _ ((h.right.right budget' rfl).left hw.left) hw.right hb).succ
    | .replaced :: fates  =>
      obtain ⟨budget', rfl, hb⟩ := pay (by decide) hf
      exact (hi _ ((h.right.right budget' rfl).right hw.left) hw.right hb).succ

theorem Safe.mono {p : FileProgram α} (h : p.Safe env crash post disk budget)
    (hc : ∀ disk, crash disk → crash' disk)
    (hp : ∀ a disk left, post a disk left → post' a disk left) :
    p.Safe env crash' post' disk budget := by
  induction p generalizing disk budget
  case done a          => exact hp _ _ _ h
  case step op next hi =>
    refine ⟨fun he => hc _ <| h.left he, fun he => hi _ <| h.right.left he, fun budget' hb => ?_⟩
    have ⟨hu, hr⟩ := h.right.right budget' hb
    exact ⟨fun he => hi _ <| hu he, fun he => hi _ <| hr he⟩

theorem Safe.bind {p : FileProgram α} {f : α → FileProgram β} {post : β → Disk → Nat → Prop}
    (h : p.Safe env crash (fun a disk left => (f a).Safe env crash post disk left) disk budget) :
    (p >>= f).Safe env crash post disk budget := by
  induction p generalizing disk budget
  case done a          => exact h
  case step op next hi =>
    refine ⟨h.left, fun he => hi _ <| h.right.left he, fun budget' hb => ?_⟩
    have ⟨hu, hr⟩ := h.right.right budget' hb
    exact ⟨fun he => hi _ <| hu he, fun he => hi _ <| hr he⟩

theorem Safe.andThen {ε : Type} {p : FileProgram (Except ε α)} {f : α → FileProgram (Except ε β)}
    {post : Except ε β → Disk → Nat → Prop}
    (h : p.Safe env crash (fun
      | .ok a, disk, left    => (f a).Safe env crash post disk left
      | .error e, disk, left => post (.error e) disk left) disk budget) :
    (p.andThen f).Safe env crash post disk budget :=
  Safe.bind <| h.mono (fun _ => id) fun
    | .ok _, _, _    => id
    | .error _, _, _ => id

-- A program that keeps a property of the disk, which is all that is asked of it.
theorem Preserves.safe {p : FileProgram α} (h : p.Preserves inv) (hd : inv disk)
    (hc : ∀ disk, inv disk → crash disk)
    (hp : ∀ a disk left, inv disk → left ≤ budget → post a disk left) :
    p.Safe env crash post disk budget := by
  induction p generalizing disk budget
  case done a          => exact hp _ _ _ hd <| Nat.le_refl _
  case step op next hi =>
    refine ⟨fun _ => hc _ hd, fun _ => hi _ (h.right _) (h.left _ hd) hp, ?_⟩
    rintro budget' rfl
    have hp' : ∀ a disk left, inv disk → left ≤ budget' → post a disk left :=
      fun a disk left hd hl => hp a disk left hd (by omega)
    exact ⟨fun _ => hi _ (h.right _) hd hp', fun _ => hi _ (h.right _) (h.left _ hd) hp'⟩

-- Where no failure is left, a program that does not die runs as it should.
theorem safe_of_run {p : FileProgram α} (hc : ∀ d ∈ p.trace disk, crash d)
    (hp : post (p.run disk).snd (p.run disk).fst 0) : p.Safe env crash post disk 0 := by
  induction p generalizing disk
  case done a          => exact hp
  case step op next hi =>
    have ⟨hd, ht⟩ := List.forall_mem_cons.mp hc
    exact ⟨fun _ => hd, fun _ => hi _ ht hp, fun _ h => by cases h⟩

end FileProgram
