import AnotherDimension.Library.Bytes

-- Programs over a disk of whole files. Every file step can succeed, fail and leave the disk alone,
-- or fail after it has already taken effect; the process can die before any of them.

abbrev FilePath := String

abbrev Disk := FilePath → Option Bytes

inductive IoError
  | notFound
  | other
  deriving DecidableEq, Repr

-- The file steps a program is made of. A `write` replaces the whole file at once.
inductive FileOp
  | read (path : FilePath)
  | write (path : FilePath) (contents : Bytes)
  | remove (path : FilePath)
  | rename (source target : FilePath)

inductive FileProgram (α : Type)
  | done (a : α)
  | step (op : FileOp) (next : Except IoError Bytes → FileProgram α)

-- What happens to one file step.
inductive Fate
  | succeeds
  | untouched
  | replaced
  deriving DecidableEq, Repr

namespace FileOp

def effect : FileOp → Disk → Disk
  | read _, disk               => disk
  | write path contents, disk  => Function.update disk path (some contents)
  | remove path, disk          => Function.update disk path none
  | rename source target, disk =>
    match disk source with
    | none          => disk
    | some contents => Function.update (Function.update disk source none) target (some contents)

-- The step changes nothing at the path.
def Avoids (path : FilePath) : FileOp → Prop
  | read _               => True
  | write target _       => path ≠ target
  | remove target        => path ≠ target
  | rename source target => path ≠ source ∧ path ≠ target

theorem Avoids.effect_eq {path : FilePath} {op : FileOp} (h : op.Avoids path) (disk : Disk) :
    op.effect disk path = disk path := by
  match op with
  | read _               => rfl
  | write _ _            => exact Function.update_of_ne h _ _
  | remove _             => exact Function.update_of_ne h _ _
  | rename source target =>
    cases hs : disk source
    case none => simp [effect, hs]
    case some => simp [effect, hs, Function.update_of_ne h.right, Function.update_of_ne h.left]

-- Steps other than `read` answer with no bytes.
def answer : FileOp → Disk → Except IoError Bytes
  | read path, disk     => disk path |>.elim (.error .notFound) .ok
  | write _ _, _        => .ok []
  | remove path, disk   => disk path |>.elim (.error .notFound) fun _ => .ok []
  | rename source _, disk => disk source |>.elim (.error .notFound) fun _ => .ok []

end FileOp

namespace FileProgram

variable {α β : Type}

def bind : FileProgram α → (α → FileProgram β) → FileProgram β
  | done a, f       => f a
  | step op next, f => step op fun answer => (next answer).bind f

instance : Monad FileProgram where
  pure := done
  bind := bind

-- A single file step, as a program that returns its answer.
def perform (op : FileOp) : FileProgram (Except IoError Bytes) :=
  step op done

@[simp]
theorem pure_eq_done (a : α) : (pure a : FileProgram α) = done a :=
  rfl

@[simp]
theorem done_bind (a : α) (f : α → FileProgram β) : (done a >>= f) = f a :=
  rfl

@[simp]
theorem step_bind (op : FileOp) (next : Except IoError Bytes → FileProgram α)
    (f : α → FileProgram β) : (step op next >>= f) = step op fun answer => next answer >>= f :=
  rfl

@[simp]
theorem perform_bind (op : FileOp) (f : Except IoError Bytes → FileProgram β) :
    (perform op >>= f) = step op f :=
  rfl

theorem bind_assoc {γ : Type} (p : FileProgram α) (f : α → FileProgram β)
    (g : β → FileProgram γ) : (p >>= f >>= g) = (p >>= fun a => f a >>= g) := by
  induction p
  case done            => rfl
  case step op next hi => exact congrArg (step op) <| funext hi

-- Rust's `?`: an error ends the program.
def andThen {ε : Type} (p : FileProgram (Except ε α)) (f : α → FileProgram (Except ε β)) :
    FileProgram (Except ε β) :=
  p >>= fun
    | .ok a    => f a
    | .error e => done (.error e)

@[simp]
theorem done_ok_andThen {ε : Type} (a : α) (f : α → FileProgram (Except ε β)) :
    (done (.ok a)).andThen f = f a :=
  rfl

@[simp]
theorem done_error_andThen {ε : Type} (e : ε) (f : α → FileProgram (Except ε β)) :
    (done (.error e)).andThen f = done (.error e) :=
  rfl

@[simp]
theorem step_andThen {ε : Type} (op : FileOp) (next : Except IoError Bytes → FileProgram (Except ε α))
    (f : α → FileProgram (Except ε β)) :
    (step op next).andThen f = step op fun answer => (next answer).andThen f :=
  rfl

-- No step of the program changes anything at the path.
def Avoids (path : FilePath) : FileProgram α → Prop
  | done _       => True
  | step op next => op.Avoids path ∧ ∀ answer, (next answer).Avoids path

theorem Avoids.bind {path : FilePath} {p : FileProgram α} {f : α → FileProgram β}
    (hp : p.Avoids path) (hf : ∀ a, (f a).Avoids path) : (p >>= f).Avoids path := by
  induction p
  case done a          => exact hf a
  case step op next hi => exact ⟨hp.left, fun answer => hi answer <| hp.right answer⟩

theorem Avoids.andThen {ε : Type} {path : FilePath} {p : FileProgram (Except ε α)}
    {f : α → FileProgram (Except ε β)} (hp : p.Avoids path) (hf : ∀ a, (f a).Avoids path) :
    (p.andThen f).Avoids path :=
  hp.bind fun
    | .ok a    => hf a
    | .error _ => trivial

-- Whatever the disk answers, the program returns values of this kind only.
def Yields (post : α → Prop) : FileProgram α → Prop
  | done a      => post a
  | step _ next => ∀ answer, (next answer).Yields post

theorem Yields.bind {post : α → Prop} {post' : β → Prop} {p : FileProgram α}
    {f : α → FileProgram β} (hp : p.Yields post) (hf : ∀ a, post a → (f a).Yields post') :
    (p >>= f).Yields post' := by
  induction p
  case done a          => exact hf a hp
  case step op next hi => exact fun answer => hi answer <| hp answer

theorem yields_true (p : FileProgram α) : p.Yields fun _ => True := by
  induction p
  case done    => trivial
  case step hi => exact hi

theorem Avoids.bind_of_yields {path : FilePath} {post : α → Prop} {p : FileProgram α}
    {f : α → FileProgram β} (hp : p.Avoids path) (hy : p.Yields post)
    (hf : ∀ a, post a → (f a).Avoids path) : (p >>= f).Avoids path := by
  induction p
  case done a          => exact hf a hy
  case step op next hi =>
    exact ⟨hp.left, fun answer => hi answer (hp.right answer) (hy answer)⟩

-- The schedule gives the fate of each file step; where it ends the process dies. The result is the
-- disk that is left, and the value returned with the unused rest of the schedule.
def exec : FileProgram α → Disk → List Fate → Disk × Option (α × List Fate)
  | done a, disk, fates                     => (disk, some (a, fates))
  | step _ _, disk, []                      => (disk, none)
  | step op next, disk, .succeeds :: fates  => (next <| op.answer disk).exec (op.effect disk) fates
  | step _ next, disk, .untouched :: fates  => (next <| .error .other).exec disk fates
  | step op next, disk, .replaced :: fates  => (next <| .error .other).exec (op.effect disk) fates

-- The same without any fault.
def run : FileProgram α → Disk → Disk × α
  | done a, disk       => (disk, a)
  | step op next, disk => (next <| op.answer disk).run (op.effect disk)

-- Every disk an execution passes through, the first and the last one included.
def visited : FileProgram α → Disk → List Fate → List Disk
  | done _, disk, _                         => [disk]
  | step _ _, disk, []                      => [disk]
  | step op next, disk, .succeeds :: fates  =>
    disk :: (next <| op.answer disk).visited (op.effect disk) fates
  | step _ next, disk, .untouched :: fates  => disk :: (next <| .error .other).visited disk fates
  | step op next, disk, .replaced :: fates  =>
    disk :: (next <| .error .other).visited (op.effect disk) fates

-- Every disk a run without fault passes through.
def trace : FileProgram α → Disk → List Disk
  | done _, disk       => [disk]
  | step op next, disk => disk :: (next <| op.answer disk).trace (op.effect disk)

theorem Avoids.trace_eq {path : FilePath} {p : FileProgram α} (h : p.Avoids path) {disk d : Disk}
    (hd : d ∈ p.trace disk) : d path = disk path := by
  induction p generalizing disk
  case done => cases List.mem_singleton.mp hd; rfl
  case step op next hi =>
    cases List.mem_cons.mp hd
    case inl hd => rw [hd]
    case inr hd => exact (hi _ (h.right _) hd).trans <| h.left.effect_eq disk

theorem run_mem_trace (p : FileProgram α) (disk : Disk) : (p.run disk).fst ∈ p.trace disk := by
  induction p generalizing disk
  case done            => exact List.mem_singleton.mpr rfl
  case step op next hi => exact List.mem_cons_of_mem _ <| hi _ _

theorem Avoids.run_eq {path : FilePath} {p : FileProgram α} (h : p.Avoids path) (disk : Disk) :
    (p.run disk).fst path = disk path :=
  h.trace_eq <| run_mem_trace p disk

theorem exec_bind (p : FileProgram α) (f : α → FileProgram β) (disk : Disk) (fates : List Fate) :
    (p >>= f).exec disk fates =
      match p.exec disk fates with
      | (disk', none)             => (disk', none)
      | (disk', some (a, fates')) => (f a).exec disk' fates' := by
  induction p generalizing disk fates
  case done => rfl
  case step op next hi =>
    rw [step_bind]
    match fates with
    | []                   => rfl
    | .succeeds :: fates'  => exact hi _ _ _
    | .untouched :: fates' => exact hi _ _ _
    | .replaced :: fates'  => exact hi _ _ _

theorem exec_mem_visited (p : FileProgram α) (disk : Disk) (fates : List Fate) :
    (p.exec disk fates).fst ∈ p.visited disk fates := by
  induction p generalizing disk fates
  case done            => exact List.mem_singleton.mpr rfl
  case step op next hi =>
    match fates with
    | []                   => exact List.mem_singleton.mpr rfl
    | .succeeds :: fates'  => exact List.mem_cons_of_mem _ <| hi _ _ _
    | .untouched :: fates' => exact List.mem_cons_of_mem _ <| hi _ _ _
    | .replaced :: fates'  => exact List.mem_cons_of_mem _ <| hi _ _ _

theorem mem_visited_bind {p : FileProgram α} {f : α → FileProgram β} {disk d : Disk}
    {fates : List Fate} (h : d ∈ (p >>= f).visited disk fates) :
    d ∈ p.visited disk fates ∨
      ∃ disk' a rest, p.exec disk fates = (disk', some (a, rest)) ∧ d ∈ (f a).visited disk' rest := by
  induction p generalizing disk fates
  case done a          => exact .inr ⟨disk, a, fates, rfl, h⟩
  case step op next hi =>
    rw [step_bind] at h
    match fates with
    | []                   => exact .inl h
    | .succeeds :: fates'  =>
      exact (List.mem_cons.mp h).elim (fun h => .inl <| h ▸ List.mem_cons_self) fun h =>
        (hi _ h).imp_left <| List.mem_cons_of_mem _
    | .untouched :: fates' =>
      exact (List.mem_cons.mp h).elim (fun h => .inl <| h ▸ List.mem_cons_self) fun h =>
        (hi _ h).imp_left <| List.mem_cons_of_mem _
    | .replaced :: fates'  =>
      exact (List.mem_cons.mp h).elim (fun h => .inl <| h ▸ List.mem_cons_self) fun h =>
        (hi _ h).imp_left <| List.mem_cons_of_mem _

theorem run_bind (p : FileProgram α) (f : α → FileProgram β) (disk : Disk) :
    (p >>= f).run disk = (f (p.run disk).snd).run (p.run disk).fst := by
  induction p generalizing disk
  case done            => rfl
  case step op next hi => exact hi _ _

theorem run_andThen {ε : Type} (p : FileProgram (Except ε α)) (f : α → FileProgram (Except ε β))
    (disk : Disk) :
    (p.andThen f).run disk =
      match p.run disk with
      | (disk', .ok a)    => (f a).run disk'
      | (disk', .error e) => (disk', .error e) := by
  rw [andThen, run_bind]
  match p.run disk with
  | (_, .ok _)    => rfl
  | (_, .error _) => rfl

theorem mem_trace_bind {p : FileProgram α} {f : α → FileProgram β} {disk d : Disk}
    (h : d ∈ (p >>= f).trace disk) :
    d ∈ p.trace disk ∨ d ∈ (f (p.run disk).snd).trace (p.run disk).fst := by
  induction p generalizing disk
  case done => exact .inr h
  case step op next hi =>
    cases List.mem_cons.mp h
    case inl h => exact .inl <| h ▸ List.mem_cons_self
    case inr h => exact (hi _ h).imp_left <| List.mem_cons_of_mem _

theorem mem_trace_andThen {ε : Type} {p : FileProgram (Except ε α)}
    {f : α → FileProgram (Except ε β)} {disk d : Disk} (h : d ∈ (p.andThen f).trace disk) :
    d ∈ p.trace disk ∨ ∃ disk' a, p.run disk = (disk', .ok a) ∧ d ∈ (f a).trace disk' := by
  refine (mem_trace_bind h).elim .inl fun h => ?_
  match hr : p.run disk with
  | (disk', .ok a)    => exact .inr ⟨disk', a, rfl, by simpa [hr] using h⟩
  | (disk', .error e) =>
    have hd : d = (p.run disk).fst := by simpa [hr, trace] using h
    exact .inl <| hd ▸ run_mem_trace p disk

end FileProgram

-- The file failures a schedule holds.
def failures (fates : List Fate) : Nat :=
  fates.countP (· ≠ .succeeds)
