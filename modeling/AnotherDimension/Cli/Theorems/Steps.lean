import AnotherDimension.Cli.Pending
import AnotherDimension.Library.CrashLogic

-- Rules for the file steps the commands are made of.

open FileProgram

namespace Cli

variable {env : Environment} {crash : Disk → Prop} {d : Disk} {budget : Nat}
  {path source target : FilePath}

-- A rename or a removal that fails has changed nothing.
structure Plain (env : Environment) : Prop where
  rename : ∀ source target, ¬env (.rename source target) (some .replaced)
  remove : ∀ path, ¬env (.remove path) (some .replaced)

theorem isFile_safe {post : Bool → Disk → Nat → Prop} (hc : crash d)
    (hs : post (d path).isSome d budget)
    (hf : ∀ left, budget = left + 1 →
      env (.read path) (some .untouched) ∨ env (.read path) (some .replaced) →
      post false d left) :
    (isFile path).Safe env crash post d budget := by
  refine ⟨fun _ => hc, fun _ => ?_, fun left hb => ⟨fun he => hf left hb (.inl he),
    fun he => hf left hb (.inr he)⟩⟩
  cases hp : d path <;> rw [hp] at hs <;>
    simp only [FileOp.answer, FileOp.effect, hp, Option.elim] <;> exact hs

theorem isFileWhen_safe {post : Bool → Disk → Nat → Prop} {condition : Bool} (hc : crash d)
    (hs : post (condition && (d path).isSome) d budget)
    (hf : ∀ left, budget = left + 1 → post false d left) :
    (isFileWhen condition path).Safe env crash post d budget := by
  cases condition
  case false => exact hs
  case true  => exact isFile_safe hc hs fun left hb _ => hf left hb

theorem readFile_safe {post : Except CliError Bytes → Disk → Nat → Prop} (hc : crash d)
    (hs : ∀ bytes, d path = some bytes → post (.ok bytes) d budget)
    (hn : d path = none → post (.error .io) d budget)
    (hf : ∀ left, budget = left + 1 → post (.error .io) d left) :
    (readFile path).Safe env crash post d budget := by
  refine ⟨fun _ => hc, fun _ => ?_, fun left hb => ⟨fun _ => hf left hb, fun _ => hf left hb⟩⟩
  cases hp : d path <;> simp only [FileOp.answer, FileOp.effect, hp, Option.elim]
  case none       => exact hn hp
  case some bytes => exact hs bytes hp

section

variable {post : Except CliError Unit → Disk → Nat → Prop}

theorem rename_safe (plain : Plain env) (hc : crash d)
    (hs : ∀ contents, d source = some contents → post (.ok ())
      (Function.update (Function.update d source none) target (some contents)) budget)
    (hn : d source = none → post (.error .io) d budget)
    (hf : ∀ left, budget = left + 1 → post (.error .io) d left) :
    (rename source target).Safe env crash post d budget := by
  refine ⟨fun _ => hc, fun _ => ?_, fun left hb => ⟨fun _ => hf left hb,
    fun he => absurd he <| plain.rename _ _⟩⟩
  cases hp : d source <;> simp only [FileOp.answer, FileOp.effect, hp, Option.elim]
  case none          => exact hn hp
  case some contents => exact hs contents hp

theorem renameWhen_safe (plain : Plain env) {condition : Bool} (hc : crash d)
    (hs : ∀ contents, condition = true → d source = some contents → post (.ok ())
      (Function.update (Function.update d source none) target (some contents)) budget)
    (hn : condition = true → d source = none → post (.error .io) d budget)
    (hf : ∀ left, condition = true → budget = left + 1 → post (.error .io) d left)
    (hskip : condition = false → post (.ok ()) d budget) :
    (renameWhen condition source target).Safe env crash post d budget := by
  cases condition
  case false => exact hskip rfl
  case true  =>
    exact rename_safe plain hc (fun contents => hs contents rfl) (hn rfl) fun left => hf left rfl

theorem atomicWrite_safe {contents : Bytes} (hc : crash d)
    (hs : post (.ok ()) (Function.update d path (some contents)) budget)
    (hf : ∀ left, budget = left + 1 → post (.error .io) d left ∧
      post (.error .io) (Function.update d path (some contents)) left) :
    (atomicWrite path contents).Safe env crash post d budget :=
  ⟨fun _ => hc, fun _ => hs, fun left hb => ⟨fun _ => (hf left hb).left,
    fun _ => (hf left hb).right⟩⟩

theorem deleteFile_safe (plain : Plain env) (hc : crash d)
    (hs : (d path).isSome → post (.ok ()) (Function.update d path none) budget)
    (hn : d path = none → post (.error .io) (Function.update d path none) budget)
    (hf : ∀ left, budget = left + 1 → post (.error .io) d left) :
    (deleteFile path).Safe env crash post d budget := by
  refine ⟨fun _ => hc, fun _ => ?_, fun left hb => ⟨fun _ => hf left hb,
    fun he => absurd he <| plain.remove _⟩⟩
  cases hp : d path <;> simp only [FileOp.answer, FileOp.effect, hp, Option.elim]
  case none => exact hn hp
  case some => exact hs (by simp [hp])

end

theorem removeFile_safe {post : Unit → Disk → Nat → Prop} (plain : Plain env) (hc : crash d)
    (hs : post () (Function.update d path none) budget)
    (hf : ∀ left, budget = left + 1 → post () d left) :
    (removeFile path).Safe env crash post d budget :=
  ⟨fun _ => hc, fun _ => hs, fun left hb => ⟨fun _ => hf left hb,
    fun he => absurd he <| plain.remove _⟩⟩

end Cli
