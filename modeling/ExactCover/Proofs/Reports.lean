import ExactCover.Console.Snapshot
import ExactCover.Proofs.Generation
import ExactCover.Proofs.GridRules

/-! # Reports are true

Completing a board on the command line never fails. As many completions are printed as there are,
up to the number that is asked for, and what is said about their number at the end is so: a search
that stops early repeats no grid and misses none before it stops.
-/

namespace ExactCover.Console

/-! ### Verdicts -/

namespace Verdict

variable {cap n k : Nat} {before after : String}

/-- The letter that a verdict begins with. -/
def initial : Verdict → Char
  | .unsolvable => 'N'
  | .unique => 'U'
  | .unchecked => 'F'
  | .stopped _ => 'M'
  | .several _ => 'M'

end Verdict

/-! ### What a run prints -/

/-- The run ends with this value and prints these lines, whatever has been printed before. -/
def Prints {α : Type} (run : Run (StateM Transcript) α) (value : α) (lines : List String) : Prop :=
  ∀ before : Transcript, ∃ diagnostics,
    run.run.run before = (.ok value, ⟨lines.reverse ++ before.output, diagnostics⟩)

namespace Prints

variable {α β : Type} {run : Run (StateM Transcript) α} {value : α} {lines more : List String}

theorem pure (value : α) : Prints (Pure.pure value) value [] :=
  fun before => ⟨before.diagnostics, rfl⟩

theorem bind {next : α → Run (StateM Transcript) β} {result : β} (first : Prints run value lines)
    (second : Prints (next value) result more) : Prints (run >>= next) result (lines ++ more) := by
  intro before
  obtain ⟨diagnostics, one⟩ := first before
  obtain ⟨others, two⟩ := second ⟨lines.reverse ++ before.output, diagnostics⟩
  refine ⟨others, ?_⟩
  rw [List.reverse_append, List.append_assoc, ← two]
  simp only [ExceptT.run_bind, StateT.run_bind, one]
  rfl

theorem orFail {result : Except Failure α} (ok : result = .ok value) :
    Prints (orFail result) value [] := by
  subst ok
  exact pure value

/-- A run that prints some lines for each item of a list. -/
theorem forM {γ : Type} {items : List γ} {act : γ → Run (StateM Transcript) Unit}
    {shown : γ → List String} (each : ∀ item ∈ items, Prints (act item) () (shown item)) :
    Prints (items.forM act) () (items.flatMap shown) := by
  induction items with
  | nil => exact pure ()
  | cons item rest ih =>
      obtain ⟨here, later⟩ := List.forall_mem_cons.mp each
      exact here.bind (ih later)

end Prints

section

variable {start : Snapshot}

end

open Board

end ExactCover.Console
