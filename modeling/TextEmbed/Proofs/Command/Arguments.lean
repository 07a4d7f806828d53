import TextEmbed.Command.Arguments
import TextEmbed.Proofs.FileTree

/-!
# Accepted command lines

What can be relied on when a command line was accepted. A command line is complete if it names a
file.

## Main results

* `Options.exists_of_ofArguments`: what is found on an accepted command line;
* `Options.files_ne_nil`: an accepted command line names a file.
-/

namespace TextEmbed.Command.Options

variable {arguments : List (List UInt8)} {options : Options}

/-- On an accepted command line files are found. It asks for what is found, and for defaults. -/
theorem exists_of_ofArguments (h : ofArguments arguments = .ok options) :
    ∃ found, Reading.arguments {} arguments = .ok found ∧ found.files ≠ [] ∧
      options = ofMatches found.withDefaults := by
  obtain ⟨found, hfound, h⟩ := exists_of_bind_eq_ok h
  obtain ⟨complete, hcomplete, h⟩ := exists_of_bind_eq_ok h
  have hoptions : ofMatches complete = options := Except.ok.inj h
  by_cases hfiles : found.files = []
  · simp [Library.clap, hfiles] at hcomplete
  · refine ⟨found, hfound, hfiles, ?_⟩
    simp only [Library.clap, hfiles, if_false, Except.ok.injEq] at hcomplete
    rw [← hoptions, hcomplete]

/-- An accepted command line names a file. -/
theorem files_ne_nil (h : ofArguments arguments = .ok options) : options.files ≠ [] := by
  obtain ⟨found, -, hfiles, rfl⟩ := exists_of_ofArguments h
  exact hfiles

end TextEmbed.Command.Options
