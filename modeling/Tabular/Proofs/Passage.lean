import Mathlib.Data.List.Basic
import Tabular.Shell

/-! # Passages one behind another

What is written behind a passage that ends the run is not written at all. Otherwise passages
behind one another are written as one.
-/

namespace Tabular.Shell.Passage

variable {first second : Passage} {passages : List Passage}

theorem append_of_exit {exitCode : Nat} (hexit : first.exit = some exitCode) (second : Passage) :
    first ++ second = first := by
  change append first second = first
  rw [append, hexit]

theorem append_of_goes (hgoes : first.exit = none) (second : Passage) :
    first ++ second = ⟨first.out ++ second.out, first.err ++ second.err, second.exit⟩ := by
  change append first second = _
  rw [append, hgoes]

theorem append_assoc (first second third : Passage) :
    first ++ second ++ third = first ++ (second ++ third) := by
  cases hfirst : first.exit with
  | some exitCode => rw [append_of_exit hfirst, append_of_exit hfirst, append_of_exit hfirst]
  | none =>
      rw [append_of_goes hfirst, append_of_goes hfirst]
      cases hsecond : second.exit with
      | some exitCode => rw [append_of_exit rfl, append_of_exit hsecond, hsecond]
      | none =>
          rw [append_of_goes rfl, append_of_goes hsecond, String.append_assoc, List.append_assoc]

end Tabular.Shell.Passage
