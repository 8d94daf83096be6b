import Tabular.Proofs.CodePoints
import Tabular.Shell

/-! # Lines of an input

An input is cut at its line feeds before its lines are decoded. The byte of a line feed occurs in
the encoding of no other character, so that lines of text are read as they are typed.
-/

namespace Tabular

namespace Shell

end Shell

end Tabular
