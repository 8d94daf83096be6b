import Tabular.Main
import Tabular.Value.Document
import Tabular.Proofs.Appending
import Tabular.Proofs.Cell
import Tabular.Proofs.Database
import Tabular.Proofs.FirstChunk
import Tabular.Proofs.Interchange
import Tabular.Proofs.Path
import Tabular.Proofs.Row
import Tabular.Proofs.Script
import Tabular.Proofs.Tree
import Tabular.Proofs.Cursor
import Tabular.Proofs.Validation
import Tabular.Proofs.Footprint
import Tabular.Proofs.Decimal
import Tabular.Proofs.Lexeme
import Tabular.Statement.Printer
import Tabular.Proofs.Printing
import Tabular.Proofs.Composition
import Tabular.Proofs.Catalog
import Tabular.Proofs.ColumnType
import Tabular.Proofs.Document
import Tabular.Proofs.Execution
import Tabular.Proofs.Location
import Tabular.Proofs.Shape
import Tabular.Proofs.WholeRows
import Tabular.Proofs.Registry
import Tabular.Proofs.Unordered
import Tabular.Proofs.Spacing
import Tabular.Proofs.Rendering
import Tabular.Proofs.Inverse
import Tabular.Proofs.Scan
import Tabular.Proofs.Growth
import Tabular.Proofs.CellOrder
import Tabular.Proofs.Partition
import Tabular.Proofs.TypeText
import Tabular.Proofs.Segments
import Tabular.Proofs.Isolation
import Tabular.Proofs.Classification
import Tabular.Proofs.Insertion
import Tabular.Proofs.Cutting
import Tabular.Proofs.Grid
import Tabular.Proofs.Dialogue
import Tabular.Proofs.Slicing
