import Tabular.Text.Blank
import Tabular.Text.Letter
import Tabular.Text.Pieces
import Tabular.Text.Quoted
import Tabular.Text.Encoding
import Tabular.Number.Layout
import Tabular.Number.Arithmetic
import Tabular.Value.Order
import Tabular.Address
import Tabular.Formula.Lexer
import Tabular.Table.Basic
import Tabular.Formula.Parser
import Tabular.Formula.Apply
import Tabular.Filter
import Tabular.Table.Sort
import Tabular.Table.Classes
import Tabular.Table.Distinct
import Tabular.Table.Group
import Tabular.Table.Cut
import Tabular.Table.Columns
import Tabular.Table.Clean
import Tabular.Step
import Tabular.Summary
import Tabular.Csv.Record
import Tabular.Csv.Table
import Tabular.Document.Writer
import Tabular.Document.Table
import Tabular.Render.Markdown
import Tabular.Render.Aligned
import Tabular.Workbook
import Tabular.Settings
import Tabular.Exchange
import Tabular.Command.Run
import Tabular.Proofs.Formula.Counter
import Tabular.Proofs.Formula.Height
import Tabular.Proofs.Step
import Tabular.Proofs.Csv.Table
import Tabular.Proofs.Formula.Finite
import Tabular.Proofs.Formula.FirstError
import Tabular.Proofs.Formula.Reads
import Tabular.Proofs.Formula.Reference
import Tabular.Proofs.Formula.Cells
import Tabular.Proofs.Document.Table
import Tabular.Proofs.Table.Group
import Tabular.Proofs.Formula.Caseless
import Tabular.Proofs.Formula.Calls
import Tabular.Proofs.Command.Run
import Tabular.Proofs.Formula.SumIf
import Tabular.Proofs.Formula.Spelling
import Tabular.Proofs.Formula.Apply
import Tabular.Proofs.Table.Write
import Tabular.Proofs.Table.Sort
import Tabular.Proofs.Table.Distinct
import Tabular.Proofs.Table.Cut
import Tabular.Proofs.Filter
import Tabular.Proofs.Formula.Lookup
import Tabular.Proofs.Formula.Criterion
import Tabular.Proofs.Table.Clean
import Tabular.Proofs.Address.Spelling
import Tabular.Proofs.Predicate
import Tabular.Proofs.Csv.Reading
import Tabular.Proofs.Document.Union
import Tabular.Proofs.Formula.Average
import Tabular.Proofs.Table.Tally
import Tabular.Proofs.Render.Markdown
import Tabular.Proofs.Render.Aligned
import Tabular.Proofs.Table.Projection
import Tabular.Proofs.Table.Agreement
import Tabular.Proofs.Summary
import Tabular.Proofs.Table.NameSearch
