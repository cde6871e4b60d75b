import PivotQuery.Dialect.Engines
import PivotQuery.Interchange.Pivot
import PivotQuery.Interchange.Table
import PivotQuery.Json.Reader
import PivotQuery.Proofs.Schema.Lookup
import PivotQuery.Proofs.Schema.Operations
import PivotQuery.Proofs.Lowering.Invariant
import PivotQuery.Proofs.Lowering.Operators
import PivotQuery.Proofs.Lowering.SelectList
import PivotQuery.Proofs.Lowering.Scope
import PivotQuery.Proofs.Lowering.References
import PivotQuery.Proofs.Rows.Engine
import PivotQuery.Proofs.Rows.Query
import PivotQuery.Proofs.Rows.Select
import PivotQuery.Proofs.Rows.Row
import PivotQuery.Proofs.Rows.Evaluation
import PivotQuery.Proofs.Lowering.OperatorRows
import PivotQuery.Proofs.Lowering.OperatorGroups
import PivotQuery.Proofs.Lowering.OperatorBags
import PivotQuery.Proofs.Lowering.Bag
import PivotQuery.Proofs.Rows.Order
import PivotQuery.Proofs.Lowering.SortKeys
import PivotQuery.Proofs.Lowering.OperatorOrder
import PivotQuery.Proofs.Lowering.RowOrder
import PivotQuery.Proofs.Paging.Page
import PivotQuery.Proofs.Aggregates.ProjectedRows
import PivotQuery.Proofs.Aggregates.FilteredRow
import PivotQuery.Proofs.Tokens.Constants
import PivotQuery.Proofs.Rows.Cells
import PivotQuery.Proofs.Schema.Acceptance
import PivotQuery.Proofs.Aggregates.RowCount
import PivotQuery.Proofs.Pivot.Branches
import PivotQuery.Proofs.Pivot.DisplayOrder
import PivotQuery.Proofs.Pivot.LeafOrder
import PivotQuery.Proofs.Pivot.RootRow
import PivotQuery.Proofs.Pivot.PrefixClosed
import PivotQuery.Proofs.Paging.OrderColumns
import PivotQuery.Proofs.Lowering.UnionTrees
import PivotQuery.Proofs.Interchange.Revival
import PivotQuery.Proofs.NumberedNames
import PivotQuery.Proofs.Lowering.LegalShape
import PivotQuery.Proofs.Paging.GeneratedNames
import PivotQuery.Proofs.Pivot.ReservedNames
import PivotQuery.Proofs.Pivot.Construction
import PivotQuery.Proofs.Pivot.DrillDown
import PivotQuery.Proofs.Pivot.Extensionality
import PivotQuery.Proofs.Tokens.Patterns
import PivotQuery.Proofs.Conditions.Rendering
import PivotQuery.Proofs.Query.Combination
import PivotQuery.Proofs.Tokens.ReadBack
import PivotQuery.Proofs.Vocabulary.TypeNames
import PivotQuery.Proofs.Vocabulary.Calls
import PivotQuery.Proofs.Tokens.Rules
import PivotQuery.Proofs.Tokens.Cuts
import PivotQuery.Proofs.Aliases.Numbering
import PivotQuery.Proofs.Aliases.Spelling
import PivotQuery.Proofs.Aliases.Sides
import PivotQuery.Proofs.Aliases.Placement
