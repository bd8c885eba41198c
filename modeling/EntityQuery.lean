import EntityQuery.Model.Dynamic
import EntityQuery.Sql.Binding
import EntityQuery.Proofs.JoinGraph.Traversal
import EntityQuery.Proofs.Member.Expanded
import EntityQuery.Proofs.Model.Arguments
import EntityQuery.Proofs.Model.Loaded
import EntityQuery.Proofs.Plan.Beside
import EntityQuery.Proofs.Plan.Bound
import EntityQuery.Proofs.Plan.Consistent
import EntityQuery.Proofs.Plan.GroupNames
import EntityQuery.Proofs.Plan.Ignored
import EntityQuery.Proofs.Plan.Nested
import EntityQuery.Proofs.Plan.Numbering
import EntityQuery.Proofs.Plan.Operands
import EntityQuery.Proofs.Plan.Placed
import EntityQuery.Proofs.Plan.Readable
import EntityQuery.Proofs.Plan.Reordered
import EntityQuery.Proofs.Plan.Total
import EntityQuery.Proofs.Plan.Truth
import EntityQuery.Proofs.Plan.Uninfluenced
import EntityQuery.Proofs.Plan.WellScoped
import EntityQuery.Proofs.Query.Paging
import EntityQuery.Proofs.Record.Presence
import EntityQuery.Proofs.Schema.Checked
import EntityQuery.Proofs.Text.Lowering
import EntityQuery.Proofs.Schema.Lineage
import EntityQuery.Proofs.Schema.Rearranged
import EntityQuery.Proofs.Session.Account
import EntityQuery.Proofs.Session.Protocol
import EntityQuery.Proofs.Session.Selected
import EntityQuery.Proofs.Sql.Dialects
import EntityQuery.Proofs.Sql.Enclosed
