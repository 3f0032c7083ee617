import ObjectGraph.Command
import ObjectGraph.Item.Response
import ObjectGraph.Main
import ObjectGraph.Proofs.Compile.Circles
import ObjectGraph.Proofs.Compile.Created
import ObjectGraph.Proofs.Compile.Departures
import ObjectGraph.Proofs.Compile.Strings
import ObjectGraph.Proofs.Compile.Summaries
import ObjectGraph.Proofs.Compile.Typing
import ObjectGraph.Proofs.Compile.WholeRows
import ObjectGraph.Proofs.Configuration.Files
import ObjectGraph.Proofs.Configuration.Sufficiency
import ObjectGraph.Proofs.Cypher.Collecting
import ObjectGraph.Proofs.Cypher.Scoping
import ObjectGraph.Proofs.Json.Normalizing
import ObjectGraph.Proofs.Literals
import ObjectGraph.Proofs.Malloy.References
import ObjectGraph.Proofs.Malloy.Stages
import ObjectGraph.Proofs.Memory.Attaching
import ObjectGraph.Proofs.Memory.Backends
import ObjectGraph.Proofs.Memory.GroupOrder
import ObjectGraph.Proofs.Memory.Kinds
import ObjectGraph.Proofs.Memory.Projecting
import ObjectGraph.Proofs.Memory.Renaming
import ObjectGraph.Proofs.Memory.Validation
import ObjectGraph.Proofs.NormalForms
import ObjectGraph.Proofs.Predicate.Positions
import ObjectGraph.Proofs.Predicate.ReadingBack
import ObjectGraph.Proofs.Query.Building
import ObjectGraph.Proofs.Query.Outlines
import ObjectGraph.Proofs.Query.Stored
import ObjectGraph.Proofs.Restrictions
import ObjectGraph.Proofs.Spellings
import ObjectGraph.Proofs.Sql.Names
