import RowPolicy.Predicate.Equality
import RowPolicy.Main
import RowPolicy.Proofs.Predicate.Containment
import RowPolicy.Proofs.Predicate.Reading
import RowPolicy.Proofs.Predicate.Belonging
import RowPolicy.Proofs.Subquery.Selection
import RowPolicy.Proofs.Policy.Clauses
import RowPolicy.Proofs.Manifest.Proper
import RowPolicy.Proofs.Manifest.Grouping
import RowPolicy.Proofs.Manifest.FirstFault
import RowPolicy.Proofs.Manifest.Acceptance
import RowPolicy.Proofs.Manifest.Extras
import RowPolicy.Proofs.Manifest.Widening
import RowPolicy.Proofs.Manifest.Security
import RowPolicy.Proofs.Manifest.Keys
import RowPolicy.Proofs.Subquery.Names
import RowPolicy.Proofs.Subquery.Spelling
import RowPolicy.Proofs.Predicate.Truth
import RowPolicy.Proofs.Subquery.Filters
import RowPolicy.Proofs.Subquery.Advice
import RowPolicy.Proofs.Subquery.Order
import RowPolicy.Proofs.Reference.Segments
import RowPolicy.Proofs.Predicate.Qualifiers
import RowPolicy.Proofs.Index.Columns
import RowPolicy.Proofs.Predicate.Literals
import RowPolicy.Proofs.Policy.Names
import RowPolicy.Proofs.Predicate.Empties
import RowPolicy.Proofs.Policy.Settings
import RowPolicy.Proofs.Manifest.Described
import RowPolicy.Proofs.Index.Names
import RowPolicy.Proofs.Index.Served
import RowPolicy.Proofs.Index.Identifiers
import RowPolicy.Proofs.Policy.CommentLine
import RowPolicy.Proofs.Reference.Quoting
import RowPolicy.Proofs.Manifest.TemplateNames
