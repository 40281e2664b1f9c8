import SortClause.Main
import SortClause.Files.Tree
import SortClause.Inspect
import SortClause.Proofs.Candidates
import SortClause.Proofs.Fragments
import SortClause.Proofs.Composition
import SortClause.Proofs.Rendering
import SortClause.Proofs.Whitelist
import SortClause.Proofs.Requests
import SortClause.Proofs.Keys
import SortClause.Proofs.History
import SortClause.Proofs.Validity
import SortClause.Proofs.Tolerance
import SortClause.Proofs.Clauses
import SortClause.Proofs.Dependence
import SortClause.Proofs.Qualification
import SortClause.Proofs.Rereading
import SortClause.Proofs.Documents
import SortClause.Proofs.Checking
import SortClause.Proofs.Runs
import SortClause.Proofs.StandardInput
import SortClause.Proofs.Overrides
import SortClause.Proofs.Characters
import SortClause.Proofs.Accounts
import SortClause.Proofs.Lexemes
import SortClause.Proofs.Skipping
import SortClause.Proofs.Shapes
import SortClause.Proofs.Acceptance
import SortClause.Proofs.Verbatim
import SortClause.Proofs.Directories
import SortClause.Proofs.Slots
import SortClause.Proofs.Reports
