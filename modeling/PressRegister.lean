import PressRegister.Main
import PressRegister.Workspace
import PressRegister.Proofs.Filter.Unambiguous
import PressRegister.Proofs.Inventory.Upsert
import PressRegister.Proofs.Mutation.Mutual
import PressRegister.Proofs.Predicate.RoundTrip
import PressRegister.Proofs.Schema.Consistency
import PressRegister.Proofs.Search.Enforcement
import PressRegister.Proofs.Search.Injection
import PressRegister.Proofs.Search.Recognition
import PressRegister.Proofs.Search.Visibility
import PressRegister.Proofs.Submission.BlankNodes
import PressRegister.Proofs.Submission.Composition
import PressRegister.Proofs.Submission.Denotation
import PressRegister.Proofs.Submission.Growth
import PressRegister.Proofs.Submission.Permission
import PressRegister.Proofs.Submission.RequiredFields
import PressRegister.Proofs.Submission.Reuse
import PressRegister.Proofs.Submission.Targets
import PressRegister.Proofs.Submission.UniqueNames
import PressRegister.Proofs.Workspace.History
import PressRegister.Proofs.Predicate.Passes
import PressRegister.Proofs.Text.Lines
import PressRegister.Proofs.Statement.Unambiguous
import PressRegister.Proofs.Mutation.Sections
import PressRegister.Proofs.Mutation.Legibility
import PressRegister.Proofs.Submission.Inheritance
import PressRegister.Proofs.Predicate.Years
import PressRegister.Proofs.Predicate.Domain
import PressRegister.Proofs.Submission.Repetition
import PressRegister.Proofs.Naming.Cascade
import PressRegister.Proofs.Submission.Overwrites
import PressRegister.Proofs.Search.Pages
import PressRegister.Proofs.Predicate.Spelling
import PressRegister.Proofs.Predicate.CommaLists
