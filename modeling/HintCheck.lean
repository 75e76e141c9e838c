import HintCheck.Text.Lowercase
import HintCheck.Ty.Read
import HintCheck.Ty.Compare
import HintCheck.Ty.Suggest
import HintCheck.Ty.Literal
import HintCheck.Doc.Read
import HintCheck.Signature.Read
import HintCheck.Suppress
import HintCheck.Yaml.Block
import HintCheck.Settings
import HintCheck.ClassIndex
import HintCheck.Inspect.Check
import HintCheck.Source.Scan
import HintCheck.Main
import HintCheck.Proofs.Ty.DocText
import HintCheck.Proofs.Ty.Repair
import HintCheck.Proofs.Ty.MemberSet
import HintCheck.Proofs.Ty.NullAlike
import HintCheck.Proofs.Signature.Recover
import HintCheck.Proofs.Signature.Comments
import HintCheck.Proofs.Signature.Commas
import HintCheck.Proofs.Signature.Faults
import HintCheck.Proofs.Signature.Property
import HintCheck.Proofs.ClassIndex.Ancestors
import HintCheck.Proofs.ClassIndex.Growth
import HintCheck.Proofs.ClassIndex.Interfaces
import HintCheck.Proofs.Doc.TagLines
import HintCheck.Proofs.Doc.Wrapped
import HintCheck.Proofs.Rule.Silencing
import HintCheck.Proofs.Rule.ItemType
import HintCheck.Proofs.Rule.Repeating
import HintCheck.Proofs.Rule.Local
import HintCheck.Proofs.Rule.Switches
import HintCheck.Proofs.Files.Order
import HintCheck.Proofs.Report.Counts
import HintCheck.Proofs.Source.Malformed
import HintCheck.Proofs.Ty.DeclText
import HintCheck.Proofs.Inspect.NullSpelling
import HintCheck.Proofs.Ty.Direction
import HintCheck.Proofs.Ty.ExampleDecl
import HintCheck.Proofs.Inspect.Followed
import HintCheck.Proofs.Ty.Widening
import HintCheck.Proofs.Ty.ClassNames
import HintCheck.Proofs.Rule.Needless
import HintCheck.Proofs.Rule.Getter
import HintCheck.Proofs.Doc.TypedTags
import HintCheck.Proofs.Ty.Quotation
import HintCheck.Proofs.Source.Imports
import HintCheck.Proofs.Rule.Groups
import HintCheck.Proofs.Rule.Directives
import HintCheck.Proofs.Inspect.Taken
import HintCheck.Proofs.Doc.TagNames
import HintCheck.Proofs.Rule.Relaxed
import HintCheck.Proofs.Files.CommonRoot
import HintCheck.Proofs.Ty.ClassMatch
import HintCheck.Proofs.Text.Pieces
