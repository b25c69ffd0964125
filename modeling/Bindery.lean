import Bindery.Main
import Bindery.Proofs.CType.Target
import Bindery.Proofs.CType.Shape
import Bindery.Proofs.CType.Distinct
import Bindery.Proofs.CommandLine.MapType
import Bindery.Proofs.Binding.Passing
import Bindery.Proofs.Emission.Checks
import Bindery.Proofs.Emission.Unambiguous
import Bindery.Proofs.FileTree.Directories
import Bindery.Proofs.FileTree.Writing
import Bindery.Proofs.Generation.AllOrNothing
import Bindery.Proofs.Generation.Jobs
import Bindery.Proofs.FileTree.Way
import Bindery.Proofs.FileTree.Plan
import Bindery.Proofs.Generation.Independence
import Bindery.Proofs.Json.Literal
import Bindery.Proofs.Json.Integer
import Bindery.Proofs.Json.Gap
import Bindery.Proofs.Interface.RoundTrip
import Bindery.Proofs.Emission.References
import Bindery.Proofs.Config.RoundTrip
import Bindery.Proofs.Interface.Schema
import Bindery.Proofs.Emission.CodeLines
import Bindery.Proofs.Emission.Signature
import Bindery.Proofs.Emission.Descriptions
import Bindery.Proofs.Interface.EnumValue
import Bindery.Proofs.Binding.Names
import Bindery.Proofs.Config.Overlay
import Bindery.Proofs.FileTree.Contents
import Bindery.Proofs.Generation.Formatting
import Bindery.Proofs.CType.Tokens
import Bindery.Proofs.Diagnostic
import Bindery.Proofs.Identifier.Acronyms
