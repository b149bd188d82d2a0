import ShellUnits.CommandLine.Run
import ShellUnits.Directory
import ShellUnits.Document.Text
import ShellUnits.Function.Script
import ShellUnits.Main
import ShellUnits.Pipeline
import ShellUnits.Proofs.Blocks
import ShellUnits.Proofs.Derivation
import ShellUnits.Proofs.Expansion
import ShellUnits.Proofs.Failures
import ShellUnits.Proofs.FixedPoint
import ShellUnits.Proofs.Format
import ShellUnits.Proofs.Growth
import ShellUnits.Proofs.Inlining
import ShellUnits.Proofs.Json
import ShellUnits.Proofs.LoadShape
import ShellUnits.Proofs.Locations
import ShellUnits.Proofs.Options
import ShellUnits.Proofs.Output
import ShellUnits.Proofs.Preorder
import ShellUnits.Proofs.Processing
import ShellUnits.Proofs.Reload
import ShellUnits.Proofs.Reordering
import ShellUnits.Proofs.Reserved
import ShellUnits.Proofs.Same
import ShellUnits.Same
import ShellUnits.Value.WellKeyed
import ShellUnits.Proofs.Confluence
import ShellUnits.Proofs.Resolution
import ShellUnits.Proofs.UniqueNames
import ShellUnits.Proofs.MissingStep
import ShellUnits.Proofs.Normalization
import ShellUnits.Proofs.BlankBodies
import ShellUnits.Proofs.Calls
import ShellUnits.Proofs.Account
import ShellUnits.Proofs.LineEnds
import ShellUnits.Proofs.Joining
import ShellUnits.Proofs.Traversal
import ShellUnits.Proofs.LeftOver
