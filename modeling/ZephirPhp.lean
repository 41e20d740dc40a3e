import ZephirPhp.Command.Run
import ZephirPhp.Compiler
import ZephirPhp.Files.Disk
import ZephirPhp.Files.Table
import ZephirPhp.Files.Memory
import ZephirPhp.Json.Printer
import ZephirPhp.Main
import ZephirPhp.Proofs.Build.Places
import ZephirPhp.Proofs.Build.Artifacts
import ZephirPhp.Proofs.Build.Translation
import ZephirPhp.Proofs.Build.Step
import ZephirPhp.Proofs.Build.History
import ZephirPhp.Proofs.Build.Directory
import ZephirPhp.Proofs.Program.Assignments
import ZephirPhp.Proofs.Program.Decoded
import ZephirPhp.Proofs.Emission.Sites
import ZephirPhp.Proofs.Program.Processing
import ZephirPhp.Proofs.Emission.Checked
import ZephirPhp.Proofs.Emission.Faults
import ZephirPhp.Proofs.Emission.Refusal
import ZephirPhp.Proofs.Program.Encoding
import ZephirPhp.Proofs.Program.Reachable
import ZephirPhp.Proofs.Emission.Locality
import ZephirPhp.Proofs.Emission.Writing
import ZephirPhp.Proofs.Program.Texts
import ZephirPhp.Proofs.Emission.Arrangement
import ZephirPhp.Proofs.Emission.Balance
import ZephirPhp.Proofs.Emission.Nesting
import ZephirPhp.Proofs.Emission.Showing
import ZephirPhp.Proofs.Program.Returned
import ZephirPhp.Proofs.Emission.Survival
import ZephirPhp.Proofs.Emission.Literals
import ZephirPhp.Proofs.Program.Complaints
import ZephirPhp.Proofs.Build.Listing
import ZephirPhp.Proofs.Emission.Docblocks
import ZephirPhp.Proofs.Runs
import ZephirPhp.Proofs.Build.Independence
import ZephirPhp.Proofs.Build.Provenance
import ZephirPhp.Proofs.Emission.Likeness
import ZephirPhp.Proofs.Text.Indentation
import ZephirPhp.Proofs.Emission.Layouts
import ZephirPhp.Proofs.Build.Atomicity
import ZephirPhp.Proofs.Build.Preparation
import ZephirPhp.Proofs.Build.Repetition
import ZephirPhp.Proofs.Emission.Warnings
import ZephirPhp.Proofs.Emission.Levels
import ZephirPhp.Proofs.Emission.Isolation
import ZephirPhp.Proofs.Emission.Separation
import ZephirPhp.Proofs.Program.Spelling
import ZephirPhp.Proofs.Program.Settled
import ZephirPhp.Proofs.Emission.Accessors
import ZephirPhp.Proofs.Emission.Accounting
import ZephirPhp.Proofs.Emission.Hints
import ZephirPhp.Proofs.Program.Expansion
import ZephirPhp.Proofs.Program.MethodNames
import ZephirPhp.Proofs.Emission.Placement
import ZephirPhp.Proofs.Emission.Fusion
import ZephirPhp.Proofs.Emission.References
import ZephirPhp.Proofs.Emission.Trails
import ZephirPhp.Proofs.Text.Quoting
import ZephirPhp.Proofs.Emission.Targets
import ZephirPhp.Proofs.Text.StringValues
import ZephirPhp.Proofs.Emission.PropertyNames
import ZephirPhp.Proofs.Emission.Journal
import ZephirPhp.Proofs.Build.Installation
import ZephirPhp.Proofs.Emission.Neutrality
import ZephirPhp.Proofs.Program.NodeDepth
import ZephirPhp.Proofs.Program.Chains
import ZephirPhp.Proofs.Text.Insets
import ZephirPhp.Proofs.Program.Insets
import ZephirPhp.Proofs.Emission.Insets
import ZephirPhp.Proofs.Emission.TidyCode
import ZephirPhp.Proofs.Program.Closures
import ZephirPhp.Proofs.Emission.Indentation
import ZephirPhp.Proofs.Text.UpperCase
import ZephirPhp.Proofs.Program.KindKeys
