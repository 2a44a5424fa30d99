import ScriptHints.Analysis.Transcript
import ScriptHints.Main
import ScriptHints.Proofs.Text.Slice
import ScriptHints.Proofs.Token.Cut
import ScriptHints.Proofs.Token.Extent
import ScriptHints.Proofs.Token.Tiling
import ScriptHints.Proofs.Line.Grouping
import ScriptHints.Proofs.Variable.Counter
import ScriptHints.Proofs.Analysis.Study
import ScriptHints.Proofs.Analysis.Walk
import ScriptHints.Proofs.Analysis.Safety
import ScriptHints.Proofs.Outline.Acceptance
import ScriptHints.Proofs.Analysis.Scoping
import ScriptHints.Proofs.Analysis.Coverage
import ScriptHints.Proofs.Token.Grammar
import ScriptHints.Proofs.Token.Resumption
import ScriptHints.Proofs.Analysis.Outcome
import ScriptHints.Proofs.Analysis.Depth
import ScriptHints.Proofs.Analysis.Scopes
import ScriptHints.Proofs.Analysis.EmptySections
import ScriptHints.Proofs.Hint.History
import ScriptHints.Proofs.Token.LineBreak
import ScriptHints.Proofs.Line.Shift
import ScriptHints.Proofs.Analysis.Displacement
import ScriptHints.Proofs.Analysis.Continuation
import ScriptHints.Proofs.Analysis.Padding
import ScriptHints.Proofs.Analysis.Reuse
import ScriptHints.Proofs.Outline.Alignment
import ScriptHints.Proofs.Line.Wording
import ScriptHints.Proofs.Line.Reindentation
import ScriptHints.Proofs.Analysis.Reindentation
import ScriptHints.Proofs.Report.Writer
import ScriptHints.Proofs.Command.Arguments
import ScriptHints.Proofs.Command.Files
import ScriptHints.Proofs.Command.Sources
import ScriptHints.Proofs.Variable.Nesting
import ScriptHints.Proofs.Variable.Template
import ScriptHints.Proofs.Variable.Percent
import ScriptHints.Proofs.Line.Physical
import ScriptHints.Proofs.Analysis.Labels
import ScriptHints.Proofs.Inference.Arithmetic
import ScriptHints.Proofs.Report.Grammar
import ScriptHints.Proofs.Report.Reader
import ScriptHints.Proofs.Report.Decoding
import ScriptHints.Proofs.Report.Listing
