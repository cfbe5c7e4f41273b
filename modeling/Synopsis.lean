import Synopsis.Main
import Synopsis.Proofs.Matching.Acceptance
import Synopsis.Proofs.Matching.Reordering
import Synopsis.Proofs.Application.OptionValues
import Synopsis.Proofs.Application.Positionals
import Synopsis.Proofs.Matching.Frame
import Synopsis.Proofs.Matching.Choice
import Synopsis.Proofs.Matching.PlainLine
import Synopsis.Proofs.Application.Listing
import Synopsis.Proofs.Usage.NormalForm
import Synopsis.Proofs.Usage.Tokens
import Synopsis.Proofs.Usage.Lossless
import Synopsis.Proofs.Usage.Spelling
import Synopsis.Proofs.Usage.Writing
import Synopsis.Proofs.Usage.Stability
import Synopsis.Proofs.Usage.Grammar
import Synopsis.Proofs.Usage.Nesting
import Synopsis.Proofs.Usage.Lines
import Synopsis.Proofs.Registry.Lifetime
import Synopsis.Proofs.Application.Phases
import Synopsis.Proofs.Application.Accumulators
import Synopsis.Proofs.Tool.CommandLine
import Synopsis.Proofs.Pattern.Fixing
import Synopsis.Proofs.Matching.Rewriting
import Synopsis.Proofs.Occurrence.Respelling
import Synopsis.Proofs.Occurrence.Writing
import Synopsis.Proofs.Occurrence.Verbatim
import Synopsis.Proofs.Layout.Lines
import Synopsis.Proofs.Layout.Section
import Synopsis.Proofs.Pattern.Unnamed
import Synopsis.Proofs.Text.Trimming
import Synopsis.Proofs.OptionSpec.Description
import Synopsis.Proofs.OptionSpec.Writing
import Synopsis.Proofs.Layout.OptionList
import Synopsis.Proofs.Usage.Marker
import Synopsis.Proofs.Matching.Rounds
import Synopsis.Proofs.Text.Quoted
import Synopsis.Proofs.Value.Display
import Synopsis.Proofs.Report.Table
