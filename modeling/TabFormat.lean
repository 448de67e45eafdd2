import TabFormat.Main
import TabFormat.Proofs.Course
import TabFormat.Proofs.Passage
import TabFormat.Proofs.Grammar.Tree
import TabFormat.Proofs.Grammar.Reading
import TabFormat.Proofs.Grammar.Remainder
import TabFormat.Proofs.Arguments
import TabFormat.Proofs.Grammar.Evaluation
import TabFormat.Proofs.Scan
import TabFormat.Proofs.Spelling.Written
import TabFormat.Proofs.Spelling.Call
import TabFormat.Proofs.Shift
import TabFormat.Proofs.Seam
import TabFormat.Proofs.Level
import TabFormat.Proofs.Normal
import TabFormat.Proofs.Nesting
import TabFormat.Proofs.Position
import TabFormat.Proofs.Groups
import TabFormat.Proofs.Answers
import TabFormat.Proofs.Grammar.Calls
import TabFormat.Proofs.Resplit
import TabFormat.Proofs.Passthrough
import TabFormat.Proofs.Finality
import TabFormat.Proofs.Limit
import TabFormat.Proofs.Escaping
import TabFormat.Proofs.Stock
import TabFormat.Proofs.Marker
import TabFormat.Proofs.RichText
import TabFormat.Proofs.Depth
import TabFormat.Proofs.Replacement
import TabFormat.Proofs.Splitting
import TabFormat.Proofs.Consecutive
import TabFormat.Proofs.Tokenization
import TabFormat.Proofs.Batches
import TabFormat.Proofs.Names
import TabFormat.Proofs.HtmlEnding
import TabFormat.Proofs.Places
import TabFormat.Proofs.Threads
import TabFormat.Proofs.Search
import TabFormat.Proofs.Composition
import TabFormat.Proofs.ControlFlow
import TabFormat.Proofs.Machines
import TabFormat.Proofs.Attempts
import TabFormat.Proofs.Leftmost
import TabFormat.Proofs.Substitution
import TabFormat.Proofs.Indentation
import TabFormat.Proofs.Inert
import TabFormat.Proofs.Selection
import TabFormat.Proofs.Slices
import TabFormat.Proofs.Registers
import TabFormat.Proofs.WellFormed
import TabFormat.Proofs.Bytes
import TabFormat.Proofs.Stretches
