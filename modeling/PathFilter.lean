import PathFilter.Main
import PathFilter.Proofs.Grammar
import PathFilter.Proofs.Reading
import PathFilter.Proofs.ReadingText
import PathFilter.Proofs.ReadingRun
import PathFilter.Proofs.StackEntries
import PathFilter.Proofs.StackLoops
import PathFilter.Proofs.Stacks
import PathFilter.Proofs.StackSteps
import PathFilter.Proofs.StackRun
import PathFilter.Proofs.Progress
import PathFilter.Proofs.Acceptance
import PathFilter.Proofs.WellFormed
import PathFilter.Proofs.Printing
import PathFilter.Proofs.RoundTrip
import PathFilter.Proofs.PathForm
import PathFilter.Proofs.FirstViolation
import PathFilter.Proofs.WholeText
import PathFilter.Proofs.Joining
import PathFilter.Proofs.Subtree
import PathFilter.Proofs.Conservation
import PathFilter.Proofs.Segments
import PathFilter.Proofs.MatchCourse
import PathFilter.Proofs.PairSets
import PathFilter.Proofs.Unescaped
import PathFilter.Proofs.Tiling
import PathFilter.Proofs.StrayCloser
import PathFilter.Proofs.OperandCount
import PathFilter.Proofs.TokenErrors
import PathFilter.Proofs.DanglingEscape
import PathFilter.Proofs.ErrorPositions
import PathFilter.Proofs.FinalErrors
import PathFilter.Proofs.Polarity
import PathFilter.Proofs.OnePerLine
import PathFilter.Proofs.Regrouping
import PathFilter.Proofs.SpareEscapes
import PathFilter.Proofs.PathsGiven
import PathFilter.Proofs.PropertyDecoding
import PathFilter.Proofs.FormatOptions
import PathFilter.Proofs.RunShown
import PathFilter.Proofs.MatchRun
import PathFilter.Proofs.MatchLog
import PathFilter.Proofs.Presentation
import PathFilter.Proofs.Unsupported
import PathFilter.Proofs.InStep
import PathFilter.Proofs.Unambiguous
