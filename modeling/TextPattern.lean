import TextPattern.Condition
import TextPattern.Grammar.Email
import TextPattern.Grammar.Json
import TextPattern.Main
import TextPattern.Registry
import TextPattern.Search
import TextPattern.Proofs.CaptureLog
import TextPattern.Proofs.Reading
import TextPattern.Proofs.ReadingBounds
import TextPattern.Proofs.EffectLaws
import TextPattern.Proofs.Realization
import TextPattern.Proofs.MatcherRealization
import TextPattern.Proofs.OrderAndChoice
import TextPattern.Proofs.Agreement
import TextPattern.Proofs.Atomicity
import TextPattern.Proofs.CallDepth
import TextPattern.Proofs.Outcome
import TextPattern.Proofs.LoopOutcome
import TextPattern.Proofs.MatcherOutcome
import TextPattern.Proofs.Adequacy
import TextPattern.Proofs.Recognition
import TextPattern.Proofs.Json.Grammar
import TextPattern.Proofs.Json.Recognition
import TextPattern.Proofs.CaptureRuns
import TextPattern.Proofs.Utf8.ShortestForm
import TextPattern.Proofs.Utf8.Automaton
import TextPattern.Proofs.Utf8.Decoder
import TextPattern.Proofs.Utf8.RoundTrip
import TextPattern.Proofs.Seams
import TextPattern.Proofs.RestingPlaces
import TextPattern.Proofs.CursorRuns
import TextPattern.Proofs.Reach
import TextPattern.Proofs.Footprint
import TextPattern.Proofs.Positions
import TextPattern.Proofs.CaptureFrame
import TextPattern.Proofs.StoreIndependence
import TextPattern.Proofs.Utf8.Boundaries
import TextPattern.Proofs.WholeRunes
import TextPattern.Proofs.AsciiInput
import TextPattern.Proofs.Translation
import TextPattern.Proofs.Predicates
import TextPattern.Proofs.Stretches
import TextPattern.Proofs.Email.Grammar
import TextPattern.Proofs.Email.Recognition
import TextPattern.Proofs.Email.Report
import TextPattern.Proofs.Termination
import TextPattern.Proofs.UnitRepetition
import TextPattern.Proofs.LoopStarts
import TextPattern.Proofs.Conversions
import TextPattern.Proofs.CompleteGrammars
import TextPattern.Proofs.CollectedRounds
import TextPattern.Proofs.FailurePositions
import TextPattern.Proofs.Ledger
import TextPattern.Proofs.Release
import TextPattern.Proofs.Unfolding
import TextPattern.Proofs.SharedDefinitions
import TextPattern.Proofs.Lookahead
import TextPattern.Proofs.TerminatedItems
import TextPattern.Proofs.SeparatedLists
import TextPattern.Proofs.MappedMatches
import TextPattern.Proofs.Numerals
import TextPattern.Proofs.LeftmostMatch
import TextPattern.Proofs.SuccessiveMatches
import TextPattern.Proofs.Utf8.Concatenation
import TextPattern.Proofs.UnitTraversal
import TextPattern.Proofs.LiteralRunes
import TextPattern.Proofs.ClassMembership
