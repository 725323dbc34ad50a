import Kix.Number.Double
import Kix.Number.Decimal
import Kix.Number.Text
import Kix.Text.Blank
import Kix.Text.Json
import Kix.Text.Unprintable
import Kix.Text.Quoted
import Kix.Text.Utf8
import Kix.Token.Basic
import Kix.Token.Segment
import Kix.Token.Source
import Kix.Token.Dump
import Kix.Report
import Kix.Syntax.Expectation
import Kix.Syntax.Tree
import Kix.Syntax.Render
import Kix.Syntax.Cursor
import Kix.Syntax.ExpressionGrammar
import Kix.Syntax.StatementGrammar
import Kix.Scope.Address
import Kix.Scope.Resolution
import Kix.Frame
import Kix.Value
import Kix.Sink
import Kix.Machine
import Kix.Evaluation
import Kix.Session
import Kix.Command.Files
import Kix.Command.Options
import Kix.Command.Run
import Kix.Command.Script
import Kix.Main
import Kix.Proofs.Reading
import Kix.Proofs.StatementReading
import Kix.Proofs.ProgramShape
import Kix.Proofs.Sites
import Kix.Proofs.Lexical
import Kix.Proofs.StoreLaws
import Kix.Proofs.Standpoints
import Kix.Proofs.Correspondence
import Kix.Proofs.Simulation
import Kix.Proofs.Compilation
import Kix.Proofs.Visits
import Kix.Proofs.MissingVariables
import Kix.Proofs.Derivations
import Kix.Proofs.Spans
import Kix.Proofs.ExpressionAcceptance
import Kix.Proofs.Acceptance
import Kix.Proofs.Identities
import Kix.Proofs.Relabeling
import Kix.Proofs.Levels
import Kix.Proofs.Scanning
import Kix.Proofs.Flattening
import Kix.Proofs.RelabeledReading
import Kix.Proofs.RelabeledResolution
import Kix.Proofs.RelabeledRuns
import Kix.Proofs.StaticReports
import Kix.Proofs.Transcripts
import Kix.Proofs.ShiftedSessions
import Kix.Proofs.RejectedUnits
import Kix.Proofs.DeterminedReading
import Kix.Proofs.ExtendedReading
import Kix.Proofs.JoinedText
import Kix.Proofs.ProgramRuns
import Kix.Proofs.SplitUnits
import Kix.Proofs.Journal
import Kix.Proofs.TruncatedRuns
import Kix.Proofs.EncodedText
import Kix.Proofs.LimitedOutput
import Kix.Proofs.ByteScanning
import Kix.Proofs.SourcePartition
import Kix.Proofs.Outline
import Kix.Proofs.OutlineWalk
import Kix.Proofs.BoundNames
import Kix.Proofs.ResolvedOutline
import Kix.Proofs.LexicalAddressing
import Kix.Proofs.ScopingRules
import Kix.Proofs.UnusedVariables
import Kix.Proofs.UnusedPolicy
import Kix.Proofs.Aspects
import Kix.Proofs.Completion
import Kix.Proofs.GlobalNames
import Kix.Proofs.DirectLoops
import Kix.Proofs.ForLoops
import Kix.Proofs.PlacedItems
import Kix.Proofs.NearestDoubles
import Kix.Proofs.TokenClasses
import Kix.Proofs.FittingSegments
import Kix.Proofs.Layout
import Kix.Proofs.StrayCharacters
import Kix.Proofs.FrameChains
import Kix.Proofs.DoubleBits
import Kix.Proofs.SplicedNumbers
import Kix.Proofs.ContainedFailures
import Kix.Proofs.IndexedGrammar
import Kix.Proofs.IndexedPositions
import Kix.Proofs.IndexedReading
import Kix.Proofs.RootedMachines
import Kix.Proofs.GrowingFrames
import Kix.Proofs.DecimalTexts
import Kix.Proofs.DisplayedNumbers
import Kix.Proofs.JsonStrings
import Kix.Proofs.LegibleTrees
import Kix.Proofs.ReadRenderings
import Kix.Proofs.TokenListings
