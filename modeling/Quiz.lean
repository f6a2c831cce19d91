/-
Quiz — quizzes made of screens: read, checked and played.
-/
import Quiz.CommandLine.Arguments
import Quiz.CommandLine.Run
import Quiz.CommandLine.Usage
import Quiz.Content.Depth
import Quiz.Content.Grid
import Quiz.Content.Item
import Quiz.Content.ItemReader
import Quiz.Content.ItemWriter
import Quiz.Content.Words
import Quiz.Flow.Category
import Quiz.Flow.Flow
import Quiz.Flow.Prepare
import Quiz.Flow.Record
import Quiz.Host.Act
import Quiz.Host.State
import Quiz.Json.Alike
import Quiz.Json.Reader
import Quiz.Json.Value
import Quiz.Json.Writer
import Quiz.Main
import Quiz.Number.Binary
import Quiz.Number.Numeral
import Quiz.Number.Shortest
import Quiz.Play.Branch
import Quiz.Play.Command
import Quiz.Play.Gate
import Quiz.Play.Layout
import Quiz.Play.Picking
import Quiz.Play.Player
import Quiz.Play.Reveal
import Quiz.Play.Scale
import Quiz.Play.Snapshot
import Quiz.Play.State
import Quiz.Play.Step
import Quiz.Play.Ticker
import Quiz.Proofs.Content.ReadParts
import Quiz.Proofs.Content.Reading
import Quiz.Proofs.Content.RoundTrip
import Quiz.Proofs.Content.WrittenParts
import Quiz.Proofs.Flow.BranchRecord
import Quiz.Proofs.Flow.CategoryBar
import Quiz.Proofs.Flow.Continue
import Quiz.Proofs.Flow.MergedResponses
import Quiz.Proofs.Flow.Preparing
import Quiz.Proofs.Flow.TextRecord
import Quiz.Proofs.Flow.TimeTaken
import Quiz.Proofs.Flow.Visit
import Quiz.Proofs.Flow.VisitRecords
import Quiz.Proofs.Host.Digits
import Quiz.Proofs.Host.Leaving
import Quiz.Proofs.Host.OwnCall
import Quiz.Proofs.Host.Turn
import Quiz.Proofs.Json.Place
import Quiz.Proofs.Number.FloatOrder
import Quiz.Proofs.Number.FloatRounding
import Quiz.Proofs.Number.NearestFloat
import Quiz.Proofs.Number.NumberText
import Quiz.Proofs.Play.Arrangement
import Quiz.Proofs.Play.Asking
import Quiz.Proofs.Play.Branching
import Quiz.Proofs.Play.Change
import Quiz.Proofs.Play.Commuting
import Quiz.Proofs.Play.Completion
import Quiz.Proofs.Play.Durations
import Quiz.Proofs.Play.ExactScale
import Quiz.Proofs.Play.ExactTimeline
import Quiz.Proofs.Play.FinalResponse
import Quiz.Proofs.Play.Finishing
import Quiz.Proofs.Play.Frontier
import Quiz.Proofs.Play.GateOrder
import Quiz.Proofs.Play.GateReports
import Quiz.Proofs.Play.GateTime
import Quiz.Proofs.Play.Handled
import Quiz.Proofs.Play.Interleaving
import Quiz.Proofs.Play.Isolation
import Quiz.Proofs.Play.Local
import Quiz.Proofs.Play.Loop
import Quiz.Proofs.Play.Move
import Quiz.Proofs.Play.NamedBranch
import Quiz.Proofs.Play.OrderedScale
import Quiz.Proofs.Play.Place
import Quiz.Proofs.Play.PopupProtocol
import Quiz.Proofs.Play.ReadingTime
import Quiz.Proofs.Play.Requests
import Quiz.Proofs.Play.Responses
import Quiz.Proofs.Play.Shown
import Quiz.Proofs.Play.Stored
import Quiz.Proofs.Play.Ticking
import Quiz.Proofs.Play.TypedText
import Quiz.Proofs.Schema.Reading
import Quiz.Proofs.Schema.Writing
import Quiz.Proofs.Screen.AddedButtons
import Quiz.Proofs.Screen.BranchButton
import Quiz.Proofs.Screen.BranchWalk
import Quiz.Proofs.Screen.Nesting
import Quiz.Proofs.Screen.OptionIdentity
import Quiz.Proofs.Screen.Parsed
import Quiz.Proofs.Screen.Placeholder
import Quiz.Proofs.Screen.Readers
import Quiz.Proofs.Screen.Substitution
import Quiz.Proofs.View.Numbered
import Quiz.Proofs.View.Passwords
import Quiz.Proofs.View.Withheld
import Quiz.Schema.Checked
import Quiz.Schema.Field
import Quiz.Schema.Issue
import Quiz.Schema.Scalar
import Quiz.Screen.BranchButton
import Quiz.Screen.Fault
import Quiz.Screen.Nesting
import Quiz.Screen.Placeholder
import Quiz.Screen.Source
import Quiz.Screen.Validate
import Quiz.Settings
import Quiz.Table
import Quiz.Text.CharKind
import Quiz.Text.CodePoint
import Quiz.Text.Printable
import Quiz.Text.Quoted
import Quiz.Text.Upper
import Quiz.View.Drawing
import Quiz.View.Picture
import Quiz.View.Records
