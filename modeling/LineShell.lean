import LineShell.Main
import LineShell.Proofs.Scheduler.Front
import LineShell.Scheduler.Drive
import LineShell.Proofs.Scheduler.Backstage
import LineShell.Proofs.Scheduler.Course
import LineShell.Proofs.Scheduler.Exclusive
import LineShell.Proofs.Scheduler.Flights
import LineShell.Proofs.Syntax.Reading
import LineShell.Proofs.Syntax.Templates
import LineShell.Proofs.Syntax.Tokens
import LineShell.Proofs.Syntax.Commands
import LineShell.Proofs.Syntax.Lines
import LineShell.Proofs.Syntax.ErrorPosition
import LineShell.Proofs.Syntax.TokenLanguage
import LineShell.Proofs.Syntax.DocumentedGrammar
import LineShell.Proofs.Syntax.Remainder
import LineShell.Proofs.Syntax.Printing
import LineShell.Proofs.Syntax.Placement
import LineShell.Proofs.Program.Expansion
import LineShell.Proofs.Scheduler.Ledger
import LineShell.Proofs.Scheduler.Lineup
import LineShell.Proofs.Scheduler.Answers
import LineShell.Proofs.Editor.Layout
import LineShell.Proofs.Shell.Repaint
import LineShell.Proofs.Shell.Typing
import LineShell.Proofs.Scheduler.Desk
import LineShell.Proofs.Scheduler.Repaints
import LineShell.Proofs.Scheduler.Submissions
import LineShell.Proofs.Scheduler.Suggestions
import LineShell.Proofs.Scheduler.Alert
import LineShell.Proofs.Scheduler.Playing
import LineShell.Proofs.Scheduler.Wakeful
import LineShell.Proofs.Scheduler.Progress
import LineShell.Proofs.Scheduler.Variables
import LineShell.Proofs.Terminal.Sequences
import LineShell.Proofs.Terminal.Events
import LineShell.Proofs.Text.Decoding
import LineShell.Proofs.CommandLine.Chunks
import LineShell.Proofs.Terminal.LastLine
import LineShell.Proofs.Scheduler.Leftovers
import LineShell.Proofs.Scheduler.Chronicle
import LineShell.Proofs.Scheduler.Onlookers
import LineShell.Proofs.Scheduler.TypedLines
import LineShell.Proofs.Scheduler.Docket
import LineShell.Proofs.Scheduler.Sends
import LineShell.Proofs.Scheduler.Regular
import LineShell.Proofs.Scheduler.Annals
import LineShell.Proofs.Scheduler.Reports
import LineShell.Proofs.Scheduler.Consoles
import LineShell.Proofs.Scheduler.Verdicts
import LineShell.Proofs.Syntax.Recovery
import LineShell.Proofs.Program.Flattening
import LineShell.Proofs.Terminal.LineStart
import LineShell.Proofs.Terminal.Screen
import LineShell.Proofs.Editor.Colouring
import LineShell.Proofs.Editor.Zipper
import LineShell.Proofs.Program.Quoting
import LineShell.Proofs.Scheduler.Lineage
import LineShell.Proofs.Syntax.Totality
import LineShell.Proofs.Scheduler.Farewells
import LineShell.Proofs.Scheduler.Partings
import LineShell.Proofs.Editor.Browsing
import LineShell.Proofs.Terminal.Written
import LineShell.Proofs.Program.Assignment
import LineShell.Proofs.Program.Acts
import LineShell.Proofs.Text.LineEnds
import LineShell.Proofs.Program.Delivery
import LineShell.Proofs.Syntax.Coherence
import LineShell.Proofs.Terminal.Events
