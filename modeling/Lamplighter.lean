import Lamplighter.Main
import Lamplighter.Session
import Lamplighter.Proofs.Program.RoundTrip
import Lamplighter.Proofs.Program.Insertion
import Lamplighter.Proofs.Program.Joining
import Lamplighter.Proofs.Program.Closers
import Lamplighter.Proofs.Program.OnePass
import Lamplighter.Proofs.Program.Crossing
import Lamplighter.Proofs.Program.Overlong
import Lamplighter.Proofs.Run.Replay
import Lamplighter.Proofs.Run.CallChain
import Lamplighter.Proofs.Run.Progress
import Lamplighter.Proofs.Run.Symmetry
import Lamplighter.Proofs.Run.Blame
import Lamplighter.Proofs.Run.Lights
import Lamplighter.Proofs.Run.FlatNames
import Lamplighter.Proofs.Run.Unrolling
import Lamplighter.Proofs.Run.Pruning
import Lamplighter.Proofs.Run.March
import Lamplighter.Proofs.Run.Layout
import Lamplighter.Proofs.World.Rendering
import Lamplighter.Proofs.Session.History
import Lamplighter.Proofs.Session.Deeds
import Lamplighter.Proofs.Session.Safety
import Lamplighter.Proofs.Session.Lights
import Lamplighter.Proofs.Session.Quiet
import Lamplighter.Proofs.Report
import Lamplighter.Proofs.Run.OuterNames
import Lamplighter.Proofs.Text.LineEnds
import Lamplighter.Proofs.Json.ReadBack
import Lamplighter.Proofs.Program.Unbroken
import Lamplighter.Proofs.Report.Lossless
import Lamplighter.Proofs.Report.Story
import Lamplighter.Proofs.Program.Outline
import Lamplighter.Proofs.Program.Positions
import Lamplighter.Proofs.Command.Newlines
import Lamplighter.Proofs.Command.Outcome
import Lamplighter.Proofs.Report.Writable
