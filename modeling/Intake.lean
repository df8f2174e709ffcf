import Intake.Main
import Intake.Proofs.Queue.Traffic
import Intake.Proofs.Record.Reading
import Intake.Proofs.Queue.Framing
import Intake.Proofs.Writer.Session
import Intake.Proofs.Writer.Abandon
import Intake.Proofs.Record.Marks
import Intake.Proofs.Record.OnePass
import Intake.Proofs.Record.Escapes
import Intake.Proofs.Record.Escaped
import Intake.Proofs.Record.Rendered
import Intake.Proofs.Conversion.Default
import Intake.Proofs.Record.Stream
import Intake.Proofs.Record.Written
import Intake.Proofs.Site.Frame
import Intake.Proofs.Run.Account
import Intake.Proofs.Run.Limit
import Intake.Proofs.Record.Marker
import Intake.Proofs.Writer.Tally
import Intake.Proofs.Run.Replay
import Intake.Proofs.Run.Influence
import Intake.Proofs.Writer.Batching
import Intake.Proofs.Run.Window
import Intake.Proofs.Run.Rows
import Intake.Proofs.Run.Interrupt
import Intake.Proofs.Record.Slices
import Intake.Proofs.Run.Balance
import Intake.Proofs.Run.Lifecycle
import Intake.Proofs.Run.Reload
import Intake.Proofs.Writer.Threshold
import Intake.Proofs.CommandLine.Target
import Intake.Proofs.Queue.Race
import Intake.Proofs.Conversion.Binary
import Intake.Proofs.Options.Precedence
import Intake.Proofs.Layout.Written
import Intake.Proofs.Conversion.Encoding
import Intake.Proofs.CommandLine.Control
import Intake.Proofs.Record.Custody
