import Baseline.FlatStore
import Baseline.Main
import Baseline.Text.RegularExpression
import Baseline.Proofs.Session.Effect
import Baseline.Proofs.Session.Touched
import Baseline.Proofs.Scan.Reach
import Baseline.Proofs.Comparison.Batch
import Baseline.Proofs.Scan.Exact
import Baseline.Proofs.Command.Run
import Baseline.Proofs.Session.Accept
import Baseline.Proofs.Command.Accept
import Baseline.Proofs.Command.Options
import Baseline.Proofs.Command.Consent
import Baseline.Proofs.Session.Converge
import Baseline.Proofs.Comparison.Contents
import Baseline.Proofs.Settings.Environment
import Baseline.Proofs.Settings.DefaultMode
import Baseline.Proofs.Settings.Layers
import Baseline.Proofs.Key.Canonical
import Baseline.Proofs.Comparison.Grammar
import Baseline.Proofs.Comparison.LastTouch
import Baseline.Proofs.Sweep.Strays
import Baseline.Proofs.Log.Readers
import Baseline.Proofs.Log.Written
import Baseline.Proofs.Sweep.Reply
import Baseline.Proofs.Desk.Output
import Baseline.Proofs.Key.Folder
import Baseline.Proofs.Sweep.Listing
import Baseline.Proofs.Comparison.Report
import Baseline.Proofs.Comparison.Order
import Baseline.Proofs.Scan.Ignored
import Baseline.Proofs.Comparison.Rerun
import Baseline.Proofs.Disk.Absent
