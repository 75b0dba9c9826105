import PortWarden.CommandLine.Directory
import PortWarden.Host.Trace
import PortWarden.Main
import PortWarden.Probe.Scripted
import PortWarden.Proofs.Search
import PortWarden.Session
import PortWarden.Proofs.Ownership
import PortWarden.Proofs.Run
import PortWarden.Proofs.Exclusivity
import PortWarden.Proofs.Verdict
import PortWarden.Proofs.Reservation
import PortWarden.Proofs.Accounting
import PortWarden.Proofs.Course
import PortWarden.Proofs.Surfacing
import PortWarden.Proofs.Permanence
import PortWarden.Proofs.Cycle
import PortWarden.Proofs.Drawing
import PortWarden.Proofs.LockStep
import PortWarden.Proofs.Validity
import PortWarden.Proofs.Guarding
import PortWarden.Proofs.Limits
import PortWarden.Proofs.Answering
import PortWarden.Proofs.Execution
import PortWarden.Proofs.Freedom
import PortWarden.Proofs.Documents
import PortWarden.Proofs.Groups
import PortWarden.Proofs.Foreign
import PortWarden.Proofs.Arguments
import PortWarden.Proofs.Holding
import PortWarden.Proofs.MembershipText
import PortWarden.Proofs.Resolution
import PortWarden.Proofs.Outcome
import PortWarden.Proofs.Sharing
import PortWarden.Proofs.Presentation
