import Supervisor.Dispatcher.Timed
import Supervisor.Lsp.State
import Supervisor.Main
import Supervisor.Rehearsal.Run
import Supervisor.Session.CommandLine
import Supervisor.Proofs.Coordinator.Consistency
import Supervisor.Proofs.Coordinator.Moves
import Supervisor.Proofs.Coordinator.Ownership
import Supervisor.Proofs.Coordinator.Lineup
import Supervisor.Proofs.Coordinator.Containment
import Supervisor.Proofs.Coordinator.Blocks
import Supervisor.Proofs.Coordinator.Progress
import Supervisor.Proofs.Dispatcher.Timetable
import Supervisor.Proofs.Coordinator.Walk
import Supervisor.Proofs.Coordinator.Upkeep
import Supervisor.Proofs.Coordinator.Gate
import Supervisor.Proofs.Lsp.Parcel
import Supervisor.Proofs.Lsp.Answers
import Supervisor.Proofs.Lsp.Protocol
import Supervisor.Proofs.Coordinator.Bracketing
import Supervisor.Proofs.Coordinator.Companion
import Supervisor.Proofs.Coordinator.ReadyServer
import Supervisor.Proofs.Settings.Silence
import Supervisor.Proofs.Settings.Overlay
import Supervisor.Proofs.Dispatcher.Outcomes
import Supervisor.Proofs.Dispatcher.Turns
import Supervisor.Proofs.Settings.Saving
import Supervisor.Proofs.Settings.Placewise
import Supervisor.Proofs.Coordinator.Likeness
import Supervisor.Proofs.Lsp.Limits
import Supervisor.Proofs.Coordinator.Audible
import Supervisor.Proofs.Rehearsal.WaitingVisits
import Supervisor.Proofs.Rehearsal.Patience
import Supervisor.Proofs.Coordinator.RemainingCalls
import Supervisor.Proofs.Rehearsal.EndOfMoment
import Supervisor.Proofs.Session.Lines
import Supervisor.Proofs.Session.Lookup
import Supervisor.Proofs.Coordinator.Provision
import Supervisor.Proofs.Event.RoundTrip
import Supervisor.Proofs.Event.Broadcast
import Supervisor.Proofs.Session.Reload
import Supervisor.Proofs.Coordinator.CacheRemoval
import Supervisor.Proofs.Machine.Launching
