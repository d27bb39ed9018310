import ProcTrace.Main
import ProcTrace.Session.Operation
import ProcTrace.Proofs.Session.StatusWord
import ProcTrace.Proofs.Session.AttachStop
import ProcTrace.Proofs.Session.Lifetime
import ProcTrace.Proofs.Session.SyscallPhase
import ProcTrace.Proofs.Session.Guards
import ProcTrace.Proofs.Session.HeldBack
import ProcTrace.Proofs.Seccomp.Chain
import ProcTrace.Proofs.Session.FailedWait
import ProcTrace.Proofs.Session.History
import ProcTrace.Proofs.InstalledFilters
import ProcTrace.Proofs.FirstFailure
import ProcTrace.Proofs.ReportedFailure
import ProcTrace.Proofs.Session.Handshake
import ProcTrace.Proofs.Session.PassedSignals
import ProcTrace.Proofs.Warnings
import ProcTrace.Proofs.Seccomp.Listing
import ProcTrace.Proofs.CommandLine
import ProcTrace.Proofs.Requeue
import ProcTrace.Proofs.Session.Classification
import ProcTrace.Proofs.Seccomp.Limit
import ProcTrace.Proofs.Session.FailedRequest
import ProcTrace.Proofs.IdleReplies
import ProcTrace.Proofs.Exhaustion
import ProcTrace.Proofs.Register.Value
import ProcTrace.Proofs.Seccomp.Encoding
