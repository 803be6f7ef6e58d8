import TwoPhaseCommit.Log.Script
import TwoPhaseCommit.Scenario.Session
import TwoPhaseCommit.Proofs.Dialogue
import TwoPhaseCommit.Proofs.System
import TwoPhaseCommit.Proofs.Moves
import TwoPhaseCommit.Proofs.Completion
import TwoPhaseCommit.Proofs.Machine
import TwoPhaseCommit.Proofs.Admission
import TwoPhaseCommit.Proofs.Course
import TwoPhaseCommit.Proofs.Ordering
import TwoPhaseCommit.Proofs.Commit
import TwoPhaseCommit.Proofs.Record
import TwoPhaseCommit.Proofs.Passes
import TwoPhaseCommit.Proofs.History
import TwoPhaseCommit.Proofs.Reversal
import TwoPhaseCommit.Proofs.Obligations
import TwoPhaseCommit.Proofs.Repetition
import TwoPhaseCommit.Proofs.Consistency
import TwoPhaseCommit.Proofs.Crash
import TwoPhaseCommit.Proofs.Torn
import TwoPhaseCommit.Proofs.Outcome
import TwoPhaseCommit.Proofs.Requests
import TwoPhaseCommit.Proofs.Marks
import TwoPhaseCommit.Proofs.Ledger
import TwoPhaseCommit.Proofs.Aborts
import TwoPhaseCommit.Proofs.Checksum
import TwoPhaseCommit.Proofs.Frame
import TwoPhaseCommit.Proofs.Damage
import TwoPhaseCommit.Proofs.Scan
import TwoPhaseCommit.Proofs.FileLog
import TwoPhaseCommit.Proofs.Statuses
import TwoPhaseCommit.Proofs.Association
import TwoPhaseCommit.Proofs.Balance
import TwoPhaseCommit.Proofs.Names
import TwoPhaseCommit.Proofs.Cuts
import TwoPhaseCommit.Proofs.Unpersisted
import TwoPhaseCommit.Proofs.Mirror
import TwoPhaseCommit.Proofs.Renaming
import TwoPhaseCommit.Proofs.Reports
import TwoPhaseCommit.Proofs.Success
import TwoPhaseCommit.Proofs.Likeness
import TwoPhaseCommit.Proofs.Erasure
import TwoPhaseCommit.Proofs.Isolation
import TwoPhaseCommit.Proofs.LastAgent
import TwoPhaseCommit.Proofs.Participation
import TwoPhaseCommit.Proofs.Rounds
import TwoPhaseCommit.Proofs.Folding
import TwoPhaseCommit.Proofs.Oversize
import TwoPhaseCommit.Proofs.Documents
import TwoPhaseCommit.Proofs.Growth
import TwoPhaseCommit.Proofs.Opening
import TwoPhaseCommit.Proofs.Reopening
import TwoPhaseCommit.Proofs.Scripts
