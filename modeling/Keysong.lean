import Keysong.Main
import Keysong.Proofs.Compiling
import Keysong.Proofs.Cues
import Keysong.Proofs.TokenLanguage
import Keysong.Proofs.Hearing
import Keysong.Proofs.Joining
import Keysong.Proofs.Performance
import Keysong.Proofs.Moves
import Keysong.Proofs.History
import Keysong.Proofs.Sessions
import Keysong.Proofs.Silence
import Keysong.Proofs.Precedence
import Keysong.Proofs.Delivery
import Keysong.Proofs.Incidents
import Keysong.Proofs.Alternation
import Keysong.Proofs.StandardFile
import Keysong.Proofs.FileReading
import Keysong.Proofs.Retiring
import Keysong.Proofs.Rounding
import Keysong.Proofs.Exporting
import Keysong.Proofs.Drift
import Keysong.Proofs.Positions
import Keysong.Proofs.Course
import Keysong.Proofs.Outputs
import Keysong.Proofs.Misconfiguration
import Keysong.Proofs.Visits
import Keysong.Proofs.Returning
import Keysong.Proofs.Touring
import Keysong.Proofs.Runs
import Keysong.Proofs.Passages
import Keysong.Proofs.Releasing
import Keysong.Proofs.Attempts
import Keysong.Proofs.Errands
import Keysong.Proofs.Replacing
import Keysong.Proofs.Strays
import Keysong.Proofs.Handing
import Keysong.Proofs.Refusals
import Keysong.Proofs.Packing
import Keysong.Proofs.WholeNumbers
import Keysong.Proofs.Tempos
import Keysong.Proofs.MachineClock
import Keysong.Proofs.Compass
import Keysong.Proofs.Dynamics
import Keysong.Proofs.Selecting
import Keysong.Proofs.Saving
import Keysong.Proofs.Shortening
import Keysong.Proofs.Spelling
import Keysong.Proofs.Quotients
import Keysong.Proofs.Slipping
import Keysong.Proofs.Sums
import Keysong.Proofs.Scheduling
