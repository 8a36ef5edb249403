import Transposition.Config.Source
import Transposition.Main
import Transposition.Pool.Schedule
import Transposition.Proofs.Addressing
import Transposition.Proofs.Arithmetic
import Transposition.Proofs.Checking
import Transposition.Proofs.Filling
import Transposition.Proofs.Isolation
import Transposition.Proofs.Occupancy
import Transposition.Proofs.Overlay
import Transposition.Proofs.Pool
import Transposition.Proofs.Retry
import Transposition.Proofs.Room
import Transposition.Proofs.RoundTrip
import Transposition.Proofs.Schedule
import Transposition.Proofs.Sizes
import Transposition.Proofs.Stress
import Transposition.Proofs.Victim
import Transposition.Session.Bucket
import Transposition.Session.Pool
