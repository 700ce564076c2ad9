import PosixC.Foundation.Transition
import PosixC.Foundation.Monitor
import PosixC.Foundation.MonitorCounting
import PosixC.Foundation.Ring
import PosixC.Foundation.SizeT
import PosixC.Queue.Model
import PosixC.Queue.Representation
import PosixC.Queue.Delivery
import PosixC.Queue.Wakeups
import PosixC.Foundation.MonitorProgress
import PosixC.Queue.Abort
import PosixC.Queue.Forecast
import PosixC.Queue.AbortFailure
import PosixC.Queue.Errno
import PosixC.Crc.Hash
import PosixC.Crc.Programs
import PosixC.Crc.RoundTrip
import PosixC.Crc.Verification
import PosixC.Foundation.Heap
import PosixC.Memgrind.Model
import PosixC.Memgrind.Limits
import PosixC.Memgrind.Translation
import PosixC.Memgrind.Accounting
import PosixC.Memgrind.Calls
import PosixC.Primes.Model
import PosixC.Primes.Shutdown
import PosixC.Primes.Delivery
import PosixC.Foundation.RwLock
import PosixC.Sqrt.Model
import PosixC.Sqrt.Consistency
import PosixC.Foundation.Signals
import PosixC.Sigcalc.Model
import PosixC.Sigcalc.Additions
import PosixC.Foundation.CInt
import PosixC.Guessing.Binary
import PosixC.Queue.Atomicity
import PosixC.Crc.Bursts
import PosixC.Foundation.CBuffer
import PosixC.Foundation.Search
import PosixC.Ptgrep.Model
import PosixC.Ptgrep.Highlighting
import PosixC.Guessing.Linear
import PosixC.Guessing.Game
import PosixC.Guessing.Verdict
import PosixC.Guessing.BinaryGame
import PosixC.Foundation.Chain
import PosixC.Primes.LinkedList
import PosixC.Dynarray.Growth
import PosixC.Id.Users
import PosixC.Foundation.CPrint
import PosixC.Id.ProcessInfo
import PosixC.Memgrind.Environment
import PosixC.Foundation.Ledger
import PosixC.Memgrind.Admission
import PosixC.Queue.Creation
import PosixC.Seq.Progression
import PosixC.Comb.Binomial
import PosixC.Copy.CopyFd
import PosixC.Syscount.Counting
import PosixC.Foundation.Barrier
import PosixC.Power.Model
import PosixC.Power.Counting
import PosixC.Power.Termination
import PosixC.Tls.Model
import PosixC.Tls.Storage
import PosixC.Tls.Lines
import PosixC.Siglogd.Log
import PosixC.Siglogd.Tracing
import PosixC.Siglogd.Reports
import PosixC.Drop.Privileges
import PosixC.Foundation.Pipe
import PosixC.Pipes.Model
import PosixC.Pipes.Delivery
import PosixC.Mmapfill.Filling
import PosixC.Cat.Files
import PosixC.Ptgrep.Searching
import PosixC.Werecat.Delivery
import PosixC.Werecat.Settling
import PosixC.Condvar.Model
import PosixC.Waiting.Model
import PosixC.Waiting.Reports
import PosixC.Condvar.Broadcast
import PosixC.Foundation.Usage
import PosixC.Guessing.Cleanup
import PosixC.Guessing.Loading
