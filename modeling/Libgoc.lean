import Libgoc.Alts.Locking
import Libgoc.Channel.Callbacks
import Libgoc.Channel.DeadEntries
import Libgoc.Channel.Resuming
import Libgoc.Channel.Shutdown
import Libgoc.Channel.Waiting
import Libgoc.Gc.FiberRoots
import Libgoc.GocArray.Deque
import Libgoc.GocDict.Merging
import Libgoc.GocDict.Ordered
import Libgoc.Http.Request
import Libgoc.Http.Server.Shutdown
import Libgoc.Http.ServerRead
import Libgoc.Http.Totals
import Libgoc.Io.ReadStream
import Libgoc.Io.ServerStream
import Libgoc.Io.WriteFile
import Libgoc.Loop.Shutdown
import Libgoc.Loop.Wakeups
import Libgoc.Pool.Admission
import Libgoc.Pool.Scheduling
import Libgoc.RwMutex.Waiting
import Libgoc.Schema.ErrorPaths
import Libgoc.Schema.Objects
import Libgoc.Schema.Representation
import Libgoc.Schema.Termination
import Libgoc.Schema.Verdicts
import Libgoc.Timeout.Lifecycle
import Libgoc.Wsdq.Custody
