import Tddb.Types
import Tddb.History
import Tddb.Context
import Tddb.Commit
import Tddb.Operation
import Tddb.Step
import Tddb.Frame
import Tddb.Participant
import Tddb.OnePhase
import Tddb.Visibility
import Tddb.World
import Tddb.Dependency
import Tddb.Driver
import Tddb.Wal
import Tddb.Record
import Tddb.Accounting
import Tddb.LogProtocol
import Tddb.Assertions
import Tddb.Locking
import Tddb.Node
import Tddb.Progress
