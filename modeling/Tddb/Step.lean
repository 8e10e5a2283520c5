import Tddb.Operation

namespace Tddb.Step

open Tddb.Types Tddb.Context Tddb.Commit Tddb.Operation

/-- What can happen to a context after `process_tx_request`: lock, DSB and WAL answers, the strand
running a posted `op_done`, a signal, the timeout, and the coordinator's decisions. -/
inductive Event where
  | notifyLockAcquire (ec : EC)
  | readDataFromDsbResponse (response : DsbReadResponse)
  | logEntryCommit
  | runPosted
  | abort (ec : EC)
  | timeoutCleanUp
  | handleTxTmCommit (xid : Nat)
  | handleTxTmAbort (xid : Nat)
  deriving DecidableEq, Repr

/-- The WAL delivers `on_log_entry_commit` once per appended record, in append order. -/
def logEntryCommit (s : TxContext) : TxContext :=
  match s.walPending with
  | r :: rest => onLogEntryCommit r.logType (emit (.logCommit r.logType) { s with walPending := rest })
  | [] => s

def runPosted (s : TxContext) : TxContext :=
  match s.posted with
  | ec :: rest => opDone ec { s with posted := rest }
  | [] => s

def step (s : TxContext) : Event → TxContext
  | .notifyLockAcquire ec => notifyLockAcquire ec s
  | .readDataFromDsbResponse r => readDataFromDsbResponse r s
  | .logEntryCommit => logEntryCommit s
  | .runPosted => runPosted s
  | .abort ec => abort ec s
  | .timeoutCleanUp => timeoutCleanUp s
  | .handleTxTmCommit xid => handleTxTmCommit xid s
  | .handleTxTmAbort xid => handleTxTmAbort xid s

def run (s : TxContext) (es : List Event) : TxContext := es.foldl step s

/-- A context as its constructor leaves it. -/
def init (xid rgId : Nat) (distributed : Bool) (access : Key → Option String) : TxContext :=
  { xid, rgId, distributed, access }

/-- A context is built for a request, and `process_tx_request` is its first event. -/
def start (xid rgId : Nat) (distributed : Bool) (access : Key → Option String)
    (req : TxRequest) : TxContext :=
  processTxRequest req (init xid rgId distributed access)

end Tddb.Step
