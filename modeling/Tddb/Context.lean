import Tddb.Types

namespace Tddb.Context

open Tddb.Types

/-- The continuation `async_read`, `async_update` or `async_insert` leaves in
`lock_acquire_`, with the values its lambda captures. -/
inductive LockAcquire where
  | read (oid : Nat) (key : Key)
  | update (oid : Nat) (key : Key) (op : TxOperation)
  | insert (oid : Nat) (key : Key) (op : TxOperation)
  deriving DecidableEq, Repr

/-- The handler `read_data_from_dsb` stores in `ds_read_handler_[oid]`. -/
inductive ReadHandler where
  | read
  | update (op : TxOperation)
  | insert (op : TxOperation)
  deriving DecidableEq, Repr

/-- The fields of `tx_context` that the driver and the commit protocol use, at their constructor
values; `access` is this context's copy of `access_mgr`, `rgId` is `TO_RG_ID(node_id_)`, `out` newest first. -/
structure TxContext where
  xid : Nat
  rgId : Nat
  distributed : Bool
  readOnly : Bool := false
  oid : Nat := 1
  maxOps : Nat := 0
  errorCode : EC := .ok
  state : RmState := .idle
  lockAcquire : Option LockAcquire := none
  hasRespond : Bool := false
  ops : List TxOperation := []
  locks : List (Nat × LockItem) := []
  numLock : Nat := 0
  dsReadHandler : Nat → Option ReadHandler := fun _ => none
  logEntry : Option TxLogProto := none
  response : List String := []
  commitLogSynced : Bool := false
  prepareCommitLogSynced : Bool := false
  victim : Bool := false
  access : Key → Option String
  walPending : List TxLogProto := []
  posted : List EC := []
  out : List Obs := []

def emit (o : Obs) (s : TxContext) : TxContext := { s with out := o :: s.out }

/-- `send_tx_response`: only the first call reaches the client. -/
def sendTxResponse (s : TxContext) : TxContext :=
  if s.hasRespond then s else emit (.clientResponse s.errorCode s.numLock) { s with hasRespond := true }

def sendAckMessage (commit : Bool) (s : TxContext) : TxContext := emit (.ack commit) s

def sendPrepareMessage (commit : Bool) (s : TxContext) : TxContext := emit (.prepare commit) s

/-- `log_entry_` only ever gains an element by `emplace_back` on an empty
vector, so it holds at most one record; the model keeps it as an option. -/
def setTxCmdType (type : TxCmdType) (s : TxContext) : TxContext :=
  { s with logEntry := some { s.logEntry.getD {} with xid := s.xid, logType := some type } }

def appendOperation (op : TxOperation) (s : TxContext) : TxContext :=
  let s := if (op.opType = .insert ∨ op.opType = .update) ∧ op.tupleRow.tuple = "" then
    emit (.assertFail .writeTupleNotNil) s else s
  let log := s.logEntry.getD {}
  { s with logEntry := some { log with
      operations := log.operations ++ [{ op with xid := s.xid, sdId := s.rgId }] } }

def asyncForceLog (s : TxContext) : TxContext :=
  emit (.walAppend s.logEntry.toList)
    { s with walPending := s.walPending ++ s.logEntry.toList, logEntry := none }

def txEnded (s : TxContext) : TxContext := emit (.txState .ended) { s with state := .ended }

def unlockCalls (locks : List (Nat × LockItem)) : List Obs :=
  locks.map fun p => .unlock p.2.xid p.2.mode p.2.key

/-- `release_lock`: a read-only transaction unlocks nothing, whatever it locked. `locks_` is
taken to iterate in oid order, which is insertion order. -/
def releaseLock (s : TxContext) : TxContext :=
  let s := if s.readOnly then s else { s with out := (unlockCalls s.locks).reverse ++ s.out }
  { txEnded (emit .txFinish s) with locks := [] }

end Tddb.Context
