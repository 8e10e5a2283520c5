import Mathlib.Logic.Function.Basic

namespace Tddb.Types

/-- The error codes the transaction context reads or writes. Every other
value of the `EC` enumeration is carried by its number. -/
inductive EC where
  | ok
  | notFoundError
  | duplicationError
  | txAbort
  | victim
  | cascade
  | other (code : Nat)
  deriving DecidableEq, Repr

inductive RmState where
  | idle
  | committing
  | aborting
  | prepareCommitting
  | prepareAborting
  | ended
  deriving DecidableEq, Repr

inductive TxOpType where
  | read
  | readForWrite
  | update
  | insert
  | remove
  deriving DecidableEq, Repr

inductive LockMode where
  | readRow
  | writeRow
  deriving DecidableEq, Repr

/-- The log types a resource manager stages with `set_tx_cmd_type`. -/
inductive TxCmdType where
  | rmCommit
  | rmAbort
  | rmPrepareCommit
  | rmPrepareAbort
  deriving DecidableEq, Repr

/-- A row address: the key of `access_mgr` and of a row lock. -/
structure Key where
  tableId : Nat
  shardId : Nat
  tupleId : Nat
  deriving DecidableEq, Repr

structure TupleRow where
  tableId : Nat
  shardId : Nat
  tupleId : Nat
  tuple : String
  deriving DecidableEq, Repr

def TupleRow.key (r : TupleRow) : Key := ⟨r.tableId, r.shardId, r.tupleId⟩

/-- `tx_operation`: `xid` and `sd_id` are zero in a request and stamped by
`append_operation` when the operation is staged for the log. -/
structure TxOperation where
  opType : TxOpType
  tupleRow : TupleRow
  xid : Nat := 0
  sdId : Nat := 0
  deriving DecidableEq, Repr

structure TxRequest where
  readOnly : Bool
  distributed : Bool
  oneshot : Bool
  source : Nat
  operations : List TxOperation
  deriving DecidableEq, Repr

structure LockItem where
  xid : Nat
  oid : Nat
  mode : LockMode
  key : Key
  deriving DecidableEq, Repr

/-- `tx_log_proto`: `logType` is `none` until `set_tx_cmd_type` sets it. -/
structure TxLogProto where
  xid : Nat := 0
  logType : Option TxCmdType := none
  operations : List TxOperation := []
  deriving DecidableEq, Repr

/-- `dsb_read_response`; `tupleRow` is `none` when the message has no row. -/
structure DsbReadResponse where
  oid : Nat
  errorCode : EC
  tupleRow : Option TupleRow
  deriving DecidableEq, Repr

/-- The `BOOST_ASSERT` and `assert` sites of `tx_context` an event can reach. -/
inductive Assertion where
  | lockAcquirePending
  | lockAcquireFree
  | dsReadHandler
  | dsbOid
  | readTupleNotNil
  | writeTupleNotNil
  | oidCount
  | handleOperation
  | abortTx1p
  | phase1Commit
  | abortTx2p
  | phase2Commit
  | tmXid
  deriving DecidableEq, Repr

/-- What a context does to its environment: lock manager and WAL calls, messages, WAL callbacks and
failed assertions; `opDone` and `abortTaken` are ghost records. -/
inductive Obs where
  | lockRow (l : LockItem)
  | unlock (xid : Nat) (mode : LockMode) (key : Key)
  | readRequest (oid : Nat) (key : Key)
  | walAppend (entries : List TxLogProto)
  | logCommit (type : Option TxCmdType)
  /-- The CLIENT_TX_RESP `send_tx_response` builds: it sets the error code and
  the lock count, besides latency and violation counters; it sets no xid and
  no operations. -/
  | clientResponse (errorCode : EC) (numLock : Nat)
  | prepare (commit : Bool)
  | ack (commit : Bool)
  | txVictim
  | txFinish
  | txState (state : RmState)
  | assertFail (site : Assertion)
  | opDone (ec : EC)
  | abortTaken (ec : EC)
  deriving DecidableEq, Repr

end Tddb.Types
