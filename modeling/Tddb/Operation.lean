import Tddb.Commit

namespace Tddb.Operation

open Tddb.Types Tddb.Context Tddb.Commit

/-- `invoke_done` posts `op_done` to the strand; it runs as a later event. -/
def invokeDone (ec : EC) (s : TxContext) : TxContext := { s with posted := s.posted ++ [ec] }

def checkReadTuple (ec : EC) (tuple : String) (s : TxContext) : TxContext :=
  if ec = .ok ∧ tuple = "" then emit (.assertFail .readTupleNotNil) s else s

/-- `read_done` of `handle_operation`: the tuple read becomes an operation of `response_`. -/
def readDone (ec : EC) (tuple : String) (s : TxContext) : TxContext :=
  let s := checkReadTuple ec tuple s
  invokeDone ec { s with response := s.response ++ [tuple] }

/-- The body `update_done` and `insert_done` share: stage the operation they
captured before its payload was swapped out, whatever the code, and pass the code on. -/
def writeDone (op : TxOperation) (ec : EC) (s : TxContext) : TxContext :=
  invokeDone ec (appendOperation op s)

def updateDone (op : TxOperation) (ec : EC) (s : TxContext) : TxContext := writeDone op ec s

def insertDone (op : TxOperation) (ec : EC) (s : TxContext) : TxContext := writeDone op ec s

/-- The DSB handler of `async_insert`: a row found is a duplicate, a row not found is success. -/
def insertCode (ec : EC) : EC :=
  match ec with
  | .ok => .duplicationError
  | .notFoundError => .ok
  | ec => ec

def runReadHandler (h : ReadHandler) (ec : EC) (tuple : String) (s : TxContext) : TxContext :=
  match h with
  | .read => readDone ec tuple (checkReadTuple ec tuple s)
  | .update op => updateDone op ec s
  | .insert op => insertDone op (insertCode ec) s

def readDataFromDsb (key : Key) (oid : Nat) (h : ReadHandler) (s : TxContext) : TxContext :=
  emit (.readRequest oid key) { s with dsReadHandler := Function.update s.dsReadHandler oid (some h) }

/-- The lambdas `async_read`, `async_update` and `async_insert` store in `lock_acquire_`. -/
def runLockAcquire (k : LockAcquire) (ec : EC) (s : TxContext) : TxContext :=
  match k with
  | .read oid key =>
    if ec = .ok then
      match s.access key with
      | some t => readDone .ok t (checkReadTuple .ok t s)
      | none => readDataFromDsb key oid .read s
    else readDone ec "" s
  | .update oid key op =>
    if ec = .ok then
      match s.access key with
      | some _ => updateDone op .ok s
      | none => readDataFromDsb key oid (.update op) s
    else updateDone op ec s
  | .insert oid key op =>
    if ec = .ok then
      match s.access key with
      | some _ => insertDone op .duplicationError s
      | none => readDataFromDsb key oid (.insert op) s
    else insertDone op ec s

def checkLockFree (s : TxContext) : TxContext :=
  if s.lockAcquire.isSome then emit (.assertFail .lockAcquireFree) s else s

/-- `locks_.insert({oid, l})`, counting the lock only when the oid is new. -/
def addLockItem (l : LockItem) (s : TxContext) : TxContext :=
  if (s.locks.lookup l.oid).isSome then s
  else { s with locks := s.locks ++ [(l.oid, l)], numLock := s.numLock + 1 }

/-- The steps `async_read`, `async_update` and `async_insert` share before the
lock request: take the next oid, record the lock item and install the continuation. -/
def installLock (mode : LockMode) (key : Key) (k : LockAcquire) (s : TxContext) : TxContext :=
  let s := addLockItem ⟨s.xid, s.oid, mode, key⟩ (checkLockFree s)
  { s with oid := s.oid + 1, lockAcquire := some k }

def requestRowLock (mode : LockMode) (key : Key) (k : LockAcquire) (s : TxContext) : TxContext :=
  emit (.lockRow ⟨s.xid, s.oid, mode, key⟩) (installLock mode key k s)

/-- A read-only transaction grants its read locks itself, at once. -/
def asyncRead (key : Key) (readForWrite : Bool) (s : TxContext) : TxContext :=
  let mode := if readForWrite then LockMode.writeRow else .readRow
  if s.readOnly then
    { runLockAcquire (.read s.oid key) .ok (installLock mode key (.read s.oid key) s) with
      lockAcquire := none }
  else requestRowLock mode key (.read s.oid key) s

def asyncUpdate (key : Key) (op : TxOperation) (s : TxContext) : TxContext :=
  requestRowLock .writeRow key (.update s.oid key op) s

def asyncInsert (key : Key) (op : TxOperation) (s : TxContext) : TxContext :=
  requestRowLock .writeRow key (.insert s.oid key op) s

def handleOperation (op : TxOperation) (s : TxContext) : TxContext :=
  match op.opType with
  | .read | .readForWrite => asyncRead op.tupleRow.key (op.opType = .readForWrite) s
  | .update => asyncUpdate op.tupleRow.key op s
  | .insert => asyncInsert op.tupleRow.key op s
  | .remove => emit (.assertFail .handleOperation) s

def checkOidCount (s : TxContext) : TxContext :=
  if s.oid = s.maxOps + 1 then s else emit (.assertFail .oidCount) s

/-- With every operation done, a distributed transaction prepares, a local one commits. -/
def finishOperations (s : TxContext) : TxContext :=
  if s.distributed then handleFinishTxPhase1PrepareCommit s else handleFinishTxPhase1Commit s

def handleNextOperation (s : TxContext) : TxContext :=
  if s.state ≠ .idle then s
  else if s.errorCode = .ok then
    match s.ops with
    | op :: _ => handleOperation op s
    | [] => finishOperations (checkOidCount s)
  else if s.distributed then handleFinishTxPhase1PrepareAbort s else handleFinishTxPhase1Abort s

/-- `op_done` of `handle_next_operation`: a read-only transaction treats a row
that is not found as success. -/
def opDone (ec : EC) (s : TxContext) : TxContext :=
  handleNextOperation { emit (.opDone ec) s with
    ops := s.ops.tail,
    errorCode := if s.readOnly ∧ ec = .notFoundError then .ok else ec }

def notifyLockAcquire (ec : EC) (s : TxContext) : TxContext :=
  match s.lockAcquire with
  | some k => runLockAcquire k ec { s with lockAcquire := none }
  | none => emit (.assertFail .lockAcquirePending) s

def checkDsbOid (oid : Nat) (s : TxContext) : TxContext :=
  if oid = 0 then emit (.assertFail .dsbOid) s else s

/-- Run and erase the handler `read_data_from_dsb` left for the oid. -/
def dispatchDsbRead (oid : Nat) (ec : EC) (tuple : String) (s : TxContext) : TxContext :=
  match s.dsReadHandler oid with
  | some h =>
    let s := runReadHandler h ec tuple s
    { s with dsReadHandler := Function.update s.dsReadHandler oid none }
  | none => emit (.assertFail .dsReadHandler) s

/-- A row the DSB found is cached in `access_mgr`. -/
def cacheTuple (ec : EC) (row : TupleRow) (s : TxContext) : TxContext :=
  if ec = .ok ∧ row.tuple ≠ "" then { s with access := Function.update s.access row.key (some row.tuple) }
  else s

/-- The handler for the oid runs before the row is cached in `access_mgr`. -/
def readDataFromDsbResponse (r : DsbReadResponse) (s : TxContext) : TxContext :=
  let row := r.tupleRow.getD ⟨0, 0, 0, ""⟩
  cacheTuple r.errorCode row (dispatchDsbRead r.oid r.errorCode row.tuple (checkDsbOid r.oid s))

def processTxRequest (req : TxRequest) (s : TxContext) : TxContext :=
  let s := { s with readOnly := req.readOnly, maxOps := req.operations.length }
  if req.oneshot then handleNextOperation { s with ops := s.ops ++ req.operations } else s

end Tddb.Operation
