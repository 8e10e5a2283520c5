import Tddb.Context

namespace Tddb.Commit

open Tddb.Types Tddb.Context

def txCommitted (s : TxContext) : TxContext :=
  if s.distributed then releaseLock (sendAckMessage true s) else releaseLock (sendTxResponse s)

def txAborted (s : TxContext) : TxContext :=
  if s.distributed then releaseLock (sendAckMessage false s)
  else releaseLock (sendTxResponse (if s.errorCode = .ok then { s with errorCode := .txAbort } else s))

def onCommittedLogCommit (s : TxContext) : TxContext := txCommitted { s with commitLogSynced := true }

def onAbortedLogCommit (s : TxContext) : TxContext := txAborted s

def txPrepareCommitted (s : TxContext) : TxContext := sendPrepareMessage true s

def txPrepareAborted (s : TxContext) : TxContext := sendPrepareMessage false s

def onPrepareCommittedLogCommit (s : TxContext) : TxContext :=
  txPrepareCommitted { s with prepareCommitLogSynced := true }

def onPrepareAbortedLogCommit (s : TxContext) : TxContext := txPrepareAborted s

/-- `on_log_entry_commit`: the WAL reports one appended record durable. -/
def onLogEntryCommit (type : Option TxCmdType) (s : TxContext) : TxContext :=
  let s := { s with logEntry := none }
  match type with
  | some .rmCommit => onCommittedLogCommit s
  | some .rmAbort => onAbortedLogCommit s
  | some .rmPrepareAbort => onPrepareAbortedLogCommit s
  | some .rmPrepareCommit => onPrepareCommittedLogCommit s
  | none => s

def abortTx1p (s : TxContext) : TxContext :=
  match s.state with
  | .idle => asyncForceLog (setTxCmdType .rmAbort { s with state := .aborting })
  | .aborting => sendTxResponse s
  | _ => emit (.assertFail .abortTx1p) s

/-- A read-only transaction commits without a WAL round trip. -/
def handleFinishTxPhase1Commit (s : TxContext) : TxContext :=
  match s.state with
  | .idle | .prepareCommitting =>
    if s.readOnly then onCommittedLogCommit (setTxCmdType .rmCommit { s with state := .committing })
    else asyncForceLog (setTxCmdType .rmCommit { s with state := .committing })
  | .committing => sendTxResponse s
  | _ => emit (.assertFail .phase1Commit) s

def handleFinishTxPhase1Abort (s : TxContext) : TxContext := abortTx1p s

/-- `abort`: a non-distributed transaction aborts only from `RM_IDLE`; a
distributed one reports itself to its coordinator as a victim. -/
def abort (ec : EC) (s : TxContext) : TxContext :=
  let s := { s with victim := s.victim || (ec == EC.victim && !s.distributed) }
  if s.distributed then emit .txVictim s
  else if s.state = .idle then abortTx1p (emit (.abortTaken ec) { s with errorCode := ec }) else s

def abortTx2p (s : TxContext) : TxContext :=
  match s.state with
  | .idle | .prepareAborting | .prepareCommitting =>
    asyncForceLog (setTxCmdType .rmAbort { s with state := .aborting })
  | .aborting | .ended => sendAckMessage false s
  | .committing => emit (.assertFail .abortTx2p) s

def prepareCommitTx (s : TxContext) : TxContext :=
  if s.state = .idle then setTxCmdType .rmPrepareCommit { s with state := .prepareCommitting } else s

def prepareAbortTx (s : TxContext) : TxContext :=
  setTxCmdType .rmPrepareAbort { s with state := .prepareAborting }

def handleFinishTxPhase1PrepareCommit (s : TxContext) : TxContext := asyncForceLog (prepareCommitTx s)

def handleFinishTxPhase1PrepareAbort (s : TxContext) : TxContext := asyncForceLog (prepareAbortTx s)

def handleFinishTxPhase2Commit (s : TxContext) : TxContext :=
  match s.state with
  | .prepareCommitting => asyncForceLog (setTxCmdType .rmCommit { s with state := .committing })
  | .committing => sendAckMessage true s
  | _ => emit (.assertFail .phase2Commit) s

def handleFinishTxPhase2Abort (s : TxContext) : TxContext := abortTx2p s

def handleTxTmCommit (xid : Nat) (s : TxContext) : TxContext :=
  if xid = s.xid then handleFinishTxPhase2Commit s else emit (.assertFail .tmXid) s

def handleTxTmAbort (xid : Nat) (s : TxContext) : TxContext :=
  if xid = s.xid then handleFinishTxPhase2Abort s else emit (.assertFail .tmXid) s

/-- `timeout_clean_up` once the deadline has passed; before it the call returns
at once, which is the same as the event not happening. -/
def timeoutCleanUp (s : TxContext) : TxContext :=
  match s.state with
  | .prepareCommitting | .committing => s
  | _ => if s.distributed then abortTx2p s else sendTxResponse (abortTx1p s)

end Tddb.Commit
