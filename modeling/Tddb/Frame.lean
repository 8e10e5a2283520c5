import Tddb.Step
import Tddb.History

namespace Tddb.Frame

open Tddb.Types Tddb.History Tddb.Context Tddb.Commit Tddb.Operation Tddb.Step

/-- The observations the operation driver makes on its own. -/
def DriverObs : Obs → Prop
  | .lockRow _ | .readRequest _ _ | .assertFail _ => True
  | _ => False

/-- What the constructor and `process_tx_request` fix; no event changes it. -/
def config (s : TxContext) : Nat × Nat × Bool × Bool := (s.xid, s.rgId, s.distributed, s.readOnly)

def protocolView (s : TxContext) : (Nat × Nat × Bool × Bool) × RmState × EC × Bool × List TxLogProto :=
  (config s, s.state, s.errorCode, s.hasRespond, s.walPending)

/-- `s'` follows `s` by operation-driver work alone: what the commit protocol reads is unchanged,
and the driver only requested locks and reads or failed an assertion. -/
structure DriverStep (s s' : TxContext) : Prop where
  view : protocolView s' = protocolView s
  out : ∃ l, s'.out = l ++ s.out ∧ ∀ o ∈ l, DriverObs o

variable {s s' s'' : TxContext}

theorem DriverStep.rfl : DriverStep s s := ⟨Eq.refl _, [], by simp, by simp⟩

theorem DriverStep.trans (h₁ : DriverStep s s') (h₂ : DriverStep s' s'') : DriverStep s s'' := by
  obtain ⟨l₁, h₁o, hl₁⟩ := h₁.out
  obtain ⟨l₂, h₂o, hl₂⟩ := h₂.out
  refine ⟨h₂.view.trans h₁.view, l₂ ++ l₁, by rw [h₂o, h₁o, List.append_assoc], ?_⟩
  simpa [or_imp, forall_and] using And.intro hl₂ hl₁

theorem DriverStep.config (h : DriverStep s s') : config s' = config s := congrArg (·.1) h.view

theorem DriverStep.state (h : DriverStep s s') : s'.state = s.state := congrArg (·.2.1) h.view

theorem DriverStep.errorCode (h : DriverStep s s') : s'.errorCode = s.errorCode :=
  congrArg (·.2.2.1) h.view

theorem DriverStep.hasRespond (h : DriverStep s s') : s'.hasRespond = s.hasRespond :=
  congrArg (·.2.2.2.1) h.view

theorem DriverStep.walPending (h : DriverStep s s') : s'.walPending = s.walPending :=
  congrArg (·.2.2.2.2) h.view

theorem driverStep_emit {o : Obs} (h : DriverObs o) : DriverStep s (emit o s) :=
  ⟨rfl, [o], rfl, by simpa using h⟩

theorem driverStep_invokeDone (ec : EC) : DriverStep s (invokeDone ec s) := ⟨rfl, [], rfl, by simp⟩

theorem driverStep_checkReadTuple (ec : EC) (t : String) : DriverStep s (checkReadTuple ec t s) := by
  unfold checkReadTuple
  split
  · exact driverStep_emit trivial
  · exact .rfl

theorem driverStep_readDone (ec : EC) (t : String) : DriverStep s (readDone ec t s) :=
  (driverStep_checkReadTuple ec t).trans ⟨rfl, [], rfl, by simp⟩

theorem driverStep_appendOperation (op : TxOperation) : DriverStep s (appendOperation op s) := by
  unfold appendOperation
  split
  · exact (driverStep_emit (o := .assertFail .writeTupleNotNil) trivial).trans ⟨rfl, [], rfl, by simp⟩
  · exact ⟨rfl, [], rfl, by simp⟩

theorem driverStep_writeDone (op : TxOperation) (ec : EC) : DriverStep s (writeDone op ec s) :=
  (driverStep_appendOperation op).trans (driverStep_invokeDone ec)

theorem driverStep_readDataFromDsb (key : Key) (oid : Nat) (h : ReadHandler) :
    DriverStep s (readDataFromDsb key oid h s) :=
  ⟨rfl, [.readRequest oid key], rfl, by simp [DriverObs]⟩

theorem driverStep_runReadHandler (h : ReadHandler) (ec : EC) (t : String) :
    DriverStep s (runReadHandler h ec t s) := by
  cases h with
  | read => exact (driverStep_checkReadTuple ec t).trans (driverStep_readDone ec t)
  | update op => exact driverStep_writeDone op ec
  | insert op => exact driverStep_writeDone op _

theorem driverStep_runLockAcquire (k : LockAcquire) (ec : EC) :
    DriverStep s (runLockAcquire k ec s) := by
  cases k <;> simp only [runLockAcquire] <;> split <;> (try split) <;>
    first
    | exact (driverStep_checkReadTuple _ _).trans (driverStep_readDone _ _)
    | exact driverStep_readDone _ _
    | exact driverStep_writeDone _ _
    | exact driverStep_readDataFromDsb _ _ _

theorem driverStep_installLock (mode : LockMode) (key : Key) (k : LockAcquire) :
    DriverStep s (installLock mode key k s) := by
  have hc : DriverStep s (checkLockFree s) := by
    unfold checkLockFree
    split
    · exact driverStep_emit trivial
    · exact .rfl
  have ha : ∀ l, DriverStep (checkLockFree s) (addLockItem l (checkLockFree s)) := by
    intro l
    unfold addLockItem
    split
    · exact .rfl
    · exact ⟨rfl, [], rfl, by simp⟩
  exact (hc.trans (ha _)).trans ⟨rfl, [], rfl, by simp⟩

theorem driverStep_requestRowLock (mode : LockMode) (key : Key) (k : LockAcquire) :
    DriverStep s (requestRowLock mode key k s) :=
  (driverStep_installLock mode key k).trans (driverStep_emit trivial)

theorem driverStep_asyncRead (key : Key) (rfw : Bool) : DriverStep s (asyncRead key rfw s) := by
  by_cases h : s.readOnly
  · simp only [asyncRead, h, if_true]
    exact ((driverStep_installLock _ key _).trans (driverStep_runLockAcquire _ .ok)).trans
      ⟨rfl, [], rfl, by simp⟩
  · simp only [asyncRead, h]
    exact driverStep_requestRowLock _ key _

theorem driverStep_handleOperation (op : TxOperation) : DriverStep s (handleOperation op s) := by
  unfold handleOperation
  split
  · exact driverStep_asyncRead _ _
  · exact driverStep_asyncRead _ _
  · exact driverStep_requestRowLock _ _ _
  · exact driverStep_requestRowLock _ _ _
  · exact driverStep_emit trivial

theorem driverStep_notifyLockAcquire (ec : EC) : DriverStep s (notifyLockAcquire ec s) := by
  unfold notifyLockAcquire
  split
  · exact (⟨rfl, [], rfl, by simp⟩ : DriverStep s { s with lockAcquire := none }).trans
      (driverStep_runLockAcquire _ ec)
  · exact driverStep_emit trivial

theorem driverStep_readDataFromDsbResponse (r : DsbReadResponse) :
    DriverStep s (readDataFromDsbResponse r s) := by
  have hc : ∀ s₀ : TxContext, DriverStep s₀ (checkDsbOid r.oid s₀) := by
    intro s₀
    unfold checkDsbOid
    split
    · exact driverStep_emit trivial
    · exact .rfl
  have hd : ∀ (s₀ : TxContext) ec t, DriverStep s₀ (dispatchDsbRead r.oid ec t s₀) := by
    intro s₀ ec t
    unfold dispatchDsbRead
    split
    · exact (driverStep_runReadHandler _ ec t).trans ⟨rfl, [], rfl, by simp⟩
    · exact driverStep_emit trivial
  have hk : ∀ (s₀ : TxContext) ec row, DriverStep s₀ (cacheTuple ec row s₀) := by
    intro s₀ ec row
    unfold cacheTuple
    split
    · exact ⟨rfl, [], rfl, by simp⟩
    · exact .rfl
  exact ((hc s).trans (hd _ _ _)).trans (hk _ _ _)

def driverView (s : TxContext) :=
  (s.ops, s.oid, s.maxOps, s.lockAcquire, s.dsReadHandler, s.posted, s.access, s.response, s.numLock)

def protocolFrame (s : TxContext) := (config s, driverView s)

theorem config_of_protocolFrame (h : protocolFrame s' = protocolFrame s) : config s' = config s :=
  congrArg (·.1) h

theorem driverView_of_protocolFrame (h : protocolFrame s' = protocolFrame s) :
    driverView s' = driverView s :=
  congrArg (·.2) h

@[simp] theorem protocolFrame_sendTxResponse : protocolFrame (sendTxResponse s) = protocolFrame s := by
  unfold sendTxResponse; split <;> rfl

@[simp] theorem protocolFrame_releaseLock : protocolFrame (releaseLock s) = protocolFrame s := by
  unfold releaseLock; split <;> rfl

@[simp] theorem protocolFrame_txCommitted : protocolFrame (txCommitted s) = protocolFrame s := by
  unfold txCommitted
  split
  · simp only [protocolFrame_releaseLock]; rfl
  · simp only [protocolFrame_releaseLock, protocolFrame_sendTxResponse]

@[simp] theorem protocolFrame_txAborted : protocolFrame (txAborted s) = protocolFrame s := by
  unfold txAborted
  split <;> simp only [protocolFrame_releaseLock, protocolFrame_sendTxResponse] <;> (try split) <;> rfl

@[simp] theorem protocolFrame_onLogEntryCommit (t : Option TxCmdType) :
    protocolFrame (onLogEntryCommit t s) = protocolFrame s := by
  unfold onLogEntryCommit onCommittedLogCommit onAbortedLogCommit
  split <;> (try simp only [protocolFrame_txCommitted, protocolFrame_txAborted]) <;> rfl

@[simp] theorem protocolFrame_abortTx1p : protocolFrame (abortTx1p s) = protocolFrame s := by
  unfold abortTx1p; split <;> (try simp only [protocolFrame_sendTxResponse]) <;> rfl

@[simp] theorem protocolFrame_abortTx2p : protocolFrame (abortTx2p s) = protocolFrame s := by
  unfold abortTx2p; split <;> rfl

@[simp] theorem protocolFrame_handleFinishTxPhase1Commit :
    protocolFrame (handleFinishTxPhase1Commit s) = protocolFrame s := by
  unfold handleFinishTxPhase1Commit onCommittedLogCommit
  split <;> (try split) <;> (try simp only [protocolFrame_txCommitted, protocolFrame_sendTxResponse]) <;> rfl

@[simp] theorem protocolFrame_handleFinishTxPhase1PrepareCommit :
    protocolFrame (handleFinishTxPhase1PrepareCommit s) = protocolFrame s := by
  unfold handleFinishTxPhase1PrepareCommit prepareCommitTx; split <;> rfl

@[simp] theorem protocolFrame_handleFinishTxPhase1PrepareAbort :
    protocolFrame (handleFinishTxPhase1PrepareAbort s) = protocolFrame s := rfl

@[simp] theorem protocolFrame_checkOidCount : protocolFrame (checkOidCount s) = protocolFrame s := by
  unfold checkOidCount; split <;> rfl

@[simp] theorem protocolFrame_finishOperations : protocolFrame (finishOperations s) = protocolFrame s := by
  unfold finishOperations
  split <;> simp only [protocolFrame_handleFinishTxPhase1PrepareCommit,
    protocolFrame_handleFinishTxPhase1Commit]

@[simp] theorem protocolFrame_abort (ec : EC) : protocolFrame (abort ec s) = protocolFrame s := by
  unfold abort; dsimp only
  split <;> (try split) <;> (try simp only [protocolFrame_abortTx1p]) <;> rfl

@[simp] theorem protocolFrame_timeoutCleanUp : protocolFrame (timeoutCleanUp s) = protocolFrame s := by
  unfold timeoutCleanUp
  split <;> (try split) <;>
    simp only [protocolFrame_abortTx2p, protocolFrame_sendTxResponse, protocolFrame_abortTx1p]

@[simp] theorem protocolFrame_handleTxTmCommit (x : Nat) :
    protocolFrame (handleTxTmCommit x s) = protocolFrame s := by
  unfold handleTxTmCommit handleFinishTxPhase2Commit; split <;> (try split) <;> rfl

@[simp] theorem protocolFrame_handleTxTmAbort (x : Nat) :
    protocolFrame (handleTxTmAbort x s) = protocolFrame s := by
  unfold handleTxTmAbort handleFinishTxPhase2Abort
  split
  · exact protocolFrame_abortTx2p
  · rfl

theorem config_handleNextOperation : config (handleNextOperation s) = config s := by
  unfold handleNextOperation
  split
  · rfl
  split
  · split
    · exact (driverStep_handleOperation _).config
    · exact config_of_protocolFrame (protocolFrame_finishOperations.trans protocolFrame_checkOidCount)
  · split
    · exact config_of_protocolFrame protocolFrame_handleFinishTxPhase1PrepareAbort
    · exact config_of_protocolFrame protocolFrame_abortTx1p

theorem config_step (e : Event) : config (step s e) = config s := by
  cases e with
  | notifyLockAcquire ec => exact (driverStep_notifyLockAcquire ec).config
  | readDataFromDsbResponse r => exact (driverStep_readDataFromDsbResponse r).config
  | logEntryCommit =>
    simp only [step, Step.logEntryCommit]
    split
    · exact (config_of_protocolFrame (protocolFrame_onLogEntryCommit _)).trans rfl
    · rfl
  | runPosted =>
    simp only [step, Step.runPosted, opDone]
    split
    · exact config_handleNextOperation
    · rfl
  | abort ec => exact config_of_protocolFrame (protocolFrame_abort ec)
  | timeoutCleanUp => exact config_of_protocolFrame protocolFrame_timeoutCleanUp
  | handleTxTmCommit x => exact config_of_protocolFrame (protocolFrame_handleTxTmCommit x)
  | handleTxTmAbort x => exact config_of_protocolFrame (protocolFrame_handleTxTmAbort x)

theorem config_run (es : List Event) : config (run s es) = config s := by
  induction es generalizing s with
  | nil => rfl
  | cons e es ih => exact ih.trans (config_step e)

theorem config_start (xid rgId : Nat) (distributed : Bool) (access : Key → Option String)
    (req : TxRequest) : config (start xid rgId distributed access req) = (xid, rgId, distributed, req.readOnly) := by
  unfold start processTxRequest
  split
  · exact config_handleNextOperation
  · rfl

end Tddb.Frame
