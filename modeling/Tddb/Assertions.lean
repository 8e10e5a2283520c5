import Tddb.Record
import Tddb.LogProtocol

namespace Tddb.Assertions

open Tddb.Types Tddb.Context Tddb.Commit Tddb.Operation Tddb.Step Tddb.Frame Tddb.OnePhase Tddb.Wal
  Tddb.LogProtocol

def BadWrite (op : TxOperation) : Prop := (op.opType = .insert ∨ op.opType = .update) ∧ op.tupleRow.tuple = ""

def Fails (S : Assertion → Prop) (s s' : TxContext) : Prop :=
  ∃ l, s'.out = l ++ s.out ∧ ∀ a, Obs.assertFail a ∈ l → S a

variable {S : Assertion → Prop} {s s' s'' : TxContext} {o : Obs}

theorem Fails.rfl : Fails S s s := ⟨[], Eq.refl _, by simp⟩

theorem Fails.trans (h₁ : Fails S s s') (h₂ : Fails S s' s'') : Fails S s s'' := by
  obtain ⟨l₁, e₁, f₁⟩ := h₁
  obtain ⟨l₂, e₂, f₂⟩ := h₂
  exact ⟨l₂ ++ l₁, by rw [e₂, e₁, List.append_assoc], fun a ha => (List.mem_append.1 ha).elim (f₂ a) (f₁ a)⟩

theorem Fails.of_out (h : s'.out = s.out) : Fails S s s' := ⟨[], by rw [h]; rfl, by simp⟩

theorem fails_emit (ho : ∀ a, o ≠ .assertFail a) : Fails S s (emit o s) :=
  ⟨[o], Eq.refl _, fun a h => absurd (List.mem_singleton.1 h).symm (ho a)⟩

theorem fails_assert {a : Assertion} (h : S a) : Fails S s (emit (.assertFail a) s) :=
  ⟨[_], Eq.refl _, fun _ h' => by rw [List.mem_singleton, Obs.assertFail.injEq] at h'; exact h' ▸ h⟩

theorem fails_guard {c : Prop} [Decidable c] {a : Assertion} (h : c → S a) :
    Fails S s (if c then emit (.assertFail a) s else s) := by
  split
  · rename_i hc; exact fails_assert (h hc)
  · exact .rfl

theorem fails_checkReadTuple {ec : EC} {t : String} (h : ec = .ok ∧ t = "" → S .readTupleNotNil) :
    Fails S s (checkReadTuple ec t s) :=
  fails_guard h

theorem fails_readDone {ec : EC} {t : String} (h : ec = .ok ∧ t = "" → S .readTupleNotNil) :
    Fails S s (readDone ec t s) :=
  (fails_checkReadTuple h).trans (.of_out rfl)

theorem fails_writeDone {op : TxOperation} (ec : EC) (h : BadWrite op → S .writeTupleNotNil) :
    Fails S s (writeDone op ec s) := by
  unfold writeDone invokeDone appendOperation
  split
  · rename_i hb; exact (fails_assert (h hb)).trans (.of_out rfl)
  · exact .of_out rfl

theorem fails_runReadHandler {rh : ReadHandler} {ec : EC} {t : String} (hr : ec = .ok ∧ t = "" → S .readTupleNotNil)
    (hw : ∀ op, handlerOp rh = some op → BadWrite op → S .writeTupleNotNil) :
    Fails S s (runReadHandler rh ec t s) := by
  cases rh with
  | read => exact (fails_checkReadTuple hr).trans (fails_readDone hr)
  | update op => exact fails_writeDone ec (hw op rfl)
  | insert op => exact fails_writeDone _ (hw op rfl)

theorem fails_runLockAcquire (k : LockAcquire) (ec : EC) (hst : ∀ key, s.access key = some "" → S .readTupleNotNil)
    (hw : ∀ op, capturedOp k = some op → BadWrite op → S .writeTupleNotNil) :
    Fails S s (runLockAcquire k ec s) := by
  cases k with
  | read oid key =>
    simp only [runLockAcquire]
    split
    · split
      · rename_i t ht
        have h : EC.ok = .ok ∧ t = "" → S .readTupleNotNil := fun h => hst key (h.2 ▸ ht)
        exact (fails_checkReadTuple h).trans (fails_readDone h)
      · exact fails_emit (by exact nofun)
    · rename_i hec
      exact fails_readDone fun h => absurd h.1 hec
  | update oid key op =>
    simp only [runLockAcquire, updateDone]
    split
    · split
      · exact fails_writeDone _ (hw op rfl)
      · exact fails_emit (by exact nofun)
    · exact fails_writeDone _ (hw op rfl)
  | insert oid key op =>
    simp only [runLockAcquire, insertDone]
    split
    · split
      · exact fails_writeDone _ (hw op rfl)
      · exact fails_emit (by exact nofun)
    · exact fails_writeDone _ (hw op rfl)

theorem installLock_access (mode : LockMode) (key : Key) (k : LockAcquire) :
    (installLock mode key k s).access = s.access := by
  unfold installLock addLockItem checkLockFree; split <;> split <;> rfl

theorem fails_installLock (mode : LockMode) (key : Key) (k : LockAcquire) (hl : s.lockAcquire = none) :
    Fails S s (installLock mode key k s) := by
  have hc : Fails S s (checkLockFree s) := fails_guard fun h => by simp [hl] at h
  refine hc.trans (.of_out ?_)
  unfold installLock addLockItem; split <;> rfl

theorem fails_requestRowLock (mode : LockMode) (key : Key) (k : LockAcquire) (hl : s.lockAcquire = none) :
    Fails S s (requestRowLock mode key k s) :=
  (fails_installLock mode key k hl).trans (fails_emit (by exact nofun))

theorem fails_handleOperation (op : TxOperation) (hl : s.lockAcquire = none)
    (hrm : op.opType = .remove → S .handleOperation) (hst : ∀ key, s.access key = some "" → S .readTupleNotNil) :
    Fails S s (handleOperation op s) := by
  have hread : ∀ key rfw, Fails S s (asyncRead key rfw s) := fun key rfw => by
    unfold asyncRead
    dsimp only
    split
    · refine ((fails_installLock _ key _ hl).trans (fails_runLockAcquire _ .ok ?_ nofun)).trans (.of_out rfl)
      rw [installLock_access]; exact hst
    · exact fails_requestRowLock _ key _ hl
  unfold handleOperation asyncUpdate asyncInsert
  split
  · exact hread _ _
  · exact hread _ _
  · exact fails_requestRowLock _ _ _ hl
  · exact fails_requestRowLock _ _ _ hl
  · rename_i h; exact fails_assert (hrm h)

theorem fails_forceLog (h : s'.out = s.out) : Fails S s (asyncForceLog s') :=
  ⟨[_], by simp only [asyncForceLog, emit, h]; rfl, by simp⟩

theorem fails_sendTxResponse : Fails S s (sendTxResponse s) := by
  unfold sendTxResponse; split
  · exact .rfl
  · exact ⟨[_], Eq.refl _, by simp⟩

theorem fails_releaseLock : Fails S s (releaseLock s) := by
  unfold releaseLock
  split
  · exact ⟨[_, _], Eq.refl _, by simp⟩
  · exact ⟨.txState .ended :: .txFinish :: (unlockCalls s.locks).reverse, Eq.refl _, by simp [unlockCalls]⟩

theorem fails_txCommitted : Fails S s (txCommitted s) := by
  unfold txCommitted sendAckMessage; split
  · exact (fails_emit (by exact nofun)).trans fails_releaseLock
  · exact fails_sendTxResponse.trans fails_releaseLock

theorem fails_txAborted : Fails S s (txAborted s) := by
  unfold txAborted sendAckMessage; split
  · exact (fails_emit (by exact nofun)).trans fails_releaseLock
  · exact (Fails.of_out (by split <;> rfl)).trans (fails_sendTxResponse.trans fails_releaseLock)

theorem fails_onLogEntryCommit (t : Option TxCmdType) : Fails S s (onLogEntryCommit t s) := by
  unfold onLogEntryCommit onCommittedLogCommit onAbortedLogCommit onPrepareAbortedLogCommit
    onPrepareCommittedLogCommit txPrepareAborted txPrepareCommitted sendPrepareMessage
  split
  · exact (Fails.of_out rfl).trans fails_txCommitted
  · exact (Fails.of_out rfl).trans fails_txAborted
  all_goals first | exact (Fails.of_out rfl).trans (fails_emit (by exact nofun)) | exact .of_out rfl

theorem fails_abortTx1p (h : s.state ≠ .idle → s.state ≠ .aborting → S .abortTx1p) : Fails S s (abortTx1p s) := by
  unfold abortTx1p
  split
  · exact fails_forceLog rfl
  · exact fails_sendTxResponse
  · rename_i h₁ h₂; exact fails_assert (h h₁ h₂)

theorem fails_abortTx2p (h : s.state = .committing → S .abortTx2p) : Fails S s (abortTx2p s) := by
  unfold abortTx2p sendAckMessage
  split
  · exact fails_forceLog rfl
  · exact fails_forceLog rfl
  · exact fails_forceLog rfl
  · exact fails_emit (by exact nofun)
  · exact fails_emit (by exact nofun)
  · rename_i h₁; exact fails_assert (h h₁)

theorem fails_handleFinishTxPhase2Commit (h : s.state ≠ .prepareCommitting → s.state ≠ .committing → S .phase2Commit) :
    Fails S s (handleFinishTxPhase2Commit s) := by
  unfold handleFinishTxPhase2Commit sendAckMessage
  split
  · exact fails_forceLog rfl
  · exact fails_emit (by exact nofun)
  · rename_i h₁ h₂; exact fails_assert (h h₁ h₂)

theorem fails_finishOperations (hst : s.state = .idle) : Fails S s (finishOperations s) := by
  unfold finishOperations handleFinishTxPhase1PrepareCommit
  split
  · exact fails_forceLog (by unfold prepareCommitTx; split <;> rfl)
  · simp only [handleFinishTxPhase1Commit, hst]
    split
    · exact (Fails.of_out rfl).trans fails_txCommitted
    · exact fails_forceLog rfl

theorem fails_handleNextOperation (hl : s.lockAcquire = none) (hcount : s.ops = [] → s.oid = s.maxOps + 1)
    (hrm : ∀ op ∈ s.ops, op.opType = .remove → S .handleOperation)
    (hst : ∀ key, s.access key = some "" → S .readTupleNotNil) : Fails S s (handleNextOperation s) := by
  unfold handleNextOperation
  split
  · exact .rfl
  rename_i hidle
  rw [not_not] at hidle
  split
  · split
    · rename_i op rest hops
      exact fails_handleOperation op hl (hrm op (by rw [hops]; exact List.mem_cons_self _ _)) hst
    · rename_i hops
      rw [show checkOidCount s = s from if_pos (hcount hops)]
      exact fails_finishOperations hidle
  · split
    · exact fails_forceLog rfl
    · exact fails_abortTx1p fun h => absurd hidle h

def countView (s : TxContext) : List TxOperation × Nat × Nat := (s.ops, s.oid, s.maxOps)

/-- The operation count `handle_next_operation` asserts: `oid_` is one more than the operations
started, and these with the ones still in `ops_` make up the `q` queued. -/
structure Counted (q : Nat) (s : TxContext) : Prop where
  idle : Quiescent s → s.oid + s.ops.length = q + 1
  busy : ¬ Quiescent s → s.oid + s.ops.length = q + 2 ∧ s.ops ≠ []
  queued : s.ops = [] ∨ q = s.maxOps

theorem not_quiescent_of_posted (h : s.posted ≠ []) : ¬ Quiescent s := fun hq => h (congrArg (·.1) hq)

theorem not_quiescent_of_handler {oid : Nat} (h : s.dsReadHandler oid ≠ none) : ¬ Quiescent s :=
  fun hq => h (congrFun (congrArg (·.2.2) hq) oid)

theorem Counted.of_view (hc : Counted q s) (hv : countView s' = countView s) (hq : Quiescent s' ↔ Quiescent s) :
    Counted q s' := by
  simp only [countView, Prod.mk.injEq] at hv
  obtain ⟨ho, hoid, hmax⟩ := hv
  refine ⟨fun h => ?_, fun h => ?_, ?_⟩
  · rw [ho, hoid]; exact hc.idle (hq.1 h)
  · rw [ho, hoid]; exact hc.busy (mt hq.2 h)
  · rw [ho, hmax]; exact hc.queued

theorem Counted.of_protocolFrame (hc : Counted q s) (h : protocolFrame s' = protocolFrame s) : Counted q s' :=
  hc.of_view (congrArg (fun p => (p.2.1, p.2.2.1, p.2.2.2.1)) h) (by
    unfold Quiescent; rw [pendingView_of_protocolFrame h])

theorem countView_checkReadTuple (ec : EC) (t : String) : countView (checkReadTuple ec t s) = countView s := by
  unfold checkReadTuple; split <;> rfl

theorem countView_readDone (ec : EC) (t : String) : countView (readDone ec t s) = countView s :=
  countView_checkReadTuple (s := s) ec t

theorem countView_writeDone (op : TxOperation) (ec : EC) : countView (writeDone op ec s) = countView s := by
  unfold writeDone invokeDone appendOperation; split <;> rfl

theorem countView_runReadHandler (rh : ReadHandler) (ec : EC) (t : String) :
    countView (runReadHandler rh ec t s) = countView s := by
  cases rh with
  | read => exact (countView_readDone ec t).trans (countView_checkReadTuple ec t)
  | update op => exact countView_writeDone op ec
  | insert op => exact countView_writeDone op _

theorem countView_runLockAcquire (k : LockAcquire) (ec : EC) : countView (runLockAcquire k ec s) = countView s := by
  cases k <;> simp only [runLockAcquire, updateDone, insertDone] <;> split <;> (try split) <;>
    first
    | exact (countView_readDone _ _).trans (countView_checkReadTuple _ _)
    | exact countView_readDone _ _
    | exact countView_writeDone _ _
    | rfl

theorem busy_runLockAcquire (k : LockAcquire) (ec : EC) (s : TxContext) :
    (runLockAcquire k ec s).posted ≠ [] ∨ ∃ oid, (runLockAcquire k ec s).dsReadHandler oid ≠ none := by
  rcases runLockAcquire_pendingView k ec s with ⟨_, he⟩ | ⟨oid, _, he⟩
  · exact .inl fun h => by simp [pendingView, h] at he
  · refine .inr ⟨oid, fun h => ?_⟩
    have := congrFun (congrArg (·.2.2) he) oid
    simp [pendingView, h] at this

theorem not_quiescent_runLockAcquire (k : LockAcquire) (ec : EC) (s : TxContext) :
    ¬ Quiescent { runLockAcquire k ec s with lockAcquire := none } := by
  rcases busy_runLockAcquire k ec s with h | ⟨oid, h⟩
  · exact not_quiescent_of_posted h
  · exact not_quiescent_of_handler h

theorem countView_installLock (mode : LockMode) (key : Key) (k : LockAcquire) :
    countView (installLock mode key k s) = (s.ops, s.oid + 1, s.maxOps) := by
  simp only [installLock, addLockItem, checkLockFree]; split <;> split <;> rfl

theorem handleOperation_count (op : TxOperation) :
    op.opType = .remove ∧ handleOperation op s = emit (.assertFail .handleOperation) s ∨
      countView (handleOperation op s) = (s.ops, s.oid + 1, s.maxOps) ∧ ¬ Quiescent (handleOperation op s) := by
  have hlock : ∀ mode key k, countView (requestRowLock mode key k s) = (s.ops, s.oid + 1, s.maxOps) ∧
      ¬ Quiescent (requestRowLock mode key k s) := fun mode key k => by
    refine ⟨countView_installLock mode key k, fun hq => ?_⟩
    have := congrArg (·.2.1) ((pendingView_installLock (s := s) mode key k).symm.trans hq)
    exact nomatch this
  unfold handleOperation asyncUpdate asyncInsert asyncRead
  split
  all_goals first
    | rename_i h; exact .inl ⟨h, rfl⟩
    | exact .inr (hlock _ _ _)
    | skip
  all_goals
    dsimp only
    split
    · refine .inr ⟨?_, ?_⟩
      · exact (countView_runLockAcquire (s := installLock _ _ _ s) _ _).trans (countView_installLock _ _ _)
      · exact not_quiescent_runLockAcquire _ _ _
    · exact .inr (hlock _ _ _)

theorem counted_handleNextOperation (hc : Counted q s) (hq : Quiescent s) : Counted q (handleNextOperation s) := by
  rcases Driver.handleNextOperation_cases s with ⟨op, rest, -, -, hops, h⟩ | h
  · rw [h]
    rcases handleOperation_count (s := s) op with ⟨-, he⟩ | ⟨hv, hnq⟩
    · rw [he]; exact hc.of_view rfl Iff.rfl
    · simp only [countView, Prod.mk.injEq] at hv
      obtain ⟨ho, hoid, hmax⟩ := hv
      have hi := hc.idle hq
      refine ⟨fun h' => absurd h' hnq, fun _ => ?_, ?_⟩
      · rw [ho, hoid]; exact ⟨by omega, by rw [hops]; exact List.cons_ne_nil _ _⟩
      · rw [ho, hmax]; exact hc.queued
  · exact hc.of_protocolFrame h

theorem countView_readDataFromDsbResponse (r : DsbReadResponse) :
    countView (readDataFromDsbResponse r s) = countView s := by
  have hc : countView (checkDsbOid r.oid s) = countView s := by unfold checkDsbOid; split <;> rfl
  simp only [readDataFromDsbResponse, cacheTuple]
  generalize checkDsbOid r.oid s = s₁ at hc
  have hd : countView (dispatchDsbRead r.oid r.errorCode (r.tupleRow.getD ⟨0, 0, 0, ""⟩).tuple s₁) = countView s₁ := by
    unfold dispatchDsbRead; split
    · exact countView_runReadHandler _ _ _
    · rfl
  split <;> exact hd.trans hc

theorem quiescent_readDataFromDsbResponse_iff (r : DsbReadResponse) :
    Quiescent (readDataFromDsbResponse r s) ↔ Quiescent s := by
  have hc : pendingView (checkDsbOid r.oid s) = pendingView s := pendingView_checkDsbOid r.oid
  unfold Quiescent
  rw [pendingView_readDataFromDsbResponse, ← hc]
  have hh : (checkDsbOid r.oid s).dsReadHandler = s.dsReadHandler := by unfold checkDsbOid; split <;> rfl
  generalize checkDsbOid r.oid s = s₁ at hc hh
  unfold dispatchDsbRead
  split
  · rename_i rh hrh
    obtain ⟨ec', he⟩ := runReadHandler_pendingView rh r.errorCode (r.tupleRow.getD ⟨0, 0, 0, ""⟩).tuple s₁
    have hp : (runReadHandler rh r.errorCode (r.tupleRow.getD ⟨0, 0, 0, ""⟩).tuple s₁).posted ≠ [] := by
      have := congrArg (·.1) he
      simp only [pendingView] at this
      rw [this]; simp
    exact iff_of_false (fun h => hp (congrArg (·.1) h))
      fun h => nomatch (congrFun (congrArg (·.2.2) h) r.oid).symm.trans hrh
  · exact Iff.rfl

theorem Counted.posted (hc : Counted q s) (hi : InFlight s) {ec : EC} {rest : List EC} (hp : s.posted = ec :: rest) :
    rest = [] ∧ s.lockAcquire = none ∧ (∀ o, s.dsReadHandler o = none) ∧ s.ops ≠ [] ∧
      s.oid + s.ops.tail.length = q + 1 ∧ q = s.maxOps := by
  obtain ⟨rfl, hl, hh⟩ := Waiting.of_posted (show Waiting (ec :: rest, s.lockAcquire, s.dsReadHandler) from hp ▸ hi)
  obtain ⟨hcount, hne⟩ := hc.busy (not_quiescent_of_posted (by rw [hp]; exact List.cons_ne_nil _ _))
  have hlen : s.ops.tail.length + 1 = s.ops.length := by
    rw [List.length_tail]; have := List.length_pos.2 hne; omega
  exact ⟨rfl, hl, hh, hne, by omega, hc.queued.resolve_left hne⟩

theorem counted_step (hc : Counted q s) (hi : InFlight s) (e : Event) : Counted q (step s e) := by
  cases e with
  | notifyLockAcquire ec =>
    simp only [step, notifyLockAcquire]
    split
    · rename_i k hk
      have hb : ¬ Quiescent s := fun hq => nomatch (congrArg (·.2.1) hq).symm.trans hk
      have ha : ¬ Quiescent (runLockAcquire k ec { s with lockAcquire := none }) := by
        rcases busy_runLockAcquire k ec { s with lockAcquire := none } with h | ⟨oid, h⟩
        · exact not_quiescent_of_posted h
        · exact not_quiescent_of_handler h
      exact hc.of_view (countView_runLockAcquire k ec) (iff_of_false ha hb)
    · exact hc.of_view rfl Iff.rfl
  | readDataFromDsbResponse r =>
    exact hc.of_view (countView_readDataFromDsbResponse r) (quiescent_readDataFromDsbResponse_iff r)
  | logEntryCommit => exact hc.of_protocolFrame Record.protocolFrame_logEntryCommit
  | runPosted =>
    simp only [step, Step.runPosted]
    split
    · rename_i ec rest hp
      obtain ⟨rfl, hl, hh, -, hcount, hmax⟩ := hc.posted hi hp
      have hq : Quiescent { emit (.opDone ec) { s with posted := [] } with
          ops := s.ops.tail, errorCode := if s.readOnly ∧ ec = .notFoundError then .ok else ec } := by
        simp only [Quiescent, pendingView, emit, hl, Prod.mk.injEq, true_and]; exact funext hh
      exact counted_handleNextOperation ⟨fun _ => hcount, fun h => absurd hq h, .inr hmax⟩ hq
    · exact hc
  | abort ec => exact hc.of_protocolFrame (protocolFrame_abort ec)
  | timeoutCleanUp => exact hc.of_protocolFrame protocolFrame_timeoutCleanUp
  | handleTxTmCommit x => exact hc.of_protocolFrame (protocolFrame_handleTxTmCommit x)
  | handleTxTmAbort x => exact hc.of_protocolFrame (protocolFrame_handleTxTmAbort x)

theorem counted_start (xid rgId : Nat) (distributed : Bool) (access : Key → Option String) (req : TxRequest) :
    ∃ q, Counted q (start xid rgId distributed access req) := by
  unfold start processTxRequest
  split
  · refine ⟨req.operations.length, counted_handleNextOperation ⟨fun _ => ?_, fun h => absurd rfl h, .inr rfl⟩ rfl⟩
    simp only [init, List.nil_append]; omega
  · exact ⟨0, fun _ => rfl, fun h => absurd rfl h, .inl rfl⟩

theorem fails_notifyLockAcquire (ec : EC) (hp : s.lockAcquire = none → S .lockAcquirePending)
    (hst : ∀ key, s.access key = some "" → S .readTupleNotNil)
    (hw : ∀ k op, s.lockAcquire = some k → capturedOp k = some op → BadWrite op → S .writeTupleNotNil) :
    Fails S s (notifyLockAcquire ec s) := by
  unfold notifyLockAcquire
  split
  · rename_i k hk
    exact (Fails.of_out rfl).trans (fails_runLockAcquire k ec hst (hw k · hk))
  · rename_i hk
    exact fails_assert (hp hk)

theorem out_cacheTuple (ec : EC) (row : TupleRow) (s : TxContext) : (cacheTuple ec row s).out = s.out := by
  unfold cacheTuple; split <;> rfl

theorem fails_readDataFromDsbResponse (r : DsbReadResponse) (h₀ : r.oid = 0 → S .dsbOid)
    (hh : s.dsReadHandler r.oid = none → S .dsReadHandler)
    (hr : r.errorCode = .ok → (r.tupleRow.getD ⟨0, 0, 0, ""⟩).tuple = "" → S .readTupleNotNil)
    (hw : ∀ rh op, s.dsReadHandler r.oid = some rh → handlerOp rh = some op → BadWrite op → S .writeTupleNotNil) :
    Fails S s (readDataFromDsbResponse r s) := by
  have hc : Fails S s (checkDsbOid r.oid s) ∧ (checkDsbOid r.oid s).dsReadHandler = s.dsReadHandler := by
    unfold checkDsbOid; split
    · rename_i h; exact ⟨fails_assert (h₀ h), rfl⟩
    · exact ⟨.rfl, rfl⟩
  unfold readDataFromDsbResponse
  refine Fails.trans ?_ (.of_out (out_cacheTuple _ _ _))
  obtain ⟨hc, hh'⟩ := hc
  generalize checkDsbOid r.oid s = s₁ at hc hh'
  refine hc.trans ?_
  unfold dispatchDsbRead
  split
  · rename_i rh hrh
    rw [hh'] at hrh
    exact (fails_runReadHandler (fun h => hr h.1 h.2) (hw rh · hrh)).trans (.of_out rfl)
  · rename_i hrh
    rw [hh'] at hrh
    exact fails_assert (hh hrh)

def EventCovers (S : Assertion → Prop) (s : TxContext) : Event → Prop
  | .notifyLockAcquire _ => s.lockAcquire = none → S .lockAcquirePending
  | .readDataFromDsbResponse r => (r.oid = 0 → S .dsbOid) ∧ (s.dsReadHandler r.oid = none → S .dsReadHandler) ∧
      (r.errorCode = .ok → (r.tupleRow.getD ⟨0, 0, 0, ""⟩).tuple = "" → S .readTupleNotNil)
  | .logEntryCommit | .runPosted | .abort _ => True
  | .timeoutCleanUp => s.distributed = false → s.state = .prepareAborting ∨ s.state = .ended → S .abortTx1p
  | .handleTxTmCommit x =>
    (x ≠ s.xid → S .tmXid) ∧ (x = s.xid → s.state ≠ .prepareCommitting → s.state ≠ .committing → S .phase2Commit)
  | .handleTxTmAbort x => (x ≠ s.xid → S .tmXid) ∧ (x = s.xid → s.state = .committing → S .abortTx2p)

structure Covers (S : Assertion → Prop) (s : TxContext) (e : Event) : Prop where
  store : ∀ key, s.access key = some "" → S .readTupleNotNil
  remove : ∀ op ∈ s.ops, op.opType = .remove → S .handleOperation
  captured : ∀ k op, s.lockAcquire = some k → capturedOp k = some op → BadWrite op → S .writeTupleNotNil
  handler : ∀ o rh op, s.dsReadHandler o = some rh → handlerOp rh = some op → BadWrite op → S .writeTupleNotNil
  event : EventCovers S s e

theorem fails_step (hi : InFlight s) (hc : Counted q s) {e : Event} (hcov : Covers S s e) :
    Fails S s (step s e) := by
  cases e with
  | notifyLockAcquire ec => exact fails_notifyLockAcquire ec hcov.event hcov.store hcov.captured
  | readDataFromDsbResponse r =>
    exact fails_readDataFromDsbResponse r hcov.event.1 hcov.event.2.1 hcov.event.2.2 (hcov.handler r.oid)
  | logEntryCommit =>
    simp only [step, Step.logEntryCommit]
    split
    · refine Fails.trans ?_ (fails_onLogEntryCommit _)
      exact ⟨[_], Eq.refl _, by simp⟩
    · exact .rfl
  | runPosted =>
    simp only [step, Step.runPosted, opDone]
    split
    · rename_i ec rest hp
      obtain ⟨-, hl, -, -, hcount, hmax⟩ := hc.posted hi hp
      refine Fails.trans ?_ (fails_handleNextOperation hl (fun h => ?_)
        (fun op hop => hcov.remove op (List.mem_of_mem_tail hop)) hcov.store)
      · exact ⟨[_], Eq.refl _, by simp⟩
      show s.oid = s.maxOps + 1
      rw [show s.ops.tail = [] from h, List.length_nil] at hcount
      omega
    · exact .rfl
  | abort ec =>
    unfold step abort
    dsimp only
    split
    · exact (Fails.of_out rfl).trans (fails_emit (by exact nofun))
    split
    · rename_i hst
      refine Fails.trans ?_ (fails_abortTx1p fun h => absurd hst h)
      exact ⟨[_], Eq.refl _, by simp⟩
    · exact .of_out rfl
  | timeoutCleanUp =>
    show Fails S s (timeoutCleanUp s)
    unfold timeoutCleanUp
    split
    · exact .rfl
    · exact .rfl
    · rename_i hpc hc'
      split
      · exact fails_abortTx2p fun h => absurd h hc'
      · rename_i hd
        refine (fails_abortTx1p fun h₁ h₂ => hcov.event (by simpa using hd) ?_).trans fails_sendTxResponse
        cases h : s.state <;> simp_all
  | handleTxTmCommit x =>
    show Fails S s (handleTxTmCommit x s)
    unfold handleTxTmCommit
    split
    · rename_i hx; exact fails_handleFinishTxPhase2Commit (hcov.event.2 hx)
    · rename_i hx; exact fails_assert (hcov.event.1 hx)
  | handleTxTmAbort x =>
    show Fails S s (handleTxTmAbort x s)
    unfold handleTxTmAbort handleFinishTxPhase2Abort
    split
    · rename_i hx; exact fails_abortTx2p (hcov.event.2 hx)
    · rename_i hx; exact fails_assert (hcov.event.1 hx)

def CoveredRun (S : Assertion → Prop) : TxContext → List Event → Prop
  | _, [] => True
  | s, e :: es => Covers S s e ∧ CoveredRun S (step s e) es

theorem fails_run (hi : InFlight s) (hc : Counted q s) {es : List Event} (hcov : CoveredRun S s es) :
    Fails S s (run s es) := by
  induction es generalizing s with
  | nil => exact .rfl
  | cons e es ih =>
    exact (fails_step hi hc hcov.1).trans (ih (Driver.inFlight_step hi e) (counted_step hc hi e) hcov.2)

theorem fails_start (xid rgId : Nat) (distributed : Bool) (access : Key → Option String) (req : TxRequest)
    (hrm : ∀ op ∈ req.operations, op.opType = .remove → S .handleOperation)
    (hst : ∀ key, access key = some "" → S .readTupleNotNil) :
    Fails S (init xid rgId distributed access) (start xid rgId distributed access req) := by
  unfold start processTxRequest
  split
  · refine fails_handleNextOperation rfl (fun h => ?_) (by simpa [init] using hrm) hst
    simp only [init, List.nil_append] at h ⊢
    rw [h]; rfl
  · exact .rfl

def ownSites : List Assertion := [.lockAcquireFree, .oidCount, .phase1Commit]

theorem covers_own (s : TxContext) (e : Event) : Covers (· ∉ ownSites) s e := by
  refine ⟨fun _ _ => by decide, fun _ _ _ => by decide, fun _ _ _ _ _ => by decide, fun _ _ _ _ _ _ => by decide, ?_⟩
  cases e <;> simp [EventCovers, ownSites]

theorem coveredRun_own (s : TxContext) (es : List Event) : CoveredRun (· ∉ ownSites) s es := by
  induction es generalizing s with
  | nil => trivial
  | cons e es ih => exact ⟨covers_own s e, ih _⟩

/-- Whatever the request, the store and the environment do, the `lock_acquire_` assertions, the
oid count of `handle_next_operation` and `handle_finish_tx_phase1_commit`'s default never fail. -/
theorem own_assertions_hold (xid rgId : Nat) (distributed : Bool) (access : Key → Option String)
    (req : TxRequest) (es : List Event) :
    Obs.assertFail .lockAcquireFree ∉ (run (start xid rgId distributed access req) es).out ∧
      Obs.assertFail .oidCount ∉ (run (start xid rgId distributed access req) es).out ∧
      Obs.assertFail .phase1Commit ∉ (run (start xid rgId distributed access req) es).out := by
  obtain ⟨q, hc⟩ := counted_start xid rgId distributed access req
  obtain ⟨l, hl, hf⟩ := (fails_start (S := (· ∉ ownSites)) xid rgId distributed access req
    (fun _ _ _ => by decide) fun _ _ => by decide).trans
    (fails_run (Driver.inFlight_start xid rgId distributed access req) hc (coveredRun_own _ es))
  simp only [init, List.append_nil] at hl
  rw [hl]
  exact ⟨fun h => hf _ h (by decide), fun h => hf _ h (by decide), fun h => hf _ h (by decide)⟩

def GoodOp (op : TxOperation) : Prop := op.opType ≠ .remove ∧ ¬BadWrite op

instance : DecidablePred GoodOp := fun op =>
  inferInstanceAs (Decidable (op.opType ≠ .remove ∧ ¬((op.opType = .insert ∨ op.opType = .update) ∧
    op.tupleRow.tuple = "")))

def lockOid : LockAcquire → Nat
  | .read oid _ | .update oid _ _ | .insert oid _ _ => oid

def cleanView (s : TxContext) := (s.ops, s.access, s.oid, s.lockAcquire, s.dsReadHandler)

structure Clean (s : TxContext) : Prop where
  ops : ∀ op ∈ s.ops, GoodOp op
  store : ∀ key, s.access key ≠ some ""
  oid : 0 < s.oid
  lock : ∀ k, s.lockAcquire = some k → 0 < lockOid k ∧ ∀ op, capturedOp k = some op → ¬BadWrite op
  noHandler : s.dsReadHandler 0 = none
  handler : ∀ o h op, s.dsReadHandler o = some h → handlerOp h = some op → ¬BadWrite op

theorem Clean.of_view (hc : Clean s) (hv : cleanView s' = cleanView s) : Clean s' := by
  simp only [cleanView, Prod.mk.injEq] at hv
  obtain ⟨ho, ha, hoid, hl, hh⟩ := hv
  exact ⟨ho ▸ hc.ops, ha ▸ hc.store, hoid ▸ hc.oid, hl ▸ hc.lock, hh ▸ hc.noHandler, hh ▸ hc.handler⟩

theorem Clean.emit (hc : Clean s) : Clean (emit o s) := hc.of_view rfl

theorem Clean.free (hc : Clean s) : Clean { s with lockAcquire := none } :=
  ⟨hc.ops, hc.store, hc.oid, fun _ h => (nomatch h), hc.noHandler, hc.handler⟩

theorem cleanView_of_protocolFrame (h : protocolFrame s' = protocolFrame s) : cleanView s' = cleanView s := by
  have hv := driverView_of_protocolFrame h
  simp only [driverView, Prod.mk.injEq] at hv
  simp only [cleanView, hv]

theorem cleanView_checkReadTuple (ec : EC) (t : String) : cleanView (checkReadTuple ec t s) = cleanView s := by
  unfold checkReadTuple; split <;> rfl

theorem cleanView_readDone (ec : EC) (t : String) : cleanView (readDone ec t s) = cleanView s :=
  cleanView_checkReadTuple (s := s) ec t

theorem cleanView_writeDone (op : TxOperation) (ec : EC) : cleanView (writeDone op ec s) = cleanView s := by
  unfold writeDone invokeDone appendOperation; split <;> rfl

theorem cleanView_runReadHandler (h : ReadHandler) (ec : EC) (t : String) :
    cleanView (runReadHandler h ec t s) = cleanView s := by
  cases h with
  | read => exact (cleanView_readDone ec t).trans (cleanView_checkReadTuple ec t)
  | update op => exact cleanView_writeDone op ec
  | insert op => exact cleanView_writeDone op _

theorem Clean.readDataFromDsb (hc : Clean s) {key : Key} {oid : Nat} {h : ReadHandler} (ho : 0 < oid)
    (hw : ∀ op, handlerOp h = some op → ¬BadWrite op) : Clean (readDataFromDsb key oid h s) := by
  refine ⟨hc.ops, hc.store, hc.oid, hc.lock, ?_, fun o h' op hh => ?_⟩
  · show Function.update s.dsReadHandler oid (some h) 0 = none
    rw [Function.update_noteq (Nat.pos_iff_ne_zero.1 ho).symm]; exact hc.noHandler
  · change Function.update s.dsReadHandler oid (some h) o = some h' at hh
    by_cases hoo : o = oid
    · subst hoo; rw [Function.update_same] at hh; cases hh; exact hw op
    · rw [Function.update_noteq hoo] at hh; exact hc.handler o h' op hh

theorem Clean.erase (hc : Clean s) (oid : Nat) :
    Clean { s with dsReadHandler := Function.update s.dsReadHandler oid none } := by
  refine ⟨hc.ops, hc.store, hc.oid, hc.lock, ?_, fun o h op hh => ?_⟩
  · show Function.update s.dsReadHandler oid none 0 = none
    rw [Function.update_apply]; split
    · rfl
    · exact hc.noHandler
  · change Function.update s.dsReadHandler oid none o = some h at hh
    rw [Function.update_apply] at hh
    split at hh
    · exact nomatch hh
    · exact hc.handler o h op hh

theorem clean_runLockAcquire (hc : Clean s) {k : LockAcquire} (ec : EC) (ho : 0 < lockOid k)
    (hw : ∀ op, capturedOp k = some op → ¬BadWrite op) : Clean (runLockAcquire k ec s) := by
  cases k with
  | read oid key =>
    simp only [runLockAcquire]
    split
    · split
      · exact hc.of_view ((cleanView_readDone _ _).trans (cleanView_checkReadTuple _ _))
      · exact hc.readDataFromDsb ho nofun
    · exact hc.of_view (cleanView_readDone _ _)
  | update oid key op =>
    simp only [runLockAcquire, updateDone]
    split
    · split
      · exact hc.of_view (cleanView_writeDone _ _)
      · exact hc.readDataFromDsb ho hw
    · exact hc.of_view (cleanView_writeDone _ _)
  | insert oid key op =>
    simp only [runLockAcquire, insertDone]
    split
    · split
      · exact hc.of_view (cleanView_writeDone _ _)
      · exact hc.readDataFromDsb ho hw
    · exact hc.of_view (cleanView_writeDone _ _)

theorem clean_installLock (hc : Clean s) (mode : LockMode) (key : Key) {k : LockAcquire} (hk : lockOid k = s.oid)
    (hw : ∀ op, capturedOp k = some op → ¬BadWrite op) : Clean (installLock mode key k s) := by
  have hv : cleanView (installLock mode key k s) = (s.ops, s.access, s.oid + 1, some k, s.dsReadHandler) := by
    unfold installLock addLockItem checkLockFree; split <;> split <;> rfl
  simp only [cleanView, Prod.mk.injEq] at hv
  obtain ⟨ho, ha, hoid, hl, hh⟩ := hv
  refine ⟨ho ▸ hc.ops, ha ▸ hc.store, by omega, fun k' h' => ?_, hh ▸ hc.noHandler, hh ▸ hc.handler⟩
  rw [hl] at h'
  cases h'
  exact ⟨hk ▸ hc.oid, hw⟩

theorem clean_handleOperation (hc : Clean s) {op : TxOperation} (hop : GoodOp op) :
    Clean (handleOperation op s) := by
  have hread : ∀ key rfw, Clean (asyncRead key rfw s) := fun key rfw => by
    unfold asyncRead requestRowLock
    dsimp only
    split
    · exact Clean.free (clean_runLockAcquire (clean_installLock (k := .read s.oid key) hc _ _ rfl nofun) .ok
        hc.oid nofun)
    · exact Clean.emit (clean_installLock hc _ _ rfl nofun)
  have hw : ∀ c : Option TxOperation, c = some op → ∀ op', c = some op' → ¬BadWrite op' :=
    fun _ h _ h' => Option.some.inj (h.symm.trans h') ▸ hop.2
  unfold handleOperation asyncUpdate asyncInsert requestRowLock
  split
  · exact hread _ _
  · exact hread _ _
  · exact Clean.emit (clean_installLock hc _ _ rfl (hw _ rfl))
  · exact Clean.emit (clean_installLock hc _ _ rfl (hw _ rfl))
  · exact hc.emit

theorem clean_handleNextOperation (hc : Clean s) : Clean (handleNextOperation s) := by
  rcases Driver.handleNextOperation_cases s with ⟨op, rest, -, -, hops, h⟩ | h
  · rw [h]; exact clean_handleOperation hc (hc.ops op (hops ▸ List.mem_cons_self _ _))
  · exact hc.of_view (cleanView_of_protocolFrame h)

theorem clean_readDataFromDsbResponse (hc : Clean s) (r : DsbReadResponse) :
    Clean (readDataFromDsbResponse r s) := by
  have hd : ∀ s₁ : TxContext, Clean s₁ → Clean (dispatchDsbRead r.oid r.errorCode
      (r.tupleRow.getD ⟨0, 0, 0, ""⟩).tuple s₁) := fun s₁ hc₁ => by
    unfold dispatchDsbRead
    split
    · exact (hc₁.of_view (cleanView_runReadHandler _ _ _)).erase r.oid
    · exact hc₁.emit
  have hk : ∀ s₁ : TxContext, Clean s₁ → ∀ ec row, Clean (cacheTuple ec row s₁) := fun s₁ hc₁ ec row => by
    unfold cacheTuple
    split
    · rename_i h
      refine ⟨hc₁.ops, fun key => ?_, hc₁.oid, hc₁.lock, hc₁.noHandler, hc₁.handler⟩
      show Function.update s₁.access row.key (some row.tuple) key ≠ some ""
      rw [Function.update_apply]
      split
      · exact fun he => h.2 (Option.some.inj he)
      · exact hc₁.store key
    · exact hc₁
  exact hk _ (hd _ (hc.of_view (by unfold checkDsbOid; split <;> rfl))) _ _

theorem clean_step (hc : Clean s) (e : Event) : Clean (step s e) := by
  cases e with
  | notifyLockAcquire ec =>
    show Clean (notifyLockAcquire ec s)
    unfold notifyLockAcquire
    split
    · rename_i k hk
      exact clean_runLockAcquire hc.free ec (hc.lock k hk).1 (hc.lock k hk).2
    · exact hc.emit
  | readDataFromDsbResponse r => exact clean_readDataFromDsbResponse hc r
  | logEntryCommit => exact hc.of_view (cleanView_of_protocolFrame Record.protocolFrame_logEntryCommit)
  | runPosted =>
    show Clean (Step.runPosted s)
    unfold Step.runPosted opDone
    split
    · exact clean_handleNextOperation
        ⟨fun op h => hc.ops op (List.mem_of_mem_tail h), hc.store, hc.oid, hc.lock, hc.noHandler, hc.handler⟩
    · exact hc
  | abort ec => exact hc.of_view (cleanView_of_protocolFrame (protocolFrame_abort ec))
  | timeoutCleanUp => exact hc.of_view (cleanView_of_protocolFrame protocolFrame_timeoutCleanUp)
  | handleTxTmCommit x => exact hc.of_view (cleanView_of_protocolFrame (protocolFrame_handleTxTmCommit x))
  | handleTxTmAbort x => exact hc.of_view (cleanView_of_protocolFrame (protocolFrame_handleTxTmAbort x))

theorem clean_start (xid rgId : Nat) (distributed : Bool) {access : Key → Option String} {req : TxRequest}
    (hops : ∀ op ∈ req.operations, GoodOp op) (hst : ∀ key, access key ≠ some "") :
    Clean (start xid rgId distributed access req) := by
  unfold start processTxRequest
  split
  · exact clean_handleNextOperation ⟨by simpa [init] using hops, hst, Nat.one_pos, fun _ h => (nomatch h), rfl,
      fun _ _ _ h => nomatch h⟩
  · exact ⟨fun _ h => (nomatch h), hst, Nat.one_pos, fun _ h => (nomatch h), rfl, fun _ _ _ h => nomatch h⟩

/-- The environment `tx_context` is written against: answers only to pending requests, no empty
tuple from the DSB, a local timeout only before the end, coordinator messages it expects. -/
def Expected (s : TxContext) : Event → Prop
  | .notifyLockAcquire _ => s.lockAcquire ≠ none
  | .readDataFromDsbResponse r =>
    s.dsReadHandler r.oid ≠ none ∧ (r.errorCode = .ok → (r.tupleRow.getD ⟨0, 0, 0, ""⟩).tuple ≠ "")
  | .logEntryCommit | .runPosted | .abort _ => True
  | .timeoutCleanUp => s.distributed = false → s.state ≠ .ended
  | .handleTxTmCommit x => x = s.xid ∧ (s.state = .prepareCommitting ∨ s.state = .committing)
  | .handleTxTmAbort x => x = s.xid ∧ s.state ≠ .committing

instance expectedDecidable (s : TxContext) : ∀ e, Decidable (Expected s e)
  | .notifyLockAcquire _ => inferInstanceAs (Decidable (s.lockAcquire ≠ none))
  | .readDataFromDsbResponse r => inferInstanceAs (Decidable (s.dsReadHandler r.oid ≠ none ∧
      (r.errorCode = .ok → (r.tupleRow.getD ⟨0, 0, 0, ""⟩).tuple ≠ "")))
  | .logEntryCommit | .runPosted | .abort _ => isTrue trivial
  | .timeoutCleanUp => inferInstanceAs (Decidable (s.distributed = false → s.state ≠ .ended))
  | .handleTxTmCommit x =>
    inferInstanceAs (Decidable (x = s.xid ∧ (s.state = .prepareCommitting ∨ s.state = .committing)))
  | .handleTxTmAbort x => inferInstanceAs (Decidable (x = s.xid ∧ s.state ≠ .committing))

def ExpectedRun : TxContext → List Event → Prop
  | _, [] => True
  | s, e :: es => Expected s e ∧ ExpectedRun (step s e) es

instance expectedRunDecidable : ∀ s es, Decidable (ExpectedRun s es)
  | _, [] => isTrue trivial
  | s, e :: es =>
    haveI := expectedRunDecidable (step s e) es
    inferInstanceAs (Decidable (Expected s e ∧ ExpectedRun (step s e) es))

theorem covers_of_expected (hc : Clean s) (hf : Follows s) {e : Event} (he : Expected s e) :
    Covers (fun _ => False) s e := by
  refine ⟨fun key => hc.store key, fun op hop => (hc.ops op hop).1, fun k op hk => (hc.lock k hk).2 op,
    fun o h op => hc.handler o h op, ?_⟩
  cases e with
  | notifyLockAcquire ec => exact he
  | readDataFromDsbResponse r => exact ⟨fun h => he.1 (h ▸ hc.noHandler), he.1, he.2⟩
  | logEntryCommit | runPosted | abort _ => trivial
  | timeoutCleanUp => exact fun hd hst => hst.elim (hf.not_prepareAborting hd) (he hd)
  | handleTxTmCommit x => exact ⟨fun hx => hx he.1, fun _ h₁ h₂ => he.2.elim h₁ h₂⟩
  | handleTxTmAbort x => exact ⟨fun hx => hx he.1, fun _ => he.2⟩

theorem coveredRun_of_expected (hc : Clean s) (hf : Follows s) {es : List Event} (he : ExpectedRun s es) :
    CoveredRun (fun _ => False) s es := by
  induction es generalizing s with
  | nil => trivial
  | cons e es ih => exact ⟨covers_of_expected hc hf he.1, ih (clean_step hc e) (follows_step hf e) he.2⟩

/-- Good operations over a store with no empty tuple, in an environment that behaves as
`tx_context` expects, trip no assertion, whatever the order of the events. -/
theorem expected_run_trips_no_assertion (xid rgId : Nat) (distributed : Bool) (access : Key → Option String)
    (req : TxRequest) (es : List Event) (hops : ∀ op ∈ req.operations, GoodOp op)
    (hst : ∀ key, access key ≠ some "") (he : ExpectedRun (start xid rgId distributed access req) es) :
    ∀ a, Obs.assertFail a ∉ (run (start xid rgId distributed access req) es).out := by
  obtain ⟨q, hq⟩ := counted_start xid rgId distributed access req
  obtain ⟨l, hl, hfl⟩ := (fails_start (S := fun _ => False) xid rgId distributed access req
    (fun op hop => (hops op hop).1) hst).trans
    (fails_run (Driver.inFlight_start xid rgId distributed access req) hq
      (coveredRun_of_expected (clean_start xid rgId distributed hops hst) (follows_start xid rgId distributed access req) he))
  intro a hm
  simp only [init, List.append_nil] at hl
  exact hfl a (hl ▸ hm)

theorem update_run_trips_no_assertion :
    (∀ op ∈ [(⟨.update, ⟨1, 0, 7, "w"⟩, 0, 0⟩ : TxOperation)], GoodOp op) ∧
      (∀ key : Key, (fun _ => none : Key → Option String) key ≠ some "") ∧
      ExpectedRun (start 1 0 false (fun _ => none) ⟨false, false, true, 0, [⟨.update, ⟨1, 0, 7, "w"⟩, 0, 0⟩]⟩)
        [.notifyLockAcquire .ok, .readDataFromDsbResponse ⟨1, .ok, some ⟨1, 0, 7, "v"⟩⟩, .runPosted,
          .logEntryCommit] ∧
      ∀ a, Obs.assertFail a ∉ (run (start 1 0 false (fun _ => none)
        ⟨false, false, true, 0, [⟨.update, ⟨1, 0, 7, "w"⟩, 0, 0⟩]⟩)
        [.notifyLockAcquire .ok, .readDataFromDsbResponse ⟨1, .ok, some ⟨1, 0, 7, "v"⟩⟩, .runPosted,
          .logEntryCommit]).out :=
  ⟨by decide, fun _ => nofun, by decide, expected_run_trips_no_assertion 1 0 false (fun _ => none)
    ⟨false, false, true, 0, [⟨.update, ⟨1, 0, 7, "w"⟩, 0, 0⟩]⟩ _ (by decide) (fun _ => nofun) (by decide)⟩

end Tddb.Assertions
