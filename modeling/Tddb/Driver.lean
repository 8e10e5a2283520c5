import Tddb.OnePhase

namespace Tddb.Driver

open Tddb.Types Tddb.Context Tddb.Commit Tddb.Operation Tddb.Step Tddb.Frame Tddb.OnePhase

variable {s s' : TxContext}

theorem inFlight_of_protocolFrame (h : protocolFrame s' = protocolFrame s) (hi : InFlight s) : InFlight s' := by
  unfold InFlight; rw [pendingView_of_protocolFrame h]; exact hi

theorem quiescent_of_protocolFrame (h : protocolFrame s' = protocolFrame s) (hq : Quiescent s) :
    Quiescent s' ∧ s'.ops = s.ops :=
  ⟨(pendingView_of_protocolFrame h).trans hq, congrArg (·.2.1) h⟩

theorem handleNextOperation_cases (s : TxContext) :
    (∃ op rest, s.state = .idle ∧ s.errorCode = .ok ∧ s.ops = op :: rest ∧
      handleNextOperation s = handleOperation op s) ∨
    protocolFrame (handleNextOperation s) = protocolFrame s := by
  unfold handleNextOperation
  split
  · exact .inr rfl
  rename_i hst
  split
  · rename_i he
    split
    · rename_i op rest hops
      exact .inl ⟨op, rest, of_not_not hst, he, hops, rfl⟩
    · exact .inr (protocolFrame_finishOperations.trans protocolFrame_checkOidCount)
  · split
    · exact .inr protocolFrame_handleFinishTxPhase1PrepareAbort
    · exact .inr protocolFrame_abortTx1p

theorem inFlight_handleNextOperation (hq : Quiescent s) : InFlight (handleNextOperation s) := by
  rcases handleNextOperation_cases s with ⟨op, -, -, -, -, h⟩ | h
  · rw [h]; exact inFlight_handleOperation op hq
  · exact inFlight_of_protocolFrame h hq.inFlight

theorem inFlight_runPosted (hi : InFlight s) : InFlight (Step.runPosted s) := by
  unfold Step.runPosted
  split
  · rename_i ec rest hp
    obtain ⟨rfl, hl, hh⟩ := Waiting.of_posted (show Waiting (ec :: rest, s.lockAcquire, s.dsReadHandler)
      from hp ▸ hi)
    have hq : Quiescent { s with posted := [] } := by
      simp only [Quiescent, pendingView, hl, Prod.mk.injEq, true_and]; exact funext hh
    exact inFlight_handleNextOperation hq
  · exact hi

theorem inFlight_step (hi : InFlight s) (e : Event) : InFlight (step s e) := by
  cases e with
  | notifyLockAcquire ec => exact inFlight_notifyLockAcquire ec hi
  | readDataFromDsbResponse r => exact inFlight_readDataFromDsbResponse r hi
  | logEntryCommit =>
    simp only [step, Step.logEntryCommit]
    split
    · exact inFlight_of_protocolFrame (s := { s with walPending := _ }) (protocolFrame_onLogEntryCommit _) hi
    · exact hi
  | runPosted => exact inFlight_runPosted hi
  | abort ec => exact inFlight_of_protocolFrame (protocolFrame_abort ec) hi
  | timeoutCleanUp => exact inFlight_of_protocolFrame protocolFrame_timeoutCleanUp hi
  | handleTxTmCommit x => exact inFlight_of_protocolFrame (protocolFrame_handleTxTmCommit x) hi
  | handleTxTmAbort x => exact inFlight_of_protocolFrame (protocolFrame_handleTxTmAbort x) hi

theorem inFlight_run (hi : InFlight s) (es : List Event) : InFlight (run s es) := by
  induction es generalizing s with
  | nil => exact hi
  | cons e es ih => exact ih (inFlight_step hi e)

theorem quiescent_init (xid rgId : Nat) (distributed : Bool) (access : Key → Option String) :
    Quiescent (init xid rgId distributed access) := rfl

theorem inFlight_start (xid rgId : Nat) (distributed : Bool) (access : Key → Option String)
    (req : TxRequest) : InFlight (start xid rgId distributed access req) := by
  unfold start processTxRequest
  dsimp only
  split
  · exact inFlight_handleNextOperation (quiescent_init xid rgId distributed access)
  · exact (quiescent_init xid rgId distributed access).inFlight

/-- For every request and every order of events, a transaction has at most one operation in flight:
one lock continuation, or a single DSB handler, or a single posted `op_done`. -/
theorem one_operation_in_flight (xid rgId : Nat) (distributed : Bool) (access : Key → Option String)
    (req : TxRequest) (es : List Event) : InFlight (run (start xid rgId distributed access req) es) :=
  inFlight_run (inFlight_start xid rgId distributed access req) es

theorem quiescent_step (hq : Quiescent s) (e : Event) : Quiescent (step s e) ∧ (step s e).ops = s.ops := by
  have hp : s.posted = [] := congrArg (·.1) hq
  have hl : s.lockAcquire = none := congrArg (·.2.1) hq
  cases e with
  | notifyLockAcquire ec =>
    refine ⟨quiescent_notifyLockAcquire ec hq, ?_⟩
    simp only [step, notifyLockAcquire, hl]; rfl
  | readDataFromDsbResponse r =>
    refine ⟨quiescent_readDataFromDsbResponse r hq, ?_⟩
    have hc : (checkDsbOid r.oid s).ops = s.ops ∧ (checkDsbOid r.oid s).dsReadHandler r.oid = none := by
      unfold checkDsbOid; split <;> exact ⟨rfl, congrFun (congrArg (·.2.2) hq) r.oid⟩
    simp only [step, readDataFromDsbResponse, cacheTuple]
    generalize checkDsbOid r.oid s = s₁ at hc
    simp only [dispatchDsbRead, hc.2]
    split <;> exact hc.1
  | logEntryCommit =>
    simp only [step, Step.logEntryCommit]
    split
    · exact quiescent_of_protocolFrame (s := emit _ { s with walPending := _ }) (protocolFrame_onLogEntryCommit _) hq
    · exact ⟨hq, rfl⟩
  | runPosted => simp only [step, Step.runPosted, hp, and_true]; exact hq
  | abort ec => exact quiescent_of_protocolFrame (protocolFrame_abort ec) hq
  | timeoutCleanUp => exact quiescent_of_protocolFrame protocolFrame_timeoutCleanUp hq
  | handleTxTmCommit x => exact quiescent_of_protocolFrame (protocolFrame_handleTxTmCommit x) hq
  | handleTxTmAbort x => exact quiescent_of_protocolFrame (protocolFrame_handleTxTmAbort x) hq

theorem quiescent_run (hq : Quiescent s) (es : List Event) : Quiescent (run s es) ∧ (run s es).ops = s.ops := by
  induction es generalizing s with
  | nil => exact ⟨hq, rfl⟩
  | cons e es ih =>
    obtain ⟨hq', ho⟩ := quiescent_step hq e
    exact (ih hq').imp_right (·.trans ho)

/-- `handle_operation` sends a REMOVE to its default branch, which only asserts: a oneshot request
whose next operation is a REMOVE never completes it, and nothing after it runs. -/
theorem remove_never_completes (xid rgId : Nat) (distributed : Bool) (access : Key → Option String)
    (req : TxRequest) (op : TxOperation) (rest : List TxOperation) (hone : req.oneshot = true)
    (hops : req.operations = op :: rest) (hrm : op.opType = .remove) (es : List Event) :
    Quiescent (run (start xid rgId distributed access req) es) ∧
      (run (start xid rgId distributed access req) es).ops = req.operations := by
  have h₀ : Quiescent (start xid rgId distributed access req) ∧
      (start xid rgId distributed access req).ops = req.operations := by
    simp only [start, processTxRequest, init, hone, if_true, handleNextOperation, ne_eq, not_true_eq_false,
      if_false, List.nil_append, hops, handleOperation, hrm]
    exact ⟨rfl, rfl⟩
  obtain ⟨hq, ho⟩ := quiescent_run h₀.1 es
  exact ⟨hq, ho.trans h₀.2⟩

theorem remove_request_stalls :
    (⟨false, false, true, 0, [⟨.remove, ⟨1, 0, 7, ""⟩, 0, 0⟩]⟩ : TxRequest).oneshot = true ∧
      (⟨false, false, true, 0, [⟨.remove, ⟨1, 0, 7, ""⟩, 0, 0⟩]⟩ : TxRequest).operations =
        [⟨.remove, ⟨1, 0, 7, ""⟩, 0, 0⟩] ∧
      (⟨.remove, ⟨1, 0, 7, ""⟩, 0, 0⟩ : TxOperation).opType = .remove ∧
      Quiescent (run (start 1 0 false (fun _ => some "v") ⟨false, false, true, 0, [⟨.remove, ⟨1, 0, 7, ""⟩, 0, 0⟩]⟩)
        [.notifyLockAcquire .ok, .runPosted, .logEntryCommit]) ∧
      (run (start 1 0 false (fun _ => some "v") ⟨false, false, true, 0, [⟨.remove, ⟨1, 0, 7, ""⟩, 0, 0⟩]⟩)
        [.notifyLockAcquire .ok, .runPosted, .logEntryCommit]).ops = [⟨.remove, ⟨1, 0, 7, ""⟩, 0, 0⟩] :=
  ⟨rfl, rfl, rfl, remove_never_completes 1 0 false (fun _ => some "v")
    ⟨false, false, true, 0, [⟨.remove, ⟨1, 0, 7, ""⟩, 0, 0⟩]⟩ _ [] rfl rfl rfl _⟩

end Tddb.Driver
