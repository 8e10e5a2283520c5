import Tddb.Assertions

namespace Tddb.Progress

open Tddb.Types Tddb.Context Tddb.Commit Tddb.Operation Tddb.Step Tddb.Frame Tddb.OnePhase Tddb.Assertions

variable {s s' : TxContext}

/-- The answers a context waits for: the lock manager, the DSB, the strand's posted `op_done`,
the WAL's callback, and the coordinator's decision once the vote is durable. -/
def Answer (s : TxContext) : Event → Prop
  | .notifyLockAcquire _ => s.lockAcquire ≠ none
  | .readDataFromDsbResponse r => s.dsReadHandler r.oid ≠ none
  | .runPosted => s.posted ≠ []
  | .logEntryCommit => s.walPending ≠ []
  | .handleTxTmCommit x => x = s.xid ∧ s.state = .prepareCommitting ∧ s.walPending = []
  | .handleTxTmAbort x => x = s.xid ∧ (s.state = .prepareCommitting ∨ s.state = .prepareAborting) ∧
      s.walPending = []
  | .abort _ | .timeoutCleanUp => False

instance answerDecidable (s : TxContext) : ∀ e, Decidable (Answer s e)
  | .notifyLockAcquire _ => inferInstanceAs (Decidable (s.lockAcquire ≠ none))
  | .readDataFromDsbResponse r => inferInstanceAs (Decidable (s.dsReadHandler r.oid ≠ none))
  | .runPosted => inferInstanceAs (Decidable (s.posted ≠ []))
  | .logEntryCommit => inferInstanceAs (Decidable (s.walPending ≠ []))
  | .handleTxTmCommit x =>
    inferInstanceAs (Decidable (x = s.xid ∧ s.state = .prepareCommitting ∧ s.walPending = []))
  | .handleTxTmAbort x => inferInstanceAs (Decidable (x = s.xid ∧
      (s.state = .prepareCommitting ∨ s.state = .prepareAborting) ∧ s.walPending = []))
  | .abort _ | .timeoutCleanUp => inferInstanceAs (Decidable False)

def AnswerRun : TxContext → List Event → Prop
  | _, [] => True
  | s, e :: es => Answer s e ∧ AnswerRun (step s e) es

instance answerRunDecidable : ∀ s es, Decidable (AnswerRun s es)
  | _, [] => isTrue trivial
  | s, e :: es =>
    haveI := answerRunDecidable (step s e) es
    inferInstanceAs (Decidable (Answer s e ∧ AnswerRun (step s e) es))

/-- The answers a transaction can still take: three per operation left and those of the commit
protocol, less those the current operation has had. -/
def budget (s : TxContext) : Nat :=
  match s.state with
  | .idle => 3 * s.ops.length + (if s.distributed then 3 else 1) -
      (if s.lockAcquire.isSome then 0 else if s.posted.isEmpty then 1 else 2)
  | .prepareCommitting | .prepareAborting => s.walPending.length + 2
  | .committing | .aborting | .ended => s.walPending.length

theorem budget_of_idle (hst : s.state = .idle) : budget s = 3 * s.ops.length + (if s.distributed then 3 else 1) -
    (if s.lockAcquire.isSome then 0 else if s.posted.isEmpty then 1 else 2) := by
  rw [budget, hst]

def Owed (s : TxContext) : Prop :=
  match s.state with
  | .idle | .ended => s.walPending = []
  | .prepareCommitting => s.distributed = true ∧
      (s.walPending = [] ∨ s.walPending.map (·.logType) = [some .rmPrepareCommit])
  | .prepareAborting => s.distributed = true ∧
      (s.walPending = [] ∨ s.walPending.map (·.logType) = [some .rmPrepareAbort])
  | .committing => s.walPending.map (·.logType) = [some .rmCommit]
  | .aborting => s.walPending.map (·.logType) = [some .rmAbort]

theorem Owed.of_fields (ho : Owed s) (hd : s'.distributed = s.distributed) (hst : s'.state = s.state)
    (hw : s'.walPending = s.walPending) : Owed s' := by
  unfold Owed at ho ⊢
  rw [hd, hst, hw]
  exact ho

theorem Owed.of_view (ho : Owed s) (h : protocolView s' = protocolView s) : Owed s' :=
  ho.of_fields (congrArg (·.1.2.2.1) h) (congrArg (·.2.1) h) (congrArg (·.2.2.2.2) h)

theorem owed_forceLog (hw : s.walPending = []) {t : TxCmdType} {st : RmState}
    (h : ∀ p : List TxLogProto, p.map (·.logType) = [some t] → Owed { s with state := st, walPending := p }) :
    Owed (asyncForceLog (setTxCmdType t { s with state := st })) :=
  (h _ (by simp [asyncForceLog, setTxCmdType, emit, hw])).of_fields rfl rfl rfl

/-- The invariant of a transaction given answers only. -/
structure Live (s : TxContext) : Prop where
  inFlight : InFlight s
  counted : ∃ q, Counted q s
  owed : Owed s
  noRemove : ∀ op ∈ s.ops, op.opType ≠ .remove
  busy : s.state = .idle → ¬Quiescent s
  quiet : s.state ≠ .idle → Quiescent s

theorem Live.idle (hl : Live s) (hq : ¬Quiescent s) : s.state = .idle :=
  by_contra fun h => hq (hl.quiet h)

theorem Live.ops_ne_nil (hl : Live s) (hq : ¬Quiescent s) : s.ops ≠ [] := by
  obtain ⟨q, hc⟩ := hl.counted
  exact (hc.busy hq).2

theorem length_eq_one_of_map {p : List TxLogProto} {t : Option TxCmdType} (h : p.map (·.logType) = [t]) :
    p.length = 1 := by
  simpa using congrArg List.length h

theorem Live.budget_le (hl : Live s) : budget s ≤ 3 * s.ops.length + (if s.distributed then 3 else 1) := by
  have ho := hl.owed
  unfold budget
  unfold Owed at ho
  split <;> rename_i hst <;> rw [hst] at ho
  · omega
  · obtain ⟨hd, hw | hw⟩ := ho <;> simp only [hd, if_true]
    · simp only [hw, List.length_nil]; omega
    · have := length_eq_one_of_map hw; omega
  · obtain ⟨hd, hw | hw⟩ := ho <;> simp only [hd, if_true]
    · simp only [hw, List.length_nil]; omega
    · have := length_eq_one_of_map hw; omega
  · have := length_eq_one_of_map ho; split <;> omega
  · have := length_eq_one_of_map ho; split <;> omega
  · simp only [ho, List.length_nil]; omega

theorem Live.waits (hl : Live s) (hne : s.state ≠ .ended) : ∃ e, Answer s e := by
  have ho := hl.owed
  unfold Owed at ho
  have hpend : ∀ t, s.walPending.map (·.logType) = [t] → ∃ e, Answer s e := fun t h =>
    ⟨.logEntryCommit, fun hw => by simp [hw] at h⟩
  split at ho <;> rename_i hst
  · cases hk : s.lockAcquire with
    | some k => exact ⟨.notifyLockAcquire .ok, by simp only [Answer, hk]; exact nofun⟩
    | none =>
      by_cases hp : s.posted = []
      · by_contra hno
        have hh : ∀ o, s.dsReadHandler o = none := fun o =>
          by_contra fun h => hno ⟨.readDataFromDsbResponse ⟨o, .ok, none⟩, h⟩
        exact hl.busy hst (by simp only [Quiescent, pendingView, hp, hk, Prod.mk.injEq, true_and]; exact funext hh)
      · exact ⟨.runPosted, hp⟩
  · exact absurd hst hne
  · rcases ho.2 with hw | hw
    · exact ⟨.handleTxTmAbort s.xid, rfl, .inl hst, hw⟩
    · exact hpend _ hw
  · rcases ho.2 with hw | hw
    · exact ⟨.handleTxTmAbort s.xid, rfl, .inr hst, hw⟩
    · exact hpend _ hw
  · exact hpend _ ho
  · exact hpend _ ho

theorem ops_handleNextOperation : (handleNextOperation s).ops = s.ops := by
  rcases Driver.handleNextOperation_cases s with ⟨op, rest, -, -, -, h⟩ | h
  · rw [h]
    rcases handleOperation_count (s := s) op with ⟨-, he⟩ | ⟨hv, -⟩
    · rw [he]; rfl
    · exact congrArg (·.1) hv
  · exact congrArg (·.2.1) h

theorem owed_of_ended (hq : LogProtocol.Quiet s s') (hst : s'.state = .ended) (hw : s.walPending = []) :
    Owed s' := by
  unfold Owed
  rw [hst]
  exact List.eq_nil_iff_forall_not_mem.2 fun r hr => absurd (hw ▸ hq.pending r hr) (List.not_mem_nil r)

theorem checkOidCount_view : protocolView (checkOidCount s) = protocolView s := by
  unfold checkOidCount; split <;> rfl

theorem owed_finishOperations (hst : s.state = .idle) (hw : s.walPending = []) :
    Owed (finishOperations s) ∧ (finishOperations s).state ≠ .idle := by
  unfold finishOperations
  by_cases hd : s.distributed = true
  · rw [if_pos hd, handleFinishTxPhase1PrepareCommit, prepareCommitTx, if_pos hst]
    exact ⟨owed_forceLog hw fun _ hp => ⟨hd, .inr hp⟩, nofun⟩
  · rw [if_neg hd, handleFinishTxPhase1Commit]
    simp only [hst]
    split
    · have hq := LogProtocol.quiet_txCommitted (s := { setTxCmdType .rmCommit { s with state := .committing } with
        commitLogSynced := true })
      exact ⟨owed_of_ended hq.1 hq.2 hw, by rw [onCommittedLogCommit, hq.2]; exact nofun⟩
    · exact ⟨owed_forceLog hw fun _ hp => hp, nofun⟩

theorem owed_handleNextOperation (hst : s.state = .idle) (hw : s.walPending = []) :
    Owed (handleNextOperation s) ∧
      ((handleNextOperation s).state = .idle → ∃ op rest, s.ops = op :: rest ∧
        handleNextOperation s = handleOperation op s) := by
  have hc := checkOidCount_view (s := s)
  unfold handleNextOperation
  rw [if_neg (not_not.2 hst)]
  split
  · split
    · rename_i op rest hops
      refine ⟨Owed.of_view ?_ (driverStep_handleOperation op).view, fun _ => ⟨op, rest, hops, rfl⟩⟩
      unfold Owed; rw [hst]; exact hw
    · obtain ⟨ho, hne⟩ := owed_finishOperations (s := checkOidCount s) ((congrArg (·.2.1) hc).trans hst)
        ((congrArg (·.2.2.2.2) hc).trans hw)
      exact ⟨ho, fun h => absurd h hne⟩
  · split
    · rename_i hd
      exact ⟨owed_forceLog hw fun _ hp => ⟨hd, .inr hp⟩, nofun⟩
    · unfold handleFinishTxPhase1Abort abortTx1p
      rw [hst]
      exact ⟨owed_forceLog hw fun _ hp => hp, nofun⟩

theorem busy_handleNextOperation (hst : s.state = .idle) (hw : s.walPending = []) (hq : Quiescent s)
    (hops : ∀ op ∈ s.ops, op.opType ≠ .remove) :
    ((handleNextOperation s).state = .idle → ¬Quiescent (handleNextOperation s)) ∧
      ((handleNextOperation s).state ≠ .idle → Quiescent (handleNextOperation s)) := by
  by_cases hidle : (handleNextOperation s).state = .idle
  · obtain ⟨op, rest, hops', h⟩ := (owed_handleNextOperation hst hw).2 hidle
    rcases handleOperation_count (s := s) op with ⟨hrm, -⟩ | ⟨-, hnq⟩
    · exact absurd hrm (hops op (hops' ▸ List.mem_cons_self _ _))
    · exact ⟨fun _ => h ▸ hnq, fun h' => absurd hidle h'⟩
  · refine ⟨fun h' => absurd h' hidle, fun _ => ?_⟩
    rcases Driver.handleNextOperation_cases s with ⟨op, rest, -, -, -, h⟩ | h
    · exact absurd (h ▸ (driverStep_handleOperation op).state.trans hst) hidle
    · exact (pendingView_of_protocolFrame h).trans hq

theorem live_handleNextOperation (hi : InFlight (handleNextOperation s)) (hcnt : Counted q (handleNextOperation s))
    (hst : s.state = .idle) (hw : s.walPending = []) (hq : Quiescent s)
    (hops : ∀ op ∈ s.ops, op.opType ≠ .remove) : Live (handleNextOperation s) :=
  ⟨hi, ⟨q, hcnt⟩, (owed_handleNextOperation hst hw).1, fun op h => hops op (ops_handleNextOperation ▸ h),
    (busy_handleNextOperation hst hw hq hops).1, (busy_handleNextOperation hst hw hq hops).2⟩

theorem live_of_step (hl : Live s) (e : Event) (howed : Owed (step s e))
    (hops : (step s e).ops = s.ops ∨ (step s e).ops = s.ops.tail)
    (hbusy : (step s e).state = .idle → ¬Quiescent (step s e))
    (hquiet : (step s e).state ≠ .idle → Quiescent (step s e)) : Live (step s e) := by
  obtain ⟨q, hc⟩ := hl.counted
  refine ⟨Driver.inFlight_step hl.inFlight e, ⟨q, counted_step hc hl.inFlight e⟩, howed, fun op h => ?_, hbusy,
    hquiet⟩
  rcases hops with hops | hops <;> rw [hops] at h
  · exact hl.noRemove op h
  · exact hl.noRemove op (List.mem_of_mem_tail h)

theorem live_of_protocolFrame (hl : Live s) (e : Event) (hf : protocolFrame (step s e) = protocolFrame s)
    (hst : s.state ≠ .idle) (hst' : (step s e).state ≠ .idle) (howed : Owed (step s e)) : Live (step s e) :=
  live_of_step hl e howed (.inl (congrArg (·.2.1) hf)) (fun h => absurd h hst')
    fun _ => (pendingView_of_protocolFrame hf).trans (hl.quiet hst)

theorem posted_readDataFromDsbResponse {r : DsbReadResponse} (h : s.dsReadHandler r.oid ≠ none) :
    (∃ ec, (readDataFromDsbResponse r s).posted = s.posted ++ [ec]) ∧
      (readDataFromDsbResponse r s).lockAcquire = s.lockAcquire := by
  have hc : pendingView (checkDsbOid r.oid s) = pendingView s := pendingView_checkDsbOid r.oid
  have hv := pendingView_readDataFromDsbResponse (s := s) r
  obtain ⟨rh, hrh⟩ := Option.ne_none_iff_exists'.1 h
  have hrh' : (checkDsbOid r.oid s).dsReadHandler r.oid = some rh := by
    rw [show (checkDsbOid r.oid s).dsReadHandler = s.dsReadHandler from congrArg (·.2.2) hc]; exact hrh
  generalize checkDsbOid r.oid s = s₁ at hc hv hrh'
  simp only [dispatchDsbRead, hrh'] at hv
  obtain ⟨ec, he⟩ := runReadHandler_pendingView rh r.errorCode (r.tupleRow.getD ⟨0, 0, 0, ""⟩).tuple s₁
  have hp : (runReadHandler rh r.errorCode (r.tupleRow.getD ⟨0, 0, 0, ""⟩).tuple s₁).posted = s.posted ++ [ec] :=
    (congrArg (·.1) he).trans (congrArg (· ++ [ec]) (congrArg (·.1) hc))
  have hl : (runReadHandler rh r.errorCode (r.tupleRow.getD ⟨0, 0, 0, ""⟩).tuple s₁).lockAcquire = s.lockAcquire :=
    (congrArg (·.2.1) he).trans (congrArg (·.2.1) hc)
  exact ⟨⟨ec, (congrArg (·.1) hv).trans hp⟩, (congrArg (·.2.1) hv).trans hl⟩

theorem budget_of_voted (h : s.state = .prepareCommitting ∨ s.state = .prepareAborting) :
    budget s = s.walPending.length + 2 := by
  rcases h with h | h <;> rw [budget, h]

theorem budget_of_decided (h : s.state = .committing ∨ s.state = .aborting ∨ s.state = .ended) :
    budget s = s.walPending.length := by
  rcases h with h | h | h <;> rw [budget, h]

theorem logEntryCommit_vote {r : TxLogProto} (hw : s.walPending = [r])
    (ht : r.logType = some .rmPrepareCommit ∨ r.logType = some .rmPrepareAbort) :
    (step s .logEntryCommit).state = s.state ∧ (step s .logEntryCommit).walPending = [] ∧
      (step s .logEntryCommit).distributed = s.distributed := by
  rcases ht with ht | ht <;>
    simp only [step, Step.logEntryCommit, hw, onLogEntryCommit, ht, onPrepareCommittedLogCommit,
      onPrepareAbortedLogCommit, txPrepareCommitted, txPrepareAborted, sendPrepareMessage, emit] <;>
    trivial

theorem logEntryCommit_decision {r : TxLogProto} (hw : s.walPending = [r])
    (ht : r.logType = some .rmCommit ∨ r.logType = some .rmAbort) :
    Owed (step s .logEntryCommit) ∧ (step s .logEntryCommit).state = .ended := by
  rcases ht with ht | ht <;>
    simp only [step, Step.logEntryCommit, hw, onLogEntryCommit, ht, onCommittedLogCommit, onAbortedLogCommit]
  · have hq := LogProtocol.quiet_txCommitted (s := { emit (.logCommit (some .rmCommit)) { s with walPending := [] } with
      logEntry := none, commitLogSynced := true })
    exact ⟨owed_of_ended hq.1 hq.2 rfl, hq.2⟩
  · have hq := LogProtocol.quiet_txAborted (s := { emit (.logCommit (some .rmAbort)) { s with walPending := [] } with
      logEntry := none })
    exact ⟨owed_of_ended hq.1 hq.2 rfl, hq.2⟩

theorem Owed.pending (ho : Owed s) {r : TxLogProto} {rest : List TxLogProto} (hw : s.walPending = r :: rest) :
    rest = [] ∧ ((s.state = .prepareCommitting ∧ r.logType = some .rmPrepareCommit ∨
        s.state = .prepareAborting ∧ r.logType = some .rmPrepareAbort) ∨
      (s.state = .committing ∧ r.logType = some .rmCommit ∨ s.state = .aborting ∧ r.logType = some .rmAbort)) := by
  unfold Owed at ho
  have hone : ∀ t, s.walPending.map (·.logType) = [t] → rest = [] ∧ r.logType = t := fun t h => by
    simpa [hw, and_comm] using h
  split at ho <;> rename_i hst
  · exact absurd (hw ▸ ho) nofun
  · exact absurd (hw ▸ ho) nofun
  · obtain ⟨h₁, h₂⟩ := hone _ (ho.2.resolve_left (hw ▸ nofun))
    exact ⟨h₁, .inl (.inl ⟨hst, h₂⟩)⟩
  · obtain ⟨h₁, h₂⟩ := hone _ (ho.2.resolve_left (hw ▸ nofun))
    exact ⟨h₁, .inl (.inr ⟨hst, h₂⟩)⟩
  · obtain ⟨h₁, h₂⟩ := hone _ ho
    exact ⟨h₁, .inr (.inl ⟨hst, h₂⟩)⟩
  · obtain ⟨h₁, h₂⟩ := hone _ ho
    exact ⟨h₁, .inr (.inr ⟨hst, h₂⟩)⟩

theorem live_notifyLockAcquire (hl : Live s) (ec : EC) (he : s.lockAcquire ≠ none) :
    Live (step s (.notifyLockAcquire ec)) ∧ budget (step s (.notifyLockAcquire ec)) < budget s := by
  obtain ⟨k, hk⟩ := Option.ne_none_iff_exists'.1 he
  have hst := hl.idle fun hq => he (congrArg (·.2.1) hq)
  obtain ⟨hp, -⟩ := Waiting.of_lock (show Waiting (s.posted, some k, s.dsReadHandler) from hk ▸ hl.inFlight)
  have hs' : step s (.notifyLockAcquire ec) = runLockAcquire k ec { s with lockAcquire := none } := by
    simp only [step, notifyLockAcquire, hk]
  have hd := driverStep_notifyLockAcquire (s := s) ec
  have hst' : (step s (.notifyLockAcquire ec)).state = .idle := hd.state.trans hst
  have hdist : (step s (.notifyLockAcquire ec)).distributed = s.distributed := congrArg (·.2.2.1) hd.config
  have hops : (step s (.notifyLockAcquire ec)).ops = s.ops := by
    rw [hs']; exact congrArg (·.1) (countView_runLockAcquire k ec)
  have hnq : ¬Quiescent (step s (.notifyLockAcquire ec)) := by
    rw [hs']
    rcases busy_runLockAcquire k ec { s with lockAcquire := none } with h | ⟨oid, h⟩
    · exact not_quiescent_of_posted h
    · exact not_quiescent_of_handler h
  have hlock : (step s (.notifyLockAcquire ec)).lockAcquire = none := by rw [hs', runLockAcquire_lockAcquire]
  refine ⟨live_of_step hl _ (hl.owed.of_view hd.view) (.inl hops) (fun _ => hnq) fun h => absurd hst' h, ?_⟩
  rw [budget_of_idle hst', budget_of_idle hst]
  simp only [hops, hdist, hlock, hk, hp, Option.isSome_none, Option.isSome_some, if_true, Bool.false_eq_true,
    if_false]
  split <;> split <;> omega

theorem live_readDataFromDsbResponse (hl : Live s) (r : DsbReadResponse) (he : s.dsReadHandler r.oid ≠ none) :
    Live (step s (.readDataFromDsbResponse r)) ∧ budget (step s (.readDataFromDsbResponse r)) < budget s := by
  have hnq : ¬Quiescent s := not_quiescent_of_handler he
  have hst := hl.idle hnq
  have hlen := List.length_pos.2 (hl.ops_ne_nil hnq)
  obtain ⟨hp, hlk, -⟩ := Waiting.of_handler hl.inFlight he
  obtain ⟨⟨ec, hp'⟩, hlk'⟩ := posted_readDataFromDsbResponse he
  have hp' : (step s (.readDataFromDsbResponse r)).posted = s.posted ++ [ec] := hp'
  have hlk' : (step s (.readDataFromDsbResponse r)).lockAcquire = s.lockAcquire := hlk'
  have hd := driverStep_readDataFromDsbResponse (s := s) r
  have hst' : (step s (.readDataFromDsbResponse r)).state = .idle := hd.state.trans hst
  have hdist : (step s (.readDataFromDsbResponse r)).distributed = s.distributed := congrArg (·.2.2.1) hd.config
  have hops : (step s (.readDataFromDsbResponse r)).ops = s.ops :=
    congrArg (·.1) (countView_readDataFromDsbResponse r)
  refine ⟨live_of_step hl _ (hl.owed.of_view hd.view) (.inl hops)
    (fun _ => mt (quiescent_readDataFromDsbResponse_iff r).1 hnq) fun h => absurd hst' h, ?_⟩
  rw [budget_of_idle hst', budget_of_idle hst]
  simp only [hops, hdist, hlk', hlk, hp', hp, Option.isSome_none, Bool.false_eq_true, if_false, List.nil_append,
    List.isEmpty_cons, List.isEmpty_nil, if_true]
  split <;> omega

theorem live_runPosted (hl : Live s) (he : s.posted ≠ []) :
    Live (step s .runPosted) ∧ budget (step s .runPosted) < budget s := by
  obtain ⟨ec, rest, hp⟩ := List.exists_cons_of_ne_nil he
  have hst := hl.idle (not_quiescent_of_posted he)
  have hw : s.walPending = [] := by have := hl.owed; unfold Owed at this; rw [hst] at this; exact this
  obtain ⟨q, hc⟩ := hl.counted
  obtain ⟨rfl, hlk, hh, hne, -, -⟩ := hc.posted hl.inFlight hp
  have hs' : step s .runPosted = handleNextOperation { emit (.opDone ec) { s with posted := [] } with
      ops := s.ops.tail, errorCode := if s.readOnly ∧ ec = .notFoundError then .ok else ec } := by
    simp only [step, Step.runPosted, hp, opDone]
  have hq : Quiescent { emit (.opDone ec) { s with posted := [] } with
      ops := s.ops.tail, errorCode := if s.readOnly ∧ ec = .notFoundError then .ok else ec } := by
    simp only [Quiescent, pendingView, emit, hlk, Prod.mk.injEq, true_and]; exact funext hh
  generalize hs₁ : ({ emit (.opDone ec) { s with posted := [] } with
      ops := s.ops.tail, errorCode := if s.readOnly ∧ ec = .notFoundError then .ok else ec } : TxContext) = s₁
    at hs' hq
  have hst₁ : s₁.state = .idle := by rw [← hs₁]; exact hst
  have hw₁ : s₁.walPending = [] := by rw [← hs₁]; exact hw
  have hops₁ : s₁.ops = s.ops.tail := by rw [← hs₁]
  obtain ⟨hbusy, hquiet⟩ := busy_handleNextOperation hst₁ hw₁ hq
    fun op h => hl.noRemove op (List.mem_of_mem_tail (hops₁ ▸ h))
  have hops : (step s .runPosted).ops = s.ops.tail := by rw [hs', ops_handleNextOperation, hops₁]
  have hl' := live_of_step hl _ (by rw [hs']; exact (owed_handleNextOperation hst₁ hw₁).1) (.inr hops)
    (by rw [hs']; exact hbusy) (by rw [hs']; exact hquiet)
  refine ⟨hl', Nat.lt_of_le_of_lt hl'.budget_le ?_⟩
  have hdist : (step s .runPosted).distributed = s.distributed := congrArg (·.2.2.1) (config_step .runPosted)
  have hlen := List.length_pos.2 hne
  rw [hops, hdist, List.length_tail, budget_of_idle hst]
  simp only [hlk, hp, Option.isSome_none, Bool.false_eq_true, if_false, List.isEmpty_cons]
  split <;> omega

theorem live_logEntryCommit (hl : Live s) (he : s.walPending ≠ []) :
    Live (step s .logEntryCommit) ∧ budget (step s .logEntryCommit) < budget s := by
  obtain ⟨r, rest, hw⟩ := List.exists_cons_of_ne_nil he
  have hf := Record.protocolFrame_logEntryCommit (s := s)
  obtain ⟨rfl, hvote | hdec⟩ := hl.owed.pending hw
  · have hv : s.state = .prepareCommitting ∨ s.state = .prepareAborting := hvote.imp And.left And.left
    have hd : s.distributed = true := by
      have ho := hl.owed; unfold Owed at ho
      rcases hv with h | h <;> rw [h] at ho <;> exact ho.1
    obtain ⟨hst', hw', hd'⟩ := logEntryCommit_vote hw (hvote.imp And.right And.right)
    have hst : s.state ≠ .idle := by rcases hv with h | h <;> rw [h] <;> exact nofun
    refine ⟨live_of_protocolFrame hl _ hf hst (hst' ▸ hst) ?_, ?_⟩
    · unfold Owed; rw [hw', hd']; rcases hv with h | h <;> rw [hst', h] <;> exact ⟨hd, .inl rfl⟩
    · rw [budget_of_voted (hst' ▸ hv), budget_of_voted hv, hw', hw]; exact Nat.lt_succ_self _
  · obtain ⟨ho', hend⟩ := logEntryCommit_decision hw (hdec.imp And.right And.right)
    have hst : s.state ≠ .idle := by rcases hdec with ⟨h, -⟩ | ⟨h, -⟩ <;> rw [h] <;> exact nofun
    refine ⟨live_of_protocolFrame hl _ hf hst (by rw [hend]; exact nofun) ho', ?_⟩
    have h0 : (step s .logEntryCommit).walPending = [] := by
      have := ho'; unfold Owed at this; rw [hend] at this; exact this
    rw [budget_of_decided (.inr (.inr hend)), budget_of_decided (hdec.imp And.left fun h => .inl h.1), h0, hw]
    exact Nat.zero_lt_succ _

theorem live_handleTxTmCommit (hl : Live s) (hst : s.state = .prepareCommitting) (hw : s.walPending = []) :
    Live (step s (.handleTxTmCommit s.xid)) ∧ budget (step s (.handleTxTmCommit s.xid)) < budget s := by
  have hs' : step s (.handleTxTmCommit s.xid) =
      asyncForceLog (setTxCmdType .rmCommit { s with state := .committing }) := by
    simp only [step, handleTxTmCommit, if_true, handleFinishTxPhase2Commit, hst]
  have hst' : (step s (.handleTxTmCommit s.xid)).state = .committing := by rw [hs']; rfl
  refine ⟨live_of_protocolFrame hl _ (protocolFrame_handleTxTmCommit _) (by rw [hst]; exact nofun)
    (by rw [hst']; exact nofun) (by rw [hs']; exact owed_forceLog hw fun _ hp => hp), ?_⟩
  rw [budget_of_decided (.inl hst'), budget_of_voted (.inl hst), hs']
  simp [asyncForceLog, setTxCmdType, emit, hw]

theorem live_handleTxTmAbort (hl : Live s) (hst : s.state = .prepareCommitting ∨ s.state = .prepareAborting)
    (hw : s.walPending = []) :
    Live (step s (.handleTxTmAbort s.xid)) ∧ budget (step s (.handleTxTmAbort s.xid)) < budget s := by
  have hs' : step s (.handleTxTmAbort s.xid) = asyncForceLog (setTxCmdType .rmAbort { s with state := .aborting }) := by
    rcases hst with hst | hst <;> simp only [step, handleTxTmAbort, if_true, handleFinishTxPhase2Abort, abortTx2p, hst]
  have hst' : (step s (.handleTxTmAbort s.xid)).state = .aborting := by rw [hs']; rfl
  refine ⟨live_of_protocolFrame hl _ (protocolFrame_handleTxTmAbort _)
    (by rcases hst with h | h <;> rw [h] <;> exact nofun) (by rw [hst']; exact nofun)
    (by rw [hs']; exact owed_forceLog hw fun _ hp => hp), ?_⟩
  rw [budget_of_decided (.inr (.inl hst')), budget_of_voted hst, hs']
  simp [asyncForceLog, setTxCmdType, emit, hw]

theorem live_step (hl : Live s) : ∀ {e : Event}, Answer s e → Live (step s e) ∧ budget (step s e) < budget s
  | .notifyLockAcquire ec, he => live_notifyLockAcquire hl ec he
  | .readDataFromDsbResponse r, he => live_readDataFromDsbResponse hl r he
  | .runPosted, he => live_runPosted hl he
  | .logEntryCommit, he => live_logEntryCommit hl he
  | .handleTxTmCommit _, ⟨rfl, hst, hw⟩ => live_handleTxTmCommit hl hst hw
  | .handleTxTmAbort _, ⟨rfl, hst, hw⟩ => live_handleTxTmAbort hl hst hw
  | .abort _, he | .timeoutCleanUp, he => he.elim

theorem live_run : ∀ {s} (es : List Event), Live s → AnswerRun s es →
    Live (run s es) ∧ es.length + budget (run s es) ≤ budget s
  | _, [], hl, _ => ⟨hl, by simp only [List.length_nil, run, List.foldl_nil]; omega⟩
  | s, e :: es, hl, ⟨he, hes⟩ => by
    obtain ⟨hl', hlt⟩ := live_step hl he
    obtain ⟨hl'', hle⟩ := live_run es hl' hes
    refine ⟨hl'', ?_⟩
    show (e :: es).length + budget (run (step s e) es) ≤ budget s
    rw [List.length_cons]
    omega

theorem live_start (xid rgId : Nat) (distributed : Bool) (access : Key → Option String) (req : TxRequest)
    (hone : req.oneshot = true) (hops : ∀ op ∈ req.operations, op.opType ≠ .remove) :
    Live (start xid rgId distributed access req) ∧ (start xid rgId distributed access req).ops = req.operations := by
  have hi := Driver.inFlight_start xid rgId distributed access req
  obtain ⟨q, hq⟩ := counted_start xid rgId distributed access req
  unfold start processTxRequest at hi hq ⊢
  simp only [hone, if_true] at hi hq ⊢
  exact ⟨live_handleNextOperation hi hq rfl rfl rfl fun op h => hops op (by simpa [init] using h),
    ops_handleNextOperation.trans (List.nil_append _)⟩

/-- A one-shot request without REMOVE takes at most `3 * n + 1` answers when local and `3 * n + 3`
when distributed, and a run of answers that can take no further one has ended. -/
theorem answered_transaction_ends (xid rgId : Nat) (distributed : Bool) (access : Key → Option String)
    (req : TxRequest) (hone : req.oneshot = true) (hops : ∀ op ∈ req.operations, op.opType ≠ .remove)
    (es : List Event) (hes : AnswerRun (start xid rgId distributed access req) es) :
    es.length ≤ 3 * req.operations.length + (if distributed then 3 else 1) ∧
      ((run (start xid rgId distributed access req) es).state = .ended ∨
        ∃ e, Answer (run (start xid rgId distributed access req) es) e) := by
  obtain ⟨hl, hops'⟩ := live_start xid rgId distributed access req hone hops
  obtain ⟨hl', hle⟩ := live_run es hl hes
  have hb := hl.budget_le
  rw [hops', show (start xid rgId distributed access req).distributed = distributed from
    congrArg (·.2.2.1) (config_start xid rgId distributed access req)] at hb
  refine ⟨by omega, ?_⟩
  by_cases hend : (run (start xid rgId distributed access req) es).state = .ended
  · exact .inl hend
  · exact .inr (hl'.waits hend)

theorem distributed_update_ends_after_six_answers :
    (⟨false, true, true, 0, [⟨.update, ⟨1, 0, 7, "w"⟩, 0, 0⟩]⟩ : TxRequest).oneshot = true ∧
      (∀ op ∈ (⟨false, true, true, 0, [⟨.update, ⟨1, 0, 7, "w"⟩, 0, 0⟩]⟩ : TxRequest).operations,
        op.opType ≠ .remove) ∧
      AnswerRun (start 1 0 true (fun _ => none) ⟨false, true, true, 0, [⟨.update, ⟨1, 0, 7, "w"⟩, 0, 0⟩]⟩)
        [.notifyLockAcquire .ok, .readDataFromDsbResponse ⟨1, .ok, some ⟨1, 0, 7, "v"⟩⟩, .runPosted,
          .logEntryCommit, .handleTxTmCommit 1, .logEntryCommit] ∧
      (run (start 1 0 true (fun _ => none) ⟨false, true, true, 0, [⟨.update, ⟨1, 0, 7, "w"⟩, 0, 0⟩]⟩)
        [.notifyLockAcquire .ok, .readDataFromDsbResponse ⟨1, .ok, some ⟨1, 0, 7, "v"⟩⟩, .runPosted,
          .logEntryCommit, .handleTxTmCommit 1, .logEntryCommit]).state = .ended ∧
      ([.notifyLockAcquire .ok, .readDataFromDsbResponse ⟨1, .ok, some ⟨1, 0, 7, "v"⟩⟩, .runPosted,
          .logEntryCommit, .handleTxTmCommit 1, .logEntryCommit] : List Event).length ≤
        3 * (⟨false, true, true, 0, [⟨.update, ⟨1, 0, 7, "w"⟩, 0, 0⟩]⟩ : TxRequest).operations.length +
          (if true then 3 else 1) ∧
      ((run (start 1 0 true (fun _ => none) ⟨false, true, true, 0, [⟨.update, ⟨1, 0, 7, "w"⟩, 0, 0⟩]⟩)
        [.notifyLockAcquire .ok, .readDataFromDsbResponse ⟨1, .ok, some ⟨1, 0, 7, "v"⟩⟩, .runPosted,
          .logEntryCommit, .handleTxTmCommit 1, .logEntryCommit]).state = .ended ∨
        ∃ e, Answer (run (start 1 0 true (fun _ => none) ⟨false, true, true, 0, [⟨.update, ⟨1, 0, 7, "w"⟩, 0, 0⟩]⟩)
          [.notifyLockAcquire .ok, .readDataFromDsbResponse ⟨1, .ok, some ⟨1, 0, 7, "v"⟩⟩, .runPosted,
            .logEntryCommit, .handleTxTmCommit 1, .logEntryCommit]) e) :=
  ⟨rfl, by decide, by decide, by decide,
    answered_transaction_ends 1 0 true (fun _ => none) _ rfl (by decide) _ (by decide)⟩

end Tddb.Progress
