import Tddb.Driver

namespace Tddb.Wal

open Tddb.Types Tddb.History Tddb.Context Tddb.Commit Tddb.Operation Tddb.Step Tddb.Frame

def isWrite (op : TxOperation) : Bool := op.opType == .insert || op.opType == .update

def stamp (xid rgId : Nat) (op : TxOperation) : TxOperation := { op with xid := xid, sdId := rgId }

def stampWrites (xid rgId : Nat) (ops : List TxOperation) : List TxOperation :=
  (ops.filter isWrite).map (stamp xid rgId)

def opsOf : Obs → List TxOperation
  | .walAppend rs => rs.flatMap (·.operations)
  | _ => []

def appendedOps : List Obs → List TxOperation
  | [] => []
  | o :: h => appendedOps h ++ opsOf o

def logOps (s : TxContext) : List TxOperation := (s.logEntry.getD {}).operations

/-- The record that carries a transaction's commit decision: PREPARE_COMMIT for a distributed
transaction, COMMIT for a local one. -/
def decisionType (distributed : Bool) : TxCmdType := if distributed then .rmPrepareCommit else .rmCommit

def capturedOp : LockAcquire → Option TxOperation
  | .read _ _ => none
  | .update _ _ op => some op
  | .insert _ _ op => some op

def handlerOp : ReadHandler → Option TxOperation
  | .read => none
  | .update op => some op
  | .insert op => some op

variable {s s' s'' : TxContext} {o : Obs} {l h : List Obs}

@[simp] theorem appendedOps_append : appendedOps (l ++ h) = appendedOps h ++ appendedOps l := by
  induction l with
  | nil => simp [appendedOps]
  | cons o l ih => simp [appendedOps, ih]

theorem opsOf_eq_nil (ho : ∀ g, o ≠ .walAppend g) : opsOf o = [] := by
  cases o <;> first | rfl | exact absurd rfl (ho _)

@[simp] theorem stampWrites_nil (xid rgId : Nat) : stampWrites xid rgId [] = [] := rfl

@[simp] theorem stampWrites_append (xid rgId : Nat) (l₁ l₂ : List TxOperation) :
    stampWrites xid rgId (l₁ ++ l₂) = stampWrites xid rgId l₁ ++ stampWrites xid rgId l₂ := by
  simp [stampWrites]

theorem ne_decisionType {t : TxCmdType} (d : Bool) (hp : t ≠ .rmPrepareCommit) (hc : t ≠ .rmCommit) :
    t ≠ decisionType d := by
  unfold decisionType; split <;> assumption

@[simp] theorem logOps_forceLog (t : TxCmdType) : logOps (asyncForceLog (setTxCmdType t s)) = [] := rfl

/-- A step of the commit protocol as the WAL sees it: it passes only records that carry no commit
decision and only operations staged before. -/
structure Flush (s s' : TxContext) : Prop where
  config : config s' = config s
  out : ∃ l, s'.out = l ++ s.out ∧
    (∀ g, .walAppend g ∈ l → s'.state ≠ .idle ∧ ∀ r ∈ g, r.logType ≠ some (decisionType s.distributed)) ∧
    (appendedOps l ++ logOps s').Sublist (logOps s)
  stay : s'.state = .idle → s.state = .idle
  prepare : s'.state = .prepareCommitting → s.state = .prepareCommitting
  keep : s'.state = .idle → s.walPending = [] → logOps s' = logOps s ∧ s'.walPending = []

theorem Flush.rfl : Flush s s :=
  ⟨Eq.refl _, ⟨[], Eq.refl _, by simp, by simp only [appendedOps, List.nil_append]; exact List.Sublist.refl _⟩,
    id, id, fun _ hw => ⟨Eq.refl _, hw⟩⟩

theorem Flush.trans (h₁ : Flush s s') (h₂ : Flush s' s'') : Flush s s'' := by
  obtain ⟨l₁, e₁, g₁, sub₁⟩ := h₁.out
  obtain ⟨l₂, e₂, g₂, sub₂⟩ := h₂.out
  have hd : s'.distributed = s.distributed := congrArg (·.2.2.1) h₁.config
  refine ⟨h₂.config.trans h₁.config, ⟨l₂ ++ l₁, by rw [e₂, e₁, List.append_assoc], fun g hg => ?_, ?_⟩,
    h₁.stay ∘ h₂.stay, h₁.prepare ∘ h₂.prepare, fun hst hw => ?_⟩
  · rcases List.mem_append.1 hg with hg | hg
    · exact hd ▸ g₂ g hg
    · exact ⟨mt h₂.stay (g₁ g hg).1, (g₁ g hg).2⟩
  · rw [appendedOps_append, List.append_assoc]
    exact (sub₂.append_left _).trans sub₁
  · obtain ⟨k₁, w₁⟩ := h₁.keep (h₂.stay hst) hw
    obtain ⟨k₂, w₂⟩ := h₂.keep hst w₁
    exact ⟨k₂.trans k₁, w₂⟩

theorem Flush.emit (ho : ∀ g, o ≠ .walAppend g) : Flush s (emit o s) := by
  refine ⟨Eq.refl _, ⟨[o], Eq.refl _, fun g hg => absurd (List.mem_singleton.1 hg).symm (ho g), ?_⟩, id, id,
    fun _ hw => ⟨Eq.refl _, hw⟩⟩
  simp only [appendedOps, opsOf_eq_nil ho, List.append_nil, List.nil_append]
  exact List.Sublist.refl _

def walView (s : TxContext) := (Frame.config s, s.out, s.logEntry, s.state, s.walPending)

theorem Flush.update (h : walView s' = walView s) : Flush s s' := by
  simp only [walView, Prod.mk.injEq] at h
  obtain ⟨hc, ho, hl, hst, hw⟩ := h
  refine ⟨hc, ⟨[], by rw [ho]; rfl, by simp, ?_⟩, fun h => hst ▸ h, fun h => hst ▸ h,
    fun _ h => ⟨by simp only [logOps, hl], hw.trans h⟩⟩
  simp only [appendedOps, List.nil_append, logOps, hl]
  exact List.Sublist.refl _

theorem Flush.of_update (h : Flush s' s'') (hv : walView s' = walView s) : Flush s s'' :=
  (Flush.update hv).trans h

theorem flush_forceLog {st : RmState} {t : TxCmdType} (ht : t ≠ decisionType s.distributed) (hst : st ≠ .idle)
    (hp : st = .prepareCommitting → s.state = .prepareCommitting) :
    Flush s (asyncForceLog (setTxCmdType t { s with state := st })) := by
  refine ⟨Eq.refl _, ⟨[.walAppend [⟨s.xid, some t, logOps s⟩]], Eq.refl _, fun g hg => ?_, ?_⟩,
    fun h => absurd h hst, hp, fun h => absurd h hst⟩
  · obtain rfl := Obs.walAppend.inj (List.mem_singleton.1 hg)
    exact ⟨hst, fun r hr => by rw [List.mem_singleton.1 hr]; exact fun h => ht (Option.some.inj h)⟩
  · simp only [appendedOps, opsOf, List.flatMap_cons, List.flatMap_nil, List.append_nil, List.nil_append,
      logOps_forceLog]
    exact List.Sublist.refl _

theorem flush_sendTxResponse : Flush s (sendTxResponse s) := by
  unfold sendTxResponse
  split
  · exact .rfl
  · refine Flush.trans ?_ (.emit nofun)
    exact .update rfl

theorem flush_txEnded : Flush s (txEnded s) :=
  ⟨Eq.refl _, ⟨[.txState .ended], Eq.refl _, fun g hg => absurd (List.mem_singleton.1 hg).symm nofun,
    by simp only [appendedOps, opsOf, List.append_nil, List.nil_append]; exact List.Sublist.refl _⟩, nofun, nofun,
    nofun⟩

theorem flush_releaseLock : Flush s (releaseLock s) := by
  have hu : Flush s (if s.readOnly then s else { s with out := (unlockCalls s.locks).reverse ++ s.out }) := by
    split
    · exact .rfl
    · refine ⟨Eq.refl _, ⟨_, Eq.refl _, fun g hg => ?_, ?_⟩, id, id, fun _ hw => ⟨Eq.refl _, hw⟩⟩
      · simp [unlockCalls] at hg
      · have : appendedOps (unlockCalls s.locks).reverse = [] := by
          induction s.locks with
          | nil => rfl
          | cons p ps ih => simpa [unlockCalls, appendedOps, opsOf] using ih
        rw [this, List.nil_append]; exact List.Sublist.refl _
  unfold releaseLock
  refine ((hu.trans (.emit ?_)).trans flush_txEnded).trans
    (.update rfl)
  exact nofun

theorem flush_txCommitted : Flush s (txCommitted s) := by
  unfold txCommitted sendAckMessage
  split
  · exact (Flush.emit (o := .ack true) nofun).trans flush_releaseLock
  · exact flush_sendTxResponse.trans flush_releaseLock

theorem flush_txAborted : Flush s (txAborted s) := by
  unfold txAborted sendAckMessage
  split
  · exact (Flush.emit (o := .ack false) nofun).trans flush_releaseLock
  · refine (Flush.trans ?_ flush_sendTxResponse).trans flush_releaseLock
    split
    · exact .update rfl
    · exact .rfl

theorem flush_onLogEntryCommit (t : Option TxCmdType) (hst : s.state ≠ .idle) : Flush s (onLogEntryCommit t s) := by
  have hc : Flush s { s with logEntry := none } :=
    ⟨Eq.refl _, ⟨[], Eq.refl _, by simp, List.nil_sublist _⟩, id, id, fun h => absurd h hst⟩
  unfold onLogEntryCommit onCommittedLogCommit onAbortedLogCommit onPrepareAbortedLogCommit
    onPrepareCommittedLogCommit txPrepareAborted txPrepareCommitted sendPrepareMessage
  split
  · exact hc.trans (flush_txCommitted.of_update rfl)
  · exact hc.trans flush_txAborted
  · exact hc.trans (.emit nofun)
  · exact hc.trans ((Flush.emit (o := .prepare true) nofun).of_update rfl)
  · exact hc

theorem flush_abortTx1p : Flush s (abortTx1p s) := by
  unfold abortTx1p
  split
  · exact flush_forceLog (ne_decisionType _ nofun nofun) nofun nofun
  · exact flush_sendTxResponse
  · exact .emit nofun

theorem flush_abortTx2p : Flush s (abortTx2p s) := by
  unfold abortTx2p sendAckMessage
  split
  · exact flush_forceLog (ne_decisionType _ nofun nofun) nofun nofun
  · exact flush_forceLog (ne_decisionType _ nofun nofun) nofun nofun
  · exact flush_forceLog (ne_decisionType _ nofun nofun) nofun nofun
  · exact .emit nofun
  · exact .emit nofun
  · exact .emit nofun

theorem flush_handleFinishTxPhase1PrepareAbort : Flush s (handleFinishTxPhase1PrepareAbort s) :=
  flush_forceLog (ne_decisionType _ nofun nofun) nofun nofun

theorem flush_handleFinishTxPhase2Commit (hp : s.distributed = false → s.state ≠ .prepareCommitting) :
    Flush s (handleFinishTxPhase2Commit s) := by
  unfold handleFinishTxPhase2Commit sendAckMessage
  split
  · rename_i hst
    have hd : s.distributed = true := by
      cases h : s.distributed
      · exact absurd hst (hp h)
      · rfl
    exact flush_forceLog (by simp [decisionType, hd]) nofun fun _ => hst
  · exact .emit nofun
  · exact .emit nofun

theorem flush_abort (ec : EC) : Flush s (abort ec s) := by
  unfold abort
  dsimp only
  split
  · exact (Flush.emit (o := .txVictim) nofun).of_update rfl
  · split
    · exact ((Flush.emit (o := .abortTaken ec) nofun).trans flush_abortTx1p).of_update rfl
    · exact .update rfl

theorem flush_timeoutCleanUp : Flush s (timeoutCleanUp s) := by
  unfold timeoutCleanUp
  split
  · exact .rfl
  · exact .rfl
  · split
    · exact flush_abortTx2p
    · exact flush_abortTx1p.trans flush_sendTxResponse

theorem flush_handleTxTmCommit (x : Nat) (hp : s.distributed = false → s.state ≠ .prepareCommitting) :
    Flush s (handleTxTmCommit x s) := by
  unfold handleTxTmCommit
  split
  · exact flush_handleFinishTxPhase2Commit hp
  · exact .emit nofun

theorem flush_handleTxTmAbort (x : Nat) : Flush s (handleTxTmAbort x s) := by
  unfold handleTxTmAbort handleFinishTxPhase2Abort
  split
  · exact flush_abortTx2p
  · exact .emit nofun

theorem flush_logEntryCommit (hw : s.state = .idle → s.walPending = []) : Flush s (Step.logEntryCommit s) := by
  unfold Step.logEntryCommit
  split
  · rename_i r rest hp
    have hst : s.state ≠ .idle := fun h => by simp [hw h] at hp
    have h₀ : Flush s { s with walPending := rest } :=
      ⟨Eq.refl _, ⟨[], Eq.refl _, by simp, List.Sublist.refl _⟩, id, id, fun h => absurd h hst⟩
    exact (h₀.trans (.emit (o := .logCommit r.logType) nofun)).trans (flush_onLogEntryCommit _ hst)
  · exact .rfl

end Tddb.Wal
