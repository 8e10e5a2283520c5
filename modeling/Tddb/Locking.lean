import Tddb.Driver

namespace Tddb.Locking

open Tddb.Types Tddb.Context Tddb.Commit Tddb.Operation Tddb.Step

def lockRequests : List Obs → List LockItem
  | [] => []
  | .lockRow l :: h => lockRequests h ++ [l]
  | _ :: h => lockRequests h

def unlocks : List Obs → List Obs
  | [] => []
  | .unlock x m k :: h => unlocks h ++ [.unlock x m k]
  | _ :: h => unlocks h

def unlockOf (l : LockItem) : Obs := .unlock l.xid l.mode l.key

/-- Every response to the client reports in `num_lock` the `lock_row` calls made before it. -/
def ReportsLocks : List Obs → Prop
  | [] => True
  | .clientResponse _ n :: h => n = (lockRequests h).length ∧ ReportsLocks h
  | _ :: h => ReportsLocks h

instance reportsLocksDecidable : ∀ h, Decidable (ReportsLocks h)
  | [] => isTrue trivial
  | .clientResponse _ n :: h =>
    haveI := reportsLocksDecidable h
    inferInstanceAs (Decidable (n = (lockRequests h).length ∧ ReportsLocks h))
  | .lockRow _ :: h | .unlock .. :: h | .readRequest .. :: h | .walAppend _ :: h | .logCommit _ :: h
  | .prepare _ :: h | .ack _ :: h | .txVictim :: h | .txFinish :: h | .txState _ :: h | .assertFail _ :: h
  | .opDone _ :: h | .abortTaken _ :: h => reportsLocksDecidable h

def LockObs : Obs → Prop
  | .lockRow _ | .unlock .. | .clientResponse .. => True
  | _ => False

variable {s s' s'' : TxContext} {o : Obs} {l h : List Obs}

theorem lockRequests_append (l h : List Obs) : lockRequests (l ++ h) = lockRequests h ++ lockRequests l := by
  induction l with
  | nil => simp [lockRequests]
  | cons o l ih => cases o <;> simp [lockRequests, ih]

theorem unlocks_append (l h : List Obs) : unlocks (l ++ h) = unlocks h ++ unlocks l := by
  induction l with
  | nil => simp [unlocks]
  | cons o l ih => cases o <;> simp [unlocks, ih]

theorem lockRequests_eq_nil (hl : ∀ o ∈ l, ¬LockObs o) : lockRequests l = [] := by
  induction l with
  | nil => rfl
  | cons o l ih =>
    have ho := hl o (List.mem_cons_self _ _)
    cases o <;> first | exact absurd trivial ho | exact ih fun o h => hl o (List.mem_cons_of_mem _ h)

theorem unlocks_eq_nil (hl : ∀ o ∈ l, ¬LockObs o) : unlocks l = [] := by
  induction l with
  | nil => rfl
  | cons o l ih =>
    have ho := hl o (List.mem_cons_self _ _)
    cases o <;> first | exact absurd trivial ho | exact ih fun o h => hl o (List.mem_cons_of_mem _ h)

theorem reportsLocks_append (hl : ∀ o ∈ l, ∀ ec n, o ≠ .clientResponse ec n) :
    ReportsLocks (l ++ h) ↔ ReportsLocks h := by
  induction l with
  | nil => rfl
  | cons o l ih =>
    have ho := hl o (List.mem_cons_self _ _)
    have ih := ih fun o h => hl o (List.mem_cons_of_mem _ h)
    cases o <;> first | exact absurd rfl (ho _ _) | exact ih

theorem unlocks_unlockCalls (ls : List (Nat × LockItem)) :
    unlocks (unlockCalls ls).reverse = ls.map (unlockOf ·.2) := by
  induction ls with
  | nil => rfl
  | cons p ls ih =>
    simp only [unlockCalls, List.map_cons, List.reverse_cons, unlocks_append] at ih ⊢
    rw [ih]; rfl

theorem lockRequests_unlockCalls (ls : List (Nat × LockItem)) : lockRequests (unlockCalls ls).reverse = [] := by
  induction ls with
  | nil => rfl
  | cons p ls ih => simpa [unlockCalls, lockRequests_append, lockRequests] using ih

structure LockQuiet (s s' : TxContext) : Prop where
  xid : s'.xid = s.xid
  distributed : s'.distributed = s.distributed
  readOnly : s'.readOnly = s.readOnly
  locks : s'.locks = s.locks
  numLock : s'.numLock = s.numLock
  oid : s'.oid = s.oid
  hasRespond : s'.hasRespond = s.hasRespond
  ended : s'.state = .ended ↔ s.state = .ended
  out : ∃ l, s'.out = l ++ s.out ∧ ∀ o ∈ l, ¬LockObs o

def lockView (s : TxContext) :=
  (s.xid, s.distributed, s.readOnly, s.locks, s.numLock, s.oid, s.hasRespond, s.state == .ended)

theorem LockQuiet.of_view (hv : lockView s' = lockView s)
    (hout : ∃ l, s'.out = l ++ s.out ∧ ∀ o ∈ l, ¬LockObs o) : LockQuiet s s' := by
  simp only [lockView, Prod.mk.injEq, beq_eq_beq] at hv
  obtain ⟨hx, hd, hr, hl, hn, ho, hh, he⟩ := hv
  exact ⟨hx, hd, hr, hl, hn, ho, hh, he, hout⟩

theorem LockQuiet.update (hv : lockView s' = lockView s) (ho : s'.out = s.out) : LockQuiet s s' :=
  .of_view hv ⟨[], by rw [ho]; rfl, nofun⟩

theorem LockQuiet.rfl : LockQuiet s s := .update (Eq.refl _) (Eq.refl _)

theorem LockQuiet.trans (h₁ : LockQuiet s s') (h₂ : LockQuiet s' s'') : LockQuiet s s'' := by
  obtain ⟨l₁, e₁, f₁⟩ := h₁.out
  obtain ⟨l₂, e₂, f₂⟩ := h₂.out
  exact ⟨h₂.xid.trans h₁.xid, h₂.distributed.trans h₁.distributed, h₂.readOnly.trans h₁.readOnly,
    h₂.locks.trans h₁.locks, h₂.numLock.trans h₁.numLock, h₂.oid.trans h₁.oid, h₂.hasRespond.trans h₁.hasRespond,
    h₂.ended.trans h₁.ended, l₂ ++ l₁, by rw [e₂, e₁, List.append_assoc],
    fun o ho => (List.mem_append.1 ho).elim (f₂ o) (f₁ o)⟩

theorem lockQuiet_emit (ho : ¬LockObs o) : LockQuiet s (emit o s) :=
  .of_view (Eq.refl _) ⟨[o], Eq.refl _, fun _ h => List.mem_singleton.1 h ▸ ho⟩

theorem lockQuiet_asyncForceLog : LockQuiet s (asyncForceLog s) :=
  .of_view (Eq.refl _) ⟨[_], Eq.refl _, by simp [LockObs]⟩

theorem lockQuiet_state {st : RmState} (hs : s.state ≠ .ended) (hst : st ≠ .ended) :
    LockQuiet s { s with state := st } :=
  ⟨Eq.refl _, Eq.refl _, Eq.refl _, Eq.refl _, Eq.refl _, Eq.refl _, Eq.refl _, iff_of_false hst hs, [], Eq.refl _,
    nofun⟩

theorem lockQuiet_forceLog {st : RmState} (hs : s.state ≠ .ended) (hst : st ≠ .ended) (t : TxCmdType) :
    LockQuiet s (asyncForceLog (setTxCmdType t { s with state := st })) :=
  ((lockQuiet_state hs hst).trans (.update (by rfl) (by rfl))).trans lockQuiet_asyncForceLog

theorem lockQuiet_checkReadTuple (ec : EC) (t : String) : LockQuiet s (checkReadTuple ec t s) := by
  unfold checkReadTuple; split
  · exact lockQuiet_emit nofun
  · exact .rfl

theorem lockQuiet_readDone (ec : EC) (t : String) : LockQuiet s (readDone ec t s) :=
  (lockQuiet_checkReadTuple ec t).trans (.update rfl rfl)

theorem lockQuiet_writeDone (op : TxOperation) (ec : EC) : LockQuiet s (writeDone op ec s) := by
  unfold writeDone invokeDone appendOperation; split
  · exact (lockQuiet_emit (by exact nofun)).trans (.update rfl rfl)
  · exact .update rfl rfl

theorem lockQuiet_runReadHandler (rh : ReadHandler) (ec : EC) (t : String) : LockQuiet s (runReadHandler rh ec t s) := by
  cases rh with
  | read => exact (lockQuiet_checkReadTuple ec t).trans (lockQuiet_readDone ec t)
  | update op => exact lockQuiet_writeDone op ec
  | insert op => exact lockQuiet_writeDone op _

theorem lockQuiet_readDataFromDsb (key : Key) (oid : Nat) (rh : ReadHandler) :
    LockQuiet s (readDataFromDsb key oid rh s) :=
  (LockQuiet.update (by rfl) (by rfl)).trans (lockQuiet_emit (by exact nofun))

theorem lockQuiet_runLockAcquire (k : LockAcquire) (ec : EC) : LockQuiet s (runLockAcquire k ec s) := by
  cases k <;> simp only [runLockAcquire, updateDone, insertDone] <;> split <;> (try split) <;>
    first
    | exact (lockQuiet_checkReadTuple _ _).trans (lockQuiet_readDone _ _)
    | exact lockQuiet_readDone _ _
    | exact lockQuiet_writeDone _ _
    | exact lockQuiet_readDataFromDsb _ _ _

theorem lockQuiet_notifyLockAcquire (ec : EC) : LockQuiet s (notifyLockAcquire ec s) := by
  unfold notifyLockAcquire; split
  · exact (LockQuiet.update (by rfl) (by rfl)).trans (lockQuiet_runLockAcquire _ ec)
  · exact lockQuiet_emit nofun

theorem lockQuiet_readDataFromDsbResponse (r : DsbReadResponse) : LockQuiet s (readDataFromDsbResponse r s) := by
  have hc : LockQuiet s (checkDsbOid r.oid s) := by
    unfold checkDsbOid; split
    · exact lockQuiet_emit nofun
    · exact .rfl
  have hd : ∀ (s₁ : TxContext) ec t, LockQuiet s₁ (dispatchDsbRead r.oid ec t s₁) := fun s₁ ec t => by
    unfold dispatchDsbRead; split
    · exact (lockQuiet_runReadHandler _ ec t).trans (.update rfl rfl)
    · exact lockQuiet_emit nofun
  have hk : ∀ (s₁ : TxContext) ec row, LockQuiet s₁ (cacheTuple ec row s₁) := fun s₁ ec row => by
    unfold cacheTuple; split
    · exact .update rfl rfl
    · exact .rfl
  exact (hc.trans (hd _ _ _)).trans (hk _ _ _)

theorem sendTxResponse_hasRespond : (sendTxResponse s).hasRespond = true := by
  unfold sendTxResponse; split
  · assumption
  · rfl

/-- What an invariant must survive for every event to keep it. -/
structure Closed (P : TxContext → Prop) : Prop where
  quiet : ∀ {s s'}, P s → LockQuiet s s' → P s'
  respond : ∀ {s}, P s → s.distributed = false → P (sendTxResponse s)
  release : ∀ {s}, P s → (s.distributed = false → s.hasRespond = true) → P (releaseLock s)
  operation : ∀ {s} (op : TxOperation), P s → s.state = .idle → P (handleOperation op s)
  lockAnswer : ∀ {s} (ec : EC), P s → P (notifyLockAcquire ec s)
  dsbAnswer : ∀ {s} (r : DsbReadResponse), P s → P (readDataFromDsbResponse r s)

section Closed

variable {P : TxContext → Prop} (hP : Closed P)
include hP

theorem closed_txCommitted (hs : P s) : P (txCommitted s) := by
  unfold txCommitted sendAckMessage; split
  · rename_i hd; exact hP.release (hP.quiet hs (lockQuiet_emit nofun)) fun h => nomatch hd.symm.trans h
  · rename_i hd
    exact hP.release (hP.respond hs (Bool.eq_false_iff.2 hd)) fun _ => sendTxResponse_hasRespond

theorem closed_txAborted (hs : P s) : P (txAborted s) := by
  unfold txAborted sendAckMessage; split
  · rename_i hd; exact hP.release (hP.quiet hs (lockQuiet_emit nofun)) fun h => nomatch hd.symm.trans h
  · rename_i hd
    have hd := Bool.eq_false_iff.2 hd
    split
    · exact hP.release (hP.respond (hP.quiet hs (.update rfl rfl)) hd) fun _ => sendTxResponse_hasRespond
    · exact hP.release (hP.respond hs hd) fun _ => sendTxResponse_hasRespond

theorem closed_onLogEntryCommit (hs : P s) (t : Option TxCmdType) : P (onLogEntryCommit t s) := by
  have h₀ : P { s with logEntry := none } := hP.quiet hs (.update rfl rfl)
  unfold onLogEntryCommit onCommittedLogCommit onAbortedLogCommit onPrepareAbortedLogCommit
    onPrepareCommittedLogCommit txPrepareAborted txPrepareCommitted sendPrepareMessage
  split
  · exact closed_txCommitted hP (hP.quiet h₀ (.update rfl rfl))
  · exact closed_txAborted hP h₀
  · exact hP.quiet h₀ (lockQuiet_emit nofun)
  · exact hP.quiet h₀ ((LockQuiet.update (by rfl) (by rfl)).trans (lockQuiet_emit (by exact nofun)))
  · exact h₀

theorem closed_forceLog (hs : P s) {st st' : RmState} (h : s.state = st) (hst : st ≠ .ended)
    (hst' : st' ≠ .ended) (t : TxCmdType) : P (asyncForceLog (setTxCmdType t { s with state := st' })) :=
  hP.quiet hs (lockQuiet_forceLog (h ▸ hst) hst' t)

theorem closed_abortTx1p (hs : P s) (hd : s.distributed = false) : P (abortTx1p s) := by
  unfold abortTx1p; split
  · rename_i h; exact closed_forceLog hP hs h (by decide) (by decide) _
  · exact hP.respond hs hd
  · exact hP.quiet hs (lockQuiet_emit nofun)

theorem closed_abortTx2p (hs : P s) : P (abortTx2p s) := by
  unfold abortTx2p sendAckMessage; split
  · rename_i h; exact closed_forceLog hP hs h (by decide) (by decide) _
  · rename_i h; exact closed_forceLog hP hs h (by decide) (by decide) _
  · rename_i h; exact closed_forceLog hP hs h (by decide) (by decide) _
  all_goals exact hP.quiet hs (lockQuiet_emit nofun)

theorem closed_handleFinishTxPhase1Commit (hs : P s) (hd : s.distributed = false) :
    P (handleFinishTxPhase1Commit s) := by
  have hc : ∀ {st : RmState}, s.state = st → st ≠ .ended →
      P (if s.readOnly then onCommittedLogCommit (setTxCmdType .rmCommit { s with state := .committing })
        else asyncForceLog (setTxCmdType .rmCommit { s with state := .committing })) := fun h hst => by
    split
    · have hq : LockQuiet s { s with state := .committing } := lockQuiet_state (h ▸ hst) (by decide)
      exact closed_txCommitted hP (hP.quiet hs ((hq.trans (.update (by rfl) (by rfl))).trans (.update (by rfl) (by rfl))))
    · exact closed_forceLog hP hs h hst (by decide) _
  unfold handleFinishTxPhase1Commit; split
  · rename_i h; exact hc h (by decide)
  · rename_i h; exact hc h (by decide)
  · exact hP.respond hs hd
  · exact hP.quiet hs (lockQuiet_emit nofun)

theorem closed_handleFinishTxPhase2Commit (hs : P s) : P (handleFinishTxPhase2Commit s) := by
  unfold handleFinishTxPhase2Commit sendAckMessage; split
  · rename_i h; exact closed_forceLog hP hs h (by decide) (by decide) _
  · exact hP.quiet hs (lockQuiet_emit nofun)
  · exact hP.quiet hs (lockQuiet_emit nofun)

theorem closed_handleNextOperation (hs : P s) : P (handleNextOperation s) := by
  unfold handleNextOperation
  split
  · exact hs
  rename_i hidle
  have hidle := of_not_not hidle
  split
  · split
    · exact hP.operation _ hs hidle
    · have hc : P (checkOidCount s) := by
        unfold checkOidCount; split
        · exact hs
        · exact hP.quiet hs (lockQuiet_emit nofun)
      unfold finishOperations handleFinishTxPhase1PrepareCommit prepareCommitTx
      split
      · split
        · rename_i h; exact closed_forceLog hP hc h (by decide) (by decide) _
        · exact hP.quiet hc lockQuiet_asyncForceLog
      · rename_i hd; exact closed_handleFinishTxPhase1Commit hP hc (Bool.eq_false_iff.2 hd)
  · unfold handleFinishTxPhase1PrepareAbort prepareAbortTx handleFinishTxPhase1Abort
    split
    · exact closed_forceLog hP hs hidle (by decide) (by decide) _
    · rename_i hd; exact closed_abortTx1p hP hs (Bool.eq_false_iff.2 hd)

theorem closed_step (hs : P s) (e : Event) : P (step s e) := by
  cases e with
  | notifyLockAcquire ec => exact hP.lockAnswer ec hs
  | readDataFromDsbResponse r => exact hP.dsbAnswer r hs
  | logEntryCommit =>
    simp only [step, Step.logEntryCommit]
    split
    · exact closed_onLogEntryCommit hP
        (hP.quiet hs ((LockQuiet.update (by rfl) (by rfl)).trans (lockQuiet_emit (by exact nofun)))) _
    · exact hs
  | runPosted =>
    simp only [step, Step.runPosted, opDone]
    split
    · exact closed_handleNextOperation hP (hP.quiet hs (.of_view rfl ⟨[_], Eq.refl _, by simp [LockObs]⟩))
    · exact hs
  | abort ec =>
    unfold step abort
    dsimp only
    split
    · exact hP.quiet hs ((LockQuiet.update (by rfl) (by rfl)).trans (lockQuiet_emit nofun))
    split
    · rename_i hd _
      exact closed_abortTx1p hP (hP.quiet hs ((LockQuiet.update (by rfl) (by rfl)).trans (lockQuiet_emit nofun)))
        (Bool.eq_false_iff.2 hd)
    · exact hP.quiet hs (.update rfl rfl)
  | timeoutCleanUp =>
    show P (timeoutCleanUp s)
    unfold timeoutCleanUp
    split
    · exact hs
    · exact hs
    · split
      · exact closed_abortTx2p hP hs
      · rename_i hd
        have hd := Bool.eq_false_iff.2 hd
        exact hP.respond (closed_abortTx1p hP hs hd) ((congrArg (·.1.2.2.1) Frame.protocolFrame_abortTx1p).trans hd)
  | handleTxTmCommit x =>
    show P (handleTxTmCommit x s)
    unfold handleTxTmCommit
    split
    · exact closed_handleFinishTxPhase2Commit hP hs
    · exact hP.quiet hs (lockQuiet_emit nofun)
  | handleTxTmAbort x =>
    show P (handleTxTmAbort x s)
    unfold handleTxTmAbort handleFinishTxPhase2Abort
    split
    · exact closed_abortTx2p hP hs
    · exact hP.quiet hs (lockQuiet_emit nofun)

theorem closed_run (hs : P s) (es : List Event) : P (run s es) := by
  induction es generalizing s with
  | nil => exact hs
  | cons e es ih => exact ih (closed_step hP hs e)

theorem closed_start (xid rgId : Nat) (distributed : Bool) (access : Key → Option String) (req : TxRequest)
    (h₀ : ∀ ops, P { init xid rgId distributed access with
      readOnly := req.readOnly, maxOps := req.operations.length, ops := ops }) :
    P (start xid rgId distributed access req) := by
  unfold start processTxRequest
  split
  · exact closed_handleNextOperation hP (h₀ _)
  · exact h₀ _

end Closed

/-- The lock discipline of a read-write context: the lock table holds exactly the items passed to
`lock_row`, with `xid_` and increasing oids, until `release_lock` unlocks them in that order. -/
structure LockTrace (s : TxContext) : Prop where
  readWrite : s.readOnly = false
  keys : ∀ p ∈ s.locks, p.1 = p.2.oid
  xid : ∀ l ∈ lockRequests s.out, l.xid = s.xid
  sorted : (lockRequests s.out).Pairwise (·.oid < ·.oid)
  fresh : ∀ l ∈ lockRequests s.out, l.oid < s.oid
  count : s.numLock = (lockRequests s.out).length
  reports : ReportsLocks s.out
  held : s.state ≠ .ended → s.locks.map Prod.snd = lockRequests s.out ∧ unlocks s.out = []
  released : s.state = .ended → s.locks = [] ∧ unlocks s.out = (lockRequests s.out).map unlockOf

theorem LockTrace.quiet (ht : LockTrace s) (hq : LockQuiet s s') : LockTrace s' := by
  obtain ⟨l, hl, hlo⟩ := hq.out
  have hr : lockRequests s'.out = lockRequests s.out := by
    rw [hl, lockRequests_append, lockRequests_eq_nil hlo, List.append_nil]
  have hu : unlocks s'.out = unlocks s.out := by rw [hl, unlocks_append, unlocks_eq_nil hlo, List.append_nil]
  refine ⟨hq.readOnly.trans ht.readWrite, hq.locks ▸ ht.keys, ?_, hr ▸ ht.sorted, ?_, ?_, ?_, fun h => ?_, fun h => ?_⟩
  · rw [hr, hq.xid]; exact ht.xid
  · rw [hr, hq.oid]; exact ht.fresh
  · rw [hr, hq.numLock]; exact ht.count
  · rw [hl, reportsLocks_append fun o ho ec n he => hlo o ho (he ▸ trivial)]; exact ht.reports
  · rw [hr, hu, hq.locks]; exact ht.held (mt hq.ended.2 h)
  · rw [hr, hu, hq.locks]; exact ht.released (hq.ended.1 h)

theorem lockTrace_sendTxResponse (ht : LockTrace s) : LockTrace (sendTxResponse s) := by
  unfold sendTxResponse; split
  · exact ht
  · exact ⟨ht.readWrite, ht.keys, ht.xid, ht.sorted, ht.fresh, ht.count, ⟨ht.count, ht.reports⟩, ht.held, ht.released⟩

theorem lockTrace_releaseLock (ht : LockTrace s) : LockTrace (releaseLock s) := by
  have hf : (releaseLock s).xid = s.xid ∧ (releaseLock s).oid = s.oid ∧ (releaseLock s).numLock = s.numLock ∧
      (releaseLock s).out = [.txState .ended, .txFinish] ++ ((unlockCalls s.locks).reverse ++ s.out) := by
    simp only [releaseLock, ht.readWrite]; exact ⟨rfl, rfl, rfl, rfl⟩
  obtain ⟨hx, hoid, hnum, hout⟩ := hf
  have hreq : lockRequests (releaseLock s).out = lockRequests s.out := by
    rw [hout, lockRequests_append, lockRequests_append, lockRequests_unlockCalls]; simp [lockRequests]
  have hunl : unlocks (releaseLock s).out = unlocks s.out ++ s.locks.map (unlockOf ·.2) := by
    rw [hout, unlocks_append, unlocks_append, unlocks_unlockCalls]; simp [unlocks]
  have hresp : ∀ o ∈ (unlockCalls s.locks).reverse, ∀ ec n, o ≠ .clientResponse ec n := fun o ho ec n he => by
    simp only [unlockCalls, List.mem_reverse, List.mem_map] at ho
    obtain ⟨p, -, rfl⟩ := ho
    exact nomatch he
  refine ⟨?_, nofun, ?_, hreq ▸ ht.sorted, ?_, ?_, ?_, fun h => absurd rfl h, fun _ => ⟨rfl, ?_⟩⟩
  · simp only [releaseLock, ht.readWrite]; rfl
  · rw [hreq, hx]; exact ht.xid
  · rw [hreq, hoid]; exact ht.fresh
  · rw [hreq, hnum]; exact ht.count
  · rw [hout, reportsLocks_append (by simp), reportsLocks_append hresp]; exact ht.reports
  · rw [hunl, hreq]
    by_cases he : s.state = .ended
    · simp only [(ht.released he).1, (ht.released he).2, List.map_nil, List.append_nil]
    · rw [(ht.held he).2, ← (ht.held he).1, List.map_map]; rfl

theorem installLock_lockFields (mode : LockMode) (key : Key) (k : LockAcquire) (hfresh : s.locks.lookup s.oid = none) :
    (installLock mode key k s).locks = s.locks ++ [(s.oid, ⟨s.xid, s.oid, mode, key⟩)] ∧
      (installLock mode key k s).numLock = s.numLock + 1 ∧ (installLock mode key k s).oid = s.oid + 1 ∧
      (installLock mode key k s).state = s.state ∧ (installLock mode key k s).xid = s.xid ∧
      (installLock mode key k s).readOnly = s.readOnly ∧
      ∃ l, (installLock mode key k s).out = l ++ s.out ∧ ∀ o ∈ l, ¬LockObs o := by
  unfold installLock addLockItem checkLockFree
  split
  · simp only [emit, hfresh, Option.isSome_none, Bool.false_eq_true, if_false, true_and]
    exact ⟨[_], rfl, by simp [LockObs]⟩
  · simp only [hfresh, Option.isSome_none, Bool.false_eq_true, if_false, true_and]
    exact ⟨[], rfl, nofun⟩

theorem lockTrace_requestRowLock (ht : LockTrace s) (hs : s.state ≠ .ended) (mode : LockMode) (key : Key)
    (k : LockAcquire) : LockTrace (requestRowLock mode key k s) := by
  obtain ⟨hheld, hunl⟩ := ht.held hs
  have hfresh : s.locks.lookup s.oid = none := by
    refine List.lookup_eq_none_iff.2 fun p hp => ?_
    rw [ht.keys p hp]
    exact bne_iff_ne.2 (Nat.ne_of_gt (ht.fresh p.2 (hheld ▸ List.mem_map_of_mem _ hp)))
  obtain ⟨hlocks, hnum, hoid, hst, hx, hro, l, hl, hlo⟩ := installLock_lockFields mode key k hfresh
  have hreq : lockRequests (requestRowLock mode key k s).out = lockRequests s.out ++ [⟨s.xid, s.oid, mode, key⟩] := by
    show lockRequests (installLock mode key k s).out ++ _ = _
    rw [hl, lockRequests_append, lockRequests_eq_nil hlo, List.append_nil]
  have hunl' : unlocks (requestRowLock mode key k s).out = [] := by
    show unlocks (installLock mode key k s).out = []
    rw [hl, unlocks_append, unlocks_eq_nil hlo, hunl]; rfl
  refine ⟨hro.trans ht.readWrite, fun p hp => ?_, fun l' hl' => ?_, ?_, fun l' hl' => ?_, ?_, ?_, fun _ => ⟨?_, hunl'⟩,
    fun h => absurd (hst ▸ h) hs⟩
  · rcases List.mem_append.1 (hlocks ▸ hp) with hp | hp
    · exact ht.keys p hp
    · rw [List.mem_singleton.1 hp]
  · rw [hreq] at hl'
    rcases List.mem_append.1 hl' with hl' | hl'
    · exact (ht.xid l' hl').trans hx.symm
    · rw [List.mem_singleton.1 hl']; exact hx.symm
  · rw [hreq, List.pairwise_append]
    exact ⟨ht.sorted, List.pairwise_singleton _ _, fun a ha b hb => List.mem_singleton.1 hb ▸ ht.fresh a ha⟩
  · rw [hreq] at hl'
    show l'.oid < (installLock mode key k s).oid
    rw [hoid]
    rcases List.mem_append.1 hl' with hl' | hl'
    · exact Nat.lt_succ_of_lt (ht.fresh l' hl')
    · rw [List.mem_singleton.1 hl']; exact Nat.lt_succ_self _
  · show (installLock mode key k s).numLock = _
    rw [hreq, hnum, ht.count, List.length_append, List.length_singleton]
  · show ReportsLocks (installLock mode key k s).out
    rw [hl, reportsLocks_append fun o ho ec n he => hlo o ho (he ▸ trivial)]; exact ht.reports
  · show (installLock mode key k s).locks.map Prod.snd = _
    rw [hreq, hlocks, List.map_append, hheld]; rfl

theorem lockTrace_handleOperation (ht : LockTrace s) (hs : s.state ≠ .ended) (op : TxOperation) :
    LockTrace (handleOperation op s) := by
  unfold handleOperation asyncRead asyncUpdate asyncInsert
  split
  · simp only [ht.readWrite]; exact lockTrace_requestRowLock ht hs _ _ _
  · simp only [ht.readWrite]; exact lockTrace_requestRowLock ht hs _ _ _
  · exact lockTrace_requestRowLock ht hs _ _ _
  · exact lockTrace_requestRowLock ht hs _ _ _
  · exact ht.quiet (lockQuiet_emit nofun)

theorem lockTrace_closed : Closed LockTrace where
  quiet := LockTrace.quiet
  respond hs _ := lockTrace_sendTxResponse hs
  release hs _ := lockTrace_releaseLock hs
  operation op hs h := lockTrace_handleOperation hs (h ▸ nofun) op
  lockAnswer ec hs := hs.quiet (lockQuiet_notifyLockAcquire ec)
  dsbAnswer r hs := hs.quiet (lockQuiet_readDataFromDsbResponse r)

theorem lockTrace_start (xid rgId : Nat) (distributed : Bool) (access : Key → Option String) (req : TxRequest)
    (hr : req.readOnly = false) : LockTrace (start xid rgId distributed access req) :=
  closed_start lockTrace_closed xid rgId distributed access req
    fun _ => ⟨hr, nofun, nofun, .nil, nofun, rfl, trivial, fun _ => ⟨rfl, rfl⟩, fun h => nomatch h⟩

/-- A read-write transaction unlocks nothing before it ends, and then every row it locked exactly
once, in lock order; every response reports the `lock_row` calls made before it. -/
theorem locks_released_once_when_ended (xid rgId : Nat) (distributed : Bool) (access : Key → Option String)
    (req : TxRequest) (hr : req.readOnly = false) (es : List Event) :
    (∀ l ∈ lockRequests (run (start xid rgId distributed access req) es).out, l.xid = xid) ∧
      (lockRequests (run (start xid rgId distributed access req) es).out).Pairwise (·.oid < ·.oid) ∧
      ReportsLocks (run (start xid rgId distributed access req) es).out ∧
      ((run (start xid rgId distributed access req) es).state ≠ .ended →
        unlocks (run (start xid rgId distributed access req) es).out = []) ∧
      ((run (start xid rgId distributed access req) es).state = .ended →
        unlocks (run (start xid rgId distributed access req) es).out =
          (lockRequests (run (start xid rgId distributed access req) es).out).map unlockOf) := by
  have ht := closed_run lockTrace_closed (lockTrace_start xid rgId distributed access req hr) es
  have hx : (run (start xid rgId distributed access req) es).xid = xid :=
    congrArg (·.1) ((Frame.config_run es).trans (Frame.config_start xid rgId distributed access req))
  exact ⟨fun l hl => (ht.xid l hl).trans hx, ht.sorted, ht.reports, fun h => (ht.held h).2, fun h => (ht.released h).2⟩

theorem aborted_update_releases_its_lock :
    (⟨false, false, true, 0, [⟨.update, ⟨1, 0, 7, "w"⟩, 0, 0⟩]⟩ : TxRequest).readOnly = false ∧
      (run (start 1 0 false (fun _ => none) ⟨false, false, true, 0, [⟨.update, ⟨1, 0, 7, "w"⟩, 0, 0⟩]⟩)
        [.abort .txAbort, .logEntryCommit, .notifyLockAcquire .ok]).state = .ended ∧
      unlocks (run (start 1 0 false (fun _ => none) ⟨false, false, true, 0, [⟨.update, ⟨1, 0, 7, "w"⟩, 0, 0⟩]⟩)
        [.abort .txAbort, .logEntryCommit, .notifyLockAcquire .ok]).out =
        [.unlock 1 .writeRow ⟨1, 0, 7⟩] ∧
      ((run (start 1 0 false (fun _ => none) ⟨false, false, true, 0, [⟨.update, ⟨1, 0, 7, "w"⟩, 0, 0⟩]⟩)
        [.abort .txAbort, .logEntryCommit, .notifyLockAcquire .ok]).state = .ended →
        unlocks (run (start 1 0 false (fun _ => none) ⟨false, false, true, 0, [⟨.update, ⟨1, 0, 7, "w"⟩, 0, 0⟩]⟩)
          [.abort .txAbort, .logEntryCommit, .notifyLockAcquire .ok]).out =
          (lockRequests (run (start 1 0 false (fun _ => none)
            ⟨false, false, true, 0, [⟨.update, ⟨1, 0, 7, "w"⟩, 0, 0⟩]⟩)
            [.abort .txAbort, .logEntryCommit, .notifyLockAcquire .ok]).out).map unlockOf) :=
  ⟨rfl, by decide, by decide, (locks_released_once_when_ended 1 0 false (fun _ => none)
    ⟨false, false, true, 0, [⟨.update, ⟨1, 0, 7, "w"⟩, 0, 0⟩]⟩ rfl _).2.2.2.2⟩

def responses : List Obs → List (EC × Nat)
  | [] => []
  | .clientResponse ec n :: h => responses h ++ [(ec, n)]
  | _ :: h => responses h

theorem responses_append (l h : List Obs) : responses (l ++ h) = responses h ++ responses l := by
  induction l with
  | nil => simp [responses]
  | cons o l ih => cases o <;> simp [responses, ih]

theorem responses_eq_nil (hl : ∀ o ∈ l, ∀ ec n, o ≠ .clientResponse ec n) : responses l = [] := by
  induction l with
  | nil => rfl
  | cons o l ih =>
    have ho := hl o (List.mem_cons_self _ _)
    cases o <;> first | exact absurd rfl (ho _ _) | exact ih fun o h => hl o (List.mem_cons_of_mem _ h)

structure Answered (s : TxContext) : Prop where
  once : (responses s.out).length = if s.hasRespond then 1 else 0
  remote : s.distributed = true → s.hasRespond = false
  ended : s.state = .ended → s.distributed = false → s.hasRespond = true

theorem Answered.frame (ha : Answered s) (hl : s'.out = l ++ s.out) (hr : ∀ o ∈ l, ∀ ec n, o ≠ .clientResponse ec n)
    (hh : s'.hasRespond = s.hasRespond) (hd : s'.distributed = s.distributed)
    (he : s'.state = .ended → s.distributed = false → s.hasRespond = true) : Answered s' :=
  ⟨by rw [hl, responses_append, responses_eq_nil hr, List.append_nil, hh]; exact ha.once,
    fun h => hh ▸ ha.remote (hd ▸ h), fun h h' => hh ▸ he h (hd ▸ h')⟩

theorem Answered.of_driverStep (ha : Answered s) (hd : Frame.DriverStep s s') : Answered s' := by
  obtain ⟨l, hl, hdl⟩ := hd.out
  exact ha.frame hl (fun o ho ec n he => by subst he; exact hdl _ ho) hd.hasRespond
    (congrArg (·.2.2.1) hd.config) fun h => ha.ended (hd.state ▸ h)

theorem answered_closed : Closed Answered where
  quiet ha hq := by
    obtain ⟨l, hl, hlo⟩ := hq.out
    exact ha.frame hl (fun o ho ec n he => hlo o ho (he ▸ trivial)) hq.hasRespond hq.distributed
      fun h => ha.ended (hq.ended.1 h)
  respond {s} ha hd := by
    unfold sendTxResponse; split
    · exact ha
    · rename_i hh
      refine ⟨?_, fun h => (nomatch hd.symm.trans h), fun _ _ => rfl⟩
      have h₀ := ha.once
      simp only [hh, Bool.false_eq_true, if_false, List.length_eq_zero] at h₀
      simp [emit, responses, h₀]
  release {s} ha h := by
    obtain ⟨l, hp, he⟩ := OnePhase.releaseLock_eq s
    rw [he]
    exact ha.frame rfl (fun o ho ec n e => by subst e; exact hp _ ho) rfl rfl fun _ => h
  operation op ha _ := ha.of_driverStep (Frame.driverStep_handleOperation op)
  lockAnswer ec ha := ha.of_driverStep (Frame.driverStep_notifyLockAcquire ec)
  dsbAnswer r ha := ha.of_driverStep (Frame.driverStep_readDataFromDsbResponse r)

theorem answered_start (xid rgId : Nat) (distributed : Bool) (access : Key → Option String) (req : TxRequest) :
    Answered (start xid rgId distributed access req) :=
  closed_start answered_closed xid rgId distributed access req fun _ => ⟨rfl, fun _ => rfl, fun h => nomatch h⟩

theorem Answered.responses_length (ha : Answered s) :
    (responses s.out).length ≤ 1 ∧ (s.distributed = true → responses s.out = []) ∧
      (s.state = .ended → s.distributed = false → (responses s.out).length = 1) := by
  refine ⟨by rw [ha.once]; split <;> decide, fun h => ?_, fun h h' => ?_⟩
  · rw [← List.length_eq_zero, ha.once, ha.remote h]; rfl
  · rw [ha.once, ha.ended h h']; rfl

/-- A context answers its client at most once, a distributed one never, and a local one by the
time it ends, for every request and every order of events. -/
theorem client_answered_at_most_once (xid rgId : Nat) (distributed : Bool) (access : Key → Option String)
    (req : TxRequest) (es : List Event) :
    (responses (run (start xid rgId distributed access req) es).out).length ≤ 1 ∧
      (distributed = true → responses (run (start xid rgId distributed access req) es).out = []) ∧
      ((run (start xid rgId distributed access req) es).state = .ended → distributed = false →
        (responses (run (start xid rgId distributed access req) es).out).length = 1) := by
  have ha := (closed_run answered_closed (answered_start xid rgId distributed access req) es).responses_length
  have hd : (run (start xid rgId distributed access req) es).distributed = distributed :=
    congrArg (·.2.2.1) ((Frame.config_run es).trans (Frame.config_start xid rgId distributed access req))
  exact ⟨ha.1, fun h => ha.2.1 (hd.trans h), fun h h' => ha.2.2 h (hd.trans h')⟩

end Tddb.Locking
