import Tddb.Wal

namespace Tddb.Record

open Tddb.Types Tddb.History Tddb.Context Tddb.Commit Tddb.Operation Tddb.Step Tddb.Frame Tddb.OnePhase
  Tddb.Driver Tddb.Wal

variable {s s' : TxContext}

theorem isWrite_iff (op : TxOperation) : isWrite op = true ↔ op.opType = .insert ∨ op.opType = .update := by
  simp [isWrite]

@[simp] theorem logOps_emit (o : Obs) : logOps (emit o s) = logOps s := rfl

theorem logOps_checkReadTuple (ec : EC) (t : String) : logOps (checkReadTuple ec t s) = logOps s := by
  unfold checkReadTuple; split <;> rfl

theorem logOps_readDone (ec : EC) (t : String) : logOps (readDone ec t s) = logOps s :=
  logOps_checkReadTuple (s := s) ec t

theorem logOps_writeDone (op : TxOperation) (ec : EC) :
    logOps (writeDone op ec s) = logOps s ++ [stamp s.xid s.rgId op] := by
  unfold writeDone invokeDone appendOperation; split <;> rfl

theorem flagged_writeDone (op : TxOperation) (ec : EC) (hw : isWrite op) (he : op.tupleRow.tuple = "") :
    Obs.assertFail .writeTupleNotNil ∈ (writeDone op ec s).out := by
  have h : (op.opType = .insert ∨ op.opType = .update) ∧ op.tupleRow.tuple = "" := ⟨(isWrite_iff op).1 hw, he⟩
  unfold writeDone invokeDone appendOperation
  dsimp only
  rw [if_pos h]
  exact List.mem_cons_self _ _

theorem ops_checkReadTuple (ec : EC) (t : String) : (checkReadTuple ec t s).ops = s.ops := by
  unfold checkReadTuple; split <;> rfl

theorem ops_writeDone (op : TxOperation) (ec : EC) : (writeDone op ec s).ops = s.ops := by
  unfold writeDone invokeDone appendOperation; split <;> rfl

theorem ops_runLockAcquire (k : LockAcquire) (ec : EC) : (runLockAcquire k ec s).ops = s.ops := by
  cases k <;> simp only [runLockAcquire, updateDone, insertDone] <;> split <;> (try split) <;>
    first
    | exact (ops_checkReadTuple (s := checkReadTuple _ _ s) _ _).trans (ops_checkReadTuple _ _)
    | exact ops_checkReadTuple _ _
    | exact ops_writeDone _ _
    | rfl

theorem checkReadTuple_pending (ec : EC) (t : String) :
    ((checkReadTuple ec t s).posted ++ [ec], (checkReadTuple ec t s).lockAcquire,
      (checkReadTuple ec t s).dsReadHandler) = (s.posted ++ [ec], s.lockAcquire, s.dsReadHandler) := by
  unfold checkReadTuple; split <;> rfl

theorem readDone_staging (ec : EC) (t : String) :
    pendingView (readDone ec t s) = (s.posted ++ [ec], s.lockAcquire, s.dsReadHandler) ∧
      logOps (readDone ec t s) = logOps s :=
  ⟨pendingView_readDone ec t, logOps_readDone ec t⟩

theorem writeDone_staging (op : TxOperation) (ec : EC) :
    pendingView (writeDone op ec s) = (s.posted ++ [ec], s.lockAcquire, s.dsReadHandler) ∧
      logOps (writeDone op ec s) = logOps s ++ [stamp s.xid s.rgId op] ∧
      (isWrite op → op.tupleRow.tuple = "" → Obs.assertFail .writeTupleNotNil ∈ (writeDone op ec s).out) :=
  ⟨pendingView_writeDone op ec, logOps_writeDone op ec, flagged_writeDone op ec⟩

theorem runLockAcquire_staging (k : LockAcquire) (ec : EC) (s : TxContext) :
    (∃ ec', pendingView (runLockAcquire k ec s) = (s.posted ++ [ec'], s.lockAcquire, s.dsReadHandler) ∧
      logOps (runLockAcquire k ec s) = logOps s ++ (capturedOp k).toList.map (stamp s.xid s.rgId) ∧
      ∀ op ∈ capturedOp k, isWrite op → op.tupleRow.tuple = "" →
        Obs.assertFail .writeTupleNotNil ∈ (runLockAcquire k ec s).out) ∨
    (∃ oid h, handlerOp h = capturedOp k ∧
      pendingView (runLockAcquire k ec s) = (s.posted, s.lockAcquire, Function.update s.dsReadHandler oid (some h)) ∧
      logOps (runLockAcquire k ec s) = logOps s) := by
  cases k with
  | read oid key =>
    simp only [runLockAcquire, capturedOp, Option.toList_none, List.map_nil, List.append_nil]
    split
    · split
      · rename_i t _
        obtain ⟨hp, hl⟩ := readDone_staging (s := checkReadTuple .ok t s) .ok t
        exact .inl ⟨.ok, hp.trans (checkReadTuple_pending _ _), hl.trans (logOps_checkReadTuple _ _), nofun⟩
      · exact .inr ⟨oid, .read, rfl, rfl, rfl⟩
    · obtain ⟨hp, hl⟩ := readDone_staging (s := s) ec ""
      exact .inl ⟨ec, hp, hl, nofun⟩
  | update oid key op =>
    simp only [runLockAcquire, capturedOp, updateDone, Option.toList_some, List.map_cons, List.map_nil]
    split
    · split
      · obtain ⟨hp, hl, hf⟩ := writeDone_staging (s := s) op .ok
        exact .inl ⟨.ok, hp, hl, fun _ h => Option.some.inj h ▸ hf⟩
      · exact .inr ⟨oid, .update op, rfl, rfl, rfl⟩
    · obtain ⟨hp, hl, hf⟩ := writeDone_staging (s := s) op ec
      exact .inl ⟨ec, hp, hl, fun _ h => Option.some.inj h ▸ hf⟩
  | insert oid key op =>
    simp only [runLockAcquire, capturedOp, insertDone, Option.toList_some, List.map_cons, List.map_nil]
    split
    · split
      · obtain ⟨hp, hl, hf⟩ := writeDone_staging (s := s) op .duplicationError
        exact .inl ⟨_, hp, hl, fun _ h => Option.some.inj h ▸ hf⟩
      · exact .inr ⟨oid, .insert op, rfl, rfl, rfl⟩
    · obtain ⟨hp, hl, hf⟩ := writeDone_staging (s := s) op ec
      exact .inl ⟨ec, hp, hl, fun _ h => Option.some.inj h ▸ hf⟩

theorem runReadHandler_staging (h : ReadHandler) (ec : EC) (t : String) (s : TxContext) :
    ∃ ec', pendingView (runReadHandler h ec t s) = (s.posted ++ [ec'], s.lockAcquire, s.dsReadHandler) ∧
      logOps (runReadHandler h ec t s) = logOps s ++ (handlerOp h).toList.map (stamp s.xid s.rgId) ∧
      ∀ op ∈ handlerOp h, isWrite op → op.tupleRow.tuple = "" →
        Obs.assertFail .writeTupleNotNil ∈ (runReadHandler h ec t s).out := by
  cases h with
  | read =>
    obtain ⟨hp, hl⟩ := readDone_staging (s := checkReadTuple ec t s) ec t
    refine ⟨ec, hp.trans (checkReadTuple_pending _ _), ?_, nofun⟩
    simpa [handlerOp] using hl.trans (logOps_checkReadTuple _ _)
  | update op =>
    obtain ⟨hp, hl, hf⟩ := writeDone_staging (s := s) op ec
    exact ⟨ec, hp, hl, fun _ h => Option.some.inj h ▸ hf⟩
  | insert op =>
    obtain ⟨hp, hl, hf⟩ := writeDone_staging (s := s) op (insertCode ec)
    exact ⟨_, hp, hl, fun _ h => Option.some.inj h ▸ hf⟩

theorem ops_runReadHandler (h : ReadHandler) (ec : EC) (t : String) : (runReadHandler h ec t s).ops = s.ops := by
  cases h with
  | read => exact (ops_checkReadTuple (s := checkReadTuple ec t s) ec t).trans (ops_checkReadTuple ec t)
  | update op => exact ops_writeDone op ec
  | insert op => exact ops_writeDone op _

theorem installLock_fields (mode : LockMode) (key : Key) (k : LockAcquire) :
    (installLock mode key k s).ops = s.ops ∧ logOps (installLock mode key k s) = logOps s ∧
      config (installLock mode key k s) = config s := by
  unfold installLock addLockItem checkLockFree; split <;> split <;> exact ⟨rfl, rfl, rfl⟩

def Started (op : TxOperation) (s s' : TxContext) : Prop :=
  s'.ops = s.ops ∧ logOps s' = logOps s ∧ config s' = config s ∧
    ((∃ k, pendingView s' = ([], some k, fun _ => none) ∧ (capturedOp k).toList = [op].filter isWrite) ∨
      (∃ ec, pendingView s' = ([ec], none, fun _ => none) ∧ isWrite op = false) ∨
      (∃ oid h, pendingView s' = ([], none, Function.update (fun _ => none) oid (some h)) ∧
        (handlerOp h).toList = [op].filter isWrite) ∨
      pendingView s' = ([], none, fun _ => none))

theorem started_requestRowLock {op : TxOperation} (hq : Quiescent s) (mode : LockMode) (key : Key)
    (k : LockAcquire) (hk : (capturedOp k).toList = [op].filter isWrite) :
    Started op s (requestRowLock mode key k s) := by
  obtain ⟨ho, hlog, hc⟩ := installLock_fields (s := s) mode key k
  refine ⟨ho, hlog, hc, .inl ⟨k, ?_, hk⟩⟩
  show pendingView (installLock mode key k s) = _
  rw [pendingView_installLock, hq]

theorem started_asyncRead {op : TxOperation} (hq : Quiescent s) (key : Key) (rfw : Bool)
    (hw : isWrite op = false) : Started op s (asyncRead key rfw s) := by
  have hk : (capturedOp (.read s.oid key)).toList = [op].filter isWrite := by simp [capturedOp, hw]
  unfold asyncRead
  dsimp only
  split
  · generalize hs₁ : installLock (if rfw then LockMode.writeRow else .readRow) key (.read s.oid key) s = s₁
    obtain ⟨ho, hlog, hc⟩ := installLock_fields (s := s) (if rfw then LockMode.writeRow else .readRow) key
      (.read s.oid key)
    have hv := pendingView_installLock (s := s) (if rfw then LockMode.writeRow else .readRow) key (.read s.oid key)
    rw [hs₁] at ho hlog hc hv
    rw [hq] at hv
    simp only [pendingView, Prod.mk.injEq] at hv
    have hc' := (driverStep_runLockAcquire (s := s₁) (.read s.oid key) .ok).config
    refine ⟨(ops_runLockAcquire _ _).trans ho, ?_, hc'.trans hc, ?_⟩
    · rcases runLockAcquire_staging (.read s.oid key) .ok s₁ with ⟨_, _, hl, _⟩ | ⟨_, _, _, _, hl⟩
      · simpa [capturedOp, hlog] using hl
      · exact hl.trans hlog
    · rcases runLockAcquire_staging (.read s.oid key) .ok s₁ with ⟨ec', he, -, -⟩ | ⟨oid, h, hh, he, -⟩
      · refine .inr (.inl ⟨ec', ?_, hw⟩)
        simp only [pendingView, Prod.mk.injEq] at he ⊢
        exact ⟨by rw [he.1, hv.1]; rfl, trivial, he.2.2.trans hv.2.2⟩
      · refine .inr (.inr (.inl ⟨oid, h, ?_, by rw [hh]; exact hk⟩))
        simp only [pendingView, Prod.mk.injEq] at he ⊢
        exact ⟨he.1.trans hv.1, trivial, by rw [he.2.2, hv.2.2]⟩
  · exact started_requestRowLock hq _ key _ hk

theorem started_handleOperation (op : TxOperation) (hq : Quiescent s) : Started op s (handleOperation op s) := by
  cases hty : op.opType with
  | read => simp only [handleOperation, hty]; exact started_asyncRead hq _ _ (by simp [isWrite, hty])
  | readForWrite => simp only [handleOperation, hty]; exact started_asyncRead hq _ _ (by simp [isWrite, hty])
  | update =>
    simp only [handleOperation, hty, asyncUpdate]
    exact started_requestRowLock hq _ _ _ (by simp [capturedOp, isWrite, hty])
  | insert =>
    simp only [handleOperation, hty, asyncInsert]
    exact started_requestRowLock hq _ _ _ (by simp [capturedOp, isWrite, hty])
  | remove =>
    simp only [handleOperation, hty]
    exact ⟨rfl, rfl, rfl, .inr (.inr (.inr hq))⟩

/-- What the driver has staged while `RM_IDLE`: nothing has reached the WAL, and `log_entry_` holds
the stamped writes among the completed operations of `L`, in order. -/
structure IdleStaging (L : List TxOperation) (s : TxContext) : Prop where
  noGroup : ∀ g, Obs.walAppend g ∉ s.out
  walPending : s.walPending = []
  split : ∃ pre, pre ++ s.ops = L ∧ logOps s = stampWrites s.xid s.rgId (pre ++ s.ops.take s.posted.length)
  lock : ∀ k, s.lockAcquire = some k → (capturedOp k).toList = (s.ops.take 1).filter isWrite
  handler : ∀ oid h, s.dsReadHandler oid = some h → (handlerOp h).toList = (s.ops.take 1).filter isWrite

def Payload (s : TxContext) : Prop :=
  ∀ op ∈ appendedOps s.out ++ logOps s, isWrite op → op.tupleRow.tuple = "" →
    Obs.assertFail .writeTupleNotNil ∈ s.out

/-- The WAL invariant of a context given `L`: once the commit decision is passed to the WAL it is
one record with the stamped writes of `L`, and no other record carries an operation. -/
structure Faithful (L : List TxOperation) (s : TxContext) : Prop where
  prepares : s.distributed = false → s.state ≠ .prepareCommitting
  idle : s.state = .idle → IdleStaging L s
  decided : ∀ g, Obs.walAppend g ∈ s.out → (∃ r ∈ g, r.logType = some (decisionType s.distributed)) →
    g = [⟨s.xid, some (decisionType s.distributed), stampWrites s.xid s.rgId L⟩] ∧
      appendedOps s.out = stampWrites s.xid s.rgId L ∧ Quiescent s ∧ logOps s = []
  payload : Payload s

variable {L : List TxOperation}

theorem appendedOps_eq_nil (h : ∀ g, Obs.walAppend g ∉ l) : appendedOps l = [] := by
  induction l with
  | nil => rfl
  | cons o l ih =>
    simp only [List.mem_cons, not_or] at h
    rw [appendedOps, ih fun g => (h g).2, opsOf_eq_nil fun g e => (h g).1 e.symm]; rfl

theorem payload_of_flush (h : Flush s s') (hp : Payload s) : Payload s' := by
  obtain ⟨l, e, -, sub⟩ := h.out
  intro op hop hw he
  rw [e, appendedOps_append, List.append_assoc] at hop
  rw [e]
  rcases List.mem_append.1 hop with hop | hop
  · exact List.mem_append_right _ (hp op (List.mem_append_left _ hop) hw he)
  · exact List.mem_append_right _ (hp op (List.mem_append_right _ (sub.subset hop)) hw he)

theorem IdleStaging.of_flush (hs : IdleStaging L s) (h : Flush s s') (hpv : pendingView s' = pendingView s)
    (ho : s'.ops = s.ops) (hlog : logOps s' = logOps s) (hw : s'.walPending = s.walPending)
    (hidle : s'.state = .idle) : IdleStaging L s' := by
  obtain ⟨l, e, hg, -⟩ := h.out
  have hx : s'.xid = s.xid := congrArg (·.1) h.config
  have hr : s'.rgId = s.rgId := congrArg (·.2.1) h.config
  have hp : s'.posted = s.posted := congrArg (·.1) hpv
  refine ⟨fun g hm => (List.mem_append.1 (e ▸ hm)).elim (fun hm => (hg g hm).1 hidle) (hs.noGroup g),
    hw.trans hs.walPending, ?_, fun k hk => ?_, fun oid rh hh => ?_⟩
  · obtain ⟨pre, hpre, hl⟩ := hs.split
    exact ⟨pre, ho ▸ hpre, by rw [hlog, hl, hx, hr, ho, hp]⟩
  · rw [ho]; exact hs.lock k ((congrArg (·.2.1) hpv).symm.trans hk)
  · rw [ho]; exact hs.handler oid rh ((congrFun (congrArg (·.2.2) hpv) oid).symm.trans hh)

theorem Faithful.of_flush (hf : Faithful L s) (h : Flush s s') (hpv : pendingView s' = pendingView s)
    (hidle : s'.state = .idle → IdleStaging L s') : Faithful L s' := by
  obtain ⟨l, e, hg, sub⟩ := h.out
  have hd : s'.distributed = s.distributed := congrArg (·.2.2.1) h.config
  have hx : s'.xid = s.xid := congrArg (·.1) h.config
  have hr : s'.rgId = s.rgId := congrArg (·.2.1) h.config
  refine ⟨fun hd' hst => hf.prepares (hd ▸ hd') (h.prepare hst), hidle, fun g hm hdec => ?_, payload_of_flush h hf.payload⟩
  rw [hd] at hdec
  rw [e] at hm
  rcases List.mem_append.1 hm with hm | hm
  · obtain ⟨r, hr', ht⟩ := hdec
    exact absurd ht ((hg g hm).2 r hr')
  · obtain ⟨hgeq, happ, hq, hlog⟩ := hf.decided g hm hdec
    rw [hlog, List.sublist_nil, List.append_eq_nil] at sub
    refine ⟨by rw [hgeq, hd, hx, hr], ?_, hpv.trans hq, sub.2⟩
    rw [e, appendedOps_append, sub.1, List.append_nil, happ, hx, hr]

theorem IdleStaging.emit (hs : IdleStaging L s) (hst : s.state = .idle) (ho : ∀ g, o ≠ .walAppend g) :
    IdleStaging L (Context.emit o s) :=
  hs.of_flush (.emit ho) rfl rfl rfl rfl hst

theorem Faithful.emit (hf : Faithful L s) (ho : ∀ g, o ≠ .walAppend g) : Faithful L (Context.emit o s) :=
  hf.of_flush (.emit ho) rfl fun hst => (hf.idle hst).emit hst ho

theorem payload_of_staging (hp : Payload s) (e : s'.out = l ++ s.out) (hl : ∀ g, Obs.walAppend g ∉ l)
    {new : List TxOperation} (hlog : logOps s' = logOps s ++ new)
    (hnew : ∀ op ∈ new, isWrite op → op.tupleRow.tuple = "" → Obs.assertFail .writeTupleNotNil ∈ s'.out) :
    Payload s' := by
  intro op hop hw he
  rw [e, appendedOps_append, appendedOps_eq_nil hl, List.append_nil, hlog, ← List.append_assoc] at hop
  rcases List.mem_append.1 hop with hop | hop
  · rw [e]; exact List.mem_append_right _ (hp op hop hw he)
  · exact hnew op hop hw he

theorem flagged_stamp {x r : Nat} {c : Option TxOperation} {P : Prop}
    (hf : ∀ op ∈ c, isWrite op → op.tupleRow.tuple = "" → P) :
    ∀ op ∈ c.toList.map (stamp x r), isWrite op → op.tupleRow.tuple = "" → P := by
  intro op hop
  obtain ⟨y, hy, rfl⟩ := List.mem_map.1 hop
  exact hf y (Option.mem_toList.1 hy)

theorem Faithful.of_driver (hf : Faithful L s) (hd : DriverStep s s') (hnq : ¬ Quiescent s ∨ s.state = .idle)
    (hpay : Payload s') (hidle : s.state = .idle → IdleStaging L s') : Faithful L s' := by
  have hdist : s'.distributed = s.distributed := congrArg (·.2.2.1) hd.config
  obtain ⟨l, e, hl⟩ := hd.out
  refine ⟨fun h => hd.state ▸ hf.prepares (hdist ▸ h), fun h => hidle (hd.state ▸ h), fun g hm hdec => ?_, hpay⟩
  rw [e] at hm
  rcases List.mem_append.1 hm with hm | hm
  · exact (hl _ hm).elim
  · rcases hnq with hnq | hst
    · exact absurd (hf.decided g hm (hdist ▸ hdec)).2.2.1 hnq
    · exact absurd hm ((hf.idle hst).noGroup g)

theorem IdleStaging.of_driver (hs : IdleStaging L s) (hp : s.posted = []) (hc : config s' = config s)
    (ho : s'.ops = s.ops) (hw : s'.walPending = s.walPending) (e : s'.out = l ++ s.out)
    (hl : ∀ g, Obs.walAppend g ∉ l)
    (hlog : logOps s' = logOps s ++ stampWrites s.xid s.rgId (s.ops.take s'.posted.length))
    (hlock : ∀ k, s'.lockAcquire = some k → (capturedOp k).toList = (s.ops.take 1).filter isWrite)
    (hh : ∀ oid h, s'.dsReadHandler oid = some h → (handlerOp h).toList = (s.ops.take 1).filter isWrite) :
    IdleStaging L s' := by
  have hx : s'.xid = s.xid := congrArg (·.1) hc
  have hr : s'.rgId = s.rgId := congrArg (·.2.1) hc
  obtain ⟨pre, hpre, hlg⟩ := hs.split
  refine ⟨fun g hm => (List.mem_append.1 (e ▸ hm)).elim (hl g) (hs.noGroup g), hw.trans hs.walPending,
    ⟨pre, ho ▸ hpre, ?_⟩, fun k hk => ho ▸ hlock k hk, fun oid h hh' => ho ▸ hh oid h hh'⟩
  rw [hlog, hlg, hp, hx, hr, ho]; simp

theorem IdleStaging.complete (hs : IdleStaging L s) (hp : s.posted = []) (hc : config s' = config s)
    (ho : s'.ops = s.ops) (hw : s'.walPending = s.walPending) (e : s'.out = l ++ s.out)
    (hl : ∀ g, Obs.walAppend g ∉ l) (ec : EC) (hpv : pendingView s' = ([ec], none, fun _ => none))
    (hlog : logOps s' = logOps s ++ stampWrites s.xid s.rgId (s.ops.take 1)) : IdleStaging L s' := by
  simp only [pendingView, Prod.mk.injEq] at hpv
  exact hs.of_driver hp hc ho hw e hl (by rw [hpv.1]; exact hlog) (fun _ hk => nomatch hpv.2.1.symm.trans hk)
    fun _ _ hh => nomatch (congrFun hpv.2.2 _).symm.trans hh

theorem IdleStaging.await (hs : IdleStaging L s) (hp : s.posted = []) (hc : config s' = config s)
    (ho : s'.ops = s.ops) (hw : s'.walPending = s.walPending) (e : s'.out = l ++ s.out)
    (hl : ∀ g, Obs.walAppend g ∉ l) (oid : Nat) (rh : ReadHandler)
    (hpv : pendingView s' = ([], none, Function.update (fun _ => none) oid (some rh)))
    (hrh : (handlerOp rh).toList = (s.ops.take 1).filter isWrite) (hlog : logOps s' = logOps s) :
    IdleStaging L s' := by
  simp only [pendingView, Prod.mk.injEq] at hpv
  refine hs.of_driver hp hc ho hw e hl (by rw [hpv.1, hlog]; simp) (fun _ hk => nomatch hpv.2.1.symm.trans hk)
    fun o h hh => ?_
  rw [hpv.2.2] at hh
  by_cases hoid : o = oid
  · subst hoid
    rw [Function.update_same] at hh
    cases hh; exact hrh
  · rw [Function.update_noteq hoid] at hh; cases hh

theorem driverStep_noGroup (hd : DriverStep s s') :
    ∃ l, s'.out = l ++ s.out ∧ ∀ g, Obs.walAppend g ∉ l := by
  obtain ⟨l, e, hl⟩ := hd.out
  exact ⟨l, e, fun g hg => hl _ hg⟩

theorem faithful_notifyLockAcquire (hf : Faithful L s) (hi : InFlight s) (ec : EC) :
    Faithful L (notifyLockAcquire ec s) := by
  cases hk : s.lockAcquire with
  | none => simp only [notifyLockAcquire, hk]; exact hf.emit nofun
  | some k =>
    obtain ⟨hp, hh⟩ := Waiting.of_lock (show Waiting (s.posted, some k, s.dsReadHandler) from hk ▸ hi)
    have hnq : ¬ Quiescent s := fun hq => by simp [Quiescent, pendingView, hk] at hq
    have hd := driverStep_notifyLockAcquire (s := s) ec
    simp only [notifyLockAcquire, hk] at hd ⊢
    obtain ⟨l, e, hl⟩ := driverStep_noGroup hd
    have hh' : s.dsReadHandler = fun _ => none := funext hh
    rcases runLockAcquire_staging k ec { s with lockAcquire := none } with
      ⟨ec', hpv, hlog, hfl⟩ | ⟨oid, rh, hrh, hpv, hlog⟩
    · refine hf.of_driver hd (.inl hnq) (payload_of_staging hf.payload e hl hlog (flagged_stamp hfl)) fun hst => ?_
      have hs := hf.idle hst
      refine hs.complete hp hd.config (ops_runLockAcquire k ec) hd.walPending e hl ec' ?_ ?_
      · rw [hpv]; simp only [hp, hh', List.nil_append]
      · rw [hlog, stampWrites, ← hs.lock k hk]; rfl
    · refine hf.of_driver hd (.inl hnq) (payload_of_staging hf.payload e hl (hlog.trans (List.append_nil _).symm)
        nofun) fun hst => ?_
      have hs := hf.idle hst
      refine hs.await hp hd.config (ops_runLockAcquire k ec) hd.walPending e hl oid rh ?_
        (hrh ▸ hs.lock k hk) hlog
      rw [hpv]; simp only [hp, hh']

theorem faithful_checkDsbOid (hf : Faithful L s) (oid : Nat) : Faithful L (checkDsbOid oid s) := by
  unfold checkDsbOid; split
  · exact hf.emit nofun
  · exact hf

theorem faithful_dispatchDsbRead (hf : Faithful L s) (hi : InFlight s) (oid : Nat) (ec : EC) (t : String) :
    Faithful L (dispatchDsbRead oid ec t s) := by
  cases hrh : s.dsReadHandler oid with
  | none => simp only [dispatchDsbRead, hrh]; exact hf.emit nofun
  | some rh =>
    obtain ⟨hp, hl, hnone⟩ := Waiting.of_handler hi (show (pendingView s).2.2 oid ≠ none by simp [pendingView, hrh])
    have hnq : ¬ Quiescent s := fun hq => Option.noConfusion ((congrFun (congrArg (·.2.2) hq) oid).symm.trans hrh)
    have hd := driverStep_runReadHandler (s := s) rh ec t
    obtain ⟨ec', hpv, hlog, hfl⟩ := runReadHandler_staging rh ec t s
    obtain ⟨l, e, hgl⟩ := driverStep_noGroup hd
    simp only [dispatchDsbRead, hrh]
    refine hf.of_driver ⟨hd.view, hd.out⟩ (.inl hnq) (payload_of_staging hf.payload e hgl hlog (flagged_stamp hfl))
      fun hst => ?_
    have hs := hf.idle hst
    refine hs.complete hp hd.config (ops_runReadHandler rh ec t) hd.walPending e hgl ec' ?_ ?_
    · simp only [pendingView, Prod.mk.injEq] at hpv ⊢
      rw [hpv.1, hpv.2.1, hpv.2.2, hp, hl]
      refine ⟨rfl, rfl, funext fun o => ?_⟩
      by_cases ho : o = oid
      · subst ho; exact Function.update_same _ _ _
      · rw [Function.update_noteq ho]; exact hnone o ho
    · show logOps (runReadHandler rh ec t s) = _
      rw [hlog, stampWrites, ← hs.handler oid rh hrh]

theorem faithful_cacheTuple (hf : Faithful L s) (ec : EC) (row : TupleRow) : Faithful L (cacheTuple ec row s) := by
  unfold cacheTuple
  split
  · exact hf.of_flush (.update rfl) rfl fun hst => (hf.idle hst).of_flush (.update rfl) rfl rfl rfl rfl hst
  · exact hf

theorem faithful_readDataFromDsbResponse (hf : Faithful L s) (hi : InFlight s) (r : DsbReadResponse) :
    Faithful L (readDataFromDsbResponse r s) := by
  have hi' : InFlight (checkDsbOid r.oid s) := by
    unfold InFlight; rw [pendingView_checkDsbOid]; exact hi
  exact faithful_cacheTuple (faithful_dispatchDsbRead (faithful_checkDsbOid hf r.oid) hi' _ _ _) _ _

theorem Faithful.of_protocol (hf : Faithful L s) (h : Flush s s') (hfr : protocolFrame s' = protocolFrame s) :
    Faithful L s' := by
  have hpv := pendingView_of_protocolFrame hfr
  refine hf.of_flush h hpv fun hst => ?_
  have hs := hf.idle (h.stay hst)
  obtain ⟨hlog, hw⟩ := h.keep hst hs.walPending
  exact hs.of_flush h hpv (congrArg (·.2.1) hfr) hlog (hw.trans hs.walPending.symm) hst

theorem faithful_handleOperation (hf : Faithful L s) (hq : Quiescent s) (hst : s.state = .idle)
    {op : TxOperation} {rest : List TxOperation} (hops : s.ops = op :: rest) :
    Faithful L (handleOperation op s) := by
  have hd := driverStep_handleOperation (s := s) op
  obtain ⟨ho, hlog, hc, hcase⟩ := started_handleOperation op hq
  obtain ⟨l, e, hl⟩ := driverStep_noGroup hd
  refine hf.of_driver hd (.inr hst) (payload_of_staging hf.payload e hl (hlog.trans (List.append_nil _).symm)
    nofun) fun _ => ?_
  have hs := hf.idle hst
  have hp : s.posted = [] := congrArg (·.1) hq
  have htake : s.ops.take 1 = [op] := by rw [hops]; rfl
  rcases hcase with ⟨k, hpv, hk⟩ | ⟨ec, hpv, hw⟩ | ⟨oid, rh, hpv, hrh⟩ | hpv
  · simp only [pendingView, Prod.mk.injEq] at hpv
    refine hs.of_driver hp hc ho hd.walPending e hl (by rw [hpv.1, hlog]; simp) (fun k' hk' => ?_)
      fun _ _ hh => nomatch (congrFun hpv.2.2 _).symm.trans hh
    rw [hpv.2.1] at hk'; cases hk'; rw [htake]; exact hk
  · refine hs.complete hp hc ho hd.walPending e hl ec hpv ?_
    rw [hlog, htake]; simp [stampWrites, hw]
  · exact hs.await hp hc ho hd.walPending e hl oid rh hpv (htake ▸ hrh) hlog
  · simp only [pendingView, Prod.mk.injEq] at hpv
    exact hs.of_driver hp hc ho hd.walPending e hl (by rw [hpv.1, hlog]; simp)
      (fun _ hk => nomatch hpv.2.1.symm.trans hk) fun _ _ hh => nomatch (congrFun hpv.2.2 _).symm.trans hh

theorem isWrite_of_mem_stampWrites {x r : Nat} {ops : List TxOperation} {op : TxOperation}
    (h : op ∈ stampWrites x r ops) : isWrite op := by
  obtain ⟨y, hy, rfl⟩ := List.mem_map.1 h
  exact (List.mem_filter.1 hy).2

theorem faithful_decide (hs : IdleStaging L s) (hq : Quiescent s) (hops : s.ops = []) (hpay : Payload s)
    {st : RmState} {t : TxCmdType} (ht : decisionType s.distributed = t) (hst : st ≠ .idle)
    (hpre : s.distributed = false → st ≠ .prepareCommitting) :
    Faithful L (asyncForceLog (setTxCmdType t { s with state := st })) := by
  subst ht
  obtain ⟨pre, hpre', hlg⟩ := hs.split
  rw [hops, List.append_nil] at hpre'
  have hlogL : logOps s = stampWrites s.xid s.rgId L := by rw [hlg, hops, ← hpre']; simp
  have happ : appendedOps s.out = [] := appendedOps_eq_nil hs.noGroup
  have hout : (asyncForceLog (setTxCmdType (decisionType s.distributed) { s with state := st })).out =
      .walAppend [⟨s.xid, some (decisionType s.distributed), stampWrites s.xid s.rgId L⟩] :: s.out := by
    rw [← hlogL]; rfl
  refine ⟨hpre, fun h => absurd h hst, fun g hg _ => ?_, fun op hop hw he => ?_⟩
  · rw [hout] at hg
    rcases List.mem_cons.1 hg with hg | hg
    · obtain rfl := Obs.walAppend.inj hg
      refine ⟨rfl, ?_, hq, rfl⟩
      rw [hout]; simp only [appendedOps, opsOf, happ, List.flatMap_cons, List.flatMap_nil, List.append_nil,
        List.nil_append]; rfl
    · exact absurd hg (hs.noGroup g)
  · rw [hout] at hop ⊢
    simp only [appendedOps, opsOf, happ, logOps_forceLog, List.flatMap_cons, List.flatMap_nil, List.append_nil,
      List.nil_append] at hop
    exact List.mem_cons_of_mem _ (hpay op (List.mem_append_right _ (hlogL ▸ hop)) hw he)

theorem flush_setTxCmdType (st : RmState) (t : TxCmdType) (hst : st ≠ .idle)
    (hp : st = .prepareCommitting → s.state = .prepareCommitting) :
    Flush s (setTxCmdType t { s with state := st }) :=
  ⟨Eq.refl _, ⟨[], Eq.refl _, by simp, List.Sublist.refl _⟩, fun h => absurd h hst, hp, fun h => absurd h hst⟩

theorem faithful_finishOperations (hf : Faithful L s) (hq : Quiescent s) (hst : s.state = .idle)
    (hops : s.ops = []) : Faithful L (finishOperations s) := by
  have hs := hf.idle hst
  unfold finishOperations
  split
  · rename_i hd
    simp only [handleFinishTxPhase1PrepareCommit, prepareCommitTx, hst, if_true]
    exact faithful_decide hs hq hops hf.payload (by simp [decisionType, hd]) nofun
      fun h => absurd (h.symm.trans hd) nofun
  · rename_i hd
    simp only [handleFinishTxPhase1Commit, hst]
    split
    · refine hf.of_protocol ((flush_setTxCmdType .committing .rmCommit nofun nofun).trans
        (flush_txCommitted.of_update rfl)) ?_
      simp only [onCommittedLogCommit, protocolFrame_txCommitted]; rfl
    · exact faithful_decide hs hq hops hf.payload (by simp [decisionType, hd]) nofun fun _ => nofun

theorem faithful_checkOidCount (hf : Faithful L s) : Faithful L (checkOidCount s) := by
  unfold checkOidCount; split
  · exact hf
  · exact hf.emit nofun

theorem faithful_handleNextOperation (hf : Faithful L s) (hq : Quiescent s) :
    Faithful L (handleNextOperation s) := by
  unfold handleNextOperation
  split
  · exact hf
  rename_i hst
  have hst : s.state = .idle := of_not_not hst
  split
  · split
    · rename_i op rest hops
      exact faithful_handleOperation hf hq hst hops
    · rename_i hops
      have hc := faithful_checkOidCount hf
      have hfr : protocolFrame (checkOidCount s) = protocolFrame s := protocolFrame_checkOidCount
      refine faithful_finishOperations hc ((pendingView_of_protocolFrame hfr).trans hq) ?_ ?_
      · unfold checkOidCount; split <;> exact hst
      · exact (congrArg (·.2.1) hfr).trans hops
  · split
    · exact hf.of_protocol flush_handleFinishTxPhase1PrepareAbort protocolFrame_handleFinishTxPhase1PrepareAbort
    · exact hf.of_protocol flush_abortTx1p protocolFrame_abortTx1p

theorem faithful_runPosted (hf : Faithful L s) (hi : InFlight s) : Faithful L (Step.runPosted s) := by
  unfold Step.runPosted
  split
  · rename_i ec rest hp
    obtain ⟨rfl, hl, hh⟩ := Waiting.of_posted (show Waiting (ec :: rest, s.lockAcquire, s.dsReadHandler)
      from hp ▸ hi)
    have hnq : ¬ Quiescent s := fun hq => by simp [Quiescent, pendingView, hp] at hq
    unfold opDone
    refine faithful_handleNextOperation ⟨hf.prepares, fun hst => ?_, fun g hg hdec => ?_, ?_⟩ ?_
    · have hs := hf.idle hst
      obtain ⟨pre, hpre, hlg⟩ := hs.split
      refine ⟨fun g hg => (List.mem_cons.1 hg).elim nofun (hs.noGroup g), hs.walPending,
        ⟨pre ++ s.ops.take 1, ?_, ?_⟩, fun _ hk => (nomatch hl.symm.trans hk), fun o _ hh' => nomatch (hh o).symm.trans hh'⟩
      · show pre ++ s.ops.take 1 ++ s.ops.tail = L
        rw [List.append_assoc, ← List.drop_one, List.take_append_drop, hpre]
      · show logOps s = stampWrites s.xid s.rgId (pre ++ s.ops.take 1 ++ s.ops.tail.take 0)
        rw [hlg, hp]; simp
    · exact (List.mem_cons.1 hg).elim nofun fun hg => absurd (hf.decided g hg hdec).2.2.1 hnq
    · exact payload_of_staging (l := [.opDone ec]) hf.payload rfl (by simp) (List.append_nil _).symm nofun
    · show (([] : List EC), s.lockAcquire, s.dsReadHandler) = ([], none, fun _ => none)
      rw [hl, funext hh]
  · exact hf

theorem protocolFrame_logEntryCommit : protocolFrame (Step.logEntryCommit s) = protocolFrame s := by
  unfold Step.logEntryCommit
  split
  · exact protocolFrame_onLogEntryCommit _
  · rfl

theorem faithful_step (hf : Faithful L s) (hi : InFlight s) (e : Event) : Faithful L (step s e) := by
  cases e with
  | notifyLockAcquire ec => exact faithful_notifyLockAcquire hf hi ec
  | readDataFromDsbResponse r => exact faithful_readDataFromDsbResponse hf hi r
  | logEntryCommit =>
    exact hf.of_protocol (flush_logEntryCommit fun h => (hf.idle h).walPending) protocolFrame_logEntryCommit
  | runPosted => exact faithful_runPosted hf hi
  | abort ec => exact hf.of_protocol (flush_abort ec) (protocolFrame_abort ec)
  | timeoutCleanUp => exact hf.of_protocol flush_timeoutCleanUp protocolFrame_timeoutCleanUp
  | handleTxTmCommit x => exact hf.of_protocol (flush_handleTxTmCommit x hf.prepares) (protocolFrame_handleTxTmCommit x)
  | handleTxTmAbort x => exact hf.of_protocol (flush_handleTxTmAbort x) (protocolFrame_handleTxTmAbort x)

theorem faithful_run (hf : Faithful L s) (hi : InFlight s) (es : List Event) : Faithful L (run s es) := by
  induction es generalizing s with
  | nil => exact hf
  | cons e es ih => exact ih (faithful_step hf hi e) (inFlight_step hi e)

theorem faithful_fresh (hq : Quiescent s) (hst : s.state = .idle) (ho : s.out = []) (hw : s.walPending = [])
    (hl : s.logEntry = none) (hL : s.ops = L) : Faithful L s := by
  subst hL
  have hp : s.posted = [] := congrArg (·.1) hq
  refine ⟨fun _ => by rw [hst]; exact nofun, fun _ => ⟨fun g => by rw [ho]; exact List.not_mem_nil _, hw,
    ⟨[], rfl, by simp [logOps, hl, hp]⟩, fun _ hk => (nomatch (congrArg (·.2.1) hq).symm.trans hk),
    fun o _ hh => nomatch (congrFun (congrArg (·.2.2) hq) o).symm.trans hh⟩, fun g hg => ?_, fun op hop => ?_⟩
  · rw [ho] at hg; exact absurd hg (List.not_mem_nil _)
  · simp [ho, appendedOps, logOps, hl] at hop

theorem faithful_start (xid rgId : Nat) (distributed : Bool) (access : Key → Option String) (req : TxRequest)
    (hone : req.oneshot = true) : Faithful req.operations (start xid rgId distributed access req) := by
  simp only [start, processTxRequest, hone, if_true]
  exact faithful_handleNextOperation (faithful_fresh rfl rfl rfl rfl rfl rfl) rfl

structure Stalled (s : TxContext) : Prop where
  quiescent : Quiescent s
  ops : s.ops = []
  unprepared : s.state ≠ .prepareCommitting
  pending : s.state = .idle → s.walPending = []
  undecided : ∀ g, Obs.walAppend g ∈ s.out → ∀ r ∈ g, r.logType ≠ some (decisionType s.distributed)

theorem Stalled.of_flush (hs : Stalled s) (h : Flush s s') (hq : Quiescent s') (ho : s'.ops = s.ops) :
    Stalled s' := by
  obtain ⟨l, e, hg, -⟩ := h.out
  have hd : s'.distributed = s.distributed := congrArg (·.2.2.1) h.config
  refine ⟨hq, ho.trans hs.ops, fun hp => hs.unprepared (h.prepare hp),
    fun hi => (h.keep hi (hs.pending (h.stay hi))).2, fun g hm => ?_⟩
  rw [hd]
  rw [e] at hm
  rcases List.mem_append.1 hm with hm | hm
  · exact (hg g hm).2
  · exact hs.undecided g hm

theorem flush_step_of_stalled (hs : Stalled s) (e : Event) : Flush s (step s e) := by
  have hp : s.posted = [] := congrArg (·.1) hs.quiescent
  have hl : s.lockAcquire = none := congrArg (·.2.1) hs.quiescent
  cases e with
  | notifyLockAcquire ec => simp only [step, notifyLockAcquire, hl]; exact .emit (by exact nofun)
  | readDataFromDsbResponse r =>
    have hc : Flush s (checkDsbOid r.oid s) ∧ (checkDsbOid r.oid s).dsReadHandler r.oid = none := by
      have hh := congrFun (congrArg (·.2.2) hs.quiescent) r.oid
      unfold checkDsbOid; split
      · exact ⟨.emit (by exact nofun), hh⟩
      · exact ⟨.rfl, hh⟩
    simp only [step, readDataFromDsbResponse]
    generalize checkDsbOid r.oid s = s₁ at hc
    simp only [dispatchDsbRead, hc.2, cacheTuple]
    split
    · exact (hc.1.trans (.emit (by exact nofun))).trans (.update rfl)
    · exact hc.1.trans (.emit (by exact nofun))
  | logEntryCommit => exact flush_logEntryCommit hs.pending
  | runPosted => simp only [step, Step.runPosted, hp]; exact .rfl
  | abort ec => exact flush_abort ec
  | timeoutCleanUp => exact flush_timeoutCleanUp
  | handleTxTmCommit x => exact flush_handleTxTmCommit x fun _ => hs.unprepared
  | handleTxTmAbort x => exact flush_handleTxTmAbort x

theorem stalled_run (hs : Stalled s) (es : List Event) : Stalled (run s es) := by
  induction es generalizing s with
  | nil => exact hs
  | cons e es ih =>
    obtain ⟨hq, ho⟩ := quiescent_step hs.quiescent e
    exact ih (hs.of_flush (flush_step_of_stalled hs e) hq ho)

theorem stalled_start (xid rgId : Nat) (distributed : Bool) (access : Key → Option String) (req : TxRequest)
    (hone : req.oneshot = false) : Stalled (start xid rgId distributed access req) := by
  simp only [start, processTxRequest, hone]
  exact ⟨rfl, rfl, nofun, fun _ => rfl, fun g hg => absurd hg (List.not_mem_nil _)⟩

/-- A record group that carries the commit decision is one record with the transaction's xid,
holding the request's INSERTs and UPDATEs in order, stamped; no other record holds an operation. -/
theorem decision_record_holds_request_writes (xid rgId : Nat) (distributed : Bool)
    (access : Key → Option String) (req : TxRequest) (es : List Event) (g : List TxLogProto)
    (hg : Obs.walAppend g ∈ (run (start xid rgId distributed access req) es).out)
    (hd : ∃ r ∈ g, r.logType = some (decisionType distributed)) :
    g = [⟨xid, some (decisionType distributed), stampWrites xid rgId req.operations⟩] ∧
      appendedOps (run (start xid rgId distributed access req) es).out = stampWrites xid rgId req.operations ∧
      ∀ op ∈ stampWrites xid rgId req.operations, op.tupleRow.tuple = "" →
        Obs.assertFail .writeTupleNotNil ∈ (run (start xid rgId distributed access req) es).out := by
  have hc := (config_run (s := start xid rgId distributed access req) es).trans
    (config_start xid rgId distributed access req)
  simp only [config, Prod.mk.injEq] at hc
  obtain ⟨hx, hr, hdist, -⟩ := hc
  cases hone : req.oneshot with
  | false =>
    obtain ⟨r, hr', ht⟩ := hd
    have hu := (stalled_run (stalled_start xid rgId distributed access req hone) es).undecided g hg r hr'
    rw [hdist] at hu
    exact absurd ht hu
  | true =>
    have hf := faithful_run (faithful_start xid rgId distributed access req hone)
      (inFlight_start xid rgId distributed access req) es
    obtain ⟨hgeq, happ, -, -⟩ := hf.decided g hg (by rw [hdist]; exact hd)
    rw [hx, hr, hdist] at hgeq
    rw [hx, hr] at happ
    refine ⟨hgeq, happ, fun op hop he => hf.payload op ?_ (isWrite_of_mem_stampWrites hop) he⟩
    exact List.mem_append_left _ (happ ▸ hop)

theorem update_commit_record :
    Obs.walAppend [⟨1, some .rmCommit, [⟨.update, ⟨1, 0, 7, "w"⟩, 1, 0⟩]⟩] ∈
        (run (start 1 0 false (fun _ => some "v") ⟨false, false, true, 0, [⟨.update, ⟨1, 0, 7, "w"⟩, 0, 0⟩]⟩)
          [.notifyLockAcquire .ok, .runPosted]).out ∧
      (∃ r ∈ ([⟨1, some .rmCommit, [⟨.update, ⟨1, 0, 7, "w"⟩, 1, 0⟩]⟩] : List TxLogProto),
        r.logType = some (decisionType false)) ∧
      ([⟨1, some .rmCommit, [⟨.update, ⟨1, 0, 7, "w"⟩, 1, 0⟩]⟩] : List TxLogProto) =
          [⟨1, some (decisionType false), stampWrites 1 0 [⟨.update, ⟨1, 0, 7, "w"⟩, 0, 0⟩]⟩] ∧
        appendedOps (run (start 1 0 false (fun _ => some "v")
            ⟨false, false, true, 0, [⟨.update, ⟨1, 0, 7, "w"⟩, 0, 0⟩]⟩) [.notifyLockAcquire .ok, .runPosted]).out =
          stampWrites 1 0 [⟨.update, ⟨1, 0, 7, "w"⟩, 0, 0⟩] ∧
        ∀ op ∈ stampWrites 1 0 [⟨.update, ⟨1, 0, 7, "w"⟩, 0, 0⟩], op.tupleRow.tuple = "" →
          Obs.assertFail .writeTupleNotNil ∈ (run (start 1 0 false (fun _ => some "v")
            ⟨false, false, true, 0, [⟨.update, ⟨1, 0, 7, "w"⟩, 0, 0⟩]⟩) [.notifyLockAcquire .ok, .runPosted]).out :=
  ⟨by decide, ⟨_, List.mem_singleton_self _, rfl⟩,
    decision_record_holds_request_writes 1 0 false (fun _ => some "v")
      ⟨false, false, true, 0, [⟨.update, ⟨1, 0, 7, "w"⟩, 0, 0⟩]⟩ [.notifyLockAcquire .ok, .runPosted]
      [⟨1, some .rmCommit, [⟨.update, ⟨1, 0, 7, "w"⟩, 1, 0⟩]⟩] (by decide) ⟨_, List.mem_singleton_self _, rfl⟩⟩

end Tddb.Record
