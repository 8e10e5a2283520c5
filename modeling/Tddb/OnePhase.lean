import Tddb.Frame

namespace Tddb.OnePhase

open Tddb.Types Tddb.History Tddb.Context Tddb.Commit Tddb.Operation Tddb.Step Tddb.Frame

inductive Outcome where
  | running
  | failed (ec : EC)
  | signalled (ec : EC)
  deriving DecidableEq, Repr

def readCode (readOnly : Bool) (ec : EC) : EC := if readOnly ∧ ec = .notFoundError then .ok else ec

def Outcome.next (readOnly : Bool) : Outcome → Obs → Outcome
  | .running, .opDone ec => if readCode readOnly ec = .ok then .running else .failed ec
  | .running, .abortTaken ec => .signalled ec
  | .signalled _, .opDone ec => .signalled (readCode readOnly ec)
  | oc, _ => oc

def outcome (readOnly : Bool) : List Obs → Outcome
  | [] => .running
  | o :: h => (outcome readOnly h).next readOnly o

/-- The code the client should get after history `h`: `EC_OK` while every operation succeeded, the
failed operation's code, or the signal's code with `EC_OK` read as `EC_TX_ABORT`. -/
def referenceCode (readOnly : Bool) (h : List Obs) : EC :=
  match outcome readOnly h with
  | .running => .ok
  | .failed ec => ec
  | .signalled ec => if ec = .ok then .txAbort else ec

def Answers (readOnly : Bool) : Obs → List Obs → Prop
  | .clientResponse ec _, h => ec = referenceCode readOnly h
  | _, _ => True

instance answersDecidable (readOnly : Bool) : ∀ o h, Decidable (Answers readOnly o h)
  | .clientResponse ec _, h => inferInstanceAs (Decidable (ec = referenceCode readOnly h))
  | .lockRow _, _ | .unlock _ _ _, _ | .readRequest _ _, _ | .walAppend _, _ | .logCommit _, _
  | .prepare _, _ | .ack _, _ | .txVictim, _ | .txFinish, _ | .txState _, _ | .assertFail _, _
  | .opDone _, _ | .abortTaken _, _ => isTrue trivial

def Passive : Obs → Prop
  | .opDone _ | .abortTaken _ | .clientResponse _ _ => False
  | _ => True

variable {s s' : TxContext} {ro : Bool} {o : Obs} {l h : List Obs}

def pendingView (s : TxContext) : List EC × Option LockAcquire × (Nat → Option ReadHandler) :=
  (s.posted, s.lockAcquire, s.dsReadHandler)

def Waiting : List EC × Option LockAcquire × (Nat → Option ReadHandler) → Prop
  | ([], some _, hs) => ∀ oid, hs oid = none
  | ([], none, hs) => ∃ oid, ∀ o, o ≠ oid → hs o = none
  | ([_], none, hs) => ∀ oid, hs oid = none
  | _ => False

def InFlight (s : TxContext) : Prop := Waiting (pendingView s)

def Quiescent (s : TxContext) : Prop := pendingView s = ([], none, fun _ => none)

theorem Waiting.of_lock (hw : Waiting (ps, some k, hs)) : ps = [] ∧ ∀ oid, hs oid = none :=
  match ps, hw with
  | [], hw => ⟨rfl, hw⟩
  | [_], hw => False.elim hw
  | _ :: _ :: _, hw => False.elim hw

theorem Waiting.of_posted (hw : Waiting (ec :: rest, k, hs)) :
    rest = [] ∧ k = none ∧ ∀ oid, hs oid = none :=
  match rest, k, hw with
  | [], none, hw => ⟨rfl, rfl, hw⟩
  | [], some _, hw => False.elim hw
  | _ :: _, _, hw => False.elim hw

theorem Waiting.of_handler (hw : Waiting (ps, k, hs)) (ho : hs oid ≠ none) :
    ps = [] ∧ k = none ∧ ∀ o, o ≠ oid → hs o = none :=
  match ps, k, hw with
  | [], some _, hw => absurd (hw oid) ho
  | [], none, ⟨oid', hw⟩ => by
    obtain rfl : oid = oid' := by_contra fun hne => ho (hw oid hne)
    exact ⟨rfl, rfl, hw⟩
  | [_], none, hw => absurd (hw oid) ho
  | [_], some _, hw => False.elim hw
  | _ :: _ :: _, _, hw => False.elim hw

theorem Quiescent.inFlight (hq : Quiescent s) : InFlight s := by
  unfold InFlight; rw [hq]; exact ⟨0, fun _ _ => rfl⟩

theorem pendingView_of_protocolFrame (hf : protocolFrame s' = protocolFrame s) :
    pendingView s' = pendingView s :=
  congrArg (fun p => (p.2.2.2.2.2.2.1, p.2.2.2.2.1, p.2.2.2.2.2.1)) hf

@[simp] theorem pendingView_emit : pendingView (emit o s) = pendingView s := rfl

theorem pendingView_checkReadTuple (ec : EC) (t : String) :
    pendingView (checkReadTuple ec t s) = pendingView s := by
  unfold checkReadTuple; split <;> rfl

theorem pendingView_readDone (ec : EC) (t : String) :
    pendingView (readDone ec t s) = ((pendingView s).1 ++ [ec], (pendingView s).2) := by
  simp only [readDone, checkReadTuple]; split <;> rfl

theorem pendingView_writeDone (op : TxOperation) (ec : EC) :
    pendingView (writeDone op ec s) = ((pendingView s).1 ++ [ec], (pendingView s).2) := by
  simp only [writeDone, invokeDone, appendOperation]; split <;> rfl

theorem pendingView_installLock (mode : LockMode) (key : Key) (k : LockAcquire) :
    pendingView (installLock mode key k s) = ((pendingView s).1, some k, (pendingView s).2.2) := by
  simp only [installLock, addLockItem, checkLockFree]; split <;> split <;> rfl

theorem runLockAcquire_pendingView (k : LockAcquire) (ec : EC) (s : TxContext) :
    (∃ ec', pendingView (runLockAcquire k ec s) = ((pendingView s).1 ++ [ec'], (pendingView s).2)) ∨
    ∃ oid h, pendingView (runLockAcquire k ec s) =
      ((pendingView s).1, (pendingView s).2.1, Function.update (pendingView s).2.2 oid (some h)) := by
  cases k <;> simp only [runLockAcquire, updateDone, insertDone] <;> split <;> (try split) <;>
    (try simp only [pendingView_readDone, pendingView_checkReadTuple, pendingView_writeDone]) <;>
    first | exact .inl ⟨_, rfl⟩ | exact .inr ⟨_, _, rfl⟩

theorem runReadHandler_pendingView (rh : ReadHandler) (ec : EC) (t : String) (s : TxContext) :
    ∃ ec', pendingView (runReadHandler rh ec t s) = ((pendingView s).1 ++ [ec'], (pendingView s).2) := by
  cases rh <;> simp only [runReadHandler, updateDone, insertDone, pendingView_readDone,
    pendingView_checkReadTuple, pendingView_writeDone] <;> exact ⟨_, rfl⟩

theorem runLockAcquire_lockAcquire (k : LockAcquire) (ec : EC) :
    (runLockAcquire k ec s).lockAcquire = s.lockAcquire := by
  rcases runLockAcquire_pendingView k ec s with ⟨_, he⟩ | ⟨_, _, he⟩ <;> exact congrArg (·.2.1) he

theorem waiting_runLockAcquire (k : LockAcquire) (ec : EC) (hp : s.posted = [])
    (hs : ∀ oid, s.dsReadHandler oid = none) :
    Waiting ((pendingView (runLockAcquire k ec s)).1, none, (pendingView (runLockAcquire k ec s)).2.2) := by
  rcases runLockAcquire_pendingView k ec s with ⟨ec', he⟩ | ⟨oid, rh, he⟩ <;> rw [he] <;>
    simp only [pendingView, hp, List.nil_append, Waiting]
  · exact hs
  · exact ⟨oid, fun o ho => by simp [Function.update_noteq ho, hs]⟩

theorem inFlight_handleOperation (op : TxOperation) (hq : Quiescent s) : InFlight (handleOperation op s) := by
  obtain ⟨hp, hl, hs⟩ : s.posted = [] ∧ s.lockAcquire = none ∧ s.dsReadHandler = fun _ => none := by
    simpa [Quiescent, pendingView] using hq
  have hlock : ∀ mode key k, InFlight (requestRowLock mode key k s) := by
    intro mode key k
    show Waiting (pendingView (installLock mode key k s))
    rw [pendingView_installLock]
    simp only [pendingView, hp, hs, Waiting, implies_true]
  have hread : ∀ mode key k k', InFlight { runLockAcquire k' .ok (installLock mode key k s) with
      lockAcquire := none } := by
    intro mode key k k'
    have hv := pendingView_installLock (s := s) mode key k
    exact waiting_runLockAcquire k' .ok ((congrArg Prod.fst hv).trans hp)
      fun oid => (congrFun (congrArg (·.2.2) hv) oid).trans (congrFun hs oid)
  unfold handleOperation asyncRead asyncUpdate asyncInsert
  split <;> (try dsimp only) <;> (try split) <;> first
    | exact hlock _ _ _
    | exact hread _ _ _ _
    | exact Quiescent.inFlight hq

theorem inFlight_notifyLockAcquire (ec : EC) (hi : InFlight s) : InFlight (notifyLockAcquire ec s) := by
  unfold notifyLockAcquire
  split
  · rename_i k hk
    obtain ⟨hp, hs⟩ := Waiting.of_lock (show Waiting (s.posted, some k, s.dsReadHandler) from hk ▸ hi)
    show Waiting (_, (runLockAcquire k ec { s with lockAcquire := none }).lockAcquire, _)
    rw [runLockAcquire_lockAcquire]
    exact waiting_runLockAcquire (s := { s with lockAcquire := none }) k ec hp hs
  · exact hi

theorem pendingView_checkDsbOid (oid : Nat) : pendingView (checkDsbOid oid s) = pendingView s := by
  unfold checkDsbOid; split <;> rfl

theorem pendingView_readDataFromDsbResponse (r : DsbReadResponse) :
    pendingView (readDataFromDsbResponse r s) = pendingView
      (dispatchDsbRead r.oid r.errorCode (r.tupleRow.getD ⟨0, 0, 0, ""⟩).tuple (checkDsbOid r.oid s)) := by
  unfold readDataFromDsbResponse cacheTuple; dsimp only; split <;> rfl

theorem inFlight_readDataFromDsbResponse (r : DsbReadResponse) (hi : InFlight s) :
    InFlight (readDataFromDsbResponse r s) := by
  have hi' : Waiting (pendingView (checkDsbOid r.oid s)) := (pendingView_checkDsbOid r.oid).symm ▸ hi
  rw [InFlight, pendingView_readDataFromDsbResponse]
  generalize checkDsbOid r.oid s = s₁ at hi'
  unfold dispatchDsbRead
  split
  · rename_i rh hrh
    obtain ⟨hp, hl, hs⟩ := Waiting.of_handler hi'
      (show (pendingView s₁).2.2 r.oid ≠ none by simp [pendingView, hrh])
    obtain ⟨ec', he⟩ := runReadHandler_pendingView rh r.errorCode (r.tupleRow.getD ⟨0, 0, 0, ""⟩).tuple s₁
    show Waiting ((pendingView (runReadHandler _ _ _ s₁)).1, (pendingView (runReadHandler _ _ _ s₁)).2.1,
      Function.update (pendingView (runReadHandler _ _ _ s₁)).2.2 r.oid none)
    rw [he]
    simp only [pendingView, hp, hl, List.nil_append, Waiting]
    intro oid
    by_cases ho : oid = r.oid
    · subst ho; exact Function.update_same _ _ _
    · rw [Function.update_noteq ho]; exact hs oid ho
  · exact hi'

theorem quiescent_notifyLockAcquire (ec : EC) (hq : Quiescent s) : Quiescent (notifyLockAcquire ec s) := by
  have hl : s.lockAcquire = none := congrArg (·.2.1) hq
  simp only [notifyLockAcquire, hl]
  exact hq

theorem quiescent_readDataFromDsbResponse (r : DsbReadResponse) (hq : Quiescent s) :
    Quiescent (readDataFromDsbResponse r s) := by
  have hq' : Quiescent (checkDsbOid r.oid s) := (pendingView_checkDsbOid r.oid).trans hq
  rw [Quiescent, pendingView_readDataFromDsbResponse]
  generalize checkDsbOid r.oid s = s₁ at hq'
  have hs : s₁.dsReadHandler r.oid = none := congrFun (congrArg (·.2.2) hq') r.oid
  simp only [dispatchDsbRead, hs]
  exact hq'

def Settled (st : RmState) (ec : EC) (responded : Bool) (pending : List TxLogProto) (oc : Outcome)
    (quiet : Prop) : Prop :=
  match st with
  | .idle => oc = .running ∧ ec = .ok ∧ responded = false ∧ pending = []
  | .committing => oc = .running ∧ ec = .ok ∧ responded = false ∧ quiet ∧
      pending.map (·.logType) = [some .rmCommit]
  | .aborting => responded = false ∧ pending.map (·.logType) = [some .rmAbort] ∧
      (oc = .failed ec ∧ ec ≠ .ok ∧ quiet ∨ oc = .signalled ec)
  | .ended => responded = true ∧ pending = []
  | .prepareCommitting | .prepareAborting => False

/-- The one-phase invariant: at most one operation in flight, the RM state settled as `Settled`
says, and every client response so far carrying the reference code. -/
structure Conforms (s : TxContext) : Prop where
  nonDistributed : s.distributed = false
  inFlight : InFlight s
  settled : Settled s.state s.errorCode s.hasRespond s.walPending (outcome s.readOnly s.out) (Quiescent s)
  answered : Justified (Answers s.readOnly) s.out

theorem Conforms.idle (hs : Conforms s) (hst : s.state = .idle) :
    outcome s.readOnly s.out = .running ∧ s.errorCode = .ok ∧ s.hasRespond = false ∧ s.walPending = [] := by
  simpa only [hst, Settled] using hs.settled

theorem releaseLock_eq (s : TxContext) :
    ∃ l, (∀ o ∈ l, Passive o) ∧ releaseLock s = { s with state := .ended, locks := [], out := l ++ s.out } := by
  unfold releaseLock
  split
  · exact ⟨[.txState .ended, .txFinish], by simp [Passive], rfl⟩
  · refine ⟨.txState .ended :: .txFinish :: (unlockCalls s.locks).reverse, ?_, rfl⟩
    simp only [List.mem_cons, List.mem_reverse, unlockCalls, List.mem_map]
    rintro o (rfl | rfl | ⟨p, -, rfl⟩) <;> trivial

theorem read_only_update_keeps_lock :
    (run (start 1 0 false (fun _ => some "v") ⟨true, false, true, 0, [⟨.update, ⟨1, 0, 7, "w"⟩, 0, 0⟩]⟩)
      [.notifyLockAcquire .ok, .runPosted]).out =
    [.txState .ended, .txFinish, .clientResponse .ok 1, .opDone .ok, .lockRow ⟨1, 1, .writeRow, ⟨1, 0, 7⟩⟩] := by
  decide

/-- A timeout while `RM_IDLE` answers `EC_OK`: `send_tx_response` runs before the ABORT record's
callback, with `error_code_` still `EC_OK`. -/
theorem timeout_while_idle_answers_ok :
    (run (start 1 0 false (fun _ => none) ⟨false, false, true, 0, [⟨.read, ⟨1, 0, 7, ""⟩, 0, 0⟩]⟩)
      [.timeoutCleanUp, .logEntryCommit]).out =
    [.txState .ended, .txFinish, .unlock 1 .readRow ⟨1, 0, 7⟩, .logCommit (some .rmAbort),
      .clientResponse .ok 1, .walAppend [⟨1, some .rmAbort, []⟩], .lockRow ⟨1, 1, .readRow, ⟨1, 0, 7⟩⟩] := by
  decide

/-- A timeout after the transaction ended reaches `abort_tx_1p` in `RM_ENDED`, whose assertion fails. -/
theorem timeout_after_end_fails_assertion :
    (run (start 1 0 false (fun _ => none) ⟨false, false, true, 0, []⟩) [.logEntryCommit, .timeoutCleanUp]).out =
    [.assertFail .abortTx1p, .txState .ended, .txFinish, .clientResponse .ok 0, .logCommit (some .rmCommit),
      .walAppend [⟨1, some .rmCommit, []⟩]] := by
  decide

end Tddb.OnePhase
