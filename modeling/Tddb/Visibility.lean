import Tddb.Frame

namespace Tddb.Visibility

open Tddb.Types Tddb.Context Tddb.Commit Tddb.Operation Tddb.Step Tddb.Frame

def dsbRows (es : List Event) : List TupleRow :=
  es.filterMap fun
    | .readDataFromDsbResponse r => if r.errorCode = .ok then r.tupleRow.filter (·.tuple ≠ "") else none
    | _ => none

def dsbTuples (es : List Event) : List String :=
  es.filterMap fun
    | .readDataFromDsbResponse r => r.tupleRow.map (·.tuple)
    | _ => none

def storeAfter (access : Key → Option String) (es : List Event) : Key → Option String :=
  (dsbRows es).foldl (fun a row => Function.update a row.key (some row.tuple)) access

/-- What a read of the run can return: an empty tuple, a value the store held when the context was
built, or a tuple a DSB answer carried. -/
def Sourced (access : Key → Option String) (es : List Event) (t : String) : Prop :=
  t = "" ∨ (∃ k, access k = some t) ∨ t ∈ dsbTuples es

def StoreRead (a : Key → Option String) (t : String) : Prop := t = "" ∨ ∃ k, a k = some t

structure Reads (src : String → Prop) (s s' : TxContext) : Prop where
  access : s'.access = s.access
  response : ∃ l, s'.response = s.response ++ l ∧ ∀ t ∈ l, src t

variable {src src' : String → Prop} {s s' s'' : TxContext} {access : Key → Option String}
  {es es' : List Event} {e : Event} {t : String} {k : Key} {row : TupleRow}

theorem Reads.rfl : Reads src s s := ⟨Eq.refl _, [], by simp, by simp⟩

theorem Reads.trans (h₁ : Reads src s s') (h₂ : Reads src s' s'') : Reads src s s'' := by
  obtain ⟨l₁, h₁r, hl₁⟩ := h₁.response
  obtain ⟨l₂, h₂r, hl₂⟩ := h₂.response
  refine ⟨h₂.access.trans h₁.access, l₁ ++ l₂, by rw [h₂r, h₁r, List.append_assoc], ?_⟩
  simpa [or_imp, forall_and] using And.intro hl₁ hl₂

theorem Reads.of_eq (h : (s'.access, s'.response) = (s.access, s.response)) : Reads src s s' := by
  simp only [Prod.mk.injEq] at h
  exact ⟨h.1, [], by simp [h.2], by simp⟩

theorem Reads.trans_store (h₁ : Reads (StoreRead s.access) s s') (h₂ : Reads (StoreRead s'.access) s' s'') :
    Reads (StoreRead s.access) s s'' :=
  h₁.trans (h₁.access ▸ h₂)

theorem reads_of_protocolFrame (h : protocolFrame s' = protocolFrame s) : Reads src s s' :=
  .of_eq (congrArg (fun p => (p.2.2.2.2.2.2.2.1, p.2.2.2.2.2.2.2.2.1)) h)

theorem reads_checkReadTuple (ec : EC) (t : String) : Reads src s (checkReadTuple ec t s) := by
  unfold checkReadTuple; split <;> exact .of_eq rfl

theorem reads_readDone (ec : EC) (t : String) (ht : src t) : Reads src s (readDone ec t s) := by
  refine ⟨?_, [t], ?_, by simpa using ht⟩ <;> simp only [readDone, checkReadTuple] <;> split <;> rfl

theorem reads_writeDone (op : TxOperation) (ec : EC) : Reads src s (writeDone op ec s) := by
  apply Reads.of_eq; simp only [writeDone, invokeDone, appendOperation]; split <;> rfl

theorem reads_installLock (mode : LockMode) (key : Key) (k : LockAcquire) :
    Reads src s (installLock mode key k s) := by
  apply Reads.of_eq; simp only [installLock, addLockItem, checkLockFree]; split <;> split <;> rfl

theorem reads_runLockAcquire (k : LockAcquire) (ec : EC) :
    Reads (StoreRead s.access) s (runLockAcquire k ec s) := by
  cases k with
  | read oid key =>
    simp only [runLockAcquire]
    split
    · split
      · rename_i t ht
        exact reads_checkReadTuple _ _ |>.trans (reads_readDone _ t (.inr ⟨key, ht⟩))
      · exact .of_eq rfl
    · exact reads_readDone _ "" (.inl rfl)
  | update oid key op =>
    simp only [runLockAcquire, updateDone]
    split
    · split
      · exact reads_writeDone _ _
      · exact .of_eq rfl
    · exact reads_writeDone _ _
  | insert oid key op =>
    simp only [runLockAcquire, insertDone]
    split
    · split
      · exact reads_writeDone _ _
      · exact .of_eq rfl
    · exact reads_writeDone _ _

theorem reads_handleOperation (op : TxOperation) : Reads (StoreRead s.access) s (handleOperation op s) := by
  have hlock : ∀ mode key k, Reads (StoreRead s.access) s (requestRowLock mode key k s) :=
    fun mode key k => (reads_installLock mode key k).trans (.of_eq rfl)
  have hread : ∀ mode key k k', Reads (StoreRead s.access) s
      { runLockAcquire k' .ok (installLock mode key k s) with lockAcquire := none } :=
    fun mode key k k' => ((reads_installLock mode key k).trans_store (reads_runLockAcquire k' .ok)).trans
      (.of_eq rfl)
  unfold handleOperation asyncRead asyncUpdate asyncInsert
  split <;> (try dsimp only) <;> (try split) <;> first
    | exact hlock _ _ _
    | exact hread _ _ _ _
    | exact .of_eq rfl

theorem reads_notifyLockAcquire (ec : EC) : Reads (StoreRead s.access) s (notifyLockAcquire ec s) := by
  unfold notifyLockAcquire
  split
  · refine Reads.trans_store ?_ (reads_runLockAcquire _ ec)
    exact .of_eq rfl
  · exact .of_eq rfl

theorem reads_handleNextOperation : Reads (StoreRead s.access) s (handleNextOperation s) := by
  unfold handleNextOperation
  split
  · exact .rfl
  split
  · split
    · exact reads_handleOperation _
    · exact reads_of_protocolFrame (protocolFrame_finishOperations.trans protocolFrame_checkOidCount)
  · split
    · exact reads_of_protocolFrame protocolFrame_handleFinishTxPhase1PrepareAbort
    · exact reads_of_protocolFrame protocolFrame_abortTx1p

theorem reads_step (e : Event) (he : ∀ r, e ≠ .readDataFromDsbResponse r) :
    Reads (StoreRead s.access) s (step s e) := by
  cases e with
  | notifyLockAcquire ec => exact reads_notifyLockAcquire ec
  | readDataFromDsbResponse r => exact absurd rfl (he r)
  | logEntryCommit =>
    simp only [step, Step.logEntryCommit]
    split
    · exact reads_of_protocolFrame ((protocolFrame_onLogEntryCommit _).trans rfl)
    · exact .rfl
  | runPosted =>
    simp only [step, Step.runPosted, opDone]
    split
    · refine Reads.trans_store ?_ reads_handleNextOperation
      exact .of_eq rfl
    · exact .rfl
  | abort ec => exact reads_of_protocolFrame (protocolFrame_abort ec)
  | timeoutCleanUp => exact reads_of_protocolFrame protocolFrame_timeoutCleanUp
  | handleTxTmCommit x => exact reads_of_protocolFrame (protocolFrame_handleTxTmCommit x)
  | handleTxTmAbort x => exact reads_of_protocolFrame (protocolFrame_handleTxTmAbort x)

theorem reads_dispatchDsbRead (oid : Nat) (ec : EC) (t : String) :
    Reads (· = t) s (dispatchDsbRead oid ec t s) := by
  unfold dispatchDsbRead
  split
  · rename_i rh _
    have h : Reads (· = t) s (runReadHandler rh ec t s) := by
      cases rh with
      | read => exact (reads_checkReadTuple _ _).trans (reads_readDone _ _ rfl)
      | update op => exact reads_writeDone _ _
      | insert op => exact reads_writeDone _ _
    exact h.trans (.of_eq rfl)
  · exact .of_eq rfl

theorem storeAfter_append (access : Key → Option String) (es es' : List Event) :
    storeAfter access (es ++ es') = storeAfter (storeAfter access es) es' := by
  simp [storeAfter, dsbRows, List.filterMap_append, List.foldl_append]

theorem storeAfter_of_ne (access : Key → Option String) (he : ∀ r, e ≠ .readDataFromDsbResponse r) :
    storeAfter access [e] = access := by
  cases e <;> first | rfl | exact absurd rfl (he _)

theorem cacheTuple_access (r : DsbReadResponse) :
    (cacheTuple r.errorCode (r.tupleRow.getD ⟨0, 0, 0, ""⟩) s).access =
      storeAfter s.access [.readDataFromDsbResponse r] := by
  rcases r with ⟨oid, ec, _ | row⟩ <;> by_cases hec : ec = .ok <;>
    simp [cacheTuple, storeAfter, dsbRows, hec, Option.filter]
  by_cases ht : row.tuple = "" <;> simp [ht]

theorem cacheTuple_response (ec : EC) (row : TupleRow) : (cacheTuple ec row s).response = s.response := by
  unfold cacheTuple; split <;> rfl

theorem sourced_append (h : Sourced access es t) : Sourced access (es ++ es') t := by
  rcases h with h | h | h
  · exact .inl h
  · exact .inr (.inl h)
  · exact .inr (.inr (by rw [dsbTuples, List.filterMap_append]; exact List.mem_append_left _ h))

theorem tuple_mem_dsbTuples (h : row ∈ dsbRows es) : row.tuple ∈ dsbTuples es := by
  simp only [dsbRows, dsbTuples, List.mem_filterMap] at h ⊢
  obtain ⟨e, he, hf⟩ := h
  refine ⟨e, he, ?_⟩
  cases e <;> simp only [reduceCtorEq] at hf ⊢
  rename_i r
  split at hf
  · rcases hr : r.tupleRow with _ | row'
    · simp [hr] at hf
    · simp only [hr, Option.filter] at hf
      split at hf <;> simp_all
  · exact absurd hf (by simp)

theorem sourced_of_storeAfter (h : storeAfter access es k = some t) : Sourced access es t := by
  have key : ∀ (rows : List TupleRow) (a : Key → Option String),
      rows.foldl (fun (a : Key → Option String) (row : TupleRow) => Function.update a row.key (some row.tuple))
        a k = some t →
        a k = some t ∨ ∃ row ∈ rows, row.tuple = t := by
    intro rows
    induction rows with
    | nil => exact fun a h => .inl h
    | cons row rows ih =>
      intro a h
      rcases ih _ h with h | ⟨row', hrow', ht⟩
      · dsimp only at h
        by_cases hk : k = row.key
        · subst hk
          rw [Function.update_same, Option.some.injEq] at h
          exact .inr ⟨row, List.mem_cons_self _ _, h⟩
        · rw [Function.update_noteq hk] at h; exact .inl h
      · exact .inr ⟨row', List.mem_cons_of_mem _ hrow', ht⟩
  rcases key _ _ h with h | ⟨row, hrow, rfl⟩
  · exact .inr (.inl ⟨k, h⟩)
  · exact .inr (.inr (tuple_mem_dsbTuples hrow))

/-- The store and the response of a context after events `es`, as operations that see only the
store and the DSB produce them. -/
structure Visible (access : Key → Option String) (es : List Event) (s : TxContext) : Prop where
  store : s.access = storeAfter access es
  response : ∀ t ∈ s.response, Sourced access es t

theorem Visible.of_reads (hv : Visible access es s) (hr : Reads src s s')
    (hs : ∀ t, src t → Sourced access (es ++ es') t) (hst : s'.access = storeAfter access (es ++ es')) :
    Visible access (es ++ es') s' := by
  obtain ⟨l, hl, hsrc⟩ := hr.response
  refine ⟨hst, fun t ht => ?_⟩
  rw [hl, List.mem_append] at ht
  rcases ht with ht | ht
  · exact sourced_append (hv.response t ht)
  · exact hs t (hsrc t ht)

theorem visible_step (hv : Visible access es s) (e : Event) : Visible access (es ++ [e]) (step s e) := by
  by_cases he : ∃ r, e = .readDataFromDsbResponse r
  · obtain ⟨r, rfl⟩ := he
    have hc : Reads (· = (r.tupleRow.getD ⟨0, 0, 0, ""⟩).tuple) s (checkDsbOid r.oid s) := by
      unfold checkDsbOid; split <;> exact .of_eq rfl
    have hd := hc.trans (reads_dispatchDsbRead r.oid r.errorCode _)
    obtain ⟨l, hl, hsrc⟩ := hd.response
    refine ⟨?_, fun t ht => ?_⟩
    · show (cacheTuple _ _ _).access = _
      rw [cacheTuple_access, hd.access, hv.store, storeAfter_append]
    · have hresp : (step s (.readDataFromDsbResponse r)).response = s.response ++ l := by
        show (cacheTuple _ _ _).response = _
        rw [cacheTuple_response, hl]
      rw [hresp, List.mem_append] at ht
      rcases ht with ht | ht
      · exact sourced_append (hv.response t ht)
      · rw [hsrc t ht]
        rcases hr : r.tupleRow with _ | row
        · exact .inl rfl
        · exact .inr (.inr (by simp [dsbTuples, hr]))
  · have hne : ∀ r, e ≠ .readDataFromDsbResponse r := fun r h => he ⟨r, h⟩
    refine hv.of_reads (reads_step e hne) (fun t ht => ?_) ?_
    · rcases ht with ht | ⟨k, hk⟩
      · exact .inl ht
      · rw [hv.store] at hk; exact sourced_append (sourced_of_storeAfter hk)
    · rw [(reads_step e hne).access, hv.store, storeAfter_append, storeAfter_of_ne _ hne]

theorem visible_run (hv : Visible access es s) (es' : List Event) :
    Visible access (es ++ es') (run s es') := by
  induction es' generalizing es s with
  | nil => simpa using hv
  | cons e es' ih => simpa using ih (visible_step hv e)

theorem visible_start (xid rgId : Nat) (distributed : Bool) (access : Key → Option String)
    (req : TxRequest) : Visible access [] (start xid rgId distributed access req) := by
  have h₀ : ∀ ops, Visible access [] { init xid rgId distributed access with
      readOnly := req.readOnly, maxOps := req.operations.length, ops := ops } :=
    fun _ => ⟨rfl, fun _ h => (List.not_mem_nil _ h).elim⟩
  unfold start processTxRequest
  split
  · refine (h₀ _).of_reads reads_handleNextOperation (fun t ht => ?_) reads_handleNextOperation.access
    rcases ht with ht | ⟨k, hk⟩
    · exact .inl ht
    · exact .inr (.inl ⟨k, hk⟩)
  · exact h₀ []

/-- A transaction's reads see only the store and the DSB: the store changes only by caching DSB
rows, and its own INSERT and UPDATE payloads reach neither. -/
theorem reads_see_store_and_dsb (xid rgId : Nat) (distributed : Bool) (access : Key → Option String)
    (req : TxRequest) (es : List Event) :
    (run (start xid rgId distributed access req) es).access = storeAfter access es ∧
      ∀ t ∈ (run (start xid rgId distributed access req) es).response, Sourced access es t :=
  ⟨(visible_run (visible_start xid rgId distributed access req) es).store,
    (visible_run (visible_start xid rgId distributed access req) es).response⟩

theorem own_insert_not_read_back :
    Obs.clientResponse .notFoundError 2 ∈ (run (start 2 0 false (fun _ => none)
      ⟨false, false, true, 0, [⟨.insert, ⟨1, 0, 7, "a"⟩, 0, 0⟩, ⟨.read, ⟨1, 0, 7, ""⟩, 0, 0⟩]⟩)
      [.notifyLockAcquire .ok, .readDataFromDsbResponse ⟨1, .notFoundError, none⟩, .runPosted,
        .notifyLockAcquire .ok, .readDataFromDsbResponse ⟨2, .notFoundError, none⟩, .runPosted,
        .logEntryCommit]).out := by
  decide

/-- A committed READ answers its client without the tuple it read, which stays in `response_`. -/
theorem read_result_not_sent :
    (run (start 1 0 false (fun _ => some "v") ⟨false, false, true, 0, [⟨.read, ⟨1, 0, 7, ""⟩, 0, 0⟩]⟩)
      [.notifyLockAcquire .ok, .runPosted, .logEntryCommit]).response = ["v"] ∧
    (run (start 1 0 false (fun _ => some "v") ⟨false, false, true, 0, [⟨.read, ⟨1, 0, 7, ""⟩, 0, 0⟩]⟩)
      [.notifyLockAcquire .ok, .runPosted, .logEntryCommit]).out =
      [.txState .ended, .txFinish, .unlock 1 .readRow ⟨1, 0, 7⟩, .clientResponse .ok 1,
        .logCommit (some .rmCommit), .walAppend [⟨1, some .rmCommit, []⟩], .opDone .ok,
        .lockRow ⟨1, 1, .readRow, ⟨1, 0, 7⟩⟩] := by
  decide

end Tddb.Visibility
