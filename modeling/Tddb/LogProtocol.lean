import Tddb.Frame

namespace Tddb.LogProtocol

open Tddb.Types Tddb.History Tddb.Context Tddb.Commit Tddb.Operation Tddb.Step Tddb.Frame

inductive Phase where
  | working
  | prepared (commit : Bool)
  | decided (commit : Bool)
  deriving DecidableEq, Repr

def verdictType : Bool → TxCmdType
  | true => .rmCommit
  | false => .rmAbort

/-- The participant's log automaton: a local transaction decides at once; a distributed one votes
first, commits only after a commit vote, may abort until it has decided, and a decision is final. -/
def Phase.next (distributed : Bool) : Phase → Option TxCmdType → Option Phase
  | .working, some .rmPrepareCommit => if distributed then some (.prepared true) else none
  | .working, some .rmPrepareAbort => if distributed then some (.prepared false) else none
  | .working, some .rmCommit => if distributed then none else some (.decided true)
  | .prepared true, some .rmCommit => some (.decided true)
  | .working, some .rmAbort | .prepared _, some .rmAbort => some (.decided false)
  | _, _ => none

def Phase.replay (distributed : Bool) (p : Phase) : List (Option TxCmdType) → Option Phase
  | [] => some p
  | t :: ts => (p.next distributed t).bind fun q => q.replay distributed ts

def Phase.words : Bool → List (List (Option TxCmdType))
  | false => [[], [some .rmCommit], [some .rmAbort]]
  | true => [[], [some .rmPrepareCommit], [some .rmPrepareAbort], [some .rmAbort],
      [some .rmPrepareCommit, some .rmCommit], [some .rmPrepareCommit, some .rmAbort],
      [some .rmPrepareAbort, some .rmAbort]]

def loggedTypes : List Obs → List (Option TxCmdType)
  | [] => []
  | o :: h => loggedTypes h ++ logTypes o

def Matches (readOnly distributed : Bool) : RmState → Phase → Prop
  | .idle, p => p = .working
  | .prepareCommitting, p => p = .prepared true
  | .prepareAborting, p => p = .prepared false
  | .committing, p => p = .decided true
  | .aborting, p => p = .decided false
  | .ended, p => p = .decided true ∨ p = .decided false ∨ p = .working ∧ readOnly = true ∧ distributed = false

instance matchesDecidable (readOnly distributed : Bool) : ∀ st p, Decidable (Matches readOnly distributed st p)
  | .idle, p => inferInstanceAs (Decidable (p = .working))
  | .prepareCommitting, p => inferInstanceAs (Decidable (p = .prepared true))
  | .prepareAborting, p => inferInstanceAs (Decidable (p = .prepared false))
  | .committing, p => inferInstanceAs (Decidable (p = .decided true))
  | .aborting, p => inferInstanceAs (Decidable (p = .decided false))
  | .ended, p => inferInstanceAs (Decidable (p = .decided true ∨ p = .decided false ∨
      p = .working ∧ readOnly = true ∧ distributed = false))

section Automaton

variable {d : Bool} {p q : Phase} {t : Option TxCmdType} {ts : List (Option TxCmdType)}

theorem replay_append (d : Bool) (p : Phase) (ts ts' : List (Option TxCmdType)) :
    p.replay d (ts ++ ts') = (p.replay d ts).bind fun q => q.replay d ts' := by
  induction ts generalizing p with
  | nil => rfl
  | cons t ts ih => simp only [List.cons_append, Phase.replay, List.append_eq, ih, Option.bind_assoc]

theorem replay_decided {c : Bool} : ∀ {ts q}, (Phase.decided c).replay d ts = some q → ts = [] ∧ q = .decided c
  | [], _, h => ⟨rfl, (Option.some.inj h).symm⟩
  | _ :: _, _, h => nomatch h

theorem next_verdict : ∀ {p q : Phase} {d : Bool} (c : Bool), p.next d (some (verdictType c)) = some q →
    q = .decided c
  | .working, _, false, true, h | .prepared true, _, _, true, h => (Option.some.inj h).symm
  | .working, _, _, false, h | .prepared true, _, _, false, h | .prepared false, _, _, false, h =>
    (Option.some.inj h).symm
  | .working, _, true, true, h | .prepared false, _, _, true, h | .decided _, _, _, _, h => nomatch h

theorem replay_verdict {c : Bool} : ∀ {p q : Phase} {ts}, p.replay d ts = some q → some (verdictType c) ∈ ts →
    q = .decided c
  | p, q, t :: ts, h, hm => by
    simp only [Phase.replay, Option.bind_eq_some] at h
    obtain ⟨p', hp', h⟩ := h
    rcases List.mem_cons.1 hm with rfl | hm
    · obtain rfl := next_verdict c hp'
      exact (replay_decided h).2
    · exact replay_verdict h hm

theorem next_working : ∀ {d : Bool} {t p}, Phase.working.next d t = some p →
    d = true ∧ (t = some .rmPrepareCommit ∧ p = .prepared true ∨ t = some .rmPrepareAbort ∧ p = .prepared false) ∨
      d = false ∧ t = some .rmCommit ∧ p = .decided true ∨ t = some .rmAbort ∧ p = .decided false
  | true, some .rmPrepareCommit, _, h => .inl ⟨rfl, .inl ⟨rfl, (Option.some.inj h).symm⟩⟩
  | true, some .rmPrepareAbort, _, h => .inl ⟨rfl, .inr ⟨rfl, (Option.some.inj h).symm⟩⟩
  | false, some .rmCommit, _, h => .inr (.inl ⟨rfl, rfl, (Option.some.inj h).symm⟩)
  | _, some .rmAbort, _, h => .inr (.inr ⟨rfl, (Option.some.inj h).symm⟩)
  | false, some .rmPrepareCommit, _, h | false, some .rmPrepareAbort, _, h | true, some .rmCommit, _, h
  | _, none, _, h => nomatch h

theorem next_prepared : ∀ {b : Bool} {t p}, (Phase.prepared b).next d t = some p →
    t = some .rmAbort ∧ p = .decided false ∨ b = true ∧ t = some .rmCommit ∧ p = .decided true
  | true, some .rmAbort, _, h | false, some .rmAbort, _, h => .inl ⟨rfl, (Option.some.inj h).symm⟩
  | true, some .rmCommit, _, h => .inr ⟨rfl, rfl, (Option.some.inj h).symm⟩
  | false, some .rmCommit, _, h | true, some .rmPrepareCommit, _, h | false, some .rmPrepareCommit, _, h
  | true, some .rmPrepareAbort, _, h | false, some .rmPrepareAbort, _, h | true, none, _, h
  | false, none, _, h => nomatch h

theorem replay_prepared {b : Bool} (h : (Phase.prepared b).replay d ts = some q) :
    ts = [] ∨ ts = [some .rmAbort] ∨ b = true ∧ ts = [some .rmCommit] := by
  match ts, h with
  | [], _ => exact .inl rfl
  | t :: ts, h =>
    simp only [Phase.replay, Option.bind_eq_some] at h
    obtain ⟨p', hp', hr⟩ := h
    rcases next_prepared hp' with ⟨rfl, rfl⟩ | ⟨rfl, rfl, rfl⟩
    · exact .inr (.inl (by rw [(replay_decided hr).1]))
    · exact .inr (.inr ⟨rfl, by rw [(replay_decided hr).1]⟩)

theorem replay_isSome_iff : (Phase.working.replay d ts).isSome ↔ ts ∈ Phase.words d := by
  refine ⟨fun h => ?_, fun h => ?_⟩
  · obtain ⟨q, hq⟩ := Option.isSome_iff_exists.1 h
    match ts, hq with
    | [], _ => cases d <;> exact List.mem_cons_self _ _
    | t :: ts, hq =>
      simp only [Phase.replay, Option.bind_eq_some] at hq
      obtain ⟨p, hp, hr⟩ := hq
      rcases next_working hp with ⟨rfl, ⟨rfl, rfl⟩ | ⟨rfl, rfl⟩⟩ | ⟨rfl, rfl, rfl⟩ | ⟨rfl, rfl⟩
      · rcases replay_prepared hr with rfl | rfl | ⟨-, rfl⟩ <;> decide
      · rcases replay_prepared hr with rfl | rfl | ⟨⟨⟩, -⟩ <;> decide
      · rw [(replay_decided hr).1]; decide
      · rw [(replay_decided hr).1]; cases d <;> decide
  · revert ts; cases d <;> decide

theorem replay_local (h : Phase.working.replay false ts = some q) : q = .working ∨ ∃ c, q = .decided c := by
  match ts, h with
  | [], h => exact .inl (Option.some.inj h).symm
  | t :: ts, h =>
    simp only [Phase.replay, Option.bind_eq_some] at h
    obtain ⟨p, hp, hr⟩ := h
    rcases next_working hp with ⟨⟨⟩, -⟩ | ⟨-, -, rfl⟩ | ⟨-, rfl⟩
    · exact .inr ⟨true, (replay_decided hr).2⟩
    · exact .inr ⟨false, (replay_decided hr).2⟩

end Automaton

theorem logTypes_eq_nil {o : Obs} (ho : ∀ g, o ≠ .walAppend g) : logTypes o = [] := by
  cases o <;> first | rfl | exact absurd rfl (ho _)

theorem loggedTypes_append {l : List Obs} (hl : ∀ o ∈ l, ∀ g, o ≠ .walAppend g) (h : List Obs) :
    loggedTypes (l ++ h) = loggedTypes h := by
  induction l with
  | nil => rfl
  | cons o l ih =>
    simp only [List.mem_cons, forall_eq_or_imp] at hl
    rw [List.cons_append, loggedTypes, ih hl.2, logTypes_eq_nil hl.1, List.append_nil]

structure Quiet (s s' : TxContext) : Prop where
  config : config s' = config s
  pending : ∀ r ∈ s'.walPending, r ∈ s.walPending
  out : ∃ l, s'.out = l ++ s.out ∧ ∀ o ∈ l, ∀ g, o ≠ .walAppend g

variable {s s' s'' : TxContext} {o : Obs}

theorem Quiet.rfl : Quiet s s := ⟨Eq.refl _, fun _ h => h, [], Eq.refl _, by simp⟩

theorem Quiet.trans (h₁ : Quiet s s') (h₂ : Quiet s' s'') : Quiet s s'' := by
  obtain ⟨l₁, e₁, q₁⟩ := h₁.out
  obtain ⟨l₂, e₂, q₂⟩ := h₂.out
  refine ⟨h₂.config.trans h₁.config, fun r h => h₁.pending r (h₂.pending r h), l₂ ++ l₁,
    by rw [e₂, e₁, List.append_assoc], ?_⟩
  simpa [or_imp, forall_and] using And.intro q₂ q₁

theorem Quiet.update (h : (Frame.config s', s'.walPending, s'.out) = (Frame.config s, s.walPending, s.out)) :
    Quiet s s' := by
  simp only [Prod.mk.injEq] at h
  exact ⟨h.1, fun r hr => h.2.1 ▸ hr, [], by rw [h.2.2]; rfl, by simp⟩

theorem quiet_emit (ho : ∀ g, o ≠ .walAppend g) : Quiet s (emit o s) :=
  ⟨Eq.refl _, fun _ h => h, [o], Eq.refl _, by simpa using ho⟩

theorem quiet_of_driverStep (h : DriverStep s s') : Quiet s s' := by
  obtain ⟨l, hl, hd⟩ := h.out
  refine ⟨h.config, fun r hr => h.walPending ▸ hr, l, hl, fun o ho g => ?_⟩
  have := hd o ho
  rintro rfl
  exact this

theorem quiet_sendTxResponse : Quiet s (sendTxResponse s) := by
  unfold sendTxResponse
  split
  · exact .rfl
  · exact (Quiet.update (by rfl)).trans (quiet_emit (by exact nofun))

theorem quiet_releaseLock : Quiet s (releaseLock s) ∧ (releaseLock s).state = .ended := by
  unfold releaseLock
  split
  · exact ⟨⟨Eq.refl _, fun _ h => h, [_, _], Eq.refl _, by simp⟩, rfl⟩
  · refine ⟨⟨Eq.refl _, fun _ h => h, .txState .ended :: .txFinish :: (unlockCalls s.locks).reverse, Eq.refl _, ?_⟩,
      rfl⟩
    simp only [List.mem_cons, List.mem_reverse, unlockCalls, List.mem_map]
    rintro o (rfl | rfl | ⟨p, -, rfl⟩) g <;> exact nofun

theorem quiet_txCommitted : Quiet s (txCommitted s) ∧ (txCommitted s).state = .ended := by
  unfold txCommitted
  split
  · exact ⟨(quiet_emit (by exact nofun)).trans quiet_releaseLock.1, quiet_releaseLock.2⟩
  · exact ⟨quiet_sendTxResponse.trans quiet_releaseLock.1, quiet_releaseLock.2⟩

theorem quiet_txAborted : Quiet s (txAborted s) ∧ (txAborted s).state = .ended := by
  unfold txAborted
  split
  · exact ⟨(quiet_emit (by exact nofun)).trans quiet_releaseLock.1, quiet_releaseLock.2⟩
  · refine ⟨Quiet.trans ?_ (quiet_sendTxResponse.trans quiet_releaseLock.1), quiet_releaseLock.2⟩
    split
    · exact .update rfl
    · exact .rfl

/-- The log invariant: the records appended so far are a word of the automaton ending in a phase
the RM state matches, and each append is one record of this transaction with a log type. -/
structure Follows (s : TxContext) : Prop where
  phase : ∃ p, Phase.working.replay s.distributed (loggedTypes s.out) = some p ∧
    Matches s.readOnly s.distributed s.state p
  pending : ∀ r ∈ s.walPending, r.logType ∈ loggedTypes s.out
  single : ∀ g, Obs.walAppend g ∈ s.out → ∃ t ops, g = [⟨s.xid, some t, ops⟩]

theorem Follows.of_quiet (hs : Follows s) (hq : Quiet s s')
    (hm : ∀ p, Phase.working.replay s.distributed (loggedTypes s.out) = some p →
      Matches s.readOnly s.distributed s.state p → Matches s.readOnly s.distributed s'.state p) :
    Follows s' := by
  obtain ⟨l, hl, hql⟩ := hq.out
  have hc : (s'.xid, s'.distributed, s'.readOnly) = (s.xid, s.distributed, s.readOnly) :=
    congrArg (fun c => (c.1, c.2.2.1, c.2.2.2)) hq.config
  simp only [Prod.mk.injEq] at hc
  obtain ⟨hx, hd, hro⟩ := hc
  have ht : loggedTypes s'.out = loggedTypes s.out := by rw [hl, loggedTypes_append hql]
  obtain ⟨p, hp, hmp⟩ := hs.phase
  refine ⟨⟨p, by rw [ht, hd]; exact hp, by rw [hd, hro]; exact hm p hp hmp⟩,
    fun r hr => ht ▸ hs.pending r (hq.pending r hr), fun g hg => ?_⟩
  rw [hl] at hg
  rcases List.mem_append.1 hg with hg | hg
  · exact absurd rfl (hql _ hg g)
  · rw [hx]; exact hs.single g hg

theorem Follows.not_prepareAborting (hs : Follows s) (hd : s.distributed = false) :
    s.state ≠ .prepareAborting := by
  obtain ⟨p, hp, hm⟩ := hs.phase
  rw [hd] at hp
  intro h
  rw [h] at hm
  rcases replay_local hp with rfl | ⟨c, rfl⟩ <;> exact nomatch hm

theorem Follows.same (hs : Follows s) (hq : Quiet s s') (hst : s'.state = s.state) : Follows s' :=
  hs.of_quiet hq fun _ _ h => hst ▸ h

theorem Follows.forceLog (hs : Follows s) {t : TxCmdType} {st : RmState}
    (hn : ∀ p, Matches s.readOnly s.distributed s.state p →
      ∃ q, p.next s.distributed (some t) = some q ∧ Matches s.readOnly s.distributed st q) :
    Follows (asyncForceLog (setTxCmdType t { s with state := st })) := by
  obtain ⟨p, hp, hmp⟩ := hs.phase
  obtain ⟨q, hq, hmq⟩ := hn p hmp
  have ht : loggedTypes (asyncForceLog (setTxCmdType t { s with state := st })).out =
      loggedTypes s.out ++ [some t] := rfl
  refine ⟨⟨q, ?_, hmq⟩, fun r hr => ?_, fun g hg => ?_⟩
  · show Phase.working.replay s.distributed (loggedTypes s.out ++ [some t]) = some q
    rw [replay_append, hp]
    simp only [Option.some_bind, Phase.replay, hq]
  · rw [ht]
    simp only [asyncForceLog, setTxCmdType, emit, Option.toList_some, List.mem_append, List.mem_singleton] at hr
    rcases hr with hr | rfl
    · exact List.mem_append_left _ (hs.pending r hr)
    · exact List.mem_append_right _ (List.mem_singleton_self _)
  · simp only [asyncForceLog, setTxCmdType, emit, Option.toList_some, List.mem_cons, Obs.walAppend.injEq] at hg
    rcases hg with rfl | hg
    · exact ⟨t, _, rfl⟩
    · exact hs.single g hg

theorem Follows.ends (hs : Follows s) (hq : Quiet s s') (hst : s'.state = .ended) {c : Bool}
    (hc : some (verdictType c) ∈ loggedTypes s.out) : Follows s' :=
  hs.of_quiet hq fun p hp _ => by
    rw [hst, replay_verdict hp hc]
    cases c
    · exact .inr (.inl rfl)
    · exact .inl rfl

theorem follows_sendTxResponse (hs : Follows s) : Follows (sendTxResponse s) := by
  refine hs.same quiet_sendTxResponse ?_
  unfold sendTxResponse; split <;> rfl

theorem follows_onLogEntryCommit (hs : Follows s) {type : Option TxCmdType} (ht : type ∈ loggedTypes s.out) :
    Follows (onLogEntryCommit type s) := by
  have h₀ : Follows { s with logEntry := none } := hs.same (.update rfl) rfl
  unfold onLogEntryCommit onCommittedLogCommit onAbortedLogCommit onPrepareAbortedLogCommit
    onPrepareCommittedLogCommit txPrepareAborted txPrepareCommitted sendPrepareMessage
  split
  · exact hs.ends ((Quiet.update (by rfl)).trans quiet_txCommitted.1) quiet_txCommitted.2 (c := true) ht
  · exact hs.ends ((Quiet.update (by rfl)).trans quiet_txAborted.1) quiet_txAborted.2 (c := false) ht
  · exact h₀.same (quiet_emit (by exact nofun)) rfl
  · exact hs.same ((Quiet.update (by rfl)).trans (quiet_emit (by exact nofun))) rfl
  · exact h₀

theorem follows_abortTx1p (hs : Follows s) : Follows (abortTx1p s) := by
  unfold abortTx1p
  split
  · rename_i hst
    exact hs.forceLog fun p hp => by rw [hst] at hp; subst hp; exact ⟨_, rfl, rfl⟩
  · exact follows_sendTxResponse hs
  · exact hs.same (quiet_emit (by exact nofun)) rfl

theorem follows_abortTx2p (hs : Follows s) : Follows (abortTx2p s) := by
  unfold abortTx2p sendAckMessage
  split
  · rename_i hst
    exact hs.forceLog fun p hp => by rw [hst] at hp; subst hp; exact ⟨_, rfl, rfl⟩
  · rename_i hst
    exact hs.forceLog fun p hp => by rw [hst] at hp; subst hp; exact ⟨_, rfl, rfl⟩
  · rename_i hst
    exact hs.forceLog fun p hp => by rw [hst] at hp; subst hp; exact ⟨_, rfl, rfl⟩
  all_goals exact hs.same (quiet_emit (by exact nofun)) rfl

theorem follows_handleFinishTxPhase2Commit (hs : Follows s) : Follows (handleFinishTxPhase2Commit s) := by
  unfold handleFinishTxPhase2Commit sendAckMessage
  split
  · rename_i hst
    exact hs.forceLog fun p hp => by rw [hst] at hp; subst hp; exact ⟨_, rfl, rfl⟩
  all_goals exact hs.same (quiet_emit (by exact nofun)) rfl

theorem follows_finishOperations (hs : Follows s) (hst : s.state = .idle) : Follows (finishOperations s) := by
  have hw : ∀ p, Matches s.readOnly s.distributed s.state p → p = .working := fun p h => by rwa [hst] at h
  unfold finishOperations
  split
  · rename_i hd
    show Follows (asyncForceLog (prepareCommitTx s))
    rw [prepareCommitTx, if_pos hst]
    exact hs.forceLog fun p hp => by rw [hw p hp, hd]; exact ⟨_, rfl, rfl⟩
  · rename_i hd
    simp only [Bool.not_eq_true] at hd
    simp only [handleFinishTxPhase1Commit, hst]
    split
    · rename_i hro
      have he : (onCommittedLogCommit (setTxCmdType .rmCommit { s with state := .committing })).state = .ended :=
        quiet_txCommitted.2
      refine hs.of_quiet ((Quiet.update (by rfl)).trans quiet_txCommitted.1) fun p _ hp => ?_
      rw [he]
      exact .inr (.inr ⟨hw p hp, hro, hd⟩)
    · exact hs.forceLog fun p hp => by rw [hw p hp, hd]; exact ⟨_, rfl, rfl⟩

theorem follows_handleNextOperation (hs : Follows s) : Follows (handleNextOperation s) := by
  unfold handleNextOperation
  split
  · exact hs
  rename_i hst
  rw [not_not] at hst
  split
  · split
    · exact hs.same (quiet_of_driverStep (driverStep_handleOperation _)) (driverStep_handleOperation _).state
    · have hc : Follows (checkOidCount s) ∧ (checkOidCount s).state = .idle := by
        unfold checkOidCount
        split
        · exact ⟨hs, hst⟩
        · exact ⟨hs.same (quiet_emit (by exact nofun)) rfl, hst⟩
      exact follows_finishOperations hc.1 hc.2
  · split
    · rename_i hd
      exact hs.forceLog fun p hp => by rw [hst] at hp; subst hp; rw [hd]; exact ⟨_, rfl, rfl⟩
    · exact follows_abortTx1p hs

theorem follows_step (hs : Follows s) (e : Event) : Follows (step s e) := by
  cases e with
  | notifyLockAcquire ec =>
    exact hs.same (quiet_of_driverStep (driverStep_notifyLockAcquire ec)) (driverStep_notifyLockAcquire ec).state
  | readDataFromDsbResponse r =>
    exact hs.same (quiet_of_driverStep (driverStep_readDataFromDsbResponse r))
      (driverStep_readDataFromDsbResponse r).state
  | logEntryCommit =>
    simp only [step, Step.logEntryCommit]
    split
    · rename_i r rest hw
      have hq : Quiet s (emit (.logCommit r.logType) { s with walPending := rest }) :=
        ⟨Eq.refl _, fun r' h => by rw [hw]; exact List.mem_cons_of_mem _ h, [_], Eq.refl _, by simp⟩
      exact follows_onLogEntryCommit (hs.same hq rfl) (by
        simp only [emit, loggedTypes, logTypes, List.append_nil]
        exact hs.pending r (by simp [hw]))
    · exact hs
  | runPosted =>
    simp only [step, Step.runPosted]
    split
    · exact follows_handleNextOperation (hs.same ⟨Eq.refl _, fun _ h => h, [_], Eq.refl _, by simp⟩ rfl)
    · exact hs
  | abort ec =>
    unfold step abort
    dsimp only
    split
    · exact hs.same ((Quiet.update (by rfl)).trans (quiet_emit (by exact nofun))) rfl
    split
    · exact follows_abortTx1p (hs.same ⟨Eq.refl _, fun _ h => h, [_], Eq.refl _, by simp⟩ rfl)
    · exact hs.same (.update rfl) rfl
  | timeoutCleanUp =>
    show Follows (timeoutCleanUp s)
    unfold timeoutCleanUp
    split
    · exact hs
    · exact hs
    · split
      · exact follows_abortTx2p hs
      · exact follows_sendTxResponse (follows_abortTx1p hs)
  | handleTxTmCommit x =>
    show Follows (handleTxTmCommit x s)
    unfold handleTxTmCommit
    split
    · exact follows_handleFinishTxPhase2Commit hs
    · exact hs.same (quiet_emit (by exact nofun)) rfl
  | handleTxTmAbort x =>
    show Follows (handleTxTmAbort x s)
    unfold handleTxTmAbort handleFinishTxPhase2Abort
    split
    · exact follows_abortTx2p hs
    · exact hs.same (quiet_emit (by exact nofun)) rfl

theorem follows_run (hs : Follows s) (es : List Event) : Follows (run s es) := by
  induction es generalizing s with
  | nil => exact hs
  | cons e es ih => exact ih (follows_step hs e)

theorem follows_start (xid rgId : Nat) (distributed : Bool) (access : Key → Option String) (req : TxRequest) :
    Follows (start xid rgId distributed access req) := by
  have h₀ : ∀ ops, Follows { init xid rgId distributed access with
      readOnly := req.readOnly, maxOps := req.operations.length, ops := ops } :=
    fun _ => ⟨⟨_, rfl, rfl⟩, nofun, nofun⟩
  unfold start processTxRequest
  split
  · exact follows_handleNextOperation (h₀ _)
  · exact h₀ []

theorem follows_of_start (xid rgId : Nat) (distributed : Bool) (access : Key → Option String) (req : TxRequest)
    (es : List Event) :
    Follows (run (start xid rgId distributed access req) es) ∧
      (run (start xid rgId distributed access req) es).xid = xid ∧
      (run (start xid rgId distributed access req) es).distributed = distributed ∧
      (run (start xid rgId distributed access req) es).readOnly = req.readOnly := by
  have hc := (config_run (s := start xid rgId distributed access req) es).trans (config_start ..)
  simp only [config, Prod.mk.injEq] at hc
  exact ⟨follows_run (follows_start ..) es, hc.1, hc.2.2.1, hc.2.2.2⟩

/-- For every request and every order of events, the records passed to the WAL are a word of the
log automaton, the RM state matches the phase it ends in, and each append is one own record. -/
theorem wal_log_follows_phases (xid rgId : Nat) (distributed : Bool) (access : Key → Option String)
    (req : TxRequest) (es : List Event) :
    ∃ p, Phase.working.replay distributed (loggedTypes (run (start xid rgId distributed access req) es).out) =
        some p ∧ Matches req.readOnly distributed (run (start xid rgId distributed access req) es).state p ∧
      ∀ g, Obs.walAppend g ∈ (run (start xid rgId distributed access req) es).out →
        ∃ t ops, g = [⟨xid, some t, ops⟩] := by
  obtain ⟨hf, hx, hd, hro⟩ := follows_of_start xid rgId distributed access req es
  obtain ⟨p, hp, hm⟩ := hf.phase
  rw [hd] at hp hm
  rw [hro] at hm
  exact ⟨p, hp, hm, fun g hg => hx ▸ hf.single g hg⟩

/-- A local transaction logs none, one COMMIT or one ABORT; a distributed one at most a vote and then
a decision, an ABORT after PREPARE_ABORT. No transaction logs both a COMMIT and an ABORT. -/
theorem wal_log_words (xid rgId : Nat) (distributed : Bool) (access : Key → Option String)
    (req : TxRequest) (es : List Event) :
    loggedTypes (run (start xid rgId distributed access req) es).out ∈ Phase.words distributed := by
  obtain ⟨hf, -, hd, -⟩ := follows_of_start xid rgId distributed access req es
  obtain ⟨p, hp, -⟩ := hf.phase
  rw [hd] at hp
  exact replay_isSome_iff.1 (by rw [hp]; rfl)

end Tddb.LogProtocol
