import Tddb.World
import Tddb.Locking

namespace Tddb.Node

open Tddb.Types Tddb.Context Tddb.Commit Tddb.Step Tddb.Frame Tddb.World Tddb.Locking

variable {P : TxContext → Prop} {w : State} {x : Nat}

/-- What an invariant of one context must survive for every action of the node to keep it. -/
structure Lifts (P : TxContext → Prop) : Prop where
  step : ∀ {s} (e : Event), P s → P (Tddb.Step.step s e)
  committed : ∀ {s}, P s → P (txCommitted s)
  prepareCommitted : ∀ {s}, P s → P (txPrepareCommitted s)

theorem lifts_of_closed (hP : Closed P) : Lifts P :=
  ⟨fun e h => closed_step hP h e, closed_txCommitted hP, fun h => hP.quiet h (lockQuiet_emit nofun)⟩

theorem lifts_config (c : Nat × Nat × Bool × Bool) : Lifts fun s => config s = c :=
  ⟨fun e h => (config_step e).trans h, fun h => (config_of_protocolFrame protocolFrame_txCommitted).trans h,
    fun h => h⟩

theorem updateCtx_ctx_apply (w : State) (xid : Nat) (f : TxContext → TxContext) (hf : ∀ s, (f s).xid = s.xid)
    (x : Nat) : (w.updateCtx xid f hf).ctx x = if x = xid then f (w.ctx xid) else w.ctx x := by
  simp only [State.updateCtx, Function.update_apply]

theorem updateCtx_keeps {xid : Nat} {f : TxContext → TxContext} {hf : ∀ s, (f s).xid = s.xid}
    (h : ∀ s, P s → P (f s)) (hx : P (w.ctx x)) : P ((w.updateCtx xid f hf).ctx x) := by
  rw [updateCtx_ctx_apply]
  split
  · rename_i he; subst he; exact h _ hx
  · exact hx

theorem ctx_registerDependency (xid out : Nat) (w : State) : (registerDependency xid out w).ctx = w.ctx := by
  unfold registerDependency; split_ifs <;> rfl

theorem ctx_reportTo (target source : Nat) (w : State) : (reportTo target source w).ctx = w.ctx := by
  unfold reportTo; dsimp only; split_ifs <;> rfl

section Lifts

variable (hP : Lifts P)
include hP

theorem Lifts.dlvTryTxCommit (hx : P (w.ctx x)) (xid : Nat) : P ((dlvTryTxCommit xid w).ctx x) := by
  unfold World.dlvTryTxCommit; split
  · exact updateCtx_keeps (fun _ => hP.committed) hx
  · exact hx

theorem Lifts.dependencyCommit (hx : P (w.ctx x)) (xid : Nat) : P ((dependencyCommit xid w).ctx x) := by
  unfold World.dependencyCommit dlvTryTxPrepareCommit; dsimp only; split
  · split
    · exact updateCtx_keeps (fun _ => hP.prepareCommitted) hx
    · exact hx
  · refine hP.dlvTryTxCommit ?_ xid
    exact hx

theorem Lifts.runTask (hx : P (w.ctx x)) : ∀ t, P ((World.runTask t w).ctx x)
  | .reportTo target source => by show P ((reportTo target source w).ctx x); rw [ctx_reportTo]; exact hx
  | .dependencyCommit xid => hP.dependencyCommit hx xid

theorem Lifts.node_step (hx : P (w.ctx x)) : ∀ a, P ((w.step a).ctx x)
  | .context xid e => by rw [State.step]; exact updateCtx_keeps (fun _ => hP.step e) hx
  | .registerDependency xid out => by rw [State.step, ctx_registerDependency]; exact hx
  | .reportDependency xid => hx
  | .runTask n => by
    simp only [State.step]
    split
    · exact hP.runTask (w := { w with tasks := w.tasks.eraseIdx n }) hx _
    · exact hx

theorem Lifts.node_run (hx : P (w.ctx x)) (as : List Action) : P ((w.run as).ctx x) := by
  induction as generalizing w with
  | nil => exact hx
  | cons a as ih => exact ih (hP.node_step hx a)

end Lifts

/-- However a node interleaves its contexts, each answers its client at most once and unlocks
each locked row once, in lock order, although `dependency_commit` may commit it a second time. -/
theorem node_contexts_answer_and_unlock_once (distributed : Nat → Bool) (access : Key → Option String)
    (req : Nat → TxRequest) (as : List Action) (x : Nat) :
    let s := ((State.start distributed access req).run as).ctx x
    (responses s.out).length ≤ 1 ∧ (distributed x = true → responses s.out = []) ∧
      (s.state = .ended → distributed x = false → (responses s.out).length = 1) ∧
      ((req x).readOnly = false →
        (∀ l ∈ lockRequests s.out, l.xid = x) ∧ (lockRequests s.out).Pairwise (·.oid < ·.oid) ∧
          ReportsLocks s.out ∧ (s.state ≠ .ended → unlocks s.out = []) ∧
          (s.state = .ended → unlocks s.out = (lockRequests s.out).map unlockOf)) := by
  intro s
  have hc : config s = (x, 0, distributed x, (req x).readOnly) :=
    (lifts_config _).node_run (config_start x 0 (distributed x) access (req x)) as
  have ha := ((lifts_of_closed answered_closed).node_run (w := State.start distributed access req)
    (answered_start x 0 (distributed x) access (req x)) as).responses_length
  have hd : s.distributed = distributed x := congrArg (·.2.2.1) hc
  refine ⟨ha.1, fun h => ha.2.1 (hd.trans h), fun h h' => ha.2.2 h (hd.trans h'), fun hr => ?_⟩
  have ht : LockTrace s :=
    (lifts_of_closed lockTrace_closed).node_run (w := State.start distributed access req)
      (lockTrace_start x 0 (distributed x) access (req x) hr) as
  exact ⟨fun l hl => (ht.xid l hl).trans (congrArg (·.1) hc), ht.sorted, ht.reports, fun h => (ht.held h).2,
    fun h => (ht.released h).2⟩

example : let s := ((State.start (fun _ => false) (fun _ => none)
      (fun _ => ⟨false, false, true, 0, [⟨.update, ⟨1, 0, 7, "w"⟩, 0, 0⟩]⟩)).run
      [.registerDependency 2 1, .context 1 (.notifyLockAcquire .ok),
        .context 1 (.readDataFromDsbResponse ⟨1, .ok, some ⟨1, 0, 7, "v"⟩⟩), .context 1 .runPosted,
        .context 1 .logEntryCommit, .reportDependency 2, .runTask 0, .runTask 0]).ctx 1
    s.out.count .txFinish = 2 ∧ (responses s.out).length = 1 ∧ unlocks s.out = [.unlock 1 .writeRow ⟨1, 0, 7⟩] := by
  decide

end Tddb.Node
