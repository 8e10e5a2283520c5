import Tddb.Frame

namespace Tddb.World

open Tddb.Types Tddb.Context Tddb.Commit Tddb.Step Tddb.Frame

/-- The dependency bookkeeping of a context under `DB_TYPE_GEO_REP_OPTIMIZE`: `dep_in_count_`,
`dep_in_set_`, `dep_out_set_`, `dependency_committed_`, `dlv_commit_` and `dlv_prepare_`. -/
structure Dependency where
  depInCount : Nat := 0
  depInSet : List Nat := []
  depOutSet : List Nat := []
  dependencyCommitted : Bool := false
  dlvCommit : Bool := false
  dlvPrepare : Bool := false
  deriving DecidableEq, Repr

/-- What `report_dependency` posts to a strand: the lambda that releases
`target` from `source`, and the one that runs `dependency_commit`. -/
inductive Task where
  | reportTo (target source : Nat)
  | dependencyCommit (xid : Nat)
  deriving DecidableEq, Repr

/-- The contexts of a node with their dependency bookkeeping and the tasks posted to their strands;
each context keeps its own copy of `access_mgr`. -/
structure State where
  ctx : Nat → TxContext
  dep : Nat → Dependency
  tasks : List Task
  indexed : ∀ xid, (ctx xid).xid = xid

/-- Apply `f`, which keeps the xid, to the context of `xid`. -/
def State.updateCtx (w : State) (xid : Nat) (f : TxContext → TxContext) (hf : ∀ s, (f s).xid = s.xid) :
    State where
  ctx := Function.update w.ctx xid (f (w.ctx xid))
  dep := w.dep
  tasks := w.tasks
  indexed x := by
    by_cases h : x = xid
    · subst h; rw [Function.update_same, hf]; exact w.indexed x
    · rw [Function.update_noteq h]; exact w.indexed x

def State.updateDep (w : State) (xid : Nat) (f : Dependency → Dependency) : State :=
  { w with dep := Function.update w.dep xid (f (w.dep xid)) }

/-- `register_dependency`: `xid` gains the out-edge to `out` and `out` the in-edge from `xid`, unless
they are one transaction, either is committing or aborting, or the edge is there. -/
def registerDependency (xid out : Nat) (w : State) : State :=
  if xid = out then w
  else if (w.ctx out).state = .aborting ∨ (w.ctx out).state = .committing then w
  else if (w.ctx xid).state = .committing ∨ (w.ctx xid).state = .aborting then w
  else if out ∈ (w.dep xid).depOutSet then w
  else
    (w.updateDep out fun d => { d with depInCount := d.depInCount + 1, depInSet := d.depInSet.insert xid })
      |>.updateDep xid fun d => { d with depOutSet := d.depOutSet.insert out }

/-- `report_dependency` posts one release per out-edge to the target's strand. -/
def reportDependency (xid : Nat) (w : State) : State :=
  { w with tasks := w.tasks ++ (w.dep xid).depOutSet.map (Task.reportTo · xid) }

/-- The lambda `report_dependency` posts: a target that still counts `source`
among its in-edges counts one down, and posts `dependency_commit` at zero. -/
def reportTo (target source : Nat) (w : State) : State :=
  let d := w.dep target
  if source ∈ d.depInSet ∧ 0 < d.depInCount then
    let w := w.updateDep target fun d => { d with depInCount := d.depInCount - 1 }
    if d.depInCount - 1 = 0 then { w with tasks := w.tasks ++ [.dependencyCommit target] } else w
  else w

def dlvTryTxCommit (xid : Nat) (w : State) : State :=
  if (w.dep xid).depInCount = 0 ∧ (w.ctx xid).commitLogSynced ∧ !(w.dep xid).dlvCommit then
    (w.updateDep xid fun d => { d with dlvCommit := true }).updateCtx xid txCommitted
      fun _ => congrArg (·.1.1) protocolFrame_txCommitted
  else w

def dlvTryTxPrepareCommit (xid : Nat) (w : State) : State :=
  if (w.dep xid).depInCount = 0 ∧ (w.ctx xid).prepareCommitLogSynced ∧ !(w.dep xid).dlvPrepare then
    (w.updateDep xid fun d => { d with dlvPrepare := true }).updateCtx xid txPrepareCommitted fun _ => rfl
  else w

def dependencyCommit (xid : Nat) (w : State) : State :=
  let w := w.updateDep xid fun d => { d with dependencyCommitted := true }
  if (w.ctx xid).distributed then dlvTryTxPrepareCommit xid w else dlvTryTxCommit xid w

def runTask : Task → State → State
  | .reportTo target source => reportTo target source
  | .dependencyCommit xid => dependencyCommit xid

/-- `dlv_abort`: abort the out-edges' targets first, then mark a transaction still waiting on others
`EC_CASCADE`; `fuel` bounds the recursion depth, and `none` means it ran out. -/
def dlvAbort : Nat → Nat → State → Option State
  | 0, _, _ => none
  | fuel + 1, xid, w => do
    let w ← (w.dep xid).depOutSet.foldlM (fun w out => dlvAbort fuel out w) w
    pure <| if 0 < (w.dep xid).depInCount then
      w.updateCtx xid (fun s => { s with errorCode := .cascade }) fun _ => rfl
    else w

/-- What happens on a node: a context's own event, a registration, a report, or a strand running a
posted task; the strands interleave, so any posted task may run next. -/
inductive Action where
  | context (xid : Nat) (e : Event)
  | registerDependency (xid out : Nat)
  | reportDependency (xid : Nat)
  | runTask (n : Nat)
  deriving DecidableEq, Repr

def State.step (w : State) : Action → State
  | .context xid e => w.updateCtx xid (Tddb.Step.step · e) fun _ => congrArg (·.1) (config_step e)
  | .registerDependency xid out => registerDependency xid out w
  | .reportDependency xid => reportDependency xid w
  | .runTask n =>
    match w.tasks.get? n with
    | some t => runTask t { w with tasks := w.tasks.eraseIdx n }
    | none => w

def State.run (w : State) (as : List Action) : State := as.foldl State.step w

/-- Each xid's context built and given its request; no edge and no task yet. -/
def State.start (distributed : Nat → Bool) (access : Key → Option String) (req : Nat → TxRequest) :
    State where
  ctx xid := Tddb.Step.start xid 0 (distributed xid) access (req xid)
  dep _ := {}
  tasks := []
  indexed _ := congrArg (·.1) (config_start ..)

end Tddb.World
