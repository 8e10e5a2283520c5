import Tddb.Dependency
import Mathlib.Data.List.Nodup

namespace Tddb.Accounting

open Tddb.Types Tddb.Context Tddb.Step Tddb.World Tddb.Dependency

def releases (ts : List Task) : List (Nat × Nat) :=
  ts.filterMap fun
    | .reportTo target source => some (target, source)
    | .dependencyCommit _ => none

def reporters (as : List Action) : List Nat :=
  as.filterMap fun
    | .reportDependency xid => some xid
    | _ => none

/-- Proof-only record of a run: the release lambdas that ran, as (target, source) pairs, and each
posting of `dependency_commit` with the target's `dep_in_set_` at that moment. -/
structure Ghost where
  ran : List (Nat × Nat) := []
  posts : List (Nat × List Nat) := []
  deriving DecidableEq, Repr

def Ghost.record (w : State) (g : Ghost) : Action → Ghost
  | .runTask n =>
    match w.tasks.get? n with
    | some (.reportTo target source) =>
      let d := w.dep target
      { ran := g.ran ++ [(target, source)]
        posts := g.posts ++
          if source ∈ d.depInSet ∧ 0 < d.depInCount ∧ d.depInCount - 1 = 0 then [(target, d.depInSet)]
          else [] }
    | _ => g
  | _ => g

def runGhost : State × Ghost → List Action → State × Ghost
  | p, [] => p
  | (w, g), a :: as => runGhost (w.step a, g.record w a) as

theorem runGhost_fst (w : State) (g : Ghost) (as : List Action) : (runGhost (w, g) as).1 = w.run as := by
  induction as generalizing w g with
  | nil => rfl
  | cons a as ih => exact ih _ _

/-- The accounting a run keeps while the contexts in `R` have reported once each: each in-count is
the number of in-edges whose release has not run, and each release comes from a reported edge. -/
structure Ledger (R : List Nat) (w : State) (g : Ghost) : Prop where
  consistent : Consistent w.dep
  inNodup : ∀ b, (w.dep b).depInSet.Nodup
  outNodup : ∀ a, (w.dep a).depOutSet.Nodup
  count : ∀ b, (w.dep b).depInCount = ((w.dep b).depInSet.filter fun a => (b, a) ∉ g.ran).length
  ran : ∀ b a, (b, a) ∈ g.ran → a ∈ (w.dep b).depInSet ∧ a ∈ R
  pending : ∀ b a, (b, a) ∈ releases w.tasks → a ∈ (w.dep b).depInSet ∧ (b, a) ∉ g.ran ∧ a ∈ R
  pendingNodup : (releases w.tasks).Nodup
  posts : ∀ b S, (b, S) ∈ g.posts → (∀ a ∈ S, (b, a) ∈ g.ran) ∧ S <:+ (w.dep b).depInSet
  postsNodup : g.posts.Nodup
  queued : ∀ b, Task.dependencyCommit b ∈ w.tasks → ∃ S, (b, S) ∈ g.posts

def edges (d : Dependency) : Nat × List Nat × List Nat := (d.depInCount, d.depInSet, d.depOutSet)

variable {R : List Nat} {w w' : State} {g : Ghost}

theorem ledger_start (distributed : Nat → Bool) (access : Key → Option String) (req : Nat → TxRequest) :
    Ledger [] (State.start distributed access req) {} where
  consistent := ⟨fun _ _ => by simp [State.start], fun _ => by simp [State.start], fun _ => by simp [State.start]⟩
  inNodup _ := List.nodup_nil
  outNodup _ := List.nodup_nil
  count _ := rfl
  ran _ _ := nofun
  pending _ _ := nofun
  pendingNodup := List.nodup_nil
  posts _ _ := nofun
  postsNodup := List.nodup_nil
  queued _ := nofun

theorem Ledger.of_frame (hl : Ledger R w g) (he : ∀ b, edges (w'.dep b) = edges (w.dep b))
    (hrel : (releases w'.tasks).Sublist (releases w.tasks))
    (hq : ∀ b, Task.dependencyCommit b ∈ w'.tasks → Task.dependencyCommit b ∈ w.tasks) : Ledger R w' g := by
  have hc b : (w'.dep b).depInCount = (w.dep b).depInCount := congrArg (·.1) (he b)
  have hi b : (w'.dep b).depInSet = (w.dep b).depInSet := congrArg (·.2.1) (he b)
  have ho b : (w'.dep b).depOutSet = (w.dep b).depOutSet := congrArg (·.2.2) (he b)
  refine ⟨hl.consistent.of_le (fun b => ⟨hi b, ho b⟩) fun b => Nat.le_of_eq (hc b), fun b => hi b ▸ hl.inNodup b,
    fun a => ho a ▸ hl.outNodup a, fun b => by rw [hc, hi]; exact hl.count b, fun b a h => hi b ▸ hl.ran b a h,
    fun b a h => hi b ▸ hl.pending b a (hrel.subset h), hl.pendingNodup.sublist hrel,
    fun b S h => hi b ▸ hl.posts b S h, hl.postsNodup, fun b h => hl.queued b (hq b h)⟩

@[simp] theorem releases_append (ts ts' : List Task) : releases (ts ++ ts') = releases ts ++ releases ts' :=
  List.filterMap_append _ _ _

@[simp] theorem releases_nil : releases [] = [] := rfl

@[simp] theorem releases_dependencyCommit (b : Nat) : releases [.dependencyCommit b] = [] := rfl

theorem releases_map_reportTo (outs : List Nat) (xid : Nat) :
    releases (outs.map (Task.reportTo · xid)) = outs.map (·, xid) := by
  induction outs with
  | nil => rfl
  | cons b outs ih => exact congrArg _ ih

theorem releases_eraseIdx {ts : List Task} {n b a : Nat} (h : ts.get? n = some (.reportTo b a))
    (hnd : (releases ts).Nodup) : (b, a) ∈ releases ts ∧ (b, a) ∉ releases (ts.eraseIdx n) := by
  obtain ⟨hn, ht⟩ := List.getElem?_eq_some_iff.1 ((List.get?_eq_getElem? ts n).symm.trans h)
  have hts : ts = ts.take n ++ .reportTo b a :: ts.drop (n + 1) := by
    calc ts = ts.take n ++ ts.drop n := (List.take_append_drop n ts).symm
      _ = ts.take n ++ .reportTo b a :: ts.drop (n + 1) := by rw [List.drop_eq_getElem_cons hn, ht]
  have hr : releases ts = releases (ts.take n) ++ (b, a) :: releases (ts.drop (n + 1)) := by
    have := congrArg releases hts
    rwa [releases_append] at this
  rw [List.eraseIdx_eq_take_drop_succ, releases_append]
  rw [hr] at hnd ⊢
  exact ⟨List.mem_append_right _ (List.mem_cons_self _ _), (List.nodup_cons.1 (List.nodup_middle.1 hnd)).1⟩

theorem reportTo_of_guard {b a : Nat} (hin : a ∈ (w.dep b).depInSet) (hpos : 0 < (w.dep b).depInCount) :
    (∀ c, edges ((reportTo b a w).dep c) =
      if c = b then ((w.dep b).depInCount - 1, (w.dep b).depInSet, (w.dep b).depOutSet) else edges (w.dep c)) ∧
    (reportTo b a w).tasks = w.tasks ++ if (w.dep b).depInCount - 1 = 0 then [.dependencyCommit b] else [] := by
  have hd c : edges ((w.updateDep b fun d => { d with depInCount := d.depInCount - 1 }).dep c) =
      if c = b then ((w.dep b).depInCount - 1, (w.dep b).depInSet, (w.dep b).depOutSet) else edges (w.dep c) := by
    rw [updateDep_dep_apply]; split <;> rfl
  unfold reportTo
  simp only [if_pos (And.intro hin hpos)]
  split
  · exact ⟨hd, rfl⟩
  · exact ⟨hd, (List.append_nil _).symm⟩

theorem dependencyCommit_frame (x : Nat) :
    (dependencyCommit x w).tasks = w.tasks ∧ ∀ b, edges ((dependencyCommit x w).dep b) = edges (w.dep b) := by
  have hflag : ∀ (u : State) (f : Dependency → Dependency), (∀ d, edges (f d) = edges d) →
      ∀ b, edges ((u.updateDep x f).dep b) = edges (u.dep b) := fun u f hf b => by
    rw [updateDep_dep_apply]; split
    · rename_i h; rw [h]; exact hf _
    · rfl
  have h₁ := hflag w (fun d => { d with dependencyCommitted := true }) fun _ => rfl
  unfold dependencyCommit dlvTryTxPrepareCommit dlvTryTxCommit
  dsimp only
  split
  · split
    · exact ⟨rfl, fun b => (hflag _ (fun d => { d with dlvPrepare := true }) (fun _ => rfl) b).trans (h₁ b)⟩
    · exact ⟨rfl, h₁⟩
  · split
    · exact ⟨rfl, fun b => (hflag _ (fun d => { d with dlvCommit := true }) (fun _ => rfl) b).trans (h₁ b)⟩
    · exact ⟨rfl, h₁⟩

theorem registerDependency_cases (xid out : Nat) (w : State) :
    registerDependency xid out w = w ∨
      xid ≠ out ∧ out ∉ (w.dep xid).depOutSet ∧ registerDependency xid out w =
        ((w.updateDep out fun d => { d with depInCount := d.depInCount + 1, depInSet := d.depInSet.insert xid })
          |>.updateDep xid fun d => { d with depOutSet := d.depOutSet.insert out }) := by
  unfold registerDependency
  split
  · exact .inl rfl
  rename_i hxo
  split
  · exact .inl rfl
  split
  · exact .inl rfl
  split
  · exact .inl rfl
  rename_i hnew
  exact .inr ⟨hxo, hnew, rfl⟩

theorem ledger_registerDependency (hl : Ledger R w g) (xid out : Nat) : Ledger R (registerDependency xid out w) g := by
  rcases registerDependency_cases xid out w with h | ⟨hxo, hnew, h⟩
  · rw [h]; exact hl
  have hin : xid ∉ (w.dep out).depInSet := fun h => hnew ((hl.consistent.agree xid out).2 h)
  have hset b : (registerDependency xid out w).dep b = if b = out then
      { w.dep out with depInCount := (w.dep out).depInCount + 1, depInSet := xid :: (w.dep out).depInSet }
      else if b = xid then { w.dep xid with depOutSet := out :: (w.dep xid).depOutSet } else w.dep b := by
    rw [h]
    simp only [updateDep_dep_apply, List.insert_of_not_mem hin, List.insert_of_not_mem hnew]
    by_cases hb : b = out
    · subst hb; simp [Ne.symm hxo]
    · by_cases hbx : b = xid
      · subst hbx; simp [hxo, List.insert_of_not_mem hnew]
      · simp [hb, hbx]
  have hgrow b : (w.dep b).depInSet <:+ ((registerDependency xid out w).dep b).depInSet := by
    rw [hset]
    split
    · rename_i hb; subst hb; exact List.suffix_cons _ _
    · split
      · rename_i hbx; subst hbx; exact List.suffix_refl _
      · exact List.suffix_refl _
  have ht : (registerDependency xid out w).tasks = w.tasks := by rw [h]; rfl
  refine ⟨consistent_registerDependency hl.consistent xid out, fun b => ?_, fun b => ?_, fun b => ?_,
    fun b a h => ?_, fun b a h => ?_, ht ▸ hl.pendingNodup,
    fun b S h => ⟨(hl.posts b S h).1, (hl.posts b S h).2.trans (hgrow b)⟩, hl.postsNodup, ht ▸ hl.queued⟩
  · rw [hset]; split
    · exact List.nodup_cons.2 ⟨hin, hl.inNodup out⟩
    · split
      · exact hl.inNodup xid
      · exact hl.inNodup b
  · rw [hset]; split
    · exact hl.outNodup out
    · split
      · exact List.nodup_cons.2 ⟨hnew, hl.outNodup xid⟩
      · exact hl.outNodup b
  · rw [hset]; split
    · rename_i hb; subst hb
      rw [List.filter_cons_of_pos (by simpa using fun h => hin (hl.ran b xid h).1), List.length_cons, hl.count]
    · split
      · rename_i hbx; subst hbx; exact hl.count b
      · exact hl.count b
  · exact ⟨(hgrow b).subset (hl.ran b a h).1, (hl.ran b a h).2⟩
  · obtain ⟨h₁, h₂, h₃⟩ := hl.pending b a (ht ▸ h)
    exact ⟨(hgrow b).subset h₁, h₂, h₃⟩

theorem ledger_reportDependency (hl : Ledger R w g) {xid : Nat} (hx : xid ∉ R) :
    Ledger (R ++ [xid]) (reportDependency xid w) g := by
  have hrel : releases (reportDependency xid w).tasks = releases w.tasks ++ (w.dep xid).depOutSet.map (·, xid) := by
    simp [reportDependency, releases_map_reportTo]
  have hold : ∀ p ∈ releases w.tasks, p.2 ∈ R := fun p hp => (hl.pending p.1 p.2 hp).2.2
  refine ⟨hl.consistent, hl.inNodup, hl.outNodup, hl.count,
    fun b a h => ⟨(hl.ran b a h).1, List.mem_append_left _ (hl.ran b a h).2⟩, fun b a h => ?_, ?_, hl.posts,
    hl.postsNodup, fun b h => hl.queued b ?_⟩
  · rw [hrel] at h
    rcases List.mem_append.1 h with h | h
    · obtain ⟨h₁, h₂, h₃⟩ := hl.pending b a h
      exact ⟨h₁, h₂, List.mem_append_left _ h₃⟩
    · obtain ⟨b', hb, he⟩ := List.mem_map.1 h
      cases he
      exact ⟨(hl.consistent.agree xid b).1 hb, fun hr => hx (hl.ran b xid hr).2, List.mem_append_right _ (List.mem_singleton_self _)⟩
  · rw [hrel]
    refine List.nodup_append.2 ⟨hl.pendingNodup, (hl.outNodup xid).map fun _ _ h => congrArg Prod.fst h, ?_⟩
    intro p hp hp'
    obtain ⟨_, -, rfl⟩ := List.mem_map.1 hp'
    exact hx (hold _ hp)
  · rcases List.mem_append.1 h with h | h
    · exact h
    · obtain ⟨_, -, he⟩ := List.mem_map.1 h
      cases he

theorem filter_release_self {l : List Nat} {ran : List (Nat × Nat)} {b a : Nat} (hl : l.Nodup) :
    (l.filter fun x => (b, x) ∉ ran ++ [(b, a)]) = (l.filter fun x => (b, x) ∉ ran).erase a := by
  rw [(hl.filter _).erase_eq_filter, List.filter_filter]
  refine List.filter_congr fun x _ => ?_
  by_cases hx : x = a
  · subst hx; simp
  · simp [hx]

theorem filter_release_other {l : List Nat} {ran : List (Nat × Nat)} {b a c : Nat} (hc : c ≠ b) :
    (l.filter fun x => (c, x) ∉ ran ++ [(b, a)]) = l.filter fun x => (c, x) ∉ ran :=
  List.filter_congr fun x _ => by simp [hc]

theorem Ledger.unposted (hl : Ledger R w g) {b : Nat} (hpos : 0 < (w.dep b).depInCount) :
    (b, (w.dep b).depInSet) ∉ g.posts := fun hp => by
  have hnil : ((w.dep b).depInSet.filter fun x => (b, x) ∉ g.ran) = [] :=
    List.filter_eq_nil_iff.2 fun x hx => by simpa using (hl.posts b _ hp).1 x hx
  rw [hl.count b, hnil] at hpos
  exact Nat.lt_irrefl 0 hpos

theorem Ledger.last_release (hl : Ledger R w g) {b a : Nat}
    (hfa : a ∈ (w.dep b).depInSet.filter fun x => (b, x) ∉ g.ran) (h0 : (w.dep b).depInCount - 1 = 0) :
    ∀ x ∈ (w.dep b).depInSet, (b, x) ∈ g.ran ++ [(b, a)] := by
  intro x hx
  have hlen : ((w.dep b).depInSet.filter fun x => (b, x) ∉ g.ran ++ [(b, a)]).length = 0 := by
    rw [filter_release_self (hl.inNodup b), List.length_erase_of_mem hfa, ← hl.count b]; exact h0
  have := List.filter_eq_nil_iff.1 (List.eq_nil_of_length_eq_zero hlen) x hx
  simp only [decide_eq_true_eq, not_not] at this
  exact this

theorem ledger_release (hl : Ledger R w g) {n b a : Nat} (h : w.tasks.get? n = some (.reportTo b a)) :
    Ledger R (reportTo b a { w with tasks := w.tasks.eraseIdx n })
      { ran := g.ran ++ [(b, a)],
        posts := g.posts ++ if a ∈ (w.dep b).depInSet ∧ 0 < (w.dep b).depInCount ∧ (w.dep b).depInCount - 1 = 0
          then [(b, (w.dep b).depInSet)] else [] } := by
  obtain ⟨hmem, hgone⟩ := releases_eraseIdx h hl.pendingNodup
  have hsub : (releases (w.tasks.eraseIdx n)).Sublist (releases w.tasks) :=
    (List.eraseIdx_sublist _ _).filterMap _
  obtain ⟨hin, hnr, hR⟩ := hl.pending b a hmem
  have hfa : a ∈ (w.dep b).depInSet.filter fun x => (b, x) ∉ g.ran := List.mem_filter.2 ⟨hin, by simpa using hnr⟩
  have hpos : 0 < (w.dep b).depInCount := hl.count b ▸ List.length_pos_of_mem hfa
  obtain ⟨hdep, htasks⟩ := reportTo_of_guard (w := { w with tasks := w.tasks.eraseIdx n }) hin hpos
  have hrest : releases (reportTo b a { w with tasks := w.tasks.eraseIdx n }).tasks =
      releases (w.tasks.eraseIdx n) := by
    rw [htasks, releases_append]; split <;> simp
  have hi c : ((reportTo b a { w with tasks := w.tasks.eraseIdx n }).dep c).depInSet = (w.dep c).depInSet := by
    have := congrArg (·.2.1) (hdep c); dsimp only [edges] at this; rw [this]; split <;> simp_all
  have ho c : ((reportTo b a { w with tasks := w.tasks.eraseIdx n }).dep c).depOutSet = (w.dep c).depOutSet := by
    have := congrArg (·.2.2) (hdep c); dsimp only [edges] at this; rw [this]; split <;> simp_all
  simp only [hin, hpos, true_and]
  refine ⟨consistent_runTask (w := { w with tasks := w.tasks.eraseIdx n }) hl.consistent (.reportTo b a),
    fun c => hi c ▸ hl.inNodup c, fun c => ho c ▸ hl.outNodup c, fun c => ?_, fun c x hx => ?_, fun c x hx => ?_,
    hrest ▸ hl.pendingNodup.sublist hsub, fun c S hS => ?_, ?_, fun c hc => ?_⟩
  · have := congrArg (·.1) (hdep c); dsimp only [edges] at this
    rw [hi, this]
    split
    · rename_i hc; subst hc
      rw [filter_release_self (hl.inNodup c), List.length_erase_of_mem hfa, hl.count]
    · rename_i hc; rw [filter_release_other hc, hl.count]
  · rw [hi]
    rcases List.mem_append.1 hx with hx | hx
    · exact hl.ran c x hx
    · obtain ⟨rfl, rfl⟩ := Prod.mk.inj (List.mem_singleton.1 hx)
      exact ⟨hin, hR⟩
  · rw [hrest] at hx
    obtain ⟨h₁, h₂, h₃⟩ := hl.pending c x (hsub.subset hx)
    refine ⟨hi c ▸ h₁, fun hr => ?_, h₃⟩
    rcases List.mem_append.1 hr with hr | hr
    · exact h₂ hr
    · exact hgone (List.mem_singleton.1 hr ▸ hx)
  · rw [hi]
    rcases List.mem_append.1 hS with hS | hS
    · exact ⟨fun x hx => List.mem_append_left _ ((hl.posts c S hS).1 x hx), (hl.posts c S hS).2⟩
    · split at hS
      · rename_i h0
        obtain ⟨rfl, rfl⟩ := Prod.mk.inj (List.mem_singleton.1 hS)
        exact ⟨hl.last_release hfa h0, List.suffix_refl _⟩
      · cases hS
  · split
    · exact List.nodup_append.2 ⟨hl.postsNodup, List.nodup_singleton _,
        fun p hp hp' => hl.unposted hpos (List.mem_singleton.1 hp' ▸ hp)⟩
    · rw [List.append_nil]; exact hl.postsNodup
  · rw [htasks] at hc
    rcases List.mem_append.1 hc with hc | hc
    · obtain ⟨S, hS⟩ := hl.queued c ((List.eraseIdx_sublist _ _).subset hc)
      exact ⟨S, List.mem_append_left _ hS⟩
    · split at hc
      · obtain rfl := Task.dependencyCommit.inj (List.mem_singleton.1 hc)
        exact ⟨_, List.mem_append_right _ (by rw [if_pos ‹_›]; exact List.mem_singleton_self _)⟩
      · cases hc

theorem ledger_runTask (hl : Ledger R w g) (n : Nat) : Ledger R (w.step (.runTask n)) (g.record w (.runTask n)) := by
  cases h : w.tasks.get? n with
  | none => simp only [State.step, Ghost.record, h]; exact hl
  | some t =>
    cases t with
    | reportTo b a => simp only [State.step, Ghost.record, h, runTask]; exact ledger_release hl h
    | dependencyCommit x =>
      simp only [State.step, Ghost.record, h, runTask]
      obtain ⟨ht, he⟩ := dependencyCommit_frame (w := { w with tasks := w.tasks.eraseIdx n }) x
      refine hl.of_frame he ?_ fun b hb => ?_
      · rw [ht]; exact (List.eraseIdx_sublist _ _).filterMap _
      · rw [ht] at hb; exact (List.eraseIdx_sublist _ _).subset hb

theorem reporters_cons (a : Action) (as : List Action) : reporters (a :: as) = reporters [a] ++ reporters as := by
  cases a <;> rfl

theorem ledger_step (hl : Ledger R w g) (a : Action) (hx : ∀ x ∈ reporters [a], x ∉ R) :
    Ledger (R ++ reporters [a]) (w.step a) (g.record w a) := by
  cases a with
  | context xid e =>
    rw [show reporters [.context xid e] = [] from rfl, List.append_nil]
    exact hl.of_frame (fun _ => rfl) (List.Sublist.refl _) fun _ h => h
  | registerDependency xid out =>
    rw [show reporters [.registerDependency xid out] = [] from rfl, List.append_nil]
    exact ledger_registerDependency hl xid out
  | reportDependency xid => exact ledger_reportDependency hl (hx xid (List.mem_singleton_self _))
  | runTask n => rw [show reporters [.runTask n] = [] from rfl, List.append_nil]; exact ledger_runTask hl n

theorem ledger_run (hl : Ledger R w g) (as : List Action) (hnd : (reporters as).Nodup)
    (hx : ∀ x ∈ reporters as, x ∉ R) : Ledger (R ++ reporters as) (runGhost (w, g) as).1 (runGhost (w, g) as).2 := by
  induction as generalizing R w g with
  | nil => rw [show reporters [] = [] from rfl, List.append_nil]; exact hl
  | cons a as ih =>
    rw [reporters_cons] at hnd hx ⊢
    obtain ⟨-, hnd', hdis⟩ := List.nodup_append.1 hnd
    have hl' := ledger_step hl a fun x h => hx x (List.mem_append_left _ h)
    rw [← List.append_assoc]
    refine ih hl' hnd' fun x h h' => ?_
    rcases List.mem_append.1 h' with h' | h'
    · exact hx x (List.mem_append_right _ h) h'
    · exact hdis h' h

structure Accounted (reported : List Nat) (w : State) (g : Ghost) : Prop where
  agree : ∀ a b, b ∈ (w.dep a).depOutSet ↔ a ∈ (w.dep b).depInSet
  count : ∀ b, (w.dep b).depInCount = ((w.dep b).depInSet.filter fun a => (b, a) ∉ g.ran).length
  released : ∀ b S, (b, S) ∈ g.posts → ∀ a ∈ S, (b, a) ∈ g.ran ∧ a ∈ reported
  postedOnce : g.posts.Nodup
  queued : ∀ b, Task.dependencyCommit b ∈ w.tasks → ∃ S, (b, S) ∈ g.posts

/-- As long as each context reports at most once, every in-count is the number of in-edges whose
release has not run, and `dependency_commit` is posted only once every in-edge is released. -/
theorem release_count_tracks_reports (distributed : Nat → Bool) (access : Key → Option String)
    (req : Nat → TxRequest) (as : List Action) (hrep : (reporters as).Nodup) :
    Accounted (reporters as) ((State.start distributed access req).run as)
      (runGhost (State.start distributed access req, {}) as).2 := by
  have hl := ledger_run (ledger_start distributed access req) as hrep fun _ _ => List.not_mem_nil _
  rw [runGhost_fst, List.nil_append] at hl
  exact ⟨hl.consistent.agree, hl.count,
    fun b S h a ha => ⟨(hl.posts b S h).1 a ha, (hl.ran b a ((hl.posts b S h).1 a ha)).2⟩, hl.postsNodup, hl.queued⟩

theorem two_feeders_report_once :
    (reporters [.registerDependency 1 3, .registerDependency 2 3, .reportDependency 1, .reportDependency 2,
      .runTask 0, .runTask 0]).Nodup ∧
    Accounted (reporters [.registerDependency 1 3, .registerDependency 2 3, .reportDependency 1,
        .reportDependency 2, .runTask 0, .runTask 0])
      ((State.start (fun _ => false) (fun _ => none) (fun _ => ⟨false, false, false, 0, []⟩)).run
        [.registerDependency 1 3, .registerDependency 2 3, .reportDependency 1, .reportDependency 2,
          .runTask 0, .runTask 0])
      (runGhost (State.start (fun _ => false) (fun _ => none) (fun _ => ⟨false, false, false, 0, []⟩), {})
        [.registerDependency 1 3, .registerDependency 2 3, .reportDependency 1, .reportDependency 2,
          .runTask 0, .runTask 0]).2 :=
  ⟨by decide, release_count_tracks_reports (fun _ => false) (fun _ => none) (fun _ => ⟨false, false, false, 0, []⟩)
    [.registerDependency 1 3, .registerDependency 2 3, .reportDependency 1, .reportDependency 2,
      .runTask 0, .runTask 0] (by decide)⟩

theorem repeated_report_releases_early :
    (((State.start (fun _ => false) (fun _ => none) (fun _ => ⟨false, false, false, 0, []⟩)).run
        [.registerDependency 1 3, .registerDependency 2 3, .reportDependency 1, .reportDependency 1,
          .runTask 0, .runTask 0]).dep 3).depInCount = 0 ∧
      2 ∈ (((State.start (fun _ => false) (fun _ => none) (fun _ => ⟨false, false, false, 0, []⟩)).run
        [.registerDependency 1 3, .registerDependency 2 3, .reportDependency 1, .reportDependency 1,
          .runTask 0, .runTask 0]).dep 3).depInSet ∧
      2 ∉ reporters [.registerDependency 1 3, .registerDependency 2 3, .reportDependency 1, .reportDependency 1,
          .runTask 0, .runTask 0] ∧
      Task.dependencyCommit 3 ∈ ((State.start (fun _ => false) (fun _ => none)
        (fun _ => ⟨false, false, false, 0, []⟩)).run
        [.registerDependency 1 3, .registerDependency 2 3, .reportDependency 1, .reportDependency 1,
          .runTask 0, .runTask 0]).tasks := by
  decide

end Tddb.Accounting
