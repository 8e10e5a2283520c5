import Tddb.World

namespace Tddb.Dependency

open Tddb.Types Tddb.Context Tddb.Commit Tddb.Step Tddb.World

/-- The dependency graph as the contexts keep it: both ends record each edge, no transaction
depends on itself, and an in-count never exceeds the in-edges. -/
structure Consistent (dep : Nat → Dependency) : Prop where
  agree : ∀ a b, b ∈ (dep a).depOutSet ↔ a ∈ (dep b).depInSet
  irreflexive : ∀ a, a ∉ (dep a).depOutSet
  bounded : ∀ a, (dep a).depInCount ≤ (dep a).depInSet.length

variable {w : State}

theorem Consistent.of_le (hc : Consistent d) (hsets : ∀ a, (d' a).depInSet = (d a).depInSet ∧
      (d' a).depOutSet = (d a).depOutSet) (hcount : ∀ a, (d' a).depInCount ≤ (d a).depInCount) :
    Consistent d' :=
  ⟨fun a b => by rw [(hsets a).2, (hsets b).1]; exact hc.agree a b,
    fun a => by rw [(hsets a).2]; exact hc.irreflexive a,
    fun a => by rw [(hsets a).1]; exact Nat.le_trans (hcount a) (hc.bounded a)⟩

theorem updateDep_dep_apply (w : State) (x : Nat) (f : Dependency → Dependency) (a : Nat) :
    (w.updateDep x f).dep a = if a = x then f (w.dep x) else w.dep a := by
  simp [State.updateDep, Function.update_apply]

theorem consistent_updateDep (hc : Consistent w.dep) (x : Nat) (f : Dependency → Dependency)
    (hf : ∀ d, (f d).depInSet = d.depInSet ∧ (f d).depOutSet = d.depOutSet ∧ (f d).depInCount ≤ d.depInCount) :
    Consistent (w.updateDep x f).dep :=
  hc.of_le
    (fun a => by
      rw [updateDep_dep_apply]
      split
      · rename_i h; subst h; exact ⟨(hf _).1, (hf _).2.1⟩
      · exact ⟨rfl, rfl⟩)
    fun a => by
      rw [updateDep_dep_apply]
      split
      · rename_i h; subst h; exact (hf _).2.2
      · exact Nat.le_refl _

theorem consistent_registerDependency (hc : Consistent w.dep) (xid out : Nat) :
    Consistent (registerDependency xid out w).dep := by
  unfold registerDependency
  split
  · exact hc
  split
  · exact hc
  split
  · exact hc
  split
  · exact hc
  rename_i hxo _ _ hnew
  have hin : xid ∉ (w.dep out).depInSet := fun h => hnew ((hc.agree xid out).2 h)
  refine ⟨fun a b => ?_, fun a => ?_, fun a => ?_⟩ <;> simp only [updateDep_dep_apply]
  · by_cases ha : a = xid <;> by_cases hb : b = out <;> by_cases hab : a = out <;> by_cases hbx : b = xid <;>
      simp_all [List.mem_insert_iff, hc.agree]
  · by_cases ha : a = xid <;> by_cases hab : a = out <;> simp_all [List.mem_insert_iff, hc.irreflexive]
  · have hb := hc.bounded a
    by_cases ha : a = xid <;> by_cases hab : a = out
    · exact absurd (ha.symm.trans hab) hxo
    · simp [ha, hab, hxo] at hb ⊢; exact hb
    · subst hab
      simp only [ha, if_false, if_true, List.length_insert_of_not_mem hin]
      omega
    · simp only [ha, hab, if_false]; exact hb

theorem consistent_runTask (hc : Consistent w.dep) (t : Task) : Consistent (runTask t w).dep := by
  cases t with
  | reportTo target source =>
    show Consistent (reportTo target source w).dep
    unfold reportTo
    dsimp only
    split
    · have h := consistent_updateDep hc target (fun d => { d with depInCount := d.depInCount - 1 })
        fun d => ⟨rfl, rfl, Nat.sub_le _ _⟩
      split <;> exact h
    · exact hc
  | dependencyCommit xid =>
    have h := consistent_updateDep hc xid (fun d => { d with dependencyCommitted := true })
      fun d => ⟨rfl, rfl, Nat.le_refl _⟩
    show Consistent (dependencyCommit xid w).dep
    unfold dependencyCommit dlvTryTxPrepareCommit dlvTryTxCommit
    dsimp only
    split
    · split
      · exact consistent_updateDep h xid (fun d => { d with dlvPrepare := true })
          fun d => ⟨rfl, rfl, Nat.le_refl _⟩
      · exact h
    · split
      · exact consistent_updateDep h xid (fun d => { d with dlvCommit := true })
          fun d => ⟨rfl, rfl, Nat.le_refl _⟩
      · exact h

theorem consistent_step (hc : Consistent w.dep) (a : Action) : Consistent (w.step a).dep := by
  cases a with
  | context xid e => exact hc
  | registerDependency xid out => exact consistent_registerDependency hc xid out
  | reportDependency xid => exact hc
  | runTask n =>
    simp only [State.step]
    split
    · exact consistent_runTask (w := { w with tasks := w.tasks.eraseIdx n }) hc _
    · exact hc

/-- However registrations, reports, tasks and the contexts' own events interleave, the graph stays
consistent; nothing keeps two transactions from depending on each other. -/
theorem dependency_graph_consistent (distributed : Nat → Bool) (access : Key → Option String)
    (req : Nat → TxRequest) (as : List Action) :
    Consistent ((State.start distributed access req).run as).dep := by
  suffices h : ∀ (w : State), Consistent w.dep → Consistent (w.run as).dep from
    h _ ⟨fun _ _ => by simp [State.start], fun _ => by simp [State.start], fun _ => by simp [State.start]⟩
  induction as with
  | nil => exact fun _ hc => hc
  | cons a as ih => exact fun w hc => ih _ (consistent_step hc a)

theorem opposite_registrations_close_cycle :
    2 ∈ (((State.start (fun _ => false) (fun _ => none) (fun _ => ⟨false, false, false, 0, []⟩)).run
        [.registerDependency 1 2, .registerDependency 2 1]).dep 1).depOutSet ∧
      1 ∈ (((State.start (fun _ => false) (fun _ => none) (fun _ => ⟨false, false, false, 0, []⟩)).run
        [.registerDependency 1 2, .registerDependency 2 1]).dep 2).depOutSet := by
  decide

theorem dlvAbort_dep : ∀ {fuel xid w w'}, dlvAbort fuel xid w = some w' → w'.dep = w.dep
  | 0, _, _, _, h => nomatch h
  | fuel + 1, xid, w, w', h => by
    simp only [dlvAbort, bind, Option.bind_eq_some, pure, Option.some.injEq] at h
    obtain ⟨v, hv, rfl⟩ := h
    have hfold : ∀ (l : List Nat) (u u' : State),
        l.foldlM (fun u out => dlvAbort fuel out u) u = some u' → u'.dep = u.dep := by
      intro l
      induction l with
      | nil => intro u u' h; cases h; rfl
      | cons o l ih =>
        intro u u' h
        simp only [List.foldlM_cons, bind, Option.bind_eq_some] at h
        obtain ⟨m, hm, hl⟩ := h
        exact (ih m u' hl).trans (dlvAbort_dep hm)
    rw [← hfold _ w v hv]
    split <;> rfl

theorem foldlM_eq_none {g : State → Nat → Option State} {d : Nat → Dependency} {b : Nat}
    (hg : ∀ u o u', g u o = some u' → u'.dep = u.dep) (hb : ∀ u, u.dep = d → g u b = none) :
    ∀ (l : List Nat) (u : State), b ∈ l → u.dep = d → l.foldlM g u = none
  | o :: l, u, hmem, hu => by
    rw [List.foldlM_cons]
    cases h : g u o with
    | none => rfl
    | some m =>
      rcases List.mem_cons.1 hmem with rfl | hl
      · rw [hb u hu] at h; cases h
      · exact foldlM_eq_none hg hb l m hl ((hg u o m h).trans hu)

theorem dlvAbort_cycle {a b : Nat} {d : Nat → Dependency} (hab : b ∈ (d a).depOutSet)
    (hba : a ∈ (d b).depOutSet) :
    ∀ (fuel : Nat) (u : State), u.dep = d → dlvAbort fuel a u = none ∧ dlvAbort fuel b u = none
  | 0, _, _ => ⟨rfl, rfl⟩
  | fuel + 1, u, hu => by
    have hg : ∀ u o u', dlvAbort fuel o u = some u' → u'.dep = u.dep := fun _ _ _ => dlvAbort_dep
    have ih := dlvAbort_cycle hab hba fuel
    simp only [dlvAbort, hu]
    rw [foldlM_eq_none hg (fun u hu => (ih u hu).2) _ u hab hu,
      foldlM_eq_none hg (fun u hu => (ih u hu).1) _ u hba hu]
    exact ⟨rfl, rfl⟩

/-- Two idle transactions may register with each other, and `dlv_abort` of either then follows the
cycle without end: no fuel is enough. -/
theorem cascade_abort_diverges (fuel : Nat) :
    dlvAbort fuel 1 ((State.start (fun _ => false) (fun _ => none) (fun _ => ⟨false, false, false, 0, []⟩)).run
      [.registerDependency 1 2, .registerDependency 2 1]) = none :=
  (dlvAbort_cycle (b := 2) (by decide) (by decide) fuel _ rfl).1

inductive Reaches (dep : Nat → Dependency) : Nat → Nat → Prop
  | refl (a : Nat) : Reaches dep a a
  | step {a b c : Nat} : b ∈ (dep a).depOutSet → Reaches dep b c → Reaches dep a c

theorem reaches_iff {dep : Nat → Dependency} {a c : Nat} :
    Reaches dep a c ↔ c = a ∨ ∃ b ∈ (dep a).depOutSet, Reaches dep b c := by
  constructor
  · rintro (_ | ⟨hb, hr⟩)
    · exact .inl rfl
    · exact .inr ⟨_, hb, hr⟩
  · rintro (rfl | ⟨b, hb, hr⟩)
    · exact .refl _
    · exact .step hb hr

def RankedBy (rank : Nat → Nat) (dep : Nat → Dependency) : Prop :=
  ∀ a b, b ∈ (dep a).depOutSet → rank b < rank a

def Marks (dep : Nat → Dependency) (a c : Nat) : Prop := Reaches dep a c ∧ 0 < (dep c).depInCount

structure Cascaded (S : Nat → Prop) (w w' : State) : Prop where
  dep : w'.dep = w.dep
  tasks : w'.tasks = w.tasks
  marked : ∀ c, S c → w'.ctx c = { w.ctx c with errorCode := .cascade }
  other : ∀ c, ¬S c → w'.ctx c = w.ctx c

section Cascade

variable {S S' : Nat → Prop} {w₁ w₂ : State}

theorem Cascaded.congr (h : Cascaded S w w') (hS : ∀ c, S c ↔ S' c) : Cascaded S' w w' :=
  ⟨h.dep, h.tasks, fun c hc => h.marked c ((hS c).2 hc), fun c hc => h.other c (mt (hS c).1 hc)⟩

theorem Cascaded.trans (h₁ : Cascaded S w w₁) (h₂ : Cascaded S' w₁ w₂) : Cascaded (fun c => S c ∨ S' c) w w₂ := by
  refine ⟨h₂.dep.trans h₁.dep, h₂.tasks.trans h₁.tasks, fun c hc => ?_, fun c hc => ?_⟩
  · by_cases h' : S' c
    · rw [h₂.marked c h']
      by_cases h : S c
      · rw [h₁.marked c h]
      · rw [h₁.other c h]
    · rw [h₂.other c h', h₁.marked c (hc.resolve_right h')]
  · rw [h₂.other c fun h => hc (.inr h), h₁.other c fun h => hc (.inl h)]

theorem cascaded_refl : Cascaded (fun _ => False) w w := ⟨rfl, rfl, fun _ h => h.elim, fun _ _ => rfl⟩

theorem cascaded_updateCtx (xid : Nat) :
    Cascaded (· = xid) w (w.updateCtx xid (fun s => { s with errorCode := .cascade }) fun _ => rfl) := by
  refine ⟨rfl, rfl, fun c hc => ?_, fun c hc => ?_⟩
  · subst hc; exact Function.update_same _ _ _
  · exact Function.update_noteq hc _ _

end Cascade

theorem foldlM_dlvAbort (rank : Nat → Nat) (fuel : Nat)
    (ih : ∀ w : State, RankedBy rank w.dep → ∀ o, rank o < fuel →
      ∃ w', dlvAbort fuel o w = some w' ∧ Cascaded (Marks w.dep o) w w') :
    ∀ (l : List Nat) (w : State), RankedBy rank w.dep → (∀ o ∈ l, rank o < fuel) →
      ∃ w', l.foldlM (fun w out => dlvAbort fuel out w) w = some w' ∧
        Cascaded (fun c => ∃ o ∈ l, Marks w.dep o c) w w'
  | [], w, _, _ => ⟨w, rfl, cascaded_refl.congr fun c => by simp⟩
  | o :: l, w, hr, hl => by
    obtain ⟨w₁, h₁, hc₁⟩ := ih w hr o (hl o (List.mem_cons_self _ _))
    obtain ⟨w₂, h₂, hc₂⟩ := foldlM_dlvAbort rank fuel ih l w₁ (hc₁.dep ▸ hr)
      fun o ho => hl o (List.mem_cons_of_mem _ ho)
    refine ⟨w₂, by rw [List.foldlM_cons, h₁]; exact h₂, (hc₁.trans hc₂).congr fun c => ?_⟩
    rw [hc₁.dep]
    simp only [List.mem_cons, exists_eq_or_imp]

/-- On a graph where every out-edge lowers the rank, `dlv_abort` returns once its fuel exceeds the
rank and marks `EC_CASCADE` exactly the contexts it reaches over positive in-counts. -/
theorem dlvAbort_cascades (rank : Nat → Nat) :
    ∀ (fuel : Nat) (w : State), RankedBy rank w.dep → ∀ xid, rank xid < fuel →
      ∃ w', dlvAbort fuel xid w = some w' ∧ Cascaded (Marks w.dep xid) w w'
  | 0, _, _, _, h => absurd h (Nat.not_lt_zero _)
  | fuel + 1, w, hr, xid, hx => by
    obtain ⟨v, hv, hc⟩ := foldlM_dlvAbort rank fuel (dlvAbort_cascades rank fuel) _ w hr
      fun o ho => Nat.lt_of_lt_of_le (hr xid o ho) (Nat.lt_succ_iff.1 hx)
    have hmarks : ∀ c, Marks w.dep xid c ↔ (∃ o ∈ (w.dep xid).depOutSet, Marks w.dep o c) ∨
        (c = xid ∧ 0 < (w.dep xid).depInCount) := fun c => by
      unfold Marks
      rw [reaches_iff]
      constructor
      · rintro ⟨rfl | ⟨b, hb, hr⟩, hp⟩
        · exact .inr ⟨rfl, hp⟩
        · exact .inl ⟨b, hb, hr, hp⟩
      · rintro (⟨b, hb, hr, hp⟩ | ⟨rfl, hp⟩)
        · exact ⟨.inr ⟨b, hb, hr⟩, hp⟩
        · exact ⟨.inl rfl, hp⟩
    simp only [dlvAbort, bind, Option.bind_eq_some, hv, pure, Option.some.injEq, exists_eq_left']
    split
    · rename_i hp
      rw [hc.dep] at hp
      exact (hc.trans (cascaded_updateCtx xid)).congr fun c => by rw [hmarks]; simp [hp]
    · rename_i hp
      rw [hc.dep] at hp
      exact hc.congr fun c => by rw [hmarks]; simp [hp]

theorem chain_cascade_returns :
    RankedBy (fun a => if a = 1 then 1 else 0) ((State.start (fun _ => false) (fun _ => none)
      (fun _ => ⟨false, false, false, 0, []⟩)).run [.registerDependency 1 2]).dep ∧
    (fun a => if a = 1 then 1 else 0) 1 < 2 ∧
    ∃ w', dlvAbort 2 1 ((State.start (fun _ => false) (fun _ => none)
        (fun _ => ⟨false, false, false, 0, []⟩)).run [.registerDependency 1 2]) = some w' ∧
      Cascaded (Marks ((State.start (fun _ => false) (fun _ => none)
        (fun _ => ⟨false, false, false, 0, []⟩)).run [.registerDependency 1 2]).dep 1)
        ((State.start (fun _ => false) (fun _ => none) (fun _ => ⟨false, false, false, 0, []⟩)).run
          [.registerDependency 1 2]) w' := by
  have hr : RankedBy (fun a => if a = 1 then 1 else 0) ((State.start (fun _ => false) (fun _ => none)
      (fun _ => ⟨false, false, false, 0, []⟩)).run [.registerDependency 1 2]).dep := by
    have h₁ : (start 1 0 false (fun _ => none) ⟨false, false, false, 0, []⟩).state = .idle := by decide
    have h₂ : (start 2 0 false (fun _ => none) ⟨false, false, false, 0, []⟩).state = .idle := by decide
    intro a b h
    simp [State.run, State.step, registerDependency, State.updateDep, State.start, Function.update_apply, h₁, h₂] at h
    split at h
    · rename_i ha; subst ha; obtain rfl := List.mem_singleton.1 h; decide
    · split at h <;> exact absurd h (List.not_mem_nil _)
  exact ⟨hr, by decide, dlvAbort_cascades _ 2 _ hr 1 (by decide)⟩

/-- A dependent local transaction answers `EC_OK` on its COMMIT callback before its dependency
reports, and `dependency_commit` later commits it a second time. -/
theorem dependent_answered_before_report :
    Obs.clientResponse .ok 1 ∈ (((State.start (fun _ => false) (fun _ => some "v")
        (fun _ => ⟨false, false, true, 0, [⟨.read, ⟨1, 0, 7, ""⟩, 0, 0⟩]⟩)).run
        [.registerDependency 1 2, .context 2 (.notifyLockAcquire .ok), .context 2 .runPosted,
          .context 2 .logEntryCommit]).ctx 2).out ∧
    (((State.start (fun _ => false) (fun _ => some "v")
        (fun _ => ⟨false, false, true, 0, [⟨.read, ⟨1, 0, 7, ""⟩, 0, 0⟩]⟩)).run
        [.registerDependency 1 2, .context 2 (.notifyLockAcquire .ok), .context 2 .runPosted,
          .context 2 .logEntryCommit]).dep 2).depInCount = 1 ∧
    (((State.start (fun _ => false) (fun _ => some "v")
        (fun _ => ⟨false, false, true, 0, [⟨.read, ⟨1, 0, 7, ""⟩, 0, 0⟩]⟩)).run
        [.registerDependency 1 2, .context 2 (.notifyLockAcquire .ok), .context 2 .runPosted,
          .context 2 .logEntryCommit, .reportDependency 1, .runTask 0, .runTask 0]).ctx 2).out.count
        .txFinish = 2 := by
  decide

end Tddb.Dependency
