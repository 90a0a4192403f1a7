import LifeAI.Lib.Drain
import LifeAI.Tasks.Endings

/-!
# What a cancellation leaves of the dependents

The state with the task marked cancelled (`Db.marked`) is the base; everything after it only
promotes and blocks pending tasks and cancels doomed ones (`Fate`, `Drains`).

* `Db.Doomed`  a pending or blocked task that reaches a cancelled one through such tasks;
* `Drains`     how far a database is from its base, kept by a pass and by a recomputation;
* `cascade_drains`  the loop leaves by its own test, with every doomed task cancelled;
* `Cancellation` the ways in which a founder's cancellation ends a task.
-/

namespace LifeAI

variable {base db db' : Db} {g : GoalId} {c d i : TaskId} {q q' t : Task} {now : Time}
  {reason : String}

/-! ## the graph of a goal -/

/-- a pending or blocked task of the goal -/
def Task.openIn (g : GoalId) (t : Task) : Bool :=
  t.goalId = g ∧ (t.status = .pending ∨ t.status = .blocked)

theorem Task.openIn_iff : t.openIn g ↔ t.goalId = g ∧ (t.status = .pending ∨ t.status = .blocked) := by
  simp [openIn]

def Db.isOpen (db : Db) (g : GoalId) (c : TaskId) : Prop := db.tasks[c]?.any (Task.openIn g)

def Db.isCancelled (db : Db) (c : TaskId) : Bool := db.tasks[c]?.any (·.status = .cancelled)

/-- an open task of the goal that depends on a cancelled or on a doomed one -/
def Db.Doomed (db : Db) (g : GoalId) : TaskId → Prop :=
  Drain.Doomed db.dependsOn (db.isOpen g) (db.isCancelled ·)

/-- the pass would promote the task -/
def Db.promotes (db : Db) (c : TaskId) (t : Task) : Prop :=
  t.status = .pending ∧ db.readiness c = .ready

/-- the state with the task marked cancelled -/
def Db.marked (db : Db) (i : TaskId) (t : Task) : Db :=
  { db with tasks := db.tasks.set i { t with status := .cancelled } }

theorem Db.isOpen_of (ht : db.tasks[c]? = some t) : db.isOpen g c ↔ t.openIn g := by
  simp [isOpen, ht]

theorem Db.isCancelled_of (ht : db.tasks[c]? = some t) :
    db.isCancelled c ↔ t.status = .cancelled := by
  simp [isCancelled, ht]

/-! ## readiness and the completed tasks -/

theorem Db.readiness_eq_ready : db.readiness i = .ready ↔ db.depIds i = [] ∨
    ((db.statusRows (db.depIds i)).length = (db.depIds i).length ∧
      ∀ d ∈ db.depIds i, ∀ t, db.tasks[d]? = some t → t.status = .completed) := by
  have hall : ((db.statusRows (db.depIds i)).all fun r => r.2 = .completed) ↔
      ∀ d ∈ db.depIds i, ∀ t, db.tasks[d]? = some t → t.status = .completed := by
    rw [List.all_eq_true]
    constructor
    · intro h d hd t ht
      simpa using h (d, t.status) (Db.mem_statusRows.2 ⟨hd, t, ht, rfl⟩)
    · rintro h ⟨d, s⟩ hm
      obtain ⟨hd, t, ht, rfl⟩ := Db.mem_statusRows.1 hm
      simpa using h d hd t ht
  unfold readiness
  dsimp only
  by_cases hnil : db.depIds i = []
  · simp [hnil]
  · rw [if_neg hnil]
    simp only [hnil, false_or]
    split
    · next d s hf =>
      simp only [reduceCtorEq, false_iff, not_and]
      intro _ h
      obtain ⟨hd, t, ht, hs⟩ := Db.mem_statusRows.1 (List.mem_of_find?_eq_some hf)
      have hfail := List.find?_some hf
      rw [← hs, h d hd t ht] at hfail
      simp [TaskStatus.neverCompletes] at hfail
    · rw [← hall]
      split
      · next h => simpa using h
      · next h => simpa using h

/-- the verdict `ready` reads only which tasks are completed -/
theorem Db.readiness_ready_congr (hdeps : db.deps = base.deps)
    (hlen : db.tasks.length = base.tasks.length)
    (hcomp : ∀ (c : TaskId) q q', base.tasks[c]? = some q → db.tasks[c]? = some q' →
      (q'.status = .completed ↔ q.status = .completed)) :
    db.readiness i = .ready ↔ base.readiness i = .ready := by
  have hids : db.depIds i = base.depIds i := by rw [depIds, hdeps, depIds]
  have hrows : (db.statusRows (db.depIds i)).length =
      (base.statusRows (base.depIds i)).length := by
    have h1 := congrArg List.length (Db.statusRows_ids db (db.depIds i))
    have h2 := congrArg List.length (Db.statusRows_ids base (base.depIds i))
    rw [List.length_map] at h1 h2
    rw [h1, h2, hlen, hids]
  rw [readiness_eq_ready, readiness_eq_ready, hrows, hids]
  refine or_congr_right (and_congr_right fun _ => ?_)
  have hrow : ∀ (d : TaskId), (∀ t, db.tasks[d]? = some t → t.status = .completed) ↔
      ∀ t, base.tasks[d]? = some t → t.status = .completed := by
    intro d
    rcases Nat.lt_or_ge d db.tasks.length with hd | hd
    · have h1 := List.getElem?_eq_getElem hd
      have h2 := List.getElem?_eq_getElem (hlen ▸ hd)
      simp [h1, h2, hcomp d _ _ h2 h1]
    · simp [List.getElem?_eq_none hd, List.getElem?_eq_none (hlen ▸ hd)]
  exact ⟨fun h d hd => (hrow d).1 (h d hd), fun h d hd => (hrow d).2 (h d hd)⟩

/-! ## how far a drain has come -/

/-- what may have become of the row `q` of `base`: promoted, blocked, or cancelled because it was
doomed -/
def Fate (base : Db) (g : GoalId) (c : TaskId) (q : Task) (s : TaskStatus) : Prop :=
  s = q.status ∨
    (q.goalId = g ∧ q.status = .pending ∧
      (s = .ready ∧ base.readiness c = .ready ∨ s = .blocked ∧ base.readiness c ≠ .ready)) ∨
    (s = .cancelled ∧ base.Doomed g c)

structure Drains (base : Db) (g : GoalId) (db : Db) : Prop where
  deps : db.deps = base.deps
  length : db.tasks.length = base.tasks.length
  rows : ∀ (c : TaskId) q q', base.tasks[c]? = some q → db.tasks[c]? = some q' →
    q'.goalId = q.goalId ∧ Fate base g c q q'.status

theorem Db.Doomed.opened (h : base.Doomed g c) (hq : base.tasks[c]? = some q) : q.openIn g :=
  (Db.isOpen_of hq).1 (Drain.Doomed.opened h)

/-- rows come in pairs -/
theorem Drains.row (h : Drains base g db) (hq' : db.tasks[c]? = some q') :
    ∃ q, base.tasks[c]? = some q ∧ q'.goalId = q.goalId ∧ Fate base g c q q'.status := by
  have hc : c < base.tasks.length := h.length ▸ (List.getElem?_eq_some_iff.1 hq').1
  exact ⟨_, List.getElem?_eq_getElem hc, h.rows c _ _ (List.getElem?_eq_getElem hc) hq'⟩

theorem Drains.row' (h : Drains base g db) (hq : base.tasks[c]? = some q) :
    ∃ q', db.tasks[c]? = some q' ∧ q'.goalId = q.goalId ∧ Fate base g c q q'.status := by
  have hc : c < db.tasks.length := h.length ▸ (List.getElem?_eq_some_iff.1 hq).1
  exact ⟨_, List.getElem?_eq_getElem hc, h.rows c _ _ hq (List.getElem?_eq_getElem hc)⟩

/-- completed tasks stay, and there are no new ones -/
theorem Fate.completed {s : TaskStatus} (h : Fate base g c q s) (hq : base.tasks[c]? = some q) :
    s = .completed ↔ q.status = .completed := by
  rcases h with rfl | ⟨-, hp, ⟨rfl, -⟩ | ⟨rfl, -⟩⟩ | ⟨rfl, hd⟩
  · rfl
  · simp [hp]
  · simp [hp]
  · have := Task.openIn_iff.1 (hd.opened hq)
    rcases this.2 with hs | hs <;> simp [hs]

/-- what is cancelled was cancelled or doomed -/
theorem Fate.cancelled {s : TaskStatus} (h : Fate base g c q s) :
    s = .cancelled → q.status = .cancelled ∨ base.Doomed g c := by
  rintro rfl
  rcases h with h | ⟨-, -, ⟨h, -⟩ | ⟨h, -⟩⟩ | ⟨-, hd⟩
  · exact .inl h.symm
  · exact absurd h (by simp)
  · exact absurd h (by simp)
  · exact .inr hd

/-- what is open was open -/
theorem Fate.opened {s : TaskStatus} (h : Fate base g c q s) (hs : s = .pending ∨ s = .blocked) :
    q.status = .pending ∨ q.status = .blocked := by
  rcases h with rfl | ⟨-, hp, -⟩ | ⟨rfl, -⟩
  · exact hs
  · exact .inl hp
  · simp at hs

theorem Fate.pending {s : TaskStatus} (h : Fate base g c q s) (hs : s = .pending) :
    q.status = .pending := by
  subst hs
  rcases h with h | ⟨-, -, ⟨h, -⟩ | ⟨h, -⟩⟩ | ⟨h, -⟩
  · exact h.symm
  all_goals exact absurd h (by simp)

theorem Drains.readiness (h : Drains base g db) :
    db.readiness c = .ready ↔ base.readiness c = .ready :=
  Db.readiness_ready_congr h.deps h.length fun c q q' hq hq' => (h.rows c q q' hq hq').2.completed hq

theorem Drains.refl (base : Db) (g : GoalId) : Drains base g base where
  deps := rfl
  length := rfl
  rows c q q' hq hq' := by
    rw [hq, Option.some.injEq] at hq'
    subst hq'
    exact ⟨rfl, .inl rfl⟩

/-- only goals and statuses of tasks matter -/
theorem Drains.congr (h : Drains base g db) (hdeps : db'.deps = db.deps)
    (hrows : db'.tasks.map (fun t => (t.goalId, t.status)) =
      db.tasks.map fun t => (t.goalId, t.status)) : Drains base g db' where
  deps := hdeps.trans h.deps
  length := by
    have := congrArg List.length hrows
    simpa [h.length] using this
  rows c q q' hq hq' := by
    obtain ⟨q1, hq1, hg, hf⟩ := h.row' hq
    have := congrArg (·[c]?) hrows
    simp only [List.getElem?_map, hq', hq1, Option.map_some, Option.some.injEq,
      Prod.mk.injEq] at this
    rw [this.1, this.2]
    exact ⟨hg, hf⟩

/-- after a recomputation every task that is still pending waits for others -/
def Settled (base : Db) (g : GoalId) (db : Db) : Prop :=
  ∀ (c : TaskId) q, db.tasks[c]? = some q → q.pendingIn g →
    ¬ db.hasCancelledDep c ∧ base.readiness c ≠ .ready

theorem Db.hasCancelledDep_iff :
    db.hasCancelledDep c ↔ ∃ d, db.dependsOn c d ∧ db.isCancelled d := by
  simp only [hasCancelledDep, List.any_eq_true, mem_depIds, dependsOn, isCancelled]

/-- the pass neither cancels nor revives -/
theorem recompute_isCancelled :
    (recomputeTaskReadiness db g).isCancelled c ↔ db.isCancelled c := by
  unfold Db.isCancelled
  rw [recompute_getElem?]
  cases db.tasks[c]? with
  | none => rfl
  | some q =>
    rw [Option.map_some, Option.any_some, Option.any_some]
    by_cases hp : q.pendingIn g
    · have hs := (Task.pendingIn_iff.1 hp).2
      rw [if_pos hp]
      cases db.readiness c <;> simp [Readiness.apply, hs]
    · rw [if_neg hp]

theorem recompute_settled (h : Drains base g db) :
    Settled base g (recomputeTaskReadiness db g) := by
  intro c q' hq' hp'
  rw [recompute_getElem?] at hq'
  obtain ⟨q, hq, rfl⟩ := Option.map_eq_some_iff.1 hq'
  have hp : q.pendingIn g := by
    by_contra hn
    rw [if_neg hn] at hp'
    exact hn hp'
  rw [if_pos hp, Task.pendingIn_iff] at hp'
  -- the verdict was to stay
  have hstay : db.readiness c = .stay := by
    cases hr : db.readiness c with
    | stay => rfl
    | ready => simp [hr, Readiness.apply] at hp'
    | blocked d s => simp [hr, Readiness.apply] at hp'
  refine ⟨fun hc => ?_, fun hr => ?_⟩
  · obtain ⟨d, hd, hcanc⟩ := Db.hasCancelledDep_iff.1 hc
    rw [recompute_isCancelled] at hcanc
    obtain ⟨t, ht, hs⟩ := (Option.any_eq_true _ _).1 hcanc
    have hdep : (⟨c, d⟩ : Dep) ∈ db.deps := hd
    have hfail : t.status.neverCompletes := by
      rw [decide_eq_true_eq] at hs
      simp [hs, TaskStatus.neverCompletes]
    obtain ⟨d', s, hb⟩ := Db.readiness_of_failure hdep ht hfail
    exact absurd (hstay.symm.trans hb) (by simp)
  · exact absurd (hstay.symm.trans (h.readiness.2 hr)) (by simp)

/-- a recomputation of the goal -/
theorem Drains.recompute (h : Drains base g db) : Drains base g (recomputeTaskReadiness db g) where
  deps := h.deps
  length := by rw [recompute_length, h.length]
  rows c q q' hq hq' := by
    obtain ⟨q1, hq1, hg, hf⟩ := h.row' hq
    rcases recompute_cases (g := g) hq1 with hr | ⟨hp, hready, hr⟩ | ⟨hp, d, s, hb, hr⟩
    · rw [hq', Option.some.injEq] at hr
      rw [hr]
      exact ⟨hg, hf⟩
    · rw [hq', Option.some.injEq] at hr
      obtain ⟨hpg, hps⟩ := Task.pendingIn_iff.1 hp
      rw [hr]
      exact ⟨hg, .inr (.inl ⟨hg ▸ hpg, hf.pending hps, .inl ⟨rfl, h.readiness.1 hready⟩⟩)⟩
    · rw [hq', Option.some.injEq] at hr
      obtain ⟨hpg, hps⟩ := Task.pendingIn_iff.1 hp
      rw [hr]
      refine ⟨hg, .inr (.inl ⟨hg ▸ hpg, hf.pending hps, .inr ⟨rfl, fun hready => ?_⟩⟩)⟩
      exact absurd (hb.symm.trans (h.readiness.2 hready)) (by simp)

/-! ## a pass of the cascade -/

/-- the rows after a pass over the tasks `ids` -/
structure Passed (now : Time) (reason : String) (ids : List TaskId) (db db' : Db) : Prop where
  deps : db'.deps = db.deps
  length : db'.tasks.length = db.tasks.length
  rows : ∀ (c : TaskId), db'.tasks[c]? =
    if c ∈ ids then (db.tasks[c]?).map (Task.cascaded now reason) else db.tasks[c]?

theorem Task.cascaded_checks (h : t.checks) : (t.cascaded now reason).checks := by
  rw [checks_iff] at h ⊢
  exact ⟨h.1, h.2.1, h.2.2.1, by simp [cascaded, TaskStatus.terminal]⟩

/-- the row cancelled by a pass, with its event -/
def Db.cascadedTask (now : Time) (reason : String) (i : TaskId) (t : Task) (db : Db) : Db :=
  Db.addEvents { db with tasks := db.tasks.set i (t.cascaded now reason) }
    [{ task := i, kind := .cancelled, reason := some (cascadeReason reason) }]

theorem cascadeTask_ok (hrows : db.rowsOk) (ht : db.tasks[i]? = some t) :
    cascadeTask now reason db i = .ok (db.cascadedTask now reason i t) := by
  unfold cascadeTask
  simp only [bind_eq_ok, Db.lockTask_ok, Db.setTask_ok]
  exact ⟨t, ht, _, ⟨Task.cascaded_checks (hrows i t ht), rfl⟩, rfl⟩

/-- a pass raises nothing -/
theorem cascadePass (now : Time) (reason : String) (hrows : db.rowsOk) {ids : List TaskId}
    (hnd : ids.Nodup) (hids : ∀ c ∈ ids, c < db.tasks.length) :
    ∃ db', ids.foldlM (cascadeTask now reason) db = .ok db' ∧ db'.rowsOk ∧
      Passed now reason ids db db' := by
  induction ids generalizing db with
  | nil => exact ⟨db, rfl, hrows, rfl, rfl, by simp⟩
  | cons a ids ih =>
    obtain ⟨t, ht⟩ : ∃ t, db.tasks[a]? = some t := ⟨_, List.getElem?_eq_getElem (hids a (by simp))⟩
    have hset : ∀ (c : TaskId), (db.cascadedTask now reason a t).tasks[c]? =
        if a = c then some (t.cascaded now reason) else db.tasks[c]? :=
      fun c => getElem?_set_row ht
    have hlen : (db.cascadedTask now reason a t).tasks.length = db.tasks.length :=
      List.length_set
    obtain ⟨ha, hnd⟩ := List.nodup_cons.1 hnd
    have hrows1 : (db.cascadedTask now reason a t).rowsOk := by
      intro c q hq
      rw [hset] at hq
      split at hq
      · cases hq
        exact Task.cascaded_checks (hrows a t ht)
      · exact hrows c q hq
    obtain ⟨db', h1, h2, h3⟩ := ih hrows1 hnd fun c hc => hlen ▸ hids c (by simp [hc])
    rw [List.foldlM_cons, cascadeTask_ok hrows ht]
    refine ⟨db', h1, h2, h3.deps, h3.length.trans hlen, fun c => ?_⟩
    rw [h3.rows, hset]
    by_cases hca : a = c
    · subst hca
      simp [ha, ht]
    · simp [hca, Ne.symm hca]

theorem Db.mem_doomed_iff :
    c ∈ db.doomed g ↔ ∃ q, db.tasks[c]? = some q ∧ db.doomedRow g c q := by
  unfold doomed
  rw [List.mem_filter, List.mem_range, Option.any_eq_true]
  constructor
  · rintro ⟨-, q, hq, hd⟩
    exact ⟨q, hq, hd⟩
  · rintro ⟨q, hq, hd⟩
    exact ⟨(List.getElem?_eq_some_iff.1 hq).1, q, hq, hd⟩

/-- the tasks of a pass are doomed -/
theorem Drains.doomed (h : Drains base g db) (hc : c ∈ db.doomed g) : base.Doomed g c := by
  obtain ⟨q', hq', hd⟩ := Db.mem_doomed_iff.1 hc
  simp only [Db.doomedRow, decide_eq_true_eq] at hd
  obtain ⟨hgoal, hst, hdep⟩ := hd
  obtain ⟨q, hq, hg, hf⟩ := h.row hq'
  have hopen : base.isOpen g c :=
    (Db.isOpen_of hq).2 (Task.openIn_iff.2 ⟨hg ▸ hgoal, hf.opened (.inr hst)⟩)
  obtain ⟨d, hd, hcanc⟩ := Db.hasCancelledDep_iff.1 hdep
  obtain ⟨p', hp', hs⟩ := (Option.any_eq_true _ _).1 hcanc
  obtain ⟨p, hp, -, hfp⟩ := h.row hp'
  refine Drain.Doomed.of_edge hopen (d := d) ?_ ?_
  · rw [Db.dependsOn, ← h.deps]
    exact hd
  · exact (hfp.cancelled (by simpa using hs)).imp_left (Db.isCancelled_of hp).2

theorem Drains.pass (h : Drains base g db) (hp : Passed now reason (db.doomed g) db db') :
    Drains base g db' where
  deps := hp.deps.trans h.deps
  length := hp.length.trans h.length
  rows c q q' hq hq' := by
    obtain ⟨q1, hq1, hg, hf⟩ := h.row' hq
    rw [hp.rows, hq1] at hq'
    split at hq'
    · next hc =>
      cases hq'
      exact ⟨hg, .inr (.inr ⟨rfl, h.doomed hc⟩)⟩
    · cases hq'
      exact ⟨hg, hf⟩

/-! ## the loop -/

/-- the number of tasks that are not cancelled -/
def Db.uncancelled (db : Db) : Nat :=
  ((Finset.range db.tasks.length).filter fun c => ¬ db.isCancelled c).card

theorem Passed.isCancelled {ids : List TaskId} (h : Passed now reason ids db db')
    (hc : c < db.tasks.length) : db'.isCancelled c ↔ c ∈ ids ∨ db.isCancelled c := by
  unfold Db.isCancelled
  rw [h.rows, List.getElem?_eq_getElem hc]
  by_cases hm : c ∈ ids <;> simp [hm, Task.cascaded]

/-- a pass with something to do leaves fewer tasks that are not cancelled -/
theorem Passed.uncancelled (h : Passed now reason (db.doomed g) db db') (hne : db.doomed g ≠ []) :
    (recomputeTaskReadiness db' g).uncancelled < db.uncancelled := by
  obtain ⟨k, hk⟩ := List.exists_mem_of_ne_nil _ hne
  obtain ⟨q, hq, hd⟩ := Db.mem_doomed_iff.1 hk
  have hlt : k < db.tasks.length := (List.getElem?_eq_some_iff.1 hq).1
  have hst : q.status = .blocked := by
    simp only [Db.doomedRow, decide_eq_true_eq] at hd
    exact hd.2.1
  unfold Db.uncancelled
  rw [recompute_length, h.length]
  refine Drain.card_lt_of_more (fun c hc hn hcanc => hn ?_) hlt ?_ ?_
  · exact recompute_isCancelled.2 ((h.isCancelled hc).2 (.inr hcanc))
  · rw [Db.isCancelled_of hq, hst]
    simp
  · exact not_not.2 (recompute_isCancelled.2 ((h.isCancelled hlt).2 (.inl hk)))

/-- **The loop terminates**: with more passes at hand than tasks that are not cancelled it leaves
by its own test. -/
theorem cascade_drains {fuel : Nat} (hfuel : db.uncancelled < fuel) (hrows : db.rowsOk)
    (h : Drains base g db) (hs : Settled base g db) :
    ∃ db', cascade now reason g fuel db = .ok db' ∧ Drains base g db' ∧ Settled base g db' ∧
      db'.doomed g = [] := by
  induction fuel generalizing db with
  | zero => exact absurd hfuel (Nat.not_lt_zero _)
  | succ fuel ih =>
    unfold cascade
    by_cases hne : db.doomed g = []
    · rw [if_pos hne]
      exact ⟨db, rfl, h, hs, hne⟩
    · rw [if_neg hne]
      have hids : ∀ c ∈ db.doomed g, c < db.tasks.length := fun c hc =>
        List.mem_range.1 (List.mem_filter.1 hc).1
      obtain ⟨db1, hok, hrows1, hpass⟩ := cascadePass now reason hrows
        (List.nodup_range.filter _) hids
      have h1 := h.pass hpass
      have hlt := hpass.uncancelled hne
      obtain ⟨db', h2, h3⟩ := ih (by omega) (recompute_rowsOk hrows1) h1.recompute
        (recompute_settled h1)
      refine ⟨db', ?_, h3⟩
      rw [bind_eq_ok]
      exact ⟨db1, hok, h2⟩

theorem Db.uncancelled_le (db : Db) : db.uncancelled ≤ db.tasks.length := by
  unfold uncancelled
  exact (Finset.card_filter_le _ _).trans (by simp)

/-! ## what is left -/

/-- when the loop is left, exactly the doomed tasks have been cancelled -/
theorem Drains.isCancelled (h : Drains base g db) (hs : Settled base g db)
    (hend : db.doomed g = []) (c : TaskId) :
    db.isCancelled c ↔ base.isCancelled c ∨ base.Doomed g c := by
  refine @Drain.dead_iff TaskId base.dependsOn (base.isOpen g) (base.isCancelled ·)
    (db.isCancelled ·) (fun c hc => ?_) (fun c hc => ?_) (fun c d ho he hd => ?_) c
  · obtain ⟨q, hq, hst⟩ := (Option.any_eq_true _ _).1 hc
    rw [decide_eq_true_eq] at hst
    obtain ⟨q', hq', -, hf⟩ := h.row' hq
    rw [Db.isCancelled_of hq']
    rcases hf with hf | ⟨-, hp, -⟩ | ⟨hf, -⟩
    · rw [hf, hst]
    · exact absurd (hst.symm.trans hp) (by simp)
    · exact hf
  · obtain ⟨q', hq', hst⟩ := (Option.any_eq_true _ _).1 hc
    obtain ⟨q, hq, -, hf⟩ := h.row hq'
    exact (hf.cancelled (by simpa using hst)).imp_left (Db.isCancelled_of hq).2
  · -- an open task with a cancelled dependency is neither promoted nor left pending or blocked
    obtain ⟨q, hq, hopen⟩ := (Option.any_eq_true _ _).1 ho
    rw [Task.openIn_iff] at hopen
    obtain ⟨q', hq', hg, hf⟩ := h.row' hq
    have hdep : db.hasCancelledDep c := by
      rw [Db.hasCancelledDep_iff]
      exact ⟨d, by rw [Db.dependsOn, h.deps]; exact he, hd⟩
    have hnp : q'.status ≠ .pending := fun hp =>
      (hs c q' hq' (Task.pendingIn_iff.2 ⟨hg.trans hopen.1, hp⟩)).1 hdep
    have hnb : q'.status ≠ .blocked := fun hb => by
      have : c ∈ db.doomed g := Db.mem_doomed_iff.2 ⟨q', hq', by
        simp [Db.doomedRow, hg.trans hopen.1, hb, hdep]⟩
      rw [hend] at this
      exact absurd this (by simp)
    rw [Db.isCancelled_of hq']
    rcases hf with hf | ⟨-, -, ⟨-, hr⟩ | ⟨hf, -⟩⟩ | ⟨hf, -⟩
    · rw [hf] at hnp hnb
      exact absurd hopen.2 (by simp [hnp, hnb])
    · -- its dependencies were all completed, and stay so
      obtain ⟨p, hp, hcomp⟩ := Db.readiness_ready hr d he
      obtain ⟨p', hp', -, hfp⟩ := h.row' hp
      have hdone := (hfp.completed hp).2 hcomp
      rw [Db.isCancelled_of hp', hdone] at hd
      exact absurd hd (by simp)
    · exact absurd hf hnb
    · exact hf

/-- no pending or blocked task of the goal depends on `i`, directly or through others -/
def Drained (db : Db) (g : GoalId) (i : TaskId) : Prop :=
  ∀ (c : TaskId) q, db.tasks[c]? = some q → q.openIn g → ¬ Relation.TransGen db.dependsOn c i

/-- `gone` are the open tasks that have been cancelled: what is left drains if every dependent of
`i` is among them or was promoted -/
theorem Drains.drained_iff {gone : TaskId → Prop} (h : Drains base g db) (hs : Settled base g db)
    (hgone : ∀ (c : TaskId) q, base.tasks[c]? = some q → q.openIn g → (db.isCancelled c ↔ gone c)) :
    Drained db g i ↔ ∀ (c : TaskId) q, base.tasks[c]? = some q → q.openIn g →
      Relation.TransGen base.dependsOn c i → gone c ∨ base.promotes c q := by
  have hdep : db.dependsOn = base.dependsOn := by
    unfold Db.dependsOn
    rw [h.deps]
  unfold Drained
  rw [hdep]
  constructor
  · intro hd c q hq hopen hreach
    obtain ⟨q', hq', hg, hf⟩ := h.row' hq
    have hgoal := (Task.openIn_iff.1 hopen).1
    have hopen' : ¬ q'.openIn g := fun ho => hd c q' hq' ho hreach
    rw [Task.openIn_iff, hg] at hopen'
    rcases hf with hf | ⟨-, hp, ⟨-, hr⟩ | ⟨hf, -⟩⟩ | ⟨hf, -⟩
    · exact absurd ⟨hgoal, hf ▸ (Task.openIn_iff.1 hopen).2⟩ hopen'
    · exact .inr ⟨hp, hr⟩
    · exact absurd ⟨hgoal, .inr hf⟩ hopen'
    · exact .inl ((hgone c q hq hopen).1 ((Db.isCancelled_of hq').2 hf))
  · intro hd c q' hq' hopen' hreach
    obtain ⟨q, hq, hg, hf⟩ := h.row hq'
    obtain ⟨hgoal, hst⟩ := Task.openIn_iff.1 hopen'
    have hopen : q.openIn g := Task.openIn_iff.2 ⟨hg ▸ hgoal, hf.opened hst⟩
    rcases hd c q hq hopen hreach with hc | ⟨hp, hr⟩
    · have := (Db.isCancelled_of hq').1 ((hgone c q hq hopen).2 hc)
      rw [this] at hst
      exact absurd hst (by simp)
    · -- a task that was promoted is ready
      rcases hst with hst | hst
      · exact (hs c q' hq' (Task.pendingIn_iff.2 ⟨hgoal, hst⟩)).2 hr
      · rcases hf with hf | ⟨-, -, ⟨hf, -⟩ | ⟨-, hn⟩⟩ | ⟨hf, -⟩
        · exact absurd (hst.symm.trans (hf.trans hp)) (by simp)
        · exact absurd (hst.symm.trans hf) (by simp)
        · exact hn hr
        · exact absurd (hst.symm.trans hf) (by simp)

/-! ## the ways to cancel -/

/-- how a founder's cancellation ends a task: at once, or when the job of a running task stops -/
inductive Cancellation where
  | immediate (byFounder : Bool) (reason : String)
  | cooperative (loaded : Task) (reason : String)

namespace Cancellation

def isImmediate : Cancellation → Bool
  | immediate .. => true
  | cooperative .. => false

def exec (now : Time) (db : Db) (i : TaskId) : Cancellation → Except Err Db
  | immediate byFounder reason => cancelTask now db i byFounder reason
  | cooperative loaded reason => finalizeCancelledTask now db i loaded reason

/-- `t` is a task that this way of cancelling is for: one that nothing executes, with one open CI
wait at most, or one whose job holds a copy that is not cancelled, or the row itself -/
def applies (db : Db) (i : TaskId) (t : Task) : Cancellation → Prop
  | immediate .. => (t.status = .waitingCi ∨ t.status.cancellable) ∧
      db.waits.countP (Wait.pendingOf i) ≤ 1
  | cooperative loaded _ => loaded.goalId = t.goalId ∧ (loaded.status ≠ .cancelled ∨ loaded = t)

/-- the dependents that are cancelled along with the task -/
def takesAlong (base : Db) (g : GoalId) (c : TaskId) : Cancellation → Prop
  | immediate .. => base.Doomed g c
  | cooperative .. => False

end Cancellation

/-- the write that ends the task starts the drain -/
theorem Drains.of_marked (hdeps : db'.deps = db.deps)
    (htasks : db'.tasks = db.tasks.set i q) (hg : q.goalId = t.goalId)
    (hs : q.status = .cancelled) : Drains (db.marked i t) g db' := by
  refine (Drains.refl _ g).congr hdeps ?_
  rw [htasks, Db.marked, List.map_set, List.map_set, hg, hs]

theorem Task.cancelled_checks (now : Time) (reason : String) (h : t.checks) :
    (t.cancelled now reason).checks := by
  rw [checks_iff] at h ⊢
  exact ⟨h.1, h.2.1, h.2.2.1, by simp [cancelled, TaskStatus.terminal]⟩

theorem cancelNow_drains {orig : Db} (hrows : db.rowsOk) (ht : db.tasks[i]? = some t)
    (hdeps : db.deps = orig.deps) (htasks : db.tasks = orig.tasks) :
    ∃ db', cancelNow now reason db i t = .ok db' ∧ Drains (orig.marked i t) t.goalId db' ∧
      Settled (orig.marked i t) t.goalId db' ∧ db'.doomed t.goalId = [] := by
  have hc := Task.cancelled_checks now reason (hrows i t ht)
  have hrows1 : ({ db with tasks := db.tasks.set i (t.cancelled now reason) } : Db).rowsOk := by
    intro c q hq
    rw [getElem?_set_row ht] at hq
    split at hq
    · cases hq
      exact hc
    · exact hrows c q hq
  have h1 : Drains (orig.marked i t) t.goalId (Db.addEvents
      { db with tasks := db.tasks.set i (t.cancelled now reason) }
      [{ task := i, kind := .cancelled, reason := some reason }]) :=
    .of_marked (q := t.cancelled now reason) hdeps (by rw [Db.addEvents_tasks, htasks]) rfl rfl
  unfold cancelNow
  simp only [Db.setTask, hc, if_true]
  refine cascade_drains (Nat.lt_succ_of_le ?_) (recompute_rowsOk hrows1) h1.recompute
    (recompute_settled h1)
  exact (Db.uncancelled_le _).trans (by rw [recompute_length])

theorem cancelCiWait_ok (h : db.waits.countP (Wait.pendingOf i) ≤ 1) :
    ∃ waits, cancelCiWait db i = .ok { db with waits } := by
  unfold cancelCiWait
  rcases Nat.le_one_iff_eq_zero_or_eq_one.1 h with h | h
  · rw [h]
    exact ⟨_, rfl⟩
  · rw [h]
    exact ⟨_, rfl⟩

/-- an immediate cancellation returns, and drains -/
theorem cancelTask_drains (now : Time) (byFounder : Bool) (reason : String) (hrows : db.rowsOk)
    (ht : db.tasks[i]? = some t) (hs : t.status = .waitingCi ∨ t.status.cancellable)
    (hw : db.waits.countP (Wait.pendingOf i) ≤ 1) :
    ∃ db', cancelTask now db i byFounder reason = .ok db' ∧ Drains (db.marked i t) t.goalId db' ∧
      Settled (db.marked i t) t.goalId db' ∧ db'.doomed t.goalId = [] := by
  have hrun : t.status ≠ .running := by
    rcases hs with hs | hs
    · simp [hs]
    · intro hr
      simp [hr, TaskStatus.cancellable] at hs
  unfold cancelTask
  rw [Db.lockTask_ok.2 ht]
  simp only [bind, Except.bind, hrun, if_false]
  by_cases hci : t.status = .waitingCi
  · obtain ⟨waits, hok⟩ := cancelCiWait_ok hw
    rw [if_pos hci, hok]
    exact cancelNow_drains hrows ht rfl rfl
  · rw [if_neg hci, if_neg (not_not.2 (hs.resolve_left hci))]
    exact cancelNow_drains hrows ht rfl rfl

/-- the chain after a task boundary recomputes, and writes the goal at most -/
theorem rollup_tables {s : TaskStatus} (h : rollupGoalAfterTaskBoundary now db t s = .ok db') :
    ∃ goals, db' = { recomputeTaskReadiness db t.goalId with goals } := by
  unfold rollupGoalAfterTaskBoundary at h
  dsimp only at h
  split at h
  · cases h
    exact ⟨_, rfl⟩
  · split at h
    · exact recordFinalReport_tables h
    · cases h
      exact ⟨_, rfl⟩

theorem recomputed_drains {goals : List Goal} (h : Drains base g db)
    (hc : ∀ c, db.isCancelled c ↔ base.isCancelled c) :
    Drains base g { recomputeTaskReadiness db g with goals } ∧
      Settled base g { recomputeTaskReadiness db g with goals } ∧
      ∀ c, Db.isCancelled { recomputeTaskReadiness db g with goals } c ↔ base.isCancelled c :=
  ⟨h.recompute.congr rfl rfl, recompute_settled h, fun c => recompute_isCancelled.trans (hc c)⟩

/-- the end of a cooperative cancellation recomputes, and nothing more -/
theorem finalizeCancelledTask_drains {loaded : Task} (ht : db.tasks[i]? = some t)
    (hg : loaded.goalId = t.goalId) (hs : loaded.status ≠ .cancelled ∨ loaded = t)
    (h : finalizeCancelledTask now db i loaded reason = .ok db') :
    Drains (db.marked i t) t.goalId db' ∧ Settled (db.marked i t) t.goalId db' ∧
      ∀ c, db'.isCancelled c ↔ (db.marked i t).isCancelled c := by
  unfold finalizeCancelledTask at h
  simp only [bind_eq_ok, Db.flushTask_ok] at h
  obtain ⟨db1, ⟨t', ht', -, rfl⟩, h⟩ := h
  rw [Db.addEvents_tasks, ht, Option.some.injEq] at ht'
  subst ht'
  have hst : (Task.flushed loaded (loaded.finishedCancelled now) t).status = .cancelled := by
    rcases hs with hs | rfl
    · simp [Task.flushed, Task.finishedCancelled, dirty, hs.symm]
    · simp [Task.flushed, Task.finishedCancelled]
  obtain ⟨goals, rfl⟩ := rollup_tables h
  rw [hg]
  refine recomputed_drains (.of_marked
    (q := Task.flushed loaded (loaded.finishedCancelled now) t) rfl rfl rfl hst) fun c => ?_
  simp only [Db.isCancelled, Db.marked, Db.addEvents_tasks, getElem?_set_row ht]
  split
  · simp [hst]
  · rfl

/-- a task that reaches no cancelled task keeps its status, or is promoted or blocked -/
theorem Drains.kept (h : Drains base g db) (hq : base.tasks[c]? = some q)
    (hfree : ¬ ∃ d, Relation.TransGen base.dependsOn c d ∧ base.isCancelled d) :
    ∃ q', db.tasks[c]? = some q' ∧ (q'.status = q.status ∨
      (q.pendingIn g ∧ (q'.status = .ready ∨ q'.status = .blocked))) := by
  obtain ⟨q', hq', -, hf⟩ := h.row' hq
  refine ⟨q', hq', ?_⟩
  rcases hf with hf | ⟨hg, hp, hs⟩ | ⟨-, hd⟩
  · exact .inl hf
  · exact .inr ⟨Task.pendingIn_iff.2 ⟨hg, hp⟩, hs.imp And.left And.left⟩
  · exact absurd hd.reaches hfree

/-- what is cancelled in the base stays cancelled -/
theorem Drains.keeps_cancelled (h : Drains base g db) (hc : base.isCancelled c) :
    db.isCancelled c := by
  obtain ⟨q, hq, hs⟩ := (Option.any_eq_true _ _).1 hc
  rw [decide_eq_true_eq] at hs
  obtain ⟨q', hq', -, hf⟩ := h.row' hq
  rw [Db.isCancelled_of hq']
  rcases hf with hf | ⟨-, hp, -⟩ | ⟨hf, -⟩
  · rw [hf, hs]
  · exact absurd (hs.symm.trans hp) (by simp)
  · exact hf

/-- what a cancellation leads to -/
theorem Cancellation.exec_drains {p : Cancellation} (hrows : db.rowsOk)
    (ht : db.tasks[i]? = some t) (hp : p.applies db i t) (h : p.exec now db i = .ok db') :
    Drains (db.marked i t) t.goalId db' ∧ Settled (db.marked i t) t.goalId db' ∧
      (p.isImmediate → db'.doomed t.goalId = []) ∧
      ∀ (c : TaskId) q, (db.marked i t).tasks[c]? = some q → q.openIn t.goalId →
        (db'.isCancelled c ↔ p.takesAlong (db.marked i t) t.goalId c) := by
  have hopen : ∀ (c : TaskId) q, (db.marked i t).tasks[c]? = some q → q.openIn t.goalId →
      ¬ (db.marked i t).isCancelled c := by
    intro c q hq ho hc
    have hs := (Task.openIn_iff.1 ho).2
    rw [(Db.isCancelled_of hq).1 hc] at hs
    exact absurd hs (by simp)
  cases p with
  | immediate byFounder reason =>
    obtain ⟨db1, hok, hd, hs, hend⟩ := cancelTask_drains now byFounder reason hrows ht hp.1 hp.2
    obtain rfl : db1 = db' := Except.ok.inj (hok.symm.trans h)
    refine ⟨hd, hs, fun _ => hend, fun c q hq ho => ?_⟩
    rw [hd.isCancelled hs hend c]
    exact or_iff_right (hopen c q hq ho)
  | cooperative loaded reason =>
    obtain ⟨hd, hs, hcanc⟩ := finalizeCancelledTask_drains ht hp.1 hp.2 h
    refine ⟨hd, hs, fun him => absurd him (by simp [isImmediate]), fun c q hq ho => ?_⟩
    rw [hcanc c]
    exact iff_of_false (hopen c q hq ho) id

/-- **What a cancellation drains.**  An immediate one returns, and its loop leaves by its own
test.  Either way the task is cancelled, and a task that reaches no cancelled one keeps its status
or makes a move of `recomputeTaskReadiness`; and no pending or blocked task of the goal is left
that reaches the task, exactly if each one that did was doomed, where the way of cancelling
cascades, or is promoted. -/
theorem cancellation_drains (now : Time) {db : Db} {i : TaskId} {t : Task} (p : Cancellation)
    (hrows : db.rowsOk) (ht : db.tasks[i]? = some t) (hp : p.applies db i t) :
    (p.isImmediate → ∃ db', p.exec now db i = .ok db') ∧
      ∀ db', p.exec now db i = .ok db' →
        (p.isImmediate → db'.doomed t.goalId = []) ∧ db'.isCancelled i ∧
        (∀ (c : TaskId) q, c ≠ i → db.tasks[c]? = some q →
          (¬ ∃ d, Relation.TransGen db.dependsOn c d ∧ (db.marked i t).isCancelled d) →
          ∃ q', db'.tasks[c]? = some q' ∧ (q'.status = q.status ∨
            (q.pendingIn t.goalId ∧ (q'.status = .ready ∨ q'.status = .blocked)))) ∧
        (Drained db' t.goalId i ↔
          ∀ (c : TaskId) q, (db.marked i t).tasks[c]? = some q → q.openIn t.goalId →
            Relation.TransGen db.dependsOn c i →
            p.takesAlong (db.marked i t) t.goalId c ∨ (db.marked i t).promotes c q) := by
  constructor
  · intro him
    cases p with
    | immediate byFounder reason =>
      obtain ⟨db', hok, -⟩ := cancelTask_drains now byFounder reason hrows ht hp.1 hp.2
      exact ⟨db', hok⟩
    | cooperative loaded reason => exact absurd him (by simp [Cancellation.isImmediate])
  · intro db' h
    obtain ⟨hd, hs, hend, hgone⟩ := Cancellation.exec_drains hrows ht hp h
    have hmark : (db.marked i t).tasks[i]? = some { t with status := .cancelled } := by
      rw [Db.marked, getElem?_set_row ht, if_pos rfl]
    refine ⟨hend, hd.keeps_cancelled ((Db.isCancelled_of hmark).2 rfl), ?_,
      hd.drained_iff hs hgone⟩
    intro c q hci hq hfree
    refine hd.kept ?_ hfree
    rw [Db.marked, getElem?_set_row ht, if_neg (Ne.symm hci), hq]

/-! ## two cancellations -/

/-- two tasks, one after the other -/
def plannedRun : List Op :=
  [.createGoal 0 "build it" "standard_repo_work",
    .createPlan 1 0 [sampleSpec [] 3, sampleSpec [0] 3]]

theorem Db.rowsOk_of_all (h : db.tasks.all Task.checks) : db.rowsOk :=
  fun _ t ht => List.all_eq_true.1 h t (List.mem_of_getElem? ht)

set_option maxRecDepth 8000 in
/-- the founder cancels the first task before it is dispatched -/
theorem cancellation_drains_planned :
    ∃ db', cancelTask 2 (sysRun plannedRun).db 0 true "" = .ok db' ∧ db'.doomed 0 = [] ∧
      db'.isCancelled 0 := by
  have hrows : (sysRun plannedRun).db.rowsOk := Db.rowsOk_of_all (by decide)
  obtain ⟨t, ht, hg, hs⟩ : ∃ t, (sysRun plannedRun).db.tasks[0]? = some t ∧ t.goalId = 0 ∧
      t.status.cancellable := ⟨_, rfl, by decide, by decide⟩
  obtain ⟨h1, h2⟩ := cancellation_drains 2 (.immediate true "") hrows ht ⟨.inr hs, by decide⟩
  obtain ⟨db', hok⟩ := h1 rfl
  obtain ⟨hend, hcanc, -⟩ := h2 db' hok
  exact ⟨db', hok, hg ▸ hend rfl, hcanc⟩

/-- the founder cancels the first task while it runs, and its job stops -/
def stoppedRun : List Op :=
  begunRun [sampleSpec [] 3, sampleSpec [0] 3] ++ [.cancelTask 5 0 true "", .cancelRun 6 firstRunner]

set_option maxRecDepth 8000 in
/-- its dependent stays blocked -/
theorem blocked_dependent_left : ¬ Drained (sysRun stoppedRun).db 0 0 := by
  intro h
  obtain ⟨q, hq, hopen⟩ : ∃ q, (sysRun stoppedRun).db.tasks[1]? = some q ∧ q.openIn 0 :=
    ⟨_, rfl, by decide⟩
  have hdep : (⟨1, 0⟩ : Dep) ∈ (sysRun stoppedRun).db.deps := by decide
  exact h 1 q hq hopen (.single hdep)

end LifeAI
