import LifeAI.Tasks.Endings

/-!
# Dependency safety

Only `recomputeTaskReadiness` reads the dependency rows.  The other ways into `ready` rely on the
task having been promoted once (`everReady`), and its dependencies having been completed then.

* `DepInv`  a task that was ever promoted has its dependencies completed, and the tasks past
            `pending` and `blocked` were promoted; what the wakes recognise, too;
* `Op.keepsDeps` no edge is added to a task that was ever promoted, a repair resumes its source
            with completed dependencies only, and no late end takes a completed task away.
-/

namespace LifeAI

variable {db db' : Db}

/-! ## promoted tasks -/

/-- the event of a promotion to `ready` -/
def TaskEvent.promotes (i : TaskId) (e : TaskEvent) : Bool :=
  e.task = i ∧ (e.kind = .ready ∨ e.kind = .retryScheduled)

/-- the task was promoted past `pending` and `blocked` -/
def Db.everReady (db : Db) (i : TaskId) : Bool := db.events.any (TaskEvent.promotes i)

theorem TaskEvent.promotes_marks {i : TaskId} {e : TaskEvent} (h : e.promotes i) : e.marks := by
  simp only [promotes, decide_eq_true_eq] at h
  rcases h.2 with hk | hk <;> simp [marks, hk]

theorem Db.everReady_addEvents {i : TaskId} {es : List TaskEvent} :
    (db.addEvents es).everReady i ↔ db.everReady i ∨ ∃ e ∈ es, e.promotes i := by
  simp [everReady]

/-- the status is one that a task reaches only after a promotion -/
def TaskStatus.promoted (s : TaskStatus) : Bool := s ≠ pending ∧ s ≠ blocked ∧ s ≠ cancelled

/-- a spend or backoff wake would take the row for its park -/
def Db.parkMarked (db : Db) (i : TaskId) (t : Task) : Prop :=
  t.blockerReason = some providerSpendParkBlocker ∨
    db.latestBlockOrRetryReason i = some providerSpendParkReason ∨
    db.latestBlockOrRetryReason i = some waitingProviderBackoffReason

structure DepInv (db : Db) : Prop where
  events : ∀ e ∈ db.events, e.marks → e.task < db.tasks.length
  promoted : ∀ (i : TaskId) (t : Task), db.tasks[i]? = some t → t.status.promoted → db.everReady i
  unmarked : ∀ (i : TaskId) (t : Task), db.tasks[i]? = some t → t.status = .blocked → db.parkMarked i t →
    db.everReady i
  completed : ∀ i, db.everReady i → db.depsCompleted i
  jobs : ∀ i, db.worksOn i → db.everReady i

theorem DepInv.init : DepInv {} where
  events := by simp
  promoted := by simp
  unmarked := by simp
  completed := by simp [Db.everReady]
  jobs := by simp [Db.worksOn]

/-- what a step may do: it adds events, edges only to tasks that were never promoted, and leaves
completed tasks completed -/
theorem DepInv.step (h : DepInv db) (es : List TaskEvent) (hev : db'.events = db.events ++ es)
    (hes : ∀ e ∈ es, e.marks → e.task < db'.tasks.length)
    (hlen : db.tasks.length ≤ db'.tasks.length)
    (hrow : ∀ (i : TaskId) (t' : Task), db'.tasks[i]? = some t' →
      (t'.status.promoted → db'.everReady i) ∧
      (t'.status = .blocked → db'.parkMarked i t' → db'.everReady i))
    (hkept : ∀ (d : TaskId) (t : Task), db.tasks[d]? = some t → t.status = .completed →
      ∃ t', db'.tasks[d]? = some t' ∧ t'.status = .completed)
    (hdeps : ∀ i d, ⟨i, d⟩ ∈ db'.deps → db.everReady i → ⟨i, d⟩ ∈ db.deps)
    (hnew : ∀ i, (∃ e ∈ es, e.promotes i) → db'.depsCompleted i)
    (hjobs : ∀ i, db'.worksOn i → db'.everReady i) : DepInv db' where
  events := by
    intro e he hm
    rw [hev] at he
    rcases List.mem_append.1 he with he | he
    · exact Nat.lt_of_lt_of_le (h.events e he hm) hlen
    · exact hes e he hm
  promoted i t ht := (hrow i t ht).1
  unmarked i t ht := (hrow i t ht).2
  completed := by
    intro i hi
    rw [Db.everReady, hev, List.any_append, Bool.or_eq_true] at hi
    rcases hi with hi | hi
    · intro d hd
      obtain ⟨t, ht, hs⟩ := h.completed i hi d (hdeps i d hd hi)
      exact hkept d t ht hs
    · exact hnew i (List.any_eq_true.1 hi)
  jobs := hjobs

/-! ## what the wakes recognise -/

theorem TaskEvent.blockOrRetry_marks {i : TaskId} {e : TaskEvent} (h : e.blockOrRetry i) :
    e.task = i ∧ e.marks := by
  simp only [blockOrRetry, decide_eq_true_eq] at h
  rcases h with ⟨ht, hk | hk⟩ <;> simp [marks, ht, hk]

theorem Db.latest_addEvents_of_none {i : TaskId} {es : List TaskEvent}
    (h : ∀ e ∈ es, ¬ e.blockOrRetry i) :
    (db.addEvents es).latestBlockOrRetryReason i = db.latestBlockOrRetryReason i := by
  have hnil : es.filter (TaskEvent.blockOrRetry i) = [] := List.filter_eq_nil_iff.2 h
  simp [latestBlockOrRetryReason, List.filter_append, hnil]

theorem Db.latest_addEvents {i : TaskId} {es : List TaskEvent} {r : Option String}
    (hex : ∃ e ∈ es, e.blockOrRetry i) (hall : ∀ e ∈ es, e.blockOrRetry i → e.reason = r) :
    (db.addEvents es).latestBlockOrRetryReason i = r := by
  obtain ⟨e, he, hb⟩ := hex
  have hne : es.filter (TaskEvent.blockOrRetry i) ≠ [] :=
    List.ne_nil_of_mem (List.mem_filter.2 ⟨he, hb⟩)
  have hlast : (es.filter (TaskEvent.blockOrRetry i)).getLast hne ∈ es.filter _ :=
    List.getLast_mem hne
  obtain ⟨hmem, hbr⟩ := List.mem_filter.1 hlast
  rw [latestBlockOrRetryReason, addEvents_events, List.filter_append,
    List.getLast?_append_of_ne_nil _ hne, List.getLast?_eq_some_getLast hne]
  exact hall _ hmem hbr

/-- the text of a repair park is not the text of a spend park -/
theorem repairBlocker_ne (reason : String) (child : TaskId) :
    reason ++ "; waiting on repair child " ++ toString child ≠ providerSpendParkBlocker := by
  intro h
  have hmem : ';' ∈ (reason ++ "; waiting on repair child " ++ toString child).toList := by
    simp only [String.toList_append, List.mem_append]
    exact .inl (.inr (by decide))
  rw [h] at hmem
  exact absurd hmem (by decide)

/-- the text of a dependency block is not the text of a spend park -/
theorem blockerText_ne (d : TaskId) (s : TaskStatus) :
    blockerText d s ≠ providerSpendParkBlocker := by
  intro h
  have hmem : ',' ∈ (blockerText d s).toList := by
    unfold blockerText
    simp only [String.toList_append, List.mem_append]
    exact .inl (.inl (.inr (by decide)))
  rw [h] at hmem
  exact absurd hmem (by decide)

/-! ## the moves -/

/-- an inserted edge belongs to a new task or to one that was never promoted, completed tasks stay
completed, and a resumed task has its dependencies completed -/
def depGuard : Guard where
  insert db _ ds := ∀ d ∈ ds, db.tasks.length ≤ d.task ∨ ¬ db.everReady d.task
  row _ _ t t' := t.status = .completed → t'.status = .completed
  resume db i := db.depsCompleted i

theorem Db.parkMarked_addEvents {i : TaskId} {t : Task} {es : List TaskEvent}
    (hes : ∀ e ∈ es, ¬ e.blockOrRetry i) :
    (db.addEvents es).parkMarked i t ↔ db.parkMarked i t := by
  unfold parkMarked
  rw [latest_addEvents_of_none hes]

/-- a row that the step leaves alone -/
theorem DepInv.row_kept (h : DepInv db) {i : TaskId} {t : Task} {es : List TaskEvent}
    (ht : db.tasks[i]? = some t) (hes : ∀ e ∈ es, ¬ e.blockOrRetry i) :
    (t.status.promoted → (db.addEvents es).everReady i) ∧
      (t.status = .blocked → (db.addEvents es).parkMarked i t → (db.addEvents es).everReady i) := by
  refine ⟨fun hp => ?_, fun hb hm => ?_⟩
  · exact Db.everReady_addEvents.2 (.inl (h.promoted i t ht hp))
  · rw [Db.parkMarked_addEvents hes] at hm
    exact Db.everReady_addEvents.2 (.inl (h.unmarked i t ht hb hm))

theorem DepInv.notes (h : DepInv db) {es : List TaskEvent} (hes : ∀ e ∈ es, ¬ e.marks) :
    DepInv (db.addEvents es) := by
  have hnone : ∀ i, ∀ e ∈ es, ¬ e.blockOrRetry i :=
    fun i e he hb => hes e he (TaskEvent.blockOrRetry_marks hb).2
  refine h.step es rfl (fun e he hm => absurd hm (hes e he)) le_rfl
    (fun i t ht => h.row_kept ht (hnone i)) (fun d t ht hs => ⟨t, ht, hs⟩) (fun i d hd _ => hd)
    ?_ (fun i hw => Db.everReady_addEvents.2 (.inl (h.jobs i hw)))
  rintro i ⟨e, he, hp⟩
  exact absurd (TaskEvent.promotes_marks hp) (hes e he)

/-- promoted tasks exist -/
theorem DepInv.lt_length (h : DepInv db) {i : TaskId} (hi : db.everReady i) :
    i < db.tasks.length := by
  obtain ⟨e, he, hp⟩ := List.any_eq_true.1 hi
  have htask : e.task = i := by
    simp only [TaskEvent.promotes, decide_eq_true_eq] at hp
    exact hp.1
  exact htask ▸ h.events e he (TaskEvent.promotes_marks hp)

theorem DepInv.insert (h : DepInv db) {ts : List Task} {ds : List Dep}
    (hts : ∀ t ∈ ts, t.isNew) (hds : depGuard.insert db ts ds) :
    DepInv { db with tasks := db.tasks ++ ts, deps := db.deps ++ ds } := by
  refine h.step [] (by simp) (by simp) (by simp) (fun i t ht => ?_) (fun d t ht hs => ?_)
    (fun i d hd hi => ?_) (by simp) h.jobs
  · rw [List.getElem?_append] at ht
    split at ht
    · exact ⟨h.promoted i t ht, h.unmarked i t ht⟩
    · have hs := (hts t (List.mem_of_getElem? ht)).1
      simp [hs, TaskStatus.promoted]
  · exact ⟨t, by rw [List.getElem?_append_left (List.getElem?_eq_some_iff.1 ht).1, ht], hs⟩
  · rcases List.mem_append.1 hd with hd | hd
    · exact hd
    · rcases hds _ hd with hlen | hnever
      · exact absurd (h.lt_length hi) (Nat.not_lt.2 hlen)
      · exact absurd hi hnever

/-- completed dependencies stay so where completed tasks do -/
theorem Db.depsCompleted.mono {i : TaskId} (h : db.depsCompleted i)
    (hdeps : ∀ d, ⟨i, d⟩ ∈ db'.deps → ⟨i, d⟩ ∈ db.deps)
    (hkept : ∀ (d : TaskId) (t : Task), db.tasks[d]? = some t → t.status = .completed →
      ∃ t', db'.tasks[d]? = some t' ∧ t'.status = .completed) : db'.depsCompleted i := by
  intro d hd
  obtain ⟨t, ht, hs⟩ := h d (hdeps d hd)
  exact hkept d t ht hs

theorem DepInv.recompute (h : DepInv db) (g : GoalId) : DepInv (recomputeTaskReadiness db g) := by
  have hkept : ∀ (d : TaskId) (t : Task), db.tasks[d]? = some t → t.status = .completed →
      ∃ t', (recomputeTaskReadiness db g).tasks[d]? = some t' ∧ t'.status = .completed :=
    fun d t ht hs => recompute_completed.2 ⟨t, ht, hs⟩
  have hold : ∀ i, db.everReady i → (recomputeTaskReadiness db g).everReady i :=
    fun i hi => Db.everReady_addEvents.2 (.inl hi)
  refine h.step _ (recompute_events db g) (fun e he _ => ?_) (by simp) (fun i t' ht' => ?_) hkept
    (fun i d hd _ => hd) ?_ (fun i hw => hold i (h.jobs i hw))
  · obtain ⟨t, ht, -⟩ := mem_recomputeEvents.1 he
    rw [recompute_length]
    exact (List.getElem?_eq_some_iff.1 ht).1
  · obtain ⟨t, ht⟩ : ∃ t, db.tasks[i]? = some t := by
      rw [recompute_getElem?] at ht'
      obtain ⟨t, ht, -⟩ := Option.map_eq_some_iff.1 ht'
      exact ⟨t, ht⟩
    rcases recompute_cases (g := g) ht with h1 | ⟨hp, hr, h1⟩ | ⟨hp, d, s, hr, h1⟩
    · rw [ht'] at h1
      cases h1
      refine ⟨fun hp => hold i (h.promoted i _ ht hp), fun hb hm => ?_⟩
      -- a blocked row is none that the pass looks at
      have hnone : ∀ e ∈ recomputeEvents db g, ¬ e.blockOrRetry i := by
        intro e he hbr
        obtain ⟨t1, ht1, hpend, -⟩ := mem_recomputeEvents.1 he
        rw [(TaskEvent.blockOrRetry_marks hbr).1, ht] at ht1
        cases ht1
        rw [(Task.pendingIn_iff.1 hpend).2] at hb
        exact absurd hb (by simp)
      have hm' : (db.addEvents (recomputeEvents db g)).parkMarked i t' := hm
      rw [Db.parkMarked_addEvents hnone] at hm'
      exact hold i (h.unmarked i _ ht hb hm')
    · rw [ht'] at h1
      cases h1
      have hev : { task := i, kind := .ready } ∈ recomputeEvents db g :=
        mem_recomputeEvents.2 ⟨t, ht, hp, by simp [hr, Readiness.event]⟩
      have hready : (recomputeTaskReadiness db g).everReady i :=
        Db.everReady_addEvents.2 (.inr ⟨_, hev, by simp [TaskEvent.promotes]⟩)
      exact ⟨fun _ => hready, fun _ _ => hready⟩
    · rw [ht'] at h1
      cases h1
      refine ⟨by simp [TaskStatus.promoted], fun _ hm => ?_⟩
      have hev : { task := i, kind := .blocked } ∈ recomputeEvents db g :=
        mem_recomputeEvents.2 ⟨t, ht, hp, by simp [hr, Readiness.event]⟩
      have hlatest : (db.addEvents (recomputeEvents db g)).latestBlockOrRetryReason i = none := by
        refine Db.latest_addEvents ⟨_, hev, by simp [TaskEvent.blockOrRetry]⟩ fun e he hbr => ?_
        obtain ⟨t1, -, -, heq⟩ := mem_recomputeEvents.1 he
        rw [(TaskEvent.blockOrRetry_marks hbr).1, hr] at heq
        simp only [Readiness.event, Option.some.injEq] at heq
        rw [← heq]
      rcases hm with hm | hm | hm
      · exact absurd (Option.some.inj hm) (blockerText_ne d s)
      · exact absurd (hlatest.symm.trans hm) (by simp)
      · exact absurd (hlatest.symm.trans hm) (by simp)
  · rintro i ⟨e, he, hp⟩
    obtain ⟨t, ht, -, heq⟩ := mem_recomputeEvents.1 he
    simp only [TaskEvent.promotes, decide_eq_true_eq] at hp
    rw [hp.1] at heq
    have hr : db.readiness i = .ready := by
      unfold Readiness.event at heq
      split at heq
      · exact absurd heq (by simp)
      · assumption
      · cases heq
        simp at hp
    exact (Db.readiness_ready hr).mono (fun d hd => hd) hkept

/-- the marked events of a turn are about its task -/
theorem Turn.records_task {k : Turn} {i : TaskId} {es : List TaskEvent} (h : k.records i es)
    {e : TaskEvent} (he : e ∈ es) (hm : e.marks) : e.task = i := by
  cases k with
  | retry | reset | wake | resume =>
    obtain ⟨r, rfl⟩ := h
    rw [List.mem_singleton.1 he]
  | park =>
    obtain ⟨r, rfl⟩ := h
    rw [List.mem_singleton.1 he]
  | repairPark =>
    cases h
    rw [List.mem_singleton.1 he]
  | touch | dispatch | cancel | outcome => exact absurd hm (h e he).1

/-- the turns that promote -/
def Turn.promotes (k : Turn) : Bool := k = retry ∨ k = reset ∨ k = wake ∨ k = resume

theorem Turn.records_promotes {k : Turn} {i j : TaskId} {es : List TaskEvent}
    (h : k.records i es) {e : TaskEvent} (he : e ∈ es) (hp : e.promotes j) :
    k.promotes ∧ i = j := by
  have hj : e.task = j := by
    simp only [TaskEvent.promotes, decide_eq_true_eq] at hp
    exact hp.1
  have hi := Turn.records_task h he (TaskEvent.promotes_marks hp)
  refine ⟨?_, hi.symm.trans hj⟩
  cases k with
  | retry | reset | wake | resume => rfl
  | park =>
    obtain ⟨r, rfl⟩ := h
    rw [List.mem_singleton.1 he] at hp
    simp [TaskEvent.promotes] at hp
  | repairPark =>
    cases h
    rw [List.mem_singleton.1 he] at hp
    simp [TaskEvent.promotes] at hp
  | touch | dispatch | cancel | outcome =>
    exact absurd (TaskEvent.promotes_marks hp) (h e he).1

/-- a turn that promotes records it -/
theorem Turn.promotes_records {k : Turn} {i : TaskId} {es : List TaskEvent}
    (h : k.records i es) (hk : k.promotes) : ∃ e ∈ es, e.promotes i := by
  cases k with
  | retry | reset | wake | resume =>
    obtain ⟨r, rfl⟩ := h
    exact ⟨_, List.mem_singleton_self _, by simp [TaskEvent.promotes]⟩
  | touch | dispatch | park | repairPark | cancel | outcome => exact absurd hk (by decide)

/-- The task of a turn was promoted before, or is promoted now, or is left where a promotion is
not asked for. -/
theorem DepInv.turn (h : DepInv db) {i : TaskId} {t t' : Task} {k : Turn}
    (ht : db.tasks[i]? = some t) (hk : k.changes db i t t') :
    k = .touch ∨ k = .repairPark ∨ k = .resume ∨ t'.status = .cancelled ∨ db.everReady i := by
  have hprom : t.status.promoted → db.everReady i := h.promoted i t ht
  cases k with
  | touch => exact .inl rfl
  | repairPark => exact .inr (.inl rfl)
  | resume => exact .inr (.inr (.inl rfl))
  | cancel => exact .inr (.inr (.inr (.inl hk.2)))
  | dispatch | retry | reset | park =>
    exact .inr (.inr (.inr (.inr (hprom (by simp [hk.1, TaskStatus.promoted])))))
  | wake => exact .inr (.inr (.inr (.inr (h.unmarked i t ht hk.1 hk.2.2))))
  | outcome =>
    refine .inr (.inr (.inr (.inr ?_)))
    rcases hk.1 with hw | hci
    · exact h.jobs i hw
    · exact hprom (by simp [hci, TaskStatus.promoted])

/-- a turn leaves a completed task completed -/
theorem Turn.changes_completed {i : TaskId} {t t' : Task} {k : Turn} (hk : k.changes db i t t')
    (hG : k.guarded → depGuard.row i k t t') (hs : t.status = .completed) :
    t'.status = .completed := by
  cases k with
  | touch => exact hk.1.trans hs
  | dispatch | retry | reset | park | wake =>
    exact absurd (hs.symm.trans hk.1) (by simp)
  | repairPark | cancel => exact absurd (by simp [hs, TaskStatus.terminal]) hk.1
  | resume | outcome => exact hG rfl hs

theorem DepInv.row (h : DepInv db) {i : TaskId} {t t' : Task} {k : Turn} {es : List TaskEvent}
    (ht : db.tasks[i]? = some t) (hk : k.changes db i t t') (hes : k.records i es)
    (hG : k.guarded → depGuard.row i k t t') (hr : k = .resume → db.depsCompleted i) :
    DepInv (Db.addEvents { db with tasks := db.tasks.set i t' } es) := by
  have hi : i < db.tasks.length := (List.getElem?_eq_some_iff.1 ht).1
  have hkept : ∀ (d : TaskId) (r : Task), db.tasks[d]? = some r → r.status = .completed →
      ∃ r', (db.tasks.set i t')[d]? = some r' ∧ r'.status = .completed := by
    intro d r hd hs
    rw [getElem?_set_row ht]
    split
    · next hid =>
      subst hid
      rw [ht] at hd
      cases hd
      exact ⟨t', rfl, Turn.changes_completed hk hG hs⟩
    · exact ⟨r, hd, hs⟩
  have hold : ∀ j, db.everReady j → (db.addEvents es).everReady j :=
    fun j hj => Db.everReady_addEvents.2 (.inl hj)
  refine h.step es rfl (fun e he hm => ?_) (by simp) (fun j r hj => ?_) hkept (fun j d hd _ => hd)
    ?_ (fun j hw => hold j (h.jobs j hw))
  · rw [Turn.records_task hes he hm]
    simpa using hi
  · rw [Db.addEvents_tasks, getElem?_set_row ht] at hj
    split at hj
    · next hij =>
      subst hij
      cases hj
      have hready : db.everReady i → (db.addEvents es).everReady i := hold i
      rcases h.turn ht hk with rfl | rfl | rfl | hcanc | hever
      · -- the row keeps its status and its reason
        have hnone : ∀ e ∈ es, ¬ e.blockOrRetry i :=
          fun e he hb => (hes e he).1 (TaskEvent.blockOrRetry_marks hb).2
        obtain ⟨h1, h2⟩ := h.row_kept ht hnone
        rw [hk.1]
        refine ⟨h1, fun hb hm => h2 hb ?_⟩
        rcases hm with hm | hm
        · exact .inl (hk.2 ▸ hm)
        · exact .inr hm
      · -- a repair park carries marks of its own
        obtain ⟨-, hb, reason, child, hreason⟩ := hk
        cases hes
        refine ⟨by simp [hb, TaskStatus.promoted], fun _ hm => ?_⟩
        have hlatest : (db.addEvents
            [{ task := i, kind := .blocked, reason := some repairParkReason }]
            ).latestBlockOrRetryReason i = some repairParkReason :=
          Db.latest_addEvents ⟨_, List.mem_singleton_self _, by simp [TaskEvent.blockOrRetry]⟩
            fun e he _ => by rw [List.mem_singleton.1 he]
        rcases hm with hm | hm | hm
        · rw [hreason] at hm
          exact absurd (Option.some.inj hm) (repairBlocker_ne reason child)
        · exact absurd (hlatest.symm.trans hm) (by decide)
        · exact absurd (hlatest.symm.trans hm) (by decide)
      · have hnow : (db.addEvents es).everReady i :=
          Db.everReady_addEvents.2 (.inr (Turn.promotes_records hes rfl))
        exact ⟨fun _ => hnow, fun _ _ => hnow⟩
      · simp [hcanc, TaskStatus.promoted]
      · exact ⟨fun _ => hready hever, fun _ _ => hready hever⟩
    · -- the marked events are about another task
      next hij =>
      refine h.row_kept hj fun e he hb => hij ?_
      obtain ⟨hej, hm⟩ := TaskEvent.blockOrRetry_marks hb
      exact (Turn.records_task hes he hm).symm.trans hej
  · rintro j ⟨e, he, hp⟩
    obtain ⟨hkp, rfl⟩ := Turn.records_promotes hes he hp
    have hdeps : db.depsCompleted i := by
      rcases h.turn ht hk with rfl | rfl | rfl | hcanc | hever
      · exact absurd hkp (by decide)
      · exact absurd hkp (by decide)
      · exact hr rfl
      · cases k with
        | retry | reset | resume => exact absurd (hcanc.symm.trans hk.2) (by simp)
        | wake => exact absurd (hcanc.symm.trans hk.2.1) (by simp)
        | touch | dispatch | park | repairPark | cancel | outcome => exact absurd hkp (by decide)
      · exact h.completed i hever
    exact hdeps.mono (fun d hd => hd) hkept

theorem DepInv.jobsKept (h : DepInv db) {revived : JobId → Prop} {js : List Job}
    (hj : JobsKept revived db.jobs js) : DepInv { db with jobs := js } := by
  refine h.step [] (by simp) (by simp) le_rfl (fun i t ht => ⟨h.promoted i t ht, h.unmarked i t ht⟩)
    (fun d t ht hs => ⟨t, ht, hs⟩) (fun i d hd _ => hd) (by simp) ?_
  rintro i ⟨j, r', hr', hty, hname⟩
  obtain ⟨r, hr, ht, hi, -⟩ := hj j r' hr'
  refine h.jobs i ⟨j, r, hr, ht ▸ hty, ?_⟩
  rw [← hname, Job.mainaiTask, Job.mainaiTask, hi]

theorem DepInv.newJob (h : DepInv db) {r : Job} (hr : r.jobType = .taskExecution →
      ∃ i t, r.mainaiTask = some i ∧ db.tasks[i]? = some t ∧
        (t.status = .ready ∨ t.status = .running)) :
    DepInv { db with jobs := db.jobs ++ [r] } := by
  refine h.step [] (by simp) (by simp) le_rfl (fun i t ht => ⟨h.promoted i t ht, h.unmarked i t ht⟩)
    (fun d t ht hs => ⟨t, ht, hs⟩) (fun i d hd _ => hd) (by simp) ?_
  rintro i ⟨j, r', hr', hty, hname⟩
  rcases getElem?_insert hr' with hold | ⟨-, rfl⟩
  · exact h.jobs i ⟨j, r', hold, hty, hname⟩
  · obtain ⟨i', t, hname', ht, hs⟩ := hr hty
    rw [hname] at hname'
    cases hname'
    refine h.promoted i t ht ?_
    rcases hs with hs | hs <;> simp [hs, TaskStatus.promoted]

theorem DepInv.aux (h : DepInv db) (ht : db'.tasks = db.tasks) (hd : db'.deps = db.deps)
    (he : db'.events = db.events) (hj : db'.jobs = db.jobs) : DepInv db' := by
  have hready : ∀ i, db'.everReady i = db.everReady i := fun i => by
    rw [Db.everReady, Db.everReady, he]
  refine h.step [] (by simp [he]) (by simp) (by rw [ht]) (fun i t hi => ?_) (fun d t hd hs => ?_)
    (fun i d hi _ => hd ▸ hi) (by simp) (fun i hw => ?_)
  · rw [ht] at hi
    rw [hready]
    refine ⟨h.promoted i t hi, fun hb hm => h.unmarked i t hi hb ?_⟩
    simpa [Db.parkMarked, Db.latestBlockOrRetryReason, he] using hm
  · exact ⟨t, ht ▸ hd, hs⟩
  · rw [hready]
    obtain ⟨j, r, hr, hty, hname⟩ := hw
    exact h.jobs i ⟨j, r, hj ▸ hr, hty, hname⟩

theorem Move.depInv (h : DepInv db) (hm : Move depGuard db db') : DepInv db' := by
  cases hm with
  | notes es hes => exact h.notes fun e he => (hes e he).1
  | insert ts ds es hts hes hG => exact (h.insert hts hG).notes hes
  | recompute g => exact h.recompute g
  | row k es ht hc hmax hplan hatt hk hes hG hr => exact h.row ht hk hes hG hr
  | jobs hj => exact h.jobsKept hj
  | newJob r hr _ => exact h.newJob hr
  | aux ht hd he hj => exact h.aux ht hd he hj

/-! ## the operations -/

/-- every dependency of the task is completed, as a test -/
def Db.depsMet (db : Db) (i : TaskId) : Bool :=
  (db.depIds i).all fun d => db.tasks[d]?.any fun t => t.status = .completed

theorem Db.depsMet_iff {i : TaskId} : db.depsMet i ↔ db.depsCompleted i := by
  simp only [depsMet, List.all_eq_true, Db.mem_depIds, depsCompleted, Option.any_eq_true,
    decide_eq_true_eq]

/-- the task was promoted, and is back at `blocked`, where it may gain a prerequisite -/
def Db.parkedAfterReady (db : Db) (i : TaskId) : Bool :=
  db.everReady i ∧ db.tasks[i]?.any fun t => t.status.safeToAddPrerequisite

/-- a prerequisite is added to no task that was ever promoted, unless the call is a replay, and a
repair resumes its source with completed dependencies -/
def Op.edgesKept (s : Sys) : Op → Bool
  | .insertPlanTasks c => s.db.findReplay c.plan c.idempotencyKey ≠ [] ∨
    c.existingTaskDependencies.all fun e => ¬ s.db.parkedAfterReady e.existingTaskId
  | .resumeSourceAfterRepair i =>
    ¬ (s.db.tasks[i]?.any fun t => t.status.resumable) ∨ s.db.depsMet i
  | _ => true

/-- what dependency safety asks of an operation; no run may end late on a completed task -/
def Op.keepsDeps (s : Sys) (op : Op) : Bool :=
  op.edgesKept s ∧ ¬ op.lateEnding s (· = .completed)

theorem depGuard_admitsTurn {i : TaskId} {k : Turn} {prior : TaskStatus → Bool}
    {next : TaskStatus} (h : ¬ prior .completed) : depGuard.admitsTurn db i k prior next := by
  intro t t' _ hprior _ _ _ hs
  rw [hs] at hprior
  exact absurd hprior h

theorem Op.admits_depGuard {s : Sys} {op : Op} (hr : s.db.rowsOk) (h : op.keepsDeps s) :
    depGuard.admits s op := by
  simp only [keepsDeps, decide_eq_true_eq] at h
  obtain ⟨hop, hlate⟩ := h
  have hout : depGuard.admitsOutcome s.db (op.outcome s) := by
    intro i loaded new t ho ht hc hs
    refine (Op.flushed_status_of_done (· = .completed) (fun st hst => ?_) hr hlate ho ht
      hc (by simp [hs])).trans hs
    simp only [decide_eq_true_eq] at hst
    simp [hst, TaskStatus.terminal]
  cases op with
  | createPlan now g specs => exact fun _ _ _ _ hnew d hd => .inl (hnew d hd)
  | insertPlanTasks c =>
    intro hnew hvalid ts ds _ hds d hd
    refine (hds d hd).imp_right ?_
    rintro ⟨e, he, hed⟩ hever
    obtain ⟨t, ht, hsafe⟩ := PlanInsertion.validate_edges hvalid e he
    simp only [edgesKept, hnew, ne_eq, not_true_eq_false, false_or, decide_eq_true_eq] at hop
    have hpark := List.all_eq_true.1 hop e he
    simp [Db.parkedAfterReady, hed, hever, hed ▸ ht, hsafe] at hpark
  | resetTaskForTakeover i =>
    have hreset : depGuard.admitsTurn s.db i .reset (· = .running) .ready :=
      depGuard_admitsTurn (by decide)
    exact hreset
  | executeTakeover env k =>
    exact fun _ _ _ => ⟨depGuard_admitsTurn (by decide), fun _ => trivial⟩
  | parkProviderSpendDefer now w | releaseProviderWait now w delay =>
    exact fun _ _ => depGuard_admitsTurn (by decide)
  | parkSourceTaskForRepair i child reason =>
    intro t t' _ hprior _ _ _ hs
    simp [hs, TaskStatus.terminal] at hprior
  | resumeSourceAfterRepair i =>
    refine ⟨depGuard_admitsTurn (by simp [TaskStatus.resumable]), fun t ht hs => ?_⟩
    have hmet : s.db.depsMet i := by simpa [edgesKept, ht, hs] using hop
    exact Db.depsMet_iff.1 hmet
  | createJob env c => trivial
  | dispatchReadyTask env i | dispatchCrash env i => exact fun _ => trivial
  | retryJob j loaded => trivial
  | _ => exact hout

/-- **Dependency safety**, in every run whose operations keep the dependencies: a task that is
ready, running, waiting for CI or completed has all its dependencies completed. -/
theorem dependency_safety (os : List Op)
    (h : Run.Meets Op.step (fun s op => op.keepsDeps s) {} os) (i : TaskId) (t : Task)
    (ht : (sysRun os).db.tasks[i]? = some t)
    (hs : t.status = .ready ∨ t.status = .running ∨ t.status = .waitingCi ∨
      t.status = .completed) : (sysRun os).db.depsCompleted i := by
  have hinv : (sysRun os).db.rowsOk ∧ DepInv (sysRun os).db :=
    sysRun_inv (G := depGuard) (I := fun db => db.rowsOk ∧ DepInv db)
      ⟨by simp [Db.rowsOk], .init⟩ (fun _ _ hi hm => ⟨hm.rowsOk hi.1, hm.depInv hi.2⟩)
      (fun _ _ hi hop => Op.admits_depGuard hi.1 hop) h
  refine hinv.2.completed i (hinv.2.promoted i t ht ?_)
  rcases hs with hs | hs | hs | hs <;> simp [hs, TaskStatus.promoted]

/-! ## two runs -/

/-- the first of two tasks is completed -/
def promotedRun : List Op :=
  begunRun [sampleSpec [] 3, sampleSpec [0] 3] ++ [.completeRun 5 firstRunner true 30]

set_option maxRecDepth 8000 in
theorem dependency_safety_promotedRun : (sysRun promotedRun).db.depsCompleted 1 :=
  dependency_safety promotedRun (by decide) 1 _ rfl (by decide)

/-- a new task, and an edge from task 0 to it -/
def lateEdge : PlanInsertion where
  goal := 0
  plan := 0
  authorityKind := "founder_decision"
  authorizedInstruction := "build it"
  idempotencyKey := "insertion-1"
  tasks := [{ description := "first this", taskType := "repo_edit" }]
  existingTaskDependencies := [⟨0, 0⟩]
  sourceType := "founder"
  sourceRef := "note-1"
  reason := "a prerequisite was missed"

/-- the running task is parked for its provider, gains a prerequisite, and is woken -/
def lateEdgeRun : List Op :=
  begunRun [sampleSpec [] 3] ++
    [.releaseProviderWait 5 firstRunner 10, .insertPlanTasks lateEdge, .wakeDueBackoff 20 5]

set_option maxRecDepth 8000 in
theorem ready_with_open_prerequisite :
    ∃ t, (sysRun lateEdgeRun).db.tasks[0]? = some t ∧ t.status = .ready ∧
      ¬ (sysRun lateEdgeRun).db.depsCompleted 0 := by
  refine ⟨_, rfl, by decide, fun h => ?_⟩
  exact absurd (Db.depsMet_iff.2 h) (by decide)

end LifeAI
