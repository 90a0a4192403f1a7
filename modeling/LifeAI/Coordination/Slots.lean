import LifeAI.Coordination.Sessions

/-!
# Duplicates and slots under concurrent transactions

What is checked is read before the commit, and a transition out of `failed` checks nothing.
`WorkStep.fits` is what the state at a commit has to be like.

* `WorkDb.Sound`  no two live rows without a group share their canonical work, and no agent has
               more dispatched rows than its limit;
* `WorkSession.Reopens`, `WorkSession.FindsSlot`   the conditions of a commit.
-/

namespace LifeAI

/-- an assignment that has not ended, outside of a parallel exploration -/
def WorkAssignment.live (r : WorkAssignment) : Bool :=
  r.parallelExplorationGroupId = none ∧ ¬ r.status.terminal

/-- the rows of the agent that a dispatch has moved to `waiting_agent` or `running` -/
def slots (rows : List WorkAssignment) (a : AgentId) : Nat :=
  rows.countP fun r => r.agentId = a ∧ r.dispatched

structure WorkDb.Sound (db : WorkDb) : Prop where
  unique : ∀ (i j : AssignmentId) (r q : WorkAssignment), db.rows[i]? = some r →
    db.rows[j]? = some q → r.live → q.live → r.canonicalWorkKey = q.canonicalWorkKey → i = j
  slots : ∀ (a : AgentId) (agent : CoordinationAgent), db.agents[a]? = some agent →
    slots db.rows a ≤ agent.concurrencyLimit

/-! ## when a commit fits -/

namespace WorkSession

/-- the row as it is after the commit of the session, but for the dispatch flag -/
def onceCommitted (s : WorkSession) (i : AssignmentId) (r : WorkAssignment) : WorkAssignment :=
  { r with status := (s.flushed i).getD r.status }

/-- a row that the commit reopens meets no live row of the same work -/
def ReopensAlone (s : WorkSession) (rows : List WorkAssignment) : Prop :=
  ∀ (i j : AssignmentId) (r q : WorkAssignment), rows[i]? = some r → rows[j]? = some q →
    r.status.terminal → (s.onceCommitted i r).live → (s.onceCommitted j q).live →
      r.canonicalWorkKey = q.canonicalWorkKey → i = j

/-- a row that the commit dispatches finds a slot of its agent free -/
def FindsSlot (s : WorkSession) (db : WorkDb) (id : AssignmentId) : Prop :=
  ∀ (r : WorkAssignment) (agent : CoordinationAgent), (s.settled db.rows)[id]? = some r →
    db.agents[r.agentId]? = some agent → s.own.any (·.occupies) → ¬ r.dispatched →
      slots (s.settled db.rows) r.agentId < agent.concurrencyLimit

/-- the commit fits in the state that it meets -/
def fits (s : WorkSession) (db : WorkDb) : Prop :=
  match s.op with
  | .create c => s.fresh.isSome → c.parallelExplorationGroupId = none →
    ∀ r ∈ db.rows, r.live → r.canonicalWorkKey ≠ c.key
  | .transition _ _ => s.ReopensAlone db.rows
  | .dispatch id _ => s.ReopensAlone db.rows ∧ s.FindsSlot db id

end WorkSession

/-- a step fits if it is not a commit, or a commit that fits -/
def WorkStep.fits (db : WorkDb) : WorkStep → Prop
  | .advance n => ∀ s rest, db.sessions[n]? = some s → s.todo = .commit :: rest → s.fits db
  | _ => True

/-! ## counting -/

variable {α : Type} {p : α → Bool} {l l' : List α} {f : α → α}

theorem countP_le_of_getElem? (hlen : l'.length = l.length)
    (h : ∀ (i : Nat) (x x' : α), l[i]? = some x → l'[i]? = some x' → p x' → p x) :
    l'.countP p ≤ l.countP p := by
  induction l generalizing l' with
  | nil =>
    obtain rfl := List.length_eq_zero_iff.1 hlen
    exact Nat.le_refl _
  | cons x l ih =>
    cases l' with
    | nil => cases hlen
    | cons x' l' =>
      have htail : l'.countP p ≤ l.countP p :=
        ih (Nat.succ.inj hlen) fun i y y' hy hy' => h (i + 1) y y' hy hy'
      have hhead : p x' → p x := h 0 x x' rfl rfl
      rw [List.countP_cons, List.countP_cons]
      by_cases hx' : p x' = true
      · rw [if_pos hx', if_pos (hhead hx')]
        omega
      · rw [if_neg hx']
        split <;> omega

theorem countP_modify {i : Nat} {x : α} (hx : l[i]? = some x) :
    (l.modify i f).countP p + (if p x then 1 else 0) =
      l.countP p + (if p (f x) then 1 else 0) := by
  induction l generalizing i with
  | nil => cases hx
  | cons y l ih =>
    cases i with
    | zero =>
      cases hx
      rw [List.modify_zero_cons, List.countP_cons, List.countP_cons]
      omega
    | succ i =>
      have hrest := ih hx
      rw [List.modify_succ_cons, List.countP_cons, List.countP_cons]
      omega

/-! ## what a commit changes -/

variable {db : WorkDb} {s : WorkSession} {rows : List WorkAssignment} {i id : AssignmentId}
  {r r' : WorkAssignment}

theorem settled_getElem? : (s.settled rows)[i]? = rows[i]?.map fun r =>
    match s.released.lookup i with
    | some st => r.put false st
    | none => r := by
  unfold WorkSession.settled
  exact List.getElem?_mapIdx

/-- the columns that decide over duplicates, and the agent -/
def WorkAssignment.agrees (r q : WorkAssignment) : Prop :=
  r.agentId = q.agentId ∧ r.canonicalWorkKey = q.canonicalWorkKey ∧
    r.parallelExplorationGroupId = q.parallelExplorationGroupId ∧ r.status = q.status

theorem publish_of_target (h : s.op.target = some id) :
    ∃ b, s.publish rows = (s.settled rows).modify id (s.writeOwn b) := by
  unfold WorkSession.publish
  cases hop : s.op with
  | create c =>
    rw [hop] at h
    cases h
  | transition id' target =>
    rw [hop] at h
    cases h
    exact ⟨false, rfl⟩
  | dispatch id' env =>
    rw [hop] at h
    cases h
    exact ⟨true, rfl⟩

/-- a row after the commit of a transition or a dispatch -/
theorem publish_row (h : s.op.target = some id) (i : AssignmentId) :
    ∃ g : WorkAssignment → WorkAssignment, (s.publish rows)[i]? = rows[i]?.map g ∧
      ∀ r, (g r).agrees (s.onceCommitted i r) := by
  have hpub : ∃ b, s.publish rows = (s.settled rows).modify id (s.writeOwn b) :=
    publish_of_target h
  obtain ⟨b, hb⟩ := hpub
  rw [hb, List.getElem?_modify, settled_getElem?, Option.map_eq_map, Option.map_map]
  refine ⟨_, rfl, fun r => ?_⟩
  unfold WorkSession.onceCommitted WorkSession.flushed
  rw [Function.comp_apply, h]
  by_cases hi : id = i
  · subst hi
    rw [if_pos rfl, if_pos rfl]
    unfold WorkSession.writeOwn
    cases s.own with
    | some st => cases s.released.lookup id <;> exact ⟨rfl, rfl, rfl, rfl⟩
    | none => cases s.released.lookup id <;> exact ⟨rfl, rfl, rfl, rfl⟩
  · rw [if_neg hi, if_neg fun h => hi (Option.some.inj h)]
    cases s.released.lookup i <;> exact ⟨rfl, rfl, rfl, rfl⟩

theorem WorkAssignment.agrees.live_eq {q : WorkAssignment} (h : r.agrees q) : r.live = q.live := by
  obtain ⟨-, -, hgroup, hst⟩ := h
  unfold WorkAssignment.live
  rw [hgroup, hst]

/-- no two live rows share their work, after a transition or a dispatch -/
theorem unique_publish_iff (h : s.op.target = some id)
    (hu : ∀ (i j : AssignmentId) (r q : WorkAssignment), rows[i]? = some r → rows[j]? = some q →
      r.live → q.live → r.canonicalWorkKey = q.canonicalWorkKey → i = j) :
    (∀ (i j : AssignmentId) (r q : WorkAssignment), (s.publish rows)[i]? = some r →
      (s.publish rows)[j]? = some q → r.live → q.live →
        r.canonicalWorkKey = q.canonicalWorkKey → i = j) ↔ s.ReopensAlone rows := by
  constructor
  · intro hpub i j r q hr hq _ hlive hlive' hkey
    obtain ⟨g, hg, hagr⟩ : ∃ g : WorkAssignment → WorkAssignment, _ := publish_row h i
    obtain ⟨g', hg', hagr'⟩ : ∃ g : WorkAssignment → WorkAssignment, _ := publish_row h j
    rw [hr] at hg
    rw [hq] at hg'
    refine hpub i j (g r) (g' q) hg hg' ?_ ?_ ?_
    · rw [(hagr r).live_eq]
      exact hlive
    · rw [(hagr' q).live_eq]
      exact hlive'
    · rw [(hagr r).2.1, (hagr' q).2.1]
      exact hkey
  · intro hre i j r' q' hr' hq' hlive hlive' hkey
    obtain ⟨g, hg, hagr⟩ : ∃ g : WorkAssignment → WorkAssignment, _ := publish_row h i
    obtain ⟨g', hg', hagr'⟩ : ∃ g : WorkAssignment → WorkAssignment, _ := publish_row h j
    rw [hg, Option.map_eq_some_iff] at hr'
    rw [hg', Option.map_eq_some_iff] at hq'
    obtain ⟨r, hr, rfl⟩ := hr'
    obtain ⟨q, hq, rfl⟩ := hq'
    rw [(hagr r).live_eq] at hlive
    rw [(hagr' q).live_eq] at hlive'
    rw [(hagr r).2.1, (hagr' q).2.1] at hkey
    -- a row that was not reopened was live before
    have hbefore : ∀ {k x}, (s.onceCommitted k x).live → ¬ x.status.terminal → x.live := by
      intro k x hx hterm
      unfold WorkAssignment.live WorkSession.onceCommitted at *
      simp only [decide_eq_true_eq] at hx ⊢
      exact ⟨hx.1, hterm⟩
    by_cases hterm : r.status.terminal = true
    · exact hre i j r q hr hq hterm hlive hlive' hkey
    · by_cases hterm' : q.status.terminal = true
      · exact (hre j i q r hq hr hterm' hlive' hlive hkey.symm).symm
      · exact hu i j r q hr hq (hbefore hlive hterm) (hbefore hlive' hterm') hkey

theorem row_live_iff {c : CreateWork} {b : Bool} :
    (c.row b).live ↔ c.parallelExplorationGroupId = none := by
  unfold WorkAssignment.live CreateWork.row
  cases b <;> simp [WorkAssignmentStatus.terminal]

/-- no two live rows share their work, after an insert -/
theorem unique_append_iff {r : WorkAssignment}
    (hu : ∀ (i j : AssignmentId) (r q : WorkAssignment), rows[i]? = some r → rows[j]? = some q →
      r.live → q.live → r.canonicalWorkKey = q.canonicalWorkKey → i = j) :
    (∀ (i j : AssignmentId) (x y : WorkAssignment), (rows ++ [r])[i]? = some x →
      (rows ++ [r])[j]? = some y → x.live → y.live → x.canonicalWorkKey = y.canonicalWorkKey →
        i = j) ↔ (r.live → ∀ q ∈ rows, q.live → q.canonicalWorkKey ≠ r.canonicalWorkKey) := by
  have hnew : (rows ++ [r])[rows.length]? = some r := List.getElem?_concat_length
  constructor
  · intro hpub hlive q hq hqlive hkey
    obtain ⟨i, hi⟩ := List.getElem?_of_mem hq
    have hlt := (List.getElem?_eq_some_iff.1 hi).1
    have hold : (rows ++ [r])[i]? = some q := by
      rw [List.getElem?_append_left hlt]
      exact hi
    exact absurd (hpub i rows.length q r hold hnew hqlive hlive hkey) (Nat.ne_of_lt hlt)
  · intro hfree i j x y hx hy hxlive hylive hkey
    have hcases : ∀ {k z}, (rows ++ [r])[k]? = some z →
        rows[k]? = some z ∨ k = rows.length ∧ z = r := by
      intro k z hz
      by_cases hk : k < rows.length
      · rw [List.getElem?_append_left hk] at hz
        exact .inl hz
      · rw [List.getElem?_append_right (Nat.le_of_not_lt hk)] at hz
        have hlt := (List.getElem?_eq_some_iff.1 hz).1
        rw [List.length_singleton] at hlt
        have hlen : k - rows.length = 0 := by omega
        rw [hlen] at hz
        exact .inr ⟨by omega, (Option.some.inj hz).symm⟩
    rcases hcases hx with hxold | ⟨rfl, rfl⟩
    · rcases hcases hy with hyold | ⟨rfl, rfl⟩
      · exact hu i j x y hxold hyold hxlive hylive hkey
      · exact absurd hkey (hfree hylive x (List.mem_of_getElem? hxold) hxlive)
    · rcases hcases hy with hyold | ⟨rfl, rfl⟩
      · exact absurd hkey.symm (hfree hxlive y (List.mem_of_getElem? hyold) hylive)
      · rfl

/-! ## slots -/

theorem slots_append {r : WorkAssignment} (hr : r.dispatched = false) (a : AgentId) :
    slots (rows ++ [r]) a = slots rows a := by
  unfold slots
  rw [List.countP_append, List.countP_singleton, if_neg (by simp [hr])]
  rfl

theorem slots_settled_le (a : AgentId) : slots (s.settled rows) a ≤ slots rows a := by
  refine countP_le_of_getElem? List.length_mapIdx fun i x x' hx hx' => ?_
  rw [settled_getElem?, hx, Option.map_some, Option.some_inj] at hx'
  subst hx'
  cases s.released.lookup i with
  | none => exact fun h => h
  | some st =>
    unfold WorkAssignment.put
    simp only [decide_eq_true_eq, Bool.false_eq_true, false_or]
    rintro ⟨ha, -, hd⟩
    exact ⟨ha, hd⟩

/-- only a dispatch takes a slot -/
theorem slots_modify_le (a : AgentId) (id : AssignmentId) :
    slots (rows.modify id (s.writeOwn false)) a ≤ slots rows a := by
  refine countP_le_of_getElem? (List.length_modify ..) fun i x x' hx hx' => ?_
  rw [List.getElem?_modify, hx, Option.map_eq_map, Option.map_some, Option.some_inj] at hx'
  subst hx'
  split
  · unfold WorkSession.writeOwn
    cases s.own with
    | none => exact fun h => h
    | some st =>
      unfold WorkAssignment.put
      simp only [decide_eq_true_eq, Bool.false_eq_true, false_or]
      rintro ⟨ha, -, hd⟩
      exact ⟨ha, hd⟩
  · exact fun h => h

/-- what the row of a dispatch adds to the slots of its agent -/
theorem slots_dispatch {r : WorkAssignment} (hr : rows[id]? = some r) (a : AgentId) :
    slots (rows.modify id (s.writeOwn true)) a +
        (if r.agentId = a ∧ r.dispatched then 1 else 0) =
      slots rows a + (if r.agentId = a ∧ (s.writeOwn true r).dispatched then 1 else 0) := by
  have hcount := countP_modify (p := fun r => r.agentId = a ∧ r.dispatched) (f := s.writeOwn true) hr
  have hagent : (s.writeOwn true r).agentId = r.agentId := by
    unfold WorkSession.writeOwn
    cases s.own <;> rfl
  simp only [decide_eq_true_eq, hagent] at hcount
  exact hcount

theorem writeOwn_takes {r : WorkAssignment} (hd : ¬ r.dispatched) :
    (s.writeOwn true r).dispatched ↔ s.own.any (·.occupies) := by
  unfold WorkSession.writeOwn
  cases s.own with
  | none => simp [hd]
  | some st => simp [WorkAssignment.put]

theorem slots_dispatch_iff (hs : ∀ (a : AgentId) (agent : CoordinationAgent),
      db.agents[a]? = some agent → slots db.rows a ≤ agent.concurrencyLimit) :
    (∀ (a : AgentId) (agent : CoordinationAgent), db.agents[a]? = some agent →
      slots ((s.settled db.rows).modify id (s.writeOwn true)) a ≤ agent.concurrencyLimit) ↔
      s.FindsSlot db id := by
  have hsettled : ∀ (a : AgentId) (agent : CoordinationAgent), db.agents[a]? = some agent →
      slots (s.settled db.rows) a ≤ agent.concurrencyLimit := by
    intro a agent ha
    exact Nat.le_trans (slots_settled_le a) (hs a agent ha)
  constructor
  · intro hpub r agent hr ha hocc hd
    have hcount := slots_dispatch (s := s) hr r.agentId
    rw [if_neg (fun h => hd h.2), if_pos ⟨rfl, (writeOwn_takes hd).2 hocc⟩] at hcount
    have hle := hpub r.agentId agent ha
    omega
  · intro hfind a agent ha
    cases hr : (s.settled db.rows)[id]? with
    | none =>
      rw [List.modify_eq_self (List.getElem?_eq_none_iff.1 hr)]
      exact hsettled a agent ha
    | some r =>
      have hcount := slots_dispatch (s := s) hr a
      have hle := hsettled a agent ha
      by_cases hd : r.agentId = a ∧ r.dispatched
      · rw [if_pos hd] at hcount
        split at hcount <;> omega
      · rw [if_neg hd] at hcount
        by_cases htake : r.agentId = a ∧ (s.writeOwn true r).dispatched
        · obtain ⟨rfl, htakes⟩ := htake
          have hfree : ¬ r.dispatched := fun h => hd ⟨rfl, h⟩
          have hlt := hfind r agent hr ha ((writeOwn_takes hfree).1 htakes) hfree
          rw [if_pos ⟨rfl, htakes⟩] at hcount
          omega
        · rw [if_neg htake] at hcount
          omega

/-! ## one commit, and a run -/

theorem WorkDb.sound_iff : db.Sound ↔
    (∀ (i j : AssignmentId) (r q : WorkAssignment), db.rows[i]? = some r → db.rows[j]? = some q →
      r.live → q.live → r.canonicalWorkKey = q.canonicalWorkKey → i = j) ∧
    ∀ (a : AgentId) (agent : CoordinationAgent), db.agents[a]? = some agent →
      LifeAI.slots db.rows a ≤ agent.concurrencyLimit := by
  constructor
  · rintro ⟨hu, hs⟩
    exact ⟨hu, hs⟩
  · rintro ⟨hu, hs⟩
    exact ⟨hu, hs⟩

/-- the database after the commit of a session -/
theorem sound_publish_iff (h : db.Sound) (sessions : List WorkSession) :
    (⟨db.agents, s.publish db.rows, sessions⟩ : WorkDb).Sound ↔ s.fits db := by
  rw [WorkDb.sound_iff]
  unfold WorkSession.fits
  cases hop : s.op with
  | create c =>
    have hpub : s.publish db.rows = db.rows ++ (s.fresh.map c.row).toList := by
      unfold WorkSession.publish
      rw [hop]
    dsimp only
    rw [hpub]
    cases hfresh : s.fresh with
    | none =>
      rw [Option.map_none, Option.toList_none, List.append_nil]
      exact iff_of_true ⟨h.unique, h.slots⟩ fun hf => by cases hf
    | some b =>
      have hslots : ∀ (a : AgentId) (agent : CoordinationAgent), db.agents[a]? = some agent →
          slots (db.rows ++ [c.row b]) a ≤ agent.concurrencyLimit := by
        intro a agent ha
        rw [slots_append rfl]
        exact h.slots a agent ha
      rw [Option.map_some, Option.toList_some, and_iff_left hslots, unique_append_iff h.unique,
        row_live_iff]
      exact ⟨fun hf _ => hf, fun hf => hf rfl⟩
  | transition id target =>
    have hslots : ∀ (a : AgentId) (agent : CoordinationAgent), db.agents[a]? = some agent →
        slots (s.publish db.rows) a ≤ agent.concurrencyLimit := by
      intro a agent ha
      unfold WorkSession.publish
      rw [hop]
      exact Nat.le_trans (slots_modify_le a id)
        (Nat.le_trans (slots_settled_le a) (h.slots a agent ha))
    rw [and_iff_left hslots]
    exact unique_publish_iff (congrArg WorkOp.target hop) h.unique
  | dispatch id env =>
    have hpub : s.publish db.rows = (s.settled db.rows).modify id (s.writeOwn true) := by
      unfold WorkSession.publish
      rw [hop]
    refine and_congr (unique_publish_iff (congrArg WorkOp.target hop) h.unique) ?_
    dsimp only
    rw [hpub]
    exact slots_dispatch_iff h.slots

/-- what a step other than a commit leaves behind -/
theorem step_sound_iff (h : db.Sound) (o : WorkStep) : (o.step db).Sound ↔ o.fits db := by
  cases o with
  | call op | rollback n => exact iff_of_true ⟨h.unique, h.slots⟩ trivial
  | advance n =>
    unfold WorkStep.step WorkStep.fits
    dsimp only
    cases hs : db.sessions[n]? with
    | none => exact iff_of_true h fun s rest h' => by cases h'
    | some s =>
      dsimp only
      cases htodo : s.todo with
      | nil =>
        refine iff_of_true h fun s' rest hs' htodo' => ?_
        cases hs'
        rw [htodo] at htodo'
        cases htodo'
      | cons stmt rest =>
        by_cases hcommit : stmt = .commit
        · subst hcommit
          dsimp only
          rw [sound_publish_iff h]
          constructor
          · intro hfits s' rest' hs' _
            cases hs'
            exact hfits
          · intro hfits
            exact hfits s rest rfl htodo
        · refine iff_of_true ?_ fun s' rest' hs' htodo' => ?_
          · split
            · exact h
            · rename_i heq
              cases heq
              exact absurd rfl hcommit
            · exact ⟨h.unique, h.slots⟩
          · cases hs'
            rw [htodo] at htodo'
            cases htodo'
            exact absurd rfl hcommit

/-- No duplicate canonical work and no oversubscribed agent, in the committed states of exactly
those runs whose commits all fit. -/
theorem work_sound_iff (agents : List CoordinationAgent) (os : List WorkStep) :
    Run.Always WorkStep.step WorkDb.Sound ⟨agents, [], []⟩ os ↔
      Run.Meets WorkStep.step (fun db o => o.fits db) ⟨agents, [], []⟩ os := by
  have h0 : (⟨agents, [], []⟩ : WorkDb).Sound := by
    refine ⟨fun i j r q hr => ?_, fun a agent _ => Nat.zero_le _⟩
    cases hr
  exact Run.always_iff_meets (I := WorkDb.Sound) (fun _ h => h)
    (fun _ o h => (step_sound_iff h o).1) (fun _ o h => (step_sound_iff h o).2) h0 os

/-! ## three runs that do not fit -/

/-- an agent with one slot -/
def soloAgent : CoordinationAgent where
  agentKey := "codex"

def buildTask (t : TaskId) : CreateWork where
  goalId := 1
  taskId := some t
  agentId := 0
  role := .builder
  readWriteMode := .readOnly
  repositoryIdentity := "life"
  allowedPaths := []

/-- the transactions, each opened and gone on with until it has committed -/
def serially (first : Nat) : List (WorkOp × Nat) → List WorkStep
  | [] => []
  | (op, statements) :: rest =>
    .call op :: List.replicate statements (.advance first) ++ serially (first + 1) rest

/-- two creates check for a duplicate before either of them inserts -/
def racingCreates : List WorkStep :=
  [.call (.create (buildTask 1)), .call (.create (buildTask 1)), .advance 0, .advance 1] ++
    List.replicate 2 (.advance 0) ++ List.replicate 2 (.advance 1)

/-- an assignment fails, another one takes over its work, and the first one is made ready again -/
def reopenedFailure : List WorkStep :=
  serially 0 [(.create (buildTask 1), 3), (.transition 0 .running, 4), (.transition 0 .failed, 4),
    (.create (buildTask 1), 3), (.transition 0 .ready, 4)]

/-- two dispatches count the slots of the agent before either of them commits -/
def racingDispatches : List WorkStep :=
  serially 0 [(.create (buildTask 1), 3), (.create (buildTask 2), 3)] ++
    [.call (.dispatch 0 {}), .call (.dispatch 1 {})] ++ List.replicate 5 (.advance 2) ++
      List.replicate 5 (.advance 3) ++ List.replicate 6 (.advance 2) ++
        List.replicate 6 (.advance 3)

/-- in each of the runs the last state has duplicate work, or an agent with more than its slots -/
theorem racing_work_not_sound :
    ¬ Run.Always WorkStep.step WorkDb.Sound ⟨[soloAgent], [], []⟩ racingCreates ∧
      ¬ Run.Always WorkStep.step WorkDb.Sound ⟨[soloAgent], [], []⟩ reopenedFailure ∧
        ¬ Run.Always WorkStep.step WorkDb.Sound ⟨[soloAgent], [], []⟩ racingDispatches := by
  refine ⟨fun h => ?_, fun h => ?_, fun h => ?_⟩
  · exact absurd (h.run.unique 0 1 _ _ rfl rfl (by decide) (by decide) (by decide)) (by decide)
  · exact absurd (h.run.unique 0 1 _ _ rfl rfl (by decide) (by decide) (by decide)) (by decide)
  · exact absurd (h.run.slots 0 soloAgent (by decide)) (by decide)

end LifeAI
