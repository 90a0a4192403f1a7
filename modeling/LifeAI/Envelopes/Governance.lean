import LifeAI.Envelopes.Race
import LifeAI.Recovery.TakeoverCases
import LifeAI.Tasks.System

/-!
# No ungoverned dispatch after the first envelope

* `Unbypassed`  no dispatch of a goal became durable after an envelope of the goal;
* `GovTx.ok`    what a transaction has seen and still holds;
* `GovInv`      the invariant of the interleavings;
* `GovStep.fits`  a tick whose dispatch becomes durable: no envelope of the goal was committed
                since the goal was checked again.
-/

namespace LifeAI

/-- no dispatch of a goal became durable after an envelope of the goal -/
def Unbypassed (history : List GovEvent) : Prop :=
  history.Pairwise fun a b => ∀ g i, a = .governed g → b ≠ .dispatched i g

/-- the steps that leave governance in force -/
def GovStep.fits (s : GovSys) : GovStep → Prop
  | .advance n env =>
    match s.txs[n]? with
    | some (.tick i g (.locked seen)) =>
      (DispatchRun.tick env.toEnv i).durable s.db → .governed g ∉ s.history.drop seen
    | _ => True
  | _ => True

variable {s s' : GovSys} {n : Nat} {x x' : GovTx} {db db' : Db}

/-! ## the history -/

theorem unbypassed_governed {h : List GovEvent} {g : GoalId} :
    Unbypassed (h ++ [.governed g]) ↔ Unbypassed h := by
  unfold Unbypassed
  rw [List.pairwise_append]
  simp

theorem unbypassed_dispatched {h : List GovEvent} {i : TaskId} {g : GoalId} :
    Unbypassed (h ++ [.dispatched i g]) ↔ Unbypassed h ∧ .governed g ∉ h := by
  unfold Unbypassed
  rw [List.pairwise_append]
  refine and_congr_right fun _ => ?_
  constructor
  · rintro ⟨-, h1⟩ hg
    exact h1 _ hg _ (List.mem_singleton_self _) g i rfl rfl
  · intro hg
    refine ⟨List.pairwise_singleton _ _, fun a ha b hb g' i' hag hbg => ?_⟩
    rw [List.mem_singleton.1 hb] at hbg
    cases hbg
    exact hg (hag ▸ ha)

/-! ## what the tables keep -/

theorem keepsOwners_of_goals (h : db'.goals = db.goals) : db.keepsOwners db' := by
  unfold Db.keepsOwners
  rw [h, List.isPrefixOf_iff_prefix]

theorem owner_mono (h : db.keepsOwners db') {g : GoalId} {owner : OwnerId}
    (ho : (db.goals[g]?).any (·.ownerId = owner)) : (db'.goals[g]?).any (·.ownerId = owner) := by
  unfold Db.keepsOwners at h
  rw [List.isPrefixOf_iff_prefix, List.prefix_iff_getElem?] at h
  rw [Option.any_eq_true] at ho
  obtain ⟨goal, hgoal, hown⟩ := ho
  obtain ⟨hlt, rfl⟩ := List.getElem?_eq_some_iff.1 hgoal
  have hg := h g (by simpa using hlt)
  rw [List.getElem?_map, List.getElem_map, Option.map_eq_some_iff] at hg
  obtain ⟨goal', hgoal', heq⟩ := hg
  rw [hgoal']
  simpa [heq] using hown

theorem jobsClosed_goals (gs : List Goal) : JobsClosed fun db => db.goals = gs :=
  ⟨fun _ _ h => h, fun _ _ _ h => h⟩

theorem dispatchReadyTask_goals (env : Env) (i : TaskId) (gs : List Goal) :
    Tx.Keeps (fun db => db.goals = gs) (dispatchReadyTask env i) := by
  intro s hd hw
  rcases dispatch_cases env i s with ⟨e, -, h⟩ | ⟨t, -, ⟨-, h⟩ | ⟨-, ⟨e, h⟩ | ⟨j, h⟩⟩⟩
  · rw [h]
    exact ⟨hd, hw⟩
  · rw [h]
    exact ⟨hw, hw⟩
  · rw [h]
    exact ⟨hd, hw⟩
  · rw [h]
    exact ⟨hd, hw⟩

theorem reset_goals (i : TaskId) (gs : List Goal) : Tx.Keeps (fun db => db.goals = gs)
    (Tx.flush fun db => (resetTaskForTakeover db i).map fun db => ((), db)) := by
  refine .flush fun w u w' hw h => ?_
  cases hr : resetTaskForTakeover w i with
  | error e =>
    rw [hr] at h
    exact absurd h (by simp [Except.map])
  | ok w1 =>
    rw [hr] at h
    cases h
    obtain ⟨t, -, -, -, rfl⟩ := resetTaskForTakeover_ok.1 hr
    exact hw

theorem assignJob_goals (i : TaskId) (j : JobId) (gs : List Goal) :
    Tx.Keeps (fun db => db.goals = gs) (Tx.flush (assignJob i j)) := by
  refine .flush fun w u w' hw h => ?_
  unfold assignJob at h
  simp only [bind_eq_ok, Db.setTask_ok] at h
  obtain ⟨t, -, w1, ⟨-, rfl⟩, h⟩ := h
  cases h
  exact hw

/-- a dispatch that leaves the goals alone, and what follows does too -/
structure DispatchRun.LeavesGoals (p : DispatchRun) : Prop where
  dispatch : ∀ gs, Tx.Keeps (fun db => db.goals = gs) p.dispatch
  rest : ∀ gs j, Tx.Keeps (fun db => db.goals = gs) (p.rest j)

namespace DispatchRun

theorem tick_leavesGoals (env : Env) (i : TaskId) : (tick env i).LeavesGoals where
  dispatch gs := dispatchReadyTask_goals env i gs
  rest _ _ := .pure ()

theorem takeover_leavesGoals (env : TakeoverEnv) (k : RecoveryId) (r : Recovery) :
    (takeover env k r).LeavesGoals where
  dispatch gs := .bind (reset_goals r.taskId gs) fun _ => .bind (pass_keeps _ _) fun _ =>
    dispatchReadyTask_goals env.toEnv r.taskId gs
  rest gs j := .bind (finishTakeover_keeps (jobsClosed_goals gs) env k r j) fun _ => .pure ()

theorem LeavesGoals.committed {p : DispatchRun} (hp : p.LeavesGoals) (db : Db) :
    (p.committed db).goals = db.goals := by
  unfold DispatchRun.committed
  split
  · exact (hp.dispatch db.goals _ rfl rfl).1
  · exact (Tx.Keeps.bind (hp.dispatch db.goals) fun j => hp.rest db.goals j).settle rfl

end DispatchRun

/-! ## the invariant -/

/-- what a transaction has seen holds as long as it relies on it -/
def GovTx.ok (s : GovSys) : GovTx → Prop
  | .tick _ g (.checked seen) | .tick _ g (.locked seen) =>
    seen ≤ s.history.length ∧ .governed g ∉ s.history.take seen
  | .takeover _ _ owner g stage =>
    (s.db.goals[g]?).any (·.ownerId = owner) ∧ (stage = .ungoverned → .governed g ∉ s.history)
  | .authorize a (.goalLocked p) | .authorize a (.priorRead p _) =>
    (s.db.goals[p.goalId]?).any (·.ownerId = a.ownerId)
  | _ => True

/-- the history tells which goals have envelopes, and each of these belongs to the owner of its
goal -/
structure EnvelopeDb.Recorded (db : Db) (es : EnvelopeDb) (history : List GovEvent) : Prop where
  governed : ∀ g, .governed g ∈ history ↔ es.governs g
  owned : ∀ e ∈ es.envelopes, (db.goals[e.goalId]?).any (·.ownerId = e.ownerId)

structure GovInv (s : GovSys) : Prop where
  exclusive : Locks.Exclusive GovTx.holds s.txs
  recorded : s.envelopes.Recorded s.db s.history
  ok : ∀ (n : Nat) (x : GovTx), s.txs[n]? = some x → x.ok s

namespace GovTx

@[simp] theorem ended_holds (x : GovTx) (r : Row) : ¬ x.ended.holds r := by
  cases x <;> simp [ended, holds]

theorem ended_ok (h : x.ok s) : x.ended.ok s := by
  cases x with
  | tick i g stage => exact trivial
  | takeover k r owner g stage => exact ⟨h.1, by simp⟩
  | authorize a stage => exact trivial

/-- what a transaction relies on survives when the goals keep their owners and no goal that it
has locked becomes governed -/
theorem ok_mono {G : List GovEvent} (h : x.ok s) (howners : s.db.keepsOwners s'.db)
    (hhist : s'.history = s.history ++ G)
    (hfree : ∀ g, .governed g ∈ G → ¬ x.holds (.goal g)) : x.ok s' := by
  have htick : ∀ {g : GoalId} {seen : Nat},
      seen ≤ s.history.length ∧ .governed g ∉ s.history.take seen →
      seen ≤ s'.history.length ∧ .governed g ∉ s'.history.take seen := by
    rintro g seen ⟨hle, hno⟩
    rw [hhist, List.take_append_of_le_length hle, List.length_append]
    exact ⟨by omega, hno⟩
  cases x with
  | tick i g stage =>
    cases stage with
    | checked seen => exact htick h
    | locked seen => exact htick h
    | _ => exact trivial
  | takeover k r owner g stage =>
    refine ⟨owner_mono howners h.1, fun hs => ?_⟩
    subst hs
    rw [hhist, List.mem_append, not_or]
    exact ⟨h.2 rfl, fun hg => hfree g hg (by simp [holds])⟩
  | authorize a stage =>
    cases stage with
    | goalLocked p => exact owner_mono howners h
    | priorRead p prior => exact owner_mono howners h
    | _ => exact trivial

end GovTx

namespace EnvelopeDb.Recorded

variable {es es' : EnvelopeDb} {history : List GovEvent}

/-- the query with the owner of the goal finds what the query without it finds -/
theorem goalHasEverBeenEnvelopeGoverned (h : es.Recorded db history) {g : GoalId}
    {owner : OwnerId} (howner : (db.goals[g]?).any (·.ownerId = owner)) (hg : es.governs g) :
    es.goalHasEverBeenEnvelopeGoverned owner g := by
  obtain ⟨e, he, heg⟩ := List.any_eq_true.1 hg
  have heg : e.goalId = g := by simpa using heg
  have hown := h.owned e he
  rw [heg, Option.any_eq_true] at hown
  obtain ⟨goal, hgoal, hown⟩ := hown
  rw [hgoal, Option.any_some] at howner
  simp only [decide_eq_true_eq] at hown howner
  exact List.any_eq_true.2 ⟨e, he, by simp [heg, ← hown, howner]⟩

theorem grant (h : es.Recorded db history) {a : Authorization} {p : ScopeProposal}
    {prior : Option EnvelopeId} (hgrant : a.grant p prior es = .ok es')
    (howner : (db.goals[p.goalId]?).any (·.ownerId = a.ownerId)) :
    es'.Recorded db (history ++ [.governed p.goalId]) := by
  have hgoals := Authorization.grant_goals hgrant
  refine ⟨fun g => ?_, fun e he => ?_⟩
  · have hmem : ∀ es : EnvelopeDb, es.governs g ↔
        g ∈ (es.envelopes.map fun e => (e.ownerId, e.goalId)).map Prod.snd := by
      intro es
      simp [governs]
    rw [hmem, hgoals, List.map_append, List.mem_append, List.mem_append, ← hmem, h.governed g]
    simp
  · have hpair : (e.ownerId, e.goalId) ∈ es'.envelopes.map fun e => (e.ownerId, e.goalId) :=
      List.mem_map_of_mem he
    rw [hgoals, List.mem_append, List.mem_map, List.mem_singleton] at hpair
    rcases hpair with ⟨e0, he0, heq⟩ | heq
    · obtain ⟨h1, h2⟩ := Prod.mk.inj heq
      rw [← h1, ← h2]
      exact h.owned e0 he0
    · obtain ⟨h1, h2⟩ := Prod.mk.inj heq
      rw [h1, h2]
      exact howner

end EnvelopeDb.Recorded

namespace GovInv

/-- a step of the transaction `n`: it locks only free rows, and makes a goal governed only while
it holds the goal -/
theorem move {G : List GovEvent} (h : GovInv s) (hn : s.txs[n]? = some x)
    (htxs : s'.txs = s.txs.set n x')
    (hfree : ∀ r, x'.holds r → x.holds r ∨ ¬ s.heldByOther n r)
    (howners : s.db.keepsOwners s'.db) (hhist : s'.history = s.history ++ G)
    (hheld : ∀ g, .governed g ∈ G → x.holds (.goal g)) (hok : x'.ok s')
    (hrec : s'.envelopes.Recorded s'.db s'.history) : GovInv s' := by
  refine ⟨htxs ▸ h.exclusive.set hn hfree, hrec, fun m y hm => ?_⟩
  rw [htxs, getElem?_set_row hn] at hm
  split at hm
  · cases hm
    exact hok
  · next hmn =>
    refine GovTx.ok_mono (h.ok m y hm) howners hhist fun g hg hy => ?_
    exact hmn (h.exclusive.eq_of_holds hn hm (hheld g hg) hy)

/-- a step that changes nothing but the transaction -/
theorem setTx (h : GovInv s) (hn : s.txs[n]? = some x)
    (hfree : ∀ r, x'.holds r → x.holds r ∨ ¬ s.heldByOther n r) (hok : x'.ok s) :
    GovInv (s.setTx n x') :=
  h.move (G := []) hn rfl hfree (keepsOwners_of_goals rfl)
    (List.append_nil _).symm (by simp) hok h.recorded

/-- a step that ends the transaction and leaves the tables as they are -/
theorem setOver (h : GovInv s) (hn : s.txs[n]? = some x) : GovInv (s.setTx n x.ended) :=
  h.setTx hn (fun r hr => absurd hr (x.ended_holds r)) (GovTx.ended_ok (h.ok n x hn))

/-- a step that leaves goals and envelopes alone, and locks nothing new -/
theorem write (h : GovInv s) (hn : s.txs[n]? = some x) {H G : List GovEvent}
    (hgoals : db.goals = s.db.goals) (hhist : H = s.history ++ G)
    (hes : ∀ g, .governed g ∉ G) (hfree : ∀ r, ¬ x'.holds r)
    (hok : x.ok { s with db, history := H } → x'.ok { s with db, history := H }) :
    GovInv { s with db, history := H, txs := s.txs.set n x' } := by
  have howners : s.db.keepsOwners db := keepsOwners_of_goals hgoals
  refine h.move (G := G) hn rfl (fun r hr => absurd hr (hfree r)) howners hhist
    (fun g hg => absurd hg (hes g)) (hok ?_) ?_
  · exact GovTx.ok_mono (h.ok n x hn) howners hhist fun g hg => absurd hg (hes g)
  · refine ⟨fun g => ?_, fun e he => owner_mono howners (h.recorded.owned e he)⟩
    rw [← h.recorded.governed g, hhist, List.mem_append, or_iff_left (hes g)]

theorem dispatch (h : GovInv s) {i : TaskId} {g : GoalId} {p : DispatchRun}
    {goesOn : JobId → GovTx} (hn : s.txs[n]? = some x) (hp : p.LeavesGoals)
    (hfree : ∀ j r, ¬ (goesOn j).holds r) (hok : ∀ j s, x.ok s → (goesOn j).ok s) :
    GovInv (s.dispatch n i g p x goesOn) := by
  have hnext : (∀ r, ¬ (p.next s.db x goesOn).holds r) ∧
      ∀ s', x.ok s' → (p.next s.db x goesOn).ok s' := by
    unfold DispatchRun.next
    split
    · exact ⟨hfree _, hok _⟩
    · exact ⟨x.ended_holds, fun _ => GovTx.ended_ok⟩
  refine h.write (G := if p.durable s.db then [.dispatched i g] else []) hn
    (hp.committed s.db) ?_ ?_ hnext.1 (hnext.2 _)
  · split
    · rfl
    · exact (List.append_nil _).symm
  · intro g'
    split <;> simp

theorem advanceTick (h : GovInv s) {i : TaskId} {g : GoalId} {stage : TickStage}
    (env : TakeoverEnv) (hn : s.txs[n]? = some (.tick i g stage)) :
    GovInv (s.advanceTick n env i g stage) := by
  cases stage with
  | selected =>
    simp only [GovSys.advanceTick]
    split
    · exact h.setOver hn
    · next hno =>
      refine h.setTx hn (by simp [GovTx.holds]) ⟨le_rfl, ?_⟩
      rw [List.take_length, h.recorded.governed]
      exact fun hg => hno (.inr hg)
  | checked seen =>
    simp only [GovSys.advanceTick]
    split
    · exact h
    · next hfree =>
      refine h.setTx hn (fun r hr => .inr ?_) (h.ok n (.tick i g (.checked seen)) hn)
      have : r = .task i := by simpa [GovTx.holds] using hr
      rwa [this]
  | locked seen =>
    exact h.dispatch hn (DispatchRun.tick_leavesGoals _ _) (by simp [GovTx.holds]) fun _ _ _ => trivial
  | dispatched j =>
    simp only [GovSys.advanceTick]
    split
    · exact h
    · exact h.write (H := s.history) (G := []) hn ((assignJob_goals i j _).settle rfl)
        (List.append_nil _).symm (by simp) (by simp [GovTx.holds]) fun _ => trivial
  | ended => exact h

theorem advanceTakeover (h : GovInv s) {k : RecoveryId} {r : Recovery} {owner : OwnerId}
    {g : GoalId} {stage : TakeoverStage} (env : TakeoverEnv)
    (hn : s.txs[n]? = some (.takeover k r owner g stage)) :
    GovInv (s.advanceTakeover n env k r owner g stage) := by
  have hgoals := fun {α : Type} {m : Tx Db Err α}
    (hm : Tx.Keeps (fun db => db.goals = s.db.goals) m) => hm.settle (s := s.db) rfl
  have hjobs := jobsClosed_goals s.db.goals
  cases stage with
  | classified =>
    simp only [GovSys.advanceTakeover]
    split
    · exact h
    · next hfree =>
      refine h.setTx hn (fun q hq => .inr ?_) ⟨(h.ok n _ hn).1, by simp⟩
      have : q = .goal g := by simpa [GovTx.holds] using hq
      rwa [this]
  | goalLocked =>
    simp only [GovSys.advanceTakeover]
    split
    · exact h.setTx hn (fun q hq => .inl hq) ⟨(h.ok n _ hn).1, by simp⟩
    · next hno =>
      refine h.setTx hn (fun q hq => .inl hq) ⟨(h.ok n _ hn).1, fun _ hg => hno ?_⟩
      exact h.recorded.goalHasEverBeenEnvelopeGoverned (h.ok n _ hn).1
        ((h.recorded.governed g).1 hg)
  | governed =>
    simp only [GovSys.advanceTakeover]
    split
    · exact h
    · refine h.write (H := s.history) (G := []) hn (hgoals ?_)
        (List.append_nil _).symm (by simp) (by simp [GovTx.holds]) GovTx.ended_ok
      exact .bind (reset_goals r.taskId _) fun _ => decline_keeps hjobs env k r
  | ungoverned =>
    simp only [GovSys.advanceTakeover]
    split
    · exact h
    · exact h.dispatch hn (DispatchRun.takeover_leavesGoals _ _ _) (by simp [GovTx.holds])
        fun _ _ hok => ⟨hok.1, by simp⟩
  | dispatched j =>
    simp only [GovSys.advanceTakeover]
    split
    · exact h
    · refine h.write (H := s.history) (G := []) hn (hgoals ?_)
        (List.append_nil _).symm (by simp) (by simp [GovTx.holds]) GovTx.ended_ok
      exact .bind (assignJob_goals r.taskId j _) fun _ => finishTakeover_keeps hjobs env k r j
  | ended => exact h

theorem advanceAuthorize (h : GovInv s) {a : Authorization} {stage : AuthorizeStage}
    (hn : s.txs[n]? = some (.authorize a stage)) : GovInv (s.advanceAuthorize n a stage) := by
  cases stage with
  | called =>
    simp only [GovSys.advanceAuthorize]
    split
    · exact h
    · next hfree =>
      split
      · exact h.setOver hn
      · refine h.setTx hn (fun q hq => .inr ?_) trivial
        have : q = .proposal a.proposalId := by simpa [GovTx.holds] using hq
        rwa [this]
  | proposalLocked p =>
    simp only [GovSys.advanceAuthorize]
    split
    · exact h
    · next hfree =>
      split
      · next howner =>
        refine h.setTx hn (fun q hq => ?_) howner
        simp only [GovTx.holds, decide_eq_true_eq] at hq ⊢
        rcases hq with hq | rfl
        · exact .inl hq
        · exact .inr hfree
      · exact h.setOver hn
  | goalLocked p =>
    simp only [GovSys.advanceAuthorize]
    split
    · exact h.setOver hn
    · exact h.setTx hn (fun q hq => .inl hq) (h.ok n (.authorize a (.goalLocked p)) hn)
  | priorRead p prior =>
    simp only [GovSys.advanceAuthorize]
    split
    · exact h.setOver hn
    · next db hgrant =>
      refine h.move (G := [.governed p.goalId]) hn rfl (by simp [GovTx.holds])
        (keepsOwners_of_goals rfl) rfl (by simp [GovTx.holds]) trivial ?_
      exact h.recorded.grant hgrant (h.ok n _ hn)
  | ended => exact h

theorem step (h : GovInv s) (o : GovStep) : GovInv (o.step s) := by
  have hstart : ∀ x : GovTx, (∀ r, ¬ x.holds r) → x.ok s →
      GovInv { s with txs := s.txs ++ [x] } := by
    intro x hx hok
    refine ⟨h.exclusive.append hx, h.recorded, fun m y hm => ?_⟩
    rcases getElem?_insert hm with hm | ⟨-, rfl⟩
    · exact h.ok m y hm
    · exact hok
  cases o with
  | tick i =>
    simp only [GovStep.step]
    split
    · split
      · exact hstart _ (by simp [GovTx.holds]) trivial
      · exact h
    · exact h
  | takeover k =>
    simp only [GovStep.step]
    split
    · split
      · next t ht =>
        split
        · next goal hgoal =>
          split
          · refine hstart _ (by simp [GovTx.holds]) ⟨?_, by simp⟩
            rw [hgoal]
            simp
          · exact h
        · exact h
      · exact h
    · exact h
  | authorize a => exact hstart _ (by simp [GovTx.holds]) trivial
  | advance n env =>
    simp only [GovStep.step]
    split
    · next hn => exact h.advanceTick env hn
    · next hn => exact h.advanceTakeover env hn
    · next hn => exact h.advanceAuthorize hn
    · exact h
  | rollback n =>
    simp only [GovStep.step]
    split
    · next hn => exact h.setOver hn
    · exact h
  | others db =>
    simp only [GovStep.step]
    split
    · next howners =>
      refine ⟨h.exclusive, ⟨h.recorded.governed, fun e he => ?_⟩, fun m y hm => ?_⟩
      · exact owner_mono howners (h.recorded.owned e he)
      · exact GovTx.ok_mono (G := []) (h.ok m y hm) howners (List.append_nil _).symm (by simp)
    · exact h

end GovInv

theorem GovStart.inv (c : GovStart) : GovInv c.sys := by
  refine ⟨.nil, ⟨fun g => ?_, c.owned⟩, fun m y hm => absurd hm (by simp [sys])⟩
  simp [sys, EnvelopeDb.governs]

/-! ## the law -/

/-- a dispatch keeps the law when the goal was not governed, or nothing became durable -/
theorem GovSys.dispatch_unbypassed {i : TaskId} {g : GoalId} {p : DispatchRun}
    {goesOn : JobId → GovTx} : Unbypassed (s.dispatch n i g p x goesOn).history ↔
      Unbypassed s.history ∧ (p.durable s.db → .governed g ∉ s.history) := by
  unfold GovSys.dispatch
  dsimp only
  split
  · next hd => rw [unbypassed_dispatched, forall_prop_of_true hd]
  · next hd => exact (and_iff_left fun h => absurd h hd).symm

namespace GovInv

/-- since the check nothing else can have made the goal governed -/
theorem governed_since (h : GovInv s) {i : TaskId} {g : GoalId} {seen : Nat}
    (hn : s.txs[n]? = some (.tick i g (.locked seen))) :
    .governed g ∈ s.history.drop seen ↔ .governed g ∈ s.history := by
  obtain ⟨-, hno⟩ := h.ok n (.tick i g (.locked seen)) hn
  conv_rhs => rw [← List.take_append_drop seen s.history, List.mem_append, or_iff_right hno]

theorem tick_unbypassed (h : GovInv s) {i : TaskId} {g : GoalId} {stage : TickStage}
    (env : TakeoverEnv) (hn : s.txs[n]? = some (.tick i g stage)) :
    Unbypassed (s.advanceTick n env i g stage).history ↔
      Unbypassed s.history ∧ (GovStep.advance n env).fits s := by
  cases stage with
  | locked seen =>
    simp only [GovStep.fits, hn, h.governed_since hn]
    exact GovSys.dispatch_unbypassed
  | selected | checked seen | dispatched j =>
    simp only [GovSys.advanceTick, GovStep.fits, hn, and_true]
    split <;> rfl
  | ended => simp only [GovSys.advanceTick, GovStep.fits, hn, and_true]

/-- a takeover dispatches under the lock of a goal that it found ungoverned -/
theorem takeover_unbypassed (h : GovInv s) {k : RecoveryId} {r : Recovery} {owner : OwnerId}
    {g : GoalId} {stage : TakeoverStage} (env : TakeoverEnv)
    (hn : s.txs[n]? = some (.takeover k r owner g stage)) :
    Unbypassed (s.advanceTakeover n env k r owner g stage).history ↔ Unbypassed s.history := by
  cases stage with
  | ungoverned =>
    simp only [GovSys.advanceTakeover]
    split
    · exact Iff.rfl
    · exact GovSys.dispatch_unbypassed.trans (and_iff_left fun _ => (h.ok n _ hn).2 rfl)
  | classified | goalLocked | governed | dispatched j =>
    simp only [GovSys.advanceTakeover]
    split <;> rfl
  | ended => exact Iff.rfl

theorem authorize_unbypassed {a : Authorization} {stage : AuthorizeStage} :
    Unbypassed (s.advanceAuthorize n a stage).history ↔ Unbypassed s.history := by
  cases stage with
  | called | proposalLocked p =>
    simp only [GovSys.advanceAuthorize]
    split
    · rfl
    · split <;> rfl
  | goalLocked p =>
    simp only [GovSys.advanceAuthorize]
    split <;> rfl
  | priorRead p prior =>
    simp only [GovSys.advanceAuthorize]
    split
    · rfl
    · exact unbypassed_governed
  | ended => exact Iff.rfl

theorem step_unbypassed (h : GovInv s) (o : GovStep) :
    Unbypassed (o.step s).history ↔ Unbypassed s.history ∧ o.fits s := by
  cases o with
  | tick i | takeover k =>
    refine .trans (iff_of_eq (congrArg Unbypassed ?_)) (and_iff_left trivial).symm
    simp only [GovStep.step]
    repeat' split
    all_goals rfl
  | authorize a => exact (and_iff_left trivial).symm
  | advance n env =>
    simp only [GovStep.step]
    split
    · next hn => exact h.tick_unbypassed env hn
    · next hn =>
      simp only [GovStep.fits, hn, and_true]
      exact h.takeover_unbypassed env hn
    · next hn =>
      simp only [GovStep.fits, hn, and_true]
      exact authorize_unbypassed
    · next hn => simp only [GovStep.fits, hn, and_true]
  | rollback n | others db =>
    simp only [GovStep.step, GovStep.fits, and_true]
    split <;> rfl

end GovInv

/-- **dispatch and governance**: in every interleaving of ticks, takeovers and authorizations, no
dispatch of a goal becomes durable after an envelope of the goal, exactly when no tick commits a
dispatch after an envelope that was committed since the tick checked the goal again. -/
theorem governance_unbypassed (c : GovStart) (os : List GovStep) :
    Unbypassed (govRun c os).history ↔ Run.Meets GovStep.step (fun s o => o.fits s) c.sys os := by
  have hstart : Unbypassed c.sys.history := by
    refine List.pairwise_map.2 (List.pairwise_of_forall fun a b g i _ => ?_)
    simp
  exact (Run.iff_meets (P := fun s : GovSys => Unbypassed s.history) (fun _ o h => h.step o)
    (fun _ o h => h.step_unbypassed o) c.inv os).trans (and_iff_right hstart)

/-! ## an envelope between the check and the dispatch -/

/-- a ready task, and an unreviewed proposal for its goal -/
def proposedStart : GovStart where
  db := {
    goals := [{ ownerId := 0, status := .running, currentPlanVersion := some 1 }]
    plans := [{ goalId := 0, ownerId := 0, version := 1, status := .active }]
    tasks := [{ (sampleSpec [] 3 |>.row 0 0 0) with status := .ready }] }
  envelopes := { proposals := [{ ownerId := 0, goalId := 0 }] }
  owned := by simp

/-- the founder's authorization of the proposal -/
def founderAuthorization : Authorization where
  ownerId := 0
  proposalId := 0
  authorizedBy := "founder"
  authorizedPaths := ["docs"]
  authorizedRisk := "low"
  envelopeIdempotencyKey := "first"

/-- the tick checks the goal again, the founder authorizes, the tick dispatches -/
def lateDispatch : List GovStep :=
  [.tick 0, .advance 0 { now := 1 }, .authorize founderAuthorization, .advance 1 { now := 2 },
    .advance 1 { now := 2 }, .advance 1 { now := 2 }, .advance 1 { now := 2 },
    .advance 0 { now := 3 }, .advance 0 { now := 3 }]

set_option maxRecDepth 8000 in
theorem tick_dispatches_governed_goal :
    (govRun proposedStart lateDispatch).history = [.governed 0, .dispatched 0 0] ∧
      ¬ Unbypassed (govRun proposedStart lateDispatch).history := by
  have hhistory : (govRun proposedStart lateDispatch).history =
      [.governed 0, .dispatched 0 0] := by decide
  refine ⟨hhistory, fun h => ?_⟩
  rw [hhistory] at h
  exact List.rel_of_pairwise_cons h (List.mem_singleton_self _) 0 0 rfl rfl

end LifeAI
