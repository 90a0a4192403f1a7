import LifeAI.Synthesis.Model

/-!
# What a call does to the tables

* `Writes`     the rows that a call writes before its event;
* `Recorded`   what the replay of a call finds;
* `exec_goes`  a call raises, or finds its rows, or writes them with their event;
* `Grows`      what no call changes: the definition of a case, the content of a component, the
               identity of a conflict, and every event and materialization;
* `Recorded.mono`, `Recorded.replays`   what was recorded stays recorded, and is replayed.
-/

set_option linter.unusedSectionVars false

namespace LifeAI.Synthesis

open Keyed

variable {Doc : Type} [DecidableEq Doc] {lib : Documents Doc} {s t mid : Tables Doc}
  {ownerId : OwnerId} {caseId : CaseId} {c : SynthesisCase Doc} {call : Call Doc} {r : Answer}

/-! ## the queries -/

theorem owned_ok {α : Type} {rows : List α} {owner : α → OwnerId} {raises : String → Err} {id : ℕ}
    {label : String} {row : α} : owned rows owner raises ownerId id label = .ok row ↔
      rows[id]? = some row ∧ owner row = ownerId := by
  unfold owned
  cases h : rows[id]? with
  | none => simp
  | some x =>
    by_cases howner : owner x = ownerId
    · simp only [if_pos howner, Except.ok.injEq, Option.some.injEq]
      exact ⟨fun h => ⟨h, h ▸ howner⟩, And.left⟩
    · simp only [if_neg howner, reduceCtorEq, Option.some.injEq, false_iff]
      intro h
      obtain ⟨rfl, hrow⟩ := h
      exact howner hrow

theorem ownedCase_ok : s.ownedCase ownerId caseId = .ok c ↔
    s.cases[caseId]? = some c ∧ c.ownerId = ownerId := owned_ok

theorem replay_ok {α : Type} {raises : String → Err} {columns : List (String × Bool)} {answer x : α} :
    replay raises columns answer = .ok x ↔ same raises columns = none ∧ answer = x := by
  unfold replay
  cases same raises columns with
  | none => simp
  | some e => simp

/-- the columns all agree -/
theorem same_eq_none {raises : String → Err} {columns : List (String × Bool)} :
    same raises columns = none ↔ ∀ p ∈ columns, p.2 = true := by
  have hnil : (columns.filter fun p => ¬ p.2).map Prod.fst = [] ↔ ∀ p ∈ columns, p.2 = true := by
    rw [List.map_eq_nil_iff, List.filter_eq_nil_iff]
    simp only [decide_eq_true_eq, Decidable.not_not]
  rw [← hnil]
  unfold same
  cases (columns.filter fun p => ¬ p.2).map Prod.fst with
  | nil => simp
  | cons name names => simp

/-- the event of a call is there once it is recorded, and nothing else has changed -/
theorem event_ok {before : Tables Doc} {row : Event} {answer : EventId → Answer}
    (h : (before.event mid row answer).1 = .ok r) : ∃ id events,
      (before.event mid row answer).2 = { mid with events := events } ∧ mid.events <+: events ∧
      lookup Event.key events row.key = some (id, row) ∧ r = answer id := by
  unfold Tables.event at h ⊢
  cases hfound : lookup Event.key mid.events row.key with
  | some found =>
    obtain ⟨id, existing⟩ := found
    rw [hfound] at h
    obtain ⟨hsame, hanswer⟩ := replay_ok.1 h
    have hkey : existing.key = row.key := (lookup_eq_some.1 hfound).2.1
    have hcolumns := same_eq_none.1 hsame
    -- the key and the columns that `_same` compares are all that an event has
    have hrow : existing = row := by
      obtain ⟨howner, hidem⟩ := Prod.mk.inj hkey
      simp only [List.forall_mem_cons, decide_eq_true_eq] at hcolumns
      obtain ⟨hcase, hconflict, hdetail, htype, hfrom, hto, -⟩ := hcolumns
      cases existing
      cases row
      simp_all
    rw [hrow] at hfound
    exact ⟨id, mid.events, rfl, List.prefix_refl _, hfound, hanswer.symm⟩
  | none =>
    rw [hfound] at h
    dsimp only at h ⊢
    by_cases hlong : tooLong row.idempotencyKey = true
    · rw [if_pos hlong] at h
      cases h
    · rw [if_neg hlong] at h ⊢
      exact ⟨_, _, rfl, List.prefix_append _ _, lookup_append_self hfound rfl,
        (Except.ok.inj h).symm⟩

/-- what the tables are once the event is tried: as the call wrote them, with the event or without,
or as they were before the call -/
theorem event_tables (before mid : Tables Doc) (row : Event) (answer : EventId → Answer) :
    (before.event mid row answer).2 = before ∨
      ((lookup Event.key mid.events row.key = none → ¬ tooLong row.idempotencyKey = true) ∧
        ∃ events, mid.events <+: events ∧
          (before.event mid row answer).2 = { mid with events := events }) := by
  unfold Tables.event
  cases lookup Event.key mid.events row.key with
  | some found => exact .inr ⟨nofun, mid.events, List.prefix_refl _, rfl⟩
  | none =>
    dsimp only
    by_cases hlong : tooLong row.idempotencyKey = true
    · rw [if_pos hlong]
      exact .inl rfl
    · rw [if_neg hlong]
      exact .inr ⟨fun _ => hlong, _, List.prefix_append _ _, rfl⟩

/-- a row that an argument may name is there, and its owner's -/
def OwnedIf {α : Type} (rows : List α) (owner : α → OwnerId) (ownerId : OwnerId) (p : α → Prop)
    (id : Option ℕ) : Prop :=
  ∀ i, id = some i → ∃ row, rows[i]? = some row ∧ owner row = ownerId ∧ p row

/-- what a component refers to is there -/
structure ComponentArgs.Refers (a : ComponentArgs Doc) (s : Tables Doc) (ownerId : OwnerId) :
    Prop where
  input : ∃ row, s.inputs[a.inputId]? = some row ∧ row.ownerId = ownerId ∧ row.caseId = a.caseId
  assumption : OwnedIf s.assumptions id ownerId (fun _ => True) a.assumptionId
  evidence : OwnedIf s.evidence id ownerId (fun _ => True) a.evidenceId

/-- what a conflict refers to is there -/
structure ConflictArgs.Refers (a : ConflictArgs) (s : Tables Doc) (ownerId : OwnerId) : Prop where
  left : OwnedIf s.components (·.ownerId) ownerId (·.caseId = a.caseId) a.leftComponentId
  right : OwnedIf s.components (·.ownerId) ownerId (·.caseId = a.caseId) a.rightComponentId
  assumption : OwnedIf s.assumptions id ownerId (fun _ => True) a.assumptionId
  evidence : OwnedIf s.evidence id ownerId (fun _ => True) a.evidenceId

theorem ownedIf_ok {α : Type} {rows : List α} {owner : α → OwnerId} {raises : String → Err}
    {id : Option ℕ} {label : String} {p : α → Prop} [DecidablePred p] :
    (∃ row, ownedIf rows owner raises ownerId id label = .ok row ∧ row.any (fun x => ¬ p x) = false) ↔
      OwnedIf rows owner ownerId p id := by
  cases id with
  | none => exact iff_of_true ⟨none, rfl, rfl⟩ nofun
  | some i =>
    constructor
    · intro h j hj
      obtain rfl := Option.some.inj hj
      obtain ⟨row, hrow, hp⟩ := h
      cases hx : owned rows owner raises ownerId i label with
      | error e =>
        rw [ownedIf, hx] at hrow
        cases hrow
      | ok x =>
        rw [ownedIf, hx] at hrow
        obtain rfl := Except.ok.inj hrow
        obtain ⟨hget, howner⟩ := owned_ok.1 hx
        exact ⟨x, hget, howner, not_not.1 (of_decide_eq_false hp)⟩
    · intro h
      obtain ⟨x, hget, howner, hp⟩ := h i rfl
      refine ⟨some x, ?_, decide_eq_false (not_not_intro hp)⟩
      rw [ownedIf, owned_ok.2 ⟨hget, howner⟩]
      rfl

theorem ownedIf_ok_true {α : Type} {rows : List α} {owner : α → OwnerId} {raises : String → Err}
    {id : Option ℕ} {label : String} :
    (∃ row, ownedIf rows owner raises ownerId id label = .ok row) ↔
      OwnedIf rows owner ownerId (fun _ => True) id := by
  rw [← ownedIf_ok]
  refine exists_congr fun row => (and_iff_left ?_).symm
  cases row <;> rfl

theorem ComponentArgs.checked_ok {a : ComponentArgs Doc} : a.checked s ownerId = .ok c ↔
    s.ownedCase ownerId a.caseId = .ok c ∧ a.Refers s ownerId := by
  unfold ComponentArgs.checked
  simp only [bind_eq_ok, guard_eq_ok, owned_ok, not_not, Except.ok.injEq]
  constructor
  · intro h
    obtain ⟨c', hcase, row, hrow, hsame, x, hx, y, hy, rfl⟩ := h
    exact ⟨hcase, ⟨row, hrow.1, hrow.2, hsame⟩, ownedIf_ok_true.1 ⟨x, hx⟩, ownedIf_ok_true.1 ⟨y, hy⟩⟩
  · intro h
    obtain ⟨hcase, ⟨row, hrow, howner, hsame⟩, hassumption, hevidence⟩ := h
    obtain ⟨x, hx⟩ := ownedIf_ok_true.2 hassumption
    obtain ⟨y, hy⟩ := ownedIf_ok_true.2 hevidence
    exact ⟨c, hcase, row, ⟨hrow, howner⟩, hsame, x, hx, y, hy, rfl⟩

theorem ConflictArgs.checked_ok {a : ConflictArgs} : a.checked s ownerId = .ok () ↔
    (∃ c, s.ownedCase ownerId a.caseId = .ok c ∧ c.status = .draft) ∧ a.Refers s ownerId := by
  unfold ConflictArgs.checked
  simp only [bind_eq_ok, guard_eq_ok, not_not, Bool.or_eq_true, not_or, Bool.not_eq_true]
  constructor
  · intro h
    obtain ⟨c, hcase, hdraft, left, hleft, right, hright, ⟨hl, hr⟩, x, hx, y, hy, -⟩ := h
    exact ⟨⟨c, hcase, hdraft⟩, ownedIf_ok.1 ⟨left, hleft, hl⟩, ownedIf_ok.1 ⟨right, hright, hr⟩,
      ownedIf_ok_true.1 ⟨x, hx⟩, ownedIf_ok_true.1 ⟨y, hy⟩⟩
  · intro h
    obtain ⟨⟨c, hcase, hdraft⟩, hleft, hright, hassumption, hevidence⟩ := h
    obtain ⟨left, hleft, hl⟩ := ownedIf_ok.2 hleft
    obtain ⟨right, hright, hr⟩ := ownedIf_ok.2 hright
    obtain ⟨x, hx⟩ := ownedIf_ok_true.2 hassumption
    obtain ⟨y, hy⟩ := ownedIf_ok_true.2 hevidence
    exact ⟨c, hcase, hdraft, left, hleft, right, hright, ⟨hl, hr⟩, x, hx, y, hy, trivial⟩

/-! ## what a call writes -/

/-- the tables as a call writes them before its event, the event, and the answer that comes with its
id -/
inductive Writes (lib : Documents Doc) (s : Tables Doc) :
    Call Doc → Tables Doc → Event → (EventId → Answer) → Prop
  | component (ownerId : OwnerId) (a : ComponentArgs Doc) (c : SynthesisCase Doc)
      (hchecked : a.checked s ownerId = .ok c)
      (hnew : lookup Component.key s.components (a.row lib ownerId c).key = none)
      (hdraft : c.status = .draft) :
      Writes lib s (.addRecipeComponent ownerId a)
        { s with
          cases := s.cases.set a.caseId { c with nextComponentSequence := c.nextComponentSequence + 1 }
          components := s.components ++ [a.row lib ownerId c] }
        (a.added ownerId s.components.length c.nextComponentSequence)
        (fun _ => .component s.components.length)
  | order (ownerId : OwnerId) (caseId : CaseId) (ids : List ComponentId) (key : String)
      (c : SynthesisCase Doc) (hcase : s.ownedCase ownerId caseId = .ok c) (hdraft : c.status = .draft)
      (hcovers : coversRecipe s ownerId caseId ids = true) :
      Writes lib s (.reorderRecipe ownerId caseId ids key)
        { s with components := resequence s.components ids }
        (recipeReordered ownerId caseId ((s.orderedRecipe ownerId caseId).map Prod.fst) ids key) .event
  | conflictAgain (ownerId : OwnerId) (a : ConflictArgs) (id : ConflictId) (existing : Conflict)
      (hchecked : a.checked s ownerId = .ok ())
      (hfound : lookup Conflict.key s.conflicts (a.row ownerId).key = some (id, existing))
      (hsame : same .strategySynthesis (existing.columns (a.row ownerId)) = none) :
      Writes lib s (.recordConflict ownerId a) s (a.recorded ownerId id) (fun _ => .conflict id)
  | conflict (ownerId : OwnerId) (a : ConflictArgs) (hchecked : a.checked s ownerId = .ok ())
      (hnew : lookup Conflict.key s.conflicts (a.row ownerId).key = none) :
      Writes lib s (.recordConflict ownerId a) { s with conflicts := s.conflicts ++ [a.row ownerId] }
        (a.recorded ownerId s.conflicts.length) (fun _ => .conflict s.conflicts.length)
  | conflictStatus (ownerId : OwnerId) (id : ConflictId) (conflict : Conflict)
      (next : ConflictStatus) (status : String) (reason : Option String) (key : String)
      (hconflict : s.conflicts[id]? = some conflict) (howner : conflict.ownerId = ownerId)
      (hopen : conflict.status = .unresolved) (hnext : next ≠ .unresolved) :
      Writes lib s (.transitionConflict ownerId id status reason key)
        { s with
          conflicts := s.conflicts.set id { conflict with status := next, resolutionReason := reason } }
        (conflictStateChanged ownerId id conflict status reason key) (.conflictEvent id)
  | caseStatus (ownerId : OwnerId) (caseId : CaseId) (c : SynthesisCase Doc) (next : CaseStatus)
      (status key : String) (hcase : s.ownedCase ownerId caseId = .ok c)
      (hnext : next ∈ caseTransitions c.status) (hname : next.name = status)
      (hnew : lookup Event.key s.events (ownerId, key) = none) :
      Writes lib s (.transitionCase ownerId caseId status key)
        { s with cases := s.cases.set caseId { c with status := next } }
        (stateChanged ownerId caseId c.status status key) (.caseEvent caseId)
  | materialization (ownerId : OwnerId) (caseId : CaseId) (key : String) (c : SynthesisCase Doc)
      (strategyId : StrategyId) (strategies : List (WorkStrategy Doc)) (values : Materialization)
      (hcase : s.ownedCase ownerId caseId = .ok c)
      (hnew : lookup Materialization.key s.materializations (ownerId, caseId) = none)
      (hready : c.status = .ready) (hstate : (readiness s ownerId caseId c).ready = true)
      (hvalues : values =
        ⟨ownerId, caseId, strategyId,
          lib.digest (recipeDocument caseId c (s.orderedRecipe ownerId caseId)), key⟩) :
      Writes lib s (.materializeCandidate ownerId caseId key)
        { s with
          strategies := strategies
          materializations := s.materializations ++ [values]
          cases := s.cases.set caseId { c with status := .assembled } }
        values.materialized (fun _ => .materialization s.materializations.length)

/-- what a conflict says besides its status -/
def Conflict.identity (x : Conflict) : Conflict :=
  { x with status := .unresolved, resolutionReason := none }

/-- what the replay of a call finds in the tables, with the answer that it gives -/
def Recorded (lib : Documents Doc) (s : Tables Doc) : Call Doc → Answer → Prop
  | .addRecipeComponent ownerId a, r => ∃ c id existing,
      s.ownedCase ownerId a.caseId = .ok c ∧ a.Refers s ownerId ∧
      lookup Component.key s.components (ownerId, a.caseId, a.idempotencyKey) = some (id, existing) ∧
      same .strategySynthesis (existing.columns (a.row lib ownerId c)) = none ∧ r = .component id
  | .reorderRecipe ownerId caseId ids key, r => ∃ c id before, s.ownedCase ownerId caseId = .ok c ∧
      lookup Event.key s.events (ownerId, key) =
        some (id, recipeReordered ownerId caseId before ids key) ∧ r = .event id
  | .recordConflict ownerId a, r => ∃ c id existing event, s.ownedCase ownerId a.caseId = .ok c ∧
      a.Refers s ownerId ∧
      lookup Conflict.key s.conflicts (a.row ownerId).key = some (id, existing) ∧
      existing.identity = a.row ownerId ∧ lookup Event.key s.events (a.recorded ownerId id).key =
        some (event, a.recorded ownerId id) ∧ r = .conflict id
  | .transitionConflict ownerId conflictId status reason key, r => ∃ conflict id existing,
      s.conflicts[conflictId]? = some conflict ∧ conflict.ownerId = ownerId ∧
      lookup Event.key s.events (ownerId, key) = some (id, existing) ∧
      existing.caseId = conflict.caseId ∧ existing.conflictId = some conflictId ∧
      existing.detail = .resolution reason ∧ existing.eventType = .conflictStateChanged ∧
      existing.toState = some status ∧ r = .conflictEvent conflictId id
  | .transitionCase ownerId caseId status key, r => ∃ c id existing,
      s.ownedCase ownerId caseId = .ok c ∧
      lookup Event.key s.events (ownerId, key) = some (id, existing) ∧
      existing.caseId = caseId ∧ existing.conflictId = none ∧ existing.detail = .empty ∧
      existing.eventType = .stateChanged ∧ existing.toState = some status ∧ r = .caseEvent caseId id
  | .materializeCandidate ownerId caseId key, r => ∃ c id existing,
      s.ownedCase ownerId caseId = .ok c ∧
      lookup Materialization.key s.materializations (ownerId, caseId) = some (id, existing) ∧
      existing.idempotencyKey = key ∧ r = .materialization id

/-- what a call answers, and the tables that it leaves -/
inductive Goes (lib : Documents Doc) (s : Tables Doc) (call : Call Doc) :
    Except Err Answer × Tables Doc → Prop
  | refused (e : Err) : Goes lib s call (.error e, s)
  | replayed (r : Answer) (h : Recorded lib s call r) : Goes lib s call (.ok r, s)
  | wrote (mid : Tables Doc) (row : Event) (answer : EventId → Answer)
      (h : Writes lib s call mid row answer) : Goes lib s call (s.event mid row answer)

/-! ## the calls one by one -/

theorem goes_addRecipeComponent (a : ComponentArgs Doc) :
    Goes lib s (.addRecipeComponent ownerId a) (addRecipeComponent lib s ownerId a) := by
  unfold addRecipeComponent
  cases hchecked : a.checked s ownerId with
  | error e => exact .refused e
  | ok c =>
    dsimp only
    cases hfound : lookup Component.key s.components (a.row lib ownerId c).key with
    | some found =>
      obtain ⟨id, existing⟩ := found
      dsimp only
      cases hreplay : replay .strategySynthesis (existing.columns (a.row lib ownerId c))
        (Answer.component id) with
      | error e => exact .refused e
      | ok r =>
        obtain ⟨hsame, hr⟩ := replay_ok.1 hreplay
        obtain ⟨hcase, hrefers⟩ := ComponentArgs.checked_ok.1 hchecked
        exact .replayed r ⟨c, id, existing, hcase, hrefers, hfound, hsame, hr.symm⟩
    | none =>
      dsimp only
      by_cases hdraft : c.status = .draft
      · rw [if_neg (not_not_intro hdraft)]
        cases (a.row lib ownerId c).refusal lib with
        | some e => exact .refused e
        | none => exact .wrote _ _ _ (.component ownerId a c hchecked hfound hdraft)
      · rw [if_pos hdraft]
        exact .refused _

theorem after_eq_some {d : EventDetail} {ids : List ComponentId} (h : d.after = some ids) :
    ∃ before, d = .order before ids := by
  cases d with
  | order before after =>
    obtain rfl := Option.some.inj h
    exact ⟨before, rfl⟩
  | _ => exact nomatch h

theorem goes_reorderRecipe (ids : List ComponentId) (key : String) :
    Goes lib s (.reorderRecipe ownerId caseId ids key) (reorderRecipe s ownerId caseId ids key) := by
  unfold reorderRecipe
  cases hcase : s.ownedCase ownerId caseId with
  | error e => exact .refused e
  | ok c =>
    dsimp only
    by_cases hdraft : c.status = .draft
    · rw [if_neg (not_not_intro hdraft)]
      by_cases hcovers : coversRecipe s ownerId caseId ids = true
      · rw [if_neg (not_not_intro hcovers)]
        cases hfound : lookup Event.key s.events (ownerId, key) with
        | some found =>
          obtain ⟨id, existing⟩ := found
          dsimp only
          split
          · exact .refused _
          · next hsame =>
            by_cases hafter : existing.detail.after = some ids
            · rw [if_neg (not_not_intro hafter)]
              obtain ⟨before, hdetail⟩ := after_eq_some hafter
              have hkey : existing.key = (ownerId, key) := (lookup_eq_some.1 hfound).2.1
              have hcolumns := same_eq_none.1 hsame
              have hrow : existing = recipeReordered ownerId caseId before ids key := by
                obtain ⟨howner, hidem⟩ := Prod.mk.inj hkey
                simp only [List.forall_mem_cons, decide_eq_true_eq] at hcolumns
                obtain ⟨hcase, hconflict, htype, hfrom, hto, -⟩ := hcolumns
                cases existing
                simp_all [recipeReordered]
              rw [hrow] at hfound
              exact .replayed _ ⟨c, id, before, hcase, hfound, rfl⟩
            · rw [if_pos hafter]
              exact .refused _
        | none => exact .wrote _ _ _ (.order ownerId caseId ids key c hcase hdraft hcovers)
      · rw [if_pos hcovers]
        exact .refused _
    · rw [if_pos hdraft]
      exact .refused _

theorem goes_recordConflict (a : ConflictArgs) :
    Goes lib s (.recordConflict ownerId a) (recordConflict s ownerId a) := by
  unfold recordConflict
  cases hchecked : a.checked s ownerId with
  | error e => exact .refused e
  | ok checked =>
    dsimp only
    cases hfound : lookup Conflict.key s.conflicts (a.row ownerId).key with
    | some found =>
      obtain ⟨id, existing⟩ := found
      dsimp only
      cases hsame : same .strategySynthesis (existing.columns (a.row ownerId)) with
      | some e => exact .refused e
      | none => exact .wrote _ _ _ (.conflictAgain ownerId a id existing hchecked hfound hsame)
    | none =>
      dsimp only
      cases (a.row ownerId).refusal with
      | some e => exact .refused e
      | none => exact .wrote _ _ _ (.conflict ownerId a hchecked hfound)

theorem goes_transitionConflict (id : ConflictId) (status : String) (reason : Option String)
    (key : String) : Goes lib s (.transitionConflict ownerId id status reason key)
      (transitionConflict s ownerId id status reason key) := by
  unfold transitionConflict
  cases hconflict : owned s.conflicts (·.ownerId) .strategySynthesis ownerId id
    "synthesis conflict" with
  | error e => exact .refused e
  | ok conflict =>
    obtain ⟨hrow, howner⟩ := owned_ok.1 hconflict
    dsimp only
    cases hfound : lookup Event.key s.events (ownerId, key) with
    | some found =>
      obtain ⟨event, existing⟩ := found
      dsimp only
      generalize hreplay : replay .strategySynthesis _ (Answer.conflictEvent id event) = answer
      cases answer with
      | error e => exact .refused e
      | ok r =>
        obtain ⟨hsame, hr⟩ := replay_ok.1 hreplay
        have hcolumns := same_eq_none.1 hsame
        simp only [List.forall_mem_cons, decide_eq_true_eq] at hcolumns
        obtain ⟨hcase, hid, hdetail, htype, hto, -⟩ := hcolumns
        exact .replayed r ⟨conflict, event, existing, hrow, howner, hfound, hcase, hid, hdetail,
          htype, hto, hr.symm⟩
    | none =>
      dsimp only
      cases hnext : settledStatuses.find? (·.name = status) with
      | none => exact .refused _
      | some next =>
        have hsettled : next ≠ .unresolved := by
          have hmem : next ∈ settledStatuses := List.mem_of_find?_eq_some hnext
          rintro rfl
          exact absurd hmem (by decide)
        dsimp only
        by_cases hopen : conflict.status = .unresolved
        · rw [if_neg (not_not_intro hopen)]
          by_cases hreason : reason = none
          · rw [if_pos hreason]
            exact .refused _
          · rw [if_neg hreason]
            exact .wrote _ _ _
              (.conflictStatus ownerId id conflict next status reason key hrow howner hopen hsettled)
        · rw [if_pos hopen]
          exact .refused _

theorem goes_transitionCase (status key : String) :
    Goes lib s (.transitionCase ownerId caseId status key)
      (transitionCase s ownerId caseId status key) := by
  unfold transitionCase
  cases hcase : s.ownedCase ownerId caseId with
  | error e => exact .refused e
  | ok c =>
    dsimp only
    cases hfound : lookup Event.key s.events (ownerId, key) with
    | some found =>
      obtain ⟨event, existing⟩ := found
      dsimp only
      generalize hreplay : replay .strategySynthesis _ (Answer.caseEvent caseId event) = answer
      cases answer with
      | error e => exact .refused e
      | ok r =>
        obtain ⟨hsame, hr⟩ := replay_ok.1 hreplay
        have hcolumns := same_eq_none.1 hsame
        simp only [List.forall_mem_cons, decide_eq_true_eq] at hcolumns
        obtain ⟨hid, hconflict, hdetail, htype, hto, -⟩ := hcolumns
        exact .replayed r ⟨c, event, existing, hcase, hfound, hid, hconflict, hdetail, htype, hto,
          hr.symm⟩
    | none =>
      dsimp only
      cases hnext : (caseTransitions c.status).find? (·.name = status) with
      | none => exact .refused _
      | some next =>
        dsimp only
        split
        · exact .refused _
        · cases caseUpdateGuard s caseId c next with
          | some e => exact .refused e
          | none =>
            have hname := List.find?_some hnext
            exact .wrote _ _ _ (.caseStatus ownerId caseId c next status key hcase
              (List.mem_of_find?_eq_some hnext) (of_decide_eq_true hname) hfound)

/-- `create_strategy` writes strategies only -/
theorem createStrategy_ok {values : WorkStrategy Doc} {strategyId : StrategyId}
    (h : createStrategy s values = .ok (strategyId, mid)) :
    ∃ strategies, mid = { s with strategies := strategies } := by
  unfold createStrategy at h
  obtain ⟨predecessor, -, h⟩ := bind_eq_ok.1 h
  obtain ⟨-, h⟩ := guard_eq_ok.1 h
  cases hfound : lookup WorkStrategy.key s.strategies values.key with
  | some found =>
    obtain ⟨id, existing⟩ := found
    rw [hfound] at h
    obtain ⟨-, heq⟩ := replay_ok.1 h
    obtain ⟨-, rfl⟩ := Prod.mk.inj heq
    exact ⟨s.strategies, rfl⟩
  | none =>
    rw [hfound] at h
    obtain ⟨-, heq⟩ := guard_eq_ok.1 h
    obtain ⟨-, rfl⟩ := Prod.mk.inj (Except.ok.inj heq)
    exact ⟨_, rfl⟩

theorem goes_materializeCandidate (key : String) :
    Goes lib s (.materializeCandidate ownerId caseId key)
      (materializeCandidate lib s ownerId caseId key) := by
  unfold materializeCandidate
  cases hcase : s.ownedCase ownerId caseId with
  | error e => exact .refused e
  | ok c =>
    dsimp only
    cases hfound : lookup Materialization.key s.materializations (ownerId, caseId) with
    | some found =>
      obtain ⟨id, existing⟩ := found
      dsimp only
      by_cases hkey : existing.idempotencyKey = key
      · rw [if_neg (not_not_intro hkey)]
        exact .replayed _ ⟨c, id, existing, hcase, hfound, hkey, rfl⟩
      · rw [if_pos hkey]
        exact .refused _
    | none =>
      dsimp only
      by_cases hready : c.status = .ready
      · rw [if_neg (not_not_intro hready)]
        by_cases hstate : (readiness s ownerId caseId c).ready = true
        · rw [if_neg (not_not_intro hstate)]
          generalize hcreate : createStrategy s _ = created
          cases created with
          | error e => exact .refused e
          | ok p =>
            obtain ⟨strategyId, created⟩ := p
            obtain ⟨strategies, rfl⟩ := createStrategy_ok hcreate
            dsimp only
            split
            · exact .refused _
            · exact .refused _
            · exact .wrote _ _ _ (.materialization ownerId caseId key c strategyId strategies _ hcase
                hfound hready hstate rfl)
        · rw [if_pos hstate]
          exact .refused _
      · rw [if_pos hready]
        exact .refused _

/-- every call goes in one of the ways -/
theorem exec_goes (lib : Documents Doc) (s : Tables Doc) (call : Call Doc) :
    Goes lib s call (call.exec lib s) := by
  cases call with
  | addRecipeComponent ownerId a => exact goes_addRecipeComponent a
  | reorderRecipe ownerId caseId ids key => exact goes_reorderRecipe ids key
  | recordConflict ownerId a => exact goes_recordConflict a
  | transitionConflict ownerId id status reason key =>
    exact goes_transitionConflict id status reason key
  | transitionCase ownerId caseId status key => exact goes_transitionCase status key
  | materializeCandidate ownerId caseId key => exact goes_materializeCandidate key

/-! ## what no call changes -/

/-- what a case says besides its status and its counter -/
def SynthesisCase.definition (c : SynthesisCase Doc) : SynthesisCase Doc :=
  { c with status := .draft, nextComponentSequence := 1 }

/-- what a component says besides its number -/
def Component.content (x : Component Doc) : Component Doc := { x with sequenceNumber := 0 }

/-- the tables `t` come after `s` -/
structure Grows (s t : Tables Doc) : Prop where
  cases : Keyed.Keeps SynthesisCase.definition s.cases t.cases
  inputs : t.inputs = s.inputs
  assumptions : t.assumptions = s.assumptions
  evidence : t.evidence = s.evidence
  components : Keyed.Keeps Component.content s.components t.components
  conflicts : Keyed.Keeps Conflict.identity s.conflicts t.conflicts
  /-- a conflict that is unresolved has not been moved -/
  unresolved : ∀ (i : ConflictId) (x x' : Conflict), s.conflicts[i]? = some x →
    t.conflicts[i]? = some x' → x'.status = .unresolved → x' = x
  events : s.events <+: t.events
  materializations : s.materializations <+: t.materializations

theorem Grows.refl (s : Tables Doc) : Grows s s where
  cases := Keyed.Keeps.refl _ _
  inputs := rfl
  assumptions := rfl
  evidence := rfl
  components := Keyed.Keeps.refl _ _
  conflicts := Keyed.Keeps.refl _ _
  unresolved := fun _ _ _ hx hx' _ => Option.some.inj (hx'.symm.trans hx)
  events := List.prefix_refl _
  materializations := List.prefix_refl _

theorem Grows.trans {u : Tables Doc} (h : Grows s t) (h' : Grows t u) : Grows s u where
  cases := h.cases.trans h'.cases
  inputs := h'.inputs.trans h.inputs
  assumptions := h'.assumptions.trans h.assumptions
  evidence := h'.evidence.trans h.evidence
  components := h.components.trans h'.components
  conflicts := h.conflicts.trans h'.conflicts
  unresolved i x z hx hz hst := by
    obtain ⟨y, hy, -⟩ := h.conflicts i x hx
    obtain rfl := h'.unresolved i y z hy hz hst
    exact h.unresolved i x z hx hy hst
  events := h.events.trans h'.events
  materializations := h.materializations.trans h'.materializations

theorem resequence_content (rows : List (Component Doc)) (ids : List ComponentId) :
    Keyed.Keeps Component.content rows (resequence rows ids) := by
  unfold resequence
  generalize ids.zipIdx 1 = numbered
  induction numbered generalizing rows with
  | nil => exact Keyed.Keeps.refl _ _
  | cons p numbered ih =>
    rw [List.foldl_cons]
    refine Keyed.Keeps.trans ?_ (ih _)
    refine Keyed.Keeps.modify ?_ rows p.1
    intro x
    rfl

theorem Writes.grows {row : Event} {answer : EventId → Answer} (h : Writes lib s call mid row answer) :
    Grows s mid := by
  have hkept := Grows.refl s
  cases h with
  | component ownerId a c hchecked hnew hdraft =>
    have hcase : s.cases[a.caseId]? = some c := (ownedCase_ok.1 (ComponentArgs.checked_ok.1 hchecked).1).1
    exact { hkept with
      cases := Keyed.Keeps.set hcase rfl
      components := Keyed.Keeps.append _ _ _ }
  | order ownerId caseId ids key c hcase hdraft hcovers =>
    exact { hkept with components := resequence_content _ _ }
  | conflictAgain ownerId a id existing hchecked hfound hsame => exact hkept
  | conflict ownerId a hchecked hnew =>
    refine { hkept with conflicts := Keyed.Keeps.append _ _ _, unresolved := ?_ }
    intro i x x' hx hx' _
    have hlt : i < s.conflicts.length := (List.getElem?_eq_some_iff.1 hx).1
    have hx'' : (s.conflicts ++ [a.row ownerId])[i]? = some x' := hx'
    rw [List.getElem?_append_left hlt, hx] at hx''
    exact (Option.some.inj hx'').symm
  | conflictStatus ownerId id conflict next status reason key hconflict howner hopen hnext =>
    refine { hkept with conflicts := Keyed.Keeps.set hconflict rfl, unresolved := ?_ }
    intro i x x' hx hx' hunresolved
    have hset : (s.conflicts.set id
      { conflict with status := next, resolutionReason := reason })[i]? = some x' := hx'
    rw [getElem?_set_row hconflict] at hset
    split at hset
    · obtain rfl := Option.some.inj hset
      exact absurd hunresolved hnext
    · exact Option.some.inj (hset.symm.trans hx)
  | caseStatus ownerId caseId c next status key hcase hnext hname hnew =>
    exact { hkept with cases := Keyed.Keeps.set (ownedCase_ok.1 hcase).1 rfl }
  | materialization ownerId caseId key c strategyId strategies values hcase hnew hready hstate
      hvalues =>
    exact { hkept with
      cases := Keyed.Keeps.set (ownedCase_ok.1 hcase).1 rfl
      materializations := List.prefix_append _ _ }

theorem Goes.grows {p : Except Err Answer × Tables Doc} (h : Goes lib s call p) : Grows s p.2 := by
  cases h with
  | refused e => exact Grows.refl s
  | replayed r h => exact Grows.refl s
  | wrote mid row answer h =>
    rcases event_tables s mid row answer with heq | ⟨-, events, hevents, heq⟩
    · rw [heq]
      exact Grows.refl s
    · rw [heq]
      have hgrows := h.grows
      exact { hgrows with events := hgrows.events.trans hevents }

/-! ## what was recorded is replayed -/

theorem Grows.ownedCase (h : Grows s t) (hcase : s.ownedCase ownerId caseId = .ok c) :
    ∃ c', t.ownedCase ownerId caseId = .ok c' ∧ c'.definition = c.definition := by
  obtain ⟨hrow, howner⟩ := ownedCase_ok.1 hcase
  obtain ⟨c', hrow', hdefinition⟩ := h.cases caseId c hrow
  have howner' : c'.definition.ownerId = c.definition.ownerId := congrArg _ hdefinition
  exact ⟨c', ownedCase_ok.2 ⟨hrow', Eq.trans howner' howner⟩, hdefinition⟩

theorem Grows.lookup_event (h : Grows s t) {k : OwnerId × String} {id : EventId} {row : Event}
    (hfound : lookup Event.key s.events k = some (id, row)) :
    lookup Event.key t.events k = some (id, row) := lookup_extend hfound h.events

theorem OwnedIf.mono {α β : Type} {rows rows' : List α} {owner : α → OwnerId} {p : α → Prop}
    {id : Option ℕ} (h : OwnedIf rows owner ownerId p id) {f : α → β} (hkeeps : Keyed.Keeps f rows rows')
    (howner : ∀ x x', f x' = f x → owner x' = owner x) (hp : ∀ x x', f x' = f x → p x → p x') :
    OwnedIf rows' owner ownerId p id := by
  intro i hi
  obtain ⟨x, hx, hx', hpx⟩ := h i hi
  obtain ⟨x', hrow, hf⟩ := hkeeps i x hx
  exact ⟨x', hrow, (howner x x' hf).trans hx', hp x x' hf hpx⟩

theorem ComponentArgs.Refers.mono {a : ComponentArgs Doc} (h : a.Refers s ownerId)
    (hgrows : Grows s t) : a.Refers t ownerId where
  input := by
    rw [hgrows.inputs]
    exact h.input
  assumption := by
    rw [hgrows.assumptions]
    exact h.assumption
  evidence := by
    rw [hgrows.evidence]
    exact h.evidence

theorem ConflictArgs.Refers.mono {a : ConflictArgs} (h : a.Refers s ownerId) (hgrows : Grows s t) :
    a.Refers t ownerId := by
  have howner : ∀ x x' : Component Doc, x'.content = x.content → x'.ownerId = x.ownerId := by
    intro x x' hx
    have hcolumn : x'.content.ownerId = x.content.ownerId := congrArg _ hx
    exact hcolumn
  have hcase : ∀ x x' : Component Doc, x'.content = x.content → x.caseId = a.caseId →
      x'.caseId = a.caseId := by
    intro x x' hx hid
    have hcolumn : x'.content.caseId = x.content.caseId := congrArg _ hx
    exact Eq.trans hcolumn hid
  refine ⟨h.left.mono hgrows.components howner hcase, h.right.mono hgrows.components howner hcase,
    ?_, ?_⟩
  · rw [hgrows.assumptions]
    exact h.assumption
  · rw [hgrows.evidence]
    exact h.evidence

/-- the row of a call agrees with itself, whatever its number -/
theorem columns_content {x x' values values' : Component Doc} (hx : x'.content = x.content)
    (hvalues : values'.content = values.content) : x'.columns values' = x.columns values := by
  have h : x'.content.columns values'.content = x.content.columns values.content := by
    rw [hx, hvalues]
  exact h

theorem same_columns_self (x : Component Doc) :
    same .strategySynthesis (x.columns x) = none := by
  refine same_eq_none.2 ?_
  simp [Component.columns]

/-- the columns of a conflict that agrees with an unresolved one -/
theorem Conflict.eq_of_same {existing values : Conflict}
    (h : same .strategySynthesis (existing.columns values) = none) (hkey : existing.key = values.key) :
    existing = values := by
  have hcolumns := same_eq_none.1 h
  obtain ⟨howner, hidem⟩ := Prod.mk.inj hkey
  simp only [Conflict.columns, List.forall_mem_cons, decide_eq_true_eq] at hcolumns
  obtain ⟨h1, h2, h3, h4, h5, h6, h7, h8, h9, -⟩ := hcolumns
  cases existing
  cases values
  simp_all

theorem Goes.recorded (h : Goes lib s call (.ok r, t)) : Recorded lib t call r := by
  generalize hp : (Except.ok r, t) = p at h
  cases h with
  | refused e => cases hp
  | replayed r h =>
    cases hp
    exact h
  | wrote mid row answer h =>
    have hgrows := h.grows
    have hok : (s.event mid row answer).1 = .ok r := by rw [← hp]
    obtain ⟨event, events, htables, -, hfound, hr⟩ := event_ok hok
    have ht : t = { mid with events := events } := by rw [← htables, ← hp]
    subst ht hr
    cases h with
    | component ownerId a c hchecked hnew hdraft =>
      obtain ⟨hcase, hrefers⟩ := ComponentArgs.checked_ok.1 hchecked
      obtain ⟨c', hcase', -⟩ := hgrows.ownedCase hcase
      have hrow := lookup_append_self hnew rfl
      have hsame := same_columns_self (a.row lib ownerId c)
      have hrefers' := hrefers.mono hgrows
      exact ⟨c', _, _, hcase', ⟨hrefers'.input, hrefers'.assumption, hrefers'.evidence⟩, hrow,
        hsame, rfl⟩
    | order ownerId caseId ids key c hcase hdraft hcovers =>
      exact ⟨c, event, _, hcase, hfound, rfl⟩
    | conflictAgain ownerId a id existing hchecked hfound' hsame =>
      obtain ⟨⟨c, hcase, -⟩, hrefers⟩ := ConflictArgs.checked_ok.1 hchecked
      have hidentity := Conflict.eq_of_same hsame (lookup_eq_some.1 hfound').2.1
      rw [hidentity] at hfound'
      exact ⟨c, id, _, event, hcase, ⟨hrefers.left, hrefers.right, hrefers.assumption,
        hrefers.evidence⟩, hfound', rfl, hfound, rfl⟩
    | conflict ownerId a hchecked hnew =>
      obtain ⟨⟨c, hcase, -⟩, hrefers⟩ := ConflictArgs.checked_ok.1 hchecked
      exact ⟨c, _, _, event, hcase, ⟨hrefers.left, hrefers.right, hrefers.assumption,
        hrefers.evidence⟩, lookup_append_self hnew rfl, rfl, hfound, rfl⟩
    | conflictStatus ownerId id conflict next status reason key hconflict howner hopen hnext =>
      obtain ⟨moved, hmoved⟩ :
          ∃ moved : Conflict, moved = { conflict with status := next, resolutionReason := reason } :=
        ⟨_, rfl⟩
      have hrow : (s.conflicts.set id moved)[id]? = some moved := by
        rw [getElem?_set_row hconflict, if_pos rfl]
      rw [hmoved] at hrow
      exact ⟨_, event, _, hrow, howner, hfound, rfl, rfl, rfl, rfl, rfl, rfl⟩
    | caseStatus ownerId caseId c next status key hcase hnext hname hnew =>
      obtain ⟨c', hcase', -⟩ := hgrows.ownedCase hcase
      exact ⟨c', event, _, hcase', hfound, rfl, rfl, rfl, rfl, rfl, rfl⟩
    | materialization ownerId caseId key c strategyId strategies values hcase hnew hready hstate
        hvalues =>
      obtain ⟨c', hcase', -⟩ := hgrows.ownedCase hcase
      subst hvalues
      exact ⟨c', _, _, hcase', lookup_append_self hnew rfl, rfl, rfl⟩

theorem Recorded.mono (h : Recorded lib s call r) (hgrows : Grows s t) : Recorded lib t call r := by
  cases call with
  | addRecipeComponent ownerId a =>
    obtain ⟨c, id, existing, hcase, hrefers, hfound, hsame, hr⟩ := h
    obtain ⟨c', hcase', -⟩ := hgrows.ownedCase hcase
    have hkeys : Keyed.Keeps Component.key s.components t.components :=
      hgrows.components.comp Component.key
    obtain ⟨existing', hrow', hfound'⟩ := lookup_grows hfound hkeys
    have hrow := (lookup_eq_some.1 hfound).1
    obtain ⟨x, hx, hcontent⟩ := hgrows.components id existing hrow
    obtain rfl := Option.some.inj (hx.symm.trans hrow')
    -- the number that a new row would have is none of the columns that are compared
    have hvalues : (a.row lib ownerId c').content = (a.row lib ownerId c).content := rfl
    refine ⟨c', id, x, hcase', hrefers.mono hgrows, hfound', ?_, hr⟩
    rw [columns_content hcontent hvalues]
    exact hsame
  | reorderRecipe ownerId caseId ids key =>
    obtain ⟨c, id, before, hcase, hfound, hr⟩ := h
    obtain ⟨c', hcase', -⟩ := hgrows.ownedCase hcase
    exact ⟨c', id, before, hcase', hgrows.lookup_event hfound, hr⟩
  | recordConflict ownerId a =>
    obtain ⟨c, id, existing, event, hcase, hrefers, hfound, hidentity, hevent, hr⟩ := h
    obtain ⟨c', hcase', -⟩ := hgrows.ownedCase hcase
    have hkeys : Keyed.Keeps Conflict.key s.conflicts t.conflicts := hgrows.conflicts.comp Conflict.key
    obtain ⟨existing', hrow', hfound'⟩ := lookup_grows hfound hkeys
    have hrow := (lookup_eq_some.1 hfound).1
    obtain ⟨x, hx, hsame⟩ := hgrows.conflicts id existing hrow
    obtain rfl := Option.some.inj (hx.symm.trans hrow')
    exact ⟨c', id, x, event, hcase', hrefers.mono hgrows, hfound', hsame.trans hidentity,
      hgrows.lookup_event hevent, hr⟩
  | transitionConflict ownerId conflictId status reason key =>
    obtain ⟨conflict, id, existing, hrow, howner, hfound, hcase, hrest⟩ := h
    obtain ⟨conflict', hrow', hidentity⟩ := hgrows.conflicts conflictId conflict hrow
    have howner' : conflict'.identity.ownerId = conflict.identity.ownerId := congrArg _ hidentity
    have hcase' : conflict'.identity.caseId = conflict.identity.caseId := congrArg _ hidentity
    exact ⟨conflict', id, existing, hrow', Eq.trans howner' howner, hgrows.lookup_event hfound,
      hcase.trans hcase'.symm, hrest⟩
  | transitionCase ownerId caseId status key =>
    obtain ⟨c, id, existing, hcase, hfound, hrest⟩ := h
    obtain ⟨c', hcase', -⟩ := hgrows.ownedCase hcase
    exact ⟨c', id, existing, hcase', hgrows.lookup_event hfound, hrest⟩
  | materializeCandidate ownerId caseId key =>
    obtain ⟨c, id, existing, hcase, hfound, hrest⟩ := h
    obtain ⟨c', hcase', -⟩ := hgrows.ownedCase hcase
    exact ⟨c', id, existing, hcase', lookup_extend hfound hgrows.materializations, hrest⟩

/-- what the replay of a reordering, and of a conflict, needs besides its rows -/
def stillOpen (s : Tables Doc) : Call Doc → Bool
  | .reorderRecipe ownerId caseId ids _ =>
    s.cases[caseId]?.any (·.status = .draft) && coversRecipe s ownerId caseId ids
  | .recordConflict ownerId a => s.cases[a.caseId]?.any (·.status = .draft) &&
      (lookup Conflict.key s.conflicts (ownerId, a.idempotencyKey)).any (·.2.status = .unresolved)
  | _ => true

theorem status_of_any {p : SynthesisCase Doc → Bool} (hcase : s.ownedCase ownerId caseId = .ok c)
    (h : s.cases[caseId]?.any p = true) : p c = true := by
  rw [(ownedCase_ok.1 hcase).1] at h
  exact h

/-- an event that is there is not recorded again -/
theorem event_replays {before : Tables Doc} {row : Event} {answer : EventId → Answer} {id : EventId}
    (hfound : lookup Event.key s.events row.key = some (id, row)) :
    before.event s row answer = (.ok (answer id), s) := by
  unfold Tables.event
  rw [hfound]
  simp [replay, same]

theorem Recorded.replays (h : Recorded lib s call r) (hunresolved : ∀ x ∈ s.conflicts,
    x.status = .unresolved → x.resolutionReason = none) (hopen : stillOpen s call = true) :
    call.exec lib s = (.ok r, s) := by
  cases call with
  | addRecipeComponent ownerId a =>
    obtain ⟨c, id, existing, hcase, hrefers, hfound, hsame, rfl⟩ := h
    show addRecipeComponent lib s ownerId a = _
    unfold addRecipeComponent
    rw [ComponentArgs.checked_ok.2 ⟨hcase, hrefers⟩]
    have hkey : (a.row lib ownerId c).key = (ownerId, a.caseId, a.idempotencyKey) := rfl
    dsimp only
    rw [hkey, hfound]
    dsimp only
    rw [replay_ok.2 ⟨hsame, rfl⟩]
  | reorderRecipe ownerId caseId ids key =>
    obtain ⟨c, id, before, hcase, hfound, rfl⟩ := h
    obtain ⟨hdraft, hcovers⟩ := Bool.and_eq_true_iff.1 hopen
    have hdraft : c.status = .draft := of_decide_eq_true (status_of_any hcase hdraft)
    show reorderRecipe s ownerId caseId ids key = _
    unfold reorderRecipe
    rw [hcase]
    dsimp only
    rw [if_neg (not_not_intro hdraft), if_neg (not_not_intro hcovers), hfound]
    simp [same, recipeReordered, EventDetail.after]
  | recordConflict ownerId a =>
    obtain ⟨c, id, existing, event, hcase, hrefers, hfound, hidentity, hevent, rfl⟩ := h
    obtain ⟨hdraft, hstatus⟩ := Bool.and_eq_true_iff.1 hopen
    have hdraft : c.status = .draft := of_decide_eq_true (status_of_any hcase hdraft)
    have hkey : (a.row ownerId).key = (ownerId, a.idempotencyKey) := rfl
    have hunmoved : existing.status = .unresolved := by
      rw [← hkey, hfound] at hstatus
      exact of_decide_eq_true hstatus
    have hrow : s.conflicts[id]? = some existing := (lookup_eq_some.1 hfound).1
    have hreason := hunresolved existing (List.mem_of_getElem? hrow) hunmoved
    have heq : existing = a.row ownerId := by
      rw [← hidentity, Conflict.identity, ← hunmoved, ← hreason]
    rw [heq] at hfound
    show recordConflict s ownerId a = _
    unfold recordConflict
    rw [ConflictArgs.checked_ok.2 ⟨⟨c, hcase, hdraft⟩, hrefers⟩]
    dsimp only
    rw [hfound]
    have hsame : same .strategySynthesis ((a.row ownerId).columns (a.row ownerId)) = none := by
      refine same_eq_none.2 ?_
      simp [Conflict.columns]
    dsimp only
    rw [hsame]
    exact event_replays hevent
  | transitionConflict ownerId conflictId status reason key =>
    obtain ⟨conflict, id, existing, hrow, howner, hfound, hcase, hid, hdetail, htype, hto, rfl⟩ := h
    show transitionConflict s ownerId conflictId status reason key = _
    unfold transitionConflict
    rw [owned_ok.2 ⟨hrow, howner⟩]
    dsimp only
    rw [hfound]
    simp [replay, same, hcase, hid, hdetail, htype, hto]
  | transitionCase ownerId caseId status key =>
    obtain ⟨c, id, existing, hcase, hfound, hid, hconflict, hdetail, htype, hto, rfl⟩ := h
    show transitionCase s ownerId caseId status key = _
    unfold transitionCase
    rw [hcase]
    dsimp only
    rw [hfound]
    simp [replay, same, hid, hconflict, hdetail, htype, hto]
  | materializeCandidate ownerId caseId key =>
    obtain ⟨c, id, existing, hcase, hfound, hkey, rfl⟩ := h
    show materializeCandidate lib s ownerId caseId key = _
    unfold materializeCandidate
    rw [hcase]
    dsimp only
    rw [hfound]
    dsimp only
    rw [if_neg (not_not_intro hkey)]

end LifeAI.Synthesis
