import LifeAI.Jobs.CreateRace

/-!
# One job for one key

* `CreateInv`  the unique keys hold among committed and pending rows;
* `Answered`   what a call that has ended owes to the rows that are there;
* `CreateStep.fits`  the condition under which a step owes nothing that it does not pay.
-/

namespace LifeAI

open CreateSys

variable {s s' : CreateSys} {k : Nat} {c : CreateCall} {p p' : Phase}

/-- two rows break the primary key, or the unique key of owner and idempotency key -/
def clash (a b : JobId × Job) : Prop :=
  a.1 = b.1 ∨ a.2.ownerId = b.2.ownerId ∧ a.2.idempotencyKey = b.2.idempotencyKey ∧
    a.2.idempotencyKey ≠ none

instance : Std.Symm clash where
  symm a b h := by
    rcases h with h | ⟨h1, h2, h3⟩
    · exact .inl h.symm
    · exact .inr ⟨h1.symm, h2.symm, h2 ▸ h3⟩

/-! ## the rows and the calls -/

namespace CreateSys

theorem names_iff {r : Job} : c.names r ↔ r.ownerId = c.ownerId ∧
    r.idempotencyKey = c.idempotencyKey := by simp [CreateCall.names]

theorem stored_some {j : JobId} {r : Job} (h : s.stored c = some (j, r)) :
    (j, r) ∈ s.rows ∧ c.names r :=
  ⟨List.mem_of_find?_eq_some h, by simpa using List.find?_some h⟩

theorem stored_none (h : s.stored c = none) : ∀ j r, (j, r) ∈ s.rows → ¬ c.names r :=
  fun j r hr => by simpa using List.find?_eq_none.1 h (j, r) hr

theorem stored_mono (h : ∀ r ∈ s.rows, r ∈ s'.rows) (hs : s.stored c ≠ none) :
    s'.stored c ≠ none := by
  obtain ⟨⟨j, r⟩, hj⟩ := Option.ne_none_iff_exists'.1 hs
  intro hnone
  exact stored_none hnone j r (h _ (stored_some hj).1) (stored_some hj).2

/-- under a key that is looked up there is one row -/
theorem stored_eq (h : Unique.Guarded clash s.rows s.pending) (hkey : c.idempotencyKey ≠ none)
    {j : JobId} {r : Job} (hr : (j, r) ∈ s.rows) (hn : c.names r) : s.stored c = some (j, r) := by
  cases hs : s.stored c with
  | none => exact absurd hn (stored_none hs j r hr)
  | some x =>
    obtain ⟨hx, hxn⟩ := stored_some (j := x.1) (r := x.2) hs
    rw [names_iff] at hn hxn
    have heq : x = (j, r) := h.eq_of_clash hx hr
      (.inr ⟨hxn.1.trans hn.1.symm, hxn.2.trans hn.2.symm, hxn.2 ▸ hkey⟩)
    rw [heq]

theorem keyed_iff : c.keyed ↔ c.idempotencyKey ≠ none ∧ c.idempotencyKey ≠ some "" := by
  simp [CreateCall.keyed]

theorem getElem?_setPhase (hk : s.calls[k]? = some (c, p)) (l : Nat) :
    (s.setPhase k c p').calls[l]? = if k = l then some (c, p') else s.calls[l]? :=
  getElem?_set_row hk

theorem pending_of {id : JobId} (hk : s.calls[k]? = some (c, .inserted id)) :
    s.pending k = some (id, c.request.row) := by
  rw [pending, hk]

theorem pending_some {q : JobId × Job} (h : s.pending k = some q) :
    ∃ c id, s.calls[k]? = some (c, .inserted id) ∧ q = (id, c.request.row) := by
  unfold pending at h
  split at h
  · next c id hk => exact ⟨c, id, hk, by simpa using h.symm⟩
  · exact absurd h (by simp)

theorem pending_setPhase_ne (hk : s.calls[k]? = some (c, p)) {l : Nat} (hl : l ≠ k) :
    (s.setPhase k c p').pending l = s.pending l := by
  rw [pending, getElem?_setPhase hk, if_neg (Ne.symm hl), pending]

theorem pending_setPhase_none (hk : s.calls[k]? = some (c, p)) (hp : ∀ id, p' ≠ .inserted id) :
    (s.setPhase k c p').pending k = none := by
  rw [pending, getElem?_setPhase hk, if_pos rfl]
  split
  · next heq => exact absurd (congrArg Prod.snd (Option.some.inj heq)) (hp _)
  · rfl

theorem not_heldByOther {q : JobId × Job → Bool} (h : ¬ s.heldByOther k q) :
    ∀ l x, l ≠ k → s.pending l = some x → ¬ q x := by
  intro l x hl hx hq
  obtain ⟨c, id, hc, -⟩ := pending_some hx
  refine h (List.any_eq_true.2 ⟨l, List.mem_range.2 (List.getElem?_eq_some_iff.1 hc).1, ?_⟩)
  simp [hl, hx, hq]

end CreateSys

/-! ## the invariant -/

structure CreateInv (s : CreateSys) : Prop where
  unique : Unique.Guarded clash s.rows s.pending
  named : ∀ (k : Nat) (c : CreateCall) (id i : JobId), s.calls[k]? = some (c, .inserted id) →
    c.jobId = some i → id = i
  violated : ∀ (k : Nat) (c : CreateCall), s.calls[k]? = some (c, .violated) →
    s.stored c ≠ none

theorem CreateInv.init : CreateInv {} := by
  refine ⟨?_, by simp, by simp⟩
  have hnone : (CreateSys.pending {}) = fun _ => none := by
    funext k
    simp [pending]
  rw [hnone]
  exact .empty

/-- a call goes on without a row of its own -/
theorem CreateInv.setPhase (h : CreateInv s) (hk : s.calls[k]? = some (c, p))
    (hp : ∀ id, p' ≠ .inserted id) (hv : p' = .violated → s.stored c ≠ none) :
    CreateInv (s.setPhase k c p') := by
  refine ⟨h.unique.drop fun l q hq => ?_, fun l c' id i hl hi => ?_, fun l c' hl => ?_⟩
  · by_cases hlk : l = k
    · subst hlk
      rw [pending_setPhase_none hk hp] at hq
      exact absurd hq (by simp)
    · rwa [pending_setPhase_ne hk hlk] at hq
  · rw [getElem?_setPhase hk] at hl
    split at hl
    · cases hl
      exact absurd rfl (hp id)
    · exact h.named l c' id i hl hi
  · rw [getElem?_setPhase hk] at hl
    split at hl
    · cases hl
      exact hv rfl
    · exact h.violated l c' hl

/-- the INSERT of a row that clashes with no other -/
theorem CreateInv.insertRow (h : CreateInv s) (hk : s.calls[k]? = some (c, p)) {id : JobId}
    (hrows : ∀ r ∈ s.rows, ¬ clash r (id, c.request.row))
    (hpend : ∀ l q, l ≠ k → s.pending l = some q → ¬ clash q (id, c.request.row))
    (hid : ∀ i, c.jobId = some i → id = i) : CreateInv (s.setPhase k c (.inserted id)) := by
  have hnew : (s.setPhase k c (.inserted id)).calls[k]? = some (c, .inserted id) := by
    rw [getElem?_setPhase hk, if_pos rfl]
  refine ⟨h.unique.insert hrows hpend (pending_of hnew) fun l hl => pending_setPhase_ne hk hl,
    fun l c' id' i hl hi => ?_, fun l c' hl => ?_⟩
  · rw [getElem?_setPhase hk] at hl
    split at hl
    · cases hl
      exact hid i hi
    · exact h.named l c' id' i hl hi
  · rw [getElem?_setPhase hk] at hl
    split at hl
    · cases hl
    · exact h.violated l c' hl

theorem clash_row_iff {q : JobId × Job} {id : JobId} :
    clash q (id, c.request.row) ↔ q.1 = id ∨ c.names q.2 ∧ c.idempotencyKey ≠ none := by
  unfold clash
  rw [names_iff]
  refine or_congr Iff.rfl ?_
  constructor
  · rintro ⟨h1, h2, h3⟩
    exact ⟨⟨h1, h2⟩, fun hn => h3 (h2.trans hn)⟩
  · rintro ⟨⟨h1, h2⟩, h3⟩
    exact ⟨h1, h2, fun hn => h3 (h2.symm.trans hn)⟩

theorem CreateInv.insert (h : CreateInv s) (hk : s.calls[k]? = some (c, .checked))
    (fresh : JobId) : CreateInv (s.insert k c fresh) := by
  unfold CreateSys.insert
  dsimp only
  have hid : ∀ i, c.jobId = some i → c.jobId.getD fresh = i := by simp +contextual
  split
  · exact h
  next hheld =>
  split
  · split
    · exact h.setPhase hk (by simp) (by simp)
    · exact h
  next hrow =>
  have hrow' : ∀ r ∈ s.rows, r.1 ≠ c.jobId.getD fresh := fun r hr he =>
    hrow (List.any_eq_true.2 ⟨r, hr, by simpa using he⟩)
  have hheld' := not_heldByOther hheld
  split
  · next hnone =>
    refine h.insertRow hk (fun r hr => ?_) (fun l q hl hq => ?_) hid
    · rw [clash_row_iff]
      simp [hrow' r hr, hnone]
    · rw [clash_row_iff]
      have := hheld' l q hl hq
      simp only [decide_eq_true_eq] at this
      simp [this, hnone]
  next hkey =>
  split
  · exact h
  next hkeyheld =>
  have hkeyheld' := not_heldByOther hkeyheld
  split
  · next hstored => exact h.setPhase hk (by simp) fun _ => Option.isSome_iff_ne_none.1 hstored
  · next hstored =>
    refine h.insertRow hk (fun r hr => ?_) (fun l q hl hq => ?_) hid
    · rw [clash_row_iff]
      have := stored_none (by simpa using hstored) r.1 r.2 hr
      simp [hrow' r hr, this]
    · rw [clash_row_iff]
      have h1 := hheld' l q hl hq
      simp only [decide_eq_true_eq] at h1
      simp [h1, hkeyheld' l q hl hq]

theorem CreateInv.commit (h : CreateInv s) {id : JobId}
    (hk : s.calls[k]? = some (c, .inserted id)) :
    CreateInv (CreateSys.setPhase { s with rows := s.rows ++ [(id, c.request.row)] } k c
      (.done (.ok id))) := by
  set s1 : CreateSys := { s with rows := s.rows ++ [(id, c.request.row)] } with hs1
  have hk' : s1.calls[k]? = some (c, .inserted id) := hk
  refine ⟨h.unique.commit (pending_of hk) (pending_setPhase_none hk' (by simp))
    fun l hl => pending_setPhase_ne hk' hl, fun l c' id' i hl hi => ?_, fun l c' hl => ?_⟩
  · rw [getElem?_setPhase hk'] at hl
    split at hl
    · cases hl
    · exact h.named l c' id' i hl hi
  · rw [getElem?_setPhase hk'] at hl
    split at hl
    · cases hl
    · exact stored_mono (fun r hr => List.mem_append_left _ hr) (h.violated l c' hl)

theorem CreateInv.step (h : CreateInv s) (o : CreateStep) : CreateInv (o.step s) := by
  cases o with
  | call c =>
    have hcalls : ∀ (k : Nat) (c' : CreateCall) (p : Phase), p ≠ .started →
        (s.calls ++ [(c, Phase.started)])[k]? = some (c', p) → s.calls[k]? = some (c', p) := by
      intro k c' p hp hk
      rcases getElem?_insert hk with hk | ⟨-, hk⟩
      · exact hk
      · exact absurd (congrArg Prod.snd hk) hp
    refine ⟨h.unique.drop fun l q hq => ?_, fun l c' id i hl => ?_, fun l c' hl => ?_⟩
    · obtain ⟨c', id, hl, rfl⟩ := pending_some hq
      exact pending_of (hcalls l c' _ (by simp) hl)
    · exact h.named l c' id i (hcalls l c' _ (by simp) hl)
    · exact h.violated l c' (hcalls l c' _ (by simp) hl)
  | lookup k =>
    simp only [CreateStep.step]
    split
    · next c hk =>
      split
      · exact h.setPhase hk (by simp) (by simp)
      · split <;> exact h.setPhase hk (by simp) (by simp)
    · exact h
  | check k env db | reselect k =>
    simp only [CreateStep.step]
    split
    · next c hk => split <;> exact h.setPhase hk (by simp) (by simp)
    · exact h
  | insert k fresh =>
    simp only [CreateStep.step]
    split
    · next c hk => exact h.insert hk fresh
    · exact h
  | commit k =>
    simp only [CreateStep.step]
    split
    · next c id hk => exact h.commit hk
    · exact h
  | die k =>
    simp only [CreateStep.step]
    split
    · exact h
    · next c p hp hk => exact h.setPhase hk (by simp) (by simp)
    · exact h

theorem createRun_inv (os : List CreateStep) : CreateInv (createRun os) :=
  Run.inv_all (I := CreateInv) (fun _ o h => h.step o) .init os

/-! ## what an ended call owes -/

/-- the call ends at this step, with this answer -/
def CallEnds (s s' : CreateSys) (k : Nat) (c : CreateCall) (answer : Except Err JobId) : Prop :=
  ∃ p, s.calls[k]? = some (c, p) ∧ (∀ a, p ≠ .done a) ∧ s'.calls[k]? = some (c, .done answer)

/-- A call that has ended answers with the stored job when its fingerprint is the same one, and
with a conflict otherwise; a job that is returned has the id that the caller brought; a call that
raises has created nothing. -/
structure Answered (s s' : CreateSys) (c : CreateCall) (answer : Except Err JobId) : Prop where
  stored : ∀ j r, (j, r) ∈ s'.rows → c.names r →
    answer = if c.request.matchesRow r then .ok j else .error .idempotencyConflict
  returned : ∀ j, answer = .ok j → ∃ r, (j, r) ∈ s'.rows ∧ c.names r ∧ c.request.matchesRow r
  brought : ∀ i j, c.jobId = some i → answer = .ok j → j = i
  refused : ∀ e, answer = .error e → s'.rows = s.rows

/-- what holds of one step -/
structure CreateStep.Sound (s : CreateSys) (o : CreateStep) : Prop where
  one : ∀ owner key, (o.step s).rows.countP
    (fun r => r.2.ownerId = owner ∧ r.2.idempotencyKey = some key) ≤ 1
  answers : ∀ k c answer, CallEnds s (o.step s) k c answer → c.keyed → Answered s (o.step s) c answer

/-- the stored job has the id that the caller brought, if the fingerprints are equal -/
def CreateCall.agrees (c : CreateCall) (x : JobId × Job) : Bool :=
  c.request.matchesRow x.2 → (c.jobId = none ∨ c.jobId = some x.1)

/-- No call that brought an id meets a stored job of its key and fingerprint with another id, and
no call fails its checks, or on the primary key, while a job is stored under its key. -/
def CreateStep.fits (s : CreateSys) : CreateStep → Bool
  | .lookup k =>
    match s.calls[k]? with
    | some (c, .started) => c.keyed → (s.stored c).all c.agrees
    | _ => true
  | .check k env db =>
    match s.calls[k]? with
    | some (c, .missed) =>
      c.keyed → (c.request.validate env db = .ok () ∨ s.stored c = none)
    | _ => true
  | .insert k _ =>
    match s.calls[k]? with
    | some (c, .checked) =>
      c.keyed → ¬ (s.stored c ≠ none ∧ c.jobId.any fun i => s.rows.any (·.1 = i))
    | _ => true
  | .reselect k =>
    match s.calls[k]? with
    | some (c, .violated) => c.keyed → (s.stored c).all c.agrees
    | _ => true
  | _ => true

theorem not_ends_same (h : s'.calls = s.calls) (answer : Except Err JobId) :
    ¬ CallEnds s s' k c answer := by
  rintro ⟨p, hp, hne, hd⟩
  rw [h, hp] at hd
  exact hne answer (congrArg Prod.snd (Option.some.inj hd))

/-- the one call that a step moves -/
theorem ends_setPhase (rows : List (JobId × Job)) {answer : Except Err JobId} {l : Nat}
    {c' : CreateCall} (hk : s.calls[k]? = some (c, p)) (hp : ∀ a, p ≠ .done a) :
    CallEnds s (CreateSys.setPhase { s with rows } k c p') l c' answer ↔
      l = k ∧ c' = c ∧ p' = .done answer := by
  have hcalls : ∀ l, (CreateSys.setPhase { s with rows } k c p').calls[l]? =
      if k = l then some (c, p') else s.calls[l]? := getElem?_setPhase (s := { s with rows }) hk
  constructor
  · rintro ⟨q, hq, hne, hd⟩
    rw [hcalls] at hd
    split at hd
    · next hkl =>
      subst hkl
      have heq := Option.some.inj hd
      exact ⟨rfl, (congrArg Prod.fst heq).symm, congrArg Prod.snd heq⟩
    · rw [hq] at hd
      exact absurd (congrArg Prod.snd (Option.some.inj hd)) (hne answer)
  · rintro ⟨rfl, rfl, rfl⟩
    exact ⟨p, hk, hp, by rw [hcalls, if_pos rfl]⟩

/-- a step that ends no call owes nothing -/
theorem owes_nothing (h : ∀ k c answer, ¬ CallEnds s s' k c answer) :
    ∀ k c answer, CallEnds s s' k c answer → c.keyed → Answered s s' c answer :=
  fun k c answer he => absurd he (h k c answer)

/-- a step that ends one call owes what this call is owed -/
theorem owes_one (rows : List (JobId × Job)) {answer : Except Err JobId}
    (hk : s.calls[k]? = some (c, p)) (hp : ∀ a, p ≠ .done a) :
    (∀ l c' a, CallEnds s (CreateSys.setPhase { s with rows } k c (.done answer)) l c' a → c'.keyed →
      Answered s (CreateSys.setPhase { s with rows } k c (.done answer)) c' a) ↔
      (c.keyed → Answered s { s with rows } c answer) := by
  constructor
  · intro h hkey
    have := h k c answer ((ends_setPhase rows hk hp).2 ⟨rfl, rfl, rfl⟩) hkey
    exact ⟨this.stored, this.returned, this.brought, this.refused⟩
  · intro h l c' a he hkey
    obtain ⟨rfl, rfl, ha⟩ := (ends_setPhase rows hk hp).1 he
    cases ha
    have := h hkey
    exact ⟨this.stored, this.returned, this.brought, this.refused⟩

/-- the answer to a stored job is right exactly when the caller brought no other id -/
theorem answered_found (h : CreateInv s) (hkey : c.keyed) {j : JobId} {r : Job}
    (hs : s.stored c = some (j, r)) {answer : Except Err JobId}
    (hans : answer = replayAnswer c j r ∨ answer = raceAnswer c j r) :
    Answered s s c answer ↔ c.agrees (j, r) := by
  have hkey' := (keyed_iff.1 hkey).1
  obtain ⟨hmem, hn⟩ := stored_some hs
  have hone : ∀ j' r', (j', r') ∈ s.rows → c.names r' → j' = j ∧ r' = r := fun j' r' hr' hn' => by
    have := (stored_eq h.unique hkey' hr' hn').symm.trans hs
    exact ⟨congrArg Prod.fst (Option.some.inj this), congrArg Prod.snd (Option.some.inj this)⟩
  simp only [CreateCall.agrees, decide_eq_true_eq]
  constructor
  · intro ha hmatch
    have hok : answer = .ok j := by rw [ha.stored j r hmem hn, if_pos hmatch]
    cases hi : c.jobId with
    | none => exact .inl rfl
    | some i => exact .inr (congrArg some (ha.brought i j hi hok).symm)
  · intro hagree
    have hval : answer = if c.request.matchesRow r then .ok j
        else .error .idempotencyConflict := by
      rcases hans with rfl | rfl
      · rfl
      · unfold raceAnswer
        by_cases hm : c.request.matchesRow r
        · rw [if_neg (by simp [hm]), if_neg, if_pos hm]
          rintro ⟨h1, h2⟩
          exact (hagree hm).elim h1 h2
        · rw [if_pos (by simp [hm]), if_neg hm]
    refine ⟨fun j' r' hr' hn' => ?_, fun j' hj' => ?_, fun i j' hi hj' => ?_, fun _ _ => rfl⟩
    · obtain ⟨rfl, rfl⟩ := hone j' r' hr' hn'
      exact hval
    · rw [hval] at hj'
      split at hj'
      · next hm =>
        cases hj'
        exact ⟨r, hmem, hn, hm⟩
      · exact absurd hj' (by simp)
    · rw [hval] at hj'
      split at hj'
      · next hm =>
        cases hj'
        rcases hagree hm with hnone | hsome
        · exact absurd (hi.symm.trans hnone) (by simp)
        · exact Option.some.inj (hsome.symm.trans hi)
      · exact absurd hj' (by simp)

/-- an error that is no conflict is right exactly when no job is stored -/
theorem answered_error {e : Err} (he : e ≠ .idempotencyConflict) :
    Answered s s c (.error e) ↔ s.stored c = none := by
  constructor
  · intro h
    by_contra hs
    obtain ⟨⟨j, r⟩, hj⟩ := Option.ne_none_iff_exists'.1 hs
    have := h.stored j r (stored_some hj).1 (stored_some hj).2
    split at this
    · exact absurd this (by simp)
    · exact he (Except.error.inj this)
  · intro hs
    refine ⟨fun j r hr hn => absurd hn (stored_none hs j r hr), fun j hj => ?_, fun i j _ hj => ?_,
      fun _ _ => rfl⟩
    · exact absurd hj (by simp)
    · exact absurd hj (by simp)

theorem JobRequest.matchesRow_row (c : JobRequest) : c.matchesRow c.row := by
  simp [matchesRow, row, List.isPerm_iff]

/-- the job that the call has created -/
theorem answered_created (h : CreateInv s) (hkey : c.keyed) {id : JobId}
    (hk : s.calls[k]? = some (c, .inserted id)) :
    Answered s { s with rows := s.rows ++ [(id, c.request.row)] } c (.ok id) := by
  have hkey' := (keyed_iff.1 hkey).1
  have hnames : c.names c.request.row := names_iff.2 ⟨rfl, rfl⟩
  refine ⟨fun j r hr hn => ?_, fun j hj => ?_, fun i j hi hj => ?_, fun e he => ?_⟩
  · rcases List.mem_append.1 hr with hr | hr
    · refine absurd ?_ (h.unique.free k _ (pending_of hk) _ hr)
      exact clash_row_iff.2 (.inr ⟨hn, hkey'⟩)
    · cases List.mem_singleton.1 hr
      rw [if_pos (JobRequest.matchesRow_row _)]
  · cases hj
    exact ⟨c.request.row, by simp, hnames, JobRequest.matchesRow_row _⟩
  · cases hj
    exact h.named k c id i hk hi
  · exact absurd he (by simp)

/-- the checks raise no conflict -/
theorem JobRequest.validate_error {env : Env} {db : Db} {c : JobRequest} {e : Err}
    (h : c.validate env db = .error e) : e ≠ .idempotencyConflict := by
  rintro rfl
  unfold validate at h
  split at h
  · exact absurd h (by simp)
  split at h
  · unfold validateInputRefs at h
    split at h
    · exact absurd h (by simp)
    · split at h <;> exact absurd h (by simp)
  · split at h <;> exact absurd h (by simp)
  · split at h <;> exact absurd h (by simp)
  · unfold validateTaskExecutionInputRefs at h
    repeat' split at h
    all_goals exact absurd h (by simp)
  · exact absurd h (by simp)

theorem heldByOther_some {q : JobId × Job → Bool} (h : s.heldByOther k q) :
    ∃ l x, s.pending l = some x ∧ q x := by
  obtain ⟨l, -, hl⟩ := List.any_eq_true.1 h
  simp only [decide_eq_true_eq] at hl
  obtain ⟨x, hx, hq⟩ := (Option.any_eq_true _ _).1 hl.2
  exact ⟨l, x, hx, hq⟩

/-- an INSERT ends its call only on the primary key -/
theorem insert_answers_iff (h : CreateInv s) (hk : s.calls[k]? = some (c, .checked))
    (fresh : JobId) :
    (∀ l c' answer, CallEnds s (s.insert k c fresh) l c' answer → c'.keyed →
      Answered s (s.insert k c fresh) c' answer) ↔
      (c.keyed → ¬ (s.stored c ≠ none ∧ c.jobId.any fun i => s.rows.any (·.1 = i))) := by
  have hsame : ∀ l c' answer, CallEnds s s l c' answer → c'.keyed → Answered s s c' answer :=
    owes_nothing fun _ _ answer => not_ends_same rfl answer
  have hgoes : ∀ {p' : Phase}, (∀ a, p' ≠ .done a) → ∀ l c' answer,
      CallEnds s (s.setPhase k c p') l c' answer → c'.keyed →
      Answered s (s.setPhase k c p') c' answer := fun hp' =>
    owes_nothing fun _ _ answer he =>
      hp' answer ((ends_setPhase s.rows hk (by simp)).1 he).2.2
  have hfree : ¬ s.rows.any (·.1 = c.jobId.getD fresh) →
      ¬ (c.jobId.any fun i => s.rows.any (·.1 = i)) := by
    intro hrow hany
    obtain ⟨i, hi, hex⟩ := (Option.any_eq_true _ _).1 hany
    exact hrow (by simpa [hi] using hex)
  unfold CreateSys.insert
  dsimp only
  split
  · next hheld =>
    -- the row of another call has the id, so no committed row has it
    refine iff_of_true hsame fun _ hpk => hfree (fun hrow => ?_) hpk.2
    obtain ⟨l, x, hx, hxid⟩ := heldByOther_some hheld
    obtain ⟨y, hy, hyid⟩ := List.any_eq_true.1 hrow
    simp only [decide_eq_true_eq] at hxid hyid
    exact h.unique.free l x hx y hy (.inl (hyid.trans hxid.symm))
  split
  · next hrow =>
    split
    · next hsome =>
      obtain ⟨i, hi⟩ := Option.isSome_iff_exists.1 hsome
      refine (owes_one s.rows hk (by simp)).trans (imp_congr_right fun _ => ?_)
      have hany : c.jobId.any fun i => s.rows.any (·.1 = i) := by simpa [hi] using hrow
      rw [and_iff_left hany, not_not]
      exact answered_error (by simp)
    · next hnone =>
      refine iff_of_true hsame fun _ hpk => ?_
      obtain ⟨i, hi, -⟩ := (Option.any_eq_true _ _).1 hpk.2
      exact hnone (by simp [hi])
  next hrow =>
  have hfits : c.keyed → ¬ (s.stored c ≠ none ∧ c.jobId.any fun i => s.rows.any (·.1 = i)) :=
    fun _ hpk => hfree hrow hpk.2
  split
  · exact iff_of_true (hgoes (by simp)) hfits
  split
  · exact iff_of_true hsame hfits
  split <;> exact iff_of_true (hgoes (by simp)) hfits

/-- what one step owes, by the call that it moves -/
theorem CreateStep.answers_iff (h : CreateInv s) (o : CreateStep) :
    (∀ k c answer, CallEnds s (o.step s) k c answer → c.keyed → Answered s (o.step s) c answer) ↔
      o.fits s := by
  have hnothing : ∀ {s' : CreateSys}, s'.calls = s.calls →
      ∀ k c answer, CallEnds s s' k c answer → c.keyed → Answered s s' c answer :=
    fun hc => owes_nothing fun _ _ answer => not_ends_same hc answer
  have hgoes : ∀ {k : Nat} {c : CreateCall} {p p' : Phase}, s.calls[k]? = some (c, p) →
      (∀ a, p ≠ .done a) → (∀ a, p' ≠ .done a) → ∀ l c' answer,
      CallEnds s (s.setPhase k c p') l c' answer → c'.keyed →
      Answered s (s.setPhase k c p') c' answer := fun hk hp hp' =>
    owes_nothing fun _ _ answer he => hp' answer ((ends_setPhase s.rows hk hp).1 he).2.2
  cases o with
  | call c =>
    refine iff_of_true (owes_nothing fun k c' answer => ?_) rfl
    rintro ⟨p, hp, hne, hd⟩
    rw [show ((CreateStep.call c).step s).calls = s.calls ++ [(c, .started)] from rfl,
      List.getElem?_append_left (List.getElem?_eq_some_iff.1 hp).1, hp] at hd
    exact hne answer (congrArg Prod.snd (Option.some.inj hd))
  | lookup k =>
    simp only [CreateStep.step, fits]
    split
    · next c hk =>
      simp only [hk, decide_eq_true_eq]
      split
      · next hkey =>
        exact iff_of_true (hgoes hk (by simp) (by simp)) fun h => absurd h hkey
      next hkey =>
      have hkey' : c.keyed := by simpa using hkey
      split
      · next j r hs =>
        refine (owes_one s.rows hk (by simp)).trans (imp_congr_right fun _ => ?_)
        rw [hs, Option.all_some]
        exact answered_found h hkey' hs (.inl rfl)
      · next hs => exact iff_of_true (hgoes hk (by simp) (by simp)) fun _ => by rw [hs]; rfl
    · next hno =>
      exact iff_of_true (hnothing rfl) (by grind)
  | check k env db =>
    simp only [CreateStep.step, fits]
    split
    · next c hk =>
      simp only [hk, decide_eq_true_eq]
      split
      · next hv => exact iff_of_true (hgoes hk (by simp) (by simp)) fun _ => .inl hv
      · next e hv =>
        refine (owes_one s.rows hk (by simp)).trans (imp_congr_right fun _ => ?_)
        rw [or_iff_right (by simp [hv])]
        exact answered_error (JobRequest.validate_error hv)
    · next hno =>
      exact iff_of_true (hnothing rfl) (by grind)
  | insert k fresh =>
    simp only [CreateStep.step, fits]
    split
    · next c hk =>
      simp only [hk, decide_eq_true_eq]
      exact insert_answers_iff h hk fresh
    · next hno =>
      exact iff_of_true (hnothing rfl) (by grind)
  | reselect k =>
    simp only [CreateStep.step, fits]
    split
    · next c hk =>
      simp only [hk, decide_eq_true_eq]
      split
      · next j r hs =>
        refine (owes_one s.rows hk (by simp)).trans (imp_congr_right fun hkey => ?_)
        rw [hs, Option.all_some]
        exact answered_found h hkey hs (.inr rfl)
      · next hs => exact absurd hs (h.violated k c hk)
    · next hno =>
      exact iff_of_true (hnothing rfl) (by grind)
  | commit k =>
    simp only [CreateStep.step]
    split
    · next c id hk =>
      exact iff_of_true ((owes_one _ hk (by simp)).2 fun hkey => answered_created h hkey hk) rfl
    · exact iff_of_true (hnothing rfl) rfl
  | die k =>
    simp only [CreateStep.step]
    split
    · exact iff_of_true (hnothing rfl) rfl
    · next c p hp hk => exact iff_of_true (hgoes hk (fun a ha => hp a ha) (by simp)) rfl
    · exact iff_of_true (hnothing rfl) rfl

/-- at most one job stands under an owner and a key -/
theorem CreateInv.one (h : CreateInv s) (owner : OwnerId) (key : String) :
    s.rows.countP (fun r => r.2.ownerId = owner ∧ r.2.idempotencyKey = some key) ≤ 1 := by
  refine countP_le_one fun i j a b ha hb hpa hpb => ?_
  simp only [decide_eq_true_eq] at hpa hpb
  have hclash : ∀ x y : JobId × Job, (x.2.ownerId = owner ∧ x.2.idempotencyKey = some key) →
      (y.2.ownerId = owner ∧ y.2.idempotencyKey = some key) → clash x y := fun x y hx hy =>
    .inr ⟨hx.1.trans hy.1.symm, hx.2.trans hy.2.symm, by simp [hx.2]⟩
  have hdistinct := List.pairwise_iff_getElem.1 h.unique.distinct
  obtain ⟨hi, rfl⟩ := List.getElem?_eq_some_iff.1 ha
  obtain ⟨hj, rfl⟩ := List.getElem?_eq_some_iff.1 hb
  rcases Nat.lt_trichotomy i j with hij | hij | hij
  · exact absurd (hclash _ _ hpa hpb) (hdistinct i j hi hj hij)
  · exact hij
  · exact absurd (hclash _ _ hpb hpa) (hdistinct j i hj hi hij)

/-- **`create_job` under any interleaving**: at every step of every run, at most one job stands
under an owner and a key; and a call that ends has answered with the stored job for an equal
fingerprint and with a conflict for another one, with the id that its caller brought, and without
a row of its own when it raises, exactly when the step fits. -/
theorem create_job_agrees (os : List CreateStep) (o : CreateStep) :
    o.Sound (createRun os) ↔ o.fits (createRun os) := by
  have h := createRun_inv os
  rw [← o.answers_iff h]
  exact ⟨fun hs => hs.answers, fun ha => ⟨(h.step o).one, ha⟩⟩

/-! ## two paths to one answer -/

/-- a call of the job type without references, under one key -/
def sampleCall (jobId : Option JobId) : CreateCall where
  ownerId := 0
  jobType := .messageSequenceBackfill
  inputRefs := []
  idempotencyKey := some "backfill"
  jobId := jobId

/-- a first call creates job 7 -/
def firstCall : List CreateStep :=
  [.call (sampleCall none), .lookup 0, .check 0 { now := 0 } {}, .insert 0 7, .commit 0]

/-- a second call brings id 9, and its first lookup returns job 7 -/
theorem lookup_ignores_job_id :
    CallEnds (createRun (firstCall ++ [.call (sampleCall (some 9))]))
      (createRun (firstCall ++ [.call (sampleCall (some 9)), .lookup 1])) 1
      (sampleCall (some 9)) (.ok 7) :=
  ⟨.started, rfl, by simp, rfl⟩

/-- the same two calls, where the lookup of the second comes before the commit of the first -/
example : (createRun [.call (sampleCall none), .call (sampleCall (some 9)), .lookup 0, .lookup 1,
    .check 0 { now := 0 } {}, .check 1 { now := 0 } {}, .insert 0 7, .commit 0, .insert 1 0,
    .reselect 1]).calls.map Prod.snd = [.done (.ok 7), .done (.error .idempotencyConflict)] := by
  decide

end LifeAI
