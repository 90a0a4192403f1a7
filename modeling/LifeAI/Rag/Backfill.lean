import LifeAI.Rag.Claims
import Mathlib.Data.List.Perm.Subperm

/-!
# The backfill ends, sends each claim once and gives each its own answer

* `types_length`  an answer that can be trusted has a type for each claim of the request;
* `settle_rows`   the rows after the types of a request are written;
* `Kept`          the table and the requests of a call so far, against the table before it;
* `Inv`           the loop between two turns;
* `Inv.turn`      one turn;
* `loop_ends`     the loop ends, with no more turns than there are rows;
* `backfillClaimTypes_lawful`  a call, and the call after it.
-/

namespace LifeAI.Rag.Claims

variable {ρ : Type} {c : Call ρ} {s : State ρ} {rows : List (KnowledgeClaim ρ)}
  {batch : List (KnowledgeClaim ρ)} {types : List ClaimType} {r r' : KnowledgeClaim ρ}

/-! ## answers -/

theorem parseBackfillTypes_length {levels count : ℕ} {raw : List Char}
    (h : parseBackfillTypes levels raw count = .ok (some types)) : types.length = count := by
  unfold parseBackfillTypes at h
  split at h
  · cases h
  · split at h
    · cases h
    · cases h
    · cases h
    · rename_i items _
      split_ifs at h with hlength
      · cases h
      · have htypes : items.map coerceClaimType = types := Option.some.inj (Except.ok.inj h)
        rw [← htypes, List.length_map]
        exact not_not.1 hlength
    · cases h

/-- a trusted answer has a type for each claim -/
theorem types_length {answer : Answer} {levels count : ℕ}
    (h : answer.types levels count = .ok (some types)) : types.length = count := by
  cases answer with
  | providerError => cases h
  | content raw => exact parseBackfillTypes_length h

/-- only a text that nests too deep makes the call fail -/
theorem types_error {answer : Answer} {levels count : ℕ} {e : Err}
    (h : answer.types levels count = .error e) : e = .recursionError ∧
      ∃ raw text, answer = .content raw ∧ bracketed raw = some text ∧
        JsonReader.loads levels text = .error .depth := by
  cases answer with
  | providerError => cases h
  | content raw =>
    change parseBackfillTypes levels raw count = .error e at h
    unfold parseBackfillTypes at h
    split at h
    · cases h
    · rename_i text hfound
      split at h
      · rename_i hdepth
        cases h
        exact ⟨rfl, raw, text, rfl, hfound, hdepth⟩
      · cases h
      · cases h
      · split_ifs at h
      · cases h

/-! ## rows -/

theorem open?_iff {ownerId : OwnerId} : r.open? ownerId = true ↔ r.ownerId = ownerId ∧
    r.claimType = .uncategorized ∧ r.extractionVersion ≠ currentExtractionVersion := by
  unfold KnowledgeClaim.open?
  rw [decide_eq_true_eq]

/-- a settled claim is no candidate any more -/
theorem settled_not_open (r : KnowledgeClaim ρ) (t : ClaimType) (ownerId : OwnerId) :
    ¬ (r.settled t).open? ownerId = true := by
  intro h
  exact (open?_iff.1 h).2.2 rfl

/-- what the types of a request do to a row -/
def amend (pairs : List (ClaimId × ClaimType)) (r : KnowledgeClaim ρ) : KnowledgeClaim ρ :=
  match pairs.lookup r.id with
  | some t => r.settled t
  | none => r

theorem amend_of_lookup {pairs : List (ClaimId × ClaimType)} {t : ClaimType}
    (h : pairs.lookup r.id = some t) : amend pairs r = r.settled t := by
  unfold amend
  rw [h]

theorem amend_of_not_mem {pairs : List (ClaimId × ClaimType)}
    (h : r.id ∉ pairs.map Prod.fst) : amend pairs r = r := by
  have hnone : pairs.lookup r.id = none := by
    rw [List.lookup_eq_none_iff]
    intro x hx
    have hne : r.id ≠ x.1 := fun he => h (he ▸ List.mem_map_of_mem hx)
    exact bne_iff_ne.2 hne
  unfold amend
  rw [hnone]

theorem lookup_zip {ids : List ClaimId} (hids : ids.Nodup) {j : ℕ} {i : ClaimId} {t : ClaimType}
    (hi : ids[j]? = some i) (ht : types[j]? = some t) : (ids.zip types).lookup i = some t := by
  induction ids generalizing types j with
  | nil => simp at hi
  | cons first ids ih =>
    obtain ⟨hfirst, hrest⟩ := List.nodup_cons.1 hids
    cases types with
    | nil => simp at ht
    | cons head types =>
      cases j with
      | zero =>
        cases hi
        cases ht
        rw [List.zip_cons_cons, List.lookup_cons_self]
      | succ j =>
        have hne : i ≠ first := by
          intro he
          exact hfirst (he ▸ List.mem_of_getElem? hi)
        rw [List.zip_cons_cons, List.lookup_cons, beq_false_of_ne hne]
        exact ih hrest hi ht

/-- the claims with their types, by their keys -/
def pairs (batch : List (KnowledgeClaim ρ)) (types : List ClaimType) :
    List (ClaimId × ClaimType) :=
  (batch.map (·.id)).zip types

theorem pairs_keys (h : types.length = batch.length) :
    (pairs batch types).map Prod.fst = batch.map (·.id) := by
  unfold pairs
  rw [List.map_fst_zip]
  rw [List.length_map, h]

/-- what writing the types leaves as it is, and what it makes of the rows and of the counts -/
theorem foldl_assign (xs : List (KnowledgeClaim ρ × ClaimType)) (s : State ρ)
    (hids : (xs.map (·.1.id)).Nodup) :
    let out := xs.foldl State.assign s
    out.rows = s.rows.map (amend (xs.map fun x => (x.1.id, x.2))) ∧
    out.failedIds = s.failedIds ∧ out.sent = s.sent ∧ out.batchesDone = s.batchesDone ∧
    out.result.candidatesTotal = s.result.candidatesTotal ∧
    out.result.failed = s.result.failed ∧
    out.result.typed + out.result.stillUncategorized =
      s.result.typed + s.result.stillUncategorized + xs.length := by
  induction xs generalizing s with
  | nil =>
    refine ⟨?_, rfl, rfl, rfl, rfl, rfl, rfl⟩
    exact (List.map_id s.rows).symm
  | cons x xs ih =>
    obtain ⟨hx, hxs⟩ := List.nodup_cons.1 hids
    obtain ⟨hrows, hfailed, hsent, hdone, htotal, hlost, hcount⟩ := ih (s.assign x) hxs
    refine ⟨?_, hfailed, hsent, hdone, htotal.trans ?_, hlost.trans ?_, hcount.trans ?_⟩
    · refine hrows.trans ?_
      show (s.rows.map _).map _ = _
      rw [List.map_map]
      refine List.map_congr_left fun r _ => ?_
      show amend _ (if r.id = x.1.id then r.settled x.2 else r) = _
      by_cases hr : r.id = x.1.id
      · -- the key does not come again
        rw [if_pos hr, amend_of_not_mem]
        · refine (amend_of_lookup ?_).symm
          rw [List.map_cons, hr, List.lookup_cons_self]
        · show r.id ∉ _
          rw [hr, List.map_map]
          exact hx
      · rw [if_neg hr]
        unfold amend
        rw [List.map_cons, List.lookup_cons, beq_false_of_ne hr]
    · unfold State.assign
      dsimp only
      split
      · rfl
      · rfl
    · unfold State.assign
      dsimp only
      split
      · rfl
      · rfl
    · unfold State.assign
      dsimp only
      rw [List.length_cons]
      split
      · show s.result.typed + (s.result.stillUncategorized + 1) + xs.length = _
        omega
      · show s.result.typed + 1 + s.result.stillUncategorized + xs.length = _
        omega

/-- the rows after the types of a request are written -/
theorem settle_rows (hids : (batch.map (·.id)).Nodup) (hlength : types.length = batch.length) :
    (s.settle batch types).rows = s.rows.map (amend (pairs batch types)) ∧
    (s.settle batch types).failedIds = s.failedIds ∧ (s.settle batch types).sent = s.sent ∧
    (s.settle batch types).batchesDone = s.batchesDone + 1 ∧
    (s.settle batch types).result.candidatesTotal = s.result.candidatesTotal ∧
    (s.settle batch types).result.failed = s.result.failed ∧
    (s.settle batch types).result.typed + (s.settle batch types).result.stillUncategorized =
      s.result.typed + s.result.stillUncategorized + batch.length := by
  have hkeys : (batch.zip types).map (·.1.id) = batch.map (·.id) := by
    have hfst : (batch.zip types).map Prod.fst = batch := List.map_fst_zip hlength.ge
    rw [← hfst, List.map_map]
    exact congrArg _ (by rw [hfst])
  have hpairs : (batch.zip types).map (fun x => (x.1.id, x.2)) = pairs batch types := by
    unfold pairs
    rw [List.zip_map_left]
    rfl
  obtain ⟨hrows, hfailed, hsent, hdone, htotal, hlost, hcount⟩ :=
    foldl_assign (batch.zip types) s (by rw [hkeys]; exact hids)
  rw [hpairs] at hrows
  rw [List.length_zip, hlength, Nat.min_self] at hcount
  exact ⟨hrows, hfailed, hsent, congrArg (· + 1) hdone, htotal, hlost, hcount⟩

/-! ## a call so far -/

/-- a row that the call has left alone, or a candidate with a type and the version of now -/
def Changed (c : Call ρ) (r r' : KnowledgeClaim ρ) : Prop :=
  r' = r ∨ r.open? c.ownerId = true ∧ ∃ t, r' = r.settled t

/-- the types of the request `k`, if its answer can be trusted -/
def Trusted (c : Call ρ) (k : ℕ) (batch : List (KnowledgeClaim ρ)) (types : List ClaimType) : Prop :=
  (c.answers k).types c.levels batch.length = .ok (some types)

/-- the table and the requests, against the table before the call -/
structure Kept (c : Call ρ) (before rows : List (KnowledgeClaim ρ))
    (sent : List (List (KnowledgeClaim ρ))) : Prop where
  /-- no row comes or goes, and only candidates change, in two columns -/
  changed : List.Forall₂ (Changed c) before rows
  /-- a claim is sent once -/
  once : (sent.flatten.map (·.id)).Nodup
  /-- as it was, and as a candidate -/
  sentOpen : ∀ r ∈ sent.flatten, r ∈ before ∧ r.open? c.ownerId = true
  /-- the type at the position of the claim -/
  answered : ∀ (k : ℕ) (batch : List (KnowledgeClaim ρ)) (types : List ClaimType),
    sent[k]? = some batch → Trusted c k batch types → ∀ (j : ℕ) (r : KnowledgeClaim ρ), batch[j]? = some r →
      ∃ t, types[j]? = some t ∧ r.settled t ∈ rows
  /-- a claim of a request that failed, or of none -/
  unanswered : ∀ r ∈ before, (∀ (k : ℕ) (batch : List (KnowledgeClaim ρ)) (types : List ClaimType),
    sent[k]? = some batch → Trusted c k batch types → r ∉ batch) → r ∈ rows

theorem Changed.id (h : Changed c r r') : r'.id = r.id := by
  rcases h with rfl | ⟨_, t, rfl⟩
  · rfl
  · rfl

theorem Changed.eq_of_open (h : Changed c r r') (hopen : r'.open? c.ownerId = true) : r' = r := by
  rcases h with heq | ⟨_, t, rfl⟩
  · exact heq
  · exact absurd hopen (settled_not_open r t _)

theorem ids_of_changed {rows' : List (KnowledgeClaim ρ)} (h : List.Forall₂ (Changed c) rows rows') :
    rows'.map (·.id) = rows.map (·.id) := by
  induction h with
  | nil => rfl
  | cons hhead _ ih => rw [List.map_cons, List.map_cons, hhead.id, ih]

theorem changed_of_mem {rows' : List (KnowledgeClaim ρ)}
    (h : List.Forall₂ (Changed c) rows rows') (hr : r' ∈ rows') :
    ∃ r ∈ rows, Changed c r r' := by
  induction h with
  | nil => cases hr
  | cons hhead _ ih =>
    rcases List.mem_cons.1 hr with rfl | hr
    · exact ⟨_, List.mem_cons_self, hhead⟩
    · obtain ⟨r, hmem, hchanged⟩ := ih hr
      exact ⟨r, List.mem_cons_of_mem _ hmem, hchanged⟩

theorem changed_map {rows' : List (KnowledgeClaim ρ)} {f : KnowledgeClaim ρ → KnowledgeClaim ρ}
    (h : List.Forall₂ (Changed c) rows rows')
    (hf : ∀ r' ∈ rows', ∀ r, Changed c r r' → Changed c r (f r')) :
    List.Forall₂ (Changed c) rows (rows'.map f) := by
  induction h with
  | nil => exact .nil
  | cons hhead _ ih =>
    obtain ⟨hf, hrest⟩ := List.forall_mem_cons.1 hf
    exact .cons (hf _ hhead) (ih hrest)

/-- the loop between two turns -/
structure Inv (c : Call ρ) (before : List (KnowledgeClaim ρ)) (s : State ρ) : Prop where
  kept : Kept c before s.rows s.sent
  turns : s.sent.length = s.batchesDone
  /-- a claim that was sent has a type or is on the list of those that failed -/
  rest : ∀ r ∈ s.rows, r.open? c.ownerId = true → r.id ∉ s.failedIds →
    r.id ∉ s.sent.flatten.map (·.id)
  failed : s.failedIds.length = s.result.failed
  total : s.result.candidatesTotal =
    s.result.typed + s.result.stillUncategorized + s.result.failed

/-! ## one turn -/

theorem mem_candidates (h : r ∈ s.candidates c) :
    r ∈ s.rows ∧ r.open? c.ownerId = true ∧ r.id ∉ s.failedIds := by
  have hmem := (c.perm _ _).mem_iff.1 (List.mem_of_mem_take h)
  obtain ⟨hrow, hfilter⟩ := List.mem_filter.1 hmem
  rw [decide_eq_true_eq] at hfilter
  exact ⟨hrow, hfilter⟩

theorem candidates_nodup (h : (s.rows.map (·.id)).Nodup) :
    ((s.candidates c).map (·.id)).Nodup := by
  have hfilter : ((s.rows.filter fun r =>
      r.open? c.ownerId ∧ r.id ∉ s.failedIds).map (·.id)).Nodup :=
    h.sublist (List.filter_sublist.map KnowledgeClaim.id)
  have hordered := ((c.perm s.batchesDone _).map KnowledgeClaim.id).nodup_iff.2 hfilter
  exact hordered.sublist ((List.take_sublist _ _).map _)

/-- what makes a batch fit to be sent after the others -/
structure Fresh (c : Call ρ) (before rows : List (KnowledgeClaim ρ))
    (sent : List (List (KnowledgeClaim ρ))) (batch : List (KnowledgeClaim ρ)) : Prop where
  nodup : (batch.map (·.id)).Nodup
  rows : ∀ r ∈ batch, r ∈ rows
  before : ∀ r ∈ batch, r ∈ before
  opened : ∀ r ∈ batch, r.open? c.ownerId = true
  apart : ∀ r ∈ batch, r.id ∉ sent.flatten.map (·.id)

theorem Inv.fresh {before : List (KnowledgeClaim ρ)} (h : Inv c before s)
    (hids : (before.map (·.id)).Nodup) : Fresh c before s.rows s.sent (s.candidates c) where
  nodup := candidates_nodup (by rw [ids_of_changed h.kept.changed]; exact hids)
  rows r hr := (mem_candidates hr).1
  before r hr := by
    obtain ⟨hrow, hopen, -⟩ := mem_candidates hr
    obtain ⟨r₀, hmem, hchanged⟩ := changed_of_mem h.kept.changed hrow
    rw [hchanged.eq_of_open hopen]
    exact hmem
  opened r hr := (mem_candidates hr).2.1
  apart r hr := by
    obtain ⟨hrow, hopen, hfailed⟩ := mem_candidates hr
    exact h.rest r hrow hopen hfailed

section
variable {before : List (KnowledgeClaim ρ)} {sent : List (List (KnowledgeClaim ρ))}

theorem flatten_snoc : (sent ++ [batch]).flatten = sent.flatten ++ batch := by
  rw [List.flatten_append, List.flatten_singleton]

theorem once_snoc (h : Kept c before rows sent) (hfresh : Fresh c before rows sent batch) :
    ((sent ++ [batch]).flatten.map (·.id)).Nodup := by
  rw [flatten_snoc, List.map_append, List.nodup_append]
  refine ⟨h.once, hfresh.nodup, ?_⟩
  intro i hi j hj hij
  obtain ⟨r, hr, rfl⟩ := List.mem_map.1 hj
  exact hfresh.apart r hr (hij ▸ hi)

theorem sentOpen_snoc (h : Kept c before rows sent) (hfresh : Fresh c before rows sent batch) :
    ∀ r ∈ (sent ++ [batch]).flatten, r ∈ before ∧ r.open? c.ownerId = true := by
  intro r hr
  rw [flatten_snoc, List.mem_append] at hr
  rcases hr with hr | hr
  · exact h.sentOpen r hr
  · exact ⟨hfresh.before r hr, hfresh.opened r hr⟩

/-- a request whose answer cannot be trusted changes no row -/
theorem Kept.ask (h : Kept c before rows sent) (hfresh : Fresh c before rows sent batch)
    (hno : ∀ types, ¬ Trusted c sent.length batch types) :
    Kept c before rows (sent ++ [batch]) where
  changed := h.changed
  once := once_snoc h hfresh
  sentOpen := sentOpen_snoc h hfresh
  answered k b types hk htypes := by
    rcases getElem?_insert hk with hk | ⟨rfl, rfl⟩
    · exact h.answered k b types hk htypes
    · exact absurd htypes (hno types)
  unanswered r hr hout := by
    refine h.unanswered r hr fun k b types hk htypes => ?_
    exact hout k b types (by rw [List.getElem?_append_left (List.getElem?_eq_some_iff.1 hk).1, hk])
      htypes

theorem amend_of_mem (hfresh : Fresh c before rows sent batch)
    (hlength : types.length = batch.length) {j : ℕ} (hj : batch[j]? = some r) :
    ∃ t, types[j]? = some t ∧ amend (pairs batch types) r = r.settled t := by
  have hlt : j < types.length := hlength ▸ (List.getElem?_eq_some_iff.1 hj).1
  refine ⟨types[j], List.getElem?_eq_getElem hlt, amend_of_lookup ?_⟩
  have hid : (batch.map (·.id))[j]? = some r.id := by rw [List.getElem?_map, hj]; rfl
  exact lookup_zip hfresh.nodup hid (List.getElem?_eq_getElem hlt)

theorem amend_of_apart (hlength : types.length = batch.length)
    (h : r.id ∉ batch.map (·.id)) : amend (pairs batch types) r = r :=
  amend_of_not_mem (by rw [pairs_keys hlength]; exact h)

/-- the rows of a table with the same key are the same row -/
theorem eq_of_id (hids : (rows.map (·.id)).Nodup) (hr : r ∈ rows) (hr' : r' ∈ rows)
    (h : r.id = r'.id) : r = r' :=
  List.inj_on_of_nodup_map hids hr hr' h

/-- a request whose answer is trusted gives each of its claims a type -/
theorem Kept.settle (h : Kept c before rows sent) (hids : (before.map (·.id)).Nodup)
    (hfresh : Fresh c before rows sent batch) (htypes : Trusted c sent.length batch types) :
    Kept c before (rows.map (amend (pairs batch types))) (sent ++ [batch]) := by
  have hlength : types.length = batch.length := types_length htypes
  have hrows : (rows.map (·.id)).Nodup := by rw [ids_of_changed h.changed]; exact hids
  refine ⟨?_, once_snoc h hfresh, sentOpen_snoc h hfresh, ?_, ?_⟩
  · refine changed_map h.changed fun r hr r₀ hchanged => ?_
    by_cases hin : r.id ∈ batch.map (·.id)
    · obtain ⟨b, hb, hid⟩ := List.mem_map.1 hin
      obtain rfl := eq_of_id hrows (hfresh.rows b hb) hr hid
      obtain ⟨j, hj⟩ := List.getElem?_of_mem hb
      obtain ⟨t, -, hsettled⟩ := amend_of_mem hfresh hlength hj
      have hopen := hfresh.opened b hb
      obtain rfl := hchanged.eq_of_open hopen
      exact .inr ⟨hopen, t, hsettled⟩
    · rw [amend_of_apart hlength hin]
      exact hchanged
  · intro k b ts hk hts j r hj
    rcases getElem?_insert hk with hk | ⟨rfl, rfl⟩
    · obtain ⟨t, ht, hmem⟩ := h.answered k b ts hk hts j r hj
      refine ⟨t, ht, List.mem_map.2 ⟨_, hmem, amend_of_apart hlength fun hin => ?_⟩⟩
      obtain ⟨b', hb', hid⟩ := List.mem_map.1 hin
      refine hfresh.apart b' hb' (List.mem_map.2 ⟨r, ?_, hid.symm⟩)
      exact List.mem_flatten.2 ⟨b, List.mem_of_getElem? hk, List.mem_of_getElem? hj⟩
    · obtain rfl : ts = types := by
        unfold Trusted at hts htypes
        rw [htypes] at hts
        cases hts
        rfl
      obtain ⟨t, ht, hsettled⟩ := amend_of_mem hfresh hlength hj
      exact ⟨t, ht, List.mem_map.2 ⟨r, hfresh.rows r (List.mem_of_getElem? hj), hsettled⟩⟩
  · intro r hr hout
    have hnot : r ∉ batch :=
      hout sent.length batch types (by rw [List.getElem?_append_right le_rfl, Nat.sub_self]; rfl) htypes
    have hold : r ∈ rows := by
      refine h.unanswered r hr fun k b ts hk hts => hout k b ts ?_ hts
      rw [List.getElem?_append_left (List.getElem?_eq_some_iff.1 hk).1, hk]
    refine List.mem_map.2 ⟨r, hold, amend_of_apart hlength fun hin => ?_⟩
    obtain ⟨b, hb, hid⟩ := List.mem_map.1 hin
    exact hnot (eq_of_id hids hr (hfresh.before b hb) hid.symm ▸ hb)

end

variable {before : List (KnowledgeClaim ρ)}

theorem Inv.init (c : Call ρ) (before : List (KnowledgeClaim ρ)) : Inv c before { rows := before } where
  kept :=
    { changed := List.forall₂_same.2 fun r _ => .inl rfl
      once := List.nodup_nil
      sentOpen := by simp
      answered := by simp
      unanswered := fun r hr _ => hr }
  turns := rfl
  rest := by simp
  failed := rfl
  total := rfl

/-- a turn that fails -/
theorem Inv.fail (h : Inv c before s) (hids : (before.map (·.id)).Nodup)
    (hno : (c.answers s.batchesDone).types c.levels (s.candidates c).length = .ok none) :
    Inv c before ((s.ask (s.candidates c)).fail (s.candidates c)) where
  kept := by
    refine h.kept.ask (h.fresh hids) fun types htypes => ?_
    unfold Trusted at htypes
    rw [h.turns, hno] at htypes
    cases htypes
  turns := by
    show (s.sent ++ [s.candidates c]).length = s.batchesDone + 1
    rw [List.length_append, h.turns]
    rfl
  rest r hr hopen hnot := by
    change r.id ∉ s.failedIds ++ (s.candidates c).map (·.id) at hnot
    show r.id ∉ (s.sent ++ [s.candidates c]).flatten.map (·.id)
    obtain ⟨hold, hnew⟩ := not_or.1 (List.mem_append.not.1 hnot)
    rw [flatten_snoc, List.map_append, List.mem_append]
    exact not_or.2 ⟨h.rest r hr hopen hold, hnew⟩
  failed := by
    show (s.failedIds ++ (s.candidates c).map (·.id)).length =
      s.result.failed + (s.candidates c).length
    rw [List.length_append, List.length_map, h.failed]
  total := by
    show s.result.candidatesTotal + (s.candidates c).length =
      s.result.typed + s.result.stillUncategorized + (s.result.failed + (s.candidates c).length)
    have htotal := h.total
    omega

/-- a turn that types its claims -/
theorem Inv.settle (h : Inv c before s) (hids : (before.map (·.id)).Nodup)
    (htypes : (c.answers s.batchesDone).types c.levels (s.candidates c).length = .ok (some types)) :
    Inv c before ((s.ask (s.candidates c)).settle (s.candidates c) types) := by
  have hfresh := h.fresh hids
  have hlength : types.length = (s.candidates c).length := types_length htypes
  obtain ⟨hrows, hfailed, hsent, hdone, htotal, hlost, hcount⟩ :=
    settle_rows (s := s.ask (s.candidates c)) hfresh.nodup hlength
  refine ⟨?_, ?_, ?_, ?_, ?_⟩
  · rw [hrows, hsent]
    refine h.kept.settle hids hfresh ?_
    unfold Trusted
    rw [h.turns]
    exact htypes
  · rw [hsent, hdone]
    show (s.sent ++ [s.candidates c]).length = s.batchesDone + 1
    rw [List.length_append, h.turns]
    rfl
  · intro r' hr' hopen hnot
    rw [hrows] at hr'
    rw [hfailed] at hnot
    rw [hsent]
    show r'.id ∉ (s.sent ++ [s.candidates c]).flatten.map (·.id)
    obtain ⟨r, hr, rfl⟩ := List.mem_map.1 hr'
    by_cases hin : r.id ∈ (s.candidates c).map (·.id)
    · obtain ⟨b, hb, hid⟩ := List.mem_map.1 hin
      have hunique : (s.rows.map (·.id)).Nodup := by
        rw [ids_of_changed h.kept.changed]
        exact hids
      obtain rfl := eq_of_id hunique (hfresh.rows b hb) hr hid
      obtain ⟨j, hj⟩ := List.getElem?_of_mem hb
      obtain ⟨t, -, hsettled⟩ := amend_of_mem hfresh hlength hj
      rw [hsettled] at hopen
      exact absurd hopen (settled_not_open b t _)
    · rw [amend_of_apart hlength hin] at hopen hnot ⊢
      rw [flatten_snoc, List.map_append, List.mem_append]
      exact not_or.2 ⟨h.rest r hr hopen hnot, hin⟩
  · rw [hfailed, hlost]
    exact h.failed
  · rw [htotal, hlost]
    have hold := h.total
    change s.result.candidatesTotal + (s.candidates c).length = _ + s.result.failed
    change _ = s.result.typed + s.result.stillUncategorized + (s.candidates c).length at hcount
    omega

/-! ## the whole call -/

/-- what a call is to do, by the way it ends -/
structure Lawful (c : Call ρ) (before : List (KnowledgeClaim ρ)) (ended : Ended ρ) : Prop where
  kept : Kept c before ended.state.rows ended.state.sent
  /-- the claims of a request that failed are what they were -/
  failed : ∀ (k : ℕ) (batch : List (KnowledgeClaim ρ)), ended.state.sent[k]? = some batch →
    (∀ types, ¬ Trusted c k batch types) → ∀ r ∈ batch, r ∈ before ∧ r ∈ ended.state.rows
  counted : ∀ s, ended = .returned s → s.result.candidatesTotal =
    s.result.typed + s.result.stillUncategorized + s.result.failed
  /-- only an answer that nests too deep makes the call fail -/
  raised : ∀ e s, ended = .raised e s → e = .recursionError ∧
    ∃ k raw text, k + 1 = s.sent.length ∧ c.answers k = .content raw ∧
      bracketed raw = some text ∧ JsonReader.loads c.levels text = .error .depth
  /-- without failures and without a limit there is nothing left to ask -/
  settled : ∀ s, ended = .returned s → c.maxBatches = none → s.result.failed = 0 →
    ∀ again : Call ρ, again.ownerId = c.ownerId → ∀ fuel, 0 < fuel →
      backfillClaimTypes again s.rows fuel = some (.returned { rows := s.rows })

/-- the requests have no more claims than there are -/
theorem Kept.sent_le {sent : List (List (KnowledgeClaim ρ))} (h : Kept c before rows sent) :
    sent.flatten.length ≤ before.length := by
  have hsub : sent.flatten.map (·.id) ⊆ before.map (·.id) :=
    List.map_subset _ fun r hr => (h.sentOpen r hr).1
  have hle := (h.once.subperm hsub).length_le
  rwa [List.length_map, List.length_map] at hle

/-- a claim is in one request -/
theorem Kept.batch_unique {sent : List (List (KnowledgeClaim ρ))} (h : Kept c before rows sent)
    {k k' : ℕ} {b b' : List (KnowledgeClaim ρ)} (hk : sent[k]? = some b) (hk' : sent[k']? = some b')
    (hr : r ∈ b) (hr' : r ∈ b') : k = k' := by
  have hpair := (List.nodup_flatten.1 h.once.of_map).2
  obtain ⟨hlt, rfl⟩ := List.getElem?_eq_some_iff.1 hk
  obtain ⟨hlt', rfl⟩ := List.getElem?_eq_some_iff.1 hk'
  rcases lt_trichotomy k k' with hless | heq | hless
  · exact absurd hr' (List.pairwise_iff_getElem.1 hpair k k' hlt hlt' hless hr)
  · exact heq
  · exact absurd hr (List.pairwise_iff_getElem.1 hpair k' k hlt' hlt hless hr')

theorem Kept.failing {sent : List (List (KnowledgeClaim ρ))} (h : Kept c before rows sent)
    {k : ℕ} {b : List (KnowledgeClaim ρ)} (hk : sent[k]? = some b)
    (hno : ∀ types, ¬ Trusted c k b types) (hr : r ∈ b) : r ∈ before ∧ r ∈ rows := by
  have hbefore := (h.sentOpen r (List.mem_flatten.2 ⟨b, List.mem_of_getElem? hk, hr⟩)).1
  refine ⟨hbefore, h.unanswered r hbefore fun k' b' types hk' htypes hr' => ?_⟩
  obtain rfl := h.batch_unique hk hk' hr hr'
  rw [hk] at hk'
  cases hk'
  exact hno types htypes

/-- no candidate is left, for any call of the owner -/
theorem candidates_nil {again : Call ρ} (howner : again.ownerId = c.ownerId)
    (hfailed : s.failedIds = []) (hnone : s.candidates c = []) :
    State.candidates again { rows := s.rows } = [] := by
  have hopen : ∀ r ∈ s.rows, ¬ r.open? c.ownerId = true := by
    intro r hr hopen
    have hin : r ∈ s.rows.filter fun r => r.open? c.ownerId ∧ r.id ∉ s.failedIds :=
      List.mem_filter.2 ⟨hr, decide_eq_true ⟨hopen, by rw [hfailed]; exact List.not_mem_nil⟩⟩
    have hordered := (c.perm s.batchesDone _).mem_iff.2 hin
    rcases List.take_eq_nil_iff.1 hnone with hzero | hempty
    · exact absurd hzero c.positive.ne'
    · rw [hempty] at hordered
      cases hordered
  refine List.eq_nil_iff_forall_not_mem.2 fun r hr => ?_
  obtain ⟨hrow, hr, -⟩ := mem_candidates hr
  rw [howner] at hr
  exact hopen r hrow hr

/-- the loop stops here -/
theorem Inv.done (h : Inv c before s) (hturn : s.turn c = .done) :
    Lawful c before (.returned s) where
  kept := h.kept
  failed _ _ hk hno _ hr := h.kept.failing hk hno hr
  counted := by
    intro s' hs
    cases hs
    exact h.total
  raised := by
    intro e s' hs
    cases hs
  settled := by
    intro s' hs hmax hfailed again howner fuel hfuel
    cases hs
    have hnone : s.candidates c = [] := by
      unfold State.turn at hturn
      rw [hmax, Option.all_none, if_pos rfl] at hturn
      dsimp only at hturn
      split at hturn
      · exact List.isEmpty_iff.1 ‹_›
      · split at hturn
        · cases hturn
        · cases hturn
        · cases hturn
    have hlist : s.failedIds = [] := List.eq_nil_of_length_eq_zero (h.failed.trans hfailed)
    have hagain : State.turn again { rows := s.rows } = .done := by
      unfold State.turn
      dsimp only
      rw [candidates_nil howner hlist hnone]
      split
      · rfl
      · rfl
    obtain ⟨n, rfl⟩ := Nat.exists_eq_succ_of_ne_zero hfuel.ne'
    unfold backfillClaimTypes
    rw [loop, hagain]

/-- **one turn**: the loop stops, or it has sent at least one claim more -/
theorem Inv.turn (h : Inv c before s) (hids : (before.map (·.id)).Nodup) :
    s.turn c = .done ∨
    (∃ e s', s.turn c = .raised e s' ∧ Lawful c before (.raised e s')) ∨
    ∃ s', s.turn c = .next s' ∧ Inv c before s' ∧
      s.sent.flatten.length < s'.sent.flatten.length := by
  unfold State.turn
  split
  · dsimp only
    split
    · exact .inl rfl
    · rename_i hsome
      have hmore : ∀ s' : State ρ, s'.sent = s.sent ++ [s.candidates c] →
          s.sent.flatten.length < s'.sent.flatten.length := by
        intro s' hs'
        have hpos : 0 < (s.candidates c).length :=
          List.length_pos_iff.2 fun hnil => hsome (List.isEmpty_iff.2 hnil)
        rw [hs', flatten_snoc, List.length_append]
        omega
      split
      · rename_i e herror
        have hkept : Kept c before s.rows (s.sent ++ [s.candidates c]) := by
          refine h.kept.ask (h.fresh hids) fun types htypes => ?_
          unfold Trusted at htypes
          rw [h.turns, herror] at htypes
          cases htypes
        refine .inr (.inl ⟨e, _, rfl, hkept, fun _ _ hk hno _ hr => hkept.failing hk hno hr,
          ?_, ?_, ?_⟩)
        · intro s' hs
          cases hs
        · intro e' s' hs
          cases hs
          obtain ⟨he, raw, text, hraw, htext, hdepth⟩ := types_error herror
          refine ⟨he, s.batchesDone, raw, text, ?_, hraw, htext, hdepth⟩
          show _ = (s.sent ++ [s.candidates c]).length
          rw [List.length_append, h.turns]
          rfl
        · intro s' hs
          cases hs
      · rename_i hno
        exact .inr (.inr ⟨_, rfl, h.fail hids hno, hmore _ rfl⟩)
      · rename_i types htypes
        have hsent := (settle_rows (s := s.ask (s.candidates c)) (h.fresh hids).nodup
          (types_length htypes)).2.2.1
        exact .inr (.inr ⟨_, rfl, h.settle hids htypes, hmore _ hsent⟩)
  · exact .inl rfl

/-- the loop ends: every turn sends a claim that was not sent before -/
theorem loop_ends (hids : (before.map (·.id)).Nodup) {fuel : ℕ} (h : Inv c before s)
    (hfuel : before.length < fuel + s.sent.flatten.length) :
    ∃ ended, (∀ more, loop c (fuel + more) s = some ended) ∧ Lawful c before ended := by
  induction fuel generalizing s with
  | zero =>
    have hle := h.kept.sent_le
    omega
  | succ fuel ih =>
    have hunfold : ∀ more, fuel + 1 + more = (fuel + more) + 1 := fun more => by omega
    rcases h.turn hids with hdone | ⟨e, s', hraised, hlawful⟩ | ⟨s', hnext, hs', hmore⟩
    · refine ⟨.returned s, fun more => ?_, h.done hdone⟩
      rw [hunfold, loop, hdone]
    · refine ⟨.raised e s', fun more => ?_, hlawful⟩
      rw [hunfold, loop, hraised]
    · obtain ⟨ended, hends, hlawful⟩ := ih hs' (by omega)
      refine ⟨ended, fun more => ?_, hlawful⟩
      rw [hunfold, loop, hnext]
      exact hends more

/-- **the backfill**: with more turns than there are rows it ends, and what it has done is lawful -/
theorem backfillClaimTypes_lawful (c : Call ρ) (table : Table ρ) :
    ∃ ended, (∀ fuel, table.rows.length < fuel →
      backfillClaimTypes c table.rows fuel = some ended) ∧ Lawful c table.rows ended := by
  have hfirst : table.rows.length < table.rows.length + 1 + 0 := by omega
  obtain ⟨ended, hends, hlawful⟩ := loop_ends table.primaryKey (Inv.init c table.rows) hfirst
  refine ⟨ended, fun fuel hfuel => ?_, hlawful⟩
  obtain ⟨more, rfl⟩ := Nat.exists_eq_add_of_lt hfuel
  have hmore := hends more
  rwa [Nat.add_right_comm] at hmore

end LifeAI.Rag.Claims
