import LifeAI.Envelopes.Governance

/-!
# The envelopes of a goal form one chain

* `EnvelopeDb.goalEnvelopes`  the envelopes of a goal with their ids, the oldest first;
* `EnvelopeChain`  each of them supersedes the one before it, and the last one alone is active;
* `GovTx.chained`  what an authorization has read, under the locks that it still holds;
* `ChainInv`       the invariant of the interleavings, beside `GovInv`.
-/

namespace LifeAI

/-- the envelopes of a goal, each with its id -/
def EnvelopeDb.goalEnvelopes (db : EnvelopeDb) (g : GoalId) : List (Envelope × EnvelopeId) :=
  db.envelopes.zipIdx.filter (·.1.goalId = g)

/-- one chain: the links lead from each envelope to the one before it, and the last one alone is
active -/
structure EnvelopeChain (l : List (Envelope × EnvelopeId)) : Prop where
  links : l.map (·.1.supersedesEnvelopeId) = (none :: l.map (some ·.2)).dropLast
  active : ∀ x ∈ l.getLast?, x.1.status = .active
  superseded : ∀ x ∈ l.dropLast, x.1.status = .superseded

/-- the id of the last envelope of the goal -/
def EnvelopeDb.lastEnvelope (db : EnvelopeDb) (g : GoalId) : Option EnvelopeId :=
  (db.goalEnvelopes g).getLast?.map (·.2)

namespace EnvelopeChain

variable {l : List (Envelope × EnvelopeId)} {prior : Option EnvelopeId} {e : Envelope}
  {k : EnvelopeId}

theorem nil : EnvelopeChain [] where
  links := rfl
  active _ h := by cases h
  superseded _ h := by cases h

/-- `supersede` on an envelope with its id -/
def mark (prior : Option EnvelopeId) (x : Envelope × EnvelopeId) : Envelope × EnvelopeId :=
  if prior = some x.2 then ({ x.1 with status := .superseded }, x.2) else x

theorem mark_id (x : Envelope × EnvelopeId) : (mark prior x).2 = x.2 := by
  unfold mark
  split <;> rfl

theorem mark_goalId (x : Envelope × EnvelopeId) : (mark prior x).1.goalId = x.1.goalId := by
  unfold mark
  split <;> rfl

theorem mark_link (x : Envelope × EnvelopeId) :
    (mark prior x).1.supersedesEnvelopeId = x.1.supersedesEnvelopeId := by
  unfold mark
  split <;> rfl

theorem mark_source (x : Envelope × EnvelopeId) :
    (mark prior x).1.sourceProposalId = x.1.sourceProposalId := by
  unfold mark
  split <;> rfl

theorem mark_superseded {x : Envelope × EnvelopeId} (h : prior = some x.2 ∨
    x.1.status = .superseded) : (mark prior x).1.status = .superseded := by
  unfold mark
  split
  · rfl
  · next hne => exact h.resolve_left hne

/-- the links of a chain, and the id of its last envelope -/
theorem links_last (h : EnvelopeChain l) :
    l.map (·.1.supersedesEnvelopeId) ++ [l.getLast?.map (·.2)] = none :: l.map (some ·.2) := by
  rw [h.links]
  cases l.eq_nil_or_concat with
  | inl hl =>
    subst hl
    rfl
  | inr hl =>
    obtain ⟨pre, x, rfl⟩ := hl
    rw [List.concat_eq_append, List.getLast?_concat, List.map_append, List.map_singleton,
      ← List.cons_append, List.dropLast_concat]
    rfl

/-- a new envelope supersedes the last one -/
theorem snoc (h : EnvelopeChain l) (hlink : e.supersedesEnvelopeId = l.getLast?.map (·.2))
    (hactive : e.status = .active) :
    EnvelopeChain (l.map (mark (l.getLast?.map (·.2))) ++ [(e, k)]) where
  links := by
    have hids : (l.map (mark (l.getLast?.map (·.2)))).map (some ·.2) = l.map (some ·.2) := by
      simp only [List.map_map, Function.comp_def, mark_id]
    have hlinks : (l.map (mark (l.getLast?.map (·.2)))).map (·.1.supersedesEnvelopeId) =
        l.map (·.1.supersedesEnvelopeId) := by
      simp only [List.map_map, Function.comp_def, mark_link]
    rw [List.map_append, List.map_append, hids, hlinks, List.map_singleton, List.map_singleton,
      hlink, h.links_last, ← List.cons_append, List.dropLast_concat]
  active x hx := by
    rw [List.getLast?_concat, Option.mem_some_iff] at hx
    rw [← hx]
    exact hactive
  superseded x hx := by
    rw [List.dropLast_concat] at hx
    obtain ⟨y, hy, rfl⟩ := List.mem_map.1 hx
    apply mark_superseded
    cases l.eq_nil_or_concat with
    | inl hl =>
      subst hl
      cases hy
    | inr hl =>
      obtain ⟨pre, z, rfl⟩ := hl
      rw [List.concat_eq_append] at hy h ⊢
      rw [List.mem_append, List.mem_singleton] at hy
      rcases hy with hy | rfl
      · exact .inr (h.superseded y (by rwa [List.dropLast_concat]))
      · exact .inl (by rw [List.getLast?_concat]; rfl)

end EnvelopeChain

namespace EnvelopeDb

variable {db db' : EnvelopeDb} {g : GoalId} {x : Envelope × EnvelopeId}

theorem mem_goalEnvelopes :
    x ∈ db.goalEnvelopes g ↔ db.envelopes[x.2]? = some x.1 ∧ x.1.goalId = g := by
  unfold goalEnvelopes
  rw [List.mem_filter, List.mem_zipIdx_iff_getElem?, decide_eq_true_eq]

theorem mem_of_lastEnvelope {i : EnvelopeId} (h : db.lastEnvelope g = some i) :
    ∃ e, (e, i) ∈ db.goalEnvelopes g := by
  unfold lastEnvelope at h
  rw [Option.map_eq_some_iff] at h
  obtain ⟨x, hx, rfl⟩ := h
  exact ⟨x.1, List.mem_of_getLast? hx⟩

theorem supersede_zipIdx (prior : Option EnvelopeId) (es : List Envelope) :
    (Authorization.supersede prior es).zipIdx = es.zipIdx.map (EnvelopeChain.mark prior) := by
  refine List.ext_getElem? fun k => ?_
  rw [List.getElem?_map, List.getElem?_zipIdx, List.getElem?_zipIdx]
  cases prior with
  | none => cases hk : es[k]? <;> simp [Authorization.supersede, EnvelopeChain.mark, hk]
  | some i =>
    simp only [Authorization.supersede, List.getElem?_modify]
    cases es[k]? with
    | none => rfl
    | some e => by_cases hik : i = k <;> simp [EnvelopeChain.mark, hik]

/-- the envelopes of a goal after an authorization -/
theorem grant_goalEnvelopes {a : Authorization} {p : ScopeProposal} {prior : Option EnvelopeId}
    (h : a.grant p prior db = .ok db') (g : GoalId) :
    db'.goalEnvelopes g = (db.goalEnvelopes g).map (EnvelopeChain.mark prior) ++
      if p.goalId = g then [(a.envelope p prior, db.envelopes.length)] else [] := by
  obtain ⟨-, -, rfl⟩ := Authorization.grant_ok.1 h
  have hlen : (Authorization.supersede prior db.envelopes).length = db.envelopes.length := by
    cases prior with
    | none => rfl
    | some i => exact List.length_modify _ _ _
  unfold goalEnvelopes
  rw [List.zipIdx_append, List.filter_append, supersede_zipIdx, List.filter_map, hlen]
  congr 1
  · congr 1
    refine List.filter_congr fun x _ => ?_
    rw [Function.comp_apply, EnvelopeChain.mark_goalId]
  · by_cases hg : p.goalId = g <;> simp [Authorization.envelope, hg]

/-- an authorization of another goal leaves the envelopes of a goal alone -/
theorem grant_goalEnvelopes_ne {a : Authorization} {p : ScopeProposal} {prior : Option EnvelopeId}
    (h : a.grant p prior db = .ok db') (hprior : prior = db.lastEnvelope p.goalId)
    (hg : p.goalId ≠ g) : db'.goalEnvelopes g = db.goalEnvelopes g := by
  rw [grant_goalEnvelopes h, if_neg hg, List.append_nil]
  refine (List.map_congr_left fun x hx => ?_).trans (List.map_id _)
  unfold EnvelopeChain.mark
  rw [if_neg]
  · rfl
  · intro hx'
    rw [hprior] at hx'
    obtain ⟨e, he⟩ := mem_of_lastEnvelope hx'
    rw [mem_goalEnvelopes] at he hx
    rw [hx.1] at he
    cases he.1
    exact hg (he.2.symm.trans hx.2)

theorem ids_nodup (db : EnvelopeDb) (g : GoalId) : ((db.goalEnvelopes g).map (·.2)).Nodup := by
  have hsub : ((db.goalEnvelopes g).map (·.2)).Sublist (db.envelopes.zipIdx.map (·.2)) :=
    (List.filter_sublist).map _
  refine hsub.nodup ?_
  rw [List.zipIdx_map_snd]
  exact List.nodup_range'

/-- the query of the active envelopes, over the envelopes of the goal -/
theorem activeEnvelopes_eq (db : EnvelopeDb) (owner : OwnerId) (g : GoalId) :
    db.activeEnvelopes owner g = ((db.goalEnvelopes g).filter fun x =>
      x.1.ownerId = owner ∧ x.1.status = .active).map (·.2) := by
  unfold activeEnvelopes goalEnvelopes
  have hrange : List.range db.envelopes.length = db.envelopes.zipIdx.map (·.2) := by
    rw [List.zipIdx_map_snd, List.range_eq_range']
  rw [hrange, List.filter_map, List.filter_filter]
  congr 1
  refine List.filter_congr fun x hx => ?_
  rw [List.mem_zipIdx_iff_getElem?] at hx
  rw [Function.comp_apply, hx, Option.any_some, ← Bool.decide_and, decide_eq_decide]
  tauto

/-- on a chain the last envelope alone can be found -/
theorem activeEnvelopes_of_chain {owner : OwnerId} (h : EnvelopeChain (db.goalEnvelopes g)) :
    db.activeEnvelopes owner g =
      (((db.goalEnvelopes g).getLast?.filter (·.1.ownerId = owner)).map (·.2)).toList := by
  rw [activeEnvelopes_eq]
  cases (db.goalEnvelopes g).eq_nil_or_concat with
  | inl hl =>
    rw [hl]
    rfl
  | inr hl =>
    obtain ⟨pre, x, hl⟩ := hl
    rw [List.concat_eq_append] at hl
    rw [hl] at h ⊢
    have hpre : (pre.filter fun y => y.1.ownerId = owner ∧ y.1.status = .active) = [] := by
      rw [List.filter_eq_nil_iff]
      intro y hy
      rw [decide_eq_true_eq, h.superseded y (by rwa [List.dropLast_concat])]
      rintro ⟨-, hst⟩
      cases hst
    have hx : x.1.status = .active := h.active x (by rw [List.getLast?_concat]; rfl)
    rw [List.filter_append, hpre, List.nil_append, List.filter_singleton, List.getLast?_concat,
      Option.filter_some]
    by_cases howner : x.1.ownerId = owner <;> simp [howner, hx]

theorem currentEnvelope_ok {owner : OwnerId} (h : EnvelopeChain (db.goalEnvelopes g)) :
    db.currentEnvelope owner g =
      .ok (((db.goalEnvelopes g).getLast?.filter (·.1.ownerId = owner)).map (·.2)) := by
  unfold currentEnvelope
  rw [activeEnvelopes_of_chain h]
  cases ((db.goalEnvelopes g).getLast?.filter (·.1.ownerId = owner)).map (·.2) with
  | none => rfl
  | some i => rfl

/-- when the goal is of the owner, the query finds the last envelope -/
theorem currentEnvelope_of_owner {owner : OwnerId} (h : EnvelopeChain (db.goalEnvelopes g))
    (howner : ∀ x ∈ db.goalEnvelopes g, x.1.ownerId = owner) :
    db.currentEnvelope owner g = .ok (db.lastEnvelope g) := by
  rw [currentEnvelope_ok h]
  unfold lastEnvelope
  cases hl : (db.goalEnvelopes g).getLast? with
  | none => rfl
  | some x => rw [Option.filter_some, if_pos (by simpa using howner x (List.mem_of_getLast? hl))]

end EnvelopeDb

/-! ## what a chain says of its envelopes -/

namespace EnvelopeChain

variable {db : EnvelopeDb} {g : GoalId} {i j k : EnvelopeId} {e e' : Envelope}

/-- one active envelope at most -/
theorem active_unique (h : EnvelopeChain (db.goalEnvelopes g)) (hi : (e, i) ∈ db.goalEnvelopes g)
    (hj : (e', j) ∈ db.goalEnvelopes g) (he : e.status = .active) (he' : e'.status = .active) :
    i = j := by
  cases (db.goalEnvelopes g).eq_nil_or_concat with
  | inl hl =>
    rw [hl] at hi
    cases hi
  | inr hl =>
    obtain ⟨pre, x, hl⟩ := hl
    rw [List.concat_eq_append] at hl
    rw [hl] at h hi hj
    have last : ∀ y ∈ pre ++ [x], y.1.status = .active → y = x := by
      intro y hy hst
      rw [List.mem_append, List.mem_singleton] at hy
      refine hy.resolve_left fun hpre => ?_
      rw [h.superseded y (by rwa [List.dropLast_concat])] at hst
      cases hst
    exact congrArg Prod.snd ((last _ hi he).trans (last _ hj he').symm)

/-- and at least one, when there is any envelope -/
theorem exists_active (h : EnvelopeChain (db.goalEnvelopes g)) (hne : db.goalEnvelopes g ≠ []) :
    ∃ x ∈ db.goalEnvelopes g, x.1.status = .active :=
  ⟨_, List.getLast_mem hne, h.active _ (List.getLast?_eq_some_getLast hne)⟩

/-- a link leads to an envelope of the goal -/
theorem link_mem (h : EnvelopeChain (db.goalEnvelopes g)) (hi : (e, i) ∈ db.goalEnvelopes g)
    (hk : e.supersedesEnvelopeId = some k) : ∃ x ∈ db.goalEnvelopes g, x.2 = k := by
  have hlink : some k ∈ (db.goalEnvelopes g).map (·.1.supersedesEnvelopeId) :=
    List.mem_map.2 ⟨(e, i), hi, hk⟩
  rw [h.links] at hlink
  have hmem := List.mem_of_mem_dropLast hlink
  rw [List.mem_cons] at hmem
  cases hmem with
  | inl hnone => cases hnone
  | inr hmem =>
    obtain ⟨x, hx, hxk⟩ := List.mem_map.1 hmem
    exact ⟨x, hx, Option.some.inj hxk⟩

/-- no two envelopes supersede the same one -/
theorem link_unique (h : EnvelopeChain (db.goalEnvelopes g)) (hi : (e, i) ∈ db.goalEnvelopes g)
    (hj : (e', j) ∈ db.goalEnvelopes g)
    (hlink : e.supersedesEnvelopeId = e'.supersedesEnvelopeId) : i = j := by
  have hnodup : ((db.goalEnvelopes g).map (·.1.supersedesEnvelopeId)).Nodup := by
    rw [h.links]
    refine (List.dropLast_sublist _).nodup ?_
    rw [List.nodup_cons]
    constructor
    · simp
    · have hids := (db.ids_nodup g).map (Option.some_injective EnvelopeId)
      rwa [List.map_map] at hids
  exact congrArg Prod.snd (List.inj_on_of_nodup_map hnodup hi hj hlink)

end EnvelopeChain

/-! ## the invariant -/

/-- what an authorization has read, and what its locks keep as it was -/
def GovTx.chained (db : EnvelopeDb) : GovTx → Prop
  | .authorize a (.proposalLocked p) =>
    db.proposals[a.proposalId]? = some p ∧ p.status = .unreviewed
  | .authorize a (.goalLocked p) =>
    db.proposals[a.proposalId]? = some p ∧ p.status = .unreviewed
  | .authorize a (.priorRead p prior) =>
    (db.proposals[a.proposalId]? = some p ∧ p.status = .unreviewed) ∧
      prior = db.lastEnvelope p.goalId
  | _ => True

structure ChainInv (s : GovSys) : Prop where
  chains : ∀ g, EnvelopeChain (s.envelopes.goalEnvelopes g)
  /-- a proposal with an envelope is not open any more -/
  spent : ∀ e ∈ s.envelopes.envelopes, ∀ q, e.sourceProposalId = some q →
    ∃ p, s.envelopes.proposals[q]? = some p ∧ p.status = .authorized
  sources : ∀ {i j : EnvelopeId} {e e' : Envelope} {q : ProposalId},
    s.envelopes.envelopes[i]? = some e → s.envelopes.envelopes[j]? = some e' →
    e.sourceProposalId = some q → e'.sourceProposalId = some q → i = j
  txs : ∀ {m : Nat} {x : GovTx}, s.txs[m]? = some x → x.chained s.envelopes

theorem Authorization.proposal_ok {a : Authorization} {db : EnvelopeDb} {p : ScopeProposal}
    (h : a.proposal db = .ok p) :
    db.proposals[a.proposalId]? = some p ∧ p.status = .unreviewed := by
  unfold Authorization.proposal at h
  split at h
  · cases h
  next q hq =>
  split at h
  · cases h
  split at h
  · cases h
  next hst =>
  cases h
  exact ⟨hq, not_not.1 hst⟩

theorem GovTx.ended_chained (db : EnvelopeDb) (x : GovTx) : x.ended.chained db := by
  cases x <;> exact trivial

/-- the envelopes after an authorization: those that were there, and the new one -/
theorem Authorization.grant_envelope {a : Authorization} {p : ScopeProposal}
    {prior : Option EnvelopeId} {db db' : EnvelopeDb} (h : a.grant p prior db = .ok db')
    {i : EnvelopeId} {e : Envelope} (he : db'.envelopes[i]? = some e) :
    (∃ e₀, db.envelopes[i]? = some e₀ ∧ e.sourceProposalId = e₀.sourceProposalId) ∨
      i = db.envelopes.length ∧ e.sourceProposalId = some a.proposalId := by
  have hmem : (e, i) ∈ db'.goalEnvelopes e.goalId := EnvelopeDb.mem_goalEnvelopes.2 ⟨he, rfl⟩
  rw [EnvelopeDb.grant_goalEnvelopes h, List.mem_append] at hmem
  rcases hmem with hold | hnew
  · obtain ⟨x, hx, hxe⟩ := List.mem_map.1 hold
    have hid : x.2 = i := (EnvelopeChain.mark_id x).symm.trans (congrArg Prod.snd hxe)
    have hsrc : (EnvelopeChain.mark prior x).1.sourceProposalId = e.sourceProposalId := by rw [hxe]
    rw [EnvelopeChain.mark_source] at hsrc
    exact .inl ⟨x.1, hid ▸ (EnvelopeDb.mem_goalEnvelopes.1 hx).1, hsrc.symm⟩
  · split at hnew
    · rw [List.mem_singleton] at hnew
      cases hnew
      exact .inr ⟨rfl, rfl⟩
    · cases hnew

namespace ChainInv

variable {s s' : GovSys} {n : Nat} {x x' : GovTx}

/-- a step of a transaction that leaves the envelopes alone -/
theorem set (h : ChainInv s) (hes : s'.envelopes = s.envelopes) (htxs : s'.txs = s.txs.set n x')
    (hx' : x'.chained s.envelopes) : ChainInv s' where
  chains := by rw [hes]; exact h.chains
  spent := by rw [hes]; exact h.spent
  sources := by rw [hes]; exact h.sources
  txs {m y} hm := by
    rw [htxs] at hm
    rw [hes]
    by_cases hmn : n = m
    · subst hmn
      have hy : y = x' := by
        rw [List.getElem?_set] at hm
        simp only [if_true] at hm
        split at hm
        · exact (Option.some.inj hm).symm
        · cases hm
      exact hy ▸ hx'
    · rw [List.getElem?_set_ne hmn] at hm
      exact h.txs hm

/-- a new transaction -/
theorem start (h : ChainInv s) (hx : x.chained s.envelopes) :
    ChainInv { s with txs := s.txs ++ [x] } where
  chains := h.chains
  spent := h.spent
  sources := h.sources
  txs {m y} hm := by
    rcases getElem?_insert hm with hm | ⟨-, rfl⟩
    · exact h.txs hm
    · exact hx

/-- what the other transactions have read stays, as they hold the rows -/
theorem chained_grant (h : ChainInv s) (hg : GovInv s) {a : Authorization} {p : ScopeProposal}
    {prior : Option EnvelopeId} (hn : s.txs[n]? = some (.authorize a (.priorRead p prior)))
    {db : EnvelopeDb} (hgrant : a.grant p prior s.envelopes = .ok db) {m : Nat} (hmn : m ≠ n)
    (hm : s.txs[m]? = some x) : x.chained db := by
  have hx := h.txs hm
  have hprior : prior = s.envelopes.lastEnvelope p.goalId := (h.txs hn).2
  have hrow : ∀ q, x.holds (.proposal q) → db.proposals[q]? = s.envelopes.proposals[q]? := by
    intro q hq
    have hne : a.proposalId ≠ q := by
      rintro rfl
      exact hmn (hg.exclusive.eq_of_holds hm hn hq (by simp [GovTx.holds]))
    obtain ⟨-, -, rfl⟩ := Authorization.grant_ok.1 hgrant
    exact List.getElem?_set_ne hne
  have hlast : ∀ g, x.holds (.goal g) → db.lastEnvelope g = s.envelopes.lastEnvelope g := by
    intro g hxg
    have hne : p.goalId ≠ g := by
      rintro rfl
      exact hmn (hg.exclusive.eq_of_holds hm hn hxg (by simp [GovTx.holds]))
    unfold EnvelopeDb.lastEnvelope
    rw [EnvelopeDb.grant_goalEnvelopes_ne hgrant hprior hne]
  cases x with
  | tick i g stage => exact trivial
  | takeover k r owner g stage => exact trivial
  | authorize b stage =>
    cases stage with
    | called => exact trivial
    | ended => exact trivial
    | proposalLocked q | goalLocked q =>
      exact ⟨(hrow b.proposalId (by simp [GovTx.holds])).trans hx.1, hx.2⟩
    | priorRead q prior' =>
      refine ⟨⟨(hrow b.proposalId (by simp [GovTx.holds])).trans hx.1.1, hx.1.2⟩, ?_⟩
      rw [hlast q.goalId (by simp [GovTx.holds])]
      exact hx.2

/-- the commit of an authorization -/
theorem grant (h : ChainInv s) (hg : GovInv s) {a : Authorization} {p : ScopeProposal}
    {prior : Option EnvelopeId} (hn : s.txs[n]? = some (.authorize a (.priorRead p prior)))
    {db : EnvelopeDb} (hgrant : a.grant p prior s.envelopes = .ok db) (hes : s'.envelopes = db)
    (htxs : s'.txs = s.txs.set n (.authorize a .ended)) : ChainInv s' := by
  obtain ⟨⟨hp, hopen⟩, hprior⟩ := h.txs hn
  -- the proposal was open, so no envelope names it
  have hnew : ∀ e ∈ s.envelopes.envelopes, e.sourceProposalId ≠ some a.proposalId := by
    intro e he hsrc
    obtain ⟨p', hp', hst⟩ := h.spent e he _ hsrc
    rw [hp] at hp'
    cases hp'
    rw [hopen] at hst
    cases hst
  have hprops : ∀ q, db.proposals[q]? = if a.proposalId = q then some { p with
      status := .authorized, authorizedEnvelopeId := some s.envelopes.envelopes.length } else
      s.envelopes.proposals[q]? := by
    intro q
    obtain ⟨-, -, rfl⟩ := Authorization.grant_ok.1 hgrant
    exact getElem?_set_row hp
  subst hes
  refine ⟨fun g => ?_, fun e he q hq => ?_, ?_, ?_⟩
  · by_cases hpg : p.goalId = g
    · subst hpg
      rw [EnvelopeDb.grant_goalEnvelopes hgrant, if_pos rfl, hprior]
      exact (h.chains p.goalId).snoc rfl rfl
    · rw [EnvelopeDb.grant_goalEnvelopes_ne hgrant hprior hpg]
      exact h.chains g
  · rw [hprops]
    by_cases hqa : a.proposalId = q
    · rw [if_pos hqa]
      exact ⟨_, rfl, rfl⟩
    · rw [if_neg hqa]
      obtain ⟨i, hi⟩ := List.getElem?_of_mem he
      rcases Authorization.grant_envelope hgrant hi with ⟨e₀, he₀, hsrc⟩ | ⟨-, hsrc⟩
      · exact h.spent e₀ (List.mem_of_getElem? he₀) q (hsrc.symm.trans hq)
      · rw [hq] at hsrc
        exact absurd (Option.some.inj hsrc).symm hqa
  · intro i j e e' q hi hj he he'
    rcases Authorization.grant_envelope hgrant hi with ⟨e₀, he₀, hsrc⟩ | ⟨hlen, hsrc⟩
    · rcases Authorization.grant_envelope hgrant hj with ⟨e₁, he₁, hsrc'⟩ | ⟨-, hsrc'⟩
      · exact h.sources he₀ he₁ (hsrc.symm.trans he) (hsrc'.symm.trans he')
      · exact absurd (hsrc.symm.trans (he.trans (he'.symm.trans hsrc')))
          (hnew e₀ (List.mem_of_getElem? he₀))
    · rcases Authorization.grant_envelope hgrant hj with ⟨e₁, he₁, hsrc'⟩ | ⟨hlen', -⟩
      · exact absurd (hsrc'.symm.trans (he'.trans (he.symm.trans hsrc)))
          (hnew e₁ (List.mem_of_getElem? he₁))
      · exact hlen.trans hlen'.symm
  · intro m y hm
    rw [htxs, getElem?_set_row hn] at hm
    split at hm
    · cases hm
      exact trivial
    · next hmn => exact h.chained_grant hg hn hgrant (fun e => hmn e.symm) hm

/-- under the lock of the goal the query finds the last envelope -/
theorem prior_eq (h : ChainInv s) (hg : GovInv s) {a : Authorization} {p : ScopeProposal}
    (hn : s.txs[n]? = some (.authorize a (.goalLocked p))) :
    s.envelopes.currentEnvelope a.ownerId p.goalId =
      .ok (s.envelopes.lastEnvelope p.goalId) := by
  refine EnvelopeDb.currentEnvelope_of_owner (h.chains p.goalId) fun x hx => ?_
  obtain ⟨hx, hxg⟩ := EnvelopeDb.mem_goalEnvelopes.1 hx
  have howned := hg.recorded.owned x.1 (List.mem_of_getElem? hx)
  have howner := hg.ok n _ hn
  rw [hxg, Option.any_eq_true] at howned
  obtain ⟨goal, hgoal, hown⟩ := howned
  have howner : (s.db.goals[p.goalId]?).any (·.ownerId = a.ownerId) := howner
  rw [hgoal, Option.any_some, decide_eq_true_eq] at howner
  rw [decide_eq_true_eq] at hown
  exact hown.symm.trans howner

theorem advanceAuthorize (h : ChainInv s) (hg : GovInv s) {a : Authorization}
    {stage : AuthorizeStage} (hn : s.txs[n]? = some (.authorize a stage)) :
    ChainInv (s.advanceAuthorize n a stage) := by
  cases stage with
  | called =>
    simp only [GovSys.advanceAuthorize]
    split
    · exact h
    · split
      · exact h.set rfl rfl trivial
      · next hp => exact h.set rfl rfl (Authorization.proposal_ok hp)
  | proposalLocked p =>
    have hp := h.txs hn
    simp only [GovSys.advanceAuthorize]
    split
    · exact h
    · split
      · exact h.set rfl rfl hp
      · exact h.set rfl rfl trivial
  | goalLocked p =>
    have hp := h.txs hn
    simp only [GovSys.advanceAuthorize, h.prior_eq hg hn]
    exact h.set rfl rfl ⟨hp, rfl⟩
  | priorRead p prior =>
    simp only [GovSys.advanceAuthorize]
    split
    · exact h.set rfl rfl trivial
    · next hgrant => exact h.grant hg hn hgrant rfl rfl
  | ended => exact h

/-- a dispatch leaves the envelopes alone -/
theorem dispatch (h : ChainInv s) {i : TaskId} {g : GoalId} {p : DispatchRun}
    {goesOn : JobId → GovTx} (hgoesOn : ∀ j, (goesOn j).chained s.envelopes) :
    ChainInv (s.dispatch n i g p x goesOn) := by
  refine h.set rfl rfl ?_
  unfold DispatchRun.next
  split
  · exact hgoesOn _
  · exact x.ended_chained _

theorem advanceTick (h : ChainInv s) (env : TakeoverEnv) (i : TaskId) (g : GoalId)
    (stage : TickStage) : ChainInv (s.advanceTick n env i g stage) := by
  cases stage with
  | selected | checked seen | dispatched j =>
    simp only [GovSys.advanceTick]
    split
    · first | exact h | exact h.set rfl rfl trivial
    · exact h.set rfl rfl trivial
  | locked seen => exact h.dispatch fun _ => trivial
  | ended => exact h

theorem advanceTakeover (h : ChainInv s) (env : TakeoverEnv) (k : RecoveryId) (r : Recovery)
    (owner : OwnerId) (g : GoalId) (stage : TakeoverStage) :
    ChainInv (s.advanceTakeover n env k r owner g stage) := by
  cases stage with
  | classified | governed | dispatched j | goalLocked =>
    simp only [GovSys.advanceTakeover]
    split
    · first | exact h | exact h.set rfl rfl trivial
    · exact h.set rfl rfl trivial
  | ungoverned =>
    simp only [GovSys.advanceTakeover]
    split
    · exact h
    · exact h.dispatch fun _ => trivial
  | ended => exact h

theorem step (h : ChainInv s) (hg : GovInv s) (o : GovStep) : ChainInv (o.step s) := by
  cases o with
  | tick i =>
    simp only [GovStep.step]
    split
    · split
      · exact h.start trivial
      · exact h
    · exact h
  | takeover k =>
    simp only [GovStep.step]
    split
    · split
      · split
        · split
          · exact h.start trivial
          · exact h
        · exact h
      · exact h
    · exact h
  | authorize a => exact h.start trivial
  | advance n env =>
    simp only [GovStep.step]
    split
    · exact h.advanceTick env _ _ _
    · exact h.advanceTakeover env _ _ _ _ _
    · next hn => exact h.advanceAuthorize hg hn
    · exact h
  | rollback n =>
    simp only [GovStep.step]
    split
    · next x hx => exact h.set rfl rfl (x.ended_chained _)
    · exact h
  | others db =>
    simp only [GovStep.step]
    split
    · exact ⟨h.chains, h.spent, h.sources, h.txs⟩
    · exact h

end ChainInv

/-! ## the law -/

/-- tables without envelopes, and with any proposals -/
structure FreshStart extends GovStart where
  fresh : envelopes.envelopes = []

theorem FreshStart.chainInv (c : FreshStart) : ChainInv c.sys where
  chains g := by
    have hnil : c.sys.envelopes.goalEnvelopes g = [] := by
      rw [EnvelopeDb.goalEnvelopes, show c.sys.envelopes.envelopes = [] from c.fresh]
      rfl
    rw [hnil]
    exact .nil
  spent e he := by
    rw [show c.sys.envelopes.envelopes = [] from c.fresh] at he
    cases he
  sources hi := by
    rw [show c.sys.envelopes.envelopes = [] from c.fresh] at hi
    cases hi
  txs hm := by cases hm

theorem chainRun_inv (c : FreshStart) (os : List GovStep) :
    GovInv (govRun c.toGovStart os) ∧ ChainInv (govRun c.toGovStart os) :=
  Run.inv_all (I := fun s => GovInv s ∧ ChainInv s) (fun _ o h => ⟨h.1.step o, h.2.step h.1 o⟩)
    ⟨c.inv, c.chainInv⟩ os

namespace EnvelopeDb

/-- the envelopes of a goal are one chain, of which the last one is active; no two envelopes share
a prior one or a proposal -/
structure OneChain (db : EnvelopeDb) : Prop where
  chain : ∀ g, EnvelopeChain (db.goalEnvelopes g)
  oneActive : ∀ {i j : EnvelopeId} {e e' : Envelope}, db.envelopes[i]? = some e →
    db.envelopes[j]? = some e' → e.goalId = e'.goalId → e.status = .active →
    e'.status = .active → i = j
  onePerPrior : ∀ {i j k : EnvelopeId} {e e' : Envelope}, db.envelopes[i]? = some e →
    db.envelopes[j]? = some e' → e.supersedesEnvelopeId = some k →
    e'.supersedesEnvelopeId = some k → i = j
  onePerProposal : ∀ {i j : EnvelopeId} {e e' : Envelope} {q : ProposalId},
    db.envelopes[i]? = some e → db.envelopes[j]? = some e' → e.sourceProposalId = some q →
    e'.sourceProposalId = some q → i = j

end EnvelopeDb

theorem ChainInv.oneChain {s : GovSys} (h : ChainInv s) : s.envelopes.OneChain where
  chain := h.chains
  oneActive {i j e e'} hi hj hg hst hst' :=
    (h.chains e.goalId).active_unique (EnvelopeDb.mem_goalEnvelopes.2 ⟨hi, rfl⟩)
      (EnvelopeDb.mem_goalEnvelopes.2 ⟨hj, hg.symm⟩) hst hst'
  onePerPrior {i j k e e'} hi hj hk hk' := by
    have hei := EnvelopeDb.mem_goalEnvelopes (x := (e, i)).2 ⟨hi, rfl⟩
    have hej := EnvelopeDb.mem_goalEnvelopes (x := (e', j)).2 ⟨hj, rfl⟩
    -- both links stay within their goals, so the goals are the same
    obtain ⟨x, hx, hxk⟩ := (h.chains _).link_mem hei hk
    obtain ⟨y, hy, hyk⟩ := (h.chains _).link_mem hej hk'
    obtain ⟨hx, hxg⟩ := EnvelopeDb.mem_goalEnvelopes.1 hx
    obtain ⟨hy, hyg⟩ := EnvelopeDb.mem_goalEnvelopes.1 hy
    rw [hxk] at hx
    rw [hyk, hx] at hy
    have hgoals : e.goalId = e'.goalId := by
      rw [← hxg, Option.some.inj hy, hyg]
    rw [← hgoals] at hej
    exact (h.chains _).link_unique hei hej (hk.trans hk'.symm)
  onePerProposal := h.sources

/-- **one active envelope**: in every interleaving of authorizations, ticks, takeovers and
failures the committed envelopes form one chain for each goal, a goal with a committed
authorization has an active one, and the query of the current envelope finds one row or none. -/
theorem one_active_envelope (c : FreshStart) (os : List GovStep) :
    (govRun c.toGovStart os).envelopes.OneChain ∧
    (∀ g, .governed g ∈ (govRun c.toGovStart os).history →
      ∃ e ∈ (govRun c.toGovStart os).envelopes.envelopes, e.goalId = g ∧ e.status = .active) ∧
    ∀ owner g, ∃ current,
      (govRun c.toGovStart os).envelopes.currentEnvelope owner g = .ok current := by
  obtain ⟨hg, h⟩ := chainRun_inv c os
  refine ⟨h.oneChain, fun g hgov => ?_, fun owner g => ?_⟩
  · obtain ⟨e, he, heg⟩ := List.any_eq_true.1 ((hg.recorded.governed g).1 hgov)
    obtain ⟨i, hi⟩ := List.getElem?_of_mem he
    have hmem : (e, i) ∈ (govRun c.toGovStart os).envelopes.goalEnvelopes g :=
      EnvelopeDb.mem_goalEnvelopes.2 ⟨hi, of_decide_eq_true heg⟩
    obtain ⟨x, hx, hst⟩ := (h.chains g).exists_active (List.ne_nil_of_mem hmem)
    obtain ⟨hx, hxg⟩ := EnvelopeDb.mem_goalEnvelopes.1 hx
    exact ⟨x.1, List.mem_of_getElem? hx, hxg, hst⟩
  · exact ⟨_, EnvelopeDb.currentEnvelope_ok (h.chains g)⟩

end LifeAI
