import LifeAI.Project.Model

/-!
# Checkpoints that are not stale

* `Describes`  the open notes, the current statuses and the latest commit are those of the brief;
* `ran`        the operations of the calls that did not fail;
* `Flagged`    one of the three signals is raised by what ran after the checkpoint;
* `Quiet`      no note of the brief was closed, and without a commit in it none was ingested;
* `stale_iff`  the signals are raised exactly by these operations;
* `describes_unless_stale_iff`   a checkpoint that is not stale describes the project, exactly when one
               of the two holds.
-/

namespace LifeAI.Project
open Run

/-! ## what a call can do -/

/-- the operation adds a note -/
def Op.adds : Op → Bool
  | .addNote .. => true
  | _ => false

/-- the operation records a status -/
def Op.records : Op → Bool
  | .ingestGithubStatus s _ => s.kind = "branch" ∨ s.kind = "pr"
  | _ => false

/-- the operation closes the note `id`, if there is one -/
def Op.closes (id : NoteId) : Op → Bool
  | .resolveNote id' .. => id' = id
  | _ => false

/-- the commit that the operation ingests -/
def Op.commit? : Op → Option String
  | .ingestGitCommit sha _ => some sha
  | _ => none

/-- the operations of the calls that did not fail -/
def ran (calls : List Call) : List Op := (calls.filter (·.fault = none)).map (·.op)

namespace Db

variable (db : Db)

/-- the note `id`, while it is open -/
def openNote? (id : NoteId) : Option ProjectNote := db.notes[id]?.filter (·.status = .opened)

/-- the status row `id`, while it is current -/
def currentStatus? (id : Nat) : Option ProjectBranchPRStatus := db.statuses[id]?.filter (·.isCurrent)

/-- the latest commit that was ingested -/
def latestCommit : Option String := db.latestGitCommitSource.bind (·.commitSha)

/-- everything in the tables was written before `now` -/
structure Before (now : Time) : Prop where
  notes : ∀ n ∈ db.notes, n.createdAt < now
  sources : ∀ s ∈ db.sources, s.ingestedAt < now
  statuses : ∀ r ∈ db.statuses, r.recordedAt < now

end Db

variable {isoformat : Time → String} {db : Db} {now t : Time} {o : Op}

/-- an operation that ran, or raised -/
def Db.does (isoformat : Time → String) (db : Db) (now : Time) (o : Op) : Db :=
  transact db (db.apply isoformat now o)

theorem next_of_fault {c : Call} (h : c.fault ≠ none) : db.next isoformat c = db := by
  obtain ⟨e, he⟩ := Option.ne_none_iff_exists'.1 h
  unfold Db.next
  rw [he]
  rfl

theorem next_of_ran {c : Call} (h : c.fault = none) :
    db.next isoformat c = db.does isoformat c.now c.op := by
  unfold Db.next
  rw [h]
  rfl

theorem createCheckpoint_ok {summary branchName createdBy : String} {openPrRefs : List String}
    {made : ProjectCheckpoint × Db}
    (h : db.createCheckpoint isoformat now summary branchName openPrRefs createdBy = .ok made) :
    made.1.notes = (db.listNotes .opened).map (·.2) ∧ made.1.gitCommitSha = db.latestCommit ∧
      made.1.createdAt = now ∧ made.2 = { db with checkpoints := db.checkpoints ++ [made.1] } := by
  unfold Db.createCheckpoint at h
  simp only [bind_eq_ok] at h
  obtain ⟨blob, -, heq⟩ := h
  cases heq
  exact ⟨rfl, rfl, rfl, rfl⟩

variable (isoformat db now)

/-- what `create_checkpoint` leaves of the tables that it reads -/
theorem does_createCheckpoint (summary branchName : String) (openPrRefs : List String)
    (createdBy : String) : ∃ checkpoints, db.does isoformat now
      (.createCheckpoint summary branchName openPrRefs createdBy) =
        { db with checkpoints := checkpoints } := by
  show ∃ checkpoints, transact db ((db.createCheckpoint isoformat now summary branchName openPrRefs
    createdBy).map (·.2)) = _
  cases h : db.createCheckpoint isoformat now summary branchName openPrRefs createdBy with
  | error e => exact ⟨db.checkpoints, rfl⟩
  | ok made =>
    obtain ⟨-, -, -, hdb⟩ := createCheckpoint_ok h
    exact ⟨_, hdb⟩

/-- what `resolve_note` leaves: nothing is written, or one note is closed -/
theorem does_resolveNote (id : NoteId) (resolvedBy resolutionNote : String) (superseded : Bool) :
    (db.notes[id]? = none ∧
      db.does isoformat now (.resolveNote id resolvedBy resolutionNote superseded) = db) ∨
    ∃ n n', db.notes[id]? = some n ∧ n'.createdAt = n.createdAt ∧ n'.status ≠ .opened ∧
      db.does isoformat now (.resolveNote id resolvedBy resolutionNote superseded) =
        { db with notes := db.notes.set id n' } := by
  have hdoes : db.does isoformat now (.resolveNote id resolvedBy resolutionNote superseded) =
      transact db (db.resolveNote now id resolvedBy resolutionNote superseded) := rfl
  rw [hdoes]
  unfold Db.resolveNote
  cases h : db.notes[id]? with
  | none => exact .inl ⟨rfl, rfl⟩
  | some n =>
    refine .inr ⟨n, { n with
      status := if superseded then .superseded else .resolved
      resolvedAt := some now
      resolvedBy := some resolvedBy
      resolutionNote := some resolutionNote }, rfl, rfl, ?_, rfl⟩
    cases superseded <;> exact nofun

/-- a snapshot of another kind is refused -/
theorem does_ingestGithubStatus (s : Snapshot) (ingestedBy : String) :
    db.does isoformat now (.ingestGithubStatus s ingestedBy) =
      if (Op.ingestGithubStatus s ingestedBy).records then
        { db with
          sources := db.sources ++ [{
            sourceType := "github_" ++ s.kind, sourceRef := s.ref, ingestedBy := ingestedBy,
            ingestedAt := now }]
          statuses := (db.statuses.map fun row =>
              if row.kind = s.kind ∧ row.ref = s.ref ∧ row.isCurrent then row.supersede now
              else row) ++ [s.entry ingestedBy db.sources.length now] }
      else db := by
  have hdoes : db.does isoformat now (.ingestGithubStatus s ingestedBy) =
      transact db (db.ingestGithubStatus now s ingestedBy) := rfl
  rw [hdoes]
  unfold Db.ingestGithubStatus Op.records
  by_cases h : s.kind ≠ "branch" ∧ s.kind ≠ "pr"
  · have hnot : ¬ (s.kind = "branch" ∨ s.kind = "pr") := not_or.2 h
    rw [if_pos h, if_neg (by simpa using hnot)]
    rfl
  · have hor : s.kind = "branch" ∨ s.kind = "pr" := by
      rw [← not_or, not_not] at h
      exact h
    rw [if_neg h, if_pos (by simpa using hor)]
    rfl

variable {isoformat db now}

/-- as long as nothing is added, a note is open until it is closed -/
theorem does_openNote? (hadds : o.adds = false) (id : NoteId) :
    (db.does isoformat now o).openNote? id =
      if o.closes id then none else db.openNote? id := by
  cases o with
  | addNote => cases hadds
  | resolveNote id' resolvedBy resolutionNote superseded =>
    unfold Db.openNote? Op.closes
    rcases does_resolveNote isoformat db now id' resolvedBy
      resolutionNote superseded with ⟨hnone, hdb⟩ | ⟨n, n', hn, -, hclosed, hdb⟩
    · rw [hdb]
      split_ifs with hid
      · rw [← of_decide_eq_true hid, hnone]
        rfl
      · rfl
    · rw [hdb, getElem?_set_row hn]
      by_cases hid : id' = id
      · rw [if_pos hid, if_pos (by simpa using hid), Option.filter_some,
          if_neg (by simpa using hclosed)]
      · rw [if_neg hid, if_neg (by simpa using hid)]
  | ingestGitCommit => rfl
  | ingestGithubStatus s ingestedBy =>
    have hcloses : Op.closes id (.ingestGithubStatus s ingestedBy) = false := rfl
    rw [does_ingestGithubStatus, hcloses, if_neg Bool.false_ne_true]
    split_ifs <;> rfl
  | createCheckpoint summary branchName openPrRefs createdBy =>
    obtain ⟨checkpoints, hdb⟩ := does_createCheckpoint isoformat db now
      summary branchName openPrRefs createdBy
    rw [hdb]
    rfl

/-- the creation times of the notes: a note that is added is the newest -/
theorem does_createdAt : (db.does isoformat now o).notes.map (·.createdAt) =
    db.notes.map (·.createdAt) ++ if o.adds then [now] else [] := by
  cases o with
  | addNote kind content sourceType sourceRef createdBy sourceId classification =>
    exact List.map_append
  | resolveNote id resolvedBy resolutionNote superseded =>
    rcases does_resolveNote isoformat db now id resolvedBy
      resolutionNote superseded with ⟨-, hdb⟩ | ⟨n, n', hn, hsame, -, hdb⟩
    · rw [hdb]
      exact (List.append_nil _).symm
    · rw [hdb]
      exact (map_set_same hn hsame).trans (List.append_nil _).symm
  | ingestGitCommit => exact (List.append_nil _).symm
  | ingestGithubStatus s ingestedBy =>
    rw [does_ingestGithubStatus]
    refine Eq.trans ?_ (List.append_nil _).symm
    split_ifs <;> rfl
  | createCheckpoint summary branchName openPrRefs createdBy =>
    obtain ⟨checkpoints, hdb⟩ := does_createCheckpoint isoformat db now
      summary branchName openPrRefs createdBy
    rw [hdb]
    exact (List.append_nil _).symm

/-- what an operation that is no snapshot leaves of the statuses -/
theorem does_statuses (h : o.records = false) :
    (db.does isoformat now o).statuses = db.statuses := by
  cases o with
  | addNote => rfl
  | resolveNote id resolvedBy resolutionNote superseded =>
    rcases does_resolveNote isoformat db now id resolvedBy
      resolutionNote superseded with ⟨-, hdb⟩ | ⟨n, n', -, -, -, hdb⟩ <;> rw [hdb]
  | ingestGitCommit => rfl
  | ingestGithubStatus s ingestedBy => rw [does_ingestGithubStatus, h, if_neg Bool.false_ne_true]
  | createCheckpoint summary branchName openPrRefs createdBy =>
    obtain ⟨checkpoints, hdb⟩ := does_createCheckpoint isoformat db now
      summary branchName openPrRefs createdBy
    rw [hdb]

/-- the times of the statuses: superseding does not touch them, and a new row is the newest -/
theorem does_recordedAt : (db.does isoformat now o).statuses.map (·.recordedAt) =
    db.statuses.map (·.recordedAt) ++ if o.records then [now] else [] := by
  by_cases h : o.records = true
  · cases o with
    | ingestGithubStatus s ingestedBy =>
      rw [does_ingestGithubStatus, if_pos h, if_pos h]
      dsimp only
      rw [List.map_append, List.map_map]
      have hkept : ((fun r : ProjectBranchPRStatus => r.recordedAt) ∘ fun row =>
          if row.kind = s.kind ∧ row.ref = s.ref ∧ row.isCurrent = true then row.supersede now
          else row) = (·.recordedAt) := by
        funext row
        dsimp only [Function.comp]
        split_ifs <;> rfl
      rw [hkept]
      rfl
    | _ => cases h
  · rw [does_statuses (Bool.eq_false_iff.2 h), if_neg h, List.append_nil]

/-- the rows of the commits -/
def Db.commits (db : Db) : List ProjectSource := db.sources.filter (·.sourceType = "git_commit")

/-- the row of the commit that the operation ingests -/
def Op.source? (now : Time) : Op → Option ProjectSource
  | .ingestGitCommit sha ingestedBy => some {
      sourceType := "git_commit", sourceRef := "HEAD", commitSha := some sha,
      ingestedBy := ingestedBy, ingestedAt := now }
  | _ => none

theorem source?_ingestedAt {s : ProjectSource} (h : o.source? now = some s) :
    s.ingestedAt = now := by
  cases o with
  | ingestGitCommit sha ingestedBy =>
    cases h
    rfl
  | _ => cases h

theorem github_ne_git_commit {s : Snapshot} {ingestedBy : String}
    (h : (Op.ingestGithubStatus s ingestedBy).records = true) :
    "github_" ++ s.kind ≠ "git_commit" := by
  rcases of_decide_eq_true h with hkind | hkind <;> rw [hkind] <;> decide

theorem does_commits :
    (db.does isoformat now o).commits = db.commits ++ (o.source? now).toList := by
  cases o with
  | addNote => exact (List.append_nil _).symm
  | resolveNote id resolvedBy resolutionNote superseded =>
    rcases does_resolveNote isoformat db now id resolvedBy
      resolutionNote superseded with ⟨-, hdb⟩ | ⟨n, n', -, -, -, hdb⟩ <;> rw [hdb] <;>
      exact (List.append_nil _).symm
  | ingestGitCommit sha ingestedBy => exact List.filter_append _ _
  | ingestGithubStatus s ingestedBy =>
    rw [does_ingestGithubStatus]
    refine Eq.trans ?_ (List.append_nil _).symm
    split_ifs with h
    · show (db.sources ++ _).filter _ = _
      rw [List.filter_append, List.filter_cons_of_neg (by simpa using github_ne_git_commit h),
        List.filter_nil, List.append_nil]
      rfl
    · rfl
  | createCheckpoint summary branchName openPrRefs createdBy =>
    obtain ⟨checkpoints, hdb⟩ := does_createCheckpoint isoformat db now
      summary branchName openPrRefs createdBy
    rw [hdb]
    exact (List.append_nil _).symm

/-! ## the latest row -/

theorem mem_newestFirst {α : Type} {stamp : α → Time} {rows : List α} {x : α} :
    x ∈ newestFirst stamp rows ↔ x ∈ rows := List.mem_insertionSort _

/-- the first row is as new as any -/
theorem head?_newestFirst {α : Type} {stamp : α → Time} {rows : List α} {x : α}
    (h : (newestFirst stamp rows).head? = some x) : x ∈ rows ∧ ∀ y ∈ rows, stamp y ≤ stamp x := by
  obtain ⟨rest, hrest⟩ := List.head?_eq_some_iff.1 h
  have hmem : x ∈ newestFirst stamp rows := by
    rw [hrest]
    exact List.mem_cons_self
  refine ⟨mem_newestFirst.1 hmem, fun y hy => ?_⟩
  have hsorted : (newestFirst stamp rows).Pairwise fun a b => stamp b ≤ stamp a := by
    have htrans : IsTrans α fun a b => stamp b ≤ stamp a :=
      ⟨fun _ _ _ hab hbc => Nat.le_trans hbc hab⟩
    have htotal : Std.Total fun a b : α => stamp b ≤ stamp a := ⟨fun a b => Nat.le_total _ _⟩
    exact List.pairwise_insertionSort _ rows
  have hy' : y ∈ newestFirst stamp rows := mem_newestFirst.2 hy
  rw [hrest] at hsorted hy'
  rcases List.mem_cons.1 hy' with rfl | hlater
  · exact Nat.le_refl _
  · exact List.rel_of_pairwise_cons hsorted hlater

theorem head?_newestFirst_eq_none {α : Type} {stamp : α → Time} {rows : List α} :
    (newestFirst stamp rows).head? = none ↔ rows = [] := by
  rw [List.head?_eq_none_iff]
  constructor
  · intro h
    refine List.eq_nil_iff_forall_not_mem.2 fun x hx => ?_
    have hmem : x ∈ newestFirst stamp rows := mem_newestFirst.2 hx
    rw [h] at hmem
    exact List.not_mem_nil hmem
  · rintro rfl
    rfl

/-- a row newer than all others comes first -/
theorem head?_newestFirst_concat {α : Type} {stamp : α → Time} {rows : List α} {x : α}
    (h : ∀ r ∈ rows, stamp r < stamp x) :
    (newestFirst stamp (rows ++ [x])).head? = some x := by
  cases hhead : (newestFirst stamp (rows ++ [x])).head? with
  | none =>
    have hnil := head?_newestFirst_eq_none.1 hhead
    exact absurd (List.append_eq_nil_iff.1 hnil).2 (List.cons_ne_nil _ _)
  | some y =>
    obtain ⟨hmem, hnewest⟩ := head?_newestFirst hhead
    rcases List.mem_append.1 hmem with hy | hy
    · have hle := hnewest x (List.mem_append_right _ List.mem_cons_self)
      exact absurd hle (Nat.not_le.2 (h y hy))
    · rw [List.mem_singleton.1 hy]

theorem latestGitCommitSource_eq :
    db.latestGitCommitSource = (newestFirst (·.ingestedAt) db.commits).head? := rfl

/-- an ingested commit becomes the latest one -/
theorem does_latestCommit (h : ∀ s ∈ db.commits, s.ingestedAt < now) :
    (db.does isoformat now o).latestCommit = o.commit?.or db.latestCommit := by
  unfold Db.latestCommit
  rw [latestGitCommitSource_eq, does_commits]
  cases hsource : o.source? now with
  | none =>
    have hcommit : o.commit? = none := by
      cases o <;> first | rfl | cases hsource
    rw [hcommit, Option.toList_none, List.append_nil]
    rfl
  | some row =>
    cases o with
    | ingestGitCommit sha ingestedBy =>
      obtain rfl := Option.some.inj hsource
      rw [Option.toList_some, head?_newestFirst_concat h]
      rfl
    | _ => cases hsource

/-! ## runs -/

theorem ran_cons_of_ran {c : Call} (h : c.fault = none) (calls : List Call) :
    ran (c :: calls) = c.op :: ran calls := by
  unfold ran
  rw [List.filter_cons_of_pos (by simpa using h), List.map_cons]

theorem ran_cons_of_fault {c : Call} (h : c.fault ≠ none) (calls : List Call) :
    ran (c :: calls) = ran calls := by
  unfold ran
  rw [List.filter_cons_of_neg (by simpa using h)]

/-- the calls come one after the other, and the first of them after `now` -/
def Follows (now : Time) (calls : List Call) : Prop :=
  (now :: calls.map (·.now)).Pairwise (· < ·)

theorem Follows.cons {c : Call} {calls : List Call} (h : Follows now (c :: calls)) :
    now < c.now ∧ Follows c.now calls := by
  obtain ⟨hfirst, hrest⟩ := List.pairwise_cons.1 h
  exact ⟨hfirst c.now List.mem_cons_self, hrest⟩

theorem Follows.after {c : Call} {calls : List Call} (h : Follows now (c :: calls)) :
    Follows now calls := by
  obtain ⟨hfirst, hrest⟩ := List.pairwise_cons.1 h
  exact List.pairwise_cons.2
    ⟨fun t ht => hfirst t (List.mem_cons_of_mem _ ht), (List.pairwise_cons.1 hrest).2⟩

/-- stamps that an operation of one kind adds to: a later one is there exactly when such an
operation ran -/
theorem run_stamps (db : Db) (stamps : Db → List Time) (flag : Op → Bool)
    (hdoes : ∀ db now o, stamps (db.does isoformat now o) =
      stamps db ++ if flag o then [now] else []) {calls : List Call} (htimes : Follows t calls) :
    (∃ x ∈ stamps (run (Db.next isoformat) db calls), t < x) ↔
      (∃ x ∈ stamps db, t < x) ∨ ∃ o ∈ ran calls, flag o = true := by
  induction calls generalizing db with
  | nil => simp [run_nil, ran]
  | cons c calls ih =>
    rw [run_cons, ih _ htimes.after]
    by_cases hfault : c.fault = none
    · rw [next_of_ran hfault, hdoes, ran_cons_of_ran hfault]
      have hlt := htimes.cons.1
      by_cases hflag : flag c.op = true
      · rw [if_pos hflag]
        simp [hflag, hlt]
      · rw [if_neg hflag, List.append_nil]
        simp [hflag]
    · rw [next_of_fault hfault, ran_cons_of_fault hfault]

/-- a table whose rows are older than `t`: after a run it has a newer one exactly when an operation
that adds to it ran -/
theorem run_newer {α : Type} (rows : Db → List α) (stamp : α → Time) (flag : Op → Bool)
    (hdoes : ∀ db now o, (rows (db.does isoformat now o)).map stamp =
      (rows db).map stamp ++ if flag o then [now] else [])
    (hold : ∀ r ∈ rows db, stamp r < t) {calls : List Call} (htimes : Follows t calls) :
    (∃ r ∈ rows (run (Db.next isoformat) db calls), t < stamp r) ↔
      ∃ o ∈ ran calls, flag o = true := by
  have hstamps := run_stamps db (fun db => (rows db).map stamp) flag hdoes htimes
  rw [or_iff_right] at hstamps
  · rw [← hstamps]
    constructor
    · intro ⟨r, hr, hlt⟩
      exact ⟨stamp r, List.mem_map_of_mem hr, hlt⟩
    · intro ⟨x, hx, hlt⟩
      obtain ⟨r, hr, rfl⟩ := List.mem_map.1 hx
      exact ⟨r, hr, hlt⟩
  · intro ⟨x, hx, hlt⟩
    obtain ⟨r, hr, rfl⟩ := List.mem_map.1 hx
    exact Nat.lt_asymm hlt (hold r hr)

/-- the open notes of a run that adds none -/
theorem run_openNote? {calls : List Call} (h : ∀ o ∈ ran calls, o.adds = false) (id : NoteId) :
    (run (Db.next isoformat) db calls).openNote? id =
      if (ran calls).any (·.closes id) then none else db.openNote? id := by
  induction calls generalizing db with
  | nil => rfl
  | cons c calls ih =>
    rw [run_cons]
    by_cases hfault : c.fault = none
    · rw [ran_cons_of_ran hfault] at h ⊢
      rw [ih fun o ho => h o (List.mem_cons_of_mem _ ho), next_of_ran hfault,
        does_openNote? (h _ List.mem_cons_self), List.any_cons]
      by_cases hcloses : c.op.closes id = true
      · rw [if_pos hcloses, hcloses, Bool.true_or, if_pos rfl, ite_self]
      · rw [if_neg hcloses, Bool.eq_false_iff.2 hcloses, Bool.false_or]
    · rw [ran_cons_of_fault hfault] at h ⊢
      rw [ih h, next_of_fault hfault]

theorem run_statuses {calls : List Call} (h : ∀ o ∈ ran calls, o.records = false) :
    (run (Db.next isoformat) db calls).statuses = db.statuses := by
  induction calls generalizing db with
  | nil => rfl
  | cons c calls ih =>
    rw [run_cons]
    by_cases hfault : c.fault = none
    · rw [ran_cons_of_ran hfault] at h
      rw [ih fun o ho => h o (List.mem_cons_of_mem _ ho), next_of_ran hfault,
        does_statuses (h _ List.mem_cons_self)]
    · rw [ran_cons_of_fault hfault] at h
      rw [ih h, next_of_fault hfault]

/-- the last commit that was ingested by operations -/
def lastCommit (ops : List Op) : Option String := (ops.filterMap Op.commit?).getLast?

theorem lastCommit_cons (o : Op) (ops : List Op) :
    lastCommit (o :: ops) = (lastCommit ops).or o.commit? := by
  unfold lastCommit
  rw [List.filterMap_cons]
  cases o.commit? with
  | none => exact (Option.or_none).symm
  | some sha =>
    rw [List.getLast?_cons]
    cases (ops.filterMap Op.commit?).getLast? <;> rfl

theorem run_latestCommit {calls : List Call} (hpast : ∀ s ∈ db.commits, s.ingestedAt ≤ now)
    (htimes : Follows now calls) :
    (run (Db.next isoformat) db calls).latestCommit =
      (lastCommit (ran calls)).or db.latestCommit := by
  induction calls generalizing db now with
  | nil => rfl
  | cons c calls ih =>
    rw [run_cons]
    by_cases hfault : c.fault = none
    · obtain ⟨hlt, hrest⟩ := htimes.cons
      have hbefore : ∀ s ∈ db.commits, s.ingestedAt < c.now :=
        fun s hs => Nat.lt_of_le_of_lt (hpast s hs) hlt
      have hpast' : ∀ s ∈ (db.does isoformat c.now c.op).commits, s.ingestedAt ≤ c.now := by
        rw [does_commits]
        intro s hs
        rcases List.mem_append.1 hs with hs | hs
        · exact Nat.le_of_lt (hbefore s hs)
        · exact Nat.le_of_eq (source?_ingestedAt (Option.mem_toList.1 hs))
      rw [next_of_ran hfault, ih hpast' hrest, ran_cons_of_ran hfault, lastCommit_cons,
        does_latestCommit hbefore, Option.or_assoc]
    · rw [next_of_fault hfault, ran_cons_of_fault hfault, ih hpast htimes.after]

/-! ## staleness -/

/-- what ran after a checkpoint of the commit `sha` raises a signal -/
inductive Flagged (sha : Option String) (ops : List Op) : Prop where
  | noted {o : Op} (mem : o ∈ ops) (adds : o.adds = true)
  | recorded {o : Op} (mem : o ∈ ops) (records : o.records = true)
  | committed {known last : String} (checkpoint : known ∈ sha.filter (· ≠ ""))
      (latest : last ∈ lastCommit ops) (other : last ≠ known)

/-- what ran after a checkpoint of `db` closed no open note, and ingested no commit unless the
checkpoint knows one -/
structure Quiet (db : Db) (ops : List Op) : Prop where
  notes : ∀ o ∈ ops, ∀ id, o.closes id = true → db.openNote? id = none
  commit : db.latestCommit.filter (· ≠ "") = none →
    ∀ last ∈ lastCommit ops, db.latestCommit = some last

/-- the brief of a checkpoint of `db` is still true of `db'` -/
structure Describes (checkpoint : ProjectCheckpoint) (db db' : Db) : Prop where
  notes : ∀ id, db'.openNote? id = db.openNote? id
  statuses : ∀ id, db'.currentStatus? id = db.currentStatus? id
  commit : db'.latestCommit = db.latestCommit
  cited : ∀ id ∈ checkpoint.notes, db'.openNote? id ≠ none

theorem exists_newer_iff {α : Type} {rows : List α} {stamp : α → Time} {reason : String} :
    ¬ (if rows.filter (t < stamp ·) = [] then [] else [reason]) = [] ↔
      ∃ r ∈ rows, t < stamp r := by
  split_ifs with h
  · refine iff_of_false (fun hne => hne rfl) ?_
    intro ⟨r, hr, hlt⟩
    exact List.filter_eq_nil_iff.1 h r hr (decide_eq_true hlt)
  · refine iff_of_true id ?_
    obtain ⟨r, hr⟩ := List.exists_mem_of_ne_nil _ h
    obtain ⟨hmem, hlt⟩ := List.mem_filter.1 hr
    exact ⟨r, hmem, of_decide_eq_true hlt⟩

theorem isCheckpointStale_iff {checkpoint : ProjectCheckpoint} :
    (db.isCheckpointStale checkpoint).1 = true ↔
      (∃ known ∈ checkpoint.gitCommitSha.filter (· ≠ ""), ∃ latest ∈ db.latestGitCommitSource,
        latest.commitSha ≠ some known) ∨
      (∃ n ∈ db.notes, checkpoint.createdAt < n.createdAt) ∨
      ∃ r ∈ db.statuses, checkpoint.createdAt < r.recordedAt := by
  unfold Db.isCheckpointStale
  dsimp only
  rw [decide_eq_true_iff, ne_eq, List.append_eq_nil_iff, List.append_eq_nil_iff, not_and_or,
    not_and_or, or_assoc]
  refine or_congr ?_ (or_congr exists_newer_iff exists_newer_iff)
  cases db.latestGitCommitSource with
  | none => simp
  | some latest =>
    cases checkpoint.gitCommitSha.filter (· ≠ "") with
    | none => simp
    | some known => simp

/-- the notes linked to a checkpoint are those that were open -/
theorem mem_listNotes {id : NoteId} :
    id ∈ (db.listNotes .opened).map (·.2) ↔ db.openNote? id ≠ none := by
  unfold Db.openNote?
  rw [List.mem_map]
  constructor
  · rintro ⟨⟨n, i⟩, hmem, rfl⟩
    obtain ⟨hzip, hopen⟩ := List.mem_filter.1 (mem_newestFirst.1 hmem)
    rw [List.mem_zipIdx_iff_getElem?.1 hzip, Option.filter_some, if_pos hopen]
    exact Option.some_ne_none n
  · intro h
    obtain ⟨n, hn⟩ := Option.ne_none_iff_exists'.1 h
    obtain ⟨hget, hopen⟩ := Option.filter_eq_some_iff.1 hn
    exact ⟨(n, id), mem_newestFirst.2
      (List.mem_filter.2 ⟨List.mem_zipIdx_iff_getElem?.2 hget, hopen⟩), rfl⟩

/-- the commit of a checkpoint is no longer the latest one -/
theorem other_commit_iff {known : String} {last? : Option String}
    (h : db.latestCommit = last?.or (some known)) :
    (∃ latest ∈ db.latestGitCommitSource, latest.commitSha ≠ some known) ↔
      ∃ last ∈ last?, last ≠ known := by
  unfold Db.latestCommit at h
  obtain ⟨latest, hlatest, hsha⟩ : ∃ latest, db.latestGitCommitSource = some latest ∧
      latest.commitSha = last?.or (some known) := by
    cases hsource : db.latestGitCommitSource with
    | none =>
      rw [hsource] at h
      cases last? <;> cases h
    | some latest =>
      rw [hsource] at h
      exact ⟨latest, rfl, h⟩
  rw [hlatest]
  cases last? with
  | none => simp [hsha]
  | some last => simp [hsha]

variable {summary branchName createdBy : String} {openPrRefs : List String}
  {checkpoint : ProjectCheckpoint} {db₁ : Db} {calls : List Call}

/-- the latest commit after a checkpoint of `db` -/
theorem latestCommit_since
    (hmade : db.createCheckpoint isoformat now summary branchName openPrRefs createdBy =
      .ok (checkpoint, db₁)) (hbefore : db.Before now) (htimes : Follows now calls) :
    (run (Db.next isoformat) db₁ calls).latestCommit =
      (lastCommit (ran calls)).or db.latestCommit := by
  obtain ⟨-, -, -, hdb⟩ := createCheckpoint_ok hmade
  dsimp only at hdb
  have hpast : ∀ s ∈ db₁.commits, s.ingestedAt ≤ now := by
    rw [hdb]
    exact fun s hs => Nat.le_of_lt (hbefore.sources s (List.mem_filter.1 hs).1)
  rw [run_latestCommit hpast htimes, hdb]
  rfl

/-- the three signals are raised by what ran after the checkpoint, and by nothing else -/
theorem stale_iff
    (hmade : db.createCheckpoint isoformat now summary branchName openPrRefs createdBy =
      .ok (checkpoint, db₁)) (hbefore : db.Before now) (htimes : Follows now calls) :
    ((run (Db.next isoformat) db₁ calls).isCheckpointStale checkpoint).1 = true ↔
      Flagged checkpoint.gitCommitSha (ran calls) := by
  obtain ⟨-, hsha, hcreated, hdb⟩ := createCheckpoint_ok hmade
  dsimp only at hsha hcreated hdb
  have hnotes : (∃ n ∈ (run (Db.next isoformat) db₁ calls).notes, now < n.createdAt) ↔
      ∃ o ∈ ran calls, o.adds = true := by
    refine run_newer (·.notes) (·.createdAt) Op.adds (fun db now o => does_createdAt) ?_ htimes
    rw [hdb]
    exact hbefore.notes
  have hstatuses : (∃ r ∈ (run (Db.next isoformat) db₁ calls).statuses, now < r.recordedAt) ↔
      ∃ o ∈ ran calls, o.records = true := by
    refine run_newer (·.statuses) (·.recordedAt) Op.records (fun db now o => does_recordedAt) ?_
      htimes
    rw [hdb]
    exact hbefore.statuses
  have hlatest := latestCommit_since hmade hbefore htimes
  rw [← hsha] at hlatest
  have hcommit : ∀ known ∈ checkpoint.gitCommitSha.filter (· ≠ ""),
      ((∃ latest ∈ (run (Db.next isoformat) db₁ calls).latestGitCommitSource,
        latest.commitSha ≠ some known) ↔ ∃ last ∈ lastCommit (ran calls), last ≠ known) := by
    intro known hknown
    rw [(Option.filter_eq_some_iff.1 hknown).1] at hlatest
    exact other_commit_iff hlatest
  rw [isCheckpointStale_iff, hcreated, hnotes, hstatuses]
  constructor
  · rintro (⟨known, hknown, hother⟩ | ⟨o, ho, hadds⟩ | ⟨o, ho, hrecords⟩)
    · obtain ⟨last, hlast, hne⟩ := (hcommit known hknown).1 hother
      exact .committed hknown hlast hne
    · exact .noted ho hadds
    · exact .recorded ho hrecords
  · intro h
    cases h with
    | noted mem adds => exact .inr (.inl ⟨_, mem, adds⟩)
    | recorded mem records => exact .inr (.inr ⟨_, mem, records⟩)
    | committed hknown hlast hne => exact .inl ⟨_, hknown, (hcommit _ hknown).2 ⟨_, hlast, hne⟩⟩

/-- without a signal the brief is still true exactly after what is quiet -/
theorem describes_iff
    (hmade : db.createCheckpoint isoformat now summary branchName openPrRefs createdBy =
      .ok (checkpoint, db₁)) (hbefore : db.Before now) (htimes : Follows now calls)
    (hflagged : ¬ Flagged checkpoint.gitCommitSha (ran calls)) :
    Describes checkpoint db (run (Db.next isoformat) db₁ calls) ↔ Quiet db (ran calls) := by
  obtain ⟨hlinked, hsha, -, hdb⟩ := createCheckpoint_ok hmade
  dsimp only at hlinked hsha hdb
  have hadds : ∀ o ∈ ran calls, o.adds = false :=
    fun o ho => Bool.eq_false_iff.2 fun h => hflagged (.noted ho h)
  have hrecords : ∀ o ∈ ran calls, o.records = false :=
    fun o ho => Bool.eq_false_iff.2 fun h => hflagged (.recorded ho h)
  have hlatest := latestCommit_since hmade hbefore htimes
  have hopen : ∀ id, (run (Db.next isoformat) db₁ calls).openNote? id =
      if (ran calls).any (·.closes id) then none else db.openNote? id := by
    intro id
    rw [run_openNote? hadds, hdb]
    rfl
  constructor
  · intro h
    refine ⟨fun o ho id hcloses => ?_, fun hunknown last hlast => ?_⟩
    · rw [← h.notes id, hopen id, if_pos (List.any_eq_true.2 ⟨o, ho, hcloses⟩)]
    · rw [← h.commit, hlatest, hlast]
      rfl
  · intro h
    have hnotes : ∀ id, (run (Db.next isoformat) db₁ calls).openNote? id = db.openNote? id := by
      intro id
      rw [hopen id]
      split_ifs with hany
      · obtain ⟨o, ho, hcloses⟩ := List.any_eq_true.1 hany
        exact (h.notes o ho id hcloses).symm
      · rfl
    refine ⟨hnotes, fun id => ?_, ?_, fun id hid => ?_⟩
    · unfold Db.currentStatus?
      rw [run_statuses hrecords, hdb]
    · rw [hlatest]
      cases hlast : lastCommit (ran calls) with
      | none => rfl
      | some last =>
        cases hknown : db.latestCommit.filter (· ≠ "") with
        | none => exact (h.commit hknown last hlast).symm
        | some known =>
          have hsame : last = known := by
            by_contra hne
            refine hflagged (.committed ?_ hlast hne)
            rw [hsha]
            exact hknown
          rw [hsame, (Option.filter_eq_some_iff.1 hknown).1]
          rfl
    · rw [hlinked] at hid
      rw [hnotes id]
      exact mem_listNotes.1 hid

/-- **a checkpoint that is not stale**: it describes the project exactly when what ran since then
raises a signal, or is quiet -/
theorem describes_unless_stale_iff
    (hmade : db.createCheckpoint isoformat now summary branchName openPrRefs createdBy =
      .ok (checkpoint, db₁)) (hbefore : db.Before now) (htimes : Follows now calls) :
    (((run (Db.next isoformat) db₁ calls).isCheckpointStale checkpoint).1 = false →
      Describes checkpoint db (run (Db.next isoformat) db₁ calls)) ↔
    Flagged checkpoint.gitCommitSha (ran calls) ∨ Quiet db (ran calls) := by
  by_cases hflagged : Flagged checkpoint.gitCommitSha (ran calls)
  · refine iff_of_true (fun hfresh => ?_) (.inl hflagged)
    rw [(stale_iff hmade hbefore htimes).2 hflagged] at hfresh
    cases hfresh
  · have hfresh : ((run (Db.next isoformat) db₁ calls).isCheckpointStale checkpoint).1 = false :=
      Bool.eq_false_iff.2 fun h => hflagged ((stale_iff hmade hbefore htimes).1 h)
    rw [or_iff_right hflagged, ← describes_iff hmade hbefore htimes hflagged]
    exact ⟨fun h => h hfresh, fun h _ => h⟩

/-! ## a blocker that is closed after the checkpoint -/

def mergeBlocker : ProjectNote where
  kind := .blocker
  content := "Merge waits for a decision"
  sourceType := "pr"
  sourceRef := "#8"
  createdBy := "agent"
  createdAt := 1

def blockedDb : Db := { notes := [mergeBlocker] }

set_option maxRecDepth 8000 in
theorem blockedDb_checkpoint : ∃ checkpoint db₁,
    blockedDb.createCheckpoint (fun _ => "") 2 "s" "main" [] "agent" = .ok (checkpoint, db₁) := by
  have hsome : (blockedDb.createCheckpoint (fun _ => "") 2 "s" "main" [] "agent").toOption.isSome := by
    decide
  cases h : blockedDb.createCheckpoint (fun _ => "") 2 "s" "main" [] "agent" with
  | ok made => exact ⟨made.1, made.2, rfl⟩
  | error e =>
    rw [h] at hsome
    cases hsome

theorem blockedDb_before : blockedDb.Before 2 := ⟨by decide, by decide, by decide⟩

/-- `resolve_note` of the note `id`, right after the checkpoint -/
def closing (id : NoteId) : List Call := [⟨3, .resolveNote id "founder" "decided" false, none⟩]

theorem closing_follows (id : NoteId) : Follows 2 (closing id) := by
  unfold Follows closing
  simp

theorem closing_not_flagged (sha : Option String) (id : NoteId) :
    ¬ Flagged sha (ran (closing id)) := by
  have hran : ran (closing id) = [.resolveNote id "founder" "decided" false] := rfl
  rw [hran]
  intro h
  cases h with
  | noted mem adds =>
    rw [List.mem_singleton.1 mem] at adds
    cases adds
  | recorded mem records =>
    rw [List.mem_singleton.1 mem] at records
    cases records
  | committed _ latest _ => cases latest

theorem missing_note_describes : ∃ checkpoint db₁,
    blockedDb.createCheckpoint (fun _ => "") 2 "s" "main" [] "agent" = .ok (checkpoint, db₁) ∧
    (((run (Db.next fun _ => "") db₁ (closing 5)).isCheckpointStale checkpoint).1 = false →
      Describes checkpoint blockedDb (run (Db.next fun _ => "") db₁ (closing 5))) := by
  obtain ⟨checkpoint, db₁, hmade⟩ := blockedDb_checkpoint
  refine ⟨checkpoint, db₁, hmade, ?_⟩
  refine (describes_unless_stale_iff hmade blockedDb_before (closing_follows 5)).2 (.inr ⟨?_, nofun⟩)
  intro o ho id hcloses
  rw [List.mem_singleton.1 ho] at hcloses
  rw [← of_decide_eq_true hcloses]
  rfl

/-- the brief still names the blocker, and the checkpoint is not stale -/
theorem closed_blocker_unseen : ∃ checkpoint db₁,
    blockedDb.createCheckpoint (fun _ => "") 2 "s" "main" [] "agent" = .ok (checkpoint, db₁) ∧
    ((run (Db.next fun _ => "") db₁ (closing 0)).isCheckpointStale checkpoint).1 = false ∧
    ¬ Describes checkpoint blockedDb (run (Db.next fun _ => "") db₁ (closing 0)) := by
  obtain ⟨checkpoint, db₁, hmade⟩ := blockedDb_checkpoint
  have hflagged := closing_not_flagged checkpoint.gitCommitSha 0
  refine ⟨checkpoint, db₁, hmade, ?_, ?_⟩
  · exact Bool.eq_false_iff.2 fun h =>
      hflagged ((stale_iff hmade blockedDb_before (closing_follows 0)).1 h)
  · rw [describes_iff hmade blockedDb_before (closing_follows 0) hflagged]
    intro h
    have hclosed := h.notes _ List.mem_cons_self 0 rfl
    cases hclosed

end LifeAI.Project
