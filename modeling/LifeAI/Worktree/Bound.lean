import LifeAI.Worktree.Model
import Mathlib.Data.List.Perm.Basic

/-!
# Ownership of a worktree, over crashes

* `Bound`            the committed active worktrees whose directory is there verify;
* `Names`            a marker that names a row;
* `answers`          the contents of a marker on which the check does not raise;
* `settled`          what the open transaction has done to the disk may be rolled back;
* `orderly`          the calls, cuts and rollbacks that keep the two stores together;
* `ownership_bound`  every orderly run; every marker.
-/

namespace LifeAI.Worktree

open JsonReader

variable (levels : ℕ)

/-- where no transaction is open, each active worktree whose directory is there verifies -/
def Bound (s : Sys) : Prop :=
  s.session = none → ∀ w ∈ s.rows, w.status = .active → (s.files w.path).isSome = true →
    verifyWorktreeOwnership levels s.files w = .ok true

/-- the marker on disk is a JSON object that names the task, the job and the token of the row -/
def Names (files : Files) (w : TaskWorktree) : Prop :=
  ∃ c bytes text members, files w.path = some c ∧ c.marker = some bytes ∧
    String.fromUTF8? bytes = some text ∧ loads levels text.toList = .ok (.obj members) ∧
    w.named members = true

/-- the marker is UTF-8, and no JSON or a JSON object -/
def answers (bytes : ByteArray) : Bool :=
  match String.fromUTF8? bytes with
  | none => false
  | some text =>
    match loads levels text.toList with
    | .error .malformed => true
    | .ok (.obj _) => true
    | _ => false

/-! ## the condition -/

/-- Each committed active worktree has its job and its token in the open transaction, and where that
has released it, its directory is gone. -/
def settled (s : Sys) : Bool :=
  (s.rows.zip s.view).all fun p =>
    p.1.status ≠ .active ∨ (p.2.jobId = p.1.jobId ∧ p.2.markerToken = p.1.markerToken ∧
      (p.2.status = .active ∨ (s.files p.1.path).isNone))

/-- an active worktree of these has its directory there -/
def occupied (rows : List TaskWorktree) (path : String) : Bool :=
  rows.any fun w => w.status = .active ∧ w.path = path

/-- the directory that the call clears or removes is no other active worktree's; a marker that is
written anew is followed by its row -/
def keepsApart (s : Sys) (c : Call) (cut : Option ℕ) : Bool :=
  match c with
  | .create a => s.view.any (·.jobId = a.jobId) ∨ ¬ occupied s.view (worktreePath a.jobId)
  | .rebind i a =>
    match s.view[i]? with
    | none => true
    | some w =>
      if (requireOwnership levels s.files w).isOk then
        (cut = none ∨ cut = some 0) ∧ a.written.isOk ∧ ¬ s.jobTaken i a.newJobId
      else true
  | .commitChanges _ _ => true
  | .release i _ _ _ =>
    match s.view[i]? with
    | none => true
    | some w => ¬ occupied (s.view.eraseIdx i) w.path

/-- A call keeps the directories apart, and where the process dies in it, or the transaction is rolled
back, what was done to the disk may be rolled back. -/
def orderly (s : Sys) (op : Op) : Bool :=
  match op with
  | .call c none => keepsApart levels s c none
  | .call c (some k) =>
    keepsApart levels s c (some k) ∧ settled (s.after ((c.effects levels s).take k))
  | .commit => true
  | .rollback => settled s
  | .replaced => true

variable {levels} {s s' : Sys} {w w' : TaskWorktree} {files : Files} {i : WorktreeId} {path : String}

/-! ## the marker -/

/-- a text is decoded as it was encoded -/
theorem fromUTF8?_toUTF8 (text : String) : String.fromUTF8? text.toUTF8 = some text := by
  unfold String.fromUTF8?
  rw [String.toUTF8_eq_toByteArray, dif_pos text.isValidUTF8]
  rfl

/-- a marker is read back as it was written -/
theorem loads_marker (taskId jobId token stamp : String) (generation : Generation) :
    loads levels (markerText taskId jobId token generation stamp) = .ok (.obj
      [(codePoints "created_at", .str (codePoints stamp)),
        (codePoints "lease_generation", .int (generation : ℕ)),
        (codePoints "marker_token", .str (codePoints token)),
        (codePoints "job_id", .str (codePoints jobId)),
        (codePoints "task_id", .str (codePoints taskId))]) := by
  have hlen : (Nat.toDigits 10 (generation : ℕ)).length ≤ maxDigits := by
    have hlt : (generation : ℕ) < 10 ^ 10 := generation.isLt.trans (by decide)
    exact ((Nat.length_toDigits_le_iff (by decide) (by decide)).2 hlt).trans (by decide)
  refine loads_object ("task_id", Json.quote taskId, .str (codePoints taskId))
    [("job_id", Json.quote jobId, .str (codePoints jobId)),
      ("marker_token", Json.quote token, .str (codePoints token)),
      ("lease_generation", Nat.toDigits 10 generation, .int (generation : ℕ)),
      ("created_at", Json.quote stamp, .str (codePoints stamp))] fun x hx => ?_
  simp only [List.mem_cons, List.not_mem_nil, or_false] at hx
  rcases hx with rfl | rfl | rfl | rfl | rfl
  · exact reads_quote taskId
  · exact reads_quote jobId
  · exact reads_quote token
  · exact reads_nat hlen
  · exact reads_quote stamp

/-- a row verifies against the marker that was written for it -/
theorem verify_written (generation : Generation) (stamp : String)
    (hfile : files w.path = some ⟨some (markerBytes w.taskId w.jobId w.markerToken generation stamp)⟩) :
    verifyWorktreeOwnership levels files w = .ok true := by
  unfold verifyWorktreeOwnership
  rw [hfile]
  dsimp only [Option.bind_some]
  unfold verifyMarker markerBytes
  rw [fromUTF8?_toUTF8]
  dsimp only
  rw [String.toList_ofList, loads_marker]
  dsimp only
  have hnamed : w.named [(codePoints "created_at", .str (codePoints stamp)),
      (codePoints "lease_generation", .int (generation : ℕ)),
      (codePoints "marker_token", .str (codePoints w.markerToken)),
      (codePoints "job_id", .str (codePoints w.jobId)),
      (codePoints "task_id", .str (codePoints w.taskId))] = true := by
    unfold TaskWorktree.named
    refine decide_eq_true ⟨?_, ?_, ?_⟩
    · exact decide_eq_true rfl
    · exact decide_eq_true rfl
    · exact decide_eq_true rfl
  rw [hnamed]

/-- the check looks at the path, the task, the job and the token -/
theorem verify_congr (hpath : w.path = w'.path) (htask : w.taskId = w'.taskId)
    (hjob : w.jobId = w'.jobId) (htoken : w.markerToken = w'.markerToken) :
    verifyWorktreeOwnership levels files w = verifyWorktreeOwnership levels files w' := by
  unfold verifyWorktreeOwnership verifyMarker TaskWorktree.named
  rw [hpath, htask, hjob, htoken]

theorem verify_files {files' : Files} (h : files w.path = files' w.path) :
    verifyWorktreeOwnership levels files w = verifyWorktreeOwnership levels files' w := by
  unfold verifyWorktreeOwnership
  rw [h]

theorem names_of_verify (h : verifyWorktreeOwnership levels files w = .ok true) :
    Names levels files w := by
  unfold verifyWorktreeOwnership at h
  cases hbytes : (files w.path).bind (·.marker) with
  | none =>
    rw [hbytes] at h
    exact nomatch h
  | some bytes =>
    rw [hbytes] at h
    obtain ⟨c, hc, hmarker⟩ := Option.bind_eq_some_iff.1 hbytes
    dsimp only at h
    unfold verifyMarker at h
    cases htext : String.fromUTF8? bytes with
    | none =>
      rw [htext] at h
      exact nomatch h
    | some text =>
      rw [htext] at h
      dsimp only at h
      cases hdoc : loads levels text.toList with
      | error e =>
        rw [hdoc] at h
        cases e <;> exact nomatch h
      | ok doc =>
        rw [hdoc] at h
        cases doc with
        | obj members => exact ⟨c, bytes, text, members, hc, hmarker, htext, hdoc, Except.ok.inj h⟩
        | null | bool | int | float | str | arr => exact nomatch h

/-- what the check answers, it answers by the contents of the marker -/
theorem verifyMarker_isOk (w : TaskWorktree) (bytes : ByteArray) :
    (verifyMarker levels w bytes).isOk = answers levels bytes := by
  unfold verifyMarker answers
  cases String.fromUTF8? bytes with
  | none => rfl
  | some text =>
    dsimp only
    cases loads levels text.toList with
    | error e => cases e <;> rfl
    | ok doc => cases doc <;> rfl

-- a JSON array, and a byte that is no UTF-8
example : answers 0 "[]".toUTF8 = false := by decide
example : answers 0 ⟨#[255]⟩ = false := by decide

theorem codePoints_injective : Function.Injective codePoints := by
  intro a b h
  have hlist := (List.map_injective_iff.2 fun c d hcd => Char.toNat_inj.1 hcd) h
  exact String.toList_inj.1 hlist

/-- a marker names one job -/
theorem named_job {members : List (List ℕ × Doc)} (h : w.named members = true)
    (h' : w'.named members = true) : w.jobId = w'.jobId := by
  obtain ⟨-, hjob, -⟩ := of_decide_eq_true h
  obtain ⟨-, hjob', -⟩ := of_decide_eq_true h'
  unfold holds at hjob hjob'
  generalize members.lookup (codePoints "job_id") = found at hjob hjob'
  cases found with
  | none => exact nomatch hjob
  | some d =>
    cases d with
    | str cs =>
      have heq : codePoints w.jobId = codePoints w'.jobId :=
        (of_decide_eq_true hjob).symm.trans (of_decide_eq_true hjob')
      exact codePoints_injective heq
    | null | bool | int | float | arr | obj => exact nomatch hjob

/-- two rows that verify at one path have one job -/
theorem same_job (h : verifyWorktreeOwnership levels files w = .ok true)
    (h' : verifyWorktreeOwnership levels files w' = .ok true) (hpath : w.path = w'.path) :
    w.jobId = w'.jobId := by
  obtain ⟨c, bytes, text, members, hc, hm, ht, hd, hn⟩ := names_of_verify h
  obtain ⟨c', bytes', text', members', hc', hm', ht', hd', hn'⟩ := names_of_verify h'
  rw [← hpath] at hc'
  obtain rfl := Option.some.inj (hc.symm.trans hc')
  obtain rfl := Option.some.inj (hm.symm.trans hm')
  obtain rfl := Option.some.inj (ht.symm.trans ht')
  obtain rfl := Doc.obj.inj (Except.ok.inj (hd.symm.trans hd'))
  exact named_job hn hn'

/-! ## the invariant -/

variable (levels) in
/-- The active worktrees of the session verify; each committed one is still at its path there. -/
structure Inv (s : Sys) : Prop where
  bound : ∀ w ∈ s.view, w.status = .active → (s.files w.path).isSome = true →
    verifyWorktreeOwnership levels s.files w = .ok true
  jobs : (s.view.map (·.jobId)).Nodup
  committedJobs : (s.rows.map (·.jobId)).Nodup
  aligned : ∀ (i : WorktreeId) (w : TaskWorktree), s.rows[i]? = some w →
    ∃ v, s.view[i]? = some v ∧ v.path = w.path ∧ v.taskId = w.taskId

theorem Inv.law (h : Inv levels s) : Bound levels s := by
  intro hclosed w hw
  have hview : s.view = s.rows := by
    unfold Sys.view
    rw [hclosed, Option.getD_none]
  exact h.bound w (hview ▸ hw)

theorem occupied_iff {rows : List TaskWorktree} :
    occupied rows path = true ↔ ∃ w ∈ rows, w.status = .active ∧ w.path = path := by
  unfold occupied
  rw [List.any_eq_true]
  exact exists_congr fun w => and_congr_right fun _ => decide_eq_true_iff

/-- a write to a directory that is no active worktree's -/
theorem Inv.file (h : Inv levels s) (hfree : ¬ occupied s.view path = true) (x : Option Checkout) :
    Inv levels (Effect.apply s (.file path x)) := by
  refine ⟨fun w hw hactive hthere => ?_, h.jobs, h.committedJobs, h.aligned⟩
  have hne : w.path ≠ path := fun heq => hfree (occupied_iff.2 ⟨w, hw, hactive, heq⟩)
  have hsame : (Function.update s.files path x) w.path = s.files w.path :=
    Function.update_of_ne hne x s.files
  have hthere' : (s.files w.path).isSome = true := hsame ▸ hthere
  rw [← h.bound w hw hactive hthere']
  exact verify_files hsame

/-- writes to one path -/
def OnlyFiles (path : String) (effects : List Effect) : Prop := ∀ e ∈ effects, ∃ x, e = .file path x

theorem OnlyFiles.append {a b : List Effect} (ha : OnlyFiles path a) (hb : OnlyFiles path b) :
    OnlyFiles path (a ++ b) := fun e he => (List.mem_append.1 he).elim (ha e) (hb e)

theorem OnlyFiles.of_prefix {a b : List Effect} (h : a <+: b) (hb : OnlyFiles path b) :
    OnlyFiles path a := fun e he => hb e (h.subset he)

theorem OnlyFiles.removes (r : Rmtree) (before : Option Checkout) :
    OnlyFiles path (r.effects path before) := by
  intro e he
  cases before with
  | none => exact absurd he List.not_mem_nil
  | some c =>
    cases r with
    | all =>
      rcases List.mem_cons.1 he with rfl | he
      · exact ⟨_, rfl⟩
      · exact ⟨_, List.mem_singleton.1 he⟩
    | part => exact ⟨_, List.mem_singleton.1 he⟩
    | nothing => exact absurd he List.not_mem_nil

theorem OnlyFiles.marker (bytes : ByteArray) : OnlyFiles path (writeMarker path bytes) := by
  intro e he
  rcases List.mem_cons.1 he with rfl | he
  · exact ⟨_, rfl⟩
  · exact ⟨_, List.mem_singleton.1 he⟩

theorem OnlyFiles.prepare (a : CreateArgs) : OnlyFiles (worktreePath a.jobId) (a.prepare s) :=
  (OnlyFiles.removes _ _).append fun _ he => ⟨_, List.mem_singleton.1 he⟩

theorem Inv.onlyFiles {effects : List Effect} (h : Inv levels s) (hfree : ¬ occupied s.view path = true)
    (honly : OnlyFiles path effects) :
    Inv levels (s.after effects) ∧ (s.after effects).view = s.view := by
  induction effects generalizing s with
  | nil => exact ⟨h, rfl⟩
  | cons e effects ih =>
    obtain ⟨x, rfl⟩ := honly e List.mem_cons_self
    exact ih (h.file hfree x) hfree fun e he => honly e (List.mem_cons_of_mem _ he)

/-- a new row, whose marker is written -/
theorem Inv.insert (h : Inv levels s) (hjob : w.jobId ∉ s.view.map (·.jobId))
    (hmarker : verifyWorktreeOwnership levels s.files w = .ok true) :
    Inv levels (Effect.apply s (.insert w)) := by
  refine ⟨fun v hv hactive hthere => ?_, ?_, h.committedJobs, fun i v hv => ?_⟩
  · rcases List.mem_append.1 hv with hv | hv
    · exact h.bound v hv hactive hthere
    · rw [List.mem_singleton.1 hv]
      exact hmarker
  · show ((s.view ++ [w]).map (·.jobId)).Nodup
    rw [List.map_append, List.nodup_append]
    refine ⟨h.jobs, List.nodup_singleton _, fun a ha b hb heq => hjob ?_⟩
    have hb' : b = w.jobId := List.mem_singleton.1 hb
    rw [← hb', ← heq]
    exact ha
  · obtain ⟨u, hu, hpath, htask⟩ := h.aligned i v hv
    exact ⟨u, (List.getElem?_append_left (List.getElem?_eq_some_iff.1 hu).1).trans hu, hpath, htask⟩

/-- a row is written again, at its path -/
theorem Inv.aligned_set (h : Inv levels s) (hrow : s.view[i]? = some w) (hpath : w'.path = w.path)
    (htask : w'.taskId = w.taskId) (j : WorktreeId) (v : TaskWorktree) (hv : s.rows[j]? = some v) :
    ∃ u, (s.view.set i w')[j]? = some u ∧ u.path = v.path ∧ u.taskId = v.taskId := by
  obtain ⟨u, hu, hup, hut⟩ := h.aligned j v hv
  rcases eq_or_ne i j with rfl | hne
  · obtain rfl := Option.some.inj (hrow.symm.trans hu)
    exact ⟨w', List.getElem?_set_self (List.getElem?_eq_some_iff.1 hu).1, hpath.trans hup,
      htask.trans hut⟩
  · exact ⟨u, (List.getElem?_set_ne hne).trans hu, hup, hut⟩

/-- the rows of the session but one -/
theorem mem_set_cases {v : TaskWorktree} (hv : v ∈ s.view.set i w') :
    v = w' ∨ ∃ j, j ≠ i ∧ s.view[j]? = some v := by
  obtain ⟨j, hj⟩ := List.getElem?_of_mem hv
  rcases eq_or_ne i j with rfl | hne
  · obtain ⟨hlt, hget⟩ := List.getElem?_eq_some_iff.1 hj
    rw [List.getElem_set_self] at hget
    exact .inl hget.symm
  · rw [List.getElem?_set_ne hne] at hj
    exact .inr ⟨j, hne.symm, hj⟩

theorem Inv.update (h : Inv levels s) (hrow : s.view[i]? = some w) (hpath : w'.path = w.path)
    (htask : w'.taskId = w.taskId) (hjob : w'.jobId = w.jobId)
    (hbound : w'.status = .active → (s.files w'.path).isSome = true →
      verifyWorktreeOwnership levels s.files w' = .ok true) :
    Inv levels (Effect.apply s (.update i w')) := by
  refine ⟨fun v hv hactive hthere => ?_, ?_, h.committedJobs, h.aligned_set hrow hpath htask⟩
  · rcases mem_set_cases hv with rfl | ⟨j, -, hj⟩
    · exact hbound hactive hthere
    · exact h.bound v (List.mem_of_getElem? hj) hactive hthere
  · obtain ⟨hlt, hget⟩ := List.getElem?_eq_some_iff.1 hrow
    have hi : (s.view.map (·.jobId)).get ⟨i, by rw [List.length_map]; exact hlt⟩ = w.jobId := by
      rw [List.get_eq_getElem, List.getElem_map, hget]
    have hsame : (s.view.set i w').map (·.jobId) = s.view.map (·.jobId) := by
      rw [List.map_set, hjob, ← hi]
      exact List.set_getElem_self _
    show ((s.view.set i w').map (·.jobId)).Nodup
    rw [hsame]
    exact h.jobs

/-- what was done to the disk is rolled back, or need not be -/
theorem Inv.rollback (h : Inv levels s) (hsettled : settled s = true) : Inv levels s.rollback := by
  refine ⟨fun w hw hactive hthere => ?_, h.committedJobs, h.committedJobs, fun i w hw =>
    ⟨w, hw, rfl, rfl⟩⟩
  obtain ⟨i, hi⟩ := List.getElem?_of_mem hw
  obtain ⟨v, hv, hpath, htask⟩ := h.aligned i w hi
  have hmem : (w, v) ∈ s.rows.zip s.view :=
    List.mem_of_getElem? (List.getElem?_zip_eq_some.2 ⟨hi, hv⟩)
  have hpair := of_decide_eq_true (List.all_eq_true.1 hsettled _ hmem)
  rcases hpair with hinactive | ⟨hjob, htoken, hstays⟩
  · exact absurd hactive hinactive
  have hv' : v.status = .active := by
    rcases hstays with hstays | hgone
    · exact hstays
    · rw [Option.isNone_iff_eq_none] at hgone
      change (s.files w.path).isSome = true at hthere
      rw [hgone] at hthere
      exact nomatch hthere
  rw [← h.bound v (List.mem_of_getElem? hv) hv' (hpath.symm ▸ hthere)]
  exact verify_congr hpath.symm htask.symm hjob.symm htoken.symm

/-! ## the calls -/

theorem after_append (a b : List Effect) : s.after (a ++ b) = (s.after a).after b :=
  List.foldl_append

/-- the writes of a call that goes through, or only the first of them -/
theorem inv_create (h : Inv levels s) (a : CreateArgs)
    (hapart : s.view.any (·.jobId = a.jobId) = true ∨ ¬ occupied s.view (worktreePath a.jobId) = true)
    {effects : List Effect} (hcut : effects <+: (createTaskWorktreeSync s a).2) :
    Inv levels (s.after effects) := by
  unfold createTaskWorktreeSync at hcut
  have hnil : effects <+: [] → Inv levels (s.after effects) := by
    intro hcut
    rw [List.prefix_nil.1 hcut]
    exact h
  cases hfind : s.view.findIdx? fun w => w.jobId = a.jobId with
  | some i =>
    rw [hfind] at hcut
    exact hnil hcut
  | none =>
    rw [hfind] at hcut
    dsimp only at hcut
    have hnone := List.findIdx?_eq_none_iff.1 hfind
    have hfree : ¬ occupied s.view (worktreePath a.jobId) = true := by
      refine hapart.resolve_left fun hany => ?_
      obtain ⟨w, hw, hjob⟩ := List.any_eq_true.1 hany
      exact Bool.false_ne_true ((hnone w hw).symm.trans hjob)
    have hnew : a.row.jobId ∉ s.view.map (·.jobId) := by
      intro hmem
      obtain ⟨w, hw, hjob⟩ := List.mem_map.1 hmem
      have hother := hnone w hw
      rw [decide_eq_false_iff_not] at hother
      exact hother hjob
    by_cases henabled : ¬ a.enabled = true
    · rw [if_pos henabled] at hcut
      exact hnil hcut
    rw [if_neg henabled] at hcut
    by_cases hbranch : taskBranchName a.taskId ∈ protectedBranches ∨ taskBranchName a.taskId = baseBranch
    · rw [if_pos hbranch] at hcut
      exact hnil hcut
    rw [if_neg hbranch] at hcut
    cases hsetup : a.setup with
    | fails e torn undo =>
      rw [hsetup] at hcut
      have htorn : OnlyFiles (worktreePath a.jobId)
          (if torn then [.file (worktreePath a.jobId) (some ⟨some ByteArray.empty⟩)] else []) := by
        intro x hx
        cases torn with
        | true => exact ⟨_, List.mem_singleton.1 hx⟩
        | false => exact absurd hx List.not_mem_nil
      have hall := ((OnlyFiles.prepare (s := s) a).append htorn).append
        (OnlyFiles.removes undo (some {}))
      exact (h.onlyFiles hfree (OnlyFiles.of_prefix hcut hall)).1
    | done =>
      rw [hsetup] at hcut
      have hdisk := (OnlyFiles.prepare (s := s) a).append (OnlyFiles.marker
        (markerBytes a.taskId a.jobId a.markerToken a.leaseGeneration a.stamp))
      rcases List.prefix_concat_iff.1 hcut with rfl | hcut
      · obtain ⟨hinv, hview⟩ := h.onlyFiles hfree hdisk
        rw [after_append]
        refine hinv.insert (hview ▸ hnew) (verify_written a.leaseGeneration a.stamp ?_)
        rw [after_append]
        exact Function.update_self ..
      · exact (h.onlyFiles hfree (OnlyFiles.of_prefix hcut hdisk)).1

theorem requireOwnership_ok (h : requireOwnership levels files w = .ok ()) :
    verifyWorktreeOwnership levels files w = .ok true := by
  unfold requireOwnership at h
  cases hverify : verifyWorktreeOwnership levels files w with
  | error e =>
    rw [hverify] at h
    exact nomatch h
  | ok b =>
    cases b with
    | true => rfl
    | false =>
      rw [hverify] at h
      exact nomatch h

theorem inv_rebind (h : Inv levels s) (i : WorktreeId) (a : RebindArgs) {cut : Option ℕ}
    (hapart : keepsApart levels s (.rebind i a) cut = true) :
    (rebindWorktreeToJob levels s i a).2 = [] ∨
      ((cut = none ∨ cut = some 0) ∧ Inv levels (s.after (rebindWorktreeToJob levels s i a).2)) := by
  unfold keepsApart at hapart
  dsimp only at hapart
  unfold rebindWorktreeToJob
  cases hrow : s.view[i]? with
  | none => exact .inl rfl
  | some w =>
    rw [hrow] at hapart
    dsimp only at hapart ⊢
    cases hown : requireOwnership levels s.files w with
    | error e => exact .inl rfl
    | ok u =>
      have hisOk : (requireOwnership levels s.files w).isOk = true := by
        rw [hown]
        rfl
      rw [if_pos hisOk] at hapart
      obtain ⟨hwhole, hwritten, hfree⟩ := of_decide_eq_true hapart
      dsimp only
      cases hresult : a.written with
      | error e =>
        rw [hresult] at hwritten
        exact nomatch hwritten
      | ok v =>
        dsimp only
        rw [if_neg hfree]
        refine .inr ⟨hwhole, ?_⟩
        have hverified := requireOwnership_ok hown
        have hfile : (s.after (writeMarker w.path (markerBytes w.taskId a.newJobId a.markerToken
            a.newLeaseGeneration a.stamp))).files w.path = some ⟨some (markerBytes w.taskId a.newJobId
              a.markerToken a.newLeaseGeneration a.stamp)⟩ := Function.update_self ..
        have hother : ∀ path, path ≠ w.path → (s.after (writeMarker w.path (markerBytes w.taskId
            a.newJobId a.markerToken a.newLeaseGeneration a.stamp))).files path = s.files path := by
          intro path hne
          exact (Function.update_of_ne hne ..).trans (Function.update_of_ne hne ..)
        rw [after_append]
        generalize hafter : s.after (writeMarker w.path (markerBytes w.taskId a.newJobId a.markerToken
          a.newLeaseGeneration a.stamp)) = s1 at hfile hother
        have hview : s1.view = s.view := by
          rw [← hafter]
          rfl
        have hrows : s1.rows = s.rows := by
          rw [← hafter]
          rfl
        show Inv levels { s1 with session := some (s1.view.set i (a.row w)) }
        rw [hview]
        refine ⟨fun v hv hactive hthere => ?_, ?_, ?_, ?_⟩
        · rcases mem_set_cases hv with rfl | ⟨j, hne, hj⟩
          · exact verify_written (w := a.row w) a.newLeaseGeneration a.stamp hfile
          · -- another row that verifies at this path would have the same job
            have hpath : v.path ≠ w.path := by
              intro hpath
              have hthere' : (s.files v.path).isSome = true := by
                obtain ⟨c, _, _, _, hc, -⟩ := names_of_verify hverified
                rw [hpath, hc]
                rfl
              have hv' := h.bound v (List.mem_of_getElem? hj) hactive hthere'
              have hjob := same_job hv' hverified hpath
              have hij : (s.view.map (·.jobId))[j]? = (s.view.map (·.jobId))[i]? := by
                rw [List.getElem?_map, List.getElem?_map, hj, hrow]
                exact congrArg some hjob
              have hlt : j < (s.view.map (·.jobId)).length := by
                rw [List.length_map]
                exact (List.getElem?_eq_some_iff.1 hj).1
              exact hne ((List.getElem?_inj hlt h.jobs).1 hij)
            have hthere' : (s.files v.path).isSome = true := (hother v.path hpath) ▸ hthere
            rw [← h.bound v (List.mem_of_getElem? hj) hactive hthere']
            exact verify_files (hother v.path hpath)
        · show ((s.view.set i (a.row w)).map (·.jobId)).Nodup
          have hlt : i < (s.view.map (·.jobId)).length := by
            rw [List.length_map]
            exact (List.getElem?_eq_some_iff.1 hrow).1
          rw [List.map_set, (List.set_perm_cons_eraseIdx hlt _).nodup_iff, List.nodup_cons,
            List.eraseIdx_map]
          refine ⟨fun hmem => hfree ?_, List.eraseIdx_map _ _ i ▸ h.jobs.eraseIdx i⟩
          obtain ⟨v, hv, hjob⟩ := List.mem_map.1 hmem
          exact List.any_eq_true.2 ⟨v, hv, decide_eq_true hjob⟩
        · rw [hrows]
          exact h.committedJobs
        · rw [hrows]
          exact h.aligned_set hrow rfl rfl

theorem inv_commitChanges (h : Inv levels s) (i : WorktreeId) (git : Except Err (Option String))
    {effects : List Effect} (hcut : effects <+: (commitWorktreeChanges levels s i git).2) :
    Inv levels (s.after effects) := by
  unfold commitWorktreeChanges at hcut
  have hnil : effects <+: [] → Inv levels (s.after effects) := by
    intro hcut
    rw [List.prefix_nil.1 hcut]
    exact h
  cases hrow : s.view[i]? with
  | none =>
    rw [hrow] at hcut
    exact hnil hcut
  | some w =>
    rw [hrow] at hcut
    dsimp only at hcut
    cases hown : requireOwnership levels s.files w with
    | error e =>
      rw [hown] at hcut
      exact hnil hcut
    | ok u =>
      rw [hown] at hcut
      dsimp only at hcut
      cases git with
      | error e => exact hnil hcut
      | ok sha =>
        cases sha with
        | none => exact hnil hcut
        | some sha =>
          rcases (@List.prefix_concat_iff _ _ [] _).1 hcut with rfl | hcut
          · exact h.update hrow rfl rfl rfl fun _ _ => requireOwnership_ok hown
          · exact hnil hcut

theorem inv_release (h : Inv levels s) (i : WorktreeId) (status : WorktreeStatus) (now : Time)
    (removes : Rmtree) {cut : Option ℕ}
    (hapart : keepsApart levels s (.release i status now removes) cut = true) {effects : List Effect}
    (hcut : effects <+: (releaseWorktree s i status now removes).2) : Inv levels (s.after effects) := by
  unfold keepsApart at hapart
  dsimp only at hapart
  unfold releaseWorktree at hcut
  cases hrow : s.view[i]? with
  | none =>
    rw [hrow] at hcut
    rw [List.prefix_nil.1 hcut]
    exact h
  | some w =>
    rw [hrow] at hcut hapart
    dsimp only at hcut hapart
    by_cases hactive : status = .active
    · rw [if_pos hactive] at hcut
      rw [List.prefix_nil.1 hcut]
      exact h
    rw [if_neg hactive] at hcut
    cases effects with
    | nil => exact h
    | cons e effects =>
      obtain ⟨rfl, hrest⟩ := List.cons_prefix_cons.1 hcut
      let released : TaskWorktree := { w with status, releasedAt := some now }
      have hreleased : Inv levels (Effect.apply s (.update i released)) :=
        h.update hrow rfl rfl rfl fun hst => absurd hst hactive
      have hfree : ¬ occupied (s.view.set i released) w.path = true := by
        intro hocc
        obtain ⟨v, hv, hst, hpath⟩ := occupied_iff.1 hocc
        rcases mem_set_cases hv with rfl | ⟨j, hne, hj⟩
        · exact hactive hst
        · have hv' : v ∈ s.view.eraseIdx i := List.mem_eraseIdx_iff_getElem?.2 ⟨j, hne, hj⟩
          exact of_decide_eq_true hapart (occupied_iff.2 ⟨v, hv', hst, hpath⟩)
      exact (hreleased.onlyFiles hfree (OnlyFiles.of_prefix hrest (OnlyFiles.removes removes _))).1

/-- the writes of a call, as far as they are made -/
theorem inv_call (h : Inv levels s) (c : Call) (cut : Option ℕ) (hapart : keepsApart levels s c cut = true)
    {effects : List Effect} (hcut : effects = (cut.elim (c.effects levels s) fun k =>
      (c.effects levels s).take k)) : Inv levels (s.after effects) := by
  have hcutOff : effects <+: c.effects levels s := by
    rw [hcut]
    cases cut with
    | none => exact List.prefix_rfl
    | some k => exact List.take_prefix k _
  cases c with
  | create a => exact inv_create h a (of_decide_eq_true hapart) hcutOff
  | commitChanges i git => exact inv_commitChanges h i git hcutOff
  | release i status now removes => exact inv_release h i status now removes hapart hcutOff
  | rebind i a =>
    rcases inv_rebind h i a hapart with hnil | ⟨hwhole, hinv⟩
    · have hnone : effects <+: [] := hnil ▸ hcutOff
      rw [List.prefix_nil.1 hnone]
      exact h
    · rcases hwhole with rfl | rfl
      · rw [hcut]
        exact hinv
      · rw [hcut]
        exact h

/-- an orderly operation keeps the two stores together -/
theorem Inv.step (h : Inv levels s) (op : Op) (hop : orderly levels s op = true) :
    Inv levels (step levels s op) := by
  cases op with
  | call c cut =>
    cases cut with
    | none => exact inv_call h c none hop rfl
    | some k =>
      obtain ⟨hapart, hsettled⟩ := of_decide_eq_true hop
      exact (inv_call h c (some k) hapart rfl).rollback hsettled
  | commit => exact ⟨h.bound, h.jobs, h.jobs, fun i w hw => ⟨w, hw, rfl, rfl⟩⟩
  | rollback => exact h.rollback hop
  | replaced =>
    exact ⟨fun w hw hactive hthere => (nomatch hthere), h.committedJobs, h.committedJobs,
      fun i w hw => ⟨w, hw, rfl, rfl⟩⟩

variable (levels) in
/-- **In every orderly run the active worktrees that are there verify, after every crash; the check
accepts only a marker that names the row, and answers exactly where the marker is UTF-8 and no JSON or
a JSON object.** -/
theorem ownership_bound :
    (∀ (s : Sys) (ops : List Op), s.rows = [] → s.session = none →
      Run.Meets (step levels) (fun s op => orderly levels s op = true) s ops →
      Run.Always (step levels) (Bound levels) s ops) ∧
    (∀ (files : Files) (w : TaskWorktree), verifyWorktreeOwnership levels files w = .ok true →
      Names levels files w) ∧
    (∀ (files : Files) (w : TaskWorktree) (bytes : ByteArray), files w.path = some ⟨some bytes⟩ →
      ((verifyWorktreeOwnership levels files w).isOk = true ↔ answers levels bytes = true)) := by
  refine ⟨fun s ops hrows hsession hmeets => ?_, fun files w h => names_of_verify h,
    fun files w bytes hmarker => ?_⟩
  · have hview : s.view = [] := by
      unfold Sys.view
      rw [hsession, hrows]
      rfl
    have hstart : Inv levels s := by
      refine ⟨fun w hw => ?_, ?_, ?_, fun i w hw => ?_⟩
      · rw [hview] at hw
        exact absurd hw List.not_mem_nil
      · rw [hview]
        exact List.nodup_nil
      · rw [hrows]
        exact List.nodup_nil
      · rw [hrows] at hw
        exact nomatch hw
    exact Run.always (I := Inv levels) (fun s h => h.law) (fun s op h hop => h.step op hop) hstart hmeets
  · have hverify : verifyWorktreeOwnership levels files w = verifyMarker levels w bytes := by
      unfold verifyWorktreeOwnership
      rw [hmarker]
      rfl
    rw [hverify, verifyMarker_isOk]

/-! ## a takeover -/

/-- the worktree of the first job -/
def createdWorktree : Op := .call (.create
  { taskId := "task", ownerId := 1, jobId := "a", leaseGeneration := 1, executorId := "worker"
    repo := "lifeai", baseSha := "5ca1", markerToken := "aa11", createdAt := 0, stamp := "T00" }) none

/-- the takeover binds it to the second one -/
def reboundWorktree : Op := .call (.rebind 0
  { newJobId := "b", newLeaseGeneration := 1, markerToken := "bb22", stamp := "T01" }) none

theorem ownership_bound_taken_over :
    Run.Always (step 0) (Bound 0) {} [createdWorktree, .commit, reboundWorktree, .commit] :=
  (ownership_bound 0).1 {} _ rfl rfl (by decide)

/-- Where the takeover raises after the marker is written, the row is rolled back and the marker is
not. -/
theorem rolled_back_rebind_unverified :
    ¬ ∀ levels, (∀ (s : Sys) (ops : List Op), s.rows = [] → s.session = none →
        Run.Always (step levels) (Bound levels) s ops) ∧
      (∀ (files : Files) (w : TaskWorktree), verifyWorktreeOwnership levels files w = .ok true →
        Names levels files w) ∧
      (∀ (files : Files) (w : TaskWorktree), (verifyWorktreeOwnership levels files w).isOk = true) := by
  intro h
  let found := Run.run (step 0) {} [createdWorktree, .commit, reboundWorktree, .rollback]
  have hbound : Bound 0 found :=
    ((h 0).1 {} [createdWorktree, .commit, reboundWorktree, .rollback] rfl rfl).run
  have hclosed : found.session = none := by decide
  have hall : (found.rows.all fun w => w.status = .active → (found.files w.path).isSome = true →
      verifyWorktreeOwnership 0 found.files w = .ok true) = true :=
    List.all_eq_true.2 fun w hw => decide_eq_true (hbound hclosed w hw)
  exact absurd hall (by decide)

end LifeAI.Worktree
