import LifeAI.Links.Model
import Mathlib.Data.List.Nodup

/-!
# Links that are used once

* `OneTime`      a link is used once, an account has one unused link of a kind, and a superseded
                 link is not used;
* `Undisturbed`  what a commit asks for: nobody has come between since the link was read, or since
                 the UPDATE began;
* `Kept`         the invariant of the runs whose commits are undisturbed;
* `oneTime_iff`  these are exactly the runs on which `OneTime` always holds.
-/

namespace LifeAI.Links

/-- no link is used twice, no account has two unused links of a kind, no link is used after a newer
one of its account and kind has been issued -/
structure OneTime (db : Db) : Prop where
  once : (db.log.filterMap Commit.link?).Nodup
  single : ∀ kind user t t', db.unused kind user t → db.unused kind user t' → t = t'
  superseded : db.log.Pairwise fun c d => ∀ kind user t t', c = .issued kind user t' →
    d = .used kind user t → t' ≤ t

/-- when a request uses a link, no other one has used or issued a link of the account and kind since
it read its link; when it issues one, no link that another request has issued since its UPDATE began
is still unused -/
def Stage.Undisturbed (db : Db) : Stage → Prop
  | .taking kind _ _ user since => ∀ c ∈ db.log.drop since, ¬ c.about kind user
  | .issuing kind user _ _ since _ =>
    ∀ t, .issued kind user t ∈ db.log.drop since → ¬ db.unused kind user t
  | _ => True

/-- a step that need not wait finds its request undisturbed -/
def Op.Undisturbed (s : Sys) : Op → Prop
  | .step i => ∀ st, s.stage i = some st → ¬ s.waits i st → st.Undisturbed s.db
  | _ => True

variable {settings : Settings} {db db' : Db} {st : Stage} {kind k : Kind} {user u : UserId}
  {t t' : LinkId} {since : Nat}

/-- a link of the kind and the account -/
def Db.has (db : Db) (kind : Kind) (user : UserId) (t : LinkId) : Prop :=
  ∃ l, db.links[t]? = some l ∧ l.kind = kind ∧ l.userId = user

theorem unused_iff : db.unused kind user t ↔
    ∃ l, db.links[t]? = some l ∧ l.kind = kind ∧ l.userId = user ∧ l.usedAt = none := by
  unfold Db.unused
  rw [Option.any_eq_true]
  refine exists_congr fun l => and_congr_right fun _ => ?_
  exact decide_eq_true_iff

theorem Db.has_of_unused (h : db.unused kind user t) : db.has kind user t := by
  obtain ⟨l, hl, hk, hu, -⟩ := unused_iff.1 h
  exact ⟨l, hl, hk, hu⟩

theorem Db.has.lt (h : db.has kind user t) : t < db.links.length := by
  obtain ⟨l, hl, -⟩ := h
  exact (List.getElem?_eq_some_iff.1 hl).1

theorem Db.has.inj (h : db.has kind user t) (h' : db.has k u t) : kind = k ∧ user = u := by
  obtain ⟨l, hl, rfl, rfl⟩ := h
  obtain ⟨l', hl', rfl, rfl⟩ := h'
  rw [hl] at hl'
  cases hl'
  exact ⟨rfl, rfl⟩

/-! ## the invariant -/

/-- what the runs keep of the rows and the history -/
structure Kept (db : Db) : Prop where
  oneTime : OneTime db
  /-- every link has been issued -/
  issued : ∀ kind user t, .issued kind user t ∈ db.log ↔ db.has kind user t
  used : ∀ kind user t, .used kind user t ∈ db.log → db.has kind user t ∧ ¬ db.unused kind user t
  /-- only the newest link can be unused -/
  newest : ∀ kind user t t', db.has kind user t → db.has kind user t' → t < t' →
    ¬ db.unused kind user t

/-- what a request that has read a link knows, by the commits since -/
structure Read (db : Db) (kind : Kind) (user : UserId) (t : LinkId) (since : Nat) : Prop where
  before : since ≤ db.log.length
  has : db.has kind user t
  older : ∀ t', .issued kind user t' ∈ db.log.drop since → t < t'
  newest : (∀ t', .issued kind user t' ∉ db.log.drop since) → ∀ t', db.has kind user t' → t' ≤ t
  again : (∀ t', .issued kind user t' ∉ db.log.drop since) →
    (∃ t', .used kind user t' ∈ db.log.drop since) → .used kind user t ∈ db.log
  unused : (∀ c ∈ db.log.drop since, ¬ c.about kind user) → db.unused kind user t

/-- what a request knows whose UPDATE has found `rows` -/
structure Found (db : Db) (kind : Kind) (user : UserId) (rows : List LinkId) (since : Nat) :
    Prop where
  before : since ≤ db.log.length
  has : ∀ t ∈ rows, db.has kind user t
  old : ∀ t ∈ rows, .issued kind user t ∉ db.log.drop since
  all : ∀ t, db.unused kind user t → t ∈ rows ∨ .issued kind user t ∈ db.log.drop since

/-- what a request knows -/
def Stage.Knows (db : Db) : Stage → Prop
  | .loading kind t _ user since | .taking kind t _ user since => Read db kind user t since
  | .locking kind user _ rows since | .issuing kind user _ rows since _ =>
    Found db kind user rows since
  | _ => True

/-! ## what a commit changes -/

/-- the rows after the links have changed: a commit `c`, and what it has done to the links -/
structure Commits (db db' : Db) (c : Commit) : Prop where
  log : db'.log = db.log ++ [c]
  has : ∀ kind user t, db'.has kind user t ↔ db.has kind user t ∨ c = .issued kind user t
  unused : ∀ kind user t, db'.unused kind user t → db.unused kind user t ∨ c = .issued kind user t
  other : ∀ kind user t, db.unused kind user t → ¬ c.about kind user → db'.unused kind user t
  fresh : ∀ kind user t, c = .issued kind user t → t = db.links.length

theorem drop_commits {c d : Commit} (h : Commits db db' c) (hs : since ≤ db.log.length) :
    d ∈ db'.log.drop since ↔ d ∈ db.log.drop since ∨ d = c := by
  rw [h.log, List.drop_append_of_le_length hs, List.mem_append, List.mem_singleton]

theorem Read.commits {c : Commit} (h : Commits db db' c) (hdb : Kept db)
    (hr : Read db kind user t since) (hfresh : ∀ t', c = .used kind user t' →
      db.unused kind user t') : Read db' kind user t since where
  before := by
    rw [h.log, List.length_append]
    exact Nat.le_add_right_of_le hr.before
  has := (h.has ..).2 (.inl hr.has)
  older := fun t' ht' => by
    rcases (drop_commits h hr.before).1 ht' with ht' | ht'
    · exact hr.older t' ht'
    · rw [h.fresh _ _ _ ht'.symm]
      exact hr.has.lt
  newest := fun hno t' ht' => by
    rcases (h.has ..).1 ht' with ht' | ht'
    · exact hr.newest (fun x hx => hno x ((drop_commits h hr.before).2 (.inl hx))) t' ht'
    · exact absurd ((drop_commits h hr.before).2 (.inr ht'.symm)) (hno t')
  again := fun hno hused => by
    have hno' : ∀ t', .issued kind user t' ∉ db.log.drop since :=
      fun x hx => hno x ((drop_commits h hr.before).2 (.inl hx))
    rw [h.log]
    obtain ⟨t', ht'⟩ := hused
    rcases (drop_commits h hr.before).1 ht' with ht' | ht'
    · exact List.mem_append_left _ (hr.again hno' ⟨t', ht'⟩)
    · have hopen := hfresh t' ht'.symm
      have hle := hr.newest hno' t' (Db.has_of_unused hopen)
      have heq : t' = t := by
        by_contra hne
        have hlt : t' < t := Nat.lt_of_le_of_ne hle hne
        exact hdb.newest kind user t' t (Db.has_of_unused hopen) hr.has hlt hopen
      rw [← ht', heq]
      exact List.mem_append_right _ (List.mem_singleton_self _)
  unused := fun hno => by
    have hopen := hr.unused fun d hd => hno d ((drop_commits h hr.before).2 (.inl hd))
    exact h.other _ _ _ hopen (hno c ((drop_commits h hr.before).2 (.inr rfl)))

theorem Found.commits {c : Commit} {rows : List LinkId} (h : Commits db db' c)
    (hf : Found db kind user rows since) : Found db' kind user rows since where
  before := by
    rw [h.log, List.length_append]
    exact Nat.le_add_right_of_le hf.before
  has := fun t ht => (h.has ..).2 (.inl (hf.has t ht))
  old := fun t ht hissued => by
    rcases (drop_commits h hf.before).1 hissued with hissued | hissued
    · exact hf.old t ht hissued
    · have hlt := (hf.has t ht).lt
      rw [h.fresh _ _ _ hissued.symm] at hlt
      exact Nat.lt_irrefl _ hlt
  all := fun t ht => by
    rcases h.unused _ _ _ ht with ht | ht
    · rcases hf.all t ht with hrow | hissued
      · exact .inl hrow
      · exact .inr ((drop_commits h hf.before).2 (.inl hissued))
    · exact .inr ((drop_commits h hf.before).2 (.inr ht.symm))

/-- a commit that sets the time of use of rows that it is about, and appends what it issues -/
theorem Commits.of_rows {c : Commit} (hlog : db'.log = db.log ++ [c])
    (hold : ∀ (t : LinkId) (l : Link), db.links[t]? = some l → ∃ l', db'.links[t]? = some l' ∧
      l'.kind = l.kind ∧ l'.userId = l.userId ∧
        (l' = l ∨ l'.usedAt ≠ none ∧ c.about l.kind l.userId))
    (hnew : ∀ (t : LinkId) (l' : Link), db'.links[t]? = some l' →
      t < db.links.length ∨ c = .issued l'.kind l'.userId t)
    (hissued : ∀ k u t, c = .issued k u t → t = db.links.length ∧ db'.has k u t) :
    Commits db db' c where
  log := hlog
  has := fun k u t => by
    constructor
    · rintro ⟨l', hl', rfl, rfl⟩
      rcases hnew t l' hl' with hlt | hc
      · obtain ⟨l₁, hl₁, hk, hu, -⟩ := hold t _ (List.getElem?_eq_getElem hlt)
        rw [hl₁] at hl'
        cases hl'
        exact .inl ⟨_, List.getElem?_eq_getElem hlt, hk.symm, hu.symm⟩
      · exact .inr hc
    · rintro (⟨l, hl, rfl, rfl⟩ | hc)
      · obtain ⟨l', hl', hk, hu, -⟩ := hold t l hl
        exact ⟨l', hl', hk, hu⟩
      · exact (hissued k u t hc).2
  unused := fun k u t ht => by
    obtain ⟨l', hl', rfl, rfl, hopen⟩ := unused_iff.1 ht
    rcases hnew t l' hl' with hlt | hc
    · obtain ⟨l₁, hl₁, hk, hu, hsame⟩ := hold t _ (List.getElem?_eq_getElem hlt)
      rw [hl₁] at hl'
      cases hl'
      rcases hsame with hsame | ⟨hset, -⟩
      · exact .inl (unused_iff.2 ⟨_, List.getElem?_eq_getElem hlt, hk.symm, hu.symm, hsame ▸ hopen⟩)
      · exact absurd hopen hset
    · exact .inr hc
  other := fun k u t ht hother => by
    obtain ⟨l, hl, rfl, rfl, hopen⟩ := unused_iff.1 ht
    obtain ⟨l', hl', hk, hu, hsame⟩ := hold t l hl
    rcases hsame with rfl | ⟨-, hset⟩
    · exact unused_iff.2 ⟨_, hl', rfl, rfl, hopen⟩
    · exact absurd hset hother
  fresh := fun k u t hc => (hissued k u t hc).1

/-- the use of a link that is there -/
theorem taking_commits {token : LinkId} {password : String} (h : db.has kind user token) :
    Commits db ((Stage.taking kind token password user since).next settings db).1
      (.used kind user token) := by
  refine .of_rows rfl (fun t l hl => ?_) (fun t l' hl' => ?_) nofun
  · have hrow : ((Stage.taking kind token password user since).next settings db).1.links[t]? =
        some (if token = t then { l with usedAt := some db.clock } else l) := by
      show (db.links.modify token fun l => { l with usedAt := some db.clock })[t]? = _
      rw [List.getElem?_modify, hl]
      rfl
    rw [hrow]
    split_ifs with heq
    · subst heq
      exact ⟨_, rfl, rfl, rfl, .inr ⟨nofun, h.inj ⟨l, hl, rfl, rfl⟩⟩⟩
    · exact ⟨_, rfl, rfl, rfl, .inl rfl⟩
  · left
    have hlt : t < (db.links.modify token fun l => { l with usedAt := some db.clock }).length :=
      (List.getElem?_eq_some_iff.1 hl').1
    rwa [List.length_modify] at hlt

/-- a new link, when the rows that are set are of the kind and the account -/
theorem issuing_commits {rows : List LinkId} {usedAt expiresAt : Time}
    (h : ∀ t ∈ rows, db.has kind user t) :
    Commits db ((Stage.issuing kind user usedAt rows since expiresAt).next settings db).1
      (.issued kind user db.links.length) := by
  have hend : ((Stage.issuing kind user usedAt rows since expiresAt).next settings
      db).1.links[db.links.length]? = some { kind, userId := user, expiresAt } := by
    show (db.links.mapIdx _ ++ [_])[db.links.length]? = _
    rw [List.getElem?_append_right (Nat.le_of_eq List.length_mapIdx), List.length_mapIdx,
      Nat.sub_self]
    rfl
  refine .of_rows rfl (fun t l hl => ?_) (fun t l' hl' => ?_) fun k u t hc => ?_
  · have hrow : ((Stage.issuing kind user usedAt rows since expiresAt).next settings
        db).1.links[t]? = some (if t ∈ rows then { l with usedAt := some usedAt } else l) := by
      show (db.links.mapIdx _ ++ [_])[t]? = _
      have hlt : t < db.links.length := (List.getElem?_eq_some_iff.1 hl).1
      rw [List.getElem?_append_left (by rwa [List.length_mapIdx]), List.getElem?_mapIdx, hl]
      rfl
    rw [hrow]
    split_ifs with hmem
    · exact ⟨_, rfl, rfl, rfl, .inr ⟨nofun, (h t hmem).inj ⟨l, hl, rfl, rfl⟩⟩⟩
    · exact ⟨_, rfl, rfl, rfl, .inl rfl⟩
  · by_cases hlt : t < db.links.length
    · exact .inl hlt
    · right
      have hle : t < (db.links.mapIdx fun t l =>
          if t ∈ rows then { l with usedAt := some usedAt } else l).length + 1 := by
        have := (List.getElem?_eq_some_iff.1 hl').1
        rwa [show ((Stage.issuing kind user usedAt rows since expiresAt).next settings db).1.links =
          _ ++ [_] from rfl, List.length_append] at this
      rw [List.length_mapIdx] at hle
      obtain rfl : t = db.links.length := Nat.le_antisymm (Nat.le_of_lt_succ hle) (Nat.not_lt.1 hlt)
      rw [hend] at hl'
      cases hl'
      rfl
  · cases hc
    exact ⟨rfl, _, hend, rfl, rfl⟩

/-! ## the two commits -/

section

variable {token : LinkId} {password : String} {rows : List LinkId} {usedAt expiresAt : Time}

theorem not_unused_taking (h : db.has kind user token) :
    ¬ ((Stage.taking kind token password user since).next settings db).1.unused
      kind user token := by
  intro ht
  obtain ⟨l, hl, rfl, rfl⟩ := h
  obtain ⟨l', hl', -, -, hopen⟩ := unused_iff.1 ht
  have hrow : (db.links.modify token fun l => { l with usedAt := some db.clock })[token]? =
    some l' := hl'
  rw [List.getElem?_modify_eq, hl] at hrow
  cases hrow
  cases hopen

theorem not_unused_issuing (ht : t ∈ rows) (hlt : t < db.links.length) :
    ¬ ((Stage.issuing kind user usedAt rows since expiresAt).next settings db).1.unused
      kind user t := by
  intro hunused
  obtain ⟨l', hl', -, -, hopen⟩ := unused_iff.1 hunused
  have hrow : (db.links.mapIdx (fun t l => if t ∈ rows then { l with usedAt := some usedAt } else l)
    ++ [{ kind, userId := user, expiresAt }])[t]? = some l' := hl'
  rw [List.getElem?_append_left (by rwa [List.length_mapIdx]), List.getElem?_mapIdx,
    List.getElem?_eq_getElem hlt, Option.map_some, if_pos ht] at hrow
  cases hrow
  cases hopen

/-- a commit that uses an unused link, or leaves only the new link unused -/
theorem Kept.commits {c : Commit} (h : Kept db) (hc : Commits db db' c)
    (hused : ∀ k u t, c = .used k u t → db.unused k u t ∧ ¬ db'.unused k u t)
    (hissued : ∀ k u t, c = .issued k u t → ∀ t', db.unused k u t' → ¬ db'.unused k u t') :
    Kept db' := by
  have hlog : ∀ d, d ∈ db'.log ↔ d ∈ db.log ∨ d = c := by
    intro d
    rw [hc.log, List.mem_append, List.mem_singleton]
  refine ⟨⟨?_, fun k u t t' ht ht' => ?_, ?_⟩, fun k u t => ?_, fun k u t ht => ?_,
    fun k u t t' ht ht' hlt hopen => ?_⟩
  · rw [hc.log, List.filterMap_append]
    refine List.nodup_append.2 ⟨h.oneTime.once, ?_, ?_⟩
    · cases c with
      | issued => exact List.nodup_nil
      | used => exact List.nodup_singleton _
    · intro t ht t' ht' heq
      subst heq
      obtain ⟨d, hd, hdt⟩ := List.mem_filterMap.1 ht
      obtain ⟨c', hc', hct⟩ := List.mem_filterMap.1 ht'
      obtain rfl := List.mem_singleton.1 hc'
      cases c' with
      | issued => cases hct
      | used k u x =>
        cases hct
        cases d with
        | issued => cases hdt
        | used k' u' y =>
          cases hdt
          obtain ⟨hhas, hnot⟩ := h.used k' u' t hd
          have hopen := (hused k u t rfl).1
          obtain ⟨rfl, rfl⟩ := hhas.inj (Db.has_of_unused hopen)
          exact hnot hopen
  · rcases hc.unused k u t ht with hold | hnew
    · rcases hc.unused k u t' ht' with hold' | hnew'
      · exact h.oneTime.single k u t t' hold hold'
      · exact absurd ht (hissued k u t' hnew' t hold)
    · rcases hc.unused k u t' ht' with hold' | hnew'
      · exact absurd ht' (hissued k u t hnew t' hold')
      · rw [hc.fresh k u t hnew, hc.fresh k u t' hnew']
  · rw [hc.log]
    refine List.pairwise_append.2 ⟨h.oneTime.superseded, List.pairwise_singleton _ _, ?_⟩
    intro d hd c' hc' k u t t' hdt hct
    obtain rfl := List.mem_singleton.1 hc'
    by_contra hlt
    have hopen := (hused k u t hct).1
    have hhas := (h.issued k u t').1 (hdt ▸ hd)
    exact h.newest k u t t' (Db.has_of_unused hopen) hhas (Nat.not_le.1 hlt) hopen
  · rw [hlog, h.issued, hc.has]
    exact or_congr_right eq_comm
  · rcases (hlog _).1 ht with ht | rfl
    · obtain ⟨hhas, hnot⟩ := h.used k u t ht
      refine ⟨(hc.has k u t).2 (.inl hhas), fun hopen => ?_⟩
      rcases hc.unused k u t hopen with hold | hnew
      · exact hnot hold
      · have hlt := hhas.lt
        rw [hc.fresh k u t hnew] at hlt
        exact Nat.lt_irrefl _ hlt
    · obtain ⟨hopen, hnot⟩ := hused k u t rfl
      exact ⟨(hc.has k u t).2 (.inl (Db.has_of_unused hopen)), hnot⟩
  · rcases hc.unused k u t hopen with hold | hnew
    · rcases (hc.has k u t').1 ht' with hhas | hnew'
      · exact h.newest k u t t' (Db.has_of_unused hold) hhas hlt hold
      · exact hissued k u t' hnew' t hold hopen
    · rw [hc.fresh k u t hnew] at hlt
      rcases (hc.has k u t').1 ht' with hhas | hnew'
      · exact Nat.lt_asymm hhas.lt hlt
      · rw [hc.fresh k u t' hnew'] at hlt
        exact Nat.lt_irrefl _ hlt

/-- an undisturbed use -/
theorem Kept.use (h : Kept db) (hr : Read db kind user token since)
    (hfree : ∀ c ∈ db.log.drop since, ¬ c.about kind user) :
    Kept ((Stage.taking kind token password user since).next settings db).1 := by
  refine h.commits (taking_commits hr.has) (fun k u t ht => ?_) nofun
  cases ht
  exact ⟨hr.unused hfree, not_unused_taking hr.has⟩

/-- an undisturbed issue -/
theorem Kept.issue (h : Kept db) (hf : Found db kind user rows since)
    (hfree : ∀ t, .issued kind user t ∈ db.log.drop since → ¬ db.unused kind user t) :
    Kept ((Stage.issuing kind user usedAt rows since expiresAt).next settings db).1 := by
  refine h.commits (issuing_commits hf.has) nofun fun k u t ht t' hopen => ?_
  cases ht
  rcases hf.all t' hopen with hrow | hissued
  · exact not_unused_issuing hrow (Db.has_of_unused hopen).lt
  · exact absurd hopen (hfree t' hissued)

/-- after a disturbed use the links are not one-time any more -/
theorem undisturbed_of_use (hr : Read db kind user token since)
    (h : OneTime ((Stage.taking kind token password user since).next settings db).1) :
    ∀ c ∈ db.log.drop since, ¬ c.about kind user := by
  have hold : ∀ d ∈ db.log.drop since, d ∈ db.log := fun d hd => List.mem_of_mem_drop hd
  have hsuperseded := (List.pairwise_append.1 h.superseded).2.2
  have hno : ∀ t', .issued kind user t' ∉ db.log.drop since := by
    intro t' ht'
    have hle := hsuperseded _ (hold _ ht') _ (List.mem_singleton_self _) kind user token t' rfl rfl
    exact absurd (hr.older t' ht') (Nat.not_lt.2 hle)
  intro c hc habout
  cases c with
  | issued k u t =>
    obtain ⟨rfl, rfl⟩ := habout
    exact hno t hc
  | used k u t =>
    obtain ⟨rfl, rfl⟩ := habout
    have hagain := hr.again hno ⟨t, hc⟩
    have honce := h.once
    have hlog : ((Stage.taking k token password u since).next settings db).1.log =
        db.log ++ [.used k u token] := rfl
    rw [hlog, List.filterMap_append] at honce
    have hmem : token ∈ db.log.filterMap Commit.link? := List.mem_filterMap.2 ⟨_, hagain, rfl⟩
    exact (List.nodup_append.1 honce).2.2 token hmem token (List.mem_singleton_self _) rfl

/-- after a disturbed issue two links are unused -/
theorem undisturbed_of_issue (hf : Found db kind user rows since)
    (h : OneTime ((Stage.issuing kind user usedAt rows since expiresAt).next settings db).1) :
    ∀ t, .issued kind user t ∈ db.log.drop since → ¬ db.unused kind user t := by
  intro t ht hopen
  have hlt := (Db.has_of_unused hopen).lt
  have hnot : t ∉ rows := fun hrow => hf.old t hrow ht
  have hkept : ((Stage.issuing kind user usedAt rows since expiresAt).next settings
      db).1.unused kind user t := by
    obtain ⟨l, hl, hk, hu, hnone⟩ := unused_iff.1 hopen
    refine unused_iff.2 ⟨l, ?_, hk, hu, hnone⟩
    show (db.links.mapIdx _ ++ [_])[t]? = _
    rw [List.getElem?_append_left (by rwa [List.length_mapIdx]), List.getElem?_mapIdx, hl]
    exact congrArg some (if_neg hnot)
  have hnew : ((Stage.issuing kind user usedAt rows since expiresAt).next settings
      db).1.unused kind user db.links.length := by
    refine unused_iff.2 ⟨{ kind, userId := user, expiresAt }, ?_, rfl, rfl, rfl⟩
    show (db.links.mapIdx _ ++ [_])[db.links.length]? = _
    rw [List.getElem?_append_right (Nat.le_of_eq List.length_mapIdx), List.length_mapIdx,
      Nat.sub_self]
    rfl
  exact Nat.ne_of_lt hlt (h.single kind user t _ hkept hnew)

end

/-! ## the steps without a commit -/

theorem Kept.same (h : Kept db) (hlinks : db'.links = db.links) (hlog : db'.log = db.log) :
    Kept db' := by
  cases db
  cases db'
  cases hlinks
  cases hlog
  exact ⟨⟨h.oneTime.once, h.oneTime.single, h.oneTime.superseded⟩, h.issued, h.used, h.newest⟩

theorem Read.same (h : Read db kind user t since) (hlinks : db'.links = db.links)
    (hlog : db'.log = db.log) : Read db' kind user t since := by
  cases db
  cases db'
  cases hlinks
  cases hlog
  exact ⟨h.before, h.has, h.older, h.newest, h.again, h.unused⟩

theorem Found.same {rows : List LinkId} (h : Found db kind user rows since)
    (hlinks : db'.links = db.links) (hlog : db'.log = db.log) : Found db' kind user rows since := by
  cases db
  cases db'
  cases hlinks
  cases hlog
  exact ⟨h.before, h.has, h.old, h.all⟩

/-- what a request knows, is carried by what its link and its rows carry -/
theorem Stage.Knows.mono (h : st.Knows db)
    (hread : ∀ kind user t since, Read db kind user t since → Read db' kind user t since)
    (hfound : ∀ kind user rows since, Found db kind user rows since →
      Found db' kind user rows since) : st.Knows db' := by
  cases st with
  | loading | taking => exact hread _ _ _ _ h
  | locking | issuing => exact hfound _ _ _ _ h
  | _ => trivial

/-- a link that has been read unused -/
theorem check_knows (h : Kept db) {token : LinkId} {password : String} {q : Stage}
    (hq : Stage.check db kind token password = some q) : q.Knows db := by
  unfold Stage.check at hq
  cases hl : db.links[token]? with
  | none =>
    rw [hl] at hq
    cases hq
  | some row =>
    rw [hl] at hq
    dsimp only at hq
    split_ifs at hq with hbad
    cases hq
    have hkind : row.kind = kind := by
      by_contra hne
      exact hbad (.inl hne)
    have hopen : row.usedAt = none := by
      by_contra hne
      exact hbad (.inr (.inl hne))
    have hunused : db.unused kind row.userId token := unused_iff.2 ⟨row, hl, hkind, rfl, hopen⟩
    have hdrop : db.log.drop db.log.length = [] := List.drop_length
    refine ⟨Nat.le_refl _, ⟨row, hl, hkind, rfl⟩, fun t' ht' => ?_, fun _ t' ht' => ?_, ?_,
      fun _ => hunused⟩
    · rw [hdrop] at ht'
      cases ht'
    · by_contra hlt
      exact h.newest kind row.userId token t' (Db.has_of_unused hunused) ht' (Nat.not_le.1 hlt)
        hunused
    · intro _ hused
      obtain ⟨t', ht'⟩ := hused
      rw [hdrop] at ht'
      cases ht'

/-- the rows that the UPDATE finds -/
theorem found_superseding (db : Db) (kind : Kind) (user : UserId) : Found db kind user
    ((List.range db.links.length).filter (db.unused kind user)) db.log.length where
  before := Nat.le_refl _
  has := fun t ht => Db.has_of_unused (List.mem_filter.1 ht).2
  old := fun t _ hissued => by
    rw [List.drop_length] at hissued
    cases hissued
  all := fun t ht =>
    .inl (List.mem_filter.2 ⟨List.mem_range.2 (Db.has_of_unused ht).lt, ht⟩)

/-- the rows that it finds unused again -/
theorem Found.again {rows : List LinkId} (h : Found db kind user rows since) :
    Found db kind user (rows.filter (db.unused kind user)) since where
  before := h.before
  has := fun t ht => h.has t (List.mem_filter.1 ht).1
  old := fun t ht => h.old t (List.mem_filter.1 ht).1
  all := fun t ht => by
    rcases h.all t ht with hrow | hissued
    · exact .inl (List.mem_filter.2 ⟨hrow, ht⟩)
    · exact .inr hissued

/-- a step that is no commit of a link changes neither the links nor the history -/
theorem next_quiet (h : Kept db) (hst : st.Knows db)
    (htaking : ∀ kind t password user since, st ≠ .taking kind t password user since)
    (hissuing : ∀ kind user usedAt rows since expiresAt,
      st ≠ .issuing kind user usedAt rows since expiresAt) :
    (st.next settings db).1.links = db.links ∧ (st.next settings db).1.log = db.log ∧
      ∀ q, (st.next settings db).2 = some q → q.Knows db := by
  cases st with
  | taking => exact absurd rfl (htaking _ _ _ _ _)
  | issuing => exact absurd rfl (hissuing _ _ _ _ _ _)
  | superseding kind user =>
    refine ⟨rfl, rfl, fun q hq => ?_⟩
    cases hq
    exact found_superseding db kind user
  | locking kind user usedAt rows since =>
    refine ⟨rfl, rfl, fun q hq => ?_⟩
    cases hq
    exact hst.again
  | reading kind token password => exact ⟨rfl, rfl, fun q hq => check_knows h hq⟩
  | loading kind token password user since =>
    refine ⟨rfl, rfl, fun q hq => ?_⟩
    have hq' : Stage.checkUser settings db kind token password user since = some q := hq
    unfold Stage.checkUser at hq'
    cases hu : db.users[user]? with
    | none =>
      rw [hu] at hq'
      cases hq'
    | some row =>
      rw [hu] at hq'
      cases kind with
      | verification =>
        cases hq'
        exact hst
      | reset =>
        dsimp only at hq'
        split_ifs at hq'
        cases hq'
        exact hst
  | registering email password =>
    unfold Stage.next
    dsimp only
    cases db.users.findIdx? (·.email = email) with
    | none => exact ⟨rfl, rfl, fun q hq => by cases hq; trivial⟩
    | some user =>
      dsimp only
      split_ifs
      · exact ⟨rfl, rfl, nofun⟩
      · exact ⟨rfl, rfl, fun q hq => by cases hq; trivial⟩
  | resending email =>
    unfold Stage.next
    dsimp only
    cases db.users.findIdx? (·.email = email) with
    | none => exact ⟨rfl, rfl, nofun⟩
    | some user =>
      dsimp only
      split_ifs
      · exact ⟨rfl, rfl, nofun⟩
      · exact ⟨rfl, rfl, fun q hq => by cases hq; trivial⟩
  | forgetting email =>
    unfold Stage.next
    dsimp only
    cases db.users.findIdx? (·.email = email) with
    | none => exact ⟨rfl, rfl, nofun⟩
    | some user =>
      dsimp only
      split_ifs
      · exact ⟨rfl, rfl, fun q hq => by cases hq; trivial⟩
      · exact ⟨rfl, rfl, nofun⟩
  | creating email password =>
    unfold Stage.next
    dsimp only
    split_ifs
    · exact ⟨rfl, rfl, nofun⟩
    · exact ⟨rfl, rfl, fun q hq => by cases hq; trivial⟩

/-! ## runs -/

/-- the rows are kept, and what the requests know is true -/
structure Inv (s : Sys) : Prop where
  kept : Kept s.db
  knows : ∀ i st, s.stage i = some st → st.Knows s.db

theorem start_inv (users : List User) (clock : Time) : Inv (start users clock) where
  kept := by
    have hno : ∀ kind user t, ¬ (start users clock).db.has kind user t :=
      fun kind user t h => Nat.not_lt_zero t h.lt
    refine ⟨⟨List.nodup_nil, fun kind user t t' h => ?_, .nil⟩, fun kind user t => ?_, nofun,
      fun kind user t t' h => ?_⟩
    · exact absurd (Db.has_of_unused h) (hno kind user t)
    · exact iff_of_false List.not_mem_nil (hno kind user t)
    · exact absurd h (hno kind user t)
  knows := nofun

/-- the stages after one has been set, when what the others know stays true -/
theorem Inv.set {s : Sys} (h : Inv s) {db : Db} {i : Nat} {next : Option Stage} (hkept : Kept db)
    (hothers : ∀ st : Stage, st.Knows s.db → st.Knows db)
    (hnext : ∀ q, next = some q → q.Knows db) :
    Inv { db, requests := s.requests.set i next } where
  kept := hkept
  knows := fun j q hq => by
    unfold Sys.stage at hq
    rw [List.getElem?_set] at hq
    split_ifs at hq with hij hlt
    · exact hnext q hq
    · cases hq
    · exact hothers q (h.knows j q hq)

theorem first_knows (r : Request) (h : r.first settings = some st) : st.Knows db := by
  cases r with
  | register =>
    unfold Request.first at h
    dsimp only at h
    split_ifs at h
    cases h
    trivial
  | _ =>
    cases h
    trivial

theorem Inv.request {s : Sys} (h : Inv s) (r : Request) :
    Inv (Op.exec settings s (.request r)) where
  kept := h.kept
  knows := fun j q hq => by
    have hrow := Option.join_eq_some_iff.1 hq
    rcases getElem?_insert hrow with hold | ⟨-, hnew⟩
    · exact h.knows j q (Option.join_eq_some_iff.2 hold)
    · exact first_knows r hnew.symm

theorem Inv.crash {s : Sys} (h : Inv s) (i : Nat) : Inv (Op.exec settings s (.crash i)) :=
  h.set h.kept (fun _ hst => hst) nofun

theorem Inv.tick {s : Sys} (h : Inv s) (time : Time) : Inv (Op.exec settings s (.tick time)) where
  kept := h.kept.same rfl rfl
  knows := fun i st hst =>
    (h.knows i st hst).mono (fun _ _ _ _ hr => hr.same rfl rfl) fun _ _ _ _ hf => hf.same rfl rfl

/-- a step that need not wait -/
theorem exec_step {s : Sys} {i : Nat} (hst : s.stage i = some st) (hwaits : ¬ s.waits i st) :
    Op.exec settings s (.step i) =
      { db := (st.next settings s.db).1,
        requests := s.requests.set i (st.next settings s.db).2 } := by
  unfold Op.exec
  simp only [hst]
  exact if_neg hwaits

/-- a step that waits, or has no request to it -/
theorem exec_idle {s : Sys} {i : Nat} (h : ∀ st, s.stage i = some st → s.waits i st) :
    Op.exec settings s (.step i) = s := by
  unfold Op.exec
  cases hst : s.stage i with
  | none => simp only [hst]
  | some st =>
    simp only [hst]
    exact if_pos (h st hst)

/-- an undisturbed step -/
theorem Inv.step {s : Sys} (h : Inv s) {i : Nat} (hst : s.stage i = some st)
    (hfree : st.Undisturbed s.db) :
    Inv { db := (st.next settings s.db).1,
          requests := s.requests.set i (st.next settings s.db).2 } := by
  have hknows := h.knows i st hst
  cases st with
  | taking kind token password user since =>
    refine h.set (h.kept.use hknows hfree) (fun q hq => ?_) nofun
    have hopen := hknows.unused hfree
    refine hq.mono
      (fun k u t n hr => hr.commits (taking_commits hknows.has) h.kept fun t' ht' => ?_)
      fun k u rows n hf => hf.commits (taking_commits hknows.has)
    cases ht'
    exact hopen
  | issuing kind user usedAt rows since expiresAt =>
    refine h.set (h.kept.issue hknows hfree) (fun q hq => ?_) nofun
    exact hq.mono (fun k u t n hr => hr.commits (issuing_commits hknows.has) h.kept nofun)
      fun k u rows n hf => hf.commits (issuing_commits hknows.has)
  | _ =>
    obtain ⟨hlinks, hlog, hnext⟩ := @next_quiet settings _ _ h.kept hknows nofun nofun
    refine h.set (h.kept.same hlinks hlog) (fun q hq => ?_) fun q hq => ?_
    · exact hq.mono (fun _ _ _ _ hr => hr.same hlinks hlog) fun _ _ _ _ hf => hf.same hlinks hlog
    · have hq' := hnext q hq
      exact hq'.mono (fun _ _ _ _ hr => hr.same hlinks hlog) fun _ _ _ _ hf => hf.same hlinks hlog

theorem Inv.exec {s : Sys} {o : Op} (h : Inv s) (hfree : o.Undisturbed s) :
    Inv (o.exec settings s) := by
  cases o with
  | request r => exact h.request r
  | crash i => exact h.crash i
  | tick time => exact h.tick time
  | step i =>
    by_cases hidle : ∀ st, s.stage i = some st → s.waits i st
    · rwa [exec_idle hidle]
    · simp only [not_forall] at hidle
      obtain ⟨st, hst, hwaits⟩ := hidle
      rw [exec_step hst hwaits]
      exact h.step hst (hfree st hst hwaits)

/-- a step that leaves the links one-time is undisturbed -/
theorem Inv.undisturbed {s : Sys} {o : Op} (h : Inv s) (hone : OneTime (o.exec settings s).db) :
    o.Undisturbed s := by
  cases o with
  | request | crash | tick => trivial
  | step i =>
    intro st hst hwaits
    rw [exec_step hst hwaits] at hone
    have hdb : OneTime (st.next settings s.db).1 := hone
    have hknows := h.knows i st hst
    cases st with
    | taking => exact undisturbed_of_use hknows hdb
    | issuing => exact undisturbed_of_issue hknows hdb
    | _ => trivial

/-- The links are one-time in every state of a run exactly when no request that uses or issues a
link has been disturbed. -/
theorem oneTime_iff (settings : Settings) (users : List User) (clock : Time) (os : List Op) :
    Run.Always (Op.exec settings) (fun s => OneTime s.db) (start users clock) os ↔
      Run.Meets (Op.exec settings) (fun s o => o.Undisturbed s) (start users clock) os :=
  Run.always_iff_meets (fun _ h => h.kept.oneTime) (fun _ _ h => h.undisturbed)
    (fun _ _ h => h.exec) (start_inv users clock) os

/-- two requests with one reset link: both read it unused, and both set the password -/
theorem reset_twice :
    ¬ Run.Always (Op.exec {
        emailVerificationTokenExpire := 86400
        passwordResetTokenExpire := 3600
        validatePassword := fun _ _ => true }) (fun s => OneTime s.db)
      (start [{ email := "a@b.se", password := "old" }] 0)
      [.request (.forgotPassword "a@b.se"), .step 0, .step 0, .step 0, .step 0,
       .request (.resetPassword 0 "new"), .request (.resetPassword 0 "other"),
       .step 1, .step 2, .step 1, .step 2, .step 1, .step 2] :=
  fun h => absurd h.run.once (by decide)

end LifeAI.Links
