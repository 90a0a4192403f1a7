import Mathlib.Data.List.Infix
import Mathlib.Data.List.Nodup
import Mathlib.Data.List.Perm.Subperm

/-!
# Paths through symbolic links

A place is the list of names that lead to it from the top; some places are links, and a link holds
a path of its own.

* `Leads`  the paths that lead somewhere, with the number of links crossed;
* `walk`   resolution of a path, which gives up at a link inside of its own resolution;
* `walk_eq_some_iff`  it resolves exactly the paths that lead somewhere;
* `Plain`  no link lies on the way; a resolved place is plain, and leads to itself.
-/

namespace Links

variable {α : Type*}

/-- one component of a path -/
inductive Move (α : Type*) where
  | stay
  | up
  | down (a : α)
  deriving DecidableEq

/-- what a link holds: a path, from the top or from the directory that the link stands in -/
structure Target (α : Type*) where
  absolute : Bool
  moves : List (Move α)

def Target.base (t : Target α) (p : List α) : List α := if t.absolute then [] else p

variable (link : List α → Option (Target α))

/-- `Leads link n p ms q`: from the place `p` the path `ms` leads to `q`, over `n` links -/
inductive Leads : ℕ → List α → List (Move α) → List α → Prop
  | nil (p : List α) : Leads 0 p [] p
  | stay {n p ms q} : Leads n p ms q → Leads n p (.stay :: ms) q
  | up {n p ms q} : Leads n p.dropLast ms q → Leads n p (.up :: ms) q
  | down {n p a ms q} : link (p ++ [a]) = none → Leads n (p ++ [a]) ms q →
      Leads n p (.down a :: ms) q
  | link {k n p a t m ms q} : link (p ++ [a]) = some t → Leads k (t.base p) t.moves m →
      Leads n m ms q → Leads (k + n + 1) p (.down a :: ms) q

variable {link} {k n d : ℕ} {p q m : List α} {ms : List (Move α)} {t : Target α}

theorem Leads.unique (h : Leads link n p ms q) :
    ∀ {n' q'}, Leads link n' p ms q' → n = n' ∧ q = q' := by
  induction h with
  | nil p =>
    intro n' q' h'
    cases h'
    exact ⟨rfl, rfl⟩
  | stay _ ih =>
    intro n' q' h'
    cases h' with
    | stay h' => exact ih h'
  | up _ ih =>
    intro n' q' h'
    cases h' with
    | up h' => exact ih h'
  | down hl _ ih =>
    intro n' q' h'
    cases h' with
    | down _ h' => exact ih h'
    | link hl' _ _ => exact absurd (hl.symm.trans hl') (by simp)
  | link hl _ _ ih1 ih2 =>
    intro n' q' h'
    cases h' with
    | down hl' _ => exact absurd (hl'.symm.trans hl) (by simp)
    | link hl' h1 h2 =>
      obtain rfl := Option.some.inj (hl.symm.trans hl')
      obtain ⟨rfl, rfl⟩ := ih1 h1
      obtain ⟨rfl, rfl⟩ := ih2 h2
      exact ⟨rfl, rfl⟩

/-! ## resolution -/

/-- a path walked from `p`; `follow` resolves a link -/
def along (link : List α → Option (Target α)) (follow : List α → Target α → Option (List α)) :
    List α → List (Move α) → Option (List α)
  | p, [] => some p
  | p, .stay :: ms => along link follow p ms
  | p, .up :: ms => along link follow p.dropLast ms
  | p, .down a :: ms =>
    match link (p ++ [a]) with
    | none => along link follow (p ++ [a]) ms
    | some t => (follow (p ++ [a]) t).bind fun m => along link follow m ms

/-- a path resolved from `p` while the links `active` are being resolved, with links inside links
to the depth `d` -/
def walk [DecidableEq α] (link : List α → Option (Target α)) :
    ℕ → List (List α) → List α → List (Move α) → Option (List α)
  | 0, _, _, _ => none
  | d + 1, active, p, ms =>
    along link (fun l t =>
      if l ∈ active then none else walk link d (l :: active) (t.base l.dropLast) t.moves) p ms

theorem leads_of_along {follow : List α → Target α → Option (List α)}
    (hf : ∀ l t m, follow l t = some m → ∃ k, Leads link k (t.base l.dropLast) t.moves m)
    (h : along link follow p ms = some q) : ∃ n, Leads link n p ms q := by
  induction ms generalizing p with
  | nil =>
    obtain rfl := Option.some.inj h
    exact ⟨0, .nil p⟩
  | cons mv ms ih =>
    cases mv with
    | stay =>
      obtain ⟨n, hn⟩ := ih h
      exact ⟨n, .stay hn⟩
    | up =>
      obtain ⟨n, hn⟩ := ih h
      exact ⟨n, .up hn⟩
    | down a =>
      rw [along] at h
      cases hl : link (p ++ [a]) with
      | none =>
        rw [hl] at h
        obtain ⟨n, hn⟩ := ih h
        exact ⟨n, .down hl hn⟩
      | some t =>
        rw [hl] at h
        obtain ⟨m, hm, hrest⟩ := Option.bind_eq_some_iff.1 h
        obtain ⟨k, hk⟩ := hf _ _ _ hm
        rw [List.dropLast_concat] at hk
        obtain ⟨n, hn⟩ := ih hrest
        exact ⟨k + n + 1, .link hl hk hn⟩

variable [DecidableEq α] {active keys : List (List α)}

theorem leads_of_walk (h : walk link d active p ms = some q) : ∃ n, Leads link n p ms q := by
  induction d generalizing active p ms q with
  | zero => exact absurd h (by simp [walk])
  | succ d ih =>
    refine leads_of_along (fun l t m hm => ?_) h
    split at hm
    · exact absurd hm (by simp)
    · exact ih hm

/-- the resolution of a link that is being resolved takes at least `n` links -/
def Pending (link : List α → Option (Target α)) (active : List (List α)) (n : ℕ) : Prop :=
  ∀ l ∈ active, ∀ t, link l = some t → ∀ k m, Leads link k (t.base l.dropLast) t.moves m → n ≤ k

omit [DecidableEq α] in
theorem Pending.mono (h : Pending link active n) (hk : k ≤ n) : Pending link active k :=
  fun l hl t ht j m hj => hk.trans (h l hl t ht j m hj)

/-- A path that leads somewhere is resolved.  No link is met inside of its own resolution: the
number of links is that of the whole, and smaller. -/
theorem walk_of_leads (hkeys : ∀ l, link l ≠ none → l ∈ keys) (h : Leads link n p ms q) :
    ∀ {d active}, active.Nodup → active ⊆ keys → keys.length < d + active.length →
      Pending link active n → walk link d active p ms = some q := by
  have hdepth : ∀ {d : ℕ} {active : List (List α)}, active.Nodup → active ⊆ keys →
      keys.length < d + active.length → ∃ e, d = e + 1 := by
    intro d active hnd hsub hd
    have hlen := (hnd.subperm hsub).length_le
    exact Nat.exists_eq_add_one.2 (by omega)
  induction h with
  | nil p =>
    intro d active hnd hsub hd _
    obtain ⟨e, rfl⟩ := hdepth hnd hsub hd
    rfl
  | stay _ ih | up _ ih =>
    intro d active hnd hsub hd hpend
    have hrest := ih hnd hsub hd hpend
    obtain ⟨e, rfl⟩ := hdepth hnd hsub hd
    exact hrest
  | down hl _ ih =>
    intro d active hnd hsub hd hpend
    have hrest := ih hnd hsub hd hpend
    obtain ⟨e, rfl⟩ := hdepth hnd hsub hd
    rw [walk, along, hl]
    exact hrest
  | @link k n p a t m ms q hl hinner _ ih1 ih2 =>
    intro d active hnd hsub hd hpend
    have hrest := ih2 hnd hsub hd (hpend.mono (by omega))
    obtain ⟨e, rfl⟩ := hdepth hnd hsub hd
    have hinner' : Leads link k (t.base (p ++ [a]).dropLast) t.moves m := by
      rwa [List.dropLast_concat]
    have hfresh : p ++ [a] ∉ active := by
      intro hmem
      have hle := hpend _ hmem t hl k m hinner'
      omega
    have hfollow : walk link e ((p ++ [a]) :: active) (t.base p) t.moves = some m := by
      refine ih1 (List.nodup_cons.2 ⟨hfresh, hnd⟩) ?_ ?_ ?_
      · intro l hmem
        rcases List.mem_cons.1 hmem with rfl | hmem
        · exact hkeys _ (by simp [hl])
        · exact hsub hmem
      · rw [List.length_cons]
        omega
      · intro l hmem t' ht' j m' hj
        rcases List.mem_cons.1 hmem with rfl | hmem
        · obtain rfl := Option.some.inj (hl.symm.trans ht')
          exact (hinner'.unique hj).1.le
        · have hle := hpend l hmem t' ht' j m' hj
          omega
    rw [walk, along, hl]
    show (if p ++ [a] ∈ active then none else _ : Option (List α)).bind _ = some q
    rw [if_neg hfresh, List.dropLast_concat, hfollow]
    exact hrest

/-- with a name for every link, resolution finds exactly where a path leads -/
theorem walk_eq_some_iff (hkeys : ∀ l, link l ≠ none → l ∈ keys) :
    walk link (keys.length + 1) [] p ms = some q ↔ ∃ n, Leads link n p ms q := by
  constructor
  · exact leads_of_walk
  · rintro ⟨n, hn⟩
    have hpend : Pending link [] n := fun l hl => absurd hl List.not_mem_nil
    exact walk_of_leads hkeys hn List.nodup_nil (List.nil_subset _) (by simp) hpend

/-! ## places without a link on the way -/

omit [DecidableEq α]

def Plain (link : List α → Option (Target α)) (p : List α) : Prop :=
  ∀ l a, l ++ [a] <+: p → link (l ++ [a]) = none

theorem plain_nil : Plain link ([] : List α) := by
  intro l a h
  exact absurd (List.prefix_nil.1 h) (by simp)

theorem Plain.dropLast (h : Plain link p) : Plain link p.dropLast :=
  fun l a hl => h l a (hl.trans (List.dropLast_prefix p))

theorem Plain.snoc {a : α} (h : Plain link p) (ha : link (p ++ [a]) = none) :
    Plain link (p ++ [a]) := by
  intro l b hl
  rcases List.prefix_concat_iff.1 hl with heq | hl
  · rw [heq, ha]
  · exact h l b hl

theorem Plain.base (h : Plain link p) (t : Target α) : Plain link (t.base p) := by
  unfold Target.base
  split
  · exact plain_nil
  · exact h

/-- a resolved place is plain -/
theorem Leads.plain (h : Leads link n p ms q) (hp : Plain link p) : Plain link q := by
  induction h with
  | nil => exact hp
  | stay _ ih => exact ih hp
  | up _ ih => exact ih hp.dropLast
  | down hl _ ih => exact ih (hp.snoc hl)
  | link _ _ _ ih1 ih2 => exact ih2 (ih1 (hp.base _))

/-- a plain place leads to itself -/
theorem Plain.leads {l : List α} (h : Plain link (p ++ l)) :
    Leads link 0 p (l.map .down) (p ++ l) := by
  induction l generalizing p with
  | nil =>
    rw [List.append_nil]
    exact .nil p
  | cons a l ih =>
    have hassoc : p ++ a :: l = p ++ [a] ++ l := by simp
    rw [hassoc] at h ⊢
    exact .down (h p a (List.prefix_append _ _)) (ih h)

/-- without a link, names lead where they say -/
theorem Leads.zero {l : List α} (h : Leads link 0 p (l.map .down) q) : q = p ++ l := by
  induction l generalizing p with
  | nil =>
    cases h
    exact (List.append_nil _).symm
  | cons a l ih =>
    cases h with
    | down _ h =>
      rw [ih h]
      simp

/-- every name of a resolved place is a name of the path or of a link -/
theorem Leads.names {P : α → Prop} (h : Leads link n p ms q)
    (hlinks : ∀ l t, link l = some t → ∀ a, .down a ∈ t.moves → P a)
    (hms : ∀ a, .down a ∈ ms → P a) (hp : ∀ a ∈ p, P a) : ∀ a ∈ q, P a := by
  induction h with
  | nil => exact hp
  | stay _ ih => exact ih (fun a ha => hms a (List.mem_cons_of_mem _ ha)) hp
  | up _ ih =>
    exact ih (fun a ha => hms a (List.mem_cons_of_mem _ ha))
      fun a ha => hp a (List.dropLast_subset _ ha)
  | @down n p b ms q _ _ ih =>
    refine ih (fun a ha => hms a (List.mem_cons_of_mem _ ha)) fun a ha => ?_
    rcases List.mem_append.1 ha with ha | ha
    · exact hp a ha
    · rw [List.mem_singleton.1 ha]
      exact hms b List.mem_cons_self
  | @link k n p b t m ms q hl _ _ ih1 ih2 =>
    refine ih2 (fun a ha => hms a (List.mem_cons_of_mem _ ha)) (ih1 (hlinks _ _ hl) ?_)
    intro a ha
    unfold Target.base at ha
    split at ha
    · exact absurd ha List.not_mem_nil
    · exact hp a ha

end Links
