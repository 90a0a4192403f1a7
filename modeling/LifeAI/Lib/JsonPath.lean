import LifeAI.Lib.Json

/-!
# Places in a JSON value

* `Step`, `get?`  a key or an index, and the part of a value that a list of them leads to;
* `keys`          the keys on the way;
* `lookup_prune`  what a member of an object is when members are dropped and the others
                  rewritten.
-/

namespace Json

inductive Step where
  | key (k : String)
  | index (i : ℕ)
  deriving DecidableEq

/-- the keys of a path -/
def keys (path : List Step) : List String :=
  path.filterMap fun
    | .key k => some k
    | .index _ => none

/-- the part that a path leads to -/
def get? : Json → List Step → Option Json
  | j, [] => some j
  | .arr js, .index i :: path => js[i]?.bind (get? · path)
  | .obj fields, .key k :: path => (fields.lookup k).bind (get? · path)
  | _, _ => none

variable {path : List Step}

@[simp] theorem keys_nil : keys [] = [] := rfl

@[simp] theorem keys_key (k : String) : keys (.key k :: path) = k :: keys path := rfl

@[simp] theorem keys_index (i : ℕ) : keys (.index i :: path) = keys path := rfl

@[simp] theorem get?_nil (j : Json) : j.get? [] = some j := by
  cases j <;> rfl

theorem get?_arr_index (js : List Json) (i : ℕ) :
    (arr js).get? (.index i :: path) = js[i]?.bind (get? · path) := rfl

theorem get?_obj_key (fields : List (String × Json)) (k : String) :
    (obj fields).get? (.key k :: path) = (fields.lookup k).bind (get? · path) := rfl

theorem lookup_prune {α β : Type} (drop : String → Bool) (f : α → β) (fields : List (String × α))
    (k : String) :
    ((fields.filter fun x => ¬ drop x.1).map fun x => (x.1, f x.2)).lookup k =
      if drop k then none else (fields.lookup k).map f := by
  induction fields with
  | nil => simp
  | cons x fields ih =>
    obtain ⟨k', v⟩ := x
    by_cases hk : k = k'
    · subst hk
      cases hdrop : drop k with
      | true => rw [List.filter_cons_of_neg (by simp [hdrop]), ih, hdrop, if_pos rfl]; rfl
      | false => rw [List.filter_cons_of_pos (by simp [hdrop])]; simp
    · have hlookup : ((k', v) :: fields).lookup k = fields.lookup k := by
        rw [List.lookup_cons, beq_false_of_ne hk]
      rw [hlookup, ← ih]
      by_cases hdrop : drop k' = true
      · rw [List.filter_cons_of_neg (by simp [hdrop])]
      · rw [List.filter_cons_of_pos (by simp [hdrop]), List.map_cons, List.lookup_cons,
          beq_false_of_ne hk]

end Json
