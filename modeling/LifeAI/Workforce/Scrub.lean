import LifeAI.Lib.JsonPath
import LifeAI.Workforce.Model

/-!
# What the scrubbing of a payload leaves

* `walkDepth`, `scrubAuthorityMutations`   the walk, and how deep its calls nest;
* `scrub_arr`, `scrub_obj`  what it does to an array and to an object;
* `get?_scrub`              every place of the payload, after the walk;
* `Untouched`               a value that it has nothing to do with;
* `Scrubbed`                what is left of a payload;
* `scrubAuthorityMutations_cases`  a payload is scrubbed, or nested too deep.

Keys and strings are judged apart: a key by the list and the fragments, a string by the needles.  A
key that is kept is not searched for a needle (`scrub_needleKey`).
-/

namespace LifeAI.Workforce

mutual
/-- how deep the calls of `_walk` nest: a string is searched two calls deeper, a key that is not on
the list one call deeper -/
def walkDepth : Json → ℕ
  | .obj fields => 1 + walkDepthFields fields
  | .arr js => 1 + walkDepthList js
  | .str _ => 3
  | .null | .bool _ | .int _ | .real _ => 1

def walkDepthList : List Json → ℕ
  | [] => 0
  | j :: js => max (walkDepth j) (walkDepthList js)

def walkDepthFields : Payload → ℕ
  | [] => 0
  | (key, value) :: fields =>
    max (if lowered key ∈ forbiddenAuthorityKeys.map String.toList then 0
      else if strippedKey key then 1 else walkDepth value) (walkDepthFields fields)
end

/-- `scrub_authority_mutations`; `levels` is how deep calls may nest -/
def scrubAuthorityMutations (levels : ℕ) (payload : Json) : Except Err (Json × List String) :=
  if walkDepth payload ≤ levels then .ok (scrub payload) else .error .recursionError

/-! ## the walk -/

/-- the members that are kept -/
def keptFields (fields : Payload) : Payload := fields.filter fun x => ¬ strippedKey x.1

@[simp] theorem scrub_arr (js : List Json) : scrub (.arr js) =
    (.arr (js.map fun j => (scrub j).1), js.flatMap fun j => (scrub j).2) := by
  have h : ∀ js, scrubList js = (js.map fun j => (scrub j).1, js.flatMap fun j => (scrub j).2) := by
    intro js
    induction js with
    | nil => rfl
    | cons j js ih =>
      show ((scrub j).1 :: (scrubList js).1, (scrub j).2 ++ (scrubList js).2) = _
      rw [ih, List.map_cons, List.flatMap_cons]
  show (Json.arr (scrubList js).1, (scrubList js).2) = _
  rw [h]

@[simp] theorem scrub_obj (fields : Payload) : scrub (.obj fields) =
    (.obj ((keptFields fields).map fun x => (x.1, (scrub x.2).1)),
      fields.flatMap fun x => if strippedKey x.1 then [x.1] else (scrub x.2).2) := by
  have h : ∀ fields, scrubFields fields =
      ((keptFields fields).map fun x => (x.1, (scrub x.2).1),
        fields.flatMap fun x => if strippedKey x.1 then [x.1] else (scrub x.2).2) := by
    intro fields
    induction fields with
    | nil => rfl
    | cons x fields ih =>
      obtain ⟨key, value⟩ := x
      show (if strippedKey key then ((scrubFields fields).1, key :: (scrubFields fields).2)
        else ((key, (scrub value).1) :: (scrubFields fields).1,
          (scrub value).2 ++ (scrubFields fields).2)) = _
      rw [ih, List.flatMap_cons]
      unfold keptFields
      cases hkey : strippedKey key with
      | true => rw [List.filter_cons_of_neg (by simp [hkey])]; simp
      | false => rw [List.filter_cons_of_pos (by simp [hkey])]; simp
  show (Json.obj (scrubFields fields).1, (scrubFields fields).2) = _
  rw [h]

theorem mem_keptFields {fields : Payload} {x : String × Json} :
    x ∈ keptFields fields ↔ x ∈ fields ∧ strippedKey x.1 = false := by
  unfold keptFields
  simp

theorem redacted_quiet : looksLikePromptInjection "[REDACTED_INJECTION]" = false := by
  decide

theorem scrub_str (s : String) : (scrub (.str s)).1 =
    .str (if looksLikePromptInjection s then "[REDACTED_INJECTION]" else s) := by
  show (if looksLikePromptInjection s then (Json.str "[REDACTED_INJECTION]", ["__injection_string__"])
    else (.str s, [])).1 = _
  split
  · rfl
  · rfl

/-- no key that is left would be stripped -/
theorem scrub_keys (j : Json) : (scrub j).1.anyKey strippedKey = false := by
  induction j using Json.induct with
  | arr js ih =>
    rw [scrub_arr, Json.anyKey_arr, List.any_map, List.any_eq_false]
    intro j hj
    simpa using ih j hj
  | obj fields ih =>
    rw [scrub_obj, Json.anyKey_obj, List.any_map, List.any_eq_false]
    intro x hx
    obtain ⟨hmem, hkey⟩ := mem_keptFields.1 hx
    simp [hkey, ih x hmem]
  | str s => rw [scrub_str]; rfl
  | null | bool | int | real => rfl

/-- no string that is left has a needle -/
theorem scrub_strings (j : Json) : (scrub j).1.anyString looksLikePromptInjection = false := by
  induction j using Json.induct with
  | arr js ih =>
    rw [scrub_arr, Json.anyString_arr, List.any_map, List.any_eq_false]
    intro j hj
    simpa using ih j hj
  | obj fields ih =>
    rw [scrub_obj, Json.anyString_obj, List.any_map, List.any_eq_false]
    intro x hx
    simpa using ih x (mem_keptFields.1 hx).1
  | str s =>
    rw [scrub_str, Json.anyString]
    split
    · exact redacted_quiet
    · exact Bool.eq_false_of_not_eq_true ‹_›
  | null | bool | int | real => rfl

/-- **places**: what stands at a place afterwards is the scrubbed part that stood there, if no key
on the way is stripped -/
theorem get?_scrub (path : List Json.Step) (j : Json) : (scrub j).1.get? path =
    if (Json.keys path).any strippedKey then none else (j.get? path).map fun v => (scrub v).1 := by
  induction path generalizing j with
  | nil => simp
  | cons step path ih =>
    cases step with
    | index i =>
      cases j with
      | arr js =>
        rw [scrub_arr, Json.get?_arr_index, Json.get?_arr_index, List.getElem?_map, Json.keys_index]
        cases js[i]? with
        | none => simp
        | some v => simpa using ih v
      | obj fields => rw [scrub_obj]; exact (ite_self none).symm
      | str s => rw [scrub_str]; exact (ite_self none).symm
      | null | bool | int | real => exact (ite_self none).symm
    | key k =>
      cases j with
      | obj fields =>
        have hlookup := Json.lookup_prune strippedKey (fun v => (scrub v).1) fields k
        rw [scrub_obj, Json.get?_obj_key, Json.get?_obj_key, Json.keys_key, List.any_cons]
        change ((keptFields fields).map _).lookup k = _ at hlookup
        rw [hlookup]
        cases strippedKey k with
        | true => simp
        | false =>
          cases fields.lookup k with
          | none => simp
          | some v => simpa using ih v
      | arr js => rw [scrub_arr]; exact (ite_self none).symm
      | str s => rw [scrub_str]; exact (ite_self none).symm
      | null | bool | int | real => exact (ite_self none).symm

/-! ## values with nothing to scrub -/

/-- no key to strip and no string to redact -/
def Untouched (j : Json) : Prop :=
  j.anyKey strippedKey = false ∧ j.anyString looksLikePromptInjection = false

theorem Untouched.scrub {j : Json} (h : Untouched j) : scrub j = (j, []) := by
  obtain ⟨hkeys, hstrings⟩ := h
  induction j using Json.induct with
  | arr js ih =>
    rw [Json.anyKey_arr, List.any_eq_false] at hkeys
    rw [Json.anyString_arr, List.any_eq_false] at hstrings
    have heach : ∀ j ∈ js, Workforce.scrub j = (j, []) := fun j hj =>
      ih j hj (by simpa using hkeys j hj) (by simpa using hstrings j hj)
    have hvalues : js.map (fun j => (Workforce.scrub j).1) = js := by
      conv_rhs => rw [← List.map_id js]
      exact List.map_congr_left fun j hj => by rw [heach j hj]; rfl
    have hnone : js.flatMap (fun j => (Workforce.scrub j).2) = [] :=
      List.flatMap_eq_nil_iff.2 fun j hj => by rw [heach j hj]
    rw [scrub_arr, hvalues, hnone]
  | obj fields ih =>
    rw [Json.anyKey_obj, List.any_eq_false] at hkeys
    rw [Json.anyString_obj, List.any_eq_false] at hstrings
    have hkey : ∀ x ∈ fields, strippedKey x.1 = false ∧ x.2.anyKey strippedKey = false :=
      fun x hx => by simpa using hkeys x hx
    have heach : ∀ x ∈ fields, Workforce.scrub x.2 = (x.2, []) := fun x hx =>
      ih x hx (hkey x hx).2 (by simpa using hstrings x hx)
    have hkept : keptFields fields = fields :=
      List.filter_eq_self.2 fun x hx => by simp [(hkey x hx).1]
    have hvalues : fields.map (fun x => (x.1, (Workforce.scrub x.2).1)) = fields := by
      conv_rhs => rw [← List.map_id fields]
      exact List.map_congr_left fun x hx => by rw [heach x hx]; rfl
    have hnone : fields.flatMap (fun x =>
        if strippedKey x.1 then [x.1] else (Workforce.scrub x.2).2) = [] :=
      List.flatMap_eq_nil_iff.2 fun x hx => by rw [(hkey x hx).1, heach x hx]; rfl
    rw [scrub_obj, hkept, hvalues, hnone]
  | str s =>
    have hquiet : looksLikePromptInjection s = false := hstrings
    show (if looksLikePromptInjection s then _ else (Json.str s, [])) = _
    rw [hquiet]
    rfl
  | null | bool | int | real => rfl

theorem untouched_scrub (j : Json) : Untouched (scrub j).1 := ⟨scrub_keys j, scrub_strings j⟩

/-! ## how deep it nests -/

theorem walkDepthList_le {js : List Json} {n : ℕ} :
    walkDepthList js ≤ n ↔ ∀ j ∈ js, walkDepth j ≤ n := by
  induction js with
  | nil => exact iff_of_true (Nat.zero_le n) (by simp)
  | cons j js ih =>
    show max (walkDepth j) (walkDepthList js) ≤ n ↔ _
    rw [Nat.max_le, ih, List.forall_mem_cons]

theorem walkDepthFields_le {fields : Payload} {n : ℕ} : walkDepthFields fields ≤ n ↔
    ∀ x ∈ fields, (if lowered x.1 ∈ forbiddenAuthorityKeys.map String.toList then 0
      else if strippedKey x.1 then 1 else walkDepth x.2) ≤ n := by
  induction fields with
  | nil => exact iff_of_true (Nat.zero_le n) (by simp)
  | cons x fields ih =>
    show max _ (walkDepthFields fields) ≤ n ↔ _
    rw [Nat.max_le, ih, List.forall_mem_cons]

/-- a key on the list is stripped -/
theorem not_listed {k : String} (h : strippedKey k = false) :
    lowered k ∉ forbiddenAuthorityKeys.map String.toList := by
  intro hmem
  rw [strippedKey, decide_eq_false_iff_not] at h
  exact h (.inl hmem)

theorem walkDepth_scrub (j : Json) : walkDepth (scrub j).1 ≤ walkDepth j := by
  induction j using Json.induct with
  | arr js ih =>
    rw [scrub_arr]
    show 1 + walkDepthList _ ≤ 1 + walkDepthList js
    refine Nat.add_le_add_left (walkDepthList_le.2 fun v hv => ?_) 1
    obtain ⟨j, hj, rfl⟩ := List.mem_map.1 hv
    exact (ih j hj).trans (walkDepthList_le.1 le_rfl j hj)
  | obj fields ih =>
    rw [scrub_obj]
    show 1 + walkDepthFields _ ≤ 1 + walkDepthFields fields
    refine Nat.add_le_add_left (walkDepthFields_le.2 fun y hy => ?_) 1
    obtain ⟨x, hx, rfl⟩ := List.mem_map.1 hy
    obtain ⟨hmem, hkey⟩ := mem_keptFields.1 hx
    have hmax := walkDepthFields_le.1 (le_refl (walkDepthFields fields)) x hmem
    rw [if_neg (not_listed hkey), hkey] at hmax ⊢
    exact (ih x hmem).trans hmax
  | str s =>
    rw [scrub_str]
    exact le_rfl
  | null | bool | int | real => exact le_rfl

/-! ## what is left of a payload -/

/-- a place of the payload, and what stands there afterwards -/
def KeptAs : Json → Json → Prop
  | .obj fields, w => ∃ fields', w = .obj fields' ∧
      fields'.map Prod.fst = (fields.map Prod.fst).filter fun k => ¬ strippedKey k
  | .arr js, w => ∃ js', w = .arr js' ∧ js'.length = js.length
  | .str s, w => w = .str (if looksLikePromptInjection s then "[REDACTED_INJECTION]" else s)
  | .null, w => w = .null
  | .bool b, w => w = .bool b
  | .int n, w => w = .int n
  | .real r, w => w = .real r

theorem keptAs_scrub (j : Json) : KeptAs j (scrub j).1 := by
  cases j with
  | obj fields =>
    rw [scrub_obj]
    refine ⟨_, rfl, ?_⟩
    rw [List.map_map, List.filter_map]
    rfl
  | arr js =>
    rw [scrub_arr]
    exact ⟨_, rfl, List.length_map ..⟩
  | str s => exact scrub_str s
  | null | bool | int | real => rfl

structure Scrubbed (levels : ℕ) (payload cleaned : Json) : Prop where
  keys : cleaned.anyKey strippedKey = false
  strings : cleaned.anyString looksLikePromptInjection = false
  /-- a place that no stripped key leads to is kept, with what stands there -/
  kept : ∀ path v, (Json.keys path).any strippedKey = false → payload.get? path = some v →
    ∃ w, cleaned.get? path = some w ∧ KeptAs v w
  /-- a part with nothing to strip and nothing to redact stays as it is -/
  same : ∀ path v, (Json.keys path).any strippedKey = false → payload.get? path = some v →
    Untouched v → cleaned.get? path = some v
  /-- no place is new -/
  old : ∀ path w, cleaned.get? path = some w →
    (Json.keys path).any strippedKey = false ∧ ∃ v, payload.get? path = some v
  again : scrubAuthorityMutations levels cleaned = .ok (cleaned, [])

theorem scrubbed_scrub {levels : ℕ} {payload : Json} (h : walkDepth payload ≤ levels) :
    Scrubbed levels payload (scrub payload).1 where
  keys := scrub_keys payload
  strings := scrub_strings payload
  kept path v hpath hv := by
    rw [get?_scrub, hpath, hv]
    exact ⟨_, rfl, keptAs_scrub v⟩
  same path v hpath hv hclean := by
    rw [get?_scrub, hpath, hv, Option.map_some, hclean.scrub]
    rfl
  old path w hw := by
    rw [get?_scrub] at hw
    cases hpath : (Json.keys path).any strippedKey with
    | true => rw [hpath] at hw; cases hw
    | false =>
      rw [hpath] at hw
      obtain ⟨v, hv, -⟩ := Option.map_eq_some_iff.1 hw
      exact ⟨rfl, v, hv⟩
  again := by
    rw [scrubAuthorityMutations, if_pos ((walkDepth_scrub payload).trans h),
      (untouched_scrub payload).scrub]

/-- **authority scrubbing**: a payload that is nested too deep is refused; of any other one the
keys and strings that it looks for are gone, everything else stands where it stood, and a second
time there is nothing to do -/
theorem scrubAuthorityMutations_cases (levels : ℕ) (payload : Json) :
    (levels < walkDepth payload ∧
      scrubAuthorityMutations levels payload = .error .recursionError) ∨
    ∃ cleaned stripped, scrubAuthorityMutations levels payload = .ok (cleaned, stripped) ∧
      Scrubbed levels payload cleaned := by
  by_cases h : walkDepth payload ≤ levels
  · refine .inr ⟨(scrub payload).1, (scrub payload).2, ?_, scrubbed_scrub h⟩
    rw [scrubAuthorityMutations, if_pos h]
  · refine .inl ⟨not_le.1 h, ?_⟩
    rw [scrubAuthorityMutations, if_neg h]

/-- a key with a needle in it, neither on the list nor with one of the fragments, is kept -/
theorem scrub_needleKey : ∃ cleaned,
    scrubAuthorityMutations 1000 (.obj [("ignore policy", .null)]) = .ok (cleaned, []) ∧
      cleaned.anyKey looksLikePromptInjection = true :=
  ⟨.obj [("ignore policy", .null)], by rfl, by decide⟩

end LifeAI.Workforce
