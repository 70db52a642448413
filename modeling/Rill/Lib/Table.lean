/-!
# Tables

Finite maps kept as an association list with distinct keys. The order of the
entries is the order in which a walk over the table meets them.
-/

namespace Lib

structure Table (κ ν : Type) where
  entries : List (κ × ν)
  nodup : (entries.map Prod.fst).Nodup

namespace Table

variable {κ ν : Type}

def empty : Table κ ν := ⟨[], List.nodup_nil⟩

def keys (t : Table κ ν) : List κ := t.entries.map Prod.fst

variable [DecidableEq κ]

def get? (t : Table κ ν) (k : κ) : Option ν := (t.entries.find? fun e => e.1 = k).map Prod.snd

/-- The value of `k`, if there is one, becomes `v`. -/
def set (t : Table κ ν) (k : κ) (v : ν) : Table κ ν where
  entries := t.entries.map fun e => if e.1 = k then (k, v) else e
  nodup := by
    have h : (t.entries.map fun e => if e.1 = k then (k, v) else e).map Prod.fst =
        t.entries.map Prod.fst := by
      rw [List.map_map]
      apply List.map_congr_left
      intro e _
      simp only [Function.comp]
      split
      case isTrue he => exact he.symm
      case isFalse => rfl
    rw [h]
    exact t.nodup

def map (t : Table κ ν) (f : κ → ν → ν) : Table κ ν where
  entries := t.entries.map fun e => (e.1, f e.1 e.2)
  nodup := by
    rw [List.map_map]
    exact t.nodup

/-- A new entry, after the others; a key already there keeps its value. -/
def insert (t : Table κ ν) (k : κ) (v : ν) : Table κ ν :=
  if h : k ∈ t.keys then t
  else {
    entries := t.entries ++ [(k, v)]
    nodup := by
      rw [List.map_append, List.nodup_append]
      refine ⟨t.nodup, by simp, ?_⟩
      rintro a ha b hb rfl
      simp only [List.map_cons, List.map_nil, List.mem_singleton] at hb
      subst hb
      exact h ha }

/-- Without the entry of `k`, if there is one. -/
def erase (t : Table κ ν) (k : κ) : Table κ ν where
  entries := t.entries.filter fun e => e.1 ≠ k
  nodup := (List.filter_sublist.map Prod.fst).nodup t.nodup

theorem mem_keys_iff (t : Table κ ν) (k : κ) : k ∈ t.keys ↔ (t.get? k).isSome := by
  simp only [keys, get?, Option.isSome_map, List.mem_map, List.find?_isSome, decide_eq_true_eq]

@[simp] theorem keys_set (t : Table κ ν) (k : κ) (v : ν) : (t.set k v).keys = t.keys := by
  simp only [keys, set, List.map_map]
  apply List.map_congr_left
  intro e _
  simp only [Function.comp]
  split
  case isTrue h => exact h.symm
  case isFalse => rfl

theorem keys_insert {t : Table κ ν} (h : k ∉ t.keys) (v : ν) : (t.insert k v).keys = t.keys ++ [k] := by
  rw [insert, dif_neg h, keys, List.map_append]
  rfl

theorem insert_of_mem {t : Table κ ν} (h : k ∈ t.keys) (v : ν) : t.insert k v = t := dif_pos h

theorem find?_set_self (l : List (κ × ν)) (k : κ) (v : ν) :
    (l.map fun e => if e.1 = k then (k, v) else e).find? (fun e => e.1 = k) =
      (l.find? fun e => e.1 = k).map fun _ => (k, v) := by
  induction l with
  | nil => rfl
  | cons e l ih =>
    by_cases h : e.1 = k
    · simp [h]
    · simp [h, ih]

theorem find?_set_of_ne (l : List (κ × ν)) {j k : κ} (v : ν) (hne : j ≠ k) :
    (l.map fun e => if e.1 = k then (k, v) else e).find? (fun e => e.1 = j) =
      l.find? fun e => e.1 = j := by
  induction l with
  | nil => rfl
  | cons e l ih =>
    by_cases h : e.1 = k
    · have hj : ¬ k = j := fun h => hne h.symm
      have hej : ¬ e.1 = j := h ▸ hj
      simp [h, hj, ih]
    · by_cases hj : e.1 = j
      · simp [hj, hne]
      · simp [h, hj, ih]

@[simp] theorem get?_set_self (t : Table κ ν) (k : κ) (v : ν) :
    (t.set k v).get? k = (t.get? k).map fun _ => v := by
  simp only [get?, set, find?_set_self, Option.map_map]
  rfl

theorem get?_set_of_some {t : Table κ ν} {u : ν} (h : t.get? k = some u) (v : ν) :
    (t.set k v).get? k = some v := by
  rw [get?_set_self, h]
  rfl

@[simp] theorem get?_set_of_ne (t : Table κ ν) {j k : κ} (v : ν) (h : j ≠ k) :
    (t.set k v).get? j = t.get? j := by
  simp only [get?, set, find?_set_of_ne _ v h]

theorem find?_of_mem {l : List (κ × ν)} (hl : (l.map Prod.fst).Nodup) {e : κ × ν} (he : e ∈ l) :
    l.find? (fun f => f.1 = e.1) = some e := by
  induction l with
  | nil => cases he
  | cons f l ih =>
    rw [List.map_cons, List.nodup_cons] at hl
    rcases List.mem_cons.mp he with rfl | hmem
    · simp
    · have hne : ¬ f.1 = e.1 := fun h => hl.1 (h ▸ List.mem_map_of_mem hmem)
      simp [hne, ih hl.2 hmem]

theorem get?_of_mem (t : Table κ ν) {e : κ × ν} (he : e ∈ t.entries) : t.get? e.1 = some e.2 := by
  simp [get?, find?_of_mem t.nodup he]

theorem set_get?_self {t : Table κ ν} {k : κ} {v : ν} (h : t.get? k = some v) :
    t.set k v = t := by
  have hentries : (t.entries.map fun e => if e.1 = k then (k, v) else e) = t.entries := by
    conv => rhs; rw [← List.map_id t.entries]
    apply List.map_congr_left
    intro e he
    split
    case isFalse => rfl
    case isTrue hk =>
      have hv := t.get?_of_mem he
      rw [hk, h] at hv
      obtain rfl := Option.some.inj hv
      subst hk
      rfl
  obtain ⟨entries, nodup⟩ := t
  simpa only [set, mk.injEq] using hentries

omit [DecidableEq κ] in
@[simp] theorem keys_map (t : Table κ ν) (f : κ → ν → ν) : (t.map f).keys = t.keys := by
  simp only [keys, map, List.map_map]
  rfl

@[simp] theorem get?_map (t : Table κ ν) (f : κ → ν → ν) (k : κ) :
    (t.map f).get? k = (t.get? k).map (f k) := by
  simp only [get?, map]
  induction t.entries with
  | nil => rfl
  | cons e l ih =>
    by_cases h : e.1 = k
    · simp [h]
    · simpa [h] using ih

omit [DecidableEq κ] in
theorem map_comm (t : Table κ ν) {f g : κ → ν → ν} (h : ∀ k v, g k (f k v) = f k (g k v)) :
    (t.map f).map g = (t.map g).map f := by
  simp only [map, mk.injEq, List.map_map]
  exact List.map_congr_left fun e _ => congrArg (Prod.mk e.1) (h e.1 e.2)

theorem map_set (t : Table κ ν) (f : κ → ν → ν) (k : κ) (v : ν) :
    (t.set k v).map f = (t.map f).set k (f k v) := by
  simp only [map, set, mk.injEq, List.map_map]
  refine List.map_congr_left fun e _ => ?_
  simp only [Function.comp]
  split <;> rfl

theorem map_insert (t : Table κ ν) (f : κ → ν → ν) (k : κ) (v : ν) :
    (t.insert k v).map f = (t.map f).insert k (f k v) := by
  unfold insert
  by_cases h : k ∈ t.keys
  · rw [dif_pos h, dif_pos (keys_map t f ▸ h)]
  · rw [dif_neg h, dif_neg (keys_map t f ▸ h)]
    simp only [map, List.map_append, List.map_cons, List.map_nil]

@[simp] theorem get?_erase (t : Table κ ν) (j k : κ) :
    (t.erase k).get? j = if j = k then none else t.get? j := by
  simp only [get?, erase]
  induction t.entries with
  | nil => simp
  | cons e l ih =>
    by_cases hk : e.1 = k
    · by_cases hj : j = k
      · simp [hj]
      · have hne : ¬ k = j := fun h => hj h.symm
        have hej : ¬ e.1 = j := by rwa [hk]
        simpa [hk, hj, hne, hej] using ih
    · by_cases hj : e.1 = j
      · have hne : ¬ j = k := hj ▸ hk
        simp [hj, hne]
      · simpa [hk, hj] using ih

theorem get?_foldl_erase (ks : List κ) (t : Table κ ν) (j : κ) :
    (ks.foldl erase t).get? j = if j ∈ ks then none else t.get? j := by
  induction ks generalizing t with
  | nil => rfl
  | cons k ks ih =>
    rw [List.foldl_cons, ih, get?_erase]
    by_cases hj : j = k
    · simp [hj]
    · simp [hj]

theorem get?_insert_self {t : Table κ ν} (h : k ∉ t.keys) (v : ν) :
    (t.insert k v).get? k = some v := by
  have hnone : t.entries.find? (fun e => e.1 = k) = none := by
    rw [List.find?_eq_none]
    intro e he hk
    exact h (List.mem_map.mpr ⟨e, he, by simpa using hk⟩)
  simp [insert, h, get?, List.find?_append, hnone]

theorem get?_insert_of_ne (t : Table κ ν) {j k : κ} (v : ν) (h : j ≠ k) :
    (t.insert k v).get? j = t.get? j := by
  unfold insert
  split
  · rfl
  · have hk : ¬ k = j := fun hk => h hk.symm
    simp [get?, List.find?_append, hk]

theorem get?_insert_set (t : Table κ ν) (k : κ) (v w : ν) (j : κ) :
    ((t.insert k v).set k w).get? j = if j = k then some w else t.get? j := by
  split
  case isTrue h =>
    subst h
    by_cases hmem : j ∈ t.keys
    · obtain ⟨u, hu⟩ := Option.isSome_iff_exists.mp ((mem_keys_iff t j).mp hmem)
      rw [insert_of_mem hmem, get?_set_of_some hu]
    · exact get?_set_of_some (get?_insert_self hmem v) w
  case isFalse h => rw [get?_set_of_ne _ _ h, get?_insert_of_ne _ _ h]

theorem get?_insert_getD (t : Table κ ν) (k : κ) (v : ν) :
    ((t.insert k v).get? k).getD v = (t.get? k).getD v := by
  by_cases hmem : k ∈ t.keys
  · rw [insert_of_mem hmem]
  · have hnone : t.get? k = none := by
      rw [mem_keys_iff, Bool.not_eq_true, Option.isSome_eq_false_iff, Option.isNone_iff_eq_none] at hmem
      exact hmem
    rw [get?_insert_self hmem, hnone]
    rfl

/-- The value of `k` becomes `v`, whether there was one or not. -/
def put (t : Table κ ν) (k : κ) (v : ν) : Table κ ν := (t.insert k v).set k v

@[simp] theorem get?_put (t : Table κ ν) (k : κ) (v : ν) (j : κ) :
    (t.put k v).get? j = if j = k then some v else t.get? j := get?_insert_set t k v v j

omit [DecidableEq κ] in
/-- The entries whose keys meet `p`. -/
def restrict (t : Table κ ν) (p : κ → Bool) : Table κ ν where
  entries := t.entries.filter fun e => p e.1
  nodup := (List.filter_sublist.map Prod.fst).nodup t.nodup

@[simp] theorem get?_restrict (t : Table κ ν) (p : κ → Bool) (k : κ) :
    (t.restrict p).get? k = if p k then t.get? k else none := by
  simp only [get?, restrict]
  induction t.entries with
  | nil => simp
  | cons e l ih =>
    by_cases hk : e.1 = k
    · cases hp : p k with
      | true => simp [hk, hp]
      | false =>
        rw [hp] at ih
        simpa [hk, hp] using ih
    · cases he : p e.1 with
      | true => simpa [hk, he] using ih
      | false => simpa [hk, he] using ih

def ofList (l : List (κ × ν)) : Table κ ν := l.foldl (fun t e => t.put e.1 e.2) empty

theorem get?_foldl_put {l : List (κ × ν)} (hl : (l.map Prod.fst).Nodup) (t : Table κ ν) (k : κ) :
    (l.foldl (fun t e => t.put e.1 e.2) t).get? k =
      ((l.find? fun e => e.1 = k).map Prod.snd <|> t.get? k) := by
  induction l generalizing t with
  | nil => rfl
  | cons e l ih =>
    obtain ⟨hnew, hl⟩ := List.nodup_cons.mp hl
    rw [List.foldl_cons, ih hl, get?_put]
    by_cases hk : e.1 = k
    · have hnone : l.find? (fun f => f.1 = k) = none := by
        rw [List.find?_eq_none]
        rintro f hf hfk
        exact hnew (List.mem_map.mpr ⟨f, hf, (of_decide_eq_true hfk).trans hk.symm⟩)
      simp [hk, hnone]
    · simp [hk, Ne.symm hk]

theorem get?_ofList {l : List (κ × ν)} (hl : (l.map Prod.fst).Nodup) (k : κ) :
    (ofList l).get? k = (l.find? fun e => e.1 = k).map Prod.snd := by
  have hnone : (empty : Table κ ν).get? k = none := rfl
  rw [ofList, get?_foldl_put hl, hnone]
  cases (l.find? fun e => e.1 = k).map Prod.snd <;> rfl

/-- Whatever the order the entries are put in, each key has its value. -/
theorem get?_ofList_perm (t : Table κ ν) {l : List (κ × ν)} (h : l.Perm t.entries) (k : κ) :
    (ofList l).get? k = t.get? k := by
  have hl : (l.map Prod.fst).Nodup := (h.map Prod.fst).nodup_iff.mpr t.nodup
  rw [get?_ofList hl]
  cases hfind : l.find? fun e => e.1 = k with
  | some e =>
    obtain rfl : e.1 = k := by simpa using List.find?_some hfind
    exact (t.get?_of_mem (h.mem_iff.mp (List.mem_of_find?_eq_some hfind))).symm
  | none =>
    cases hget : t.get? k with
    | none => rfl
    | some v =>
      have hmem := (mem_keys_iff t k).mpr (by simp [hget])
      obtain ⟨e, he, hk⟩ := List.mem_map.mp hmem
      have hnot := List.find?_eq_none.mp hfind e (h.mem_iff.mpr he)
      simp [hk] at hnot

end Table

end Lib
