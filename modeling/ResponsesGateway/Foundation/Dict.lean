import Mathlib.Data.List.Nodup

theorem List.find?_key_of_mem {κ α : Type} [DecidableEq κ] {key : α → κ} {xs : List α} {x : α}
    (h : (xs.map key).Nodup) (hx : x ∈ xs) : xs.find? (fun y => decide (key y = key x)) = some x := by
  cases hf : xs.find? (fun y => decide (key y = key x)) with
  | none => simpa using List.find?_eq_none.mp hf x hx
  | some y =>
    have hkey : key y = key x := by simpa using List.find?_some hf
    rw [List.inj_on_of_nodup_map h (List.mem_of_find?_eq_some hf) hx hkey]

structure Dict (κ α : Type) where
  entries : List (κ × α)
  nodup : (entries.map Prod.fst).Nodup

namespace Dict

variable {κ α : Type}

@[ext] theorem ext {d e : Dict κ α} (h : d.entries = e.entries) : d = e := by
  cases d; cases e; simpa using h

variable [DecidableEq κ]

def setEntry (k : κ) (v : α) : List (κ × α) → List (κ × α)
  | [] => [(k, v)]
  | e :: es => if e.1 = k then (k, v) :: es else e :: setEntry k v es

theorem mem_keys_setEntry (k : κ) (v : α) (es : List (κ × α)) (j : κ) :
    j ∈ (setEntry k v es).map Prod.fst ↔ j = k ∨ j ∈ es.map Prod.fst := by
  induction es with
  | nil => simp [setEntry]
  | cons e es ih =>
    by_cases h : e.1 = k
    · rw [setEntry, if_pos h]
      simp only [List.map_cons, List.mem_cons, h]
      tauto
    · rw [setEntry, if_neg h]
      simp only [List.map_cons, List.mem_cons, ih]
      tauto

theorem nodup_setEntry (k : κ) (v : α) (es : List (κ × α)) (h : (es.map Prod.fst).Nodup) :
    ((setEntry k v es).map Prod.fst).Nodup := by
  induction es with
  | nil => simp [setEntry]
  | cons e es ih =>
    obtain ⟨hne,hes⟩ := List.nodup_cons.mp h
    by_cases hk : e.1 = k
    · rw [setEntry, if_pos hk]
      subst hk
      exact List.nodup_cons.mpr ⟨hne,hes⟩
    · rw [setEntry, if_neg hk, List.map_cons, List.nodup_cons, mem_keys_setEntry]
      exact ⟨fun hm => hm.elim hk hne, ih hes⟩

theorem lookup_cons_ite (a j : κ) (b : α) (es : List (κ × α)) :
    ((a, b) :: es).lookup j = if j = a then some b else es.lookup j := by
  by_cases h : j = a
  · subst h; simp
  · have hb : (j == a) = false := beq_eq_false_iff_ne.mpr h
    rw [List.lookup_cons, hb, if_neg h]

theorem lookup_setEntry (k j : κ) (v : α) (es : List (κ × α)) :
    (setEntry k v es).lookup j = if j = k then some v else es.lookup j := by
  induction es with
  | nil => rw [setEntry, lookup_cons_ite]
  | cons e es ih =>
    obtain ⟨a,b⟩ := e
    by_cases ha : a = k
    · subst ha
      rw [setEntry, if_pos rfl, lookup_cons_ite, lookup_cons_ite]
      split <;> rfl
    · rw [setEntry, if_neg ha, lookup_cons_ite, lookup_cons_ite, ih]
      by_cases hj : j = a
      · subst hj; simp [ha]
      · simp [hj]

theorem lookup_filter_ne (k j : κ) (es : List (κ × α)) :
    (es.filter (fun e => decide (e.1 ≠ k))).lookup j = if j = k then none else es.lookup j := by
  induction es with
  | nil => simp
  | cons e es ih =>
    obtain ⟨a,b⟩ := e
    by_cases ha : a = k
    · subst ha
      rw [List.filter_cons_of_neg (by simp), ih, lookup_cons_ite]
      split <;> rfl
    · rw [List.filter_cons_of_pos (by simpa using ha), lookup_cons_ite, lookup_cons_ite, ih]
      by_cases hj : j = a
      · subst hj; simp [ha]
      · simp [hj]

theorem lookup_of_not_mem_keys {k : κ} {es : List (κ × α)} (h : k ∉ es.map Prod.fst) : es.lookup k = none := by
  rw [List.lookup_eq_none_iff]
  intro e he
  have hk : e.1 ≠ k := fun heq => h (List.mem_map.mpr ⟨e,he,heq⟩)
  simpa using hk.symm

theorem setEntry_eq_self {k : κ} {v : α} {es : List (κ × α)} (h : es.lookup k = some v) :
    setEntry k v es = es := by
  induction es with
  | nil => cases h
  | cons e es ih =>
    obtain ⟨a,b⟩ := e
    rw [lookup_cons_ite] at h
    by_cases ha : a = k
    · subst ha
      rw [if_pos rfl, Option.some.injEq] at h
      rw [setEntry, if_pos rfl, h]
    · rw [if_neg (Ne.symm ha)] at h
      rw [setEntry, if_neg ha, ih h]

def empty : Dict κ α := ⟨[], List.nodup_nil⟩

def get? (d : Dict κ α) (k : κ) : Option α := d.entries.lookup k

def keys (d : Dict κ α) : List κ := d.entries.map Prod.fst

def set (d : Dict κ α) (k : κ) (v : α) : Dict κ α :=
  ⟨setEntry k v d.entries, nodup_setEntry k v d.entries d.nodup⟩

def erase (d : Dict κ α) (k : κ) : Dict κ α :=
  ⟨d.entries.filter (fun e => decide (e.1 ≠ k)), d.nodup.sublist (List.filter_sublist.map Prod.fst)⟩

def setAll (d : Dict κ α) (es : List (κ × α)) : Dict κ α := es.foldl (fun d e => d.set e.1 e.2) d

def update (d e : Dict κ α) : Dict κ α := d.setAll e.entries

def ofEntries (es : List (κ × α)) : Dict κ α := empty.setAll es

instance [DecidableEq α] : DecidableEq (Dict κ α) := fun d e =>
  decidable_of_iff (d.entries = e.entries) ⟨ext, congrArg entries⟩

@[simp] theorem get?_empty (k : κ) : (empty : Dict κ α).get? k = none := rfl

@[simp] theorem get?_set (d : Dict κ α) (k j : κ) (v : α) :
    (d.set k v).get? j = if j = k then some v else d.get? j := lookup_setEntry k j v d.entries

@[simp] theorem get?_erase (d : Dict κ α) (k j : κ) :
    (d.erase k).get? j = if j = k then none else d.get? j := lookup_filter_ne k j d.entries

theorem mem_keys_iff (d : Dict κ α) (k : κ) : k ∈ d.keys ↔ (d.get? k).isSome := by
  simp [keys, get?, List.lookup_isSome_iff]

theorem set_eq_self {d : Dict κ α} {k : κ} {v : α} (h : d.get? k = some v) : d.set k v = d :=
  ext (setEntry_eq_self h)

theorem get?_eq_none_iff (d : Dict κ α) (k : κ) : d.get? k = none ↔ k ∉ d.keys := by
  rw [mem_keys_iff]; cases d.get? k <;> simp

theorem mem_entries_iff (d : Dict κ α) {k : κ} {v : α} : (k, v) ∈ d.entries ↔ d.get? k = some v := by
  constructor
  · intro h
    have hmem := (d.mem_keys_iff k).mp (List.mem_map_of_mem h)
    obtain ⟨w,hw⟩ := Option.isSome_iff_exists.mp hmem
    obtain ⟨pre,post,hsplit,-⟩ := List.lookup_eq_some_iff.mp hw
    have hin : (k, w) ∈ d.entries := by rw [hsplit]; simp
    have hpair := List.inj_on_of_nodup_map d.nodup h hin rfl
    rw [hw, (Prod.mk.inj hpair).2]
  · intro h
    obtain ⟨pre,post,hsplit,-⟩ := List.lookup_eq_some_iff.mp h
    rw [hsplit]
    simp

theorem erase_eq_self {d : Dict κ α} {k : κ} (h : d.get? k = none) : d.erase k = d := by
  rw [get?_eq_none_iff] at h
  apply ext
  refine List.filter_eq_self.mpr fun e he => ?_
  have hk : e.1 ≠ k := fun heq => h (heq ▸ List.mem_map_of_mem he)
  simpa using hk

@[simp] theorem mem_keys_set (d : Dict κ α) (k j : κ) (v : α) :
    j ∈ (d.set k v).keys ↔ j = k ∨ j ∈ d.keys := mem_keys_setEntry k v d.entries j

theorem get?_setAll (d : Dict κ α) (es : List (κ × α)) (h : (es.map Prod.fst).Nodup) (k : κ) :
    (d.setAll es).get? k = (es.lookup k).or (d.get? k) := by
  induction es generalizing d with
  | nil => simp [setAll]
  | cons e es ih =>
    obtain ⟨a,b⟩ := e
    obtain ⟨hne,hes⟩ := List.nodup_cons.mp h
    have hset : (d.setAll ((a,b) :: es)).get? k = ((d.set a b).setAll es).get? k := rfl
    rw [hset, ih _ hes, get?_set, lookup_cons_ite]
    by_cases hk : k = a
    · subst hk
      simp [lookup_of_not_mem_keys hne]
    · simp [hk]

@[simp] theorem get?_update (d e : Dict κ α) (k : κ) :
    (d.update e).get? k = (e.get? k).or (d.get? k) := get?_setAll d e.entries e.nodup k

theorem mem_keys_update (d e : Dict κ α) (k : κ) :
    k ∈ (d.update e).keys ↔ k ∈ d.keys ∨ k ∈ e.keys := by
  simp only [mem_keys_iff, get?_update]
  cases e.get? k <;> simp

theorem setEntry_of_not_mem (k : κ) (v : α) (es : List (κ × α)) (h : k ∉ es.map Prod.fst) :
    setEntry k v es = es ++ [(k, v)] := by
  induction es with
  | nil => rfl
  | cons e es ih =>
    simp only [List.map_cons, List.mem_cons, not_or] at h
    simp [setEntry, Ne.symm h.1, ih h.2]

theorem entries_setAll (d : Dict κ α) (es : List (κ × α))
    (h : ((d.entries ++ es).map Prod.fst).Nodup) : (d.setAll es).entries = d.entries ++ es := by
  induction es generalizing d with
  | nil => simp [setAll]
  | cons e es ih =>
    have hk : e.1 ∉ d.entries.map Prod.fst := by
      rw [List.map_append, List.map_cons, List.nodup_append] at h
      exact fun hm => h.2.2 e.1 hm e.1 (by simp) rfl
    have hset : (d.set e.1 e.2).entries = d.entries ++ [e] := setEntry_of_not_mem _ _ _ hk
    have := ih (d.set e.1 e.2) (by simpa [hset] using h)
    rw [hset] at this
    simpa [setAll] using this

@[simp] theorem ofEntries_entries (d : Dict κ α) : ofEntries d.entries = d := by
  apply ext
  simpa [ofEntries, empty] using entries_setAll empty d.entries (by simpa [empty] using d.nodup)

theorem mem_setEntry {k : κ} {v : α} {es : List (κ × α)} {e : κ × α} (h : e ∈ setEntry k v es) :
    e = (k, v) ∨ e ∈ es := by
  induction es with
  | nil => simpa [setEntry] using h
  | cons a es ih =>
    rw [setEntry] at h
    split at h
    · exact (List.mem_cons.mp h).imp id (List.mem_cons_of_mem _)
    · rcases List.mem_cons.mp h with rfl | h
      · exact Or.inr (by simp)
      · exact (ih h).imp id (List.mem_cons_of_mem _)

theorem mem_setAll {d : Dict κ α} {es : List (κ × α)} {e : κ × α} (h : e ∈ (d.setAll es).entries) :
    e ∈ d.entries ∨ e ∈ es := by
  induction es generalizing d with
  | nil => exact Or.inl h
  | cons a es ih =>
    rcases ih (d := d.set a.1 a.2) h with h | h
    · exact (mem_setEntry h).symm.imp id fun he => by simp [he]
    · exact Or.inr (List.mem_cons_of_mem _ h)

theorem get?_setAll_reverse (d : Dict κ α) (es : List (κ × α)) (k : κ) :
    (d.setAll es).get? k = (es.reverse.lookup k).or (d.get? k) := by
  induction es generalizing d with
  | nil => rfl
  | cons e es ih =>
    obtain ⟨a,b⟩ := e
    have hset : d.setAll ((a, b) :: es) = (d.set a b).setAll es := rfl
    rw [hset, ih, get?_set, List.reverse_cons, List.lookup_append, lookup_cons_ite, Option.or_assoc]
    by_cases hk : k = a
    · rw [if_pos hk, if_pos hk, Option.some_or]
    · rw [if_neg hk, if_neg hk, List.lookup_nil, Option.none_or]

theorem mem_of_mem_ofEntries {es : List (κ × α)} {e : κ × α} (h : e ∈ (ofEntries es).entries) : e ∈ es :=
  (mem_setAll h).resolve_left (by simp [empty])

end Dict
