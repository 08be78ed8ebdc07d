import Mathlib.Data.List.Induction
import Mathlib.Data.List.Infix
import ResponsesGateway.Foundation.Dict

inductive Nested (κ α : Type) where
  | leaf (a : α)
  | node (fields : List (κ × Nested κ α))

namespace Nested

variable {κ α : Type}

def obj (d : Dict κ (Nested κ α)) : Nested κ α := node d.entries

def kind : Nested κ α → Option α
  | leaf a => some a
  | node _ => none

variable [DecidableEq κ]

def asDict : Nested κ α → Option (Dict κ (Nested κ α))
  | leaf _ => none
  | node fs => some (Dict.ofEntries fs)

def child? (t : Nested κ α) (k : κ) : Option (Nested κ α) := t.asDict.bind (fun d => d.get? k)

def lookup (t : Nested κ α) : List κ → Option (Nested κ α)
  | [] => some t
  | k :: ks => (t.child? k).bind (fun u => u.lookup ks)

def kindAt (t : Nested κ α) (path : List κ) : Option (Option α) := (t.lookup path).map kind

def Same (t u : Nested κ α) : Prop := ∀ path, t.kindAt path = u.kindAt path

inductive Proper : Nested κ α → Prop
  | leaf (a : α) : Proper (leaf a)
  | obj (d : Dict κ (Nested κ α)) : (∀ k t, d.get? k = some t → Proper t) → Proper (obj d)

mutual
def overlay (old : Option (Nested κ α)) : Nested κ α → Nested κ α
  | leaf a => leaf a
  | node fs =>
      match old with
      | some (node gs) => obj (merge (Dict.ofEntries gs) fs)
      | _ => node fs

def merge (base : Dict κ (Nested κ α)) : List (κ × Nested κ α) → Dict κ (Nested κ α)
  | [] => base
  | (k, value) :: fs => merge (base.set k (overlay (base.get? k) value)) fs
end

/-- Writes a leaf at the end of a path, with a new dict wherever the next key is missing; `none` where
the path leads through a leaf. -/
def assign (d : Dict κ (Nested κ α)) (a : α) : List κ → Option (Dict κ (Nested κ α))
  | [] => some d
  | [last] => some (d.set last (leaf a))
  | part :: parts => do
      let current ← ((d.get? part).getD (obj .empty)).asDict
      let current ← assign current a parts
      return d.set part (obj current)

section Lookup

variable {t u : Nested κ α} {k : κ} {ks path : List κ} {d : Dict κ (Nested κ α)}

@[simp] theorem asDict_obj (d : Dict κ (Nested κ α)) : (obj d).asDict = some d := by
  simp [obj, asDict]

@[simp] theorem child?_obj (d : Dict κ (Nested κ α)) (k : κ) : (obj d).child? k = d.get? k := by
  simp [child?]

@[simp] theorem child?_leaf (a : α) (k : κ) : (leaf a : Nested κ α).child? k = none := rfl

@[simp] theorem kindAt_nil : t.kindAt [] = some t.kind := rfl

@[simp] theorem kindAt_cons : t.kindAt (k :: ks) = (t.child? k).bind (fun u => u.kindAt ks) := by
  simp only [kindAt, lookup]
  cases t.child? k <;> rfl

theorem lookup_eq_leaf_iff {a : α} : t.lookup path = some (leaf a) ↔ t.kindAt path = some (some a) := by
  unfold kindAt
  cases t.lookup path with
  | none => simp
  | some u => cases u <;> simp [kind]

end Lookup

section Same

variable {t u : Nested κ α}

theorem Same.child? (h : Same t u) (k : κ) : Option.Rel Same (t.child? k) (u.child? k) := by
  have hks (ks : List κ) := h (k :: ks)
  simp only [kindAt_cons] at hks
  cases ht : t.child? k with
  | none =>
    cases hu : u.child? k with
    | none => exact .none
    | some u' => simpa [ht, hu] using hks []
  | some t' =>
    cases hu : u.child? k with
    | none => simpa [ht, hu] using hks []
    | some u' => exact .some fun ks => by simpa [ht, hu] using hks ks

end Same

section Merge

variable {t : Nested κ α} {old : Option (Nested κ α)} {base d : Dict κ (Nested κ α)} {k : κ}
  {fs : List (κ × Nested κ α)}

theorem overlay_node (gs : List (κ × Nested κ α)) (d : Dict κ (Nested κ α)) :
    overlay (some (node gs)) (obj d) = obj (merge (Dict.ofEntries gs) d.entries) := by
  simp [obj, overlay]

@[simp] theorem overlay_obj (base d : Dict κ (Nested κ α)) :
    overlay (some (obj base)) (obj d) = obj (merge base d.entries) := by
  rw [obj, overlay_node, Dict.ofEntries_entries]

@[simp] theorem overlay_none (t : Nested κ α) : overlay none t = t := by
  cases t <;> simp [overlay]

@[simp] theorem overlay_over_leaf (a : α) (t : Nested κ α) : overlay (some (leaf a)) t = t := by
  cases t <;> simp [overlay]

@[simp] theorem kind_overlay : (overlay old t).kind = t.kind := by
  cases t with
  | leaf a => simp [overlay]
  | node fs => rcases old with _ | (_ | gs) <;> simp [overlay, kind, obj]

theorem get?_merge_fields (h : (fs.map Prod.fst).Nodup) (base : Dict κ (Nested κ α)) :
    (merge base fs).get? k = ((fs.lookup k).map (overlay (base.get? k))).or (base.get? k) := by
  induction fs generalizing base with
  | nil => simp [merge]
  | cons e fs ih =>
    obtain ⟨j,v⟩ := e
    obtain ⟨hj,hfs⟩ := List.nodup_cons.mp h
    rw [merge, ih hfs, Dict.lookup_cons_ite, Dict.get?_set]
    by_cases hk : k = j
    · subst hk
      simp [Dict.lookup_of_not_mem_keys hj]
    · simp [hk]

theorem get?_merge : (merge base d.entries).get? k =
    ((d.get? k).map (overlay (base.get? k))).or (base.get? k) := get?_merge_fields d.nodup base

theorem child?_overlay (old : Option (Nested κ α)) (d : Dict κ (Nested κ α)) (k : κ) :
    (overlay old (obj d)).child? k =
      ((d.get? k).map (overlay (old.bind (fun t => t.child? k)))).or (old.bind (fun t => t.child? k)) := by
  cases old with
  | none => cases hd : d.get? k <;> simp [hd]
  | some t =>
    cases t with
    | leaf a => cases hd : d.get? k <;> simp [hd]
    | node gs =>
      rw [overlay_node, child?_obj, get?_merge]
      rfl

theorem lookup_overlay_absent (ht : Proper t) {path : List κ} (hnone : t.kindAt path = none)
    (hleaf : ∀ front a, front <+: path → t.kindAt front ≠ some (some a)) (old : Option (Nested κ α)) :
    (overlay old t).lookup path = old.bind (fun u => u.lookup path) := by
  induction path generalizing t old with
  | nil => simp at hnone
  | cons k ks ih =>
    cases ht with
    -- A leaf of the override above the place would hide what stood there.
    | leaf a => exact absurd rfl (hleaf [] a List.nil_prefix)
    | obj d hd =>
      rw [lookup, child?_overlay]
      simp only [kindAt_cons, child?_obj] at hnone
      cases hget : d.get? k with
      | none => cases old <;> rfl
      | some v =>
        rw [hget] at hnone
        have hsub : ∀ front a, front <+: ks → v.kindAt front ≠ some (some a) := by
          intro front a hfront hkind
          refine hleaf (k :: front) a ((List.prefix_cons_inj k).mpr hfront) ?_
          simpa [hget] using hkind
        simp only [Option.map_some, Option.some_or, Option.bind_some]
        rw [ih (hd k v hget) hnone hsub]
        cases old <;> rfl

theorem lookup_overlay_leaf (ht : Proper t) {path : List κ} {a : α} (hleaf : t.lookup path = some (leaf a))
    (old : Option (Nested κ α)) : (overlay old t).lookup path = some (leaf a) := by
  induction path generalizing t old with
  | nil =>
    obtain rfl : t = leaf a := by simpa [lookup] using hleaf
    simp [overlay, lookup]
  | cons k ks ih =>
    cases ht with
    | leaf b => cases hleaf
    | obj d hd =>
      rw [lookup, child?_obj] at hleaf
      obtain ⟨v,hget,hleaf⟩ := Option.bind_eq_some_iff.mp hleaf
      rw [lookup, child?_overlay, hget]
      exact ih (hd k v hget) hleaf _

theorem Same.overlay {t' : Nested κ α} (ht : Proper t) (ht' : Proper t') (h : Same t t')
    (old : Option (Nested κ α)) : Same (Nested.overlay old t) (Nested.overlay old t') := by
  intro path
  induction path generalizing t t' old with
  | nil =>
    have hroot : t.kind = t'.kind := by simpa using h []
    simp [hroot]
  | cons k ks ih =>
    have hroot : t.kind = t'.kind := by simpa using h []
    cases ht with
    | leaf a =>
      cases ht' with
      | leaf a' => rw [Option.some.inj hroot]
      | obj d' hd' => cases hroot
    | obj d hd =>
      cases ht' with
      | leaf a' => cases hroot
      | obj d' hd' =>
        have hchild := h.child? k
        rw [child?_obj, child?_obj] at hchild
        rw [kindAt_cons, kindAt_cons, child?_overlay, child?_overlay]
        cases hget : d.get? k with
        | none =>
          rw [hget] at hchild
          cases hget' : d'.get? k with
          | none => rfl
          | some v' => rw [hget'] at hchild; cases hchild
        | some v =>
          rw [hget] at hchild
          cases hget' : d'.get? k with
          | none => rw [hget'] at hchild; cases hchild
          | some v' =>
            rw [hget'] at hchild
            cases hchild with
            | some hsame => exact ih (hd k v hget) (hd' k v' hget') hsame _

theorem merge_eq_self (h : ∀ k v, (k, v) ∈ fs → base.get? k = some (overlay (base.get? k) v)) :
    merge base fs = base := by
  induction fs with
  | nil => simp [merge]
  | cons e fs ih =>
    obtain ⟨k,v⟩ := e
    rw [merge, Dict.set_eq_self (h k v List.mem_cons_self)]
    exact ih fun j w hm => h j w (List.mem_cons_of_mem _ hm)

theorem overlay_overlay (ht : Proper t) (old : Option (Nested κ α)) :
    overlay (some (overlay old t)) t = overlay old t := by
  induction ht generalizing old with
  | leaf a => simp [overlay]
  | obj d _ ih =>
    -- Each key holds what merging it gave, so it is set to what it is.
    have hagain : ∀ base : Dict κ (Nested κ α), (∀ k v, d.get? k = some v → ∃ before,
        base.get? k = some (overlay before v)) → merge base d.entries = base := by
      intro base hbase
      refine merge_eq_self fun k v hm => ?_
      have hget := d.mem_entries_iff.mp hm
      obtain ⟨before,hbefore⟩ := hbase k v hget
      rw [hbefore, ih k v hget]
    rcases old with _ | (a | gs)
    · rw [overlay_none, overlay_obj, hagain d fun k v hget => ⟨none,by rw [hget, overlay_none]⟩]
    · rw [overlay_over_leaf, overlay_obj, hagain d fun k v hget => ⟨none,by rw [hget, overlay_none]⟩]
    · rw [overlay_node, overlay_obj, hagain _ fun k v hget => ⟨_,by rw [get?_merge, hget]; rfl⟩]

end Merge

section Assign

variable {d d' : Dict κ (Nested κ α)} {a : α} {path : List κ} {k part : κ} {parts : List κ}

theorem proper_obj_iff : Proper (obj d) ↔ ∀ k t, d.get? k = some t → Proper t := by
  constructor
  · intro h
    generalize ht : obj d = t at h
    cases h with
    | leaf a => cases ht
    | obj e he =>
      obtain rfl : d = e := Dict.ext (Nested.node.inj ht)
      exact he
  · exact .obj d

theorem assign_cons (hne : parts ≠ []) : assign d a (part :: parts) =
    ((d.get? part).getD (obj .empty)).asDict.bind
      (fun current => (assign current a parts).map (fun sub => d.set part (obj sub))) := by
  cases parts with
  | nil => exact absurd rfl hne
  | cons next parts =>
    rw [assign]
    · cases ((d.get? part).getD (obj .empty)).asDict with
      | none => rfl
      | some current => cases hsub : assign current a (next :: parts) <;> simp [hsub]
    · exact List.cons_ne_nil next parts

theorem assign_cons_inv (hne : parts ≠ []) (h : assign d a (part :: parts) = some d') :
    ∃ current sub, ((d.get? part).getD (obj .empty)).asDict = some current ∧
      assign current a parts = some sub ∧ d' = d.set part (obj sub) := by
  rw [assign_cons hne] at h
  obtain ⟨current,hcurrent,h⟩ := Option.bind_eq_some_iff.mp h
  obtain ⟨sub,hsub,he⟩ := Option.map_eq_some_iff.mp h
  exact ⟨current,sub,hcurrent,hsub,he.symm⟩

theorem kindAt_current {current : Dict κ (Nested κ α)}
    (h : ((d.get? part).getD (obj .empty)).asDict = some current) {ks : List κ} (hks : ks ≠ []) :
    (obj current).kindAt ks = (obj d).kindAt (part :: ks) := by
  obtain ⟨k,ks,rfl⟩ := List.exists_cons_of_ne_nil hks
  rw [kindAt_cons (k := part), child?_obj]
  cases hget : d.get? part with
  | none =>
    rw [hget, Option.getD_none, asDict_obj, Option.some.injEq] at h
    subst h
    simp
  | some t =>
    rw [hget, Option.getD_some] at h
    rw [Option.bind_some, kindAt_cons, kindAt_cons, child?_obj, child?, h]
    rfl

theorem leaf_current {current : Dict κ (Nested κ α)}
    (h : ((d.get? part).getD (obj .empty)).asDict = some current) (ks : List κ) (b : α) :
    (obj current).kindAt ks = some (some b) ↔ (obj d).kindAt (part :: ks) = some (some b) := by
  by_cases hks : ks = []
  · subst hks
    refine iff_of_false (by simp [obj, kind]) fun hleaf => ?_
    rw [kindAt_cons, child?_obj] at hleaf
    obtain ⟨t,hget,hleaf⟩ := Option.bind_eq_some_iff.mp hleaf
    rw [hget, Option.getD_some] at h
    cases t with
    | leaf b => cases h
    | node fs => cases hleaf
  · rw [kindAt_current h hks]

theorem proper_current {current : Dict κ (Nested κ α)} (hd : Proper (obj d))
    (h : ((d.get? part).getD (obj .empty)).asDict = some current) : Proper (obj current) := by
  cases hget : d.get? part with
  | none =>
    rw [hget, Option.getD_none, asDict_obj, Option.some.injEq] at h
    exact h ▸ .obj _ fun k t hk => by cases hk
  | some t =>
    rw [hget, Option.getD_some] at h
    have ht := proper_obj_iff.mp hd part t hget
    cases ht with
    | leaf a => cases h
    | obj e he =>
      rw [asDict_obj, Option.some.injEq] at h
      exact h ▸ .obj e he

theorem kindAt_set (t : Nested κ α) (path : List κ) : (obj (d.set part t)).kindAt (k :: path) =
    if k = part then t.kindAt path else (obj d).kindAt (k :: path) := by
  rw [kindAt_cons, kindAt_cons, child?_obj, child?_obj, Dict.get?_set]
  split <;> rfl

theorem kindAt_assign (hne : path ≠ []) (h : assign d a path = some d') (r : List κ) :
    (obj d').kindAt r = if r = path then some (some a) else if r <+: path then some none
      else if path <+: r then none else (obj d).kindAt r := by
  induction path generalizing d d' r with
  | nil => exact absurd rfl hne
  | cons part parts ih =>
    cases r with
    | nil => simp [obj, kind]
    | cons k ks =>
      by_cases hparts : parts = []
      · subst hparts
        cases h
        rw [kindAt_set]
        by_cases hk : k = part
        · subst hk
          cases ks <;> simp [kind]
        · simp [hk, List.cons_prefix_cons, Ne.symm hk]
      · obtain ⟨current,sub,hcurrent,hsub,rfl⟩ := assign_cons_inv hparts h
        rw [kindAt_set]
        by_cases hk : k = part
        · subst hk
          rw [if_pos rfl, ih hparts hsub]
          simp only [List.cons.injEq, true_and, List.prefix_cons_inj]
          by_cases hks : ks = []
          · simp [hks, Ne.symm hparts]
          · rw [kindAt_current hcurrent hks]
        · simp [hk, List.cons_prefix_cons, Ne.symm hk]

theorem assign_ok_iff (hne : path ≠ []) : (∃ d', assign d a path = some d') ↔
    ∀ front b, front <+: path → front ≠ path → (obj d).kindAt front ≠ some (some b) := by
  induction path generalizing d with
  | nil => exact absurd rfl hne
  | cons part parts ih =>
    by_cases hparts : parts = []
    · subst hparts
      refine iff_of_true ⟨_,rfl⟩ fun front b hfront hproper => ?_
      have hnil : front = [] := by
        cases front with
        | nil => rfl
        | cons k ks =>
          rw [List.cons_prefix_cons, List.prefix_nil] at hfront
          exact absurd (by rw [hfront.1, hfront.2]) hproper
      simp [hnil, obj, kind]
    · rw [assign_cons hparts]
      cases hcurrent : ((d.get? part).getD (obj .empty)).asDict with
      | none =>
        cases hget : d.get? part with
        | none => rw [hget, Option.getD_none, asDict_obj] at hcurrent; cases hcurrent
        | some t =>
          cases t with
          | node fs => rw [hget, Option.getD_some] at hcurrent; cases hcurrent
          | leaf b =>
            refine iff_of_false (by simp) fun h => h [part] b (by simp) (by simpa using Ne.symm hparts) ?_
            simp [hget, kind]
      | some current =>
        have hsub := @ih current hparts
        simp only [Option.bind_some, Option.map_eq_some_iff]
        constructor
        · rintro ⟨d',sub,hs,-⟩ front b hfront hproper hleaf
          cases front with
          | nil => cases hleaf
          | cons k ks =>
            obtain ⟨rfl,hks⟩ := List.cons_prefix_cons.mp hfront
            exact hsub.mp ⟨sub,hs⟩ ks b hks (fun he => hproper (by rw [he])) ((leaf_current hcurrent ks b).mpr hleaf)
        · intro h
          obtain ⟨sub,hs⟩ := hsub.mpr fun front b hfront hproper hleaf =>
            h (part :: front) b ((List.prefix_cons_inj part).mpr hfront)
              (fun he => hproper (List.cons.inj he).2) ((leaf_current hcurrent front b).mp hleaf)
          exact ⟨_,sub,hs,rfl⟩

theorem proper_assign (hd : Proper (obj d)) (h : assign d a path = some d') : Proper (obj d') := by
  induction path generalizing d d' with
  | nil => cases h; exact hd
  | cons part parts ih =>
    have hset (t : Nested κ α) (ht : Proper t) : Proper (obj (d.set part t)) := by
      refine proper_obj_iff.mpr fun k u hget => ?_
      rw [Dict.get?_set] at hget
      split at hget
      · cases hget; exact ht
      · exact proper_obj_iff.mp hd k u hget
    by_cases hparts : parts = []
    · subst hparts
      cases h
      exact hset _ (.leaf a)
    · obtain ⟨current,sub,hcurrent,hsub,rfl⟩ := assign_cons_inv hparts h
      exact hset _ (ih (proper_current hd hcurrent) hsub)

end Assign

def assignAll (d : Dict κ (Nested κ α)) : List (List κ × α) → Option (Dict κ (Nested κ α))
  | [] => some d
  | (path, a) :: writes => (assign d a path).bind (fun d => assignAll d writes)

def Compatible (writes : List (List κ × α)) : Prop :=
  ∀ p a q b, (p, a) ∈ writes → (q, b) ∈ writes → p <+: q → p = q ∧ a = b

structure Holds (writes : List (List κ × α)) (d : Dict κ (Nested κ α)) : Prop where
  leaf : ∀ path a, (path, a) ∈ writes → (obj d).kindAt path = some (some a)
  node : ∀ r path a, (path, a) ∈ writes → r <+: path → r ≠ path → (obj d).kindAt r = some none
  absent : ∀ r, r ≠ [] → (∀ path a, (path, a) ∈ writes → ¬ r <+: path) → (obj d).kindAt r = none

section Writes

variable {writes writes' : List (List κ × α)} {d d' e : Dict κ (Nested κ α)} {p q r : List κ} {a b : α}

theorem assignAll_append : assignAll d (writes ++ writes') =
    (assignAll d writes).bind (fun d => assignAll d writes') := by
  induction writes generalizing d with
  | nil => rfl
  | cons write writes ih =>
    obtain ⟨path,a⟩ := write
    rw [List.cons_append, assignAll, assignAll]
    cases assign d a path with
    | none => rfl
    | some d => exact ih

theorem Holds.exists_leaf (h : Holds writes d) (hr : (obj d).kindAt r = some (some a)) :
    ∃ a, (r, a) ∈ writes := by
  have hne : r ≠ [] := by
    rintro rfl
    cases hr
  by_contra hnone
  have habsent : ∀ path b, (path, b) ∈ writes → ¬ r <+: path := by
    intro path b hm hbelow
    have hproper : r ≠ path := by
      rintro rfl
      exact hnone ⟨b,hm⟩
    rw [h.node r path b hm hbelow hproper] at hr
    cases hr
  rw [h.absent r hne habsent] at hr
  cases hr

theorem Holds.same (h : Holds writes d) (h' : Holds writes e) : Same (obj d) (obj e) := by
  intro r
  by_cases hr : r = []
  · subst hr; rfl
  · by_cases hleads : ∃ path a, (path, a) ∈ writes ∧ r <+: path
    · obtain ⟨path,a,hm,hbelow⟩ := hleads
      by_cases he : r = path
      · subst he
        rw [h.leaf r a hm, h'.leaf r a hm]
      · rw [h.node r path a hm hbelow he, h'.node r path a hm hbelow he]
    · have habsent : ∀ path a, (path, a) ∈ writes → ¬ r <+: path :=
        fun path a hm hbelow => hleads ⟨path,a,hm,hbelow⟩
      rw [h.absent r hr habsent, h'.absent r hr habsent]

theorem Holds.perm (h : Holds writes d) (hperm : writes.Perm writes') : Holds writes' d := by
  refine ⟨fun path a hm => h.leaf path a (hperm.mem_iff.mpr hm),
    fun r path a hm => h.node r path a (hperm.mem_iff.mpr hm),fun r hr habsent => ?_⟩
  exact h.absent r hr fun path a hm => habsent path a (hperm.mem_iff.mp hm)

theorem Holds.write (h : Holds writes d) (hc : Compatible (writes ++ [(p, a)])) (hp : p ≠ [])
    (hd : assign d a p = some d') : Holds (writes ++ [(p, a)]) d' := by
  have hkind := kindAt_assign hp hd
  have hlast : (p, a) ∈ writes ++ [(p, a)] := by simp
  refine ⟨fun path b hm => ?_,fun r path b hm hbelow hne => ?_,fun r hr habsent => ?_⟩
  · rw [hkind]
    by_cases he : path = p
    · subst he
      rw [if_pos rfl, (hc path b path a hm hlast (List.prefix_refl path)).2]
    · rw [if_neg he, if_neg fun hto => he (hc path b p a hm hlast hto).1,
        if_neg fun hthrough => he (hc p a path b hlast hm hthrough).1.symm]
      rcases List.mem_append.mp hm with hm | hm
      · exact h.leaf path b hm
      · exact absurd (Prod.mk.inj (List.mem_singleton.mp hm)).1 he
  · rw [hkind]
    by_cases he : r = p
    · subst he
      exact absurd (hc r a path b hlast hm hbelow).1 hne
    · rw [if_neg he]
      split
      · rfl
      · next hto =>
        split
        · next hthrough =>
          have hsame := (hc p a path b hlast hm (hthrough.trans hbelow)).1
          exact absurd (hsame ▸ hbelow) hto
        · rcases List.mem_append.mp hm with hm | hm
          · exact h.node r path b hm hbelow hne
          · rw [(Prod.mk.inj (List.mem_singleton.mp hm)).1] at hbelow
            exact absurd hbelow hto
  · have hto : ¬ r <+: p := habsent p a hlast
    have hne : r ≠ p := fun he => hto (he ▸ List.prefix_refl r)
    rw [hkind, if_neg hne, if_neg hto]
    split
    · rfl
    · exact h.absent r hr fun path b hm => habsent path b (List.mem_append_left _ hm)

theorem assignAll_holds (hne : ∀ path a, (path, a) ∈ writes → path ≠ []) (hc : Compatible writes) :
    ∃ d, assignAll .empty writes = some d ∧ Holds writes d ∧ Proper (obj d) := by
  induction writes using List.reverseRecOn with
  | nil =>
    refine ⟨.empty,rfl,⟨by simp,by simp,fun r hr _ => ?_⟩,.obj _ fun k t hk => by cases hk⟩
    obtain ⟨k,ks,rfl⟩ := List.exists_cons_of_ne_nil hr
    simp
  | append_singleton writes write ih =>
    obtain ⟨p,a⟩ := write
    have hpre : Compatible writes := fun p a q b hp hq =>
      hc p a q b (List.mem_append_left _ hp) (List.mem_append_left _ hq)
    obtain ⟨d,hd,hholds,hproper⟩ := ih (fun path b hm => hne path b (List.mem_append_left _ hm)) hpre
    have hp : p ≠ [] := hne p a (by simp)
    obtain ⟨d',hd'⟩ := (assign_ok_iff hp).mpr fun front b hfront hproper hleaf => by
      obtain ⟨c,hm⟩ := hholds.exists_leaf hleaf
      exact hproper (hc front c p a (List.mem_append_left _ hm) (by simp) hfront).1
    refine ⟨d',?_,hholds.write hc hp hd',proper_assign hproper hd'⟩
    rw [assignAll_append, hd]
    simp [assignAll, hd']

theorem assignAll_through (hp : p ≠ []) (hbelow : p <+: q) (hne : p ≠ q) :
    assignAll d ((p, a) :: (q, b) :: writes) = none := by
  rw [assignAll]
  cases hd : assign d a p with
  | none => rfl
  | some d' =>
    have hq : q ≠ [] := by
      rintro rfl
      exact hp (List.prefix_nil.mp hbelow)
    have hleaf : (obj d').kindAt p = some (some a) := by rw [kindAt_assign hp hd, if_pos rfl]
    have hblocked : assign d' b q = none := by
      cases hq' : assign d' b q with
      | none => rfl
      | some d'' => exact absurd hleaf ((assign_ok_iff hq).mp ⟨d'',hq'⟩ p a hbelow hne)
    rw [Option.bind_some, assignAll, hblocked]
    rfl

theorem assignAll_last (hp : p ≠ []) (h : assignAll d (writes ++ [(p, a)]) = some e) :
    (obj e).kindAt p = some (some a) := by
  rw [assignAll_append] at h
  obtain ⟨d',-,h⟩ := Option.bind_eq_some_iff.mp h
  have hlast : assign d' a p = some e := by simpa [assignAll] using h
  rw [kindAt_assign hp hlast, if_pos rfl]

end Writes

end Nested
