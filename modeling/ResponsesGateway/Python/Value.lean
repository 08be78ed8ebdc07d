import Mathlib.Algebra.Order.BigOperators.Group.List
import Mathlib.Data.List.Sort
import ResponsesGateway.Python.Json

theorem Dict.map_setEntry {κ α β : Type} [DecidableEq κ] (f : α → β) (k : κ) (v : α) (es : List (κ × α)) :
    (setEntry k v es).map (Prod.map id f) = setEntry k (f v) (es.map (Prod.map id f)) := by
  induction es with
  | nil => rfl
  | cons e es ih =>
    by_cases h : e.1 = k
    · simp [setEntry, h]
    · simp [setEntry, h, ih]

theorem Dict.map_filter_ne {κ α β : Type} [DecidableEq κ] (f : α → β) (k : κ) (es : List (κ × α)) :
    (es.filter (fun e => decide (e.1 ≠ k))).map (Prod.map id f) =
      (es.map (Prod.map id f)).filter (fun e => decide (e.1 ≠ k)) := by
  rw [List.filter_map]
  rfl

def PyFloat.value : PyFloat → PyFloat
  | negZero => finite 0
  | x => x

theorem PyFloat.eq_iff_value {x y : PyFloat} (h : x ≠ nan) : x.eq y = true ↔ x.value = y.value := by
  cases x <;> cases y <;> simp_all [eq, value, toRat?]

namespace Json

def codePoints (s : String) : List ℕ := s.toList.map Char.toNat

def keyBefore (f g : String × Json) : Bool := !List.lex (codePoints g.1) (codePoints f.1)

mutual
/-- What `==` compares: numbers by value, dicts in any order of their keys. A nan is itself. -/
def value : Json → Json
  | bool b => float (.finite (if b then 1 else 0))
  | int n => float (.finite n)
  | float x => float x.value
  | list xs => list (valueItems xs)
  | dict fs => dict ((valueFields fs).insertionSort (fun f g => keyBefore f g = true))
  | x => x

def valueItems : List Json → List Json
  | [] => []
  | x :: xs => value x :: valueItems xs

def valueFields : List (String × Json) → List (String × Json)
  | [] => []
  | (k, v) :: fs => (k, value v) :: valueFields fs
end

mutual
def nodes : Json → ℕ
  | list xs => nodesItems xs + 1
  | dict fs => nodesFields fs + 1
  | _ => 1

def nodesItems : List Json → ℕ
  | [] => 0
  | x :: xs => nodes x + nodesItems xs

def nodesFields : List (String × Json) → ℕ
  | [] => 0
  | (_, v) :: fs => nodes v + nodesFields fs
end

theorem valueItems_eq_map (xs : List Json) : valueItems xs = xs.map value := by
  induction xs with
  | nil => rfl
  | cons x xs ih => rw [valueItems, ih, List.map_cons]

theorem valueFields_eq_map (fs : List (String × Json)) : valueFields fs = fs.map (Prod.map id value) := by
  induction fs with
  | nil => rfl
  | cons f fs ih => rw [valueFields, ih, List.map_cons]; rfl

theorem nodesItems_eq_sum (xs : List Json) : nodesItems xs = (xs.map nodes).sum := by
  induction xs with
  | nil => rfl
  | cons x xs ih => rw [nodesItems, ih, List.map_cons, List.sum_cons]

theorem nodesFields_eq_sum (fs : List (String × Json)) : nodesFields fs = (fs.map (fun f => f.2.nodes)).sum := by
  induction fs with
  | nil => rfl
  | cons f fs ih => rw [nodesFields, ih, List.map_cons, List.sum_cons]

theorem nodesFields_perm {fs gs : List (String × Json)} (h : fs.Perm gs) : nodesFields fs = nodesFields gs := by
  rw [nodesFields_eq_sum, nodesFields_eq_sum]
  exact (h.map _).sum_eq

mutual
theorem nodes_value : ∀ x : Json, x.value.nodes = x.nodes
  | null => rfl
  | bool _ => rfl
  | int _ => rfl
  | float _ => rfl
  | str _ => rfl
  | list xs => by simp only [value, nodes, nodes_valueItems xs]
  | dict fs => by
      simp only [value, nodes, nodesFields_perm (List.perm_insertionSort _ _), nodes_valueFields fs]

theorem nodes_valueItems : ∀ xs : List Json, nodesItems (valueItems xs) = nodesItems xs
  | [] => rfl
  | x :: xs => by simp only [valueItems, nodesItems, nodes_value x, nodes_valueItems xs]

theorem nodes_valueFields : ∀ fs : List (String × Json), nodesFields (valueFields fs) = nodesFields fs
  | [] => rfl
  | (k, v) :: fs => by simp only [valueFields, nodesFields, nodes_value v, nodes_valueFields fs]
end

theorem value_list_inj {xs ys : List Json} : (list xs).value = (list ys).value ↔ xs.map value = ys.map value := by
  simp only [value, list.injEq, valueItems_eq_map]

theorem value_obj (d : JsonDict) : (obj d).value =
    dict ((d.entries.map (Prod.map id value)).insertionSort (fun f g => keyBefore f g = true)) := by
  rw [obj, value, valueFields_eq_map]

theorem value_obj_set {d : JsonDict} {k : String} {v w : Json} (h : v.value = w.value) (j : String) :
    (obj ((d.set k v).erase j)).value = (obj ((d.set k w).erase j)).value := by
  simp only [value_obj, Dict.erase, Dict.set, Dict.map_filter_ne, Dict.map_setEntry, h]

theorem codePoints_injective : Function.Injective codePoints := fun _ _ h =>
  String.toList_inj.mp (List.map_injective_iff.mpr (fun _ _ hc => Char.ext (UInt32.toNat_inj.mp hc)) h)

theorem keyBefore_iff {f g : String × Json} :
    keyBefore f g = true ↔ List.le (codePoints f.1) (codePoints g.1) := by
  rw [keyBefore, Bool.not_eq_true', List.lex_eq_false_iff_ge]
  rfl

instance : Std.Total (fun f g : String × Json => keyBefore f g = true) where
  total f g := (List.le_total (codePoints f.1) (codePoints g.1)).imp keyBefore_iff.mpr keyBefore_iff.mpr

instance : IsTrans (String × Json) (fun f g => keyBefore f g = true) where
  trans _ _ _ hfg hgh := keyBefore_iff.mpr (List.le_trans (keyBefore_iff.mp hfg) (keyBefore_iff.mp hgh))

theorem sorted_eq_iff {fs gs : List (String × Json)} (h : (fs.map Prod.fst).Nodup) :
    fs.insertionSort (fun f g => keyBefore f g = true) = gs.insertionSort (fun f g => keyBefore f g = true) ↔
      fs.Perm gs := by
  have hf := List.perm_insertionSort (fun f g => keyBefore f g = true) fs
  have hg := List.perm_insertionSort (fun f g => keyBefore f g = true) gs
  constructor
  · intro hs
    rw [hs] at hf
    exact hf.symm.trans hg
  · intro hperm
    refine List.Perm.eq_of_pairwise ?_ (List.pairwise_insertionSort _ fs) (List.pairwise_insertionSort _ gs)
      ((hf.trans hperm).trans hg.symm)
    intro f g hmem hmem' hfg hgf
    rw [keyBefore_iff] at hfg hgf
    exact List.inj_on_of_nodup_map h (hf.mem_iff.mp hmem) (hperm.mem_iff.mpr (hg.mem_iff.mp hmem'))
      (codePoints_injective (List.le_antisymm hfg hgf))

theorem value_obj_eq_iff {d e : JsonDict} : (obj d).value = (obj e).value ↔
    (d.entries.map (Prod.map id value)).Perm (e.entries.map (Prod.map id value)) := by
  have hd : ((d.entries.map (Prod.map id value)).map Prod.fst).Nodup := by
    rw [List.map_map]
    exact d.nodup
  rw [value_obj, value_obj, dict.injEq, sorted_eq_iff hd]

theorem value_get? {d e : JsonDict} (h : (obj d).value = (obj e).value) {k : String} {v : Json}
    (hv : d.get? k = some v) : ∃ w, e.get? k = some w ∧ v.value = w.value := by
  have hm : (k, v.value) ∈ d.entries.map (Prod.map id value) :=
    List.mem_map.mpr ⟨(k, v),d.mem_entries_iff.mpr hv,rfl⟩
  obtain ⟨⟨j,w⟩,hw,he⟩ := List.mem_map.mp ((value_obj_eq_iff.mp h).mem_iff.mp hm)
  obtain ⟨rfl,hvalue⟩ := Prod.mk.inj he
  exact ⟨w,e.mem_entries_iff.mp hw,hvalue.symm⟩

theorem value_obj_eq_iff_get? {d e : JsonDict} : (obj d).value = (obj e).value ↔
    d.entries.length = e.entries.length ∧ ∀ f ∈ d.entries, ∃ w, e.get? f.1 = some w ∧ f.2.value = w.value := by
  constructor
  · intro h
    have hlen := (value_obj_eq_iff.mp h).length_eq
    rw [List.length_map, List.length_map] at hlen
    exact ⟨hlen,fun f hf => value_get? h (d.mem_entries_iff.mp hf)⟩
  · rintro ⟨hlen,hfields⟩
    have hsub : d.entries.map (Prod.map id value) ⊆ e.entries.map (Prod.map id value) := by
      intro g hg
      obtain ⟨f,hf,rfl⟩ := List.mem_map.mp hg
      obtain ⟨w,hw,hvalue⟩ := hfields f hf
      exact List.mem_map.mpr ⟨(f.1, w),e.mem_entries_iff.mpr hw,by rw [Prod.map, Prod.map, hvalue]⟩
    have hnodup : (d.entries.map (Prod.map id value)).Nodup := by
      refine List.Nodup.of_map Prod.fst ?_
      rw [List.map_map]
      exact d.nodup
    exact value_obj_eq_iff.mpr ((List.subperm_of_subset hnodup hsub).perm_of_length_le (by simp [hlen]))

theorem nodes_lt_of_get? {d : JsonDict} {k : String} {v : Json} (h : d.get? k = some v) :
    v.nodes < (obj d).nodes := by
  have hm : v.nodes ∈ d.entries.map (fun f => f.2.nodes) :=
    List.mem_map.mpr ⟨(k, v),(d.mem_entries_iff).mpr h,rfl⟩
  have hle := List.single_le_sum (by simp) _ hm
  rw [obj, nodes, nodesFields_eq_sum]
  omega

theorem nodes_lt_of_mem {xs : List Json} {x : Json} (h : x ∈ xs) : x.nodes < (list xs).nodes := by
  have hle := List.single_le_sum (by simp) _ (List.mem_map_of_mem (f := nodes) h)
  rw [nodes, nodesItems_eq_sum]
  omega

mutual
def Comparable : Json → Prop
  | float x => x ≠ .nan
  | list xs => ComparableItems xs
  | dict fs => (fs.map Prod.fst).Nodup ∧ ComparableFields fs
  | _ => True

def ComparableItems : List Json → Prop
  | [] => True
  | x :: xs => Comparable x ∧ ComparableItems xs

def ComparableFields : List (String × Json) → Prop
  | [] => True
  | (_, v) :: fs => Comparable v ∧ ComparableFields fs
end

theorem comparableFields_iff {fs : List (String × Json)} : ComparableFields fs ↔ ∀ f ∈ fs, f.2.Comparable := by
  induction fs with
  | nil => simp [ComparableFields]
  | cons f fs ih => simp [ComparableFields, ih]

theorem value_of_whole {x : Json} {n : ℤ} (h : x.whole? = some n) : x.value = float (.finite n) := by
  cases x <;> simp_all [whole?, value]
  cases h
  split <;> simp

theorem eq_iff_of_whole {x : Json} {n : ℤ} (hx : x.whole? = some n) (y : Json) :
    x.eq y = true ↔ x.value = y.value := by
  rw [value_of_whole hx]
  have hscalar : eqScalar x y = true ↔ float (.finite n) = y.value := by
    cases y with
    | bool b => cases x <;> simp_all [eqScalar, whole?, value] <;> norm_cast <;> exact eq_comm
    | int m => cases x <;> simp_all [eqScalar, whole?, value] <;> exact eq_comm
    | float q =>
      cases x <;> cases q <;> simp_all [eqScalar, whole?, value, PyFloat.toRat?, PyFloat.value] <;>
        norm_cast <;> exact eq_comm
    | _ => cases x <;> simp_all [eqScalar, whole?, value]
  cases x <;> cases y <;> simp_all [eq, whole?, value]

theorem eq_iff_of_float {x : PyFloat} (hx : x ≠ .nan) (y : Json) :
    (float x).eq y = true ↔ float x.value = y.value := by
  cases y with
  | float y => simp [eq, eqScalar, value, PyFloat.eq_iff_value hx]
  | _ => cases x <;> simp_all [eq, eqScalar, value, whole?, PyFloat.value, PyFloat.toRat?]

mutual
-- Without a nan, `value` decides `==`.
theorem eq_iff_value : ∀ {x : Json}, x.Comparable → ∀ {y : Json}, y.Comparable → (x.eq y = true ↔ x.value = y.value)
  | null, _, y, _ => by cases y <;> simp [eq, eqScalar, whole?, value]
  | bool b, _, y, _ => eq_iff_of_whole rfl y
  | int n, _, y, _ => eq_iff_of_whole rfl y
  | float x, hx, y, _ => eq_iff_of_float (by simpa [Comparable] using hx) y
  | str s, _, y, _ => by cases y <;> simp [eq, eqScalar, whole?, value]
  | list xs, hx, y, hy => by
    cases y with
    | list ys =>
      simp only [Comparable] at hx hy
      simp only [eq, value, list.injEq, eqItems_iff_value hx hy]
    | _ => simp [eq, value]
  | dict fs, hx, y, hy => by
    cases y with
    | dict gs =>
      simp only [Comparable] at hx hy
      have hvalue := @value_obj_eq_iff_get? ⟨fs, hx.1⟩ ⟨gs, hy.1⟩
      simp only [eq, Bool.and_eq_true, beq_iff_eq, eqFields_iff_value hx.2 hy.2]
      exact hvalue.symm
    | _ => simp [eq, value]

theorem eqItems_iff_value : ∀ {xs : List Json}, ComparableItems xs → ∀ {ys : List Json}, ComparableItems ys →
    (eqList xs ys = true ↔ valueItems xs = valueItems ys)
  | [], _, ys, _ => by cases ys <;> simp [eqList, valueItems]
  | x :: xs, hx, ys, hy => by
    cases ys with
    | nil => simp [eqList, valueItems]
    | cons y ys =>
      simp only [ComparableItems] at hx hy
      simp only [eqList, valueItems, Bool.and_eq_true, List.cons.injEq, eq_iff_value hx.1 hy.1,
        eqItems_iff_value hx.2 hy.2]

theorem eqFields_iff_value : ∀ {fs : List (String × Json)}, ComparableFields fs →
    ∀ {gs : List (String × Json)}, ComparableFields gs →
    (eqFields fs gs = true ↔ ∀ f ∈ fs, ∃ w, gs.lookup f.1 = some w ∧ f.2.value = w.value)
  | [], _, gs, _ => by simp [eqFields]
  | (k, v) :: fs, hx, gs, hy => by
    simp only [ComparableFields] at hx
    cases hw : gs.lookup k with
    | none => simp [eqFields, hw]
    | some w =>
      have hmem : (k, w) ∈ gs := by
        obtain ⟨l₁,l₂,rfl,-⟩ := List.lookup_eq_some_iff.mp hw
        simp
      have hw' := comparableFields_iff.mp hy _ hmem
      simp [eqFields, hw, eqFields_iff_value hx.2 hy, eq_iff_value hx.1 hw']
end

end Json

example : (Json.dict [("role", .str "assistant"), ("content", .int 1)]).value =
    (Json.dict [("content", .bool true), ("role", .str "assistant")]).value := by decide
