import ResponsesGateway.Python.RoundTrip

namespace Json

theorem loadableItems_iff {xs : List Json} : LoadableItems xs ↔ ∀ x ∈ xs, x.Loadable := by
  induction xs with
  | nil => simp [LoadableItems]
  | cons x xs ih => simp [LoadableItems, ih]

theorem loadableFields_iff {fs : List (String × Json)} : LoadableFields fs ↔ ∀ f ∈ fs, f.2.Loadable := by
  induction fs with
  | nil => simp [LoadableFields]
  | cons f fs ih =>
    obtain ⟨k,v⟩ := f
    simp [LoadableFields, ih]

inductive Scanned (n : ℕ) : List Char → Json → List Char → Prop
  | string {cs s rest} : scanString cs = some (s, rest) → Scanned n ('"' :: cs) (str (String.ofList s)) rest
  | noItems {cs rest} : skip cs = ']' :: rest → Scanned n ('[' :: cs) (list []) rest
  | items {cs xs rest} : scanItems n (skip cs) = some (xs, rest) → Scanned n ('[' :: cs) (list xs) rest
  | noMembers {cs rest} : skip cs = '\x7d' :: rest → Scanned n ('\x7b' :: cs) (dict []) rest
  | members {cs fs rest} : scanMembers n (skip cs) = some (fs, rest) →
      Scanned n ('\x7b' :: cs) (dict (Dict.ofEntries fs).entries) rest
  | scalar {cs x rest} : scanScalar cs = some (x, rest) → Scanned n cs x rest

section Texts

variable {n m : ℕ} {cs rest : List Char} {x : Json} {xs : List Json} {fs : List (String × Json)}

theorem scanned_of_scan (h : scan (n + 1) cs = some (x, rest)) : Scanned n cs x rest := by
  unfold scan at h
  split at h
  · obtain ⟨⟨s,rest⟩,hs,he⟩ := Option.map_eq_some_iff.mp h
    cases he
    exact .string hs
  · split at h
    · next hskip =>
      cases h
      exact .noItems hskip
    · obtain ⟨⟨xs,rest⟩,hxs,he⟩ := Option.map_eq_some_iff.mp h
      cases he
      exact .items hxs
  · split at h
    · next hskip =>
      cases h
      exact .noMembers hskip
    · obtain ⟨⟨fs,rest⟩,hfs,he⟩ := Option.map_eq_some_iff.mp h
      cases he
      exact .members hfs
  · exact .scalar h

theorem scan_of_scanned (h : Scanned n cs x rest) : scan (n + 1) cs = some (x, rest) := by
  cases h with
  | string hs => simp [scan, hs]
  | noItems hskip => simp [scan, hskip]
  | items hxs =>
    rw [scan]
    split
    · next hskip => exact absurd hskip ((skip_of_scanItems hxs).2 _)
    · rw [hxs]; rfl
  | noMembers hskip => simp [scan, hskip]
  | members hfs =>
    rw [scan]
    split
    · next hskip => exact absurd hskip ((skip_of_scanMembers hfs).2 _)
    · rw [hfs]; rfl
  | scalar hx => exact scan_of_scanScalar hx

theorem scanItems_succ_iff : scanItems (n + 1) cs = some (xs, rest) ↔
    ∃ x cs', scan n cs = some (x, cs') ∧ (skip cs' = ']' :: rest ∧ xs = [x] ∨
      ∃ cs'' ys, skip cs' = ',' :: cs'' ∧ scanItems n (skip cs'') = some (ys, rest) ∧ xs = x :: ys) := by
  simp only [scanItems, Option.bind_eq_bind, Option.bind_eq_some_iff, Prod.exists]
  refine exists_congr fun x => exists_congr fun cs' => and_congr_right fun _ => ?_
  split
  · next hskip => simp [hskip, eq_comm, and_comm]
  · next cs'' hskip =>
    rw [hskip]
    simp only [Option.bind_eq_some_iff, Option.pure_def, Option.some.injEq, Prod.mk.injEq, Prod.exists]
    constructor
    · rintro ⟨ys,_,hys,rfl,rfl⟩
      exact Or.inr ⟨cs'',ys,rfl,hys,rfl⟩
    · rintro (⟨h,-⟩ | ⟨_,ys,h,hys,rfl⟩)
      · cases h
      · cases h
        exact ⟨ys,rest,hys,rfl,rfl⟩
  · next h₁ h₂ =>
    refine iff_of_false (by simp) ?_
    rintro (⟨h,-⟩ | ⟨_,_,h,-⟩)
    · exact h₁ _ h
    · exact h₂ _ h

theorem scanMembers_succ_iff : scanMembers (n + 1) cs = some (fs, rest) ↔
    ∃ k cs₁, scanKey cs = some (k, cs₁) ∧ ∃ v cs₂, scan n cs₁ = some (v, cs₂) ∧
      (skip cs₂ = '\x7d' :: rest ∧ fs = [(k, v)] ∨
        ∃ cs₃ gs, skip cs₂ = ',' :: cs₃ ∧ scanMembers n (skip cs₃) = some (gs, rest) ∧ fs = (k, v) :: gs) := by
  simp only [scanMembers, Option.bind_eq_bind, Option.bind_eq_some_iff, Prod.exists]
  refine exists_congr fun k => exists_congr fun cs₁ => and_congr_right fun _ => ?_
  refine exists_congr fun v => exists_congr fun cs₂ => and_congr_right fun _ => ?_
  split
  · next hskip => simp [hskip, eq_comm, and_comm]
  · next cs₃ hskip =>
    rw [hskip]
    simp only [Option.bind_eq_some_iff, Option.pure_def, Option.some.injEq, Prod.mk.injEq, Prod.exists]
    constructor
    · rintro ⟨gs,_,hgs,rfl,rfl⟩
      exact Or.inr ⟨cs₃,gs,rfl,hgs,rfl⟩
    · rintro (⟨h,-⟩ | ⟨_,gs,h,hgs,rfl⟩)
      · cases h
      · cases h
        exact ⟨gs,rest,hgs,rfl,rfl⟩
  · next h₁ h₂ =>
    refine iff_of_false (by simp) ?_
    rintro (⟨h,-⟩ | ⟨_,_,h,-⟩)
    · exact h₁ _ h
    · exact h₂ _ h

theorem length_skip (cs : List Char) : (skip cs).length ≤ cs.length :=
  (List.dropWhile_sublist _).length_le

theorem push_eq_some_iff {c : Char} {r : Option (List Char × List Char)} {s : List Char} :
    push c r = some (s, rest) ↔ ∃ t, r = some (t, rest) ∧ s = c :: t := by
  simp [push, eq_comm]

theorem length_scanString {s : List Char} (h : scanString cs = some (s, rest)) : rest.length < cs.length := by
  induction cs using scanString.induct generalizing s rest with
  | case1 => cases h
  | case2 cs => 
    cases h
    simp
  | case3 a b c d cs ih ih' =>
    simp only [scanString, Option.bind_eq_bind, Option.bind_eq_some_iff] at h
    obtain ⟨high,-,h⟩ := h
    split at h
    · split at h
      · obtain ⟨low,-,h⟩ := Option.bind_eq_some_iff.mp h
        split at h
        · obtain ⟨t,ht,-⟩ := push_eq_some_iff.mp h
          have := ih ht
          simp only [List.length_cons]
          omega
        · cases h
      · cases h
    · split at h
      · cases h
      · obtain ⟨t,ht,-⟩ := push_eq_some_iff.mp h
        have := ih' ht
        simp only [List.length_cons]
        omega
  | case4 c cs hne ih =>
    rw [scanString] at h
    · obtain ⟨a,-,h⟩ := Option.bind_eq_some_iff.mp h
      obtain ⟨t,ht,-⟩ := push_eq_some_iff.mp h
      have := ih ht
      simp only [List.length_cons]
      omega
    · exact hne
  | case5 c cs hq hu hb hlt =>
    rw [scanString, if_pos hlt] at h
    · cases h
    · exact hq
    · exact hu
    · exact hb
  | case6 c cs hq hu hb hlt ih =>
    rw [scanString, if_neg hlt] at h
    · obtain ⟨t,ht,-⟩ := push_eq_some_iff.mp h
      have := ih ht
      simp only [List.length_cons]
      omega
    · exact hq
    · exact hu
    · exact hb

theorem scanWhole_some {ds : List Char} (h : scanWhole cs = some (ds, rest)) :
    AllDigits ds ∧ rest.length < cs.length := by
  cases cs with
  | nil => cases h
  | cons c cs =>
    simp only [scanWhole] at h
    split at h
    · cases h
      exact ⟨allDigits_replicate 1, by simp⟩
    · split at h
      · next hc =>
        cases h
        refine ⟨?_,Nat.lt_succ_of_le (List.dropWhile_sublist _).length_le⟩
        intro d hd
        rcases List.mem_cons.mp hd with rfl | hd
        · exact hc
        · exact List.mem_takeWhile_imp hd
      · cases h

theorem length_scanFraction (cs : List Char) : (scanFraction cs).2.length ≤ cs.length := by
  unfold scanFraction
  split
  · split
    · rfl
    · exact Nat.le_succ_of_le (List.dropWhile_sublist _).length_le
  · rfl

theorem length_scanExponent (cs : List Char) : (scanExponent cs).2.length ≤ cs.length := by
  have hsign (cs : List Char) : (scanSign cs).2.length ≤ cs.length := by
    unfold scanSign
    split <;> simp
  cases cs with
  | nil => rfl
  | cons c cs =>
    simp only [scanExponent]
    split
    · exact Nat.le_succ_of_le ((List.dropWhile_sublist _).length_le.trans (hsign cs))
    · rfl

theorem ofDigitChars_lt {ds : List Char} (h : AllDigits ds) : Nat.ofDigitChars 10 ds 0 < 10 ^ ds.length := by
  induction ds with
  | nil => simp
  | cons c ds ih =>
    have hds := ih fun d hd => h d (by simp [hd])
    have hc := Char.isDigit_iff_toNat.mp (h c (by simp))
    rw [Nat.ofDigitChars_cons, Nat.ofDigitChars_eq_ofDigitChars_zero, List.length_cons, pow_succ]
    have : 10 * 0 + (c.toNat - '0'.toNat) ≤ 9 := by
      have h9 : '9'.toNat = 57 := rfl
      have h0 : '0'.toNat = 48 := rfl
      omega
    nlinarith [Nat.mul_le_mul_left (10 ^ ds.length) this]

theorem isDouble_ofDecimal (negative : Bool) (d : ℕ) (e : ℤ) : (PyFloat.ofDecimal negative d e).IsDouble := by
  unfold PyFloat.ofDecimal
  split
  · cases negative <;> trivial
  · exact PyFloat.isDouble_ofRat _

theorem scanNumber_some {negative : Bool} (h : scanNumber negative cs = some (x, rest)) :
    x.Loadable ∧ rest.length < cs.length := by
  simp only [scanNumber, Option.bind_eq_bind, Option.bind_eq_some_iff, Prod.exists] at h
  obtain ⟨ds,cs',hds,h⟩ := h
  obtain ⟨hall,hlt⟩ := scanWhole_some hds
  have hle := (length_scanExponent (scanFraction cs').2).trans (length_scanFraction cs')
  split at h
  · split at h
    · cases h
    · next hlen =>
      cases h
      refine ⟨?_,by omega⟩
      have hpos : 0 < PyInt.maxStrDigits := by decide
      have hnat : (Nat.toDigits 10 (Nat.ofDigitChars 10 ds 0)).length ≤ PyInt.maxStrDigits :=
        (Nat.length_toDigits_le_iff (by decide) hpos).mpr ((ofDigitChars_lt hall).trans_le
          (Nat.pow_le_pow_right (by decide) (not_lt.mp hlen)))
      cases negative <;> simpa [Loadable] using hnat
  · cases h
    exact ⟨isDouble_ofDecimal _ _ _, by omega⟩

theorem scanLiteral_some (h : scanLiteral cs = some (x, rest)) : x.Loadable ∧ rest.length < cs.length := by
  obtain ⟨⟨text,y⟩,hmem,h⟩ := List.exists_of_findSome?_eq_some h
  obtain ⟨cs',hdrop,he⟩ := Option.map_eq_some_iff.mp h
  cases he
  obtain ⟨front,hcs,hfront⟩ := List.dropPrefix?_eq_some_iff.mp hdrop
  rw [beq_iff_eq] at hfront
  have hliteral : x.Loadable ∧ 0 < text.length := by
    simp only [literals, List.mem_cons, List.not_mem_nil, or_false, Prod.mk.injEq] at hmem
    rcases hmem with ⟨rfl,rfl⟩ | ⟨rfl,rfl⟩ | ⟨rfl,rfl⟩ | ⟨rfl,rfl⟩ | ⟨rfl,rfl⟩ | ⟨rfl,rfl⟩ <;>
      exact ⟨trivial, by simp⟩
  refine ⟨hliteral.1,?_⟩
  rw [hcs, hfront, List.length_append]
  omega

theorem scanScalar_some (h : scanScalar cs = some (x, rest)) : x.Loadable ∧ rest.length < cs.length := by
  unfold scanScalar at h
  split at h
  · next hlit =>
    rw [h] at hlit
    exact scanLiteral_some hlit
  · split at h
    · obtain ⟨hx,hlt⟩ := scanNumber_some h
      exact ⟨hx, by simp only [List.length_cons]; omega⟩
    · exact scanNumber_some h

theorem length_scanKey {k : String} (h : scanKey cs = some (k, rest)) : rest.length < cs.length := by
  unfold scanKey at h
  split at h
  · simp only [Option.bind_eq_bind, Option.bind_eq_some_iff, Prod.exists] at h
    obtain ⟨s,cs',hs,h⟩ := h
    have hlt := length_scanString hs
    split at h
    · next cs'' hskip =>
      cases h
      have := length_skip cs'
      rw [hskip] at this
      have := length_skip cs''
      simp only [List.length_cons] at *
      omega
    · cases h
  · cases h

theorem scan_some (n : ℕ) :
    (∀ {cs x rest}, scan n cs = some (x, rest) → x.Loadable ∧ rest.length < cs.length) ∧
    (∀ {cs xs rest}, scanItems n cs = some (xs, rest) → LoadableItems xs ∧ rest.length < cs.length) ∧
    ∀ {cs fs rest}, scanMembers n cs = some (fs, rest) → LoadableFields fs ∧ rest.length < cs.length := by
  induction n with
  | zero => exact ⟨fun h => by simp [scan] at h, fun h => by simp [scanItems] at h, fun h => by simp [scanMembers] at h⟩
  | succ n ih =>
    obtain ⟨ihx,ihxs,ihfs⟩ := ih
    refine ⟨?_,?_,?_⟩
    · intro cs x rest h
      cases scanned_of_scan h with
      | string hs => exact ⟨trivial, Nat.lt_succ_of_lt (length_scanString hs)⟩
      | @noItems cs _ hskip =>
        have := length_skip cs
        rw [hskip] at this
        exact ⟨trivial, Nat.lt_succ_of_lt this⟩
      | @items cs _ _ hxs =>
        obtain ⟨hl,hlt⟩ := ihxs hxs
        exact ⟨hl, Nat.lt_succ_of_lt (hlt.trans_le (length_skip cs))⟩
      | @noMembers cs _ hskip =>
        have := length_skip cs
        rw [hskip] at this
        exact ⟨⟨List.nodup_nil, trivial⟩, Nat.lt_succ_of_lt this⟩
      | @members cs fs _ hfs =>
        obtain ⟨hl,hlt⟩ := ihfs hfs
        refine ⟨⟨(Dict.ofEntries fs).nodup, ?_⟩, Nat.lt_succ_of_lt (hlt.trans_le (length_skip cs))⟩
        rw [loadableFields_iff] at hl ⊢
        exact fun f hf => hl f (Dict.mem_of_mem_ofEntries hf)
      | scalar hx => exact scanScalar_some hx
    · intro cs xs rest h
      obtain ⟨x,cs',hx,htail⟩ := scanItems_succ_iff.mp h
      obtain ⟨hl,hlt⟩ := ihx hx
      have hs := length_skip cs'
      rcases htail with ⟨hskip,rfl⟩ | ⟨cs'',ys,hskip,hys,rfl⟩
      · rw [hskip, List.length_cons] at hs
        exact ⟨⟨hl,trivial⟩, by omega⟩
      · obtain ⟨hls,hlts⟩ := ihxs hys
        have hs' := length_skip cs''
        rw [hskip, List.length_cons] at hs
        exact ⟨⟨hl,hls⟩, by omega⟩
    · intro cs fs rest h
      obtain ⟨k,cs₁,hk,v,cs₂,hv,htail⟩ := scanMembers_succ_iff.mp h
      have hlk := length_scanKey hk
      obtain ⟨hl,hlt⟩ := ihx hv
      have hs := length_skip cs₂
      rcases htail with ⟨hskip,rfl⟩ | ⟨cs₃,gs,hskip,hgs,rfl⟩
      · rw [hskip, List.length_cons] at hs
        exact ⟨⟨hl,trivial⟩, by omega⟩
      · obtain ⟨hls,hlts⟩ := ihfs hgs
        have hs' := length_skip cs₃
        rw [hskip, List.length_cons] at hs
        exact ⟨⟨hl,hls⟩, by omega⟩

theorem scan_enough (m : ℕ) :
    (∀ {cs x rest n}, scan m cs = some (x, rest) → 2 * cs.length ≤ n → scan n cs = some (x, rest)) ∧
    (∀ {cs xs rest n}, scanItems m cs = some (xs, rest) → 2 * cs.length < n →
      scanItems n cs = some (xs, rest)) ∧
    ∀ {cs fs rest n}, scanMembers m cs = some (fs, rest) → 2 * cs.length < n →
      scanMembers n cs = some (fs, rest) := by
  induction m with
  | zero => exact ⟨fun h => by simp [scan] at h, fun h => by simp [scanItems] at h, fun h => by simp [scanMembers] at h⟩
  | succ m ih =>
    obtain ⟨ihx,ihxs,ihfs⟩ := ih
    refine ⟨?_,?_,?_⟩
    · intro cs x rest n h hn
      have hlt := ((scan_some (m + 1)).1 h).2
      obtain ⟨n,rfl⟩ : ∃ j, n = j + 1 := ⟨n - 1, by omega⟩
      refine scan_of_scanned ?_
      cases scanned_of_scan h with
      | string hs => exact .string hs
      | noItems hskip => exact .noItems hskip
      | @items cs _ _ hxs =>
        have := length_skip cs
        rw [List.length_cons] at hn
        exact .items (ihxs hxs (by omega))
      | noMembers hskip => exact .noMembers hskip
      | @members cs fs _ hfs =>
        have := length_skip cs
        rw [List.length_cons] at hn
        exact .members (ihfs hfs (by omega))
      | scalar hx => exact .scalar hx
    · intro cs xs rest n h hn
      obtain ⟨n,rfl⟩ : ∃ j, n = j + 1 := ⟨n - 1, by omega⟩
      obtain ⟨x,cs',hx,htail⟩ := scanItems_succ_iff.mp h
      refine scanItems_succ_iff.mpr ⟨x,cs',ihx hx (by omega),?_⟩
      refine htail.imp id ?_
      rintro ⟨cs'',ys,hskip,hys,rfl⟩
      have hlt := ((scan_some m).1 hx).2
      have hs := length_skip cs'
      have hs' := length_skip cs''
      rw [hskip, List.length_cons] at hs
      exact ⟨cs'',ys,hskip,ihxs hys (by omega),rfl⟩
    · intro cs fs rest n h hn
      obtain ⟨n,rfl⟩ : ∃ j, n = j + 1 := ⟨n - 1, by omega⟩
      obtain ⟨k,cs₁,hk,v,cs₂,hv,htail⟩ := scanMembers_succ_iff.mp h
      have hlk := length_scanKey hk
      refine scanMembers_succ_iff.mpr ⟨k,cs₁,hk,v,cs₂,ihx hv (by omega),?_⟩
      refine htail.imp id ?_
      rintro ⟨cs₃,gs,hskip,hgs,rfl⟩
      have hlt := ((scan_some m).1 hv).2
      have hs := length_skip cs₂
      have hs' := length_skip cs₃
      rw [hskip, List.length_cons] at hs
      exact ⟨cs₃,gs,hskip,ihfs hgs (by omega),rfl⟩

end Texts

theorem loads_eq_ok_iff {s : String} {x : Json} :
    loads s = .ok x ↔ ∃ n rest, scan n (skip s.toList) = some (x, rest) ∧ skip rest = [] := by
  constructor
  · intro h
    unfold loads at h
    split at h
    · next rest hscan =>
      split at h
      · next hrest =>
        cases h
        exact ⟨_,rest,hscan,hrest⟩
      · cases h
    · cases h
  · rintro ⟨n,rest,hscan,hrest⟩
    have hlen := length_skip s.toList
    rw [String.length_toList] at hlen
    have henough : scan (2 * s.length + 1) (skip s.toList) = some (x, rest) :=
      (scan_enough n).1 hscan (by omega)
    simp [loads, henough, hrest]

theorem loadable_iff {x : Json} : x.Loadable ↔ ∃ s, loads s = .ok x := by
  constructor
  · exact fun h => ⟨dumps x, loads_dumps h⟩
  · rintro ⟨s,h⟩
    obtain ⟨n,rest,hscan,-⟩ := loads_eq_ok_iff.mp h
    exact ((scan_some n).1 hscan).1

theorem loadable_obj_iff {d : JsonDict} : (obj d).Loadable ↔ ∀ k v, d.get? k = some v → v.Loadable := by
  simp only [obj, Loadable, loadableFields_iff, Prod.forall, d.mem_entries_iff]
  exact and_iff_right d.nodup

theorem Loadable.get {d : JsonDict} (h : (obj d).Loadable) (k : String) : (d.get k).Loadable := by
  rw [Dict.get, Dict.getD]
  cases hv : d.get? k with
  | none => trivial
  | some v => exact loadable_obj_iff.mp h k v hv

theorem Loadable.getD {d : JsonDict} (h : (obj d).Loadable) (k : String) {default : Json}
    (hd : default.Loadable) : (d.getD k default).Loadable := by
  rw [Dict.getD]
  cases hv : d.get? k with
  | none => exact hd
  | some v => exact loadable_obj_iff.mp h k v hv

theorem Loadable.set {d : JsonDict} (h : (obj d).Loadable) (k : String) {v : Json} (hv : v.Loadable) :
    (obj (d.set k v)).Loadable := by
  refine loadable_obj_iff.mpr fun j w hw => ?_
  rw [Dict.get?_set] at hw
  split at hw
  · cases hw
    exact hv
  · exact loadable_obj_iff.mp h j w hw

theorem loadable_ofEntries {es : List (String × Json)} (h : ∀ e ∈ es, e.2.Loadable) :
    (obj (.ofEntries es)).Loadable :=
  ⟨(Dict.ofEntries es).nodup, loadableFields_iff.mpr fun f hf => h f (Dict.mem_of_mem_ofEntries hf)⟩

theorem Loadable.asDict {x : Json} {d : JsonDict} (h : x.Loadable) (hd : x.asDict = some d) : (obj d).Loadable := by
  cases x with
  | dict fs =>
    cases hd
    exact loadable_ofEntries (loadableFields_iff.mp h.2)
  | _ => cases hd

theorem loadable_int_iff {n : ℤ} : (int n).Loadable ↔ n.natAbs < 10 ^ PyInt.maxStrDigits :=
  Nat.length_toDigits_le_iff (by decide) (by decide)

theorem loadable_int_of_le {n : ℤ} {k : ℕ} (hk : 0 < k ∧ k ≤ PyInt.maxStrDigits) (h : |n| ≤ 2 ^ k) :
    (int n).Loadable := by
  rw [loadable_int_iff]
  rw [Int.abs_eq_natAbs] at h
  calc n.natAbs ≤ 2 ^ k := by exact_mod_cast h
    _ < 10 ^ k := Nat.pow_lt_pow_left (by decide) hk.1.ne'
    _ ≤ 10 ^ PyInt.maxStrDigits := Nat.pow_le_pow_right (by decide) hk.2

theorem abs_lt_of_isDouble {q : ℚ} (h : (PyFloat.finite q).IsDouble) : |q| < 2 ^ 1024 := by
  rcases lt_trichotomy q 0 with hq | rfl | hq
  · rw [abs_of_neg hq]
    exact (PyFloat.exists_mantissa (neg_pos.mpr hq) (PyFloat.ofRat_neg h hq.ne)).1
  · norm_num
  · rw [abs_of_pos hq]
    exact (PyFloat.exists_mantissa hq h).1

theorem decimal_lt {c : Char} {d : ℕ} (h : PyInt.decimal? c = some d) : d < 10 := by
  simp only [PyInt.decimal?, Option.map_eq_some_iff] at h
  obtain ⟨z,hz,rfl⟩ := h
  have := List.find?_some hz
  simp only [decide_eq_true_eq] at this
  omega

theorem digits_lt {cs : List Char} {ds : List ℕ} (h : PyInt.digits cs = some ds) : ∀ d ∈ ds, d < 10 := by
  induction cs using PyInt.digits.induct generalizing ds with
  | case1 => cases h; simp
  | case2 c cs ih =>
    simp only [PyInt.digits, Option.bind_eq_bind, Option.bind_eq_some_iff] at h
    obtain ⟨d,hd,es,hes,he⟩ := h
    cases he
    exact List.forall_mem_cons.mpr ⟨decimal_lt hd, ih hes⟩
  | case3 c cs hne ih =>
    rw [PyInt.digits] at h
    · simp only [Option.bind_eq_bind, Option.bind_eq_some_iff] at h
      obtain ⟨d,hd,es,hes,he⟩ := h
      cases he
      exact List.forall_mem_cons.mpr ⟨decimal_lt hd, ih hes⟩
    · exact hne

theorem magnitude_lt {cs : List Char} {n : ℕ} (h : PyInt.magnitude cs = some n) :
    n < 10 ^ PyInt.maxStrDigits := by
  cases cs with
  | nil => cases h
  | cons c cs =>
    simp only [PyInt.magnitude, Option.bind_eq_bind, Option.bind_eq_some_iff] at h
    obtain ⟨d,hd,ds,hds,h⟩ := h
    split at h
    · cases h
    · next hlen =>
      cases h
      have hall : ∀ e ∈ d :: ds, e < 10 := List.forall_mem_cons.mpr ⟨decimal_lt hd, digits_lt hds⟩
      have hfold (es : List ℕ) (a : ℕ) (he : ∀ e ∈ es, e < 10) :
          es.foldl (fun n e => 10 * n + e) a < (a + 1) * 10 ^ es.length := by
        induction es generalizing a with
        | nil => simp
        | cons e es ih =>
          have hlt := ih (10 * a + e) fun b hb => he b (by simp [hb])
          have he := he e (by simp)
          rw [List.foldl_cons, List.length_cons, pow_succ]
          calc _ < (10 * a + e + 1) * 10 ^ es.length := hlt
            _ ≤ ((a + 1) * 10) * 10 ^ es.length := Nat.mul_le_mul_right _ (by omega)
            _ = (a + 1) * (10 ^ es.length * 10) := by ring
      calc _ < (0 + 1) * 10 ^ (d :: ds).length := hfold _ 0 hall
        _ ≤ 10 ^ PyInt.maxStrDigits := by
          rw [zero_add, one_mul]
          exact Nat.pow_le_pow_right (by decide) (not_lt.mp hlen)

theorem Loadable.toInt {x : Json} {n : ℤ} (h : x.Loadable) (hn : x.toInt = .ok n) : (int n).Loadable := by
  cases x with
  | bool b =>
    cases b <;> cases hn
    · exact loadable_int_of_le (k := 1) (by decide) (by decide)
    · exact loadable_int_of_le (k := 1) (by decide) (by decide)
  | int m => cases hn; exact h
  | float x =>
    cases x with
    | finite q =>
      cases hn
      obtain ⟨hlo,hhi⟩ := abs_lt.mp (abs_lt_of_isDouble h)
      refine loadable_int_of_le (k := 1024) (by decide) (abs_le.mpr ?_)
      split
      · next hq =>
        have hceil : ⌈q⌉ ≤ 0 := Int.ceil_le.mpr (by exact_mod_cast hq.le)
        refine ⟨?_,hceil.trans (by positivity)⟩
        have := hlo.le.trans (Int.le_ceil q)
        exact_mod_cast this
      · next hq =>
        refine ⟨le_trans ?_ (Int.floor_nonneg.mpr (not_lt.mp hq)),?_⟩
        · exact neg_nonpos.mpr (by positivity)
        · have hle : (⌊q⌋ : ℚ) ≤ ((2 ^ 1024 : ℤ) : ℚ) := by
            rw [Int.cast_pow, Int.cast_ofNat]
            exact (Int.floor_le q).trans hhi.le
          exact Int.cast_le.mp hle
    | negZero => cases hn; exact loadable_int_of_le (k := 1) (by decide) (by decide)
    | _ => cases hn
  | str s =>
    simp only [Json.toInt] at hn
    cases hp : PyInt.parse s with
    | none => rw [hp] at hn; cases hn
    | some m =>
      rw [hp] at hn
      cases hn
      rw [loadable_int_iff]
      unfold PyInt.parse at hp
      split at hp <;>
      · obtain ⟨_,hk,rfl⟩ := Option.map_eq_some_iff.mp hp
        obtain ⟨j,hj,hk⟩ := Option.bind_eq_some_iff.mp hk
        cases hk
        simpa using magnitude_lt hj
  | _ => cases hn

theorem Loadable.methods {x : Json} {d : JsonDict} (h : x.Loadable) (hd : x.methods = .ok d) :
    (obj d).Loadable := by
  rw [Json.methods] at hd
  cases hx : x.asDict with
  | none => rw [hx] at hd; cases hd
  | some e => rw [hx] at hd; cases hd; exact h.asDict hx

theorem Loadable.iter {x : Json} {xs : List Json} (h : x.Loadable) (hi : x.iter = .ok xs) :
    ∀ y ∈ xs, y.Loadable := by
  intro y hy
  cases x with
  | list ys => cases hi; exact loadableItems_iff.mp h y hy
  | dict fs =>
    cases hi
    obtain ⟨k,-,rfl⟩ := List.mem_map.mp hy
    trivial
  | str s =>
    cases hi
    obtain ⟨c,-,rfl⟩ := List.mem_map.mp hy
    trivial
  | _ => cases hi

theorem Loadable.pair {x : Json} {p : Key × String × Json} (h : x.Loadable) (hp : x.pair = .ok p) :
    p.2.2.Loadable := by
  rw [Json.pair, Except.bind_eq_ok_iff] at hp
  obtain ⟨xs,hxs,hp⟩ := hp
  split at hp
  · obtain ⟨k,-,hp⟩ := Except.bind_eq_ok_iff.mp hp
    cases hp
    exact h.iter hxs _ (List.mem_cons_of_mem _ List.mem_cons_self)
  · cases hp

theorem loadable_mapM_pair {xs : List Json} {ps : List (Key × String × Json)} (h : ∀ x ∈ xs, x.Loadable)
    (hm : xs.mapM Json.pair = .ok ps) : ∀ p ∈ ps, p.2.2.Loadable := by
  induction xs generalizing ps with
  | nil => cases hm; simp
  | cons x xs ih =>
    rw [List.mapM_cons, Except.bind_eq_ok_iff] at hm
    obtain ⟨p,hp,hm⟩ := hm
    obtain ⟨rest,hrest,hm⟩ := Except.bind_eq_ok_iff.mp hm
    cases hm
    exact List.forall_mem_cons.mpr ⟨(h x List.mem_cons_self).pair hp,
      ih (fun y hy => h y (List.mem_cons_of_mem _ hy)) hrest⟩

theorem loadable_setPairs {ps : List (Key × String × Json)} {found : Dict Key (String × Json)}
    (hp : ∀ p ∈ ps, p.2.2.Loadable) (hfound : ∀ e ∈ found.entries, e.2.2.Loadable) :
    ∀ e ∈ (ps.foldl setPair found).entries, e.2.2.Loadable := by
  induction ps generalizing found with
  | nil => exact hfound
  | cons p ps ih =>
    obtain ⟨hp,hps⟩ := List.forall_mem_cons.mp hp
    refine ih hps fun e he => ?_
    rcases Dict.mem_setEntry he with rfl | he
    · exact hp
    · exact hfound e he

theorem Loadable.pairs {x : Json} {ps : List (String × Json)} (h : x.Loadable) (hp : x.pairs = .ok ps) :
    ∀ p ∈ ps, p.2.Loadable := by
  unfold Json.pairs at hp
  split at hp
  · cases hp
    exact fun p hm => loadableFields_iff.mp h.2 p (Dict.mem_of_mem_ofEntries hm)
  · obtain ⟨xs,hxs,hp⟩ := Except.bind_eq_ok_iff.mp hp
    obtain ⟨found,hfound,hp⟩ := Except.bind_eq_ok_iff.mp hp
    cases hp
    intro p hp
    obtain ⟨e,he,rfl⟩ := List.mem_map.mp hp
    exact loadable_setPairs (loadable_mapM_pair (h.iter hxs) hfound) (by simp [Dict.empty]) e he

theorem Loadable.updateFrom {d d' : JsonDict} {x : Json} (h : (obj d).Loadable) (hx : x.Loadable)
    (hu : d.updateFrom x = .ok d') : (obj d').Loadable := by
  rw [Dict.updateFrom, Except.bind_eq_ok_iff] at hu
  obtain ⟨ps,hps,he⟩ := hu
  cases he
  refine ⟨(d.setAll ps).nodup,loadableFields_iff.mpr fun e he => ?_⟩
  rcases Dict.mem_setAll he with he | he
  · exact loadableFields_iff.mp h.2 e he
  · exact hx.pairs hps e he

end Json
