import ResponsesGateway.Python.RoundTrip

def Printable (cs : List Char) : Prop := ∀ c ∈ cs, 32 ≤ c.toNat ∧ c.toNat < 127

instance (cs : List Char) : Decidable (Printable cs) :=
  decidable_of_iff (cs.all (fun c => decide (32 ≤ c.toNat ∧ c.toNat < 127)) = true) (by simp [Printable])

namespace Printable

theorem append {cs ds : List Char} (hc : Printable cs) (hd : Printable ds) : Printable (cs ++ ds) :=
  fun c h => (List.mem_append.mp h).elim (hc c) (hd c)

theorem of_subset {cs ds : List Char} (h : Printable ds) (hsub : cs ⊆ ds) : Printable cs :=
  fun c hc => h c (hsub hc)

theorem digits {b n : ℕ} (hb : 1 < b) (hb' : b ≤ 16) : Printable (Nat.toDigits b n) := by
  have hchar : ∀ m < 16, 32 ≤ m.digitChar.toNat ∧ m.digitChar.toNat < 127 := by decide
  induction n using Nat.strong_induction_on with
  | _ n ih =>
    rw [Nat.toDigits_eq_if hb]
    split
    · intro c hc
      rw [List.mem_singleton.mp hc]
      exact hchar n (by omega)
    · refine append (ih (n / b) (Nat.div_lt_self (by omega) hb)) fun c hc => ?_
      rw [List.mem_singleton.mp hc]
      exact hchar _ ((Nat.mod_lt n (by omega)).trans_le hb')

theorem replicate_zero (n : ℕ) : Printable (List.replicate n '0') := fun c hc => by
  rw [List.eq_of_mem_replicate hc]
  decide

theorem hex4 (n : ℕ) : Printable (Json.hex4 n) :=
  (replicate_zero _).append (digits (by decide) (by decide))

theorem escapeChar (c : Char) : Printable (Json.escapeChar c) := by
  have hunit (n : ℕ) : Printable (['\\', 'u'] ++ Json.hex4 n) := append (by decide) (hex4 n)
  simp only [Json.escapeChar]
  iterate 7 (split; · decide)
  split
  · next h =>
    intro a ha
    rw [List.mem_singleton.mp ha]
    exact h
  split
  · exact hunit _
  · rw [List.append_assoc]
    exact (hunit _).append (hunit _)

theorem dumpsStr (s : String) : Printable (Json.dumpsStr s).toList := by
  have hs : Printable (s.toList.flatMap Json.escapeChar) := fun c hc => by
    obtain ⟨a,-,hc⟩ := List.mem_flatMap.mp hc
    exact escapeChar a c hc
  rw [Json.dumpsStr, String.toList_ofList]
  have hopen : Printable ['"'] := by decide
  exact (hopen.append hs).append (by decide)

theorem reprPositive (q : ℚ) : Printable (PyFloat.reprPositive q).toList := by
  unfold PyFloat.reprPositive
  generalize PyFloat.shortest q = de
  obtain ⟨d,e⟩ := de
  dsimp only
  have hten (n : ℕ) : Printable (Nat.toDigits 10 n) := digits (by decide) (by decide)
  have hds := (hten d).of_subset (List.take_subset
    ((Nat.toDigits 10 d).length - ((Nat.toDigits 10 d).reverse.takeWhile (· = '0')).length) _)
  generalize (Nat.toDigits 10 d).take
    ((Nat.toDigits 10 d).length - ((Nat.toDigits 10 d).reverse.takeWhile (· = '0')).length) = ds at *
  generalize e + ((Nat.toDigits 10 d).reverse.takeWhile (· = '0')).length + ds.length = point
  have htake (n : ℕ) : Printable (ds.take n) := hds.of_subset (List.take_subset n ds)
  have hdrop (n : ℕ) : Printable (ds.drop n) := hds.of_subset (List.drop_subset n ds)
  have hpoint : Printable ['.'] := by decide
  split
  · rw [String.toList_ofList]
    refine (append (append (htake 1) ?_) ?_).append (append ?_ (hten _))
    · split
      · decide
      · exact hpoint.append (hdrop 1)
    · split <;> decide
    · split <;> decide
  · split
    · rw [String.toList_ofList]
      exact (append (append (by decide) (replicate_zero _)) hds)
    · rw [String.toList_ofList]
      have hfraction : Printable (if ds.drop point.natAbs = [] then ['0'] else ds.drop point.natAbs) := by
        split
        · decide
        · exact hdrop _
      exact (append (htake _) (replicate_zero _)).append (hpoint.append hfraction)

theorem repr (x : PyFloat) : Printable x.repr.toList := by
  cases x with
  | finite q =>
    simp only [PyFloat.repr]
    split
    · decide
    · split
      · rw [String.toList_append]
        exact append (by decide) (reprPositive _)
      · exact reprPositive q
  | negZero => decide
  | inf negative => cases negative <;> decide
  | nan => decide

theorem dumpsFloat (x : PyFloat) : Printable (Json.dumpsFloat x).toList := by
  cases x with
  | finite q => exact repr (.finite q)
  | negZero => exact repr .negZero
  | inf negative => cases negative <;> decide
  | nan => decide

theorem toStringInt (n : ℤ) : Printable (toString n).toList := by
  have hten (n : ℕ) : Printable (Nat.toDigits 10 n) := digits (by decide) (by decide)
  cases n with
  | ofNat m =>
    have htext : (toString (Int.ofNat m)).toList = Nat.toDigits 10 m := Nat.toList_repr
    rw [htext]
    exact hten m
  | negSucc m =>
    have htext : (toString (Int.negSucc m)).toList = '-' :: Nat.toDigits 10 (m + 1) := by
      simp [toString, Int.repr]
    rw [htext]
    have hminus : Printable ['-'] := by decide
    exact hminus.append (hten (m + 1))

theorem intercalate {ss : List String} (h : ∀ s ∈ ss, Printable s.toList) :
    Printable (", ".intercalate ss).toList := by
  induction ss with
  | nil => simp [Printable]
  | cons s ss ih =>
    cases ss with
    | nil => simpa using h s (by simp)
    | cons t ts =>
      rw [String.intercalate_cons_cons, String.toList_append, String.toList_append]
      exact ((h s (by simp)).append (by decide)).append (ih fun u hu => h u (by simp [hu]))

end Printable

namespace Json

mutual
theorem printable_dumps : ∀ x : Json, Printable (dumps x).toList
  | null => by simp only [dumps]; decide
  | bool b => by cases b <;> simp only [dumps] <;> decide
  | int n => .toStringInt n
  | float x => .dumpsFloat x
  | str s => .dumpsStr s
  | list xs => by
      simp only [dumps, String.toList_append]
      exact (Printable.append (by decide) (.intercalate (printable_dumpsList xs))).append (by decide)
  | dict fs => by
      simp only [dumps, String.toList_append]
      exact (Printable.append (by decide) (.intercalate (printable_dumpsFields fs))).append (by decide)

theorem printable_dumpsList : ∀ xs : List Json, ∀ s ∈ dumpsList xs, Printable s.toList
  | [] => by simp [dumpsList]
  | x :: xs => by
      simp only [dumpsList, List.mem_cons, forall_eq_or_imp]
      exact ⟨printable_dumps x, printable_dumpsList xs⟩

theorem printable_dumpsFields : ∀ fs : List (String × Json), ∀ s ∈ dumpsFields fs, Printable s.toList
  | [] => by simp [dumpsFields]
  | (k, v) :: fs => by
      simp only [dumpsFields, List.mem_cons, forall_eq_or_imp, String.toList_append]
      refine ⟨((Printable.dumpsStr k).append (by decide)).append (printable_dumps v), ?_⟩
      simpa using printable_dumpsFields fs
end

end Json
