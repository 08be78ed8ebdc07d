import ResponsesGateway.Python.Double
import ResponsesGateway.Python.Loads
import Mathlib.Data.List.TakeWhile

namespace PyFloat

theorem ofDecimal_eq {d : ℕ} {e : ℤ} {q : ℚ} (negative : Bool) (hq : q ≠ 0)
    (h : ofRat (d * 10 ^ e) = finite q) :
    ofDecimal negative d e = finite (if negative then -q else q) := by
  have hd : d ≠ 0 := by
    rintro rfl
    exact hq (by simpa [ofRat, eq_comm] using h)
  cases negative with
  | false => simpa [ofDecimal, hd] using h
  | true => simpa [ofDecimal, hd] using ofRat_neg h hq

end PyFloat

namespace List

theorem take_append_replicate {α : Type} [DecidableEq α] (a : α) (l : List α) :
    l.take (l.length - (l.reverse.takeWhile (· = a)).length) ++
      replicate (l.reverse.takeWhile (· = a)).length a = l := by
  have hsplit : l.reverse.takeWhile (· = a) ++ l.reverse.dropWhile (· = a) = l.reverse :=
    takeWhile_append_dropWhile
  have hall : l.reverse.takeWhile (· = a) = replicate (l.reverse.takeWhile (· = a)).length a :=
    eq_replicate_of_mem fun b hb => by simpa using mem_takeWhile_imp hb
  generalize l.reverse.takeWhile (· = a) = zs at *
  generalize l.reverse.dropWhile (· = a) = ys at *
  have hl : l = ys.reverse ++ zs.reverse := by
    rw [← reverse_append, hsplit, reverse_reverse]
  have hz : zs.reverse = replicate zs.length a := by
    rw [hall, reverse_replicate, length_replicate]
  rw [hl, ← hz]
  simp

end List

namespace Json

def AllDigits (ds : List Char) : Prop := ∀ c ∈ ds, c.isDigit = true

def NoDigit (cs : List Char) : Prop := ∀ c ∈ cs.head?, c.isDigit = false

def Ends (cs : List Char) : Prop :=
  ∀ c ∈ cs.head?, c.isDigit = false ∧ c ≠ '.' ∧ c ≠ 'e' ∧ c ≠ 'E'

def IsWhole (ds : List Char) : Prop :=
  ds = ['0'] ∨ AllDigits ds ∧ ∃ c cs, ds = c :: cs ∧ c ≠ '0'

theorem Ends.noDigit {cs : List Char} (h : Ends cs) : NoDigit cs := fun c hc => (h c hc).1

theorem noDigit_cons {c : Char} {cs : List Char} (h : c.isDigit = false) : NoDigit (c :: cs) := by
  intro a ha
  simp only [List.head?_cons, Option.mem_some_iff] at ha
  exact ha ▸ h

theorem takeWhile_digits {ds cs : List Char} (hd : AllDigits ds) (hc : NoDigit cs) :
    (ds ++ cs).takeWhile Char.isDigit = ds := by
  rw [List.takeWhile_append_of_pos hd]
  cases cs with
  | nil => simp
  | cons c cs => simp [hc c (by simp)]

theorem dropWhile_digits {ds cs : List Char} (hd : AllDigits ds) (hc : NoDigit cs) :
    (ds ++ cs).dropWhile Char.isDigit = cs := by
  rw [List.dropWhile_append_of_pos hd]
  cases cs with
  | nil => simp
  | cons c cs => simp [hc c (by simp)]

theorem allDigits_toDigits (n : ℕ) : AllDigits (Nat.toDigits 10 n) := fun _ hc =>
  Nat.isDigit_of_mem_toDigits (by decide) (by decide) hc

theorem allDigits_replicate (n : ℕ) : AllDigits (List.replicate n '0') := fun c hc => by
  rw [List.eq_of_mem_replicate hc]
  decide

theorem AllDigits.append {ds es : List Char} (hd : AllDigits ds) (he : AllDigits es) : AllDigits (ds ++ es) :=
  fun c hc => (List.mem_append.mp hc).elim (hd c) (he c)

theorem toDigits_head {n : ℕ} (hn : 0 < n) : ∃ c cs, Nat.toDigits 10 n = c :: cs ∧ c ≠ '0' := by
  induction n using Nat.strong_induction_on with
  | _ n ih =>
    rw [Nat.toDigits_eq_if (by decide)]
    split
    · exact ⟨_,_,rfl, by simpa using hn.ne'⟩
    · obtain ⟨c,cs,heq,hc⟩ := ih (n / 10) (by omega) (by omega)
      exact ⟨c, cs ++ [(n % 10).digitChar], by rw [heq, List.cons_append], hc⟩

theorem isWhole_toDigits (n : ℕ) : IsWhole (Nat.toDigits 10 n) := by
  rcases Nat.eq_zero_or_pos n with rfl | hn
  · exact Or.inl (by simp)
  · exact Or.inr ⟨allDigits_toDigits n, toDigits_head hn⟩

theorem scanWhole_append {ds cs : List Char} (hd : IsWhole ds) (hc : NoDigit cs) :
    scanWhole (ds ++ cs) = some (ds, cs) := by
  rcases hd with rfl | ⟨hd,c,es,rfl,hne⟩
  · rfl
  · have hes : AllDigits es := fun d hm => hd d (by simp [hm])
    simp only [List.cons_append, scanWhole, if_neg hne, if_pos (hd c (by simp)),
      takeWhile_digits hes hc, dropWhile_digits hes hc]

theorem scanFraction_append {ds cs : List Char} (hne : ds ≠ []) (hd : AllDigits ds) (hc : NoDigit cs) :
    scanFraction ('.' :: (ds ++ cs)) = (ds, cs) := by
  simp only [scanFraction, takeWhile_digits hd hc, dropWhile_digits hd hc, if_neg hne]

theorem scanFraction_of_ne {cs : List Char} (h : ∀ c ∈ cs.head?, c ≠ '.') : scanFraction cs = ([], cs) := by
  unfold scanFraction
  split
  · exact absurd rfl (h '.' (by simp))
  · rfl

theorem scanExponent_of_ne {cs : List Char} (h : ∀ c ∈ cs.head?, c ≠ 'e' ∧ c ≠ 'E') :
    scanExponent cs = (none, cs) := by
  cases cs with
  | nil => rfl
  | cons c cs =>
    have hc := h c (by simp)
    simp [scanExponent, hc]

theorem scanExponent_append {ds cs : List Char} (negative : Bool) (hne : ds ≠ []) (hd : AllDigits ds)
    (hc : NoDigit cs) :
    scanExponent ('e' :: (if negative then '-' else '+') :: (ds ++ cs)) =
      (some (if negative then -(Nat.ofDigitChars 10 ds 0 : ℤ) else Nat.ofDigitChars 10 ds 0), cs) := by
  have hsign : scanSign ((if negative then '-' else '+') :: (ds ++ cs)) = (negative, ds ++ cs) := by
    cases negative <;> rfl
  simp only [scanExponent, hsign, takeWhile_digits hd hc, dropWhile_digits hd hc]
  rw [if_pos (by simpa using hne)]

theorem scanNumber_int {ds cs : List Char} (negative : Bool) (hd : IsWhole ds)
    (hlen : ds.length ≤ PyInt.maxStrDigits) (hc : Ends cs) :
    scanNumber negative (ds ++ cs) =
      some (int (if negative then -(Nat.ofDigitChars 10 ds 0 : ℤ) else Nat.ofDigitChars 10 ds 0), cs) := by
  have hpoint := scanFraction_of_ne fun c h => (hc c h).2.1
  have hexp := scanExponent_of_ne fun c h => (hc c h).2.2
  simp [scanNumber, scanWhole_append hd hc.noDigit, hpoint, hexp, not_lt.mpr hlen]

theorem scanNumber_float {ds fs cs cs₁ cs₂ cs₃ : List Char} {x : Option ℤ} (negative : Bool)
    (hd : scanWhole cs = some (ds, cs₁)) (hf : scanFraction cs₁ = (fs, cs₂))
    (hx : scanExponent cs₂ = (x, cs₃)) (h : ¬(fs = [] ∧ x = none)) :
    scanNumber negative cs =
      some (float (.ofDecimal negative (Nat.ofDigitChars 10 (ds ++ fs) 0) (x.getD 0 - fs.length)), cs₃) := by
  simp [scanNumber, hd, hf, hx, h]

theorem scanNumber_point {ds fs cs : List Char} (negative : Bool) (hd : IsWhole ds) (hne : fs ≠ [])
    (hf : AllDigits fs) (hc : Ends cs) :
    scanNumber negative (ds ++ '.' :: (fs ++ cs)) =
      some (float (.ofDecimal negative (Nat.ofDigitChars 10 (ds ++ fs) 0) (0 - fs.length)), cs) :=
  scanNumber_float negative (scanWhole_append hd (noDigit_cons (by decide)))
    (scanFraction_append hne hf hc.noDigit) (scanExponent_of_ne fun c h => (hc c h).2.2)
    (by simp [hne])

theorem scanNumber_exponent {ds fs xs cs : List Char} (negative minus : Bool) (hd : IsWhole ds)
    (hf : AllDigits fs) (hne : xs ≠ []) (hx : AllDigits xs) (hc : Ends cs) :
    scanNumber negative (ds ++ ((if fs = [] then [] else '.' :: fs) ++
        'e' :: (if minus then '-' else '+') :: (xs ++ cs))) =
      some (float (.ofDecimal negative (Nat.ofDigitChars 10 (ds ++ fs) 0)
        ((if minus then -(Nat.ofDigitChars 10 xs 0 : ℤ) else Nat.ofDigitChars 10 xs 0) - fs.length)), cs) := by
  have hexp := scanExponent_append minus hne hx hc.noDigit
  generalize htail : 'e' :: (if minus then '-' else '+') :: (xs ++ cs) = tail at *
  have he : tail.head? = some 'e' := by rw [← htail, List.head?_cons]
  have hfrac : scanFraction ((if fs = [] then [] else '.' :: fs) ++ tail) = (fs, tail) := by
    split
    · next h =>
      rw [h, List.nil_append]
      exact scanFraction_of_ne (by simp [he])
    · next h => exact scanFraction_append h hf (by simp [NoDigit, he])
  refine scanNumber_float negative (scanWhole_append hd ?_) hfrac hexp (by simp)
  split
  · simp [NoDigit, he]
  · exact noDigit_cons (by decide)

theorem isWhole_append {ds : List Char} (hd : AllDigits ds) {c : Char} {es : List Char} (h : ds = c :: es)
    (hc : c ≠ '0') {fs : List Char} (hf : AllDigits fs) : IsWhole (ds ++ fs) :=
  Or.inr ⟨hd.append hf, c, es ++ fs, by rw [h, List.cons_append], hc⟩

theorem ofDigitChars_zeros (ds : List Char) (a b : ℕ) :
    Nat.ofDigitChars 10 (List.replicate a '0' ++ ds ++ List.replicate b '0') 0 =
      Nat.ofDigitChars 10 ds 0 * 10 ^ b := by
  simp [Nat.ofDigitChars_append, Nat.ofDigitChars_replicate_zero, mul_comm]

/-- The text reads as the number `0.ds` times ten to the `point`. -/
def Denotes (negative : Bool) (ds : List Char) (point : ℤ) (text cs : List Char) : Prop :=
  ∃ (b : ℕ) (z : ℤ), z + b = point - ds.length ∧ scanNumber negative (text ++ cs) =
    some (float (.ofDecimal negative (Nat.ofDigitChars 10 ds 0 * 10 ^ b) z), cs)

section Layouts

variable {ds fs cs : List Char} {c : Char} {negative : Bool} {point : ℤ}

theorem denotes_of_scan {text scanned : List Char} {n : ℕ} {z : ℤ}
    (hscan : scanNumber negative scanned = some (float (.ofDecimal negative n z), cs))
    (htext : text ++ cs = scanned) (b : ℕ) (hn : n = Nat.ofDigitChars 10 ds 0 * 10 ^ b)
    (hz : z + b = point - ds.length) : Denotes negative ds point text cs :=
  ⟨b,z,hz,by rw [htext, hscan, hn]⟩

theorem denotes_exponent (hall : AllDigits (c :: fs)) (hne : c ≠ '0') (hc : Ends cs) :
    Denotes negative (c :: fs) point
      ((c :: fs).take 1 ++ (if (c :: fs).length ≤ 1 then [] else '.' :: (c :: fs).drop 1) ++
        ['e', if point - 1 < 0 then '-' else '+'] ++
          ((if (point - 1).natAbs < 10 then ['0'] else []) ++ Nat.toDigits 10 (point - 1).natAbs)) cs := by
  have hx : AllDigits ((if (point - 1).natAbs < 10 then ['0'] else []) ++ Nat.toDigits 10 (point - 1).natAbs) := by
    refine AllDigits.append ?_ (allDigits_toDigits _)
    split
    · exact allDigits_replicate 1
    · exact fun c hc => by simp at hc
  have hwhole : IsWhole [c] := Or.inr ⟨fun a ha => hall a (by simp_all), c, [], rfl, hne⟩
  have hfs : AllDigits fs := fun a ha => hall a (by simp [ha])
  have hscan := scanNumber_exponent negative (decide (point - 1 < 0)) hwhole hfs (by simp) hx hc
  have hsize : Nat.ofDigitChars 10 ((if (point - 1).natAbs < 10 then ['0'] else []) ++
      Nat.toDigits 10 (point - 1).natAbs) 0 = (point - 1).natAbs := by
    split <;> simp [Nat.ofDigitChars_cons]
  rw [hsize] at hscan
  refine denotes_of_scan hscan ?_ 0 (by simp) ?_
  · cases fs <;> simp
  · simp only [List.length_cons, decide_eq_true_eq]
    split <;> omega

theorem denotes_small (hall : AllDigits ds) (hne : ds ≠ []) (hp : point ≤ 0) (hc : Ends cs) :
    Denotes negative ds point (['0', '.'] ++ List.replicate point.natAbs '0' ++ ds) cs := by
  have hfs : AllDigits (List.replicate point.natAbs '0' ++ ds) := (allDigits_replicate _).append hall
  have hscan := scanNumber_point negative (Or.inl rfl : IsWhole ['0']) (by simp [hne]) hfs hc
  have hzeros := ofDigitChars_zeros ds (1 + point.natAbs) 0
  rw [List.replicate_add] at hzeros
  refine denotes_of_scan hscan (by simp) 0 (by simpa using hzeros) ?_
  simp only [List.length_append, List.length_replicate]
  omega

theorem denotes_point (hall : AllDigits (c :: fs)) (hne : c ≠ '0') (hp : 0 < point) (hc : Ends cs) :
    Denotes negative (c :: fs) point ((c :: fs).take point.natAbs ++
      List.replicate (point.natAbs - ((c :: fs).take point.natAbs).length) '0' ++
        '.' :: (if (c :: fs).drop point.natAbs = [] then ['0'] else (c :: fs).drop point.natAbs)) cs := by
  have hwhole : IsWhole ((c :: fs).take point.natAbs ++
      List.replicate (point.natAbs - ((c :: fs).take point.natAbs).length) '0') := by
    obtain ⟨m,hm⟩ : ∃ m, point.natAbs = m + 1 := ⟨point.natAbs - 1, by omega⟩
    exact isWhole_append (fun a ha => hall a (List.mem_of_mem_take ha))
      (by rw [hm, List.take_succ_cons]) hne (allDigits_replicate _)
  generalize hds : c :: fs = ds at *
  by_cases hfrac : ds.drop point.natAbs = []
  · have hle : ds.length ≤ point.natAbs := by simpa using hfrac
    have hscan := scanNumber_point negative hwhole (by simp) (allDigits_replicate 1) hc
    have hzeros := ofDigitChars_zeros ds 0 (point.natAbs - ds.length + 1)
    rw [List.take_of_length_le hle] at hscan ⊢
    refine denotes_of_scan hscan ?_ (point.natAbs - ds.length + 1) ?_ ?_
    · rw [if_pos hfrac]
      simp
    · rw [← hzeros, List.replicate_add]
      simp
    · simp
      omega
  · have hlt : point.natAbs < ds.length := by simpa using hfrac
    have hscan := scanNumber_point negative hwhole hfrac (fun a ha => hall a (List.mem_of_mem_drop ha)) hc
    have hnone : point.natAbs - (ds.take point.natAbs).length = 0 := by
      rw [List.length_take]
      omega
    rw [hnone, List.replicate_zero, List.append_nil] at hscan ⊢
    rw [List.take_append_drop] at hscan
    refine denotes_of_scan hscan ?_ 0 (by simp) ?_
    · rw [if_neg hfrac]
      simp
    · rw [List.length_drop]
      omega

end Layouts

theorem scanNumber_reprPositive {q : ℚ} {cs : List Char} (negative : Bool) (hq : 0 < q)
    (h : PyFloat.ofRat q = .finite q) (hc : Ends cs) :
    scanNumber negative ((PyFloat.reprPositive q).toList ++ cs) =
      some (float (.finite (if negative then -q else q)), cs) := by
  have hread := PyFloat.ofRat_shortest hq h
  unfold PyFloat.reprPositive
  generalize PyFloat.shortest q = de at *
  obtain ⟨d,e⟩ := de
  dsimp only at hread ⊢
  have hd : 0 < d := Nat.pos_of_ne_zero fun hd => by
    rw [hd] at hread
    exact hq.ne (by simpa [PyFloat.ofRat] using hread)
  have hstrip := List.take_append_replicate '0' (Nat.toDigits 10 d)
  generalize ((Nat.toDigits 10 d).reverse.takeWhile (· = '0')).length = zeros at *
  generalize (Nat.toDigits 10 d).take ((Nat.toDigits 10 d).length - zeros) = ds at *
  have hnum : Nat.ofDigitChars 10 ds 0 * 10 ^ zeros = d := by
    rw [← Nat.ofDigitChars_ten_toDigits (n := d), ← hstrip, Nat.ofDigitChars_append,
      Nat.ofDigitChars_replicate_zero, mul_comm]
  have hall : AllDigits ds := fun c hc => allDigits_toDigits d c (by rw [← hstrip]; simp [hc])
  obtain ⟨c,fs,rfl,hne⟩ : ∃ c fs, ds = c :: fs ∧ c ≠ '0' := by
    cases ds with
    | nil => simp [← hnum] at hd
    | cons c fs =>
      obtain ⟨a,as,has,hne⟩ := toDigits_head hd
      rw [has, List.cons_append, List.cons.injEq] at hstrip
      exact ⟨c,fs,rfl,hstrip.1 ▸ hne⟩
  generalize hp : e + zeros + (c :: fs).length = point
  have hvalue (text : List Char) (ht : Denotes negative (c :: fs) point text cs) :
      scanNumber negative (text ++ cs) = some (float (.finite (if negative then -q else q)), cs) := by
    obtain ⟨b,z,hz,hscan⟩ := ht
    have hsame : PyFloat.ofDecimal negative (Nat.ofDigitChars 10 (c :: fs) 0 * 10 ^ b) z =
        .finite (if negative then -q else q) := by
      refine PyFloat.ofDecimal_eq negative hq.ne' ?_
      rw [← hread, ← hnum]
      push_cast
      rw [mul_assoc, mul_assoc, ← zpow_natCast, ← zpow_natCast, ← zpow_add₀ (by norm_num),
        ← zpow_add₀ (by norm_num), show (b : ℤ) + z = zeros + e by omega]
    rw [hscan, hsame]
  by_cases hexp : point ≤ -4 ∨ 16 < point
  · rw [if_pos hexp, String.toList_ofList]
    exact hvalue _ (denotes_exponent hall hne hc)
  · rw [if_neg hexp]
    by_cases hsmall : point ≤ 0
    · rw [if_pos hsmall, String.toList_ofList]
      exact hvalue _ (denotes_small hall (List.cons_ne_nil _ _) hsmall hc)
    · rw [if_neg hsmall, String.toList_ofList]
      exact hvalue _ (denotes_point hall hne (not_le.mp hsmall) hc)

end Json
