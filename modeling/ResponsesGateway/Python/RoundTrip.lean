import ResponsesGateway.Python.Numeral
namespace Json

theorem hexDigit?_digitChar : ∀ n < 16, hexDigit? n.digitChar = some n := by decide

theorem padded_digits {k : ℕ} (n : ℕ) (hk : 0 < k) :
    List.replicate (k + 1 - (Nat.toDigits 16 n).length) '0' ++ Nat.toDigits 16 n =
      (List.replicate (k - (Nat.toDigits 16 (n / 16)).length) '0' ++ Nat.toDigits 16 (n / 16)) ++
        [(n % 16).digitChar] := by
  by_cases hn : n < 16
  · obtain ⟨j,rfl⟩ : ∃ j, k = j + 1 := ⟨k - 1, by omega⟩
    rw [Nat.div_eq_of_lt hn, Nat.mod_eq_of_lt hn, Nat.toDigits_of_lt_base hn, Nat.toDigits_zero]
    simp [List.replicate_succ']
  · rw [Nat.toDigits_of_base_le (by decide) (by omega)]
    simp

theorem hex4_eq {n : ℕ} (h : n < 65536) :
    hex4 n =
      [(n / 16 / 16 / 16).digitChar, (n / 16 / 16 % 16).digitChar, (n / 16 % 16).digitChar, (n % 16).digitChar] := by
  simp only [hex4]
  rw [padded_digits n (by decide : 0 < 3), padded_digits (n / 16) (by decide : 0 < 2),
    padded_digits (n / 16 / 16) (by decide : 0 < 1), Nat.toDigits_of_lt_base (show n / 16 / 16 / 16 < 16 by omega)]
  rfl

theorem hexUnit?_hex4 {n : ℕ} (h : n < 65536) :
    ∃ a b c d, hex4 n = [a, b, c, d] ∧ hexUnit? a b c d = some n := by
  refine ⟨_,_,_,_,hex4_eq h,?_⟩
  simp only [hexUnit?, hexDigit?_digitChar _ (show n / 16 / 16 / 16 < 16 by omega),
    hexDigit?_digitChar _ (Nat.mod_lt _ (by decide : 16 > 0)), Option.bind_eq_bind, Option.bind_some, Option.pure_def,
    Option.some.injEq]
  omega

theorem scanString_cons {c : Char} {cs : List Char} (hq : c ≠ '"') (hb : c ≠ '\\') (h : 32 ≤ c.toNat) :
    scanString (c :: cs) = push c (scanString cs) := by
  rw [scanString.eq_def]
  split
  · next heq => cases heq
  · next heq => cases heq; exact absurd rfl hq
  · next heq => cases heq; exact absurd rfl hb
  · next heq => cases heq; exact absurd rfl hb
  · next heq =>
    cases heq
    rw [if_neg (by omega)]

theorem scanString_unit {n : ℕ} (cs : List Char) (h : n < 65536) (hs : n < 0xd800 ∨ 0xe000 ≤ n) :
    scanString (['\\', 'u'] ++ hex4 n ++ cs) = push (Char.ofNat n) (scanString cs) := by
  obtain ⟨a,b,c,d,heq,hunit⟩ := hexUnit?_hex4 h
  have hhigh : isHighSurrogate n = false := by
    simp only [isHighSurrogate, Bool.and_eq_false_iff, decide_eq_false_iff_not]
    omega
  have hlow : isLowSurrogate n = false := by
    simp only [isLowSurrogate, Bool.and_eq_false_iff, decide_eq_false_iff_not]
    omega
  simp [heq, scanString, hunit, hhigh, hlow]

theorem scanString_pair {high low : ℕ} (cs : List Char) (hh : 0xd800 ≤ high ∧ high < 0xdc00)
    (hl : 0xdc00 ≤ low ∧ low < 0xe000) :
    scanString (['\\', 'u'] ++ hex4 high ++ ['\\', 'u'] ++ hex4 low ++ cs) =
      push (joinSurrogates high low) (scanString cs) := by
  obtain ⟨a,b,c,d,heq,hunit⟩ := hexUnit?_hex4 (show high < 65536 by omega)
  obtain ⟨a',b',c',d',heq',hunit'⟩ := hexUnit?_hex4 (show low < 65536 by omega)
  have hhigh : isHighSurrogate high = true := by simpa [isHighSurrogate] using hh
  have hlow : isLowSurrogate low = true := by simpa [isLowSurrogate] using hl
  simp [heq, heq', scanString, hunit, hunit', hhigh, hlow]

theorem joinSurrogates_split {c : Char} (h : 65536 ≤ c.toNat) :
    joinSurrogates (0xd800 + (c.toNat - 65536) / 1024) (0xdc00 + (c.toNat - 65536) % 1024) = c := by
  have hn : 65536 + 1024 * (0xd800 + (c.toNat - 65536) / 1024 - 0xd800) +
      (0xdc00 + (c.toNat - 65536) % 1024 - 0xdc00) = c.toNat := by omega
  rw [joinSurrogates, hn, Char.ofNat_toNat]

theorem scanString_escapeChar (c : Char) (cs : List Char) :
    scanString (escapeChar c ++ cs) = push c (scanString cs) := by
  have hvalid : c.toNat < 0xd800 ∨ 0xdfff < c.toNat ∧ c.toNat < 0x110000 := c.valid
  have hself {n : ℕ} (h : c.toNat = n) : Char.ofNat n = c := by rw [← h, Char.ofNat_toNat]
  simp only [escapeChar]
  split
  · subst c; rfl
  split
  · subst c; rfl
  split
  · subst c; rfl
  split
  · subst c; rfl
  split
  · subst c; rfl
  split
  · next h => rw [← hself h]; rfl
  split
  · next h => rw [← hself h]; rfl
  split
  · next hq hb _ _ _ _ _ h => exact scanString_cons hq hb h.1
  split
  · next h => rw [scanString_unit cs h (by omega), hself rfl]
  · next h => rw [scanString_pair cs (by omega) (by omega), joinSurrogates_split (by omega)]

theorem scanString_escape (s cs : List Char) :
    scanString (s.flatMap escapeChar ++ '"' :: cs) = some (s, cs) := by
  induction s with
  | nil => simp [scanString]
  | cons c s ih =>
    rw [List.flatMap_cons, List.append_assoc, scanString_escapeChar, ih]
    rfl

theorem scanLiteral_digit {c : Char} (cs : List Char) (h : c.isDigit = true) : scanLiteral (c :: cs) = none := by
  simp only [scanLiteral, literals, List.findSome?_eq_none_iff, List.mem_cons, List.not_mem_nil, or_false]
  rintro _ (rfl | rfl | rfl | rfl | rfl | rfl) <;>
  · simp [List.dropPrefix?]
    rintro rfl
    cases h

theorem scanLiteral_minus {c : Char} (cs : List Char) (h : c.isDigit = true) :
    scanLiteral ('-' :: c :: cs) = none := by
  simp [scanLiteral, literals, List.dropPrefix?]
  rintro rfl
  cases h

theorem head_of_scanNumber {negative : Bool} {cs : List Char} {r : Json × List Char}
    (h : scanNumber negative cs = some r) : ∃ c es, cs = c :: es ∧ c.isDigit = true := by
  cases cs with
  | nil => cases h
  | cons c es =>
    refine ⟨c,es,rfl,?_⟩
    by_contra hc
    have hzero : c ≠ '0' := by
      rintro rfl
      exact hc rfl
    simp [scanNumber, scanWhole, hzero, hc] at h

theorem scanScalar_of_scanNumber {negative : Bool} {cs : List Char} {r : Json × List Char}
    (h : scanNumber negative cs = some r) :
    scanScalar ((if negative then ['-'] else []) ++ cs) = some r := by
  obtain ⟨c,es,rfl,hc⟩ := head_of_scanNumber h
  cases negative with
  | true => simpa [scanScalar, scanLiteral_minus es hc] using h
  | false =>
    have hne : c ≠ '-' := by
      rintro rfl
      cases hc
    simpa [scanScalar, scanLiteral_digit es hc, hne] using h

theorem scanScalar_int {n : ℤ} {cs : List Char}
    (hn : (Nat.toDigits 10 n.natAbs).length ≤ PyInt.maxStrDigits) (hc : Ends cs) :
    scanScalar ((toString n).toList ++ cs) = some (int n, cs) := by
  cases n with
  | ofNat m =>
    have htext : (toString (Int.ofNat m)).toList = Nat.toDigits 10 m := Nat.toList_repr
    rw [htext]
    simpa using scanScalar_of_scanNumber (scanNumber_int false (isWhole_toDigits m) hn hc)
  | negSucc m =>
    have htext : (toString (Int.negSucc m)).toList = '-' :: Nat.toDigits 10 (m + 1) := by
      simp [toString, Int.repr]
    rw [htext]
    simpa [Int.negSucc_eq] using
      scanScalar_of_scanNumber (scanNumber_int true (isWhole_toDigits (m + 1)) hn hc)

theorem scanScalar_float {x : PyFloat} {cs : List Char} (hx : x.IsDouble) (hc : Ends cs) :
    scanScalar ((dumpsFloat x).toList ++ cs) = some (float x, cs) := by
  cases x with
  | finite q =>
    simp only [dumpsFloat, PyFloat.repr]
    have hzero := scanNumber_point false (Or.inl rfl : IsWhole ['0']) (by simp) (allDigits_replicate 1) hc
    rcases lt_trichotomy q 0 with hq | rfl | hq
    · rw [if_neg hq.ne, if_pos hq]
      have hneg : PyFloat.ofRat (-q) = .finite (-q) := PyFloat.ofRat_neg hx hq.ne
      simpa using scanScalar_of_scanNumber (scanNumber_reprPositive true (neg_pos.mpr hq) hneg hc)
    · simpa [PyFloat.ofDecimal, Nat.ofDigitChars_cons] using scanScalar_of_scanNumber hzero
    · rw [if_neg hq.ne', if_neg hq.not_gt]
      simpa using scanScalar_of_scanNumber (scanNumber_reprPositive false hq hx hc)
  | negZero =>
    have hzero := scanNumber_point true (Or.inl rfl : IsWhole ['0']) (by simp) (allDigits_replicate 1) hc
    simpa [PyFloat.ofDecimal, Nat.ofDigitChars_cons, dumpsFloat, PyFloat.repr] using scanScalar_of_scanNumber hzero
  | inf negative => cases negative <;> simp [dumpsFloat, scanScalar, scanLiteral, literals, List.dropPrefix?]
  | nan => simp [dumpsFloat, scanScalar, scanLiteral, literals, List.dropPrefix?]

mutual
/-- A value that `loads` can give: doubles, ints that `int` reads, and dicts without a key twice. -/
def Loadable : Json → Prop
  | int n => (Nat.toDigits 10 n.natAbs).length ≤ PyInt.maxStrDigits
  | float x => x.IsDouble
  | list xs => LoadableItems xs
  | dict fs => (fs.map Prod.fst).Nodup ∧ LoadableFields fs
  | _ => True

def LoadableItems : List Json → Prop
  | [] => True
  | x :: xs => Loadable x ∧ LoadableItems xs

def LoadableFields : List (String × Json) → Prop
  | [] => True
  | (_, v) :: fs => Loadable v ∧ LoadableFields fs
end

mutual
def scans : Json → ℕ
  | list xs => 1 + scansItems xs
  | dict fs => 1 + scansFields fs
  | _ => 1

def scansItems : List Json → ℕ
  | [] => 0
  | x :: xs => 1 + scans x + scansItems xs

def scansFields : List (String × Json) → ℕ
  | [] => 0
  | (_, v) :: fs => 1 + scans v + scansFields fs
end

theorem scan_of_scanScalar {n : ℕ} {cs : List Char} {r : Json × List Char} (h : scanScalar cs = some r) :
    scan (n + 1) cs = some r := by
  rw [scan]
  · exact h
  all_goals
    rintro es rfl
    simp [scanScalar, scanLiteral, literals, List.dropPrefix?, scanNumber, scanWhole] at h

theorem scan_blank {n : ℕ} {c : Char} (cs : List Char) (h : isBlank c = true ∨ c = ']') :
    scan n (c :: cs) = none := by
  have hc : c ∈ [' ', '\t', '\n', '\r', ']'] := by
    simpa [isBlank, or_assoc] using h
  cases n with
  | zero => rw [scan.eq_def]
  | succ n =>
    simp only [List.mem_cons, List.not_mem_nil, or_false] at hc
    rcases hc with rfl | rfl | rfl | rfl | rfl <;>
      simp [scan, scanScalar, scanLiteral, literals, List.dropPrefix?, scanNumber, scanWhole]

theorem ends_of_ne {c : Char} (cs : List Char) (h : c ∈ [',', ']', '\x7d']) : Ends (c :: cs) := by
  intro a ha
  simp only [List.head?_cons, Option.mem_some_iff] at ha
  subst ha
  simp only [List.mem_cons, List.not_mem_nil, or_false] at h
  rcases h with rfl | rfl | rfl <;> decide

theorem skip_space (cs : List Char) : skip (' ' :: cs) = skip cs := by simp [skip, isBlank]

theorem skip_cons {c : Char} (cs : List Char) (h : isBlank c = false) : skip (c :: cs) = c :: cs := by
  simp [skip, h]

theorem skip_of_scan {n : ℕ} {cs : List Char} {r : Json × List Char} (h : scan n cs = some r) :
    skip cs = cs ∧ ∀ es, cs ≠ ']' :: es := by
  cases cs with
  | nil => exact ⟨rfl, by simp⟩
  | cons c cs =>
    have hb : isBlank c = false := by
      by_contra hb
      rw [scan_blank cs (Or.inl (by simpa using hb))] at h
      cases h
    refine ⟨skip_cons cs hb, ?_⟩
    rintro es heq
    rw [(List.cons.inj heq).1, scan_blank cs (Or.inr rfl)] at h
    cases h

theorem skip_of_scanItems {n : ℕ} {cs : List Char} {r : List Json × List Char} (h : scanItems n cs = some r) :
    skip cs = cs ∧ ∀ es, cs ≠ ']' :: es := by
  cases n with
  | zero => simp [scanItems] at h
  | succ n =>
    simp only [scanItems, Option.bind_eq_bind, Option.bind_eq_some_iff] at h
    obtain ⟨_,hx,-⟩ := h
    exact skip_of_scan hx

theorem skip_of_scanMembers {n : ℕ} {cs : List Char} {r : List (String × Json) × List Char}
    (h : scanMembers n cs = some r) : skip cs = cs ∧ ∀ es, cs ≠ '\x7d' :: es := by
  cases n with
  | zero => simp [scanMembers] at h
  | succ n =>
    simp only [scanMembers, Option.bind_eq_bind, Option.bind_eq_some_iff] at h
    obtain ⟨_,hk,-⟩ := h
    unfold scanKey at hk
    split at hk
    · exact ⟨skip_cons _ (by decide), by simp⟩
    · cases hk

theorem scan_list {n : ℕ} {cs rest : List Char} {xs : List Json} (h : scanItems n cs = some (xs, rest)) :
    scan (n + 1) ('[' :: cs) = some (list xs, rest) := by
  obtain ⟨hskip,hne⟩ := skip_of_scanItems h
  rw [scan, hskip]
  split
  · exact absurd rfl (hne _)
  · rw [h]; rfl

theorem scan_dict {n : ℕ} {cs rest : List Char} {fs : List (String × Json)}
    (h : scanMembers n cs = some (fs, rest)) :
    scan (n + 1) ('\x7b' :: cs) = some (dict (Dict.ofEntries fs).entries, rest) := by
  obtain ⟨hskip,hne⟩ := skip_of_scanMembers h
  rw [scan, hskip]
  split
  · exact absurd rfl (hne _)
  · rw [h]; rfl

theorem scanItems_last {n : ℕ} {cs rest : List Char} {x : Json} (h : scan n cs = some (x, ']' :: rest)) :
    scanItems (n + 1) cs = some ([x], rest) := by
  simp [scanItems, h, skip_cons (c := ']') rest (by decide)]

theorem scanItems_more {n : ℕ} {cs cs' rest : List Char} {x : Json} {xs : List Json}
    (h : scan n cs = some (x, ',' :: ' ' :: cs')) (hr : scanItems n cs' = some (xs, rest)) :
    scanItems (n + 1) cs = some (x :: xs, rest) := by
  simp [scanItems, h, skip_cons (c := ',') _ (by decide), skip_space, (skip_of_scanItems hr).1, hr]

theorem scanMembers_last {n : ℕ} {cs cs' rest : List Char} {k : String} {v : Json}
    (hk : scanKey cs = some (k, cs')) (h : scan n cs' = some (v, '\x7d' :: rest)) :
    scanMembers (n + 1) cs = some ([(k, v)], rest) := by
  simp [scanMembers, hk, h, skip_cons (c := '\x7d') rest (by decide)]

theorem scanMembers_more {n : ℕ} {cs cs' cs'' rest : List Char} {k : String} {v : Json}
    {fs : List (String × Json)} (hk : scanKey cs = some (k, cs'))
    (h : scan n cs' = some (v, ',' :: ' ' :: cs'')) (hr : scanMembers n cs'' = some (fs, rest)) :
    scanMembers (n + 1) cs = some ((k, v) :: fs, rest) := by
  simp [scanMembers, hk, h, skip_cons (c := ',') _ (by decide), skip_space, (skip_of_scanMembers hr).1, hr]

theorem scanKey_dumpsStr (k : String) {cs : List Char} (h : skip cs = cs) :
    scanKey ((dumpsStr k).toList ++ ':' :: ' ' :: cs) = some (k, cs) := by
  simp [dumpsStr, scanKey, scanString_escape, skip_cons (c := ':') _ (by decide), skip_space, h]

theorem exists_of_scans {x : Json} {n : ℕ} (h : x.scans ≤ n) : ∃ m, n = m + 1 := by
  have hpos : 0 < x.scans := by cases x <;> simp [scans]
  exact ⟨n - 1, by omega⟩

mutual
theorem scan_dumps : ∀ (x : Json) {n : ℕ} {cs : List Char}, x.Loadable → x.scans ≤ n → Ends cs →
    scan n ((dumps x).toList ++ cs) = some (x, cs)
  | null, n, cs, _, hn, _ => by
      obtain ⟨m,rfl⟩ : ∃ m, n = m + 1 := exists_of_scans hn
      exact scan_of_scanScalar (by simp [dumps, scanScalar, scanLiteral, literals, List.dropPrefix?])
  | bool b, n, cs, _, hn, _ => by
      obtain ⟨m,rfl⟩ : ∃ m, n = m + 1 := exists_of_scans hn
      cases b <;> exact scan_of_scanScalar (by simp [dumps, scanScalar, scanLiteral, literals, List.dropPrefix?])
  | int z, n, cs, hw, hn, hc => by
      obtain ⟨m,rfl⟩ : ∃ m, n = m + 1 := exists_of_scans hn
      exact scan_of_scanScalar (scanScalar_int hw hc)
  | float x, n, cs, hw, hn, hc => by
      obtain ⟨m,rfl⟩ : ∃ m, n = m + 1 := exists_of_scans hn
      exact scan_of_scanScalar (scanScalar_float hw hc)
  | str s, n, cs, _, hn, _ => by
      obtain ⟨m,rfl⟩ : ∃ m, n = m + 1 := exists_of_scans hn
      simp [dumps, dumpsStr, scan, scanString_escape]
  | list xs, n, cs, hw, hn, _ => by
      obtain ⟨m,rfl⟩ : ∃ m, n = m + 1 := exists_of_scans hn
      rw [scans] at hn
      cases xs with
      | nil => simp [dumps, dumpsList, scan, skip_cons (c := ']') _ (by decide)]
      | cons x xs =>
        have := scanItems_dumps (x :: xs) (n := m) cs (by simp) hw (by omega)
        simpa [dumps] using scan_list this
  | dict fs, n, cs, hw, hn, _ => by
      obtain ⟨m,rfl⟩ : ∃ m, n = m + 1 := exists_of_scans hn
      rw [scans] at hn
      cases fs with
      | nil => simp [dumps, dumpsFields, scan, skip_cons (c := '\x7d') _ (by decide)]
      | cons f fs =>
        have := scanMembers_dumps (f :: fs) (n := m) cs (by simp) hw.2 (by omega)
        have hfs : (Dict.ofEntries (f :: fs)).entries = f :: fs :=
          congrArg Dict.entries (Dict.ofEntries_entries ⟨f :: fs, hw.1⟩)
        simpa [dumps, hfs] using scan_dict this

theorem scanItems_dumps : ∀ (xs : List Json) {n : ℕ} (cs : List Char), xs ≠ [] → LoadableItems xs →
    scansItems xs ≤ n → scanItems n ((", ".intercalate (dumpsList xs)).toList ++ ']' :: cs) = some (xs, cs)
  | [], _, _, h, _, _ => absurd rfl h
  | x :: xs, n, cs, _, hw, hn => by
      rw [scansItems] at hn
      obtain ⟨m,rfl⟩ : ∃ m, n = m + 1 := ⟨n - 1, by omega⟩
      cases xs with
      | nil =>
        have hx := scan_dumps x (n := m) hw.1 (by omega) (ends_of_ne cs (c := ']') (by simp))
        simpa [dumpsList] using scanItems_last hx
      | cons y ys =>
        have hrest := scanItems_dumps (y :: ys) (n := m) cs (by simp) hw.2 (by omega)
        have hx := scan_dumps x (n := m) hw.1 (by omega)
          (ends_of_ne (' ' :: ((", ".intercalate (dumpsList (y :: ys))).toList ++ ']' :: cs)) (c := ',') (by simp))
        simpa [dumpsList] using scanItems_more hx hrest

theorem scanMembers_dumps : ∀ (fs : List (String × Json)) {n : ℕ} (cs : List Char), fs ≠ [] →
    LoadableFields fs → scansFields fs ≤ n →
    scanMembers n ((", ".intercalate (dumpsFields fs)).toList ++ '\x7d' :: cs) = some (fs, cs)
  | [], _, _, h, _, _ => absurd rfl h
  | (k, v) :: fs, n, cs, _, hw, hn => by
      rw [scansFields] at hn
      obtain ⟨m,rfl⟩ : ∃ m, n = m + 1 := ⟨n - 1, by omega⟩
      cases fs with
      | nil =>
        have hv := scan_dumps v (n := m) hw.1 (by omega) (ends_of_ne cs (c := '\x7d') (by simp))
        have hk := scanKey_dumpsStr k (skip_of_scan hv).1
        simpa [dumpsFields] using scanMembers_last hk hv
      | cons g gs =>
        have hrest := scanMembers_dumps (g :: gs) (n := m) cs (by simp) hw.2 (by omega)
        have hv := scan_dumps v (n := m) hw.1 (by omega)
          (ends_of_ne (' ' :: ((", ".intercalate (dumpsFields (g :: gs))).toList ++ '\x7d' :: cs)) (c := ',') (by simp))
        have hk := scanKey_dumpsStr k (skip_of_scan hv).1
        simpa [dumpsFields] using scanMembers_more hk hv hrest
end

theorem dumps_length_pos (x : Json) : 0 < (dumps x).length := by
  have hne {s : String} (h : s ≠ "") : 0 < s.length := Nat.pos_of_ne_zero (by simpa using h)
  cases x with
  | null => exact hne (by simp [dumps])
  | bool b => cases b <;> exact hne (by simp [dumps])
  | int n =>
    cases n with
    | ofNat m => exact Nat.length_repr_pos
    | negSucc m => exact hne (by simp [dumps, toString, Int.repr])
  | float x =>
    cases x with
    | finite q => exact hne (PyFloat.repr_ne_empty (.finite q))
    | negZero => exact hne (PyFloat.repr_ne_empty .negZero)
    | inf negative => cases negative <;> exact hne (by simp [dumps, dumpsFloat])
    | nan => exact hne (by simp [dumps, dumpsFloat])
  | str s => exact hne (by simp [dumps, dumpsStr])
  | list xs => exact hne (by simp [dumps])
  | dict fs => exact hne (by simp [dumps])

mutual
theorem scans_le_length : ∀ x : Json, x.scans + 1 ≤ 2 * (dumps x).length
  | null => by have := dumps_length_pos null; simp only [scans]; omega
  | bool b => by have := dumps_length_pos (bool b); simp only [scans]; omega
  | int n => by have := dumps_length_pos (int n); simp only [scans]; omega
  | float x => by have := dumps_length_pos (float x); simp only [scans]; omega
  | str s => by have := dumps_length_pos (str s); simp only [scans]; omega
  | list xs => by
      have := scansItems_le_length xs
      simp only [scans, dumps, String.length_append]
      have h : ("[" : String).length = 1 := rfl
      have h' : ("]" : String).length = 1 := rfl
      omega
  | dict fs => by
      have := scansFields_le_length fs
      simp only [scans, dumps, String.length_append]
      have h : ("\x7b" : String).length = 1 := rfl
      have h' : ("\x7d" : String).length = 1 := rfl
      omega

theorem scansItems_le_length : ∀ xs : List Json, scansItems xs ≤ 2 * (", ".intercalate (dumpsList xs)).length
  | [] => by simp [scansItems]
  | [x] => by
      have := scans_le_length x
      simp only [scansItems, dumpsList, String.intercalate_singleton]
      omega
  | x :: y :: xs => by
      have hx := scans_le_length x
      have hxs := scansItems_le_length (y :: xs)
      rw [scansItems]
      simp only [dumpsList, String.intercalate_cons_cons, String.length_append] at hxs ⊢
      omega

theorem scansFields_le_length : ∀ fs : List (String × Json),
    scansFields fs ≤ 2 * (", ".intercalate (dumpsFields fs)).length
  | [] => by simp [scansFields]
  | [(k, v)] => by
      have := scans_le_length v
      simp only [scansFields, dumpsFields, String.intercalate_singleton, String.length_append]
      omega
  | (k, v) :: g :: fs => by
      have hv := scans_le_length v
      have hfs := scansFields_le_length (g :: fs)
      rw [scansFields]
      simp only [dumpsFields, String.intercalate_cons_cons, String.length_append] at hfs ⊢
      omega
end

theorem loads_dumps {x : Json} (h : x.Loadable) : loads (dumps x) = .ok x := by
  have hscans := scans_le_length x
  have hends : Ends [] := fun c hc => by simp at hc
  have hscan := scan_dumps x h (show x.scans ≤ 2 * (dumps x).length + 1 by omega) hends
  rw [List.append_nil] at hscan
  simp only [loads, (skip_of_scan hscan).1, hscan]
  rfl

theorem loadsBytes_dumps {x : Json} (h : x.Loadable) : loadsBytes (dumps x).toUTF8 = .ok x := by
  have hread : String.fromUTF8? (dumps x).toUTF8 = some (dumps x) := by
    rw [String.fromUTF8?, dif_pos (by simpa using (dumps x).isValidUTF8)]
    rfl
  rw [loadsBytes, hread]
  exact loads_dumps h

end Json
