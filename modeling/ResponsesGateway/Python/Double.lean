import ResponsesGateway.Python.Number
import Mathlib.Tactic.Linarith
import Mathlib.Tactic.FieldSimp
import Mathlib.Tactic.Ring
import Mathlib.Tactic.Positivity

namespace PyFloat

theorem roundHalfEven_of_near {q : ℚ} {n : ℤ} (h : |q - n| < 1/2) : roundHalfEven q = n := by
  obtain ⟨hlo,hhi⟩ := abs_lt.mp h
  by_cases hn : (n : ℚ) ≤ q
  · have hfloor : ⌊q⌋ = n := Int.floor_eq_iff.mpr ⟨hn, by linarith⟩
    simp only [roundHalfEven, hfloor]
    rw [if_pos hhi]
  · have hfloor : ⌊q⌋ = n - 1 := Int.floor_eq_iff.mpr ⟨by push_cast; linarith, by push_cast; linarith⟩
    simp only [roundHalfEven, hfloor]
    push_cast
    rw [if_neg (by linarith), if_pos (by linarith), sub_add_cancel]

theorem roundHalfEven_intCast (n : ℤ) : roundHalfEven n = n := roundHalfEven_of_near (by simp)

theorem roundHalfEven_neg (q : ℚ) : roundHalfEven (-q) = -roundHalfEven q := by
  have hle := Int.floor_le q
  have hlt := Int.lt_floor_add_one q
  rcases eq_or_lt_of_le hle with hint | hfrac
  · rw [← hint, ← Int.cast_neg, roundHalfEven_intCast, roundHalfEven_intCast]
  · have hfloor : ⌊-q⌋ = -⌊q⌋ - 1 := by
      refine Int.floor_eq_iff.mpr ⟨?_,?_⟩
      · push_cast; linarith
      · push_cast; linarith
    simp only [roundHalfEven, hfloor]
    push_cast
    split_ifs <;> first | omega | linarith

theorem ofRat_neg {q r : ℚ} (h : ofRat q = finite r) (hr : r ≠ 0) : ofRat (-q) = finite (-r) := by
  have hulp : ulp (-q) = ulp q := by simp only [ulp, abs_neg]
  by_cases hq : q = 0
  · rw [hq] at h
    exact absurd (by simpa [ofRat, eq_comm] using h) hr
  · simp only [ofRat, if_neg hq] at h
    simp only [ofRat, neg_eq_zero, if_neg hq, hulp, neg_div, roundHalfEven_neg, Int.cast_neg, neg_mul, abs_neg]
    split at h
    · cases h
    · next hbig =>
      rw [if_neg hbig]
      split at h
      · split at h <;> cases h
        exact absurd rfl hr
      · next hzero => 
        rw [if_neg hzero]
        cases h
        rfl

theorem ulp_pos (q : ℚ) : 0 < ulp q := zpow_pos two_pos _

def lastBit (q : ℚ) : ℤ := max (Int.log 2 |q| - 52) (-1074)

theorem ulp_eq (q : ℚ) : ulp q = 2 ^ lastBit q := rfl

theorem lt_ulp {q : ℚ} (hq : 0 < q) : q < 2 ^ 53 * ulp q := by
  have hlog : q < ((2 : ℕ) : ℚ) ^ (Int.log 2 q + 1) := Int.lt_zpow_succ_log_self one_lt_two q
  have hle : Int.log 2 q + 1 ≤ 53 + lastBit q := by
    have := le_max_left (Int.log 2 |q| - 52) (-1074)
    rw [abs_of_pos hq] at this
    simp only [lastBit, abs_of_pos hq]
    omega
  calc q < ((2 : ℕ) : ℚ) ^ (Int.log 2 q + 1) := hlog
    _ = (2 : ℚ) ^ (Int.log 2 q + 1) := by norm_num
    _ ≤ 2 ^ (53 + lastBit q) := zpow_le_zpow_right₀ one_le_two hle
    _ = 2 ^ 53 * ulp q := by rw [ulp_eq, zpow_add₀ two_ne_zero]; norm_num

theorem lastBit_eq {x : ℚ} {e : ℤ} (hx : 0 < x) (hlt : x < 2 ^ 53 * 2 ^ e) (he : -1074 ≤ e)
    (hle : e = -1074 ∨ 2 ^ 52 * 2 ^ e ≤ x) : lastBit x = e := by
  have hup : Int.log 2 x < 53 + e := by
    refine (Int.lt_zpow_iff_log_lt one_lt_two hx).mp ?_
    calc x < 2 ^ 53 * 2 ^ e := hlt
      _ = ((2 : ℕ) : ℚ) ^ (53 + e) := by push_cast; rw [zpow_add₀ two_ne_zero]; norm_num
  simp only [lastBit, abs_of_pos hx]
  rcases hle with rfl | hle
  · omega
  · have hdown : 52 + e ≤ Int.log 2 x := by
      refine (Int.zpow_le_iff_le_log one_lt_two hx).mp ?_
      calc ((2 : ℕ) : ℚ) ^ (52 + e) = 2 ^ 52 * 2 ^ e := by
            push_cast; rw [zpow_add₀ two_ne_zero]; norm_num
        _ ≤ x := hle
    omega

theorem exists_mantissa {q : ℚ} (hq : 0 < q) (h : ofRat q = finite q) :
    q < 2 ^ 1024 ∧ ∃ m : ℤ, q = m * ulp q := by
  have hne : q ≠ 0 := hq.ne'
  simp only [ofRat, if_neg hne] at h
  split at h
  · cases h
  · next hbig =>
    split at h
    · split at h
      · cases h
      · cases h; exact absurd rfl hne
    · have hr := PyFloat.finite.inj h
      refine ⟨?_,_,hr.symm⟩
      rw [hr] at hbig
      exact (lt_of_abs_lt (not_le.mp hbig))

theorem ofRat_eq_of_round {x q : ℚ} (hx : x ≠ 0) (hq : 0 < q) (hmax : q < 2 ^ 1024)
    (hround : roundHalfEven (x / ulp x) * ulp x = q) : ofRat x = finite q := by
  simp only [ofRat, if_neg hx, hround]
  rw [if_neg (by rw [abs_of_pos hq]; exact not_le.mpr hmax), if_neg hq.ne']

theorem ofRat_binade {t q : ℚ} {e n : ℤ} (ht : 0 < t) (hlt : t < 2 ^ 53) (he : -1074 ≤ e)
    (hle : e = -1074 ∨ 2 ^ 52 ≤ t) (hround : roundHalfEven t = n) (hn : n * 2 ^ e = q) (hq : 0 < q)
    (hmax : q < 2 ^ 1024) : ofRat (t * 2 ^ e) = finite q := by
  have hu : (0 : ℚ) < 2 ^ e := zpow_pos two_pos e
  have hx : 0 < t * 2 ^ e := mul_pos ht hu
  have hbit : lastBit (t * 2 ^ e) = e :=
    lastBit_eq hx (mul_lt_mul_of_pos_right hlt hu) he (hle.imp id fun h => mul_le_mul_of_nonneg_right h hu.le)
  refine ofRat_eq_of_round hx.ne' hq hmax ?_
  rw [ulp_eq, hbit, mul_div_cancel_right₀ t hu.ne', hround, hn]

theorem lastBit_normal {q : ℚ} (hq : 0 < q) (h : lastBit q ≠ -1074) : 2 ^ 52 * ulp q ≤ q := by
  have hlog : lastBit q = Int.log 2 q - 52 := by
    simp only [lastBit, abs_of_pos hq] at h ⊢
    omega
  calc 2 ^ 52 * ulp q = ((2 : ℕ) : ℚ) ^ (52 + lastBit q) := by
        rw [ulp_eq]; push_cast; rw [zpow_add₀ two_ne_zero]; norm_num
    _ = ((2 : ℕ) : ℚ) ^ Int.log 2 q := by rw [hlog, add_sub_cancel]
    _ ≤ q := Int.zpow_log_le_self one_lt_two hq

theorem ofRat_of_near {q x : ℚ} (hq : 0 < q) (h : ofRat q = finite q) (hx : 2 ^ 54 * |x - q| < q) :
    ofRat x = finite q := by
  obtain ⟨hmax,m,hm⟩ := exists_mantissa hq h
  have hu := ulp_pos q
  have hlt := lt_ulp hq
  have hnormal := lastBit_normal hq
  have hbit : -1074 ≤ lastBit q := le_max_right _ _
  -- Everything is measured in last bits of `q`.
  obtain ⟨t,rfl⟩ : ∃ t, x = t * ulp q := ⟨x / ulp q, (div_mul_cancel₀ x hu.ne').symm⟩
  rw [ulp_eq] at *
  generalize lastBit q = e at *
  subst hm
  have hmpos : (0 : ℚ) < m := pos_of_mul_pos_left hq hu.le
  have hm53 : (m : ℚ) ≤ 2 ^ 53 - 1 := by
    have : (m : ℚ) < 2 ^ 53 := lt_of_mul_lt_mul_right hlt hu.le
    have : m < 2 ^ 53 := by exact_mod_cast this
    have : m ≤ 2 ^ 53 - 1 := by omega
    exact_mod_cast this
  have hnear : 2 ^ 54 * |t - m| < m := by
    rw [← sub_mul, abs_mul, abs_of_pos hu, ← mul_assoc] at hx
    exact lt_of_mul_lt_mul_right hx hu.le
  obtain ⟨hlo,hhi⟩ := abs_lt.mp (show |t - m| < m / 2 ^ 54 by
    rw [lt_div_iff₀ (by positivity)]; linarith)
  by_cases hsame : e = -1074 ∨ 2 ^ 52 ≤ t
  · have hround : roundHalfEven t = m :=
      roundHalfEven_of_near (abs_lt.mpr ⟨by linarith, by linarith⟩)
    exact ofRat_binade (by linarith) (by linarith) hbit hsame hround rfl hq hmax
  · -- `q` is the least of its binade and `x` lies below it, where bits are half as wide.
    obtain ⟨hbit',ht52⟩ := not_or.mp hsame
    have ht52 := not_le.mp ht52
    have hm52 : (2 : ℚ) ^ 52 ≤ m := le_of_mul_le_mul_right (hnormal hbit') hu
    have hmeq : m = 2 ^ 52 := by
      have hge : (2 ^ 52 : ℤ) ≤ m := by exact_mod_cast hm52
      have hle : m < 2 ^ 52 + 1 := by
        by_contra hc
        have : (2 ^ 52 + 1 : ℚ) ≤ m := by exact_mod_cast not_lt.mp hc
        linarith
      omega
    have hround : roundHalfEven (2 * t) = 2 ^ 53 := by
      refine roundHalfEven_of_near (abs_lt.mpr ⟨?_,?_⟩)
      · push_cast; linarith
      · push_cast; linarith
    have hhalf : (2 : ℚ) ^ (e - 1) = 2 ^ e / 2 := by rw [zpow_sub_one₀ two_ne_zero, div_eq_mul_inv]
    have hx : t * 2 ^ e = 2 * t * 2 ^ (e - 1) := by
      rw [hhalf]
      ring
    rw [hx]
    refine ofRat_binade (by linarith) (by linarith) (by omega) (Or.inr (by linarith)) hround ?_ hq hmax
    rw [hhalf, hmeq]
    push_cast
    ring

theorem exists_near_decimal {q : ℚ} (hq : 0 < q) :
    2 ^ 54 * |⌊q / 10 ^ (Int.log 10 q - 16)⌋₊ * 10 ^ (Int.log 10 q - 16) - q| < q ∨
      2 ^ 54 * |(⌊q / 10 ^ (Int.log 10 q - 16)⌋₊ + 1) * 10 ^ (Int.log 10 q - 16) - q| < q := by
  generalize he : Int.log 10 q - 16 = e
  have hp : (0 : ℚ) < 10 ^ e := zpow_pos (by norm_num) e
  have hlow : 10 ^ 16 * 10 ^ e ≤ q := by
    calc (10 : ℚ) ^ 16 * 10 ^ e = ((10 : ℕ) : ℚ) ^ (16 + e) := by
          push_cast; rw [zpow_add₀ (by norm_num)]; norm_num
      _ = ((10 : ℕ) : ℚ) ^ Int.log 10 q := by rw [← he]; congr 1; omega
      _ ≤ q := Int.zpow_log_le_self (by norm_num) hq
  obtain ⟨t,rfl⟩ : ∃ t, q = t * 10 ^ e := ⟨q / 10 ^ e, (div_mul_cancel₀ q hp.ne').symm⟩
  rw [mul_div_cancel_right₀ t hp.ne']
  have ht : (10 : ℚ) ^ 16 ≤ t := le_of_mul_le_mul_right hlow hp
  have hfloor := Nat.floor_le (show 0 ≤ t by linarith)
  have hceil := Nat.lt_floor_add_one t
  simp only [← sub_mul, abs_mul, abs_of_pos hp, ← mul_assoc]
  rcases le_or_gt (t - ⌊t⌋₊) (1/2) with h | h
  · left
    refine mul_lt_mul_of_pos_right ?_ hp
    rw [abs_of_nonpos (by linarith)]
    linarith
  · right
    refine mul_lt_mul_of_pos_right ?_ hp
    rw [abs_of_nonneg (by linarith)]
    linarith

theorem ofRat_shortest {q : ℚ} (hq : 0 < q) (h : ofRat q = finite q) :
    ofRat ((shortest q).1 * 10 ^ (shortest q).2) = finite q := by
  unfold shortest
  extract_lets candidates
  have hreads (n : ℕ) : ∀ c ∈ candidates n, ofRat ((c.1 : ℚ) * 10 ^ c.2) = finite q := by
    intro c hc
    simp only [candidates, List.mem_map, List.mem_filter, beq_iff_eq] at hc
    obtain ⟨d,⟨-,hd⟩,rfl⟩ := hc
    rw [hd, h]
  have hsome : candidates 16 ≠ [] := by
    obtain ⟨d,hmem,hnear⟩ : ∃ d : ℕ,
        (d = ⌊q / 10 ^ (Int.log 10 q - 16)⌋₊ ∨ d = ⌊q / 10 ^ (Int.log 10 q - 16)⌋₊ + 1) ∧
          2 ^ 54 * |d * 10 ^ (Int.log 10 q - 16) - q| < q := by
      rcases exists_near_decimal hq with hlo | hhi
      · exact ⟨_, Or.inl rfl, hlo⟩
      · exact ⟨_, Or.inr rfl, by push_cast; exact hhi⟩
    refine List.ne_nil_of_mem (a := (d, Int.log 10 q - 16)) ?_
    simp only [candidates, List.mem_map, List.mem_filter, beq_iff_eq, Nat.cast_ofNat]
    refine ⟨d,⟨?_,?_⟩,rfl⟩
    · split <;> simp [hmem, or_comm]
    · rw [ofRat_of_near hq h hnear, h]
  cases hhead : ((List.range 17).flatMap candidates).head? with
  | none =>
    rw [List.head?_eq_none_iff, List.flatMap_eq_nil_iff] at hhead
    exact absurd (hhead 16 (by simp)) hsome
  | some c =>
    obtain ⟨n,-,hc⟩ := List.mem_flatMap.mp (List.mem_of_head? hhead)
    exact hreads n c hc

def IsDouble : PyFloat → Prop
  | finite q => ofRat q = finite q
  | _ => True

theorem roundHalfEven_bounds (q : ℚ) : ⌊q⌋ ≤ roundHalfEven q ∧ roundHalfEven q ≤ ⌊q⌋ + 1 := by
  simp only [roundHalfEven]
  split_ifs <;> omega

theorem isDouble_of_pos {q r : ℚ} (hq : 0 < q) (h : ofRat q = finite r) : ofRat r = finite r := by
  have hu := ulp_pos q
  have hlt := lt_ulp hq
  have hnormal := lastBit_normal hq
  have hbit : -1074 ≤ lastBit q := le_max_right _ _
  simp only [ofRat, if_neg hq.ne'] at h
  obtain ⟨hlo,hhi⟩ := roundHalfEven_bounds (q / ulp q)
  generalize roundHalfEven (q / ulp q) = m at *
  split at h
  · cases h
  next hbig =>
  split at h
  · split at h <;> cases h
    rfl
  next hzero =>
  obtain rfl := PyFloat.finite.inj h
  have hfloor : (0 : ℤ) ≤ ⌊q / ulp q⌋ := Int.floor_nonneg.mpr (div_nonneg hq.le hu.le)
  have hm : (0 : ℤ) < m := lt_of_le_of_ne (by omega) fun h0 => hzero (by simp [← h0])
  have hm' : (0 : ℚ) < m := by exact_mod_cast hm
  have hrpos : 0 < (m : ℚ) * ulp q := mul_pos hm' hu
  have hmax : (m : ℚ) * ulp q < 2 ^ 1024 := by
    rw [abs_of_pos hrpos] at hbig
    exact not_le.mp hbig
  have hm53 : m ≤ 2 ^ 53 := by
    have : ⌊q / ulp q⌋ < 2 ^ 53 := Int.floor_lt.mpr (by push_cast; rwa [div_lt_iff₀ hu])
    omega
  have h52 : lastBit q = -1074 ∨ (2 : ℚ) ^ 52 ≤ m := by
    refine (em (lastBit q = -1074)).imp id fun hn => ?_
    have hle : (2 ^ 52 : ℤ) ≤ ⌊q / ulp q⌋ := by
      rw [Int.le_floor]
      push_cast
      rw [le_div_iff₀ hu]
      exact hnormal hn
    exact_mod_cast hle.trans hlo
  rw [ulp_eq] at *
  rcases eq_or_lt_of_le hm53 with rfl | h53
  · -- Rounded up to the next binade, where bits are twice as wide.
    have hdouble : (2 : ℚ) ^ (lastBit q + 1) = 2 * 2 ^ lastBit q := by
      rw [zpow_add_one₀ two_ne_zero, mul_comm]
    have hr : ((2 ^ 53 : ℤ) : ℚ) * 2 ^ lastBit q = 2 ^ 52 * 2 ^ (lastBit q + 1) := by
      rw [hdouble]
      push_cast
      ring
    have hround : roundHalfEven (2 ^ 52) = (2 ^ 52 : ℤ) := by
      have hcast := roundHalfEven_intCast (2 ^ 52)
      push_cast at hcast
      exact hcast
    rw [hr] at hrpos hmax ⊢
    exact ofRat_binade (by norm_num) (by norm_num) (by omega) (Or.inr le_rfl) hround (by norm_num) hrpos hmax
  · exact ofRat_binade hm' (by exact_mod_cast h53) hbit h52 (roundHalfEven_intCast m) rfl hrpos hmax

theorem isDouble_ofRat (q : ℚ) : (ofRat q).IsDouble := by
  cases h : ofRat q with
  | finite r =>
    rcases lt_trichotomy q 0 with hq | rfl | hq
    · by_cases hr : r = 0
      · rw [hr]; rfl
      · have := isDouble_of_pos (neg_pos.mpr hq) (ofRat_neg h hr)
        simpa [IsDouble] using ofRat_neg this (neg_ne_zero.mpr hr)
    · simp only [ofRat, if_true] at h
      cases h
      rfl
    · exact isDouble_of_pos hq h
  | negZero => trivial
  | inf negative => trivial
  | nan => trivial

end PyFloat
