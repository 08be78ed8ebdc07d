import ResponsesGateway.Foundation.Lineage
import Mathlib.Data.List.Chain

variable {κ ρ : Type}

/-- A climb from the key `cur` that turns away from the keys in `seen`: the keys it looks up and the
records it meets, in order. -/
inductive Climb (look : κ → Option ρ) (parent : ρ → Option κ) :
    List κ → Option κ → List κ → List ρ → Prop
  | root {seen} : Climb look parent seen none [] []
  | again {seen k} : k ∈ seen → Climb look parent seen (some k) [] []
  | missing {seen k} : k ∉ seen → look k = none → Climb look parent seen (some k) [k] []
  | found {seen k r ks rs} : k ∉ seen → look k = some r → Climb look parent (k :: seen) (parent r) ks rs →
      Climb look parent seen (some k) (k :: ks) (r :: rs)

structure ParentChain (look : κ → Option ρ) (parent : ρ → Option κ) (key : ρ → κ) (k : κ) (rs : List ρ) :
    Prop where
  held : ∀ r ∈ rs, look (key r) = some r
  nodup : (rs.map key).Nodup
  last : rs.getLast? = look k
  linked : rs.IsChain (fun r r' => parent r' = some (key r))
  first : ∀ r, rs.head? = some r → ∀ p, parent r = some p → look p = none ∨ p ∈ rs.map key

theorem Lineage.parentChain {look held : κ → Option ρ} {parent : ρ → Option κ} {key : ρ → κ} {k : κ}
    {pre post : List ρ} (hkey : ∀ k r, look k = some r → key r = k)
    (hpre : ∀ r ∈ pre, held (key r) = none) (hpost : ∀ r ∈ post, held (key r) = some r)
    (h : Lineage look parent k (pre ++ post)) : ParentChain held parent key k post := by
  have hlinked := (List.isChain_append.mp (h.linked key hkey)).2.1
  have hnodup := h.nodup key hkey
  rw [List.map_append, List.nodup_append] at hnodup
  have hlast : post.getLast? = held k := by
    rcases List.eq_nil_or_concat post with rfl | ⟨post',r,rfl⟩
    · rw [List.append_nil] at h
      obtain ⟨r,hr⟩ := h.exists_look
      have hmem := List.mem_of_getLast? (h.getLast.symm.trans hr)
      rw [List.getLast?_nil, ← hkey k r hr, hpre r hmem]
    · have hr : look k = some r := h.getLast.trans (by simp)
      rw [← hkey k r hr, hpost r (by simp)]
      simp
  refine ⟨hpost,hnodup.2.1,hlast,hlinked,?_⟩
  intro r hr p hp
  obtain ⟨below,rfl⟩ := List.head?_eq_some_iff.mp hr
  rcases h.above with ⟨-,hnone⟩ | ⟨p',hp',habove⟩
  · rw [hp] at hnone; cases hnone
  · obtain rfl := Option.some.inj (hp.symm.trans hp')
    obtain ⟨q,hq⟩ := habove.exists_look
    left
    rw [← hkey p q hq]
    exact hpre q (List.mem_of_getLast? (habove.getLast.symm.trans hq))

namespace Climb

variable {look look' : κ → Option ρ} {parent : ρ → Option κ} {key : ρ → κ} {seen : List κ}
  {cur : Option κ} {k : κ} {ks ks' : List κ} {r : ρ} {rs rs' : List ρ}

theorem unique (h : Climb look parent seen cur ks rs) (h' : Climb look parent seen cur ks' rs') :
    ks = ks' ∧ rs = rs' := by
  induction h generalizing ks' rs' with
  | root => cases h'; exact ⟨rfl,rfl⟩
  | again hk =>
    cases h' with
    | again _ => exact ⟨rfl,rfl⟩
    | missing hk' _ => exact absurd hk hk'
    | found hk' _ _ => exact absurd hk hk'
  | missing hk hl =>
    cases h' with
    | again hk' => exact absurd hk' hk
    | missing _ _ => exact ⟨rfl,rfl⟩
    | found _ hl' _ => rw [hl] at hl'; cases hl'
  | found hk hl _ ih =>
    cases h' with
    | again hk' => exact absurd hk' hk
    | missing _ hl' => rw [hl] at hl'; cases hl'
    | found _ hl' hrest =>
      obtain rfl := Option.some.inj (hl.symm.trans hl')
      obtain ⟨rfl,rfl⟩ := ih hrest
      exact ⟨rfl,rfl⟩

theorem congr (h : Climb look parent seen cur ks rs) (hsame : ∀ k ∈ ks, look' k = look k) :
    Climb look' parent seen cur ks rs := by
  induction h with
  | root => exact .root
  | again hk => exact .again hk
  | missing hk hl => exact .missing hk ((hsame _ List.mem_cons_self).trans hl)
  | found hk hl _ ih =>
    exact .found hk ((hsame _ List.mem_cons_self).trans hl)
      (ih fun j hj => hsame j (List.mem_cons_of_mem _ hj))

theorem nodup (h : Climb look parent seen cur ks rs) : ks.Nodup ∧ ∀ k ∈ ks, k ∉ seen := by
  induction h with
  | root => simp
  | again _ => simp
  | missing hk _ => simpa using hk
  | found hk _ _ ih =>
    obtain ⟨hnodup,hnew⟩ := ih
    refine ⟨List.nodup_cons.mpr ⟨fun hm => hnew _ hm List.mem_cons_self,hnodup⟩,fun j hj => ?_⟩
    rcases List.mem_cons.mp hj with rfl | hj
    · exact hk
    · exact fun hs => hnew j hj (List.mem_cons_of_mem _ hs)

theorem forall_keys {P : κ → Prop} (h : Climb look parent seen cur ks rs)
    (hcur : ∀ k, cur = some k → P k) (hparent : ∀ r p, parent r = some p → P p) : ∀ k ∈ ks, P k := by
  induction h with
  | root => simp
  | again _ => simp
  | missing _ _ => simpa using hcur _ rfl
  | found _ _ _ ih => exact List.forall_mem_cons.mpr ⟨hcur _ rfl,ih (hparent _)⟩

section Keyed

variable (hkey : ∀ k r, look k = some r → key r = k)

include hkey

theorem keys (h : Climb look parent seen cur ks rs) :
    ∃ missed, ks = rs.map key ++ missed ∧ ∀ k ∈ missed, look k = none := by
  induction h with
  | root => exact ⟨[],by simp⟩
  | again _ => exact ⟨[],by simp⟩
  | @missing seen k _ hl => exact ⟨[k],by simp,by simpa using hl⟩
  | found _ hl _ ih =>
    obtain ⟨missed,rfl,hmissed⟩ := ih
    exact ⟨missed,by simp [hkey _ _ hl],hmissed⟩

theorem held (h : Climb look parent seen cur ks rs) : ∀ r ∈ rs, look (key r) = some r := by
  induction h with
  | root => simp
  | again _ => simp
  | missing _ _ => simp
  | found _ hl _ ih => exact List.forall_mem_cons.mpr ⟨by rw [hkey _ _ hl, hl],ih⟩

theorem cur_of_cons (h : Climb look parent seen cur ks (r :: rs)) : cur = some (key r) := by
  cases h with
  | found _ hl _ => rw [hkey _ _ hl]

theorem linked (h : Climb look parent seen cur ks rs) :
    rs.IsChain (fun r r' => parent r = some (key r')) := by
  induction h with
  | root => exact .nil
  | again _ => exact .nil
  | missing _ _ => exact .nil
  | @found seen k r ks rs _ _ hrest ih =>
    cases rs with
    | nil => exact .singleton r
    | cons r' rs => exact List.isChain_cons_cons.mpr ⟨cur_of_cons hkey hrest,ih⟩

theorem ends (h : Climb look parent seen cur ks rs) : ∀ r, rs.getLast? = some r →
    ∀ p, parent r = some p → look p = none ∨ p ∈ rs.map key ∨ p ∈ seen := by
  induction h with
  | root => simp
  | again _ => simp
  | missing _ _ => simp
  | @found seen k r ks rs _ hl hrest ih =>
    intro q hq p hp
    cases rs with
    | nil =>
      obtain rfl : r = q := by simpa using hq
      rw [hp] at hrest
      cases hrest with
      | again hm => simpa [hkey _ _ hl, List.mem_cons, eq_comm] using Or.inr hm
      | missing _ hnone => exact .inl hnone
    | cons r' rs =>
      rw [List.getLast?_cons_cons] at hq
      have hsub := ih q hq p hp
      rw [List.mem_cons] at hsub
      rw [List.map_cons, List.mem_cons, hkey _ _ hl]
      tauto

theorem parentChain (h : Climb look parent [] (some k) ks rs) :
    ParentChain look parent key k rs.reverse := by
  refine ⟨fun r hr => held hkey h r (List.mem_reverse.mp hr),?_,?_,?_,?_⟩
  · obtain ⟨missed,rfl,-⟩ := keys hkey h
    rw [List.map_reverse, List.nodup_reverse]
    exact (List.nodup_append.mp h.nodup.1).1
  · rw [List.getLast?_reverse]
    cases h with
    | again hm => cases hm
    | missing _ hl => simpa using hl.symm
    | found _ hl _ => simpa using hl.symm
  · exact List.isChain_reverse.mpr (linked hkey h)
  · intro r hr p hp
    rw [List.head?_reverse] at hr
    simpa using ends hkey h r hr p hp

end Keyed

theorem of_chain (hheld : ∀ q ∈ r :: rs, look (key q) = some q) (hnodup : ((r :: rs).map key).Nodup)
    (hnew : ∀ q ∈ r :: rs, key q ∉ seen)
    (hlinked : (r :: rs).IsChain (fun r r' => parent r = some (key r')))
    (hends : ∀ q, (r :: rs).getLast? = some q → ∀ p, parent q = some p →
      look p = none ∨ p ∈ (r :: rs).map key ∨ p ∈ seen) :
    ∃ ks, Climb look parent seen (some (key r)) ks (r :: rs) := by
  have hr : key r ∉ seen := hnew r List.mem_cons_self
  have hlook : look (key r) = some r := hheld r List.mem_cons_self
  -- The keys below `r` join `seen`, so no later one can stop the climb early.
  induction rs generalizing r seen with
  | nil =>
    cases hp : parent r with
    | none => exact ⟨[key r],.found hr hlook (by rw [hp]; exact .root)⟩
    | some p =>
      by_cases hm : p ∈ key r :: seen
      · exact ⟨[key r],.found hr hlook (by rw [hp]; exact .again hm)⟩
      · have hnone : look p = none := by
          simp only [List.mem_cons, not_or] at hm
          simpa [hm.1, hm.2] using hends r rfl p hp
        exact ⟨[key r, p],.found hr hlook (by rw [hp]; exact .missing hm hnone)⟩
  | cons r' rs ih =>
    obtain ⟨hp,hlinked'⟩ := List.isChain_cons_cons.mp hlinked
    obtain ⟨hfirst,hnodup'⟩ := List.nodup_cons.mp hnodup
    have hnew' : ∀ q ∈ r' :: rs, key q ∉ key r :: seen := by
      intro q hq hm
      rcases List.mem_cons.mp hm with he | hm
      · exact hfirst (he ▸ List.mem_map_of_mem hq)
      · exact hnew q (List.mem_cons_of_mem _ hq) hm
    have hends' : ∀ q, (r' :: rs).getLast? = some q → ∀ p, parent q = some p →
        look p = none ∨ p ∈ (r' :: rs).map key ∨ p ∈ key r :: seen := by
      intro q hq p hpq
      have hsub := hends q (by rwa [List.getLast?_cons_cons]) p hpq
      rw [List.map_cons, List.mem_cons] at hsub
      rw [List.mem_cons (a := p) (b := key r)]
      tauto
    obtain ⟨ks,hks⟩ := ih (fun q hq => hheld q (List.mem_cons_of_mem _ hq)) hnodup' hnew' hlinked' hends'
      (hnew' r' List.mem_cons_self) (hheld r' (by simp))
    exact ⟨key r :: ks,.found hr hlook (by rw [hp]; exact hks)⟩

theorem of_parentChain (hkey : ∀ k r, look k = some r → key r = k)
    (h : ParentChain look parent key k rs) : ∃ ks, Climb look parent [] (some k) ks rs.reverse := by
  cases hrs : rs.reverse with
  | nil =>
    rw [List.reverse_eq_nil_iff] at hrs
    subst hrs
    exact ⟨_,.missing List.not_mem_nil h.last.symm⟩
  | cons r above =>
    have hmem : ∀ q, q ∈ r :: above ↔ q ∈ rs := fun q => by rw [← hrs, List.mem_reverse]
    have hlast : look k = some r := by rw [← h.last, ← List.head?_reverse, hrs]; rfl
    rw [← hkey k r hlast]
    refine of_chain (fun q hq => h.held q ((hmem q).mp hq)) ?_ (fun q _ => List.not_mem_nil) ?_ ?_
    · rw [← hrs, List.map_reverse, List.nodup_reverse]
      exact h.nodup
    · rw [← hrs]
      exact List.isChain_reverse.mpr h.linked
    · intro q hq p hp
      rw [← hrs, List.getLast?_reverse] at hq
      rw [← hrs]
      simpa using h.first q hq p hp

end Climb

namespace Walk

variable [DecidableEq κ] {look : κ → Option ρ} {parent : ρ → Option κ} {seen : List κ} {cur : Option κ}
  {ks : List κ} {rs : List ρ}

theorem iterate_of_done {w : Walk κ ρ} (h : w.next? = none) (m : ℕ) : (step look parent)^[m] w = w :=
  Function.iterate_fixed (step_of_done h) m

theorem next?_climb (h : Climb look parent seen cur ks rs) (chain : List ρ) (m : ℕ) :
    ((step look parent)^[m] ⟨cur, seen, chain⟩).next? = ks[m]? := by
  induction h generalizing chain m with
  | root => rw [iterate_of_done rfl]; rfl
  | @again seen k hk =>
    have hdone : (⟨some k, seen, chain⟩ : Walk κ ρ).next? = none := by simp [next?, hk]
    rw [iterate_of_done hdone, hdone]
    rfl
  | @missing seen k hk hl =>
    have hnext : (⟨some k, seen, chain⟩ : Walk κ ρ).next? = some k := next?_eq_some.mpr ⟨rfl,hk⟩
    cases m with
    | zero => simpa using hnext
    | succ m =>
      rw [Function.iterate_succ_apply, step_of_missing hnext hl, iterate_of_done next?_of_missing]
      simp [next?]
  | @found seen k r ks rs hk hl _ ih =>
    have hnext : (⟨some k, seen, chain⟩ : Walk κ ρ).next? = some k := next?_eq_some.mpr ⟨rfl,hk⟩
    cases m with
    | zero => simpa using hnext
    | succ m =>
      rw [Function.iterate_succ_apply, step_of_found hnext hl, ih]
      simp

theorem climbed (h : Climb look parent seen cur ks rs) (chain : List ρ) :
    ((step look parent)^[ks.length] ⟨cur, seen, chain⟩).chain = chain ++ rs ∧
      ((step look parent)^[ks.length] ⟨cur, seen, chain⟩).visited = ks.reverse ++ seen := by
  induction h generalizing chain with
  | root => simp
  | again _ => simp
  | @missing seen k hk hl =>
    have hnext : (⟨some k, seen, chain⟩ : Walk κ ρ).next? = some k := next?_eq_some.mpr ⟨rfl,hk⟩
    rw [List.length_singleton, Function.iterate_one, step_of_missing hnext hl]
    simp
  | @found seen k r ks rs hk hl _ ih =>
    have hnext : (⟨some k, seen, chain⟩ : Walk κ ρ).next? = some k := next?_eq_some.mpr ⟨rfl,hk⟩
    rw [List.length_cons, Function.iterate_succ_apply, step_of_found hnext hl]
    simpa using ih (chain ++ [r])

theorem exists_climb {w : Walk κ ρ} {n : ℕ} (h : ((step look parent)^[n] w).next? = none) :
    ∃ ks rs, Climb look parent w.visited w.cur ks rs ∧ ks.length ≤ n := by
  induction n generalizing w with
  | zero =>
    rw [Function.iterate_zero_apply] at h
    cases hc : w.cur with
    | none => exact ⟨[],[],.root,Nat.le_refl 0⟩
    | some k =>
      have hk : k ∈ w.visited := by
        by_contra hk
        rw [next?_eq_some.mpr ⟨hc,hk⟩] at h
        cases h
      exact ⟨[],[],.again hk,Nat.le_refl 0⟩
  | succ n ih =>
    rw [Function.iterate_succ_apply] at h
    cases hn : w.next? with
    | none =>
      rw [step_of_done hn] at h
      obtain ⟨ks,rs,hclimb,hle⟩ := ih h
      exact ⟨ks,rs,hclimb,Nat.le_succ_of_le hle⟩
    | some k =>
      obtain ⟨hc,hk⟩ := next?_eq_some.mp hn
      rw [hc]
      cases hl : look k with
      | none => exact ⟨[k],[],.missing hk hl,Nat.succ_le_succ (Nat.zero_le n)⟩
      | some r =>
        rw [step_of_found hn hl] at h
        obtain ⟨ks,rs,hclimb,hle⟩ := ih h
        exact ⟨k :: ks,r :: rs,.found hk hl hclimb,Nat.succ_le_succ hle⟩

end Walk
