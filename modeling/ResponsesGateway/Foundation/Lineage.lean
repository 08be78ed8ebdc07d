import Mathlib.Data.Finset.Card
import Mathlib.Data.List.Chain
import Mathlib.Data.List.Forall2
import Mathlib.Data.List.Nodup
import Mathlib.Data.List.Infix
import Mathlib.Logic.Function.Iterate
import Mathlib.Logic.Relation

variable {κ ρ : Type}

/-- The records met from the root down to the one that `look` finds under a key, each the parent of
the next. -/
inductive Lineage (look : κ → Option ρ) (parent : ρ → Option κ) : κ → List ρ → Prop
  | root {k r} : look k = some r → parent r = none → Lineage look parent k [r]
  | child {k r p rs} : look k = some r → parent r = some p → Lineage look parent p rs →
      Lineage look parent k (rs ++ [r])

namespace Lineage

variable {look look' : κ → Option ρ} {parent : ρ → Option κ} {k : κ} {rs rs' : List ρ}

theorem unique (h : Lineage look parent k rs) (h' : Lineage look parent k rs') : rs = rs' := by
  induction h generalizing rs' with
  | root hl hp =>
    cases h' with
    | root hl' _ => simpa using hl.symm.trans hl'
    | child hl' hp' _ =>
      obtain rfl := Option.some.inj (hl.symm.trans hl')
      simp [hp] at hp'
  | child hl hp _ ih =>
    cases h' with
    | root hl' hp' =>
      obtain rfl := Option.some.inj (hl.symm.trans hl')
      simp [hp] at hp'
    | child hl' hp' hr' =>
      obtain rfl := Option.some.inj (hl.symm.trans hl')
      obtain rfl := Option.some.inj (hp.symm.trans hp')
      rw [ih hr']

theorem mono (hm : ∀ k r, look k = some r → look' k = some r) (h : Lineage look parent k rs) :
    Lineage look' parent k rs := by
  induction h with
  | root hl hp => exact .root (hm _ _ hl) hp
  | child hl hp _ ih => exact .child (hm _ _ hl) hp ih

theorem ne_nil (h : Lineage look parent k rs) : rs ≠ [] := by
  cases h <;> simp

theorem getLast (h : Lineage look parent k rs) : look k = rs.getLast? := by
  cases h with
  | root hl _ => simpa using hl
  | child hl _ _ => simpa using hl

theorem exists_look (h : Lineage look parent k rs) : ∃ r, look k = some r := by
  cases h with
  | root hl _ => exact ⟨_,hl⟩
  | child hl _ _ => exact ⟨_,hl⟩

theorem above {pre : List ρ} {r : ρ} {post : List ρ}
    (h : Lineage look parent k (pre ++ r :: post)) :
    (pre = [] ∧ parent r = none) ∨ ∃ p, parent r = some p ∧ Lineage look parent p pre := by
  generalize hrs : pre ++ r :: post = rs at h
  induction h generalizing post with
  | @root k q hl hp =>
    have hpre : pre = [] := by
      cases pre with
      | nil => rfl
      | cons a as => simp at hrs
    subst hpre
    simp only [List.nil_append, List.cons.injEq] at hrs
    exact .inl ⟨rfl, hrs.1 ▸ hp⟩
  | @child k q p rs hl hp hr ih =>
    rcases List.eq_nil_or_concat post with rfl | ⟨post', q', rfl⟩
    · obtain ⟨rfl,hq⟩ := List.append_inj' hrs rfl
      obtain rfl : r = q := by simpa using hq
      exact .inr ⟨p,hp,hr⟩
    · have he : (pre ++ r :: post') ++ [q'] = rs ++ [q] := by simpa using hrs
      exact ih (List.append_inj' he rfl).1

theorem prefix_of_mem (key : ρ → κ) (hk : ∀ k r, look k = some r → key r = k)
    (h : Lineage look parent k rs) {r : ρ} (hr : r ∈ rs) :
    ∃ rs', rs' <+: rs ∧ Lineage look parent (key r) rs' := by
  induction h with
  | root hl hp =>
    obtain rfl := List.mem_singleton.mp hr
    exact ⟨_,List.prefix_refl _,hk _ _ hl ▸ .root hl hp⟩
  | child hl hp hrs ih =>
    rcases List.mem_append.mp hr with hr | hr
    · obtain ⟨rs',hpre,hrs'⟩ := ih hr
      exact ⟨rs',hpre.trans (List.prefix_append _ _),hrs'⟩
    · obtain rfl := List.mem_singleton.mp hr
      exact ⟨_,List.prefix_refl _,hk _ _ hl ▸ .child hl hp hrs⟩

theorem look_of_mem (key : ρ → κ) (hk : ∀ k r, look k = some r → key r = k)
    (h : Lineage look parent k rs) {r : ρ} (hr : r ∈ rs) : look (key r) = some r := by
  induction h with
  | root hl _ =>
    obtain rfl := List.mem_singleton.mp hr
    rwa [hk _ _ hl]
  | child hl _ _ ih =>
    rcases List.mem_append.mp hr with hr | hr
    · exact ih hr
    · obtain rfl := List.mem_singleton.mp hr
      rwa [hk _ _ hl]

theorem nodup (key : ρ → κ) (hk : ∀ k r, look k = some r → key r = k)
    (h : Lineage look parent k rs) : (rs.map key).Nodup := by
  induction h with
  | root _ _ => simp
  | @child k r p rs hl hp hrs ih =>
    rw [List.map_append, List.nodup_append]
    refine ⟨ih,by simp,?_⟩
    intro a ha b hb hab
    obtain ⟨q,hq,rfl⟩ := List.mem_map.mp ha
    obtain rfl : b = key r := by simpa using hb
    -- A key met twice would have lineages of two lengths.
    obtain ⟨rs',hpre,hrs'⟩ := prefix_of_mem key hk hrs hq
    rw [hab, hk _ _ hl] at hrs'
    have hlen := congrArg List.length (hrs'.unique (.child hl hp hrs))
    have hle := hpre.length_le
    simp only [List.length_append, List.length_singleton] at hlen
    omega

theorem constant {α : Type} {f : ρ → α}
    (hf : ∀ k r p q, look k = some r → parent r = some p → look p = some q → f r = f q)
    (h : Lineage look parent k rs) {r : ρ} (hk : look k = some r) {q : ρ} (hq : q ∈ rs) : f q = f r := by
  induction h generalizing r with
  | root hl _ =>
    obtain rfl := List.mem_singleton.mp hq
    rw [Option.some.inj (hl.symm.trans hk)]
  | child hl hp hrs ih =>
    obtain rfl := Option.some.inj (hl.symm.trans hk)
    obtain ⟨s,hs⟩ := hrs.exists_look
    rcases List.mem_append.mp hq with hq | hq
    · exact (ih hs hq).trans (hf _ _ _ _ hl hp hs).symm
    · rw [List.mem_singleton.mp hq]

theorem pairwise {R : ρ → ρ → Prop} (htrans : ∀ q r s, R q r → R r s → R q s)
    (hR : ∀ k r p q, look k = some r → parent r = some p → look p = some q → R q r)
    (h : Lineage look parent k rs) : rs.Pairwise R := by
  induction h with
  | root _ _ => exact List.pairwise_singleton _ _
  | @child k r p rs hl hp hrs ih =>
    obtain ⟨q,hq⟩ := hrs.exists_look
    obtain ⟨above,rfl⟩ := List.getLast?_eq_some_iff.mp (hrs.getLast ▸ hq)
    have hqr := hR k r p q hl hp hq
    refine List.pairwise_append.mpr ⟨ih,List.pairwise_singleton _ _,?_⟩
    intro a ha b hb
    rw [List.mem_singleton.mp hb]
    rcases List.mem_append.mp ha with ha | ha
    · exact htrans a q r ((List.pairwise_append.mp ih).2.2 a ha q (List.mem_singleton_self q)) hqr
    · rwa [List.mem_singleton.mp ha]

theorem exists_cut {P : ρ → Prop}
    (hP : ∀ k r p q, look k = some r → parent r = some p → look p = some q → P q → P r)
    (h : Lineage look parent k rs) :
    ∃ pre post, rs = pre ++ post ∧ (∀ r ∈ pre, ¬ P r) ∧ ∀ r ∈ post, P r := by
  induction h with
  | @root k r hl hp =>
    by_cases hr : P r
    · exact ⟨[],[r],rfl,by simp,by simpa using hr⟩
    · exact ⟨[r],[],rfl,by simpa using hr,by simp⟩
  | @child k r p rs hl hp hrs ih =>
    obtain ⟨pre,post,rfl,hpre,hpost⟩ := ih
    by_cases hr : P r
    · exact ⟨pre,post ++ [r],by simp,hpre,fun q hq => (List.mem_append.mp hq).elim (hpost q)
        (fun he => List.mem_singleton.mp he ▸ hr)⟩
    · have hnil : post = [] := by
        rcases List.eq_nil_or_concat post with hnil | ⟨post',q,rfl⟩
        · exact hnil
        · have hq : look p = some q := hrs.getLast.trans (by simp)
          exact absurd (hP k r p q hl hp hq (hpost q (by simp))) hr
      subst hnil
      refine ⟨pre ++ [r],[],by simp,fun q hq => ?_,by simp⟩
      rcases List.mem_append.mp hq with hq | hq
      · exact hpre q hq
      · rwa [List.mem_singleton.mp hq]

theorem linked (key : ρ → κ) (hk : ∀ k r, look k = some r → key r = k)
    (h : Lineage look parent k rs) : rs.IsChain (fun r r' => parent r' = some (key r)) := by
  induction h with
  | root _ _ => exact .singleton _
  | @child k r p rs hl hp hrs ih =>
    refine List.isChain_append.mpr ⟨ih,.singleton r,fun q hq r' hr' => ?_⟩
    obtain rfl : r = r' := by simpa using hr'
    rw [hp, hk p q (hrs.getLast.trans (by simpa using hq))]

def Above (look : κ → Option ρ) (parent : ρ → Option κ) (k p : κ) : Prop :=
  ∃ r, look k = some r ∧ parent r = some p

theorem shorter_above {p : κ} (h : Lineage look parent k rs)
    (hp : Relation.TransGen (Above look parent) k p) :
    ∀ rs', Lineage look parent p rs' → rs'.length < rs.length := by
  induction hp using Relation.TransGen.head_induction_on generalizing rs with
  | single hup =>
    obtain ⟨r,hl,hr⟩ := hup
    intro rs' hrs'
    rw [h.unique (.child hl hr hrs')]
    simp
  | head hup _ ih =>
    obtain ⟨r,hl,hr⟩ := hup
    intro rs' hrs'
    cases h with
    | root hl' hr' =>
      obtain rfl := Option.some.inj (hl.symm.trans hl')
      rw [hr] at hr'; cases hr'
    | child hl' hr' habove =>
      obtain rfl := Option.some.inj (hl.symm.trans hl')
      obtain rfl := Option.some.inj (hr.symm.trans hr')
      have hlt := ih habove rs' hrs'
      simp only [List.length_append, List.length_singleton]
      omega

theorem not_above_self (h : Lineage look parent k rs) :
    ¬ Relation.TransGen (Above look parent) k k :=
  fun hk => Nat.lt_irrefl _ (h.shorter_above hk rs h)

end Lineage

structure Walk (κ ρ : Type) where
  cur : Option κ
  visited : List κ
  chain : List ρ

namespace Walk

variable [DecidableEq κ] (look : κ → Option ρ) (parent : ρ → Option κ)

def start (k : κ) : Walk κ ρ := ⟨some k, [], []⟩

def next? (w : Walk κ ρ) : Option κ := w.cur.filter (fun k => decide (k ∉ w.visited))

def step (w : Walk κ ρ) : Walk κ ρ :=
  match w.next? with
  | none => w
  | some k =>
      match look k with
      | none => { w with cur := none, visited := k :: w.visited }
      | some r => ⟨parent r, k :: w.visited, w.chain ++ [r]⟩

variable {look parent} {w : Walk κ ρ} {k : κ} {r : ρ}

theorem next?_eq_some : w.next? = some k ↔ w.cur = some k ∧ k ∉ w.visited := by
  cases w with
  | mk cur visited chain =>
    cases cur with
    | none => simp [next?]
    | some c =>
      by_cases hc : c ∈ visited
      · simp only [next?, Option.filter_some, hc, Option.some.injEq]
        simpa using fun he : c = k => he ▸ hc
      · simp only [next?, Option.filter_some, hc, Option.some.injEq]
        simpa using fun he : c = k => he ▸ hc

theorem step_of_done (h : w.next? = none) : w.step look parent = w := by simp [step, h]

theorem step_of_found (h : w.next? = some k) (hl : look k = some r) :
    w.step look parent = ⟨parent r, k :: w.visited, w.chain ++ [r]⟩ := by simp [step, h, hl]

theorem step_of_missing (h : w.next? = some k) (hl : look k = none) :
    w.step look parent = { w with cur := none, visited := k :: w.visited } := by simp [step, h, hl]

theorem chain_step_of_unknown (h : ∀ k, k ∉ w.visited → look k = none) :
    (w.step look parent).chain = w.chain := by
  cases hn : w.next? with
  | none => rw [step_of_done hn]
  | some k => rw [step_of_missing hn (h k (next?_eq_some.mp hn).2)]

theorem chain_prefix_step : w.chain <+: (w.step look parent).chain := by
  cases hn : w.next? with
  | none => rw [step_of_done hn]
  | some k =>
    cases hl : look k with
    | none => rw [step_of_missing hn hl]
    | some r => rw [step_of_found hn hl]; exact List.prefix_append _ _

theorem chain_prefix_iterate (n : ℕ) : w.chain <+: ((step look parent)^[n] w).chain := by
  induction n generalizing w with
  | zero => exact List.prefix_refl _
  | succ n ih =>
    rw [Function.iterate_succ_apply]
    exact chain_prefix_step.trans ih

theorem iterate_congr {look' : κ → Option ρ} (hnone : ∀ k, look k = none → look' k = none) (n : ℕ)
    (hsome : ∀ k, ∀ r ∈ ((step look parent)^[n] w).chain, look k = some r → look' k = some r) :
    (step look' parent)^[n] w = (step look parent)^[n] w := by
  induction n generalizing w with
  | zero => rfl
  | succ n ih =>
    rw [Function.iterate_succ_apply] at hsome
    rw [Function.iterate_succ_apply, Function.iterate_succ_apply]
    have hstep : step look' parent w = step look parent w := by
      cases hn : w.next? with
      | none => rw [step_of_done hn, step_of_done hn]
      | some k =>
        cases hl : look k with
        | none => rw [step_of_missing hn hl, step_of_missing hn (hnone k hl)]
        | some r =>
          have hmem : r ∈ ((step look parent)^[n] (step look parent w)).chain := by
            refine (chain_prefix_iterate n).subset ?_
            rw [step_of_found hn hl]
            exact List.mem_append_right _ (List.mem_singleton_self r)
          rw [step_of_found hn hl, step_of_found hn (hsome k r hmem hl)]
    rw [hstep]
    exact ih hsome

theorem next?_of_missing : ({ w with cur := none, visited := k :: w.visited } : Walk κ ρ).next? = none :=
  rfl

theorem done_of_card (ks : Finset κ) (hks : ∀ k r, look k = some r → k ∈ ks) (n : ℕ)
    (hn : (ks.filter (fun k => k ∉ w.visited)).card < n) :
    ((step look parent)^[n] w).next? = none := by
  induction n generalizing w with
  | zero => exact absurd hn (Nat.not_lt_zero _)
  | succ n ih =>
    rw [Function.iterate_succ_apply]
    cases hw : w.next? with
    | none =>
      rw [step_of_done hw]
      have hfix : ∀ m, (step look parent)^[m] w = w :=
        fun m => Function.iterate_fixed (step_of_done hw) m
      rw [hfix]; exact hw
    | some k =>
      cases hl : look k with
      | none =>
        rw [step_of_missing hw hl]
        have hd : ({ w with cur := none, visited := k :: w.visited } : Walk κ ρ).next? = none :=
          next?_of_missing
        rw [Function.iterate_fixed (step_of_done hd) n]
        exact hd
      | some r =>
        rw [step_of_found hw hl]
        apply ih
        dsimp only
        have hk := (next?_eq_some.mp hw).2
        have hlt : ks.filter (fun j => j ∉ k :: w.visited) ⊂ ks.filter (fun j => j ∉ w.visited) := by
          refine Finset.ssubset_iff_subset_ne.mpr ⟨?_,?_⟩
          · intro j hj
            simp only [Finset.mem_filter, List.mem_cons, not_or] at hj ⊢
            exact ⟨hj.1,hj.2.2⟩
          · intro he
            have hm : k ∈ ks.filter (fun j => j ∉ w.visited) :=
              Finset.mem_filter.mpr ⟨hks k r hl,hk⟩
            rw [← he] at hm
            simp at hm
        have := Finset.card_lt_card hlt
        omega

/-- A climb from `k` in a table that may lose records: below what is still to be read, `pre`, stands
what has been read. It ends at the root or where the record to be read next is gone. -/
structure Follows (look : κ → Option ρ) (parent : ρ → Option κ) (key : ρ → κ) (gone : κ → Prop)
    (k : κ) (w : Walk κ ρ) : Prop where
  visited : ∀ c, w.cur = some c → ∀ j ∈ w.visited, j ∈ w.chain.map key
  lineage : ∃ pre, Lineage look parent k (pre ++ w.chain.reverse) ∧
    match w.cur with
    | none => pre = [] ∨ ∃ r, pre.getLast? = some r ∧ gone (key r)
    | some c => ∃ r, pre.getLast? = some r ∧ key r = c

namespace Follows

variable {key : ρ → κ} {gone gone' : κ → Prop} {look' : κ → Option ρ} {rs : List ρ}

omit [DecidableEq κ] in
theorem start (hk : ∀ k r, look k = some r → key r = k) (h : Lineage look parent k rs) :
    Follows look parent key gone k (Walk.start k) := by
  refine ⟨by simp [Walk.start],rs,by simpa [Walk.start] using h,?_⟩
  cases hl : rs.getLast? with
  | none => exact absurd (List.getLast?_eq_none_iff.mp hl) h.ne_nil
  | some r => exact ⟨r,rfl,hk k r (h.getLast.trans hl)⟩

omit [DecidableEq κ] in
theorem mono (hlook : ∀ k r, look k = some r → look' k = some r)
    (hgone : ∀ k r, look k = some r → gone k → gone' k)
    (hk : ∀ k r, look k = some r → key r = k) (h : Follows look parent key gone k w) :
    Follows look' parent key gone' k w := by
  obtain ⟨pre,hl,hcur⟩ := h.lineage
  refine ⟨h.visited,pre,hl.mono hlook,?_⟩
  cases hc : w.cur with
  | some c => simpa [hc] using hcur
  | none =>
    simp only [hc] at hcur ⊢
    refine hcur.imp_right ?_
    rintro ⟨r,hr,hg⟩
    have hm : r ∈ pre ++ w.chain.reverse := List.mem_append_left _ (List.mem_of_getLast? hr)
    exact ⟨r,hr,hgone _ r (hl.look_of_mem key hk hm) hg⟩

theorem next?_of_cur (hk : ∀ k r, look k = some r → key r = k) {c : κ}
    (h : Follows look parent key gone k w) (hc : w.cur = some c) : w.next? = some c := by
  obtain ⟨pre,hl,hcur⟩ := h.lineage
  simp only [hc] at hcur
  obtain ⟨r,hr,rfl⟩ := hcur
  refine next?_eq_some.mpr ⟨hc,fun hv => ?_⟩
  have hnodup := hl.nodup key hk
  rw [List.map_append, List.nodup_append] at hnodup
  have hm : key r ∈ w.chain.reverse.map key := by
    rw [List.map_reverse, List.mem_reverse]
    exact h.visited _ hc _ hv
  exact hnodup.2.2 (key r) (List.mem_map_of_mem (List.mem_of_getLast? hr)) (key r) hm rfl

theorem cur_of_done (hk : ∀ k r, look k = some r → key r = k) (h : Follows look parent key gone k w)
    (hdone : w.next? = none) : w.cur = none := by
  cases hc : w.cur with
  | none => rfl
  | some c => rw [h.next?_of_cur hk hc] at hdone; cases hdone

theorem step {seen : κ → Option ρ} (hk : ∀ k r, look k = some r → key r = k)
    (hseen : ∀ k r, seen k = some r → look k = some r) (hgone : ∀ k, seen k = none → gone k)
    (h : Follows look parent key gone k w) : Follows look parent key gone k (w.step seen parent) := by
  cases hn : w.next? with
  | none => rwa [step_of_done hn]
  | some c =>
    obtain ⟨hc,hv⟩ := next?_eq_some.mp hn
    obtain ⟨pre,hl,hcur⟩ := h.lineage
    simp only [hc] at hcur
    obtain ⟨r,hr,rfl⟩ := hcur
    cases hs : seen (key r) with
    | none =>
      rw [step_of_missing hn hs]
      exact ⟨by simp,pre,hl,.inr ⟨r,hr,hgone _ hs⟩⟩
    | some q =>
      rw [step_of_found hn hs]
      obtain ⟨pre',rfl⟩ := List.getLast?_eq_some_iff.mp hr
      have hq : q = r := by
        have hm : r ∈ pre' ++ [r] ++ w.chain.reverse := by simp
        exact Option.some.inj ((hseen _ _ hs).symm.trans (hl.look_of_mem key hk hm))
      subst hq
      have hl' : Lineage look parent k (pre' ++ q :: w.chain.reverse) := by simpa using hl
      refine ⟨?_,pre',by simpa using hl',?_⟩
      · intro p hp j hj
        rcases List.mem_cons.mp hj with rfl | hj
        · simp
        · have := h.visited _ hc j hj
          simp only [List.map_append, List.mem_append]
          exact .inl this
      · rcases hl'.above with ⟨rfl,hp⟩ | ⟨p,hp,habove⟩
        · rw [hp]
          exact .inl rfl
        · rw [hp]
          cases hlast : pre'.getLast? with
          | none => exact absurd (List.getLast?_eq_none_iff.mp hlast) habove.ne_nil
          | some q' => exact ⟨q',rfl,hk p q' (habove.getLast.trans hlast)⟩

end Follows

variable {look' : κ → Option ρ} {R : ρ → ρ → Prop}

structure Alike (R : ρ → ρ → Prop) (w w' : Walk κ ρ) : Prop where
  cur : w.cur = w'.cur
  visited : w.visited = w'.visited
  chain : List.Forall₂ R w.chain w'.chain

theorem Alike.step (hlook : ∀ k, Option.Rel R (look k) (look' k))
    (hparent : ∀ r r', R r r' → parent r = parent r') {w w' : Walk κ ρ} (h : Alike R w w') :
    Alike R (w.step look parent) (w'.step look' parent) := by
  have hnext : w.next? = w'.next? := by simp [next?, h.cur, h.visited]
  cases hw : w.next? with
  | none => rwa [step_of_done hw, step_of_done (hnext ▸ hw)]
  | some k =>
    have hw' := hnext ▸ hw
    generalize ha : look k = a
    generalize hb : look' k = b
    have hl : Option.Rel R a b := ha ▸ hb ▸ hlook k
    cases hl with
    | none =>
      rw [step_of_missing hw ha, step_of_missing hw' hb]
      exact ⟨rfl,by simp [h.visited],h.chain⟩
    | some hr =>
      rw [step_of_found hw ha, step_of_found hw' hb]
      exact ⟨hparent _ _ hr,by simp [h.visited],List.rel_append h.chain (.cons hr .nil)⟩

theorem Alike.iterate (hlook : ∀ k, Option.Rel R (look k) (look' k))
    (hparent : ∀ r r', R r r' → parent r = parent r') {w w' : Walk κ ρ} (h : Alike R w w') (n : ℕ) :
    Alike R ((Walk.step look parent)^[n] w) ((Walk.step look' parent)^[n] w') := by
  induction n generalizing w w' with
  | zero => exact h
  | succ n ih =>
    rw [Function.iterate_succ_apply, Function.iterate_succ_apply]
    exact ih (h.step hlook hparent)

end Walk
