import Mathlib.Data.List.Basic
import Mathlib.Data.List.Induction
import Mathlib.Data.List.Infix
import Mathlib.Order.Defs.PartialOrder

variable {α : Type}

theorem List.exists_mem_concat {P : α → Prop} {xs : List α} {a : α} :
    (∃ x ∈ xs ++ [a], P x) ↔ (∃ x ∈ xs, P x) ∨ P a := by
  simp only [List.mem_append, List.mem_singleton, or_and_right, exists_or, exists_eq_left]

theorem List.split_concat {xs pre post : List α} {a x : α} :
    xs ++ [a] = pre ++ x :: post ↔
      (∃ rest, post = rest ++ [a] ∧ xs = pre ++ x :: rest) ∨ post = [] ∧ xs = pre ∧ a = x := by
  constructor
  · intro h
    cases post using List.reverseRecOn with
    | nil =>
      obtain ⟨hxs,ha⟩ := List.append_inj' h rfl
      exact .inr ⟨rfl,hxs,by simpa using ha⟩
    | append_singleton rest y =>
      have h' : xs ++ [a] = (pre ++ x :: rest) ++ [y] := by simpa using h
      obtain ⟨hxs,ha⟩ := List.append_inj' h' rfl
      obtain rfl : a = y := by simpa using ha
      exact .inl ⟨rest,rfl,hxs⟩
  · rintro (⟨rest,rfl,rfl⟩ | ⟨rfl,rfl,rfl⟩)
    · simp
    · rfl

theorem List.exists_split_concat {P : List α → α → Prop} {xs : List α} {a : α} :
    (∃ pre x post, xs ++ [a] = pre ++ x :: post ∧ P pre x) ↔
      (∃ pre x post, xs = pre ++ x :: post ∧ P pre x) ∨ P xs a := by
  constructor
  · rintro ⟨pre,x,post,h,hP⟩
    rcases List.split_concat.mp h with ⟨rest,-,hxs⟩ | ⟨-,rfl,rfl⟩
    · exact .inl ⟨pre,x,rest,hxs,hP⟩
    · exact .inr hP
  · rintro (⟨pre,x,post,rfl,hP⟩ | hP)
    · exact ⟨pre,x,post ++ [a],by simp,hP⟩
    · exact ⟨xs,a,[],rfl,hP⟩

theorem List.forall_split_concat {P : List α → α → Prop} {xs : List α} {a : α} :
    (∀ pre x post, xs ++ [a] = pre ++ x :: post → P pre x) ↔
      (∀ pre x post, xs = pre ++ x :: post → P pre x) ∧ P xs a := by
  constructor
  · intro h
    exact ⟨fun pre x post hxs => h pre x (post ++ [a]) (by simp [hxs]),h xs a [] rfl⟩
  · rintro ⟨h,hP⟩ pre x post hxs
    rcases List.split_concat.mp hxs with ⟨rest,-,rfl⟩ | ⟨-,rfl,rfl⟩
    · exact h pre x rest rfl
    · exact hP

theorem List.exists_split_of_getElem? {α : Type} {xs : List α} {x : α} {i : ℕ} (h : xs[i]? = some x) :
    ∃ pre post, xs = pre ++ x :: post ∧ pre.length = i ∧ ∀ y, xs.set i y = pre ++ y :: post := by
  obtain ⟨hi,rfl⟩ := List.getElem?_eq_some_iff.mp h
  refine ⟨xs.take i,xs.drop (i + 1),?_,by simp; omega,fun y => ?_⟩
  · simp
  · rw [List.set_eq_take_append_cons_drop, if_pos hi]

theorem List.sublist_of_sorted {β : Type} [Preorder β] {f : α → β} {xs ys : List α}
    (hxs : xs.Pairwise (fun a b => f a < f b)) (hys : ys.Pairwise (fun a b => f a ≤ f b))
    (hsub : ∀ x ∈ xs, x ∈ ys) : xs.Sublist ys := by
  induction ys generalizing xs with
  | nil =>
    cases xs with
    | nil => exact .slnil
    | cons x xs => exact absurd (hsub x List.mem_cons_self) List.not_mem_nil
  | cons y ys ih =>
    cases xs with
    | nil => exact List.nil_sublist _
    | cons x xs =>
      obtain ⟨hx,hxs'⟩ := List.pairwise_cons.mp hxs
      obtain ⟨hy,hys'⟩ := List.pairwise_cons.mp hys
      have hlater : ∀ z ∈ xs, z ∈ ys := by
        intro z hz
        rcases List.mem_cons.mp (hsub z (List.mem_cons_of_mem _ hz)) with rfl | hm
        · rcases List.mem_cons.mp (hsub x List.mem_cons_self) with rfl | hm
          · exact absurd (hx _ hz) (lt_irrefl _)
          · exact absurd (hx _ hz) (not_lt_of_ge (hy x hm))
        · exact hm
      rcases List.mem_cons.mp (hsub x List.mem_cons_self) with rfl | hm
      · exact (ih hxs' hys' hlater).cons_cons _
      · exact (ih hxs hys' (List.forall_mem_cons.mpr ⟨hm,hlater⟩)).cons _

theorem List.suffix_of_append_eq {α : Type} {P : α → Prop} {as bs cs ds : List α} (h : as ++ bs = cs ++ ds)
    (has : ∀ a, as.getLast? = some a → ¬ P a) (hds : ∀ d ∈ ds, P d) : ds <:+ bs := by
  rcases List.append_eq_append_iff.mp h with ⟨mid,-,hbs⟩ | ⟨mid,rfl,rfl⟩
  · exact ⟨mid,hbs.symm⟩
  · rcases List.eq_nil_or_concat mid with rfl | ⟨mid',a,rfl⟩
    · exact List.suffix_refl _
    · exact absurd (hds a (by simp)) (has a (by simp))
