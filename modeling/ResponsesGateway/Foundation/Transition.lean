import Mathlib.Data.List.Induction
import Mathlib.Logic.Basic

inductive Reach {σ α : Type} (step : σ → α → Option σ) (ok : σ → α → Prop) (s₀ : σ) : σ → Prop
  | refl : Reach step ok s₀ s₀
  | tail {s a s'} : Reach step ok s₀ s → ok s a → step s a = some s' → Reach step ok s₀ s'

namespace Reach

variable {σ α : Type} {step : σ → α → Option σ} {ok : σ → α → Prop} {s₀ s s' : σ}

theorem invariant {I : σ → Prop} (h₀ : I s₀)
    (hstep : ∀ s a s', I s → ok s a → step s a = some s' → I s')
    (h : Reach step ok s₀ s) : I s := by
  induction h with
  | refl => exact h₀
  | tail _ hok hs ih => exact hstep _ _ _ ih hok hs

theorem mono {ok' : σ → α → Prop} (himp : ∀ s a, ok s a → ok' s a) (h : Reach step ok s₀ s) :
    Reach step ok' s₀ s := by
  induction h with
  | refl => exact .refl
  | tail _ hok hs ih => exact ih.tail (himp _ _ hok) hs

theorem trans (h : Reach step ok s₀ s) (h' : Reach step ok s s') : Reach step ok s₀ s' := by
  induction h' with
  | refl => exact h
  | tail _ hok hs ih => exact ih.tail hok hs

theorem simulate {τ β : Type} {step' : τ → β → Option τ} {ok' : τ → β → Prop} {t₀ : τ} {R : σ → τ → Prop}
    (h₀ : R s₀ t₀)
    (hstep : ∀ s a s' t, Reach step ok s₀ s → Reach step' ok' t₀ t → R s t → ok s a → step s a = some s' →
      ∃ t', Reach step' ok' t t' ∧ R s' t')
    (h : Reach step ok s₀ s) : ∃ t, Reach step' ok' t₀ t ∧ R s t := by
  induction h with
  | refl => exact ⟨t₀,.refl,h₀⟩
  | tail hreach hok hs ih =>
    obtain ⟨t,ht,hR⟩ := ih
    obtain ⟨t',ht',hR'⟩ := hstep _ _ _ t hreach ht hR hok hs
    exact ⟨t',ht.trans ht',hR'⟩

theorem foretell {τ β φ : Type} {step' : τ → β → Option τ} {ok' : τ → β → Prop} {t₀ : τ} {R : φ → σ → τ → Prop}
    (h₀ : ∀ f, R f s₀ t₀)
    (hstep : ∀ s a s' f', ok s a → step s a = some s' →
      ∃ f, ∀ t, Reach step' ok' t₀ t → R f s t → ∃ t', Reach step' ok' t t' ∧ R f' s' t')
    (h : Reach step ok s₀ s) (f : φ) : ∃ t, Reach step' ok' t₀ t ∧ R f s t := by
  induction h generalizing f with
  | refl => exact ⟨t₀,.refl,h₀ f⟩
  | tail _ hok hs ih =>
    obtain ⟨g,hg⟩ := hstep _ _ _ f hok hs
    obtain ⟨t,ht,hR⟩ := ih g
    obtain ⟨t',ht',hR'⟩ := hg t ht hR
    exact ⟨t',ht.trans ht',hR'⟩

end Reach

def runSteps {σ α : Type} (step : σ → α → Option σ) : σ → List α → Option σ
  | s, [] => some s
  | s, a :: as => (step s a).bind (fun s' => runSteps step s' as)

theorem reach_of_runSteps {σ α : Type} {step : σ → α → Option σ} {ok : σ → α → Prop} {s s' : σ}
    (as : List α) (hok : ∀ s, ∀ a ∈ as, ok s a) (h : runSteps step s as = some s') :
    Reach step ok s s' := by
  induction as generalizing s with
  | nil => cases h; exact .refl
  | cons a as ih =>
    simp only [runSteps, Option.bind_eq_some_iff] at h
    obtain ⟨t,ht,hs⟩ := h
    have hfirst : Reach step ok s t := Reach.refl.tail (hok s a (by simp)) ht
    exact hfirst.trans (ih (fun s b hb => hok s b (by simp [hb])) hs)

theorem runSteps_concat {σ α : Type} {step : σ → α → Option σ} (s : σ) (as : List α) (a : α) :
    runSteps step s (as ++ [a]) = (runSteps step s as).bind (fun s' => step s' a) := by
  induction as generalizing s with
  | nil => simp [runSteps]
  | cons b as ih =>
    simp only [List.cons_append, runSteps, Option.bind_assoc]
    congr 1
    funext s'
    exact ih s'

theorem runSteps_invariant {σ α : Type} {step : σ → α → Option σ} {I : List α → σ → Prop} {s s' : σ}
    {as : List α} (h₀ : I [] s)
    (hstep : ∀ as t a t', runSteps step s as = some t → I as t → step t a = some t' → I (as ++ [a]) t')
    (h : runSteps step s as = some s') : I as s' := by
  induction as using List.reverseRecOn generalizing s' with
  | nil => cases h; exact h₀
  | append_singleton as a ih =>
    rw [runSteps_concat, Option.bind_eq_some_iff] at h
    obtain ⟨t,ht,ha⟩ := h
    exact hstep as t a s' ht (ih ht) ha
