import ResponsesGateway.Config.Environment

namespace ResponsesGateway

open Environ

variable {α : Type}

def deepMerge (base override : ConfigDict α) : ConfigDict α := Nested.merge base override.entries

/-- What `load_config` builds the settings from. -/
def mergedData (lower : String → String) (yaml : ConfigDict α) (items : List (String × String)) :
    Except PyError (ConfigDict α) := do
  let overrides ← parseEnvOverrides lower items
  return deepMerge yaml overrides

def Separate (lower : String → String) (env : Environ) : Prop :=
  ∀ x ∈ env.entries, ∀ y ∈ env.entries, ∀ p q, overridePath lower x.1 = some p →
    overridePath lower y.1 = some q → p <+: q → x = y

def OffPaths (lower : String → String) (env : Environ) (q : List String) : Prop :=
  ∀ x ∈ env.entries, ∀ p, overridePath lower x.1 = some p → ¬ q <+: p ∧ ¬ p <+: q

section Layers

variable {lower : String → String} {env : Environ} {items : List (String × String)}
  {yaml overrides : ConfigDict α}

theorem Separate.apart (h : Separate lower env) : Apart α lower env := by
  intro x hx y hy p q hp hq hbelow
  obtain rfl := h x hx y hy p q hp hq hbelow
  exact ⟨Option.some.inj (hp.symm.trans hq),rfl⟩

theorem obj_deepMerge (base override : ConfigDict α) :
    Nested.obj (deepMerge base override) = Nested.overlay (some (.obj base)) (.obj override) :=
  (Nested.overlay_obj base override).symm

theorem deepMerge_twice (h : Nested.Proper (.obj overrides)) :
    deepMerge (deepMerge yaml overrides) overrides = deepMerge yaml overrides := by
  have hagain := Nested.overlay_overlay h (some (.obj yaml))
  rw [Nested.overlay_obj, Nested.overlay_obj] at hagain
  exact Dict.ext (Nested.node.inj hagain)

theorem lookup_override (hholds : Nested.Holds (writes lower items) overrides)
    (hproper : Nested.Proper (.obj overrides)) {x : String × String} (hx : x ∈ items) {p : List String}
    (hp : overridePath lower x.1 = some p) :
    (Nested.obj (deepMerge yaml overrides)).lookup p = some (.leaf (coerce x.2)) := by
  have hleaf := hholds.leaf p (coerce x.2) (mem_writes.mpr ⟨x,hx,hp,rfl⟩)
  rw [obj_deepMerge]
  exact Nested.lookup_overlay_leaf hproper (Nested.lookup_eq_leaf_iff.mpr hleaf) _

theorem lookup_off_paths (hparse : parseEnvOverrides lower env.entries = .ok overrides)
    (hholds : Nested.Holds (writes lower env.entries) overrides) (hproper : Nested.Proper (.obj overrides))
    {q : List String} (hq : OffPaths lower env q) :
    (Nested.obj (deepMerge yaml overrides)).lookup q = (Nested.obj yaml).lookup q := by
  have hoff : ∀ p (a : Setting α), (p, a) ∈ writes lower env.entries → ¬ q <+: p ∧ ¬ p <+: q := by
    intro p a hm
    obtain ⟨x,hx,hp,-⟩ := mem_writes.mp hm
    exact hq x hx p hp
  by_cases hnil : q = []
  · -- The root leads to every override, so there is none.
    subst hnil
    have hnone : (writes lower env.entries : List (List String × Setting α)) = [] :=
      List.eq_nil_iff_forall_not_mem.mpr fun write hm => (hoff write.1 write.2 hm).1 List.nil_prefix
    rw [parse_ok_iff, hnone] at hparse
    cases hparse
    rfl
  · rw [obj_deepMerge, Nested.lookup_overlay_absent hproper]
    · rfl
    · exact hholds.absent q hnil fun p a hm => (hoff p a hm).1
    · intro front a hfront hleaf
      obtain ⟨b,hm⟩ := hholds.exists_leaf hleaf
      exact (hoff front b hm).2 hfront

end Layers

namespace Deployment

def port : String × String := ("GATEWAY_SERVER__PORT", "8080")

def enabled : String × String := ("GATEWAY_STORAGE__COLD__ENABLED", "true")

def unrelated : String × String := ("GATEWAY_TEST_STORAGE", "x")

def env : Environ := ⟨[port, enabled, unrelated], by decide⟩

/-- `storage: {cold: null, url: sqlite}`. -/
def yaml : ConfigDict Unit :=
  ⟨[("storage", .node [("cold", .leaf (.other ())), ("url", .leaf (.str "sqlite"))])], by decide⟩

theorem separate : Separate Clash.lower env := by
  have hport : overridePath Clash.lower port.1 = some ["server", "port"] := by decide
  have henabled : overridePath Clash.lower enabled.1 = some ["storage", "cold", "enabled"] := by decide
  have hunrelated : overridePath Clash.lower unrelated.1 = none := by decide
  intro x hx y hy p q hp hq hbelow
  simp only [env, List.mem_cons, List.not_mem_nil, or_false] at hx hy
  rcases hx with rfl | rfl | rfl
  · rcases hy with rfl | rfl | rfl
    · rfl
    · rw [hport, Option.some.injEq] at hp
      rw [henabled, Option.some.injEq] at hq
      subst hp hq
      exact absurd hbelow (by decide)
    · rw [hunrelated] at hq; cases hq
  · rcases hy with rfl | rfl | rfl
    · rw [henabled, Option.some.injEq] at hp
      rw [hport, Option.some.injEq] at hq
      subst hp hq
      exact absurd hbelow (by decide)
    · rfl
    · rw [hunrelated] at hq; cases hq
  · rw [hunrelated] at hp; cases hp

end Deployment

end ResponsesGateway
