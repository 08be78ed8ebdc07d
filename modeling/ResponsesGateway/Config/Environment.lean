import ResponsesGateway.Foundation.Nested
import ResponsesGateway.Python.Json

namespace ResponsesGateway

/-- A value of the configuration that is no dict; `other` is whatever else YAML has. -/
inductive Setting (α : Type) where
  | int (n : ℤ)
  | str (s : String)
  | other (a : α)

abbrev ConfigTree (α : Type) := Nested String (Setting α)

abbrev ConfigDict (α : Type) := Dict String (ConfigTree α)

abbrev Environ := Dict String String

namespace Environ

variable {α : Type}

def envPrefix : List Char := ['G', 'A', 'T', 'E', 'W', 'A', 'Y', '_']

/-- `"__" in remaining`. -/
def hasDelimiter : List Char → Bool
  | '_' :: '_' :: _ => true
  | _ :: cs => hasDelimiter cs
  | [] => false

/-- `remaining.split("__")`. -/
def splitDelimiter : List Char → List (List Char)
  | '_' :: '_' :: cs => [] :: splitDelimiter cs
  | c :: cs =>
      match splitDelimiter cs with
      | [] => [[c]]
      | part :: parts => (c :: part) :: parts
  | [] => [[]]

/-- Where the value of a variable goes, for the variables that are overrides. `lower` is `str.lower`. -/
def overridePath (lower : String → String) (key : String) : Option (List String) :=
  if envPrefix.isPrefixOf key.toList then
    let remaining := (lower (String.ofList (key.toList.drop envPrefix.length))).toList
    if hasDelimiter remaining then some ((splitDelimiter remaining).map String.ofList) else none
  else none

def coerce (value : String) : Setting α :=
  match PyInt.parse value with
  | some n => .int n
  | none => .str value

/-- One turn of the loop over `os.environ.items()`. Every way to descend into what is no dict ends in
a `TypeError`, which nothing catches. -/
def override (lower : String → String) (result : ConfigDict α) (item : String × String) :
    Except PyError (ConfigDict α) :=
  match overridePath lower item.1 with
  | none => .ok result
  | some parts =>
      match Nested.assign result (coerce item.2) parts with
      | some result => .ok result
      | none => .error .typeError

def parseEnvOverrides (lower : String → String) (items : List (String × String)) :
    Except PyError (ConfigDict α) :=
  items.foldlM (override lower) .empty

def Apart (α : Type) (lower : String → String) (env : Environ) : Prop :=
  ∀ x ∈ env.entries, ∀ y ∈ env.entries, ∀ p q, overridePath lower x.1 = some p →
    overridePath lower y.1 = some q → p <+: q → p = q ∧ (coerce x.2 : Setting α) = coerce y.2

structure OrderFree (α : Type) (lower : String → String) (env : Environ) : Prop where
  total : ∀ items : List (String × String), items.Perm env.entries →
    ∃ result : ConfigDict α, parseEnvOverrides lower items = .ok result
  same : ∀ items items' : List (String × String), items.Perm env.entries → items'.Perm env.entries →
    ∀ result result' : ConfigDict α, parseEnvOverrides lower items = .ok result →
      parseEnvOverrides lower items' = .ok result' → Nested.Same (.obj result) (.obj result')

section Parse

variable {lower : String → String} {item : String × String} {items items' : List (String × String)}

def writes (lower : String → String) (items : List (String × String)) : List (List String × Setting α) :=
  items.filterMap (fun item => (overridePath lower item.1).map (fun parts => (parts, coerce item.2)))

theorem mem_writes {path : List String} {a : Setting α} : (path, a) ∈ writes lower items ↔
    ∃ item ∈ items, overridePath lower item.1 = some path ∧ coerce item.2 = a := by
  simp [writes, List.mem_filterMap]

theorem foldlM_override (result : ConfigDict α) : items.foldlM (override lower) result =
    (Nested.assignAll result (writes lower items)).elim (.error .typeError) .ok := by
  induction items generalizing result with
  | nil => rfl
  | cons item items ih =>
    rw [List.foldlM_cons, writes, List.filterMap_cons]
    cases hpath : overridePath lower item.1 with
    | none =>
      have hskip : override lower result item = .ok result := by simp only [override, hpath]
      rw [hskip]
      exact ih result
    | some parts =>
      rw [Option.map_some, Nested.assignAll]
      cases hassign : Nested.assign result (coerce item.2) parts with
      | none =>
        have hraises : override lower result item = .error .typeError := by simp only [override, hpath, hassign]
        rw [hraises]
        rfl
      | some written =>
        have hwrites : override lower result item = .ok written := by simp only [override, hpath, hassign]
        rw [hwrites]
        exact ih written

theorem parseEnvOverrides_eq : (parseEnvOverrides lower items : Except PyError (ConfigDict α)) =
    (Nested.assignAll .empty (writes lower items)).elim (.error .typeError) .ok := foldlM_override .empty

theorem parse_ok_iff {result : ConfigDict α} : parseEnvOverrides lower items = .ok result ↔
    Nested.assignAll .empty (writes lower items) = some result := by
  rw [parseEnvOverrides_eq]
  cases Nested.assignAll (.empty : ConfigDict α) (writes lower items) <;> simp

theorem splitDelimiter_ne_nil (cs : List Char) : splitDelimiter cs ≠ [] := by
  fun_cases splitDelimiter cs <;> simp

theorem overridePath_ne_nil {key : String} {path : List String} (h : overridePath lower key = some path) :
    path ≠ [] := by
  unfold overridePath at h
  split at h
  · dsimp only at h
    split at h
    · cases h
      simpa using splitDelimiter_ne_nil _
    · cases h
  · cases h

theorem writes_ne_nil : ∀ path (a : Setting α), (path, a) ∈ writes lower items → path ≠ [] := by
  intro path a h
  obtain ⟨item,-,hpath,-⟩ := mem_writes.mp h
  exact overridePath_ne_nil hpath

theorem parse_holds (hc : Nested.Compatible (writes lower items : List (List String × Setting α))) :
    ∃ result : ConfigDict α, parseEnvOverrides lower items = .ok result ∧
      Nested.Holds (writes lower items) result ∧ Nested.Proper (.obj result) := by
  obtain ⟨result,hassign,hholds,hproper⟩ := Nested.assignAll_holds writes_ne_nil hc
  exact ⟨result,parse_ok_iff.mpr hassign,hholds,hproper⟩

theorem writes_perm (h : items.Perm items') :
    (writes lower items : List (List String × Setting α)).Perm (writes lower items') := h.filterMap _

end Parse

section OrderFree

variable {lower : String → String} {env : Environ} {items : List (String × String)}

theorem Apart.compatible (h : Apart α lower env) (hperm : items.Perm env.entries) :
    Nested.Compatible (writes lower items : List (List String × Setting α)) := by
  intro p a q b hp hq hbelow
  obtain ⟨x,hx,hxp,rfl⟩ := mem_writes.mp hp
  obtain ⟨y,hy,hyq,rfl⟩ := mem_writes.mp hq
  exact h x (hperm.mem_iff.mp hx) y (hperm.mem_iff.mp hy) p q hxp hyq hbelow

theorem Apart.orderFree (h : Apart α lower env) : OrderFree α lower env := by
  constructor
  · intro items hperm
    obtain ⟨result,hparse,-⟩ := parse_holds (h.compatible hperm)
    exact ⟨result,hparse⟩
  · intro items items' hperm hperm' result result' hparse hparse'
    obtain ⟨d,hd,hholds,-⟩ := parse_holds (h.compatible hperm)
    obtain ⟨d',hd',hholds',-⟩ := parse_holds (h.compatible hperm')
    obtain rfl := Except.ok.inj (hparse.symm.trans hd)
    obtain rfl := Except.ok.inj (hparse'.symm.trans hd')
    exact hholds.same (hholds'.perm (writes_perm (hperm'.trans hperm.symm)))

theorem perm_two {x y : String × String} (hx : x ∈ env.entries) (hy : y ∈ env.entries) (hne : x ≠ y) :
    ∃ rest, (x :: y :: rest).Perm env.entries := by
  have hy' : y ∈ env.entries.erase x := (List.mem_erase_of_ne (Ne.symm hne)).mpr hy
  refine ⟨(env.entries.erase x).erase y,?_⟩
  exact ((List.perm_cons_erase hy').symm.cons x).trans (List.perm_cons_erase hx).symm

theorem writes_cons {x : String × String} {path : List String} (h : overridePath lower x.1 = some path) :
    (writes lower (x :: items) : List (List String × Setting α)) = (path, coerce x.2) :: writes lower items := by
  simp [writes, h]

theorem kindAt_last {x : String × String} {path : List String} {result : ConfigDict α}
    (h : overridePath lower x.1 = some path) (hparse : parseEnvOverrides lower (items ++ [x]) = .ok result) :
    (Nested.obj result).kindAt path = some (some (coerce x.2)) := by
  have hwrites : (writes lower (items ++ [x]) : List (List String × Setting α)) =
      writes lower items ++ [(path, coerce x.2)] := by
    simp [writes, h]
  rw [parse_ok_iff, hwrites] at hparse
  exact Nested.assignAll_last (overridePath_ne_nil h) hparse

theorem orderFree_iff : OrderFree α lower env ↔ Apart α lower env := by
  refine ⟨fun h x hx y hy p q hxp hyq hbelow => ?_,Apart.orderFree⟩
  have hp := overridePath_ne_nil hxp
  by_cases hxy : x = y
  · subst hxy
    exact ⟨Option.some.inj (hxp.symm.trans hyq),rfl⟩
  · obtain ⟨rest,hperm⟩ := perm_two hx hy hxy
    by_cases hpq : p = q
    · subst hpq
      -- Of two values for one path the later one stays.
      have hlast : ((rest ++ [x]) ++ [y]).Perm env.entries := by
        refine List.Perm.trans ?_ hperm
        simpa using (List.perm_append_comm : (rest ++ [x, y]).Perm _)
      have hlast' : ((rest ++ [y]) ++ [x]).Perm env.entries := by
        refine List.Perm.trans ?_ ((List.Perm.swap y x rest).symm.trans hperm)
        simpa using (List.perm_append_comm : (rest ++ [y, x]).Perm _)
      obtain ⟨result,hparse⟩ := h.total _ hlast
      obtain ⟨result',hparse'⟩ := h.total _ hlast'
      have hsame := h.same _ _ hlast hlast' result result' hparse hparse' p
      rw [kindAt_last hyq hparse, kindAt_last hxp hparse', Option.some.injEq, Option.some.injEq] at hsame
      exact ⟨rfl,hsame.symm⟩
    · -- The scalar first: the longer path then leads through it.
      obtain ⟨result,hparse⟩ := h.total (x :: y :: rest) hperm
      rw [parse_ok_iff, writes_cons hxp, writes_cons hyq, Nested.assignAll_through hp hbelow hpq] at hparse
      cases hparse

end OrderFree

namespace Clash

def lower (s : String) : String := String.ofList (s.toList.map Char.toLower)

example : overridePath lower "GATEWAY_STORAGE__COLD__ENABLED" = some ["storage", "cold", "enabled"] := by decide

def cold : String × String := ("GATEWAY_STORAGE__COLD", "x")

def enabled : String × String := ("GATEWAY_STORAGE__COLD__ENABLED", "true")

def env : Environ := ⟨[cold, enabled], by decide⟩

theorem not_orderFree : (parseEnvOverrides lower [cold, enabled] : Except PyError (ConfigDict Unit)) =
      .error .typeError ∧
    (∃ result : ConfigDict Unit, parseEnvOverrides lower [enabled, cold] = .ok result) ∧
    ¬ OrderFree Unit lower env := by
  have hcold : overridePath lower cold.1 = some ["storage", "cold"] := by decide
  have henabled : overridePath lower enabled.1 = some ["storage", "cold", "enabled"] := by decide
  have hraises : (parseEnvOverrides lower [cold, enabled] : Except PyError (ConfigDict Unit)) =
      .error .typeError := by
    rw [parseEnvOverrides_eq, writes_cons hcold, writes_cons henabled,
      Nested.assignAll_through (by decide) (by decide) (by decide)]
    rfl
  refine ⟨hraises,?_,fun h => ?_⟩
  · simp only [parse_ok_iff]
    rw [writes_cons henabled, writes_cons hcold]
    exact ⟨_,rfl⟩
  · obtain ⟨result,hparse⟩ := h.total [cold, enabled] (List.Perm.refl _)
    rw [hraises] at hparse
    cases hparse

end Clash

end Environ

end ResponsesGateway
