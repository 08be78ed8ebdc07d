import ResponsesGateway.Api.CreateResponse

namespace ResponsesGateway

/-- An exception that is no `GatewayError`, so that the client gets a bare 500. -/
def Raises {α : Type} (r : Py α) : Prop := ∃ x, r = .error (.python x)

def Iterable (j : Json) : Prop := (∃ xs, j = .list xs) ∨ (∃ fs, j = .dict fs) ∨ ∃ s, j = .str s

def Unhashable (j : Json) : Prop := (∃ xs, j = .list xs) ∨ ∃ fs, j = .dict fs

def ModelSplits : Json → Prop
  | .str _ => True
  | .list xs => Json.str "/" ∉ xs
  | .dict fs => "/" ∉ fs.map Prod.fst
  | _ => False

def TypesHash (cfg : RejectConfig) (tools : List Json) : Prop :=
  ∀ pre tool post, tools = pre ++ tool :: post → Unhashable (toolType tool) →
    cfg.mode ≠ "strip" ∧ ∃ t ∈ pre, ∃ s ∈ cfg.tools, toolType t = .str s

structure Handled (cfg : RejectConfig) (payload : JsonDict) : Prop where
  tools : (payload.get "tools").truthy = true → Iterable (payload.get "tools")
  model : ModelSplits (payload.getD "model" (.str ""))
  types : ∀ ts, payload.get "tools" = .list ts → TypesHash cfg ts

section Raises

variable {α β : Type} {r : Py α} {f : α → Py β} {a : α}

theorem not_raises_ok : ¬ Raises (Except.ok a : Py α) := by
  rintro ⟨x,h⟩
  cases h

theorem not_raises_gateway {e : GatewayError} : ¬ Raises (.error (.gateway e) : Py α) := by
  rintro ⟨x,h⟩
  cases h

theorem raises_bind_iff : Raises (r >>= f) ↔ Raises r ∨ ∃ a, r = .ok a ∧ Raises (f a) := by
  cases r with
  | error x =>
    have hsame : (Except.error x >>= f : Py β) = .error x := rfl
    simp [Raises, hsame]
  | ok a =>
    have hsame : (Except.ok a >>= f : Py β) = f a := rfl
    simp [Raises, hsame]

theorem raises_bind_of_quiet (h : ∀ a, ¬ Raises (f a)) : Raises (r >>= f) ↔ Raises r := by
  rw [raises_bind_iff]
  refine or_iff_left ?_
  rintro ⟨a,-,ha⟩
  exact h a ha

theorem raises_liftPy_iff {r : Except PyError α} : Raises (liftPy r) ↔ ∃ x, r = .error x := by
  cases r <;> simp [Raises]

theorem raises_liftPy_bind_iff {r : Except PyError α} {P : Prop} (h : ∀ a, Raises (f a) ↔ P) :
    Raises (liftPy r >>= f) ↔ (∃ x, r = .error x) ∨ P := by
  cases r with
  | error x => exact iff_of_true (raises_bind_iff.mpr (.inl ⟨x,rfl⟩)) (.inl ⟨x,rfl⟩)
  | ok a =>
    have hsame : (liftPy (.ok a) >>= f) = f a := rfl
    rw [hsame, h a]
    simp

theorem iter_error_iff {j : Json} : (∃ x, j.iter = .error x) ↔ ¬ Iterable j := by
  cases j <;> simp [Json.iter, Iterable]

theorem key_error_iff {j : Json} : (∃ x, j.key = .error x) ↔ Unhashable j := by
  cases j with
  | float x => cases x <;> simp [Json.key, Unhashable]
  | _ => simp [Json.key, Unhashable]

theorem providerFromModel_error_iff {j : Json} :
    (∃ x, providerFromModel j = .error x) ↔ ¬ ModelSplits j := by
  cases j with
  | list xs => by_cases h : Json.str "/" ∈ xs <;> simp [providerFromModel, ModelSplits, h]
  | dict fs =>
    simp only [providerFromModel, ModelSplits]
    split <;> simp_all
  | _ => simp [providerFromModel, ModelSplits]

end Raises

namespace Validator

variable {cfg : RejectConfig} {provider : String} {tool : Json} {tools : List Json} {i : ℕ}
  {request : JsonDict}

theorem denied_eq_some_iff {j : Json} {s : String} : denied cfg j = some s ↔ j = .str s ∧ s ∈ cfg.tools := by
  unfold denied
  split
  · rename_i t
    by_cases h : t ∈ cfg.tools
    · simp only [if_pos h, Option.some.injEq, Json.str.injEq]
      exact ⟨fun heq => ⟨heq,heq ▸ h⟩,And.left⟩
    · simp only [if_neg h, Json.str.injEq]
      constructor
      · intro heq; cases heq
      · rintro ⟨rfl,hs⟩
        exact absurd hs h
  · rename_i hno
    constructor
    · intro heq; cases heq
    · rintro ⟨rfl,-⟩
      exact absurd rfl (hno s)

theorem typesHash_cons : TypesHash cfg (tool :: tools) ↔ ¬ Unhashable (toolType tool) ∧
    ((cfg.mode ≠ "strip" ∧ ∃ s ∈ cfg.tools, toolType tool = .str s) ∨ TypesHash cfg tools) := by
  constructor
  · intro h
    have htool : ¬ Unhashable (toolType tool) := by
      intro hu
      obtain ⟨-,t,ht,-⟩ := h [] tool tools rfl hu
      cases ht
    refine ⟨htool,or_iff_not_imp_left.mpr fun hfirst => ?_⟩
    rintro pre x post rfl hu
    obtain ⟨hmode,t,ht,s,hs,hts⟩ := h (tool :: pre) x post rfl hu
    rcases List.mem_cons.mp ht with rfl | ht
    · exact absurd ⟨hmode,s,hs,hts⟩ hfirst
    · exact ⟨hmode,t,ht,s,hs,hts⟩
  · rintro ⟨htool,hrest⟩ pre x post hsplit hu
    cases pre with
    | nil =>
      obtain ⟨rfl,-⟩ := List.cons.inj hsplit
      exact absurd hu htool
    | cons t pre =>
      obtain ⟨rfl,hsplit'⟩ := List.cons.inj hsplit
      rcases hrest with ⟨hmode,s,hs,hts⟩ | hrest
      · exact ⟨hmode,tool,List.mem_cons_self,s,hs,hts⟩
      · obtain ⟨hmode,t,ht,hdenied⟩ := hrest pre x post hsplit' hu
        exact ⟨hmode,t,List.mem_cons_of_mem _ ht,hdenied⟩

theorem raises_scanTools_iff : Raises (scanTools cfg provider i tools) ↔ ¬ TypesHash cfg tools := by
  induction tools generalizing i with
  | nil =>
    have hnone : TypesHash cfg [] := fun pre tool post h => by simp at h
    exact iff_of_false not_raises_ok (not_not_intro hnone)
  | cons tool tools ih =>
    have hmore (f : List (String × String) × List ℕ → List (String × String) × List ℕ) :
        Raises (scanTools cfg provider (i + 1) tools >>= fun p => .ok (f p)) ↔ ¬ TypesHash cfg tools := by
      rw [raises_bind_of_quiet fun _ => not_raises_ok, ih]
    rw [typesHash_cons, scanTools, raises_bind_iff, raises_liftPy_iff, key_error_iff]
    by_cases hu : Unhashable (toolType tool)
    · exact iff_of_true (.inl hu) fun h => h.1 hu
    · have hkey : ∃ k, (toolType tool).key = .ok k := by
        cases hk : (toolType tool).key with
        | error x => exact absurd (key_error_iff.mp ⟨x,hk⟩) hu
        | ok k => exact ⟨k,rfl⟩
      obtain ⟨k,hk⟩ := hkey
      simp only [hu, false_or, hk, liftPy_ok, Except.ok.injEq, exists_eq_left', not_false_eq_true, true_and]
      cases hd : denied cfg (toolType tool) with
      | some s =>
        obtain ⟨hts,hs⟩ := denied_eq_some_iff.mp hd
        by_cases hmode : cfg.mode = "strip"
        · have hstrip : cfg.stripMode = true := by simp [RejectConfig.stripMode, hmode]
          simp only [hstrip, if_true, hmode, ne_eq, not_true_eq_false, false_and, false_or]
          exact hmore fun p => ((s, toolParam i) :: p.1, i :: p.2)
        · have hstrip : cfg.stripMode = false := by simp [RejectConfig.stripMode, hmode]
          simp only [hstrip]
          exact iff_of_false not_raises_gateway (not_not_intro (.inl ⟨hmode,s,hs,hts⟩))
      | none =>
        have hnot : ¬ ∃ s ∈ cfg.tools, toolType tool = .str s := by
          rintro ⟨s,hs,hts⟩
          rw [denied_eq_some_iff.mpr ⟨hts,hs⟩] at hd
          cases hd
        simp only [hnot, and_false, false_or]
        cases unlisted cfg (toolType tool) with
        | some s => exact hmore fun p => ((s, toolParam i) :: p.1, i :: p.2)
        | none => exact ih

theorem not_raises_reject {field : String} : ¬ Raises (reject cfg provider field request) := by
  unfold reject
  split
  · exact not_raises_ok
  · exact not_raises_gateway

theorem not_raises_pass {hit : JsonDict → String → Bool} {fields : List String} :
    ¬ Raises (pass cfg provider hit fields request) := by
  induction fields generalizing request with
  | nil => exact not_raises_ok
  | cons field fields ih =>
    have hmore (first : List (String × String)) (request : JsonDict) :
        ¬ Raises (pass cfg provider hit fields request >>= fun p => .ok (first ++ p.1, p.2)) := by
      rw [raises_bind_of_quiet fun _ => not_raises_ok]
      exact ih
    rw [pass]
    split
    · intro h
      rcases raises_bind_iff.mp h with h | ⟨p,-,hp⟩
      · exact not_raises_reject h
      · exact hmore p.1 p.2 hp
    · exact hmore [] request

theorem typesHash_nil : TypesHash cfg [] := fun pre tool post h => by simp at h

theorem raises_validateTools_iff : Raises (validateTools cfg provider request) ↔
    ∃ ts, request.get "tools" = .list ts ∧ ¬ TypesHash cfg ts := by
  have hlist (ts : List Json) : (if (Json.list ts).truthy then Json.list ts else .list []) = .list ts := by
    cases ts <;> rfl
  have hscan {f : List (String × String) × List ℕ → Py (List (String × String) × JsonDict)}
      (ts : List Json) (hf : ∀ p, ¬ Raises (f p)) :
      Raises (scanTools cfg provider 0 ts >>= f) ↔ ¬ TypesHash cfg ts := by
    rw [raises_bind_of_quiet hf, raises_scanTools_iff]
  unfold validateTools
  cases hget : request.get "tools" with
  | list ts =>
    simp only [hlist, Json.list.injEq, exists_eq_left']
    refine hscan ts ?_
    rintro ⟨stripped,drop⟩
    dsimp only
    split <;> exact not_raises_ok
  | _ =>
    refine iff_of_false ?_ (by simp)
    dsimp only
    split
    · rename_i ts hts
      have hempty : ts = [] := by
        split at hts <;> cases hts
        rfl
      rw [hempty, hscan []]
      · exact not_not_intro typesHash_nil
      · rintro ⟨stripped,drop⟩
        dsimp only
        split <;> exact not_raises_ok
    · exact not_raises_ok

theorem raises_validate_iff :
    Raises (validate cfg provider request) ↔ ∃ ts, request.get "tools" = .list ts ∧ ¬ TypesHash cfg ts := by
  rw [← raises_validateTools_iff, validate]
  apply raises_bind_of_quiet
  intro p h
  rcases raises_bind_iff.mp h with h | ⟨q,-,h⟩
  · exact not_raises_pass h
  · rcases raises_bind_iff.mp h with h | ⟨r,-,h⟩
    · exact not_raises_pass h
    · exact not_raises_ok h

end Validator

theorem raises_receive_iff {gw : Gateway} {payload : JsonDict} :
    Raises (receive gw payload) ↔ ¬ Handled gw.config.reject payload := by
  have hiter : (∃ x, (if (payload.get "tools").truthy then payload.get "tools" else .list []).iter = .error x) ↔
      ¬ ((payload.get "tools").truthy = true → Iterable (payload.get "tools")) := by
    rw [iter_error_iff]
    split
    · rename_i h
      simp [h]
    · rename_i h
      simp only [h]
      exact iff_of_false (fun hno => hno (.inl ⟨[],rfl⟩)) (by simp)
  have hvalid {f : List (String × String) × JsonDict → Py Turn} (provider : String)
      (hf : ∀ p, ¬ Raises (f p)) :
      Raises (Validator.validate gw.config.reject provider payload >>= f) ↔
        ∃ ts, payload.get "tools" = .list ts ∧ ¬ TypesHash gw.config.reject ts := by
    rw [raises_bind_of_quiet hf, Validator.raises_validate_iff]
  unfold receive
  refine (raises_liftPy_bind_iff fun _ => raises_liftPy_bind_iff fun provider =>
    hvalid provider fun _ => not_raises_ok).trans ?_
  rw [hiter, providerFromModel_error_iff]
  constructor
  · rintro (h | h | ⟨ts,hts,h⟩) hhandled
    · exact h hhandled.tools
    · exact h hhandled.model
    · exact h (hhandled.types ts hts)
  · intro h
    by_contra hno
    simp only [not_or, not_not, not_exists, not_and] at hno
    obtain ⟨htools,hmodel,htypes⟩ := hno
    exact h ⟨htools,hmodel,htypes⟩

theorem malformed_handled_iff (gw : Gateway) (payload : JsonDict) :
    (∃ turn, receive gw payload = .ok turn) ∨ (∃ e, receive gw payload = .error (.gateway e)) ↔
      Handled gw.config.reject payload := by
  rw [← not_iff_not, ← raises_receive_iff]
  cases receive gw payload with
  | ok turn => simp [Raises]
  | error x => cases x <;> simp [Raises]

theorem numeric_model_unhandled : ¬ ((∃ turn, receive {} (.ofEntries [("model", .int 5)]) = .ok turn) ∨
    ∃ e, receive {} (.ofEntries [("model", .int 5)]) = .error (.gateway e)) := by
  -- `"/" not in 5` is a `TypeError`.
  have hreceive : receive {} (.ofEntries [("model", .int 5)]) = .error (.python .typeError) := rfl
  rintro (⟨turn,h⟩ | ⟨e,h⟩)
  · rw [hreceive] at h
    cases h
  · rw [hreceive] at h
    cases h

end ResponsesGateway
