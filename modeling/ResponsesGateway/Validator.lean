import ResponsesGateway.Config
import ResponsesGateway.Errors

namespace ResponsesGateway

namespace RejectConfig

variable (cfg : RejectConfig)

def stripMode : Bool := cfg.mode == "strip"

def workaroundUrl (feature : String) : String :=
  cfg.workaroundUrlTemplate.replace "{feature}" feature

def notSupported (provider : String) (feature param : String) : Exn :=
  .gateway (.featureNotSupported feature param (some provider) (some (cfg.workaroundUrl feature)))

end RejectConfig

/-- `tool.get("type") if isinstance(tool, dict) else None`. -/
def toolType (tool : Json) : Json :=
  match tool.asDict with
  | some d => d.get "type"
  | none => .null

def toolParam (i : ℕ) : String := "tools[" ++ toString i ++ "].type"

namespace Validator

variable (cfg : RejectConfig) (provider : String)

def denied (ttype : Json) : Option String :=
  match ttype with
  | .str s => if s ∈ cfg.tools then some s else none
  | _ => none

def unlisted (ttype : Json) : Option String :=
  match ttype with
  | .str s =>
      if cfg.stripMode && !cfg.stripModeAllowedToolTypes.isEmpty &&
          !(cfg.stripModeAllowedToolTypes.contains s) then some s
      else none
  | _ => none

/-- The loop over `tools` from position `i` on: what is stripped and the indices to drop. -/
def scanTools : ℕ → List Json → Py (List (String × String) × List ℕ)
  | _, [] => .ok ([], [])
  | i, tool :: tools => do
      let _ ← liftPy (toolType tool).key
      match denied cfg (toolType tool) with
      | some s =>
          if cfg.stripMode then
            let (stripped, drop) ← scanTools (i + 1) tools
            return ((s, toolParam i) :: stripped, i :: drop)
          else throw (cfg.notSupported provider s (toolParam i))
      | none =>
          match unlisted cfg (toolType tool) with
          | some s =>
              let (stripped, drop) ← scanTools (i + 1) tools
              return ((s, toolParam i) :: stripped, i :: drop)
          | none => scanTools (i + 1) tools

def popAll (tools : List Json) (drop : List ℕ) : List Json :=
  drop.reverse.foldl (fun ts i => ts.eraseIdx i) tools

def validateTools (request : JsonDict) : Py (List (String × String) × JsonDict) :=
  let tools := if (request.get "tools").truthy then request.get "tools" else .list []
  match tools with
  | .list ts => do
      let (stripped, drop) ← scanTools cfg provider 0 ts
      match popAll ts drop with
      | [] => return (stripped, request.erase "tools")
      | rest => return (stripped, request.set "tools" (.list rest))
  | _ => .ok ([], request)

def fieldHit (actual rejectedValue : Json) : Bool :=
  match rejectedValue with
  | .bool b => actual == .bool b
  | v => actual.eq v

def presentHit (request : JsonDict) (field : String) : Bool :=
  match request.get? field with
  | some v => v != .null
  | none => false

def reject (field : String) (request : JsonDict) : Py (List (String × String) × JsonDict) :=
  if cfg.stripMode then .ok ([(field, field)], request.erase field)
  else throw (cfg.notSupported provider field field)

def pass (hit : JsonDict → String → Bool) :
    List String → JsonDict → Py (List (String × String) × JsonDict)
  | [], request => .ok ([], request)
  | field :: fields, request => do
      let (stripped, request) ←
        if hit request field then reject cfg provider field request else .ok ([], request)
      let (more, request) ← pass hit fields request
      return (stripped ++ more, request)

def valueHit (request : JsonDict) (field : String) : Bool :=
  match cfg.fields.get? field with
  | some v => fieldHit (request.get field) v
  | none => false

def validate (request : JsonDict) : Py (List (String × String) × JsonDict) := do
  let (tools, request) ← validateTools cfg provider request
  let (values, request) ← pass cfg provider (valueHit cfg) cfg.fields.keys request
  let (present, request) ← pass cfg provider presentHit cfg.presentFields request
  return (tools ++ values ++ present, request)

variable {cfg provider} {request request' : JsonDict} {stripped : List (String × String)} {key : String}

theorem reject_get? {field : String} (h : reject cfg provider field request = .ok (stripped, request')) :
    request'.get? key = request.get? key ∨ key = field ∧ request'.get? key = none := by
  unfold reject at h
  split at h
  · cases h
    by_cases hk : key = field
    · exact .inr ⟨hk,by simp [hk]⟩
    · exact .inl (by simp [hk])
  · cases h

theorem pass_get? {hit : JsonDict → String → Bool} {fields : List String}
    (h : pass cfg provider hit fields request = .ok (stripped, request')) :
    request'.get? key = request.get? key ∨ key ∈ fields ∧ request'.get? key = none := by
  induction fields generalizing request stripped with
  | nil => cases h; exact .inl rfl
  | cons field fields ih =>
    simp only [pass] at h
    by_cases hhit : hit request field = true
    · rw [if_pos hhit] at h
      simp only [Except.bind_eq_ok_iff] at h
      obtain ⟨⟨first,request₁⟩,hfirst,⟨more,request₂⟩,hrest,he⟩ := h
      cases he
      rcases ih hrest with hsame | ⟨hk,hnone⟩
      · rw [hsame, List.mem_cons]
        exact (reject_get? hfirst).imp_right fun hk => ⟨.inl hk.1,hk.2⟩
      · exact .inr ⟨List.mem_cons_of_mem _ hk,hnone⟩
    · rw [if_neg hhit] at h
      simp only [Except.bind_eq_ok_iff] at h
      obtain ⟨⟨first,request₁⟩,hfirst,⟨more,request₂⟩,hrest,he⟩ := h
      cases hfirst
      cases he
      exact (ih hrest).imp_right fun hk => ⟨List.mem_cons_of_mem _ hk.1,hk.2⟩

theorem validateTools_get? (hk : key ≠ "tools")
    (h : validateTools cfg provider request = .ok (stripped, request')) :
    request'.get? key = request.get? key := by
  unfold validateTools at h
  dsimp only at h
  split at h
  · simp only [Except.bind_eq_ok_iff] at h
    obtain ⟨⟨found,drop⟩,-,h⟩ := h
    split at h
    · cases h; simp [hk]
    · cases h; simp [hk]
  · cases h; rfl

theorem validate_get? (hk : key ≠ "tools")
    (h : validate cfg provider request = .ok (stripped, request')) :
    request'.get? key = request.get? key ∨
      (key ∈ cfg.fields.keys ∨ key ∈ cfg.presentFields) ∧ request'.get? key = none := by
  simp only [validate, Except.bind_eq_ok_iff] at h
  obtain ⟨⟨tools,request₁⟩,h₁,⟨values,request₂⟩,h₂,⟨present,request₃⟩,h₃,he⟩ := h
  have hpresent : request₃.get? key = request₂.get? key ∨ _ := pass_get? h₃
  cases he
  rcases hpresent with hsame | ⟨hm,hnone⟩
  · rw [hsame, ← validateTools_get? hk h₁]
    exact (pass_get? h₂).imp_right fun hk => ⟨.inl hk.1,hk.2⟩
  · exact .inr ⟨.inr hm,hnone⟩

end Validator

end ResponsesGateway
