import ResponsesGateway.Modes

namespace ResponsesGateway

namespace Validator

section Quiet

variable {cfg : RejectConfig} {provider : String} {request request' : JsonDict}
  {stripped : List (String × String)} {hit : JsonDict → String → Bool} {fields : List String}

structure Passes (cfg : RejectConfig) (tool : Json) : Prop where
  hashed : ∃ key, (toolType tool).key = .ok key
  allowed : denied cfg (toolType tool) = none
  listed : unlisted cfg (toolType tool) = none

structure ToolsQuiet (cfg : RejectConfig) (request : JsonDict) : Prop where
  truthy : ∀ v, request.get? "tools" = some v → v.truthy = true
  tools : ∀ tools, request.get? "tools" = some (.list tools) → ∀ tool ∈ tools, Passes cfg tool

structure Quiet (cfg : RejectConfig) (request : JsonDict) : Prop extends ToolsQuiet cfg request where
  values : ∀ field ∈ cfg.fields.keys, valueHit cfg request field = false
  present : ∀ field ∈ cfg.presentFields, presentHit request field = false

def Local (hit : JsonDict → String → Bool) : Prop :=
  ∀ (d e : JsonDict) (field : String), d.get? field = e.get? field → hit d field = hit e field

theorem valueHit_local : Local (valueHit cfg) := by
  intro d e field h
  simp only [valueHit, Dict.get, Dict.getD, h]

theorem presentHit_local : Local presentHit := by
  intro d e field h
  simp only [presentHit, h]

theorem scanTools_quiet {tools : List Json} {i : ℕ} (h : ∀ tool ∈ tools, Passes cfg tool) :
    scanTools cfg provider i tools = .ok ([], []) := by
  induction tools generalizing i with
  | nil => rfl
  | cons tool tools ih =>
    obtain ⟨⟨key,hkey⟩,hd,hu⟩ := h tool List.mem_cons_self
    simp only [scanTools, hkey, liftPy_ok, hd, hu, bind, Except.bind]
    exact ih fun t hm => h t (List.mem_cons_of_mem _ hm)

theorem pass_quiet (h : ∀ field ∈ fields, hit request field = false) :
    pass cfg provider hit fields request = .ok ([], request) := by
  induction fields with
  | nil => rfl
  | cons field fields ih =>
    rw [pass_cons, if_neg (by simp [h field])]
    simp only [andThen, bind, Except.bind, ih fun f hm => h f (List.mem_cons_of_mem _ hm)]
    rfl

theorem pass_cons_inv {field : String}
    (h : pass cfg provider hit (field :: fields) request = .ok (stripped, request')) :
    (hit request field = false ∧ pass cfg provider hit fields request = .ok (stripped, request')) ∨
    (hit request field = true ∧ cfg.stripMode = true ∧ ∃ more, stripped = (field, field) :: more ∧
      pass cfg provider hit fields (request.erase field) = .ok (more, request')) := by
  rw [pass_cons] at h
  simp only [andThen, Except.bind_eq_ok_iff] at h
  obtain ⟨⟨first,request₁⟩,hfirst,⟨more,request₂⟩,hrest,he⟩ := h
  cases he
  by_cases hhit : hit request field = true
  · right
    rw [if_pos hhit] at hfirst
    unfold reject at hfirst
    split at hfirst
    · next hstrip =>
      cases hfirst
      exact ⟨hhit,hstrip,more,rfl,hrest⟩
    · cases hfirst
  · left
    rw [if_neg hhit] at hfirst
    cases hfirst
    exact ⟨by simpa using hhit,hrest⟩

theorem pass_get?_eq (hlocal : Local hit) (h : pass cfg provider hit fields request = .ok (stripped, request'))
    (key : String) : request'.get? key =
      if key ∈ fields ∧ hit request key = true then none else request.get? key := by
  induction fields generalizing request stripped with
  | nil => cases h; simp
  | cons field fields ih =>
    rcases pass_cons_inv h with ⟨hhit,hrest⟩ | ⟨hhit,-,more,-,hrest⟩
    · rw [ih hrest]
      by_cases hk : key = field
      · subst hk
        simp [hhit]
      · simp [hk]
    · rw [ih hrest]
      by_cases hk : key = field
      · subst hk
        simp [hhit]
      · have hsame : hit (request.erase field) key = hit request key := hlocal _ _ _ (by simp [hk])
        simp [hk, hsame]

theorem pass_ok_nil (h : pass cfg provider hit fields request = .ok ([], request')) :
    request' = request ∧ ∀ field ∈ fields, hit request field = false := by
  induction fields with
  | nil => cases h; simp
  | cons field fields ih =>
    rcases pass_cons_inv h with ⟨hhit,hrest⟩ | ⟨-,-,more,hne,-⟩
    · obtain ⟨hsame,hall⟩ := ih hrest
      exact ⟨hsame,List.forall_mem_cons.mpr ⟨hhit,hall⟩⟩
    · cases hne

theorem pass_reject_nil (hmode : cfg.stripMode = false)
    (h : pass cfg provider hit fields request = .ok (stripped, request')) : stripped = [] := by
  induction fields generalizing request stripped with
  | nil => cases h; rfl
  | cons field fields ih =>
    rcases pass_cons_inv h with ⟨-,hrest⟩ | ⟨-,hstrip,-⟩
    · exact ih hrest
    · rw [hmode] at hstrip
      cases hstrip

theorem validate_inv (h : validate cfg provider request = .ok (stripped, request')) :
    ∃ tools request₁ values request₂ present,
      validateTools cfg provider request = .ok (tools, request₁) ∧
      pass cfg provider (valueHit cfg) cfg.fields.keys request₁ = .ok (values, request₂) ∧
      pass cfg provider presentHit cfg.presentFields request₂ = .ok (present, request') ∧
      stripped = tools ++ values ++ present := by
  rw [validate_eq_andThen] at h
  simp only [andThen, Except.bind_eq_ok_iff] at h
  obtain ⟨before,hbefore,⟨present,request₃⟩,hpresent,he⟩ := h
  obtain ⟨⟨tools,request₁⟩,htools,⟨values,request₂⟩,hvalues,he'⟩ := hbefore
  cases he'
  cases he
  exact ⟨tools,request₁,values,request₂,present,htools,hvalues,hpresent,rfl⟩

theorem toolsOf_of_some {v : Json} (hget : request.get? "tools" = some v) (hv : v.truthy = true) :
    toolsOf request = v := by
  rw [toolsOf, Dict.get_eq_of_get? hget, if_pos hv]

theorem toolsOf_of_none (hget : request.get? "tools" = none) : toolsOf request = .list [] := by
  simp [toolsOf, Dict.get, Dict.getD, hget, Json.truthy]

theorem validateTools_quiet (h : ToolsQuiet cfg request) :
    validateTools cfg provider request = .ok ([], request) := by
  have hlist (tools : List Json) (htools : toolsOf request = .list tools) (hp : ∀ tool ∈ tools, Passes cfg tool)
      (hw : withTools request tools = request) : validateTools cfg provider request = .ok ([], request) := by
    rw [validateTools_of_list htools, scanTools_quiet hp]
    simp only [andThen, bind, Except.bind, popAll, List.reverse_nil, List.foldl_nil, hw]
    rfl
  cases hget : request.get? "tools" with
  | none =>
    exact hlist [] (toolsOf_of_none hget) (fun tool hm => absurd hm List.not_mem_nil)
      (by rw [withTools, if_pos rfl, Dict.erase_eq_self hget])
  | some v =>
    have htools : toolsOf request = v := toolsOf_of_some hget (h.truthy v hget)
    by_cases hv : ∃ tools, v = .list tools
    · obtain ⟨tools,rfl⟩ := hv
      have hne : tools ≠ [] := by
        rintro rfl
        exact absurd (h.truthy _ hget) (by simp [Json.truthy])
      exact hlist tools htools (h.tools tools hget) (by rw [withTools, if_neg hne, Dict.set_eq_self hget])
    · exact validateTools_of_other fun tools he => hv ⟨tools,htools.symm.trans he⟩

theorem validate_quiet (h : Quiet cfg request) : validate cfg provider request = .ok ([], request) := by
  rw [validate_eq_andThen, validateTools_quiet h.toToolsQuiet]
  simp only [andThen, bind, Except.bind, pass_quiet h.values, pass_quiet h.present]
  rfl

theorem ToolsQuiet.erased (h : ToolsQuiet cfg request)
    (hsame : request'.get? "tools" = request.get? "tools" ∨ request'.get? "tools" = none) :
    ToolsQuiet cfg request' := by
  rcases hsame with hsame | hnone
  · exact ⟨fun v hv => h.truthy v (hsame ▸ hv),fun tools hv => h.tools tools (hsame ▸ hv)⟩
  · exact ⟨by simp [hnone],by simp [hnone]⟩

theorem toolsQuiet_withTools {rest : List Json} (h : ∀ tool ∈ rest, Passes cfg tool) :
    ToolsQuiet cfg (withTools request rest) := by
  by_cases hrest : rest = []
  · rw [withTools, if_pos hrest]
    exact ⟨by simp,by simp⟩
  · rw [withTools, if_neg hrest]
    refine ⟨fun v hv => ?_,fun tools hv => ?_⟩
    · obtain rfl : Json.list rest = v := by simpa using hv
      simpa [Json.truthy] using hrest
    · obtain rfl : rest = tools := by simpa using hv
      exact h

theorem toolsQuiet_of_other (h : ∀ tools, toolsOf request ≠ .list tools) : ToolsQuiet cfg request := by
  have htruthy : ∀ v, request.get? "tools" = some v → v.truthy = true := by
    intro v hv
    by_contra hfalse
    exact h [] (by rw [toolsOf, Dict.get_eq_of_get? hv, if_neg hfalse])
  exact ⟨htruthy,fun tools hv => absurd (toolsOf_of_some hv (htruthy _ hv)) (h tools)⟩

end Quiet

section Reject

variable {cfg : RejectConfig} {provider : String} {request request' : JsonDict}
  {stripped : List (String × String)}

theorem scanTools_reject {tools : List Json} {drop : List ℕ} {i : ℕ} (hmode : cfg.stripMode = false)
    (h : scanTools cfg provider i tools = .ok (stripped, drop)) :
    stripped = [] ∧ drop = [] ∧ ∀ tool ∈ tools, Passes cfg tool := by
  induction tools generalizing i with
  | nil => cases h; simp
  | cons tool tools ih =>
    have hu : unlisted cfg (toolType tool) = none := unlisted_of_rejecting hmode _
    simp only [scanTools, hu, hmode, Except.bind_eq_ok_iff] at h
    obtain ⟨key,hkey,h⟩ := h
    cases hd : denied cfg (toolType tool) with
    | none =>
      rw [hd] at h
      obtain ⟨hs,hdrop,hall⟩ := ih h
      have hkey : (toolType tool).key = .ok key := by
        cases hk : (toolType tool).key with
        | ok k => rw [hk] at hkey; cases hkey; rfl
        | error e => rw [hk] at hkey; cases hkey
      exact ⟨hs,hdrop,List.forall_mem_cons.mpr ⟨⟨⟨key,hkey⟩,hd,hu⟩,hall⟩⟩
    | some s =>
      rw [hd] at h
      cases h

theorem validateTools_reject (hmode : cfg.stripMode = false)
    (h : validateTools cfg provider request = .ok (stripped, request')) :
    stripped = [] ∧ ToolsQuiet cfg request' := by
  by_cases hlist : ∃ tools, toolsOf request = .list tools
  · obtain ⟨tools,htools⟩ := hlist
    rw [validateTools_of_list htools] at h
    simp only [andThen, Except.bind_eq_ok_iff] at h
    obtain ⟨⟨first,drop⟩,hscan,⟨more,request₁⟩,hw,he⟩ := h
    cases hw
    cases he
    obtain ⟨rfl,rfl,hall⟩ := scanTools_reject hmode hscan
    exact ⟨rfl,toolsQuiet_withTools hall⟩
  · have hother : ∀ tools, toolsOf request ≠ .list tools := not_exists.mp hlist
    rw [validateTools_of_other hother] at h
    cases h
    exact ⟨rfl,toolsQuiet_of_other hother⟩

theorem validate_reject (hmode : cfg.stripMode = false)
    (h : validate cfg provider request = .ok (stripped, request')) : Quiet cfg request' := by
  obtain ⟨tools,request₁,values,request₂,present,htools,hvalues,hpresent,-⟩ := validate_inv h
  obtain rfl := pass_reject_nil hmode hvalues
  obtain rfl := pass_reject_nil hmode hpresent
  obtain ⟨rfl,hv⟩ := pass_ok_nil hvalues
  obtain ⟨rfl,hp⟩ := pass_ok_nil hpresent
  exact ⟨(validateTools_reject hmode htools).2,hv,hp⟩

end Reject

section Strip

variable {cfg : RejectConfig} {provider : String} {request request' : JsonDict}
  {stripped : List (String × String)}

def toolReport (cfg : RejectConfig) (request : JsonDict) : List (String × String) :=
  match toolsOf request with
  | .list tools => removals cfg tools 0
  | _ => []

def cleanTools (cfg : RejectConfig) (request : JsonDict) : JsonDict :=
  match toolsOf request with
  | .list tools => withTools request (tools.filter (keeps cfg))
  | _ => request

theorem validateTools_clean (hmode : cfg.mode = "strip") (ht : StringTools request) :
    validateTools cfg provider request = .ok (toolReport cfg request, cleanTools cfg request) := by
  unfold toolReport cleanTools
  split
  · next tools htools =>
    obtain ⟨drop,hscan,hpop⟩ := @scanTools_strip cfg provider tools 0 hmode (stringTyped_of_toolsOf ht htools)
    have hleft : popAll tools drop = tools.filter (keeps cfg) := hpop [] rfl
    rw [validateTools_of_list htools, hscan]
    simp only [andThen, bind, Except.bind, hleft, List.append_nil]
  · next hother => exact validateTools_of_other hother

theorem passes_of_keeps {tool : Json} (ht : StringTyped tool) (hk : keeps cfg tool = true) :
    Passes cfg tool := by
  have hhashed := hashed_of_stringTyped ht
  rcases toolType_cases ht with hty | ⟨s,hty⟩
  · exact ⟨hhashed,by rw [hty]; rfl,by rw [hty]; rfl⟩
  · simp only [keeps, hty, List.contains_eq_mem, Bool.and_eq_true, Bool.or_eq_true, Bool.not_eq_true',
      decide_eq_true_eq, decide_eq_false_iff_not] at hk
    refine ⟨hhashed,?_,?_⟩
    · simp only [denied, hty, if_neg hk.1]
    · rcases hk.2 with he | hm
      · simp [unlisted, hty, he]
      · simp [unlisted, hty, hm]

theorem toolsQuiet_clean (ht : StringTools request) : ToolsQuiet cfg (cleanTools cfg request) := by
  unfold cleanTools
  split
  · next tools htools =>
    refine toolsQuiet_withTools fun tool hm => ?_
    obtain ⟨hm,hk⟩ := List.mem_filter.mp hm
    exact passes_of_keeps (stringTyped_of_toolsOf ht htools tool hm) hk
  · next hother => exact toolsQuiet_of_other hother

theorem cleanTools_get? {key : String} (hk : key ≠ "tools") :
    (cleanTools cfg request).get? key = request.get? key := by
  unfold cleanTools withTools
  split
  · split <;> simp [hk]
  · rfl

def HoldsTools (cfg : RejectConfig) (request : JsonDict) : Prop :=
  (request.get "tools").truthy = true ∧
    ∀ tools, request.get "tools" = .list tools → ∃ tool ∈ tools, keeps cfg tool = true

theorem withTools_held_iff {rest : List Json} : (withTools request rest).get "tools" ≠ .null ↔ rest ≠ [] := by
  by_cases hrest : rest = [] <;> simp [withTools, hrest, Dict.get, Dict.getD]

theorem cleanTools_held_iff : (cleanTools cfg request).get "tools" ≠ .null ↔ HoldsTools cfg request := by
  by_cases htruthy : (request.get "tools").truthy = true
  · have htools : toolsOf request = request.get "tools" := if_pos htruthy
    unfold cleanTools HoldsTools
    rw [htools]
    split
    · next tools hlist =>
      have hsome : tools.filter (keeps cfg) ≠ [] ↔ ∃ tool ∈ tools, keeps cfg tool = true := by
        simp [List.filter_eq_nil_iff]
      rw [withTools_held_iff, hsome]
      refine ⟨fun h => ⟨hlist ▸ htruthy,fun ts he => ?_⟩,fun h => h.2 tools hlist⟩
      obtain rfl := Json.list.inj (hlist.symm.trans he)
      exact h
    · next hother =>
      refine iff_of_true (fun hnull => ?_) ⟨htruthy,fun tools hlist => absurd hlist (hother tools)⟩
      rw [hnull] at htruthy
      cases htruthy
  · have htools : toolsOf request = .list [] := if_neg htruthy
    refine iff_of_false ?_ fun h => htruthy h.1
    simp [cleanTools, htools, withTools_held_iff]

theorem cleanTools_get_iff {field : String} : (cleanTools cfg request).get field ≠ .null ↔
    request.get field ≠ .null ∧ (field = "tools" → HoldsTools cfg request) := by
  by_cases hf : field = "tools"
  · subst hf
    rw [cleanTools_held_iff]
    refine ⟨fun h => ⟨fun hnull => ?_,fun _ => h⟩,fun h => h.2 rfl⟩
    obtain ⟨htruthy,-⟩ := h
    rw [hnull] at htruthy
    cases htruthy
  · simp [Dict.get, Dict.getD, cleanTools_get? hf, hf]

theorem fieldHit_null {v : Json} : fieldHit v .null = true ↔ v = .null := by
  cases v <;> simp [fieldHit, Json.eq, Json.eqScalar, Json.whole?]

theorem null_fieldHit {v : Json} : fieldHit .null v = true ↔ v = .null := by
  cases v <;> simp [fieldHit, Json.eq, Json.eqScalar, Json.whole?]

theorem presentHit_iff {field : String} : presentHit request field = true ↔ request.get field ≠ .null := by
  unfold presentHit
  cases hget : request.get? field <;> simp [Dict.get, Dict.getD, hget]

theorem valueHit_of_get? {field : String} {v : Json} (h : cfg.fields.get? field = some v)
    (request : JsonDict) : valueHit cfg request field = fieldHit (request.get field) v := by
  simp only [valueHit, h]

section Fields

variable {values present : List (String × String)} {request₂ request₃ : JsonDict} {field : String}

theorem present_quiet (hp : pass cfg provider presentHit cfg.presentFields request₂ = .ok (present, request₃))
    (hf : field ∈ cfg.presentFields) : presentHit request₃ field = false := by
  have hget := pass_get?_eq presentHit_local hp field
  by_cases hhit : presentHit request₂ field = true
  · rw [if_pos ⟨hf,hhit⟩] at hget
    simp [presentHit, hget]
  · rw [if_neg fun h => hhit h.2] at hget
    rw [presentHit_local _ _ _ hget]
    simpa using hhit

theorem fields_left (hv : pass cfg provider (valueHit cfg) cfg.fields.keys request = .ok (values, request₂))
    (hp : pass cfg provider presentHit cfg.presentFields request₂ = .ok (present, request₃))
    (hf : field ∈ cfg.fields.keys) : request₃.get? field = none ∨
      request₃.get? field = request.get? field ∧ valueHit cfg request field = false := by
  have hget₂ := pass_get?_eq valueHit_local hv field
  have hget₃ := pass_get?_eq presentHit_local hp field
  by_cases hhit : valueHit cfg request field = true
  · rw [if_pos ⟨hf,hhit⟩] at hget₂
    rw [hget₂] at hget₃
    exact .inl (by simpa using hget₃)
  · rw [if_neg fun h => hhit h.2] at hget₂
    rw [hget₂] at hget₃
    by_cases hgone : field ∈ cfg.presentFields ∧ presentHit request₂ field = true
    · rw [if_pos hgone] at hget₃
      exact .inl hget₃
    · rw [if_neg hgone] at hget₃
      exact .inr ⟨hget₃,by simpa using hhit⟩

theorem null_left_iff (hv : pass cfg provider (valueHit cfg) cfg.fields.keys request = .ok (values, request₂))
    (hp : pass cfg provider presentHit cfg.presentFields request₂ = .ok (present, request₃))
    (hnull : cfg.fields.get? field = some .null) :
    request₃.get field ≠ .null ↔ field ∉ cfg.presentFields ∧ request.get field ≠ .null := by
  have hf : field ∈ cfg.fields.keys := by simp [Dict.mem_keys_iff, hnull]
  constructor
  · intro hheld
    rcases fields_left hv hp hf with hgone | ⟨hsame,-⟩
    · exact absurd (by simp [Dict.get, Dict.getD, hgone]) hheld
    · refine ⟨fun hpf => ?_,by simpa only [Dict.get, Dict.getD, hsame] using hheld⟩
      have hquiet : presentHit request₃ field = false := present_quiet hp hpf
      rw [presentHit_iff.mpr hheld] at hquiet
      cases hquiet
  · rintro ⟨hpf,hheld⟩
    have hhit : ¬ valueHit cfg request field = true := by
      rwa [valueHit_of_get? hnull, fieldHit_null]
    have hget₂ := pass_get?_eq valueHit_local hv field
    have hget₃ := pass_get?_eq presentHit_local hp field
    rw [if_neg fun h => hhit h.2] at hget₂
    rw [if_neg fun h => hpf h.1, hget₂] at hget₃
    simpa only [Dict.get, Dict.getD, hget₃] using hheld

theorem values_quiet_iff (hv : pass cfg provider (valueHit cfg) cfg.fields.keys request = .ok (values, request₂))
    (hp : pass cfg provider presentHit cfg.presentFields request₂ = .ok (present, request₃)) :
    (∀ field ∈ cfg.fields.keys, valueHit cfg request₃ field = false) ↔
      ∀ field, cfg.fields.get? field = some .null → field ∉ cfg.presentFields ∧ request.get field ≠ .null := by
  constructor
  · intro hquiet field hnull
    have hfalse := hquiet field (by simp [Dict.mem_keys_iff, hnull])
    refine (null_left_iff hv hp hnull).mp fun hget => ?_
    rw [valueHit_of_get? hnull, fieldHit_null.mpr hget] at hfalse
    cases hfalse
  · intro hnulls field hf
    obtain ⟨v,hget⟩ := Option.isSome_iff_exists.mp ((Dict.mem_keys_iff _ _).mp hf)
    rw [valueHit_of_get? hget]
    by_cases hnull : v = .null
    · subst hnull
      have hheld := (null_left_iff hv hp hget).mpr (hnulls field hget)
      simpa using mt fieldHit_null.mp hheld
    · rcases fields_left hv hp hf with hgone | ⟨hsame,hfalse⟩
      · have habsent : request₃.get field = .null := by simp [Dict.get, Dict.getD, hgone]
        rw [habsent]
        simpa using mt null_fieldHit.mp hnull
      · rwa [valueHit_of_get? hget, Dict.get, Dict.getD, ← hsame] at hfalse

end Fields

def NullFieldsHeld (cfg : RejectConfig) (request : JsonDict) : Prop :=
  ∀ field, cfg.fields.get? field = some .null →
    field ∉ cfg.presentFields ∧ request.get field ≠ .null ∧ (field = "tools" → HoldsTools cfg request)

theorem validate_strip (hmode : cfg.mode = "strip") (ht : StringTools request) :
    ∃ values request₂ present request₃,
      pass cfg provider (valueHit cfg) cfg.fields.keys (cleanTools cfg request) = .ok (values, request₂) ∧
      pass cfg provider presentHit cfg.presentFields request₂ = .ok (present, request₃) ∧
      validate cfg provider request = .ok (toolReport cfg request ++ values ++ present, request₃) := by
  have hstrip : cfg.stripMode = true := by simp [RejectConfig.stripMode, hmode]
  obtain ⟨values,request₂,hv,-⟩ := @pass_strip cfg provider (valueHit cfg) cfg.fields.keys
    (cleanTools cfg request) hstrip
  obtain ⟨present,request₃,hp,-⟩ := @pass_strip cfg provider presentHit cfg.presentFields request₂ hstrip
  refine ⟨values,request₂,present,request₃,hv,hp,?_⟩
  rw [validate_eq_andThen, validateTools_clean hmode ht]
  simp only [andThen, bind, Except.bind, hv, hp]

theorem values_of_nil (h : validate cfg provider request = .ok ([], request')) :
    ∀ field ∈ cfg.fields.keys, valueHit cfg request' field = false := by
  obtain ⟨tools,request₁,values,request₂,present,-,hvalues,hpresent,hnil⟩ := validate_inv h
  obtain ⟨hbefore,rfl⟩ := List.append_eq_nil_iff.mp hnil.symm
  obtain ⟨-,rfl⟩ := List.append_eq_nil_iff.mp hbefore
  obtain ⟨rfl,hall⟩ := pass_ok_nil hvalues
  obtain ⟨rfl,-⟩ := pass_ok_nil hpresent
  exact hall

theorem strip_values_iff (hmode : cfg.mode = "strip") (ht : StringTools request)
    (h : validate cfg provider request = .ok (stripped, request')) :
    (∀ field ∈ cfg.fields.keys, valueHit cfg request' field = false) ↔ NullFieldsHeld cfg request := by
  obtain ⟨values,request₂,present,request₃,hv,hp,hs⟩ := @validate_strip cfg provider request hmode ht
  rw [hs] at h
  cases h
  have hiff := values_quiet_iff hv hp
  simp only [cleanTools_get_iff] at hiff
  exact hiff

theorem strip_quiet (hmode : cfg.mode = "strip") (ht : StringTools request)
    (hheld : NullFieldsHeld cfg request) (h : validate cfg provider request = .ok (stripped, request')) :
    Quiet cfg request' := by
  have hvalues := (strip_values_iff hmode ht h).mpr hheld
  obtain ⟨values,request₂,present,request₃,hv,hp,hs⟩ := @validate_strip cfg provider request hmode ht
  rw [hs] at h
  cases h
  refine ⟨(toolsQuiet_clean ht).erased ?_,hvalues,fun f hf => present_quiet hp hf⟩
  rw [pass_get?_eq presentHit_local hp, pass_get?_eq valueHit_local hv]
  split
  · exact .inr rfl
  · split
    · exact .inr rfl
    · exact .inl rfl

theorem Quiet.inReject (h : Quiet (cfg.inMode "strip") request) : Quiet (cfg.inMode "reject") request := by
  refine ⟨⟨h.truthy,fun tools hts tool hm => ?_⟩,h.values,h.present⟩
  obtain ⟨hkey,hd,-⟩ := h.tools tools hts tool hm
  exact ⟨hkey,hd,unlisted_of_rejecting rfl _⟩

end Strip

structure Plain (cfg : RejectConfig) (request : JsonDict) : Prop where
  tools : ∀ tools, request.get? "tools" = some (.list tools) → ∀ tool ∈ tools, ∀ s ∈ cfg.tools,
    toolType tool ≠ .str s
  fields : ∀ field ∈ cfg.fields.keys, request.get? field = none
  present : ∀ field ∈ cfg.presentFields, request.get? field = none

structure LeavesClean (cfg : RejectConfig) (provider : String) (request : JsonDict) : Prop where
  strip : ∃ stripped request', validate (cfg.inMode "strip") provider request = .ok (stripped, request') ∧
    validate (cfg.inMode "strip") provider request' = .ok ([], request') ∧
    ∃ result, validate (cfg.inMode "reject") provider request' = .ok result
  reject : ∀ report request', validate (cfg.inMode "reject") provider request = .ok (report, request') →
    ∃ report', validate (cfg.inMode "reject") provider request' = .ok (report', request')
  plain : Plain cfg request →
    (∃ result, validate (cfg.inMode "reject") provider request = .ok result) ∧
    ∃ request', validate (cfg.inMode "strip") provider request = .ok (toolReport cfg request, request')

section Clean

variable {cfg : RejectConfig} {provider : String} {request : JsonDict}

theorem reject_twice {report : List (String × String)} {request' : JsonDict}
    (h : validate (cfg.inMode "reject") provider request = .ok (report, request')) :
    validate (cfg.inMode "reject") provider request' = .ok ([], request') :=
  validate_quiet (validate_reject rfl h)

theorem valueHit_of_absent {d : JsonDict} {field : String} (hheld : NullFieldsHeld cfg request)
    (hf : request.get? field = none) (hd : d.get field = .null) : valueHit cfg d field = false := by
  cases hget : cfg.fields.get? field with
  | none => simp only [valueHit, hget]
  | some v =>
    rw [valueHit_of_get? hget, hd]
    have hnull : v ≠ .null := by
      rintro rfl
      exact (hheld field hget).2.1 (by simp [Dict.get, Dict.getD, hf])
    simpa using mt null_fieldHit.mp hnull

theorem presentHit_of_absent {d : JsonDict} {field : String} (hd : d.get field = .null) :
    presentHit d field = false := by
  simpa [hd] using mt (@presentHit_iff d field).mp

theorem plain_validate (hheld : NullFieldsHeld cfg request) (hplain : Plain cfg request) {mode : String}
    {report : List (String × String)} {d : JsonDict}
    (htools : validateTools (cfg.inMode mode) provider request = .ok (report, d))
    (hd : ∀ field, request.get? field = none → d.get field = .null) :
    validate (cfg.inMode mode) provider request = .ok (report, d) := by
  have hv : ∀ field ∈ (cfg.inMode mode).fields.keys, valueHit (cfg.inMode mode) d field = false :=
    fun field hf => valueHit_of_absent hheld (hplain.fields field hf) (hd field (hplain.fields field hf))
  have hp : ∀ field ∈ (cfg.inMode mode).presentFields, presentHit d field = false :=
    fun field hf => presentHit_of_absent (hd field (hplain.present field hf))
  rw [validate_eq_andThen, htools]
  simp only [andThen, bind, Except.bind, pass_quiet hv, pass_quiet hp, List.append_nil]

theorem plain_tools (ht : StringTools request) (hplain : Plain cfg request) :
    ∃ d, validateTools (cfg.inMode "reject") provider request = .ok ([], d) ∧
      ∀ field, request.get? field = none → d.get field = .null := by
  by_cases hlist : ∃ tools, toolsOf request = .list tools
  · obtain ⟨tools,htools⟩ := hlist
    have hpasses : ∀ tool ∈ tools, Passes (cfg.inMode "reject") tool := by
      intro tool hm
      rcases get?_of_toolsOf htools with hget | rfl
      · have htool : StringTyped tool := ht tools hget tool hm
        refine ⟨hashed_of_stringTyped htool,?_,unlisted_of_rejecting rfl _⟩
        rcases toolType_cases htool with hty | ⟨s,hty⟩
        · rw [hty]; rfl
        · have hs : s ∉ cfg.tools := fun hs => hplain.tools tools hget tool hm s hs hty
          rw [hty]
          exact if_neg hs
      · exact absurd hm List.not_mem_nil
    refine ⟨withTools request tools,?_,fun field hf => ?_⟩
    · rw [validateTools_of_list htools, scanTools_quiet hpasses]
      rfl
    · by_cases hk : field = "tools"
      · subst hk
        rw [toolsOf_of_none hf] at htools
        cases htools
        simp [withTools, Dict.get, Dict.getD]
      · have hsame : (withTools request tools).get? field = request.get? field := by
          unfold withTools
          split <;> simp [hk]
        simp [Dict.get, Dict.getD, hsame, hf]
  · have hother : ∀ tools, toolsOf request ≠ .list tools := not_exists.mp hlist
    exact ⟨request,validateTools_of_other hother,fun field hf => by simp [Dict.get, Dict.getD, hf]⟩

theorem leavesClean_iff (ht : StringTools request) :
    LeavesClean cfg provider request ↔ NullFieldsHeld cfg request := by
  obtain ⟨values,request₂,present,request',-,-,hs⟩ :=
    @validate_strip (cfg.inMode "strip") provider request rfl ht
  constructor
  · rintro ⟨⟨stripped,request',hfirst,hagain,-⟩,-,-⟩
    exact (strip_values_iff rfl ht hfirst).mp (values_of_nil hagain)
  · intro hheld
    refine ⟨?_,fun report request' h => ⟨[],reject_twice h⟩,fun hplain => ⟨?_,?_⟩⟩
    · have hquiet : Quiet (cfg.inMode "strip") request' := strip_quiet rfl ht hheld hs
      exact ⟨_,request',hs,validate_quiet hquiet,_,validate_quiet hquiet.inReject⟩
    · obtain ⟨d,htools,hd⟩ := @plain_tools cfg provider request ht hplain
      exact ⟨_,plain_validate hheld hplain htools hd⟩
    · refine ⟨cleanTools cfg request,?_⟩
      refine plain_validate hheld hplain (validateTools_clean rfl ht) fun field hf => ?_
      by_contra hne
      exact (cleanTools_get_iff.mp hne).1 (by simp [Dict.get, Dict.getD, hf])

end Clean

theorem leavesClean_iff_codex : LeavesClean {} "openai" Codex.request ↔ NullFieldsHeld {} Codex.request :=
  leavesClean_iff Codex.stringTools

namespace NullField

def cfg : RejectConfig := { fields := .ofEntries [("background", .null)] }

example : validate (cfg.inMode "reject") "openai" .empty =
    .error (cfg.notSupported "openai" "background" "background") := rfl

theorem not_leavesClean : StringTools .empty ∧ ¬ LeavesClean cfg "openai" .empty := by
  have hstrip : validate (cfg.inMode "strip") "openai" .empty =
      .ok ([("background", "background")], .empty) := rfl
  have htypes : StringTools .empty := by
    intro tools h
    cases h
  refine ⟨htypes,?_⟩
  rintro ⟨⟨stripped,request',hfirst,hagain,-⟩,-,-⟩
  rw [hstrip] at hfirst
  cases hfirst
  rw [hstrip] at hagain
  cases hagain

end NullField

end Validator

end ResponsesGateway
