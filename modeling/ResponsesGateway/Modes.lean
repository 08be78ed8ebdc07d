import ResponsesGateway.Stripping

namespace ResponsesGateway

def RejectConfig.inMode (cfg : RejectConfig) (mode : String) : RejectConfig := { cfg with mode := mode }

namespace Validator

def StringTools (request : JsonDict) : Prop :=
  ∀ tools, request.get? "tools" = some (.list tools) → ∀ tool ∈ tools, StringTyped tool

/-- `request.get("tools") or []`. -/
def toolsOf (request : JsonDict) : Json :=
  if (request.get "tools").truthy then request.get "tools" else .list []

def withTools (request : JsonDict) (tools : List Json) : JsonDict :=
  if tools = [] then request.erase "tools" else request.set "tools" (.list tools)

section Agreement

variable {cfg : RejectConfig} {provider : String} {α β : Type}

def Mirrors (cfg : RejectConfig) (provider : String)
    (rejecting stripping : Py (List (String × String) × α)) : Prop :=
  ∃ stripped rest, stripping = .ok (stripped, rest) ∧
    rejecting = stripped.head?.elim (.ok ([], rest))
      (fun entry => .error (cfg.notSupported provider entry.1 entry.2))

def andThen (first : Py (List (String × String) × α)) (next : α → Py (List (String × String) × β)) :
    Py (List (String × String) × β) :=
  first >>= fun p => next p.2 >>= fun q => .ok (p.1 ++ q.1, q.2)

theorem Mirrors.andThen {rejecting stripping : Py (List (String × String) × α)}
    {next next' : α → Py (List (String × String) × β)} (h : Mirrors cfg provider rejecting stripping)
    (hnext : ∀ a, Mirrors cfg provider (next a) (next' a)) :
    Mirrors cfg provider (andThen rejecting next) (andThen stripping next') := by
  obtain ⟨stripped,a,hs,hr⟩ := h
  obtain ⟨more,b,hs',hr'⟩ := hnext a
  refine ⟨stripped ++ more,b,?_,?_⟩
  · simp only [Validator.andThen, hs, hs', bind, Except.bind]
  · cases stripped with
    | nil =>
      simp only [Validator.andThen, hr, hr', List.head?_nil, Option.elim, bind, Except.bind]
      cases more <;> rfl
    | cons entry stripped =>
      simp only [Validator.andThen, hr, List.head?_cons, Option.elim, bind, Except.bind,
        List.cons_append]

theorem validate_eq_andThen (request : JsonDict) : validate cfg provider request =
    andThen (andThen (validateTools cfg provider request) (pass cfg provider (valueHit cfg) cfg.fields.keys))
      (pass cfg provider presentHit cfg.presentFields) := by
  simp only [validate, andThen, bind_assoc]
  rfl

theorem pass_cons (hit : JsonDict → String → Bool) (field : String) (fields : List String)
    (request : JsonDict) : pass cfg provider hit (field :: fields) request =
      andThen (if hit request field then reject cfg provider field request else .ok ([], request))
        (pass cfg provider hit fields) := by
  by_cases hhit : hit request field = true
  · simp only [pass, if_pos hhit]
    rfl
  · simp only [pass, if_neg hhit]
    rfl

theorem pass_mirrors (hit : JsonDict → String → Bool) (fields : List String) (request : JsonDict) :
    Mirrors cfg provider (pass (cfg.inMode "reject") provider hit fields request)
      (pass (cfg.inMode "strip") provider hit fields request) := by
  induction fields generalizing request with
  | nil => exact ⟨[],request,rfl,rfl⟩
  | cons field fields ih =>
    rw [pass_cons, pass_cons]
    refine Mirrors.andThen ?_ ih
    by_cases hhit : hit request field = true
    · rw [if_pos hhit, if_pos hhit]
      exact ⟨[(field, field)],request.erase field,rfl,rfl⟩
    · rw [if_neg hhit, if_neg hhit]
      exact ⟨[],request,rfl,rfl⟩

theorem unlisted_of_open (hopen : cfg.stripModeAllowedToolTypes = []) (ttype : Json) :
    unlisted cfg ttype = none := by
  unfold unlisted
  split
  · simp [hopen]
  · rfl

theorem unlisted_of_rejecting (hmode : cfg.stripMode = false) (ttype : Json) : unlisted cfg ttype = none := by
  unfold unlisted
  split <;> simp [hmode]

theorem hashed_of_stringTyped {tool : Json} (h : StringTyped tool) : ∃ key, (toolType tool).key = .ok key := by
  rcases toolType_cases h with hty | ⟨s,hty⟩
  · exact ⟨.none,by rw [hty]; rfl⟩
  · exact ⟨.str s,by rw [hty]; rfl⟩

theorem scanTools_mirrors (hopen : cfg.stripModeAllowedToolTypes = []) {tools : List Json}
    (ht : ∀ tool ∈ tools, StringTyped tool) (i : ℕ) :
    Mirrors cfg provider (scanTools (cfg.inMode "reject") provider i tools)
      (scanTools (cfg.inMode "strip") provider i tools) := by
  induction tools generalizing i with
  | nil => exact ⟨[],[],rfl,rfl⟩
  | cons tool tools ih =>
    obtain ⟨stripped,drop,hs,hr⟩ := ih (fun t hm => ht t (List.mem_cons_of_mem _ hm)) (i + 1)
    have hu (mode : String) : unlisted (cfg.inMode mode) (toolType tool) = none :=
      unlisted_of_open (show (cfg.inMode mode).stripModeAllowedToolTypes = [] from hopen) _
    have hd (mode : String) : denied (cfg.inMode mode) (toolType tool) = denied cfg (toolType tool) := rfl
    obtain ⟨key,hkey⟩ := hashed_of_stringTyped (ht tool List.mem_cons_self)
    cases hden : denied cfg (toolType tool) with
    | none =>
      refine ⟨stripped,drop,?_,?_⟩
      · simp only [scanTools, hkey, liftPy_ok, hd, hden, hu, hs, bind, Except.bind]
      · simp only [scanTools, hkey, liftPy_ok, hd, hden, hu, hr, bind, Except.bind]
    | some s =>
      refine ⟨(s, toolParam i) :: stripped,i :: drop,?_,?_⟩
      · simp only [scanTools, hkey, liftPy_ok, hd, hden, hs, bind, Except.bind]
        rfl
      · simp only [scanTools, hkey, liftPy_ok, hd, hden, bind, Except.bind]
        rfl

theorem validateTools_of_list {request : JsonDict} {tools : List Json}
    (h : toolsOf request = .list tools) : validateTools cfg provider request =
      andThen (scanTools cfg provider 0 tools)
        (fun drop => .ok ([], withTools request (popAll tools drop))) := by
  simp only [validateTools]
  rw [show (if (request.get "tools").truthy then request.get "tools" else .list []) = .list tools from h]
  simp only [andThen]
  cases scanTools cfg provider 0 tools with
  | error e => rfl
  | ok p =>
    simp only [bind, Except.bind, List.append_nil, withTools]
    cases popAll tools p.2 <;> rfl

theorem validateTools_of_other {request : JsonDict} (h : ∀ tools, toolsOf request ≠ .list tools) :
    validateTools cfg provider request = .ok ([], request) := by
  simp only [validateTools]
  split
  · next tools htools => exact absurd htools (h tools)
  · rfl

theorem get?_of_toolsOf {request : JsonDict} {tools : List Json} (h : toolsOf request = .list tools) :
    request.get? "tools" = some (.list tools) ∨ tools = [] := by
  unfold toolsOf at h
  split at h
  · left
    cases hget : request.get? "tools" with
    | none => simp [Dict.get, Dict.getD, hget] at h
    | some v => rw [← h, Dict.get_eq_of_get? hget]
  · right
    exact (Json.list.inj h).symm

theorem stringTyped_of_toolsOf {request : JsonDict} (ht : StringTools request) {tools : List Json}
    (h : toolsOf request = .list tools) : ∀ tool ∈ tools, StringTyped tool := by
  rcases get?_of_toolsOf h with hget | rfl
  · exact ht tools hget
  · exact fun tool hm => absurd hm List.not_mem_nil

theorem validateTools_mirrors (hopen : cfg.stripModeAllowedToolTypes = []) {request : JsonDict}
    (ht : StringTools request) :
    Mirrors cfg provider (validateTools (cfg.inMode "reject") provider request)
      (validateTools (cfg.inMode "strip") provider request) := by
  by_cases hlist : ∃ tools, toolsOf request = .list tools
  · obtain ⟨tools,htools⟩ := hlist
    rw [validateTools_of_list htools, validateTools_of_list htools]
    exact (scanTools_mirrors hopen (stringTyped_of_toolsOf ht htools) 0).andThen
      fun drop => ⟨[],withTools request (popAll tools drop),rfl,rfl⟩
  · have hother : ∀ tools, toolsOf request ≠ .list tools := not_exists.mp hlist
    rw [validateTools_of_other hother, validateTools_of_other hother]
    exact ⟨[],request,rfl,rfl⟩

theorem validate_mirrors (hopen : cfg.stripModeAllowedToolTypes = []) {request : JsonDict}
    (ht : StringTools request) :
    Mirrors cfg provider (validate (cfg.inMode "reject") provider request)
      (validate (cfg.inMode "strip") provider request) := by
  rw [validate_eq_andThen, validate_eq_andThen]
  exact ((validateTools_mirrors hopen ht).andThen (pass_mirrors (valueHit cfg) cfg.fields.keys)).andThen
    (pass_mirrors presentHit cfg.presentFields)

end Agreement

theorem modes_agree {cfg : RejectConfig} {provider : String} {request : JsonDict}
    (hopen : cfg.stripModeAllowedToolTypes = []) (ht : StringTools request) :
    ∃ stripped request', validate (cfg.inMode "strip") provider request = .ok (stripped, request') ∧
      ((∃ feature param p url, validate (cfg.inMode "reject") provider request =
        .error (.gateway (.featureNotSupported feature param p url))) ↔ stripped ≠ []) ∧
      (∀ feature param p url, validate (cfg.inMode "reject") provider request =
        .error (.gateway (.featureNotSupported feature param p url)) →
        stripped.head? = some (feature, param)) ∧
      ∀ report request'', validate (cfg.inMode "reject") provider request = .ok (report, request'') →
        report = [] ∧ request'' = request' := by
  obtain ⟨stripped,request',hs,hr⟩ := validate_mirrors hopen ht
  refine ⟨stripped,request',hs,?_⟩
  rw [hr]
  cases stripped with
  | nil => simp
  | cons entry stripped => simp +contextual [RejectConfig.notSupported, Prod.ext_iff]

theorem Codex.stringTools : StringTools Codex.request := by
  intro tools h
  have hget : Codex.request.get? "tools" = some (.list Codex.tools) := by decide
  obtain rfl : Codex.tools = tools := Json.list.inj (Option.some.inj (hget.symm.trans h))
  exact Codex.stringTyped

theorem modes_agree_codex :
    ∃ stripped request', validate (({ stripModeAllowedToolTypes := [] } : RejectConfig).inMode "strip")
        "openai" Codex.request = .ok (stripped, request') ∧
      ((∃ feature param p url,
        validate (({ stripModeAllowedToolTypes := [] } : RejectConfig).inMode "reject") "openai" Codex.request =
        .error (.gateway (.featureNotSupported feature param p url))) ↔ stripped ≠ []) ∧
      (∀ feature param p url,
        validate (({ stripModeAllowedToolTypes := [] } : RejectConfig).inMode "reject") "openai" Codex.request =
        .error (.gateway (.featureNotSupported feature param p url)) →
        stripped.head? = some (feature, param)) ∧
      ∀ report request'',
        validate (({ stripModeAllowedToolTypes := [] } : RejectConfig).inMode "reject") "openai" Codex.request =
          .ok (report, request'') → report = [] ∧ request'' = request' :=
  modes_agree rfl Codex.stringTools

end Validator

end ResponsesGateway
