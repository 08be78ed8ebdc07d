import ResponsesGateway.Validator

namespace ResponsesGateway

namespace Validator

def keeps (cfg : RejectConfig) (tool : Json) : Bool :=
  match toolType tool with
  | .str s => !cfg.tools.contains s &&
      (cfg.stripModeAllowedToolTypes.isEmpty || cfg.stripModeAllowedToolTypes.contains s)
  | _ => true

def typeName (tool : Json) : String :=
  match toolType tool with
  | .str s => s
  | _ => ""

def removals (cfg : RejectConfig) (tools : List Json) (first : ℕ) : List (String × String) :=
  ((tools.zipIdx first).filter (fun p => !keeps cfg p.1)).map (fun p => (typeName p.1, toolParam p.2))

def StringTyped (tool : Json) : Prop :=
  ∀ d, tool.asDict = some d → ∀ v, d.get? "type" = some v → ∃ s, v = .str s

section Scan

variable {cfg : RejectConfig} {provider : String} {tool : Json} {tools pre : List Json}
  {stripped : List (String × String)} {drop : List ℕ} {i : ℕ}

theorem toolType_cases (h : StringTyped tool) : toolType tool = .null ∨ ∃ s, toolType tool = .str s := by
  unfold toolType
  cases hd : tool.asDict with
  | none => exact .inl rfl
  | some d =>
    cases hv : d.get? "type" with
    | none => exact .inl (by simp [Dict.get, Dict.getD, hv])
    | some v =>
      obtain ⟨s,rfl⟩ := h d hd v hv
      exact .inr ⟨s,by simp [Dict.get, Dict.getD, hv]⟩

theorem removals_cons : removals cfg (tool :: tools) i =
    if keeps cfg tool then removals cfg tools (i + 1)
    else (typeName tool, toolParam i) :: removals cfg tools (i + 1) := by
  unfold removals
  rw [List.zipIdx_cons]
  cases hk : keeps cfg tool with
  | true => rw [List.filter_cons_of_neg (by simp [hk]), if_pos rfl]
  | false => rw [List.filter_cons_of_pos (by simp [hk]), if_neg Bool.false_ne_true, List.map_cons]

theorem keeps_cases {s : String} (hstrip : cfg.stripMode = true) (ht : toolType tool = .str s) :
    keeps cfg tool = true ∧ denied cfg (.str s) = none ∧ unlisted cfg (.str s) = none ∨
      keeps cfg tool = false ∧
        (denied cfg (.str s) = some s ∨ denied cfg (.str s) = none ∧ unlisted cfg (.str s) = some s) := by
  simp only [keeps, ht, denied, unlisted, hstrip, List.contains_eq_mem]
  by_cases hd : s ∈ cfg.tools
  · simp [hd]
  · by_cases he : cfg.stripModeAllowedToolTypes.isEmpty = true
    · simp [hd, he]
    · by_cases hl : s ∈ cfg.stripModeAllowedToolTypes
      · simp [hd, hl]
      · simp [hd, hl, he]

theorem scanTools_cons (hmode : cfg.mode = "strip") (ht : StringTyped tool)
    (h : scanTools cfg provider (i + 1) tools = .ok (stripped, drop)) :
    scanTools cfg provider i (tool :: tools) =
      .ok (if keeps cfg tool then (stripped, drop)
        else ((typeName tool, toolParam i) :: stripped, i :: drop)) := by
  have hstrip : cfg.stripMode = true := by simp [RejectConfig.stripMode, hmode]
  rcases toolType_cases ht with hty | ⟨s,hty⟩
  · simp only [scanTools, hty, Json.key, denied, unlisted, keeps, h]
    rfl
  · have hname : typeName tool = s := by simp only [typeName, hty]
    rcases keeps_cases hstrip hty with ⟨hk,hd,hu⟩ | ⟨hk,hd | ⟨hd,hu⟩⟩
    · simp only [scanTools, hty, Json.key, hd, hu, hk, h]
      rfl
    · simp only [scanTools, hty, Json.key, hd, hstrip, hk, h, hname]
      rfl
    · simp only [scanTools, hty, Json.key, hd, hu, hk, h, hname]
      rfl

theorem popAll_cons (tools : List Json) : popAll tools (i :: drop) = (popAll tools drop).eraseIdx i := by
  simp [popAll]

theorem scanTools_strip (hmode : cfg.mode = "strip") (ht : ∀ tool ∈ tools, StringTyped tool) :
    ∃ drop, scanTools cfg provider i tools = .ok (removals cfg tools i, drop) ∧
      ∀ pre : List Json, pre.length = i → popAll (pre ++ tools) drop = pre ++ tools.filter (keeps cfg) := by
  induction tools generalizing i with
  | nil => exact ⟨[],rfl,fun pre _ => by simp [popAll]⟩
  | cons tool tools ih =>
    obtain ⟨drop,hscan,hpop⟩ := ih (fun t hm => ht t (by simp [hm])) (i := i + 1)
    rw [scanTools_cons hmode (ht tool (by simp)) hscan, removals_cons]
    cases hk : keeps cfg tool with
    | true =>
      refine ⟨drop,rfl,fun pre hpre => ?_⟩
      have hnext := hpop (pre ++ [tool]) (by simp [hpre])
      rw [List.filter_cons_of_pos hk]
      simpa using hnext
    | false =>
      refine ⟨i :: drop,rfl,fun pre hpre => ?_⟩
      have hnext := hpop (pre ++ [tool]) (by simp [hpre])
      have happend : pre ++ tool :: tools = (pre ++ [tool]) ++ tools := by simp
      rw [List.filter_cons_of_neg (by simp [hk]), popAll_cons, happend, hnext, ← hpre]
      simp [List.eraseIdx_append_of_length_le]

theorem validateTools_strip {request : JsonDict} (hmode : cfg.mode = "strip")
    (hts : request.get? "tools" = some (.list tools)) (ht : ∀ tool ∈ tools, StringTyped tool) :
    validateTools cfg provider request = .ok (removals cfg tools 0,
      if tools.filter (keeps cfg) = [] then request.erase "tools"
      else request.set "tools" (.list (tools.filter (keeps cfg)))) := by
  have hget : request.get "tools" = .list tools := Dict.get_eq_of_get? hts
  have hlist : (if (Json.list tools).truthy then Json.list tools else .list []) = .list tools := by
    cases tools <;> rfl
  obtain ⟨drop,hscan,hpop⟩ := @scanTools_strip cfg provider tools 0 hmode ht
  have hleft : popAll tools drop = tools.filter (keeps cfg) := hpop [] rfl
  simp only [validateTools, hget, hlist, hscan, bind, Except.bind, hleft]
  cases tools.filter (keeps cfg) <;> rfl

theorem pass_strip {hit : JsonDict → String → Bool} {fields : List String} {request : JsonDict}
    (hstrip : cfg.stripMode = true) :
    ∃ stripped request', pass cfg provider hit fields request = .ok (stripped, request') ∧
      ∀ entry ∈ stripped, entry.1 ∈ fields ∧ entry.2 = entry.1 := by
  induction fields generalizing request with
  | nil => exact ⟨[],request,rfl,by simp⟩
  | cons field fields ih =>
    by_cases hhit : hit request field = true
    · obtain ⟨stripped,request',hrest,hentries⟩ := @ih (request.erase field)
      refine ⟨(field, field) :: stripped,request',?_,?_⟩
      · simp only [pass, hhit, if_true, reject, hstrip, hrest, bind, Except.bind]
        rfl
      · intro entry hentry
        rcases List.mem_cons.mp hentry with rfl | hentry
        · exact ⟨List.mem_cons_self,rfl⟩
        · exact ⟨List.mem_cons_of_mem _ (hentries entry hentry).1,(hentries entry hentry).2⟩
    · obtain ⟨stripped,request',hrest,hentries⟩ := @ih request
      refine ⟨stripped,request',?_,fun entry hentry => ?_⟩
      · simp only [pass, hhit, hrest, bind, Except.bind]
        rfl
      · exact ⟨List.mem_cons_of_mem _ (hentries entry hentry).1,(hentries entry hentry).2⟩

end Scan

theorem strip_tools_exact {cfg : RejectConfig} {provider : String} {request : JsonDict} {tools : List Json}
    (hmode : cfg.mode = "strip") (hfields : "tools" ∉ cfg.fields.keys)
    (hpresent : "tools" ∉ cfg.presentFields) (hts : request.get? "tools" = some (.list tools))
    (ht : ∀ tool ∈ tools, StringTyped tool) :
    ∃ fields request', validate cfg provider request = .ok (removals cfg tools 0 ++ fields, request') ∧
      (∀ entry ∈ fields, entry.2 = entry.1 ∧ (entry.1 ∈ cfg.fields.keys ∨ entry.1 ∈ cfg.presentFields)) ∧
      request'.get? "tools" = (if tools.filter (keeps cfg) = [] then none
        else some (.list (tools.filter (keeps cfg)))) ∧
      ∀ key, key ≠ "tools" → key ∉ cfg.fields.keys → key ∉ cfg.presentFields →
        request'.get? key = request.get? key := by
  have hstrip : cfg.stripMode = true := by simp [RejectConfig.stripMode, hmode]
  have hvalidated := @validateTools_strip cfg provider tools request hmode hts ht
  generalize hrequest : (if tools.filter (keeps cfg) = [] then request.erase "tools"
    else request.set "tools" (.list (tools.filter (keeps cfg)))) = request₁ at hvalidated
  obtain ⟨values,request₂,hvalues,hv⟩ := @pass_strip cfg provider (valueHit cfg) cfg.fields.keys
    request₁ hstrip
  obtain ⟨present,request₃,hp,hpr⟩ := @pass_strip cfg provider presentHit cfg.presentFields request₂ hstrip
  have hvalid : validate cfg provider request = .ok (removals cfg tools 0 ++ (values ++ present), request₃) := by
    simp only [validate, hvalidated, hvalues, hp, bind, Except.bind, pure, Except.pure, List.append_assoc]
  have htools : request₁.get? "tools" = if tools.filter (keeps cfg) = [] then none
      else some (.list (tools.filter (keeps cfg))) := by
    rw [← hrequest]
    split <;> simp
  refine ⟨values ++ present,request₃,hvalid,?_,?_,?_⟩
  · intro entry hentry
    rcases List.mem_append.mp hentry with hentry | hentry
    · exact ⟨(hv entry hentry).2,.inl (hv entry hentry).1⟩
    · exact ⟨(hpr entry hentry).2,.inr (hpr entry hentry).1⟩
  · rw [← htools, ← (pass_get? hvalues).resolve_right fun h => hfields h.1]
    exact (pass_get? hp).resolve_right fun h => hpresent h.1
  · intro key hk hkf hkp
    refine (validate_get? hk hvalid).resolve_right fun h => ?_
    exact h.1.elim hkf hkp

namespace Codex

def tool (type : String) : Json := .dict [("type", .str type)]

def tools : List Json := [tool "function", tool "web_search", .str "shell", tool "namespace"]

def request : JsonDict := .ofEntries [("model", .str "glm"), ("tools", .list tools)]

theorem stringTyped : ∀ tool ∈ tools, StringTyped tool := by
  have htool (type : String) : StringTyped (tool type) := by
    intro d hd v hv
    obtain rfl : Dict.ofEntries [("type", .str type)] = d := Option.some.inj hd
    have hget : (Dict.ofEntries [("type", Json.str type)]).get? "type" = some (.str type) := by
      simp [Dict.ofEntries, Dict.setAll]
    exact ⟨type,Option.some.inj (hv.symm.trans hget)⟩
  intro t ht
  simp only [tools, List.mem_cons, List.not_mem_nil, or_false] at ht
  rcases ht with rfl | rfl | rfl | rfl
  · exact htool "function"
  · exact htool "web_search"
  · intro d hd
    cases hd
  · exact htool "namespace"

end Codex

example : removals { mode := "strip" } Codex.tools 0 =
    [("web_search", "tools[1].type"), ("namespace", "tools[3].type")] := by decide

theorem strip_tools_exact_codex :
    ∃ fields request', validate { mode := "strip" } "openai" Codex.request =
        .ok (removals { mode := "strip" } Codex.tools 0 ++ fields, request') ∧
      (∀ entry ∈ fields, entry.2 = entry.1 ∧ (entry.1 ∈ ({ mode := "strip" } : RejectConfig).fields.keys ∨
        entry.1 ∈ ({ mode := "strip" } : RejectConfig).presentFields)) ∧
      request'.get? "tools" = (if Codex.tools.filter (keeps { mode := "strip" }) = [] then none
        else some (.list (Codex.tools.filter (keeps { mode := "strip" })))) ∧
      ∀ key, key ≠ "tools" → key ∉ ({ mode := "strip" } : RejectConfig).fields.keys →
        key ∉ ({ mode := "strip" } : RejectConfig).presentFields →
        request'.get? key = Codex.request.get? key :=
  strip_tools_exact rfl (by decide) (by decide) (by decide) Codex.stringTyped

end Validator

end ResponsesGateway
