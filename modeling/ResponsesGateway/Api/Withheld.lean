import ResponsesGateway.Api.Providers
import ResponsesGateway.Cleaning

namespace ResponsesGateway

namespace Validator

structure Admitted (cfg : RejectConfig) (request : JsonDict) : Prop extends ToolsQuiet cfg request where
  values : ∀ field v, cfg.fields.get? field = some v → v ≠ .null → fieldHit (request.get field) v = false
  present : ∀ field ∈ cfg.presentFields, request.get field = .null

section Admitted

variable {cfg : RejectConfig} {provider : String} {request request' : JsonDict}
  {stripped : List (String × String)}

theorem scanTools_left {tools : List Json} {drop : List ℕ} {i : ℕ}
    (h : scanTools cfg provider i tools = .ok (stripped, drop)) : ∃ rest, (∀ tool ∈ rest, Passes cfg tool) ∧
      ∀ pre : List Json, pre.length = i → popAll (pre ++ tools) drop = pre ++ rest := by
  induction tools generalizing i stripped drop with
  | nil => cases h; exact ⟨[],by simp,fun pre _ => by simp [popAll]⟩
  | cons tool tools ih =>
    have hdropped {more : List (String × String)} {later : List ℕ}
        (hscan : scanTools cfg provider (i + 1) tools = .ok (more, later)) : ∃ rest,
          (∀ tool ∈ rest, Passes cfg tool) ∧ ∀ pre : List Json, pre.length = i →
            popAll (pre ++ tool :: tools) (i :: later) = pre ++ rest := by
      obtain ⟨rest,hrest,hpop⟩ := ih hscan
      refine ⟨rest,hrest,fun pre hpre => ?_⟩
      have happend : pre ++ tool :: tools = (pre ++ [tool]) ++ tools := by simp
      rw [popAll_cons, happend, hpop (pre ++ [tool]) (by simp [hpre]), ← hpre]
      simp [List.eraseIdx_append_of_length_le]
    simp only [scanTools, Except.bind_eq_ok_iff] at h
    obtain ⟨key,hkey,h⟩ := h
    cases hd : denied cfg (toolType tool) with
    | some s =>
      rw [hd] at h
      dsimp only at h
      by_cases hstrip : cfg.stripMode = true
      · rw [if_pos hstrip, Except.bind_eq_ok_iff] at h
        obtain ⟨⟨more,later⟩,hscan,he⟩ := h
        cases he
        exact hdropped hscan
      · rw [if_neg hstrip] at h; cases h
    | none =>
      rw [hd] at h
      dsimp only at h
      cases hu : unlisted cfg (toolType tool) with
      | some s =>
        rw [hu] at h
        simp only [Except.bind_eq_ok_iff] at h
        obtain ⟨⟨more,later⟩,hscan,he⟩ := h
        cases he
        exact hdropped hscan
      | none =>
        rw [hu] at h
        obtain ⟨rest,hrest,hpop⟩ := ih h
        have hhashed : (toolType tool).key = .ok key := by
          cases hk : (toolType tool).key with
          | ok k => rw [hk] at hkey; cases hkey; rfl
          | error e => rw [hk] at hkey; cases hkey
        refine ⟨tool :: rest,List.forall_mem_cons.mpr ⟨⟨⟨key,hhashed⟩,hd,hu⟩,hrest⟩,fun pre hpre => ?_⟩
        have hnext := hpop (pre ++ [tool]) (by simp [hpre])
        simpa using hnext

theorem validateTools_left (h : validateTools cfg provider request = .ok (stripped, request')) :
    ToolsQuiet cfg request' := by
  by_cases hlist : ∃ tools, toolsOf request = .list tools
  · obtain ⟨tools,htools⟩ := hlist
    rw [validateTools_of_list htools] at h
    simp only [andThen, Except.bind_eq_ok_iff] at h
    obtain ⟨⟨first,drop⟩,hscan,⟨more,request₁⟩,hw,he⟩ := h
    cases hw
    cases he
    obtain ⟨rest,hrest,hpop⟩ := scanTools_left hscan
    have hleft : popAll tools drop = rest := hpop [] rfl
    rw [hleft]
    exact toolsQuiet_withTools hrest
  · have hother : ∀ tools, toolsOf request ≠ .list tools := not_exists.mp hlist
    rw [validateTools_of_other hother] at h
    cases h
    exact toolsQuiet_of_other hother

theorem validate_admits (h : validate cfg provider request = .ok (stripped, request')) : Admitted cfg request' := by
  obtain ⟨tools,request₁,values,request₂,present,htools,hvalues,hpresent,-⟩ := validate_inv h
  have hthinner (key : String) : request'.get? key = request₁.get? key ∨ request'.get? key = none := by
    rcases pass_get? hpresent with hsame | ⟨-,hnone⟩
    · rw [hsame]
      exact (pass_get? hvalues).imp_right And.right
    · exact .inr hnone
  refine ⟨(validateTools_left htools).erased (hthinner "tools"),?_,?_⟩
  · intro field v hv hne
    have hf : field ∈ cfg.fields.keys := (Dict.mem_keys_iff _ _).mpr (by simp [hv])
    rcases fields_left hvalues hpresent hf with hnone | ⟨hsame,hfalse⟩
    · have habsent : request'.get field = .null := by simp [Dict.get, Dict.getD, hnone]
      rw [habsent]
      simpa using mt null_fieldHit.mp hne
    · rwa [valueHit_of_get? hv, Dict.get, Dict.getD, ← hsame] at hfalse
  · intro field hf
    by_contra hne
    have hquiet : presentHit request' field = false := present_quiet hpresent hf
    rw [presentHit_iff.mpr hne] at hquiet
    cases hquiet

end Admitted

end Validator

open SessionResolver LLMRouter Validator

def gatewaySet : List String := ["input", "stream", "timeout", "num_retries"]

structure Withheld (cfg : RejectConfig) (params keywords : JsonDict) : Prop where
  tools : params.get? "tools" = none → ∀ tools, keywords.get? "tools" = some (.list tools) →
    ∀ tool ∈ tools, ∀ s, toolType tool = .str s → s ∉ cfg.tools ∧
      (cfg.stripMode = true → cfg.stripModeAllowedToolTypes ≠ [] → s ∈ cfg.stripModeAllowedToolTypes)
  values : ∀ field v, cfg.fields.get? field = some v → v ≠ .null → field ∉ gatewaySet →
    params.get? field = none → fieldHit (keywords.get field) v = false
  present : ∀ field ∈ cfg.presentFields, field ∉ gatewaySet → params.get? field = none →
    keywords.get field = .null

section Withheld

variable {cfg : RejectConfig} {request params keywords : JsonDict}

theorem Validator.Passes.listed_type {tool : Json} {s : String} (h : Passes cfg tool)
    (ht : toolType tool = .str s) : s ∉ cfg.tools ∧
      (cfg.stripMode = true → cfg.stripModeAllowedToolTypes ≠ [] → s ∈ cfg.stripModeAllowedToolTypes) := by
  have hd := h.allowed
  have hu := h.listed
  rw [ht] at hd hu
  refine ⟨fun hm => by simp [denied, hm] at hd,fun hstrip hne => ?_⟩
  by_contra hm
  simp [unlisted, hstrip, hne, hm] at hu

theorem withheld_of_thinner (h : Admitted cfg request)
    (hthin : ∀ key, key ∉ gatewaySet → params.get? key = none →
      keywords.get? key = request.get? key ∨ keywords.get? key = none) : Withheld cfg params keywords := by
  refine ⟨?_,?_,?_⟩
  · intro hp tools hget tool hm s hs
    rcases hthin "tools" (by decide) hp with hsame | hnone
    · exact (h.tools tools (hsame ▸ hget) tool hm).listed_type hs
    · rw [hnone] at hget; cases hget
  · intro field v hv hne hf hp
    rcases hthin field hf hp with hsame | hnone
    · rw [Dict.get, Dict.getD, hsame]
      exact h.values field v hv hne
    · have habsent : keywords.get field = .null := by simp [Dict.get, Dict.getD, hnone]
      rw [habsent]
      simpa using mt null_fieldHit.mp hne
  · intro field hm hf hp
    rcases hthin field hf hp with hsame | hnone
    · rw [Dict.get, Dict.getD, hsame]
      exact h.present field hm
    · simp [Dict.get, Dict.getD, hnone]

theorem resolved_thinner {s : State} {turn : Turn} {resolved : ResolvedRequest} {key : String}
    (h : History s turn resolved) (hk : key ≠ "input") :
    resolved.request.get? key = turn.payload.get? key ∨ resolved.request.get? key = none := by
  cases h with
  | root _ => exact .inl rfl
  | chained =>
    by_cases hp : key = "previous_response_id"
    · exact .inr (by simp [rewrite, hp])
    · exact .inl (by simp [rewrite, hp, hk])

end Withheld

theorem denied_features_withheld {gw : Gateway} {cold : Option ColdStorage} {now : Time} {s : State}
    (h : Reach (step gw) (fun _ _ => True) (.initial cold now) s) {r : Request} (hr : r ∈ s.requests)
    {keywords : JsonDict} (hsent : r.sent = some keywords) :
    ∃ resolved stage params, r.phase = .resolved resolved stage ∧
      gw.router.aliasParams resolved.request = .ok params ∧ Withheld gw.config.reject params keywords := by
  obtain ⟨resolved,stage,hp,ho⟩ := reach_sent h r hr keywords hsent
  obtain ⟨params,hparams⟩ := aliasParams_of_outbound ho
  obtain ⟨provider,stripped,request,-,hv,hturn⟩ := receive_eq_ok (reach_received h r hr)
  have hok := (reach_inv h).phases r hr
  rw [hp] at hok
  refine ⟨resolved,stage,params,hp,hparams,withheld_of_thinner (validate_admits hv) fun key hk hnone => ?_⟩
  simp only [gatewaySet, List.mem_cons, List.not_mem_nil, or_false, not_or] at hk
  obtain ⟨hinput,hstream,htimeout,hretries⟩ := hk
  rw [ho.get? hparams (by simp [owned, htimeout, hretries]) hstream, hnone, Option.none_or]
  have hpayload : r.turn.payload.get? key = request.get? key ∨ r.turn.payload.get? key = none := by
    rw [hturn]
    by_cases hstore : key = "store" <;> simp [hstore]
  rcases resolved_thinner hok.1 hinput with hsame | hgone
  · rwa [hsame]
  · exact .inr hgone

def stripping : Gateway := { config := { reject := { mode := "strip" } } }

def strippedRun : List Action := [.receive Codex.request "1", .move 0 (.respond (.ok (.dict .empty)))]

def strippedState : State := (runSteps (step stripping) (.initial none 0) strippedRun).get rfl

def strippedTurn : Request := (strippedState.requests[0]?).get rfl

def strippedKeywords : JsonDict := strippedTurn.sent.get rfl

example : strippedKeywords.get? "tools" = some (.list [Codex.tool "function", .str "shell"]) := by decide

theorem denied_features_withheld_stripped :
    ∃ resolved stage params, strippedTurn.phase = .resolved resolved stage ∧
      stripping.router.aliasParams resolved.request = .ok params ∧
      Withheld stripping.config.reject params strippedKeywords := by
  have hreach : Reach (step stripping) (fun _ _ => True) (.initial none 0) strippedState :=
    reach_of_runSteps strippedRun (fun _ _ _ => trivial) (Option.some_get rfl).symm
  exact denied_features_withheld hreach (List.mem_of_getElem? (i := 0) rfl) (Option.some_get rfl).symm

end ResponsesGateway
