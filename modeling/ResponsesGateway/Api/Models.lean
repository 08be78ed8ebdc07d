import ResponsesGateway.Api.Providers

namespace ResponsesGateway

open SessionResolver LLMRouter

namespace LLMRouter

variable (router : LLMRouter)

def resolveModel (requested : String) : String :=
  match router.aliasMap.params.get? requested with
  | none => requested
  | some params => (params.getD "model" (.str requested)).text

def listAliases : List (String × String) :=
  router.aliasMap.params.entries.map (fun e => (e.1, (e.2.getD "model" (.str "")).text))

end LLMRouter

def modelEntry (id ownedBy : String) : JsonDict :=
  .ofEntries [("id", .str id), ("object", .str "model"), ("owned_by", .str ownedBy)]

def modelList (models : List (String × String)) : JsonDict :=
  .ofEntries [("object", .str "list"), ("data", .list (models.map (fun m => .obj (modelEntry m.1 m.2))))]

def listModels (router : LLMRouter) : Except PyError JsonDict := do
  let models ← router.listAliases.mapM (fun e => do
    let ownedBy ← providerFromModel (.str e.2)
    return (e.1, ownedBy))
  return modelList models

/-- The entries that `_load_alias_map` goes through. -/
def fileEntries : Option Json → Except PyError (List Json)
  | none => .ok []
  | some cfg => do
      let cfg ← (if cfg.truthy then cfg else .dict []).methods
      let given := cfg.get "model_list"
      (if given.truthy then given else .list []).iter

def usable? (entry : Json) : Option (String × JsonDict) := do
  let e ← entry.asDict
  let given := e.get "litellm_params"
  let params ← (if given.truthy then given else .dict []).asDict
  if (params.get "model").truthy ∧ (e.get "model_name").truthy then some ((e.get "model_name").text, params)
  else none

section Aliases

variable {router : LLMRouter} {aliases : AliasMap} {entry : Json}

theorem addEntry_params : (aliases.addEntry entry).params =
    match usable? entry with
    | some (name, params) => aliases.params.set name params
    | none => aliases.params := by
  unfold AliasMap.addEntry usable?
  cases entry.asDict with
  | none => rfl
  | some e =>
    dsimp only [Option.bind_eq_bind, Option.bind_some]
    cases (if (e.get "litellm_params").truthy then e.get "litellm_params" else .dict []).asDict with
    | none => rfl
    | some params =>
      dsimp only [Option.bind_some]
      by_cases hm : (params.get "model").truthy = true
      · by_cases hn : (e.get "model_name").truthy = true
        · simp [hm, hn, AliasMap.insert]
        · simp [hm, hn]
      · simp [hm]

theorem foldl_params (entries : List Json) (aliases : AliasMap) :
    (entries.foldl AliasMap.addEntry aliases).params = aliases.params.setAll (entries.filterMap usable?) := by
  induction entries generalizing aliases with
  | nil => rfl
  | cons entry entries ih =>
    rw [List.foldl_cons, ih, addEntry_params]
    cases hu : usable? entry with
    | none => rw [List.filterMap_cons_none hu]
    | some e => rw [List.filterMap_cons_some hu]; rfl

end Aliases

structure Tells (gw : Gateway) (entries : List Json) (s : State) (models : List (String × String)) : Prop where
  distinct : (models.map Prod.fst).Nodup
  named : ∀ name ownedBy, (name, ownedBy) ∈ models ↔ ∃ params,
    (entries.filterMap usable?).reverse.lookup name = some params ∧
      providerFromModel (.str (params.get "model").text) = .ok ownedBy
  listed : ∀ r ∈ s.requests, ∀ name ownedBy keywords, (name, ownedBy) ∈ models →
    r.turn.payload.get? "model" = some (.str name) → r.sent = some keywords →
      (keywords.get "model").text = gw.router.resolveModel name ∧
        providerFromModel (.str (keywords.get "model").text) = .ok ownedBy
  unlisted : ∀ r ∈ s.requests, ∀ name keywords, name ∉ models.map Prod.fst →
    r.turn.payload.get? "model" = some (.str name) → r.sent = some keywords →
      keywords.get? "model" = some (.str name)

section Models

variable {gw : Gateway} {router : LLMRouter} {s : State} {r : Request} {name ownedBy : String}
  {keywords params : JsonDict}

def ownedModels (router : LLMRouter) : List (String × String) :=
  router.listAliases.map (fun e =>
    (e.1, if '/' ∈ e.2.toList then String.ofList (e.2.toList.takeWhile (· ≠ '/')) else "openai"))

theorem listModels_eq (router : LLMRouter) : listModels router = .ok (modelList (ownedModels router)) := by
  have hmap : router.listAliases.mapM (fun e => do
      let ownedBy ← providerFromModel (.str e.2)
      return (e.1, ownedBy)) = (.ok (ownedModels router) : Except PyError _) := List.mapM_pure
  rw [listModels, hmap]
  rfl

theorem getD_model {aliases : AliasMap} (h : aliases.params.get? name = some params) (default : Json) :
    params.getD "model" default = params.get "model" := by
  have htruthy := aliases.model name params h
  simp only [Dict.get, Dict.getD] at htruthy ⊢
  cases hm : params.get? "model" with
  | none => rw [hm] at htruthy; cases htruthy
  | some v => rfl

theorem mem_ownedModels : (name, ownedBy) ∈ ownedModels router ↔ ∃ params,
    router.aliasMap.params.get? name = some params ∧
      providerFromModel (.str (params.get "model").text) = .ok ownedBy := by
  simp only [ownedModels, listAliases, List.map_map, List.mem_map, Function.comp_apply, Prod.mk.injEq, Prod.exists,
    Dict.mem_entries_iff, providerFromModel, Except.ok.injEq]
  constructor
  · rintro ⟨_,params,hparams,rfl,howner⟩
    exact ⟨params,hparams,by rwa [getD_model hparams] at howner⟩
  · rintro ⟨params,hparams,howner⟩
    exact ⟨name,params,hparams,rfl,by rwa [getD_model hparams]⟩

theorem map_fst_ownedModels : (ownedModels router).map Prod.fst = router.aliasMap.params.keys := by
  simp [ownedModels, listAliases, Dict.keys, Function.comp_def]

theorem loadAliasMap_inv {file : Option Json} {aliases : AliasMap} (h : loadAliasMap file = .ok aliases) :
    ∃ entries, fileEntries file = .ok entries ∧ entries.foldl AliasMap.addEntry .empty = aliases := by
  cases file with
  | none => cases h; exact ⟨[],rfl,rfl⟩
  | some cfg =>
    simp only [loadAliasMap, Except.bind_eq_ok_iff] at h
    obtain ⟨fields,hfields,entries,hentries,ha⟩ := h
    cases ha
    exact ⟨entries,by simp only [fileEntries, hfields]; exact hentries,rfl⟩

theorem get?_loaded (entries : List Json) (name : String) :
    (entries.foldl AliasMap.addEntry .empty).params.get? name = (entries.filterMap usable?).reverse.lookup name := by
  rw [foldl_params, Dict.get?_setAll_reverse]
  exact Option.or_none

theorem sent_model {cold : Option ColdStorage} {now : Time}
    (h : Reach (step gw) (fun _ _ => True) (.initial cold now) s) (hr : r ∈ s.requests)
    (hname : r.turn.payload.get? "model" = some (.str name)) (hsent : r.sent = some keywords) :
    keywords.get? "model" =
      ((gw.aliasMap.params.get? name).bind (fun params => params.get? "model")).or (some (.str name)) := by
  obtain ⟨resolved,stage,hphase,ho⟩ := reach_sent h r hr keywords hsent
  have hok := (reach_inv h).phases r hr
  rw [hphase] at hok
  have hmodel : resolved.request.get? "model" = some (.str name) := by
    cases hok.1 with
    | root _ => exact hname
    | chained => simpa [rewrite] using hname
  have hparams : gw.router.aliasParams resolved.request =
      .ok ((gw.aliasMap.params.get? name).getD .empty) := by
    simp only [aliasParams, Dict.getD, hmodel, Option.getD_some, Json.key]
    rfl
  rw [ho.get? hparams (by decide) (by decide), hmodel]
  cases gw.aliasMap.params.get? name with
  | none => rfl
  | some params => rfl

end Models

theorem models_tell_provider {gw : Gateway} {file : Option Json} (hload : loadAliasMap file = .ok gw.aliasMap)
    {cold : Option ColdStorage} {now : Time} {s : State}
    (h : Reach (step gw) (fun _ _ => True) (.initial cold now) s) :
    ∃ entries models, fileEntries file = .ok entries ∧ listModels gw.router = .ok (modelList models) ∧
      Tells gw entries s models := by
  obtain ⟨entries,hentries,hfold⟩ := loadAliasMap_inv hload
  have hparams : ∀ name, gw.aliasMap.params.get? name = (entries.filterMap usable?).reverse.lookup name :=
    fun name => hfold ▸ get?_loaded entries name
  refine ⟨entries,_,hentries,listModels_eq gw.router,?_,?_,?_,?_⟩
  · rw [map_fst_ownedModels]
    exact gw.aliasMap.params.nodup
  · intro name ownedBy
    rw [mem_ownedModels, ← hparams]
    rfl
  · intro r hr name ownedBy keywords hm hname hsent
    obtain ⟨params,hp,howner⟩ := mem_ownedModels.mp hm
    have hp : gw.aliasMap.params.get? name = some params := hp
    have hmodel := sent_model h hr hname hsent
    have htruthy := gw.aliasMap.model name params hp
    simp only [Dict.get, Dict.getD] at htruthy
    cases hv : params.get? "model" with
    | none => rw [hv] at htruthy; cases htruthy
    | some v =>
      rw [hp, Option.bind_some, hv, Option.some_or] at hmodel
      rw [Dict.get_eq_of_get? hmodel]
      rw [Dict.get_eq_of_get? hv] at howner
      refine ⟨?_,howner⟩
      have hresolve : gw.router.aliasMap.params.get? name = some params := hp
      simp only [resolveModel, hresolve, Dict.getD, hv, Option.getD_some]
  · intro r hr name keywords hm hname hsent
    rw [map_fst_ownedModels, ← Dict.get?_eq_none_iff] at hm
    have hnone : gw.aliasMap.params.get? name = none := hm
    rw [sent_model h hr hname hsent, hnone, Option.bind_none, Option.none_or]

def modelsFile : Json :=
  .dict [("model_list", .list [
    .dict [("model_name", .str "glm-5.1"), ("litellm_params", .dict [("model", .str "openai/glm")])],
    .dict [("model_name", .str "qwen")],
    .dict [("model_name", .str "glm-5.1"), ("litellm_params", .dict [("model", .str "dashscope/glm-5.1")])]])]

def modelsAliases : AliasMap := (loadAliasMap (some modelsFile)).toOption.get rfl

def modelsRun : List Action :=
  [.receive (.ofEntries [("model", .str "glm-5.1"), ("input", .str "hi")]) "1",
    .move 0 (.respond (.ok (.dict .empty)))]

def modelsState : State := (runSteps (step (gatewayWith modelsAliases)) (.initial none 0) modelsRun).get rfl

theorem models_tell_provider_glm :
    listModels (gatewayWith modelsAliases).router = .ok (modelList [("glm-5.1", "dashscope")]) ∧
    ∃ entries models, fileEntries (some modelsFile) = .ok entries ∧
      listModels (gatewayWith modelsAliases).router = .ok (modelList models) ∧
        Tells (gatewayWith modelsAliases) entries modelsState models :=
  ⟨rfl,@models_tell_provider (gatewayWith modelsAliases) (some modelsFile) rfl none 0 modelsState
    (reach_of_runSteps modelsRun (fun _ _ _ => trivial) (Option.some_get rfl).symm)⟩

end ResponsesGateway
