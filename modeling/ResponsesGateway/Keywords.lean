import ResponsesGateway.Llm

namespace ResponsesGateway

namespace LLMRouter

variable {router : LLMRouter} {request params keywords : JsonDict} {name : String}

def aliasParams (router : LLMRouter) (request : JsonDict) : Except PyError JsonDict := do
  match ← (request.getD "model" (.str "")).key with
  | .str requested => return (router.aliasMap.params.get? requested).getD .empty
  | _ => return .empty

theorem resolveRequest_eq : router.resolveRequest request =
    (router.aliasParams request).map request.update := by
  unfold resolveRequest aliasParams
  cases hk : (request.getD "model" (.str "")).key with
  | error e => rfl
  | ok k =>
    cases k with
    | str requested =>
      dsimp only [bind, Except.bind]
      cases router.aliasMap.params.get? requested <;> rfl
    | _ => rfl

theorem aliasParams_erase : router.aliasParams (request.erase "stream") = router.aliasParams request := by
  simp [aliasParams, Dict.getD]

theorem aliasParams_of_name (hname : request.get? "model" = some (.str name))
    (hparams : router.aliasMap.params.get? name = some params) :
    router.aliasParams request = .ok params := by
  simp [aliasParams, Dict.getD, hname, Json.key, hparams, bind, Except.bind, pure, Except.pure]

theorem aliasParams_cases (h : router.aliasParams request = .ok params) :
    (params = .empty ∧ ∀ name, request.getD "model" (.str "") = .str name →
      router.aliasMap.params.get? name = none) ∨
    ∃ name, request.getD "model" (.str "") = .str name ∧
      router.aliasMap.params.get? name = some params := by
  unfold aliasParams at h
  cases hj : request.getD "model" (.str "") with
  | str name =>
    rw [hj] at h
    cases hn : router.aliasMap.params.get? name with
    | none => simp_all [Json.key, bind, Except.bind, pure, Except.pure]
    | some given => simp_all [Json.key, bind, Except.bind, pure, Except.pure]
  | list xs => rw [hj] at h; cases h
  | dict fs => rw [hj] at h; cases h
  | float x =>
    rw [hj] at h
    cases x <;> cases h <;> exact .inl ⟨rfl,by simp⟩
  | _ => rw [hj] at h; cases h; exact .inl ⟨rfl,by simp⟩

theorem bindKeywords_ok_iff {spread : JsonDict} {given : List (String × Json)} :
    bindKeywords spread given = .ok keywords ↔
      (∀ k ∈ given.map Prod.fst, k ∉ spread.keys) ∧ keywords = spread.setAll given := by
  unfold bindKeywords
  split
  · rename_i h
    simp only [List.any_eq_true, decide_eq_true_eq] at h
    obtain ⟨e,he,hk⟩ := h
    simp only [reduceCtorEq, false_iff, not_and]
    exact fun hall => absurd hk (hall e.1 (List.mem_map_of_mem he))
  · rename_i h
    simp only [List.any_eq_true, decide_eq_true_eq, not_exists, not_and] at h
    have hall : ∀ k ∈ given.map Prod.fst, k ∉ spread.keys := by
      intro k hk
      obtain ⟨e,he,rfl⟩ := List.mem_map.mp hk
      exact h e he
    simp only [Except.ok.injEq, eq_comm]
    exact ⟨fun hk => ⟨hall,hk⟩,fun hk => hk.2⟩

def owned : List String := ["timeout", "num_retries"]

theorem map_fst_ownKeywords : router.ownKeywords.map Prod.fst = owned := rfl

theorem callKeywords_ok_iff (h : router.aliasParams request = .ok params) :
    router.callKeywords request = .ok keywords ↔
      (∀ k ∈ owned, k ∉ request.keys ∧ k ∉ params.keys) ∧
        keywords = (request.update params).setAll router.ownKeywords := by
  simp only [callKeywords, resolveRequest_eq, h, Except.map, bind, Except.bind, bindKeywords_ok_iff,
    map_fst_ownKeywords, Dict.mem_keys_update, not_or]

theorem streamKeywords_ok_iff (h : router.aliasParams request = .ok params) :
    router.streamKeywords request = .ok keywords ↔
      ((∀ k ∈ owned, k ∉ request.keys ∧ k ∉ params.keys) ∧ "stream" ∉ params.keys) ∧
        keywords = ((request.erase "stream").update params).setAll
          (("stream", .bool true) :: router.ownKeywords) := by
  have hkeys (k : String) : k ∉ (request.erase "stream").keys ↔ k = "stream" ∨ k ∉ request.keys := by
    simp only [← Dict.get?_eq_none_iff, Dict.get?_erase]
    by_cases hk : k = "stream" <;> simp [hk]
  have hne : ∀ k ∈ owned, k ≠ "stream" := by decide
  simp only [streamKeywords, resolveRequest_eq, aliasParams_erase, h, Except.map, bind, Except.bind,
    bindKeywords_ok_iff, List.map_cons, map_fst_ownKeywords, Dict.mem_keys_update, not_or, hkeys,
    List.forall_mem_cons, true_or, true_and]
  constructor
  · rintro ⟨⟨hs,hk⟩,he⟩
    exact ⟨⟨fun k hm => ⟨(hk k hm).1.resolve_left (hne k hm),(hk k hm).2⟩,hs⟩,he⟩
  · rintro ⟨⟨hk,hs⟩,he⟩
    exact ⟨⟨hs,fun k hm => ⟨.inr (hk k hm).1,(hk k hm).2⟩⟩,he⟩

theorem get?_setAll_own (d : JsonDict) {k : String} (hk : k ∉ owned) :
    (d.setAll router.ownKeywords).get? k = d.get? k := by
  have hnodup : (router.ownKeywords.map Prod.fst).Nodup := by rw [map_fst_ownKeywords]; decide
  simp only [owned, List.mem_cons, List.not_mem_nil, or_false, not_or] at hk
  rw [Dict.get?_setAll _ _ hnodup]
  simp [ownKeywords, Dict.lookup_cons_ite, hk]

theorem get?_callKeywords {k : String} (hk : k ∉ owned) :
    ((request.update params).setAll router.ownKeywords).get? k = (params.get? k).or (request.get? k) := by
  rw [get?_setAll_own _ hk, Dict.get?_update]

theorem get?_streamKeywords {k : String} (hk : k ∉ owned) (hs : k ≠ "stream") :
    (((request.erase "stream").update params).setAll
      (("stream", .bool true) :: router.ownKeywords)).get? k = (params.get? k).or (request.get? k) := by
  have hset : (((request.erase "stream").update params).setAll
      (("stream", .bool true) :: router.ownKeywords)) =
      (((request.erase "stream").update params).set "stream" (.bool true)).setAll router.ownKeywords := rfl
  rw [hset, get?_setAll_own _ hk]
  simp [hs]

inductive Outbound (router : LLMRouter) (request keywords : JsonDict) : Prop
  | call : router.callKeywords request = .ok keywords → Outbound router request keywords
  | stream : router.streamKeywords request = .ok keywords → Outbound router request keywords

theorem Outbound.get? (h : Outbound router request keywords) (hp : router.aliasParams request = .ok params)
    {k : String} (hk : k ∉ owned) (hs : k ≠ "stream") :
    keywords.get? k = (params.get? k).or (request.get? k) := by
  cases h with
  | call h => rw [((callKeywords_ok_iff hp).mp h).2, get?_callKeywords hk]
  | stream h => rw [((streamKeywords_ok_iff hp).mp h).2, get?_streamKeywords hk hs]

theorem Outbound.owned_free (h : Outbound router request keywords)
    (hp : router.aliasParams request = .ok params) : ∀ k ∈ owned, k ∉ params.keys := by
  cases h with
  | call h => exact fun k hk => (((callKeywords_ok_iff hp).mp h).1 k hk).2
  | stream h => exact fun k hk => (((streamKeywords_ok_iff hp).mp h).1.1 k hk).2

def connection : List String := ["api_key", "api_base", "base_url"]

theorem connection_plain : ∀ k ∈ connection, k ≠ "model" ∧ k ∉ owned ∧ k ≠ "stream" := by decide

def Isolated (router : LLMRouter) (name : String) : Prop :=
  ∀ request request' keywords keywords' : JsonDict,
    request.get? "model" = some (.str name) → request'.get? "model" = some (.str name) →
    Outbound router request keywords → Outbound router request' keywords' →
    ∀ k ∈ connection, keywords.get? k = keywords'.get? k

theorem connection_isolated_iff (hparams : router.aliasMap.params.get? name = some params)
    (hkey : "api_key" ∈ params.keys) :
    Isolated router name ↔
      ("api_base" ∈ params.keys ∧ "base_url" ∈ params.keys) ∨ ∃ k ∈ owned, k ∈ params.keys := by
  constructor
  · intro h
    by_contra hn
    simp only [not_or, not_exists, not_and] at hn
    obtain ⟨hends,hfree⟩ := hn
    have hopen : ∃ k ∈ connection, k ∉ params.keys := by
      by_cases hbase : "api_base" ∈ params.keys
      · exact ⟨"base_url",by decide,hends hbase⟩
      · exact ⟨"api_base",by decide,hbase⟩
    obtain ⟨k,hk,hkp⟩ := hopen
    have hkm := connection_plain k hk
    let plain : JsonDict := .ofEntries [("model", .str name)]
    let steered : JsonDict := plain.set k (.str "https://client.example")
    have hsent (request : JsonDict) (hm : request.get? "model" = some (.str name))
        (hr : ∀ j ∈ owned, j ∉ request.keys) :
        Outbound router request ((request.update params).setAll router.ownKeywords) :=
      .call ((callKeywords_ok_iff (aliasParams_of_name hm hparams)).mpr
        ⟨fun j hj => ⟨hr j hj,hfree j hj⟩,rfl⟩)
    have hplain : plain.get? "model" = some (.str name) := by
      simp [plain, Dict.ofEntries, Dict.setAll]
    have hsteered : steered.get? "model" = some (.str name) := by
      simp [steered, hplain, hkm.1.symm]
    have hfreePlain : ∀ j ∈ owned, j ∉ plain.keys := by
      intro j hj
      rw [← Dict.get?_eq_none_iff]
      have : j ≠ "model" := by revert j; decide
      simp [plain, Dict.ofEntries, Dict.setAll, this]
    have hfreeSteered : ∀ j ∈ owned, j ∉ steered.keys := by
      intro j hj
      rw [Dict.mem_keys_set, not_or]
      exact ⟨fun he => hkm.2.1 (he ▸ hj),hfreePlain j hj⟩
    have hsame := h plain steered _ _ hplain hsteered (hsent plain hplain hfreePlain)
      (hsent steered hsteered hfreeSteered) k hk
    rw [get?_callKeywords hkm.2.1, get?_callKeywords hkm.2.1,
      (Dict.get?_eq_none_iff params k).mpr hkp] at hsame
    simp [plain, steered, Dict.ofEntries, Dict.setAll, hkm.1] at hsame
  · intro h request request' keywords keywords' hm hm' ho ho' k hk
    have hp := aliasParams_of_name hm hparams
    have hp' := aliasParams_of_name hm' hparams
    have hkm := (connection_plain k hk).2
    rcases h with ⟨hbase,hurl⟩ | ⟨j,hj,hjp⟩
    · have hin : k ∈ params.keys := by
        simp only [connection, List.mem_cons, List.not_mem_nil, or_false] at hk
        rcases hk with rfl | rfl | rfl
        exacts [hkey,hbase,hurl]
      obtain ⟨v,hv⟩ := Option.isSome_iff_exists.mp ((Dict.mem_keys_iff params k).mp hin)
      rw [ho.get? hp hkm.1 hkm.2, ho'.get? hp' hkm.1 hkm.2, hv]
      rfl
    · exact absurd hjp (ho.owned_free hp j hj)

def keyOnly : JsonDict :=
  .ofEntries [("model", .str "zai/glm-5.1"), ("api_key", .str "sk-server")]

def keyOnlyRouter : LLMRouter := ⟨{}, AliasMap.empty.insert "glm-5.1" keyOnly (by decide)⟩

theorem connection_isolated_iff_keyOnly :
    Isolated keyOnlyRouter "glm-5.1" ↔
      ("api_base" ∈ keyOnly.keys ∧ "base_url" ∈ keyOnly.keys) ∨ ∃ k ∈ owned, k ∈ keyOnly.keys :=
  connection_isolated_iff (by decide) (by decide)

def glmRequest : JsonDict := .ofEntries [("model", .str "glm-5.1"), ("input", .str "hi")]

theorem keyOnly_steered : ¬ Isolated keyOnlyRouter "glm-5.1" := by
  intro h
  have hsame := h glmRequest (glmRequest.set "api_base" (.str "https://client.example")) _ _ (by decide)
    (by decide) (.call rfl) (.call rfl) "api_base" (by decide)
  revert hsame
  decide

def Carries (keywords : Except PyError JsonDict) (request params : JsonDict) : Prop :=
  ∃ given, keywords = .ok given ∧ (∀ k v, params.get? k = some v → given.get? k = some v) ∧
    ∀ k, k ∉ params.keys → k ∉ owned → k ≠ "stream" → given.get? k = request.get? k

def Callable (router : LLMRouter) (request : JsonDict) : Prop :=
  ∃ params, router.aliasParams request = .ok params ∧
    Carries (router.callKeywords request) request params ∧
    Carries (router.streamKeywords request) request params

def Disjoint (router : LLMRouter) (request : JsonDict) : Prop :=
  ∃ params, router.aliasParams request = .ok params ∧
    (∀ k ∈ owned, k ∉ request.keys ∧ k ∉ params.keys) ∧ "stream" ∉ params.keys

theorem get?_params {given : JsonDict} {ks : List String} (hks : ∀ k ∈ params.keys, k ∉ ks)
    (hget : ∀ k, k ∉ ks → given.get? k = (params.get? k).or (request.get? k)) :
    (∀ k v, params.get? k = some v → given.get? k = some v) ∧
      ∀ k, k ∉ params.keys → k ∉ ks → given.get? k = request.get? k := by
  constructor
  · intro k v hv
    have hk : k ∈ params.keys := (Dict.mem_keys_iff params k).mpr (by simp [hv])
    rw [hget k (hks k hk), hv]
    rfl
  · intro k hk hks
    rw [hget k hks, (Dict.get?_eq_none_iff params k).mpr hk]
    rfl

theorem callable_iff_disjoint : Callable router request ↔ Disjoint router request := by
  constructor
  · rintro ⟨params,hp,-,given,hs,-⟩
    exact ⟨params,hp,((streamKeywords_ok_iff hp).mp hs).1⟩
  · rintro ⟨params,hp,hfree,hstream⟩
    have hcall := (callKeywords_ok_iff hp).mpr ⟨hfree,rfl⟩
    have hstr := (streamKeywords_ok_iff hp).mpr ⟨⟨hfree,hstream⟩,rfl⟩
    have hown : ∀ k ∈ params.keys, k ∉ owned := fun k hk ho => (hfree k ho).2 hk
    have hall : ∀ k ∈ params.keys, k ∉ "stream" :: owned := by
      intro k hk hm
      rcases List.mem_cons.mp hm with rfl | ho
      · exact hstream hk
      · exact hown k hk ho
    have hgetCall : ∀ k, k ∉ owned → ((request.update params).setAll router.ownKeywords).get? k =
        (params.get? k).or (request.get? k) := fun k hk => get?_callKeywords hk
    have hgetStream : ∀ k, k ∉ "stream" :: owned → (((request.erase "stream").update params).setAll
        (("stream", .bool true) :: router.ownKeywords)).get? k = (params.get? k).or (request.get? k) := by
      intro k hk
      rw [List.mem_cons, not_or] at hk
      exact get?_streamKeywords hk.2 hk.1
    refine ⟨params,hp,⟨_,hcall,?_⟩,⟨_,hstr,?_⟩⟩
    · obtain ⟨hconf,hrest⟩ := get?_params hown hgetCall
      exact ⟨hconf,fun k hk ho _ => hrest k hk ho⟩
    · obtain ⟨hconf,hrest⟩ := get?_params hall hgetStream
      exact ⟨hconf,fun k hk ho hs => hrest k hk (by simp [ho, hs])⟩

def timeoutList : Json :=
  .dict [("model_list", .list [.dict [("model_name", .str "glm-5.1"), ("litellm_params",
    .dict [("model", .str "zai/glm-5.1"), ("timeout", .int 120)])]])]

theorem timeout_alias_not_callable :
    ∃ aliases, loadAliasMap (some timeoutList) = .ok aliases ∧ ¬ Callable ⟨{}, aliases⟩ glmRequest := by
  refine ⟨_,rfl,?_⟩
  rintro ⟨params,-,⟨given,h,-⟩,-⟩
  cases h

end LLMRouter

end ResponsesGateway
