import ResponsesGateway.Api.Providers

theorem Option.bind_congr_of_map {α β γ : Type} {f : α → β} {x y : Option α} (h : x.map f = y.map f)
    {g g' : α → Option γ} (hg : ∀ a b, f a = f b → g a = g' b) : x.bind g = y.bind g' := by
  cases x with
  | none =>
    cases y with
    | none => rfl
    | some b => cases h
  | some a =>
    cases y with
    | none => cases h
    | some b => exact hg a b (Option.some.inj h)

namespace ResponsesGateway

open SessionResolver LLMRouter

def Request.unsent (r : Request) : Request := { r with sent := none }

def State.unsent (s : State) : State := { s with requests := s.requests.map Request.unsent }

/-- Whatever else the aliases configure, they bring the same of the keywords that the gateway sets. -/
def SameOwned (aliases aliases' : AliasMap) : Prop :=
  ∀ name, ∀ k ∈ "stream" :: owned,
    k ∈ ((aliases.params.get? name).getD .empty).keys ↔ k ∈ ((aliases'.params.get? name).getD .empty).keys

section Keywords

variable {router router' : LLMRouter} {request : JsonDict}

variable (request) in
theorem aliasParams_owned (h : SameOwned router.aliasMap router'.aliasMap) :
    (∃ x, router.aliasParams request = .error x ∧ router'.aliasParams request = .error x) ∨
    ∃ params params', router.aliasParams request = .ok params ∧ router'.aliasParams request = .ok params' ∧
      ∀ k ∈ "stream" :: owned, k ∈ params.keys ↔ k ∈ params'.keys := by
  unfold aliasParams
  cases (request.getD "model" (.str "")).key with
  | error x => exact .inl ⟨x,rfl,rfl⟩
  | ok key =>
    right
    cases key with
    | str name => exact ⟨_,_,rfl,rfl,h name⟩
    | _ => exact ⟨.empty,.empty,rfl,rfl,fun _ _ => Iff.rfl⟩

theorem bindKeywords_owned {spread spread' : JsonDict} {given given' : List (String × Json)}
    (hnames : given.map Prod.fst = given'.map Prod.fst)
    (h : ∀ k ∈ given'.map Prod.fst, k ∈ spread.keys ↔ k ∈ spread'.keys) :
    (bindKeywords spread given).map (fun _ => ()) = (bindKeywords spread' given').map (fun _ => ()) := by
  have hany : given.any (fun e => decide (e.1 ∈ spread.keys)) =
      given'.any (fun e => decide (e.1 ∈ spread'.keys)) := by
    calc given.any (fun e => decide (e.1 ∈ spread.keys))
      _ = (given.map Prod.fst).any (fun k => decide (k ∈ spread.keys)) := by rw [List.any_map]; rfl
      _ = (given'.map Prod.fst).any (fun k => decide (k ∈ spread'.keys)) := by
        rw [hnames, Bool.eq_iff_iff, List.any_eq_true, List.any_eq_true]
        exact exists_congr fun k => and_congr_right fun hk => by simp [h k hk]
      _ = given'.any (fun e => decide (e.1 ∈ spread'.keys)) := by rw [List.any_map]; rfl
  unfold bindKeywords
  rw [hany]
  split <;> rfl

theorem bind_resolveRequest_owned (h : SameOwned router.aliasMap router'.aliasMap)
    {given given' : List (String × Json)} (hnames : given.map Prod.fst = given'.map Prod.fst)
    (hown : ∀ k ∈ given'.map Prod.fst, k ∈ "stream" :: owned) :
    (router.resolveRequest request >>= fun spread => bindKeywords spread given).map (fun _ => ()) =
      (router'.resolveRequest request >>= fun spread => bindKeywords spread given').map (fun _ => ()) := by
  rw [resolveRequest_eq, resolveRequest_eq]
  rcases aliasParams_owned request h with ⟨x,hx,hx'⟩ | ⟨params,params',hp,hp',hkeys⟩
  · rw [hx, hx']
    rfl
  · rw [hp, hp']
    refine bindKeywords_owned hnames fun k hk => ?_
    rw [Dict.mem_keys_update, Dict.mem_keys_update, hkeys k (hown k hk)]

variable (request) in
theorem callKeywords_owned (h : SameOwned router.aliasMap router'.aliasMap) :
    (router.callKeywords request).map (fun _ => ()) = (router'.callKeywords request).map (fun _ => ()) :=
  bind_resolveRequest_owned h rfl fun _ hk => List.mem_cons_of_mem _ hk

theorem streamKeywords_owned (h : SameOwned router.aliasMap router'.aliasMap) :
    (router.streamKeywords request).map (fun _ => ()) = (router'.streamKeywords request).map (fun _ => ()) :=
  bind_resolveRequest_owned h rfl fun _ hk => hk

theorem call_owned (h : SameOwned router.aliasMap router'.aliasMap)
    (answer : Except ProviderException ProviderObject) :
    router.call (fun _ => answer) request = router'.call (fun _ => answer) request := by
  unfold call
  rcases Except.map_eq_map_iff.mp (callKeywords_owned request h) with ⟨x,hx,hx'⟩ | ⟨keywords,keywords',hk,hk',-⟩
  · rw [hx, hx']
  · rw [hk, hk']

end Keywords

section Moves

variable {gw gw' : Gateway} {s s' : State} {r r' : Request} {m : Move}

def Gateway.withRouter (gw : Gateway) (litellm : LiteLLMConfig) (aliases : AliasMap) : Gateway :=
  ⟨{ gw.config with litellm := litellm }, aliases⟩

theorem move_unsent {litellm : LiteLLMConfig} {aliases : AliasMap} (h : SameOwned gw.aliasMap aliases)
    (hs : s.unsent = s'.unsent) (hr : r.unsent = r'.unsent) :
    (move gw s r m).map (fun p => (p.1.unsent, p.2)) =
      (move (gw.withRouter litellm aliases) s' r' m).map (fun p => (p.1.unsent, p.2)) := by
  obtain ⟨newId,body,turn,sent,frames,phase⟩ := r
  obtain ⟨newId',body',turn',sent',frames',phase'⟩ := r'
  obtain ⟨store,cold,now,requests⟩ := s
  obtain ⟨store',cold',now',requests'⟩ := s'
  simp only [State.unsent, State.mk.injEq] at hs
  simp only [Request.unsent, Request.mk.injEq] at hr
  obtain ⟨rfl,rfl,rfl,-⟩ := hs
  obtain ⟨rfl,rfl,rfl,-,rfl,rfl⟩ := hr
  unfold move
  dsimp only
  split
  case h_1 => split <;> rfl
  case h_2 =>
    split
    · split <;> rfl
    · rfl
  case h_3 => rfl
  case h_4 => rfl
  case h_5 resolved answer =>
    split
    · rfl
    · have hcall : gw.router.call (fun _ => answer) resolved.request =
          (gw.withRouter litellm aliases).router.call (fun _ => answer) resolved.request := call_owned h answer
      rw [hcall]
      split <;> rfl
  case h_6 resolved =>
    split
    · have hsame : (gw.router.streamKeywords resolved.request).map (fun _ => ()) =
          ((gw.withRouter litellm aliases).router.streamKeywords resolved.request).map (fun _ => ()) :=
        streamKeywords_owned h
      rcases Except.map_eq_map_iff.mp hsame with ⟨x,hx,hx'⟩ | ⟨keywords,keywords',hk,hk',-⟩
      · rw [hx, hx']
        rfl
      · rw [hk, hk']
        rfl
    · rfl
  case h_7 => split <;> rfl
  case h_8 => split <;> rfl
  case h_9 =>
    have hrecorder : (gw.withRouter litellm aliases).recorder = gw.recorder := rfl
    rw [hrecorder]
    split
    · split
      · rfl
      · split <;> rfl
    · rfl
  case h_10 => split <;> rfl
  case h_11 => rfl

theorem step_unsent {litellm : LiteLLMConfig} {aliases : AliasMap} {a : Action}
    (h : SameOwned gw.aliasMap aliases) (hs : s.unsent = s'.unsent) :
    (step gw s a).map State.unsent = (step (gw.withRouter litellm aliases) s' a).map State.unsent := by
  have hrequests : s.requests.map Request.unsent = s'.requests.map Request.unsent := congrArg State.requests hs
  cases a with
  | receive payload uuid =>
    have hids : s.requests.map Request.newId = s'.requests.map Request.newId := by
      simpa [Function.comp_def, Request.unsent] using congrArg (List.map Request.newId) hrequests
    have hreceive : receive (gw.withRouter litellm aliases) payload = receive gw payload := rfl
    simp only [step, hids, hreceive]
    split
    · rfl
    · cases receive gw payload with
      | error exn => exact congrArg some hs
      | ok turn =>
        refine congrArg some ?_
        simp only [State.unsent, State.mk.injEq, List.map_append] at hs ⊢
        exact ⟨hs.1,hs.2.1,hs.2.2.1,congrArg (· ++ _) hs.2.2.2⟩
  | move i m =>
    have hget : s.requests[i]?.map Request.unsent = s'.requests[i]?.map Request.unsent := by
      rw [← List.getElem?_map, ← List.getElem?_map, hrequests]
    simp only [step, Option.bind_eq_bind, Option.map_bind]
    refine Option.bind_congr_of_map hget fun r r' hr => ?_
    simp only [Function.comp_apply, Option.map_bind]
    refine Option.bind_congr_of_map (move_unsent h hs hr) fun p p' hp => ?_
    simp only [Prod.mk.injEq] at hp
    obtain ⟨hunsent,hrest⟩ := hp
    simp only [State.unsent, State.mk.injEq] at hs
    simp [State.unsent, List.map_set, hrequests, hunsent, hrest, hs.2.2.1]
  | tick d =>
    refine congrArg some ?_
    simp only [State.unsent, State.mk.injEq] at hs ⊢
    exact ⟨hs.1,hs.2.1,congrArg (· + (d : Time)) hs.2.2.1,hs.2.2.2⟩
  | deleteExpired asOf =>
    refine congrArg some ?_
    simp only [State.unsent, State.mk.injEq] at hs ⊢
    exact ⟨congrArg (·.deleteExpired asOf) hs.1,hs.2⟩

theorem runSteps_unsent {litellm : LiteLLMConfig} {aliases : AliasMap} (h : SameOwned gw.aliasMap aliases)
    (as : List Action) (hs : s.unsent = s'.unsent) : (runSteps (step gw) s as).map State.unsent =
      (runSteps (step (gw.withRouter litellm aliases)) s' as).map State.unsent := by
  induction as generalizing s s' with
  | nil => exact congrArg some hs
  | cons a as ih =>
    simp only [runSteps, Option.map_bind]
    exact Option.bind_congr_of_map (step_unsent h hs) fun t t' ht => ih ht

end Moves

theorem alias_params_stay {gw : Gateway} (litellm : LiteLLMConfig) {aliases : AliasMap}
    (h : SameOwned gw.aliasMap aliases) (cold : Option ColdStorage) (now : Time) (as : List Action) :
    (runSteps (step gw) (.initial cold now) as).map State.unsent =
      (runSteps (step (gw.withRouter litellm aliases)) (.initial cold now) as).map State.unsent :=
  runSteps_unsent h as rfl

def keyed (key : String) : AliasMap :=
  AliasMap.empty.insert "glm-5.1" (.ofEntries [("model", .str "dashscope/glm-5.1"), ("api_key", .str key)]) rfl

theorem keyed_sameOwned (key key' : String) : SameOwned (keyed key) (keyed key') := by
  intro name k hk
  have hget (key : String) : (keyed key).params.get? name = if name = "glm-5.1" then
      some (.ofEntries [("model", .str "dashscope/glm-5.1"), ("api_key", .str key)]) else none := by
    simp [keyed, AliasMap.insert, AliasMap.empty]
  rw [hget, hget]
  by_cases hname : name = "glm-5.1"
  · simp only [if_pos hname, Option.getD_some]
    exact Iff.rfl
  · simp only [if_neg hname]

def keyedRun : List Action :=
  [.receive (.ofEntries [("model", .str "glm-5.1"), ("input", .str "hi")]) "1",
    .move 0 (.respond (.ok (.dict .empty))), .move 0 (.record "session" (.ok "")), .move 0 (.insert none)]

theorem alias_params_stay_keyed :
    (runSteps (step (gatewayWith (keyed "sk-1"))) (.initial none 0) keyedRun).isSome = true ∧
    (runSteps (step (gatewayWith (keyed "sk-1"))) (.initial none 0) keyedRun).map State.unsent =
      (runSteps (step ((gatewayWith (keyed "sk-1")).withRouter {} (keyed "sk-2"))) (.initial none 0) keyedRun).map
        State.unsent :=
  ⟨rfl,alias_params_stay {} (keyed_sameOwned "sk-1" "sk-2") none 0 keyedRun⟩

end ResponsesGateway
