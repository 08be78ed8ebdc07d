import ResponsesGateway.Api.History
import ResponsesGateway.Keywords
import Mathlib.Algebra.Order.BigOperators.Group.List
import Mathlib.Data.List.TakeWhile

namespace ResponsesGateway

open SessionResolver LLMRouter

def keywordModel (keywords : JsonDict) : Option String :=
  match keywords.get? "model" with
  | some (.str m) => some m
  | _ => none

theorem keywordModel_eq_some {keywords : JsonDict} {m : String} (h : keywordModel keywords = some m) :
    keywords.get? "model" = some (.str m) := by
  unfold keywordModel at h
  split at h
  · rename_i hm; cases h; exact hm
  · cases h

namespace Request

def sentModel (r : Request) : Option String := r.sent.bind keywordModel

def nextModel (gw : Gateway) (r : Request) : Option String :=
  let keywords := if r.turn.streaming then gw.router.streamKeywords r.turn.payload
    else gw.router.callKeywords r.turn.payload
  keywords.toOption.bind keywordModel

theorem outbound_of_nextModel {gw : Gateway} {r : Request} {m : String} (h : r.nextModel gw = some m) :
    ∃ keywords, Outbound gw.router r.turn.payload keywords ∧ keywordModel keywords = some m := by
  unfold nextModel at h
  obtain ⟨keywords,hk,hm⟩ := Option.bind_eq_some_iff.mp h
  split at hk
  · cases hs : gw.router.streamKeywords r.turn.payload with
    | error x => rw [hs] at hk; cases hk
    | ok sent => rw [hs] at hk; cases hk; exact ⟨_,.stream hs,hm⟩
  · cases hs : gw.router.callKeywords r.turn.payload with
    | error x => rw [hs] at hk; cases hk
    | ok sent => rw [hs] at hk; cases hk; exact ⟨_,.call hs,hm⟩

end Request

def SentOk (gw : Gateway) (r : Request) : Prop :=
  ∀ keywords, r.sent = some keywords →
    ∃ resolved stage, r.phase = .resolved resolved stage ∧ Outbound gw.router resolved.request keywords

section Sent

variable {gw : Gateway} {s : State} {r r' : Request} {store : SessionStore} {cold : Option ColdStorage}

theorem moves_sent (hr : SentOk gw r) (h : Moves gw s r r' store cold) : SentOk gw r' := by
  -- What was sent stays, and so does what `resolve` came to.
  have hkeep {resolved : ResolvedRequest} {stage : Stage} (hp : r.phase = .resolved resolved stage) :
      ∀ keywords, r.sent = some keywords → Outbound gw.router resolved.request keywords := by
    intro keywords hs
    obtain ⟨_,_,hp',ho⟩ := hr keywords hs
    rw [hp] at hp'
    cases hp'
    exact ho
  have hunsent (hp : ∀ resolved stage, r.phase ≠ .resolved resolved stage) : r.sent = none := by
    cases hs : r.sent with
    | none => rfl
    | some keywords =>
      obtain ⟨resolved,stage,hp',-⟩ := hr keywords hs
      exact absurd hp' (hp resolved stage)
  cases h with
  | abandoned hp => intro keywords hs; rw [hunsent hp] at hs; cases hs
  | accepted hp _ => intro keywords hs; rw [hunsent (by simp [hp])] at hs; cases hs
  | climbed hp => intro keywords hs; rw [hunsent (by simp [hp])] at hs; cases hs
  | reconstructed hp _ _ _ => intro keywords hs; rw [hunsent (by simp [hp])] at hs; cases hs
  | @failed resolved stage sent frames exn hp _ hsent =>
    intro keywords hs
    dsimp only at hs
    refine ⟨_,_,rfl,?_⟩
    rcases hsent with rfl | hnew
    · exact hkeep hp keywords hs
    · exact .call (hnew keywords hs).2
  | answered _ _ hk => intro keywords hs; cases hs; exact ⟨_,_,rfl,.call hk⟩
  | connected _ _ hk => intro keywords hs; cases hs; exact ⟨_,_,rfl,.stream hk⟩
  | forwarded hp _ => exact fun keywords hs => ⟨_,_,rfl,hkeep hp keywords hs⟩
  | ended hp => exact fun keywords hs => ⟨_,_,rfl,hkeep hp keywords hs⟩
  | skipped hp _ => exact fun keywords hs => ⟨_,_,rfl,hkeep hp keywords hs⟩
  | prepared hp _ _ _ => exact fun keywords hs => ⟨_,_,rfl,hkeep hp keywords hs⟩
  | inserted hp _ => exact fun keywords hs => ⟨_,_,rfl,hkeep hp keywords hs⟩

theorem reach_sent {ok : State → Action → Prop} {now : Time}
    (h : Reach (step gw) ok (.initial cold now) s) : ∀ r ∈ s.requests, SentOk gw r :=
  reach_requests (fun _ _ _ _ _ hs => by cases hs) (fun _ _ _ _ _ hr hm => moves_sent hr hm) h

end Sent

def KeepsProviders (aliases : AliasMap) : Prop :=
  ∀ name params m, aliases.params.get? name = some params → params.get? "model" = some (.str m) →
    (∀ k ∈ owned, k ∉ params.keys) → providerFromModel (.str m) = providerFromModel (.str name)

section Provider

variable {gw : Gateway} {s : State} {r : Request} {request keywords body : JsonDict} {turn : Turn}
  {m : String}

theorem aliasParams_of_outbound {router : LLMRouter} (h : Outbound router request keywords) :
    ∃ params, router.aliasParams request = .ok params := by
  cases hp : router.aliasParams request with
  | ok params => exact ⟨params,rfl⟩
  | error x =>
    cases h with
    | call h => simp [callKeywords, resolveRequest_eq, hp, Except.map, bind, Except.bind] at h
    | stream h =>
      simp [streamKeywords, resolveRequest_eq, aliasParams_erase, hp, Except.map, bind, Except.bind] at h

theorem model_of_outbound (hempty : gw.aliasMap.params.get? "" = none)
    (ho : Outbound gw.router request keywords) (hm : keywordModel keywords = some m) :
    request.get? "model" = some (.str m) ∨
    ∃ name params, request.get? "model" = some (.str name) ∧ gw.aliasMap.params.get? name = some params ∧
      params.get? "model" = some (.str m) ∧ ∀ k ∈ owned, k ∉ params.keys := by
  obtain ⟨params,hp⟩ := aliasParams_of_outbound ho
  have hget := ho.get? hp (k := "model") (by decide) (by decide)
  rw [keywordModel_eq_some hm] at hget
  rcases aliasParams_cases hp with ⟨rfl,-⟩ | ⟨name,hname,hparams⟩
  · exact .inl (by simpa using hget.symm)
  · refine .inr ⟨name,params,?_,hparams,?_,ho.owned_free hp⟩
    · cases hj : request.get? "model" with
      | some j => simpa [Dict.getD, hj] using hname
      | none =>
        obtain rfl : "" = name := by simpa [Dict.getD, hj] using hname
        have hnone : gw.router.aliasMap.params.get? "" = none := hempty
        rw [hnone] at hparams
        cases hparams
    · have htruthy := gw.aliasMap.model name params hparams
      cases hmodel : params.get? "model" with
      | none => simp [Dict.get, Dict.getD, hmodel, Json.truthy] at htruthy
      | some v => simpa [hmodel] using hget.symm

theorem provider_of_outbound (hempty : gw.aliasMap.params.get? "" = none)
    (hkeep : KeepsProviders gw.aliasMap) (hreceive : receive gw body = .ok turn)
    (hrequest : request.get? "model" = turn.payload.get? "model")
    (ho : Outbound gw.router request keywords) (hm : keywordModel keywords = some m) :
    providerFromModel (.str m) = .ok turn.provider := by
  have hprovider (name : String) (hname : request.get? "model" = some (.str name)) :
      providerFromModel (.str name) = .ok turn.provider := by
    rw [hrequest] at hname
    have hbody : turn.payload.get? "model" = body.get? "model" ∨ _ :=
      receive_get? hreceive (by decide) (by decide)
    obtain ⟨provider,_,_,hp,-,he⟩ := receive_eq_ok hreceive
    rcases hbody with hsame | ⟨-,hnone⟩
    · rw [hsame] at hname
      rw [Dict.getD, hname, Option.getD_some] at hp
      rw [hp, he]
    · rw [hnone] at hname
      cases hname
  rcases model_of_outbound hempty ho hm with hown | ⟨name,params,hname,hparams,hmodel,hfree⟩
  · exact hprovider m hown
  · rw [hkeep name params m hparams hmodel hfree]
    exact hprovider name hname

theorem model_of_history {resolved : ResolvedRequest} (h : History s turn resolved) :
    resolved.request.get? "model" = turn.payload.get? "model" := by
  cases h with
  | root _ => rfl
  | chained => simp [rewrite]

end Provider

def MismatchExact (gw : Gateway) (s : State) : Prop :=
  ∀ r ∈ s.requests, ∀ prevId row, r.phase = .resolving prevId → s.store.getById prevId = some row →
    row.expired s.now = false → ∀ p ∈ s.requests, p.newId = prevId →
    ∀ m m', r.nextModel gw = some m → p.sentModel = some m' →
      ((∃ a b, checkParent s.now prevId r.turn.provider (some row) =
        .error (.gateway (.previousResponseProviderMismatch a b))) ↔
          providerFromModel (.str m) ≠ providerFromModel (.str m'))

def ServedByOne (s : State) : Prop :=
  ∀ r ∈ s.requests, ∀ prevId turns, r.parentId = some prevId →
    Lineage s.turn? Request.parentId prevId turns → ∀ p ∈ turns,
    ∀ m m', r.sentModel = some m → p.sentModel = some m' →
      providerFromModel (.str m) = providerFromModel (.str m')

section Sound

variable {gw : Gateway} {s : State} {r p : Request} {m : String} {row : SessionRecord} {prevId : String}
  {ok : State → Action → Prop} {cold : Option ColdStorage} {now : Time}

theorem provider_of_sentModel (h : Reach (step gw) ok (.initial cold now) s)
    (hempty : gw.aliasMap.params.get? "" = none) (hkeep : KeepsProviders gw.aliasMap)
    (hr : r ∈ s.requests) (hm : r.sentModel = some m) :
    providerFromModel (.str m) = .ok r.turn.provider := by
  obtain ⟨keywords,hs,hmodel⟩ := Option.bind_eq_some_iff.mp hm
  obtain ⟨resolved,stage,hp,ho⟩ := reach_sent h r hr keywords hs
  have hphase := (reach_inv h).phases r hr
  rw [hp] at hphase
  exact provider_of_outbound hempty hkeep (reach_received h r hr) (model_of_history hphase.1) ho hmodel

theorem provider_of_nextModel (h : Reach (step gw) ok (.initial cold now) s)
    (hempty : gw.aliasMap.params.get? "" = none) (hkeep : KeepsProviders gw.aliasMap)
    (hr : r ∈ s.requests) (hm : r.nextModel gw = some m) :
    providerFromModel (.str m) = .ok r.turn.provider := by
  obtain ⟨keywords,ho,hmodel⟩ := Request.outbound_of_nextModel hm
  exact provider_of_outbound hempty hkeep (reach_received h r hr) rfl ho hmodel

theorem provider_of_row? (hi : Inv s) (hr : r ∈ s.requests) (hrow : r.row? = some row) :
    row.provider = r.turn.provider := by
  obtain ⟨_,_,-,-,hw⟩ := wrote_of_row? (hi.phases r hr) hrow
  exact hw.provider

theorem checkParent_mismatch_iff {provider : String} (hlive : row.expired s.now = false) :
    (∃ a b, checkParent s.now prevId provider (some row) =
      .error (.gateway (.previousResponseProviderMismatch a b))) ↔ row.provider ≠ provider := by
  simp only [checkParent, hlive]
  by_cases hp : row.provider = provider
  · simp [hp]
  · simp [hp]

theorem mismatchExact_of_keeps (h : Reach (step gw) ok (.initial cold now) s)
    (hempty : gw.aliasMap.params.get? "" = none) (hkeep : KeepsProviders gw.aliasMap) :
    MismatchExact gw s := by
  intro r hr prevId row _ hfound hlive p hp hid m m' hm hm'
  have hi := reach_inv h
  have hrow : p.row? = some row := by
    rw [← recorded_of_mem hi.ids hp, hid]
    exact hi.seen hfound
  rw [checkParent_mismatch_iff hlive, provider_of_row? hi hp hrow, provider_of_nextModel h hempty hkeep hr hm,
    provider_of_sentModel h hempty hkeep hp hm']
  simp [eq_comm]

theorem provider_of_parentId (hi : Inv s) {resolved : ResolvedRequest} {stage : Stage}
    (hr : r ∈ s.requests) (hp : r.phase = .resolved resolved stage) (hprev : r.parentId = some prevId)
    (hturn : s.turn? prevId = some p) : p.turn.provider = r.turn.provider := by
  have hok := hi.phases r hr
  rw [hp] at hok
  cases hok.1 with
  | root hn => simp [Request.parentId, hn] at hprev
  | @chained prevId' parent _ _ _ hn hrec hprov _ _ _ =>
    obtain rfl : prevId' = prevId := by simpa [Request.parentId, hn] using hprev
    obtain ⟨q,hq,hqturn,-,hqrow⟩ := turn?_of_recorded hrec
    rw [hturn] at hqturn
    cases hqturn
    rw [← provider_of_row? hi hq hqrow, hprov]

theorem resolved_of_turn? (h : s.turn? prevId = some p) :
    ∃ resolved stage, p.phase = .resolved resolved stage := by
  have hrow := (Option.filter_eq_some_iff.mp h).2
  unfold Request.row? at hrow
  split at hrow
  · rename_i resolved stage hp; exact ⟨resolved,stage,hp⟩
  · cases hrow

theorem provider_of_lineage (hi : Inv s) {turns : List Request}
    (hl : Lineage s.turn? Request.parentId prevId turns) (hp : s.turn? prevId = some p) :
    ∀ q ∈ turns, q.turn.provider = p.turn.provider := by
  induction hl generalizing p with
  | root hfound _ =>
    intro q hq
    obtain rfl := List.mem_singleton.mp hq
    rw [hfound] at hp
    cases hp; rfl
  | @child k r parent turns hfound hparent habove ih =>
    rw [hfound] at hp
    cases hp
    intro q hq
    rcases List.mem_append.mp hq with hq | hq
    · obtain ⟨t,hturn⟩ := habove.exists_look
      obtain ⟨resolved,stage,hphase⟩ := resolved_of_turn? hfound
      rw [ih hturn q hq]
      exact provider_of_parentId hi (mem_of_turn? hfound).1 hphase hparent hturn
    · obtain rfl := List.mem_singleton.mp hq; rfl

theorem servedByOne_of_keeps (h : Reach (step gw) ok (.initial cold now) s)
    (hempty : gw.aliasMap.params.get? "" = none) (hkeep : KeepsProviders gw.aliasMap) : ServedByOne s := by
  intro r hr prevId turns hparent hl p hp m m' hm hm'
  have hi := reach_inv h
  have hpmem : p ∈ s.requests :=
    (mem_of_turn? (hl.look_of_mem Request.newId (fun k t ht => (mem_of_turn? ht).2) hp)).1
  obtain ⟨keywords,hs,-⟩ := Option.bind_eq_some_iff.mp hm
  obtain ⟨resolved,stage,hphase,-⟩ := reach_sent h r hr keywords hs
  obtain ⟨t,hturn⟩ := hl.exists_look
  rw [provider_of_sentModel h hempty hkeep hr hm, provider_of_sentModel h hempty hkeep hpmem hm',
    provider_of_lineage hi hl hturn p hp, provider_of_parentId hi hr hphase hparent hturn]

end Sound

section Converse

variable {aliases : AliasMap} {name m q provider : String} {params : JsonDict}

def gatewayWith (aliases : AliasMap) : Gateway := { aliasMap := aliases }

def asking (model : String) : JsonDict := .ofEntries [("model", .str model)]

def askingOn (model : String) : JsonDict :=
  .ofEntries [("model", .str model), ("previous_response_id", .str "resp_1")]

theorem receive_asking (h : providerFromModel (.str q) = .ok provider) :
    receive (gatewayWith aliases) (asking q) = .ok ⟨provider, asking q, .bool true, false⟩ := by
  have hmodel : (asking q).getD "model" (.str "") = .str q := rfl
  unfold receive
  rw [hmodel, h]
  rfl

theorem receive_askingOn (h : providerFromModel (.str q) = .ok provider) :
    receive (gatewayWith aliases) (askingOn q) = .ok ⟨provider, askingOn q, .bool true, false⟩ := by
  have hmodel : (askingOn q).getD "model" (.str "") = .str q := rfl
  unfold receive
  rw [hmodel, h]
  rfl

theorem callKeywords_asking (h : aliases.params.get? q = none) :
    (gatewayWith aliases).router.callKeywords (asking q) =
      .ok ((asking q).setAll (gatewayWith aliases).router.ownKeywords) := by
  have hkey : ((asking q).getD "model" (.str "")).key = .ok (.str q) := rfl
  have hnone : (gatewayWith aliases).router.aliasMap.params.get? q = none := h
  simp only [callKeywords, resolveRequest, hkey, bind, Except.bind, hnone]
  rfl

def asked (provider q : String) : Request :=
  ⟨"resp_1", asking q, ⟨provider, asking q, .bool true, false⟩, none, [], .resolved (passThrough (asking q)) .calling⟩

theorem step_receive (h : providerFromModel (.str q) = .ok provider) :
    step (gatewayWith aliases) (.initial none 0) (.receive (asking q) "1") =
      some ⟨.empty, none, 0, [asked provider q]⟩ := by
  simp only [step, receive_asking h]
  rfl

def askedAnswer : JsonDict := .ofEntries [("id", .str "resp_1")]

def askedRow (aliases : AliasMap) (provider q : String) : SessionRecord :=
  (gatewayWith aliases).recorder.inlineRow ⟨0, "session", .ok "", none⟩
    (recordCall ⟨provider, asking q, .bool true, false⟩ "resp_1" (passThrough (asking q)) askedAnswer)

def askedAnswered (aliases : AliasMap) (provider q : String) : Request :=
  { asked provider q with
    sent := some ((asking q).setAll (gatewayWith aliases).router.ownKeywords)
    phase := .resolved (passThrough (asking q)) (.answered askedAnswer) }

def askedDone (aliases : AliasMap) (provider q : String) : Request :=
  { asked provider q with
    sent := some ((asking q).setAll (gatewayWith aliases).router.ownKeywords)
    phase := .resolved (passThrough (asking q)) (.finished askedAnswer (some (askedRow aliases provider q))) }

def follower (provider name : String) : Request :=
  .start (askingOn name) "2" ⟨provider, askingOn name, .bool true, false⟩

def rivalState (aliases : AliasMap) (provider q name : String) : State :=
  ⟨⟨[askedRow aliases provider q], by simp⟩, none, 0, [askedDone aliases provider q, follower provider name]⟩

theorem rivalRun_reached (hq : providerFromModel (.str q) = .ok provider)
    (hname : providerFromModel (.str name) = .ok provider) (hdirect : aliases.params.get? q = none) :
    Reach (step (gatewayWith aliases)) (fun _ _ => True) (.initial none 0)
      (rivalState aliases provider q name) := by
  have hanswer : move (gatewayWith aliases) ⟨.empty, none, 0, [asked provider q]⟩ (asked provider q)
      (.respond (.ok (.dict .empty))) = some (askedAnswered aliases provider q, .empty, none) := by
    simp only [move, asked, LLMRouter.call, passThrough, callKeywords_asking hdirect]
    rfl
  have hfirst : step (gatewayWith aliases) ⟨.empty, none, 0, [asked provider q]⟩
      (.move 0 (.respond (.ok (.dict .empty)))) =
        some ⟨.empty, none, 0, [askedAnswered aliases provider q]⟩ := by
    simp only [step, List.getElem?_cons_zero, bind, Option.bind_some, hanswer]
    rfl
  have hrecord : runSteps (step (gatewayWith aliases)) ⟨.empty, none, 0, [askedAnswered aliases provider q]⟩
      [.move 0 (.record "session" (.ok "")), .move 0 (.insert none)] =
        some ⟨⟨[askedRow aliases provider q], by simp⟩, none, 0, [askedDone aliases provider q]⟩ := rfl
  have hlast : step (gatewayWith aliases)
      ⟨⟨[askedRow aliases provider q], by simp⟩, none, 0, [askedDone aliases provider q]⟩
      (.receive (askingOn name) "2") = some (rivalState aliases provider q name) := by
    simp only [step, receive_askingOn hname]
    rfl
  have hanswered : Reach (step (gatewayWith aliases)) (fun _ _ => True) (.initial none 0)
      ⟨.empty, none, 0, [askedAnswered aliases provider q]⟩ :=
    (Reach.refl.tail trivial (step_receive hq)).tail trivial hfirst
  exact (hanswered.trans (reach_of_runSteps _ (fun _ _ _ => trivial) hrecord)).tail trivial hlast

theorem exists_direct (aliases : AliasMap) (h : providerFromModel (.str name) = .ok provider) :
    ∃ q, providerFromModel (.str q) = .ok provider ∧ aliases.params.get? q = none := by
  have hslash : '/' ∉ provider.toList := by
    unfold providerFromModel at h
    split at h
    · cases h
      split
      · intro hm
        rw [String.toList_ofList] at hm
        simpa using List.mem_takeWhile_imp hm
      · decide
    all_goals simp_all
  -- Longer than every alias.
  let n := (aliases.params.keys.map String.length).sum
  let q := String.ofList (provider.toList ++ '/' :: List.replicate n 'x')
  have htoList : q.toList = provider.toList ++ '/' :: List.replicate n 'x' := String.toList_ofList
  refine ⟨q,?_,?_⟩
  · have hmem : '/' ∈ q.toList := by rw [htoList]; simp
    have htake : q.toList.takeWhile (· ≠ '/') = provider.toList := by
      rw [htoList, List.takeWhile_append_of_pos]
      · simp
      · intro c hc
        simpa using fun he : c = '/' => hslash (he ▸ hc)
    simp only [providerFromModel, hmem, if_true, htake, String.ofList_toList]
  · rw [Dict.get?_eq_none_iff]
    intro hm
    have hle : q.length ≤ n := List.le_sum_of_mem (List.mem_map_of_mem hm)
    rw [← String.length_toList, htoList] at hle
    simp at hle
    omega

theorem nextModel_follower (hparams : aliases.params.get? name = some params)
    (hmodel : params.get? "model" = some (.str m)) (hfree : ∀ k ∈ owned, k ∉ params.keys) :
    (follower provider name).nextModel (gatewayWith aliases) = some m := by
  have hp : (gatewayWith aliases).router.aliasParams (askingOn name) = .ok params :=
    aliasParams_of_name rfl hparams
  have hown : ∀ k ∈ owned, k ∉ (askingOn name).keys := by
    intro k hk
    have hkeys : (askingOn name).keys = ["model", "previous_response_id"] := rfl
    rw [hkeys]
    revert k
    decide
  have hk := (callKeywords_ok_iff hp).mpr ⟨fun k hk => ⟨hown k hk,hfree k hk⟩,rfl⟩
  have hget := (Outbound.call hk).get? hp (k := "model") (by decide) (by decide)
  rw [hmodel, Option.some_or] at hget
  have hcall : (follower provider name).nextModel (gatewayWith aliases) =
      ((gatewayWith aliases).router.callKeywords (askingOn name)).toOption.bind keywordModel := rfl
  rw [hcall, hk]
  simp only [Except.toOption, Option.bind_some, keywordModel, hget]

theorem keeps_of_mismatchExact (h : ∀ cold now s,
    Reach (step (gatewayWith aliases)) (fun _ _ => True) (.initial cold now) s →
      MismatchExact (gatewayWith aliases) s) : KeepsProviders aliases := by
  intro name params m hparams hmodel hfree
  obtain ⟨provider,hname⟩ : ∃ provider, providerFromModel (.str name) = .ok provider := ⟨_,rfl⟩
  obtain ⟨q,hq,hdirect⟩ := exists_direct aliases hname
  have hreach := rivalRun_reached hq hname hdirect
  have hsent : (askedDone aliases provider q).sentModel = some q := rfl
  have hexact := h none 0 _ hreach (follower provider name) (by simp [rivalState]) "resp_1"
    (askedRow aliases provider q) rfl rfl rfl (askedDone aliases provider q) (by simp [rivalState]) rfl
    m q (nextModel_follower hparams hmodel hfree) hsent
  have hlive : (askedRow aliases provider q).expired (rivalState aliases provider q name).now = false := rfl
  rw [checkParent_mismatch_iff hlive] at hexact
  -- The follower is let in: the provider read off its model is that of the parent.
  have hsame : (askedRow aliases provider q).provider = (follower provider name).turn.provider := rfl
  rw [hname, ← hq]
  by_contra hne
  exact hexact.mpr hne hsame

end Converse

theorem provider_check_exact_iff {file : Option Json} {aliases : AliasMap}
    (hload : loadAliasMap file = .ok aliases) :
    (∀ gw : Gateway, gw.aliasMap = aliases → ∀ cold now s,
      Reach (step gw) (fun _ _ => True) (.initial cold now) s → MismatchExact gw s ∧ ServedByOne s) ↔
    KeepsProviders aliases := by
  constructor
  · intro h
    exact keeps_of_mismatchExact fun cold now s hs => (h (gatewayWith aliases) rfl cold now s hs).1
  · rintro hkeep gw rfl cold now s hs
    have hempty := loadAliasMap_empty hload
    exact ⟨mismatchExact_of_keeps hs hempty hkeep,servedByOne_of_keeps hs hempty hkeep⟩

def glmFile : Json :=
  .dict [("model_list", .list [.dict [("model_name", .str "glm-5.1"),
    ("litellm_params", .dict [("model", .str "dashscope/glm-5.1")])]])]

def glmAliases : AliasMap := (loadAliasMap (some glmFile)).toOption.get rfl

theorem provider_check_exact_iff_glm :
    (∀ gw : Gateway, gw.aliasMap = glmAliases → ∀ cold now s,
      Reach (step gw) (fun _ _ => True) (.initial cold now) s → MismatchExact gw s ∧ ServedByOne s) ↔
    KeepsProviders glmAliases :=
  @provider_check_exact_iff (some glmFile) glmAliases rfl

theorem glm_let_through : ∃ s, Reach (step (gatewayWith glmAliases)) (fun _ _ => True) (.initial none 0) s ∧
    ¬ MismatchExact (gatewayWith glmAliases) s := by
  refine ⟨rivalState glmAliases "openai" "gpt-4o" "glm-5.1",rivalRun_reached rfl rfl rfl,fun h => ?_⟩
  have hexact := h (follower "openai" "glm-5.1") (by simp [rivalState]) "resp_1"
    (askedRow glmAliases "openai" "gpt-4o") rfl rfl rfl (askedDone glmAliases "openai" "gpt-4o")
    (by simp [rivalState]) rfl "dashscope/glm-5.1" "gpt-4o" rfl rfl
  have hdiffer : providerFromModel (.str "dashscope/glm-5.1") ≠ providerFromModel (.str "gpt-4o") := by
    decide
  obtain ⟨a,b,hchecked⟩ := hexact.mpr hdiffer
  cases hchecked

end ResponsesGateway
