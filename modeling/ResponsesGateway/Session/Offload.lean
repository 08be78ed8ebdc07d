import ResponsesGateway.Session.Recorder
import ResponsesGateway.Session.Resolver

namespace ResponsesGateway

open SessionResolver SessionRecorder

theorem request_not_in_input (request : JsonDict) : (Json.obj request).value ∉
    (normalizeCurrentInput (request.getD "input" (.list []))).map Json.value := by
  intro hm
  obtain ⟨x,hx,hvalue⟩ := List.mem_map.mp hm
  have hnodes : x.nodes = (Json.obj request).nodes := by rw [← Json.nodes_value x, hvalue, Json.nodes_value]
  cases hg : request.get? "input" with
  | none => simp [Dict.getD, hg, normalizeCurrentInput] at hx
  | some v =>
    have hlt := Json.nodes_lt_of_get? hg
    simp only [Dict.getD, hg, Option.getD_some] at hx
    cases v with
    | str s =>
      obtain rfl := List.mem_singleton.mp hx
      have hdict : Json.dict [("role", .str "user"), ("content", .str s)] =
          .obj (.ofEntries [("role", .str "user"), ("content", .str s)]) := rfl
      rw [hdict] at hvalue
      obtain ⟨w,hw,-⟩ := Json.value_get? hvalue.symm hg
      simp [Dict.ofEntries, Dict.setAll] at hw
    | list xs =>
      have := Json.nodes_lt_of_mem (show x ∈ xs from hx)
      omega
    | dict fs =>
      obtain rfl := List.mem_singleton.mp hx
      omega
    | _ => simp [normalizeCurrentInput] at hx

section Messages

variable {recorder : SessionRecorder} {env : RecordEnv} {c : RecordCall} {cold : Option ColdStorage}
  {objects : ColdStorage} {key : String} {items : List Json}

theorem rowMessages_inlineRow (hout : c.responsePayload.get? "output" = some (.list items)) :
    rowMessages cold (recorder.inlineRow env c) =
      .ok (extractNonSystemInput (c.originalRequest.getD "input" (.list [])) ++
        items.flatMap outputMessage) := by
  have hi : (recorder.inlineRow env c).inputJson = some c.originalRequest := rfl
  have ho : (recorder.inlineRow env c).outputJson = some c.responsePayload := rfl
  rw [rowMessages_inline rfl hi ho]
  simp [Dict.getD, hout, Json.iter, bind, Except.bind, pure, Except.pure]

theorem outputMessage_str (s : String) : outputMessage (.str s) = [] := rfl

theorem rowMessages_offloadedRow (hkey : key ≠ "") (hget : objects.get key = .ok c.coldPayload) :
    rowMessages (some objects) (offloadedRow (recorder.inlineRow env c) key) =
      .ok (if isSystem (.obj c.originalRequest) then [] else [.obj c.originalRequest]) := by
  have hk : coldKey? (offloadedRow (recorder.inlineRow env c) key) = some key := by
    simp [coldKey?, offloadedRow, hkey]
  have hp (field : String) : payload (some objects) (offloadedRow (recorder.inlineRow env c) key)
      field = .ok (.ofEntries [(field, c.coldPayload.getD field (.list []))]) := by
    simp [payload, hk, hget, bind, Except.bind, pure, Except.pure]
  have hi : c.coldPayload.getD "input" (.list []) = .obj c.originalRequest := rfl
  have ho : c.coldPayload.getD "output" (.list []) = .obj c.responsePayload := rfl
  have hone (field : String) (v : Json) : (Dict.ofEntries [(field, v)]).getD field (.list []) = v := by
    simp [Dict.getD, Dict.ofEntries, Dict.setAll]
  have hkeys : (c.responsePayload.keys.map Json.str).flatMap outputMessage = [] := by
    simp [outputMessage_str]
  simp only [rowMessages, hp, hi, ho, hone, bind, Except.bind, pure, Except.pure, Json.iter, Json.obj,
    Dict.ofEntries_entries, liftPy_ok, hkeys, List.append_nil, extractNonSystemInput,
    normalizeCurrentInput]
  by_cases h : isSystem (.dict c.originalRequest.entries) = true <;> simp [h]

end Messages

/-- The request alone would be dropped as a system item, and the turn left nothing else behind. -/
def LeavesNoTrace (request : JsonDict) (items : List Json) : Prop :=
  request.get "role" = .str "system" ∧
  (∀ item ∈ normalizeCurrentInput (request.getD "input" (.list [])), isSystem item = true) ∧
  ∀ item ∈ items, outputMessage item = []

/-- The turn has no input, and the one message it put out reads like its request. -/
def AnswersItself (request : JsonDict) (items : List Json) : Prop :=
  request.get "role" ≠ .str "system" ∧
  (∀ item ∈ normalizeCurrentInput (request.getD "input" (.list [])), isSystem item = true) ∧
  (items.flatMap outputMessage).map Json.value = [(Json.obj request).value]

theorem isSystem_obj (request : JsonDict) :
    isSystem (.obj request) = true ↔ request.get "role" = .str "system" := by
  simp [isSystem]

theorem extract_eq_nil (items : Json) :
    extractNonSystemInput items = [] ↔ ∀ item ∈ normalizeCurrentInput items, isSystem item = true := by
  simp [extractNonSystemInput, List.filter_eq_nil_iff]

section Swap

variable {recorder recorder' : SessionRecorder} {env : RecordEnv} {c c' : RecordCall}
  {store s s' : SessionStore} {objects : ColdStorage} {cold cold' cold'' : Option ColdStorage} {key : String}

theorem record_inv (hstore : c.storeFlag.truthy = true)
    (h : recorder.record store cold env c = (s, cold', .ok ())) :
    (recorder.prepare cold env c).2 = cold' ∧
      s.rows = store.rows ++ [(recorder.prepare cold env c).1] := by
  obtain ⟨-,hc,-,hi⟩ := (record_ok_iff hstore).mp h
  exact ⟨hc,(SessionStore.insert_eq_ok_iff.mp hi).2⟩

theorem swapped_rows {row row' : SessionRecord}
    (hs : s.rows = store.rows ++ [row]) (hs' : s'.rows = store.rows ++ [row'])
    (hid : row.id = row'.id) (hsame : SameTurn cold cold' row row')
    (hother : ∀ r ∈ store.rows, rowMessages cold r = rowMessages cold' r) (id : String) :
    Option.Rel (SameTurn cold cold') (s.getById id) (s'.getById id) := by
  simp only [SessionStore.getById, hs, hs', List.find?_append]
  cases hf : store.rows.find? (fun r => r.id = id) with
  | some r => exact .some (.refl (hother r (List.mem_of_find?_eq_some hf)))
  | none =>
    by_cases h : row.id = id
    · have h' : row'.id = id := hid ▸ h
      simpa [h, h'] using Option.Rel.some hsame
    · have h' : row'.id ≠ id := hid ▸ h
      simp [h, h']

def FreshKey (env : RecordEnv) (store : SessionStore) : Prop :=
  ∀ key, env.put = .ok key → key ≠ "" ∧ ∀ row ∈ store.rows, row.coldStorageKey ≠ some key

theorem rowMessages_prepare (hfresh : FreshKey env store) {row : SessionRecord}
    (hrow : row ∈ store.rows) :
    rowMessages cold row = rowMessages (recorder.prepare cold env c).2 row := by
  rcases prepare_cases recorder cold env c with he | ⟨objects,key,rfl,-,hput,he⟩
  · rw [he]
  · rw [he]
    exact rowMessages_put _ ((hfresh key hput).2 row hrow)

structure SameColumns (recorder recorder' : SessionRecorder) (c c' : RecordCall) : Prop where
  ttl : recorder.ttl = recorder'.ttl
  responseId : c.responseId = c'.responseId
  sessionId : c.sessionId = c'.sessionId
  parentId : c.parentId = c'.parentId
  provider : c.provider = c'.provider

theorem resolve_swapped (hcols : SameColumns recorder recorder' c c') (hfresh : FreshKey env store)
    (hstore : c.storeFlag.truthy = true) (hstore' : c'.storeFlag.truthy = true)
    (h : recorder.record store cold env c = (s, cold', .ok ()))
    (h' : recorder'.record store cold env c' = (s', cold'', .ok ()))
    (hm : SameMessages (rowMessages (recorder.prepare cold env c).2 (recorder.prepare cold env c).1)
      (rowMessages (recorder'.prepare cold env c').2 (recorder'.prepare cold env c').1))
    (now : Time) (request : JsonDict) (provider : String) :
    (resolve s cold' now request provider).map ResolvedRequest.value =
      (resolve s' cold'' now request provider).map ResolvedRequest.value := by
  obtain ⟨rfl,hrows⟩ := record_inv hstore h
  obtain ⟨rfl,hrows'⟩ := record_inv hstore' h'
  obtain ⟨hid,hparent,hsession,hprov,httl⟩ := prepare_columns recorder cold env c
  obtain ⟨hid',hparent',hsession',hprov',httl'⟩ := prepare_columns recorder' cold env c'
  apply resolve_congr (by simp [hrows, hrows'])
  apply swapped_rows hrows hrows' (by rw [hid, hid', hcols.responseId])
  · refine ⟨by rw [hparent, hparent', hcols.parentId],?_,by rw [hprov, hprov', hcols.provider],
      by rw [httl, httl', hcols.ttl],hm⟩
    rw [hsession, hsession']
    simp only [inlineRow, hcols.sessionId]
  · intro row hrow
    rw [← rowMessages_prepare hfresh hrow, ← rowMessages_prepare hfresh hrow]

def inlineMessages (request : JsonDict) (items : List Json) : List Json :=
  extractNonSystemInput (request.getD "input" (.list [])) ++ items.flatMap outputMessage

def offloadedMessages (request : JsonDict) : List Json :=
  if isSystem (.obj request) then [] else [.obj request]

def Offloads (recorder : SessionRecorder) (cold : Option ColdStorage) (env : RecordEnv)
    (c : RecordCall) : Prop :=
  cold.isSome = true ∧ recorder.threshold < c.size ∧ ∃ key, env.put = .ok key

variable (recorder cold env) in
theorem rowMessages_prepared_inline {items : List Json}
    (hout : c.responsePayload.get? "output" = some (.list items)) (h : ¬ Offloads recorder cold env c) :
    rowMessages (recorder.prepare cold env c).2 (recorder.prepare cold env c).1 =
      .ok (inlineMessages c.originalRequest items) := by
  rcases prepare_cases recorder cold env c with he | ⟨objects,key,rfl,hlt,hput,-⟩
  · rw [he]; exact rowMessages_inlineRow hout
  · exact absurd ⟨rfl,hlt,key,hput⟩ h

variable (recorder cold env) in
theorem rowMessages_prepared_offloaded (hfresh : FreshKey env store)
    (h : Offloads recorder cold env c) :
    rowMessages (recorder.prepare cold env c).2 (recorder.prepare cold env c).1 =
      .ok (offloadedMessages c.originalRequest) := by
  obtain ⟨hcold,hlt,key,hput⟩ := h
  obtain ⟨objects,rfl⟩ := Option.isSome_iff_exists.mp hcold
  have he : recorder.prepare (some objects) env c =
      (offloadedRow (recorder.inlineRow env c) key, some (objects.put key c.coldPayload)) := by
    simp [prepare, hlt, hput]
  rw [he]
  exact rowMessages_offloadedRow (hfresh key hput).1 (ColdStorage.get_put_self _ _ _)

end Swap

def SameFollowUps (recorder recorder' : SessionRecorder) (cold : Option ColdStorage)
    (c c' : RecordCall) : Prop :=
  ∀ (env : RecordEnv) (store : SessionStore) (s s' : SessionStore × Option ColdStorage),
    Representable env.now → FreshKey env store → recorder.record store cold env c = (s.1, s.2, .ok ()) →
    recorder'.record store cold env c' = (s'.1, s'.2, .ok ()) → ∀ now request provider,
      (resolve s.1 s.2 now request provider).map ResolvedRequest.value =
        (resolve s'.1 s'.2 now request provider).map ResolvedRequest.value

def OffloadInvisible (c : RecordCall) : Prop :=
  ∀ (recorder : SessionRecorder) (objects : ColdStorage), recorder.threshold < c.size →
    SameFollowUps { recorder with threshold := c.size } recorder (some objects) c c

theorem RecordCall.size_pos (c : RecordCall) : 0 < c.size := by
  have hd (d : JsonDict) : 0 < (Json.dumps (.obj d)).length := by
    simp only [Json.obj, Json.dumps, String.length_append]
    have : "\x7b".length = 1 := rfl
    omega
  have := hd c.originalRequest
  unfold RecordCall.size
  omega

def followUp (c : RecordCall) : JsonDict := .ofEntries [("previous_response_id", .str c.responseId)]

theorem resolve_single {store : SessionStore} {cold : Option ColdStorage} {row : SessionRecord}
    {c : RecordCall} {messages : List Json} {now : Time} (hrows : store.rows = [row])
    (hid : row.id = c.responseId) (hne : c.responseId ≠ "") (hprov : row.provider = c.provider)
    (httl : row.ttlAt = some now) (hm : rowMessages cold row = .ok messages) :
    resolve store cold now (followUp c) c.provider =
      .ok ⟨rewrite (followUp c) messages, some row.sessionId, some c.responseId⟩ := by
  have hg : store.getById c.responseId = some row :=
    SessionStore.getById_eq_some_iff.mpr ⟨by simp [hrows],hid⟩
  have hnamed : namedId (followUp c) = .ok (some c.responseId) := by
    simp [namedId, followUp, Dict.get, Dict.getD, Dict.ofEntries, Dict.setAll, Json.truthy, hne]
  have hchecked : checkParent now c.responseId c.provider (some row) = .ok row := by
    simp [checkParent, SessionRecord.expired, httl, hprov]
  have hchain : walkParentChain store c.responseId = [row] := by
    have hstart : (Walk.start c.responseId : ChainWalk).next? = some c.responseId := by
      simp [Walk.next?_eq_some, Walk.start]
    have hother : ∀ k, k ∉ [c.responseId] → store.getById k = none := by
      intro k hk
      rw [SessionStore.getById_eq_none_iff, hrows]
      simpa [hid] using hk
    rw [walkParentChain, hrows, List.length_singleton, Function.iterate_succ_apply]
    simp only [walkStep, Walk.step_of_found hstart hg, Function.iterate_one]
    rw [Walk.chain_step_of_unknown hother]
    rfl
  simp [resolve, hnamed, hg, hchecked, hchain, reconstructMessages, hm, bind, Except.bind, pure,
    Except.pure]

theorem value_rewrite_inj {request : JsonDict} {history history' : List Json}
    (h : (Json.obj (rewrite request history)).value = (Json.obj (rewrite request history')).value) :
    history.map Json.value = history'.map Json.value := by
  have hinput (history : List Json) : (rewrite request history).get? "input" =
      some (.list (history ++ normalizeCurrentInput (request.getD "input" (.list [])))) := by simp [rewrite]
  obtain ⟨w,hw,hvalue⟩ := Json.value_get? h (hinput history)
  obtain rfl := Option.some.inj ((hinput history').symm.trans hw)
  simpa [Json.value_list_inj] using hvalue

def probe (now : Time) : RecordEnv := ⟨now, "session", .ok "key", none⟩

theorem freshKey_probe (now : Time) : FreshKey (probe now) .empty := by
  intro key hkey
  simp only [probe, Except.ok.injEq] at hkey
  exact ⟨by simp [← hkey],by simp [SessionStore.empty]⟩

theorem messages_agree {recorder recorder' : SessionRecorder} {c c' : RecordCall} {now : Time}
    {cold : Option ColdStorage} {messages messages' : List Json}
    (hcols : SameColumns recorder recorder' c c') (hid : c.responseId ≠ "")
    (hstore : c.storeFlag.truthy = true) (hstore' : c'.storeFlag.truthy = true)
    (h : SameFollowUps recorder recorder' cold c c') (hnow : Representable now)
    (hlast : Representable (now + recorder.ttl))
    (hm : rowMessages (recorder.prepare cold (probe now) c).2
      (recorder.prepare cold (probe now) c).1 = .ok messages)
    (hm' : rowMessages (recorder'.prepare cold (probe now) c').2
      (recorder'.prepare cold (probe now) c').1 = .ok messages') :
    messages.map Json.value = messages'.map Json.value := by
  have hrecord (r : SessionRecorder) (c : RecordCall) (hs : c.storeFlag.truthy = true)
      (ht : r.ttl = recorder.ttl) : r.record .empty cold (probe now) c =
        (⟨[(r.prepare cold (probe now) c).1], List.nodup_singleton _⟩, (r.prepare cold (probe now) c).2, .ok ()) := by
    rw [record_ok_iff hs, ht]
    exact ⟨hlast,rfl,rfl,rfl⟩
  obtain ⟨hid₁,-,-,hprov,httl⟩ := prepare_columns recorder cold (probe now) c
  obtain ⟨hid₂,-,-,hprov',httl'⟩ := prepare_columns recorder' cold (probe now) c'
  have hsame := h (probe now) .empty (_,_) (_,_) hnow (freshKey_probe now) (hrecord _ _ hstore rfl)
    (hrecord _ _ hstore' hcols.ttl.symm) ((probe now).now + recorder.ttl) (followUp c) c.provider
  rw [resolve_single rfl hid₁ hid hprov httl hm,
    resolve_single rfl (hid₂.trans hcols.responseId.symm) hid (hprov'.trans hcols.provider.symm)
      (by rw [httl', hcols.ttl]) hm'] at hsame
  simp only [Except.map, ResolvedRequest.value, Except.ok.injEq, Prod.mk.injEq] at hsame
  exact value_rewrite_inj hsame.1

theorem sameFollowUps_iff {recorder recorder' : SessionRecorder} {c c' : RecordCall}
    {cold : Option ColdStorage} {items : List Json} (hcols : SameColumns recorder recorder' c c')
    (hid : c.responseId ≠ "") (hstore : c.storeFlag.truthy = true) (hstore' : c'.storeFlag.truthy = true)
    (hreq : c'.originalRequest = c.originalRequest)
    (hout : c.responsePayload.get? "output" = some (.list items))
    (hout' : c'.responsePayload.get? "output" = some (.list items)) :
    SameFollowUps recorder recorder' cold c c' ↔
      (∀ now, Representable now → ¬ Representable (now + recorder.ttl)) ∨
        cold = none ∨ (recorder.threshold < c.size ↔ recorder'.threshold < c'.size) ∨
        (inlineMessages c.originalRequest items).map Json.value =
          (offloadedMessages c.originalRequest).map Json.value := by
  constructor
  · intro h
    by_contra hn
    simp only [not_or, not_forall, not_not] at hn
    obtain ⟨⟨now,hnow,hlast⟩,hcold,hside,hne⟩ := hn
    have hsome : cold.isSome = true := Option.isSome_iff_ne_none.mpr hcold
    have hfresh := freshKey_probe now
    by_cases hlt : recorder.threshold < c.size
    · have hlt' : ¬ recorder'.threshold < c'.size := fun h' => hside ⟨fun _ => h',fun _ => hlt⟩
      have hm := rowMessages_prepared_offloaded recorder (probe now) cold hfresh ⟨hsome,hlt,"key",rfl⟩
      have hm' := rowMessages_prepared_inline recorder' (probe now) cold hout' (fun ho => hlt' ho.2.1)
      rw [hreq] at hm'
      exact hne (messages_agree hcols hid hstore hstore' h hnow hlast hm hm').symm
    · have hlt' : recorder'.threshold < c'.size := by
        by_contra h'
        exact hside ⟨fun hc => absurd hc hlt,fun hc => absurd hc h'⟩
      have hm := rowMessages_prepared_inline recorder (probe now) cold hout (fun ho => hlt ho.2.1)
      have hm' := rowMessages_prepared_offloaded recorder' (probe now) cold hfresh ⟨hsome,hlt', "key",rfl⟩
      rw [hreq] at hm'
      exact hne (messages_agree hcols hid hstore hstore' h hnow hlast hm hm')
  · intro h env store s s' hnow hfresh hs hs'
    have hlast := ((record_ok_iff hstore).mp hs).1
    replace h := h.resolve_left (fun hnever => hnever _ hnow hlast)
    apply resolve_swapped hcols hfresh hstore hstore' hs hs'
    have hinline := rowMessages_prepared_inline recorder env cold hout
    have hinline' := rowMessages_prepared_inline recorder' env cold hout'
    rw [hreq] at hinline'
    by_cases ho : Offloads recorder cold env c <;> by_cases ho' : Offloads recorder' cold env c'
    · rw [rowMessages_prepared_offloaded recorder env cold hfresh ho,
        rowMessages_prepared_offloaded recorder' env cold hfresh ho', hreq, sameMessages_ok]
    · rw [rowMessages_prepared_offloaded recorder env cold hfresh ho, hinline' ho', sameMessages_ok]
      rcases h with rfl | hside | hm
      · exact absurd ho.1 (by simp)
      · exact absurd ⟨ho.1,hside.mp ho.2.1,ho.2.2⟩ ho'
      · exact hm.symm
    · rw [hinline ho, rowMessages_prepared_offloaded recorder' env cold hfresh ho', hreq, sameMessages_ok]
      rcases h with rfl | hside | hm
      · exact absurd ho'.1 (by simp)
      · exact absurd ⟨ho'.1,hside.mpr ho'.2.1,ho'.2.2⟩ ho
      · exact hm
    · rw [hinline ho, hinline' ho', sameMessages_ok]

theorem offloadInvisible_iff_same_messages {c : RecordCall} {items : List Json}
    (hid : c.responseId ≠ "") (hstore : c.storeFlag.truthy = true)
    (hout : c.responsePayload.get? "output" = some (.list items)) :
    OffloadInvisible c ↔
      (inlineMessages c.originalRequest items).map Json.value =
        (offloadedMessages c.originalRequest).map Json.value := by
  have hcols (recorder : SessionRecorder) :
      SameColumns { recorder with threshold := c.size } recorder c c := ⟨rfl,rfl,rfl,rfl,rfl⟩
  constructor
  · intro h
    have hsize := c.size_pos
    have hsame := h ⟨0, 0⟩ .empty hsize
    rw [sameFollowUps_iff (hcols _) hid hstore hstore rfl hout hout] at hsame
    have hdated : ¬ ∀ now, Representable now → ¬ Representable (now + 0) :=
      fun hnever => hnever 0 (by decide) (by decide)
    simpa [hsize] using hsame.resolve_left hdated
  · intro hm recorder objects _
    rw [sameFollowUps_iff (hcols recorder) hid hstore hstore rfl hout hout]
    exact .inr (.inr (.inr hm))

theorem same_messages_iff (request : JsonDict) (items : List Json) :
    (inlineMessages request items).map Json.value = (offloadedMessages request).map Json.value ↔
      LeavesNoTrace request items ∨ AnswersItself request items := by
  unfold inlineMessages offloadedMessages
  by_cases hs : isSystem (.obj request) = true
  · have hr := (isSystem_obj request).mp hs
    rw [if_pos hs, List.map_nil, List.map_eq_nil_iff, List.append_eq_nil_iff, extract_eq_nil,
      List.flatMap_eq_nil_iff]
    simp [LeavesNoTrace, AnswersItself, hr]
  · have hr : request.get "role" ≠ .str "system" := fun h => hs ((isSystem_obj request).mpr h)
    have hne : (extractNonSystemInput (request.getD "input" (.list []))).map Json.value ≠
        [(Json.obj request).value] := by
      intro he
      have hm : (Json.obj request).value ∈
          (extractNonSystemInput (request.getD "input" (.list []))).map Json.value := by simp [he]
      exact request_not_in_input request (List.map_subset _ (List.filter_subset_self _) hm)
    rw [if_neg hs, List.map_append, List.map_singleton, List.append_eq_singleton_iff, List.map_eq_nil_iff,
      extract_eq_nil]
    simp [LeavesNoTrace, AnswersItself, hr, hne]

-- The order of the request's keys does not count.
example : AnswersItself (.ofEntries [("content", .str "x"), ("role", .str "assistant")])
    [.dict [("type", .str "message"), ("content", .str "x")]] := by
  unfold AnswersItself
  decide

theorem offload_invisible_iff {c : RecordCall} {items : List Json} (hid : c.responseId ≠ "")
    (hstore : c.storeFlag.truthy = true)
    (hout : c.responsePayload.get? "output" = some (.list items)) :
    OffloadInvisible c ↔
      LeavesNoTrace c.originalRequest items ∨ AnswersItself c.originalRequest items := by
  rw [offloadInvisible_iff_same_messages hid hstore hout, same_messages_iff]

def greeting : RecordCall where
  responseId := "resp_1"
  originalRequest := .ofEntries [("model", .str "deepseek/deepseek-chat"), ("input", .str "hi")]
  responsePayload := .ofEntries [("id", .str "resp_1"), ("output", .list [])]
  provider := "deepseek"
  model := .str "deepseek/deepseek-chat"
  sessionId := none
  parentId := none
  storeFlag := .bool true

theorem offload_invisible_iff_greeting : OffloadInvisible greeting ↔
    LeavesNoTrace greeting.originalRequest [] ∨ AnswersItself greeting.originalRequest [] :=
  offload_invisible_iff (by decide) (by decide) (by decide)

theorem greeting_offload_visible : ¬ OffloadInvisible greeting := by
  rw [@offloadInvisible_iff_same_messages greeting [] (by decide) (by decide) (by decide)]
  decide

end ResponsesGateway
