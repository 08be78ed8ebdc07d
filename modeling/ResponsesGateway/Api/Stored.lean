import ResponsesGateway.Api.Durability
import ResponsesGateway.Api.Wire
import ResponsesGateway.Cleaning
import ResponsesGateway.Storage.Backends

namespace ResponsesGateway

open SessionResolver SessionRecorder

def TextDelta (e : Event) : Prop :=
  etype e = .outputTextDelta ∨ etype e = .functionCallArgumentsDelta →
    ∀ delta, e.get? "delta" = some delta → ∃ s, delta = .str s

structure StreamBridge.Loadable (b : StreamBridge) : Prop where
  final : (Json.obj b.finalResponse).Loadable
  items : ∀ k item, b.itemsById.get? k = some item → (Json.obj item).Loadable

section Bridge

variable {b b' : StreamBridge} {e e' : Event} {item item' : JsonDict}

theorem TextDelta.getD (h : TextDelta e)
    (ht : etype e = .outputTextDelta ∨ etype e = .functionCallArgumentsDelta) :
    ∃ s, e.getD "delta" (.str "") = .str s := by
  cases hd : e.get? "delta" with
  | none => exact ⟨"",by simp [Dict.getD, hd]⟩
  | some delta =>
    obtain ⟨s,rfl⟩ := h ht delta hd
    exact ⟨s,by simp [Dict.getD, hd]⟩

theorem TextDelta.rewritten (h : TextDelta e) (hr : Rewritten e e') : TextDelta e' := by
  cases hr with
  | same => exact h
  | response hresp =>
    intro ht delta hd
    have htype (x : Json) : etype (e.set "response" x) = etype e := by simp [etype, Dict.get, Dict.getD]
    rw [htype] at ht
    exact h ht delta (by simpa using hd)

theorem loadable_add_str {a r : Json} {s : String} (h : a.add (.str s) = .ok r) : r.Loadable := by
  cases a <;> simp [Json.add, Json.whole?] at h
  subst h
  trivial

theorem loadable_iadd_str {a r : Json} {s : String} (ha : a.Loadable) (h : a.iadd (.str s) = .ok r) :
    r.Loadable := by
  cases a with
  | list xs =>
    cases h
    refine Json.loadableItems_iff.mpr fun x hx => ?_
    rcases List.mem_append.mp hx with hx | hx
    · exact Json.loadableItems_iff.mp ha x hx
    · obtain ⟨c,-,rfl⟩ := List.mem_map.mp hx
      trivial
  | _ =>
    simp only [Json.iadd] at h
    exact loadable_add_str h

theorem loadable_openTextPart {parts front : List Json} {part : JsonDict} (h : ∀ x ∈ parts, x.Loadable)
    (ho : openTextPart parts = .ok (front, part)) :
    (∀ x ∈ front, x.Loadable) ∧ (Json.obj part).Loadable := by
  have hnew : (Json.obj newTextPart).Loadable := Json.loadable_ofEntries (by simp [Json.Loadable])
  unfold openTextPart at ho
  split at ho
  · cases ho
    exact ⟨h,hnew⟩
  · next last hlast =>
    obtain ⟨d,hd,ho⟩ := Except.bind_eq_ok_iff.mp ho
    split at ho <;> cases ho
    · exact ⟨fun x hx => h x (List.dropLast_subset _ hx),(h _ (List.mem_of_getLast? hlast)).methods hd⟩
    · exact ⟨h,hnew⟩

theorem loadable_appendText {s : String} (h : (Json.obj item).Loadable)
    (ha : appendText item (.str s) = .ok item') : (Json.obj item').Loadable := by
  have hnone : (Json.list []).Loadable := trivial
  have hcontent := h.getD "content" hnone
  unfold appendText at ha
  split at ha
  · next parts hparts =>
    rw [hparts] at hcontent
    obtain ⟨⟨front,part⟩,hopen,ha⟩ := Except.bind_eq_ok_iff.mp ha
    obtain ⟨hfront,hpart⟩ := loadable_openTextPart (Json.loadableItems_iff.mp hcontent) hopen
    dsimp only at ha
    split at ha
    · cases ha
    · next text htext =>
      obtain ⟨text',htext',ha⟩ := Except.bind_eq_ok_iff.mp ha
      cases ha
      have hnew := loadable_iadd_str (Json.loadable_obj_iff.mp hpart _ _ htext) htext'
      refine h.set "content" (Json.loadableItems_iff.mpr fun x hx => ?_)
      rcases List.mem_append.mp hx with hx | hx
      · exact hfront x hx
      · rw [List.mem_singleton.mp hx]
        exact hpart.set "text" hnew
  · split at ha
    · split at ha <;> cases ha
    · cases ha

namespace StreamBridge

theorem Loadable.storeItem (h : b.Loadable) (k : Key) (hi : (Json.obj item).Loadable) :
    (b.storeItem k item).Loadable := by
  refine ⟨h.final,fun j found hj => ?_⟩
  simp only [StreamBridge.storeItem, Dict.get?_set] at hj
  split at hj
  · cases hj; exact hi
  · exact h.items j found hj

theorem Loadable.appendItem (h : b.Loadable) (k : Key) (hi : (Json.obj item).Loadable) :
    (b.appendItem k item).Loadable :=
  ⟨h.final,(h.storeItem k hi).items⟩

theorem Loadable.latest (h : b.Loadable) {type : String} {k : Key}
    (hl : b.latestItemOfType type = some (k, item)) : (Json.obj item).Loadable := by
  obtain ⟨j,-,hj⟩ := List.exists_of_findSome?_eq_some hl
  obtain ⟨found,hfound,hj⟩ := Option.bind_eq_some_iff.mp hj
  split at hj <;> cases hj
  exact h.items k item hfound

theorem Loadable.consume (h : b.Loadable) (he : (Json.obj e).Loadable) (hd : TextDelta e)
    (hc : b.consume e = .ok b') : b'.Loadable := by
  have hnone : (Json.dict []).Loadable := ⟨List.nodup_nil,trivial⟩
  have hresponse := he.getD "response" hnone
  have hitem {item : JsonDict} {k : Key} (hcarries : Carries e item k) : (Json.obj item).Loadable :=
    (he.getD "item" hnone).methods hcarries.1
  cases consume_ok_iff.mp hc with
  | created _ hu => exact ⟨h.final.updateFrom hresponse hu,h.items⟩
  | added _ hcarries => exact h.appendItem _ (hitem hcarries)
  | done _ hcarries => exact h.storeItem _ (hitem hcarries)
  | extended ht hl ha =>
    obtain ⟨s,hs⟩ := hd.getD (.inl ht)
    rw [hs] at ha
    exact h.storeItem _ (loadable_appendText (h.latest hl) ha)
  | argued ht _ _ hheld ha =>
    obtain ⟨s,hs⟩ := hd.getD (.inr ht)
    rw [hs] at ha
    exact h.storeItem _ ((h.items _ _ hheld).set "arguments" (loadable_add_str ha))
  | used _ hr _ => exact ⟨h.final.set "usage" ((hresponse.methods hr).get "usage"),h.items⟩
  | _ => exact h

theorem Loadable.forward {es : List Event} (h : b.Loadable) (he : ∀ e ∈ es, (Json.obj e).Loadable)
    (hd : ∀ e ∈ es, TextDelta e) (hf : (b.forward es).2 = .ok b') : b'.Loadable := by
  induction es generalizing b with
  | nil => cases hf; exact h
  | cons e es ih =>
    obtain ⟨b₁,hc,hrest⟩ := forward_cons_ok_iff.mp hf
    have hb₁ := h.consume (he e List.mem_cons_self) (hd e List.mem_cons_self) hc
    exact ih hb₁ (fun x hx => he x (List.mem_cons_of_mem _ hx)) (fun x hx => hd x (List.mem_cons_of_mem _ hx)) hrest

theorem Loadable.teeEvent (h : b.Loadable) (he : (Json.obj e).Loadable) (hd : TextDelta e)
    (ht : (b.teeEvent e).2 = .ok b') : b'.Loadable := by
  obtain ⟨e',b₁,synth,hr,hs,hf⟩ := teeEvent_ok_iff.mp ht
  have hrewritten := maybeRewriteId_ok hr
  have he' := loadable_rewritten he hrewritten
  obtain ⟨hsame,hsynth⟩ := synthesizeMissingAnnouncements_ok hs
  have hb₁ : b₁.Loadable := ⟨by rw [hsame.finalResponse]; exact h.final,by rw [hsame.itemsById]; exact h.items⟩
  refine hb₁.forward ?_ ?_ hf
  · intro x hx
    rcases List.mem_append.mp hx with hx | hx
    · exact loadable_synthesized he' hs x hx
    · rwa [List.mem_singleton.mp hx]
  · intro x hx
    rcases List.mem_append.mp hx with hx | hx
    · intro htype
      rcases hsynth x hx with ha | ha <;> rw [ha] at htype <;> rcases htype with h | h <;> cases h
    · rw [List.mem_singleton.mp hx]
      exact hd.rewritten hrewritten

theorem loadable_init (rewriteId : Option String) : (init rewriteId).Loadable :=
  ⟨Json.loadable_ofEntries (by simp [Json.Loadable, Json.LoadableItems, Json.LoadableFields]),
    fun k item h => by simp [init, Dict.empty, Dict.get?] at h⟩

theorem Loadable.finalState (h : b.Loadable) : (Json.obj b.finalState).Loadable := by
  refine h.final.set "output" (Json.loadableItems_iff.mpr fun x hx => ?_)
  obtain ⟨item,hm,rfl⟩ := List.mem_map.mp hx
  obtain ⟨k,-,hk⟩ := mem_items.mp hm
  exact h.items k item hk

end StreamBridge

end Bridge

section Requests

variable {cfg : RejectConfig} {provider : String} {payload request request' : JsonDict}
  {stripped : List (String × String)}

theorem loadable_of_thinner (h : (Json.obj request).Loadable)
    (hget : ∀ key, request'.get? key = request.get? key ∨ request'.get? key = none) :
    (Json.obj request').Loadable := by
  refine Json.loadable_obj_iff.mpr fun key v hv => ?_
  rcases hget key with hsame | hnone
  · exact Json.loadable_obj_iff.mp h key v (hsame.symm.trans hv)
  · rw [hnone] at hv
    cases hv

theorem loadable_erase (h : (Json.obj request).Loadable) (key : String) :
    (Json.obj (request.erase key)).Loadable := by
  refine loadable_of_thinner h fun k => ?_
  rw [Dict.get?_erase]
  split
  · exact .inr rfl
  · exact .inl rfl

theorem popAll_subset (tools : List Json) (drop : List ℕ) : Validator.popAll tools drop ⊆ tools := by
  induction drop with
  | nil => exact fun _ h => h
  | cons i drop ih =>
    rw [Validator.popAll_cons]
    exact fun _ hx => ih (List.mem_of_mem_eraseIdx hx)

theorem loadable_validateTools (h : (Json.obj request).Loadable)
    (hv : Validator.validateTools cfg provider request = .ok (stripped, request')) :
    (Json.obj request').Loadable := by
  have hget := h.get "tools"
  unfold Validator.validateTools at hv
  dsimp only at hv
  split at hv
  · next ts hts =>
    have hitems : ∀ x ∈ ts, x.Loadable := by
      split at hts
      · rw [hts] at hget
        exact Json.loadableItems_iff.mp hget
      · cases hts; simp
    obtain ⟨⟨found,drop⟩,-,hv⟩ := Except.bind_eq_ok_iff.mp hv
    have hleft : ∀ x ∈ Validator.popAll ts drop, x.Loadable := fun x hx => hitems x (popAll_subset ts drop hx)
    dsimp only at hv
    split at hv <;> cases hv
    · exact loadable_erase h "tools"
    · exact h.set "tools" (Json.loadableItems_iff.mpr hleft)
  · cases hv; exact h

theorem loadable_received {gw : Gateway} {turn : Turn} (h : (Json.obj payload).Loadable)
    (hr : receive gw payload = .ok turn) : (Json.obj turn.payload).Loadable := by
  obtain ⟨provider,stripped,request,-,hv,rfl⟩ := receive_eq_ok hr
  obtain ⟨tools,request₁,values,request₂,present,htools,hvalues,hpresent,-⟩ := Validator.validate_inv hv
  have h₁ := loadable_validateTools h htools
  have h₂ := loadable_of_thinner h₁ fun key => (Validator.pass_get? hvalues).imp_right And.right
  have h₃ := loadable_of_thinner h₂ fun key => (Validator.pass_get? hpresent).imp_right And.right
  exact loadable_erase h₃ "store"

end Requests

/-- What comes in are values of JSON, and the deltas of a stream are texts. -/
def Given : Action → Prop
  | .receive payload _ => (Json.obj payload).Loadable
  | .move _ (.respond (.ok answer)) => (Json.obj (eventToDict answer)).Loadable
  | .move _ (.event event) => (Json.obj (eventToDict event)).Loadable ∧ TextDelta (eventToDict event)
  | _ => True

structure SessionRecord.Loadable (row : SessionRecord) : Prop where
  input : ∀ d, row.inputJson = some d → (Json.obj d).Loadable
  output : ∀ d, row.outputJson = some d → (Json.obj d).Loadable
  usage : row.usageJson.Loadable

def ColdStorage.Loadable (cold : ColdStorage) : Prop :=
  ∀ key payload, cold.objects.get? key = some payload → (Json.obj payload).Loadable

namespace Stage

def Loadable : Stage → Prop
  | streaming bridge => bridge.Loadable
  | answered response => (Json.obj response).Loadable
  | inserting _ row => row.Loadable
  | _ => True

end Stage

structure Request.Loadable (r : Request) : Prop where
  payload : (Json.obj r.turn.payload).Loadable
  stage : ∀ resolved stage, r.phase = .resolved resolved stage → stage.Loadable

structure State.Loadable (s : State) : Prop where
  requests : ∀ r ∈ s.requests, r.Loadable
  rows : ∀ row ∈ s.store.rows, row.Loadable
  cold : ∀ objects, s.cold = some objects → objects.Loadable

section Loadable

variable {gw : Gateway} {s s' : State} {r r' : Request} {i : ℕ} {m : Move} {store : SessionStore}
  {cold : Option ColdStorage} {a : Action}

theorem loadable_coldPayload (resolved : ResolvedRequest) {response : JsonDict} (h : r.Loadable)
    (hr : (Json.obj response).Loadable) :
    (Json.obj (recordCall r.turn r.newId resolved response).coldPayload).Loadable :=
  Json.loadable_ofEntries (by simp [recordCall, h.payload, hr])

theorem loadable_prepare {env : RecordEnv} {c : RecordCall} (hq : (Json.obj c.originalRequest).Loadable)
    (ha : (Json.obj c.responsePayload).Loadable) : (gw.recorder.prepare cold env c).1.Loadable := by
  have husage := ha.get "usage"
  rcases prepare_cases gw.recorder cold env c with he | ⟨objects,key,-,-,-,he⟩
  · rw [he]
    refine ⟨?_,?_,husage⟩
    · rintro d ⟨⟩; exact hq
    · rintro d ⟨⟩; exact ha
  · rw [he]
    refine ⟨?_,?_,husage⟩ <;> rintro d ⟨⟩

theorem Request.Loadable.settle {resolved : ResolvedRequest} {outcome : Py Unit} {finished : Stage}
    (h : r.Loadable) (hf : finished.Loadable) : (r.settle resolved outcome finished).Loadable := by
  refine ⟨h.payload,fun resolved' stage hs => ?_⟩
  cases outcome with
  | ok u => cases hs; exact hf
  | error exn => cases hs; trivial

theorem Request.Loadable.enter (h : r.Loadable) {phase : Phase} {sent : Option JsonDict} {frames : List Frame}
    (hp : ∀ resolved stage, phase = .resolved resolved stage → stage.Loadable) :
    Request.Loadable { r with sent := sent, frames := frames, phase := phase } := ⟨h.payload,hp⟩

theorem loadable_move (h : r.Loadable) (hg : Given (.move i m)) (hm : move gw s r m = some (r', store, cold)) :
    r'.Loadable := by
  unfold move at hm
  split at hm
  case h_1 => split at hm <;> cases hm <;> exact h.enter fun _ _ hs => by cases hs
  case h_2 =>
    dsimp only at hm
    split at hm
    · split at hm <;> cases hm
      · exact h.enter fun _ _ hs => by cases hs
      · exact h.enter fun _ _ hs => by cases hs; trivial
    · cases hm; exact h.enter fun _ _ hs => by cases hs
  case h_3 => cases hm; exact h.enter fun _ _ hs => by cases hs
  case h_4 => cases hm; exact h.enter fun _ _ hs => by cases hs
  case h_5 resolved answer hphase =>
    split at hm
    · cases hm
    · dsimp only at hm
      split at hm <;> cases hm
      · exact Request.Loadable.settle ⟨h.payload,h.stage⟩ trivial
      · next response hcall =>
        refine h.enter fun _ _ hs => ?_
        cases hs
        unfold LLMRouter.call at hcall
        split at hcall
        · cases hcall
        · cases answer with
          | error exc => cases hcall
          | ok answer =>
            cases hcall
            exact Json.Loadable.set hg "id" trivial
  case h_6 =>
    split at hm
    · split at hm <;> cases hm
      · exact h.settle trivial
      · exact h.enter fun _ _ hs => by cases hs; exact StreamBridge.loadable_init _
    · cases hm
  case h_7 resolved bridge event hphase =>
    have hb : bridge.Loadable := h.stage _ _ hphase
    dsimp only at hm
    split at hm <;> cases hm
    · exact Request.Loadable.settle ⟨h.payload,h.stage⟩ trivial
    · next bridge' ht => exact h.enter fun _ _ hs => by cases hs; exact hb.teeEvent hg.1 hg.2 ht
  case h_8 resolved bridge ending hphase =>
    have hb : bridge.Loadable := h.stage _ _ hphase
    split at hm <;> cases hm
    · exact h.settle trivial
    · exact h.enter fun _ _ hs => by cases hs; exact hb.finalState.set "id" trivial
  case h_9 resolved response newSessionId put hphase =>
    split at hm
    · split at hm
      · cases hm; exact h.settle trivial
      · split at hm
        · cases hm
          refine h.enter fun _ _ hs => ?_
          cases hs
          exact loadable_prepare h.payload (h.stage _ _ hphase)
        · cases hm
    · cases hm; exact h.settle trivial
  case h_10 => split at hm <;> cases hm <;> exact h.settle trivial
  case h_11 => cases hm

theorem loadable_put {objects : ColdStorage} {key : String} {payload : JsonDict} (h : objects.Loadable)
    (hp : (Json.obj payload).Loadable) : (objects.put key payload).Loadable := by
  intro k found hk
  simp only [ColdStorage.put, Dict.get?_set] at hk
  split at hk
  · cases hk; exact hp
  · exact h k found hk

theorem loadable_moved (h : s.Loadable) (hr : s.requests[i]? = some r) (hg : Given (.move i m))
    (hm : move gw s r m = some (r', store, cold)) : (moved s i r' store cold).Loadable := by
  have hreq := h.requests r (List.mem_of_getElem? hr)
  refine ⟨?_,?_,?_⟩
  · intro x hx
    rcases List.mem_or_eq_of_mem_set hx with hx | rfl
    · exact h.requests x hx
    · exact loadable_move hreq hg hm
  · intro row hrow
    rcases moves_store (moves_of_move hm) with ⟨hsame,-⟩ | ⟨resolved,response,new,hphase,-,hins⟩
    · exact h.rows row (hsame ▸ hrow)
    · have hrows := (SessionStore.insert_eq_ok_iff.mp hins).2
      have hrow : row ∈ s.store.rows ++ [new] := hrows ▸ hrow
      rcases List.mem_append.mp hrow with hold | hnew
      · exact h.rows row hold
      · rw [List.mem_singleton.mp hnew]
        exact hreq.stage _ _ hphase
  · intro objects hobjects
    cases moves_of_move hm with
    | @prepared resolved response newSessionId put row _ hphase _ _ hprep =>
      have hpayload := loadable_coldPayload resolved hreq (hreq.stage _ _ hphase)
      rcases prepare_cases gw.recorder s.cold ⟨s.now,newSessionId,put,none⟩
        (recordCall r.turn r.newId resolved response) with he | ⟨before,key,hbefore,-,-,he⟩
      · rw [he] at hprep; cases hprep
        exact h.cold objects hobjects
      · rw [he] at hprep; cases hprep; cases hobjects
        exact loadable_put (h.cold before hbefore) hpayload
    | _ => exact h.cold objects hobjects

theorem loadable_step (h : s.Loadable) (hg : Given a) (hs : step gw s a = some s') : s'.Loadable := by
  cases a with
  | receive payload uuid =>
    simp only [step] at hs
    split at hs
    · cases hs
    · split at hs <;> cases hs
      · exact h
      · next turn hr =>
        refine ⟨fun x hx => ?_,h.rows,h.cold⟩
        rcases List.mem_append.mp hx with hx | hx
        · exact h.requests x hx
        · rw [List.mem_singleton.mp hx]
          refine ⟨loadable_received hg hr,fun resolved stage hp => ?_⟩
          simp only [Request.start, Request.initialPhase] at hp
          split at hp <;> cases hp
          trivial
  | move i m =>
    obtain ⟨r,hr,hs⟩ := Option.bind_eq_some_iff.mp hs
    obtain ⟨⟨r',store,cold⟩,hm,hs⟩ := Option.bind_eq_some_iff.mp hs
    cases hs
    exact loadable_moved h hr hg hm
  | tick d => cases hs; exact ⟨h.requests,h.rows,h.cold⟩
  | deleteExpired asOf =>
    cases hs
    exact ⟨h.requests,fun row hrow => h.rows row (SessionStore.mem_deleteExpired.mp hrow).1,h.cold⟩

theorem reach_loadable {cold : Option ColdStorage} {now : Time} (hc : ∀ objects, cold = some objects → objects.Loadable)
    (h : Reach (step gw) (fun _ a => Given a) (.initial cold now) s) : s.Loadable :=
  h.invariant ⟨by simp [State.initial],by simp [State.initial, SessionStore.empty],hc⟩
    (fun _ _ _ hs hg hstep => loadable_step hs hg hstep)

end Loadable

structure ReadsBack (s : State) : Prop where
  input : ∀ row ∈ s.store.rows, ∀ d, row.inputJson = some d → Json.loads (Json.dumps (.obj d)) = .ok (.obj d)
  output : ∀ row ∈ s.store.rows, ∀ d, row.outputJson = some d →
    Json.loads (Json.dumps (.obj d)) = .ok (.obj d)
  usage : ∀ row ∈ s.store.rows, Json.loads (Json.dumps row.usageJson) = .ok row.usageJson
  cold : ∀ objects, s.cold = some objects → ∀ key payload, objects.objects.get? key = some payload →
    Json.loadsBytes (encodePayload payload) = .ok (.obj payload)

def Parsed (x : Json) : Prop := ∃ text, Json.loads text = .ok x

/-- `update` takes a list of pairs as well, under keys of any kind. -/
def CreatesObject (e : Event) : Prop :=
  etype e = .created → ∃ response, e.getD "response" (.dict []) = .obj response

def Incoming : Action → Prop
  | .receive payload _ => Parsed (.obj payload)
  | .move _ (.respond (.ok answer)) => Parsed (.obj (eventToDict answer))
  | .move _ (.event event) =>
      Parsed (.obj (eventToDict event)) ∧ TextDelta (eventToDict event) ∧ CreatesObject (eventToDict event)
  | _ => True

theorem given_of_incoming {a : Action} (h : Incoming a) : Given a := by
  cases a with
  | receive payload uuid => exact Json.loadable_iff.mpr h
  | move i m =>
    cases m with
    | respond answer =>
      cases answer with
      | ok answer => exact Json.loadable_iff.mpr h
      | error exc => trivial
    | event event => exact ⟨Json.loadable_iff.mpr h.1,h.2.1⟩
    | _ => trivial
  | _ => trivial

theorem stored_reads_back {gw : Gateway} {cold : Option ColdStorage} {now : Time} {s : State}
    (hc : ∀ objects, cold = some objects → ∀ key payload, objects.objects.get? key = some payload →
      Parsed (.obj payload))
    (h : Reach (step gw) (fun _ a => Incoming a) (.initial cold now) s) : ReadsBack s := by
  have hcold : ∀ objects, cold = some objects → objects.Loadable := fun objects hobjects key payload hk =>
    Json.loadable_iff.mpr (hc objects hobjects key payload hk)
  have hs := reach_loadable hcold (h.mono fun _ _ => given_of_incoming)
  refine ⟨?_,?_,?_,?_⟩
  · exact fun row hrow d hd => Json.loads_dumps ((hs.rows row hrow).input d hd)
  · exact fun row hrow d hd => Json.loads_dumps ((hs.rows row hrow).output d hd)
  · exact fun row hrow => Json.loads_dumps (hs.rows row hrow).usage
  · exact fun objects hobjects key payload hk => Json.loadsBytes_dumps (hs.cold objects hobjects key payload hk)

def createdEvent : Event :=
  .ofEntries [("type", .str "response.created"), ("response", .dict [("status", .str "in_progress")])]

def offloadedStream : List Action :=
  [.receive streamedOpening "1", .move 0 .connect, .move 0 (.event (.dict createdEvent)),
   .move 0 (.event (.dict deltaEvent)), .move 0 (.endStream none),
   .move 0 (.record "session" (.ok "key")), .move 0 (.insert none)]

set_option maxRecDepth 2000 in
theorem offloadedStream_runs :
    (runSteps (step offloading) (.initial (some .empty) 0) offloadedStream).isSome = true := rfl

def offloadedStreamState : State :=
  (runSteps (step offloading) (.initial (some .empty) 0) offloadedStream).get offloadedStream_runs

theorem stored_reads_back_streamed : ReadsBack offloadedStreamState := by
  have hopening : Parsed (.obj streamedOpening) :=
    Json.loadable_iff.mp (Json.loadable_ofEntries (by simp [Json.Loadable]))
  have hcreated : Parsed (.obj createdEvent) :=
    Json.loadable_iff.mp (Json.loadable_ofEntries (by simp [Json.Loadable, Json.LoadableFields]))
  have hdelta : Parsed (.obj deltaEvent) := Json.loadable_iff.mp (Json.loadable_ofEntries (by simp [Json.Loadable]))
  have htext : TextDelta deltaEvent := by
    intro _ delta hd
    cases hd
    exact ⟨_,rfl⟩
  have hno : TextDelta createdEvent := by
    rintro (ht | ht) <;> cases ht
  have hcreates : CreatesObject createdEvent := fun _ => ⟨.ofEntries [("status", .str "in_progress")],rfl⟩
  have hother : CreatesObject deltaEvent := fun ht => by cases ht
  have hincoming : ∀ a ∈ offloadedStream, Incoming a := by
    simp [offloadedStream, Incoming, eventToDict, hopening, hcreated, hdelta, htext, hno, hcreates, hother]
  refine stored_reads_back (fun objects hobjects key payload hk => ?_)
    (reach_of_runSteps offloadedStream (fun _ => hincoming) (Option.some_get offloadedStream_runs).symm)
  cases hobjects
  cases hk

end ResponsesGateway
