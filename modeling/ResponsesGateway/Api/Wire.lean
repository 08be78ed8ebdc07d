import ResponsesGateway.Api.Visibility
import ResponsesGateway.Foundation.EventStream
import ResponsesGateway.Python.Accepted
import ResponsesGateway.Python.Printed
import ResponsesGateway.Streaming.FinalState

theorem List.exists_of_mem_mapM {α β : Type} {f : α → Option β} {xs : List α} {ys : List β}
    (h : xs.mapM f = some ys) {y : β} (hy : y ∈ ys) : ∃ x ∈ xs, f x = some y := by
  induction xs generalizing ys with
  | nil => cases h; cases hy
  | cons x xs ih =>
    simp only [List.mapM_cons, Option.bind_eq_bind, Option.bind_eq_some_iff] at h
    obtain ⟨z,hz,zs,hzs,h⟩ := h
    cases h
    rcases List.mem_cons.mp hy with rfl | hy
    · exact ⟨x,by simp,hz⟩
    · obtain ⟨w,hw,hf⟩ := ih hzs hy
      exact ⟨w,by simp [hw],hf⟩

namespace ResponsesGateway

open SessionResolver

def Frame.payload : Frame → List Char
  | .data event => (Json.dumps (.obj event)).toList
  | .done => "[DONE]".toList

def wire (frames : List Frame) : List Char := frames.flatMap (fun f => f.text.toList)

def readFrame (data : List Char) : Option Frame :=
  if data = "[DONE]".toList then some .done
  else
    match Json.loads (String.ofList data) with
    | .ok x => x.asDict.map Frame.data
    | .error _ => none

def Frame.Loadable : Frame → Prop
  | .data event => (Json.obj event).Loadable
  | .done => True

theorem Frame.text_eq (f : Frame) : f.text.toList = EventStream.write f.payload := by
  cases f with
  | data event => simp [text, EventStream.write, EventStream.field, payload]
  | done => rfl

theorem Frame.one_line (f : Frame) : '\n' ∉ f.payload := by
  have hprint : Printable f.payload := by
    cases f with
    | data event => exact Json.printable_dumps _
    | done => decide
  intro h
  have := hprint _ h
  revert this
  decide

theorem readFrame_payload {f : Frame} (h : f.Loadable) : readFrame f.payload = some f := by
  cases f with
  | data event =>
    have hne : (Json.dumps (.obj event)).toList ≠ "[DONE]".toList := by
      simp [Json.obj, Json.dumps]
    simp only [readFrame, Frame.payload, if_neg hne, String.ofList_toList]
    rw [Json.loads_dumps h]
    simp
  | done => rfl

theorem wire_eq (frames : List Frame) : wire frames = (frames.map Frame.payload).flatMap EventStream.write := by
  rw [wire, List.flatMap_map]
  exact congrArg (List.flatMap · frames) (funext Frame.text_eq)

theorem read_wire {frames : List Frame} (h : ∀ f ∈ frames, f.Loadable) {text : List Char}
    (hcut : text <+: wire frames) :
    ∃ k, (EventStream.read text).map readFrame = (frames.take k).map some ∧
      ∀ j ≤ frames.length, wire (frames.take j) <+: text ↔ j ≤ k := by
  rw [wire_eq] at hcut
  obtain ⟨k,hread,hk⟩ := EventStream.read_cut (by simpa using fun f _ => f.one_line) hcut
  refine ⟨k,?_,fun j hj => ?_⟩
  · rw [hread, ← List.map_take, List.map_map]
    exact List.map_congr_left fun f hf => readFrame_payload (h f (List.mem_of_mem_take hf))
  · rw [wire_eq, List.map_take]
    exact hk j (by simpa using hj)

def ProviderException.Loadable (exc : ProviderException) : Prop :=
  ∀ attr j, exc.getattr attr = .ok (some (.json j)) → j.Loadable

def Exn.Loadable : Exn → Prop
  | .gateway e => ∀ d ∈ e.details, ∀ j, d.2 = .json j → j.Loadable
  | .python _ => True

def Plain : Action → Prop
  | .move _ (.event event) => (Json.obj (eventToDict event)).Loadable
  | .move _ (.endStream (some exc)) => exc.Loadable
  | .move _ (.insert (some exn)) => exn.Loadable
  | _ => True

section Streams

variable {newId : String} {e : Event} {b b' : StreamBridge} {synth : List Event}

theorem loadable_setGiven {body : JsonDict} (h : (Json.obj body).Loadable) (k : String) (s : Option String) :
    (Json.obj (GatewayError.setGiven body k s)).Loadable := by
  cases s with
  | none => exact h
  | some s =>
    rw [GatewayError.setGiven]
    split
    · exact h
    · exact h.set k trivial

theorem loadable_toResponseBody {e : GatewayError} {body : JsonDict} (h : (Exn.gateway e).Loadable)
    (hbody : e.toResponseBody = .ok body) : (Json.obj body).Loadable := by
  have hbase : (Json.obj (.ofEntries [("type", .str e.errorType), ("message", .str e.message)])).Loadable :=
    Json.loadable_ofEntries (by simp [Json.Loadable])
  have hgiven := loadable_setGiven (loadable_setGiven hbase "code" e.code) "param" e.param
  simp only [GatewayError.toResponseBody] at hbody
  split at hbody
  · cases hbody
    exact hgiven
  · split at hbody
    · next ds hds =>
      cases hbody
      refine hgiven.set "details" (Json.loadable_ofEntries fun d hd => ?_)
      obtain ⟨detail,hm,hj⟩ := List.exists_of_mem_mapM hds hd
      obtain ⟨j,hj,rfl⟩ := Option.map_eq_some_iff.mp hj
      refine h detail hm j ?_
      cases hattr : detail.2 with
      | json j' => rw [hattr] at hj; cases hj; rfl
      | object r => rw [hattr] at hj; cases hj
    · cases hbody

theorem loadable_closing {outcome : Py Unit} (h : ∀ exn, outcome = .error exn → exn.Loadable) :
    ∀ f ∈ (closing newId outcome).1, f.Loadable := by
  cases outcome with
  | ok u => simp [closing, Frame.Loadable]
  | error exn =>
    cases exn with
    | python x => simp [closing]
    | gateway e =>
      cases hbody : e.toResponseBody with
      | error x => simp [closing_unwritten hbody]
      | ok body =>
        rw [closing_written hbody]
        have hb := loadable_toResponseBody (h _ rfl) hbody
        have hfailed : (Json.obj (failedEventFor newId body)).Loadable := by
          refine Json.loadable_ofEntries ?_
          simp [Json.Loadable, Json.LoadableFields, hb]
        simp [Frame.Loadable, hfailed]

theorem loadable_rewritten {e' : Event} (h : (Json.obj e).Loadable) (hr : Rewritten e e') :
    (Json.obj e').Loadable := by
  cases hr with
  | same => exact h
  | response hresp => exact h.set "response" (((h.get "response").asDict hresp).set "id" trivial)

theorem loadable_syntheticItemAdded (itemId : String) {outputIndex : Json} (h : outputIndex.Loadable) :
    (Json.obj (syntheticItemAdded itemId outputIndex)).Loadable :=
  Json.loadable_ofEntries (by simp [Json.Loadable, Json.LoadableFields, Json.LoadableItems, h])

theorem loadable_syntheticPartAdded (itemId : String) {outputIndex : Json} {contentIndex : ℤ}
    (h : outputIndex.Loadable) (hc : (Json.int contentIndex).Loadable) :
    (Json.obj (syntheticPartAdded itemId outputIndex contentIndex)).Loadable := by
  refine Json.loadable_ofEntries ?_
  simp only [Json.Loadable] at hc
  simp [Json.Loadable, Json.LoadableFields, Json.LoadableItems, h, hc]

theorem loadable_announceParent (h : (Json.obj e).Loadable) (hs : b.announceParent e = .ok (b', synth)) :
    ∀ x ∈ synth, (Json.obj x).Loadable := by
  have hzero : (Json.int 0).Loadable := Json.loadable_int_of_le (k := 1) (by decide) (by decide)
  have hindex := h.getD "output_index" hzero
  have hcontent := h.getD "content_index" hzero
  unfold StreamBridge.announceParent at hs
  split at hs
  · next itemId _ =>
    have hitem := loadable_syntheticItemAdded itemId hindex
    by_cases hk : Key.str itemId ∈ b.announcedItems
    · simp only [if_pos hk] at hs
      split at hs
      · obtain ⟨n,hn,hs⟩ := Except.bind_eq_ok_iff.mp hs
        have hpart := loadable_syntheticPartAdded itemId hindex (hcontent.toInt hn)
        split at hs <;> cases hs <;> simp [hpart]
      · cases hs; simp
    · simp only [if_neg hk] at hs
      split at hs
      · obtain ⟨n,hn,hs⟩ := Except.bind_eq_ok_iff.mp hs
        have hpart := loadable_syntheticPartAdded itemId hindex (hcontent.toInt hn)
        split at hs <;> cases hs <;> simp [hitem, hpart]
      · cases hs; simp [hitem]
  · cases hs
    simp

theorem loadable_synthesized (h : (Json.obj e).Loadable)
    (hs : b.synthesizeMissingAnnouncements e = .ok (b', synth)) : ∀ x ∈ synth, (Json.obj x).Loadable := by
  unfold StreamBridge.synthesizeMissingAnnouncements at hs
  split at hs
  · obtain ⟨item,-,hs⟩ := Except.bind_eq_ok_iff.mp hs
    dsimp only at hs
    split at hs
    · obtain ⟨k,-,hs⟩ := Except.bind_eq_ok_iff.mp hs
      cases hs; simp
    · cases hs; simp
  · dsimp only at hs
    split at hs
    · obtain ⟨n,-,hs⟩ := Except.bind_eq_ok_iff.mp hs
      obtain ⟨k,-,hs⟩ := Except.bind_eq_ok_iff.mp hs
      exact loadable_announceParent h hs
    · exact loadable_announceParent h hs
  · split at hs
    · exact loadable_announceParent h hs
    · obtain ⟨k,-,hs⟩ := Except.bind_eq_ok_iff.mp hs
      cases hs; simp

theorem loadable_teeEvent (h : (Json.obj e).Loadable) : ∀ x ∈ (b.teeEvent e).1, (Json.obj x).Loadable := by
  unfold StreamBridge.teeEvent
  cases hr : b.maybeRewriteId e with
  | error x => simp
  | ok e' =>
    have he' := loadable_rewritten h (StreamBridge.maybeRewriteId_ok hr)
    dsimp only
    cases hs : b.synthesizeMissingAnnouncements e' with
    | error x => simp
    | ok p =>
      obtain ⟨b₁,synth⟩ := p
      intro x hx
      rcases List.mem_append.mp (StreamBridge.forward_initial.subset hx) with hx | hx
      · exact loadable_synthesized he' hs x hx
      · rwa [List.mem_singleton.mp hx]

end Streams

def Request.Readable (r : Request) : Prop := ∀ f ∈ r.frames, f.Loadable

theorem readable_settle {r : Request} {resolved : ResolvedRequest} {outcome : Py Unit} {finished : Stage}
    (h : r.Readable) (ho : ∀ exn, outcome = .error exn → exn.Loadable) :
    (r.settle resolved outcome finished).Readable := by
  intro f hf
  simp only [Request.settle] at hf
  split at hf
  · exact (List.mem_append.mp hf).elim (h f) (loadable_closing ho f)
  · exact h f hf

theorem readable_settle_plain {r : Request} {resolved : ResolvedRequest} {outcome : Py Unit} {finished : Stage}
    (h : r.Readable) (hs : r.turn.streaming = false) : (r.settle resolved outcome finished).Readable := by
  intro f hf
  simp only [Request.settle, hs] at hf
  exact h f hf

theorem loadable_wrap {exc : ProviderException} (h : exc.Loadable) : (LLMRouter.wrap exc).Loadable := by
  have hdetail {attr : String} {ds : List (String × Attribute)} (hd : LLMRouter.detail exc attr = .ok ds) :
      ∀ d ∈ ds, ∀ j, d.2 = .json j → j.Loadable := by
    unfold LLMRouter.detail at hd
    obtain ⟨v,hv,hd⟩ := Except.bind_eq_ok_iff.mp hd
    split at hd
    · cases hd; simp
    · cases hd; simp
    · next v _ =>
      cases hd
      intro d hm j hj
      rw [List.mem_singleton.mp hm] at hj
      exact h attr j (by rw [hv, ← hj])
  unfold LLMRouter.wrap
  cases hw : LLMRouter.wrapped exc with
  | error x => trivial
  | ok e =>
    simp only [LLMRouter.wrapped, Except.bind_eq_ok_iff] at hw
    obtain ⟨_,-,type,htype,code,hcode,param,hparam,_,-,_,-,he⟩ := hw
    cases he
    intro d hd j hj
    simp only [GatewayError.details, List.mem_append] at hd
    rcases hd with (hd | hd) | hd
    · exact hdetail htype d hd j hj
    · exact hdetail hcode d hd j hj
    · exact hdetail hparam d hd j hj

theorem readable_move {gw : Gateway} {s : State} {r r' : Request} {i : ℕ} {m : Move} {store : SessionStore}
    {cold : Option ColdStorage} (h : r.Readable) (hp : Plain (.move i m))
    (hm : move gw s r m = some (r', store, cold)) : r'.Readable := by
  unfold move at hm
  split at hm
  case h_1 prevId hphase =>
    split at hm <;> cases hm <;> exact h
  case h_2 prevId parent walk hphase =>
    dsimp only at hm
    split at hm
    · split at hm <;> cases hm <;> exact h
    · cases hm; exact h
  case h_3 => cases hm; exact h
  case h_4 => cases hm; exact h
  case h_5 resolved answer hphase =>
    split at hm
    · cases hm
    · next hs =>
      dsimp only at hm
      split at hm <;> cases hm
      · exact readable_settle_plain h (Bool.eq_false_iff.mpr hs)
      · exact h
  case h_6 resolved hphase =>
    split at hm
    · split at hm <;> cases hm
      · refine readable_settle h fun exn he => ?_
        cases he
        exact loadable_wrap fun attr j hj => by cases hj
      · exact h
    · cases hm
  case h_7 resolved bridge event hphase =>
    have hout : ∀ f ∈ r.frames ++ (bridge.teeEvent (eventToDict event)).1.map Frame.data, f.Loadable := by
      intro f hf
      rcases List.mem_append.mp hf with hf | hf
      · exact h f hf
      · obtain ⟨x,hx,rfl⟩ := List.mem_map.mp hf
        exact loadable_teeEvent hp x hx
    dsimp only at hm
    split at hm <;> cases hm
    · refine readable_settle hout fun exn he => ?_
      cases he
      trivial
    · exact hout
  case h_8 resolved bridge ending hphase =>
    split at hm <;> cases hm
    · refine readable_settle h fun exn he => ?_
      cases he
      exact loadable_wrap hp
    · exact h
  case h_9 resolved response newSessionId put hphase =>
    split at hm
    · split at hm
      · cases hm
        refine readable_settle h fun exn he => ?_
        cases he
        trivial
      · split at hm
        · cases hm; exact h
        · cases hm
    · cases hm
      exact readable_settle h fun exn he => by cases he
  case h_10 resolved response row error hphase =>
    split at hm <;> cases hm
    · next exn hi =>
      refine readable_settle h fun exn' he => ?_
      cases he
      cases error with
      | some exn =>
        cases hi
        exact hp
      | none =>
        simp only [SessionRecorder.insertRow] at hi
        cases hs : s.store.insert row with
        | ok store' => rw [hs] at hi; cases hi
        | error x => rw [hs] at hi; cases hi; trivial
    · exact readable_settle h fun exn he => by cases he
  case h_11 => cases hm

theorem stream_reads_back {gw : Gateway} {cold : Option ColdStorage} {now : Time} {s : State}
    (h : Reach (step gw) (fun _ a => Plain a) (.initial cold now) s) {r : Request} (hr : r ∈ s.requests)
    {text : List Char} (hcut : text <+: wire r.frames) :
    ∃ k, (EventStream.read text).map readFrame = (r.frames.take k).map some ∧
      ∀ j ≤ r.frames.length, wire (r.frames.take j) <+: text ↔ j ≤ k := by
  have hreadable : ∀ r ∈ s.requests, r.Readable := by
    refine h.invariant (I := fun s => ∀ r ∈ s.requests, r.Readable) (by simp [State.initial])
      fun s a s' hi hp hs => ?_
    refine step_each (fun _ _ _ _ => by simp [Request.start, Request.Readable]) ?_ hi hs
    rintro i m r r' store cold rfl hr hm
    exact readable_move hr hp hm
  exact read_wire (hreadable r hr) hcut

def deltaEvent : Event :=
  .ofEntries [("type", .str "response.output_text.delta"), ("item_id", .str "m1"), ("delta", .str "h\u00e9\n")]

def streamedRun : List Action :=
  [.receive streamedOpening "1", .move 0 .connect, .move 0 (.event (.dict deltaEvent)),
   .move 0 (.event (.dict (completedEvent "resp_of_provider"))), .move 0 (.endStream none),
   .move 0 (.record "session" (.ok "")), .move 0 (.insert none)]

def streamedState : State := (runSteps (step {}) (.initial none 0) streamedRun).get rfl

theorem streamedRun_plain : ∀ a ∈ streamedRun, Plain a := by
  have hdelta : (Json.obj deltaEvent).Loadable := Json.loadable_ofEntries (by simp [Json.Loadable])
  have hcompleted : (Json.obj (completedEvent "resp_of_provider")).Loadable :=
    Json.loadable_ofEntries (by simp [Json.Loadable, Json.LoadableFields])
  simp [streamedRun, Plain, eventToDict, hdelta, hcompleted]

theorem stream_reads_back_delta :
    let frames := (requestAt streamedState 0 rfl).frames
    ∃ k, (EventStream.read ((wire frames).take 300)).map readFrame = (frames.take k).map some ∧
      ∀ j ≤ frames.length, wire (frames.take j) <+: (wire frames).take 300 ↔ j ≤ k := by
  have hreach : Reach (step {}) (fun _ a => Plain a) (.initial none 0) streamedState :=
    reach_of_runSteps streamedRun (fun _ => streamedRun_plain) (Option.some_get rfl).symm
  exact stream_reads_back hreach (requestAt_mem rfl) (List.take_prefix 300 _)

end ResponsesGateway
