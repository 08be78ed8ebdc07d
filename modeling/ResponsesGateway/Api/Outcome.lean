import Mathlib.Data.List.Pairwise
import ResponsesGateway.Api.StreamEnd

namespace ResponsesGateway

def Receives (frames : List Frame) (t : EventType) : Prop := ∃ e, Frame.data e ∈ frames ∧ etype e = t

def AtMostOneTerminal (events : List Event) : Prop :=
  events.Pairwise (fun e e' => Terminal e → ¬ Terminal e')

def tableAtDone (newId : String) (source : List JsonDict × Option Exn) (store : SessionStore)
    (recorded : JsonDict → SessionStore) : SessionStore :=
  match ((StreamBridge.init (some newId)).tee source.1).2, source.2 with
  | .ok bridge, none => recorded (finalPayload newId bridge)
  | _, _ => store

def OutcomeAgrees (newId : String) (frames : List Frame) (table : SessionStore) : Prop :=
  ¬ (Receives frames .completed ∧ Receives frames .failed) ∧
    (Receives frames .completed → Frame.done ∈ frames → ∃ row ∈ table.rows, row.id = newId)

namespace StreamBridge

variable {b b' : StreamBridge} {e f : Event} {es : List Event}

theorem teeEvent_etype (h : f ∈ (b.teeEvent e).1) :
    etype f = etype e ∨ etype f = .outputItemAdded ∨ etype f = .contentPartAdded := by
  unfold teeEvent at h
  cases hr : b.maybeRewriteId e with
  | error x => rw [hr] at h; cases h
  | ok e' =>
    rw [hr] at h
    dsimp only at h
    cases hs : b.synthesizeMissingAnnouncements e' with
    | error x => rw [hs] at h; cases h
    | ok p =>
      obtain ⟨b₁,synth⟩ := p
      rw [hs] at h
      rcases List.mem_append.mp (forward_initial.subset h) with h | h
      · exact .inr ((synthesizeMissingAnnouncements_ok hs).2 f h)
      · rw [List.mem_singleton.mp h, (maybeRewriteId_ok hr).etype]
        exact .inl rfl

theorem tee_etype (h : f ∈ (b.tee es).1) :
    (∃ e ∈ es, etype f = etype e) ∨ etype f = .outputItemAdded ∨ etype f = .contentPartAdded := by
  induction es generalizing b with
  | nil => cases h
  | cons e es ih =>
    have hfirst (hf : f ∈ (b.teeEvent e).1) : (∃ x ∈ e :: es, etype f = etype x) ∨
        etype f = .outputItemAdded ∨ etype f = .contentPartAdded :=
      (teeEvent_etype hf).imp_left fun ht => ⟨e,List.mem_cons_self,ht⟩
    cases hr : (b.teeEvent e).2 with
    | error x =>
      rw [tee_cons_of_error es hr] at h
      exact hfirst h
    | ok b₁ =>
      rw [tee_cons_of_ok es hr] at h
      rcases List.mem_append.mp h with h | h
      · exact hfirst h
      · refine (ih h).imp_left ?_
        rintro ⟨x,hx,ht⟩
        exact ⟨x,List.mem_cons_of_mem _ hx,ht⟩

theorem tee_forwards (h : (b.tee es).2 = .ok b') (he : e ∈ es) : ∃ f ∈ (b.tee es).1, etype f = etype e := by
  induction es generalizing b with
  | nil => cases he
  | cons x es ih =>
    obtain ⟨b₁,hx,hes⟩ := tee_cons_ok_iff.mp h
    rw [tee_cons_of_ok es hx]
    rcases List.mem_cons.mp he with rfl | he
    · obtain ⟨e',b₂,synth,hr,hs,hf⟩ := teeEvent_ok_iff.mp hx
      refine ⟨e',List.mem_append_left _ ?_,(maybeRewriteId_ok hr).etype⟩
      simp only [teeEvent, hr, hs, forward_ok hf]
      simp
    · obtain ⟨f,hf,ht⟩ := ih hes he
      exact ⟨f,List.mem_append_right _ hf,ht⟩

end StreamBridge

section Frames

variable {newId : String} {source : List JsonDict × Option Exn} {frames : List Frame} {t : EventType}
  {events : List Event} {store : SessionStore}

theorem receives_data_iff : Receives (events.map Frame.data) t ↔ ∃ e ∈ events, etype e = t := by
  constructor
  · rintro ⟨e,he,ht⟩
    obtain ⟨f,hf,heq⟩ := List.mem_map.mp he
    cases heq
    exact ⟨e,hf,ht⟩
  · rintro ⟨e,he,ht⟩
    exact ⟨e,List.mem_map_of_mem he,ht⟩

theorem receives_append_iff {more : List Frame} :
    Receives (frames ++ more) t ↔ Receives frames t ∨ Receives more t := by
  constructor
  · rintro ⟨e,he,ht⟩
    exact (List.mem_append.mp he).imp (fun h => ⟨e,h,ht⟩) fun h => ⟨e,h,ht⟩
  · rintro (⟨e,he,ht⟩ | ⟨e,he,ht⟩)
    · exact ⟨e,List.mem_append_left _ he,ht⟩
    · exact ⟨e,List.mem_append_right _ he,ht⟩

theorem not_receives_done : ¬ Receives [.done] t := by
  rintro ⟨e,he,-⟩
  cases List.mem_singleton.mp he

theorem receives_source {b : StreamBridge} (ht : t ≠ .outputItemAdded ∧ t ≠ .contentPartAdded)
    (h : Receives ((b.tee events).1.map .data) t) : ∃ e ∈ events, etype e = t := by
  obtain ⟨f,hf,hft⟩ := receives_data_iff.mp h
  rcases StreamBridge.tee_etype hf with ⟨e,he,het⟩ | hadded | hpart
  · exact ⟨e,he,het.symm.trans hft⟩
  · exact absurd (hft.symm.trans hadded) ht.1
  · exact absurd (hft.symm.trans hpart) ht.2

theorem receives_forwarded_iff {b b' : StreamBridge} (h : (b.tee events).2 = .ok b')
    (ht : t ≠ .outputItemAdded ∧ t ≠ .contentPartAdded) :
    Receives ((b.tee events).1.map .data) t ↔ ∃ e ∈ events, etype e = t := by
  constructor
  · exact receives_source ht
  · rintro ⟨e,he,rfl⟩
    exact receives_data_iff.mpr (StreamBridge.tee_forwards h he)

theorem forwarded_not_both {b : StreamBridge} (h : AtMostOneTerminal events) :
    ¬ (Receives ((b.tee events).1.map .data) .completed ∧ Receives ((b.tee events).1.map .data) .failed) := by
  rintro ⟨hcompleted,hfailed⟩
  obtain ⟨e,he,hte⟩ := receives_source ⟨by decide,by decide⟩ hcompleted
  obtain ⟨f,hf,htf⟩ := receives_source ⟨by decide,by decide⟩ hfailed
  have hne : e ≠ f := by
    rintro rfl
    cases hte.symm.trans htf
  have hsymm : Std.Symm (fun e e' : Event => Terminal e → ¬ Terminal e') := ⟨fun x y hxy hy hx => hxy hx hy⟩
  exact h.forall he hf hne (.inl hte) (.inr (.inl htf))

theorem outcomeAgrees_forwarded (hone : AtMostOneTerminal events) :
    OutcomeAgrees newId (((StreamBridge.init (some newId)).tee events).1.map Frame.data) store := by
  have hdone : Frame.done ∉ ((StreamBridge.init (some newId)).tee events).1.map Frame.data := by simp
  exact ⟨forwarded_not_both hone,fun _ hd => absurd hd hdone⟩

theorem outcomeAgrees_gen_iff {record : JsonDict → Py Unit} {recorded : JsonDict → SessionStore}
    (hone : AtMostOneTerminal source.1) (hrecord : ∀ final, (∃ x, record final = .error (.python x)) ∨
      record final = .ok () ∧ ∃ row ∈ (recorded final).rows, row.id = newId) :
    OutcomeAgrees newId (gen newId source record).1 (tableAtDone newId source store recorded) ↔
      ¬ ((∃ bridge, ((StreamBridge.init (some newId)).tee source.1).2 = .ok bridge) ∧
        (∃ e ∈ source.1, etype e = .completed) ∧ ∃ exn, source.2 = some exn ∧ Reported (.error exn)) := by
  obtain ⟨events,ending⟩ := source
  have hopen {table : SessionStore} := @outcomeAgrees_forwarded newId events table hone
  simp only [gen, streamOutcome, tableAtDone]
  cases ht : ((StreamBridge.init (some newId)).tee events).2 with
  | error x =>
    simp only [closing, List.append_nil]
    refine iff_of_true hopen ?_
    rintro ⟨⟨bridge,h⟩,-⟩
    cases h
  | ok bridge =>
    cases ending with
    | none =>
      refine iff_of_true ?_ (by rintro ⟨-,-,exn,h,-⟩; cases h)
      rcases hrecord (finalPayload newId bridge) with ⟨x,hraised⟩ | ⟨htaken,hrow⟩
      · simp only [hraised, closing, List.append_nil]
        exact hopen
      · simp only [htaken, closing]
        refine ⟨?_,fun _ _ => hrow⟩
        rw [receives_append_iff, receives_append_iff, or_iff_left not_receives_done,
          or_iff_left not_receives_done]
        exact forwarded_not_both hone
    | some exn =>
      have hlost (raised : List Frame × Option Exn) (hraised : raised.1 = []) :
          OutcomeAgrees newId (((StreamBridge.init (some newId)).tee events).1.map Frame.data ++ raised.1)
            store := by
        rw [hraised, List.append_nil]
        exact hopen
      have hunreported (h : ¬ Reported (.error exn)) : ¬ ((∃ b, (.ok bridge : Except PyError StreamBridge) = .ok b) ∧
          (∃ e ∈ events, etype e = .completed) ∧ ∃ x, some exn = some x ∧ Reported (.error x)) := by
        rintro ⟨-,-,x,hx,hrep⟩
        cases hx
        exact h hrep
      cases exn with
      | python x => exact iff_of_true (hlost _ rfl) (hunreported id)
      | gateway e =>
        cases hbody : e.toResponseBody with
        | error x =>
          rw [closing_unwritten hbody]
          refine iff_of_true (hlost _ rfl) (hunreported ?_)
          rintro ⟨body,h⟩
          rw [hbody] at h
          cases h
        | ok body =>
          rw [closing_written hbody]
          -- The client hears of the failure after whatever was forwarded, a completion included.
          have hfailed : Receives [.data (failedEventFor newId body), .done] .failed :=
            ⟨failedEventFor newId body,List.mem_cons_self,rfl⟩
          have hcompleted : Receives (((StreamBridge.init (some newId)).tee events).1.map Frame.data ++
              [.data (failedEventFor newId body), .done]) .completed ↔ ∃ e ∈ events, etype e = .completed := by
            rw [receives_append_iff, ← receives_forwarded_iff ht ⟨by decide,by decide⟩, or_iff_left]
            rintro ⟨e,he,hte⟩
            simp only [List.mem_cons, List.not_mem_nil, or_false, Frame.data.injEq, reduceCtorEq] at he
            subst he
            cases hte
          constructor
          · rintro hagrees ⟨-,hevents,-⟩
            exact hagrees.1 ⟨hcompleted.mpr hevents,receives_append_iff.mpr (.inr hfailed)⟩
          · intro hno
            have hnone : ¬ ∃ e ∈ events, etype e = .completed :=
              fun h => hno ⟨⟨bridge,rfl⟩,h,_,rfl,body,hbody⟩
            exact ⟨fun h => hnone (hcompleted.mp h.1),fun h => absurd (hcompleted.mp h) hnone⟩

end Frames

section Recorded

variable {recorder : SessionRecorder} {store : SessionStore} {cold : Option ColdStorage} {env : RecordEnv}
  {c : RecordCall}

theorem record_stored (hstore : c.storeFlag.truthy = true) (hinsert : env.insertError = none)
    (hfresh : c.responseId ∉ store.rows.map SessionRecord.id) :
    (∃ x, (recorder.record store cold env c).2.2 = .error (.python x)) ∨
    ((recorder.record store cold env c).2.2 = .ok () ∧
      ∃ row ∈ (recorder.record store cold env c).1.rows, row.id = c.responseId) := by
  by_cases ht : Representable (env.now + recorder.ttl)
  · obtain ⟨hid,-⟩ := SessionRecorder.prepare_columns recorder cold env c
    have hi : ∃ store', store.insert (recorder.prepare cold env c).1 = .ok store' := by
      rw [SessionStore.insert, dif_neg (hid ▸ hfresh)]
      exact ⟨_,rfl⟩
    obtain ⟨store',hi⟩ := hi
    rw [(SessionRecorder.record_ok_iff hstore).mpr ⟨ht,rfl,hinsert,hi⟩]
    refine .inr ⟨rfl,(recorder.prepare cold env c).1,?_,hid⟩
    rw [(SessionStore.insert_eq_ok_iff.mp hi).2]
    simp
  · rw [SessionRecorder.record_of_overflow hstore ht]
    exact .inl ⟨_,rfl⟩

end Recorded

theorem terminal_outcome_agrees_iff {gw : Gateway} {aresponses : JsonDict → ProviderStream} {turn : Turn}
    {newId : String} {resolved : ResolvedRequest} {store : SessionStore} {cold : Option ColdStorage}
    {env : RecordEnv} (hone : AtMostOneTerminal (gw.router.stream aresponses resolved.request).1)
    (hstore : turn.storeFlag.truthy = true) (hinsert : env.insertError = none)
    (hfresh : newId ∉ store.rows.map SessionRecord.id) :
    OutcomeAgrees newId (streamingResponse gw aresponses turn newId resolved store cold env).1
      (tableAtDone newId (gw.router.stream aresponses resolved.request) store (fun final =>
        (gw.recorder.record store cold env (recordCall turn newId resolved final)).1)) ↔
    ¬ ∃ keywords exc, gw.router.streamKeywords resolved.request = .ok keywords ∧
      (StreamBridge.init (some newId)).AcceptsAll ((aresponses keywords).events.map eventToDict) ∧
      (∃ e ∈ (aresponses keywords).events.map eventToDict, etype e = .completed) ∧
      (aresponses keywords).ending = some exc ∧ Reportable exc := by
  have hrecorded (final : JsonDict) := @record_stored gw.recorder store cold env
    (recordCall turn newId resolved final) hstore hinsert hfresh
  unfold streamingResponse
  rw [outcomeAgrees_gen_iff hone hrecorded]
  refine not_congr ?_
  unfold LLMRouter.stream
  cases hk : gw.router.streamKeywords resolved.request with
  | error x => simp
  | ok keywords =>
    simp only [StreamBridge.tee_ok_iff_acceptsAll, Except.ok.injEq, exists_and_left, exists_eq_left',
      Option.map_eq_some_iff]
    constructor
    · rintro ⟨haccepts,hcompleted,exn,⟨exc,hexc,rfl⟩,hreported⟩
      exact ⟨haccepts,hcompleted,exc,hexc,reported_wrap_iff.mp hreported⟩
    · rintro ⟨haccepts,hcompleted,exc,hexc,hreportable⟩
      exact ⟨haccepts,hcompleted,_,⟨exc,hexc,rfl⟩,reported_wrap_iff.mpr hreportable⟩

namespace BrokenEnd

def completed : Event :=
  .ofEntries [("type", .str "response.completed"), ("response", .dict [("id", .str "up_1")])]

def provider : JsonDict → ProviderStream := fun _ => ⟨[.dict completed], some (.ofPyError .valueError)⟩

def env : RecordEnv := ⟨0, "session", .ok "key", none⟩

theorem atMostOneTerminal (gw : Gateway) (request : JsonDict) :
    AtMostOneTerminal (gw.router.stream provider request).1 := by
  unfold LLMRouter.stream
  cases gw.router.streamKeywords request with
  | error x => exact .nil
  | ok keywords => exact List.pairwise_singleton _ _

end BrokenEnd

theorem terminal_outcome_agrees_iff_broken :
    OutcomeAgrees "resp_1" (streamingResponse {} BrokenEnd.provider briefTurn "resp_1"
        (SessionResolver.passThrough briefTurn.payload) .empty none BrokenEnd.env).1
      (tableAtDone "resp_1" (({} : Gateway).router.stream BrokenEnd.provider briefTurn.payload) .empty
        (fun final => (({} : Gateway).recorder.record .empty none BrokenEnd.env
          (recordCall briefTurn "resp_1" (SessionResolver.passThrough briefTurn.payload) final)).1)) ↔
    ¬ ∃ keywords exc, ({} : Gateway).router.streamKeywords briefTurn.payload = .ok keywords ∧
      (StreamBridge.init (some "resp_1")).AcceptsAll ((BrokenEnd.provider keywords).events.map eventToDict) ∧
      (∃ e ∈ (BrokenEnd.provider keywords).events.map eventToDict, etype e = .completed) ∧
      (BrokenEnd.provider keywords).ending = some exc ∧ Reportable exc :=
  terminal_outcome_agrees_iff (BrokenEnd.atMostOneTerminal {} _) rfl rfl (by simp [SessionStore.empty])

theorem completed_then_failed :
    AtMostOneTerminal (({} : Gateway).router.stream BrokenEnd.provider briefTurn.payload).1 ∧
    (∀ keywords exc, (BrokenEnd.provider keywords).ending = some exc → ∃ e, LLMRouter.wrapped exc = .ok e) ∧
    briefTurn.storeFlag.truthy = true ∧ BrokenEnd.env.insertError = none ∧
    ¬ OutcomeAgrees "resp_1" (streamingResponse {} BrokenEnd.provider briefTurn "resp_1"
        (SessionResolver.passThrough briefTurn.payload) .empty none BrokenEnd.env).1
      (tableAtDone "resp_1" (({} : Gateway).router.stream BrokenEnd.provider briefTurn.payload) .empty
        (fun final => (({} : Gateway).recorder.record .empty none BrokenEnd.env
          (recordCall briefTurn "resp_1" (SessionResolver.passThrough briefTurn.payload) final)).1)) := by
  refine ⟨BrokenEnd.atMostOneTerminal {} _,?_,rfl,rfl,fun hagrees => ?_⟩
  · intro keywords exc h
    cases h
    exact ⟨_,rfl⟩
  have hrecorded (final : JsonDict) := @record_stored ({} : Gateway).recorder .empty none BrokenEnd.env
    (recordCall briefTurn "resp_1" (SessionResolver.passThrough briefTurn.payload) final) rfl rfl
    (by simp [SessionStore.empty])
  unfold streamingResponse at hagrees
  have hfails := (outcomeAgrees_gen_iff (BrokenEnd.atMostOneTerminal {} _) hrecorded).mp hagrees
  exact hfails ⟨⟨_,rfl⟩,⟨BrokenEnd.completed,List.mem_cons_self,rfl⟩,_,rfl,
    reported_wrap_iff.mpr (reportable_ofPyError _)⟩

end ResponsesGateway
