import ResponsesGateway.Api.CreateResponse
import ResponsesGateway.Streaming.Acceptance

namespace ResponsesGateway

def IsFailure (newId : String) (e : Event) : Prop :=
  e.get? "type" = some (.str "response.failed") ∧
    ∃ response : JsonDict, e.get? "response" = some (.obj response) ∧
      response.get? "id" = some (.str newId)

def ClosesCleanly (newId : String) (failed : Prop) (frames : List Frame) : Prop :=
  ∃ before, Frame.done ∉ before ∧ frames = before ++ [.done] ∧
    (failed → ∃ earlier e, before = earlier ++ [.data e] ∧ IsFailure newId e)

def StreamFailed (newId : String) (source : List JsonDict × Option Exn)
    (record : JsonDict → Py Unit) : Prop :=
  source.2 ≠ none ∨ (∃ x, ((StreamBridge.init (some newId)).tee source.1).2 = .error x) ∨
    ∃ bridge exn, ((StreamBridge.init (some newId)).tee source.1).2 = .ok bridge ∧
      record (finalPayload newId bridge) = .error exn

def Reported : Py Unit → Prop
  | .ok () => True
  | .error (.gateway e) => ∃ body, e.toResponseBody = .ok body
  | .error (.python _) => False

theorem streamFailed_iff {newId : String} {source : List JsonDict × Option Exn}
    {record : JsonDict → Py Unit} :
    StreamFailed newId source record ↔ streamOutcome newId source record ≠ .ok () := by
  unfold StreamFailed streamOutcome
  obtain ⟨events,ending⟩ := source
  dsimp only
  cases ((StreamBridge.init (some newId)).tee events).2 with
  | error x => simp
  | ok bridge =>
    cases ending with
    | some exn => simp
    | none => cases hr : record (finalPayload newId bridge) <;> simp [hr]

theorem closesCleanly_gen_iff {newId : String} {source : List JsonDict × Option Exn}
    {record : JsonDict → Py Unit} :
    ClosesCleanly newId (StreamFailed newId source record) (gen newId source record).1 ↔
      Reported (streamOutcome newId source record) := by
  rw [streamFailed_iff]
  simp only [gen]
  generalize ((StreamBridge.init (some newId)).tee source.1).1 = forwarded
  generalize streamOutcome newId source record = outcome
  have hdata : Frame.done ∉ forwarded.map Frame.data := by simp
  have hnone (raised : Option Exn) (failed : Prop) :
      ¬ ClosesCleanly newId failed (forwarded.map Frame.data ++ ([], raised).1) := by
    rintro ⟨before,-,h,-⟩
    have hmem : Frame.done ∈ forwarded.map Frame.data := by
      rw [List.append_nil] at h
      rw [h]
      simp
    exact hdata hmem
  cases outcome with
  | ok u =>
    refine ⟨fun _ => trivial,fun _ => ⟨forwarded.map Frame.data,hdata,rfl,fun hf => absurd rfl hf⟩⟩
  | error exn =>
    cases exn with
    | python x => exact ⟨fun h => absurd h (hnone _ _),fun h => h.elim⟩
    | gateway e =>
      cases hbody : e.toResponseBody with
      | error x =>
        rw [closing_unwritten hbody]
        refine ⟨fun h => absurd h (hnone _ _),?_⟩
        rintro ⟨body,h⟩
        rw [hbody] at h
        cases h
      | ok body =>
        rw [closing_written hbody]
        refine ⟨fun _ => ⟨body,hbody⟩,fun _ => ?_⟩
        refine ⟨forwarded.map Frame.data ++ [.data (failedEventFor newId body)],by simp,by simp,fun _ => ?_⟩
        exact ⟨forwarded.map Frame.data,failedEventFor newId body,rfl,rfl,
          .ofEntries [("id", .str newId), ("status", .str "failed"), ("error", .obj body)],rfl,rfl⟩

theorem toResponseBody_ok_iff {e : GatewayError} :
    (∃ body, e.toResponseBody = .ok body) ↔ ∀ d ∈ e.details, ∃ j, d.2 = .json j := by
  have hmap (ds : List (String × Attribute)) :
      (∃ js, ds.mapM (fun d => d.2.toJson?.map (fun j => (d.1, j))) = some js) ↔
        ∀ d ∈ ds, ∃ j, d.2 = .json j := by
    induction ds with
    | nil => simp
    | cons d ds ih =>
      rw [List.forall_mem_cons, ← ih, List.mapM_cons]
      obtain ⟨attr,v⟩ := d
      generalize ds.mapM (fun d => d.2.toJson?.map (fun j => (d.1, j))) = rest
      cases v <;> cases rest <;> simp [Attribute.toJson?]
  unfold GatewayError.toResponseBody
  by_cases hd : e.details = []
  · simp [hd]
  · rw [← hmap, if_neg hd]
    cases e.details.mapM (fun d => d.2.toJson?.map (fun j => (d.1, j))) <;> simp

structure Reportable (exc : ProviderException) : Prop where
  message : ∃ message, exc.str = .ok message
  status : ∃ status, exc.getattr "status_code" = .ok status ∧
    ∃ n, (status.getD (.json (.int 502))).toInt = .ok n
  details : ∀ attr ∈ ["type", "code", "param"], ∃ v, exc.getattr attr = .ok v ∧
    ∀ a, v = some a → ∃ j, a = .json j

theorem detail_ok_iff {exc : ProviderException} {attr : String} :
    (∃ ds, LLMRouter.detail exc attr = .ok ds ∧ ∀ d ∈ ds, ∃ j, d.2 = .json j) ↔
      ∃ v, exc.getattr attr = .ok v ∧ ∀ a, v = some a → ∃ j, a = .json j := by
  unfold LLMRouter.detail
  cases hg : exc.getattr attr with
  | error x => simp [bind, Except.bind]
  | ok v =>
    cases v with
    | none => simp [bind, Except.bind, pure, Except.pure]
    | some a =>
      cases a with
      | object r => simp [bind, Except.bind, pure, Except.pure]
      | json j => cases j <;> simp [bind, Except.bind, pure, Except.pure]

theorem reported_wrap_iff {exc : ProviderException} :
    Reported (.error (LLMRouter.wrap exc)) ↔ Reportable exc := by
  constructor
  · intro h
    unfold LLMRouter.wrap at h
    cases hw : LLMRouter.wrapped exc with
    | error x => rw [hw] at h; exact h.elim
    | ok e =>
      rw [hw] at h
      have hdetails := toResponseBody_ok_iff.mp h
      unfold LLMRouter.wrapped at hw
      obtain ⟨status,hstatus,hw⟩ := Except.bind_eq_ok_iff.mp hw
      obtain ⟨type,htype,hw⟩ := Except.bind_eq_ok_iff.mp hw
      obtain ⟨code,hcode,hw⟩ := Except.bind_eq_ok_iff.mp hw
      obtain ⟨param,hparam,hw⟩ := Except.bind_eq_ok_iff.mp hw
      obtain ⟨message,hmessage,hw⟩ := Except.bind_eq_ok_iff.mp hw
      obtain ⟨n,hn,hw⟩ := Except.bind_eq_ok_iff.mp hw
      cases hw
      simp only [GatewayError.details, List.mem_append] at hdetails
      refine ⟨⟨message,hmessage⟩,⟨status,hstatus,n,hn⟩,?_⟩
      intro attr hattr
      simp only [List.mem_cons, List.not_mem_nil, or_false] at hattr
      rcases hattr with rfl | rfl | rfl
      · exact detail_ok_iff.mp ⟨type,htype,fun d hd => hdetails d (.inl (.inl hd))⟩
      · exact detail_ok_iff.mp ⟨code,hcode,fun d hd => hdetails d (.inl (.inr hd))⟩
      · exact detail_ok_iff.mp ⟨param,hparam,fun d hd => hdetails d (.inr hd)⟩
  · intro h
    obtain ⟨message,hmessage⟩ := h.message
    obtain ⟨status,hstatus,n,hn⟩ := h.status
    obtain ⟨type,htype,htj⟩ := detail_ok_iff.mpr (h.details "type" (by simp))
    obtain ⟨code,hcode,hcj⟩ := detail_ok_iff.mpr (h.details "code" (by simp))
    obtain ⟨param,hparam,hpj⟩ := detail_ok_iff.mpr (h.details "param" (by simp))
    have hw : LLMRouter.wrapped exc = .ok (.providerError message n (type ++ code ++ param)) := by
      simp only [LLMRouter.wrapped, hstatus, htype, hcode, hparam, hmessage, hn, bind, Except.bind]
      rfl
    have hwrap : LLMRouter.wrap exc = .gateway (.providerError message n (type ++ code ++ param)) := by
      simp [LLMRouter.wrap, hw]
    rw [hwrap]
    refine toResponseBody_ok_iff.mpr ?_
    intro d hd
    simp only [GatewayError.details, List.mem_append] at hd
    rcases hd with (hd | hd) | hd
    exacts [htj d hd,hcj d hd,hpj d hd]

theorem reportable_ofPyError (x : PyError) : Reportable (.ofPyError x) where
  message := ⟨className x,rfl⟩
  status := ⟨none,rfl,502,rfl⟩
  details := fun _ _ => ⟨none,rfl,by simp⟩

def Recordable (recorder : SessionRecorder) (store : SessionStore) (env : RecordEnv) (newId : String)
    (storeFlag : Json) : Prop :=
  storeFlag.truthy = false ∨
  Representable (env.now + recorder.ttl) ∧
    ((env.insertError = none ∧ newId ∉ store.rows.map SessionRecord.id) ∨
      ∃ e, env.insertError = some (.gateway e) ∧ ∀ d ∈ e.details, ∃ j, d.2 = .json j)

theorem reported_record_iff {recorder : SessionRecorder} {store : SessionStore}
    {cold : Option ColdStorage} {env : RecordEnv} {c : RecordCall} :
    Reported (recorder.record store cold env c).2.2 ↔ Recordable recorder store env c.responseId c.storeFlag := by
  unfold Recordable
  by_cases hs : c.storeFlag.truthy = true
  · by_cases ht : Representable (env.now + recorder.ttl)
    · have hid := (SessionRecorder.prepare_columns recorder cold env c).1
      rw [SessionRecorder.record_of_datetime hs ht]
      generalize recorder.prepare cold env c = p at hid
      obtain ⟨row,cold'⟩ := p
      dsimp only at hid ⊢
      cases he : env.insertError with
      | some exn =>
        simp only [SessionRecorder.insertRow, hs, ht]
        cases exn with
        | gateway e => simp [Reported, toResponseBody_ok_iff]
        | python x => simp [Reported]
      | none =>
        by_cases hm : c.responseId ∈ store.rows.map SessionRecord.id
        · have hi : store.insert row = .error .databaseError := by
            rw [SessionStore.insert, dif_pos (hid ▸ hm)]
          simp only [SessionRecorder.insertRow, hi, liftPy_error, Reported, hm, hs]
          simp
        · have hi : ∃ store', store.insert row = .ok store' := by
            rw [SessionStore.insert, dif_neg (hid ▸ hm)]
            exact ⟨_,rfl⟩
          obtain ⟨store',hi⟩ := hi
          simp only [SessionRecorder.insertRow, hi, liftPy_ok, Reported, hm, hs, ht]
          simp
    · rw [SessionRecorder.record_of_overflow hs ht]
      simp [Reported, hs, ht]
  · simp only [SessionRecorder.record, hs]
    simp [Reported]

def EndsWell (ending : Option ProviderException) (recorder : SessionRecorder) (store : SessionStore)
    (env : RecordEnv) (newId : String) (storeFlag : Json) : Prop :=
  match ending with
  | some exc => Reportable exc
  | none => Recordable recorder store env newId storeFlag

def statusless : ProviderException where
  str := .ok "connection reset"
  getattr attr := .ok (if attr = "status_code" then some (.json .null) else none)

def briefTurn : Turn := ⟨"openai", .ofEntries [("input", .str "hi")], .bool true, true⟩

end ResponsesGateway
