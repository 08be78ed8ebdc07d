import ResponsesGateway.Llm
import ResponsesGateway.Session.Recorder
import ResponsesGateway.Session.Resolver
import ResponsesGateway.Streaming.Bridge
import ResponsesGateway.Validator

namespace ResponsesGateway

/-- What `build_app` sets up once: the configuration and the aliases read from its model list. -/
structure Gateway where
  config : GatewayConfig := {}
  aliasMap : AliasMap := .empty

namespace Gateway

def router (gw : Gateway) : LLMRouter := ⟨gw.config.litellm, gw.aliasMap⟩

def microsecondsPerDay : ℤ := 86400000000

def recorder (gw : Gateway) : SessionRecorder :=
  ⟨gw.config.session.defaultTtlDays * microsecondsPerDay, gw.config.cold.thresholdBytes⟩

end Gateway

/-- A request that passed validation: what it asks for once `store` is taken out. -/
structure Turn where
  provider : String
  payload : JsonDict
  storeFlag : Json
  streaming : Bool

/-- `create_response` up to the new id, where the logger takes whatever it is given to write. -/
def receive (gw : Gateway) (payload : JsonDict) : Py Turn := do
  -- The log line goes through `tools`.
  let tools := payload.get "tools"
  let _ ← liftPy (if tools.truthy then tools else .list []).iter
  let provider ← liftPy (providerFromModel (payload.getD "model" (.str "")))
  let (_, payload) ← Validator.validate gw.config.reject provider payload
  let storeFlag := payload.getD "store" (.bool gw.config.session.defaultStore)
  let payload := payload.erase "store"
  return ⟨provider, payload, storeFlag, (payload.getD "stream" (.bool false)).truthy⟩

theorem receive_eq_ok {gw : Gateway} {payload : JsonDict} {turn : Turn} (h : receive gw payload = .ok turn) :
    ∃ provider stripped request, providerFromModel (payload.getD "model" (.str "")) = .ok provider ∧
      Validator.validate gw.config.reject provider payload = .ok (stripped, request) ∧
      turn = ⟨provider, request.erase "store",
        request.getD "store" (.bool gw.config.session.defaultStore),
        ((request.erase "store").getD "stream" (.bool false)).truthy⟩ := by
  simp only [receive, Except.bind_eq_ok_iff] at h
  obtain ⟨_,-,provider,hp,⟨stripped,request⟩,hv,he⟩ := h
  cases he
  refine ⟨provider,stripped,request,?_,hv,rfl⟩
  cases hm : providerFromModel (payload.getD "model" (.str "")) with
  | ok p => rw [hm] at hp; cases hp; rfl
  | error x => rw [hm] at hp; cases hp

theorem receive_get? {gw : Gateway} {payload : JsonDict} {turn : Turn} (h : receive gw payload = .ok turn)
    {key : String} (htools : key ≠ "tools") (hstore : key ≠ "store") :
    turn.payload.get? key = payload.get? key ∨
      (key ∈ gw.config.reject.fields.keys ∨ key ∈ gw.config.reject.presentFields) ∧
        turn.payload.get? key = none := by
  obtain ⟨provider,stripped,request,-,hv,rfl⟩ := receive_eq_ok h
  have hget : (request.erase "store").get? key = request.get? key := by simp [hstore]
  rw [hget]
  exact Validator.validate_get? htools hv

def newResponseId (uuid : String) : String := "resp_" ++ uuid

def recordCall (turn : Turn) (newId : String) (resolved : ResolvedRequest) (response : JsonDict) :
    RecordCall where
  responseId := newId
  originalRequest := turn.payload
  responsePayload := response
  provider := turn.provider
  model := turn.payload.getD "model" (.str "")
  sessionId := resolved.sessionId
  parentId := resolved.parentId
  storeFlag := turn.storeFlag

inductive Frame where
  | data (event : JsonDict)
  | done

def Frame.text : Frame → String
  | data event => "data: " ++ Json.dumps (.obj event) ++ "\n\n"
  | done => "data: [DONE]\n\n"

def failedEventFor (newId : String) (error : JsonDict) : Event :=
  .ofEntries [("type", .str "response.failed"),
    ("response", .dict [("id", .str newId), ("status", .str "failed"), ("error", .obj error)])]

/-- The end of `_gen`: what it yields after the forwarded events, and the exception that leaves it. -/
def closing (newId : String) : Py Unit → List Frame × Option Exn
  | .ok () => ([.done], none)
  | .error (.gateway e) =>
      match e.toResponseBody with
      | .ok error => ([.data (failedEventFor newId error), .done], none)
      | .error x => ([], some (.python x))
  | .error (.python x) => ([], some (.python x))

theorem closing_written {newId : String} {e : GatewayError} {body : JsonDict}
    (h : e.toResponseBody = .ok body) :
    closing newId (.error (.gateway e)) = ([.data (failedEventFor newId body), .done], none) := by
  simp [closing, h]

theorem closing_unwritten {newId : String} {e : GatewayError} {x : PyError}
    (h : e.toResponseBody = .error x) :
    closing newId (.error (.gateway e)) = ([], some (.python x)) := by
  simp [closing, h]

def finalPayload (newId : String) (bridge : StreamBridge) : JsonDict :=
  bridge.finalState.set "id" (.str newId)

/-- What the `try` of `_gen` ends with: its source is the provider's events and the exception after
them, if any. -/
def streamOutcome (newId : String) (source : List JsonDict × Option Exn) (record : JsonDict → Py Unit) :
    Py Unit :=
  match ((StreamBridge.init (some newId)).tee source.1).2, source.2 with
  | .error x, _ => .error (.python x)
  | .ok _, some exn => .error exn
  | .ok bridge, none => record (finalPayload newId bridge)

def gen (newId : String) (source : List JsonDict × Option Exn) (record : JsonDict → Py Unit) :
    List Frame × Option Exn :=
  let forwarded := ((StreamBridge.init (some newId)).tee source.1).1
  let (last, raised) := closing newId (streamOutcome newId source record)
  (forwarded.map .data ++ last, raised)

/-- The generator of a streaming turn, where the table and cold storage do not change meanwhile. -/
def streamingResponse (gw : Gateway) (aresponses : JsonDict → ProviderStream) (turn : Turn)
    (newId : String) (resolved : ResolvedRequest) (store : SessionStore) (cold : Option ColdStorage)
    (env : RecordEnv) : List Frame × Option Exn :=
  gen newId (gw.router.stream aresponses resolved.request) (fun final =>
    (gw.recorder.record store cold env (recordCall turn newId resolved final)).2.2)

end ResponsesGateway
