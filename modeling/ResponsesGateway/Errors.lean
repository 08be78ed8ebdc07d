import ResponsesGateway.Python.Text

namespace ResponsesGateway

/-- An attribute of a provider exception: a JSON value, or an object that `json.dumps` refuses and
that `int` converts or not. -/
inductive Attribute where
  | json (j : Json)
  | object (toInt : Except PyError ℤ)

namespace Attribute

def toInt : Attribute → Except PyError ℤ
  | json j => j.toInt
  | object r => r

def toJson? : Attribute → Option Json
  | json j => some j
  | object _ => none

end Attribute

inductive GatewayError where
  | featureNotSupported (feature param : String) (provider workaroundUrl : Option String)
  | previousResponseNotFound (previousResponseId : Json)
  | previousResponseExpired (previousResponseId : Json)
  | previousResponseProviderMismatch (parentProvider currentProvider : String)
  | coldStorageUnavailable (message : String)
  | storageUnavailable (message : String)
  | providerError (message : String) (statusCode : ℤ) (details : List (String × Attribute))

namespace GatewayError

def statusCode : GatewayError → ℤ
  | featureNotSupported .. => 422
  | previousResponseNotFound _ => 404
  | previousResponseExpired _ => 410
  | previousResponseProviderMismatch .. => 409
  | coldStorageUnavailable _ => 503
  | storageUnavailable _ => 503
  | providerError _ statusCode _ => statusCode

def errorType : GatewayError → String
  | featureNotSupported .. => "feature_not_supported"
  | previousResponseNotFound _ => "previous_response_not_found"
  | previousResponseExpired _ => "previous_response_expired"
  | previousResponseProviderMismatch .. => "previous_response_provider_mismatch"
  | coldStorageUnavailable _ => "cold_storage_unavailable"
  | storageUnavailable _ => "storage_unavailable"
  | providerError .. => "provider_error"

def whenGiven (x : Option String) (render : String → String) : String :=
  match x with
  | some s => if s = "" then "" else render s
  | none => ""

def message : GatewayError → String
  | featureNotSupported feature _ provider workaroundUrl =>
      feature ++ " is not yet supported" ++
        whenGiven provider (fun p => " for provider '" ++ p ++ "'") ++
        whenGiven workaroundUrl (fun u => ". Track at " ++ u)
  | previousResponseNotFound id => "previous_response_id '" ++ id.text ++ "' not found"
  | previousResponseExpired id => "previous_response_id '" ++ id.text ++ "' has expired"
  | previousResponseProviderMismatch parent current =>
      "chained response was for provider '" ++ parent ++ "' but current request targets provider '" ++
        current ++ "'; cannot reuse session across providers"
  | coldStorageUnavailable message => message
  | storageUnavailable message => message
  | providerError message _ _ => message

def code : GatewayError → Option String
  | featureNotSupported .. => some "feature_not_supported"
  | _ => none

def param : GatewayError → Option String
  | featureNotSupported _ param _ _ => some param
  | previousResponseNotFound _ => some "previous_response_id"
  | previousResponseExpired _ => some "previous_response_id"
  | previousResponseProviderMismatch .. => some "model"
  | _ => none

def details : GatewayError → List (String × Attribute)
  | providerError _ _ details => details
  | _ => []

def setGiven (body : JsonDict) (k : String) : Option String → JsonDict
  | some s => if s = "" then body else body.set k (.str s)
  | none => body

/-- `to_response_body()["error"]` as `json.dumps` takes it; details that are no JSON value make it
raise. -/
def toResponseBody (e : GatewayError) : Except PyError JsonDict :=
  let body := Dict.ofEntries [("type", .str e.errorType), ("message", .str e.message)]
  let body := setGiven (setGiven body "code" e.code) "param" e.param
  if e.details = [] then .ok body
  else
    match e.details.mapM (fun d => d.2.toJson?.map (fun j => (d.1, j))) with
    | some ds => .ok (body.set "details" (.obj (.ofEntries ds)))
    | none => .error .typeError

end GatewayError

inductive Exn where
  | gateway (e : GatewayError)
  | python (e : PyError)

abbrev Py := Except Exn

def liftPy {α : Type} : Except PyError α → Py α
  | .ok a => .ok a
  | .error e => .error (.python e)

@[simp] theorem liftPy_ok {α : Type} (a : α) : liftPy (.ok a) = .ok a := rfl

@[simp] theorem liftPy_error {α : Type} (e : PyError) :
    liftPy (.error e : Except PyError α) = .error (.python e) := rfl

end ResponsesGateway
