import ResponsesGateway.Config
import ResponsesGateway.Errors

namespace ResponsesGateway

def providerFromModel : Json → Except PyError String
  | .str s => .ok (if '/' ∈ s.toList then String.ofList (s.toList.takeWhile (· ≠ '/')) else "openai")
  | .list xs => if .str "/" ∈ xs then .error .attributeError else .ok "openai"
  | .dict fs => if "/" ∈ fs.map Prod.fst then .error .attributeError else .ok "openai"
  | _ => .error .typeError

/-- What litellm yields or returns: a dict, a pydantic model by its dump, or anything else by its
text. -/
inductive ProviderObject where
  | dict (d : JsonDict)
  | modelDump (d : JsonDict)
  | other (text : String)

def eventToDict : ProviderObject → JsonDict
  | .dict d => d
  | .modelDump d => d
  | .other text => .ofEntries [("type", .str "unknown"), ("raw", .str text)]

structure AliasMap where
  params : Dict String JsonDict
  model : ∀ name p, params.get? name = some p → (p.get "model").truthy = true

namespace AliasMap

def empty : AliasMap := ⟨.empty, by simp⟩

def insert (aliases : AliasMap) (name : String) (p : JsonDict) (h : (p.get "model").truthy = true) :
    AliasMap where
  params := aliases.params.set name p
  model := by
    intro n q hq
    rw [Dict.get?_set] at hq
    split at hq
    · cases hq; exact h
    · exact aliases.model n q hq

def addEntry (aliases : AliasMap) (entry : Json) : AliasMap :=
  match entry.asDict with
  | none => aliases
  | some e =>
      let name := e.get "model_name"
      let given := e.get "litellm_params"
      match (if given.truthy then given else .dict []).asDict with
      | none => aliases
      | some p =>
          if h : (p.get "model").truthy = true then
            if name.truthy then aliases.insert name.text p h else aliases
          else aliases

end AliasMap

/-- `cfg` is the parsed file; no file, no aliases. -/
def loadAliasMap : Option Json → Except PyError AliasMap
  | none => .ok .empty
  | some cfg => do
      let cfg ← (if cfg.truthy then cfg else .dict []).methods
      let given := cfg.get "model_list"
      let entries ← (if given.truthy then given else .list []).iter
      return entries.foldl AliasMap.addEntry .empty

theorem AliasMap.get?_addEntry_empty {aliases : AliasMap} (h : aliases.params.get? "" = none) (entry : Json) :
    (aliases.addEntry entry).params.get? "" = none := by
  unfold AliasMap.addEntry
  split
  · exact h
  · dsimp only
    split
    · exact h
    · split
      · split
        · rename_i hname
          simp [AliasMap.insert, (Json.text_ne_empty hname).symm, h]
        · exact h
      · exact h

theorem loadAliasMap_empty {cfg : Option Json} {aliases : AliasMap} (h : loadAliasMap cfg = .ok aliases) :
    aliases.params.get? "" = none := by
  cases cfg with
  | none => cases h; rfl
  | some cfg =>
    simp only [loadAliasMap, Except.bind_eq_ok_iff] at h
    obtain ⟨fields,-,entries,-,he⟩ := h
    cases he
    have hfold (entries : List Json) (aliases : AliasMap) (ha : aliases.params.get? "" = none) :
        (entries.foldl AliasMap.addEntry aliases).params.get? "" = none := by
      induction entries generalizing aliases with
      | nil => exact ha
      | cons entry entries ih => exact ih _ (AliasMap.get?_addEntry_empty ha entry)
    exact hfold entries .empty rfl

/-- An exception out of litellm: its `str` and its attributes, `none` where there is none. -/
structure ProviderException where
  str : Except PyError String
  getattr : String → Except PyError (Option Attribute)

def className : PyError → String
  | .typeError => "TypeError"
  | .attributeError => "AttributeError"
  | .keyError => "KeyError"
  | .valueError => "ValueError"
  | .overflowError => "OverflowError"
  | .databaseError => "DatabaseError"

def ProviderException.ofPyError (x : PyError) : ProviderException :=
  ⟨.ok (className x), fun _ => .ok none⟩

structure ProviderStream where
  events : List ProviderObject
  ending : Option ProviderException

structure LLMRouter where
  cfg : LiteLLMConfig
  aliasMap : AliasMap

namespace LLMRouter

variable (router : LLMRouter)

def resolveRequest (request : JsonDict) : Except PyError JsonDict := do
  match ← (request.getD "model" (.str "")).key with
  | .str requested =>
      match router.aliasMap.params.get? requested with
      | some params => return request.update params
      | none => return request
  | _ => return request

/-- `f(**spread, k=v, ..)`: a keyword given twice is a `TypeError`. -/
def bindKeywords (spread : JsonDict) (given : List (String × Json)) : Except PyError JsonDict :=
  if given.any (fun e => decide (e.1 ∈ spread.keys)) then .error .typeError
  else .ok (spread.setAll given)

def ownKeywords : List (String × Json) :=
  [("timeout", .int router.cfg.requestTimeout), ("num_retries", .int router.cfg.numRetries)]

def callKeywords (request : JsonDict) : Except PyError JsonDict := do
  bindKeywords (← router.resolveRequest request) router.ownKeywords

def streamKeywords (request : JsonDict) : Except PyError JsonDict := do
  bindKeywords (← router.resolveRequest (request.erase "stream"))
    (("stream", .bool true) :: router.ownKeywords)

def detail (exc : ProviderException) (attr : String) : Except PyError (List (String × Attribute)) := do
  match ← exc.getattr attr with
  | none => return []
  | some (.json .null) => return []
  | some v => return [(attr, v)]

def wrapped (exc : ProviderException) : Except PyError GatewayError := do
  let status ← exc.getattr "status_code"
  let type ← detail exc "type"
  let code ← detail exc "code"
  let param ← detail exc "param"
  let message ← exc.str
  let status ← (status.getD (.json (.int 502))).toInt
  return .providerError message status (type ++ code ++ param)

/-- What `raise self._wrap(exc)` raises: the error it builds, or the one met on the way. -/
def wrap (exc : ProviderException) : Exn :=
  match wrapped exc with
  | .ok e => .gateway e
  | .error e => .python e

def call (aresponses : JsonDict → Except ProviderException ProviderObject) (request : JsonDict) :
    Py JsonDict :=
  match router.callKeywords request with
  | .error x => .error (wrap (.ofPyError x))
  | .ok keywords =>
      match aresponses keywords with
      | .ok response => .ok (eventToDict response)
      | .error exc => .error (wrap exc)

def stream (aresponses : JsonDict → ProviderStream) (request : JsonDict) :
    List JsonDict × Option Exn :=
  match router.streamKeywords request with
  | .error x => ([], some (wrap (.ofPyError x)))
  | .ok keywords =>
      let source := aresponses keywords
      (source.events.map eventToDict, source.ending.map wrap)

end LLMRouter

end ResponsesGateway
