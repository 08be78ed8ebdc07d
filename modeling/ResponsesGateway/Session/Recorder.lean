import ResponsesGateway.Config
import ResponsesGateway.Session.Store
import ResponsesGateway.Storage.Cold

namespace ResponsesGateway

structure SessionRecorder where
  ttl : ℤ
  threshold : ℕ

structure RecordCall where
  responseId : String
  originalRequest : JsonDict
  responsePayload : JsonDict
  provider : String
  model : Json
  sessionId : Option String
  parentId : Option String
  storeFlag : Json

/-- What one `record` meets: the clock, the id generator, the key or the exception of the cold `put`,
and the exception the database raises instead of taking the row. -/
structure RecordEnv where
  now : Time
  newSessionId : String
  put : Except Exn String
  insertError : Option Exn

def RecordCall.size (c : RecordCall) : ℕ :=
  (Json.dumps (.obj c.originalRequest)).length + (Json.dumps (.obj c.responsePayload)).length

def RecordCall.coldPayload (c : RecordCall) : JsonDict :=
  .ofEntries [("input", .obj c.originalRequest), ("output", .obj c.responsePayload)]

namespace SessionRecorder

variable (recorder : SessionRecorder)

/-- `now + self._ttl`. -/
def ttlAt (now : Time) : Except PyError Time :=
  if Representable (now + recorder.ttl) then .ok (now + recorder.ttl) else .error .overflowError

def inlineRow (env : RecordEnv) (c : RecordCall) : SessionRecord where
  id := c.responseId
  sessionId := match c.sessionId with
    | some s => if s = "" then env.newSessionId else s
    | none => env.newSessionId
  parentId := c.parentId
  model := c.model
  provider := c.provider
  inputJson := some c.originalRequest
  outputJson := some c.responsePayload
  usageJson := c.responsePayload.get "usage"
  coldStorageKey := none
  createdAt := env.now
  ttlAt := some (env.now + recorder.ttl)

def offloadedRow (row : SessionRecord) (key : String) : SessionRecord :=
  { row with inputJson := none, outputJson := none, coldStorageKey := some key }

def prepare (cold : Option ColdStorage) (env : RecordEnv) (c : RecordCall) :
    SessionRecord × Option ColdStorage :=
  let row := recorder.inlineRow env c
  match cold with
  | none => (row, none)
  | some objects =>
      if recorder.threshold < c.size then
        match env.put with
        | .ok key => (offloadedRow row key, some (objects.put key c.coldPayload))
        | .error _ => (row, some objects)
      else (row, some objects)

def insertRow (store : SessionStore) (insertError : Option Exn) (row : SessionRecord) : Py SessionStore :=
  match insertError with
  | some exn => .error exn
  | none => liftPy (store.insert row)

def record (store : SessionStore) (cold : Option ColdStorage) (env : RecordEnv) (c : RecordCall) :
    SessionStore × Option ColdStorage × Py Unit :=
  if c.storeFlag.truthy then
    match recorder.ttlAt env.now with
    | .error x => (store, cold, .error (.python x))
    | .ok _ =>
        let (row, cold) := recorder.prepare cold env c
        match insertRow store env.insertError row with
        | .ok store => (store, cold, .ok ())
        | .error exn => (store, cold, .error exn)
  else (store, cold, .ok ())

variable {recorder} {cold : Option ColdStorage} {env : RecordEnv} {c : RecordCall}

variable (recorder cold env c) in
theorem prepare_cases :
    (recorder.prepare cold env c = (recorder.inlineRow env c, cold)) ∨
    ∃ objects key, cold = some objects ∧ recorder.threshold < c.size ∧ env.put = .ok key ∧
      recorder.prepare cold env c =
        (offloadedRow (recorder.inlineRow env c) key, some (objects.put key c.coldPayload)) := by
  cases cold with
  | none => exact .inl rfl
  | some objects =>
    by_cases hs : recorder.threshold < c.size
    · cases hp : env.put with
      | ok key => exact .inr ⟨objects,key,rfl,hs,rfl,by simp [prepare, hs, hp]⟩
      | error e => exact .inl (by simp [prepare, hs, hp])
    · exact .inl (by simp [prepare, hs])

theorem sessionId_inlineRow (hnew : env.newSessionId ≠ "") :
    (recorder.inlineRow env c).sessionId ≠ "" ∧
      ∀ sid, c.sessionId = some sid → sid ≠ "" → (recorder.inlineRow env c).sessionId = sid := by
  simp only [inlineRow]
  cases hc : c.sessionId with
  | none => exact ⟨hnew,fun sid hs => by cases hs⟩
  | some given =>
    by_cases he : given = ""
    · simp [he, hnew]
    · simp [he]

variable (recorder cold env c) in
theorem prepare_columns :
    (recorder.prepare cold env c).1.id = c.responseId ∧
      (recorder.prepare cold env c).1.parentId = c.parentId ∧
      (recorder.prepare cold env c).1.sessionId = (recorder.inlineRow env c).sessionId ∧
      (recorder.prepare cold env c).1.provider = c.provider ∧
      (recorder.prepare cold env c).1.ttlAt = some (env.now + recorder.ttl) := by
  rcases prepare_cases recorder cold env c with he | ⟨_,_,_,_,_,he⟩ <;>
  · rw [he]; exact ⟨rfl,rfl,rfl,rfl,rfl⟩

variable (recorder cold env c) in
theorem prepare_createdAt : (recorder.prepare cold env c).1.createdAt = env.now := by
  rcases prepare_cases recorder cold env c with he | ⟨_,_,_,_,_,he⟩ <;>
  · rw [he]; rfl

theorem record_of_overflow {store : SessionStore} (hstore : c.storeFlag.truthy = true)
    (h : ¬ Representable (env.now + recorder.ttl)) :
    recorder.record store cold env c = (store, cold, .error (.python .overflowError)) := by
  rw [record, if_pos hstore, ttlAt, if_neg h]

theorem record_of_datetime {store : SessionStore} (hstore : c.storeFlag.truthy = true)
    (h : Representable (env.now + recorder.ttl)) :
    recorder.record store cold env c =
      match insertRow store env.insertError (recorder.prepare cold env c).1 with
      | .ok store => (store, (recorder.prepare cold env c).2, .ok ())
      | .error exn => (store, (recorder.prepare cold env c).2, .error exn) := by
  rw [record, if_pos hstore, ttlAt, if_pos h]

theorem record_ok_iff {store store' : SessionStore} {cold' : Option ColdStorage}
    (hstore : c.storeFlag.truthy = true) :
    recorder.record store cold env c = (store', cold', .ok ()) ↔
      Representable (env.now + recorder.ttl) ∧ (recorder.prepare cold env c).2 = cold' ∧ env.insertError = none ∧
        store.insert (recorder.prepare cold env c).1 = .ok store' := by
  by_cases ht : Representable (env.now + recorder.ttl)
  · rw [record_of_datetime hstore ht]
    generalize recorder.prepare cold env c = p
    obtain ⟨row,cold₁⟩ := p
    dsimp only [insertRow]
    cases he : env.insertError with
    | some e => simp
    | none =>
      cases hi : store.insert row with
      | error e => simp
      | ok s => simp [ht, and_comm]
  · rw [record_of_overflow hstore ht]
    simp [ht]

end SessionRecorder

end ResponsesGateway
