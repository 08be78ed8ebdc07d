import ResponsesGateway.Api.CreateResponse
import ResponsesGateway.Foundation.Transition

namespace ResponsesGateway

open SessionResolver

inductive Stage where
  | calling
  | streaming (bridge : StreamBridge)
  | answered (response : JsonDict)
  | inserting (response : JsonDict) (row : SessionRecord)
  | finished (response : JsonDict) (row : Option SessionRecord)
  | failed (exn : Exn)

namespace Stage

def row? : Stage → Option SessionRecord
  | finished _ row => row
  | _ => none

end Stage

inductive Phase where
  | resolving (prevId : String)
  | walking (prevId : String) (parent : SessionRecord) (walk : ChainWalk)
  | unresolved (exn : Exn)
  | resolved (resolved : ResolvedRequest) (stage : Stage)

/-- A request in progress: `body` is what the client sent, `sent` what litellm was called with,
`frames` what the client has got of the event stream. -/
structure Request where
  newId : String
  body : JsonDict
  turn : Turn
  sent : Option JsonDict
  frames : List Frame
  phase : Phase

structure State where
  store : SessionStore
  cold : Option ColdStorage
  now : Time
  requests : List Request

/-- What can happen to one request between two of its awaits. -/
inductive Move where
  | read
  | readError (exn : Exn)
  | respond (answer : Except ProviderException ProviderObject)
  | connect
  | event (event : ProviderObject)
  | endStream (ending : Option ProviderException)
  | record (newSessionId : String) (put : Except Exn String)
  | insert (error : Option Exn)

inductive Action where
  | receive (payload : JsonDict) (uuid : String)
  | move (i : ℕ) (m : Move)
  | tick (d : ℕ)
  | deleteExpired (asOf : Time)

namespace Request

def initialPhase (payload : JsonDict) : Phase :=
  match namedId payload with
  | .ok none => .resolved (passThrough payload) .calling
  | .ok (some prevId) => .resolving prevId
  | .error exn => .unresolved exn

def start (payload : JsonDict) (uuid : String) (turn : Turn) : Request :=
  ⟨newResponseId uuid, payload, turn, none, [], initialPhase turn.payload⟩

def settle (r : Request) (resolved : ResolvedRequest) (outcome : Py Unit) (finished : Stage) : Request :=
  { r with
    frames := if r.turn.streaming then r.frames ++ (closing r.newId outcome).1 else r.frames
    phase := .resolved resolved (match outcome with
      | .ok () => finished
      | .error exn => .failed exn) }

end Request

/-- Cold storage draws its keys anew. -/
def freshPut (cold : Option ColdStorage) (put : Except Exn String) : Bool :=
  match cold, put with
  | some storage, .ok key => key != "" && decide (key ∉ storage.objects.keys)
  | _, _ => true

def move (gw : Gateway) (s : State) (r : Request) (m : Move) :
    Option (Request × SessionStore × Option ColdStorage) :=
  match r.phase, m with
  | .resolving prevId, .read =>
      match checkParent s.now prevId r.turn.provider (s.store.getById prevId) with
      | .error exn => some ({ r with phase := .unresolved exn }, s.store, s.cold)
      | .ok parent => some ({ r with phase := .walking prevId parent (Walk.start prevId) }, s.store, s.cold)
  | .walking prevId parent walk, .read =>
      let walk := walkStep s.store walk
      if walk.next? = none then
        -- Objects in cold storage never change, so their reads are taken together; in `backedMove` they are not.
        match reconstructMessages s.cold walk.chain.reverse with
        | .error exn => some ({ r with phase := .unresolved exn }, s.store, s.cold)
        | .ok history =>
            let resolved := ⟨rewrite r.turn.payload history, some parent.sessionId, some prevId⟩
            some ({ r with phase := .resolved resolved .calling }, s.store, s.cold)
      else some ({ r with phase := .walking prevId parent walk }, s.store, s.cold)
  | .resolving _, .readError exn => some ({ r with phase := .unresolved exn }, s.store, s.cold)
  | .walking _ _ _, .readError exn => some ({ r with phase := .unresolved exn }, s.store, s.cold)
  | .resolved resolved .calling, .respond answer =>
      if r.turn.streaming then none
      else
        let r := { r with sent := (gw.router.callKeywords resolved.request).toOption }
        match gw.router.call (fun _ => answer) resolved.request with
        | .error exn => some (r.settle resolved (.error exn) .calling, s.store, s.cold)
        | .ok response =>
            let response := response.set "id" (.str r.newId)
            some ({ r with phase := .resolved resolved (.answered response) }, s.store, s.cold)
  | .resolved resolved .calling, .connect =>
      if r.turn.streaming then
        match gw.router.streamKeywords resolved.request with
        | .error x =>
            some (r.settle resolved (.error (LLMRouter.wrap (.ofPyError x))) .calling, s.store, s.cold)
        | .ok keywords =>
            some ({ r with
              sent := some keywords
              phase := .resolved resolved (.streaming (.init (some r.newId))) }, s.store, s.cold)
      else none
  | .resolved resolved (.streaming bridge), .event event =>
      let (out, result) := bridge.teeEvent (eventToDict event)
      let r := { r with frames := r.frames ++ out.map Frame.data }
      match result with
      | .error x => some (r.settle resolved (.error (.python x)) .calling, s.store, s.cold)
      | .ok bridge => some ({ r with phase := .resolved resolved (.streaming bridge) }, s.store, s.cold)
  | .resolved resolved (.streaming bridge), .endStream ending =>
      match ending with
      | some exc => some (r.settle resolved (.error (LLMRouter.wrap exc)) .calling, s.store, s.cold)
      | none =>
          let final := finalPayload r.newId bridge
          some ({ r with phase := .resolved resolved (.answered final) }, s.store, s.cold)
  | .resolved resolved (.answered response), .record newSessionId put =>
      if r.turn.storeFlag.truthy then
        match gw.recorder.ttlAt s.now with
        | .error x => some (r.settle resolved (.error (.python x)) .calling, s.store, s.cold)
        | .ok _ =>
            if freshPut s.cold put then
              let call := recordCall r.turn r.newId resolved response
              let (row, cold) := gw.recorder.prepare s.cold ⟨s.now, newSessionId, put, none⟩ call
              some ({ r with phase := .resolved resolved (.inserting response row) }, s.store, cold)
            else none
      else some (r.settle resolved (.ok ()) (.finished response none), s.store, s.cold)
  | .resolved resolved (.inserting response row), .insert error =>
      match SessionRecorder.insertRow s.store error row with
      | .error exn => some (r.settle resolved (.error exn) .calling, s.store, s.cold)
      | .ok store => some (r.settle resolved (.ok ()) (.finished response (some row)), store, s.cold)
  | _, _ => none

/-- A new id is drawn that no request got before. A rejected request leaves nothing behind. -/
def step (gw : Gateway) (s : State) : Action → Option State
  | .receive payload uuid =>
      if newResponseId uuid ∈ s.requests.map Request.newId then none
      else
        match receive gw payload with
        | .error _ => some s
        | .ok turn => some { s with requests := s.requests ++ [.start payload uuid turn] }
  | .move i m => do
      let r ← s.requests[i]?
      let (r, store, cold) ← move gw s r m
      return { s with store := store, cold := cold, requests := s.requests.set i r }
  | .tick d => some { s with now := s.now + d }
  | .deleteExpired asOf => some { s with store := s.store.deleteExpired asOf }

namespace State

def initial (cold : Option ColdStorage) (now : Time) : State := ⟨.empty, cold, now, []⟩

end State

inductive Moves (gw : Gateway) (s : State) (r : Request) :
    Request → SessionStore → Option ColdStorage → Prop
  | abandoned {exn} : (∀ resolved stage, r.phase ≠ .resolved resolved stage) →
      Moves gw s r { r with phase := .unresolved exn } s.store s.cold
  | accepted {prevId parent} : r.phase = .resolving prevId →
      checkParent s.now prevId r.turn.provider (s.store.getById prevId) = .ok parent →
      Moves gw s r { r with phase := .walking prevId parent (Walk.start prevId) } s.store s.cold
  | climbed {prevId parent walk} : r.phase = .walking prevId parent walk →
      Moves gw s r { r with phase := .walking prevId parent (walkStep s.store walk) } s.store s.cold
  | reconstructed {prevId parent walk history resolved} : r.phase = .walking prevId parent walk →
      (walkStep s.store walk).next? = none →
      reconstructMessages s.cold (walkStep s.store walk).chain.reverse = .ok history →
      resolved = ⟨rewrite r.turn.payload history, some parent.sessionId, some prevId⟩ →
      Moves gw s r { r with phase := .resolved resolved .calling } s.store s.cold
  | failed {resolved stage sent frames exn} : r.phase = .resolved resolved stage → stage.row? = none →
      (sent = r.sent ∨ ∀ keywords, sent = some keywords → r.turn.streaming = false ∧
        gw.router.callKeywords resolved.request = .ok keywords) →
      Moves gw s r ⟨r.newId, r.body, r.turn, sent, frames, .resolved resolved (.failed exn)⟩ s.store s.cold
  | answered {resolved keywords response} : r.phase = .resolved resolved .calling →
      r.turn.streaming = false → gw.router.callKeywords resolved.request = .ok keywords →
      Moves gw s r { r with sent := some keywords, phase := .resolved resolved (.answered response) }
        s.store s.cold
  | connected {resolved keywords} : r.phase = .resolved resolved .calling → r.turn.streaming = true →
      gw.router.streamKeywords resolved.request = .ok keywords →
      Moves gw s r { r with
        sent := some keywords
        phase := .resolved resolved (.streaming (.init (some r.newId))) } s.store s.cold
  | forwarded {resolved bridge bridge' event} : r.phase = .resolved resolved (.streaming bridge) →
      (bridge.teeEvent event).2 = .ok bridge' →
      Moves gw s r { r with
        frames := r.frames ++ (bridge.teeEvent event).1.map Frame.data
        phase := .resolved resolved (.streaming bridge') } s.store s.cold
  | ended {resolved bridge} : r.phase = .resolved resolved (.streaming bridge) →
      Moves gw s r { r with phase := .resolved resolved (.answered (finalPayload r.newId bridge)) }
        s.store s.cold
  | skipped {resolved response frames} : r.phase = .resolved resolved (.answered response) →
      r.turn.storeFlag.truthy = false →
      Moves gw s r { r with frames := frames, phase := .resolved resolved (.finished response none) }
        s.store s.cold
  | prepared {resolved response newSessionId put row cold} :
      r.phase = .resolved resolved (.answered response) →
      r.turn.storeFlag.truthy = true → freshPut s.cold put = true →
      gw.recorder.prepare s.cold ⟨s.now, newSessionId, put, none⟩
        (recordCall r.turn r.newId resolved response) = (row, cold) →
      Moves gw s r { r with phase := .resolved resolved (.inserting response row) } s.store cold
  | inserted {resolved response row store frames} : r.phase = .resolved resolved (.inserting response row) →
      s.store.insert row = .ok store →
      Moves gw s r { r with frames := frames, phase := .resolved resolved (.finished response (some row)) }
        store s.cold

theorem LLMRouter.callKeywords_of_call_ok {router : LLMRouter} {request response : JsonDict}
    {aresponses : JsonDict → Except ProviderException ProviderObject}
    (h : router.call aresponses request = .ok response) :
    ∃ keywords, router.callKeywords request = .ok keywords := by
  unfold LLMRouter.call at h
  cases hk : router.callKeywords request with
  | error x => simp [hk] at h
  | ok keywords => exact ⟨keywords,rfl⟩

theorem moves_of_move {gw : Gateway} {s : State} {r r' : Request} {m : Move} {store : SessionStore}
    {cold : Option ColdStorage} (h : move gw s r m = some (r', store, cold)) :
    Moves gw s r r' store cold := by
  unfold move at h
  split at h
  case h_1 prevId hphase =>
    cases ha : checkParent s.now prevId r.turn.provider (s.store.getById prevId) with
    | error exn => rw [ha] at h; cases h; exact .abandoned (by simp [hphase])
    | ok parent => rw [ha] at h; cases h; exact .accepted hphase ha
  case h_2 prevId parent walk hphase =>
    dsimp only at h
    by_cases hn : (walkStep s.store walk).next? = none
    · rw [if_pos hn] at h
      cases hr : reconstructMessages s.cold (walkStep s.store walk).chain.reverse with
      | error exn => rw [hr] at h; cases h; exact .abandoned (by simp [hphase])
      | ok history => rw [hr] at h; cases h; exact .reconstructed hphase hn hr rfl
    · rw [if_neg hn] at h; cases h; exact .climbed hphase
  case h_3 hphase => cases h; exact .abandoned (by simp [hphase])
  case h_4 hphase => cases h; exact .abandoned (by simp [hphase])
  case h_5 resolved answer hphase =>
    by_cases hs : r.turn.streaming = true
    · rw [if_pos hs] at h; cases h
    · rw [if_neg hs] at h
      have hs : r.turn.streaming = false := by simpa using hs
      dsimp only at h
      cases hc : gw.router.call (fun _ => answer) resolved.request with
      | error exn =>
        rw [hc] at h; cases h
        refine .failed hphase rfl (.inr fun keywords hk => ⟨hs,?_⟩)
        cases hkw : gw.router.callKeywords resolved.request with
        | error x => simp [hkw, Except.toOption] at hk
        | ok kw => simpa [hkw, Except.toOption] using hk
      | ok response =>
        obtain ⟨keywords,hk⟩ := LLMRouter.callKeywords_of_call_ok hc
        rw [hc, hk] at h; cases h
        exact .answered hphase hs hk
  case h_6 resolved hphase =>
    by_cases hs : r.turn.streaming = true
    · rw [if_pos hs] at h
      cases hk : gw.router.streamKeywords resolved.request with
      | error x => rw [hk] at h; cases h; exact .failed hphase rfl (.inl rfl)
      | ok keywords => rw [hk] at h; cases h; exact .connected hphase hs hk
    · rw [if_neg hs] at h; cases h
  case h_7 resolved bridge event hphase =>
    dsimp only at h
    cases ht : (bridge.teeEvent (eventToDict event)).2 with
    | error x => rw [ht] at h; cases h; exact .failed hphase rfl (.inl rfl)
    | ok bridge' => rw [ht] at h; cases h; exact .forwarded hphase ht
  case h_8 resolved bridge ending hphase =>
    cases ending with
    | some exc => cases h; exact .failed hphase rfl (.inl rfl)
    | none => cases h; exact .ended hphase
  case h_9 resolved response newSessionId put hphase =>
    by_cases hf : r.turn.storeFlag.truthy = true
    · rw [if_pos hf] at h
      cases ht : gw.recorder.ttlAt s.now with
      | error x => rw [ht] at h; cases h; exact .failed hphase rfl (.inl rfl)
      | ok ttlAt =>
        rw [ht] at h
        dsimp only at h
        by_cases hp : freshPut s.cold put = true
        · rw [if_pos hp] at h; cases h; exact .prepared hphase hf hp rfl
        · rw [if_neg hp] at h; cases h
    · rw [if_neg hf] at h; cases h; exact .skipped hphase (by simpa using hf)
  case h_10 resolved response row error hphase =>
    cases error with
    | some exn => cases h; exact .failed hphase rfl (.inl rfl)
    | none =>
      dsimp only [SessionRecorder.insertRow] at h
      cases hi : s.store.insert row with
      | error x => rw [hi] at h; cases h; exact .failed hphase rfl (.inl rfl)
      | ok store' => rw [hi] at h; cases h; exact .inserted hphase hi
  case h_11 => cases h

end ResponsesGateway
