import ResponsesGateway.Api.Invariant

namespace ResponsesGateway

open SessionResolver

/-- The moves of one request with no other request in between; those not enabled are left out. -/
def drive (gw : Gateway) (i : ℕ) (s : State) (ms : List Move) : State :=
  ms.foldl (fun s m => (step gw s (.move i m)).getD s) s

def afterResolve : Py ResolvedRequest → Phase
  | .ok resolved => .resolved resolved .calling
  | .error exn => .unresolved exn

section Drive

variable {gw : Gateway} {s : State} {r r' r'' : Request} {i : ℕ} {m : Move} {ms : List Move}
  {store store' : SessionStore} {cold cold' : Option ColdStorage}

theorem reach_drive (ms : List Move) : Reach (step gw) (fun _ _ => True) s (drive gw i s ms) := by
  induction ms generalizing s with
  | nil => exact .refl
  | cons m ms ih =>
    cases hs : step gw s (.move i m) with
    | none => simpa only [drive, List.foldl_cons, hs, Option.getD_none] using ih
    | some s' =>
      have hfirst : Reach (step gw) (fun _ _ => True) s s' := Reach.refl.tail trivial hs
      simpa only [drive, List.foldl_cons, hs, Option.getD_some] using hfirst.trans ih

theorem moved_moved : moved (moved s i r' store cold) i r'' store' cold' = moved s i r'' store' cold' := by
  simp [moved]

theorem moved_self (hr : s.requests[i]? = some r) : moved s i r s.store s.cold = s := by
  have hset : s.requests.set i r = s.requests := by
    obtain ⟨hi,rfl⟩ := List.getElem?_eq_some_iff.mp hr
    exact List.set_getElem_self hi
  rw [moved, hset]

theorem get_moved (hr : s.requests[i]? = some r) : (moved s i r' store cold).requests[i]? = some r' := by
  have hi := (List.getElem?_eq_some_iff.mp hr).1
  simp [moved, hi]

theorem drive_cons (hr : s.requests[i]? = some r) (h : move gw s r m = some (r', store, cold)) :
    drive gw i s (m :: ms) = drive gw i (moved s i r' store cold) ms := by
  have hs : step gw s (.move i m) = some (moved s i r' store cold) := by
    simp only [step, hr, bind, Option.bind_some, h]
    rfl
  simp only [drive, List.foldl_cons, hs, Option.getD_some]

theorem drive_stuck (hr : s.requests[i]? = some r) (h : ∀ m ∈ ms, move gw s r m = none) :
    drive gw i s ms = s := by
  induction ms with
  | nil => rfl
  | cons m ms ih =>
    have hs : step gw s (.move i m) = none := by
      simp only [step, hr, bind, Option.bind_some, h m List.mem_cons_self, Option.bind_none]
    have hrest := ih fun m hm => h m (List.mem_cons_of_mem _ hm)
    simpa only [drive, List.foldl_cons, hs, Option.getD_none] using hrest

end Drive

section Reads

variable {gw : Gateway} {s : State} {r : Request} {i n : ℕ} {prevId : String} {parent : SessionRecord}
  {w : ChainWalk}

theorem stuck_reads (hr : s.requests[i]? = some r) (hp : ∀ prevId, r.phase ≠ .resolving prevId)
    (hw : ∀ prevId parent w, r.phase ≠ .walking prevId parent w) :
    drive gw i s (List.replicate n .read) = s := by
  refine drive_stuck hr fun m hm => ?_
  obtain rfl := List.eq_of_mem_replicate hm
  unfold move
  split <;> simp_all

theorem drive_walk (hr : s.requests[i]? = some r) (hp : r.phase = .walking prevId parent w) (hn : n ≠ 0)
    (hdone : ((walkStep s.store)^[n] w).next? = none) :
    drive gw i s (List.replicate n .read) = moved s i { r with phase := afterResolve (do
      let history ← reconstructMessages s.cold ((walkStep s.store)^[n] w).chain.reverse
      return ⟨rewrite r.turn.payload history, some parent.sessionId, some prevId⟩) } s.store s.cold := by
  induction n generalizing s r w with
  | zero => exact absurd rfl hn
  | succ n ih =>
    rw [Function.iterate_succ_apply] at hdone ⊢
    rw [List.replicate_succ]
    by_cases hlast : (walkStep s.store w).next? = none
    · have hfix : (walkStep s.store)^[n] (walkStep s.store w) = walkStep s.store w :=
        Function.iterate_fixed (Walk.step_of_done hlast) n
      rw [hfix]
      cases hm : reconstructMessages s.cold (walkStep s.store w).chain.reverse with
      | error exn =>
        rw [drive_cons hr (by simp only [move, hp, hlast, hm, if_true]; rfl),
          stuck_reads (get_moved hr) (by simp) (by simp)]
        rfl
      | ok history =>
        rw [drive_cons hr (by simp only [move, hp, hlast, hm, if_true]; rfl),
          stuck_reads (get_moved hr) (by simp) (by simp)]
        rfl
    · have hne : n ≠ 0 := by rintro rfl; exact hlast hdone
      rw [drive_cons hr (by simp only [move, hp, hlast, if_false]; rfl),
        ih (get_moved hr) rfl hne hdone, moved_moved]
      rfl

theorem drive_reads (hr : s.requests[i]? = some r) (hp : r.phase = Request.initialPhase r.turn.payload)
    (hn : s.store.rows.length + 1 < n) :
    drive gw i s (List.replicate n .read) = moved s i
      { r with phase := afterResolve (resolve s.store s.cold s.now r.turn.payload r.turn.provider) }
      s.store s.cold := by
  have hself (phase : Phase) (hphase : r.phase = phase) :
      moved s i { r with phase := phase } s.store s.cold = s := by
    subst hphase
    exact moved_self hr
  obtain ⟨n,rfl⟩ := Nat.exists_eq_succ_of_ne_zero (Nat.ne_zero_of_lt hn)
  unfold Request.initialPhase at hp
  unfold resolve
  cases hnamed : namedId r.turn.payload with
  | error exn =>
    rw [hnamed] at hp
    rw [stuck_reads hr (by simp [hp]) (by simp [hp])]
    exact (hself _ hp).symm
  | ok named =>
    rw [hnamed] at hp
    cases named with
    | none =>
      rw [stuck_reads hr (by simp [hp]) (by simp [hp])]
      exact (hself _ hp).symm
    | some prevId =>
      rw [List.replicate_succ]
      cases hc : checkParent s.now prevId r.turn.provider (s.store.getById prevId) with
      | error exn =>
        rw [drive_cons hr (by simp only [move, hp, hc]; rfl),
          stuck_reads (get_moved hr) (by simp) (by simp)]
        simp only [bind, Except.bind, hc]
        rfl
      | ok parent =>
        have hdone := walk_done s.store prevId (Nat.lt_of_succ_lt_succ hn)
        rw [drive_cons hr (by simp only [move, hp, hc]; rfl),
          drive_walk (get_moved hr) rfl (by omega) hdone, moved_moved]
        simp only [bind, Except.bind, hc, moved, walkParentChain_eq s.store prevId (Nat.lt_of_succ_lt_succ hn)]

end Reads

section Stream

variable {gw : Gateway} {s : State} {r : Request} {i : ℕ} {resolved : ResolvedRequest}
  {bridge bridge' : StreamBridge} {ms : List Move}

theorem stuck_failed {exn : Exn} (hr : s.requests[i]? = some r)
    (hp : r.phase = .resolved resolved (.failed exn)) : drive gw i s ms = s := by
  refine drive_stuck hr fun m _ => ?_
  unfold move
  split <;> simp_all

theorem stuck_finished {response : JsonDict} {row : Option SessionRecord} (hr : s.requests[i]? = some r)
    (hp : r.phase = .resolved resolved (.finished response row)) : drive gw i s ms = s := by
  refine drive_stuck hr fun m _ => ?_
  unfold move
  split <;> simp_all

def afterEvents (r : Request) (resolved : ResolvedRequest) (bridge : StreamBridge) (events : List Event) :
    Request :=
  let r := { r with frames := r.frames ++ (bridge.tee events).1.map Frame.data }
  match (bridge.tee events).2 with
  | .ok bridge => { r with phase := .resolved resolved (.streaming bridge) }
  | .error x => r.settle resolved (.error (.python x)) .calling

theorem drive_events {events : List ProviderObject} (hr : s.requests[i]? = some r)
    (hp : r.phase = .resolved resolved (.streaming bridge)) :
    drive gw i s (events.map Move.event ++ ms) =
      drive gw i (moved s i (afterEvents r resolved bridge (events.map eventToDict)) s.store s.cold) ms := by
  induction events generalizing s r bridge with
  | nil =>
    have hsame : afterEvents r resolved bridge [] = r := by
      cases r
      simp only at hp
      simp [afterEvents, StreamBridge.tee, hp]
    simp only [List.map_nil, List.nil_append, hsame, moved_self hr]
  | cons e events ih =>
    rw [List.map_cons, List.cons_append, List.map_cons]
    cases he : (bridge.teeEvent (eventToDict e)).2 with
    | error x =>
      have hafter : afterEvents r resolved bridge (eventToDict e :: events.map eventToDict) =
          Request.settle { r with frames := r.frames ++ (bridge.teeEvent (eventToDict e)).1.map Frame.data }
            resolved (.error (.python x)) .calling := by
        simp only [afterEvents, StreamBridge.tee_cons_of_error _ he]
      rw [drive_cons hr (by simp only [move, hp, he]; rfl), hafter, stuck_failed (get_moved hr) rfl,
        stuck_failed (get_moved hr) rfl]
      rw [hp]
    | ok b =>
      have hafter : afterEvents r resolved bridge (eventToDict e :: events.map eventToDict) =
          afterEvents { r with
            frames := r.frames ++ (bridge.teeEvent (eventToDict e)).1.map Frame.data
            phase := .resolved resolved (.streaming b) } resolved b (events.map eventToDict) := by
        simp only [afterEvents, StreamBridge.tee_cons_of_ok _ he, List.map_append, List.append_assoc,
          Request.settle]
      rw [drive_cons hr (by simp only [move, hp, he]; rfl), hafter, ih (get_moved hr) rfl, moved_moved]
      rfl

theorem drive_record {response : JsonDict} {env : RecordEnv} (hr : s.requests[i]? = some r)
    (hp : r.phase = .resolved resolved (.answered response)) (hnow : env.now = s.now)
    (hput : freshPut s.cold env.put = true) {recorded : SessionStore × Option ColdStorage × Py Unit}
    (hrec : gw.recorder.record s.store s.cold env (recordCall r.turn r.newId resolved response) = recorded) :
    ∃ r', drive gw i s [.record env.newSessionId env.put, .insert env.insertError] =
        moved s i r' recorded.1 recorded.2.1 ∧
      r'.frames = if r.turn.streaming then r.frames ++ (closing r.newId recorded.2.2).1 else r.frames := by
  obtain ⟨now,newSessionId,put,insertError⟩ := env
  subst hnow
  dsimp only at hput ⊢
  have hflag : (recordCall r.turn r.newId resolved response).storeFlag = r.turn.storeFlag := rfl
  by_cases hstore : r.turn.storeFlag.truthy = true
  · by_cases ht : Representable (s.now + gw.recorder.ttl)
    · have hlast : gw.recorder.ttlAt s.now = .ok (s.now + gw.recorder.ttl) := if_pos ht
      rw [SessionRecorder.record_of_datetime hstore ht] at hrec
      -- The exception of the insert plays no part in what is prepared.
      have hsame : gw.recorder.prepare s.cold ⟨s.now, newSessionId, put, insertError⟩
          (recordCall r.turn r.newId resolved response) = gw.recorder.prepare s.cold
            ⟨s.now, newSessionId, put, none⟩ (recordCall r.turn r.newId resolved response) := rfl
      rw [hsame] at hrec
      cases hprep : gw.recorder.prepare s.cold ⟨s.now, newSessionId, put, none⟩
        (recordCall r.turn r.newId resolved response) with
      | mk row cold =>
        rw [hprep] at hrec
        dsimp only at hrec
        rw [drive_cons hr (by simp only [move, hp, hstore, hlast, hput, hprep, if_true]; rfl)]
        cases hi : SessionRecorder.insertRow s.store insertError row with
        | error exn =>
          rw [hi] at hrec
          subst hrec
          rw [drive_cons (get_moved hr) (by simp only [move, moved, hi]; rfl), moved_moved]
          exact ⟨_,rfl,rfl⟩
        | ok store =>
          rw [hi] at hrec
          subst hrec
          rw [drive_cons (get_moved hr) (by simp only [move, moved, hi]; rfl), moved_moved]
          exact ⟨_,rfl,rfl⟩
    · have hover : gw.recorder.ttlAt s.now = .error .overflowError := if_neg ht
      rw [SessionRecorder.record_of_overflow hstore ht] at hrec
      subst hrec
      rw [drive_cons hr (by simp only [move, hp, hstore, hover, if_true]; rfl), stuck_failed (get_moved hr) rfl]
      exact ⟨_,rfl,rfl⟩
  · rw [SessionRecorder.record, hflag, if_neg hstore] at hrec
    subst hrec
    rw [drive_cons hr (by simp only [move, hp, hstore]; rfl), stuck_finished (get_moved hr) rfl]
    exact ⟨_,rfl,rfl⟩

theorem drive_ending {ending : Option ProviderException} {env : RecordEnv} (hr : s.requests[i]? = some r)
    (hp : r.phase = .resolved resolved (.streaming bridge)) (hs : r.turn.streaming = true)
    (hnow : env.now = s.now) (hput : freshPut s.cold env.put = true) :
    ∃ r', (drive gw i s [.endStream ending, .record env.newSessionId env.put,
        .insert env.insertError]).requests[i]? = some r' ∧
      r'.frames = r.frames ++ (closing r.newId (match ending.map LLMRouter.wrap with
        | some exn => .error exn
        | none => (gw.recorder.record s.store s.cold env
            (recordCall r.turn r.newId resolved (finalPayload r.newId bridge))).2.2)).1 := by
  cases ending with
  | some exc =>
    rw [drive_cons hr (by simp only [move, hp]; rfl), stuck_failed (get_moved hr) rfl]
    exact ⟨_,get_moved hr,by simp [Request.settle, hs]⟩
  | none =>
    rw [drive_cons hr (by simp only [move, hp]; rfl)]
    have hmid : (moved s i { r with phase := .resolved resolved (.answered (finalPayload r.newId bridge)) }
        s.store s.cold).requests[i]? = some { r with
          phase := .resolved resolved (.answered (finalPayload r.newId bridge)) } := get_moved hr
    obtain ⟨r',hdrive,hframes⟩ := @drive_record gw _ _ i resolved _ env hmid rfl hnow hput _ rfl
    rw [hdrive]
    refine ⟨r',get_moved hmid,?_⟩
    rw [hframes]
    exact if_pos hs

def streamMoves (source : ProviderStream) (env : RecordEnv) : List Move :=
  .connect :: (source.events.map .event ++
    [.endStream source.ending, .record env.newSessionId env.put, .insert env.insertError])

theorem drive_stream {source : ProviderStream} {env : RecordEnv} (hr : s.requests[i]? = some r)
    (hp : r.phase = .resolved resolved .calling) (hs : r.turn.streaming = true) (hnow : env.now = s.now)
    (hput : freshPut s.cold env.put = true) :
    ∃ r', (drive gw i s (streamMoves source env)).requests[i]? = some r' ∧
      r'.frames = r.frames ++ (streamingResponse gw (fun _ => source) r.turn r.newId resolved s.store s.cold
        env).1 := by
  rw [streamMoves]
  unfold streamingResponse gen LLMRouter.stream
  cases hk : gw.router.streamKeywords resolved.request with
  | error x =>
    rw [drive_cons hr (by simp only [move, hp, hs, hk, if_true]; rfl), stuck_failed (get_moved hr) rfl]
    exact ⟨_,get_moved hr,by simp [Request.settle, hs, streamOutcome, StreamBridge.tee]⟩
  | ok keywords =>
    rw [drive_cons hr (by simp only [move, hp, hs, hk, if_true]; rfl), drive_events (get_moved hr) rfl]
    simp only [streamOutcome]
    cases ht : ((StreamBridge.init (some r.newId)).tee (source.events.map eventToDict)).2 with
    | error x =>
      simp only [afterEvents, ht, moved_moved]
      rw [stuck_failed (get_moved hr) rfl]
      exact ⟨_,get_moved hr,by simp [Request.settle, hs]⟩
    | ok bridge =>
      simp only [afterEvents, ht, moved_moved]
      have hmid : (moved s i { r with
          sent := some keywords
          frames := r.frames ++
            ((StreamBridge.init (some r.newId)).tee (source.events.map eventToDict)).1.map Frame.data
          phase := .resolved resolved (.streaming bridge) } s.store s.cold).requests[i]? = some _ :=
        get_moved hr
      obtain ⟨r',hdrive,hframes⟩ := @drive_ending gw _ _ i resolved bridge source.ending env hmid rfl hs
        hnow hput
      refine ⟨r',hdrive,hframes.trans ?_⟩
      cases source.ending with
      | some exc => exact List.append_assoc _ _ _
      | none => exact List.append_assoc _ _ _

end Stream

end ResponsesGateway
