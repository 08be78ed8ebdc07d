import ResponsesGateway.Api.Forest

namespace ResponsesGateway

open SessionResolver SessionRecorder

inductive Holding (cold : Option ColdStorage) (row : SessionRecord) (request response : JsonDict) : Prop
  | inline : row.inputJson = some request → row.outputJson = some response → row.coldStorageKey = none →
      Holding cold row request response
  | offloaded {objects key} : cold = some objects → row.inputJson = none → row.outputJson = none →
      row.coldStorageKey = some key → key ≠ "" →
      objects.get key = .ok (.ofEntries [("input", .obj request), ("output", .obj response)]) →
      Holding cold row request response

def Request.written? (r : Request) : Option (JsonDict × SessionRecord) :=
  match r.phase with
  | .resolved _ (.inserting response row) => some (response, row)
  | .resolved _ (.finished response (some row)) => some (response, row)
  | _ => none

structure Durable (s : State) : Prop where
  holding : ∀ r ∈ s.requests, ∀ response row, r.written? = some (response, row) →
    Holding s.cold row r.turn.payload response
  apart : ∀ r₁ ∈ s.requests, ∀ r₂ ∈ s.requests, ∀ response₁ row₁ response₂ row₂ key,
    r₁.written? = some (response₁, row₁) → r₂.written? = some (response₂, row₂) →
    row₁.coldStorageKey = some key → row₂.coldStorageKey = some key → r₁.newId = r₂.newId

section Holding

variable {cold : Option ColdStorage} {row : SessionRecord} {request response : JsonDict} {key : String}

theorem ColdStorage.mem_keys_of_get {objects : ColdStorage} {payload : JsonDict}
    (h : objects.get key = .ok payload) : key ∈ objects.objects.keys := by
  rw [Dict.mem_keys_iff]
  unfold ColdStorage.get at h
  split at h
  · rename_i found hget
    simp [hget]
  · cases h

theorem Holding.key_mem (h : Holding cold row request response) (hkey : row.coldStorageKey = some key) :
    ∃ objects, cold = some objects ∧ key ∈ objects.objects.keys := by
  cases h with
  | inline _ _ hnone => rw [hkey] at hnone; cases hnone
  | @offloaded objects key' hcold _ _ hkey' _ hget =>
    obtain rfl := Option.some.inj (hkey.symm.trans hkey')
    exact ⟨objects,hcold,ColdStorage.mem_keys_of_get hget⟩

theorem payload_ne_gateway (h : Holding cold row request response) (field : String) (e : GatewayError) :
    payload cold row field ≠ .error (.gateway e) := by
  unfold payload
  cases h with
  | inline _ _ hkey => simp [coldKey?, hkey]
  | offloaded hcold _ _ hkey hne hget =>
    subst hcold
    have hk : coldKey? row = some _ := Option.filter_eq_some_iff.mpr ⟨hkey,by simpa using hne⟩
    simp [hk, hget, bind, Except.bind, pure, Except.pure]

theorem rowMessages_ne_gateway (h : Holding cold row request response) (e : GatewayError) :
    rowMessages cold row ≠ .error (.gateway e) := by
  intro hm
  unfold rowMessages at hm
  rcases Except.bind_eq_error_iff.mp hm with hin | ⟨input,-,hm⟩
  · exact payload_ne_gateway h "input" e hin
  rcases Except.bind_eq_error_iff.mp hm with hout | ⟨output,-,hm⟩
  · exact payload_ne_gateway h "output" e hout
  rcases Except.bind_eq_error_iff.mp hm with hiter | ⟨items,-,hm⟩
  · cases hi : (output.getD "output" (.list [])).iter with
    | ok items => rw [hi] at hiter; cases hiter
    | error x => rw [hi] at hiter; cases hiter
  · cases hm

theorem reconstructMessages_ne_gateway {rows : List SessionRecord}
    (h : ∀ row ∈ rows, ∃ request response, Holding cold row request response) (e : GatewayError) :
    reconstructMessages cold rows ≠ .error (.gateway e) := by
  induction rows with
  | nil => intro hm; cases hm
  | cons row rows ih =>
    obtain ⟨⟨request,response,hrow⟩,hrows⟩ := List.forall_mem_cons.mp h
    intro hm
    rcases Except.bind_eq_error_iff.mp hm with hfirst | ⟨messages,-,hm⟩
    · exact rowMessages_ne_gateway hrow e hfirst
    rcases Except.bind_eq_error_iff.mp hm with hrest | ⟨rest,-,hm⟩
    · exact ih hrows hrest
    · cases hm

end Holding

section Durable

variable {gw : Gateway} {s s' : State} {r r' : Request} {store : SessionStore} {cold : Option ColdStorage}
  {row : SessionRecord} {request response : JsonDict} {a : Action} {i : ℕ}

theorem Holding.prepared (recorder : SessionRecorder) (cold : Option ColdStorage) (env : RecordEnv)
    (c : RecordCall) (hput : ∀ key, env.put = .ok key → cold.isSome = true → key ≠ "") :
    Holding (recorder.prepare cold env c).2 (recorder.prepare cold env c).1 c.originalRequest
      c.responsePayload := by
  rcases prepare_cases recorder cold env c with he | ⟨objects,key,hcold,-,hkey,he⟩
  · rw [he]
    exact .inline rfl rfl rfl
  · rw [he]
    exact .offloaded rfl rfl rfl rfl (hput key hkey (by simp [hcold])) (ColdStorage.get_put_self _ _ _)

theorem Holding.moved (h : Holding s.cold row request response) (hmove : Moves gw s r r' store cold) :
    Holding cold row request response := by
  cases hmove with
  | @prepared resolved response' newSessionId put row' cold' _ _ hput hprep =>
    rcases prepare_cases gw.recorder s.cold ⟨s.now,newSessionId,put,none⟩
      (recordCall r.turn r.newId resolved response') with he | ⟨objects,key,hcold,-,hkey,he⟩
    · rw [he] at hprep; cases hprep; exact h
    · rw [he] at hprep; cases hprep
      dsimp only at hkey
      simp only [freshPut, hcold, hkey, Bool.and_eq_true, decide_eq_true_eq] at hput
      cases h with
      | inline hin hout hnone => exact .inline hin hout hnone
      | @offloaded objects' key' hcold' hin hout hkey' hne hget =>
        obtain rfl := Option.some.inj (hcold.symm.trans hcold')
        have hother : key' ≠ key := by
          rintro rfl
          exact hput.2 (ColdStorage.mem_keys_of_get hget)
        exact .offloaded rfl hin hout hkey' hne (by rwa [ColdStorage.get_put_ne _ _ hother])
  | _ => exact h

theorem written?_start (payload : JsonDict) (uuid : String) (turn : Turn) :
    (Request.start payload uuid turn).written? = none := by
  unfold Request.written? Request.start Request.initialPhase
  cases namedId turn.payload with
  | error exn => rfl
  | ok named => cases named <;> rfl

theorem written?_of_moves (h : Moves gw s r r' store cold) (hw : r'.written? = some (response, row)) :
    r.written? = some (response, row) ∨ Holding cold row r.turn.payload response ∧
      ∀ key objects, row.coldStorageKey = some key → s.cold = some objects → key ∉ objects.objects.keys := by
  cases h with
  | inserted hp _ => exact .inl (by simpa [Request.written?, hp] using hw)
  | @prepared resolved response' newSessionId put row' cold' hp hflag hput hprep =>
    right
    simp only [Request.written?, Option.some.injEq, Prod.mk.injEq] at hw
    obtain ⟨rfl,rfl⟩ := hw
    constructor
    · have hnonempty : ∀ key, put = .ok key → s.cold.isSome = true → key ≠ "" := by
        rintro key rfl hsome
        obtain ⟨objects,ho⟩ := Option.isSome_iff_exists.mp hsome
        simp only [freshPut, ho, Bool.and_eq_true, bne_iff_ne] at hput
        exact hput.1
      have hnew := Holding.prepared gw.recorder s.cold ⟨s.now,newSessionId,put,none⟩
        (recordCall r.turn r.newId resolved response') hnonempty
      rw [hprep] at hnew
      exact hnew
    · intro key objects hkey hcold
      rcases prepare_cases gw.recorder s.cold ⟨s.now,newSessionId,put,none⟩
        (recordCall r.turn r.newId resolved response') with he | ⟨objects',drawn,hcold',-,hdrawn,he⟩
      · rw [he] at hprep; cases hprep; cases hkey
      · rw [he] at hprep; cases hprep
        obtain rfl := Option.some.inj (hcold.symm.trans hcold')
        obtain rfl := Option.some.inj hkey
        dsimp only at hdrawn
        simp only [freshPut, hcold, hdrawn, Bool.and_eq_true, decide_eq_true_eq] at hput
        exact hput.2
  | _ => cases hw

theorem moves_durable (hd : Durable s) (hr : s.requests[i]? = some r) (h : Moves gw s r r' store cold) :
    Durable (moved s i r' store cold) := by
  have hmem := List.mem_of_getElem? hr
  have hholding : ∀ x ∈ (moved s i r' store cold).requests, ∀ response row,
      x.written? = some (response, row) → Holding cold row x.turn.payload response := by
    intro x hx response row hw
    rcases List.mem_or_eq_of_mem_set hx with hx | rfl
    · exact (hd.holding x hx response row hw).moved h
    · rcases written?_of_moves h hw with hw | ⟨hnew,-⟩
      · rw [(moves_turn h).2]
        exact (hd.holding r hmem response row hw).moved h
      · rw [(moves_turn h).2]
        exact hnew
  -- A key drawn now is none of those that the rows of others have.
  have hfresh : ∀ x ∈ s.requests, ∀ response row response' row' key, x.written? = some (response, row) →
      r'.written? = some (response', row') → row.coldStorageKey = some key →
      row'.coldStorageKey = some key → x.newId = r'.newId := by
    intro x hx response row response' row' key hw hw' hkey hkey'
    rw [moves_newId h]
    rcases written?_of_moves h hw' with hw' | ⟨-,hnew⟩
    · exact hd.apart x hx r hmem _ _ _ _ key hw hw' hkey hkey'
    · obtain ⟨objects,hcold,hm⟩ := (hd.holding x hx response row hw).key_mem hkey
      exact absurd hm (hnew key objects hkey' hcold)
  refine ⟨hholding,?_⟩
  intro x hx y hy response₁ row₁ response₂ row₂ key hw₁ hw₂ hkey₁ hkey₂
  rcases List.mem_or_eq_of_mem_set hx with hold | rfl
  · rcases List.mem_or_eq_of_mem_set hy with hold' | rfl
    · exact hd.apart x hold y hold' _ _ _ _ key hw₁ hw₂ hkey₁ hkey₂
    · exact hfresh x hold _ _ _ _ key hw₁ hw₂ hkey₁ hkey₂
  · rcases List.mem_or_eq_of_mem_set hy with hold' | rfl
    · exact (hfresh y hold' _ _ _ _ key hw₂ hw₁ hkey₂ hkey₁).symm
    · rfl

theorem step_durable (hd : Durable s) (h : step gw s a = some s') : Durable s' := by
  rcases step_cases h with rfl | ⟨payload,uuid,turn,-,-,rfl⟩ | ⟨i,m,r,r',store,cold,-,hr,hm,rfl⟩ | ⟨d,rfl⟩ |
    ⟨asOf,-,rfl⟩
  · exact hd
  · have hold : ∀ x ∈ s.requests ++ [.start payload uuid turn], ∀ w, x.written? = some w → x ∈ s.requests := by
      intro x hx w hw
      rcases List.mem_append.mp hx with hx | hx
      · exact hx
      · rw [List.mem_singleton.mp hx, written?_start] at hw
        cases hw
    exact ⟨fun x hx response row hw => hd.holding x (hold x hx _ hw) response row hw,
      fun x hx y hy _ _ _ _ key hw₁ hw₂ => hd.apart x (hold x hx _ hw₁) y (hold y hy _ hw₂) _ _ _ _ key hw₁ hw₂⟩
  · exact moves_durable hd hr (moves_of_move hm)
  · exact ⟨hd.holding,hd.apart⟩
  · exact ⟨hd.holding,hd.apart⟩

theorem reach_durable {ok : State → Action → Prop} {cold : Option ColdStorage} {now : Time}
    (h : Reach (step gw) ok (.initial cold now) s) : Durable s :=
  h.invariant ⟨by simp [State.initial],by simp [State.initial]⟩ (fun _ _ _ hd _ hs => step_durable hd hs)

theorem Durable.holding_of_recorded (hd : Durable s) {id : String} (h : s.recorded id = some row) :
    ∃ request response, Holding s.cold row request response := by
  obtain ⟨r,hr,-,hrow⟩ := mem_of_recorded h
  unfold Request.row? at hrow
  split at hrow
  · rename_i resolved stage hp
    unfold Stage.row? at hrow
    split at hrow
    · rename_i response found
      subst hrow
      exact ⟨_,response,hd.holding r hr response row (by simp [Request.written?, hp])⟩
    · cases hrow
  · cases hrow

theorem Durable.reads_follow (hd : Durable s) (hi : Inv s) {walk : ChainWalk} {id : String}
    (hw : walk.Follows s.recorded SessionRecord.parent SessionRecord.id s.Gone id) (e : GatewayError) :
    reconstructMessages s.cold walk.chain.reverse ≠ .error (.gateway e) := by
  obtain ⟨pre,hl,-⟩ := hw.lineage
  refine reconstructMessages_ne_gateway (fun row hrow => ?_) e
  exact hd.holding_of_recorded (hl.look_of_mem _ hi.recorded_id (List.mem_append_right pre hrow))

end Durable

structure Readable (s : State) : Prop where
  durable : Durable s
  resolving : ∀ request provider text,
    resolve s.store s.cold s.now request provider ≠ .error (.gateway (.coldStorageUnavailable text))
  walking : ∀ r ∈ s.requests, ∀ prevId parent walk, r.phase = .walking prevId parent walk → ∀ text,
    reconstructMessages s.cold (walkStep s.store walk).chain.reverse ≠
      .error (.gateway (.coldStorageUnavailable text))

theorem recorded_turns_readable {gw : Gateway} {cold : Option ColdStorage} {now : Time} {s : State}
    (h : Reach (step gw) (fun _ _ => True) (.initial cold now) s) : Readable s := by
  have hi := reach_inv h
  have hd := reach_durable h
  refine ⟨hd,?_,?_⟩
  · intro request provider text hres
    rcases Except.bind_eq_error_iff.mp hres with hn | ⟨named,hn,hres⟩
    · unfold namedId at hn
      dsimp only at hn
      split at hn
      · cases hn
      · split at hn <;> cases hn
    cases named with
    | none => cases hres
    | some prevId =>
      rcases Except.bind_eq_error_iff.mp hres with hc | ⟨parent,hc,hres⟩
      · unfold checkParent at hc
        split at hc
        · cases hc
        · split at hc
          · cases hc
          · split at hc <;> cases hc
      rcases Except.bind_eq_error_iff.mp hres with hm | ⟨history,-,hres⟩
      · obtain ⟨rows,hl⟩ := hi.lineage _ _ (hi.seen (checkParent_eq_ok hc).1)
        exact hd.reads_follow hi (iterate_follows hi _ (.start hi.recorded_id hl)) _ hm
      · cases hres
  · intro r hr prevId parent walk hp text
    have hok := hi.phases r hr
    rw [hp] at hok
    exact hd.reads_follow hi (walkStep_follows hi hok.2.2.2) _

def offloading : Gateway := { config := { cold := { thresholdBytes := 0 } } }

def offloadedRun : List Action :=
  [.receive opening "1", .move 0 (.respond (.ok (.dict .empty))), .move 0 (.record "session" (.ok "key")),
    .move 0 (.insert none), .receive (sequel "resp_1" "how are you?") "2", .move 1 .read]

def offloadedState : State := (runSteps (step offloading) (.initial (some .empty) 0) offloadedRun).get rfl

theorem recorded_turns_readable_offloaded : Readable offloadedState :=
  recorded_turns_readable
    (reach_of_runSteps offloadedRun (fun _ _ _ => trivial) (Option.some_get rfl).symm)

end ResponsesGateway
