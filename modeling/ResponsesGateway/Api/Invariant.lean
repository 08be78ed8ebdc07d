import ResponsesGateway.Api.Machine

namespace ResponsesGateway

open SessionResolver

def Request.row? (r : Request) : Option SessionRecord :=
  match r.phase with
  | .resolved _ stage => stage.row?
  | _ => none

def Request.made? (r : Request) : Option SessionRecord :=
  match r.phase with
  | .resolved _ (.inserting _ row) => some row
  | .resolved _ (.finished _ row) => row
  | _ => none

namespace State

/-- The row ever inserted under an id, whether or not the table still has it. -/
def recorded (s : State) (id : String) : Option SessionRecord :=
  (s.requests.find? (fun r => r.newId = id)).bind Request.row?

def Gone (s : State) (id : String) : Prop := s.store.getById id = none

end State

def Held (cold : Option ColdStorage) (row : SessionRecord) : Prop :=
  ∀ key storage, row.coldStorageKey = some key → cold = some storage → key ∈ storage.objects.keys

/-- How `resolve` came to its result: `kept` was read, and what stands above it is gone. -/
inductive History (s : State) (turn : Turn) : ResolvedRequest → Prop
  | root : namedId turn.payload = .ok none → History s turn (passThrough turn.payload)
  | chained {prevId parent pre kept history} : namedId turn.payload = .ok (some prevId) →
      s.recorded prevId = some parent → parent.provider = turn.provider →
      Lineage s.recorded SessionRecord.parent prevId (pre ++ kept) →
      (pre = [] ∨ ∃ row, pre.getLast? = some row ∧ s.Gone row.id) →
      reconstructMessages s.cold kept = .ok history →
      History s turn ⟨rewrite turn.payload history, some parent.sessionId, some prevId⟩

structure Wrote (s : State) (newId : String) (turn : Turn) (resolved : ResolvedRequest)
    (response : JsonDict) (row : SessionRecord) : Prop where
  id : row.id = newId
  parentId : row.parentId = resolved.parentId
  provider : row.provider = turn.provider
  held : Held s.cold row
  inline : s.cold = none → row.inputJson = some turn.payload ∧ row.outputJson = some response ∧
    row.coldStorageKey = none

def StageOk (s : State) (newId : String) (turn : Turn) (resolved : ResolvedRequest) : Stage → Prop
  | .inserting response row => Wrote s newId turn resolved response row
  | .finished response (some row) => Wrote s newId turn resolved response row
  | _ => True

def PhaseOk (s : State) (newId : String) (turn : Turn) : Phase → Prop
  | .resolving prevId => namedId turn.payload = .ok (some prevId)
  | .walking prevId parent walk => namedId turn.payload = .ok (some prevId) ∧
      s.recorded prevId = some parent ∧ parent.provider = turn.provider ∧
      walk.Follows s.recorded SessionRecord.parent SessionRecord.id s.Gone prevId
  | .unresolved _ => True
  | .resolved resolved stage => History s turn resolved ∧ StageOk s newId turn resolved stage

structure Inv (s : State) : Prop where
  ids : (s.requests.map Request.newId).Nodup
  phases : ∀ r ∈ s.requests, PhaseOk s r.newId r.turn r.phase
  table : ∀ row ∈ s.store.rows, s.recorded row.id = some row
  lineage : ∀ id row, s.recorded id = some row →
    ∃ rows, Lineage s.recorded SessionRecord.parent id rows

section Recorded

variable {s : State} {r r' : Request} {row : SessionRecord} {id : String} {i : ℕ}

theorem recorded_of_mem (hids : (s.requests.map Request.newId).Nodup) (hr : r ∈ s.requests) :
    s.recorded r.newId = r.row? := by
  simp only [State.recorded, List.find?_key_of_mem hids hr, Option.bind_some]

theorem mem_of_recorded (h : s.recorded id = some row) :
    ∃ r ∈ s.requests, r.newId = id ∧ r.row? = some row := by
  obtain ⟨r,hf,hr⟩ := Option.bind_eq_some_iff.mp h
  exact ⟨r,List.mem_of_find?_eq_some hf,by simpa using List.find?_some hf,hr⟩

theorem made?_of_row? (h : r.row? = some row) : r.made? = some row := by
  unfold Request.row? at h
  split at h
  · rename_i resolved stage hp
    cases stage with
    | finished response found => simpa [Request.made?, hp, Stage.row?] using h
    | _ => cases h
  · cases h

theorem made?_start (payload : JsonDict) (uuid : String) (turn : Turn) :
    (Request.start payload uuid turn).made? = none := by
  unfold Request.made? Request.start Request.initialPhase
  cases namedId turn.payload with
  | error exn => rfl
  | ok named => cases named <;> rfl

theorem wrote_of_row? (h : PhaseOk s r.newId r.turn r.phase) (hr : r.row? = some row) :
    ∃ resolved response, r.phase = .resolved resolved (.finished response (some row)) ∧
      History s r.turn resolved ∧ Wrote s r.newId r.turn resolved response row := by
  unfold Request.row? at hr
  split at hr
  · rename_i resolved stage hp
    rw [hp] at h
    unfold Stage.row? at hr
    split at hr
    · rename_i response row'
      subst hr
      exact ⟨resolved,response,hp,h.1,h.2⟩
    · cases hr
  · cases hr

theorem Inv.recorded_id (hi : Inv s) : ∀ id row, s.recorded id = some row → row.id = id := by
  intro id row h
  obtain ⟨r,hr,rfl,hrow⟩ := mem_of_recorded h
  obtain ⟨_,_,-,-,hw⟩ := wrote_of_row? (hi.phases r hr) hrow
  exact hw.id

theorem Inv.held (hi : Inv s) (h : s.recorded id = some row) : Held s.cold row := by
  obtain ⟨r,hr,-,hrow⟩ := mem_of_recorded h
  obtain ⟨_,_,-,-,hw⟩ := wrote_of_row? (hi.phases r hr) hrow
  exact hw.held

theorem Inv.seen (hi : Inv s) (h : s.store.getById id = some row) : s.recorded id = some row := by
  obtain ⟨hm,rfl⟩ := SessionStore.getById_eq_some_iff.mp h
  exact hi.table row hm

theorem mem_set_of_ne {xs : List Request} (h : xs[i]? = some r) {x : Request} (hx : x ∈ xs)
    (hne : x ≠ r) : x ∈ xs.set i r' := by
  obtain ⟨j,hj⟩ := List.mem_iff_getElem?.mp hx
  have hij : i ≠ j := by
    rintro rfl
    exact hne (Option.some.inj (hj.symm.trans h))
  exact List.mem_iff_getElem?.mpr ⟨j,by rw [List.getElem?_set_ne hij, hj]⟩

theorem map_newId_set {xs : List Request} (h : xs[i]? = some r) (hid : r'.newId = r.newId) :
    (xs.set i r').map Request.newId = xs.map Request.newId := by
  rw [List.map_set, hid]
  apply List.ext_getElem?
  intro j
  rw [List.getElem?_set]
  split
  · rename_i he
    subst he
    split
    · simp [h]
    · simp_all
  · rfl

end Recorded

structure Extends (s s' : State) : Prop where
  recorded : ∀ id row, s.recorded id = some row → s'.recorded id = some row
  gone : ∀ id row, s.recorded id = some row → s.Gone id → s'.Gone id
  held : ∀ row, Held s.cold row → Held s'.cold row
  messages : ∀ row, Held s.cold row → rowMessages s.cold row = rowMessages s'.cold row
  coldless : s'.cold = none → s.cold = none

section Extends

variable {s s' s'' : State} {newId : String} {turn : Turn}

theorem Extends.trans (h : Extends s s') (h' : Extends s' s'') : Extends s s'' where
  recorded id row hrow := h'.recorded id row (h.recorded id row hrow)
  gone id row hrow hgone := h'.gone id row (h.recorded id row hrow) (h.gone id row hrow hgone)
  held row hheld := h'.held row (h.held row hheld)
  messages row hheld := (h.messages row hheld).trans (h'.messages row (h.held row hheld))
  coldless hcold := h.coldless (h'.coldless hcold)

theorem Extends.reconstruct (h : Extends s s') {rows : List SessionRecord}
    (hheld : ∀ row ∈ rows, Held s.cold row) :
    reconstructMessages s'.cold rows = reconstructMessages s.cold rows := by
  refine (reconstructMessages_congr ?_).symm
  rw [List.forall₂_same]
  exact fun row hrow => h.messages row (hheld row hrow)

theorem Extends.history (h : Extends s s') (hi : Inv s) {resolved : ResolvedRequest}
    (hr : History s turn resolved) : History s' turn resolved := by
  cases hr with
  | root hn => exact .root hn
  | @chained prevId parent pre kept history hn hp hprov hl hcut hm =>
    have hrec (row : SessionRecord) (hrow : row ∈ pre ++ kept) : s.recorded row.id = some row :=
      hl.look_of_mem _ hi.recorded_id hrow
    refine .chained hn (h.recorded _ _ hp) hprov (hl.mono h.recorded) ?_ ?_
    · refine hcut.imp_right ?_
      rintro ⟨row,hlast,hgone⟩
      exact ⟨row,hlast,h.gone _ _ (hrec row (List.mem_append_left _ (List.mem_of_getLast? hlast))) hgone⟩
    · rw [h.reconstruct (fun row hrow => hi.held (hrec row (List.mem_append_right _ hrow)))]
      exact hm

theorem Extends.wrote (h : Extends s s') {resolved : ResolvedRequest} {response : JsonDict}
    {row : SessionRecord} (hw : Wrote s newId turn resolved response row) :
    Wrote s' newId turn resolved response row :=
  ⟨hw.id,hw.parentId,hw.provider,h.held row hw.held,fun hc => hw.inline (h.coldless hc)⟩

theorem Extends.stageOk (h : Extends s s') {resolved : ResolvedRequest} {stage : Stage}
    (hs : StageOk s newId turn resolved stage) : StageOk s' newId turn resolved stage := by
  cases stage with
  | inserting response row => exact h.wrote hs
  | finished response row =>
    cases row with
    | none => trivial
    | some row => exact h.wrote hs
  | _ => trivial

theorem Extends.phaseOk (h : Extends s s') (hi : Inv s) {phase : Phase}
    (hr : PhaseOk s newId turn phase) : PhaseOk s' newId turn phase := by
  cases phase with
  | resolving prevId => exact hr
  | unresolved exn => trivial
  | walking prevId parent walk =>
    obtain ⟨hn,hparent,hprov,hw⟩ := hr
    exact ⟨hn,h.recorded _ _ hparent,hprov,hw.mono h.recorded (fun k row hk hg => h.gone k row hk hg)
      hi.recorded_id⟩
  | resolved resolved stage => exact ⟨h.history hi hr.1,h.stageOk hr.2⟩

end Extends

section Put

variable {gw : Gateway} {s : State} {r : Request} {resolved : ResolvedRequest} {response : JsonDict}
  {newSessionId : String} {put : Except Exn String} {row : SessionRecord} {cold : Option ColdStorage}

theorem put_extends (hput : freshPut s.cold put = true)
    (h : gw.recorder.prepare s.cold ⟨s.now, newSessionId, put, none⟩
      (recordCall r.turn r.newId resolved response) = (row, cold)) :
    (∀ row', Held s.cold row' → Held cold row' ∧ rowMessages s.cold row' = rowMessages cold row') ∧
      (cold = none → s.cold = none) := by
  rcases SessionRecorder.prepare_cases gw.recorder s.cold ⟨s.now, newSessionId, put, none⟩
    (recordCall r.turn r.newId resolved response) with he | ⟨storage,key,hcold,-,hkey,he⟩
  · rw [he] at h; cases h; exact ⟨fun row' hr => ⟨hr,rfl⟩,id⟩
  · rw [he] at h; cases h
    dsimp only at hkey
    simp only [freshPut, hcold, hkey, Bool.and_eq_true, bne_iff_ne, decide_eq_true_eq] at hput
    refine ⟨fun row' hr => ⟨?_,?_⟩,by simp⟩
    · intro k storage' hk hs
      rw [Option.some.injEq] at hs
      rw [← hs, ColdStorage.put, Dict.mem_keys_set]
      exact .inr (hr k storage hk hcold)
    · rw [hcold]
      refine rowMessages_put _ (fun hk => hput.2 (hr key storage hk hcold))

theorem wrote_of_prepare (h : gw.recorder.prepare s.cold ⟨s.now, newSessionId, put, none⟩
      (recordCall r.turn r.newId resolved response) = (row, cold)) (s' : State) (hs : s'.cold = cold) :
    Wrote s' r.newId r.turn resolved response row := by
  obtain ⟨hid,hparent,-,hprov,-⟩ := SessionRecorder.prepare_columns gw.recorder s.cold
    ⟨s.now, newSessionId, put, none⟩ (recordCall r.turn r.newId resolved response)
  rw [h] at hid hparent hprov
  rcases SessionRecorder.prepare_cases gw.recorder s.cold ⟨s.now, newSessionId, put, none⟩
    (recordCall r.turn r.newId resolved response) with he | ⟨storage,key,hcold,-,-,he⟩
  · rw [he] at h; cases h
    exact ⟨hid,hparent,hprov,fun k storage hk _ => by simp [SessionRecorder.inlineRow] at hk,
      fun _ => ⟨rfl,rfl,rfl⟩⟩
  · rw [he] at h; cases h
    refine ⟨hid,hparent,hprov,?_,fun hc => ?_⟩
    · intro k storage' hk hc
      simp only [SessionRecorder.offloadedRow, Option.some.injEq] at hk
      rw [hs, Option.some.injEq] at hc
      rw [← hc, ← hk, ColdStorage.put, Dict.mem_keys_set]
      exact .inl rfl
    · rw [hs] at hc; cases hc

end Put

section Move

variable {gw : Gateway} {s : State} {r r' : Request} {store : SessionStore} {cold : Option ColdStorage}
  {i : ℕ}

theorem moves_newId (h : Moves gw s r r' store cold) : r'.newId = r.newId := by
  cases h <;> rfl

theorem moves_turn (h : Moves gw s r r' store cold) : r'.body = r.body ∧ r'.turn = r.turn := by
  cases h <;> exact ⟨rfl,rfl⟩

theorem moves_row?_none (h : Moves gw s r r' store cold) : r.row? = none := by
  cases h with
  | abandoned hp =>
    unfold Request.row?
    split
    · rename_i resolved stage hr; exact absurd hr (hp resolved stage)
    · rfl
  | failed hp hs _ => simpa [Request.row?, hp] using hs
  | _ hp => simp [Request.row?, hp, Stage.row?]

theorem moves_cold (h : Moves gw s r r' store cold) :
    (∀ row, Held s.cold row → Held cold row ∧ rowMessages s.cold row = rowMessages cold row) ∧
      (cold = none → s.cold = none) := by
  cases h with
  | prepared _ _ hput hprep => exact put_extends hput hprep
  | _ => exact ⟨fun row hr => ⟨hr,rfl⟩,id⟩

theorem moves_store (h : Moves gw s r r' store cold) :
    (store = s.store ∧ r'.row? = none) ∨
    ∃ resolved response row, r.phase = .resolved resolved (.inserting response row) ∧
      r'.phase = .resolved resolved (.finished response (some row)) ∧
      s.store.insert row = .ok store := by
  cases h with
  | inserted hp hins => exact .inr ⟨_,_,_,hp,rfl,hins⟩
  | abandoned hp => exact .inl ⟨rfl,rfl⟩
  | _ => exact .inl ⟨rfl,rfl⟩

theorem made?_of_moves {row : SessionRecord} (h : Moves gw s r r' store cold) (hrow : r'.made? = some row) :
    (∃ resolved stage stage', r.phase = .resolved resolved stage ∧ r'.phase = .resolved resolved stage' ∧
      r.made? = some row) ∨
    ∃ resolved response, r.phase = .resolved resolved (.answered response) ∧
      r.turn.storeFlag.truthy = true ∧ r'.phase = .resolved resolved (.inserting response row) := by
  cases h with
  | inserted hp _ => exact .inl ⟨_,_,_,hp,rfl,by simpa [Request.made?, hp] using hrow⟩
  | prepared hp hflag _ _ =>
    obtain rfl : _ = row := Option.some.inj hrow
    exact .inr ⟨_,_,hp,hflag,rfl⟩
  | _ => cases hrow

def moved (s : State) (i : ℕ) (r' : Request) (store : SessionStore) (cold : Option ColdStorage) : State :=
  { s with store := store, cold := cold, requests := s.requests.set i r' }

theorem move_extends (hi : Inv s) (hr : s.requests[i]? = some r) (h : Moves gw s r r' store cold) :
    Extends s (moved s i r' store cold) := by
  have hids : ((moved s i r' store cold).requests.map Request.newId).Nodup := by
    rw [moved, map_newId_set hr (moves_newId h)]
    exact hi.ids
  have hmem := List.mem_of_getElem? hr
  refine ⟨?_,?_,fun row hh => ((moves_cold h).1 row hh).1,fun row hh => ((moves_cold h).1 row hh).2,
    (moves_cold h).2⟩
  · intro id row hrow
    obtain ⟨r₀,hr₀,rfl,hrow₀⟩ := mem_of_recorded hrow
    have hne : r₀ ≠ r := by
      rintro rfl
      rw [moves_row?_none h] at hrow₀
      cases hrow₀
    rw [recorded_of_mem hids (mem_set_of_ne hr hr₀ hne), hrow₀]
  · intro id row hrow hgone
    rcases moves_store h with ⟨hs,-⟩ | ⟨resolved,response,row',hp,-,hins⟩
    · simpa [State.Gone, moved, hs] using hgone
    · have hok := hi.phases r hmem
      rw [hp] at hok
      have hid : row'.id = r.newId := hok.2.id
      have hrec := recorded_of_mem hi.ids hmem
      rw [moves_row?_none h, ← hid] at hrec
      have hne : id ≠ row'.id := by
        rintro rfl
        rw [hrec] at hrow
        cases hrow
      obtain ⟨-,hrows⟩ := SessionStore.insert_eq_ok_iff.mp hins
      have hmiss := SessionStore.getById_eq_none_iff.mp hgone
      refine SessionStore.getById_eq_none_iff.mpr ?_
      simp only [moved, hrows, List.map_append, List.map_cons, List.map_nil, List.mem_append,
        List.mem_singleton, not_or]
      exact ⟨hmiss,hne⟩

theorem move_phaseOk (hi : Inv s) (hr : PhaseOk s r.newId r.turn r.phase)
    (h : Moves gw s r r' store cold) (he : Extends s (moved s i r' store cold)) :
    PhaseOk (moved s i r' store cold) r'.newId r'.turn r'.phase := by
  have hlook := hi.recorded_id
  cases h with
  | abandoned _ => trivial
  | @accepted prevId parent hp ha =>
    rw [hp] at hr
    obtain ⟨hfound,-,hprov⟩ := checkParent_eq_ok ha
    have hrec := hi.seen hfound
    obtain ⟨rows,hl⟩ := hi.lineage _ _ hrec
    exact ⟨hr,he.recorded _ _ hrec,hprov,(Walk.Follows.start hlook hl).mono he.recorded
      (fun k row hk hg => he.gone k row hk hg) hlook⟩
  | @climbed prevId parent walk hp =>
    rw [hp] at hr
    obtain ⟨hn,hrec,hprov,hw⟩ := hr
    have hstep : (walkStep s.store walk).Follows s.recorded SessionRecord.parent SessionRecord.id s.Gone
        prevId := hw.step hlook (fun k row hk => hi.seen hk) (fun k hk => hk)
    exact ⟨hn,he.recorded _ _ hrec,hprov,hstep.mono he.recorded (fun k row hk hg => he.gone k row hk hg) hlook⟩
  | @reconstructed prevId parent walk history resolved hp hdone hm hres =>
    rw [hp] at hr
    obtain ⟨hn,hrec,hprov,hw⟩ := hr
    have hstep : (walkStep s.store walk).Follows s.recorded SessionRecord.parent SessionRecord.id s.Gone
        prevId := hw.step hlook (fun k row hk => hi.seen hk) (fun k hk => hk)
    have hcur : (walkStep s.store walk).cur = none := by
      cases hc : (walkStep s.store walk).cur with
      | none => rfl
      | some c => rw [hstep.next?_of_cur hlook hc] at hdone; cases hdone
    obtain ⟨pre,hl,hcut⟩ := hstep.lineage
    rw [hcur] at hcut
    have hhist : History s r.turn resolved := by
      rw [hres]
      exact .chained hn hrec hprov hl hcut hm
    exact ⟨he.history hi hhist,trivial⟩
  | failed hp _ _ => rw [hp] at hr; exact ⟨he.history hi hr.1,trivial⟩
  | answered hp _ _ => rw [hp] at hr; exact ⟨he.history hi hr.1,trivial⟩
  | connected hp _ _ => rw [hp] at hr; exact ⟨he.history hi hr.1,trivial⟩
  | forwarded hp _ => rw [hp] at hr; exact ⟨he.history hi hr.1,trivial⟩
  | ended hp => rw [hp] at hr; exact ⟨he.history hi hr.1,trivial⟩
  | skipped hp _ => rw [hp] at hr; exact ⟨he.history hi hr.1,trivial⟩
  | prepared hp _ _ hprep =>
    rw [hp] at hr
    exact ⟨he.history hi hr.1,wrote_of_prepare hprep (moved s i _ s.store _) rfl⟩
  | inserted hp _ =>
    rw [hp] at hr
    exact ⟨he.history hi hr.1,he.wrote hr.2⟩

theorem move_inv (hi : Inv s) (hr : s.requests[i]? = some r) (h : Moves gw s r r' store cold) :
    Inv (moved s i r' store cold) := by
  have he := move_extends hi hr h
  have hmem := List.mem_of_getElem? hr
  have hids : ((moved s i r' store cold).requests.map Request.newId).Nodup := by
    rw [moved, map_newId_set hr (moves_newId h)]
    exact hi.ids
  have hmem' : r' ∈ (moved s i r' store cold).requests :=
    List.mem_set (List.getElem?_eq_some_iff.mp hr).1 r'
  have hphase' := move_phaseOk hi (hi.phases r hmem) h he
  refine ⟨hids,?_,?_,?_⟩
  · intro x hx
    rcases List.mem_or_eq_of_mem_set hx with hx | rfl
    · exact he.phaseOk hi (hi.phases x hx)
    · exact hphase'
  · intro row hrow
    rcases moves_store h with ⟨hs,-⟩ | ⟨resolved,response,row',hp,hp',hins⟩
    · simp only [moved, hs] at hrow
      exact he.recorded _ _ (hi.table row hrow)
    · obtain ⟨-,hrows⟩ := SessionStore.insert_eq_ok_iff.mp hins
      simp only [moved, hrows] at hrow
      rcases List.mem_append.mp hrow with hrow | hrow
      · exact he.recorded _ _ (hi.table row hrow)
      · obtain rfl := List.mem_singleton.mp hrow
        rw [hp'] at hphase'
        rw [hphase'.2.id, recorded_of_mem hids hmem']
        simp [Request.row?, hp', Stage.row?]
  · intro id row hrow
    obtain ⟨x,hx,rfl,hxrow⟩ := mem_of_recorded hrow
    rcases List.mem_or_eq_of_mem_set hx with hx | rfl
    · obtain ⟨rows,hl⟩ := hi.lineage x.newId row (by rw [recorded_of_mem hi.ids hx, hxrow])
      exact ⟨rows,hl.mono he.recorded⟩
    · obtain ⟨resolved,response,hp,hhist,hw⟩ := wrote_of_row? hphase' hxrow
      have hparent := hw.parentId
      cases hhist with
      | root hn =>
        refine ⟨[row],.root hrow ?_⟩
        rw [SessionRecord.parent, hparent]; rfl
      | @chained prevId parent pre kept history hn hrec hprov hl hcut hm =>
        refine ⟨pre ++ kept ++ [row],.child hrow ?_ hl⟩
        have hne := (namedId_eq_some hn).2
        rw [SessionRecord.parent, hparent]
        simp [hne]

end Move

section Step

variable {gw : Gateway} {s s' : State} {a : Action}

theorem initialPhase_ok (s : State) (newId : String) (turn : Turn) :
    PhaseOk s newId turn (Request.initialPhase turn.payload) := by
  unfold Request.initialPhase
  cases hn : namedId turn.payload with
  | error exn => trivial
  | ok named =>
    cases named with
    | none => exact ⟨.root hn,trivial⟩
    | some prevId => exact hn

theorem row?_start (payload : JsonDict) (uuid : String) (turn : Turn) :
    (Request.start payload uuid turn).row? = none := by
  unfold Request.row? Request.start Request.initialPhase
  cases namedId turn.payload with
  | error exn => rfl
  | ok named => cases named <;> rfl

theorem step_cases (h : step gw s a = some s') :
    s' = s ∨
    (∃ payload uuid turn, newResponseId uuid ∉ s.requests.map Request.newId ∧
      receive gw payload = .ok turn ∧
      s' = { s with requests := s.requests ++ [.start payload uuid turn] }) ∨
    (∃ i m r r' store cold, a = .move i m ∧ s.requests[i]? = some r ∧
      move gw s r m = some (r', store, cold) ∧ s' = moved s i r' store cold) ∨
    (∃ d : ℕ, s' = { s with now := s.now + d }) ∨
    ∃ asOf, a = .deleteExpired asOf ∧ s' = { s with store := s.store.deleteExpired asOf } := by
  cases a with
  | receive payload uuid =>
    dsimp only [step] at h
    by_cases hseen : newResponseId uuid ∈ s.requests.map Request.newId
    · rw [if_pos hseen] at h; cases h
    · rw [if_neg hseen] at h
      cases hr : receive gw payload with
      | error exn => rw [hr] at h; cases h; exact .inl rfl
      | ok turn =>
        rw [hr] at h; cases h
        exact .inr (.inl ⟨payload,uuid,turn,hseen,hr,rfl⟩)
  | move i m =>
    simp only [step, bind, Option.bind_eq_some_iff] at h
    obtain ⟨r,hr,p,hm,hs⟩ := h
    obtain ⟨r',store,cold⟩ := p
    cases hs
    exact .inr (.inr (.inl ⟨i,m,r,r',store,cold,rfl,hr,hm,rfl⟩))
  | tick d => cases h; exact .inr (.inr (.inr (.inl ⟨d,rfl⟩)))
  | deleteExpired asOf => cases h; exact .inr (.inr (.inr (.inr ⟨asOf,rfl,rfl⟩)))

theorem Extends.refl (s : State) : Extends s s :=
  ⟨fun _ _ h => h,fun _ _ _ h => h,fun _ h => h,fun _ _ => rfl,id⟩

theorem receive_extends {r : Request} : Extends s { s with requests := s.requests ++ [r] } := by
  refine ⟨?_,fun _ _ _ h => h,fun _ h => h,fun _ _ => rfl,id⟩
  intro id row h
  obtain ⟨x,hx,hrow⟩ := Option.bind_eq_some_iff.mp h
  simp only [State.recorded, List.find?_append, hx, Option.some_or, Option.bind_some, hrow]

theorem delete_extends {asOf : Time} : Extends s { s with store := s.store.deleteExpired asOf } := by
  refine ⟨fun _ _ h => h,?_,fun _ h => h,fun _ _ => rfl,id⟩
  intro id row _ hgone
  have : s.store.getById id = none := hgone
  simp [State.Gone, SessionStore.getById_deleteExpired, this]

theorem step_extends (hi : Inv s) (h : step gw s a = some s') : Extends s s' := by
  rcases step_cases h with rfl | ⟨payload,uuid,turn,-,-,rfl⟩ | ⟨i,m,r,r',store,cold,-,hr,hm,rfl⟩ | ⟨d,rfl⟩ |
    ⟨asOf,-,rfl⟩
  · exact .refl _
  · exact receive_extends
  · exact move_extends hi hr (moves_of_move hm)
  · exact ⟨fun _ _ h => h,fun _ _ _ h => h,fun _ h => h,fun _ _ => rfl,id⟩
  · exact delete_extends

theorem step_inv (hi : Inv s) (h : step gw s a = some s') : Inv s' := by
  have he := step_extends hi h
  rcases step_cases h with rfl | ⟨payload,uuid,turn,hfresh,-,rfl⟩ | ⟨i,m,r,r',store,cold,-,hr,hm,rfl⟩ |
    ⟨d,rfl⟩ | ⟨asOf,-,rfl⟩
  · exact hi
  · refine ⟨?_,?_,fun row hrow => he.recorded _ _ (hi.table row hrow),?_⟩
    · rw [List.map_append, List.nodup_append]
      exact ⟨hi.ids,by simp,fun x hx y hy hxy => hfresh (by simp_all [Request.start])⟩
    · intro r hr
      rcases List.mem_append.mp hr with hr | hr
      · exact he.phaseOk hi (hi.phases r hr)
      · obtain rfl := List.mem_singleton.mp hr
        exact initialPhase_ok _ _ _
    · intro id row hrow
      obtain ⟨x,hx,rfl,hxrow⟩ := mem_of_recorded hrow
      rcases List.mem_append.mp hx with hx | hx
      · obtain ⟨rows,hl⟩ := hi.lineage x.newId row (by rw [recorded_of_mem hi.ids hx, hxrow])
        exact ⟨rows,hl.mono he.recorded⟩
      · obtain rfl := List.mem_singleton.mp hx
        rw [row?_start] at hxrow
        cases hxrow
  · exact move_inv hi hr (moves_of_move hm)
  · exact ⟨hi.ids,fun r hr => he.phaseOk hi (hi.phases r hr),hi.table,
      fun id row hrow => hi.lineage id row hrow⟩
  · exact ⟨hi.ids,fun r hr => he.phaseOk hi (hi.phases r hr),
      fun row hrow => hi.table row (SessionStore.mem_deleteExpired.mp hrow).1,
      fun id row hrow => hi.lineage id row hrow⟩

theorem initial_inv (cold : Option ColdStorage) (now : Time) : Inv (.initial cold now) where
  ids := List.nodup_nil
  phases := by simp [State.initial]
  table := by simp [State.initial, SessionStore.empty]
  lineage := by intro id row h; simp [State.initial, State.recorded] at h

theorem reach_inv {ok : State → Action → Prop} {cold : Option ColdStorage} {now : Time}
    (h : Reach (step gw) ok (.initial cold now) s) : Inv s :=
  h.invariant (initial_inv cold now) (fun _ _ _ hi _ hs => step_inv hi hs)

theorem reach_extends {ok : State → Action → Prop} (hi : Inv s) (h : Reach (step gw) ok s s') :
    Inv s' ∧ Extends s s' := by
  refine h.invariant (I := fun t => Inv t ∧ Extends s t) ⟨hi,.refl s⟩ ?_
  rintro t a t' ⟨ht,he⟩ - hs
  exact ⟨step_inv ht hs,he.trans (step_extends ht hs)⟩

theorem step_each {P : Request → Prop}
    (hstart : ∀ payload uuid turn, receive gw payload = .ok turn → P (.start payload uuid turn))
    (hmove : ∀ i m r r' store cold, a = .move i m → P r → move gw s r m = some (r', store, cold) → P r')
    (hi : ∀ r ∈ s.requests, P r) (h : step gw s a = some s') : ∀ r ∈ s'.requests, P r := by
  rcases step_cases h with rfl | ⟨payload,uuid,turn,-,hr,rfl⟩ | ⟨i,m,r,r',store,cold,ha,hr,hm,rfl⟩ | ⟨d,rfl⟩ |
    ⟨asOf,-,rfl⟩
  · exact hi
  · intro x hx
    rcases List.mem_append.mp hx with hx | hx
    · exact hi x hx
    · obtain rfl := List.mem_singleton.mp hx
      exact hstart payload uuid turn hr
  · intro x hx
    rcases List.mem_or_eq_of_mem_set hx with hx | rfl
    · exact hi x hx
    · exact hmove i m r x store cold ha (hi r (List.mem_of_getElem? hr)) hm
  · exact hi
  · exact hi

theorem step_requests {P : Request → Prop}
    (hstart : ∀ payload uuid turn, receive gw payload = .ok turn → P (.start payload uuid turn))
    (hmove : ∀ s r r' store cold, P r → Moves gw s r r' store cold → P r')
    (hi : ∀ r ∈ s.requests, P r) (h : step gw s a = some s') : ∀ r ∈ s'.requests, P r :=
  step_each hstart (fun _ _ r r' store cold _ hr hm => hmove s r r' store cold hr (moves_of_move hm)) hi h

theorem reach_requests {ok : State → Action → Prop} {cold : Option ColdStorage} {now : Time}
    {P : Request → Prop}
    (hstart : ∀ payload uuid turn, receive gw payload = .ok turn → P (.start payload uuid turn))
    (hmove : ∀ s r r' store cold, P r → Moves gw s r r' store cold → P r')
    (h : Reach (step gw) ok (.initial cold now) s) : ∀ r ∈ s.requests, P r :=
  h.invariant (by simp [State.initial]) (fun _ _ _ hi _ hs => step_requests hstart hmove hi hs)

theorem reach_received {ok : State → Action → Prop} {cold : Option ColdStorage} {now : Time}
    (h : Reach (step gw) ok (.initial cold now) s) : ∀ r ∈ s.requests, receive gw r.body = .ok r.turn := by
  refine reach_requests (P := fun r => receive gw r.body = .ok r.turn) (fun _ _ _ hr => hr) ?_ h
  intro s r r' store cold hr hm
  rw [(moves_turn hm).1, (moves_turn hm).2]
  exact hr

end Step

end ResponsesGateway
