import ResponsesGateway.Api.Invariant

namespace ResponsesGateway

open SessionResolver

namespace Request

def parentId (r : Request) : Option String :=
  match namedId r.turn.payload with
  | .ok named => named
  | .error _ => none

def recordedOutput (r : Request) : List Json :=
  match r.phase with
  | .resolved _ (.finished response (some _)) =>
      match response.getD "output" (.list []) with
      | .list items => items
      | _ => []
  | _ => []

def messages (r : Request) : List Json :=
  extractNonSystemInput (r.turn.payload.getD "input" (.list [])) ++ r.recordedOutput.flatMap outputMessage

end Request

def State.turn? (s : State) (id : String) : Option Request :=
  (s.requests.find? (fun r => r.newId = id)).filter (fun r => r.row?.isSome)

section Turns

variable {s : State} {r : Request} {row : SessionRecord} {id : String} {rows : List SessionRecord}

theorem turn?_of_recorded (h : s.recorded id = some row) :
    ∃ r ∈ s.requests, s.turn? id = some r ∧ r.newId = id ∧ r.row? = some row := by
  obtain ⟨r,hf,hr⟩ := Option.bind_eq_some_iff.mp h
  refine ⟨r,List.mem_of_find?_eq_some hf,?_,by simpa using List.find?_some hf,hr⟩
  rw [State.turn?, hf, Option.filter_some_pos]
  simp [hr]

theorem mem_of_turn? (h : s.turn? id = some r) : r ∈ s.requests ∧ r.newId = id := by
  obtain ⟨hf,-⟩ := Option.filter_eq_some_iff.mp h
  exact ⟨List.mem_of_find?_eq_some hf,by simpa using List.find?_some hf⟩

theorem parent_of_row? (hi : Inv s) (hr : r ∈ s.requests) (hrow : r.row? = some row) :
    row.parent = r.parentId := by
  obtain ⟨resolved,response,-,hhist,hw⟩ := wrote_of_row? (hi.phases r hr) hrow
  rw [SessionRecord.parent, hw.parentId]
  cases hhist with
  | root hn => simp [Request.parentId, hn, passThrough]
  | chained hn => simp [Request.parentId, hn, (namedId_eq_some hn).2]

theorem turns_of_rows (hi : Inv s) (h : Lineage s.recorded SessionRecord.parent id rows) :
    ∃ turns, Lineage s.turn? Request.parentId id turns ∧
      List.Forall₂ (fun r row => r ∈ s.requests ∧ r.row? = some row) turns rows := by
  induction h with
  | root hl hp =>
    obtain ⟨r,hr,ht,-,hrow⟩ := turn?_of_recorded hl
    rw [parent_of_row? hi hr hrow] at hp
    exact ⟨[r],.root ht hp,.cons ⟨hr,hrow⟩ .nil⟩
  | child hl hp _ ih =>
    obtain ⟨r,hr,ht,-,hrow⟩ := turn?_of_recorded hl
    rw [parent_of_row? hi hr hrow] at hp
    obtain ⟨turns,hturns,hrows⟩ := ih
    exact ⟨turns ++ [r],.child ht hp hturns,List.rel_append hrows (.cons ⟨hr,hrow⟩ .nil)⟩

theorem iter_flatMap_outputMessage {output : Json} {items : List Json} (h : output.iter = .ok items) :
    items.flatMap outputMessage = (match output with | .list xs => xs | _ => []).flatMap outputMessage := by
  cases output with
  | list xs => cases h; rfl
  | str t =>
    cases h
    simp [outputMessage, Json.asDict]
  | dict fs =>
    cases h
    simp [outputMessage, Json.asDict]
  | _ => cases h

theorem rowMessages_of_row? (hi : Inv s) (hcold : s.cold = none) (hr : r ∈ s.requests)
    (hrow : r.row? = some row) {messages : List Json} (h : rowMessages s.cold row = .ok messages) :
    messages = r.messages := by
  obtain ⟨resolved,response,hp,-,hw⟩ := wrote_of_row? (hi.phases r hr) hrow
  obtain ⟨hin,hout,hkey⟩ := hw.inline hcold
  rw [rowMessages_inline (by simp [coldKey?, hkey]) hin hout] at h
  obtain ⟨items,hitems,he⟩ := Except.bind_eq_ok_iff.mp h
  cases hiter : (response.getD "output" (.list [])).iter with
  | error x => rw [hiter] at hitems; cases hitems
  | ok ys =>
    rw [hiter] at hitems
    cases hitems
    cases he
    rw [iter_flatMap_outputMessage hiter, Request.messages, Request.recordedOutput, hp]

theorem reconstructMessages_of_turns (hi : Inv s) (hcold : s.cold = none) {turns : List Request}
    (h : List.Forall₂ (fun r row => r ∈ s.requests ∧ r.row? = some row) turns rows)
    {history : List Json} (hm : reconstructMessages s.cold rows = .ok history) :
    history = turns.flatMap Request.messages := by
  induction h generalizing history with
  | nil => cases hm; rfl
  | @cons r row turns rows hr _ ih =>
    obtain ⟨messages,hmessages,hm⟩ := Except.bind_eq_ok_iff.mp hm
    obtain ⟨rest,hrest,he⟩ := Except.bind_eq_ok_iff.mp hm
    cases he
    rw [List.flatMap_cons, ih hrest, rowMessages_of_row? hi hcold hr.1 hr.2 hmessages]

end Turns

def KeepsRows (s : State) : Action → Prop
  | .deleteExpired asOf => ∀ row ∈ s.store.rows, row.expired asOf = false
  | _ => True

structure Whole (s : State) : Prop where
  cold : s.cold = none
  stored : ∀ id row, s.recorded id = some row → s.store.getById id = some row

section Whole

variable {gw : Gateway} {s s' : State} {a : Action} {r r' : Request} {row : SessionRecord} {id : String}
  {store : SessionStore} {cold : Option ColdStorage} {i : ℕ}

theorem recorded_of_moved (hi : Inv s) (hrow : (moved s i r' store cold).recorded id = some row) :
    s.recorded id = some row ∨ r'.row? = some row := by
  obtain ⟨x,hx,rfl,hxrow⟩ := mem_of_recorded hrow
  rcases List.mem_or_eq_of_mem_set hx with hx | rfl
  · exact .inl (by rw [recorded_of_mem hi.ids hx, hxrow])
  · exact .inr hxrow

theorem moves_coldless (h : Moves gw s r r' store cold) (hcold : s.cold = none) : cold = none := by
  cases h with
  | @prepared resolved response newSessionId put row cold _ _ _ hprep =>
    rcases SessionRecorder.prepare_cases gw.recorder s.cold ⟨s.now, newSessionId, put, none⟩
      (recordCall r.turn r.newId resolved response) with he | ⟨storage,key,hsome,-⟩
    · rw [he] at hprep; cases hprep; exact hcold
    · rw [hcold] at hsome; cases hsome
  | _ => exact hcold

theorem move_stored {P : SessionRecord → Prop} (hi : Inv s)
    (hs : ∀ id row, s.recorded id = some row → P row → s.store.getById id = some row)
    (hr : s.requests[i]? = some r) (h : Moves gw s r r' store cold) :
    ∀ id row, (moved s i r' store cold).recorded id = some row → P row →
      (moved s i r' store cold).store.getById id = some row := by
  intro id row hrow hP
  have hcase := recorded_of_moved hi hrow
  rcases moves_store h with ⟨rfl,hnone⟩ | ⟨resolved,response,row',-,hp',hins⟩
  · rcases hcase with hold | hnew
    · exact hs _ _ hold hP
    · rw [hnone] at hnew; cases hnew
  · have hid := (move_inv hi hr h).recorded_id _ _ hrow
    obtain ⟨-,hrows⟩ := SessionStore.insert_eq_ok_iff.mp hins
    refine SessionStore.getById_eq_some_iff.mpr ⟨?_,hid⟩
    simp only [moved, hrows, List.mem_append, List.mem_singleton]
    rcases hcase with hold | hnew
    · exact .inl (SessionStore.mem_of_getById (hs _ _ hold hP))
    · refine .inr ?_
      simpa [Request.row?, hp', Stage.row?] using hnew.symm

theorem recorded_of_received {payload : JsonDict} {uuid : String} {turn : Turn} (hi : Inv s)
    (hrow : State.recorded { s with requests := s.requests ++ [.start payload uuid turn] } id = some row) :
    s.recorded id = some row := by
  obtain ⟨x,hx,rfl,hxrow⟩ := mem_of_recorded hrow
  rcases List.mem_append.mp hx with hx | hx
  · rw [recorded_of_mem hi.ids hx, hxrow]
  · obtain rfl := List.mem_singleton.mp hx
    rw [row?_start] at hxrow
    cases hxrow

theorem step_whole (hi : Inv s) (hw : Whole s) (hok : KeepsRows s a) (h : step gw s a = some s') :
    Whole s' := by
  rcases step_cases h with rfl | ⟨payload,uuid,turn,-,-,rfl⟩ | ⟨i,m,r,r',store,cold,-,hr,hm,rfl⟩ |
    ⟨d,rfl⟩ | ⟨asOf,rfl,rfl⟩
  · exact hw
  · exact ⟨hw.cold,fun id row hrow => hw.stored _ _ (recorded_of_received hi hrow)⟩
  · have hstored := move_stored (P := fun _ => True) hi (fun id row hrow _ => hw.stored id row hrow) hr
      (moves_of_move hm)
    exact ⟨moves_coldless (moves_of_move hm) hw.cold,fun id row hrow => hstored id row hrow trivial⟩
  · exact ⟨hw.cold,hw.stored⟩
  · refine ⟨hw.cold,fun id row hrow => ?_⟩
    have hfound := hw.stored id row hrow
    rw [SessionStore.getById_deleteExpired, hfound, Option.filter_some_pos]
    simp [hok row (SessionStore.mem_of_getById hfound)]

theorem reach_whole {now : Time} (h : Reach (step gw) KeepsRows (.initial none now) s) :
    Inv s ∧ Whole s := by
  refine h.invariant (I := fun s => Inv s ∧ Whole s) ⟨initial_inv none now,rfl,?_⟩ ?_
  · intro id row hrow
    simp [State.initial, State.recorded] at hrow
  · rintro s a s' ⟨hi,hw⟩ hok hs
    exact ⟨step_inv hi hs,step_whole hi hw hok hs⟩

end Whole

theorem namedId_of_truthy {request : JsonDict} {named : Option String}
    (ht : (request.get "previous_response_id").truthy = true) (h : namedId request = .ok named) :
    ∃ prevId, named = some prevId := by
  unfold namedId at h
  dsimp only at h
  rw [ht] at h
  cases named with
  | some prevId => exact ⟨prevId,rfl⟩
  | none =>
    split at h
    · rename_i hf; cases hf
    · split at h <;> cases h

section Chain

variable {s : State} {turn : Turn} {resolved : ResolvedRequest}

theorem History.chain (h : History s turn resolved)
    (hprev : (turn.payload.get "previous_response_id").truthy = true) :
    ∃ prevId pre kept history, turn.payload.get "previous_response_id" = .str prevId ∧
      Lineage s.recorded SessionRecord.parent prevId (pre ++ kept) ∧
      (pre = [] ∨ ∃ row, pre.getLast? = some row ∧ s.Gone row.id) ∧
      reconstructMessages s.cold kept = .ok history ∧
      resolved.request = rewrite turn.payload history := by
  cases h with
  | root hn =>
    obtain ⟨_,he⟩ := namedId_of_truthy hprev hn
    cases he
  | @chained prevId parent pre kept history hn _ _ hl hcut hm =>
    exact ⟨prevId,pre,kept,history,(namedId_eq_some hn).1,hl,hcut,hm,rfl⟩

theorem Whole.no_gap (hi : Inv s) (hw : Whole s) {prevId : String} {pre kept : List SessionRecord}
    (hl : Lineage s.recorded SessionRecord.parent prevId (pre ++ kept))
    (hcut : pre = [] ∨ ∃ row, pre.getLast? = some row ∧ s.Gone row.id) : pre = [] := by
  rcases hcut with hnil | ⟨row,hlast,hgone⟩
  · exact hnil
  · have hmem : row ∈ pre ++ kept := List.mem_append_left _ (List.mem_of_getLast? hlast)
    have hfound := hw.stored _ _ (hl.look_of_mem _ hi.recorded_id hmem)
    rw [State.Gone, hfound] at hgone
    cases hgone

end Chain

theorem exact_history {gw : Gateway} {now : Time} {s : State}
    (h : Reach (step gw) KeepsRows (.initial none now) s) {r : Request} (hr : r ∈ s.requests)
    {resolved : ResolvedRequest} {stage : Stage} (hp : r.phase = .resolved resolved stage)
    (hprev : (r.turn.payload.get "previous_response_id").truthy = true) :
    ∃ prevId turns, r.turn.payload.get "previous_response_id" = .str prevId ∧
      Lineage s.turn? Request.parentId prevId turns ∧ (turns.map Request.newId).Nodup ∧
      resolved.request = (r.turn.payload.set "input" (.list (turns.flatMap Request.messages ++
        normalizeCurrentInput (r.turn.payload.getD "input" (.list []))))).erase "previous_response_id" ∧
      ∀ t ∈ r :: turns, receive gw t.body = .ok t.turn ∧
        ("input" ∉ gw.config.reject.fields.keys → "input" ∉ gw.config.reject.presentFields →
          t.turn.payload.get? "input" = t.body.get? "input") := by
  obtain ⟨hi,hw⟩ := reach_whole h
  have hok := hi.phases r hr
  rw [hp] at hok
  obtain ⟨prevId,pre,kept,history,hnamed,hl,hcut,hm,hrequest⟩ := hok.1.chain hprev
  obtain rfl := hw.no_gap hi hl hcut
  obtain ⟨turns,hturns,hrows⟩ := turns_of_rows hi hl
  have hid : ∀ k t, s.turn? k = some t → t.newId = k := fun k t ht => (mem_of_turn? ht).2
  refine ⟨prevId,turns,hnamed,hturns,hturns.nodup _ hid,?_,?_⟩
  · rw [hrequest, reconstructMessages_of_turns hi hw.cold hrows hm]
    rfl
  · intro t ht
    have htmem : t ∈ s.requests := by
      rcases List.mem_cons.mp ht with rfl | ht
      · exact hr
      · exact (mem_of_turn? (hturns.look_of_mem _ hid ht)).1
    have hreceive := reach_received h t htmem
    refine ⟨hreceive,fun hfields hpresent => ?_⟩
    have hinput : t.turn.payload.get? "input" = t.body.get? "input" ∨ _ :=
      receive_get? hreceive (by decide) (by decide)
    rcases hinput with hsame | ⟨hm | hm,-⟩
    · exact hsame
    · exact absurd hm hfields
    · exact absurd hm hpresent

def plainTurn (i : ℕ) (uuid : String) (payload : JsonDict) (reads : ℕ) (answer : String) : List Action :=
  .receive payload uuid :: List.replicate reads (.move i .read) ++
    [.move i (.respond (.ok (.dict (.ofEntries
      [("output", .list [.dict [("type", .str "message"), ("content", .str answer)]])])))),
     .move i (.record "session" (.ok "")), .move i (.insert none)]

def opening : JsonDict := .ofEntries [("model", .str "gpt-4o"), ("input", .str "hi")]

def sequel (prevId input : String) : JsonDict :=
  .ofEntries [("model", .str "gpt-4o"), ("input", .str input), ("previous_response_id", .str prevId)]

def twoTurns : List Action :=
  plainTurn 0 "1" opening 0 "hello" ++ [.receive (sequel "resp_1" "how are you?") "2",
    .move 1 .read, .move 1 .read]

def twoTurnsState : State := (runSteps (step {}) (.initial none 0) twoTurns).get rfl

def secondTurn : Request := (twoTurnsState.requests[1]?).get rfl

def secondResolved : ResolvedRequest :=
  ⟨rewrite (sequel "resp_1" "how are you?")
    [.dict [("role", .str "user"), ("content", .str "hi")],
     .dict [("role", .str "assistant"), ("content", .str "hello")]], some "session", some "resp_1"⟩

theorem twoTurns_keep (s : State) : ∀ a ∈ twoTurns, KeepsRows s a := by
  intro a ha
  cases a with
  | deleteExpired asOf => simp [twoTurns, plainTurn] at ha
  | _ => trivial

theorem exact_history_twoTurns :
    ∃ prevId turns, secondTurn.turn.payload.get "previous_response_id" = .str prevId ∧
      Lineage twoTurnsState.turn? Request.parentId prevId turns ∧ (turns.map Request.newId).Nodup ∧
      secondResolved.request = (secondTurn.turn.payload.set "input" (.list (turns.flatMap Request.messages ++
        normalizeCurrentInput (secondTurn.turn.payload.getD "input" (.list []))))).erase
          "previous_response_id" ∧
      ∀ t ∈ secondTurn :: turns, receive {} t.body = .ok t.turn ∧
        ("input" ∉ ({} : Gateway).config.reject.fields.keys →
          "input" ∉ ({} : Gateway).config.reject.presentFields →
          t.turn.payload.get? "input" = t.body.get? "input") := by
  have hreach : Reach (step {}) KeepsRows (.initial none 0) twoTurnsState :=
    reach_of_runSteps twoTurns twoTurns_keep (Option.some_get rfl).symm
  have hmem : secondTurn ∈ twoTurnsState.requests := List.mem_of_getElem? (Option.some_get rfl).symm
  have hphase : secondTurn.phase = .resolved secondResolved .calling := rfl
  exact exact_history hreach hmem hphase rfl

def KeepsHistory (s : State) : Prop :=
  ∀ r ∈ s.requests, ∀ resolved stage prevId, r.phase = .resolved resolved stage →
    namedId r.turn.payload = .ok (some prevId) →
    ∀ rows, Lineage s.recorded SessionRecord.parent prevId rows →
      ∃ history, reconstructMessages s.cold rows = .ok history ∧
        resolved.request = rewrite r.turn.payload history

theorem history_starts_below_gap {gw : Gateway} {cold : Option ColdStorage} {now : Time} {s : State}
    (h : Reach (step gw) (fun _ _ => True) (.initial cold now) s) :
    (∀ r ∈ s.requests, ∀ resolved stage, r.phase = .resolved resolved stage →
      (r.turn.payload.get "previous_response_id").truthy = true →
      ∃ prevId pre kept history, r.turn.payload.get "previous_response_id" = .str prevId ∧
        Lineage s.recorded SessionRecord.parent prevId (pre ++ kept) ∧
        ((pre ++ kept).map SessionRecord.id).Nodup ∧
        (pre = [] ∨ ∃ row, pre.getLast? = some row ∧ s.store.getById row.id = none) ∧
        reconstructMessages s.cold kept = .ok history ∧
        resolved.request = rewrite r.turn.payload history) ∧
    ∀ request provider, (∀ prevId, namedId request = .ok (some prevId) →
        ∀ row ∈ walkParentChain s.store prevId, row.expired s.now = false) →
      resolve (s.store.deleteExpired s.now) s.cold s.now request provider =
        resolve s.store s.cold s.now request provider := by
  have hi := reach_inv h
  refine ⟨fun r hr resolved stage hp hprev => ?_,
    fun request provider hlive => resolve_deleteExpired hlive provider⟩
  have hok := hi.phases r hr
  rw [hp] at hok
  obtain ⟨prevId,pre,kept,history,hnamed,hl,hcut,hm,hrequest⟩ := hok.1.chain hprev
  exact ⟨prevId,pre,kept,history,hnamed,hl,hl.nodup _ hi.recorded_id,hcut,hm,hrequest⟩

def days (n : ℕ) : ℕ := n * 86400000000

def agedRun : List Action :=
  plainTurn 0 "1" opening 0 "hello" ++ [.tick (days 20)] ++
    plainTurn 1 "2" (sequel "resp_1" "how are you?") 2 "fine" ++
    [.tick (days 15), .deleteExpired (days 35), .receive (sequel "resp_2" "good") "3",
     .move 2 .read, .move 2 .read, .move 2 .read]

def agedState : State := (runSteps (step {}) (.initial none 0) agedRun).get rfl

def thirdTurn : Request := (agedState.requests[2]?).get rfl

def thirdResolved : ResolvedRequest :=
  ⟨rewrite (sequel "resp_2" "good")
    [.dict [("role", .str "user"), ("content", .str "how are you?")],
     .dict [("role", .str "assistant"), ("content", .str "fine")]], some "session", some "resp_2"⟩

def firstRow : SessionRecord := (agedState.recorded "resp_1").get rfl

def secondRow : SessionRecord := (agedState.recorded "resp_2").get rfl

theorem agedState_reached : Reach (step {}) (fun _ _ => True) (.initial none 0) agedState :=
  reach_of_runSteps agedRun (fun _ _ _ => trivial) (Option.some_get rfl).symm

theorem thirdTurn_mem : thirdTurn ∈ agedState.requests :=
  List.mem_of_getElem? (Option.some_get rfl).symm

theorem expired_ancestor_dropped :
    ¬ ∀ (gw : Gateway) (cold : Option ColdStorage) (now : Time) (s : State),
      Reach (step gw) (fun _ _ => True) (.initial cold now) s → KeepsHistory s := by
  intro hall
  have hphase : thirdTurn.phase = .resolved thirdResolved .calling := rfl
  have hroot : Lineage agedState.recorded SessionRecord.parent "resp_1" [firstRow] :=
    .root (Option.some_get rfl).symm rfl
  have hfound : agedState.recorded "resp_2" = some secondRow := (Option.some_get rfl).symm
  have hparent : secondRow.parent = some "resp_1" := rfl
  have hl : Lineage agedState.recorded SessionRecord.parent "resp_2" ([firstRow] ++ [secondRow]) :=
    .child hfound hparent hroot
  obtain ⟨history,hm,he⟩ := hall {} none 0 agedState agedState_reached thirdTurn thirdTurn_mem
    thirdResolved .calling "resp_2" hphase rfl _ hl
  cases hm
  exact absurd he (by decide)

theorem history_starts_below_gap_aged :
    (∀ r ∈ agedState.requests, ∀ resolved stage, r.phase = .resolved resolved stage →
      (r.turn.payload.get "previous_response_id").truthy = true →
      ∃ prevId pre kept history, r.turn.payload.get "previous_response_id" = .str prevId ∧
        Lineage agedState.recorded SessionRecord.parent prevId (pre ++ kept) ∧
        ((pre ++ kept).map SessionRecord.id).Nodup ∧
        (pre = [] ∨ ∃ row, pre.getLast? = some row ∧ agedState.store.getById row.id = none) ∧
        reconstructMessages agedState.cold kept = .ok history ∧
        resolved.request = rewrite r.turn.payload history) ∧
    ∀ request provider, (∀ prevId, namedId request = .ok (some prevId) →
        ∀ row ∈ walkParentChain agedState.store prevId, row.expired agedState.now = false) →
      resolve (agedState.store.deleteExpired agedState.now) agedState.cold agedState.now request provider =
        resolve agedState.store agedState.cold agedState.now request provider :=
  history_starts_below_gap agedState_reached

end ResponsesGateway
