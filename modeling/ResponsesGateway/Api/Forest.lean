import ResponsesGateway.Api.History

namespace ResponsesGateway

open SessionResolver

def NamesSessions (_ : State) : Action → Prop
  | .move _ (.record newSessionId _) => newSessionId ≠ ""
  | _ => True

def InSession (r : Request) : Prop :=
  ∀ resolved stage row, r.phase = .resolved resolved stage → r.made? = some row →
    row.sessionId ≠ "" ∧ ∀ sid, resolved.sessionId = some sid → sid ≠ "" → row.sessionId = sid

structure OneSession (walk : ChainWalk) (sessionId provider : String) : Prop where
  unstopped : ∀ c, walk.cur = some c → c ∉ walk.visited
  session : ∀ row ∈ walk.chain, row.sessionId = sessionId
  provider : ∀ row ∈ walk.chain, row.provider = provider

section Sessions

variable {gw : Gateway} {s s' : State} {a : Action} {r r' : Request} {m : Move} {i : ℕ}
  {store : SessionStore} {cold : Option ColdStorage} {now : Time} {resolved : ResolvedRequest}
  {response : JsonDict} {row parent : SessionRecord}

theorem move_of_answered (hp : r.phase = .resolved resolved (.answered response))
    (hflag : r.turn.storeFlag.truthy = true) (h : move gw s r m = some (r', store, cold))
    (hnew : r'.phase = .resolved resolved (.inserting response row)) :
    ∃ newSessionId put, m = .record newSessionId put ∧
      row = (gw.recorder.prepare s.cold ⟨s.now, newSessionId, put, none⟩
        (recordCall r.turn r.newId resolved response)).1 := by
  cases m with
  | record newSessionId put =>
    simp only [move, hp, if_pos hflag] at h
    split at h
    · cases h
      cases hnew
    · split at h
      · cases h
        cases hnew
        exact ⟨newSessionId,put,rfl,rfl⟩
      · cases h
  | _ => simp [move, hp] at h

theorem move_inSession (hok : NamesSessions s (.move i m)) (h : move gw s r m = some (r', store, cold))
    (hr : InSession r) : InSession r' := by
  intro resolved stage row hp hrow
  rcases made?_of_moves (moves_of_move h) hrow with
    ⟨resolved',stage',stage'',hold,hnew,hmade⟩ | ⟨resolved',response,hold,hflag,hnew⟩
  · rw [hnew] at hp
    cases hp
    exact hr _ _ _ hold hmade
  · obtain ⟨newSessionId,put,rfl,rfl⟩ := move_of_answered hold hflag h hnew
    rw [hnew] at hp
    cases hp
    obtain ⟨-,-,hsession,-⟩ := SessionRecorder.prepare_columns gw.recorder s.cold
      ⟨s.now, newSessionId, put, none⟩ (recordCall r.turn r.newId resolved response)
    rw [hsession]
    exact SessionRecorder.sessionId_inlineRow hok

theorem reach_inSession (h : Reach (step gw) NamesSessions (.initial cold now) s) :
    ∀ r ∈ s.requests, InSession r := by
  refine h.invariant (I := fun s => ∀ r ∈ s.requests, InSession r) (by simp [State.initial]) ?_
  intro s a s' hs hok hstep
  refine step_each ?_ ?_ hs hstep
  · intro payload uuid turn _ resolved stage row _ hrow
    rw [made?_start] at hrow
    cases hrow
  · rintro i m r r' store cold rfl hr hm
    exact move_inSession hok hm hr

def Homogeneous (s : State) : Prop :=
  ∀ id row p, s.recorded id = some row → row.parentId = some p →
    row.parent = some p ∧ ∃ parent, s.recorded p = some parent ∧
      row.sessionId = parent.sessionId ∧ row.provider = parent.provider

theorem named_of_inSession (hi : Inv s) (hs : ∀ r ∈ s.requests, InSession r) :
    ∀ id row, s.recorded id = some row → row.sessionId ≠ "" := by
  intro id row hrow
  obtain ⟨r,hr,-,hrow⟩ := mem_of_recorded hrow
  obtain ⟨resolved,response,hp,-,-⟩ := wrote_of_row? (hi.phases r hr) hrow
  exact (hs r hr _ _ _ hp (made?_of_row? hrow)).1

theorem homogeneous_of_inSession (hi : Inv s) (hs : ∀ r ∈ s.requests, InSession r) : Homogeneous s := by
  intro id row p hrow hparent
  obtain ⟨r,hr,-,hrow⟩ := mem_of_recorded hrow
  obtain ⟨resolved,response,hp,hhist,hw⟩ := wrote_of_row? (hi.phases r hr) hrow
  rw [hw.parentId] at hparent
  cases hhist with
  | root _ => cases hparent
  | @chained prevId parent pre kept history hn hrec hprov _ _ _ =>
    -- The parent may be gone by now; what it said when it was inserted still counts.
    cases hparent
    have hsession := (hs r hr _ _ _ hp (made?_of_row? hrow)).2 _ rfl (named_of_inSession hi hs _ _ hrec)
    refine ⟨?_,parent,hrec,hsession,hw.provider.trans hprov.symm⟩
    simp [SessionRecord.parent, hw.parentId, (namedId_eq_some hn).2]

theorem parentId_of_parent {p : String} (h : row.parent = some p) : row.parentId = some p :=
  (Option.filter_eq_some_iff.mp h).1

theorem Homogeneous.above (hi : Inv s) (hf : Homogeneous s) {k p : String}
    (h : Lineage.Above s.store.getById SessionRecord.parentId k p) :
    Lineage.Above s.recorded SessionRecord.parent k p := by
  obtain ⟨row,hrow,hp⟩ := h
  have hrec := hi.seen hrow
  exact ⟨row,hrec,(hf _ _ _ hrec hp).1⟩

theorem Homogeneous.acyclic (hi : Inv s) (hf : Homogeneous s) (id : String) :
    ¬ Relation.TransGen (Lineage.Above s.store.getById SessionRecord.parentId) id id := by
  intro hcycle
  have hup := Relation.TransGen.mono (fun _ _ h => hf.above hi h) _ _ hcycle
  obtain ⟨p,⟨row,hrow,-⟩,-⟩ := Relation.TransGen.head'_iff.mp hup
  obtain ⟨rows,hl⟩ := hi.lineage _ _ hrow
  exact hl.not_above_self hup

theorem Homogeneous.alike (hf : Homogeneous s) {k : String} {rows : List SessionRecord}
    (hl : Lineage s.recorded SessionRecord.parent k rows) (hk : s.recorded k = some parent)
    (hrow : row ∈ rows) : row.sessionId = parent.sessionId ∧ row.provider = parent.provider := by
  have hshared := hl.constant (f := fun row => (row.sessionId, row.provider)) ?_ hk hrow
  · simpa using hshared
  · intro k r p q hr hp hq
    obtain ⟨-,q',hq',hsession,hprov⟩ := hf _ _ _ hr (parentId_of_parent hp)
    obtain rfl := Option.some.inj (hq.symm.trans hq')
    simp [hsession, hprov]

theorem Homogeneous.oneSession (hi : Inv s) (hf : Homogeneous s) {walk : ChainWalk} {id : String}
    (hw : walk.Follows s.recorded SessionRecord.parent SessionRecord.id s.Gone id)
    (hparent : s.recorded id = some parent) : OneSession walk parent.sessionId parent.provider := by
  obtain ⟨pre,hl,-⟩ := hw.lineage
  have halike (row : SessionRecord) (hrow : row ∈ walk.chain) :=
    hf.alike hl hparent (List.mem_append_right pre (List.mem_reverse.mpr hrow))
  refine ⟨?_,fun row hrow => (halike row hrow).1,fun row hrow => (halike row hrow).2⟩
  intro c hc
  exact (Walk.next?_eq_some.mp (hw.next?_of_cur hi.recorded_id hc)).2

theorem walkStep_follows (hi : Inv s) {walk : ChainWalk} {id : String}
    (hw : walk.Follows s.recorded SessionRecord.parent SessionRecord.id s.Gone id) :
    (walkStep s.store walk).Follows s.recorded SessionRecord.parent SessionRecord.id s.Gone id :=
  hw.step hi.recorded_id (fun _ _ hk => hi.seen hk) (fun _ hk => hk)

theorem iterate_follows (hi : Inv s) {walk : ChainWalk} {id : String} (n : ℕ)
    (hw : walk.Follows s.recorded SessionRecord.parent SessionRecord.id s.Gone id) :
    ((walkStep s.store)^[n] walk).Follows s.recorded SessionRecord.parent SessionRecord.id s.Gone id := by
  induction n generalizing walk with
  | zero => exact hw
  | succ n ih =>
    rw [Function.iterate_succ_apply]
    exact ih (walkStep_follows hi hw)

theorem oneSession_missing {id : String} (h : s.store.getById id = none) (n : ℕ) :
    OneSession ((walkStep s.store)^[n] (Walk.start id)) "" "" := by
  cases n with
  | zero => exact ⟨by simp [Walk.start],by simp [Walk.start],by simp [Walk.start]⟩
  | succ n =>
    have hfirst : walkStep s.store (Walk.start id) = ⟨none, [id], []⟩ :=
      Walk.step_of_missing rfl h
    have hdone : walkStep s.store ⟨none, [id], []⟩ = ⟨none, [id], []⟩ := Walk.step_of_done rfl
    rw [Function.iterate_succ_apply, hfirst, Function.iterate_fixed hdone]
    exact ⟨by simp,by simp,by simp⟩

end Sessions

structure SessionForest (s : State) : Prop where
  parents : ∀ row ∈ s.store.rows, ∀ p parent, row.parentId = some p → s.store.getById p = some parent →
    row.sessionId = parent.sessionId ∧ row.provider = parent.provider
  acyclic : ∀ id, ¬ Relation.TransGen (Lineage.Above s.store.getById SessionRecord.parentId) id id
  walking : ∀ r ∈ s.requests, ∀ prevId parent walk, r.phase = .walking prevId parent walk →
    OneSession walk parent.sessionId r.turn.provider ∧
      OneSession (walkStep s.store walk) parent.sessionId r.turn.provider
  walks : ∀ id, ∃ sessionId provider, ∀ n,
    OneSession ((walkStep s.store)^[n] (Walk.start id)) sessionId provider

theorem session_forest {gw : Gateway} {cold : Option ColdStorage} {now : Time} {s : State}
    (h : Reach (step gw) NamesSessions (.initial cold now) s) : SessionForest s := by
  have hi := reach_inv h
  have hf := homogeneous_of_inSession hi (reach_inSession h)
  refine ⟨?_,hf.acyclic hi,?_,?_⟩
  · intro row hrow p parent hp hparent
    obtain ⟨-,parent',hrec,hshared⟩ := hf _ _ _ (hi.table row hrow) hp
    obtain rfl := Option.some.inj ((hi.seen hparent).symm.trans hrec)
    exact hshared
  · intro r hr prevId parent walk hp
    have hok := hi.phases r hr
    rw [hp] at hok
    obtain ⟨-,hrec,hprov,hw⟩ := hok
    rw [← hprov]
    exact ⟨hf.oneSession hi hw hrec,hf.oneSession hi (walkStep_follows hi hw) hrec⟩
  · intro id
    cases hfound : s.store.getById id with
    | none => exact ⟨"","",oneSession_missing hfound⟩
    | some row =>
      have hrec := hi.seen hfound
      obtain ⟨rows,hl⟩ := hi.lineage _ _ hrec
      exact ⟨row.sessionId,row.provider,
        fun n => hf.oneSession hi (iterate_follows hi n (.start hi.recorded_id hl)) hrec⟩

def branchingRun : List Action :=
  plainTurn 0 "1" opening 0 "hello" ++ plainTurn 1 "2" (sequel "resp_1" "how are you?") 2 "fine" ++
    plainTurn 2 "3" (sequel "resp_1" "who are you?") 2 "a model" ++
    [.receive (sequel "resp_2" "good") "4", .move 3 .read, .move 3 .read]

def branchingState : State := (runSteps (step {}) (.initial none 0) branchingRun).get rfl

theorem plainTurn_names {i : ℕ} {uuid answer : String} {payload : JsonDict} {reads : ℕ} (s : State) :
    ∀ a ∈ plainTurn i uuid payload reads answer, NamesSessions s a := by
  intro a ha
  simp only [plainTurn, List.cons_append, List.mem_cons, List.mem_append, List.not_mem_nil, or_false] at ha
  rcases ha with rfl | ha | rfl | rfl | rfl
  · trivial
  · rw [List.eq_of_mem_replicate ha]
    trivial
  · trivial
  · simp [NamesSessions]
  · trivial

theorem branchingRun_names (s : State) : ∀ a ∈ branchingRun, NamesSessions s a := by
  intro a ha
  simp only [branchingRun, List.mem_append] at ha
  rcases ha with ((ha | ha) | ha) | ha
  · exact plainTurn_names s a ha
  · exact plainTurn_names s a ha
  · exact plainTurn_names s a ha
  · simp only [List.mem_cons, List.not_mem_nil, or_false] at ha
    rcases ha with rfl | rfl | rfl <;> trivial

theorem session_forest_branching : SessionForest branchingState := by
  have hreach : Reach (step {}) NamesSessions (.initial none 0) branchingState :=
    reach_of_runSteps branchingRun branchingRun_names (Option.some_get rfl).symm
  exact session_forest hreach

end ResponsesGateway
