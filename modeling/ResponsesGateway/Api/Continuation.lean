import ResponsesGateway.Api.Forest
import ResponsesGateway.Api.LifeCycle
import ResponsesGateway.Session.Chain

namespace ResponsesGateway

open SessionResolver

def AcceptedSince (now : Time) (s : State) (r : Request) : Prop :=
  match r.phase with
  | .resolving _ => True
  | .unresolved _ => True
  | _ => ∀ prevId, namedId r.turn.payload = .ok (some prevId) → ∃ parent t, s.recorded prevId = some parent ∧
      now ≤ t ∧ t ≤ s.now ∧ parent.expired t = false

section Accepted

variable {gw : Gateway} {s s' : State} {a : Action} {r r' : Request} {store : SessionStore}
  {cold : Option ColdStorage} {now : Time} {i : ℕ}

theorem AcceptedSince.later (he : Extends s s') (hnow : s.now ≤ s'.now) (h : AcceptedSince now s r) :
    AcceptedSince now s' r := by
  unfold AcceptedSince at h ⊢
  split
  · trivial
  · trivial
  · rename_i hresolving hunresolved
    intro prevId hn
    split at h
    · rename_i prevId' hp; exact absurd hp (hresolving prevId')
    · rename_i exn hp; exact absurd hp (hunresolved exn)
    · obtain ⟨parent,t,hrec,hfirst,hlast,hlive⟩ := h prevId hn
      exact ⟨parent,t,he.recorded _ _ hrec,hfirst,hlast.trans hnow,hlive⟩

theorem acceptedSince_start (payload : JsonDict) (uuid : String) (turn : Turn) :
    AcceptedSince now s (.start payload uuid turn) := by
  unfold AcceptedSince Request.start Request.initialPhase
  cases hn : namedId turn.payload with
  | error exn => trivial
  | ok named =>
    cases named with
    | some prevId => trivial
    | none =>
      intro prevId hn'
      cases hn'

theorem AcceptedSince.moves (hi : Inv s) (hnow : now ≤ s.now) (hr : r ∈ s.requests)
    (h : AcceptedSince now s r) (hmove : Moves gw s r r' store cold) : AcceptedSince now s r' := by
  have hok := hi.phases r hr
  unfold AcceptedSince at h ⊢
  cases hmove with
  | abandoned => trivial
  | @accepted prevId parent hp hcheck =>
    rw [hp] at hok
    intro prevId' hn
    obtain rfl : prevId = prevId' := by simpa using hok.symm.trans hn
    obtain ⟨hfound,hlive,-⟩ := checkParent_eq_ok hcheck
    exact ⟨parent,s.now,hi.seen hfound,hnow,le_refl _,hlive⟩
  | climbed hp => rw [hp] at h; exact h
  | reconstructed hp => rw [hp] at h; exact h
  | failed hp => rw [hp] at h; exact h
  | answered hp => rw [hp] at h; exact h
  | connected hp => rw [hp] at h; exact h
  | forwarded hp => rw [hp] at h; exact h
  | ended hp => rw [hp] at h; exact h
  | skipped hp => rw [hp] at h; exact h
  | prepared hp => rw [hp] at h; exact h
  | inserted hp => rw [hp] at h; exact h

theorem reach_accepted {ok : State → Action → Prop} (h : Reach (step gw) ok (.initial cold now) s) :
    ∀ r ∈ s.requests, AcceptedSince now s r := by
  have hall : Inv s ∧ now ≤ s.now ∧ ∀ r ∈ s.requests, AcceptedSince now s r := by
    refine h.invariant (I := fun s => Inv s ∧ now ≤ s.now ∧ ∀ r ∈ s.requests, AcceptedSince now s r)
      ⟨initial_inv cold now,le_refl _,by simp [State.initial]⟩ ?_
    rintro s a s' ⟨hi,hnow,ha⟩ - hs
    have he := step_extends hi hs
    have hlater : ∀ r, AcceptedSince now s r → AcceptedSince now s' r := fun r => .later he (step_now hs)
    refine ⟨step_inv hi hs,hnow.trans (step_now hs),?_⟩
    rcases step_cases hs with rfl | ⟨payload,uuid,turn,-,-,rfl⟩ | ⟨i,m,r,r',store,cold,-,hr,hm,rfl⟩ |
      ⟨d,rfl⟩ | ⟨asOf,-,rfl⟩
    · exact ha
    · intro x hx
      rcases List.mem_append.mp hx with hx | hx
      · exact hlater x (ha x hx)
      · rw [List.mem_singleton.mp hx]
        exact acceptedSince_start _ _ _
    · intro x hx
      have hmem := List.mem_of_getElem? hr
      rcases List.mem_or_eq_of_mem_set hx with hold | rfl
      · exact hlater x (ha x hold)
      · exact hlater x (AcceptedSince.moves hi hnow hmem (ha r hmem) (moves_of_move hm))
    · exact fun x hx => hlater x (ha x hx)
    · exact fun x hx => hlater x (ha x hx)
  exact hall.2.2

def AllStored (s : State) : Prop := ∀ id row, s.recorded id = some row → s.store.getById id = some row

theorem step_allStored (hi : Inv s) (hs : AllStored s) (hok : KeepsRows s a) (h : step gw s a = some s') :
    AllStored s' := by
  rcases step_cases h with rfl | ⟨payload,uuid,turn,-,-,rfl⟩ | ⟨i,m,r,r',store,cold,-,hr,hm,rfl⟩ | ⟨d,rfl⟩ |
    ⟨asOf,rfl,rfl⟩
  · exact hs
  · exact fun id row hrow => hs id row (recorded_of_received hi hrow)
  · have hstored := move_stored (P := fun _ => True) hi (fun id row hrow _ => hs id row hrow) hr
      (moves_of_move hm)
    exact fun id row hrow => hstored id row hrow trivial
  · exact hs
  · intro id row hrow
    have hfound := hs id row hrow
    rw [SessionStore.getById_deleteExpired, hfound, Option.filter_some_pos]
    simp [hok row (SessionStore.mem_of_getById hfound)]

theorem reach_allStored (h : Reach (step gw) KeepsRows (.initial cold now) s) : Inv s ∧ AllStored s := by
  refine h.invariant (I := fun s => Inv s ∧ AllStored s) ⟨initial_inv cold now,?_⟩ ?_
  · intro id row hrow
    simp [State.initial, State.recorded] at hrow
  · rintro s a s' ⟨hi,hstored⟩ hok hs
    exact ⟨step_inv hi hs,step_allStored hi hstored hok hs⟩

theorem AllStored.no_gap (hi : Inv s) (hs : AllStored s) {prevId : String} {pre kept : List SessionRecord}
    (hl : Lineage s.recorded SessionRecord.parent prevId (pre ++ kept))
    (hcut : pre = [] ∨ ∃ row, pre.getLast? = some row ∧ s.Gone row.id) : pre = [] := by
  rcases hcut with hnil | ⟨row,hlast,hgone⟩
  · exact hnil
  · have hmem : row ∈ pre ++ kept := List.mem_append_left _ (List.mem_of_getLast? hlast)
    have hfound := hs _ _ (hl.look_of_mem _ hi.recorded_id hmem)
    exact absurd (hgone.symm.trans hfound) (by simp)

theorem AllStored.walk (hi : Inv s) (hs : AllStored s) {prevId : String} {rows : List SessionRecord}
    (hl : Lineage s.recorded SessionRecord.parent prevId rows) : walkParentChain s.store prevId = rows := by
  have hl' : Lineage s.recorded SessionRecord.parent prevId ([] ++ rows) := hl
  refine (parentPath_iff.mp (hl'.parentChain hi.recorded_id (by simp) (fun row hrow => ?_))).symm
  exact hs _ _ (hl.look_of_mem _ hi.recorded_id hrow)

end Accepted

theorem resolve_atomic {gw : Gateway} {cold : Option ColdStorage} {now : Time} {s : State}
    (h : Reach (step gw) KeepsRows (.initial cold now) s) {r : Request} (hr : r ∈ s.requests)
    {resolved : ResolvedRequest} {stage : Stage} (hp : r.phase = .resolved resolved stage) :
    ∃ t, now ≤ t ∧ t ≤ s.now ∧ resolve s.store s.cold t r.turn.payload r.turn.provider = .ok resolved := by
  obtain ⟨hi,hs⟩ := reach_allStored h
  have hok := hi.phases r hr
  have haccepted := reach_accepted h r hr
  unfold AcceptedSince at haccepted
  rw [hp] at hok haccepted
  have hhist := hok.1
  cases hhist with
  | root hn =>
    have hnow := h.invariant (I := fun s => now ≤ s.now) (le_refl _)
      (fun _ _ _ hle _ hs => hle.trans (step_now hs))
    exact ⟨s.now,hnow,le_refl _,by simp [resolve, hn, bind, Except.bind, pure, Except.pure]⟩
  | @chained prevId parent pre kept history hn hrec hprov hl hcut hm =>
    obtain rfl := hs.no_gap hi hl hcut
    obtain ⟨parent',t,hrec',hfirst,hlast,hlive⟩ := haccepted prevId hn
    obtain rfl := Option.some.inj (hrec.symm.trans hrec')
    have hcheck : checkParent t prevId r.turn.provider (s.store.getById prevId) = .ok parent := by
      rw [hs _ _ hrec]
      simp [checkParent, hlive, hprov]
    refine ⟨t,hfirst,hlast,?_⟩
    rw [List.nil_append] at hl
    simp [resolve, hn, hcheck, hs.walk hi hl, hm, bind, Except.bind, pure, Except.pure]

theorem resolve_atomic_twoTurns : ∃ t, 0 ≤ t ∧ t ≤ twoTurnsState.now ∧
    resolve twoTurnsState.store twoTurnsState.cold t secondTurn.turn.payload secondTurn.turn.provider =
      .ok secondResolved := by
  have hreach : Reach (step {}) KeepsRows (.initial none 0) twoTurnsState :=
    reach_of_runSteps twoTurns twoTurns_keep (Option.some_get rfl).symm
  have hphase : secondTurn.phase = .resolved secondResolved .calling := rfl
  exact resolve_atomic hreach (List.mem_of_getElem? (i := 1) rfl) hphase

def Request.ownItems (r : Request) : List Json :=
  normalizeCurrentInput (r.turn.payload.getD "input" (.list []))

def ResolvedRequest.items (resolved : ResolvedRequest) : List Json :=
  normalizeCurrentInput (resolved.request.getD "input" (.list []))

theorem items_rewrite (request : JsonDict) (history : List Json) (sessionId parentId : Option String) :
    (ResolvedRequest.mk (rewrite request history) sessionId parentId).items =
      history ++ normalizeCurrentInput (request.getD "input" (.list [])) := by
  simp [ResolvedRequest.items, rewrite, Dict.getD, normalizeCurrentInput]

theorem follow_up_extends {gw : Gateway} {now : Time} {s : State}
    (h : Reach (step gw) KeepsRows (.initial none now) s) {r : Request} (hr : r ∈ s.requests)
    {resolved : ResolvedRequest} {stage : Stage} (hp : r.phase = .resolved resolved stage) {prevId : String}
    (hprev : r.turn.payload.get "previous_response_id" = .str prevId) (hne : prevId ≠ "") :
    ∃ q ∈ s.requests, q.newId = prevId ∧ ∃ resolved' stage' earlier, q.phase = .resolved resolved' stage' ∧
      resolved'.items = earlier ++ q.ownItems ∧
      resolved.items = earlier ++ q.ownItems.filter (fun item => !isSystem item) ++
        q.recordedOutput.flatMap outputMessage ++ r.ownItems ∧
      ((∀ item ∈ q.ownItems, isSystem item = false) → resolved'.items <+: resolved.items) := by
  obtain ⟨hi,hw⟩ := reach_whole h
  have hnamed : namedId r.turn.payload = .ok (some prevId) := by simp [namedId, hprev, Json.truthy, hne]
  have hok := hi.phases r hr
  rw [hp] at hok
  have hhist := hok.1
  cases hhist with
  | root hn => cases hnamed.symm.trans hn
  | @chained prevId' parent pre kept history hn hrec hprov hl hcut hm =>
    obtain rfl : prevId = prevId' := by simpa using hnamed.symm.trans hn
    obtain rfl := hw.no_gap hi hl hcut
    rw [List.nil_append] at hl
    obtain ⟨q,hq,rfl,hrow⟩ := mem_of_recorded hrec
    obtain ⟨resolved',response,hphase,hhist',-⟩ := wrote_of_row? (hi.phases q hq) hrow
    -- The rows above the one of `q` are those that `q` itself went on from.
    have hearlier : ∃ earlier, resolved'.items = earlier ++ q.ownItems ∧ history = earlier ++ q.messages := by
      cases hl with
      | root hrec' hroot =>
        obtain rfl := Option.some.inj (hrec.symm.trans hrec')
        refine ⟨[],?_,?_⟩
        · rw [parent_of_row? hi hq hrow] at hroot
          cases hhist' with
          | root _ => rfl
          | chained hn' => simp [Request.parentId, hn'] at hroot
        · exact (reconstructMessages_of_turns hi hw.cold (.cons ⟨hq,hrow⟩ .nil) hm).trans (by simp)
      | @child _ _ p rows hrec' hparent habove =>
        obtain rfl := Option.some.inj (hrec.symm.trans hrec')
        obtain ⟨turns,-,hturns⟩ := turns_of_rows hi habove
        have hhistory := reconstructMessages_of_turns hi hw.cold
          (List.rel_append hturns (.cons ⟨hq,hrow⟩ .nil)) hm
        refine ⟨turns.flatMap Request.messages,?_,by simpa using hhistory⟩
        rw [parent_of_row? hi hq hrow] at hparent
        cases hhist' with
        | root hn' => simp [Request.parentId, hn'] at hparent
        | @chained p' _ pre' kept' history' hn' _ _ hl' hcut' hm' =>
          obtain rfl : p' = p := by simpa [Request.parentId, hn'] using hparent
          obtain rfl := hw.no_gap hi hl' hcut'
          obtain rfl := hl'.unique habove
          rw [items_rewrite, reconstructMessages_of_turns hi hw.cold hturns hm']
          rfl
    obtain ⟨earlier,hitems,rfl⟩ := hearlier
    refine ⟨q,hq,rfl,resolved',_,earlier,hphase,hitems,?_,?_⟩
    · rw [items_rewrite]
      simp [Request.messages, extractNonSystemInput, Request.ownItems]
    · intro hplain
      rw [hitems, items_rewrite]
      have hall : extractNonSystemInput (q.turn.payload.getD "input" (.list [])) = q.ownItems :=
        List.filter_eq_self.mpr fun item hitem => by simp [hplain item hitem]
      rw [Request.messages, hall]
      exact ⟨q.recordedOutput.flatMap outputMessage ++
        normalizeCurrentInput (r.turn.payload.getD "input" (.list [])),by simp [List.append_assoc]⟩

theorem follow_up_extends_twoTurns : ∃ q ∈ twoTurnsState.requests, q.newId = "resp_1" ∧
    ∃ resolved' stage' earlier, q.phase = .resolved resolved' stage' ∧
      resolved'.items = earlier ++ q.ownItems ∧
      secondResolved.items = earlier ++ q.ownItems.filter (fun item => !isSystem item) ++
        q.recordedOutput.flatMap outputMessage ++ secondTurn.ownItems ∧
      ((∀ item ∈ q.ownItems, isSystem item = false) → resolved'.items <+: secondResolved.items) := by
  have hreach : Reach (step {}) KeepsRows (.initial none 0) twoTurnsState :=
    reach_of_runSteps twoTurns twoTurns_keep (Option.some_get rfl).symm
  have hphase : secondTurn.phase = .resolved secondResolved .calling := rfl
  exact follow_up_extends hreach (List.mem_of_getElem? (i := 1) rfl) hphase rfl (by decide)

end ResponsesGateway
