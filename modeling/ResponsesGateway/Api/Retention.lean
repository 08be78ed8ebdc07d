import ResponsesGateway.Api.Forest
import ResponsesGateway.Api.LifeCycle
import ResponsesGateway.Foundation.Split
import ResponsesGateway.Session.Chain

namespace ResponsesGateway

open SessionResolver

structure Aged (ttl : ℤ) (s : State) : Prop where
  dated : ∀ r ∈ s.requests, ∀ row, r.made? = some row →
    row.createdAt ≤ s.now ∧ row.ttlAt = some (row.createdAt + ttl)
  younger : ∀ r ∈ s.requests, ∀ row p, r.made? = some row → row.parent = some p →
    ∃ parent, s.recorded p = some parent ∧ parent.createdAt ≤ row.createdAt
  rooted : ∀ id row p, s.recorded id = some row → row.parent = some p → s.Gone id → s.Gone p

section Aged

variable {gw : Gateway} {s s' : State} {r r' : Request} {store : SessionStore} {cold : Option ColdStorage}
  {row parent : SessionRecord} {a : Action} {i : ℕ} {id p : String} {ttl : ℤ}

theorem Aged.dated_of_recorded (ha : Aged ttl s) (h : s.recorded id = some row) :
    row.createdAt ≤ s.now ∧ row.ttlAt = some (row.createdAt + ttl) := by
  obtain ⟨r,hr,-,hrow⟩ := mem_of_recorded h
  exact ha.dated r hr row (made?_of_row? hrow)

theorem Aged.older_parent (ha : Aged ttl s) (h : s.recorded id = some row) (hp : row.parent = some p)
    (hparent : s.recorded p = some parent) : parent.createdAt ≤ row.createdAt := by
  obtain ⟨r,hr,-,hrow⟩ := mem_of_recorded h
  obtain ⟨parent',hparent',hle⟩ := ha.younger r hr row p (made?_of_row? hrow) hp
  obtain rfl := Option.some.inj (hparent.symm.trans hparent')
  exact hle

theorem Aged.expired_parent (ha : Aged ttl s) {asOf : Time} (h : s.recorded id = some row)
    (hp : row.parent = some p) (hparent : s.recorded p = some parent) (he : row.expired asOf = true) :
    parent.expired asOf = true := by
  have hle := ha.older_parent h hp hparent
  simp only [SessionRecord.expired, (ha.dated_of_recorded h).2, (ha.dated_of_recorded hparent).2,
    Option.any_some, decide_eq_true_eq] at he ⊢
  exact lt_of_le_of_lt (Int.add_le_add_right hle ttl) he

theorem made?_dated (hi : Inv s) (ha : Aged gw.recorder.ttl s) (hr : r ∈ s.requests)
    (h : Moves gw s r r' store cold) (hrow : r'.made? = some row) :
    r.made? = some row ∨
      (row.createdAt = s.now ∧ row.ttlAt = some (row.createdAt + gw.recorder.ttl) ∧
        ∀ p, row.parent = some p → ∃ parent, s.recorded p = some parent ∧ parent.createdAt ≤ row.createdAt) := by
  cases h with
  | inserted hp _ => exact .inl (by simpa [Request.made?, hp] using hrow)
  | @prepared resolved response newSessionId put row' cold' hphase _ _ hprep =>
    obtain rfl : row' = row := Option.some.inj hrow
    have hnow := SessionRecorder.prepare_createdAt gw.recorder s.cold ⟨s.now,newSessionId,put,none⟩
      (recordCall r.turn r.newId resolved response)
    obtain ⟨-,hparent,-,-,httl⟩ := SessionRecorder.prepare_columns gw.recorder s.cold
      ⟨s.now,newSessionId,put,none⟩ (recordCall r.turn r.newId resolved response)
    rw [hprep] at hnow hparent httl
    refine .inr ⟨hnow,by rw [httl, hnow],fun p hp => ?_⟩
    have hok := hi.phases r hr
    rw [hphase] at hok
    rw [SessionRecord.parent, hparent] at hp
    have hhist := hok.1
    generalize resolved = res at hhist hp
    cases hhist with
    | root _ => cases hp
    | @chained prevId parent pre kept history _ hrec _ _ _ _ =>
      obtain rfl := Option.some.inj (Option.filter_eq_some_iff.mp hp).1
      exact ⟨parent,hrec,by rw [hnow]; exact (ha.dated_of_recorded hrec).1⟩
  | _ => cases hrow

theorem moves_aged (hi : Inv s) (ha : Aged gw.recorder.ttl s) (hr : s.requests[i]? = some r)
    (h : Moves gw s r r' store cold) : Aged gw.recorder.ttl (moved s i r' store cold) := by
  have he := move_extends hi hr h
  have hmem := List.mem_of_getElem? hr
  have hyounger : ∀ x ∈ s.requests, ∀ row p, x.made? = some row → row.parent = some p →
      ∃ parent, (moved s i r' store cold).recorded p = some parent ∧ parent.createdAt ≤ row.createdAt := by
    intro x hx row p hrow hp
    obtain ⟨parent,hrec,hle⟩ := ha.younger x hx row p hrow hp
    exact ⟨parent,he.recorded _ _ hrec,hle⟩
  refine ⟨?_,?_,?_⟩
  · intro x hx row hrow
    rcases List.mem_or_eq_of_mem_set hx with hold | rfl
    · exact ha.dated x hold row hrow
    · rcases made?_dated hi ha hmem h hrow with hmade | ⟨hnow,httl,-⟩
      · exact ha.dated r hmem row hmade
      · exact ⟨hnow.le,httl⟩
  · intro x hx row p hrow hp
    rcases List.mem_or_eq_of_mem_set hx with hold | rfl
    · exact hyounger x hold row p hrow hp
    · rcases made?_dated hi ha hmem h hrow with hmade | ⟨-,-,hparents⟩
      · exact hyounger r hmem row p hmade hp
      · obtain ⟨parent,hrec,hle⟩ := hparents p hp
        exact ⟨parent,he.recorded _ _ hrec,hle⟩
  · intro id row p hrow hp hgone
    have hmine : s.recorded id = some row → (moved s i r' store cold).Gone p := by
      intro hold
      obtain ⟨x,hx,-,hxrow⟩ := mem_of_recorded hold
      obtain ⟨parent,hrec,-⟩ := ha.younger x hx row p (made?_of_row? hxrow) hp
      refine he.gone p parent hrec (ha.rooted id row p hold hp ?_)
      cases hs : s.store.getById id with
      | none => exact hs
      | some found =>
        -- A move takes no row out of the table.
        have hin : found ∈ (moved s i r' store cold).store.rows := by
          have hfound := SessionStore.mem_of_getById hs
          rcases moves_store h with ⟨hsame,-⟩ | ⟨_,_,_,-,-,hins⟩
          · rwa [moved, hsame]
          · rw [moved, (SessionStore.insert_eq_ok_iff.mp hins).2]
            exact List.mem_append_left _ hfound
        have hstill := SessionStore.getById_of_mem hin
        rw [SessionStore.id_of_getById hs] at hstill
        exact absurd (hgone.symm.trans hstill) (by simp)
    rcases recorded_of_moved hi hrow with hold | hnew
    · exact hmine hold
    · -- The row that goes in now is not gone.
      rcases moves_store h with ⟨-,hnone⟩ | ⟨resolved,response,row',-,hp',hins⟩
      · rw [hnone] at hnew; cases hnew
      · obtain rfl : row' = row := by simpa [Request.row?, hp', Stage.row?] using hnew
        have hid := (move_inv hi hr h).recorded_id _ _ hrow
        refine absurd hgone (fun hnone => ?_)
        rw [State.Gone, SessionStore.getById_eq_none_iff] at hnone
        exact hnone (by simp [moved, (SessionStore.insert_eq_ok_iff.mp hins).2, hid])

theorem step_aged (hi : Inv s) (ha : Aged gw.recorder.ttl s) (h : step gw s a = some s') :
    Aged gw.recorder.ttl s' := by
  rcases step_cases h with rfl | ⟨payload,uuid,turn,-,-,rfl⟩ | ⟨i,m,r,r',store,cold,-,hr,hm,rfl⟩ | ⟨d,rfl⟩ |
    ⟨asOf,-,rfl⟩
  · exact ha
  · have hold : ∀ x ∈ s.requests ++ [.start payload uuid turn], ∀ row, x.made? = some row → x ∈ s.requests := by
      intro x hx row hrow
      rcases List.mem_append.mp hx with hx | hx
      · exact hx
      · rw [List.mem_singleton.mp hx, made?_start] at hrow
        cases hrow
    refine ⟨fun x hx row hrow => ha.dated x (hold x hx row hrow) row hrow,?_,?_⟩
    · intro x hx row p hrow hp
      obtain ⟨parent,hrec,hle⟩ := ha.younger x (hold x hx row hrow) row p hrow hp
      exact ⟨parent,receive_extends.recorded _ _ hrec,hle⟩
    · exact fun id row p hrow hp hgone => ha.rooted id row p (recorded_of_received hi hrow) hp hgone
  · exact moves_aged hi ha hr (moves_of_move hm)
  · refine ⟨fun x hx row hrow => ?_,ha.younger,ha.rooted⟩
    obtain ⟨hnow,httl⟩ := ha.dated x hx row hrow
    exact ⟨hnow.trans (le_add_of_nonneg_right (Int.natCast_nonneg d)),httl⟩
  · refine ⟨ha.dated,ha.younger,?_⟩
    intro id row p hrow hp hgone
    obtain ⟨x,hx,-,hxrow⟩ := mem_of_recorded hrow
    obtain ⟨parent,hrec,-⟩ := ha.younger x hx row p (made?_of_row? hxrow) hp
    show (s.store.deleteExpired asOf).getById p = none
    rw [SessionStore.getById_deleteExpired]
    cases hs : s.store.getById p with
    | none => rfl
    | some found =>
      obtain rfl := Option.some.inj ((hi.seen hs).symm.trans hrec)
      have hexpired : found.expired asOf = true := by
        cases hmine : s.store.getById id with
        | none => exact absurd ((ha.rooted id row p hrow hp hmine).symm.trans hs) (by simp)
        | some mine =>
          obtain rfl := Option.some.inj ((hi.seen hmine).symm.trans hrow)
          have hcut : (s.store.deleteExpired asOf).getById id = none := hgone
          rw [SessionStore.getById_deleteExpired, hmine] at hcut
          refine ha.expired_parent hrow hp hrec ?_
          simpa using Option.filter_eq_none_iff.mp hcut mine rfl
      simp [hexpired]

theorem reach_aged {ok : State → Action → Prop} {cold : Option ColdStorage} {now : Time}
    (h : Reach (step gw) ok (.initial cold now) s) : Aged gw.recorder.ttl s := by
  have hboth : Inv s ∧ Aged gw.recorder.ttl s := by
    refine h.invariant (I := fun s => Inv s ∧ Aged gw.recorder.ttl s) ⟨initial_inv cold now,?_⟩ ?_
    · refine ⟨by simp [State.initial],by simp [State.initial],?_⟩
      intro id row p hrow
      simp [State.initial, State.recorded] at hrow
    · rintro s a s' ⟨hi,ha⟩ - hs
      exact ⟨step_inv hi hs,step_aged hi ha hs⟩
  exact hboth.2

theorem Aged.cut (hi : Inv s) (ha : Aged ttl s) (hrow : s.recorded id = some row) :
    ∃ gone kept, Lineage s.recorded SessionRecord.parent id (gone ++ kept) ∧
      (∀ r ∈ gone, s.Gone r.id) ∧ (∀ r ∈ kept, r ∈ s.store.rows) ∧ walkParentChain s.store id = kept := by
  obtain ⟨rows,hl⟩ := hi.lineage id row hrow
  have hdown : ∀ k r p q, s.recorded k = some r → r.parent = some p → s.recorded p = some q →
      q ∈ s.store.rows → r ∈ s.store.rows := by
    intro k r p q hr hp hq hm
    obtain rfl := hi.recorded_id _ _ hr
    obtain rfl := hi.recorded_id _ _ hq
    cases hs : s.store.getById r.id with
    | none =>
      have hnone := ha.rooted _ _ _ hr hp hs
      exact absurd (hnone.symm.trans (SessionStore.getById_of_mem hm)) (by simp)
    | some r' =>
      obtain rfl := Option.some.inj ((hi.seen hs).symm.trans hr)
      exact SessionStore.mem_of_getById hs
  obtain ⟨gone,kept,rfl,hgone,hkept⟩ := hl.exists_cut hdown
  have hmissing : ∀ r ∈ gone, s.Gone r.id := by
    intro r hr
    cases hs : s.store.getById r.id with
    | none => exact hs
    | some r' =>
      have hrec := hl.look_of_mem _ hi.recorded_id (List.mem_append_left kept hr)
      obtain rfl := Option.some.inj ((hi.seen hs).symm.trans hrec)
      exact absurd (SessionStore.mem_of_getById hs) (hgone _ hr)
  refine ⟨gone,kept,hl,hmissing,hkept,?_⟩
  refine (parentPath_iff.mp ?_).symm
  exact hl.parentChain hi.recorded_id hmissing (fun r hr => SessionStore.getById_of_mem (hkept r hr))

theorem Aged.in_order (ha : Aged ttl s) {rows : List SessionRecord}
    (hl : Lineage s.recorded SessionRecord.parent id rows) :
    rows.Pairwise (fun r r' => r.createdAt ≤ r'.createdAt ∧
      ∀ t, r'.expired t = true → r.expired t = true) := by
  refine hl.pairwise ?_ ?_
  · rintro q r t ⟨hle,hexp⟩ ⟨hle',hexp'⟩
    exact ⟨hle.trans hle',fun now he => hexp now (hexp' now he)⟩
  · intro k r p q hr hp hq
    exact ⟨ha.older_parent hr hp hq,fun t he => ha.expired_parent hr hp hq he⟩

end Aged

def CutAtTheRoot (s : State) : Prop :=
  ∀ id row, s.recorded id = some row → ∃ gone kept,
    Lineage s.recorded SessionRecord.parent id (gone ++ kept) ∧
    (∀ r ∈ gone, s.Gone r.id) ∧ (∀ r ∈ kept, r ∈ s.store.rows) ∧ walkParentChain s.store id = kept ∧
    (gone ++ kept).Pairwise (fun r r' => r.createdAt ≤ r'.createdAt ∧
      ∀ t, r'.expired t = true → r.expired t = true)

theorem cleanup_starts_at_root {gw : Gateway} {cold : Option ColdStorage} {now : Time} {s : State}
    (h : Reach (step gw) (fun _ _ => True) (.initial cold now) s) : CutAtTheRoot s := by
  have hi := reach_inv h
  have ha := reach_aged h
  intro id row hrow
  obtain ⟨gone,kept,hl,hgone,hkept,hwalk⟩ := ha.cut hi hrow
  exact ⟨gone,kept,hl,hgone,hkept,hwalk,ha.in_order hl⟩

theorem cleanup_starts_at_root_aged : CutAtTheRoot agedState := cleanup_starts_at_root agedState_reached

def ListedInOrder (s : State) : Prop :=
  ∀ id row listing, s.store.getById id = some row → s.store.Lists row.sessionId listing →
    (∀ r ∈ walkParentChain s.store id, r ∈ listing) ∧
    (walkParentChain s.store id).Pairwise (fun r r' => r.createdAt ≤ r'.createdAt ∧
      (r.createdAt < r'.createdAt → [r, r'].Sublist listing)) ∧
    ((walkParentChain s.store id).Pairwise (fun r r' => r.createdAt < r'.createdAt) →
      (walkParentChain s.store id).Sublist listing)

theorem sessions_listed_in_order {gw : Gateway} {cold : Option ColdStorage} {now : Time} {s : State}
    (h : Reach (step gw) NamesSessions (.initial cold now) s) : ListedInOrder s := by
  have hi := reach_inv h
  have ha := reach_aged h
  have hf := homogeneous_of_inSession hi (reach_inSession h)
  intro id row listing hrow hlisting
  obtain ⟨gone,kept,hl,-,hkept,hwalk⟩ := ha.cut hi (hi.seen hrow)
  rw [hwalk]
  have hlisted : ∀ r ∈ kept, r ∈ listing := by
    intro r hr
    refine hlisting.perm.mem_iff.mpr (List.mem_filter.mpr ⟨hkept r hr,?_⟩)
    simpa using (hf.alike hl (hi.seen hrow) (List.mem_append_right gone hr)).1
  refine ⟨hlisted,?_,fun hstrict => List.sublist_of_sorted hstrict hlisting.sorted hlisted⟩
  have horder := (List.pairwise_append.mp (ha.in_order hl)).2.1
  refine (List.pairwise_iff_forall_sublist.mpr fun {r r'} hsub => ?_)
  have hle := (List.pairwise_iff_forall_sublist.mp horder hsub).1
  refine ⟨hle,fun hlt => List.sublist_of_sorted (by simpa using hlt) hlisting.sorted ?_⟩
  exact fun x hx => hlisted x (hsub.subset hx)

theorem sessions_listed_in_order_branching : ListedInOrder branchingState :=
  sessions_listed_in_order
    (reach_of_runSteps branchingRun branchingRun_names (Option.some_get rfl).symm)

end ResponsesGateway
