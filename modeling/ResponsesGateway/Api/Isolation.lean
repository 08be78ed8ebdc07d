import ResponsesGateway.Api.Forest
import ResponsesGateway.Foundation.Split

namespace ResponsesGateway

open SessionResolver

def ColdStorage.Within (small large : ColdStorage) : Prop :=
  ∀ key payload, small.objects.get? key = some payload → large.objects.get? key = some payload

def Closed (ids : String → Bool) (s : State) : Prop :=
  ∀ r ∈ s.requests, ids r.newId = true → r.parentId.all ids = true

instance (ids : String → Bool) (s : State) : Decidable (Closed ids s) :=
  inferInstanceAs (Decidable (∀ r ∈ s.requests, ids r.newId = true → r.parentId.all ids = true))

structure Part (ids : String → Bool) (s t : State) : Prop where
  now : t.now = s.now
  requests : t.requests = s.requests.filter (fun r => ids r.newId)
  rows : t.store.rows = s.store.rows.filter (fun row => ids row.id)
  cold : Option.Rel ColdStorage.Within t.cold s.cold

section Reads

variable {ids : String → Bool} {s t : State} {id : String} {row : SessionRecord} {walk : ChainWalk}

theorem Part.getById (hp : Part ids s t) (hid : ids id = true) : t.store.getById id = s.store.getById id := by
  rw [SessionStore.getById, SessionStore.getById, hp.rows, List.find?_filter]
  congr 1
  funext row
  by_cases h : row.id = id
  · simp [h, hid]
  · simp [h]

theorem Part.recorded (hp : Part ids s t) (hid : ids id = true) : t.recorded id = s.recorded id := by
  rw [State.recorded, State.recorded, hp.requests, List.find?_filter]
  congr 2
  funext r
  by_cases h : r.newId = id
  · simp [h, hid]
  · simp [h]

theorem Closed.lineage (hi : Inv s) (hclosed : Closed ids s) {rows : List SessionRecord}
    (h : Lineage s.recorded SessionRecord.parent id rows) (hid : ids id = true) :
    ∀ row ∈ rows, ids row.id = true := by
  induction h with
  | root hl _ =>
    intro row hrow
    rw [List.mem_singleton.mp hrow, hi.recorded_id _ _ hl]
    exact hid
  | @child k q p rows hl hp hrows ih =>
    obtain ⟨r,hr,-,rfl,hrow⟩ := turn?_of_recorded hl
    have hnamed : r.parentId = some p := by rw [← parent_of_row? hi hr hrow, hp]
    have hparent : ids p = true := by simpa [hnamed] using hclosed r hr hid
    intro row hm
    rcases List.mem_append.mp hm with hm | hm
    · exact ih hparent row hm
    · rw [List.mem_singleton.mp hm, hi.recorded_id _ _ hl]
      exact hid

theorem Part.walkStep_eq (hp : Part ids s t) (hcur : ∀ c, walk.next? = some c → ids c = true) :
    walkStep t.store walk = walkStep s.store walk := by
  unfold SessionResolver.walkStep
  cases hn : walk.next? with
  | none => rw [Walk.step_of_done hn, Walk.step_of_done hn]
  | some c =>
    have hsame := hp.getById (hcur c hn)
    cases hl : s.store.getById c with
    | none => rw [Walk.step_of_missing hn hl, Walk.step_of_missing hn (hsame.trans hl)]
    | some row => rw [Walk.step_of_found hn hl, Walk.step_of_found hn (hsame.trans hl)]

theorem ColdStorage.Within.rowMessages {small large : Option ColdStorage}
    (h : Option.Rel ColdStorage.Within small large) (hheld : Held small row) :
    rowMessages small row = rowMessages large row := by
  have hpayload (field : String) : payload small row field = payload large row field := by
    unfold payload
    cases hk : coldKey? row with
    | none => rfl
    | some key =>
      cases h with
      | none => rfl
      | @some small large hwithin =>
        have hkey := hheld key small (Option.filter_eq_some_iff.mp hk).1 rfl
        obtain ⟨p,hp⟩ := Option.isSome_iff_exists.mp ((Dict.mem_keys_iff _ _).mp hkey)
        have hget : small.get key = large.get key := by
          simp only [ColdStorage.get, hp, hwithin key p hp]
        simp only [hget]
  unfold SessionResolver.rowMessages
  rw [hpayload, hpayload]

end Reads

section Moves

variable {gw : Gateway} {ids : String → Bool} {s t : State} {r r' : Request} {m : Move}
  {store : SessionStore} {cold : Option ColdStorage} {prevId : String} {row : SessionRecord} {walk : ChainWalk}

theorem Part.reconstruct (hs : Inv s) (ht : Inv t) (hp : Part ids s t) (hclosed : Closed ids s)
    (hid : ids prevId = true)
    (hw : walk.Follows s.recorded SessionRecord.parent SessionRecord.id s.Gone prevId) :
    reconstructMessages t.cold walk.chain.reverse = reconstructMessages s.cold walk.chain.reverse := by
  obtain ⟨pre,hl,-⟩ := hw.lineage
  apply reconstructMessages_congr
  rw [List.forall₂_same]
  intro row hrow
  have hmem : row ∈ pre ++ walk.chain.reverse := List.mem_append_right pre hrow
  have hrec : t.recorded row.id = some row := by
    rw [hp.recorded (hclosed.lineage hs hl hid row hmem)]
    exact hl.look_of_mem _ hs.recorded_id hmem
  exact ColdStorage.Within.rowMessages hp.cold (ht.held hrec)

theorem Part.next (hs : Inv s) (hclosed : Closed ids s) (hid : ids prevId = true)
    (hw : walk.Follows s.recorded SessionRecord.parent SessionRecord.id s.Gone prevId) :
    ∀ c, walk.next? = some c → ids c = true := by
  intro c hc
  obtain ⟨pre,hl,hcur⟩ := hw.lineage
  rw [(Walk.next?_eq_some.mp hc).1] at hcur
  obtain ⟨row,hlast,rfl⟩ := hcur
  exact hclosed.lineage hs hl hid row (List.mem_append_left _ (List.mem_of_getLast? hlast))

theorem ColdStorage.Within.put {small large : ColdStorage} (h : small.Within large) (key : String)
    (payload : JsonDict) : (small.put key payload).Within (large.put key payload) := by
  intro k p hk
  simp only [ColdStorage.put, Dict.get?_set] at hk ⊢
  split at hk
  · rename_i he
    rwa [if_pos he]
  · rename_i he
    rw [if_neg he]
    exact h k p hk

theorem ColdStorage.Within.fresh {small large : Option ColdStorage}
    (h : Option.Rel ColdStorage.Within small large) {put : Except Exn String}
    (hput : freshPut large put = true) : freshPut small put = true := by
  cases h with
  | none => exact hput
  | @some small large hwithin =>
    cases put with
    | error exn => rfl
    | ok key =>
      simp only [freshPut, Bool.and_eq_true, decide_eq_true_eq] at hput ⊢
      refine ⟨hput.1,fun hm => hput.2 ?_⟩
      obtain ⟨p,hp⟩ := Option.isSome_iff_exists.mp ((Dict.mem_keys_iff _ _).mp hm)
      exact (Dict.mem_keys_iff _ _).mpr (by simp [hwithin key p hp])

theorem ColdStorage.Within.prepare {small large : Option ColdStorage}
    (h : Option.Rel ColdStorage.Within small large) (recorder : SessionRecorder) (env : RecordEnv)
    (c : RecordCall) : (recorder.prepare small env c).1 = (recorder.prepare large env c).1 ∧
      Option.Rel ColdStorage.Within (recorder.prepare small env c).2 (recorder.prepare large env c).2 := by
  cases h with
  | none => exact ⟨rfl,.none⟩
  | @some small large hwithin =>
    unfold SessionRecorder.prepare
    dsimp only
    split
    · cases env.put with
      | ok key => exact ⟨rfl,.some (hwithin.put key c.coldPayload)⟩
      | error exn => exact ⟨rfl,.some hwithin⟩
    · exact ⟨rfl,.some hwithin⟩

theorem Part.insertRow (hp : Part ids s t) (hid : ids row.id = true) (error : Option Exn) :
    (∃ exn, SessionRecorder.insertRow s.store error row = .error exn ∧
      SessionRecorder.insertRow t.store error row = .error exn) ∨
    ∃ store store', SessionRecorder.insertRow s.store error row = .ok store ∧
      SessionRecorder.insertRow t.store error row = .ok store' ∧
      store'.rows = store.rows.filter (fun row => ids row.id) := by
  cases error with
  | some exn => exact .inl ⟨exn,rfl,rfl⟩
  | none =>
    have hsame := hp.getById hid
    have hids : row.id ∈ t.store.rows.map SessionRecord.id ↔ row.id ∈ s.store.rows.map SessionRecord.id := by
      rw [← not_iff_not, ← SessionStore.getById_eq_none_iff, ← SessionStore.getById_eq_none_iff, hsame]
    by_cases hm : row.id ∈ s.store.rows.map SessionRecord.id
    · left
      simp only [SessionRecorder.insertRow, SessionStore.insert, dif_pos hm, dif_pos (hids.mpr hm)]
      exact ⟨_,rfl,rfl⟩
    · right
      simp only [SessionRecorder.insertRow, SessionStore.insert, dif_neg hm, dif_neg (mt hids.mp hm)]
      refine ⟨_,_,rfl,rfl,?_⟩
      simp [hp.rows, List.filter_append, hid]

def Move.writes : Move → Bool
  | .record _ _ => true
  | .insert _ => true
  | _ => false

theorem move_of_reads (hm : m.writes = false) (hnow : t.now = s.now)
    (hget : ∀ prevId, r.phase = .resolving prevId → t.store.getById prevId = s.store.getById prevId)
    (hwalk : ∀ prevId parent walk, r.phase = .walking prevId parent walk →
      walkStep t.store walk = walkStep s.store walk ∧
        reconstructMessages t.cold (walkStep s.store walk).chain.reverse =
          reconstructMessages s.cold (walkStep s.store walk).chain.reverse) :
    move gw t r m = (move gw s r m).map (fun p => (p.1, t.store, t.cold)) := by
  unfold move
  split
  case h_1 prevId hphase =>
    rw [hnow, hget prevId hphase]
    split <;> rfl
  case h_2 prevId parent walk hphase =>
    obtain ⟨hstep,hmessages⟩ := hwalk prevId parent walk hphase
    dsimp only
    rw [hstep, hmessages]
    split
    · split <;> rfl
    · rfl
  case h_3 => rfl
  case h_4 => rfl
  case h_5 =>
    split
    · rfl
    · dsimp only
      split <;> rfl
  case h_6 =>
    split
    · split <;> rfl
    · rfl
  case h_7 =>
    dsimp only
    split <;> rfl
  case h_8 => split <;> rfl
  case h_9 => cases hm
  case h_10 => cases hm
  case h_11 => rfl

theorem move_keeps (hm : m.writes = false) (h : move gw s r m = some (r', store, cold)) :
    store = s.store ∧ cold = s.cold := by
  have hsame : move gw s r m = (move gw s r m).map (fun p => (p.1, s.store, s.cold)) :=
    move_of_reads hm rfl (fun _ _ => rfl) fun _ _ _ _ => ⟨rfl,rfl⟩
  rw [h] at hsame
  cases hsame
  exact ⟨rfl,rfl⟩

theorem Part.read (hs : Inv s) (ht : Inv t) (hp : Part ids s t) (hclosed : Closed ids s) (hr : r ∈ s.requests)
    (hid : ids r.newId = true) (hm : m.writes = false) :
    ResponsesGateway.move gw t r m =
      (ResponsesGateway.move gw s r m).map (fun p => (p.1, t.store, t.cold)) := by
  have hphase := hs.phases r hr
  have hnamed (prevId : String) (hn : namedId r.turn.payload = .ok (some prevId)) : ids prevId = true := by
    simpa [Request.parentId, hn] using hclosed r hr hid
  refine move_of_reads hm hp.now ?_ ?_
  · intro prevId he
    rw [he] at hphase
    exact hp.getById (hnamed prevId hphase)
  · intro prevId parent walk he
    rw [he] at hphase
    obtain ⟨hn,-,-,hw⟩ := hphase
    exact ⟨hp.walkStep_eq (Part.next hs hclosed (hnamed prevId hn) hw),
      hp.reconstruct hs ht hclosed (hnamed prevId hn) (walkStep_follows hs hw)⟩

theorem Part.record (hp : Part ids s t) {newSessionId : String} {put : Except Exn String}
    (h : ResponsesGateway.move gw s r (.record newSessionId put) = some (r', store, cold)) :
    ∃ store' cold', ResponsesGateway.move gw t r (.record newSessionId put) = some (r', store', cold') ∧
      store'.rows = store.rows.filter (fun row => ids row.id) ∧ Option.Rel ColdStorage.Within cold' cold := by
  unfold ResponsesGateway.move at h
  split at h
  case h_9 resolved response newSessionId put hphase hm =>
    cases hm
    by_cases hflag : r.turn.storeFlag.truthy = true
    · rw [if_pos hflag] at h
      cases hlast : gw.recorder.ttlAt s.now with
      | error x =>
        rw [hlast] at h
        cases h
        refine ⟨_,_,?_,hp.rows,hp.cold⟩
        simp only [ResponsesGateway.move, hphase, hflag, if_true, hp.now, hlast]
      | ok ttlAt =>
        rw [hlast] at h
        dsimp only at h
        by_cases hput : freshPut s.cold put = true
        · rw [if_pos hput] at h
          have hput' : freshPut t.cold put = true := ColdStorage.Within.fresh hp.cold hput
          obtain ⟨hrow,hrel⟩ := ColdStorage.Within.prepare hp.cold gw.recorder ⟨s.now,newSessionId,put,none⟩
            (recordCall r.turn r.newId resolved response)
          generalize gw.recorder.prepare s.cold ⟨s.now,newSessionId,put,none⟩
            (recordCall r.turn r.newId resolved response) = prepared at h hrow hrel
          cases h
          refine ⟨_,_,?_,hp.rows,hrel⟩
          simp only [ResponsesGateway.move, hphase, hflag, hput', if_true, hp.now, hlast, hrow]
        · rw [if_neg hput] at h; cases h
    · rw [if_neg hflag] at h
      cases h
      refine ⟨_,_,?_,hp.rows,hp.cold⟩
      simp only [ResponsesGateway.move, hphase, hflag, Bool.false_eq_true, if_false]
  all_goals contradiction

theorem Part.insert (hs : Inv s) (hp : Part ids s t) (hr : r ∈ s.requests) (hid : ids r.newId = true)
    {error : Option Exn} (h : ResponsesGateway.move gw s r (.insert error) = some (r', store, cold)) :
    ∃ store' cold', ResponsesGateway.move gw t r (.insert error) = some (r', store', cold') ∧
      store'.rows = store.rows.filter (fun row => ids row.id) ∧ Option.Rel ColdStorage.Within cold' cold := by
  have hok := hs.phases r hr
  unfold ResponsesGateway.move at h
  split at h
  case h_10 resolved response row error hphase hm =>
    cases hm
    rw [hphase] at hok
    have hrow : ids row.id = true := by rw [hok.2.id, hid]
    rcases hp.insertRow hrow error with ⟨exn,hbig,hsmall⟩ | ⟨store₁,store₂,hbig,hsmall,hrows⟩
    · rw [hbig] at h
      cases h
      refine ⟨_,_,?_,hp.rows,hp.cold⟩
      simp only [ResponsesGateway.move, hphase, hsmall]
    · rw [hbig] at h
      cases h
      refine ⟨_,_,?_,hrows,hp.cold⟩
      simp only [ResponsesGateway.move, hphase, hsmall]
  all_goals contradiction

theorem Part.move (hs : Inv s) (ht : Inv t) (hp : Part ids s t) (hclosed : Closed ids s) (hr : r ∈ s.requests)
    (hid : ids r.newId = true) (h : move gw s r m = some (r', store, cold)) :
    ∃ store' cold', move gw t r m = some (r', store', cold') ∧
      store'.rows = store.rows.filter (fun row => ids row.id) ∧ Option.Rel ColdStorage.Within cold' cold := by
  cases hm : m.writes with
  | false =>
    have hread : ResponsesGateway.move gw t r m = _ := hp.read hs ht hclosed hr hid hm
    obtain ⟨rfl,rfl⟩ := move_keeps hm h
    rw [h] at hread
    exact ⟨_,_,hread,hp.rows,hp.cold⟩
  | true =>
    cases m with
    | record newSessionId put => exact hp.record h
    | insert error => exact hp.insert hs hr hid h
    | _ => cases hm

theorem Part.put (hp : Part ids s t) (hmove : Moves gw s r r' store cold) :
    Option.Rel ColdStorage.Within t.cold cold := by
  have hcold := hp.cold
  cases hmove with
  | @prepared resolved response newSessionId put row cold _ _ hput hprep =>
    rcases SessionRecorder.prepare_cases gw.recorder s.cold ⟨s.now,newSessionId,put,none⟩
      (recordCall r.turn r.newId resolved response) with he | ⟨objects,key,hc,-,hkey,he⟩
    · rw [he] at hprep; cases hprep; exact hcold
    · rw [he] at hprep; cases hprep
      rw [hc] at hcold
      dsimp only at hkey
      simp only [freshPut, hc, hkey, Bool.and_eq_true, decide_eq_true_eq] at hput
      generalize t.cold = small at hcold ⊢
      cases hcold with
      | some hwithin =>
        refine .some fun k p hk => ?_
        have hne : k ≠ key := by
          rintro rfl
          exact hput.2 ((Dict.mem_keys_iff _ _).mpr (by simp [hwithin k p hk]))
        rw [ColdStorage.put, Dict.get?_set, if_neg hne]
        exact hwithin k p hk
  | _ => exact hcold

theorem Part.outside {i : ℕ} (hs : Inv s) (hp : Part ids s t) (hr : s.requests[i]? = some r)
    (hid : ids r.newId = false) (hmove : Moves gw s r r' store cold) : Part ids (moved s i r' store cold) t := by
  have hid' : ids r'.newId = false := by rw [moves_newId hmove, hid]
  refine ⟨hp.now,?_,?_,hp.put hmove⟩
  · obtain ⟨pre,post,hsplit,-,hset⟩ := List.exists_split_of_getElem? hr
    rw [hp.requests, moved, hset, hsplit]
    simp [hid, hid']
  · rw [hp.rows]
    rcases moves_store hmove with ⟨hsame,-⟩ | ⟨resolved,response,row,hphase,-,hins⟩
    · rw [moved, hsame]
    · have hok := hs.phases r (List.mem_of_getElem? hr)
      rw [hphase] at hok
      have hrow : ids row.id = false := by rw [hok.2.id, hid]
      simp [moved, (SessionStore.insert_eq_ok_iff.mp hins).2, hrow]

end Moves

section Runs

variable {gw : Gateway} {ids : String → Bool} {s s' t : State} {a : Action}

theorem Closed.before (hclosed : Closed ids s') (h : step gw s a = some s') : Closed ids s := by
  intro r hr hid
  rcases step_cases h with rfl | ⟨payload,uuid,turn,-,-,rfl⟩ | ⟨i,m,r₀,r',store,cold,-,hr₀,hm,rfl⟩ | ⟨d,rfl⟩ |
    ⟨asOf,-,rfl⟩
  · exact hclosed r hr hid
  · exact hclosed r (List.mem_append_left _ hr) hid
  · by_cases he : r = r₀
    · subst he
      have hmoves := moves_of_move hm
      have hmem : r' ∈ (moved s i r' store cold).requests :=
        List.mem_set (List.getElem?_eq_some_iff.mp hr₀).1 r'
      have hall := hclosed r' hmem (by rw [moves_newId hmoves, hid])
      rwa [Request.parentId, (moves_turn hmoves).2] at hall
    · exact hclosed r (mem_set_of_ne hr₀ hr he) hid
  · exact hclosed r hr hid
  · exact hclosed r hr hid

theorem Part.step (hs : Inv s) (ht : Inv t) (hp : Part ids s t) (hclosed : Closed ids s)
    (h : step gw s a = some s') : ∃ t', Reach (step gw) (fun _ _ => True) t t' ∧ Part ids s' t' := by
  have hone (b : Action) (t' : State) (hstep : ResponsesGateway.step gw t b = some t')
      (hpart : Part ids s' t') : ∃ t', Reach (ResponsesGateway.step gw) (fun _ _ => True) t t' ∧ Part ids s' t' :=
    ⟨t',Reach.refl.tail trivial hstep,hpart⟩
  rcases step_cases h with rfl | ⟨payload,uuid,turn,hfresh,hturn,rfl⟩ | ⟨i,m,r,r',store,cold,-,hr,hm,rfl⟩ |
    ⟨d,rfl⟩ | ⟨asOf,-,rfl⟩
  · exact ⟨t,.refl,hp⟩
  · by_cases hid : ids (newResponseId uuid) = true
    · have hfresh' : newResponseId uuid ∉ t.requests.map Request.newId := fun hm =>
        hfresh (((hp.requests ▸ List.filter_sublist).map Request.newId).subset hm)
      refine hone (.receive payload uuid) { t with requests := t.requests ++ [.start payload uuid turn] } ?_
        ⟨hp.now,?_,hp.rows,hp.cold⟩
      · simp only [ResponsesGateway.step, if_neg hfresh', hturn]
      · simp [hp.requests, Request.start, hid]
    · refine ⟨t,.refl,hp.now,?_,hp.rows,hp.cold⟩
      simp [hp.requests, Request.start, hid]
  · have hmem := List.mem_of_getElem? hr
    cases hid : ids r.newId with
    | false => exact ⟨t,.refl,hp.outside hs hr hid (moves_of_move hm)⟩
    | true =>
      obtain ⟨store',cold',hm',hrows,hcold⟩ := hp.move hs ht hclosed hmem hid hm
      have hid' : ids r'.newId = true := by rw [moves_newId (moves_of_move hm), hid]
      obtain ⟨pre,post,hsplit,-,hset⟩ := List.exists_split_of_getElem? hr
      have hrequests : t.requests = pre.filter (fun r => ids r.newId) ++
          r :: post.filter (fun r => ids r.newId) := by
        simp [hp.requests, hsplit, hid]
      refine hone (.move (pre.filter (fun r => ids r.newId)).length m)
        (moved t (pre.filter (fun r => ids r.newId)).length r' store' cold') ?_ ⟨hp.now,?_,hrows,hcold⟩
      · simp [ResponsesGateway.step, hrequests, hm', moved]
      · simp [moved, hrequests, hset, hid']
  · exact hone (.tick d) _ rfl ⟨by simp [hp.now],hp.requests,hp.rows,hp.cold⟩
  · refine hone (.deleteExpired asOf) _ rfl ⟨hp.now,hp.requests,?_,hp.cold⟩
    simp only [SessionStore.deleteExpired, hp.rows, List.filter_filter, Bool.and_comm]

theorem conversations_do_not_interfere {cold : Option ColdStorage} {now : Time}
    (h : Reach (ResponsesGateway.step gw) (fun _ _ => True) (.initial cold now) s) (hclosed : Closed ids s) :
    ∃ t, Reach (ResponsesGateway.step gw) (fun _ _ => True) (.initial cold now) t ∧ Part ids s t := by
  have hinitial : Part ids (.initial cold now) (.initial cold now) := by
    refine ⟨rfl,rfl,rfl,?_⟩
    cases cold with
    | none => exact .none
    | some objects => exact .some fun _ _ hk => hk
  have hpart : ∃ t, Reach (ResponsesGateway.step gw) (fun _ _ => True) (.initial cold now) t ∧
      (Closed ids s → Part ids s t) := by
    refine h.simulate (R := fun s t => Closed ids s → Part ids s t) (fun _ => hinitial) ?_
    intro s a s' t hs ht hpart _ hstep
    by_cases hclosed' : Closed ids s'
    · have hbefore := hclosed'.before hstep
      obtain ⟨t',ht',hpart'⟩ := (hpart hbefore).step (reach_inv hs) (reach_inv ht) hbefore hstep
      exact ⟨t',ht',fun _ => hpart'⟩
    · exact ⟨t,.refl,fun hc => absurd hc hclosed'⟩
  obtain ⟨t,ht,hp⟩ := hpart
  exact ⟨t,ht,hp hclosed⟩

end Runs

def oneBranch (id : String) : Bool := id == "resp_1" || id == "resp_2" || id == "resp_4"

theorem conversations_do_not_interfere_branching :
    ∃ t, Reach (step {}) (fun _ _ => True) (.initial none 0) t ∧ Part oneBranch branchingState t :=
  conversations_do_not_interfere
    (reach_of_runSteps branchingRun (fun _ _ _ => trivial) (Option.some_get rfl).symm) (by decide)

end ResponsesGateway
