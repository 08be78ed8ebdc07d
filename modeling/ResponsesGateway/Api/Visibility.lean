import ResponsesGateway.Api.History

namespace ResponsesGateway

open SessionResolver

def CleansPast (s : State) : Action → Prop
  | .deleteExpired asOf => asOf ≤ s.now
  | _ => True

def KeepsUnexpired (s : State) : Prop :=
  ∀ id row, s.recorded id = some row → row.expired s.now = false → s.store.getById id = some row

section Unexpired

variable {gw : Gateway} {s s' : State} {action : Action} {row : SessionRecord} {t t' : Time}

theorem expired_mono (ht : t ≤ t') (h : row.expired t' = false) : row.expired t = false := by
  unfold SessionRecord.expired at h ⊢
  cases hrow : row.ttlAt with
  | none => rfl
  | some ttl =>
    rw [hrow] at h
    simp only [Option.any_some, decide_eq_false_iff_not, not_lt] at h ⊢
    exact le_trans ht h

theorem step_keepsUnexpired (hi : Inv s) (hk : KeepsUnexpired s) (hok : CleansPast s action)
    (h : step gw s action = some s') : KeepsUnexpired s' := by
  rcases step_cases h with rfl | ⟨payload,uuid,turn,-,-,rfl⟩ | ⟨i,m,r,r',store,cold,-,hr,hm,rfl⟩ |
    ⟨d,rfl⟩ | ⟨asOf,rfl,rfl⟩
  · exact hk
  · exact fun id row hrow hlive => hk _ _ (recorded_of_received hi hrow) hlive
  · exact move_stored (P := fun row => row.expired s.now = false) hi hk hr (moves_of_move hm)
  · intro id row hrow hlive
    have hle : s.now ≤ s.now + (d : ℤ) := le_add_of_nonneg_right (Int.natCast_nonneg d)
    exact hk id row hrow (expired_mono hle hlive)
  · intro id row hrow hlive
    have hpast : row.expired asOf = false := expired_mono hok hlive
    rw [SessionStore.getById_deleteExpired, hk id row hrow hlive, Option.filter_some_pos]
    simp [hpast]

theorem reach_keepsUnexpired {cold : Option ColdStorage} {now : Time}
    (h : Reach (step gw) CleansPast (.initial cold now) s) : Inv s ∧ KeepsUnexpired s := by
  refine h.invariant (I := fun s => Inv s ∧ KeepsUnexpired s) ⟨initial_inv cold now,?_⟩ ?_
  · intro id row hrow
    simp [State.initial, State.recorded] at hrow
  · rintro s action s' ⟨hi,hk⟩ hok hs
    exact ⟨step_inv hi hs,step_keepsUnexpired hi hk hok hs⟩

end Unexpired

def ToldComplete (a : Request) : Prop :=
  ∃ event response, Frame.data event ∈ a.frames ∧ etype event = .completed ∧
    (event.get "response").asDict = some response ∧ response.get "id" = .str a.newId

/-- `b` goes on from the streamed turn `a` once the client of `a` has been told that it is complete,
with the same provider and in time. -/
structure FollowsUp (s : State) (a b : Request) : Prop where
  first : a ∈ s.requests
  second : b ∈ s.requests
  streaming : a.turn.streaming = true
  stored : a.turn.storeFlag.truthy = true
  told : ToldComplete a
  asks : b.phase = .resolving a.newId
  provider : b.turn.provider = a.turn.provider
  live : ∀ row, a.row? = some row → row.expired s.now = false

def Finds (gw : Gateway) (s : State) (b : Request) (id : String) : Prop :=
  ∀ b' store cold, move gw s b .read = some (b', store, cold) →
    b'.phase ≠ .unresolved (.gateway (.previousResponseNotFound (.str id)))

theorem follow_up_finds_iff {gw : Gateway} {cold : Option ColdStorage} {now : Time} {s : State}
    (h : Reach (step gw) CleansPast (.initial cold now) s) {a b : Request} (hf : FollowsUp s a b) :
    Finds gw s b a.newId ↔ a.row?.isSome = true := by
  obtain ⟨hi,hk⟩ := reach_keepsUnexpired h
  have hrec := recorded_of_mem hi.ids hf.first
  unfold Finds
  simp only [move, hf.asks, hf.provider]
  cases hrow : a.row? with
  | some row =>
    have hlive := hf.live row hrow
    have hfound := hk a.newId row (by rw [hrec, hrow]) hlive
    have hprov : row.provider = a.turn.provider := by
      obtain ⟨_,_,-,-,hw⟩ := wrote_of_row? (hi.phases a hf.first) hrow
      exact hw.provider
    simp [checkParent, hfound, hlive, hprov]
  | none =>
    have hmissing : s.store.getById a.newId = none := by
      cases hg : s.store.getById a.newId with
      | none => rfl
      | some row =>
        have hseen := hi.seen hg
        rw [hrec, hrow] at hseen
        cases hseen
    simp [checkParent, hmissing]

def streamedOpening : JsonDict :=
  .ofEntries [("model", .str "gpt-4o"), ("input", .str "hi"), ("stream", .bool true)]

def completedEvent (id : String) : Event :=
  .ofEntries [("type", .str "response.completed"),
    ("response", .dict [("id", .str id), ("status", .str "completed")])]

def toldRun : List Action :=
  [.receive streamedOpening "1", .move 0 .connect,
   .move 0 (.event (.dict (completedEvent "resp_of_provider")))]

def recordedRun : List Action :=
  toldRun ++ [.move 0 (.endStream none), .move 0 (.record "session" (.ok "")), .move 0 (.insert none)]

def askNext : List Action := [.receive (sequel "resp_1" "how are you?") "2"]

def toldState : State := (runSteps (step {}) (.initial none 0) (toldRun ++ askNext)).get rfl

def recordedState : State := (runSteps (step {}) (.initial none 0) (recordedRun ++ askNext)).get rfl

def requestAt (s : State) (i : ℕ) (h : s.requests[i]?.isSome = true) : Request := s.requests[i]?.get h

theorem requestAt_mem {s : State} {i : ℕ} (h : s.requests[i]?.isSome = true) :
    requestAt s i h ∈ s.requests := List.mem_of_getElem? (Option.some_get h).symm

theorem clean_of_no_cleanup {actions : List Action} (h : ∀ asOf, .deleteExpired asOf ∉ actions)
    (s : State) : ∀ action ∈ actions, CleansPast s action := by
  intro action ha
  cases action with
  | deleteExpired asOf => exact absurd ha (h asOf)
  | _ => trivial

theorem toldState_reached : Reach (step {}) CleansPast (.initial none 0) toldState :=
  reach_of_runSteps (toldRun ++ askNext) (clean_of_no_cleanup (by simp [toldRun, askNext]))
    (Option.some_get rfl).symm

theorem toldState_followsUp : FollowsUp toldState (requestAt toldState 0 rfl) (requestAt toldState 1 rfl) where
  first := requestAt_mem rfl
  second := requestAt_mem rfl
  streaming := rfl
  stored := rfl
  told := ⟨completedEvent "resp_1",_,List.mem_singleton.mpr rfl,rfl,rfl,rfl⟩
  asks := rfl
  provider := rfl
  live := by intro row h; cases h

theorem completed_id_not_found : Reach (step {}) CleansPast (.initial none 0) toldState ∧
    FollowsUp toldState (requestAt toldState 0 rfl) (requestAt toldState 1 rfl) ∧
    ¬ Finds {} toldState (requestAt toldState 1 rfl) (requestAt toldState 0 rfl).newId :=
  ⟨toldState_reached,toldState_followsUp,fun h => h _ _ _ rfl rfl⟩

theorem recordedState_reached : Reach (step {}) CleansPast (.initial none 0) recordedState :=
  reach_of_runSteps (recordedRun ++ askNext)
    (clean_of_no_cleanup (by simp [recordedRun, toldRun, askNext])) (Option.some_get rfl).symm

theorem recordedState_followsUp :
    FollowsUp recordedState (requestAt recordedState 0 rfl) (requestAt recordedState 1 rfl) where
  first := requestAt_mem rfl
  second := requestAt_mem rfl
  streaming := rfl
  stored := rfl
  told := ⟨completedEvent "resp_1",_,List.mem_cons_self,rfl,rfl,rfl⟩
  asks := rfl
  provider := rfl
  live := by intro row h; cases h; rfl

theorem follow_up_finds_iff_recorded :
    Finds {} recordedState (requestAt recordedState 1 rfl) (requestAt recordedState 0 rfl).newId ↔
      (requestAt recordedState 0 rfl).row?.isSome = true :=
  follow_up_finds_iff recordedState_reached recordedState_followsUp

end ResponsesGateway
