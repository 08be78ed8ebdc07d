import ResponsesGateway.Api.Visibility

namespace ResponsesGateway

open SessionResolver

/-- A `datetime`: what its clock shows, in microseconds, and its `utcoffset()`, none if it is naive. -/
structure Datetime where
  clock : ℤ
  utcoffset : Option ℤ

namespace Datetime

def utc (t : Time) : Datetime := ⟨t, some 0⟩

/-- The instant a timestamp of the table stands for. SQLite gives them back naive. -/
def instant (d : Datetime) : Time := d.clock - d.utcoffset.getD 0

def aware (d : Datetime) : Datetime :=
  match d.utcoffset with
  | none => { d with utcoffset := some 0 }
  | some _ => d

/-- `a < b`, which Python refuses for one naive and one aware. -/
def lt (a b : Datetime) : Except PyError Bool :=
  match a.utcoffset, b.utcoffset with
  | some x, some y => .ok (decide (a.clock - x < b.clock - y))
  | none, none => .ok (decide (a.clock < b.clock))
  | _, _ => .error .typeError

theorem aware_lt_utc (d : Datetime) (t : Time) : d.aware.lt (.utc t) = .ok (decide (d.instant < t)) := by
  obtain ⟨clock,utcoffset⟩ := d
  cases utcoffset with
  | none => exact congrArg Except.ok (decide_eq_decide.mpr (by simp [aware, utc, instant]))
  | some offset => exact congrArg Except.ok (decide_eq_decide.mpr (by simp [aware, utc, instant]))

end Datetime

def ttlPassed (ttl : Option Datetime) (now : Time) : Except PyError Bool :=
  match ttl with
  | none => .ok false
  | some ttl => ttl.aware.lt (.utc now)

theorem ttlPassed_eq {row : SessionRecord} {ttl : Option Datetime} (h : ttl.map Datetime.instant = row.ttlAt)
    (t : Time) : ttlPassed ttl t = .ok (row.expired t) := by
  rw [SessionRecord.expired, ← h]
  cases ttl with
  | none => rfl
  | some d => exact d.aware_lt_utc t

def notFound (id : String) : Exn := .gateway (.previousResponseNotFound (.str id))

def expired (id : String) : Exn := .gateway (.previousResponseExpired (.str id))

def State.answer (s : State) (id provider : String) : Py SessionRecord :=
  checkParent s.now id provider (s.store.getById id)

section LifeCycle

variable {gw : Gateway} {s s' : State} {a : Action} {row : SessionRecord} {id provider : String}
  {ok : State → Action → Prop} {cold : Option ColdStorage} {now : Time}

theorem answer_notFound_iff : s.answer id provider = .error (notFound id) ↔ s.Gone id := by
  unfold State.answer State.Gone
  cases s.store.getById id with
  | none => simp [checkParent, notFound]
  | some row =>
    simp only [checkParent, notFound, reduceCtorEq, iff_false]
    split
    · simp
    · split <;> simp

theorem answer_expired_iff : s.answer id provider = .error (expired id) ↔
    ∃ row, s.store.getById id = some row ∧ row.expired s.now = true := by
  unfold State.answer
  cases s.store.getById id with
  | none => simp [checkParent, expired]
  | some row =>
    cases he : row.expired s.now with
    | true => simp [checkParent, expired, he]
    | false =>
      by_cases hp : row.provider = provider <;> simp [checkParent, expired, he, hp]

theorem step_now (h : step gw s a = some s') : s.now ≤ s'.now := by
  rcases step_cases h with rfl | ⟨_,_,_,-,-,rfl⟩ | ⟨_,_,_,_,_,_,-,-,-,rfl⟩ | ⟨d,rfl⟩ | ⟨_,-,rfl⟩
  · exact le_refl _
  · exact le_refl _
  · exact le_refl _
  · exact le_add_of_nonneg_right (Int.natCast_nonneg d)
  · exact le_refl _

theorem reach_later (hi : Inv s) (h : Reach (step gw) ok s s') :
    Inv s' ∧ s.now ≤ s'.now ∧ (∀ id row, s.recorded id = some row → s'.recorded id = some row ∧
      (s.Gone id → s'.Gone id)) := by
  induction h with
  | refl => exact ⟨hi,le_refl _,fun id row hrow => ⟨hrow,fun hg => hg⟩⟩
  | tail _ _ hstep ih =>
    obtain ⟨hi',hnow,hrec⟩ := ih
    have he := step_extends hi' hstep
    refine ⟨step_inv hi' hstep,hnow.trans (step_now hstep),fun id row hrow => ?_⟩
    obtain ⟨hrow',hgone⟩ := hrec id row hrow
    exact ⟨he.recorded _ _ hrow',fun hg => he.gone _ _ hrow' (hgone hg)⟩

theorem reach_stored (h : Reach (step gw) ok (.initial cold now) s) :
    ∀ r ∈ s.requests, ∀ row, r.made? = some row → r.turn.storeFlag.truthy = true := by
  refine reach_requests (P := fun r => ∀ row, r.made? = some row → r.turn.storeFlag.truthy = true) ?_ ?_ h
  · intro payload uuid turn _ row hrow
    rw [made?_start] at hrow
    cases hrow
  · intro s r r' store cold hr hm row hrow
    rw [(moves_turn hm).2]
    rcases made?_of_moves hm hrow with ⟨_,_,_,-,-,hmade⟩ | ⟨_,_,-,hflag,-⟩
    · exact hr _ hmade
    · exact hflag

theorem unrecorded_of_falsy (h : Reach (step gw) ok (.initial cold now) s) {r : Request}
    (hr : r ∈ s.requests) (hflag : r.turn.storeFlag.truthy = false) : s.recorded r.newId = none := by
  rw [recorded_of_mem (reach_inv h).ids hr]
  cases hrow : r.row? with
  | none => rfl
  | some row =>
    have htrue := reach_stored h r hr row (made?_of_row? hrow)
    rw [hflag] at htrue
    cases htrue

theorem gone_of_unrecorded (hi : Inv s) (h : s.recorded id = none) : s.Gone id := by
  cases hg : s.store.getById id with
  | none => exact hg
  | some row =>
    rw [hi.seen hg] at h
    cases h

theorem gone_or_expired_later (hi : Inv s) (h : Reach (step gw) ok s s')
    (hfound : s.store.getById id = some row) (he : row.expired s.now = true) :
    s'.Gone id ∨ ∃ row', s'.store.getById id = some row' ∧ row'.expired s'.now = true := by
  obtain ⟨hi',hnow,hrec⟩ := reach_later hi h
  cases hg : s'.store.getById id with
  | none => exact .inl hg
  | some row' =>
    refine .inr ⟨row',rfl,?_⟩
    -- No id is ever used again, so it is still the same row.
    have hsame := (hi'.seen hg).symm.trans (hrec _ _ (hi.seen hfound)).1
    obtain rfl := Option.some.inj hsame
    cases hlive : row'.expired s'.now with
    | true => rfl
    | false =>
      rw [expired_mono hnow hlive] at he
      cases he

theorem mem_deleteExpired_of_live {t asOf : Time} {ttl : Option Datetime}
    (hread : ttl.map Datetime.instant = row.ttlAt) (hlive : ttlPassed ttl t = .ok false) (ht : asOf ≤ t)
    (hrow : row ∈ s.store.rows) : row ∈ (s.store.deleteExpired asOf).rows := by
  rw [ttlPassed_eq hread, Except.ok.injEq] at hlive
  exact SessionStore.mem_deleteExpired.mpr ⟨hrow,expired_mono ht hlive⟩

end LifeCycle

structure LifeCycle (s s' : State) (id : String) : Prop where
  unstored : ∀ r ∈ s'.requests, r.newId = id → r.turn.storeFlag.truthy = false → ∀ provider,
    s.answer id provider = .error (notFound id) ∧ s'.answer id provider = .error (notFound id)
  expired : ∀ provider, s.answer id provider = .error (expired id) → ∀ provider',
    s'.answer id provider' = .error (ResponsesGateway.expired id) ∨
      s'.answer id provider' = .error (notFound id)
  gone : (s.recorded id).isSome = true → ∀ provider, s.answer id provider = .error (notFound id) →
    ∀ provider', s'.answer id provider' = .error (notFound id)
  kept : ∀ row ∈ s.store.rows, ∀ ttl t asOf, ttl.map Datetime.instant = row.ttlAt →
    ttlPassed ttl t = .ok false → asOf ≤ t → row ∈ (s.store.deleteExpired asOf).rows

theorem response_id_life_cycle {gw : Gateway} {cold : Option ColdStorage} {now : Time} {s s' : State}
    (h : Reach (step gw) CleansPast (.initial cold now) s) (h' : Reach (step gw) CleansPast s s')
    (id : String) : LifeCycle s s' id := by
  have hi := reach_inv h
  obtain ⟨hi',hnow,hrec⟩ := reach_later hi h'
  refine ⟨?_,?_,?_,fun row hrow ttl t asOf hread hlive ht => mem_deleteExpired_of_live hread hlive ht hrow⟩
  · rintro r hr rfl hflag provider
    have hnever' := unrecorded_of_falsy (h.trans h') hr hflag
    have hnever : s.recorded r.newId = none := by
      cases hrow : s.recorded r.newId with
      | none => rfl
      | some row =>
        rw [(hrec _ _ hrow).1] at hnever'
        cases hnever'
    exact ⟨answer_notFound_iff.mpr (gone_of_unrecorded hi hnever),
      answer_notFound_iff.mpr (gone_of_unrecorded hi' hnever')⟩
  · intro provider hexp provider'
    obtain ⟨row,hfound,he⟩ := answer_expired_iff.mp hexp
    rcases gone_or_expired_later hi h' hfound he with hg | hlater
    · exact .inr (answer_notFound_iff.mpr hg)
    · exact .inl (answer_expired_iff.mpr hlater)
  · intro hsome provider hg provider'
    obtain ⟨row,hrow⟩ := Option.isSome_iff_exists.mp hsome
    exact answer_notFound_iff.mpr ((hrec _ _ hrow).2 (answer_notFound_iff.mp hg))

def agingRun : List Action :=
  (plainTurn 0 "1" (opening.set "store" (.bool false)) 0 "hello").dropLast ++
    plainTurn 1 "2" opening 0 "hello" ++ [.tick (days 31)]

def overdueState : State := (runSteps (step {}) (.initial none 0) agingRun).get rfl

def cleanedState : State := (step {} overdueState (.deleteExpired (days 31))).get rfl

theorem response_id_life_cycle_cleaned : LifeCycle overdueState cleanedState "resp_2" := by
  have hover : Reach (step {}) CleansPast (.initial none 0) overdueState :=
    reach_of_runSteps agingRun (clean_of_no_cleanup (by simp [agingRun, plainTurn]))
      (Option.some_get rfl).symm
  have hpast : CleansPast overdueState (.deleteExpired (days 31)) := le_of_eq rfl
  have hcleaned : Reach (step {}) CleansPast overdueState cleanedState :=
    Reach.refl.tail hpast (Option.some_get rfl).symm
  exact response_id_life_cycle hover hcleaned "resp_2"

end ResponsesGateway
