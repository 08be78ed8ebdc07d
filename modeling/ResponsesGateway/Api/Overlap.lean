import ResponsesGateway.Api.Retention

namespace ResponsesGateway

open SessionResolver

def Runs (gw : Gateway) : State → State → Prop := Reach (step gw) (fun _ _ => True)

structure Began (gw : Gateway) (start s₀ : State) (i : ℕ) (turn : Turn) (prevId : String)
    (parent : SessionRecord) : Prop where
  reached : Runs gw start s₀
  asked : ∃ r, s₀.requests[i]? = some r ∧ r.turn = turn ∧ r.phase = .resolving prevId
  checked : checkParent s₀.now prevId turn.provider (s₀.store.getById prevId) = .ok parent

/-- A `resolve` from its first read at `s₀` to its last at `s₁`: the rows it goes on from are all that
the table still had at the last, and none that it did not have at the first. -/
structure Overlapped (gw : Gateway) (start s₀ s₁ : State) (i : ℕ) (turn : Turn) (prevId : String)
    (resolved : ResolvedRequest) : Prop where
  between : Runs gw s₀ s₁
  walked : ∃ r parent walk, s₁.requests[i]? = some r ∧ r.turn = turn ∧ r.phase = .walking prevId parent walk
  result : ∃ parent rows history, Began gw start s₀ i turn prevId parent ∧
    walkParentChain s₁.store prevId <:+ rows ∧ rows <:+ walkParentChain s₀.store prevId ∧
    reconstructMessages s₁.cold rows = .ok history ∧
    resolved = ⟨rewrite turn.payload history, some parent.sessionId, some prevId⟩

def Traced (gw : Gateway) (start s : State) (i : ℕ) (r : Request) : Prop :=
  match r.phase with
  | .walking prevId parent walk => ∃ s₀, Began gw start s₀ i r.turn prevId parent ∧ Runs gw s₀ s ∧
      ∀ row ∈ walk.chain, row ∈ s₀.store.rows
  | .resolved resolved _ => ∀ prevId, namedId r.turn.payload = .ok (some prevId) →
      ∃ s₀ s₁, Overlapped gw start s₀ s₁ i r.turn prevId resolved ∧ Runs gw s₁ s
  | _ => True

section Runs

variable {gw : Gateway} {start s₀ s s' s'' : State} {a : Action} {r r' : Request} {i : ℕ}
  {store : SessionStore} {cold : Option ColdStorage} {now : Time} {prevId : String} {parent : SessionRecord}
  {walk : ChainWalk} {turn : Turn}

theorem mem_chain_walkStep {row : SessionRecord} (h : row ∈ (walkStep store walk).chain) :
    row ∈ walk.chain ∨ row ∈ store.rows := by
  cases hn : walk.next? with
  | none => exact .inl (by rwa [walkStep, Walk.step_of_done hn] at h)
  | some k =>
    cases hl : store.getById k with
    | none => exact .inl (by rwa [walkStep, Walk.step_of_missing hn hl] at h)
    | some found =>
      rw [walkStep, Walk.step_of_found hn hl] at h
      rcases List.mem_append.mp h with h | h
      · exact .inl h
      · exact .inr (by rw [List.mem_singleton.mp h]; exact SessionStore.mem_of_getById hl)

theorem stored_before (hi₀ : Inv s₀) (he : Extends s₀ s) (hfound : s₀.store.getById prevId = some parent)
    (hf : walk.Follows s.recorded SessionRecord.parent SessionRecord.id s.Gone prevId) {row : SessionRecord}
    (hrow : row ∈ walk.chain) (hin : row ∈ s.store.rows) : row ∈ s₀.store.rows := by
  obtain ⟨rows,hl₀⟩ := hi₀.lineage _ _ (hi₀.seen hfound)
  obtain ⟨pre,hl,-⟩ := hf.lineage
  obtain rfl := (hl₀.mono he.recorded).unique hl
  have hrec := hl₀.look_of_mem _ hi₀.recorded_id
    (List.mem_append_right pre (List.mem_reverse.mpr hrow))
  cases hs : s₀.store.getById row.id with
  | none =>
    have hgone : s.Gone row.id := he.gone _ _ hrec hs
    exact absurd (hgone.symm.trans (SessionStore.getById_of_mem hin)) (by simp)
  | some found =>
    obtain rfl := Option.some.inj ((hi₀.seen hs).symm.trans hrec)
    exact SessionStore.mem_of_getById hs

theorem stored_walkStep (hi₀ : Inv s₀) (hi : Inv s) (he : Extends s₀ s)
    (hfound : s₀.store.getById prevId = some parent)
    (hf : walk.Follows s.recorded SessionRecord.parent SessionRecord.id s.Gone prevId)
    (hstored : ∀ row ∈ walk.chain, row ∈ s₀.store.rows) :
    ∀ row ∈ (walkStep s.store walk).chain, row ∈ s₀.store.rows := by
  intro row hrow
  rcases mem_chain_walkStep hrow with hold | hnew
  · exact hstored row hold
  · exact stored_before hi₀ he hfound (walkStep_follows hi hf) hrow hnew

theorem chain_between {ttl : ℤ} (hi₀ : Inv s₀) (ha₀ : Aged ttl s₀) (hi : Inv s) (ha : Aged ttl s)
    (he : Extends s₀ s) (hfound : s₀.store.getById prevId = some parent)
    (hf : walk.Follows s.recorded SessionRecord.parent SessionRecord.id s.Gone prevId)
    (hcur : walk.cur = none) (hstored : ∀ row ∈ walk.chain, row ∈ s₀.store.rows) :
    walkParentChain s.store prevId <:+ walk.chain.reverse ∧
      walk.chain.reverse <:+ walkParentChain s₀.store prevId := by
  have hrec₀ := hi₀.seen hfound
  obtain ⟨gone₀,kept₀,hl₀,hgone₀,-,hwalk₀⟩ := ha₀.cut hi₀ hrec₀
  obtain ⟨gone,kept,hl,-,hkept,hwalk⟩ := ha.cut hi (he.recorded _ _ hrec₀)
  obtain ⟨pre,hread,hcut⟩ := hf.lineage
  rw [hcur] at hcut
  rw [hwalk₀, hwalk]
  refine ⟨?_,?_⟩
  -- What was not read ends in a row that is gone by now.
  · refine List.suffix_of_append_eq (P := fun row => row ∈ s.store.rows) (hread.unique hl) ?_ hkept
    intro row hlast hin
    rcases hcut with rfl | ⟨row',hlast',hmissing⟩
    · cases hlast
    · obtain rfl := Option.some.inj (hlast.symm.trans hlast')
      exact absurd (hmissing.symm.trans (SessionStore.getById_of_mem hin)) (by simp)
  -- What was gone at the first read was not read.
  · refine List.suffix_of_append_eq (P := fun row => row ∈ s₀.store.rows)
      ((hl₀.mono he.recorded).unique hread) ?_ (fun row hrow => hstored row (List.mem_reverse.mp hrow))
    intro row hlast hin
    have hmissing := hgone₀ row (List.mem_of_getLast? hlast)
    exact absurd (hmissing.symm.trans (SessionStore.getById_of_mem hin)) (by simp)

theorem Traced.later (h : Traced gw start s i r) (hrun : Runs gw s s') : Traced gw start s' i r := by
  unfold Traced at h ⊢
  split
  · rename_i hp
    rw [hp] at h
    obtain ⟨s₀,hbegan,hbetween,hstored⟩ := h
    exact ⟨s₀,hbegan,hbetween.trans hrun,hstored⟩
  · rename_i hp
    rw [hp] at h
    intro prevId hn
    obtain ⟨s₀,s₁,hover,hafter⟩ := h prevId hn
    exact ⟨s₀,s₁,hover,hafter.trans hrun⟩
  · trivial

theorem traced_start (payload : JsonDict) (uuid : String) (turn : Turn) :
    Traced gw start s i (.start payload uuid turn) := by
  unfold Traced Request.start Request.initialPhase
  cases hn : namedId turn.payload with
  | error exn => trivial
  | ok named =>
    cases named with
    | some prevId => trivial
    | none =>
      intro prevId hn'
      cases hn'

theorem Traced.moves {cold₀ : Option ColdStorage} (hreach : Runs gw (.initial cold₀ now) s)
    (hr : s.requests[i]? = some r) (h : Traced gw (.initial cold₀ now) s i r)
    (hmove : Moves gw s r r' store cold) : Traced gw (.initial cold₀ now) s i r' := by
  have hi := reach_inv hreach
  have hok := hi.phases r (List.mem_of_getElem? hr)
  unfold Traced at h ⊢
  cases hmove with
  | abandoned => trivial
  | @accepted prevId parent hp hcheck =>
    exact ⟨s,⟨hreach,⟨r,hr,rfl,hp⟩,hcheck⟩,.refl,by simp [Walk.start]⟩
  | @climbed prevId parent walk hp =>
    rw [hp] at hok h
    obtain ⟨-,-,-,hf⟩ := hok
    obtain ⟨s₀,hbegan,hbetween,hstored⟩ := h
    have hi₀ := reach_inv hbegan.reached
    obtain ⟨-,he⟩ := reach_extends hi₀ hbetween
    obtain ⟨hfound,-,-⟩ := checkParent_eq_ok hbegan.checked
    exact ⟨s₀,hbegan,hbetween,stored_walkStep hi₀ hi he hfound hf hstored⟩
  | @reconstructed prevId parent walk history resolved hp hdone hm hres =>
    rw [hp] at hok h
    obtain ⟨hnamed,-,-,hf⟩ := hok
    obtain ⟨s₀,hbegan,hbetween,hstored⟩ := h
    have hi₀ := reach_inv hbegan.reached
    obtain ⟨-,he⟩ := reach_extends hi₀ hbetween
    obtain ⟨hfound,-,-⟩ := checkParent_eq_ok hbegan.checked
    have hstep := walkStep_follows hi hf
    have hcur := hstep.cur_of_done hi.recorded_id hdone
    obtain ⟨hlast,hfirst⟩ := chain_between hi₀ (reach_aged hbegan.reached) hi (reach_aged hreach) he hfound
      hstep hcur (stored_walkStep hi₀ hi he hfound hf hstored)
    intro prevId' hn
    obtain rfl : prevId = prevId' := by simpa using hnamed.symm.trans hn
    exact ⟨s₀,s,⟨hbetween,⟨r,parent,walk,hr,rfl,hp⟩,parent,_,history,hbegan,hlast,hfirst,hm,hres⟩,.refl⟩
  | failed hp => rw [hp] at h; exact h
  | answered hp => rw [hp] at h; exact h
  | connected hp => rw [hp] at h; exact h
  | forwarded hp => rw [hp] at h; exact h
  | ended hp => rw [hp] at h; exact h
  | skipped hp => rw [hp] at h; exact h
  | prepared hp => rw [hp] at h; exact h
  | inserted hp => rw [hp] at h; exact h

theorem runs_traced {cold₀ : Option ColdStorage} (h : Runs gw (.initial cold₀ now) s) :
    ∀ i r, s.requests[i]? = some r → Traced gw (.initial cold₀ now) s i r := by
  induction h with
  | refl => simp [State.initial]
  | @tail s a s' hreach _ hs ih =>
    have hlater : ∀ i r, s.requests[i]? = some r → Traced gw (.initial cold₀ now) s' i r :=
      fun i r hr => (ih i r hr).later (Reach.refl.tail trivial hs)
    rcases step_cases hs with rfl | ⟨payload,uuid,turn,-,-,rfl⟩ | ⟨j,m,x,x',store,cold,-,hx,hm,rfl⟩ |
      ⟨d,rfl⟩ | ⟨asOf,-,rfl⟩
    · exact ih
    · intro i r hr
      rcases Nat.lt_or_ge i s.requests.length with hold | hnew
      · exact hlater i r (by rwa [List.getElem?_append_left hold] at hr)
      · rw [List.getElem?_append_right hnew] at hr
        rw [List.mem_singleton.mp (List.mem_of_getElem? hr)]
        exact traced_start payload uuid turn
    · intro i r hr
      by_cases hij : j = i
      · subst hij
        have hmoved : Traced gw (.initial cold₀ now) s j x' := (ih j x hx).moves hreach hx (moves_of_move hm)
        obtain rfl : x' = r := by simpa [moved, (List.getElem?_eq_some_iff.mp hx).1] using hr
        exact hmoved.later (Reach.refl.tail trivial hs)
      · exact hlater i r (by rwa [moved, List.getElem?_set_ne hij] at hr)
    · exact hlater
    · exact hlater

end Runs

theorem resolve_overlapped {gw : Gateway} {cold : Option ColdStorage} {now : Time} {s : State}
    (h : Reach (step gw) (fun _ _ => True) (.initial cold now) s) {i : ℕ} {r : Request}
    (hr : s.requests[i]? = some r) {resolved : ResolvedRequest} {stage : Stage}
    (hp : r.phase = .resolved resolved stage) {prevId : String}
    (hn : namedId r.turn.payload = .ok (some prevId)) :
    ∃ s₀ s₁, Overlapped gw (.initial cold now) s₀ s₁ i r.turn prevId resolved ∧ Runs gw s₁ s ∧
      (walkParentChain s₁.store prevId = walkParentChain s₀.store prevId →
        resolve s₀.store s₁.cold s₀.now r.turn.payload r.turn.provider = .ok resolved) := by
  have htraced := runs_traced h i r hr
  unfold Traced at htraced
  rw [hp] at htraced
  obtain ⟨s₀,s₁,hover,hafter⟩ := htraced prevId hn
  refine ⟨s₀,s₁,hover,hafter,fun hsame => ?_⟩
  obtain ⟨parent,rows,history,hbegan,hlast,hfirst,hm,rfl⟩ := hover.result
  rw [hsame] at hlast
  obtain rfl : walkParentChain s₀.store prevId = rows :=
    hlast.eq_of_length (Nat.le_antisymm hlast.length_le hfirst.length_le)
  simp [resolve, hn, hbegan.checked, hm, bind, Except.bind, pure, Except.pure]

/-- Both turns go while the third request reads them: it has read `resp_2`, and finds no `resp_1`. -/
def overlapRun : List Action :=
  plainTurn 0 "1" opening 0 "hello" ++ [.tick (days 20)] ++
    plainTurn 1 "2" (sequel "resp_1" "how are you?") 2 "fine" ++
    [.tick (days 15), .receive (sequel "resp_2" "good") "3", .move 2 .read, .move 2 .read,
     .tick (days 20), .deleteExpired (days 55), .move 2 .read]

def overlapState : State := (runSteps (step {}) (.initial none 0) overlapRun).get rfl

def overlapTurn : Request := (overlapState.requests[2]?).get rfl

theorem resolve_overlapped_cleanup :
    ∃ s₀ s₁, Overlapped {} (.initial none 0) s₀ s₁ 2 overlapTurn.turn "resp_2" thirdResolved ∧
      Runs {} s₁ overlapState ∧
      (walkParentChain s₁.store "resp_2" = walkParentChain s₀.store "resp_2" →
        resolve s₀.store s₁.cold s₀.now overlapTurn.turn.payload overlapTurn.turn.provider =
          .ok thirdResolved) := by
  have hreach : Reach (step {}) (fun _ _ => True) (.initial none 0) overlapState :=
    reach_of_runSteps overlapRun (fun _ _ _ => trivial) (Option.some_get rfl).symm
  have hturn : overlapState.requests[2]? = some overlapTurn := (Option.some_get rfl).symm
  have hphase : overlapTurn.phase = .resolved thirdResolved .calling := rfl
  exact resolve_overlapped hreach hturn hphase rfl

end ResponsesGateway
