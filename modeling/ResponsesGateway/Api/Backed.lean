import ResponsesGateway.Api.Stored
import ResponsesGateway.Session.Backed

namespace ResponsesGateway

open SessionResolver SessionRecorder

inductive BackedRequest where
  | plain (r : Request)
  | reading (r : Request) (prevId : String) (parent : SessionRecord) (rest : Reconstruction)

/-- The gateway over the objects of a backend; `drawn` are the keys it has drawn. -/
structure BackedState (σ : Type) where
  store : SessionStore
  objects : σ
  drawn : List String
  now : Time
  requests : List BackedRequest

inductive BackedAction where
  | receive (payload : JsonDict) (uuid : String)
  | move (i : ℕ) (m : Move)
  | record (i : ℕ) (newSessionId uuid : String)
  | tick (d : ℕ)
  | deleteExpired (asOf : Time)

namespace Request

def resolveWith (r : Request) (prevId : String) (parent : SessionRecord) : Py (List Json) → Request
  | .error exn => { r with phase := .unresolved exn }
  | .ok history => { r with
      phase := .resolved ⟨rewrite r.turn.payload history, some parent.sessionId, some prevId⟩ .calling }

end Request

namespace BackedRequest

def request : BackedRequest → Request
  | plain r => r
  | reading r _ _ _ => r

def readOn (r : Request) (prevId : String) (parent : SessionRecord) (rest : Reconstruction) : BackedRequest :=
  if rest.chain = [] then .plain (r.resolveWith prevId parent (.ok rest.messages))
  else .reading r prevId parent rest

end BackedRequest

section

variable {σ : Type} (gw : Gateway) (backend? : Option (Backend σ))

/-- The next piece of a request, without `record`. Pieces that have no part in cold storage are as in
`move`; a payload is one piece. -/
def backedMove (s : BackedState σ) (x : BackedRequest) (m : Move) :
    Option (BackedRequest × SessionStore × σ) :=
  match x with
  | .reading r prevId parent rest =>
      match m with
      | .read =>
          match rest.step backend? s.objects with
          | (.error exn, objects) => some (.plain { r with phase := .unresolved exn }, s.store, objects)
          | (.ok rest, objects) => some (.readOn r prevId parent rest, s.store, objects)
      | _ => none
  | .plain r =>
      match r.phase, m with
      | .walking prevId parent walk, .read =>
          let walk := walkStep s.store walk
          if walk.next? = none then
            some (.readOn r prevId parent (.start walk.chain.reverse), s.store, s.objects)
          else some (.plain { r with phase := .walking prevId parent walk }, s.store, s.objects)
      | .resolved _ (.answered _), _ => none
      | _, _ =>
          (move gw ⟨s.store, none, s.now, []⟩ r m).map (fun p => (.plain p.1, p.2.1, s.objects))

def backedRecord (s : BackedState σ) (r : Request) (newSessionId uuid : String) : Option (Request × σ) :=
  match r.phase with
  | .resolved resolved (.answered response) =>
      if r.turn.storeFlag.truthy then
        match gw.recorder.ttlAt s.now with
        | .error x => some (r.settle resolved (.error (.python x)) .calling, s.objects)
        | .ok _ =>
            let (row, objects) := gw.recorder.prepareOver backend? s.objects s.now newSessionId uuid
              (recordCall r.turn r.newId resolved response)
            some ({ r with phase := .resolved resolved (.inserting response row) }, objects)
      else some (r.settle resolved (.ok ()) (.finished response none), s.objects)
  | _ => none

def backedStep (s : BackedState σ) : BackedAction → Option (BackedState σ)
  | .receive payload uuid =>
      if newResponseId uuid ∈ s.requests.map (fun x => x.request.newId) then none
      else
        match receive gw payload with
        | .error _ => some s
        | .ok turn => some { s with requests := s.requests ++ [.plain (.start payload uuid turn)] }
  | .move i m => do
      let x ← s.requests[i]?
      let (x, store, objects) ← backedMove gw backend? s x m
      return { s with store := store, objects := objects, requests := s.requests.set i x }
  | .record i newSessionId uuid =>
      match s.requests[i]? with
      | some (.plain r) =>
          if uuid ∈ s.drawn then none
          else (backedRecord gw backend? s r newSessionId uuid).map (fun p =>
            { s with objects := p.2, drawn := uuid :: s.drawn, requests := s.requests.set i (.plain p.1) })
      | _ => none
  | .tick d => some { s with now := s.now + d }
  | .deleteExpired asOf => some { s with store := s.store.deleteExpired asOf }

end

def BackedState.initial {σ : Type} (objects : σ) (now : Time) : BackedState σ := ⟨.empty, objects, [], now, []⟩

/-- What comes in are values of JSON, the deltas of a stream are texts, and keys are not empty. -/
def BackedAction.Given : BackedAction → Prop
  | .receive payload uuid => ResponsesGateway.Given (.receive payload uuid)
  | .move i m => ResponsesGateway.Given (.move i m)
  | .record _ _ uuid => uuid ≠ ""
  | _ => True

/-- The request as the gateway over cold storage has it, where the reads to come end with `foretold` or
are all answered. -/
def BackedRequest.shown (cold : Option ColdStorage) (foretold : Option Exn) : BackedRequest → Request
  | .plain r => r
  | .reading r prevId parent rest =>
      r.resolveWith prevId parent (foretold.elim (rest.result cold) .error)

structure Shows {σ : Type} (foretold : ℕ → Option Exn) (s : BackedState σ) (t : State) : Prop where
  store : t.store = s.store
  now : t.now = s.now
  requests : ∀ i : ℕ, t.requests[i]? = s.requests[i]?.map (fun x => x.shown t.cold (foretold i))

section Moves

variable {gw : Gateway} {s t : State} {r r' : Request} {m : Move}

theorem move_bare (ha : ∀ resolved response, r.phase ≠ .resolved resolved (.answered response))
    (hw : m = .read → ∀ prevId parent walk, r.phase ≠ .walking prevId parent walk) :
    move gw t r m = (move gw ⟨t.store, none, t.now, []⟩ r m).map (fun p => (p.1, p.2.1, t.cold)) := by
  unfold move
  split
  case h_1 => dsimp only; split <;> rfl
  case h_2 prevId parent walk hphase => exact absurd hphase (hw rfl prevId parent walk)
  case h_3 => rfl
  case h_4 => rfl
  case h_5 =>
    dsimp only
    split
    · rfl
    · split <;> rfl
  case h_6 =>
    dsimp only
    split
    · split <;> rfl
    · rfl
  case h_7 => dsimp only; split <;> rfl
  case h_8 => dsimp only; split <;> rfl
  case h_9 resolved response newSessionId put hphase => exact absurd hphase (ha resolved response)
  case h_10 => dsimp only; split <;> rfl
  case h_11 => rfl

end Moves

inductive Stands {σ : Type} (R : ColdStorage → List String → σ → Prop) :
    Option (Backend σ) → Option ColdStorage → List String → σ → Prop
  | absent {used s} : Stands R none none used s
  | present {b cold used s} : R cold used s → Stands R (some b) (some cold) used s

structure Simulates {σ : Type} (backend? : Option (Backend σ)) (R : ColdStorage → List String → σ → Prop)
    (foretold : ℕ → Option Exn) (s : BackedState σ) (t : State) : Prop extends Shows foretold s t where
  cold : Stands R backend? t.cold s.drawn s.objects
  held : ∀ r prevId parent rest, .reading r prevId parent rest ∈ s.requests → ∀ row ∈ rest.chain, Held t.cold row

section Reads

variable {σ : Type} {backend? : Option (Backend σ)} {remote : Bool} {R : ColdStorage → List String → σ → Prop}
  {cold : Option ColdStorage} {used : List String} {s : σ} {row : SessionRecord} {w w' : Reconstruction}

theorem Stands.payload (hb : ∀ b, backend? = some b → b.Refines remote R) (h : Stands R backend? cold used s)
    (hrow : Held cold row) (field : String) :
    Stands R backend? cold used (payloadOver backend? s row field).2 ∧
      ((payloadOver backend? s row field).1 = SessionResolver.payload cold row field ∨
        ∃ exn, (payloadOver backend? s row field).1 = .error exn) := by
  cases h with
  | absent =>
    have hsame : payloadOver (none : Option (Backend σ)) s row field = (SessionResolver.payload none row field, s) := by
      unfold payloadOver
      cases coldKey? row <;> rfl
    rw [hsame]
    exact ⟨.absent,.inl rfl⟩
  | present hR =>
    obtain ⟨hR',ha⟩ := payloadOver_spec (hb _ rfl) hR (fun key hk => hrow key _ hk rfl) field
    exact ⟨.present hR',ha⟩

theorem Stands.reading (hb : ∀ b, backend? = some b → b.Refines remote R) (h : Stands R backend? cold used s)
    (hrows : ∀ row ∈ w.chain, Held cold row) :
    Stands R backend? cold used (w.step backend? s).2 ∧
      ∀ w', (w.step backend? s).1 = .ok w' → w'.result cold = w.result cold ∧ w'.chain ⊆ w.chain :=
  ⟨Reconstruction.step_keeps h fun row hrow field => (h.payload hb (hrows row hrow) field).1,
    fun _ hw => Reconstruction.step_result (fun row hrow field => (h.payload hb (hrows row hrow) field).2) hw⟩

theorem Stands.drawn (hb : ∀ b, backend? = some b → b.Refines remote R) (h : Stands R backend? cold used s)
    (uuid : String) : Stands R backend? cold (uuid :: used) s := by
  cases h with
  | absent => exact .absent
  | present hR => exact .present ((hb _ rfl).drawn _ _ _ uuid hR)

theorem Stands.prepare (hb : ∀ b, backend? = some b → b.Refines remote R) (h : Stands R backend? cold used s)
    {uuid : String} (hu : uuid ∉ used) {c : RecordCall} (hc : (ColdOp.put uuid c.coldPayload).Storable)
    (recorder : SessionRecorder) (now : Time) (newSessionId : String) :
    ∃ put cold', freshPut cold put = true ∧ recorder.prepare cold ⟨now, newSessionId, put, none⟩ c =
        ((recorder.prepareOver backend? s now newSessionId uuid c).1, cold') ∧
      Stands R backend? cold' (uuid :: used) (recorder.prepareOver backend? s now newSessionId uuid c).2 := by
  cases h with
  | absent => exact ⟨.ok uuid,none,rfl,rfl,.absent⟩
  | @present b cold _ _ hR =>
    obtain ⟨put,cold',hput,hprep,hR'⟩ := prepareOver_spec recorder (hb b rfl) hR hu hc now newSessionId
    refine ⟨put,some cold',?_,hprep,.present hR'⟩
    cases put with
    | error exn => rfl
    | ok key => simpa [freshPut] using hput key rfl

end Reads

section Simulation

variable {σ : Type} {gw : Gateway} {backend? : Option (Backend σ)} {remote : Bool}
  {R : ColdStorage → List String → σ → Prop} {f f' : ℕ → Option Exn} {s s' : BackedState σ} {t t' : State}
  {x x' : BackedRequest} {r r' : Request} {i : ℕ} {m : Move} {store : SessionStore} {cold : Option ColdStorage}
  {objects : σ} {drawn : List String} {rest : Reconstruction}

theorem result_moved (h : Moves gw t r r' store cold) (hrows : ∀ row ∈ rest.chain, Held t.cold row) :
    rest.result cold = rest.result t.cold := by
  cases h with
  | @prepared resolved response newSessionId put row _ _ _ hput hprep =>
    rcases prepare_cases gw.recorder t.cold ⟨t.now,newSessionId,put,none⟩
      (recordCall r.turn r.newId resolved response) with he | ⟨before,key,hbefore,-,hkey,he⟩
    · rw [he] at hprep; cases hprep; rfl
    · rw [he] at hprep; cases hprep
      dsimp only at hkey
      simp only [freshPut, hbefore, hkey, Bool.and_eq_true, decide_eq_true_eq] at hput
      have hother : ∀ row ∈ rest.chain, row.coldStorageKey ≠ some key :=
        fun row hrow hk => hput.2 (hrows row hrow key before hk hbefore)
      rw [hbefore]
      obtain ⟨chain,input?,messages⟩ := rest
      cases chain with
      | nil => rfl
      | cons next chain =>
        have hnext := hother next List.mem_cons_self
        have hmore : ∀ payload, reconstructMessages (some before) chain =
            reconstructMessages (some (before.put key payload)) chain := fun payload =>
          reconstructMessages_congr (List.forall₂_same.mpr fun row hrow =>
            rowMessages_put payload (hother row (List.mem_cons_of_mem _ hrow)))
        simp only [Reconstruction.result, ← payload_put _ hnext, ← hmore]
  | _ => rfl

theorem shown_readOn {prevId : String} {parent : SessionRecord} {told : Option Exn}
    (h : rest.chain = [] → told = none) : (BackedRequest.readOn r prevId parent rest).shown cold told =
      r.resolveWith prevId parent (told.elim (rest.result cold) .error) := by
  unfold BackedRequest.readOn
  split
  · next hdone =>
    rw [h hdone, Option.elim_none, Reconstruction.result_of_done hdone]
    rfl
  · rfl

theorem Simulates.update (h : Simulates backend? R f s t) (hi : s.requests[i]? = some x)
    (hf : ∀ j, j ≠ i → f' j = f j) (hcold : Stands R backend? cold drawn objects)
    (hresult : ∀ rest : Reconstruction, (∀ row ∈ rest.chain, Held t.cold row) →
      rest.result cold = rest.result t.cold)
    (hheld : ∀ row, Held t.cold row → Held cold row)
    (hx : ∀ r prevId parent rest, x' = .reading r prevId parent rest → ∀ row ∈ rest.chain, Held cold row) :
    Simulates backend? R f' ⟨store, objects, drawn, s.now, s.requests.set i x'⟩
      (moved t i (x'.shown cold (f' i)) store cold) := by
  have hlen : i < s.requests.length := (List.getElem?_eq_some_iff.mp hi).1
  have hlen' : i < t.requests.length := by
    have hsome := h.requests i
    rw [hi] at hsome
    exact (List.getElem?_eq_some_iff.mp hsome).1
  refine ⟨⟨rfl,h.now,fun j => ?_⟩,hcold,?_⟩
  · by_cases hj : i = j
    · subst hj
      simp [moved, hlen, hlen']
    · simp only [moved, List.getElem?_set_ne hj, h.requests j, hf j (Ne.symm hj)]
      cases hx : s.requests[j]? with
      | none => rfl
      | some y =>
        cases y with
        | plain r => rfl
        | reading r prevId parent rest =>
          have hrows := h.held r prevId parent rest (List.mem_of_getElem? hx)
          simp only [Option.map_some, BackedRequest.shown, hresult rest hrows]
  · intro r prevId parent rest hmem row hrow
    rcases List.mem_or_eq_of_mem_set hmem with hold | hnew
    · exact hheld row (h.held r prevId parent rest hold row hrow)
    · exact hx r prevId parent rest hnew.symm row hrow

theorem Simulates.request (h : Simulates backend? R f s t) (hi : s.requests[i]? = some x) :
    t.requests[i]? = some (x.shown t.cold (f i)) := by
  rw [h.requests i, hi]
  rfl

theorem Simulates.both (h : Simulates backend? R f s t) (hi : s.requests[i]? = some (.plain r))
    (hm : move gw t r m = some (x'.shown cold (f i), store, cold)) (hcold : Stands R backend? cold drawn objects)
    (hx : ∀ r prevId parent rest, x' = .reading r prevId parent rest → ∀ row ∈ rest.chain, Held cold row) :
    step gw t (.move i m) = some (moved t i (x'.shown cold (f i)) store cold) ∧
      Simulates backend? R f ⟨store, objects, drawn, s.now, s.requests.set i x'⟩
        (moved t i (x'.shown cold (f i)) store cold) := by
  have hmoves := moves_of_move hm
  refine ⟨?_,h.update hi (fun _ _ => rfl) hcold (fun rest hrows => result_moved hmoves hrows)
    (fun row hrow => ((moves_cold hmoves).1 row hrow).1) hx⟩
  simp [step, h.request hi, BackedRequest.shown, hm, moved]

theorem reach_one {a : Action} (hs : step gw t a = some t') (hg : Given a) :
    Reach (step gw) (fun _ a => Given a) t t' :=
  Reach.refl.tail hg hs

theorem walked_held (hi : Inv t) (hr : t.requests[i]? = some r) {prevId : String} {parent : SessionRecord}
    {walk : ChainWalk} (hphase : r.phase = .walking prevId parent walk) :
    ∀ row ∈ (walkStep t.store walk).chain.reverse, Held t.cold row := by
  intro row hrow
  have hok := hi.phases r (List.mem_of_getElem? hr)
  rw [hphase] at hok
  obtain ⟨pre,hl,-⟩ := (walkStep_follows hi hok.2.2.2).lineage
  exact hi.held (hl.look_of_mem _ hi.recorded_id (List.mem_append_right pre hrow))

theorem move_walked (gw : Gateway) {prevId : String} {parent : SessionRecord} {walk : ChainWalk}
    (hphase : r.phase = .walking prevId parent walk) (hdone : (walkStep t.store walk).next? = none) :
    move gw t r .read = some (r.resolveWith prevId parent
      (reconstructMessages t.cold (walkStep t.store walk).chain.reverse), t.store, t.cold) := by
  simp only [move, hphase, hdone, if_true]
  cases reconstructMessages t.cold (walkStep t.store walk).chain.reverse <;> rfl

theorem simulates_walked (hi : s.requests[i]? = some (.plain r)) {prevId : String} {parent : SessionRecord}
    {walk : ChainWalk} (hphase : r.phase = .walking prevId parent walk)
    (hdone : (walkStep s.store walk).next? = none) (ht : Inv t) (h : Simulates backend? R f s t) :
    ∃ t', Reach (step gw) (fun _ a => Given a) t t' ∧ Simulates backend? R f
      ⟨s.store, s.objects, s.drawn, s.now,
        s.requests.set i (.readOn r prevId parent (.start (walkStep s.store walk).chain.reverse))⟩ t' := by
  have hheld := walked_held ht (h.request hi) hphase
  have hread := move_walked gw (t := t) hphase (by rw [h.store]; exact hdone)
  rw [h.store] at hheld hread
  generalize (walkStep s.store walk).chain.reverse = chain at hheld hread ⊢
  have hreading : ∀ r' prevId' parent' rest,
      BackedRequest.readOn r prevId parent (.start chain) = .reading r' prevId' parent' rest →
      ∀ row ∈ rest.chain, Held t.cold row := by
    intro r' prevId' parent' rest heq
    unfold BackedRequest.readOn at heq
    split at heq <;> cases heq
    exact hheld
  by_cases htold : chain ≠ [] ∧ (f i).isSome = true
  · obtain ⟨hne,hsome⟩ := htold
    obtain ⟨exn,hexn⟩ := Option.isSome_iff_exists.mp hsome
    have hshown : (BackedRequest.readOn r prevId parent (.start chain)).shown t.cold (f i) =
        { r with phase := .unresolved exn } := by
      rw [shown_readOn (fun hnil => absurd hnil hne), hexn]
      rfl
    have hm : move gw t r (.readError exn) =
        some ((BackedRequest.readOn r prevId parent (.start chain)).shown t.cold (f i), s.store, t.cold) := by
      rw [hshown, ← h.store]
      simp only [move, hphase]
    obtain ⟨hstep,hsim⟩ := h.both hi hm h.cold hreading
    exact ⟨_,reach_one hstep trivial,hsim⟩
  · have hshown : (BackedRequest.readOn r prevId parent (.start chain)).shown t.cold (f i) =
        r.resolveWith prevId parent (reconstructMessages t.cold chain) := by
      by_cases hnil : chain = []
      · subst hnil
        rfl
      · have hnone : f i = none := by simpa using not_and.mp htold hnil
        rw [shown_readOn (fun _ => hnone), hnone, Option.elim_none, Reconstruction.result_start]
    rw [← hshown] at hread
    obtain ⟨hstep,hsim⟩ := h.both hi hread h.cold hreading
    exact ⟨_,reach_one hstep trivial,hsim⟩

theorem Simulates.stay (h : Simulates backend? R f s t) (hi : s.requests[i]? = some x)
    (hf : ∀ j, j ≠ i → f' j = f j) (hcold : Stands R backend? t.cold s.drawn objects)
    (hsame : x'.shown t.cold (f' i) = x.shown t.cold (f i))
    (hx : ∀ r prevId parent rest, x' = .reading r prevId parent rest → ∀ row ∈ rest.chain, Held t.cold row) :
    Simulates backend? R f' ⟨s.store, objects, s.drawn, s.now, s.requests.set i x'⟩ t := by
  have hup : Simulates backend? R f' ⟨s.store, objects, s.drawn, s.now, s.requests.set i x'⟩
      (moved t i (x'.shown t.cold (f' i)) s.store t.cold) :=
    h.update hi hf hcold (fun _ _ => rfl) (fun _ => id) hx
  obtain ⟨hlt,hget⟩ := List.getElem?_eq_some_iff.mp (h.request hi)
  have hmoved : moved t i (x'.shown t.cold (f' i)) s.store t.cold = t := by
    rw [hsame, ← h.store, moved, ← hget, List.set_getElem_self]
  rwa [hmoved] at hup

theorem simulates_read (hb : ∀ b, backend? = some b → b.Refines remote R) {prevId : String}
    {parent : SessionRecord} (hi : s.requests[i]? = some (.reading r prevId parent rest))
    (hm : backedMove gw backend? s (.reading r prevId parent rest) m = some (x', store, objects))
    (f' : ℕ → Option Exn) : ∃ f, ∀ t, Simulates backend? R f s t →
      Simulates backend? R f' ⟨store, objects, s.drawn, s.now, s.requests.set i x'⟩ t := by
  have hheld {f : ℕ → Option Exn} {t : State} (h : Simulates backend? R f s t) :
      ∀ row ∈ rest.chain, Held t.cold row := h.held r prevId parent rest (List.mem_of_getElem? hi)
  cases m with
  | read =>
    simp only [backedMove] at hm
    cases hstep : rest.step backend? s.objects with
    | mk answer objects' =>
      rw [hstep] at hm
      cases answer with
      | error exn =>
        cases hm
        refine ⟨Function.update f' i (some exn),fun t h => ?_⟩
        have hcold := (h.cold.reading hb (hheld h)).1
        rw [hstep] at hcold
        refine h.stay hi (fun j hj => (Function.update_of_ne hj _ _).symm) hcold ?_ (by rintro _ _ _ _ ⟨⟩)
        rw [Function.update_self]
        rfl
      | ok rest' =>
        cases hm
        by_cases hdone : rest'.chain = []
        · refine ⟨Function.update f' i none,fun t h => ?_⟩
          obtain ⟨hcold,hanswer⟩ := h.cold.reading hb (hheld h)
          rw [hstep] at hcold hanswer
          obtain ⟨hresult,-⟩ := hanswer rest' rfl
          have hread : BackedRequest.readOn r prevId parent rest' =
              .plain (r.resolveWith prevId parent (.ok rest'.messages)) := if_pos hdone
          rw [hread]
          refine h.stay hi (fun j hj => (Function.update_of_ne hj _ _).symm) hcold ?_ (by rintro _ _ _ _ ⟨⟩)
          rw [Function.update_self]
          simp only [BackedRequest.shown, Option.elim_none, ← hresult, Reconstruction.result_of_done hdone]
        · refine ⟨f',fun t h => ?_⟩
          obtain ⟨hcold,hanswer⟩ := h.cold.reading hb (hheld h)
          rw [hstep] at hcold hanswer
          obtain ⟨hresult,hsub⟩ := hanswer rest' rfl
          have hread : BackedRequest.readOn r prevId parent rest' = .reading r prevId parent rest' := if_neg hdone
          rw [hread]
          refine h.stay hi (fun _ _ => rfl) hcold ?_ ?_
          · simp only [BackedRequest.shown, hresult]
          · intro r' prevId' parent' rest'' heq row hrow
            cases heq
            exact hheld h row (hsub hrow)
  | _ => simp only [backedMove, reduceCtorEq] at hm

theorem simulates_plain (hi : s.requests[i]? = some (.plain r)) (hg : Given (.move i m))
    (hm : backedMove gw backend? s (.plain r) m = some (x', store, objects)) (ht : Inv t)
    (h : Simulates backend? R f s t) : ∃ t', Reach (step gw) (fun _ a => Given a) t t' ∧
      Simulates backend? R f ⟨store, objects, s.drawn, s.now, s.requests.set i x'⟩ t' := by
  simp only [backedMove] at hm
  split at hm
  · next prevId parent walk hphase =>
    by_cases hdone : (walkStep s.store walk).next? = none
    · rw [if_pos hdone] at hm
      cases hm
      exact simulates_walked hi hphase hdone ht h
    · rw [if_neg hdone] at hm
      cases hm
      have hread : move gw t r .read = some ((BackedRequest.plain
          { r with phase := .walking prevId parent (walkStep s.store walk) }).shown t.cold (f i), s.store, t.cold) := by
        simp only [move, hphase, h.store, if_neg hdone]
        rfl
      obtain ⟨hstep,hsim⟩ := h.both hi hread h.cold (by rintro _ _ _ _ ⟨⟩)
      exact ⟨_,reach_one hstep trivial,hsim⟩
  · cases hm
  · next m _ _ hanswered hwalking =>
    obtain ⟨⟨r',store',cold'⟩,hbare,he⟩ := Option.map_eq_some_iff.mp hm
    cases he
    have hmove : move gw t r m = some ((BackedRequest.plain r').shown t.cold (f i), store', t.cold) := by
      rw [move_bare hanswered (fun hread prevId parent walk hp => hwalking prevId parent walk hp hread), h.store,
        h.now, hbare]
      rfl
    obtain ⟨hstep,hsim⟩ := h.both hi hmove h.cold (by rintro _ _ _ _ ⟨⟩)
    exact ⟨_,reach_one hstep hg,hsim⟩

theorem simulates_record (hb : ∀ b, backend? = some b → b.Refines remote R) {newSessionId uuid : String}
    (hi : s.requests[i]? = some (.plain r)) (hu : uuid ∉ s.drawn) (hne : uuid ≠ "")
    (hm : backedRecord gw backend? s r newSessionId uuid = some (r', objects)) (ht : t.Loadable)
    (h : Simulates backend? R f s t) : ∃ t', Reach (step gw) (fun _ a => Given a) t t' ∧
      Simulates backend? R f ⟨s.store, objects, uuid :: s.drawn, s.now, s.requests.set i (.plain r')⟩ t' := by
  have hrequest := h.request hi
  unfold backedRecord at hm
  split at hm
  · next resolved response hphase =>
    have hpayload : (ColdOp.put uuid (recordCall r.turn r.newId resolved response).coldPayload).Storable := by
      have hr := ht.requests r (List.mem_of_getElem? hrequest)
      exact ⟨hne,loadable_coldPayload resolved hr (hr.stage _ _ hphase)⟩
    by_cases hflag : r.turn.storeFlag.truthy = true
    · rw [if_pos hflag] at hm
      cases hlast : gw.recorder.ttlAt s.now with
      | error x =>
        rw [hlast] at hm
        cases hm
        have hmove : move gw t r (.record newSessionId (.ok uuid)) = some ((BackedRequest.plain
            (r.settle resolved (.error (.python x)) .calling)).shown t.cold (f i), s.store, t.cold) := by
          simp only [move, hphase, if_pos hflag, h.store, h.now, hlast]
          rfl
        obtain ⟨hstep,hsim⟩ := h.both hi hmove (h.cold.drawn hb uuid) (by rintro _ _ _ _ ⟨⟩)
        exact ⟨_,reach_one hstep trivial,hsim⟩
      | ok ttlAt =>
        rw [hlast] at hm
        cases hm
        obtain ⟨put,cold,hfresh,hprep,hcold⟩ :=
          h.cold.prepare hb hu hpayload gw.recorder s.now newSessionId
        have hmove : move gw t r (.record newSessionId put) = some ((BackedRequest.plain { r with
            phase := .resolved resolved (.inserting response (gw.recorder.prepareOver backend? s.objects s.now
              newSessionId uuid (recordCall r.turn r.newId resolved response)).1) }).shown cold (f i),
              s.store, cold) := by
          simp only [move, hphase, if_pos hflag, if_pos hfresh, h.store, h.now, hlast, hprep]
          rfl
        obtain ⟨hstep,hsim⟩ := h.both hi hmove hcold (by rintro _ _ _ _ ⟨⟩)
        exact ⟨_,reach_one hstep trivial,hsim⟩
    · rw [if_neg hflag] at hm
      cases hm
      have hmove : move gw t r (.record newSessionId (.ok uuid)) = some ((BackedRequest.plain
          (r.settle resolved (.ok ()) (.finished response none))).shown t.cold (f i), s.store, t.cold) := by
        simp only [move, hphase, if_neg hflag, h.store]
        rfl
      obtain ⟨hstep,hsim⟩ := h.both hi hmove (h.cold.drawn hb uuid) (by rintro _ _ _ _ ⟨⟩)
      exact ⟨_,reach_one hstep trivial,hsim⟩
  · cases hm

theorem shown_newId (x : BackedRequest) (cold : Option ColdStorage) (told : Option Exn) :
    (x.shown cold told).newId = x.request.newId := by
  cases x with
  | plain r => rfl
  | reading r prevId parent rest =>
    simp only [BackedRequest.shown, BackedRequest.request]
    cases told.elim (rest.result cold) .error <;> rfl

theorem Simulates.newIds (h : Simulates backend? R f s t) :
    t.requests.map Request.newId = s.requests.map (fun x => x.request.newId) := by
  refine List.ext_getElem? fun i => ?_
  rw [List.getElem?_map, List.getElem?_map, h.requests i, Option.map_map]
  cases s.requests[i]? with
  | none => rfl
  | some x => exact congrArg some (shown_newId x _ _)

theorem Simulates.receive (h : Simulates backend? R f s t) (r : Request) : Simulates backend? R f
    { s with requests := s.requests ++ [.plain r] } { t with requests := t.requests ++ [r] } := by
  have hlen : t.requests.length = s.requests.length := by
    simpa using congrArg List.length h.newIds
  refine ⟨⟨h.store,h.now,fun i => ?_⟩,h.cold,?_⟩
  · dsimp only
    rw [List.getElem?_append, List.getElem?_append, hlen]
    split
    · exact h.requests i
    · cases i - s.requests.length <;> rfl
  · intro r' prevId parent rest hm
    rcases List.mem_append.mp hm with hm | hm
    · exact h.held r' prevId parent rest hm
    · cases List.mem_singleton.mp hm

theorem simulates_step (hb : ∀ b, backend? = some b → b.Refines remote R) {a : BackedAction} (hg : a.Given)
    (hs : backedStep gw backend? s a = some s') (f' : ℕ → Option Exn) :
    ∃ f, ∀ t, Inv t → t.Loadable → Simulates backend? R f s t →
      ∃ t', Reach (step gw) (fun _ a => Given a) t t' ∧ Simulates backend? R f' s' t' := by
  cases a with
  | receive payload uuid =>
    refine ⟨f',fun t _ _ h => ?_⟩
    simp only [backedStep] at hs
    split at hs
    · cases hs
    · next hfresh =>
      rw [← h.newIds] at hfresh
      split at hs <;> cases hs
      · exact ⟨t,.refl,h⟩
      · next turn hr =>
        have hstep : step gw t (.receive payload uuid) =
            some { t with requests := t.requests ++ [.start payload uuid turn] } := by
          simp only [step, if_neg hfresh, hr]
        exact ⟨_,reach_one hstep hg,h.receive _⟩
  | move i m =>
    obtain ⟨x,hx,hs⟩ := Option.bind_eq_some_iff.mp hs
    obtain ⟨⟨x',store,objects⟩,hm,hs⟩ := Option.bind_eq_some_iff.mp hs
    cases hs
    cases x with
    | plain r => exact ⟨f',fun t ht _ h => simulates_plain hx hg hm ht h⟩
    | reading r prevId parent rest =>
      obtain ⟨f,hf⟩ := simulates_read hb hx hm f'
      exact ⟨f,fun t _ _ h => ⟨t,.refl,hf t h⟩⟩
  | record i newSessionId uuid =>
    refine ⟨f',fun t _ ht h => ?_⟩
    simp only [backedStep] at hs
    split at hs
    · next r hr =>
      split at hs
      · cases hs
      · next hu =>
        obtain ⟨⟨r',objects⟩,hm,hs⟩ := Option.map_eq_some_iff.mp hs
        cases hs
        exact simulates_record hb hr hu hg hm ht h
    · cases hs
  | tick d =>
    cases hs
    refine ⟨f',fun t _ _ h => ⟨{ t with now := t.now + d },reach_one (a := .tick d) rfl trivial,?_⟩⟩
    exact ⟨⟨h.store,congrArg (· + (d : Time)) h.now,h.requests⟩,h.cold,h.held⟩
  | deleteExpired asOf =>
    cases hs
    refine ⟨f',fun t _ _ h => ⟨{ t with store := t.store.deleteExpired asOf },
      reach_one (a := .deleteExpired asOf) rfl trivial,?_⟩⟩
    exact ⟨⟨congrArg (·.deleteExpired asOf) h.store,h.now,h.requests⟩,h.cold,h.held⟩

end Simulation

structure Backs {σ : Type} (backend? : Option (Backend σ)) (remote : Bool)
    (R : ColdStorage → List String → σ → Prop) (cold : Option ColdStorage) (objects : σ) : Prop where
  refines : ∀ b, backend? = some b → b.Refines remote R
  start : Stands R backend? cold [] objects
  loadable : ∀ objects, cold = some objects → objects.Loadable

section Reached

variable {σ : Type} {gw : Gateway} {backend? : Option (Backend σ)} {remote : Bool}
  {R : ColdStorage → List String → σ → Prop} {cold : Option ColdStorage} {objects : σ} {now : Time}
  {s s' : BackedState σ} {a : BackedAction}

theorem backend_simulates (hback : Backs backend? remote R cold objects)
    (h : Reach (backedStep gw backend?) (fun _ a => a.Given) (.initial objects now) s)
    (foretold : ℕ → Option Exn) :
    ∃ t, Reach (step gw) (fun _ a => Given a) (.initial cold now) t ∧ Simulates backend? R foretold s t := by
  have hinitial : ∀ f, Simulates backend? R f (.initial objects now) (.initial cold now) :=
    fun f => ⟨⟨rfl,rfl,fun i => rfl⟩,hback.start,fun _ _ _ _ hm => by cases hm⟩
  refine h.foretell hinitial (fun s a s' f' hg hs => ?_) foretold
  obtain ⟨f,hf⟩ := simulates_step hback.refines hg hs f'
  exact ⟨f,fun t ht hsim => hf t (reach_inv ht) (reach_loadable hback.loadable ht) hsim⟩

theorem backend_step_extends (hback : Backs backend? remote R cold objects)
    (h : Reach (backedStep gw backend?) (fun _ a => a.Given) (.initial objects now) s) (hg : a.Given)
    (hs : backedStep gw backend? s a = some s') (foretold : ℕ → Option Exn) :
    ∃ f t t', Inv t ∧ Shows f s t ∧ Extends t t' ∧ Shows foretold s' t' := by
  obtain ⟨f,hf⟩ := simulates_step hback.refines hg hs foretold
  obtain ⟨t,ht,hsim⟩ := backend_simulates hback h f
  obtain ⟨t',hrun,hsim'⟩ := hf t (reach_inv ht) (reach_loadable hback.loadable ht) hsim
  exact ⟨f,t,t',reach_inv ht,hsim.toShows,(reach_extends (reach_inv ht) hrun).2,hsim'.toShows⟩

end Reached

theorem built_backs {σ : Type} {client : S3Client σ} {stored : σ → String → String → Option ByteArray}
    {enabled : Bool} {name : String} {url : Option String} {c : Option ColdBackend} (say : PyError → String)
    (hb : buildColdStorage enabled name url = .ok c) (hc : client.Consistent stored) (bucket : σ) :
    ∃ remote R, Backs (c.map (fun c => c.backend client say)) remote R
      (if enabled then some .empty else none) (.init, bucket) := by
  have hempty : ∀ keyOf stored, Kept .empty [] keyOf stored := by
    intro keyOf stored key payload hk
    simp [ColdStorage.empty] at hk
  have hloadable : ∀ objects, some ColdStorage.empty = some objects → objects.Loadable := by
    rintro objects ⟨⟩ key payload hk
    cases hk
  cases c with
  | none =>
    rw [buildColdStorage_none hb, if_neg Bool.false_ne_true]
    exact ⟨false,fun _ _ _ => True,by rintro b ⟨⟩,.absent,by rintro objects ⟨⟩⟩
  | some c =>
    rw [(buildColdStorage_some hb).1, if_pos rfl]
    have hpresent {remote : Bool} {R : ColdStorage → List String → InMemoryColdStorage × σ → Prop}
        (hrefines : (c.backend client say).Refines remote R) (hstart : R .empty [] (.init, bucket)) :
        Backs (some (c.backend client say)) remote R (some .empty) (.init, bucket) :=
      ⟨by rintro b ⟨⟩; exact hrefines,.present hstart,hloadable⟩
    cases c with
    | inmem => exact ⟨_,_,hpresent inmem_refines ⟨hempty _ _,fun _ _ => rfl⟩⟩
    | s3 storage => exact ⟨_,_,hpresent (s3_refines hc storage) (hempty _ _)⟩

theorem backed_gateway_refines {σ : Type} {gw : Gateway} {client : S3Client σ}
    {stored : σ → String → String → Option ByteArray} {name : String} {url : Option String}
    {c : Option ColdBackend} (say : PyError → String)
    (hb : buildColdStorage gw.config.cold.enabled name url = .ok c) (hc : client.Consistent stored)
    {bucket : σ} {now : Time} {s : BackedState (InMemoryColdStorage × σ)}
    (h : Reach (backedStep gw (c.map (fun c => c.backend client say))) (fun _ a => a.Given)
      (.initial (.init, bucket) now) s) (foretold : ℕ → Option Exn) :
    ∃ t, Reach (step gw) (fun _ a => Given a)
      (.initial (if gw.config.cold.enabled then some .empty else none) now) t ∧ Shows foretold s t := by
  obtain ⟨remote,R,hback⟩ := built_backs say hb hc bucket
  obtain ⟨t,ht,hsim⟩ := backend_simulates hback h foretold
  exact ⟨t,ht,hsim.toShows⟩

def overBucket : Gateway := { config := { cold := { enabled := true, thresholdBytes := 0 } } }

def overBucketRun : List BackedAction :=
  [.receive opening "1", .move 0 (.respond (.ok (.dict .empty))), .record 0 "session" "u1", .move 0 (.insert none),
    .receive (sequel "resp_1" "how are you?") "2", .move 1 .read, .move 1 .read]

set_option maxRecDepth 4000 in
theorem overBucketRun_runs : (runSteps (backedStep overBucket
    (some ((ColdBackend.s3 ⟨"gateway", "turns/"⟩).backend smallBucket (fun _ => ""))))
    (.initial (.init, .empty) 0) overBucketRun).isSome = true := by rfl

def overBucketState : BackedState (InMemoryColdStorage × Dict (String × String) ByteArray) :=
  (runSteps (backedStep overBucket
    (some ((ColdBackend.s3 ⟨"gateway", "turns/"⟩).backend smallBucket (fun _ => ""))))
    (.initial (.init, .empty) 0) overBucketRun).get overBucketRun_runs

theorem overBucket_built : buildColdStorage overBucket.config.cold.enabled "s3" (some "s3://gateway/turns") =
    .ok (some (.s3 ⟨"gateway", "turns/"⟩)) := by
  decide

theorem overBucketRun_given : ∀ a ∈ overBucketRun, a.Given := by
  have hopening : (Json.obj opening).Loadable := Json.loadable_ofEntries (by simp [Json.Loadable])
  have hsequel : (Json.obj (sequel "resp_1" "how are you?")).Loadable :=
    Json.loadable_ofEntries (by simp [Json.Loadable])
  have hanswer : (Json.obj (.empty : JsonDict)).Loadable := ⟨List.nodup_nil,trivial⟩
  simp [overBucketRun, BackedAction.Given, Given, eventToDict, hopening, hsequel, hanswer]

theorem backed_gateway_refines_reading :
    ∃ t, Reach (step overBucket) (fun _ a => Given a) (.initial (some .empty) 0) t ∧
      Shows (fun _ => some (.gateway (.coldStorageUnavailable "S3 get failed: SlowDown"))) overBucketState t := by
  exact backed_gateway_refines (fun _ => "") overBucket_built smallBucket_consistent
    (reach_of_runSteps overBucketRun (fun _ => overBucketRun_given) (Option.some_get overBucketRun_runs).symm) _

end ResponsesGateway
