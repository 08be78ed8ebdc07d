import ResponsesGateway.Api.Backed
import Mathlib.Data.Fintype.EquivFin

namespace ResponsesGateway

open SessionResolver

namespace Stage

def rank : Stage → ℕ
  | calling => 0
  | streaming _ => 1
  | answered _ => 2
  | inserting _ _ => 3
  | finished _ _ => 4
  | failed _ => 4

end Stage

def Move.counted : Move → Bool
  | .event _ => false
  | _ => true

def Request.Done (r : Request) : Prop :=
  match r.phase with
  | .unresolved _ => True
  | .resolved _ (.finished _ _) => True
  | .resolved _ (.failed _) => True
  | _ => False

/-- The reads of payloads still to come, for the rows that `counts` picks. -/
def SessionResolver.Reconstruction.left (counts : SessionRecord → Bool) (w : Reconstruction) : ℕ :=
  2 * w.chain.countP counts - if w.input?.isSome && w.chain.head?.any counts then 1 else 0

namespace BackedRequest

def row? : BackedRequest → Option SessionRecord
  | plain r => r.row?
  | reading .. => none

def Done : BackedRequest → Prop
  | plain r => r.Done
  | reading .. => False

def counted (x : BackedRequest) (counts : SessionRecord → Bool) (m : Move) : Bool :=
  match x with
  | plain _ => m.counted
  | reading _ _ _ rest => rest.chain.head?.any counts

def Within (x : BackedRequest) (counts : SessionRecord → Bool) (rows : List SessionRecord) (count : ℕ) : Prop :=
  match x with
  | reading _ _ _ rest =>
      rest.chain ≠ [] ∧ count + rest.left counts ≤ rows.length + 1 + 2 * rows.countP counts
  | plain r =>
      match r.phase with
      | .resolving _ => count = 0
      | .walking _ _ walk => count = walk.chain.length + 1 ∧ walk.cur ≠ none
      | .unresolved _ => count ≤ rows.length + 1 + 2 * rows.countP counts
      | .resolved _ stage => count ≤ rows.length + 1 + 2 * rows.countP counts + stage.rank

end BackedRequest

namespace BackedState

variable {σ : Type}

def recorded (s : BackedState σ) (id : String) : Option SessionRecord :=
  (s.requests.find? (fun x => x.request.newId = id)).bind BackedRequest.row?

def Line (s : BackedState σ) (r : Request) (rows : List SessionRecord) : Prop :=
  rows = [] ∨ ∃ prevId, namedId r.turn.payload = .ok (some prevId) ∧
    Lineage s.recorded SessionRecord.parent prevId rows

/-- A piece of the request at `i`, other than an event of its stream or the read of a payload that does not
count. -/
def own (s : BackedState σ) (counts : SessionRecord → Bool) (i : ℕ) : BackedAction → Bool
  | .move j m => j == i && s.requests[i]?.any (fun x => x.counted counts m)
  | .record j _ _ => j == i
  | _ => false

end BackedState

def pieces {σ : Type} (gw : Gateway) (backend? : Option (Backend σ)) (counts : SessionRecord → Bool) (i : ℕ) :
    BackedState σ → List BackedAction → ℕ
  | _, [] => 0
  | s, a :: as => (if s.own counts i a then 1 else 0) +
      (backedStep gw backend? s a).elim 0 (fun s' => pieces gw backend? counts i s' as)

theorem pieces_concat {σ : Type} {gw : Gateway} {backend? : Option (Backend σ)} (counts : SessionRecord → Bool)
    (i : ℕ) {s t : BackedState σ} {as : List BackedAction} (a : BackedAction)
    (h : runSteps (backedStep gw backend?) s as = some t) : pieces gw backend? counts i s (as ++ [a]) =
      pieces gw backend? counts i s as + if t.own counts i a then 1 else 0 := by
  induction as generalizing s with
  | nil =>
    cases h
    simp only [List.nil_append, pieces, Nat.zero_add]
    cases backedStep gw backend? t a <;> rfl
  | cons b as ih =>
    obtain ⟨s',hs,hrest⟩ := Option.bind_eq_some_iff.mp h
    simp only [List.cons_append, pieces, hs, Option.elim_some, ih hrest]
    omega

section Reading

variable {σ : Type} {backend? : Option (Backend σ)} {s : σ} {w w' : Reconstruction}

theorem left_start (counts : SessionRecord → Bool) (chain : List SessionRecord) :
    (Reconstruction.start chain).left counts = 2 * chain.countP counts := by
  simp [Reconstruction.left, Reconstruction.start]

theorem left_unread (counts : SessionRecord → Bool) (row : SessionRecord) (chain : List SessionRecord)
    (messages : List Json) : Reconstruction.left counts ⟨row :: chain, none, messages⟩ =
      2 * chain.countP counts + 2 * if counts row then 1 else 0 := by
  simp only [Reconstruction.left, List.countP_cons, Option.isSome_none, Bool.false_and, Bool.false_eq_true,
    if_false, Nat.sub_zero, Nat.mul_add]

theorem left_halfread (counts : SessionRecord → Bool) (row : SessionRecord) (chain : List SessionRecord)
    (input : JsonDict) (messages : List Json) : Reconstruction.left counts ⟨row :: chain, some input, messages⟩ =
      2 * chain.countP counts + if counts row then 1 else 0 := by
  simp only [Reconstruction.left, List.countP_cons, Option.isSome_some, Bool.true_and, List.head?_cons,
    Option.any_some]
  split <;> omega

theorem head_le_left (counts : SessionRecord → Bool) (w : Reconstruction) :
    (if w.chain.head?.any counts then 1 else 0) ≤ w.left counts := by
  obtain ⟨chain,input?,messages⟩ := w
  cases chain with
  | nil => exact Nat.zero_le _
  | cons row chain =>
    rw [List.head?_cons, Option.any_some]
    cases input? with
    | none => rw [left_unread]; omega
    | some input => rw [left_halfread]; omega

theorem left_step (counts : SessionRecord → Bool) (h : (w.step backend? s).1 = .ok w') :
    w'.left counts + (if w.chain.head?.any counts then 1 else 0) = w.left counts := by
  obtain ⟨chain,input?,messages⟩ := w
  cases chain with
  | nil =>
    cases h
    rfl
  | cons row chain =>
    rw [List.head?_cons, Option.any_some]
    cases input? with
    | none =>
      simp only [Reconstruction.step] at h
      cases hp : (payloadOver backend? s row "input").1 with
      | error exn => rw [hp] at h; cases h
      | ok input =>
        rw [hp] at h
        cases h
        rw [left_unread, left_halfread]
        omega
    | some input =>
      obtain ⟨output,-,h⟩ := Except.bind_eq_ok_iff.mp h
      obtain ⟨items,-,h⟩ := Except.bind_eq_ok_iff.mp h
      cases h
      rw [left_halfread, ← left_start]
      rfl

end Reading

section Walking

variable {σ : Type} {f : ℕ → Option Exn} {s s' : BackedState σ} {t t' : State} {r r' : Request}
  {walk : ChainWalk} {prevId : String} {parent : SessionRecord} {rows : List SessionRecord}

theorem shown_row? (x : BackedRequest) (cold : Option ColdStorage) (told : Option Exn) :
    (x.shown cold told).row? = x.row? := by
  cases x with
  | plain r => rfl
  | reading r prevId parent rest =>
    simp only [BackedRequest.shown, BackedRequest.row?]
    cases told.elim (rest.result cold) .error <;> rfl

theorem Shows.recorded (h : Shows f s t) : t.recorded = s.recorded := by
  have hrequests := h.requests
  funext id
  unfold State.recorded BackedState.recorded
  generalize t.requests = xs at hrequests
  generalize s.requests = ys at hrequests
  generalize f = g at hrequests
  induction ys generalizing xs g with
  | nil =>
    cases xs with
    | nil => rfl
    | cons x xs => cases hrequests 0
  | cons y ys ih =>
    cases xs with
    | nil => cases hrequests 0
    | cons x xs =>
      obtain rfl : x = y.shown t.cold (g 0) := Option.some.inj (hrequests 0)
      simp only [List.find?_cons, shown_newId]
      split
      · exact shown_row? y t.cold (g 0)
      · exact ih xs (fun i => g (i + 1)) (fun i => hrequests (i + 1))

theorem BackedState.Line.mono (he : Extends t t') (h : Shows f s t) {f' : ℕ → Option Exn} (h' : Shows f' s' t')
    (hline : s.Line r rows) : s'.Line r rows := by
  rcases hline with rfl | ⟨prevId,hn,hl⟩
  · exact .inl rfl
  · refine .inr ⟨prevId,hn,?_⟩
    rw [← h.recorded] at hl
    rw [← h'.recorded]
    exact hl.mono he.recorded

theorem BackedState.Line.turn (hline : s.Line r rows) (h : r'.turn = r.turn) : s.Line r' rows := by
  unfold BackedState.Line at hline ⊢
  rwa [h]

theorem walk_line (hi : Inv t) (h : Shows f s t)
    (hok : PhaseOk t r.newId r.turn (.walking prevId parent walk)) (hcur : walk.cur ≠ none) :
    ∃ rows, s.Line r rows ∧ walk.chain.length < rows.length ∧
      (walkStep t.store walk).chain.reverse <:+ rows := by
  obtain ⟨hn,-,-,hw⟩ := hok
  obtain ⟨pre,hl,hread⟩ := hw.lineage
  obtain ⟨pre',hl',-⟩ := (walkStep_follows hi hw).lineage
  refine ⟨_,.inr ⟨prevId,hn,h.recorded ▸ hl⟩,?_,hl'.unique hl ▸ List.suffix_append _ _⟩
  obtain ⟨c,hc⟩ := Option.ne_none_iff_exists'.mp hcur
  rw [hc] at hread
  obtain ⟨row,hlast,-⟩ := hread
  have hpos := List.length_pos_of_mem (List.mem_of_getLast? hlast)
  simp only [List.length_append, List.length_reverse]
  omega

theorem walkStep_length (store : SessionStore) (h : (walkStep store walk).next? ≠ none) :
    (walkStep store walk).chain.length = walk.chain.length + 1 ∧ (walkStep store walk).cur ≠ none := by
  have hcur : (walkStep store walk).cur ≠ none := by
    intro hc
    exact h (by rw [Walk.next?, hc]; rfl)
  refine ⟨?_,hcur⟩
  unfold walkStep at h ⊢
  cases hn : walk.next? with
  | none => rw [Walk.step_of_done hn] at h; exact absurd hn h
  | some c =>
    cases hl : store.getById c with
    | none => rw [Walk.step_of_missing hn hl] at h; exact absurd Walk.next?_of_missing h
    | some row => rw [Walk.step_of_found hn hl]; simp

end Walking

section Pieces

variable {σ : Type} {gw : Gateway} {backend? : Option (Backend σ)} {f : ℕ → Option Exn} {s s' : BackedState σ}
  {t : State} {r r' : Request} {x x' : BackedRequest} {m : Move} {store : SessionStore}
  {cold : Option ColdStorage} {objects : σ} {prevId : String} {parent : SessionRecord} {rest : Reconstruction}
  {rows : List SessionRecord} {counts : SessionRecord → Bool} {spent : (SessionRecord → Bool) → ℕ} {count i : ℕ}

theorem move_rank {resolved : ResolvedRequest} {stage : Stage} (hp : r.phase = .resolved resolved stage)
    (h : move gw t r m = some (r', store, cold)) : r'.turn = r.turn ∧ ∃ stage', r'.phase = .resolved resolved stage' ∧
      stage.rank + (if m.counted then 1 else 0) ≤ stage'.rank := by
  unfold move at h
  rw [hp] at h
  split at h
  case h_5 resolved answer hphase =>
    cases hphase
    split at h
    · cases h
    · dsimp only at h
      split at h <;> cases h <;> exact ⟨rfl,_,rfl,by simp [Stage.rank, Move.counted]⟩
  case h_6 resolved hphase =>
    cases hphase
    split at h
    · split at h <;> cases h <;> exact ⟨rfl,_,rfl,by simp [Stage.rank, Move.counted]⟩
    · cases h
  case h_7 resolved bridge event hphase =>
    cases hphase
    dsimp only at h
    split at h <;> cases h <;> exact ⟨rfl,_,rfl,by simp [Stage.rank, Move.counted]⟩
  case h_8 resolved bridge ending hphase =>
    cases hphase
    split at h <;> cases h <;> exact ⟨rfl,_,rfl,by simp [Stage.rank, Move.counted]⟩
  case h_9 resolved response newSessionId put hphase =>
    cases hphase
    split at h
    · split at h
      · cases h
        exact ⟨rfl,_,rfl,by simp [Stage.rank, Move.counted]⟩
      · split at h
        · cases h
          exact ⟨rfl,_,rfl,by simp [Stage.rank, Move.counted]⟩
        · cases h
    · cases h
      exact ⟨rfl,_,rfl,by simp [Stage.rank, Move.counted]⟩
  case h_10 resolved response row error hphase =>
    cases hphase
    split at h <;> cases h <;> exact ⟨rfl,_,rfl,by simp [Stage.rank, Move.counted]⟩
  case h_11 => cases h
  all_goals contradiction

theorem record_rank {newSessionId uuid : String} (h : backedRecord gw backend? s r newSessionId uuid = some (r', objects)) :
    r'.turn = r.turn ∧ ∃ resolved response stage, r.phase = .resolved resolved (.answered response) ∧
      r'.phase = .resolved resolved stage ∧ 3 ≤ stage.rank := by
  unfold backedRecord at h
  split at h
  · next resolved response hphase =>
    split at h
    · split at h <;> cases h <;> exact ⟨rfl,resolved,response,_,hphase,rfl,by simp [Stage.rank]⟩
    · cases h
      exact ⟨rfl,resolved,response,_,hphase,rfl,by simp [Stage.rank]⟩
  · cases h

theorem readOn_turn : (BackedRequest.readOn r prevId parent rest).request.turn = r.turn := by
  unfold BackedRequest.readOn
  split <;> rfl

theorem readOn_within (h : count + rest.left counts ≤ rows.length + 1 + 2 * rows.countP counts) :
    (BackedRequest.readOn r prevId parent rest).Within counts rows count := by
  unfold BackedRequest.readOn
  split
  · simp only [BackedRequest.Within, Request.resolveWith, Stage.rank]
    omega
  · next hmore => exact ⟨hmore,h⟩

theorem walk_within {walk : ChainWalk} (hp : r.phase = .walking prevId parent walk)
    (hok : PhaseOk t r.newId r.turn r.phase) (hi : Inv t) (h : Shows f s t) (hcur : walk.cur ≠ none)
    (hm : backedMove gw backend? s (.plain r) m = some (x', store, objects)) :
    ∃ rows, s.Line x'.request rows ∧
      ∀ counts, x'.Within counts rows (walk.chain.length + 1 + if m.counted then 1 else 0) := by
  rw [hp] at hok
  obtain ⟨rows,hline,hlt,hsuffix⟩ := walk_line hi h hok hcur
  rw [h.store] at hsuffix
  refine ⟨rows,?_⟩
  simp only [backedMove] at hm
  split at hm
  · next hphase =>
    cases hp.symm.trans hphase
    by_cases hdone : (walkStep s.store walk).next? = none
    · rw [if_pos hdone] at hm
      cases hm
      refine ⟨hline.turn readOn_turn,fun counts => readOn_within ?_⟩
      rw [left_start]
      have hle := hsuffix.sublist.countP_le (p := counts)
      simp only [Move.counted, if_true]
      omega
    · rw [if_neg hdone] at hm
      cases hm
      obtain ⟨hlen,hcur'⟩ := walkStep_length s.store hdone
      exact ⟨hline.turn rfl,fun counts => ⟨by simp [hlen, Move.counted],hcur'⟩⟩
  · cases hm
  · next hread =>
    obtain ⟨⟨r',store',cold⟩,hbare,he⟩ := Option.map_eq_some_iff.mp hm
    cases he
    unfold move at hbare
    rw [hp] at hbare
    split at hbare
    case h_2 => exact (hread _ _ _ hp rfl).elim
    case h_4 =>
      cases hbare
      refine ⟨hline.turn rfl,fun counts => ?_⟩
      simp only [BackedRequest.Within, Move.counted, if_true]
      omega
    case h_11 => cases hbare
    all_goals contradiction

theorem counted_reading : (BackedRequest.reading r prevId parent rest).counted counts m = rest.chain.head?.any counts :=
  rfl

theorem reading_within (hline : s.Line r rows)
    (hw : ∀ counts, (BackedRequest.reading r prevId parent rest).Within counts rows (spent counts))
    (hm : backedMove gw backend? s (.reading r prevId parent rest) m = some (x', store, objects)) :
    s.Line x'.request rows ∧ ∀ counts, x'.Within counts rows
      (spent counts + if (BackedRequest.reading r prevId parent rest).counted counts m then 1 else 0) := by
  cases m with
  | read =>
    simp only [backedMove] at hm
    cases hread : rest.step backend? s.objects with
    | mk answer objects' =>
      rw [hread] at hm
      cases answer with
      | error exn =>
        cases hm
        refine ⟨hline.turn rfl,fun counts => ?_⟩
        have hle := head_le_left counts rest
        have hwithin := (hw counts).2
        rw [counted_reading]
        simp only [BackedRequest.Within]
        omega
      | ok rest' =>
        cases hm
        refine ⟨hline.turn readOn_turn,fun counts => readOn_within ?_⟩
        have hleft := left_step counts (congrArg Prod.fst hread)
        have hwithin := (hw counts).2
        rw [counted_reading]
        omega
  | _ => simp only [backedMove, reduceCtorEq] at hm

theorem phaseOk_shown (hi : Inv t) (h : Shows f s t) (hx : s.requests[i]? = some (.plain r)) :
    PhaseOk t r.newId r.turn r.phase := by
  have hr : t.requests[i]? = some r := by
    rw [h.requests i, hx]
    rfl
  exact hi.phases r (List.mem_of_getElem? hr)

theorem plain_within (hi : Inv t) (h : Shows f s t) (hx : s.requests[i]? = some (.plain r)) (hline : s.Line r rows)
    (hw : ∀ counts, (BackedRequest.plain r).Within counts rows (spent counts))
    (hm : backedMove gw backend? s (.plain r) m = some (x', store, objects)) :
    ∃ rows', s.Line x'.request rows' ∧
      ∀ counts, x'.Within counts rows' (spent counts + if m.counted then 1 else 0) := by
  have hok := phaseOk_shown hi h hx
  cases hp : r.phase with
  | walking prevId parent walk =>
    simp only [BackedRequest.Within, hp] at hw
    obtain ⟨rows',hline',hw'⟩ := walk_within hp hok hi h (hw (fun _ => true)).2 hm
    exact ⟨rows',hline',fun counts => (hw counts).1 ▸ hw' counts⟩
  | resolving prevId =>
    simp only [BackedRequest.Within, hp] at hw
    simp only [backedMove, hp] at hm
    obtain ⟨⟨r',store',cold⟩,hbare,he⟩ := Option.map_eq_some_iff.mp hm
    cases he
    unfold move at hbare
    rw [hp] at hbare
    split at hbare
    case h_1 =>
      split at hbare <;> cases hbare <;> refine ⟨rows,hline.turn rfl,fun counts => ?_⟩ <;>
        simp [BackedRequest.Within, hw, Move.counted, Walk.start]
      omega
    case h_3 =>
      cases hbare
      refine ⟨rows,hline.turn rfl,fun counts => ?_⟩
      simp only [BackedRequest.Within, hw, Move.counted, if_true]
      omega
    case h_11 => cases hbare
    all_goals contradiction
  | unresolved exn =>
    simp only [backedMove, hp] at hm
    obtain ⟨p,hbare,-⟩ := Option.map_eq_some_iff.mp hm
    simp [move, hp] at hbare
  | resolved resolved stage =>
    simp only [BackedRequest.Within, hp] at hw
    have hbare : ∃ p, move gw ⟨s.store, none, s.now, []⟩ r m = some p ∧ x' = .plain p.1 := by
      simp only [backedMove, hp] at hm
      cases stage <;> first
        | cases hm
        | (obtain ⟨p,hbare,he⟩ := Option.map_eq_some_iff.mp hm
           cases he
           exact ⟨p,hbare,rfl⟩)
    obtain ⟨⟨r',store',cold⟩,hbare,rfl⟩ := hbare
    obtain ⟨hturn,stage',hp',hrank⟩ := move_rank hp hbare
    refine ⟨rows,hline.turn hturn,fun counts => ?_⟩
    have hwithin := hw counts
    simp only [BackedRequest.Within, hp']
    omega

theorem start_within (payload : JsonDict) (uuid : String) (turn : Turn) :
    (BackedRequest.plain (.start payload uuid turn)).Within counts [] 0 := by
  unfold BackedRequest.Within Request.start Request.initialPhase
  cases namedId turn.payload with
  | error exn => simp
  | ok named => cases named <;> simp

end Pieces

section Spent

variable {σ : Type} {gw : Gateway} {backend? : Option (Backend σ)} {remote : Bool}
  {R : ColdStorage → List String → σ → Prop} {cold : Option ColdStorage} {bucket : σ} {now : Time}
  {f f' : ℕ → Option Exn} {s s' : BackedState σ} {t t' : State} {x : BackedRequest} {a : BackedAction} {i : ℕ}
  {spent : (SessionRecord → Bool) → ℕ}

structure Spent (s : BackedState σ) (i : ℕ) (spent : (SessionRecord → Bool) → ℕ) : Prop where
  unseen : s.requests.length ≤ i → ∀ counts, spent counts = 0
  within : ∀ x, s.requests[i]? = some x → ∃ rows, s.Line x.request rows ∧ ∀ counts, x.Within counts rows (spent counts)

theorem Spent.keep (h : Shows f s t) (he : Extends t t') (h' : Shows f' s' t') (hspent : Spent s i spent)
    (hown : ∀ counts, s.own counts i a = false) (hlen : s.requests.length ≤ s'.requests.length)
    (hkept : ∀ x, s'.requests[i]? = some x → s.requests[i]? = some x ∨
      s.requests.length ≤ i ∧ ∃ payload uuid turn, x = .plain (.start payload uuid turn)) :
    Spent s' i (fun counts => spent counts + if s.own counts i a then 1 else 0) := by
  have hsame : (fun counts => spent counts + if s.own counts i a then 1 else 0) = spent := by
    funext counts
    simp [hown]
  rw [hsame]
  refine ⟨fun hle => hspent.unseen (hlen.trans hle),fun x hx => ?_⟩
  rcases hkept x hx with hold | ⟨hnew,payload,uuid,turn,rfl⟩
  · obtain ⟨rows,hline,hw⟩ := hspent.within x hold
    exact ⟨rows,hline.mono he h h',hw⟩
  · refine ⟨[],.inl rfl,fun counts => ?_⟩
    rw [hspent.unseen hnew]
    exact start_within payload uuid turn

theorem Spent.next (h : Shows f s t) (he : Extends t t') (h' : Shows f' s' t') {x' : BackedRequest}
    {rows : List SessionRecord} (hx : s.requests[i]? = some x) (hs : s'.requests = s.requests.set i x')
    (hline : s.Line x'.request rows)
    (hw : ∀ counts, x'.Within counts rows (spent counts + if s.own counts i a then 1 else 0)) :
    Spent s' i (fun counts => spent counts + if s.own counts i a then 1 else 0) := by
  have hlt := (List.getElem?_eq_some_iff.mp hx).1
  refine ⟨fun hle => ?_,fun y hy => ?_⟩
  · rw [hs, List.length_set] at hle
    omega
  · rw [hs, List.getElem?_set_self hlt] at hy
    cases hy
    exact ⟨rows,hline.mono he h h',hw⟩

theorem step_spent (hi : Inv t) (h : Shows f s t) (he : Extends t t') (h' : Shows f' s' t')
    (hspent : Spent s i spent) (hs : backedStep gw backend? s a = some s') :
    Spent s' i (fun counts => spent counts + if s.own counts i a then 1 else 0) := by
  cases a with
  | receive payload uuid =>
    simp only [backedStep] at hs
    split at hs
    · cases hs
    · split at hs <;> cases hs
      · exact hspent.keep h he h' (fun _ => rfl) le_rfl (fun _ => .inl)
      · next turn _ =>
        refine hspent.keep h he h' (fun _ => rfl) (by simp) fun x hx => ?_
        by_cases hlt : i < s.requests.length
        · exact .inl (by rwa [List.getElem?_append_left hlt] at hx)
        · rw [List.getElem?_append_right (by omega)] at hx
          exact .inr ⟨by omega,payload,uuid,turn,List.mem_singleton.mp (List.mem_of_getElem? hx)⟩
  | move j m =>
    obtain ⟨x,hx,hs⟩ := Option.bind_eq_some_iff.mp hs
    obtain ⟨⟨x',store,objects⟩,hm,hs⟩ := Option.bind_eq_some_iff.mp hs
    cases hs
    by_cases hij : j = i
    · subst hij
      obtain ⟨rows,hline,hw⟩ := hspent.within x hx
      have hown : ∀ counts, s.own counts j (.move j m) = x.counted counts m := by
        simp [BackedState.own, hx]
      cases x with
      | plain r =>
        obtain ⟨rows',hline',hw'⟩ := plain_within hi h hx hline hw hm
        refine Spent.next h he h' hx rfl hline' fun counts => ?_
        rw [hown]
        exact hw' counts
      | reading r prevId parent rest =>
        obtain ⟨hline',hw'⟩ := reading_within hline hw hm
        refine Spent.next h he h' hx rfl hline' fun counts => ?_
        rw [hown]
        exact hw' counts
    · refine hspent.keep h he h' (fun _ => by simp [BackedState.own, hij]) (by simp) fun y hy => ?_
      exact .inl (by rwa [List.getElem?_set_ne hij] at hy)
  | record j newSessionId uuid =>
    simp only [backedStep] at hs
    split at hs
    · next r hx =>
      split at hs
      · cases hs
      · obtain ⟨⟨r',objects⟩,hm,hs⟩ := Option.map_eq_some_iff.mp hs
        cases hs
        by_cases hij : j = i
        · subst hij
          obtain ⟨rows,hline,hw⟩ := hspent.within _ hx
          obtain ⟨hturn,resolved,response,stage,hp,hp',hrank⟩ := record_rank hm
          have hline' : s.Line (BackedRequest.plain r').request rows := hline.turn hturn
          refine Spent.next h he h' hx rfl hline' fun counts => ?_
          have hwithin := hw counts
          simp only [BackedRequest.Within, hp, Stage.rank] at hwithin
          simp only [BackedRequest.Within, hp', BackedState.own, beq_self_eq_true, if_true]
          omega
        · refine hspent.keep h he h' (fun _ => by simp [BackedState.own, hij]) (by simp) fun y hy => ?_
          exact .inl (by rwa [List.getElem?_set_ne hij] at hy)
    · cases hs
  | tick d =>
    cases hs
    exact hspent.keep h he h' (fun _ => rfl) le_rfl (fun _ => .inl)
  | deleteExpired asOf =>
    cases hs
    exact hspent.keep h he h' (fun _ => rfl) le_rfl (fun _ => .inl)

theorem run_spent (hback : Backs backend? remote R cold bucket) {as : List BackedAction}
    (hgiven : ∀ a ∈ as, a.Given) (h : runSteps (backedStep gw backend?) (.initial bucket now) as = some s) :
    Spent s i (fun counts => pieces gw backend? counts i (.initial bucket now) as) := by
  refine runSteps_invariant (I := fun as s => (∀ a ∈ as, a.Given) →
    Spent s i (fun counts => pieces gw backend? counts i (.initial bucket now) as))
    (fun _ => ⟨fun _ _ => rfl,by simp [BackedState.initial]⟩) ?_ h hgiven
  intro as s a s' hrun ih hs hgiven
  have hbefore : ∀ a ∈ as, a.Given := fun a ha => hgiven a (List.mem_append_left _ ha)
  obtain ⟨f,t,t',hi,hshows,he,hshows'⟩ := backend_step_extends hback
    (reach_of_runSteps as (fun _ => hbefore) hrun) (hgiven a (by simp)) hs (fun _ => none)
  simp only [pieces_concat _ i a hrun]
  exact step_spent hi hshows he hshows' (ih hbefore) hs

theorem Spent.bound (hi : Inv t) (h : Shows f s t) (hspent : Spent s i spent) (hx : s.requests[i]? = some x) :
    ∃ rows, s.Line x.request rows ∧ ∀ counts, spent counts ≤ rows.length + 5 + 2 * rows.countP counts := by
  obtain ⟨rows,hline,hw⟩ := hspent.within x hx
  cases x with
  | reading r prevId parent rest => exact ⟨rows,hline,fun counts => by have := (hw counts).2; omega⟩
  | plain r =>
    cases hp : r.phase with
    | resolving prevId =>
      simp only [BackedRequest.Within, hp] at hw
      exact ⟨rows,hline,fun counts => by simp [hw]⟩
    | walking prevId parent walk =>
      simp only [BackedRequest.Within, hp] at hw
      have hok := phaseOk_shown hi h hx
      rw [hp] at hok
      obtain ⟨rows',hline',hlt,-⟩ := walk_line hi h hok (hw (fun _ => true)).2
      exact ⟨rows',hline',fun counts => by have := (hw counts).1; omega⟩
    | unresolved exn =>
      simp only [BackedRequest.Within, hp] at hw
      exact ⟨rows,hline,fun counts => by have := hw counts; omega⟩
    | resolved resolved stage =>
      simp only [BackedRequest.Within, hp] at hw
      have hrank : stage.rank ≤ 4 := by cases stage <;> simp [Stage.rank]
      exact ⟨rows,hline,fun counts => by have := hw counts; omega⟩

end Spent

theorem enabled_of_not_done {σ : Type} {gw : Gateway} {backend? : Option (Backend σ)} {s : BackedState σ}
    {x : BackedRequest} {i : ℕ} (hx : s.requests[i]? = some x) (hd : ¬ x.Done)
    (hmore : ∀ r prevId parent rest, x = .reading r prevId parent rest → rest.chain ≠ []) :
    ∃ a s', a.Given ∧ s.own (fun _ => true) i a = true ∧ backedStep gw backend? s a = some s' := by
  have hmove (m : Move) (hg : Given (.move i m)) (hown : x.counted (fun _ => true) m = true)
      (hm : (backedMove gw backend? s x m).isSome = true) :
      ∃ a s', a.Given ∧ s.own (fun _ => true) i a = true ∧ backedStep gw backend? s a = some s' := by
    obtain ⟨⟨x',store,objects⟩,hm⟩ := Option.isSome_iff_exists.mp hm
    exact ⟨.move i m,_,hg,by simp [BackedState.own, hx, hown],
      Option.bind_eq_some_iff.mpr ⟨x,hx,Option.bind_eq_some_iff.mpr ⟨_,hm,rfl⟩⟩⟩
  cases x with
  | reading r prevId parent rest =>
    refine hmove .read trivial ?_ ?_
    · obtain ⟨row,chain,hchain⟩ := List.exists_cons_of_ne_nil (hmore r prevId parent rest rfl)
      simp [BackedRequest.counted, hchain]
    · simp only [backedMove]
      split <;> rfl
  | plain r =>
    cases hp : r.phase with
    | resolving prevId =>
      refine hmove .read trivial rfl ?_
      simp only [backedMove, hp, move]
      split <;> rfl
    | walking prevId parent walk =>
      refine hmove .read trivial rfl ?_
      simp only [backedMove, hp]
      split <;> rfl
    | unresolved exn => exact absurd (by simp [BackedRequest.Done, Request.Done, hp]) hd
    | resolved resolved stage =>
      cases stage with
      | calling =>
        by_cases hstream : r.turn.streaming = true
        · refine hmove .connect trivial rfl ?_
          simp only [backedMove, hp, move, hstream, if_true]
          split <;> rfl
        · refine hmove (.respond (.ok (.dict .empty))) ⟨List.nodup_nil,trivial⟩ rfl ?_
          simp only [backedMove, hp, move, hstream, Bool.false_eq_true, if_false]
          split <;> rfl
      | streaming bridge =>
        refine hmove (.endStream none) trivial rfl ?_
        simp only [backedMove, hp, move]
        rfl
      | answered response =>
        obtain ⟨uuid,hu⟩ := Infinite.exists_notMem_finset (insert "" s.drawn.toFinset)
        simp only [Finset.mem_insert, List.mem_toFinset, not_or] at hu
        obtain ⟨p,hm⟩ : ∃ p, backedRecord gw backend? s r "" uuid = some p := by
          simp only [backedRecord, hp]
          split
          · split <;> exact ⟨_,rfl⟩
          · exact ⟨_,rfl⟩
        exact ⟨.record i "" uuid,_,hu.1,by simp [BackedState.own],by simp only [backedStep, hx, hm, if_neg hu.2]; rfl⟩
      | inserting response row =>
        refine hmove (.insert none) trivial rfl ?_
        simp only [backedMove, hp, move]
        split <;> rfl
      | finished response row => exact absurd (by simp [BackedRequest.Done, Request.Done, hp]) hd
      | failed exn => exact absurd (by simp [BackedRequest.Done, Request.Done, hp]) hd

theorem requests_finish {σ : Type} {gw : Gateway} {client : S3Client σ}
    {stored : σ → String → String → Option ByteArray} {name : String} {url : Option String}
    {c : Option ColdBackend} (say : PyError → String)
    (hb : buildColdStorage gw.config.cold.enabled name url = .ok c) (hc : client.Consistent stored)
    {bucket : σ} {now : Time} {s : BackedState (InMemoryColdStorage × σ)} {as : List BackedAction}
    (hgiven : ∀ a ∈ as, a.Given)
    (h : runSteps (backedStep gw (c.map (fun c => c.backend client say))) (.initial (.init, bucket) now) as = some s)
    {i : ℕ} {x : BackedRequest} (hx : s.requests[i]? = some x) :
    (∃ rows, s.Line x.request rows ∧ ∀ counts,
      pieces gw (c.map (fun c => c.backend client say)) counts i (.initial (.init, bucket) now) as ≤
        rows.length + 5 + 2 * rows.countP counts) ∧
      (¬ x.Done → ∃ a s', a.Given ∧ s.own (fun _ => true) i a = true ∧
        backedStep gw (c.map (fun c => c.backend client say)) s a = some s') := by
  obtain ⟨remote,R,hback⟩ := built_backs say hb hc bucket
  have hspent := run_spent (i := i) hback hgiven h
  refine ⟨?_,fun hd => enabled_of_not_done hx hd ?_⟩
  · obtain ⟨t,ht,hsim⟩ := backend_simulates hback (reach_of_runSteps as (fun _ => hgiven) h) (fun _ => none)
    exact hspent.bound (reach_inv ht) hsim.toShows hx
  · rintro r prevId parent rest rfl
    obtain ⟨rows,-,hw⟩ := hspent.within _ hx
    exact (hw (fun _ => true)).1

set_option maxRecDepth 4000 in
def readingTurn : BackedRequest := (overBucketState.requests[1]?).get rfl

theorem requests_finish_reading :
    (∃ rows, overBucketState.Line readingTurn.request rows ∧ ∀ counts,
      pieces overBucket (some ((ColdBackend.s3 ⟨"gateway", "turns/"⟩).backend smallBucket (fun _ => ""))) counts 1
        (.initial (.init, .empty) 0) overBucketRun ≤ rows.length + 5 + 2 * rows.countP counts) ∧
      (¬ readingTurn.Done → ∃ a s', a.Given ∧ overBucketState.own (fun _ => true) 1 a = true ∧
        backedStep overBucket (some ((ColdBackend.s3 ⟨"gateway", "turns/"⟩).backend smallBucket (fun _ => "")))
          overBucketState a = some s') :=
  requests_finish (fun _ => "") overBucket_built smallBucket_consistent overBucketRun_given
    (Option.some_get overBucketRun_runs).symm (Option.some_get _).symm

end ResponsesGateway
