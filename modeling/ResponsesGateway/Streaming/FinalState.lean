import ResponsesGateway.Streaming.Bridge

namespace ResponsesGateway

def AgreeOffId (d e : JsonDict) : Prop := ∀ k, k ≠ "id" → d.get? k = e.get? k

theorem AgreeOffId.refl (d : JsonDict) : AgreeOffId d d := fun _ _ => rfl

theorem AgreeOffId.set {d e : JsonDict} (h : AgreeOffId d e) (k : String) (v : Json) :
    AgreeOffId (d.set k v) (e.set k v) := by
  intro j hj
  simp [h j hj]

theorem AgreeOffId.setAll {d e : JsonDict} (h : AgreeOffId d e) (ps : List (String × Json)) :
    AgreeOffId (d.setAll ps) (e.setAll ps) := by
  induction ps generalizing d e with
  | nil => exact h
  | cons p ps ih => exact ih (h.set p.1 p.2)

theorem AgreeOffId.update {d e u w : JsonDict} (h : AgreeOffId d e) (hu : AgreeOffId u w) :
    AgreeOffId (d.update u) (e.update w) := by
  intro j hj
  simp [h j hj, hu j hj]

def absorb (d : JsonDict) (e : Event) : Except PyError JsonDict :=
  match etype e with
  | .created => d.updateFrom (e.getD "response" (.dict []))
  | .completed => do
      let resp ← (e.getD "response" (.dict [])).methods
      let usage := resp.get "usage"
      if usage.truthy then return d.set "usage" usage else return d
  | _ => .ok d

inductive Rewritten (e : Event) : Event → Prop
  | same : Rewritten e e
  | response {resp : JsonDict} {id : String} : (e.get "response").asDict = some resp →
      Rewritten e (e.set "response" (.obj (resp.set "id" (.str id))))

namespace StreamBridge

variable {b b' : StreamBridge} {e e' : Event}

theorem maybeRewriteId_ok (h : b.maybeRewriteId e = .ok e') : Rewritten e e' := by
  unfold maybeRewriteId at h
  cases hr : b.rewriteId with
  | none => rw [hr] at h; cases h; exact .same
  | some id =>
    rw [hr] at h
    dsimp only at h
    by_cases hid : id = ""
    · rw [if_pos hid] at h; cases h; exact .same
    · rw [if_neg hid, Except.bind_eq_ok_iff] at h
      obtain ⟨-,-,h⟩ := h
      cases hresp : (e.get "response").asDict with
      | none => rw [hresp] at h; cases h; exact .same
      | some resp =>
        rw [hresp] at h
        dsimp only at h
        by_cases hl : (etype e).lifecycle = true
        · rw [if_pos hl] at h; cases h; exact .response hresp
        · rw [if_neg hl] at h; cases h; exact .same

theorem absorb_item (ht : etype e = .outputItemAdded ∨ etype e = .outputItemDone) (d : JsonDict) :
    absorb d e = .ok d := by
  rcases ht with ht | ht <;> simp only [absorb, ht]

theorem consume_absorb (h : b.consume e = .ok b') :
    absorb b.finalResponse e = .ok b'.finalResponse := by
  cases consume_ok_iff.mp h with
  | created ht hd => simpa only [absorb, ht, setFinal] using hd
  | added ht => exact absorb_item (.inl ht) _
  | done ht => exact absorb_item (.inr ht) _
  | nameless ht => exact absorb_item ht _
  | extended ht => simp only [absorb, ht, storeItem]
  | dropped ht => simp only [absorb, ht]
  | argued ht => simp only [absorb, ht, storeItem]
  | unknown ht => simp only [absorb, ht]
  | unaddressed ht => simp only [absorb, ht]
  | used ht hr hu =>
    simp only [absorb, ht, hr, hu, if_true, bind, Except.bind, pure, Except.pure, setFinal]
  | unused ht hr hu =>
    simp only [absorb, ht, hr, hu, Bool.false_eq_true, if_false, bind, Except.bind, pure, Except.pure]
  | other ht =>
    unfold absorb
    cases h : etype e <;> rw [h] at ht <;> first | rfl | cases ht

structure SameBuffer (b b' : StreamBridge) : Prop where
  itemsById : b'.itemsById = b.itemsById
  itemOrder : b'.itemOrder = b.itemOrder
  finalResponse : b'.finalResponse = b.finalResponse
  rewriteId : b'.rewriteId = b.rewriteId

theorem announceParent_ok {synth : List Event} (h : b.announceParent e = .ok (b', synth)) :
    SameBuffer b b' ∧ ∀ s ∈ synth, etype s = .outputItemAdded ∨ etype s = .contentPartAdded := by
  unfold announceParent at h
  have hadded (i : String) (j : Json) : etype (syntheticItemAdded i j) = .outputItemAdded := rfl
  have hpart (i : String) (j : Json) (n : ℤ) : etype (syntheticPartAdded i j n) = .contentPartAdded := rfl
  split at h
  · rename_i itemId _
    by_cases hk : Key.str itemId ∈ b.announcedItems
    · simp only [if_pos hk] at h
      split at h
      · obtain ⟨cidx,-,h⟩ := Except.bind_eq_ok_iff.mp h
        split at h <;> cases h
        · exact ⟨⟨rfl,rfl,rfl,rfl⟩,by simp⟩
        · exact ⟨⟨rfl,rfl,rfl,rfl⟩,by simp [hpart]⟩
      · cases h; exact ⟨⟨rfl,rfl,rfl,rfl⟩,by simp⟩
    · simp only [if_neg hk] at h
      split at h
      · obtain ⟨cidx,-,h⟩ := Except.bind_eq_ok_iff.mp h
        split at h <;> cases h
        · exact ⟨⟨rfl,rfl,rfl,rfl⟩,by simp [hadded]⟩
        · exact ⟨⟨rfl,rfl,rfl,rfl⟩,by simp [hadded, hpart]⟩
      · cases h; exact ⟨⟨rfl,rfl,rfl,rfl⟩,by simp [hadded]⟩
  · cases h; exact ⟨⟨rfl,rfl,rfl,rfl⟩,by simp⟩

theorem synthesizeMissingAnnouncements_ok {synth : List Event}
    (h : b.synthesizeMissingAnnouncements e = .ok (b', synth)) :
    SameBuffer b b' ∧ ∀ s ∈ synth, etype s = .outputItemAdded ∨ etype s = .contentPartAdded := by
  unfold synthesizeMissingAnnouncements at h
  split at h
  · obtain ⟨item,-,h⟩ := Except.bind_eq_ok_iff.mp h
    dsimp only at h
    split at h
    · obtain ⟨k,-,h⟩ := Except.bind_eq_ok_iff.mp h
      cases h; exact ⟨⟨rfl,rfl,rfl,rfl⟩,by simp⟩
    · cases h; exact ⟨⟨rfl,rfl,rfl,rfl⟩,by simp⟩
  · dsimp only at h
    split at h
    · obtain ⟨cidx,-,h⟩ := Except.bind_eq_ok_iff.mp h
      obtain ⟨k,-,h⟩ := Except.bind_eq_ok_iff.mp h
      obtain ⟨hsame,hsynth⟩ := announceParent_ok h
      exact ⟨⟨hsame.itemsById,hsame.itemOrder,hsame.finalResponse,hsame.rewriteId⟩,hsynth⟩
    · exact announceParent_ok h
  · split at h
    · exact announceParent_ok h
    · obtain ⟨k,-,h⟩ := Except.bind_eq_ok_iff.mp h
      cases h; exact ⟨⟨rfl,rfl,rfl,rfl⟩,by simp⟩

theorem forward_absorb {synth : List Event}
    (hs : ∀ s ∈ synth, etype s = .outputItemAdded ∨ etype s = .contentPartAdded)
    (h : (b.forward (synth ++ [e])).2 = .ok b') :
    absorb b.finalResponse e = .ok b'.finalResponse := by
  induction synth generalizing b with
  | nil =>
    obtain ⟨b₁,hc,hn⟩ := forward_cons_ok_iff.mp h
    cases hn
    exact consume_absorb hc
  | cons s synth ih =>
    obtain ⟨b₁,hc,hn⟩ := forward_cons_ok_iff.mp h
    have hid : absorb b.finalResponse s = .ok b.finalResponse := by
      rcases hs s (by simp) with ht | ht <;> simp [absorb, ht]
    have hfinal := consume_absorb hc
    rw [hid, Except.ok.injEq] at hfinal
    rw [hfinal]
    exact ih (fun s hm => hs s (by simp [hm])) hn

theorem teeEvent_absorb (h : (b.teeEvent e).2 = .ok b') :
    ∃ e', b.maybeRewriteId e = .ok e' ∧ absorb b.finalResponse e' = .ok b'.finalResponse := by
  obtain ⟨e',b₁,synth,hr,hs,hf⟩ := teeEvent_ok_iff.mp h
  obtain ⟨hsame,hsynth⟩ := synthesizeMissingAnnouncements_ok hs
  have ha := forward_absorb hsynth hf
  rw [hsame.finalResponse] at ha
  exact ⟨e',hr,ha⟩

end StreamBridge

def seedStep (d : JsonDict) (e : Event) : Except PyError JsonDict :=
  if etype e = .created then d.updateFrom (e.getD "response" (.dict [])) else .ok d

def seed (events : List Event) : Except PyError JsonDict :=
  events.foldlM seedStep (.ofEntries [("output", .list []), ("usage", .dict [])])

def Terminal (e : Event) : Prop :=
  etype e = .completed ∨ etype e = .failed ∨ etype e = .incomplete

def MirrorsTerminal (final terminal : JsonDict) : Prop :=
  ∀ k v, k ≠ "output" → k ≠ "id" → terminal.get? k = some v → final.get? k = some v

section Run

variable {b b' : StreamBridge} {e e' : Event} {d d' : JsonDict}

theorem Rewritten.etype (h : Rewritten e e') : etype e' = ResponsesGateway.etype e := by
  cases h with
  | same => rfl
  | response _ => simp [ResponsesGateway.etype, Dict.get, Dict.getD]

theorem getD_response {resp : JsonDict} (h : (e.get "response").asDict = some resp) :
    ∃ fs, e.getD "response" (.dict []) = .dict fs ∧ Dict.ofEntries fs = resp := by
  cases hr : e.get? "response" with
  | none => simp [Dict.get, Dict.getD, hr, Json.asDict] at h
  | some v =>
    simp only [Dict.get, Dict.getD, hr, Option.getD_some] at h ⊢
    cases v with
    | dict fs => exact ⟨fs,rfl,by simpa [Json.asDict] using h⟩
    | _ => simp [Json.asDict] at h

theorem absorb_rewritten_created (hr : Rewritten e e') (ht : etype e = .created)
    {d₀ : JsonDict} (hd : AgreeOffId d d₀) (ha : absorb d e' = .ok d') :
    ∃ d₀', seedStep d₀ e = .ok d₀' ∧ AgreeOffId d' d₀' := by
  have ht' := hr.etype.trans ht
  simp only [absorb, ht'] at ha
  simp only [seedStep, ht, if_true]
  cases hr with
  | same =>
    obtain ⟨ps,hps,ha⟩ := Except.bind_eq_ok_iff.mp ha
    cases ha
    exact ⟨_,by simp [Dict.updateFrom, hps, bind, Except.bind, pure, Except.pure],hd.setAll ps⟩
  | @response resp id hresp =>
    obtain ⟨fs,hfs,rfl⟩ := getD_response hresp
    simp only [Dict.getD, Dict.get?_set, if_true, Option.getD_some, Dict.updateFrom, Json.obj,
      Json.pairs, Dict.ofEntries_entries, bind, Except.bind, pure, Except.pure, Except.ok.injEq] at ha
    subst ha
    have hset : AgreeOffId ((Dict.ofEntries fs).set "id" (.str id)) (Dict.ofEntries fs) := by
      intro k hk
      simp [hk]
    have hraw : d₀.updateFrom (e.getD "response" (.dict [])) = .ok (d₀.update (Dict.ofEntries fs)) := by
      rw [hfs]; rfl
    exact ⟨_,hraw,hd.update hset⟩

theorem tee_seed {es : List Event} (hes : ∀ e ∈ es, ¬ Terminal e) (h : (b.tee es).2 = .ok b')
    (hd : AgreeOffId b.finalResponse d) :
    ∃ d', es.foldlM seedStep d = .ok d' ∧ AgreeOffId b'.finalResponse d' := by
  induction es generalizing b d with
  | nil => cases h; exact ⟨d,rfl,hd⟩
  | cons e es ih =>
    obtain ⟨b₁,he,hrest⟩ := StreamBridge.tee_cons_ok_iff.mp h
    obtain ⟨e',hrw,ha⟩ := StreamBridge.teeEvent_absorb he
    have hstep : ∃ d₁, seedStep d e = .ok d₁ ∧ AgreeOffId b₁.finalResponse d₁ := by
      by_cases ht : etype e = .created
      · exact absorb_rewritten_created (StreamBridge.maybeRewriteId_ok hrw) ht hd ha
      · have hnt := hes e (by simp)
        have ht' := (StreamBridge.maybeRewriteId_ok hrw).etype
        have hkeep : absorb b.finalResponse e' = .ok b.finalResponse := by
          simp only [Terminal, not_or] at hnt
          unfold absorb
          split <;> simp_all
        rw [hkeep, Except.ok.injEq] at ha
        exact ⟨d,by simp [seedStep, ht],ha ▸ hd⟩
    obtain ⟨d₁,hs,hd₁⟩ := hstep
    obtain ⟨d',hf,hd'⟩ := ih (fun x hx => hes x (by simp [hx])) hrest hd₁
    exact ⟨d',by rw [List.foldlM_cons, hs]; exact hf,hd'⟩

theorem teeEvent_terminal {terminal : JsonDict} (ht : Terminal e)
    (hresp : e.get? "response" = some (.obj terminal)) (h : (b.teeEvent e).2 = .ok b') :
    b'.finalResponse = if etype e = .completed ∧ (terminal.get "usage").truthy = true
      then b.finalResponse.set "usage" (terminal.get "usage") else b.finalResponse := by
  obtain ⟨e',hrw,ha⟩ := StreamBridge.teeEvent_absorb h
  have hrw := StreamBridge.maybeRewriteId_ok hrw
  have ht' := hrw.etype
  have husage : ∃ resp : JsonDict, (e'.getD "response" (.dict [])).methods = .ok resp ∧
      resp.get "usage" = terminal.get "usage" := by
    cases hrw with
    | same => exact ⟨terminal,by simp [Dict.getD, hresp, Json.methods],rfl⟩
    | @response resp id hd =>
      have hterminal : terminal = resp := by simpa [Dict.get, Dict.getD, hresp] using hd
      subst hterminal
      exact ⟨terminal.set "id" (.str id),by simp [Dict.getD, Json.methods],by simp [Dict.get, Dict.getD]⟩
  obtain ⟨resp,hm,hu⟩ := husage
  rcases ht with ht | ht | ht
  · simp only [absorb, ht', ht, hm, hu, bind, Except.bind, pure, Except.pure] at ha
    by_cases huse : (terminal.get "usage").truthy = true
    · rw [if_pos huse, Except.ok.injEq] at ha
      rw [if_pos ⟨ht,huse⟩, ha]
    · rw [if_neg huse, Except.ok.injEq] at ha
      rw [if_neg (fun hc => huse hc.2), ha]
  · simp only [absorb, ht', ht, Except.ok.injEq] at ha
    simp [ht, ha]
  · simp only [absorb, ht', ht, Except.ok.injEq] at ha
    simp [ht, ha]

end Run

theorem StreamBridge.get?_finalState (b : StreamBridge) {k : String} (hk : k ≠ "output") :
    b.finalState.get? k = b.finalResponse.get? k := by
  simp [finalState, hk]

theorem final_state_mirrors_terminal_iff {rewriteId : Option String} {first last : Event}
    {between : List Event} {terminal : JsonDict} {b : StreamBridge}
    (hfirst : etype first = .created) (hbetween : ∀ e ∈ between, ¬ Terminal e)
    (hlast : Terminal last) (hresp : last.get? "response" = some (.obj terminal))
    (htee : ((StreamBridge.init rewriteId).tee (first :: between ++ [last])).2 = .ok b) :
    MirrorsTerminal b.finalState terminal ↔
      ∀ k v, k ≠ "output" → k ≠ "id" → terminal.get? k = some v →
        (k = "usage" ∧ etype last = .completed ∧ v.truthy = true) ∨
        ∃ d, seed (first :: between) = .ok d ∧ d.get? k = some v := by
  obtain ⟨b₁,hb₁,hend⟩ := StreamBridge.tee_append_ok_iff.mp htee
  obtain ⟨b₂,hb₂,hnil⟩ := StreamBridge.tee_cons_ok_iff.mp hend
  cases hnil
  have hfirst' : ∀ e ∈ first :: between, ¬ Terminal e := by
    intro e he
    rcases List.mem_cons.mp he with rfl | he
    · simp [Terminal, hfirst]
    · exact hbetween e he
  obtain ⟨d,hseed,hagree⟩ := tee_seed hfirst' hb₁ (.refl _)
  have hseed : seed (first :: between) = .ok d := hseed
  have hfinal := teeEvent_terminal hlast hresp hb₂
  have hread (k : String) (v : Json) (hko : k ≠ "output") (hki : k ≠ "id")
      (hv : terminal.get? k = some v) : b.finalState.get? k = some v ↔
        (k = "usage" ∧ etype last = .completed ∧ v.truthy = true) ∨ d.get? k = some v := by
    rw [b.get?_finalState hko, hfinal]
    by_cases hk : k = "usage"
    · subst hk
      rw [Dict.get_eq_of_get? hv]
      by_cases hu : etype last = .completed ∧ v.truthy = true
      · rw [if_pos hu]; simp [hu]
      · rw [if_neg hu, hagree _ hki]; simp [hu]
    · split <;> simp [hk, hagree _ hki]
  constructor
  · intro h k v hko hki hv
    exact ((hread k v hko hki hv).mp (h k v hko hki hv)).imp_right (fun hd => ⟨d,hseed,hd⟩)
  · intro h k v hko hki hv
    refine (hread k v hko hki hv).mpr ((h k v hko hki hv).imp_right ?_)
    rintro ⟨d',hd',hk⟩
    rw [hseed, Except.ok.injEq] at hd'
    exact hd' ▸ hk

def startEvent : Event :=
  .ofEntries [("type", .str "response.created"),
    ("response", .dict [("id", .str "up_1"), ("status", .str "in_progress")])]

def failedResponse : JsonDict :=
  .ofEntries [("id", .str "up_1"), ("status", .str "failed"), ("error", .dict [("code", .str "server_error")])]

def failedEvent : Event :=
  .ofEntries [("type", .str "response.failed"), ("response", .obj failedResponse)]

theorem final_state_mirrors_terminal_iff_failed :
    ∃ b, ((StreamBridge.init (some "resp_1")).tee [startEvent, failedEvent]).2 = .ok b ∧
      (MirrorsTerminal b.finalState failedResponse ↔
        ∀ k v, k ≠ "output" → k ≠ "id" → failedResponse.get? k = some v →
          (k = "usage" ∧ etype failedEvent = .completed ∧ v.truthy = true) ∨
          ∃ d, seed [startEvent] = .ok d ∧ d.get? k = some v) :=
  ⟨_,rfl,@final_state_mirrors_terminal_iff (some "resp_1") startEvent failedEvent [] failedResponse _
    (by decide) (by simp) (.inr (.inl (by decide))) (by decide) rfl⟩

theorem failed_stream_keeps_first_status :
    ∃ b, ((StreamBridge.init (some "resp_1")).tee [startEvent, failedEvent]).2 = .ok b ∧
      b.finalState.get? "status" = some (.str "in_progress") ∧
      ¬ MirrorsTerminal b.finalState failedResponse := by
  refine ⟨_,rfl,by decide,fun h => ?_⟩
  have hstatus := h "status" (.str "failed") (by decide) (by decide) (by decide)
  revert hstatus
  decide

end ResponsesGateway
