import ResponsesGateway.Streaming.Buffer

namespace ResponsesGateway

def Argues (e : Event) (k : Key) : Prop :=
  etype e = .functionCallArgumentsDelta ∧ (e.get "item_id").truthy = true ∧ (e.get "item_id").key = .ok k

instance (e : Event) (k : Key) : Decidable (Argues e k) := by
  unfold Argues
  infer_instance

def Delivers (e : Event) (k : Key) : Prop :=
  (etype e = .outputItemAdded ∨ etype e = .outputItemDone) ∧ ∃ item, Carries e item k

def argumentDeltas (k : Key) (events : List Event) : List Json :=
  (events.filter (fun e => decide (Argues e k))).map (fun e => e.getD "delta" (.str ""))

structure Arguing (c : Buffer) (k : Key) (text : String) : Prop where
  announced : k ∈ c.announced
  listed : k ∈ c.itemOrder
  held : ∃ item, c.itemsById.get? k = some item ∧ item.get "type" = .str "function_call" ∧
    item.getD "arguments" (.str "") = .str text

section Delta

variable {e e' : Event} {k : Key} {events : List Event}

theorem argumentDeltas_of_argues (h : Argues e k) :
    argumentDeltas k (e :: events) = e.getD "delta" (.str "") :: argumentDeltas k events := by
  simp [argumentDeltas, h]

theorem argumentDeltas_of_not (h : ¬ Argues e k) :
    argumentDeltas k (e :: events) = argumentDeltas k events := by
  simp [argumentDeltas, h]

theorem argues_rewritten (h : Rewritten e e') : Argues e' k ↔ Argues e k := by
  simp only [Argues, h.etype, Dict.get, Dict.getD,
    StreamBridge.get?_rewritten h (show "item_id" ≠ "response" by decide)]

theorem add_str_inv {text : String} {delta sum : Json} (h : (Json.str text).add delta = .ok sum) :
    ∃ more, delta = .str more ∧ sum = .str (text ++ more) := by
  cases delta with
  | str more =>
    cases h
    exact ⟨more,rfl,rfl⟩
  | _ => cases h

end Delta

namespace Arguing

variable {c c' : Buffer} {e : Event} {j k : Key} {item : JsonDict} {text : String}

theorem put (h : Arguing c k text) (hj : k ≠ j) : Arguing (c.put j item) k text := by
  obtain ⟨ha,hl,call,hget,hcall⟩ := h
  exact ⟨ha,hl,call,by simpa [Buffer.put, hj] using hget,hcall⟩

theorem add (h : Arguing c k text) (hj : k ≠ j) : Arguing (c.add j item) k text := by
  obtain ⟨ha,hl,call,hget,hcall⟩ := h
  exact ⟨List.mem_cons_of_mem _ ha,List.mem_append_left _ hl,call,by simpa [Buffer.add, hj] using hget,hcall⟩

theorem argue {call : JsonDict} {more : String} (h : Arguing c k text) (hcall : c.itemsById.get? k = some call) :
    Arguing (c.put k (call.set "arguments" (.str more))) k more := by
  obtain ⟨ha,hl,held,hget,hfunction,-⟩ := h
  obtain rfl := Option.some.inj (hget.symm.trans hcall)
  refine ⟨ha,hl,held.set "arguments" (.str more),by simp [Buffer.put],?_,by simp [Dict.getD]⟩
  simpa [Dict.get, Dict.getD] using hfunction

theorem announce (hfunction : item.get "type" = .str "function_call")
    (htext : item.getD "arguments" (.str "") = .str text) : Arguing (c.add k item) k text :=
  ⟨List.mem_cons_self,List.mem_append_right _ (List.mem_singleton_self k),item,by simp [Buffer.add],hfunction,htext⟩

theorem noted (h : Arguing c k text) (e : Event) : Arguing (c.noted e) k text := by
  unfold Buffer.noted
  split
  · next id _ =>
    unfold Buffer.introduce
    split
    · exact h
    · next hnew =>
      split
      · exact ⟨List.mem_cons_of_mem _ h.announced,h.listed,h.held⟩
      · -- An announced item is never made up a second time.
        refine h.add ?_
        rintro rfl
        exact hnew h.announced
  · exact h

theorem not_latest {j : Key} {type : String} (h : Arguing c k text) (htype : type ≠ "function_call")
    (hl : c.latest type = some (j, item)) : k ≠ j := by
  rintro rfl
  obtain ⟨-,hget,hmessage⟩ := Buffer.latest_inv hl
  obtain ⟨call,hcall,hfunction,-⟩ := h.held
  obtain rfl := Option.some.inj (hcall.symm.trans hget)
  exact htype (Json.str.inj (hmessage.symm.trans hfunction))

theorem buffers (h : Arguing c k text) (hb : Buffers c e c') (hdelivers : ¬ Delivers e k)
    (hdelta : etype e ≠ .functionCallArgumentsDelta) : Arguing c' k text := by
  cases hb with
  | @added item j ht hc =>
    refine h.add ?_
    rintro rfl
    exact hdelivers ⟨.inl ht,item,hc⟩
  | @done item j ht hc =>
    refine h.put ?_
    rintro rfl
    exact hdelivers ⟨.inr ht,item,hc⟩
  | mentioned => exact h.noted e
  | extended _ hl => exact (h.noted e).put ((h.noted e).not_latest (by decide) hl)
  | dropped => exact h.noted e
  | argued ht => exact absurd ht hdelta
  | quiet => exact h

end Arguing

namespace StreamBridge

variable {b b' : StreamBridge} {e : Event} {k : Key} {item : JsonDict} {text : String} {events : List Event}

theorem consume_delta (h : Arguing b.buffer k text) (ht : etype e = .functionCallArgumentsDelta)
    (hc : b.consume e = .ok b') :
    (¬ Argues e k ∧ Arguing b'.buffer k text) ∨
      Argues e k ∧ ∃ more, e.getD "delta" (.str "") = .str more ∧ Arguing b'.buffer k (text ++ more) := by
  cases consumes_of_consume hc with
  | @argued j item arguments _ htr hj hitem hadd =>
    by_cases hk : k = j
    · subst hk
      obtain ⟨call,hcall,-,htext⟩ := h.held
      obtain rfl := Option.some.inj (hcall.symm.trans hitem)
      rw [htext] at hadd
      obtain ⟨more,hmore,rfl⟩ := add_str_inv hadd
      exact .inr ⟨⟨ht,htr,hj⟩,more,hmore,h.argue hitem⟩
    · refine .inl ⟨?_,h.put hk⟩
      rintro ⟨-,-,hkey⟩
      exact hk (Except.ok.inj (hkey.symm.trans hj))
  | @unknown j _ _ hj hnone =>
    refine .inl ⟨?_,h⟩
    rintro ⟨-,-,hkey⟩
    obtain rfl : k = j := Except.ok.inj (hkey.symm.trans hj)
    obtain ⟨call,hcall,-⟩ := h.held
    cases hcall.symm.trans hnone
  | unaddressed _ htr =>
    refine .inl ⟨?_,h⟩
    rintro ⟨-,hargued,-⟩
    rw [htr] at hargued
    cases hargued
  | created hne | added hne | done hne | extended hne | dropped hne | used hne | unused hne =>
    rw [ht] at hne
    cases hne
  | nameless hne => simp [ht] at hne
  | other hne =>
    rw [ht] at hne
    cases hne

theorem teeEvent_delta (h : Arguing b.buffer k text) (ht : etype e = .functionCallArgumentsDelta)
    (hc : (b.teeEvent e).2 = .ok b') :
    (¬ Argues e k ∧ Arguing b'.buffer k text) ∨
      Argues e k ∧ ∃ more, e.getD "delta" (.str "") = .str more ∧ Arguing b'.buffer k (text ++ more) := by
  obtain ⟨e',b₁,synth,hr,hs,hf⟩ := teeEvent_ok_iff.mp hc
  have hrw := maybeRewriteId_ok hr
  have ht' : etype e' = .functionCallArgumentsDelta := hrw.etype.trans ht
  obtain ⟨rfl,rfl⟩ := synthesize_unmentioned (by rw [ht']; rfl) (by simp [ht']) hs
  have hdelta : e'.getD "delta" (.str "") = e.getD "delta" (.str "") := by
    simp only [Dict.getD, get?_rewritten hrw (show "delta" ≠ "response" by decide)]
  have hstep := consume_delta h ht' (forward_singleton.symm.trans hf)
  rwa [argues_rewritten hrw, hdelta] at hstep

theorem tee_arguing (h : Arguing b.buffer k text) (hdelivers : ∀ e ∈ events, ¬ Delivers e k)
    (hc : (b.tee events).2 = .ok b') :
    ∃ texts : List String, argumentDeltas k events = texts.map Json.str ∧
      Arguing b'.buffer k (text ++ String.join texts) := by
  induction events generalizing b text with
  | nil =>
    cases hc
    exact ⟨[],rfl,by simpa [String.join] using h⟩
  | cons e events ih =>
    obtain ⟨b₁,he,hrest⟩ := tee_cons_ok_iff.mp hc
    obtain ⟨hfirst,hdelivers⟩ := List.forall_mem_cons.mp hdelivers
    by_cases ht : etype e = .functionCallArgumentsDelta
    · rcases teeEvent_delta h ht he with ⟨hno,h₁⟩ | ⟨hargues,more,hmore,h₁⟩
      · rw [argumentDeltas_of_not hno]
        exact ih h₁ hdelivers hrest
      · obtain ⟨texts,htexts,hend⟩ := ih h₁ hdelivers hrest
        refine ⟨more :: texts,?_,?_⟩
        · rw [argumentDeltas_of_argues hargues, hmore, htexts, List.map_cons]
        · rwa [String.join_cons, ← String.append_assoc]
    · rw [argumentDeltas_of_not fun hargues => ht hargues.1]
      exact ih (h.buffers (teeEvent_buffers he) hfirst ht) hdelivers hrest

theorem teeEvent_announces (ht : etype e = .outputItemAdded) (hcarries : Carries e item k)
    (hfunction : item.get "type" = .str "function_call")
    (htext : item.getD "arguments" (.str "") = .str text) (hc : (b.teeEvent e).2 = .ok b') :
    Arguing b'.buffer k text := by
  have hb := teeEvent_buffers hc
  generalize b'.buffer = c' at hb ⊢
  cases hb with
  | added _ hother =>
    obtain ⟨rfl,rfl⟩ := hcarries.unique hother
    exact .announce hfunction htext
  | mentioned hne =>
    rw [ht] at hne
    cases hne
  | quiet _ hnone => exact absurd hcarries (hnone (.inl ht) item k)
  | done hne | extended hne | dropped hne | argued hne =>
    rw [ht] at hne
    cases hne

end StreamBridge

theorem arguments_accumulate {rewriteId : Option String} {pre post : List Event} {e : Event}
    {item : JsonDict} {k : Key} {initial : String} {b : StreamBridge}
    (ht : etype e = .outputItemAdded) (hcarries : Carries e item k)
    (hfunction : item.get "type" = .str "function_call")
    (hinitial : item.getD "arguments" (.str "") = .str initial) (honce : ∀ e' ∈ post, ¬ Delivers e' k)
    (htee : ((StreamBridge.init rewriteId).tee (pre ++ e :: post)).2 = .ok b) :
    ∃ texts : List String, argumentDeltas k post = texts.map Json.str ∧
      ∃ items : List JsonDict, b.finalState.get? "output" = some (.list (items.map Json.obj)) ∧
        (∃ call ∈ items, (call.get "id").key = .ok k) ∧
        ∀ call ∈ items, (call.get "id").key = .ok k →
          call.getD "arguments" (.str "") = .str (initial ++ String.join texts) := by
  have hfiled := StreamBridge.tee_filed htee
  obtain ⟨b₁,-,hrest⟩ := StreamBridge.tee_append_ok_iff.mp htee
  obtain ⟨b₂,he,hpost⟩ := StreamBridge.tee_cons_ok_iff.mp hrest
  have hstart := StreamBridge.teeEvent_announces ht hcarries hfunction hinitial he
  obtain ⟨texts,htexts,hend⟩ := StreamBridge.tee_arguing hstart honce hpost
  obtain ⟨call,hcall,-,hargs⟩ := hend.held
  refine ⟨texts,htexts,b.items,by simp [StreamBridge.finalState],?_,?_⟩
  · exact ⟨call,StreamBridge.mem_items.mpr ⟨k,hend.listed,hcall⟩,hfiled k call hcall⟩
  · intro found hfound hid
    obtain ⟨j,-,hget⟩ := StreamBridge.mem_items.mp hfound
    obtain rfl : j = k := Except.ok.inj ((hfiled j found hget).symm.trans hid)
    obtain rfl := Option.some.inj (hcall.symm.trans hget)
    exact hargs

namespace ParallelCalls

def call (id : String) : JsonDict := .ofEntries [("id", .str id), ("type", .str "function_call")]

def added (id : String) : Event :=
  .ofEntries [("type", .str "response.output_item.added"), ("item", .obj (call id))]

def delta (id text : String) : Event :=
  .ofEntries [("type", .str "response.function_call_arguments.delta"), ("item_id", .str id),
    ("delta", .str text)]

def spoken : Event :=
  .ofEntries [("type", .str "response.output_text.delta"), ("item_id", .str "msg"), ("delta", .str "hi")]

def rest : List Event := [added "b", delta "a" "x", spoken, delta "b" "z", delta "a" "y"]

end ParallelCalls

example : argumentDeltas (.str "a") ParallelCalls.rest = [.str "x", .str "y"] := by decide

theorem arguments_accumulate_parallel :
    ∃ b, ((StreamBridge.init none).tee ([] ++ ParallelCalls.added "a" :: ParallelCalls.rest)).2 = .ok b ∧
      ∃ texts : List String, argumentDeltas (.str "a") ParallelCalls.rest = texts.map Json.str ∧
        ∃ items : List JsonDict, b.finalState.get? "output" = some (.list (items.map Json.obj)) ∧
          (∃ call ∈ items, (call.get "id").key = .ok (.str "a")) ∧
          ∀ call ∈ items, (call.get "id").key = .ok (.str "a") →
            call.getD "arguments" (.str "") = .str ("" ++ String.join texts) := by
  have hothers : ∀ e ∈ ParallelCalls.rest, ¬ Delivers e (.str "a") := by
    intro e he
    simp only [ParallelCalls.rest, List.mem_cons, List.not_mem_nil, or_false] at he
    rcases he with rfl | rfl | rfl | rfl | rfl
    · rintro ⟨-,item,hcarries⟩
      have hb : Carries (ParallelCalls.added "b") (ParallelCalls.call "b") (.str "b") := ⟨rfl,rfl,rfl⟩
      exact absurd (hb.unique hcarries).2 (by decide)
    all_goals
      rintro ⟨h | h,-⟩ <;> exact absurd h (by decide)
  exact ⟨_,rfl,@arguments_accumulate none [] ParallelCalls.rest (ParallelCalls.added "a") (ParallelCalls.call "a")
    (.str "a") "" _ (by decide) ⟨rfl,rfl,rfl⟩ (by decide) (by decide) hothers rfl⟩

end ResponsesGateway
