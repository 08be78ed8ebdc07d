import ResponsesGateway.Streaming.FinalState

namespace ResponsesGateway

def Hashable (j : Json) : Prop := ∃ k, j.key = .ok k

def CarriesItem (e : Event) : Prop :=
  ∃ item, (e.getD "item" (.dict [])).methods = .ok item ∧
    ((item.get "id").truthy = true → Hashable (item.get "id"))

def Indexed (e : Event) : Prop := ∃ n, (e.getD "content_index" (.int 0)).toInt = .ok n

def syntheticItem (itemId : String) : JsonDict :=
  .ofEntries [("id", .str itemId), ("type", .str "message"), ("role", .str "assistant"),
    ("status", .str "in_progress"), ("content", .list [])]

namespace StreamBridge

def textTarget (b : StreamBridge) (e : Event) : Option JsonDict :=
  match e.get "item_id" with
  | .str id =>
      if Key.str id ∈ b.announcedItems ∨ id = "" then (b.latestItemOfType "message").map Prod.snd
      else some (syntheticItem id)
  | _ => (b.latestItemOfType "message").map Prod.snd

def Accepts (b : StreamBridge) (e : Event) : Prop :=
  match etype e with
  | .created => ∃ ps, (e.getD "response" (.dict [])).pairs = .ok ps
  | .completed => ∃ resp, (e.getD "response" (.dict [])).methods = .ok resp
  | .outputItemAdded => CarriesItem e
  | .outputItemDone => CarriesItem e
  | .contentPartAdded => (e.get "item_id").truthy = true → Hashable (e.get "item_id") ∧ Indexed e
  | .outputTextDone => ∀ id, e.get "item_id" = .str id → Indexed e
  | .outputTextDelta => (∀ id, e.get "item_id" = .str id → Indexed e) ∧
      ∀ item, b.textTarget e = some item →
        ∃ item', appendText item (e.getD "delta" (.str "")) = .ok item'
  | .functionCallArgumentsDelta => (e.get "item_id").truthy = true →
      ∃ k, (e.get "item_id").key = .ok k ∧ ∀ item, b.itemsById.get? k = some item →
        ∃ arguments, (item.getD "arguments" (.str "")).add (e.getD "delta" (.str "")) = .ok arguments
  | .other => Hashable (e.get "type")
  | _ => True

variable {b b' b₁ : StreamBridge} {e e' : Event}

theorem latestItemOfType_appendItem {k : Key} {item : JsonDict} {type : String}
    (ht : item.get "type" = .str type) :
    (b.appendItem k item).latestItemOfType type = some (k, item) := by
  simp [latestItemOfType, appendItem, ht]

theorem consume_syntheticItemAdded (id : String) (outputIndex : Json) :
    b.consume (syntheticItemAdded id outputIndex) =
      .ok (if id = "" then b else b.appendItem (.str id) (syntheticItem id)) := by
  have ht : etype (syntheticItemAdded id outputIndex) = .outputItemAdded := rfl
  have hitem : (syntheticItemAdded id outputIndex).getD "item" (.dict []) = .obj (syntheticItem id) := rfl
  have hid : (syntheticItem id).get "id" = .str id := rfl
  unfold consume
  rw [ht]
  simp only [hitem, Json.methods, Json.asDict_obj, hid, Json.truthy, Json.key, bind, Except.bind, pure,
    Except.pure, Option.map_some, Option.getD_some]
  by_cases h : id = "" <;> simp [h]

theorem forward_partAdded (id : String) (outputIndex : Json) (n : ℤ) (es : List Event) :
    (b.forward (syntheticPartAdded id outputIndex n :: es)).2 = (b.forward es).2 := by
  have hc : b.consume (syntheticPartAdded id outputIndex n) = .ok b := rfl
  simp [forward, hc]

theorem forward_singleton : (b.forward [e]).2 = b.consume e := by
  cases hc : b.consume e <;> simp [forward, hc]

theorem forward_itemAdded (id : String) (outputIndex : Json) (es : List Event) :
    (b.forward (syntheticItemAdded id outputIndex :: es)).2 =
      ((if id = "" then b else b.appendItem (.str id) (syntheticItem id)).forward es).2 := by
  simp [forward, consume_syntheticItemAdded]

theorem announceParent_index {synth : List Event} (h : b.announceParent e = .ok (b', synth))
    (ht : (etype e).textPart = true) : ∀ id, e.get "item_id" = .str id → Indexed e := by
  intro id hid
  simp only [announceParent, hid, ht, if_true] at h
  obtain ⟨n,hn,-⟩ := Except.bind_eq_ok_iff.mp h
  exact ⟨n,hn⟩

theorem forward_append {xs ys : List Event} (h : (b.forward xs).2 = .ok b₁) :
    b.forward (xs ++ ys) = (xs ++ (b₁.forward ys).1, (b₁.forward ys).2) := by
  induction xs generalizing b with
  | nil => cases h; rfl
  | cons x xs ih =>
    obtain ⟨b₂,hc,hrest⟩ := forward_cons_ok_iff.mp h
    simp only [List.cons_append, forward, hc, ih hrest]

theorem announceParent_item {id : String} (hid : e.get "item_id" = .str id)
    (ht : (etype e).textPart = false) :
    b.announceParent e = .ok (b.noteItem id, b.owedItem id (e.getD "output_index" (.int 0))) := by
  by_cases hk : Key.str id ∈ b.announcedItems
  · simp only [announceParent, hid, ht, noteItem, owedItem, if_pos hk]
    rfl
  · simp only [announceParent, hid, ht, noteItem, owedItem, if_neg hk]
    rfl

theorem announceParent_part {id : String} {n : ℤ} (hid : e.get "item_id" = .str id)
    (ht : (etype e).textPart = true) (hn : (e.getD "content_index" (.int 0)).toInt = .ok n) :
    b.announceParent e = .ok ((b.noteItem id).notePart id n,
      b.owedItem id (e.getD "output_index" (.int 0)) ++ b.owedPart id (e.getD "output_index" (.int 0)) n) := by
  have hparts : (b.announceItem (.str id)).announcedParts = b.announcedParts := rfl
  by_cases hk : Key.str id ∈ b.announcedItems <;> by_cases hp : (Key.str id, n) ∈ b.announcedParts
  all_goals
    simp only [announceParent, hid, ht, noteItem, notePart, owedItem, owedPart, hk, hp, hparts, hn,
      if_true, if_false, bind, Except.bind, pure, Except.pure, List.append_nil, List.nil_append]

theorem forward_owedPart (id : String) (outputIndex : Json) (n : ℤ) :
    (b₁.forward (b.owedPart id outputIndex n)).2 = .ok b₁ := by
  unfold owedPart
  split
  · rfl
  · exact forward_partAdded id outputIndex n []

theorem forward_owedItem (id : String) (outputIndex : Json) :
    (b₁.forward (b.owedItem id outputIndex)).2 = .ok (if Key.str id ∈ b.announcedItems ∨ id = "" then b₁
      else b₁.appendItem (.str id) (syntheticItem id)) := by
  unfold owedItem
  by_cases hk : Key.str id ∈ b.announcedItems
  · simp [hk, forward]
  · rw [if_neg hk, forward_itemAdded]
    simp [hk, forward]

theorem latest_opened {id : String} (hid : e.get "item_id" = .str id)
    (hsame : b₁.latestItemOfType "message" = b.latestItemOfType "message") :
    ((if Key.str id ∈ b.announcedItems ∨ id = "" then b₁
      else b₁.appendItem (.str id) (syntheticItem id)).latestItemOfType "message").map Prod.snd =
      b.textTarget e := by
  simp only [textTarget, hid]
  split
  · rw [hsame]
  · rw [latestItemOfType_appendItem rfl]
    rfl

theorem announceParent_forward
    (hidx : (etype e).textPart = true → ∀ id, e.get "item_id" = .str id → Indexed e) :
    ∃ (b₁ : StreamBridge) (synth : List Event) (b₂ : StreamBridge),
      b.announceParent e = .ok (b₁, synth) ∧
      (b₁.forward (synth ++ [e])).2 = b₂.consume e ∧
      (b₂.latestItemOfType "message").map Prod.snd = b.textTarget e := by
  cases hid : e.get "item_id" with
  | str id =>
    cases ht : (etype e).textPart with
    | false =>
      refine ⟨_,_,_,announceParent_item hid ht,?_,@latest_opened b (b.noteItem id) e id hid ?_⟩
      · rw [forward_append (forward_owedItem id _)]
        exact forward_singleton
      · unfold noteItem
        split <;> rfl
    | true =>
      obtain ⟨n,hn⟩ := hidx ht id hid
      refine ⟨_,_,_,announceParent_part hid ht hn,?_,@latest_opened b ((b.noteItem id).notePart id n) e id hid ?_⟩
      · rw [List.append_assoc, forward_append (forward_owedItem id _), forward_append (forward_owedPart id _ n)]
        exact forward_singleton
      · unfold notePart noteItem
        split <;> split <;> rfl
  | _ => exact ⟨b,[],b,by simp only [announceParent, hid],forward_singleton,by simp only [textTarget, hid]⟩

def Passes (b : StreamBridge) (e : Event) : Prop :=
  ∃ (b₁ : StreamBridge) (synth : List Event) (b' : StreamBridge),
    b.synthesizeMissingAnnouncements e = .ok (b₁, synth) ∧ (b₁.forward (synth ++ [e])).2 = .ok b'

theorem passes_of_unannounced (hm : (etype e).message = false) (ha : etype e ≠ .outputItemAdded)
    (ho : etype e ≠ .other) : Passes b e ↔ ∃ b', b.consume e = .ok b' := by
  obtain ⟨name,hname⟩ := type_of_etype ho
  have hs := synthesize_named (b := b) hm ha hname
  constructor
  · rintro ⟨b₁,synth,b',hb,hf⟩
    rw [hs] at hb
    cases hb
    exact ⟨b',forward_singleton.symm.trans hf⟩
  · rintro ⟨b',hc⟩
    exact ⟨b,[],b',hs,forward_singleton.trans hc⟩

theorem passes_of_announced (b₀ : StreamBridge) (P : Prop)
    (hs : b.synthesizeMissingAnnouncements e = b₀.announceParent e)
    (hP : ∀ b₂ : StreamBridge, (b₂.latestItemOfType "message").map Prod.snd = b₀.textTarget e →
      ((∃ b', b₂.consume e = .ok b') ↔ P)) :
    Passes b e ↔
      ((etype e).textPart = true → ∀ id, e.get "item_id" = .str id → Indexed e) ∧ P := by
  constructor
  · rintro ⟨b₁,synth,b',hb,hf⟩
    rw [hs] at hb
    have hidx := fun ht => announceParent_index hb ht
    obtain ⟨b₁',synth',b₂,hb',hf',htarget⟩ := announceParent_forward hidx
    rw [hb] at hb'
    cases hb'
    exact ⟨hidx,(hP b₂ htarget).mp ⟨b',hf'.symm.trans hf⟩⟩
  · rintro ⟨hidx,hp⟩
    obtain ⟨b₁,synth,b₂,hb,hf,htarget⟩ := announceParent_forward hidx
    obtain ⟨b',hc⟩ := (hP b₂ htarget).mpr hp
    exact ⟨b₁,synth,b',hs.trans hb,hf.trans hc⟩

theorem passes_of_unconsumed (b₀ : StreamBridge) (hs : b.synthesizeMissingAnnouncements e = b₀.announceParent e)
    (hb : (etype e).buffered = false) :
    Passes b e ↔ ((etype e).textPart = true → ∀ id, e.get "item_id" = .str id → Indexed e) := by
  rw [passes_of_announced b₀ True hs fun b₂ _ => iff_of_true ⟨b₂,consume_ok_iff.mpr (.other hb)⟩ trivial,
    and_true]

theorem consume_created (ht : etype e = .created) :
    (∃ b', b.consume e = .ok b') ↔ ∃ ps, (e.getD "response" (.dict [])).pairs = .ok ps := by
  simp only [consume, ht]
  constructor
  · rintro ⟨b',h⟩
    obtain ⟨d,hd,-⟩ := Except.bind_eq_ok_iff.mp h
    obtain ⟨ps,hps,-⟩ := Except.bind_eq_ok_iff.mp hd
    exact ⟨ps,hps⟩
  · rintro ⟨ps,hps⟩
    exact ⟨_,by simp only [Dict.updateFrom, hps, bind, Except.bind]; rfl⟩

theorem consume_completed (ht : etype e = .completed) :
    (∃ b', b.consume e = .ok b') ↔ ∃ resp, (e.getD "response" (.dict [])).methods = .ok resp := by
  constructor
  · rintro ⟨b',h⟩
    simp only [consume, ht] at h
    obtain ⟨resp,hr,-⟩ := Except.bind_eq_ok_iff.mp h
    exact ⟨resp,hr⟩
  · rintro ⟨resp,hr⟩
    cases hu : (resp.get "usage").truthy with
    | true => exact ⟨_,consume_ok_iff.mpr (.used ht hr hu)⟩
    | false => exact ⟨_,consume_ok_iff.mpr (.unused ht hr hu)⟩

theorem consume_outputTextDelta (ht : etype e = .outputTextDelta) :
    (∃ b', b.consume e = .ok b') ↔ ∀ item, (b.latestItemOfType "message").map Prod.snd = some item →
      ∃ item', appendText item (e.getD "delta" (.str "")) = .ok item' := by
  unfold consume
  rw [ht]
  cases hl : b.latestItemOfType "message" with
  | none => simp
  | some p =>
    simp only [Option.map_some, Option.some.injEq, forall_eq']
    constructor
    · rintro ⟨b',h⟩
      obtain ⟨item',hi,-⟩ := Except.bind_eq_ok_iff.mp h
      exact ⟨item',hi⟩
    · rintro ⟨item',hi⟩
      exact ⟨_,Except.bind_eq_ok_iff.mpr ⟨item',hi,rfl⟩⟩

theorem consume_functionCallArgumentsDelta (ht : etype e = .functionCallArgumentsDelta) :
    (∃ b', b.consume e = .ok b') ↔ ((e.get "item_id").truthy = true →
      ∃ k, (e.get "item_id").key = .ok k ∧ ∀ item, b.itemsById.get? k = some item →
        ∃ arguments, (item.getD "arguments" (.str "")).add (e.getD "delta" (.str "")) = .ok arguments) := by
  unfold consume
  rw [ht]
  dsimp only
  by_cases htr : (e.get "item_id").truthy = true
  · simp only [htr, if_true, forall_const]
    constructor
    · rintro ⟨b',h⟩
      obtain ⟨k,hk,h⟩ := Except.bind_eq_ok_iff.mp h
      refine ⟨k,hk,fun item hi => ?_⟩
      rw [hi] at h
      obtain ⟨arguments,ha,-⟩ := Except.bind_eq_ok_iff.mp h
      exact ⟨arguments,ha⟩
    · rintro ⟨k,hk,h⟩
      simp only [hk, bind, Except.bind]
      cases hi : b.itemsById.get? k with
      | none => exact ⟨b,rfl⟩
      | some item =>
        obtain ⟨arguments,ha⟩ := h item hi
        simp only [ha]
        exact ⟨_,rfl⟩
  · simp only [htr, Bool.false_eq_true, if_false, false_implies, iff_true]
    exact ⟨b,rfl⟩

theorem consume_item (ht : etype e = .outputItemAdded ∨ etype e = .outputItemDone) :
    (∃ b', b.consume e = .ok b') ↔ CarriesItem e := by
  constructor
  · rintro ⟨b',h⟩
    unfold consume at h
    rcases ht with ht | ht <;>
    · rw [ht] at h
      obtain ⟨item,hi,h⟩ := Except.bind_eq_ok_iff.mp h
      refine ⟨item,hi,fun htr => ?_⟩
      dsimp only at h
      rw [if_pos htr] at h
      obtain ⟨k,hk,-⟩ := Except.bind_eq_ok_iff.mp h
      exact ⟨k,hk⟩
  · rintro ⟨item,hi,hid⟩
    cases htr : (item.get "id").truthy with
    | false => exact ⟨b,consume_ok_iff.mpr (.nameless ht ⟨item,hi,htr⟩)⟩
    | true =>
      obtain ⟨k,hk⟩ := hid htr
      rcases ht with ht | ht
      · exact ⟨_,consume_ok_iff.mpr (.added ht ⟨hi,htr,hk⟩)⟩
      · exact ⟨_,consume_ok_iff.mpr (.done ht ⟨hi,htr,hk⟩)⟩

theorem synthesize_itemAdded (ht : etype e = .outputItemAdded) (h : CarriesItem e) :
    ∃ b₁, b.synthesizeMissingAnnouncements e = .ok (b₁, []) := by
  obtain ⟨item,hi,hid⟩ := h
  unfold synthesizeMissingAnnouncements
  simp only [ht, hi, bind, Except.bind]
  by_cases htr : (item.get "id").truthy = true
  · obtain ⟨k,hk⟩ := hid htr
    simp only [htr, if_true, hk]
    exact ⟨_,rfl⟩
  · simp only [htr, Bool.false_eq_true, if_false]
    exact ⟨b,rfl⟩

theorem passes_itemAdded (ht : etype e = .outputItemAdded) : Passes b e ↔ CarriesItem e := by
  constructor
  · rintro ⟨b₁,synth,b',hs,-⟩
    unfold synthesizeMissingAnnouncements at hs
    rw [ht] at hs
    obtain ⟨item,hi,hs⟩ := Except.bind_eq_ok_iff.mp hs
    refine ⟨item,hi,fun htr => ?_⟩
    dsimp only at hs
    rw [if_pos htr] at hs
    obtain ⟨k,hk,-⟩ := Except.bind_eq_ok_iff.mp hs
    exact ⟨k,hk⟩
  · intro h
    obtain ⟨b₁,hs⟩ := synthesize_itemAdded (b := b) ht h
    obtain ⟨b',hc⟩ := (consume_item (b := b₁) (.inl ht)).mpr h
    exact ⟨b₁,[],b',hs,forward_singleton.trans hc⟩

theorem passes_partAdded (ht : etype e = .contentPartAdded) :
    Passes b e ↔ ((e.get "item_id").truthy = true → Hashable (e.get "item_id") ∧ Indexed e) := by
  have hb : (etype e).buffered = false := by rw [ht]; rfl
  have htext : (etype e).textPart ≠ true := by rw [ht]; decide
  by_cases htr : (e.get "item_id").truthy = true
  · constructor
    · rintro ⟨b₁,synth,b',hs,-⟩ -
      unfold synthesizeMissingAnnouncements at hs
      rw [ht] at hs
      dsimp only at hs
      rw [if_pos htr] at hs
      obtain ⟨n,hn,hs⟩ := Except.bind_eq_ok_iff.mp hs
      obtain ⟨k,hk,-⟩ := Except.bind_eq_ok_iff.mp hs
      exact ⟨⟨k,hk⟩,n,hn⟩
    · intro h
      obtain ⟨⟨k,hk⟩,n,hn⟩ := h htr
      have hs : b.synthesizeMissingAnnouncements e = (b.announcePart (k, n)).announceParent e := by
        simp [synthesizeMissingAnnouncements, ht, htr, hk, hn, bind, Except.bind]
      exact (passes_of_unconsumed _ hs hb).mpr fun h => absurd h htext
  · have hs : b.synthesizeMissingAnnouncements e = b.announceParent e := by
      simp [synthesizeMissingAnnouncements, ht, htr]
    exact iff_of_true ((passes_of_unconsumed b hs hb).mpr fun h => absurd h htext) fun h => absurd h htr

theorem passes_other (ht : etype e = .other) : Passes b e ↔ Hashable (e.get "type") := by
  have hs := synthesize_quiet (b := b) (e := e) (by rw [ht]; rfl) (by rw [ht]; decide)
  constructor
  · rintro ⟨b₁,synth,b',hb,-⟩
    rw [hs] at hb
    obtain ⟨k,hk,-⟩ := Except.bind_eq_ok_iff.mp hb
    exact ⟨k,hk⟩
  · rintro ⟨k,hk⟩
    have hc : b.consume e = .ok b := consume_ok_iff.mpr (.other (by rw [ht]; rfl))
    exact ⟨b,[],b,by rw [hs, hk]; rfl,forward_singleton.trans hc⟩

theorem passes_iff_accepts : Passes b e ↔ b.Accepts e := by
  unfold Accepts
  cases ht : etype e with
  | created =>
    rw [passes_of_unannounced (by rw [ht]; rfl) (by simp [ht]) (by simp [ht])]
    exact consume_created ht
  | completed =>
    rw [passes_of_unannounced (by rw [ht]; rfl) (by simp [ht]) (by simp [ht])]
    exact consume_completed ht
  | outputItemAdded => exact passes_itemAdded ht
  | outputItemDone =>
    rw [passes_of_unannounced (by rw [ht]; rfl) (by simp [ht]) (by simp [ht])]
    exact consume_item (.inr ht)
  | outputTextDelta =>
    rw [passes_of_announced b _ (synthesize_message (by rw [ht]; rfl) (by simp [ht]))
      (fun b₂ htarget => by rw [consume_outputTextDelta ht, htarget])]
    simp [ht, EventType.textPart]
  | functionCallArgumentsDelta =>
    rw [passes_of_unannounced (by rw [ht]; rfl) (by simp [ht]) (by simp [ht])]
    exact consume_functionCallArgumentsDelta ht
  | contentPartAdded => exact passes_partAdded ht
  | other => exact passes_other ht
  | outputTextDone | refusalDelta | refusalDone | contentPartDone =>
    rw [passes_of_unconsumed b (synthesize_message (by rw [ht]; rfl) (by simp [ht])) (by rw [ht]; rfl)]
    simp [ht, EventType.textPart]
  | inProgress | failed | incomplete =>
    rw [passes_of_unannounced (by rw [ht]; rfl) (by simp [ht]) (by simp [ht])]
    exact iff_of_true ⟨b,consume_ok_iff.mpr (.other (by rw [ht]; rfl))⟩ trivial

theorem get?_rewritten (h : Rewritten e e') {k : String} (hk : k ≠ "response") :
    e'.get? k = e.get? k := by
  cases h with
  | same => rfl
  | response _ => simp [hk]

theorem rewritten_response (h : Rewritten e e') :
    e'.getD "response" (.dict []) = e.getD "response" (.dict []) ∨
      (∃ fs, e.getD "response" (.dict []) = .dict fs) ∧ ∃ fs, e'.getD "response" (.dict []) = .dict fs := by
  cases h with
  | same => exact .inl rfl
  | @response resp id hr =>
    obtain ⟨fs,hfs,-⟩ := getD_response hr
    exact .inr ⟨⟨fs,hfs⟩,(resp.set "id" (.str id)).entries,by simp [Dict.getD, Json.obj]⟩

theorem accepts_rewritten (h : Rewritten e e') : b.Accepts e' ↔ b.Accepts e := by
  have hget (k : String) (hk : k ≠ "response") : e'.get k = e.get k := by
    simp [Dict.get, Dict.getD, get?_rewritten h hk]
  have hgetD (k : String) (j : Json) (hk : k ≠ "response") : e'.getD k j = e.getD k j := by
    simp [Dict.getD, get?_rewritten h hk]
  have htarget : b.textTarget e' = b.textTarget e := by
    unfold textTarget
    rw [hget "item_id" (by decide)]
  unfold Accepts
  rw [h.etype]
  cases ht : etype e with
  | created =>
    rcases rewritten_response h with hsame | ⟨⟨fs,hfs⟩,fs',hfs'⟩
    · simp only [hsame]
    · simp only [hfs, hfs']
      exact ⟨fun _ => ⟨_,rfl⟩,fun _ => ⟨_,rfl⟩⟩
  | completed =>
    rcases rewritten_response h with hsame | ⟨⟨fs,hfs⟩,fs',hfs'⟩
    · simp only [hsame]
    · simp only [hfs, hfs']
      exact ⟨fun _ => ⟨_,rfl⟩,fun _ => ⟨_,rfl⟩⟩
  | _ => simp [CarriesItem, Indexed, htarget, hget, hgetD]

theorem teeEvent_ok_iff_accepts : (∃ b', (b.teeEvent e).2 = .ok b') ↔ b.Accepts e := by
  constructor
  · rintro ⟨b',h⟩
    obtain ⟨e',b₁,synth,hr,hs,hf⟩ := teeEvent_ok_iff.mp h
    rw [← accepts_rewritten (maybeRewriteId_ok hr)]
    exact passes_iff_accepts.mp ⟨b₁,synth,b',hs,hf⟩
  · intro h
    have hkey : ∃ k, (e.get "type").key = .ok k := by
      unfold Accepts at h
      by_cases ht : etype e = .other
      · rw [ht] at h; exact h
      · obtain ⟨name,hname⟩ := type_of_etype ht
        exact ⟨.str name,by rw [hname]; rfl⟩
    obtain ⟨e',hr⟩ : ∃ e', b.maybeRewriteId e = .ok e' := by
      obtain ⟨k,hk⟩ := hkey
      unfold maybeRewriteId
      split
      · exact ⟨e,rfl⟩
      · split
        · exact ⟨e,rfl⟩
        · simp only [hk, bind, Except.bind]
          split
          · split <;> exact ⟨_,rfl⟩
          · exact ⟨e,rfl⟩
    rw [← accepts_rewritten (maybeRewriteId_ok hr)] at h
    obtain ⟨b₁,synth,b',hs,hf⟩ := passes_iff_accepts.mpr h
    exact ⟨b',teeEvent_ok_iff.mpr ⟨e',b₁,synth,hr,hs,hf⟩⟩

def AcceptsAll : StreamBridge → List Event → Prop
  | _, [] => True
  | b, e :: es => b.Accepts e ∧ ∀ b', (b.teeEvent e).2 = .ok b' → AcceptsAll b' es

theorem tee_ok_iff_acceptsAll {es : List Event} : (∃ b', (b.tee es).2 = .ok b') ↔ b.AcceptsAll es := by
  induction es generalizing b with
  | nil => exact ⟨fun _ => trivial,fun _ => ⟨b,rfl⟩⟩
  | cons e es ih =>
    simp only [AcceptsAll, ← teeEvent_ok_iff_accepts, tee_cons_ok_iff]
    constructor
    · rintro ⟨b',b₁,he,hes⟩
      refine ⟨⟨b₁,he⟩,fun b₂ h₂ => ?_⟩
      rw [he, Except.ok.injEq] at h₂
      exact ih.mp ⟨b',h₂ ▸ hes⟩
    · rintro ⟨⟨b₁,he⟩,hall⟩
      obtain ⟨b',hes⟩ := ih.mpr (hall b₁ he)
      exact ⟨b',b₁,he,hes⟩

end StreamBridge

end ResponsesGateway
