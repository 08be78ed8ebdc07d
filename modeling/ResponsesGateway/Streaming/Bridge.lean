import ResponsesGateway.Python.Json

namespace ResponsesGateway

abbrev Event := JsonDict

inductive EventType where
  | created
  | inProgress
  | completed
  | failed
  | incomplete
  | outputItemAdded
  | outputItemDone
  | outputTextDelta
  | outputTextDone
  | refusalDelta
  | refusalDone
  | contentPartAdded
  | contentPartDone
  | functionCallArgumentsDelta
  | other
  deriving DecidableEq

namespace EventType

def ofName (name : String) : EventType :=
  if name = "response.created" then created
  else if name = "response.in_progress" then inProgress
  else if name = "response.completed" then completed
  else if name = "response.failed" then failed
  else if name = "response.incomplete" then incomplete
  else if name = "response.output_item.added" then outputItemAdded
  else if name = "response.output_item.done" then outputItemDone
  else if name = "response.output_text.delta" then outputTextDelta
  else if name = "response.output_text.done" then outputTextDone
  else if name = "response.refusal.delta" then refusalDelta
  else if name = "response.refusal.done" then refusalDone
  else if name = "response.content_part.added" then contentPartAdded
  else if name = "response.content_part.done" then contentPartDone
  else if name = "response.function_call_arguments.delta" then functionCallArgumentsDelta
  else other

def lifecycle : EventType → Bool
  | created | inProgress | completed | failed | incomplete => true
  | _ => false

def message : EventType → Bool
  | outputTextDelta | outputTextDone | refusalDelta | refusalDone | contentPartAdded
  | contentPartDone => true
  | _ => false

def textPart : EventType → Bool
  | outputTextDelta | outputTextDone => true
  | _ => false

def buffered : EventType → Bool
  | created | outputItemAdded | outputTextDelta | functionCallArgumentsDelta | outputItemDone
  | completed => true
  | _ => false

end EventType

/-- A type that is no string equals none of the names. -/
def etype (e : Event) : EventType :=
  match e.get "type" with
  | .str name => .ofName name
  | _ => .other

/-- `_item_order` only lists ids that `_items_by_id` holds. -/
structure StreamBridge where
  rewriteId : Option String
  itemsById : Dict Key JsonDict
  itemOrder : List Key
  finalResponse : JsonDict
  announcedItems : List Key
  announcedParts : List (Key × ℤ)
  held : ∀ k ∈ itemOrder, (itemsById.get? k).isSome

def syntheticItemAdded (itemId : String) (outputIndex : Json) : Event :=
  .ofEntries [("type", .str "response.output_item.added"), ("output_index", outputIndex),
    ("item", .dict [("id", .str itemId), ("type", .str "message"), ("role", .str "assistant"),
      ("status", .str "in_progress"), ("content", .list [])])]

def syntheticPartAdded (itemId : String) (outputIndex : Json) (contentIndex : ℤ) : Event :=
  .ofEntries [("type", .str "response.content_part.added"), ("item_id", .str itemId),
    ("output_index", outputIndex), ("content_index", .int contentIndex),
    ("part", .dict [("type", .str "output_text"), ("text", .str ""), ("annotations", .list [])])]

def newTextPart : JsonDict := .ofEntries [("type", .str "output_text"), ("text", .str "")]

def openTextPart (parts : List Json) : Except PyError (List Json × JsonDict) :=
  match parts.getLast? with
  | none => .ok (parts, newTextPart)
  | some last => do
      let part ← last.methods
      if part.get "type" = .str "output_text" then return (parts.dropLast, part)
      else return (parts, newTextPart)

def appendText (item : JsonDict) (delta : Json) : Except PyError JsonDict :=
  match item.getD "content" (.list []) with
  | .list parts => do
      let (front, part) ← openTextPart parts
      match part.get? "text" with
      | none => throw .keyError
      | some text => do
          let text ← text.iadd delta
          return item.set "content" (.list (front ++ [.obj (part.set "text" text)]))
  -- No other value has both `append` and a last item with `get`.
  | content =>
      if content.truthy then
        match content with
        | .str _ => .error .attributeError
        | .dict _ => .error .keyError
        | _ => .error .typeError
      else .error .attributeError

namespace StreamBridge

def init (rewriteId : Option String) : StreamBridge where
  rewriteId := rewriteId
  itemsById := .empty
  itemOrder := []
  finalResponse := .ofEntries [("output", .list []), ("usage", .dict [])]
  announcedItems := []
  announcedParts := []
  held := by simp

def announceItem (b : StreamBridge) (k : Key) : StreamBridge :=
  { b with announcedItems := k :: b.announcedItems }

def announcePart (b : StreamBridge) (part : Key × ℤ) : StreamBridge :=
  { b with announcedParts := part :: b.announcedParts }

def setFinal (b : StreamBridge) (d : JsonDict) : StreamBridge := { b with finalResponse := d }

def storeItem (b : StreamBridge) (k : Key) (item : JsonDict) : StreamBridge :=
  { b with
    itemsById := b.itemsById.set k item
    held := by
      intro j hj
      rw [Dict.get?_set]
      split
      · rfl
      · exact b.held j hj }

def appendItem (b : StreamBridge) (k : Key) (item : JsonDict) : StreamBridge :=
  { b with
    itemsById := b.itemsById.set k item
    itemOrder := b.itemOrder ++ [k]
    held := by
      intro j hj
      rw [Dict.get?_set]
      split
      · rfl
      · rename_i h
        exact b.held j ((List.mem_append.mp hj).resolve_right (by simpa using h)) }

def maybeRewriteId (b : StreamBridge) (e : Event) : Except PyError Event :=
  match b.rewriteId with
  | none => .ok e
  | some id =>
      if id = "" then .ok e
      else do
        let _ ← (e.get "type").key
        match (e.get "response").asDict with
        | some resp =>
            if (etype e).lifecycle then return e.set "response" (.obj (resp.set "id" (.str id)))
            else return e
        | none => return e

def announceParent (b : StreamBridge) (e : Event) : Except PyError (StreamBridge × List Event) :=
  match e.get "item_id" with
  | .str itemId => do
      let outputIndex := e.getD "output_index" (.int 0)
      let k := Key.str itemId
      let (b, synth) := if k ∈ b.announcedItems then (b, [])
        else (b.announceItem k, [syntheticItemAdded itemId outputIndex])
      if (etype e).textPart then
        let cidx ← (e.getD "content_index" (.int 0)).toInt
        if (k, cidx) ∈ b.announcedParts then return (b, synth)
        else return (b.announcePart (k, cidx), synth ++ [syntheticPartAdded itemId outputIndex cidx])
      else return (b, synth)
  | _ => .ok (b, [])

def synthesizeMissingAnnouncements (b : StreamBridge) (e : Event) :
    Except PyError (StreamBridge × List Event) :=
  match etype e with
  | .outputItemAdded => do
      let item ← (e.getD "item" (.dict [])).methods
      let iid := item.get "id"
      if iid.truthy then
        let k ← iid.key
        return (b.announceItem k, [])
      else return (b, [])
  | .contentPartAdded =>
      let iid := e.get "item_id"
      if iid.truthy then do
        let cidx ← (e.getD "content_index" (.int 0)).toInt
        let k ← iid.key
        (b.announcePart (k, cidx)).announceParent e
      else b.announceParent e
  | t =>
      if t.message then b.announceParent e
      else do
        let _ ← (e.get "type").key
        return (b, [])

def latestItemOfType (b : StreamBridge) (itemType : String) : Option (Key × JsonDict) :=
  b.itemOrder.reverse.findSome? (fun k =>
    (b.itemsById.get? k).bind (fun item =>
      if item.get "type" = .str itemType then some (k, item) else none))

def consume (b : StreamBridge) (e : Event) : Except PyError StreamBridge :=
  match etype e with
  | .created => do
      -- `output` and `usage` are there from the start, so both `setdefault` find them.
      let d ← b.finalResponse.updateFrom (e.getD "response" (.dict []))
      return b.setFinal d
  | .outputItemAdded => do
      let item ← (e.getD "item" (.dict [])).methods
      let iid := item.get "id"
      if iid.truthy then
        let k ← iid.key
        return b.appendItem k item
      else return b
  | .outputTextDelta =>
      match b.latestItemOfType "message" with
      | none => .ok b
      | some (k, item) => do
          let item ← appendText item (e.getD "delta" (.str ""))
          return b.storeItem k item
  | .functionCallArgumentsDelta => do
      let iid := e.get "item_id"
      if iid.truthy then
        let k ← iid.key
        match b.itemsById.get? k with
        | none => return b
        | some item =>
            let arguments ← (item.getD "arguments" (.str "")).add (e.getD "delta" (.str ""))
            return b.storeItem k (item.set "arguments" arguments)
      else return b
  | .outputItemDone => do
      let item ← (e.getD "item" (.dict [])).methods
      let iid := item.get "id"
      if iid.truthy then
        let k ← iid.key
        return b.storeItem k item
      else return b
  | .completed => do
      let resp ← (e.getD "response" (.dict [])).methods
      let usage := resp.get "usage"
      if usage.truthy then return b.setFinal (b.finalResponse.set "usage" usage)
      else return b
  | _ => .ok b

/-- Consumes and forwards; an event that cannot be consumed is not forwarded. -/
def forward : StreamBridge → List Event → List Event × Except PyError StreamBridge
  | b, [] => ([], .ok b)
  | b, e :: es =>
      match b.consume e with
      | .error x => ([], .error x)
      | .ok b => let (out, r) := forward b es; (e :: out, r)

def teeEvent (b : StreamBridge) (e : Event) : List Event × Except PyError StreamBridge :=
  match b.maybeRewriteId e with
  | .error x => ([], .error x)
  | .ok e =>
      match b.synthesizeMissingAnnouncements e with
      | .error x => ([], .error x)
      | .ok (b, synth) => b.forward (synth ++ [e])

/-- What `tee` forwards of a source, and the bridge it leaves or the exception it ends with. -/
def tee : StreamBridge → List Event → List Event × Except PyError StreamBridge
  | b, [] => ([], .ok b)
  | b, e :: es =>
      match b.teeEvent e with
      | (out, .error x) => (out, .error x)
      | (out, .ok b) => let (more, r) := tee b es; (out ++ more, r)

end StreamBridge

def Carries (e : Event) (item : JsonDict) (k : Key) : Prop :=
  (e.getD "item" (.dict [])).methods = .ok item ∧ (item.get "id").truthy = true ∧
    (item.get "id").key = .ok k

def Nameless (e : Event) : Prop :=
  ∃ item, (e.getD "item" (.dict [])).methods = .ok item ∧ (item.get "id").truthy = false

inductive Consumes (b : StreamBridge) (e : Event) : StreamBridge → Prop
  | created {d} : etype e = .created →
      b.finalResponse.updateFrom (e.getD "response" (.dict [])) = .ok d → Consumes b e (b.setFinal d)
  | added {item k} : etype e = .outputItemAdded → Carries e item k → Consumes b e (b.appendItem k item)
  | done {item k} : etype e = .outputItemDone → Carries e item k → Consumes b e (b.storeItem k item)
  | nameless : etype e = .outputItemAdded ∨ etype e = .outputItemDone → Nameless e → Consumes b e b
  | extended {k item item'} : etype e = .outputTextDelta →
      b.latestItemOfType "message" = some (k, item) →
      appendText item (e.getD "delta" (.str "")) = .ok item' → Consumes b e (b.storeItem k item')
  | dropped : etype e = .outputTextDelta → b.latestItemOfType "message" = none → Consumes b e b
  | argued {k item arguments} : etype e = .functionCallArgumentsDelta → (e.get "item_id").truthy = true →
      (e.get "item_id").key = .ok k → b.itemsById.get? k = some item →
      (item.getD "arguments" (.str "")).add (e.getD "delta" (.str "")) = .ok arguments →
      Consumes b e (b.storeItem k (item.set "arguments" arguments))
  | unknown {k} : etype e = .functionCallArgumentsDelta → (e.get "item_id").truthy = true →
      (e.get "item_id").key = .ok k → b.itemsById.get? k = none → Consumes b e b
  | unaddressed : etype e = .functionCallArgumentsDelta → (e.get "item_id").truthy = false → Consumes b e b
  | used {resp} : etype e = .completed → (e.getD "response" (.dict [])).methods = .ok resp →
      (resp.get "usage").truthy = true →
      Consumes b e (b.setFinal (b.finalResponse.set "usage" (resp.get "usage")))
  | unused {resp} : etype e = .completed → (e.getD "response" (.dict [])).methods = .ok resp →
      (resp.get "usage").truthy = false → Consumes b e b
  | other : (etype e).buffered = false → Consumes b e b

theorem Carries.unique {e : Event} {item item' : JsonDict} {k k' : Key} (h : Carries e item k)
    (h' : Carries e item' k') : item = item' ∧ k = k' := by
  obtain ⟨hi,-,hk⟩ := h
  obtain ⟨hi',-,hk'⟩ := h'
  obtain rfl := Except.ok.inj (hi.symm.trans hi')
  exact ⟨rfl,Except.ok.inj (hk.symm.trans hk')⟩

theorem Nameless.not_carries {e : Event} {item : JsonDict} {k : Key} (h : Nameless e) : ¬ Carries e item k := by
  rintro ⟨hi,htr,-⟩
  obtain ⟨item',hi',htr'⟩ := h
  obtain rfl := Except.ok.inj (hi.symm.trans hi')
  rw [htr'] at htr
  cases htr

theorem carries_or_nameless {α : Type} {e : Event} {filed : JsonDict → Key → α} {untouched r : α}
    (h : ((e.getD "item" (.dict [])).methods >>= fun item =>
      if (item.get "id").truthy then (item.get "id").key >>= fun k => .ok (filed item k) else .ok untouched) =
        .ok r) :
    (∃ item k, Carries e item k ∧ r = filed item k) ∨ Nameless e ∧ r = untouched := by
  obtain ⟨item,hi,h⟩ := Except.bind_eq_ok_iff.mp h
  split at h
  · next htr =>
    obtain ⟨k,hk,h⟩ := Except.bind_eq_ok_iff.mp h
    cases h
    exact .inl ⟨item,k,⟨hi,htr,hk⟩,rfl⟩
  · next htr =>
    cases h
    exact .inr ⟨⟨item,hi,Bool.eq_false_iff.mpr htr⟩,rfl⟩

namespace StreamBridge

theorem consumes_of_consume {b b' : StreamBridge} {e : Event} (h : b.consume e = .ok b') : Consumes b e b' := by
  unfold consume at h
  split at h
  case h_1 ht =>
    obtain ⟨d,hd,h⟩ := Except.bind_eq_ok_iff.mp h
    cases h
    exact .created ht hd
  case h_2 ht =>
    rcases carries_or_nameless h with ⟨item,k,hc,rfl⟩ | ⟨hn,rfl⟩
    · exact .added ht hc
    · exact .nameless (.inl ht) hn
  case h_3 ht =>
    split at h
    · rename_i hl
      cases h
      exact .dropped ht hl
    · rename_i k item hl
      obtain ⟨item',hi,h⟩ := Except.bind_eq_ok_iff.mp h
      cases h
      exact .extended ht hl hi
  case h_4 ht =>
    dsimp only at h
    split at h
    · rename_i htr
      obtain ⟨k,hk,h⟩ := Except.bind_eq_ok_iff.mp h
      split at h
      · rename_i hi
        cases h
        exact .unknown ht htr hk hi
      · rename_i item hi
        obtain ⟨arguments,ha,h⟩ := Except.bind_eq_ok_iff.mp h
        cases h
        exact .argued ht htr hk hi ha
    · rename_i htr
      cases h
      exact .unaddressed ht (Bool.eq_false_iff.mpr htr)
  case h_5 ht =>
    rcases carries_or_nameless h with ⟨item,k,hc,rfl⟩ | ⟨hn,rfl⟩
    · exact .done ht hc
    · exact .nameless (.inr ht) hn
  case h_6 ht =>
    obtain ⟨resp,hr,h⟩ := Except.bind_eq_ok_iff.mp h
    dsimp only at h
    split at h
    · rename_i hu
      cases h
      exact .used ht hr hu
    · rename_i hu
      cases h
      exact .unused ht hr (Bool.eq_false_iff.mpr hu)
  case h_7 h₁ h₂ h₃ h₄ h₅ h₆ =>
    cases h
    refine .other ?_
    cases ht : etype e <;> first | rfl | contradiction

theorem consume_of_consumes {b b' : StreamBridge} {e : Event} (h : Consumes b e b') : b.consume e = .ok b' := by
  cases h with
  | created ht hd => simp only [consume, ht, hd, bind, Except.bind, pure, Except.pure]
  | added ht hc =>
    obtain ⟨hi,htr,hk⟩ := hc
    simp only [consume, ht, hi, htr, hk, if_true, bind, Except.bind, pure, Except.pure]
  | done ht hc =>
    obtain ⟨hi,htr,hk⟩ := hc
    simp only [consume, ht, hi, htr, hk, if_true, bind, Except.bind, pure, Except.pure]
  | nameless ht hn =>
    obtain ⟨item,hi,htr⟩ := hn
    rcases ht with ht | ht <;>
      simp only [consume, ht, hi, htr, Bool.false_eq_true, if_false, bind, Except.bind, pure, Except.pure]
  | extended ht hl ha => simp only [consume, ht, hl, ha, bind, Except.bind, pure, Except.pure]
  | dropped ht hl => simp only [consume, ht, hl]
  | argued ht htr hk hi ha =>
    simp only [consume, ht, htr, hk, hi, ha, if_true, bind, Except.bind, pure, Except.pure]
  | unknown ht htr hk hi => simp only [consume, ht, htr, hk, hi, if_true, bind, Except.bind, pure, Except.pure]
  | unaddressed ht htr => simp only [consume, ht, htr, Bool.false_eq_true, if_false, pure, Except.pure]
  | used ht hr hu => simp only [consume, ht, hr, hu, if_true, bind, Except.bind, pure, Except.pure]
  | unused ht hr hu =>
    simp only [consume, ht, hr, hu, Bool.false_eq_true, if_false, bind, Except.bind, pure, Except.pure]
  | other ht =>
    unfold consume
    cases h : etype e <;> rw [h] at ht <;> first | rfl | cases ht

theorem consume_ok_iff {b b' : StreamBridge} {e : Event} : b.consume e = .ok b' ↔ Consumes b e b' :=
  ⟨consumes_of_consume,consume_of_consumes⟩

theorem type_of_etype {e : Event} (h : etype e ≠ .other) : ∃ name, e.get "type" = .str name := by
  unfold etype at h
  split at h
  · rename_i name hn; exact ⟨name,hn⟩
  · exact absurd rfl h

theorem synthesize_quiet {b : StreamBridge} {e : Event} (hm : (etype e).message = false)
    (ha : etype e ≠ .outputItemAdded) :
    b.synthesizeMissingAnnouncements e = do
      let _ ← (e.get "type").key
      return (b, []) := by
  unfold synthesizeMissingAnnouncements
  split
  · rename_i ht; exact absurd ht ha
  · rename_i ht; rw [ht] at hm; cases hm
  · rw [hm, if_neg Bool.false_ne_true]

theorem synthesize_named {b : StreamBridge} {e : Event} {name : String} (hm : (etype e).message = false)
    (ha : etype e ≠ .outputItemAdded) (ht : e.get "type" = .str name) :
    b.synthesizeMissingAnnouncements e = .ok (b, []) := by
  rw [synthesize_quiet hm ha, ht]
  rfl

theorem synthesize_message {b : StreamBridge} {e : Event} (hm : (etype e).message = true)
    (hp : etype e ≠ .contentPartAdded) : b.synthesizeMissingAnnouncements e = b.announceParent e := by
  unfold synthesizeMissingAnnouncements
  split
  · rename_i ht; rw [ht] at hm; cases hm
  · rename_i ht; exact absurd ht hp
  · rw [if_pos hm]

theorem maybeRewriteId_other {b : StreamBridge} {e : Event} {name : String} (ht : e.get "type" = .str name)
    (hl : (etype e).lifecycle = false) : b.maybeRewriteId e = .ok e := by
  unfold maybeRewriteId
  split
  · rfl
  · split
    · rfl
    · rw [ht]
      simp only [Json.key, bind, Except.bind, hl]
      split <;> rfl

theorem maybeRewriteId_lifecycle {b : StreamBridge} {e : Event} {id name : String} {resp : JsonDict} (hid : id ≠ "")
    (hb : b.rewriteId = some id) (ht : e.get "type" = .str name) (hl : (etype e).lifecycle = true)
    (hr : e.get? "response" = some (.obj resp)) :
    b.maybeRewriteId e = .ok (e.set "response" (.obj (resp.set "id" (.str id)))) := by
  have hd : (e.get "response").asDict = some resp := by simp [Dict.get, Dict.getD, hr]
  unfold maybeRewriteId
  simp only [hb, if_neg hid, ht, Json.key, bind, Except.bind, hd, hl, if_true]
  rfl

theorem tee_cons_of_ok {b b₁ : StreamBridge} {e : Event} (es : List Event) (h : (b.teeEvent e).2 = .ok b₁) :
    b.tee (e :: es) = ((b.teeEvent e).1 ++ (b₁.tee es).1, (b₁.tee es).2) := by
  rw [tee]
  generalize b.teeEvent e = q at h
  obtain ⟨out,result⟩ := q
  cases h
  rfl

theorem tee_cons_of_error {b : StreamBridge} {e : Event} {x : PyError} (es : List Event)
    (h : (b.teeEvent e).2 = .error x) : b.tee (e :: es) = ((b.teeEvent e).1, .error x) := by
  rw [tee]
  generalize b.teeEvent e = q at h
  obtain ⟨out,result⟩ := q
  cases h
  rfl

theorem tee_cons_ok_iff {b b' : StreamBridge} {e : Event} {es : List Event} :
    (b.tee (e :: es)).2 = .ok b' ↔
      ∃ b₁, (b.teeEvent e).2 = .ok b₁ ∧ (b₁.tee es).2 = .ok b' := by
  rw [tee]
  rcases b.teeEvent e with ⟨out,_ | b₁⟩ <;> simp

theorem tee_append_ok_iff {b b' : StreamBridge} {es fs : List Event} :
    (b.tee (es ++ fs)).2 = .ok b' ↔ ∃ b₁, (b.tee es).2 = .ok b₁ ∧ (b₁.tee fs).2 = .ok b' := by
  induction es generalizing b with
  | nil => simp [tee]
  | cons e es ih =>
    rw [List.cons_append, tee_cons_ok_iff]
    constructor
    · rintro ⟨b₁,he,hr⟩
      obtain ⟨b₂,hes,hfs⟩ := ih.mp hr
      exact ⟨b₂,tee_cons_ok_iff.mpr ⟨b₁,he,hes⟩,hfs⟩
    · rintro ⟨b₂,hr,hfs⟩
      obtain ⟨b₁,he,hes⟩ := tee_cons_ok_iff.mp hr
      exact ⟨b₁,he,ih.mpr ⟨b₂,hes,hfs⟩⟩

theorem teeEvent_ok_iff {b b' : StreamBridge} {e : Event} :
    (b.teeEvent e).2 = .ok b' ↔ ∃ e' b₁ synth, b.maybeRewriteId e = .ok e' ∧
      b.synthesizeMissingAnnouncements e' = .ok (b₁, synth) ∧
      (b₁.forward (synth ++ [e'])).2 = .ok b' := by
  unfold teeEvent
  cases hr : b.maybeRewriteId e with
  | error x => simp
  | ok e' =>
    cases hs : b.synthesizeMissingAnnouncements e' with
    | error x => simp [hs]
    | ok p =>
      obtain ⟨b₁,synth⟩ := p
      simp [hs]

theorem forward_cons_ok_iff {b b' : StreamBridge} {e : Event} {es : List Event} :
    (b.forward (e :: es)).2 = .ok b' ↔
      ∃ b₁, b.consume e = .ok b₁ ∧ (b₁.forward es).2 = .ok b' := by
  rw [forward]
  cases b.consume e <;> simp

theorem forward_ok {b b' : StreamBridge} {es : List Event} (h : (b.forward es).2 = .ok b') :
    b.forward es = (es, .ok b') := by
  induction es generalizing b with
  | nil => cases h; rfl
  | cons e es ih =>
    obtain ⟨b₁,hc,hrest⟩ := forward_cons_ok_iff.mp h
    simp only [forward, hc, ih hrest]

theorem forward_initial {b : StreamBridge} {es : List Event} : (b.forward es).1 <+: es := by
  induction es generalizing b with
  | nil => exact List.nil_prefix
  | cons e es ih =>
    simp only [forward]
    cases b.consume e with
    | error x => exact List.nil_prefix
    | ok b₁ => exact (List.prefix_cons_inj e).mpr ih

def owedItem (b : StreamBridge) (id : String) (outputIndex : Json) : List Event :=
  if Key.str id ∈ b.announcedItems then [] else [syntheticItemAdded id outputIndex]

def owedPart (b : StreamBridge) (id : String) (outputIndex : Json) (n : ℤ) : List Event :=
  if (Key.str id, n) ∈ b.announcedParts then [] else [syntheticPartAdded id outputIndex n]

def noteItem (b : StreamBridge) (id : String) : StreamBridge :=
  if Key.str id ∈ b.announcedItems then b else b.announceItem (.str id)

def notePart (b : StreamBridge) (id : String) (n : ℤ) : StreamBridge :=
  if (Key.str id, n) ∈ b.announcedParts then b else b.announcePart (.str id, n)

def items (b : StreamBridge) : List JsonDict :=
  b.itemOrder.attach.map (fun k => (b.itemsById.get? k.1).get (b.held k.1 k.2))

theorem items_map {β : Type} {b : StreamBridge} {f : JsonDict → β} {g : Key → β}
    (h : ∀ k ∈ b.itemOrder, ∀ item, b.itemsById.get? k = some item → f item = g k) :
    b.items.map f = b.itemOrder.map g := by
  simp only [items, List.map_map]
  conv_rhs => rw [← List.attach_map_subtype_val b.itemOrder, List.map_map]
  exact List.map_congr_left fun k _ => h k.1 k.2 _ (Option.some_get _).symm

theorem mem_items {b : StreamBridge} {item : JsonDict} :
    item ∈ b.items ↔ ∃ k ∈ b.itemOrder, b.itemsById.get? k = some item := by
  simp only [items, List.mem_map, List.mem_attach, true_and, Subtype.exists]
  constructor
  · rintro ⟨k,hk,rfl⟩
    exact ⟨k,hk,(Option.some_get _).symm⟩
  · rintro ⟨k,hk,hitem⟩
    exact ⟨k,hk,by simp [hitem]⟩

def finalState (b : StreamBridge) : JsonDict :=
  b.finalResponse.set "output" (.list (b.items.map Json.obj))

end StreamBridge

end ResponsesGateway
