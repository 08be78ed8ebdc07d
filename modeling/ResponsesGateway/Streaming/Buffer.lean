import Mathlib.Data.List.Induction
import ResponsesGateway.Streaming.Acceptance
import ResponsesGateway.Streaming.TextParts

namespace ResponsesGateway

structure Buffer where
  itemsById : Dict Key JsonDict
  itemOrder : List Key
  announced : List Key

namespace Buffer

def put (c : Buffer) (k : Key) (item : JsonDict) : Buffer :=
  { c with itemsById := c.itemsById.set k item }

def add (c : Buffer) (k : Key) (item : JsonDict) : Buffer :=
  ⟨c.itemsById.set k item, c.itemOrder ++ [k], k :: c.announced⟩

def introduce (c : Buffer) (id : String) : Buffer :=
  if Key.str id ∈ c.announced then c
  else if id = "" then { c with announced := .str id :: c.announced }
  else c.add (.str id) (syntheticItem id)

def noted (c : Buffer) (e : Event) : Buffer :=
  match e.get "item_id" with
  | .str id => c.introduce id
  | _ => c

def latest (c : Buffer) (type : String) : Option (Key × JsonDict) :=
  c.itemOrder.reverse.findSome? (fun k =>
    (c.itemsById.get? k).bind (fun item =>
      if item.get "type" = .str type then some (k, item) else none))

end Buffer

inductive Buffers (c : Buffer) (e : Event) : Buffer → Prop
  | added {item k} : etype e = .outputItemAdded → Carries e item k → Buffers c e (c.add k item)
  | done {item k} : etype e = .outputItemDone → Carries e item k → Buffers c e (c.put k item)
  | mentioned : (etype e).message = true → etype e ≠ .outputTextDelta → Buffers c e (c.noted e)
  | extended {k item item'} : etype e = .outputTextDelta →
      (c.noted e).latest "message" = some (k, item) →
      appendText item (e.getD "delta" (.str "")) = .ok item' → Buffers c e ((c.noted e).put k item')
  | dropped : etype e = .outputTextDelta → (c.noted e).latest "message" = none → Buffers c e (c.noted e)
  | argued {k item arguments} : etype e = .functionCallArgumentsDelta →
      c.itemsById.get? k = some item → Buffers c e (c.put k (item.set "arguments" arguments))
  | quiet : (etype e).message = false →
      (etype e = .outputItemAdded ∨ etype e = .outputItemDone → ∀ item k, ¬ Carries e item k) →
      Buffers c e c

namespace StreamBridge

variable {b b' b₁ b₂ : StreamBridge} {e e' : Event} {synth : List Event}

def buffer (b : StreamBridge) : Buffer := ⟨b.itemsById, b.itemOrder, b.announcedItems⟩

theorem buffer_noted {id : String} (hid : e.get "item_id" = .str id)
    (hi : b₁.itemsById = b.itemsById) (ho : b₁.itemOrder = b.itemOrder)
    (ha : b₁.announcedItems = (b.noteItem id).announcedItems) :
    (if Key.str id ∈ b.announcedItems ∨ id = "" then b₁
      else b₁.appendItem (.str id) (syntheticItem id)).buffer = b.buffer.noted e := by
  unfold noteItem at ha
  simp only [Buffer.noted, hid, Buffer.introduce]
  by_cases hk : Key.str id ∈ b.announcedItems
  · simp only [hk, if_true, true_or] at ha ⊢
    simp [buffer, hi, ho, ha, hk]
  · have hk' : Key.str id ∉ b.buffer.announced := hk
    rw [if_neg hk] at ha
    rw [if_neg hk']
    by_cases he : id = ""
    · simp [he, buffer, hi, ho, ha, announceItem]
    · simp [he, hk, buffer, hi, ho, ha, announceItem, appendItem, Buffer.add]

theorem announceParent_forwards (h : b.announceParent e = .ok (b₁, synth)) :
    ∃ b₂, (b₁.forward synth).2 = .ok b₂ ∧ b₂.buffer = b.buffer.noted e := by
  cases hid : e.get "item_id" with
  | str id =>
    cases ht : (etype e).textPart with
    | false =>
      rw [announceParent_item hid ht] at h
      cases h
      refine ⟨_,forward_owedItem id _,buffer_noted hid ?_ ?_ rfl⟩ <;> unfold noteItem <;> split <;> rfl
    | true =>
      obtain ⟨n,hn⟩ := announceParent_index h ht id hid
      rw [announceParent_part hid ht hn] at h
      cases h
      refine ⟨_,?_,@buffer_noted b ((b.noteItem id).notePart id n) e id hid ?_ ?_ ?_⟩
      · rw [forward_append (forward_owedItem id _)]
        exact forward_owedPart id _ n
      all_goals unfold notePart noteItem; split <;> split <;> rfl
  | _ =>
    have hsame : b.announceParent e = .ok (b, []) := by simp only [announceParent, hid]
    rw [hsame] at h
    cases h
    exact ⟨b,rfl,by simp only [Buffer.noted, hid]⟩

theorem mention_forwards (hm : (etype e).message = true)
    (h : b.synthesizeMissingAnnouncements e = .ok (b₁, synth)) :
    ∃ b₂, (b₁.forward synth).2 = .ok b₂ ∧ b₂.buffer = b.buffer.noted e := by
  by_cases ht : etype e = .contentPartAdded
  · simp only [synthesizeMissingAnnouncements, ht] at h
    split at h
    · obtain ⟨n,-,h⟩ := Except.bind_eq_ok_iff.mp h
      obtain ⟨k,-,h⟩ := Except.bind_eq_ok_iff.mp h
      exact announceParent_forwards (b := b.announcePart (k, n)) h
    · exact announceParent_forwards h
  · rw [synthesize_message hm ht] at h
    exact announceParent_forwards h

theorem synthesize_unmentioned (ht : (etype e).message = false) (hadded : etype e ≠ .outputItemAdded)
    (h : b.synthesizeMissingAnnouncements e = .ok (b₁, synth)) : b₁ = b ∧ synth = [] := by
  rw [synthesize_quiet ht hadded] at h
  obtain ⟨k,-,h⟩ := Except.bind_eq_ok_iff.mp h
  cases h
  exact ⟨rfl,rfl⟩

theorem synthesize_item (ht : etype e = .outputItemAdded)
    (h : b.synthesizeMissingAnnouncements e = .ok (b₁, synth)) :
    synth = [] ∧ ((∃ item k, Carries e item k ∧ b₁ = b.announceItem k) ∨ Nameless e ∧ b₁ = b) := by
  unfold synthesizeMissingAnnouncements at h
  rw [ht] at h
  rcases carries_or_nameless h with ⟨item,k,hc,he⟩ | ⟨hn,he⟩
  · obtain ⟨rfl,rfl⟩ := Prod.mk.inj he
    exact ⟨rfl,.inl ⟨item,k,hc,rfl⟩⟩
  · obtain ⟨rfl,rfl⟩ := Prod.mk.inj he
    exact ⟨rfl,.inr ⟨hn,rfl⟩⟩

theorem buffers_unchanged (ht : (etype e).message = false) (hadded : etype e ≠ .outputItemAdded)
    (hdone : etype e ≠ .outputItemDone) (c : Buffer) : Buffers c e c :=
  .quiet ht fun hitem => absurd hitem (not_or.mpr ⟨hadded,hdone⟩)

theorem consume_buffers (hm : (etype e).message = false) (hadded : etype e ≠ .outputItemAdded)
    (h : b.consume e = .ok b') : Buffers b.buffer e b'.buffer := by
  cases consume_ok_iff.mp h with
  | added ht => exact absurd ht hadded
  | done ht hc => exact .done ht hc
  | nameless ht hn => exact .quiet hm fun _ item k => hn.not_carries
  | extended ht => rw [ht] at hm; cases hm
  | dropped ht => rw [ht] at hm; cases hm
  | argued ht _ _ hi => exact .argued ht hi
  | created ht | unknown ht | unaddressed ht | used ht | unused ht =>
    exact buffers_unchanged hm hadded (by rw [ht]; decide) _
  | other ht =>
    refine buffers_unchanged hm hadded ?_ _
    intro hdone
    rw [hdone] at ht
    cases ht

theorem consume_mentioned {c : Buffer} (hm : (etype e).message = true) (hbuf : b.buffer = c.noted e)
    (h : b.consume e = .ok b') : Buffers c e b'.buffer := by
  have hlatest : b.latestItemOfType "message" = (c.noted e).latest "message" := by
    rw [← hbuf]; rfl
  by_cases ht : etype e = .outputTextDelta
  · cases consume_ok_iff.mp h with
    | @extended k item item' _ hl ha =>
      have hput : (b.storeItem k item').buffer = (c.noted e).put k item' := by
        rw [← hbuf]; rfl
      exact hput ▸ .extended ht (hlatest.symm.trans hl) ha
    | dropped _ hl => exact hbuf ▸ .dropped ht (hlatest.symm.trans hl)
    | nameless hitem => simp [ht] at hitem
    | other hother => rw [ht] at hother; cases hother
    | _ hne => rw [ht] at hne; cases hne
  · have hsame : Consumes b e b := .other (by cases he : etype e <;> simp_all [EventType.message, EventType.buffered])
    obtain rfl := Except.ok.inj ((consume_ok_iff.mpr hsame).symm.trans h)
    exact hbuf ▸ .mentioned hm ht

theorem passes_buffers (hs : b.synthesizeMissingAnnouncements e = .ok (b₁, synth))
    (hf : (b₁.forward (synth ++ [e])).2 = .ok b') : Buffers b.buffer e b'.buffer := by
  cases hm : (etype e).message with
  | true =>
    -- The bridge consumes the announcements it made before it consumes the event.
    obtain ⟨b₂,hb₂,hbuf⟩ := mention_forwards hm hs
    rw [forward_append hb₂] at hf
    exact consume_mentioned hm hbuf (forward_singleton.symm.trans hf)
  | false =>
    by_cases hadded : etype e = .outputItemAdded
    · obtain ⟨rfl,hcase⟩ := synthesize_item hadded hs
      have hc : b₁.consume e = .ok b' := forward_singleton.symm.trans hf
      rcases hcase with ⟨item,k,hcarries,rfl⟩ | ⟨hnone,rfl⟩
      · have hadd : Consumes (b.announceItem k) e ((b.announceItem k).appendItem k item) := .added hadded hcarries
        obtain rfl := Except.ok.inj ((consume_ok_iff.mpr hadd).symm.trans hc)
        exact .added hadded hcarries
      · have hskip : Consumes b₁ e b₁ := .nameless (.inl hadded) hnone
        obtain rfl := Except.ok.inj ((consume_ok_iff.mpr hskip).symm.trans hc)
        exact .quiet hm fun _ item k => hnone.not_carries
    · obtain ⟨rfl,rfl⟩ := synthesize_unmentioned hm hadded hs
      exact consume_buffers hm hadded (forward_singleton.symm.trans hf)

theorem carries_rewritten (h : Rewritten e e') {item : JsonDict} {k : Key} :
    Carries e' item k ↔ Carries e item k := by
  simp only [Carries, Dict.getD, get?_rewritten h (show "item" ≠ "response" by decide)]

theorem buffers_rewritten {c c' : Buffer} (hr : Rewritten e e') (h : Buffers c e' c') : Buffers c e c' := by
  have hnoted : c.noted e' = c.noted e := by
    simp only [Buffer.noted, Dict.get, Dict.getD, get?_rewritten hr (show "item_id" ≠ "response" by decide)]
  have hdelta : e'.getD "delta" (.str "") = e.getD "delta" (.str "") := by
    simp only [Dict.getD, get?_rewritten hr (show "delta" ≠ "response" by decide)]
  cases h with
  | added ht hc => exact .added (hr.etype ▸ ht) ((carries_rewritten hr).mp hc)
  | done ht hc => exact .done (hr.etype ▸ ht) ((carries_rewritten hr).mp hc)
  | mentioned ht hd => rw [hnoted]; exact .mentioned (hr.etype ▸ ht) (hr.etype ▸ hd)
  | extended ht hl ha =>
    rw [hnoted] at hl ⊢
    exact .extended (hr.etype ▸ ht) hl (hdelta ▸ ha)
  | dropped ht hl =>
    rw [hnoted] at hl ⊢
    exact .dropped (hr.etype ▸ ht) hl
  | argued ht hi => exact .argued (hr.etype ▸ ht) hi
  | quiet hm hc =>
    refine .quiet (hr.etype ▸ hm) fun ht item k hk => ?_
    exact hc (hr.etype.symm ▸ ht) item k ((carries_rewritten hr).mpr hk)

theorem teeEvent_buffers (h : (b.teeEvent e).2 = .ok b') : Buffers b.buffer e b'.buffer := by
  obtain ⟨e',b₁,synth,hr,hs,hf⟩ := teeEvent_ok_iff.mp h
  exact buffers_rewritten (maybeRewriteId_ok hr) (passes_buffers hs hf)

theorem tee_concat_ok_iff {pre : List Event} :
    (b.tee (pre ++ [e])).2 = .ok b' ↔ ∃ b₁, (b.tee pre).2 = .ok b₁ ∧ (b₁.teeEvent e).2 = .ok b' := by
  rw [tee_append_ok_iff]
  constructor
  · rintro ⟨b₁,hpre,hlast⟩
    obtain ⟨b₂,he,hnil⟩ := tee_cons_ok_iff.mp hlast
    cases hnil
    exact ⟨b₁,hpre,he⟩
  · rintro ⟨b₁,hpre,he⟩
    exact ⟨b₁,hpre,tee_cons_ok_iff.mpr ⟨b',he,rfl⟩⟩

theorem tee_induction {P : List Event → StreamBridge → Prop} {events : List Event} (hinit : P [] b)
    (hstep : ∀ pre e b₁ b₂, pre ++ [e] <+: events → (b.tee pre).2 = .ok b₁ → (b₁.teeEvent e).2 = .ok b₂ →
      P pre b₁ → P (pre ++ [e]) b₂) (h : (b.tee events).2 = .ok b') : P events b' := by
  -- On prefixes, so that a step may use what is assumed of the whole stream.
  have hprefix (pre : List Event) : pre <+: events → ∀ b', (b.tee pre).2 = .ok b' → P pre b' := by
    induction pre using List.reverseRecOn with
    | nil => intro _ b' hb; cases hb; exact hinit
    | append_singleton pre e ih =>
      intro hpre b' hb
      obtain ⟨b₁,hb₁,he⟩ := tee_concat_ok_iff.mp hb
      exact hstep pre e b₁ b' hpre hb₁ he (ih ((List.prefix_append pre [e]).trans hpre) b₁ hb₁)
  exact hprefix events (List.prefix_refl events) b' h

theorem tee_invariant {P : List Event → Buffer → Prop} {events : List Event} (hinit : P [] b.buffer)
    (hstep : ∀ pre e c c', pre ++ [e] <+: events → P pre c → Buffers c e c' → P (pre ++ [e]) c')
    (h : (b.tee events).2 = .ok b') : P events b'.buffer := by
  refine tee_induction (P := fun pre b => P pre b.buffer) hinit ?_ h
  intro pre e b₁ b₂ hpre _ he hp
  exact hstep pre e _ _ hpre hp (teeEvent_buffers he)

end StreamBridge

namespace Buffer

variable {c c' : Buffer} {e : Event} {k : Key} {item : JsonDict}

theorem latest_inv {type : String} (h : c.latest type = some (k, item)) :
    k ∈ c.itemOrder ∧ c.itemsById.get? k = some item ∧ item.get "type" = .str type := by
  obtain ⟨j,hj,hfound⟩ := List.exists_of_findSome?_eq_some h
  obtain ⟨found,hget,hcond⟩ := Option.bind_eq_some_iff.mp hfound
  split at hcond
  · rename_i ht
    cases hcond
    exact ⟨List.mem_reverse.mp hj,hget,ht⟩
  · cases hcond

theorem latest_eq_none {type : String} (h : c.latest type = none) (hk : k ∈ c.itemOrder)
    (hitem : c.itemsById.get? k = some item) : item.get "type" ≠ .str type := by
  intro ht
  have hnone := List.findSome?_eq_none_iff.mp h k (List.mem_reverse.mpr hk)
  rw [hitem, Option.bind_some, if_pos ht] at hnone
  cases hnone

def Filed (c : Buffer) : Prop := ∀ k item, c.itemsById.get? k = some item → (item.get "id").key = .ok k

theorem Filed.put (hf : c.Filed) (hk : (item.get "id").key = .ok k) : (c.put k item).Filed := by
  intro j found hfound
  simp only [Buffer.put, Dict.get?_set] at hfound
  split at hfound
  · rename_i hj
    cases hfound
    rwa [hj]
  · exact hf j found hfound

theorem Filed.noted (hf : c.Filed) (e : Event) : (c.noted e).Filed := by
  unfold Buffer.noted
  split
  · rename_i id _
    unfold introduce
    split
    · exact hf
    · split
      · exact hf
      · have hkey : ((syntheticItem id).get "id").key = .ok (.str id) := rfl
        exact hf.put hkey
  · exact hf

theorem filed_of_buffers (h : Buffers c e c') (hf : c.Filed) : c'.Filed := by
  cases h with
  | added _ hc => exact hf.put hc.2.2
  | done _ hc => exact hf.put hc.2.2
  | mentioned => exact hf.noted e
  | extended _ hl ha =>
    have hid := (hf.noted e) _ _ (latest_inv hl).2.1
    refine (hf.noted e).put ?_
    simpa only [Dict.get, Dict.getD, appendText_get? ha (show "id" ≠ "content" by decide)] using hid
  | dropped => exact hf.noted e
  | argued _ hi =>
    refine hf.put ?_
    simpa [Dict.get, Dict.getD] using hf _ _ hi
  | quiet => exact hf

end Buffer

theorem StreamBridge.tee_filed {rewriteId : Option String} {events : List Event} {b : StreamBridge}
    (h : ((StreamBridge.init rewriteId).tee events).2 = .ok b) : b.buffer.Filed :=
  StreamBridge.tee_invariant (b := .init rewriteId) (P := fun _ c => c.Filed) (fun k item hk => by cases hk)
    (fun pre e c c' _ hf hb => Buffer.filed_of_buffers hb hf) h

end ResponsesGateway
