import ResponsesGateway.Session.Offload
import ResponsesGateway.Streaming.FinalState

namespace ResponsesGateway

def itemKey (item : JsonDict) : Key :=
  match item.get "id" with
  | .str id => .str id
  | _ => .none

def Identified (item : JsonDict) : Prop := ∃ id, id ≠ "" ∧ item.get? "id" = some (.str id)

structure Announces (item : JsonDict) (e : Event) : Prop where
  kind : etype e = .outputItemAdded
  opening : ∃ opening : JsonDict, e.get? "item" = some (.obj opening) ∧
    opening.get? "id" = item.get? "id" ∧ opening.get? "type" = item.get? "type" ∧
    opening.getD "content" (.list []) = .list [] ∧ opening.getD "arguments" (.str "") = .str ""

structure PerItem (item : JsonDict) (e : Event) : Prop where
  type : ∃ name, e.get? "type" = some (.str name)
  kind : (etype e).lifecycle = false ∧ etype e ≠ .outputItemAdded ∧ etype e ≠ .outputItemDone
  itemId : e.get? "item_id" = item.get? "id"
  text : (etype e).textPart = true → item.get "type" = .str "message"
  delta : ∀ v, e.get? "delta" = some v → ∃ s, v = .str s
  contentIndex : ∀ v, e.get? "content_index" = some v → ∃ n, v = .int n

structure Finishes (item : JsonDict) (e : Event) : Prop where
  kind : etype e = .outputItemDone
  item : e.get? "item" = some (.obj item)

inductive PresentsItem (item : JsonDict) : List Event → Prop
  | mk {added done : Event} {deltas : List Event} : Announces item added →
      (∀ e ∈ deltas, PerItem item e) → Finishes item done →
      PresentsItem item (added :: (deltas ++ [done]))

inductive PresentsItems : List JsonDict → List Event → Prop
  | nil : PresentsItems [] []
  | cons {item : JsonDict} {items : List JsonDict} {es fs : List Event} : PresentsItem item es →
      PresentsItems items fs → PresentsItems (item :: items) (es ++ fs)

structure Presents (R created : JsonDict) (items : List JsonDict) (events : List Event) : Prop where
  output : R.get? "output" = some (.list (items.map Json.obj))
  identified : ∀ item ∈ items, Identified item
  distinct : (items.map itemKey).Nodup
  stream : ∃ first middle last, events = first :: (middle ++ [last]) ∧
    etype first = .created ∧ first.get? "response" = some (.obj created) ∧
    PresentsItems items middle ∧
    etype last = .completed ∧ ∃ resp : JsonDict, last.get? "response" = some (.obj resp) ∧
      resp.get "usage" = R.get "usage"

namespace StreamBridge

variable {b b' : StreamBridge} {e : Event} {item cur : JsonDict} {items : List JsonDict} {d : JsonDict}

def TakesText (cur : JsonDict) : Prop :=
  cur.getD "content" (.list []) = .list [] ∨
  ∃ (part : JsonDict) (text : String), cur.getD "content" (.list []) = .list [.obj part] ∧
    part.get "type" = .str "output_text" ∧ part.get? "text" = some (.str text)

def TakesArguments (cur : JsonDict) : Prop := ∃ s, cur.getD "arguments" (.str "") = .str s

theorem appendText_ok (h : TakesText cur) (delta : String) :
    ∃ cur', appendText cur (.str delta) = .ok cur' ∧ TakesText cur' ∧
      ∀ k, k ≠ "content" → cur'.get? k = cur.get? k := by
  have hset (part : JsonDict) (text : String) (ht : part.get "type" = .str "output_text") :
      TakesText (cur.set "content" (.list [.obj (part.set "text" (.str text))])) :=
    .inr ⟨part.set "text" (.str text),text,by simp [Dict.getD],by simpa [Dict.get, Dict.getD] using ht,
      by simp⟩
  rcases h with hc | ⟨part,text,hc,ht,hx⟩
  · have hn : newTextPart.get? "text" = some (.str "") := by decide
    refine ⟨_,?_,hset newTextPart ("" ++ delta) (by decide),by intro k hk; simp [hk]⟩
    simp [appendText, hc, openTextPart, hn, bind, Except.bind, pure, Except.pure]
  · refine ⟨_,?_,hset part (text ++ delta) ht,by intro k hk; simp [hk]⟩
    simp [appendText, hc, openTextPart, Json.methods, ht, hx, bind, Except.bind, pure, Except.pure]

theorem latestItemOfType_last {ks : List Key} {k : Key} {type : String}
    (ho : b.itemOrder = ks ++ [k]) (hk : b.itemsById.get? k = some cur)
    (ht : cur.get "type" = .str type) : b.latestItemOfType type = some (k, cur) := by
  simp [latestItemOfType, ho, hk, ht]

structure Buffered (b : StreamBridge) (items : List JsonDict) : Prop where
  order : b.itemOrder = items.map itemKey
  held : ∀ item ∈ items, b.itemsById.get? (itemKey item) = some item

structure Opened (b : StreamBridge) (items : List JsonDict) (item : JsonDict) : Prop where
  order : b.itemOrder = items.map itemKey ++ [itemKey item]
  held : ∀ i ∈ items, b.itemsById.get? (itemKey i) = some i
  growing : ∃ cur, b.itemsById.get? (itemKey item) = some cur ∧
    cur.get "type" = item.get "type" ∧ TakesText cur ∧ TakesArguments cur
  announced : itemKey item ∈ b.announcedItems

theorem opened_storeItem {cur' : JsonDict} (h : Opened b items item)
    (hfresh : itemKey item ∉ items.map itemKey) (ht : cur'.get "type" = item.get "type")
    (hx : TakesText cur') (ha : TakesArguments cur') :
    Opened (b.storeItem (itemKey item) cur') items item := by
  refine ⟨h.order,?_,⟨cur',by simp [storeItem],ht,hx,ha⟩,h.announced⟩
  intro i hi
  have hne : itemKey i ≠ itemKey item := fun he => hfresh (he ▸ List.mem_map_of_mem hi)
  simpa [storeItem, hne] using h.held i hi

theorem getD_delta (h : PerItem item e) : ∃ s, e.getD "delta" (.str "") = .str s := by
  cases hd : e.get? "delta" with
  | none => exact ⟨"",by simp [Dict.getD, hd]⟩
  | some v =>
    obtain ⟨s,rfl⟩ := h.delta v hd
    exact ⟨s,by simp [Dict.getD, hd]⟩

theorem toInt_contentIndex (h : PerItem item e) :
    ∃ n, (e.getD "content_index" (.int 0)).toInt = .ok n := by
  cases hd : e.get? "content_index" with
  | none => exact ⟨0,by simp [Dict.getD, hd, Json.toInt]⟩
  | some v =>
    obtain ⟨n,rfl⟩ := h.contentIndex v hd
    exact ⟨n,by simp [Dict.getD, hd, Json.toInt]⟩

theorem get_itemId {id : String} (h : PerItem item e) (hid : item.get? "id" = some (.str id)) :
    e.get "item_id" = .str id :=
  Dict.get_eq_of_get? (h.itemId.trans hid)

theorem itemKey_of_id {id : String} (hid : item.get? "id" = some (.str id)) :
    itemKey item = .str id := by
  simp [itemKey, Dict.get, Dict.getD, hid]

theorem consume_perItem (he : PerItem item e) (hid : Identified item)
    (hfresh : itemKey item ∉ items.map itemKey) (h : Opened b items item) :
    ∃ b', b.consume e = .ok b' ∧ Opened b' items item ∧ b'.finalResponse = b.finalResponse ∧
      b'.rewriteId = b.rewriteId := by
  obtain ⟨id,hne,hid⟩ := hid
  obtain ⟨cur,hcur,htype,htext,hargs⟩ := h.growing
  obtain ⟨s,hs⟩ := getD_delta he
  obtain ⟨hl,hadd,hdone⟩ := he.kind
  cases ht : etype e with
  | created => simp [ht, EventType.lifecycle] at hl
  | completed => simp [ht, EventType.lifecycle] at hl
  | outputItemAdded => exact absurd ht hadd
  | outputItemDone => exact absurd ht hdone
  | outputTextDelta =>
    have hm : cur.get "type" = .str "message" := htype.trans (he.text (by simp [ht, EventType.textPart]))
    obtain ⟨cur',happ,htext',hframe⟩ := appendText_ok htext s
    have htype' : cur'.get "type" = item.get "type" := by
      simpa [Dict.get, Dict.getD, hframe "type" (by decide)] using htype
    have hargs' : TakesArguments cur' := by
      simpa [TakesArguments, Dict.getD, hframe "arguments" (by decide)] using hargs
    refine ⟨b.storeItem (itemKey item) cur',?_,opened_storeItem h hfresh htype' htext' hargs',rfl,rfl⟩
    exact consume_ok_iff.mpr (.extended ht (latestItemOfType_last h.order hcur hm) (hs ▸ happ))
  | functionCallArgumentsDelta =>
    obtain ⟨a,ha⟩ := hargs
    have hkey := itemKey_of_id hid
    rw [hkey] at hcur
    have htype' : (cur.set "arguments" (.str (a ++ s))).get "type" = item.get "type" := by
      simpa [Dict.get, Dict.getD] using htype
    have htext' : TakesText (cur.set "arguments" (.str (a ++ s))) := by
      simpa [TakesText, Dict.getD] using htext
    refine ⟨b.storeItem (itemKey item) (cur.set "arguments" (.str (a ++ s))),?_,
      opened_storeItem h hfresh htype' htext' ⟨a ++ s,by simp [Dict.getD]⟩,rfl,rfl⟩
    have haddress := get_itemId he hid
    rw [hkey]
    refine consume_ok_iff.mpr (.argued ht ?_ (by rw [haddress]; rfl) hcur (by simp [ha, hs]))
    rw [haddress]
    exact bne_iff_ne.mpr hne
  | _ => exact ⟨b,consume_ok_iff.mpr (.other (by rw [ht]; rfl)),h,rfl,rfl⟩

theorem announceParent_announced {id : String} (he : PerItem item e)
    (hid : item.get? "id" = some (.str id)) (hk : Key.str id ∈ b.announcedItems) :
    ∃ b' synth, b.announceParent e = .ok (b', synth) ∧ SameBuffer b b' ∧
      b'.announcedItems = b.announcedItems ∧ ∀ s ∈ synth, etype s = .contentPartAdded := by
  obtain ⟨n,hn⟩ := toInt_contentIndex he
  have hpart (j : Json) : etype (syntheticPartAdded id j n) = .contentPartAdded := rfl
  simp only [announceParent, get_itemId he hid, if_pos hk, hn, bind, Except.bind]
  by_cases ht : (etype e).textPart = true
  · by_cases hp : (Key.str id, n) ∈ b.announcedParts
    · exact ⟨b,[],by simp [ht, hp]; rfl,⟨rfl,rfl,rfl,rfl⟩,rfl,by simp⟩
    · exact ⟨b.announcePart (.str id, n),[syntheticPartAdded id (e.getD "output_index" (.int 0)) n],
        by simp [ht, hp]; rfl,⟨rfl,rfl,rfl,rfl⟩,rfl,by simp [hpart]⟩
  · exact ⟨b,[],by simp [ht]; rfl,⟨rfl,rfl,rfl,rfl⟩,rfl,by simp⟩

theorem synthesize_perItem (he : PerItem item e) (hid : Identified item)
    (hk : itemKey item ∈ b.announcedItems) :
    ∃ b' synth, b.synthesizeMissingAnnouncements e = .ok (b', synth) ∧ SameBuffer b b' ∧
      b'.announcedItems = b.announcedItems ∧ ∀ s ∈ synth, etype s = .contentPartAdded := by
  obtain ⟨id,hne,hid⟩ := hid
  obtain ⟨n,hn⟩ := toInt_contentIndex he
  obtain ⟨name,hname⟩ := he.type
  rw [itemKey_of_id hid] at hk
  unfold synthesizeMissingAnnouncements
  split
  · rename_i ht; exact absurd ht he.kind.2.1
  · rename_i ht
    obtain ⟨b',synth,ha,hsame,hann,hs⟩ := announceParent_announced (b := b.announcePart (.str id, n)) he hid hk
    refine ⟨b',synth,?_,⟨hsame.itemsById,hsame.itemOrder,hsame.finalResponse,hsame.rewriteId⟩,hann,hs⟩
    simp only [get_itemId he hid, Json.truthy, hne, bne_iff_ne, ne_eq, not_false_eq_true, if_true, hn,
      Json.key, bind, Except.bind]
    exact ha
  · split
    · exact announceParent_announced he hid hk
    · exact ⟨b,[],by simp [Dict.get_eq_of_get? hname, Json.key, bind, Except.bind, pure, Except.pure],
        ⟨rfl,rfl,rfl,rfl⟩,rfl,by simp⟩

theorem forward_parts {synth : List Event} (hs : ∀ s ∈ synth, etype s = .contentPartAdded) :
    (b.forward (synth ++ [e])).2 = b.consume e := by
  induction synth with
  | nil => cases hc : b.consume e <;> simp [forward, hc]
  | cons s synth ih =>
    have hc : b.consume s = .ok b := by simp [consume, hs s (by simp)]
    simpa [forward, hc] using ih (fun x hx => hs x (by simp [hx]))

theorem Opened.of_sameBuffer (h : Opened b items item) (hsame : SameBuffer b b')
    (hann : b'.announcedItems = b.announcedItems) : Opened b' items item := by
  refine ⟨hsame.itemOrder.trans h.order,?_,?_,hann ▸ h.announced⟩
  · rw [hsame.itemsById]; exact h.held
  · rw [hsame.itemsById]; exact h.growing

theorem teeEvent_perItem (he : PerItem item e) (hid : Identified item)
    (hfresh : itemKey item ∉ items.map itemKey) (h : Opened b items item) :
    ∃ b', (b.teeEvent e).2 = .ok b' ∧ Opened b' items item ∧ b'.finalResponse = b.finalResponse ∧
      b'.rewriteId = b.rewriteId := by
  obtain ⟨name,hname⟩ := he.type
  obtain ⟨b₁,synth,hsyn,hsame,hann,hs⟩ := synthesize_perItem he hid h.announced
  obtain ⟨b',hc,ho,hf,hr⟩ := consume_perItem he hid hfresh (h.of_sameBuffer hsame hann)
  refine ⟨b',?_,ho,hf.trans hsame.finalResponse,hr.trans hsame.rewriteId⟩
  exact teeEvent_ok_iff.mpr ⟨e,b₁,synth,maybeRewriteId_other (Dict.get_eq_of_get? hname) he.kind.1,hsyn,
    by rw [forward_parts hs, hc]⟩

theorem tee_perItems {es : List Event} (hes : ∀ e ∈ es, PerItem item e) (hid : Identified item)
    (hfresh : itemKey item ∉ items.map itemKey) (h : Opened b items item) :
    ∃ b', (b.tee es).2 = .ok b' ∧ Opened b' items item ∧ b'.finalResponse = b.finalResponse ∧
      b'.rewriteId = b.rewriteId := by
  induction es generalizing b with
  | nil => exact ⟨b,rfl,h,rfl,rfl⟩
  | cons e es ih =>
    obtain ⟨b₁,he,ho,hf,hr⟩ := teeEvent_perItem (hes e (by simp)) hid hfresh h
    obtain ⟨b',ht,ho',hf',hr'⟩ := ih (fun x hx => hes x (by simp [hx])) ho
    exact ⟨b',tee_cons_ok_iff.mpr ⟨b₁,he,ht⟩,ho',hf'.trans hf,hr'.trans hr⟩

theorem teeEvent_added (he : Announces item e) (hid : Identified item)
    (hfresh : itemKey item ∉ items.map itemKey) (h : Buffered b items) :
    ∃ b', (b.teeEvent e).2 = .ok b' ∧ Opened b' items item ∧ b'.finalResponse = b.finalResponse ∧
      b'.rewriteId = b.rewriteId := by
  obtain ⟨id,hne,hid⟩ := hid
  obtain ⟨opening,hitem,hoid,hotype,hocontent,hoargs⟩ := he.opening
  have hkey := itemKey_of_id hid
  have hiid : opening.get "id" = .str id := Dict.get_eq_of_get? (hoid.trans hid)
  obtain ⟨name,hname⟩ := type_of_etype (e := e) (by simp [he.kind])
  refine ⟨(b.announceItem (itemKey item)).appendItem (itemKey item) opening,?_,?_,rfl,rfl⟩
  · refine teeEvent_ok_iff.mpr ⟨e,b.announceItem (itemKey item),[],maybeRewriteId_other hname
      (by simp [he.kind, EventType.lifecycle]),?_,?_⟩
    · simp [synthesizeMissingAnnouncements, he.kind, Dict.getD, hitem, Json.methods, hiid, Json.truthy,
        hne, Json.key, hkey, bind, Except.bind, pure, Except.pure]
    · have hcarries : Carries e opening (itemKey item) :=
        ⟨by simp [Dict.getD, hitem, Json.methods],by simpa [hiid, Json.truthy] using hne,by rw [hiid, hkey]; rfl⟩
      rw [forward_parts (by simp)]
      exact consume_ok_iff.mpr (.added he.kind hcarries)
  · refine ⟨by simp [appendItem, announceItem, h.order],?_,⟨opening,by simp [appendItem],?_,.inl hocontent,
      ⟨"",hoargs⟩⟩,by simp [appendItem, announceItem]⟩
    · intro i hi
      have hne : itemKey i ≠ itemKey item := fun he => hfresh (he ▸ List.mem_map_of_mem hi)
      simpa [appendItem, announceItem, hne] using h.held i hi
    · simp [Dict.get, Dict.getD, hotype]

theorem teeEvent_done (he : Finishes item e) (hid : Identified item)
    (hfresh : itemKey item ∉ items.map itemKey) (h : Opened b items item) :
    ∃ b', (b.teeEvent e).2 = .ok b' ∧ Buffered b' (items ++ [item]) ∧
      b'.finalResponse = b.finalResponse ∧ b'.rewriteId = b.rewriteId := by
  obtain ⟨id,hne,hid⟩ := hid
  have hkey := itemKey_of_id hid
  have hiid : item.get "id" = .str id := Dict.get_eq_of_get? hid
  obtain ⟨name,hname⟩ := type_of_etype (e := e) (by simp [he.kind])
  refine ⟨b.storeItem (itemKey item) item,?_,⟨by simp [storeItem, h.order],?_⟩,rfl,rfl⟩
  · refine teeEvent_ok_iff.mpr ⟨e,b,[],maybeRewriteId_other hname
      (by simp [he.kind, EventType.lifecycle]),?_,?_⟩
    · exact synthesize_named (by rw [he.kind]; rfl) (by simp [he.kind]) hname
    · have hcarries : Carries e item (itemKey item) :=
        ⟨by simp [Dict.getD, he.item, Json.methods],by simpa [hiid, Json.truthy] using hne,by rw [hiid, hkey]; rfl⟩
      rw [forward_parts (by simp)]
      exact consume_ok_iff.mpr (.done he.kind hcarries)
  · intro i hi
    rcases List.mem_append.mp hi with hi | hi
    · have hne : itemKey i ≠ itemKey item := fun he => hfresh (he ▸ List.mem_map_of_mem hi)
      simpa [storeItem, hne] using h.held i hi
    · obtain rfl := List.mem_singleton.mp hi
      simp [storeItem]

theorem tee_presentsItem {es : List Event} (hes : PresentsItem item es) (hid : Identified item)
    (hfresh : itemKey item ∉ items.map itemKey) (h : Buffered b items) :
    ∃ b', (b.tee es).2 = .ok b' ∧ Buffered b' (items ++ [item]) ∧ b'.finalResponse = b.finalResponse ∧
      b'.rewriteId = b.rewriteId := by
  cases hes with
  | mk hadded hdeltas hdone =>
    obtain ⟨b₁,h₁,ho₁,hf₁,hr₁⟩ := teeEvent_added hadded hid hfresh h
    obtain ⟨b₂,h₂,ho₂,hf₂,hr₂⟩ := tee_perItems hdeltas hid hfresh ho₁
    obtain ⟨b₃,h₃,hb₃,hf₃,hr₃⟩ := teeEvent_done hdone hid hfresh ho₂
    have hlast : (b₂.tee [_]).2 = .ok b₃ := tee_cons_ok_iff.mpr ⟨b₃,h₃,rfl⟩
    exact ⟨b₃,tee_cons_ok_iff.mpr ⟨b₁,h₁,tee_append_ok_iff.mpr ⟨b₂,h₂,hlast⟩⟩,hb₃,
      hf₃.trans (hf₂.trans hf₁),hr₃.trans (hr₂.trans hr₁)⟩

theorem tee_presentsItems {more : List JsonDict} {es : List Event} (hes : PresentsItems more es)
    (hid : ∀ item ∈ more, Identified item) (hnodup : ((items ++ more).map itemKey).Nodup)
    (h : Buffered b items) :
    ∃ b', (b.tee es).2 = .ok b' ∧ Buffered b' (items ++ more) ∧ b'.finalResponse = b.finalResponse ∧
      b'.rewriteId = b.rewriteId := by
  induction hes generalizing b items with
  | nil => exact ⟨b,rfl,by simpa using h,rfl,rfl⟩
  | @cons item rest es fs hitem _ ih =>
    have hfresh : itemKey item ∉ items.map itemKey := by
      intro hm
      rw [List.map_append, List.nodup_append] at hnodup
      exact hnodup.2.2 _ hm _ (by simp) rfl
    obtain ⟨b₁,h₁,hb₁,hf₁,hr₁⟩ := tee_presentsItem hitem (hid item (by simp)) hfresh h
    obtain ⟨b₂,h₂,hb₂,hf₂,hr₂⟩ := ih (fun i hi => hid i (by simp [hi])) (by simpa using hnodup) hb₁
    exact ⟨b₂,tee_append_ok_iff.mpr ⟨b₁,h₁,h₂⟩,by simpa using hb₂,hf₂.trans hf₁,hr₂.trans hr₁⟩

theorem Buffered.items_eq (h : Buffered b items) : b.items = items := by
  have hsome : b.items.map some = b.itemOrder.map b.itemsById.get? :=
    items_map fun k _ item hk => hk.symm
  rw [h.order, List.map_map] at hsome
  have heq : items.map (b.itemsById.get? ∘ itemKey) = items.map some :=
    List.map_congr_left fun item hi => h.held item hi
  exact List.map_injective_iff.mpr (Option.some_injective _) (hsome.trans heq)

theorem teeEvent_created {id : String} {created : JsonDict} (hid : id ≠ "")
    (hb : b.rewriteId = some id) (ht : etype e = .created)
    (hr : e.get? "response" = some (.obj created)) :
    ∃ b', (b.teeEvent e).2 = .ok b' ∧ b'.itemOrder = b.itemOrder ∧ b'.itemsById = b.itemsById ∧
      b'.rewriteId = b.rewriteId ∧
      b'.finalResponse = b.finalResponse.update (created.set "id" (.str id)) := by
  obtain ⟨name,hname⟩ := type_of_etype (e := e) (by simp [ht])
  have hrw := maybeRewriteId_lifecycle hid hb hname (by simp [ht, EventType.lifecycle]) hr
  have ht' := (maybeRewriteId_ok hrw).etype.trans ht
  have hname' : (e.set "response" (.obj (created.set "id" (.str id)))).get "type" = .str name := by
    simpa [Dict.get, Dict.getD] using hname
  refine ⟨b.setFinal (b.finalResponse.update (created.set "id" (.str id))),
    teeEvent_ok_iff.mpr ⟨_,b,[],hrw,?_,?_⟩,rfl,rfl,rfl,rfl⟩
  · exact synthesize_named (by rw [ht']; rfl) (by simp [ht']) hname'
  · rw [forward_parts (by simp)]
    exact consume_ok_iff.mpr (.created ht' (by simp [Dict.getD]))

theorem teeEvent_completed {id : String} {resp : JsonDict} (hid : id ≠ "")
    (hb : b.rewriteId = some id) (ht : etype e = .completed)
    (hr : e.get? "response" = some (.obj resp)) :
    ∃ b', (b.teeEvent e).2 = .ok b' ∧ b'.itemOrder = b.itemOrder ∧ b'.itemsById = b.itemsById ∧
      b'.finalResponse = if (resp.get "usage").truthy
        then b.finalResponse.set "usage" (resp.get "usage") else b.finalResponse := by
  obtain ⟨name,hname⟩ := type_of_etype (e := e) (by simp [ht])
  have hrw := maybeRewriteId_lifecycle hid hb hname (by simp [ht, EventType.lifecycle]) hr
  have ht' := (maybeRewriteId_ok hrw).etype.trans ht
  have hname' : (e.set "response" (.obj (resp.set "id" (.str id)))).get "type" = .str name := by
    simpa [Dict.get, Dict.getD] using hname
  have husage : (resp.set "id" (.str id)).get "usage" = resp.get "usage" := by
    simp [Dict.get, Dict.getD]
  have hsyn := synthesize_named (b := b) (by rw [ht']; rfl) (by simp [ht']) hname'
  have hresp : ((e.set "response" (.obj (resp.set "id" (.str id)))).getD "response" (.dict [])).methods =
      .ok (resp.set "id" (.str id)) := by simp [Dict.getD, Json.methods]
  cases hu : (resp.get "usage").truthy with
  | true =>
    have hconsume := consume_ok_iff.mpr (.used (b := b) ht' hresp (husage ▸ hu))
    refine ⟨_,teeEvent_ok_iff.mpr ⟨_,b,[],hrw,hsyn,(forward_parts (by simp)).trans hconsume⟩,rfl,rfl,?_⟩
    rw [husage, if_pos rfl]
    rfl
  | false =>
    have hconsume := consume_ok_iff.mpr (.unused (b := b) ht' hresp (husage ▸ hu))
    exact ⟨_,teeEvent_ok_iff.mpr ⟨_,b,[],hrw,hsyn,(forward_parts (by simp)).trans hconsume⟩,rfl,rfl,
      (if_neg Bool.false_ne_true).symm⟩

end StreamBridge

/-- The payload recorded for a stream that presents `R`: the fields of `response.created`, with the
output and the usage of `R`. -/
def mirrored (id : String) (created R : JsonDict) : JsonDict :=
  let fields := (Dict.ofEntries [("output", .list []), ("usage", .dict [])]).update
    (created.set "id" (.str id))
  let fields := if (R.get "usage").truthy then fields.set "usage" (R.get "usage") else fields
  (fields.set "output" (R.get "output")).set "id" (.str id)

theorem tee_presents {id : String} {R created : JsonDict} {items : List JsonDict}
    {events : List Event} (hid : id ≠ "") (h : Presents R created items events) :
    ∃ b, ((StreamBridge.init (some id)).tee events).2 = .ok b ∧
      b.finalState.set "id" (.str id) = mirrored id created R ∧
      b.finalState.get? "output" = R.get? "output" ∧
      ((R.get "usage").truthy = true → b.finalState.get "usage" = R.get "usage") := by
  obtain ⟨first,middle,last,rfl,hfirst,hcreated,hmiddle,hlast,resp,hresp,husage⟩ := h.stream
  obtain ⟨b₁,h₁,ho₁,hi₁,hr₁,hf₁⟩ := StreamBridge.teeEvent_created (b := .init (some id)) hid rfl hfirst hcreated
  have hb₁ : StreamBridge.Buffered b₁ [] := ⟨by simpa [StreamBridge.init] using ho₁,by simp⟩
  obtain ⟨b₂,h₂,hb₂,hf₂,hr₂⟩ := StreamBridge.tee_presentsItems hmiddle h.identified
    (by simpa using h.distinct) hb₁
  obtain ⟨b,h₃,ho,hi,hf⟩ := StreamBridge.teeEvent_completed hid (hr₂.trans hr₁) hlast hresp
  have hb : StreamBridge.Buffered b items :=
    ⟨ho.trans (by simpa using hb₂.order),by rw [hi]; simpa using hb₂.held⟩
  have hout : R.get "output" = .list (items.map Json.obj) := Dict.get_eq_of_get? h.output
  have htee : ((StreamBridge.init (some id)).tee (first :: (middle ++ [last]))).2 = .ok b :=
    StreamBridge.tee_cons_ok_iff.mpr ⟨b₁,h₁,StreamBridge.tee_append_ok_iff.mpr
      ⟨b₂,h₂,StreamBridge.tee_cons_ok_iff.mpr ⟨b,h₃,rfl⟩⟩⟩
  rw [husage, hf₂, hf₁] at hf
  refine ⟨b,htee,?_,?_,?_⟩
  · simp only [StreamBridge.finalState, hb.items_eq, hf, mirrored, hout]
    rfl
  · simp [StreamBridge.finalState, hb.items_eq, h.output]
  · intro hu
    rw [if_pos hu] at hf
    simp [StreamBridge.finalState, hf, Dict.get, Dict.getD]

/-- The stream is consumed without error, ends with the output and the usage of `R`, and to record its
final state is as good as to record `R`. -/
def Interchangeable (recorder : SessionRecorder) (cold : Option ColdStorage) (c : RecordCall)
    (R : JsonDict) (events : List Event) : Prop :=
  ∃ b, ((StreamBridge.init (some c.responseId)).tee events).2 = .ok b ∧
    b.finalState.get? "output" = R.get? "output" ∧
    ((R.get "usage").truthy = true → b.finalState.get "usage" = R.get "usage") ∧
    SameFollowUps recorder recorder cold
      { c with responsePayload := b.finalState.set "id" (.str c.responseId) }
      { c with responsePayload := R.set "id" (.str c.responseId) }

theorem interchangeable_iff_same_messages {recorder : SessionRecorder} {cold : Option ColdStorage}
    {c : RecordCall} {R created : JsonDict} {items : List JsonDict} {events : List Event}
    (hid : c.responseId ≠ "") (hstore : c.storeFlag.truthy = true)
    (h : Presents R created items events) :
    Interchangeable recorder cold c R events ↔
      (∀ now, Representable now → ¬ Representable (now + recorder.ttl)) ∨
      cold = none ∨
      (recorder.threshold < { c with responsePayload := mirrored c.responseId created R }.size ↔
        recorder.threshold < { c with responsePayload := R.set "id" (.str c.responseId) }.size) ∨
      (inlineMessages c.originalRequest (items.map Json.obj)).map Json.value =
        (offloadedMessages c.originalRequest).map Json.value := by
  obtain ⟨b,htee,hfinal,hout,husage⟩ := tee_presents hid h
  have hcols : SameColumns recorder recorder { c with responsePayload := mirrored c.responseId created R }
      { c with responsePayload := R.set "id" (.str c.responseId) } := ⟨rfl,rfl,rfl,rfl,rfl⟩
  have hmirrored : (mirrored c.responseId created R).get? "output" = some (.list (items.map Json.obj)) := by
    rw [← hfinal, Dict.get?_set, if_neg (by decide), hout, h.output]
  have hplain : (R.set "id" (.str c.responseId)).get? "output" = some (.list (items.map Json.obj)) := by
    rw [Dict.get?_set, if_neg (by decide), h.output]
  have hfollow := @sameFollowUps_iff recorder recorder _ _ cold _ hcols hid hstore hstore rfl hmirrored hplain
  constructor
  · rintro ⟨b',htee',-,-,hsame⟩
    obtain rfl : b = b' := by simpa [htee] using htee'
    rw [hfinal] at hsame
    exact hfollow.mp hsame
  · intro hcond
    refine ⟨b,htee,hout,husage,?_⟩
    rw [hfinal]
    exact hfollow.mpr hcond

theorem streamed_turn_interchangeable_iff {recorder : SessionRecorder} {cold : Option ColdStorage}
    {c : RecordCall} {R created : JsonDict} {items : List JsonDict} {events : List Event}
    (hid : c.responseId ≠ "") (hstore : c.storeFlag.truthy = true)
    (h : Presents R created items events) :
    Interchangeable recorder cold c R events ↔
      (∀ now, Representable now → ¬ Representable (now + recorder.ttl)) ∨
      cold = none ∨
      (recorder.threshold < { c with responsePayload := mirrored c.responseId created R }.size ↔
        recorder.threshold < { c with responsePayload := R.set "id" (.str c.responseId) }.size) ∨
      LeavesNoTrace c.originalRequest (items.map Json.obj) ∨
      AnswersItself c.originalRequest (items.map Json.obj) := by
  rw [interchangeable_iff_same_messages hid hstore h, same_messages_iff]

namespace Haiku

def item : JsonDict :=
  .ofEntries [("id", .str "m1"), ("type", .str "message"),
    ("content", .list [.dict [("type", .str "output_text"), ("text", .str "frog")]])]

def response : JsonDict :=
  .ofEntries [("id", .str "up_1"), ("status", .str "completed"), ("output", .list [.obj item])]

def created : Event :=
  .ofEntries [("type", .str "response.created"), ("response", .dict [("id", .str "up_1")])]

def added : Event :=
  .ofEntries [("type", .str "response.output_item.added"),
    ("item", .dict [("id", .str "m1"), ("type", .str "message")])]

def delta : Event :=
  .ofEntries [("type", .str "response.output_text.delta"), ("item_id", .str "m1"), ("delta", .str "frog")]

def done : Event := .ofEntries [("type", .str "response.output_item.done"), ("item", .obj item)]

def completed : Event := .ofEntries [("type", .str "response.completed"), ("response", .obj response)]

def events : List Event := [created, added, delta, done, completed]

def call : RecordCall :=
  { greeting with originalRequest := .ofEntries [("input", .str "haiku"), ("stream", .bool true)] }

theorem presented : Presents response (.ofEntries [("id", .str "up_1")]) [item] events where
  output := by decide
  identified := by
    intro i hi
    obtain rfl := List.mem_singleton.mp hi
    exact ⟨"m1",by decide,by decide⟩
  distinct := by decide
  stream := by
    have hindex : delta.get? "content_index" = none := by decide
    have hdelta : PerItem item delta :=
      ⟨⟨"response.output_text.delta",by decide⟩,by decide,by decide,by decide,
        fun v hv => ⟨"frog",(Option.some.inj hv).symm⟩,fun v hv => by simp [hindex] at hv⟩
    have hadded : Announces item added :=
      ⟨by decide,.ofEntries [("id", .str "m1"), ("type", .str "message")],by decide,by decide,by decide,
        by decide,by decide⟩
    have hitem : PresentsItem item (added :: ([delta] ++ [done])) :=
      .mk hadded (by simpa using hdelta) ⟨by decide,by decide⟩
    exact ⟨created,[added, delta, done],completed,rfl,by decide,by decide,.cons hitem .nil,by decide,
      response,by decide,rfl⟩

def streamed : RecordCall :=
  { call with responsePayload := mirrored "resp_1" (.ofEntries [("id", .str "up_1")]) response }

def plain : RecordCall := { call with responsePayload := response.set "id" (.str "resp_1") }

end Haiku

theorem streamed_turn_interchangeable_iff_haiku :
    Interchangeable ⟨0, 165⟩ (some .empty) Haiku.call Haiku.response Haiku.events ↔
      (∀ now, Representable now → ¬ Representable (now + 0)) ∨
      some ColdStorage.empty = none ∨
      (165 < Haiku.streamed.size ↔ 165 < Haiku.plain.size) ∨
      LeavesNoTrace Haiku.call.originalRequest [.obj Haiku.item] ∨
      AnswersItself Haiku.call.originalRequest [.obj Haiku.item] :=
  streamed_turn_interchangeable_iff (by decide) (by decide) Haiku.presented

theorem haiku_told_apart :
    ¬ Interchangeable ⟨0, 165⟩ (some .empty) Haiku.call Haiku.response Haiku.events := by
  rw [interchangeable_iff_same_messages (by decide) (by decide) Haiku.presented]
  have hstreamed : Haiku.streamed.size = 162 := by decide +kernel
  have hplain : Haiku.plain.size = 172 := by decide +kernel
  rintro (h | h | h | h)
  · exact h 0 (by decide) (by decide)
  · cases h
  · have hside : 165 < Haiku.streamed.size ↔ 165 < Haiku.plain.size := h
    rw [hstreamed, hplain] at hside
    revert hside
    decide
  · revert h
    decide

end ResponsesGateway
