import ResponsesGateway.Streaming.Items

namespace ResponsesGateway

structure WellFormed (e : Event) : Prop extends WellIdentified e where
  contentIndex : (etype e).message = true → ∃ n, e.getD "content_index" (.int 0) = .int n

def AnnouncesItem (a : Event) (id : String) : Prop := ∃ item, Adds a item id

def AnnouncesPart (a : Event) (id : String) (n : ℤ) : Prop :=
  etype a = .contentPartAdded ∧ a.get "item_id" = .str id ∧ a.getD "content_index" (.int 0) = .int n

/-- The synthetic event `a` may come right before an event: the item goes before the part, and the
last one before the event of its own item that it was made for. -/
def Leads (a : Event) : Event × Bool → Prop
  | (x, true) => ∃ id n, AnnouncesItem a id ∧ AnnouncesPart x id n
  | (x, false) => ∃ id n, x.get "item_id" = .str id ∧ x.getD "content_index" (.int 0) = .int n ∧
      (AnnouncesItem a id ∨ AnnouncesPart a id n)

/-- `x` may be forwarded after `out`, where each event is marked if it is synthetic. -/
structure Proper (out : List (Event × Bool)) (x : Event × Bool) : Prop where
  item : (etype x.1).message = true → ∀ id, x.1.get "item_id" = .str id → ∃ a ∈ out, AnnouncesItem a.1 id
  part : (etype x.1).textPart = true → ∀ id n, x.1.get "item_id" = .str id →
    x.1.getD "content_index" (.int 0) = .int n → ∃ a ∈ out, AnnouncesPart a.1 id n
  adjacent : ∀ a, out.getLast? = some (a, true) → Leads a x
  announces : x.2 = true → (∃ id, AnnouncesItem x.1 id) ∨ ∃ id n, AnnouncesPart x.1 id n
  freshItem : x.2 = true → ∀ id, AnnouncesItem x.1 id → ∀ a ∈ out, ¬ AnnouncesItem a.1 id
  freshPart : x.2 = true → ∀ id n, AnnouncesPart x.1 id n → ∀ a ∈ out, ¬ AnnouncesPart a.1 id n

def Disciplined (out : List (Event × Bool)) : Prop := ∀ pre x post, out = pre ++ x :: post → Proper pre x

def Settled (out : List (Event × Bool)) : Prop := ∀ a, out.getLast? ≠ some (a, true)

namespace StreamBridge

def passed (b : StreamBridge) (e : Event) : Except PyError (StreamBridge × List (Event × Bool)) := do
  let e ← b.maybeRewriteId e
  let (b, synth) ← b.synthesizeMissingAnnouncements e
  return (b, synth.map (fun s => (s, true)) ++ [(e, false)])

def forwardMarked : StreamBridge → List (Event × Bool) → List (Event × Bool) × Except PyError StreamBridge
  | b, [] => ([], .ok b)
  | b, x :: xs =>
      match b.consume x.1 with
      | .error err => ([], .error err)
      | .ok b => let (out, r) := forwardMarked b xs; (x :: out, r)

def teeEventMarked (b : StreamBridge) (e : Event) : List (Event × Bool) × Except PyError StreamBridge :=
  match b.passed e with
  | .error x => ([], .error x)
  | .ok (b, xs) => b.forwardMarked xs

def teeMarked : StreamBridge → List Event → List (Event × Bool) × Except PyError StreamBridge
  | b, [] => ([], .ok b)
  | b, e :: es =>
      match b.teeEventMarked e with
      | (out, .error x) => (out, .error x)
      | (out, .ok b) => let (more, r) := teeMarked b es; (out ++ more, r)

variable {b b' b₁ b₂ : StreamBridge} {e e' : Event} {xs out : List (Event × Bool)} {es : List Event}

theorem forwardMarked_erase :
    ((b.forwardMarked xs).1.map Prod.fst, (b.forwardMarked xs).2) = b.forward (xs.map Prod.fst) := by
  induction xs generalizing b with
  | nil => rfl
  | cons x xs ih =>
    simp only [forwardMarked, List.map_cons, forward]
    cases b.consume x.1 with
    | error err => rfl
    | ok b₁ => simp only [← ih, List.map_cons]

theorem teeEventMarked_erase :
    ((b.teeEventMarked e).1.map Prod.fst, (b.teeEventMarked e).2) = b.teeEvent e := by
  simp only [teeEventMarked, passed, teeEvent]
  cases b.maybeRewriteId e with
  | error x => rfl
  | ok e' =>
    simp only [bind, Except.bind, pure, Except.pure]
    cases b.synthesizeMissingAnnouncements e' with
    | error x => rfl
    | ok p =>
      obtain ⟨b₁,synth⟩ := p
      simp only [forwardMarked_erase, List.map_append, List.map_map]
      simp [Function.comp_def]

theorem teeMarked_erase : ((b.teeMarked es).1.map Prod.fst, (b.teeMarked es).2) = b.tee es := by
  induction es generalizing b with
  | nil => rfl
  | cons e es ih =>
    have hevent := @teeEventMarked_erase b e
    rw [teeMarked, tee]
    revert hevent
    rcases b.teeEventMarked e with ⟨out,_ | b₁⟩ <;> intro hevent <;> rw [← hevent]
    simp only [List.map_append, ← ih]

theorem forwardMarked_prefix : (b.forwardMarked xs).1 <+: xs := by
  induction xs generalizing b with
  | nil => exact List.nil_prefix
  | cons x xs ih =>
    simp only [forwardMarked]
    cases b.consume x.1 with
    | error err => exact List.nil_prefix
    | ok b₁ => exact List.prefix_cons_inj x |>.mpr ih

theorem forwardMarked_ok (h : (b.forwardMarked xs).2 = .ok b') : (b.forwardMarked xs).1 = xs := by
  induction xs generalizing b with
  | nil => rfl
  | cons x xs ih =>
    simp only [forwardMarked] at h ⊢
    cases hc : b.consume x.1 with
    | error err => rw [hc] at h; cases h
    | ok b₁ =>
      simp only [hc] at h ⊢
      rw [ih h]

structure SameAnnounced (b b' : StreamBridge) : Prop where
  items : b'.announcedItems = b.announcedItems
  parts : b'.announcedParts = b.announcedParts
  rewriteId : b'.rewriteId = b.rewriteId

theorem consume_announced (h : b.consume e = .ok b') : SameAnnounced b b' := by
  cases consume_ok_iff.mp h <;> exact ⟨rfl,rfl,rfl⟩

theorem forwardMarked_announced (h : (b.forwardMarked xs).2 = .ok b') : SameAnnounced b b' := by
  induction xs generalizing b with
  | nil => cases h; exact ⟨rfl,rfl,rfl⟩
  | cons x xs ih =>
    simp only [forwardMarked] at h
    cases hc : b.consume x.1 with
    | error err => rw [hc] at h; cases h
    | ok b₁ =>
      simp only [hc] at h
      have hfirst := consume_announced hc
      have hrest := ih h
      exact ⟨hrest.items.trans hfirst.items,hrest.parts.trans hfirst.parts,hrest.rewriteId.trans hfirst.rewriteId⟩

theorem passed_eq_ok_iff : b.passed e = .ok (b₁, xs) ↔ ∃ e' synth, b.maybeRewriteId e = .ok e' ∧
    b.synthesizeMissingAnnouncements e' = .ok (b₁, synth) ∧
    xs = synth.map (fun s => (s, true)) ++ [(e', false)] := by
  simp only [passed, Except.bind_eq_ok_iff]
  constructor
  · rintro ⟨e',he,⟨b₂,synth⟩,hs,hx⟩
    cases hx
    exact ⟨e',synth,he,hs,rfl⟩
  · rintro ⟨e',synth,he,hs,rfl⟩
    exact ⟨e',he,(b₁,synth),hs,rfl⟩

end StreamBridge

section Shapes

variable {e e' : Event} {b b' b₁ : StreamBridge} {id id' : String} {n n' : ℤ} {outputIndex : Json}

theorem wellFormed_rewritten (h : Rewritten e e') (hw : WellFormed e) : WellFormed e' where
  item ht item hi := by
    rw [h.etype] at ht
    refine hw.item ht item ?_
    rwa [Dict.getD, StreamBridge.get?_rewritten h (show "item" ≠ "response" by decide)] at hi
  itemId hm := by
    rw [h.etype] at hm
    rw [Dict.get, Dict.getD, StreamBridge.get?_rewritten h (show "item_id" ≠ "response" by decide)]
    exact hw.itemId hm
  contentIndex hm := by
    rw [h.etype] at hm
    rw [Dict.getD, StreamBridge.get?_rewritten h (show "content_index" ≠ "response" by decide)]
    exact hw.contentIndex hm

theorem announcesItem_iff_of_adds {item : JsonDict} (h : Adds e item id) : AnnouncesItem e id' ↔ id' = id := by
  constructor
  · rintro ⟨item',h'⟩
    cases (h.2.unique h'.2).2
    rfl
  · rintro rfl
    exact ⟨item,h⟩

theorem AnnouncesPart.iff_same (h : AnnouncesPart e id n) : AnnouncesPart e id' n' ↔ id' = id ∧ n' = n := by
  obtain ⟨ht,hid,hn⟩ := h
  constructor
  · rintro ⟨-,hid',hn'⟩
    exact ⟨Json.str.inj (hid'.symm.trans hid),Json.int.inj (hn'.symm.trans hn)⟩
  · rintro ⟨rfl,rfl⟩
    exact ⟨ht,hid,hn⟩

theorem not_announcesItem_of_message (h : (etype e).message = true) : ¬ AnnouncesItem e id :=
  fun ⟨_,ha⟩ => not_adds_of_message h ha

theorem WellFormed.mentions (hw : WellFormed e) (hm : (etype e).message = true)
    (hid : e.get "item_id" = .str id) : Mentions e id := by
  refine ⟨hm,hid,?_⟩
  rcases hw.itemId hm with hn | ⟨id',hne,hid'⟩
  · rw [hid] at hn; cases hn
  · obtain rfl := Json.str.inj (hid.symm.trans hid')
    exact hne

theorem AnnouncesPart.mentions (h : AnnouncesPart e id n) (hw : WellFormed e) : Mentions e id := by
  obtain ⟨ht,hid,-⟩ := h
  exact hw.mentions (by rw [ht]; rfl) hid

theorem announcesItem_synthetic (hne : id ≠ "") :
    AnnouncesItem (syntheticItemAdded id outputIndex) id' ↔ id' = id := by
  have hadds : Adds (syntheticItemAdded id outputIndex) (syntheticItem id) id :=
    ⟨rfl,rfl,bne_iff_ne.mpr hne,rfl⟩
  exact announcesItem_iff_of_adds hadds

theorem not_announcesPart_syntheticItem : ¬ AnnouncesPart (syntheticItemAdded id outputIndex) id' n :=
  fun h => by cases h.1

theorem not_announcesItem_syntheticPart : ¬ AnnouncesItem (syntheticPartAdded id outputIndex n) id' :=
  fun ⟨_,h⟩ => by cases h.1

theorem announcesPart_synthetic :
    AnnouncesPart (syntheticPartAdded id outputIndex n) id' n' ↔ id' = id ∧ n' = n := by
  have hannounces : AnnouncesPart (syntheticPartAdded id outputIndex n) id n := ⟨rfl,rfl,rfl⟩
  exact hannounces.iff_same

end Shapes

inductive Owes (b : StreamBridge) (e : Event) : StreamBridge → List Event → Prop
  | added {item id} : Adds e item id → Owes b e (b.announceItem (.str id)) []
  | quiet : (∀ item id, ¬ Adds e item id) → (∀ id, ¬ Mentions e id) → Owes b e b []
  | mentioned {id} : Mentions e id → (etype e).textPart = false → etype e ≠ .contentPartAdded →
      Owes b e (b.noteItem id) (b.owedItem id (e.getD "output_index" (.int 0)))
  | partAdded {id n} : Mentions e id → AnnouncesPart e id n →
      Owes b e ((b.announcePart (.str id, n)).noteItem id) (b.owedItem id (e.getD "output_index" (.int 0)))
  | text {id n} : Mentions e id → (etype e).textPart = true → e.getD "content_index" (.int 0) = .int n →
      Owes b e ((b.noteItem id).notePart id n)
        (b.owedItem id (e.getD "output_index" (.int 0)) ++ b.owedPart id (e.getD "output_index" (.int 0)) n)

namespace StreamBridge

variable {b b' b₁ b₂ : StreamBridge} {e e' : Event} {synth : List Event} {xs out : List (Event × Bool)}
  {es : List Event}

theorem synthesize_mentions {id : String} (hm : Mentions e id) (hw : WellFormed e) :
    ∃ b₁ synth, b.synthesizeMissingAnnouncements e = .ok (b₁, synth) ∧ Owes b e b₁ synth := by
  obtain ⟨hmessage,hid,hne⟩ := hm
  obtain ⟨n,hn⟩ := hw.contentIndex hmessage
  have hindex : (e.getD "content_index" (.int 0)).toInt = .ok n := by rw [hn]; rfl
  by_cases ht : etype e = .contentPartAdded
  · have htrue : (Json.str id).truthy = true := bne_iff_ne.mpr hne
    refine ⟨_,_,?_,.partAdded ⟨hmessage,hid,hne⟩ ⟨ht,hid,hn⟩⟩
    simp only [synthesizeMissingAnnouncements, ht, hid, htrue, if_true, hindex, Json.key, bind, Except.bind]
    exact announceParent_item hid (by rw [ht]; rfl)
  · rw [synthesize_message hmessage ht]
    cases htext : (etype e).textPart with
    | true => exact ⟨_,_,announceParent_part hid htext hindex,.text ⟨hmessage,hid,hne⟩ htext hn⟩
    | false => exact ⟨_,_,announceParent_item hid htext,.mentioned ⟨hmessage,hid,hne⟩ htext ht⟩

theorem synthesize_unaddressed (hm : (etype e).message = true) (hn : e.get "item_id" = .null) :
    b.synthesizeMissingAnnouncements e = .ok (b, []) := by
  have hparent : b.announceParent e = .ok (b, []) := by simp only [announceParent, hn]
  by_cases ht : etype e = .contentPartAdded
  · simpa only [synthesizeMissingAnnouncements, ht, hn, Json.truthy, Bool.false_eq_true, if_false] using hparent
  · rw [synthesize_message hm ht, hparent]

theorem synthesize_wellFormed (hm : (etype e).message = true) (hw : WellFormed e) :
    ∃ b₁ synth, b.synthesizeMissingAnnouncements e = .ok (b₁, synth) ∧ Owes b e b₁ synth := by
  rcases hw.itemId hm with hn | ⟨id,hne,hid⟩
  · refine ⟨b,[],synthesize_unaddressed hm hn,.quiet (fun item id => not_adds_of_message hm) ?_⟩
    rintro id ⟨-,hid,-⟩
    rw [hn] at hid
    cases hid
  · exact synthesize_mentions ⟨hm,hid,hne⟩ hw

theorem owes_of_ok (hw : WellFormed e) (h : b.synthesizeMissingAnnouncements e = .ok (b₁, synth)) :
    Owes b e b₁ synth := by
  cases hm : (etype e).message with
  | true =>
    obtain ⟨b₂,synth',hs,howes⟩ := synthesize_wellFormed (b := b) hm hw
    cases hs.symm.trans h
    exact howes
  | false =>
    have hmentions (id : String) : ¬ Mentions e id := not_mentions_of_quiet hm
    by_cases hadded : etype e = .outputItemAdded
    · obtain ⟨rfl,⟨item,k,hc,rfl⟩ | ⟨hnone,rfl⟩⟩ := synthesize_item hadded h
      · obtain ⟨id,-,rfl⟩ := hw.key_eq (.inl hadded) hc
        exact .added ⟨hadded,hc⟩
      · exact .quiet (fun item id ha => hnone.not_carries ha.2) hmentions
    · obtain ⟨rfl,rfl⟩ := synthesize_unmentioned hm hadded h
      exact .quiet (fun item id ha => hadded ha.1) hmentions

end StreamBridge

structure Heard (out : List (Event × Bool)) (b : StreamBridge) : Prop where
  item : ∀ id, Key.str id ∈ b.announcedItems ↔ ∃ x ∈ out, AnnouncesItem x.1 id
  part : ∀ id n, (Key.str id, n) ∈ b.announcedParts ↔ ∃ x ∈ out, AnnouncesPart x.1 id n

section Steps

variable {b b₁ : StreamBridge} {e : Event} {xs out : List (Event × Bool)} {x : Event × Bool} {id : String}
  {n : ℤ} {outputIndex : Json} {synth : List Event}

theorem disciplined_concat : Disciplined (out ++ [x]) ↔ Disciplined out ∧ Proper out x :=
  List.forall_split_concat

theorem disciplined_of_prefix {out' : List (Event × Bool)} (h : Disciplined out) (hp : out' <+: out) :
    Disciplined out' := by
  obtain ⟨rest,rfl⟩ := hp
  rintro pre x post rfl
  exact h pre x (post ++ rest) (by simp)

theorem Heard.concat (h : Heard out b)
    (hi : ∀ id, Key.str id ∈ b₁.announcedItems ↔ Key.str id ∈ b.announcedItems ∨ AnnouncesItem x.1 id)
    (hp : ∀ id n, (Key.str id, n) ∈ b₁.announcedParts ↔
      (Key.str id, n) ∈ b.announcedParts ∨ AnnouncesPart x.1 id n) : Heard (out ++ [x]) b₁ where
  item id := by rw [hi, h.item, List.exists_mem_concat]
  part id n := by rw [hp, h.part, List.exists_mem_concat]

theorem Heard.of_same (h : Heard out b) (hs : StreamBridge.SameAnnounced b b₁) : Heard out b₁ where
  item id := by rw [hs.items]; exact h.item id
  part id n := by rw [hs.parts]; exact h.part id n

structure Ready (out : List (Event × Bool)) (b : StreamBridge) (id : String) (n : ℤ) : Prop where
  heard : Heard out b
  disciplined : Disciplined out
  item : ∃ x ∈ out, AnnouncesItem x.1 id
  last : ∀ a, out.getLast? = some (a, true) → AnnouncesItem a id ∨ AnnouncesPart a id n

theorem ready_noteItem (hne : id ≠ "") (hh : Heard out b) (hd : Disciplined out) (hs : Settled out) :
    Ready (out ++ (b.owedItem id outputIndex).map (fun s => (s, true))) (b.noteItem id) id n ∧
      ∀ a, (out ++ (b.owedItem id outputIndex).map (fun s => (s, true))).getLast? = some (a, true) →
        AnnouncesItem a id := by
  unfold StreamBridge.owedItem StreamBridge.noteItem
  by_cases hk : Key.str id ∈ b.announcedItems
  · simp only [if_pos hk, List.map_nil, List.append_nil]
    exact ⟨⟨hh,hd,(hh.item id).mp hk,fun a ha => absurd ha (hs a)⟩,fun a ha => absurd ha (hs a)⟩
  · simp only [if_neg hk, List.map_cons, List.map_nil]
    have hnew : AnnouncesItem (syntheticItemAdded id outputIndex) id := (announcesItem_synthetic hne).mpr rfl
    have hlast (a : Event) (ha : (out ++ [(syntheticItemAdded id outputIndex, true)]).getLast? = some (a, true)) :
        AnnouncesItem a id := by
      rw [List.getLast?_concat] at ha
      cases ha
      exact hnew
    refine ⟨⟨?_,?_,⟨_,List.mem_append_right _ (List.mem_singleton.mpr rfl),hnew⟩,fun a ha => .inl (hlast a ha)⟩,hlast⟩
    · refine hh.concat (fun id' => ?_) (fun id' n' => ?_)
      · rw [announcesItem_synthetic hne]
        simp [StreamBridge.announceItem, or_comm]
      · rw [or_iff_left not_announcesPart_syntheticItem]
        rfl
    · refine disciplined_concat.mpr ⟨hd,?_,?_,fun a ha => absurd ha (hs a),fun _ => .inl ⟨id,hnew⟩,?_,?_⟩
      · intro hm; cases hm
      · intro hm; cases hm
      · rintro - id' hann a ha hold
        rw [(announcesItem_synthetic hne).mp hann] at hold
        exact hk ((hh.item id).mpr ⟨a,ha,hold⟩)
      · intro _ id' n' hann
        exact absurd hann not_announcesPart_syntheticItem

theorem ready_notePart (hr : Ready out b id n) (hlast : ∀ a, out.getLast? = some (a, true) → AnnouncesItem a id)
    (hparts : b₁.announcedParts = b.announcedParts) :
    Ready (out ++ (b₁.owedPart id outputIndex n).map (fun s => (s, true))) (b.notePart id n) id n ∧
      ∃ x ∈ out ++ (b₁.owedPart id outputIndex n).map (fun s => (s, true)), AnnouncesPart x.1 id n := by
  unfold StreamBridge.owedPart StreamBridge.notePart
  rw [hparts]
  by_cases hk : (Key.str id, n) ∈ b.announcedParts
  · simp only [if_pos hk, List.map_nil, List.append_nil]
    exact ⟨hr,(hr.heard.part id n).mp hk⟩
  · simp only [if_neg hk, List.map_cons, List.map_nil]
    have hnew : AnnouncesPart (syntheticPartAdded id outputIndex n) id n := announcesPart_synthetic.mpr ⟨rfl,rfl⟩
    obtain ⟨y,hy,hitem⟩ := hr.item
    have hmem : (syntheticPartAdded id outputIndex n, true) ∈ out ++ [(syntheticPartAdded id outputIndex n, true)] :=
      List.mem_append_right _ (List.mem_singleton.mpr rfl)
    refine ⟨⟨?_,?_,⟨y,List.mem_append_left _ hy,hitem⟩,?_⟩,⟨_,hmem,hnew⟩⟩
    · refine hr.heard.concat (fun id' => ?_) (fun id' n' => ?_)
      · rw [or_iff_left not_announcesItem_syntheticPart]
        rfl
      · rw [announcesPart_synthetic]
        simp [StreamBridge.announcePart, or_comm]
    · refine disciplined_concat.mpr ⟨hr.disciplined,?_,?_,?_,fun _ => .inr ⟨id,n,hnew⟩,?_,?_⟩
      · intro _ id' hid'
        obtain rfl : id = id' := Json.str.inj hid'
        exact hr.item
      · intro ht; cases ht
      · intro a ha
        exact ⟨id,n,hlast a ha,hnew⟩
      · intro _ id' hann
        exact absurd hann not_announcesItem_syntheticPart
      · rintro - id' n' hann a ha hold
        obtain ⟨rfl,rfl⟩ := announcesPart_synthetic.mp hann
        exact hk ((hr.heard.part id' n').mpr ⟨a,ha,hold⟩)
    · intro a ha
      rw [List.getLast?_concat] at ha
      cases ha
      exact .inr hnew

theorem proper_source (hr : Ready out b id n) (hm : Mentions e id)
    (hn : e.getD "content_index" (.int 0) = .int n)
    (hpart : (etype e).textPart = true → ∃ x ∈ out, AnnouncesPart x.1 id n) : Proper out (e, false) where
  item _ id' hid' := by
    obtain rfl := Json.str.inj (hm.2.1.symm.trans hid')
    exact hr.item
  part ht id' n' hid' hn' := by
    obtain rfl := Json.str.inj (hm.2.1.symm.trans hid')
    obtain rfl := Json.int.inj (hn.symm.trans hn')
    exact hpart ht
  adjacent a ha := ⟨id,n,hm.2.1,hn,hr.last a ha⟩
  announces h := by cases h
  freshItem h := by cases h
  freshPart h := by cases h

theorem proper_unmentioned (hs : Settled out)
    (hno : (etype e).message = true → ∀ id, e.get "item_id" ≠ .str id) : Proper out (e, false) where
  item hm id hid := absurd hid (hno hm id)
  part ht id n hid := by
    have hm : (etype e).message = true := by
      cases het : etype e <;> rw [het] at ht <;> first | rfl | cases ht
    exact absurd hid (hno hm id)
  adjacent a ha := absurd ha (hs a)
  announces h := by cases h
  freshItem h := by cases h
  freshPart h := by cases h

theorem settled_source : Settled (out ++ [(e, false)]) := by
  intro a ha
  rw [List.getLast?_concat] at ha
  cases ha

theorem noteItem_parts : (b.noteItem id).announcedParts = b.announcedParts := by
  unfold StreamBridge.noteItem
  split <;> rfl

theorem noteItem_announcePart {p : Key × ℤ} :
    ((b.announcePart p).noteItem id).announcedItems = (b.noteItem id).announcedItems ∧
      ((b.announcePart p).noteItem id).announcedParts = p :: b.announcedParts := by
  by_cases hk : Key.str id ∈ b.announcedItems
  · have hk' : Key.str id ∈ (b.announcePart p).announcedItems := hk
    simp only [StreamBridge.noteItem, if_pos hk, if_pos hk']
    exact ⟨rfl,rfl⟩
  · have hk' : Key.str id ∉ (b.announcePart p).announcedItems := hk
    simp only [StreamBridge.noteItem, if_neg hk, if_neg hk']
    exact ⟨rfl,rfl⟩

theorem disciplined_owed (hw : WellFormed e) (hh : Heard out b) (hd : Disciplined out) (hs : Settled out)
    (ho : Owes b e b₁ synth) :
    Disciplined (out ++ (synth.map (fun s => (s, true)) ++ [(e, false)])) ∧
      Heard (out ++ (synth.map (fun s => (s, true)) ++ [(e, false)])) b₁ := by
  cases ho with
  | @added item id ha =>
    have hno : (etype e).message = true → ∀ id, e.get "item_id" ≠ .str id := by
      intro hm; rw [ha.1] at hm; cases hm
    refine ⟨disciplined_concat.mpr ⟨hd,proper_unmentioned hs hno⟩,hh.concat (fun id' => ?_) (fun id' n => ?_)⟩
    · rw [announcesItem_iff_of_adds ha]
      simp [StreamBridge.announceItem, or_comm]
    · have hpart : ¬ AnnouncesPart e id' n := fun hp => by cases ha.1.symm.trans hp.1
      rw [or_iff_left hpart]
      rfl
  | quiet hadds hmentions =>
    have hno (hm : (etype e).message = true) (id : String) : e.get "item_id" ≠ .str id :=
      fun hid => hmentions id (hw.mentions hm hid)
    refine ⟨disciplined_concat.mpr ⟨hd,proper_unmentioned hs hno⟩,hh.concat (fun id => ?_) (fun id n => ?_)⟩
    · have hnot : ¬ AnnouncesItem e id := not_exists.mpr fun item => hadds item id
      rw [or_iff_left hnot]
    · rw [or_iff_left fun hp => hmentions id (hp.mentions hw)]
  | @mentioned id hm ht hp =>
    obtain ⟨n,hn⟩ := hw.contentIndex hm.1
    obtain ⟨hr,-⟩ := @ready_noteItem b out id n (e.getD "output_index" (.int 0)) hm.2.2 hh hd hs
    rw [← List.append_assoc]
    refine ⟨disciplined_concat.mpr ⟨hr.disciplined,proper_source hr hm hn ?_⟩,?_⟩
    · intro htext; rw [ht] at htext; cases htext
    · refine hr.heard.concat (fun id' => ?_) (fun id' n' => ?_)
      · rw [or_iff_left (not_announcesItem_of_message hm.1)]
      · rw [or_iff_left fun hpart => hp hpart.1]
  | @partAdded id n hm hp =>
    obtain ⟨hr,-⟩ := @ready_noteItem b out id n (e.getD "output_index" (.int 0)) hm.2.2 hh hd hs
    obtain ⟨hitems,hparts⟩ := @noteItem_announcePart b id (.str id, n)
    rw [← List.append_assoc]
    refine ⟨disciplined_concat.mpr ⟨hr.disciplined,proper_source hr hm hp.2.2 ?_⟩,?_⟩
    · intro htext; rw [hp.1] at htext; cases htext
    · refine hr.heard.concat (fun id' => ?_) (fun id' n' => ?_)
      · rw [hitems, or_iff_left (not_announcesItem_of_message hm.1)]
      · rw [hparts, noteItem_parts, hp.iff_same]
        simp [or_comm]
  | @text id n hm ht hn =>
    -- The item goes first, then the part.
    obtain ⟨hr,hlast⟩ := @ready_noteItem b out id n (e.getD "output_index" (.int 0)) hm.2.2 hh hd hs
    obtain ⟨hr',hpart⟩ := @ready_notePart _ b _ id n (e.getD "output_index" (.int 0)) hr hlast
      noteItem_parts.symm
    rw [List.map_append, List.append_assoc, ← List.append_assoc, ← List.append_assoc]
    refine ⟨disciplined_concat.mpr ⟨hr'.disciplined,proper_source hr' hm hn fun _ => hpart⟩,?_⟩
    refine hr'.heard.concat (fun id' => ?_) (fun id' n' => ?_)
    · rw [or_iff_left (not_announcesItem_of_message hm.1)]
    · rw [or_iff_left fun hp => ?_]
      rw [hp.1] at ht
      cases ht

end Steps

namespace StreamBridge

variable {b b' b₁ : StreamBridge} {e : Event} {out : List (Event × Bool)} {events : List Event}

theorem teeEventMarked_disciplined (hw : WellFormed e) (hh : Heard out b) (hd : Disciplined out)
    (hs : Settled out) : Disciplined (out ++ (b.teeEventMarked e).1) ∧
      ∀ b', (b.teeEventMarked e).2 = .ok b' → Heard (out ++ (b.teeEventMarked e).1) b' ∧
        Settled (out ++ (b.teeEventMarked e).1) := by
  unfold teeEventMarked
  cases hp : b.passed e with
  | error x =>
    refine ⟨by simpa using hd,fun b' h => ?_⟩
    cases h
  | ok p =>
    obtain ⟨b₁,xs⟩ := p
    obtain ⟨e',synth,hr,hsyn,rfl⟩ := passed_eq_ok_iff.mp hp
    have hw' := wellFormed_rewritten (maybeRewriteId_ok hr) hw
    obtain ⟨hd',hh'⟩ := disciplined_owed hw' hh hd hs (owes_of_ok hw' hsyn)
    dsimp only
    refine ⟨?_,fun b' h => ?_⟩
    · exact disciplined_of_prefix hd' ((List.prefix_append_right_inj out).mpr forwardMarked_prefix)
    · rw [forwardMarked_ok h]
      refine ⟨hh'.of_same (forwardMarked_announced h),?_⟩
      rw [← List.append_assoc]
      exact settled_source

theorem teeMarked_disciplined (hw : ∀ e ∈ events, WellFormed e) (hh : Heard out b) (hd : Disciplined out)
    (hs : Settled out) : Disciplined (out ++ (b.teeMarked events).1) ∧
      ∀ b', (b.teeMarked events).2 = .ok b' → Settled (out ++ (b.teeMarked events).1) := by
  induction events generalizing b out with
  | nil => exact ⟨by simpa [teeMarked] using hd,fun b' _ => by simpa [teeMarked] using hs⟩
  | cons e events ih =>
    obtain ⟨hd₁,hok⟩ := teeEventMarked_disciplined (b := b) (hw e (by simp)) hh hd hs
    rw [teeMarked]
    revert hd₁ hok
    rcases b.teeEventMarked e with ⟨xs,x | b₁⟩
    · intro hd₁ _
      refine ⟨hd₁,fun b' h => ?_⟩
      cases h
    · intro hd₁ hok
      obtain ⟨hh₁,hs₁⟩ := hok b₁ rfl
      have hrest := ih (fun x hx => hw x (by simp [hx])) hh₁ hd₁ hs₁
      simpa [List.append_assoc] using hrest

theorem init_disciplined {rewriteId : Option String} (hw : ∀ e ∈ events, WellFormed e) :
    Disciplined ((init rewriteId).teeMarked events).1 ∧
      ∀ b, ((init rewriteId).teeMarked events).2 = .ok b → Settled ((init rewriteId).teeMarked events).1 := by
  have hheard : Heard [] (init rewriteId) := ⟨fun id => by simp [init],fun id n => by simp [init]⟩
  have hdisciplined : Disciplined [] := fun pre x post h => by simp at h
  have hsettled : Settled [] := fun a h => by cases h
  exact teeMarked_disciplined hw hheard hdisciplined hsettled

end StreamBridge

theorem announcement_discipline {rewriteId : Option String} {events : List Event}
    (hw : ∀ e ∈ events, WellFormed e) :
    ((StreamBridge.init rewriteId).teeMarked events).1.map Prod.fst =
        ((StreamBridge.init rewriteId).tee events).1 ∧
      Disciplined ((StreamBridge.init rewriteId).teeMarked events).1 ∧
      ∀ b, ((StreamBridge.init rewriteId).tee events).2 = .ok b →
        Settled ((StreamBridge.init rewriteId).teeMarked events).1 := by
  have herase := @StreamBridge.teeMarked_erase (.init rewriteId) events
  obtain ⟨hd,hs⟩ := @StreamBridge.init_disciplined _ rewriteId hw
  refine ⟨congrArg Prod.fst herase,hd,fun b hb => hs b ?_⟩
  rw [← hb]
  exact congrArg Prod.snd herase

theorem LateAnnouncement.wellFormed : ∀ e ∈ LateAnnouncement.events, WellFormed e := by
  intro e he
  refine ⟨LateAnnouncement.wellIdentified e he,fun _ => ⟨0,?_⟩⟩
  simp only [LateAnnouncement.events, List.mem_cons, List.not_mem_nil, or_false] at he
  rcases he with rfl | rfl <;> decide

theorem announcement_discipline_late :
    ((StreamBridge.init none).teeMarked LateAnnouncement.events).1.map Prod.fst =
        ((StreamBridge.init none).tee LateAnnouncement.events).1 ∧
      Disciplined ((StreamBridge.init none).teeMarked LateAnnouncement.events).1 ∧
      ∀ b, ((StreamBridge.init none).tee LateAnnouncement.events).2 = .ok b →
        Settled ((StreamBridge.init none).teeMarked LateAnnouncement.events).1 :=
  announcement_discipline LateAnnouncement.wellFormed

end ResponsesGateway
