import ResponsesGateway.Streaming.Announcements

namespace ResponsesGateway

def withId (id : String) (e : Event) : Event :=
  if (etype e).lifecycle then
    match (e.get "response").asDict with
    | some resp => e.set "response" (.obj (resp.set "id" (.str id)))
    | none => e
  else e

namespace StreamBridge

def knowing (b : StreamBridge) (items : List Key) (parts : List (Key × ℤ)) : StreamBridge :=
  { b with announcedItems := items, announcedParts := parts }

variable {b b' b₁ b₂ c c' : StreamBridge} {e e' : Event} {es xs : List Event} {items : List Key}
  {parts : List (Key × ℤ)} {synth : List Event} {id : String}

theorem consumes_knowing (items : List Key) (parts : List (Key × ℤ)) (h : Consumes b e b') :
    Consumes (b.knowing items parts) e (b'.knowing items parts) := by
  cases h with
  | created ht hd => exact .created ht hd
  | added ht hc => exact .added ht hc
  | done ht hc => exact .done ht hc
  | nameless ht hn => exact .nameless ht hn
  | extended ht hl ha => exact .extended ht hl ha
  | dropped ht hl => exact .dropped ht hl
  | argued ht htr hk hi ha => exact .argued ht htr hk hi ha
  | unknown ht htr hk hi => exact .unknown ht htr hk hi
  | unaddressed ht htr => exact .unaddressed ht htr
  | used ht hr hu => exact .used ht hr hu
  | unused ht hr hu => exact .unused ht hr hu
  | other ht => exact .other ht

theorem consume_knowing (items : List Key) (parts : List (Key × ℤ)) (h : b.consume e = .ok b') :
    (b.knowing items parts).consume e = .ok (b'.knowing items parts) :=
  consume_ok_iff.mpr (consumes_knowing items parts (consume_ok_iff.mp h))

theorem forward_knowing (items : List Key) (parts : List (Key × ℤ)) (h : (b.forward xs).2 = .ok b') :
    (b.knowing items parts).forward xs = (xs, .ok (b'.knowing items parts)) := by
  induction xs generalizing b with
  | nil => cases h; rfl
  | cons x xs ih =>
    obtain ⟨b₁,hc,hrest⟩ := forward_cons_ok_iff.mp h
    simp only [forward, consume_knowing items parts hc, ih hrest]

theorem SameBuffer.eq_knowing (h : SameBuffer b b') : b' = b.knowing b'.announcedItems b'.announcedParts := by
  obtain ⟨hi,ho,hf,hr⟩ := h
  cases b
  cases b'
  cases hi
  cases ho
  cases hf
  cases hr
  rfl

theorem forward_tee (h : (b.tee es).2 = .ok b') :
    b.forward (b.tee es).1 = ((b.tee es).1, .ok (b'.knowing b.announcedItems b.announcedParts)) := by
  induction es generalizing b with
  | nil => cases h; rfl
  | cons e es ih =>
    obtain ⟨b₂,he,hes⟩ := tee_cons_ok_iff.mp h
    obtain ⟨e',b₁,synth,hr,hs,hf⟩ := teeEvent_ok_iff.mp he
    have hb₁ := (synthesizeMissingAnnouncements_ok hs).1.eq_knowing
    have hout : (b.teeEvent e).1 = synth ++ [e'] := by
      simp only [teeEvent, hr, hs, forward_ok hf]
    have hback : b₁.knowing b.announcedItems b.announcedParts = b := by rw [hb₁]; rfl
    have hfirst := forward_knowing b.announcedItems b.announcedParts hf
    have hmore : (b₂.forward (b₂.tee es).1).2 = .ok _ := congrArg Prod.snd (ih hes)
    have hrest := forward_knowing b.announcedItems b.announcedParts hmore
    rw [hback] at hfirst
    rw [tee_cons_of_ok es he, hout, forward_append (congrArg Prod.snd hfirst), hrest]
    rfl

theorem synthesize_of_consume (hw : WellFormed e) (hkey : Hashable (e.get "type")) (hc : c.consume e = .ok c') :
    ∃ c₁ synth, c.synthesizeMissingAnnouncements e = .ok (c₁, synth) := by
  cases hm : (etype e).message with
  | true =>
    obtain ⟨c₁,synth,hs,-⟩ := synthesize_wellFormed (b := c) hm hw
    exact ⟨c₁,synth,hs⟩
  | false =>
    by_cases hadded : etype e = .outputItemAdded
    · obtain ⟨c₁,hs⟩ := synthesize_itemAdded (b := c) hadded ((consume_item (.inl hadded)).mp ⟨c',hc⟩)
      exact ⟨c₁,[],hs⟩
    · obtain ⟨k,hk⟩ := hkey
      refine ⟨c,[],?_⟩
      rw [synthesize_quiet hm hadded, hk]
      rfl

end StreamBridge

structure Knows (done : List (Event × Bool)) (c : StreamBridge) : Prop where
  item : ∀ id, (∃ a ∈ done, AnnouncesItem a.1 id) → Key.str id ∈ c.announcedItems
  part : ∀ id n, (∃ a ∈ done, AnnouncesPart a.1 id n) → (Key.str id, n) ∈ c.announcedParts

structure Stable (id : String) (e : Event) : Prop extends WellFormed e where
  type : Hashable (e.get "type")
  rewritten : ∀ b : StreamBridge, b.rewriteId = some id → b.maybeRewriteId e = .ok e

section Second

variable {done rest : List (Event × Bool)} {c c' c₁ : StreamBridge} {x : Event × Bool} {id : String}
  {synth : List Event}

theorem Knows.concat (hk : Knows done c) (hi : c.announcedItems ⊆ c₁.announcedItems)
    (hp : c.announcedParts ⊆ c₁.announcedParts) (hi' : ∀ id, AnnouncesItem x.1 id → Key.str id ∈ c₁.announcedItems)
    (hp' : ∀ id n, AnnouncesPart x.1 id n → (Key.str id, n) ∈ c₁.announcedParts) : Knows (done ++ [x]) c₁ where
  item id h := by
    rcases List.exists_mem_concat.mp h with h | h
    · exact hi (hk.item id h)
    · exact hi' id h
  part id n h := by
    rcases List.exists_mem_concat.mp h with h | h
    · exact hp (hk.part id n h)
    · exact hp' id n h

theorem owed_nothing (hw : WellFormed x.1) (hk : Knows done c) (hp : Proper done x) (ho : Owes c x.1 c₁ synth) :
    synth = [] ∧ Knows (done ++ [x]) c₁ := by
  have hitem {id : String} (hm : Mentions x.1 id) : Key.str id ∈ c.announcedItems :=
    hk.item id (hp.item hm.1 id hm.2.1)
  have hnone {id : String} {j : Json} (hm : Mentions x.1 id) : c.owedItem id j = [] := if_pos (hitem hm)
  have hsame {b : StreamBridge} {id : String} (h : Key.str id ∈ b.announcedItems) : b.noteItem id = b := if_pos h
  cases ho with
  | @added item id ha =>
    refine ⟨rfl,hk.concat (List.subset_cons_self _ _) (List.Subset.refl _) ?_ ?_⟩
    · intro id' h
      rw [(announcesItem_iff_of_adds ha).mp h]
      exact List.mem_cons_self
    · intro id' n hpart
      cases ha.1.symm.trans hpart.1
  | quiet hadds hmentions =>
    refine ⟨rfl,hk.concat (List.Subset.refl _) (List.Subset.refl _) ?_ ?_⟩
    · rintro id ⟨item,ha⟩
      exact absurd ha (hadds item id)
    · intro id n hpart
      exact absurd (hpart.mentions hw) (hmentions id)
  | mentioned hm _ hkind =>
    rw [hsame (hitem hm)]
    refine ⟨hnone hm,hk.concat (List.Subset.refl _) (List.Subset.refl _) ?_ ?_⟩
    · intro id h
      exact absurd h (not_announcesItem_of_message hm.1)
    · intro id n hpart
      exact absurd hpart.1 hkind
  | @partAdded id n hm hpart =>
    have hannounced : Key.str id ∈ (c.announcePart (.str id, n)).announcedItems := hitem hm
    rw [hsame hannounced]
    refine ⟨hnone hm,hk.concat (List.Subset.refl _) (List.subset_cons_self _ _) ?_ ?_⟩
    · intro id h
      exact absurd h (not_announcesItem_of_message hm.1)
    · intro id' n' hpart'
      obtain ⟨rfl,rfl⟩ := hpart.iff_same.mp hpart'
      exact List.mem_cons_self
  | @text id n hm ht hn =>
    have hannounced : (Key.str id, n) ∈ c.announcedParts := hk.part id n (hp.part ht id n hm.2.1 hn)
    have hparts : c.notePart id n = c := if_pos hannounced
    have howed : c.owedPart id (x.1.getD "output_index" (.int 0)) n = [] := if_pos hannounced
    rw [hsame (hitem hm), hparts, hnone hm, howed]
    refine ⟨rfl,hk.concat (List.Subset.refl _) (List.Subset.refl _) ?_ ?_⟩
    · intro id h
      exact absurd h (not_announcesItem_of_message hm.1)
    · intro id' n' hpart
      rw [hpart.1] at ht
      cases ht

theorem tee_disciplined (hd : Disciplined (done ++ rest)) (hk : Knows done c) (hid : c.rewriteId = some id)
    (hs : ∀ x ∈ rest, Stable id x.1) (hf : (c.forward (rest.map Prod.fst)).2 = .ok c') :
    ∃ items parts, c.tee (rest.map Prod.fst) = (rest.map Prod.fst, .ok (c'.knowing items parts)) := by
  -- `done` is what the second bridge has passed on; both bridges differ only in what they know.
  induction rest generalizing done c c' with
  | nil =>
    obtain rfl : c = c' := Except.ok.inj hf
    exact ⟨c.announcedItems,c.announcedParts,rfl⟩
  | cons x rest ih =>
    obtain ⟨c₂,hc,hrest⟩ := StreamBridge.forward_cons_ok_iff.mp hf
    have hx := hs x (by simp)
    obtain ⟨c₁,synth,hsyn⟩ := StreamBridge.synthesize_of_consume hx.toWellFormed hx.type hc
    obtain ⟨rfl,hk₁⟩ := owed_nothing hx.toWellFormed hk (hd done x rest rfl)
      (StreamBridge.owes_of_ok hx.toWellFormed hsyn)
    have hsame := (StreamBridge.synthesizeMissingAnnouncements_ok hsyn).1.eq_knowing
    have hc₁ : c₁.consume x.1 = .ok (c₂.knowing c₁.announcedItems c₁.announcedParts) := by
      rw [hsame]
      exact StreamBridge.consume_knowing _ _ hc
    have hkept := StreamBridge.consume_announced hc₁
    have hevent : c.teeEvent x.1 = ([x.1], .ok (c₂.knowing c₁.announcedItems c₁.announcedParts)) := by
      simp only [StreamBridge.teeEvent, hx.rewritten c hid, hsyn, List.nil_append, StreamBridge.forward, hc₁]
    have hforward := StreamBridge.forward_knowing c₁.announcedItems c₁.announcedParts hrest
    have hid₂ : (c₂.knowing c₁.announcedItems c₁.announcedParts).rewriteId = some id := by
      rw [hkept.rewriteId, hsame]
      exact hid
    have hk₂ : Knows (done ++ [x]) (c₂.knowing c₁.announcedItems c₁.announcedParts) := ⟨hk₁.item,hk₁.part⟩
    have hd₂ : Disciplined ((done ++ [x]) ++ rest) := by simpa using hd
    obtain ⟨items,parts,htee⟩ := ih hd₂ hk₂ hid₂ (fun y hy => hs y (by simp [hy])) (congrArg Prod.snd hforward)
    refine ⟨items,parts,?_⟩
    rw [List.map_cons, StreamBridge.tee_cons_of_ok _ (congrArg Prod.snd hevent), hevent, htee]
    rfl

end Second

section First

variable {b b' b₁ : StreamBridge} {e e' : Event} {id : String} {synth : List Event} {events : List Event}
  {xs : List (Event × Bool)}

theorem maybeRewriteId_of_withId (hne : id ≠ "") (hb : b.rewriteId = some id) (ht : Hashable (e.get "type")) :
    b.maybeRewriteId e = .ok (withId id e) := by
  obtain ⟨k,hk⟩ := ht
  unfold StreamBridge.maybeRewriteId withId
  simp only [hb, if_neg hne, hk, bind, Except.bind]
  cases hr : (e.get "response").asDict <;> cases hl : (etype e).lifecycle <;> rfl

theorem maybeRewriteId_eq_withId (hne : id ≠ "") (hb : b.rewriteId = some id)
    (h : b.maybeRewriteId e = .ok e') : e' = withId id e ∧ Hashable (e.get "type") := by
  have ht : Hashable (e.get "type") := by
    simp only [StreamBridge.maybeRewriteId, hb, if_neg hne] at h
    obtain ⟨k,hk,-⟩ := Except.bind_eq_ok_iff.mp h
    exact ⟨k,hk⟩
  rw [maybeRewriteId_of_withId hne hb ht, Except.ok.injEq] at h
  exact ⟨h.symm,ht⟩

theorem withId_withId : withId id (withId id e) = withId id e := by
  unfold withId
  by_cases hl : (etype e).lifecycle = true
  · rw [if_pos hl]
    cases hr : (e.get "response").asDict with
    | none => simp only [if_pos hl, hr]
    | some resp =>
      have ht : etype (e.set "response" (.obj (resp.set "id" (.str id)))) = etype e := Rewritten.etype (.response hr)
      have hresp : ((e.set "response" (.obj (resp.set "id" (.str id)))).get "response").asDict =
          some (resp.set "id" (.str id)) := by simp [Dict.get, Dict.getD]
      simp only [ht, if_pos hl, hresp]
      rw [Dict.set_eq_self (d := resp.set "id" (.str id)) (by simp), Dict.set_eq_self (by simp)]
  · rw [if_neg hl, if_neg hl]

theorem stable_withId (hne : id ≠ "") (hw : WellFormed e) (hb : b.rewriteId = some id)
    (h : b.maybeRewriteId e = .ok e') : Stable id e' := by
  have hr := StreamBridge.maybeRewriteId_ok h
  obtain ⟨rfl,ht⟩ := maybeRewriteId_eq_withId hne hb h
  have ht' : Hashable ((withId id e).get "type") := by
    rwa [Dict.get, Dict.getD, StreamBridge.get?_rewritten hr (show "type" ≠ "response" by decide)]
  refine ⟨wellFormed_rewritten hr hw,ht',fun c hc => ?_⟩
  rw [maybeRewriteId_of_withId hne hc ht', withId_withId]

theorem stable_syntheticItem {itemId : String} {j : Json} (hne : itemId ≠ "") :
    Stable id (syntheticItemAdded itemId j) where
  item _ item hi := by
    have hsame : syntheticItem itemId = item := Except.ok.inj hi
    exact .inr ⟨itemId,hne,hsame ▸ rfl⟩
  itemId hm := by cases hm
  contentIndex hm := by cases hm
  type := ⟨_,rfl⟩
  rewritten b _ := StreamBridge.maybeRewriteId_other (e := syntheticItemAdded itemId j) rfl rfl

theorem stable_syntheticPart {itemId : String} {j : Json} {n : ℤ} (hne : itemId ≠ "") :
    Stable id (syntheticPartAdded itemId j n) where
  item ht := by rcases ht with ht | ht <;> cases ht
  itemId _ := .inr ⟨itemId,hne,rfl⟩
  contentIndex _ := ⟨n,rfl⟩
  type := ⟨_,rfl⟩
  rewritten b _ := StreamBridge.maybeRewriteId_other (e := syntheticPartAdded itemId j n) rfl rfl

theorem stable_owed (h : Owes b e b₁ synth) : ∀ s ∈ synth, Stable id s := by
  have hitem {itemId : String} {j : Json} (hne : itemId ≠ "") : ∀ s ∈ b.owedItem itemId j, Stable id s := by
    unfold StreamBridge.owedItem
    split
    · simp
    · intro s hs
      rw [List.mem_singleton.mp hs]
      exact stable_syntheticItem hne
  have hpart {itemId : String} {j : Json} {n : ℤ} (hne : itemId ≠ "") :
      ∀ s ∈ b.owedPart itemId j n, Stable id s := by
    unfold StreamBridge.owedPart
    split
    · simp
    · intro s hs
      rw [List.mem_singleton.mp hs]
      exact stable_syntheticPart hne
  cases h with
  | added => simp
  | quiet => simp
  | mentioned hm => exact hitem hm.2.2
  | partAdded hm => exact hitem hm.2.2
  | text hm =>
    intro s hs
    exact (List.mem_append.mp hs).elim (hitem hm.2.2 s) (hpart hm.2.2 s)

namespace StreamBridge

theorem teeEventMarked_source (hne : id ≠ "") (hw : WellFormed e) (hb : b.rewriteId = some id)
    (h : (b.teeEventMarked e).2 = .ok b') :
    ((b.teeEventMarked e).1.filter (fun x => !x.2)).map Prod.fst = [withId id e] ∧
      (∀ x ∈ (b.teeEventMarked e).1, Stable id x.1) ∧ b'.rewriteId = some id := by
  unfold teeEventMarked at h ⊢
  cases hp : b.passed e with
  | error x => rw [hp] at h; cases h
  | ok p =>
    obtain ⟨b₁,xs⟩ := p
    rw [hp] at h
    obtain ⟨e',synth,hr,hs,rfl⟩ := passed_eq_ok_iff.mp hp
    have he' := (maybeRewriteId_eq_withId hne hb hr).1
    have howes := owes_of_ok (wellFormed_rewritten (maybeRewriteId_ok hr) hw) hs
    dsimp only at h ⊢
    rw [forwardMarked_ok h]
    refine ⟨?_,?_,?_⟩
    · rw [List.filter_append, List.filter_eq_nil_iff.mpr (by simp), he']
      rfl
    · intro x hx
      rcases List.mem_append.mp hx with hx | hx
      · obtain ⟨s,hs,rfl⟩ := List.mem_map.mp hx
        exact stable_owed howes s hs
      · rw [List.mem_singleton.mp hx]
        exact stable_withId hne hw hb hr
    · rw [(forwardMarked_announced h).rewriteId, (synthesizeMissingAnnouncements_ok hs).1.rewriteId, hb]

theorem teeMarked_source (hne : id ≠ "") (hw : ∀ e ∈ events, WellFormed e) (hb : b.rewriteId = some id)
    (h : (b.teeMarked events).2 = .ok b') :
    ((b.teeMarked events).1.filter (fun x => !x.2)).map Prod.fst = events.map (withId id) ∧
      ∀ x ∈ (b.teeMarked events).1, Stable id x.1 := by
  induction events generalizing b with
  | nil => exact ⟨rfl,by simp [teeMarked]⟩
  | cons e events ih =>
    have hevent := @teeEventMarked_source b
    rw [teeMarked] at h ⊢
    cases hm : b.teeEventMarked e with
    | mk out r =>
      cases r with
      | error x => rw [hm] at h; cases h
      | ok b₁ =>
        obtain ⟨hout,hstable,hb₁⟩ := teeEventMarked_source hne (hw e (by simp)) hb (congrArg Prod.snd hm)
        rw [hm] at h hout hstable
        obtain ⟨hmore,hrest⟩ := ih (fun x hx => hw x (by simp [hx])) hb₁ h
        refine ⟨?_,?_⟩
        · simp only [List.filter_append, List.map_append, hout, hmore]
          rfl
        · intro x hx
          exact (List.mem_append.mp hx).elim (hstable x) (hrest x)

end StreamBridge

end First

theorem tee_transparent_idempotent {id : String} {events : List Event} {b : StreamBridge} (hne : id ≠ "")
    (hw : ∀ e ∈ events, WellFormed e) (h : ((StreamBridge.init (some id)).tee events).2 = .ok b) :
    ((StreamBridge.init (some id)).teeMarked events).1.map Prod.fst =
        ((StreamBridge.init (some id)).tee events).1 ∧
      (((StreamBridge.init (some id)).teeMarked events).1.filter (fun x => !x.2)).map Prod.fst =
        events.map (withId id) ∧
      ∃ b', (StreamBridge.init (some id)).tee ((StreamBridge.init (some id)).tee events).1 =
          (((StreamBridge.init (some id)).tee events).1, .ok b') ∧
        b'.finalState = b.finalState := by
  have herase := @StreamBridge.teeMarked_erase (.init (some id)) events
  have hok : ((StreamBridge.init (some id)).teeMarked events).2 = .ok b := by
    rw [← h]
    exact congrArg Prod.snd herase
  have hout := congrArg Prod.fst herase
  obtain ⟨hsource,hstable⟩ := StreamBridge.teeMarked_source hne hw rfl hok
  refine ⟨hout,hsource,?_⟩
  have hknows : Knows [] (.init (some id)) := ⟨fun id' h => by simp at h,fun id' n h => by simp at h⟩
  obtain ⟨hd,-⟩ := @StreamBridge.init_disciplined _ (some id) hw
  have hforward := congrArg Prod.snd (StreamBridge.forward_tee h)
  rw [← hout] at hforward ⊢
  obtain ⟨items,parts,htee⟩ := @tee_disciplined [] _ _ _ _ hd hknows rfl hstable hforward
  exact ⟨_,htee,rfl⟩

theorem tee_transparent_idempotent_late : ∃ b : StreamBridge,
    ((StreamBridge.init (some "resp_1")).teeMarked LateAnnouncement.events).1.map Prod.fst =
        ((StreamBridge.init (some "resp_1")).tee LateAnnouncement.events).1 ∧
      (((StreamBridge.init (some "resp_1")).teeMarked LateAnnouncement.events).1.filter
          (fun x => !x.2)).map Prod.fst = LateAnnouncement.events.map (withId "resp_1") ∧
      ∃ b', (StreamBridge.init (some "resp_1")).tee
            ((StreamBridge.init (some "resp_1")).tee LateAnnouncement.events).1 =
          (((StreamBridge.init (some "resp_1")).tee LateAnnouncement.events).1, .ok b') ∧
        b'.finalState = b.finalState := by
  have hforwarded : ∃ b, ((StreamBridge.init (some "resp_1")).tee LateAnnouncement.events).2 = .ok b := ⟨_,rfl⟩
  obtain ⟨b,hb⟩ := hforwarded
  exact ⟨b,tee_transparent_idempotent (by decide) LateAnnouncement.wellFormed hb⟩

end ResponsesGateway
