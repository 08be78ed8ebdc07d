import ResponsesGateway.Foundation.Split
import ResponsesGateway.Streaming.Buffer

namespace ResponsesGateway

def deltaText (k : Key) (n : ℤ) (e : Event) : String :=
  match e.get "item_id", e.get "content_index", e.getD "delta" (.str "") with
  | .str id, .int m, .str s => if etype e = .outputTextDelta ∧ Key.str id = k ∧ m = n then s else ""
  | _, _, _ => ""

def deltasOf (k : Key) (n : ℤ) (events : List Event) : String :=
  (events.map (deltaText k n)).foldl (fun t s => t ++ s) ""

def delivery (k : Key) (e : Event) : Option JsonDict :=
  if etype e = .outputItemDone then
    match (e.getD "item" (.dict [])).methods with
    | .ok item => if (item.get "id").truthy = true ∧ (item.get "id").key = .ok k then some item else none
    | .error _ => none
  else none

def lastDone (k : Key) (events : List Event) : Option JsonDict := events.reverse.findSome? (delivery k)

structure DeltasOfMessages (events : List Event) : Prop where
  shaped : ∀ e ∈ events, etype e = .outputTextDelta → ∃ id n s, e.get "item_id" = .str id ∧
    e.get "content_index" = .int n ∧ e.getD "delta" (.str "") = .str s
  typed : ∀ e ∈ events, etype e = .outputTextDelta → ∀ id, e.get "item_id" = .str id →
    ∀ e' ∈ events, etype e' = .outputItemAdded ∨ etype e' = .outputItemDone →
      ∀ item, Carries e' item (.str id) → item.get "type" = .str "message"

def Buffer.text (c : Buffer) (k : Key) (n : ℤ) : Json :=
  match c.itemsById.get? k with
  | some item => partText item n
  | none => .str ""

def ListedAs (final : JsonDict) (k : Key) (d : JsonDict) : Prop :=
  ∃ items : List JsonDict, final.get? "output" = some (.list (items.map Json.obj)) ∧
    (∃ item ∈ items, (item.get "id").key = .ok k) ∧
    ∀ item ∈ items, (item.get "id").key = .ok k → item.get? "content" = d.get? "content"

/-- After each event, the text held for a part of an item that is not done is that of its own deltas,
and an item that is done is listed with the content it was done with. -/
def Attributed (rewriteId : Option String) (events : List Event) : Prop :=
  ∀ pre post, events = pre ++ post → ∀ b, ((StreamBridge.init rewriteId).tee pre).2 = .ok b → ∀ k,
    (lastDone k pre = none → ∀ n, b.buffer.text k n = .str (deltasOf k n pre)) ∧
    ∀ d, lastDone k pre = some d → ListedAs b.finalState k d

structure Places (pre : List Event) (c : Buffer) (e : Event) : Prop where
  added : etype e = .outputItemAdded → ∀ item k, Carries e item k →
    (lastDone k pre = none → ∀ n, partText item n = .str (deltasOf k n pre)) ∧
    ∀ d, lastDone k pre = some d → item.get? "content" = d.get? "content"
  done : etype e = .outputItemDone → ∀ item k, Carries e item k → k ∈ c.itemOrder
  delta : etype e = .outputTextDelta → ∀ id n s, e.get "item_id" = .str id →
    e.get "content_index" = .int n → e.getD "delta" (.str "") = .str s → s ≠ "" →
      lastDone (.str id) pre = none ∧
        ∃ item, (c.noted e).latest "message" = some (.str id, item) ∧ openIndex item = n
  blank : etype e = .outputTextDelta → e.getD "delta" (.str "") = .str "" →
    ∀ k item d, (c.noted e).latest "message" = some (k, item) → lastDone k pre = some d → EndsInText item

def InPlace (rewriteId : Option String) (events : List Event) : Prop :=
  ∀ pre e post, events = pre ++ e :: post → ∀ b b', ((StreamBridge.init rewriteId).tee pre).2 = .ok b →
    (b.teeEvent e).2 = .ok b' → Places pre b.buffer e

section Deltas

variable {k : Key} {n : ℤ} {e : Event} {pre : List Event} {item : JsonDict}

theorem deltasOf_concat : deltasOf k n (pre ++ [e]) = deltasOf k n pre ++ deltaText k n e := by
  simp [deltasOf]

theorem lastDone_concat : lastDone k (pre ++ [e]) = (delivery k e).or (lastDone k pre) := by
  simp only [lastDone, List.reverse_append, List.reverse_singleton, List.singleton_append,
    List.findSome?_cons]
  cases delivery k e <;> rfl

theorem delivery_eq_some_iff : delivery k e = some item ↔ etype e = .outputItemDone ∧ Carries e item k := by
  unfold delivery Carries
  split
  · rename_i ht
    split
    · rename_i found hfound
      rw [hfound]
      constructor
      · intro h
        split at h
        · rename_i hid
          cases h
          exact ⟨ht,rfl,hid⟩
        · cases h
      · rintro ⟨-,h,hid⟩
        cases h
        exact if_pos hid
    · rename_i hfound
      rw [hfound]
      simp
  · rename_i ht
    simp [ht]

theorem delivery_eq_none (h : etype e = .outputItemDone → ∀ item, ¬ Carries e item k) : delivery k e = none := by
  rw [Option.eq_none_iff_forall_ne_some]
  intro item hitem
  obtain ⟨ht,hc⟩ := delivery_eq_some_iff.mp hitem
  exact h ht item hc

theorem deltaText_of_ne (h : etype e ≠ .outputTextDelta) : deltaText k n e = "" := by
  unfold deltaText
  split
  · exact if_neg fun hand => h hand.1
  · rfl

theorem deltaText_delta {id : String} {m : ℤ} {s : String} (ht : etype e = .outputTextDelta)
    (hid : e.get "item_id" = .str id) (hn : e.get "content_index" = .int m)
    (hs : e.getD "delta" (.str "") = .str s) :
    deltaText k n e = if Key.str id = k ∧ m = n then s else "" := by
  simp only [deltaText, hid, hn, hs, ht, true_and]

end Deltas

structure Accounts (pre : List Event) (c : Buffer) : Prop where
  growing : ∀ k, lastDone k pre = none → ∀ n, c.text k n = .str (deltasOf k n pre)
  done : ∀ k d, lastDone k pre = some d →
    k ∈ c.itemOrder ∧ ∃ item, c.itemsById.get? k = some item ∧ item.get? "content" = d.get? "content"

def Typed (pre : List Event) (k : Key) (t : Json) : Prop :=
  t = .str "message" ∨ ∃ e ∈ pre, (etype e = .outputItemAdded ∨ etype e = .outputItemDone) ∧
    ∃ item, Carries e item k ∧ item.get "type" = t

structure Known (pre : List Event) (c : Buffer) : Prop where
  order : ∀ k ∈ c.itemOrder, k ∈ c.announced
  held : ∀ k item, c.itemsById.get? k = some item → k ∈ c.announced ∨ lastDone k pre ≠ none
  type : ∀ k item, c.itemsById.get? k = some item → Typed pre k (item.get "type")

section Buffer

variable {pre : List Event} {c c' : Buffer} {e : Event} {k j : Key} {item item' : JsonDict}

theorem text_of_held {n : ℤ} (h : c.itemsById.get? k = some item) : c.text k n = partText item n := by
  simp only [Buffer.text, h]

theorem text_of_not_held {n : ℤ} (h : c.itemsById.get? k = none) : c.text k n = .str "" := by
  simp only [Buffer.text, h]

theorem get?_put : (c.put k item).itemsById.get? j = if j = k then some item else c.itemsById.get? j :=
  Dict.get?_set ..

theorem get?_add : (c.add k item).itemsById.get? j = if j = k then some item else c.itemsById.get? j :=
  Dict.get?_set ..

theorem text_put_of_ne {n : ℤ} (h : j ≠ k) : (c.put k item).text j n = c.text j n := by
  simp only [Buffer.text, get?_put, if_neg h]

theorem noted_cases : c.noted e = c ∨ (∃ id, e.get "item_id" = .str id ∧ Key.str id ∉ c.announced ∧
    (c.noted e = { c with announced := .str id :: c.announced } ∨
      c.noted e = c.add (.str id) (syntheticItem id))) := by
  unfold Buffer.noted
  split
  · rename_i id hid
    unfold Buffer.introduce
    split
    · exact .inl rfl
    · rename_i hk
      refine .inr ⟨id,hid,hk,?_⟩
      split
      · exact .inl rfl
      · exact .inr rfl
  · exact .inl rfl

theorem partText_syntheticItem (id : String) (n : ℤ) : partText (syntheticItem id) n = .str "" := by
  have hcontent : (syntheticItem id).getD "content" (.list []) = .list [] := rfl
  simp [partText, hcontent]

theorem Known.get?_none (h : Known pre c) (hk : k ∉ c.announced) (hdone : lastDone k pre = none) :
    c.itemsById.get? k = none := by
  rw [Option.eq_none_iff_forall_ne_some]
  intro item hitem
  exact (h.held k item hitem).elim hk fun hne => hne hdone

theorem Accounts.noted (h : Accounts pre c) (hknown : Known pre c) : Accounts pre (c.noted e) := by
  rcases noted_cases (c := c) (e := e) with hsame | ⟨id,-,hk,hsame | hsame⟩
  · rw [hsame]; exact h
  · rw [hsame]; exact ⟨h.growing,h.done⟩
  · rw [hsame]
    refine ⟨fun j hj n => ?_,fun j d hj => ?_⟩
    · rw [← h.growing j hj n]
      by_cases heq : j = .str id
      · subst heq
        rw [text_of_not_held (hknown.get?_none hk hj),
          text_of_held (get?_add.trans (if_pos rfl)), partText_syntheticItem]
      · simp only [Buffer.text, get?_add, if_neg heq]
    · obtain ⟨horder,item,hitem,hcontent⟩ := h.done j d hj
      have hne : j ≠ .str id := fun heq => hk (heq ▸ hknown.order j horder)
      exact ⟨List.mem_append_left _ horder,item,get?_add.trans ((if_neg hne).trans hitem),hcontent⟩

theorem accounts_concat_iff (hdone : ∀ k, delivery k e = none) (htext : ∀ k n, deltaText k n e = "") :
    Accounts (pre ++ [e]) c ↔ Accounts pre c := by
  have hd (k : Key) : lastDone k (pre ++ [e]) = lastDone k pre := by rw [lastDone_concat, hdone k]; rfl
  have ht (k : Key) (n : ℤ) : deltasOf k n (pre ++ [e]) = deltasOf k n pre := by
    rw [deltasOf_concat, htext k n, String.append_empty]
  constructor
  · rintro ⟨hg,hl⟩
    exact ⟨by simpa only [hd, ht] using hg,by simpa only [hd] using hl⟩
  · rintro ⟨hg,hl⟩
    exact ⟨by simpa only [hd, ht] using hg,by simpa only [hd] using hl⟩

theorem Accounts.put (h : Accounts pre c) (hk : c.itemsById.get? k = some item)
    (hcontent : item'.get? "content" = item.get? "content") : Accounts pre (c.put k item') where
  growing j hj n := by
    rw [← h.growing j hj n]
    by_cases heq : j = k
    · subst heq
      rw [text_of_held (get?_put.trans (if_pos rfl)), text_of_held hk, partText_congr hcontent]
    · exact text_put_of_ne heq
  done j d hj := by
    obtain ⟨horder,held,hheld,hc⟩ := h.done j d hj
    refine ⟨horder,?_⟩
    rw [get?_put]
    by_cases heq : j = k
    · subst heq
      obtain rfl := Option.some.inj (hk.symm.trans hheld)
      exact ⟨item',if_pos rfl,hcontent.trans hc⟩
    · exact ⟨held,(if_neg heq).trans hheld,hc⟩

theorem accounts_added_iff (ht : etype e = .outputItemAdded) (h : Accounts pre c) :
    Accounts (pre ++ [e]) (c.add k item) ↔
      (lastDone k pre = none → ∀ n, partText item n = .str (deltasOf k n pre)) ∧
      ∀ d, lastDone k pre = some d → item.get? "content" = d.get? "content" := by
  have hnot : etype e ≠ .outputItemDone := by rw [ht]; decide
  have hkept : (c.add k item).itemsById.get? k = some item := get?_add.trans (if_pos rfl)
  rw [accounts_concat_iff (fun k => delivery_eq_none fun hd => absurd hd hnot)
    (fun k n => deltaText_of_ne (by rw [ht]; decide))]
  constructor
  · rintro ⟨hg,hl⟩
    refine ⟨fun hk n => ?_,fun d hk => ?_⟩
    · rw [← hg k hk n, text_of_held hkept]
    · obtain ⟨-,held,hheld,hc⟩ := hl k d hk
      obtain rfl := Option.some.inj (hkept.symm.trans hheld)
      exact hc
  · rintro ⟨hg,hl⟩
    refine ⟨fun j hj n => ?_,fun j d hj => ?_⟩
    · by_cases heq : j = k
      · subst heq
        rw [text_of_held hkept, hg hj n]
      · simp only [Buffer.text, get?_add, if_neg heq]
        exact h.growing j hj n
    · by_cases heq : j = k
      · subst heq
        exact ⟨by simp [Buffer.add],item,hkept,hl d hj⟩
      · obtain ⟨horder,held,hheld,hc⟩ := h.done j d hj
        exact ⟨List.mem_append_left _ horder,held,get?_add.trans ((if_neg heq).trans hheld),hc⟩

theorem accounts_done_iff (ht : etype e = .outputItemDone) (hc : Carries e item k) (h : Accounts pre c) :
    Accounts (pre ++ [e]) (c.put k item) ↔ k ∈ c.itemOrder := by
  have hkept : (c.put k item).itemsById.get? k = some item := get?_put.trans (if_pos rfl)
  have hdelivered : lastDone k (pre ++ [e]) = some item := by
    rw [lastDone_concat, delivery_eq_some_iff.mpr ⟨ht,hc⟩]
    rfl
  have hother (j : Key) (hne : j ≠ k) : lastDone j (pre ++ [e]) = lastDone j pre := by
    rw [lastDone_concat, delivery_eq_none fun _ found hfound => hne (hfound.unique hc).2]
    rfl
  have htext (j : Key) (n : ℤ) : deltasOf j n (pre ++ [e]) = deltasOf j n pre := by
    rw [deltasOf_concat, deltaText_of_ne (by rw [ht]; decide), String.append_empty]
  constructor
  · intro hacc
    exact (hacc.done k item hdelivered).1
  · intro horder
    refine ⟨fun j hj n => ?_,fun j d hj => ?_⟩
    · have hne : j ≠ k := by
        rintro rfl
        rw [hdelivered] at hj
        cases hj
      rw [hother j hne] at hj
      rw [htext, text_put_of_ne hne, h.growing j hj n]
    · by_cases heq : j = k
      · subst heq
        obtain rfl := Option.some.inj (hdelivered.symm.trans hj)
        exact ⟨horder,item,hkept,rfl⟩
      · rw [hother j heq] at hj
        obtain ⟨horder,held,hheld,hc⟩ := h.done j d hj
        exact ⟨horder,held,get?_put.trans ((if_neg heq).trans hheld),hc⟩

section Delta

variable {id s : String} {m : ℤ}

theorem accounts_delta_iff (ht : etype e = .outputTextDelta) (hid : e.get "item_id" = .str id)
    (hm : e.get "content_index" = .int m) (hs : e.getD "delta" (.str "") = .str s) :
    Accounts (pre ++ [e]) c ↔
      (∀ k, lastDone k pre = none → ∀ n,
        c.text k n = .str (deltasOf k n pre ++ if Key.str id = k ∧ m = n then s else "")) ∧
      ∀ k d, lastDone k pre = some d →
        k ∈ c.itemOrder ∧ ∃ item, c.itemsById.get? k = some item ∧ item.get? "content" = d.get? "content" := by
  have hd (k : Key) : lastDone k (pre ++ [e]) = lastDone k pre := by
    rw [lastDone_concat, delivery_eq_none (by rw [ht]; intro h; cases h)]
    rfl
  have htext (k : Key) (n : ℤ) :
      deltasOf k n (pre ++ [e]) = deltasOf k n pre ++ if Key.str id = k ∧ m = n then s else "" := by
    rw [deltasOf_concat, deltaText_delta ht hid hm hs]
  constructor
  · rintro ⟨hg,hl⟩
    exact ⟨by simpa only [hd, htext] using hg,by simpa only [hd] using hl⟩
  · rintro ⟨hg,hl⟩
    exact ⟨by simpa only [hd, htext] using hg,by simpa only [hd] using hl⟩

theorem append_ne_self {t : String} (h : s ≠ "") : t ++ s ≠ t := by
  intro heq
  exact h (by simpa using heq)

theorem accounts_extended_growing (ht : etype e = .outputTextDelta) (hid : e.get "item_id" = .str id)
    (hm : e.get "content_index" = .int m) (hs : e.getD "delta" (.str "") = .str s) (h : Accounts pre c)
    (hk : c.itemsById.get? k = some item) (ha : appendText item (.str s) = .ok item')
    (hgrowing : lastDone k pre = none) :
    Accounts (pre ++ [e]) (c.put k item') ↔ s = "" ∨ k = .str id ∧ openIndex item = m := by
  have htext (n : ℤ) : partText item n = .str (deltasOf k n pre) :=
    (text_of_held hk).symm.trans (h.growing k hgrowing n)
  have hgrown (n : ℤ) : (c.put k item').text k n =
      .str (if n = openIndex item then deltasOf k n pre ++ s else deltasOf k n pre) := by
    obtain ⟨t,ht,ht'⟩ := partText_appendText ha (fun n => ⟨_,htext n⟩) n
    obtain rfl : deltasOf k n pre = t := Json.str.inj ((htext n).symm.trans ht)
    rw [text_of_held (get?_put.trans (if_pos rfl)), ht']
  rw [accounts_delta_iff ht hid hm hs]
  constructor
  · rintro ⟨hg,-⟩
    by_cases hempty : s = ""
    · exact .inl hempty
    · have hat := hg k hgrowing (openIndex item)
      rw [hgrown, if_pos rfl, Json.str.injEq] at hat
      by_cases hplace : Key.str id = k ∧ m = openIndex item
      · exact .inr ⟨hplace.1.symm,hplace.2.symm⟩
      · rw [if_neg hplace, String.append_empty] at hat
        exact absurd hat (append_ne_self hempty)
  · intro hplace
    refine ⟨fun j hj n => ?_,fun j d hj => ?_⟩
    · by_cases heq : j = k
      · subst heq
        rw [hgrown, Json.str.injEq]
        rcases hplace with rfl | ⟨rfl,rfl⟩
        · simp
        · by_cases hn : n = openIndex item
          · simp [hn]
          · simp [hn, Ne.symm hn]
      · rw [text_put_of_ne heq, h.growing j hj n, Json.str.injEq]
        rcases hplace with rfl | ⟨rfl,rfl⟩
        · simp
        · simp [Ne.symm heq]
    · have hne : j ≠ k := by
        rintro rfl
        rw [hgrowing] at hj
        cases hj
      obtain ⟨horder,held,hheld,hc⟩ := h.done j d hj
      exact ⟨horder,held,get?_put.trans ((if_neg hne).trans hheld),hc⟩

theorem accounts_extended_done {d : JsonDict} (ht : etype e = .outputTextDelta)
    (hid : e.get "item_id" = .str id) (hm : e.get "content_index" = .int m)
    (hs : e.getD "delta" (.str "") = .str s) (h : Accounts pre c) (hk : c.itemsById.get? k = some item)
    (ha : appendText item (.str s) = .ok item') (hdone : lastDone k pre = some d) :
    Accounts (pre ++ [e]) (c.put k item') ↔ s = "" ∧ EndsInText item := by
  obtain ⟨horder,held,hheld,hcontent⟩ := h.done k d hdone
  obtain rfl := Option.some.inj (hk.symm.trans hheld)
  rw [← appendText_content_iff ha, accounts_delta_iff ht hid hm hs]
  constructor
  · rintro ⟨-,hl⟩
    obtain ⟨-,found,hfound,hc⟩ := hl k d hdone
    obtain rfl := Option.some.inj ((get?_put.trans (if_pos rfl)).symm.trans hfound)
    exact hc.trans hcontent.symm
  · intro hsame
    obtain ⟨rfl,-⟩ := (appendText_content_iff ha).mp hsame
    have hput := h.put hk hsame
    refine ⟨fun j hj n => ?_,hput.done⟩
    rw [hput.growing j hj n]
    simp

end Delta

theorem Places.of_other (h : etype e ≠ .outputItemAdded) (h' : etype e ≠ .outputItemDone)
    (h'' : etype e ≠ .outputTextDelta) : Places pre c e where
  added ht := absurd ht h
  done ht := absurd ht h'
  delta ht := absurd ht h''
  blank ht := absurd ht h''

theorem places_added_iff (ht : etype e = .outputItemAdded) (hc : Carries e item k) :
    Places pre c e ↔ (lastDone k pre = none → ∀ n, partText item n = .str (deltasOf k n pre)) ∧
      ∀ d, lastDone k pre = some d → item.get? "content" = d.get? "content" := by
  constructor
  · intro hp
    exact hp.added ht item k hc
  · intro hp
    refine ⟨?_,?_,?_,?_⟩
    · intro _ item' k' hc'
      obtain ⟨rfl,rfl⟩ := hc.unique hc'
      exact hp
    all_goals rw [ht]; intro hk; cases hk

theorem places_done_iff (ht : etype e = .outputItemDone) (hc : Carries e item k) :
    Places pre c e ↔ k ∈ c.itemOrder := by
  constructor
  · intro hp
    exact hp.done ht item k hc
  · intro hp
    refine ⟨?_,?_,?_,?_⟩
    · rw [ht]; intro hk; cases hk
    · intro _ item' k' hc'
      obtain ⟨-,rfl⟩ := hc.unique hc'
      exact hp
    all_goals rw [ht]; intro hk; cases hk

theorem places_delta_iff {id s : String} {m : ℤ} (ht : etype e = .outputTextDelta)
    (hid : e.get "item_id" = .str id) (hm : e.get "content_index" = .int m)
    (hs : e.getD "delta" (.str "") = .str s) :
    Places pre c e ↔
      (s ≠ "" → lastDone (.str id) pre = none ∧
        ∃ item, (c.noted e).latest "message" = some (.str id, item) ∧ openIndex item = m) ∧
      (s = "" → ∀ k item d, (c.noted e).latest "message" = some (k, item) → lastDone k pre = some d →
        EndsInText item) := by
  constructor
  · intro hp
    exact ⟨hp.delta ht id m s hid hm hs,fun hempty => hp.blank ht (hempty ▸ hs)⟩
  · rintro ⟨hfull,hempty⟩
    refine ⟨?_,?_,?_,?_⟩
    · rw [ht]; intro hk; cases hk
    · rw [ht]; intro hk; cases hk
    · intro _ id' m' s' hid' hm' hs' hne
      obtain rfl := Json.str.inj (hid.symm.trans hid')
      obtain rfl := Json.int.inj (hm.symm.trans hm')
      obtain rfl := Json.str.inj (hs.symm.trans hs')
      exact hfull hne
    · intro _ hs'
      exact hempty (Json.str.inj (hs.symm.trans hs'))

theorem accounts_dropped_iff {id s : String} {m : ℤ} (ht : etype e = .outputTextDelta)
    (hid : e.get "item_id" = .str id) (hm : e.get "content_index" = .int m)
    (hs : e.getD "delta" (.str "") = .str s) (hnoted : Accounts pre (c.noted e))
    (hl : (c.noted e).latest "message" = none) (hgrowing : lastDone (.str id) pre = none) :
    Accounts (pre ++ [e]) (c.noted e) ↔ Places pre c e := by
  rw [accounts_delta_iff ht hid hm hs, places_delta_iff ht hid hm hs]
  constructor
  · rintro ⟨hg,-⟩
    have hsame := hg (.str id) hgrowing m
    rw [hnoted.growing _ hgrowing, if_pos ⟨rfl,rfl⟩, Json.str.injEq] at hsame
    refine ⟨fun hne => absurd hsame.symm (append_ne_self hne),fun _ k item d hk => ?_⟩
    rw [hl] at hk
    cases hk
  · rintro ⟨hfull,-⟩
    have hempty : s = "" := by
      by_contra hne
      obtain ⟨-,item,hitem,-⟩ := hfull hne
      rw [hl] at hitem
      cases hitem
    refine ⟨fun k hk n => ?_,hnoted.done⟩
    rw [hnoted.growing k hk n, hempty]
    simp

theorem accounts_extended_iff {id s : String} {m : ℤ} (ht : etype e = .outputTextDelta)
    (hid : e.get "item_id" = .str id) (hm : e.get "content_index" = .int m)
    (hs : e.getD "delta" (.str "") = .str s) (hnoted : Accounts pre (c.noted e))
    (hl : (c.noted e).latest "message" = some (k, item)) (ha : appendText item (.str s) = .ok item') :
    Accounts (pre ++ [e]) ((c.noted e).put k item') ↔ Places pre c e := by
  obtain ⟨-,hget,-⟩ := Buffer.latest_inv hl
  rw [places_delta_iff ht hid hm hs, hl]
  -- The text goes to the latest message, whatever item the delta names.
  cases hd : lastDone k pre with
  | none =>
    rw [accounts_extended_growing ht hid hm hs hnoted hget ha hd]
    constructor
    · intro hplace
      refine ⟨fun hne => ?_,fun _ k' item' d hk hdone => ?_⟩
      · obtain ⟨rfl,hindex⟩ := hplace.resolve_left hne
        exact ⟨hd,item,rfl,hindex⟩
      · cases hk
        rw [hd] at hdone
        cases hdone
    · rintro ⟨hfull,-⟩
      by_cases hempty : s = ""
      · exact .inl hempty
      · obtain ⟨-,found,hfound,hindex⟩ := hfull hempty
        cases hfound
        exact .inr ⟨rfl,hindex⟩
  | some d =>
    rw [accounts_extended_done ht hid hm hs hnoted hget ha hd]
    constructor
    · rintro ⟨rfl,hends⟩
      refine ⟨fun hne => absurd rfl hne,fun _ k' found d' hk _ => ?_⟩
      cases hk
      exact hends
    · rintro ⟨hfull,hblank⟩
      have hempty : s = "" := by
        by_contra hne
        obtain ⟨hnone,found,hfound,-⟩ := hfull hne
        cases hfound
        rw [hd] at hnone
        cases hnone
      exact ⟨hempty,hblank hempty k item d rfl hd⟩

theorem accounts_step_iff (h : Accounts pre c) (hknown : Known pre c) (hb : Buffers c e c')
    (hshape : etype e = .outputTextDelta → ∃ id n s, e.get "item_id" = .str id ∧
      e.get "content_index" = .int n ∧ e.getD "delta" (.str "") = .str s)
    (hheld : etype e = .outputTextDelta → (c.noted e).latest "message" = none →
      ∀ id, e.get "item_id" = .str id → lastDone (.str id) pre = none) :
    Accounts (pre ++ [e]) c' ↔ Places pre c e := by
  have hnoted := h.noted (e := e) hknown
  cases hb with
  | added ht hc => rw [accounts_added_iff ht h, places_added_iff ht hc]
  | done ht hc => rw [accounts_done_iff ht hc h, places_done_iff ht hc]
  | mentioned hm ht =>
    have hadded : etype e ≠ .outputItemAdded := by rintro h; rw [h] at hm; cases hm
    have hdone : etype e ≠ .outputItemDone := by rintro h; rw [h] at hm; cases hm
    rw [accounts_concat_iff (fun k => delivery_eq_none fun hd => absurd hd hdone)
      (fun k n => deltaText_of_ne ht)]
    exact iff_of_true hnoted (.of_other hadded hdone ht)
  | argued ht hi =>
    rw [accounts_concat_iff (fun k => delivery_eq_none (by rw [ht]; intro h; cases h))
      (fun k n => deltaText_of_ne (by rw [ht]; decide))]
    refine iff_of_true (h.put hi (by simp)) (.of_other ?_ ?_ ?_) <;> rw [ht] <;> decide
  | quiet hm hno =>
    have ht : etype e ≠ .outputTextDelta := by rintro h; rw [h] at hm; cases hm
    rw [accounts_concat_iff (fun k => delivery_eq_none fun hd item => hno (.inr hd) item k)
      (fun k n => deltaText_of_ne ht)]
    refine iff_of_true h ⟨?_,?_,fun hd => absurd hd ht,fun hd => absurd hd ht⟩
    · intro hadded item k hc
      exact absurd hc (hno (.inl hadded) item k)
    · intro hdone item k hc
      exact absurd hc (hno (.inr hdone) item k)
  | dropped ht hl =>
    obtain ⟨id,m,s,hid,hm,hs⟩ := hshape ht
    exact accounts_dropped_iff ht hid hm hs hnoted hl (hheld ht hl id hid)
  | extended ht hl ha =>
    obtain ⟨id,m,s,hid,hm,hs⟩ := hshape ht
    exact accounts_extended_iff ht hid hm hs hnoted hl (hs ▸ ha)

namespace Known

theorem init : Known [] ⟨.empty, [], []⟩ where
  order := by simp
  held := by simp
  type := by simp

theorem concat (h : Known pre c) : Known (pre ++ [e]) c where
  order := h.order
  held k item hk := by
    refine (h.held k item hk).imp_right fun hne => ?_
    rw [lastDone_concat]
    cases hd : lastDone k pre with
    | none => exact absurd hd hne
    | some d => simp
  type k item hk := by
    refine (h.type k item hk).imp_right ?_
    rintro ⟨x,hx,hcarried⟩
    exact ⟨x,List.mem_append_left _ hx,hcarried⟩

theorem put (h : Known pre c) (hk : k ∈ c.announced ∨ lastDone k pre ≠ none)
    (ht : Typed pre k (item.get "type")) :
    Known pre (c.put k item) where
  order := h.order
  held j found hfound := by
    rw [get?_put] at hfound
    split at hfound
    · rename_i heq
      exact heq ▸ hk
    · exact h.held j found hfound
  type j found hfound := by
    rw [get?_put] at hfound
    split at hfound
    · rename_i heq
      cases hfound
      exact heq ▸ ht
    · exact h.type j found hfound

theorem replace (h : Known pre c) (hk : c.itemsById.get? k = some item)
    (ht : item'.get "type" = item.get "type") : Known pre (c.put k item') :=
  h.put (h.held k item hk) (ht ▸ h.type k item hk)

theorem note (h : Known pre c) (k : Key) : Known pre { c with announced := k :: c.announced } where
  order j hj := List.mem_cons_of_mem _ (h.order j hj)
  held j found hfound := (h.held j found hfound).imp_left (List.mem_cons_of_mem _)
  type := h.type

theorem add (h : Known pre c) (ht : Typed pre k (item.get "type")) :
    Known pre (c.add k item) where
  order j hj := by
    rcases List.mem_append.mp hj with hj | hj
    · exact List.mem_cons_of_mem _ (h.order j hj)
    · exact List.mem_cons.mpr (.inl (List.mem_singleton.mp hj))
  held := ((h.note k).put (.inl List.mem_cons_self) ht).held
  type := ((h.note k).put (.inl List.mem_cons_self) ht).type

theorem noted (h : Known pre c) : Known pre (c.noted e) := by
  rcases noted_cases (c := c) (e := e) with hsame | ⟨id,-,-,hsame | hsame⟩
  · rw [hsame]; exact h
  · rw [hsame]; exact h.note (.str id)
  · rw [hsame]; exact h.add (.inl rfl)

theorem step (h : Known pre c) (hb : Buffers c e c') : Known (pre ++ [e]) c' := by
  have hlast : e ∈ pre ++ [e] := by simp
  cases hb with
  | @added item k ht hc => exact h.concat.add (.inr ⟨e,hlast,.inl ht,item,hc,rfl⟩)
  | @done item k ht hc =>
    refine h.concat.put (.inr ?_) (.inr ⟨e,hlast,.inr ht,item,hc,rfl⟩)
    rw [lastDone_concat, delivery_eq_some_iff.mpr ⟨ht,hc⟩]
    simp
  | mentioned => exact h.noted.concat
  | extended _ hl ha =>
    refine (h.noted.replace (Buffer.latest_inv hl).2.1 ?_).concat
    simp only [Dict.get, Dict.getD, appendText_get? ha (show "type" ≠ "content" by decide)]
  | dropped => exact h.noted.concat
  | argued _ hi => exact (h.replace hi (by simp [Dict.get, Dict.getD])).concat
  | quiet => exact h.concat

end Known

end Buffer

namespace StreamBridge

variable {b b' : StreamBridge} {events pre : List Event} {e : Event} {rewriteId : Option String}
  {k : Key} {d : JsonDict}

theorem listedAs_iff (hf : b.buffer.Filed) :
    ListedAs b.finalState k d ↔
      k ∈ b.itemOrder ∧ ∃ item, b.itemsById.get? k = some item ∧ item.get? "content" = d.get? "content" := by
  constructor
  · rintro ⟨items,hout,⟨item,hitem,hid⟩,hall⟩
    simp only [finalState, Dict.get?_set, if_true, Option.some.injEq, Json.list.injEq] at hout
    obtain rfl := List.map_injective_iff.mpr Json.obj_injective hout
    obtain ⟨j,hj,hheld⟩ := mem_items.mp hitem
    obtain rfl := Except.ok.inj ((hf j item hheld).symm.trans hid)
    exact ⟨hj,item,hheld,hall item hitem hid⟩
  · rintro ⟨hk,item,hheld,hcontent⟩
    refine ⟨b.items,by simp [finalState],⟨item,mem_items.mpr ⟨k,hk,hheld⟩,hf k item hheld⟩,?_⟩
    intro found hfound hid
    obtain ⟨j,hj,hget⟩ := mem_items.mp hfound
    obtain rfl := Except.ok.inj ((hf j found hget).symm.trans hid)
    obtain rfl := Option.some.inj (hheld.symm.trans hget)
    exact hcontent

theorem attributed_iff_accounts : Attributed rewriteId events ↔
    ∀ pre, pre <+: events → ∀ b, ((init rewriteId).tee pre).2 = .ok b → Accounts pre b.buffer := by
  constructor
  · rintro hall pre ⟨post,rfl⟩ b hb
    have hat := hall pre post rfl b hb
    exact ⟨fun k => (hat k).1,fun k d hk => (listedAs_iff (tee_filed hb)).mp ((hat k).2 d hk)⟩
  · rintro hall pre post rfl b hb k
    have hacc := hall pre (List.prefix_append pre post) b hb
    exact ⟨hacc.growing k,fun d hk => (listedAs_iff (tee_filed hb)).mpr (hacc.done k d hk)⟩

theorem tee_known (h : ((init rewriteId).tee events).2 = .ok b) : Known events b.buffer :=
  tee_invariant (b := init rewriteId) (P := Known) Known.init (fun _ _ _ _ _ hk hb => hk.step hb) h

theorem not_done_of_dropped (hm : DeltasOfMessages events) (hpre : pre ++ [e] <+: events)
    (hknown : Known pre b.buffer) (hacc : Accounts pre b.buffer) (ht : etype e = .outputTextDelta)
    (hl : (b.buffer.noted e).latest "message" = none) {id : String} (hid : e.get "item_id" = .str id) :
    lastDone (.str id) pre = none := by
  rw [Option.eq_none_iff_forall_ne_some]
  intro d hd
  obtain ⟨horder,item,hitem,-⟩ := (hacc.noted (e := e) hknown).done _ d hd
  have hne := Buffer.latest_eq_none hl horder hitem
  rcases hknown.noted.type _ item hitem with hmessage | ⟨x,hx,hkind,found,hfound,hsame⟩
  · exact hne hmessage
  · have hin := hm.typed e (hpre.subset (by simp)) ht id hid x
      (hpre.subset (List.mem_append_left _ hx)) hkind found hfound
    exact hne (hsame.symm.trans hin)

theorem accounts_tee_iff (hm : DeltasOfMessages events) (hpre : pre ++ [e] <+: events)
    (hb : ((init rewriteId).tee pre).2 = .ok b) (he : (b.teeEvent e).2 = .ok b')
    (hacc : Accounts pre b.buffer) : Accounts (pre ++ [e]) b'.buffer ↔ Places pre b.buffer e := by
  have hknown := tee_known hb
  exact accounts_step_iff hacc hknown (teeEvent_buffers he) (hm.shaped e (hpre.subset (by simp)))
    fun ht hl id hid => not_done_of_dropped hm hpre hknown hacc ht hl hid

end StreamBridge

theorem text_deltas_attributed_iff {rewriteId : Option String} {events : List Event}
    (hm : DeltasOfMessages events) : Attributed rewriteId events ↔ InPlace rewriteId events := by
  rw [StreamBridge.attributed_iff_accounts]
  constructor
  · rintro hall pre e post rfl b b' hb he
    have hpre : pre ++ [e] <+: pre ++ e :: post := ⟨post,by simp⟩
    have hacc := hall pre (List.prefix_append _ _) b hb
    exact (StreamBridge.accounts_tee_iff hm hpre hb he hacc).mp
      (hall (pre ++ [e]) hpre b' (StreamBridge.tee_concat_ok_iff.mpr ⟨b,hb,he⟩))
  · intro hplaces pre hpre b hb
    refine StreamBridge.tee_induction (b := .init rewriteId)
      (P := fun pre b => Accounts pre b.buffer) ?_ ?_ hb
    · exact ⟨fun k _ n => rfl,fun k d hd => by cases hd⟩
    · intro pre' e b₁ b₂ hpre' hb₁ he hacc
      obtain ⟨post,hpost⟩ := hpre'.trans hpre
      have hsplit : events = pre' ++ e :: post := by simpa using hpost.symm
      exact (StreamBridge.accounts_tee_iff hm (hpre'.trans hpre) hb₁ he hacc).mpr
        (hplaces pre' e post hsplit b₁ b₂ hb₁ he)

namespace Interleaved

def item (id : String) : JsonDict :=
  .ofEntries [("id", .str id), ("type", .str "message"), ("content", .list [])]

def added (id : String) : Event :=
  .ofEntries [("type", .str "response.output_item.added"), ("item", .obj (item id))]

def delta : Event :=
  .ofEntries [("type", .str "response.output_text.delta"), ("item_id", .str "m1"),
    ("content_index", .int 0), ("delta", .str "hi")]

def events : List Event := [added "m1", added "m2", delta]

theorem deltasOfMessages : DeltasOfMessages events where
  shaped e he ht := by
    simp only [events, List.mem_cons, List.not_mem_nil, or_false] at he
    rcases he with rfl | rfl | rfl
    · exact absurd ht (by decide)
    · exact absurd ht (by decide)
    · exact ⟨"m1",0,"hi",by decide,by decide,by decide⟩
  typed _ _ _ id _ e he hkind found hfound := by
    simp only [events, List.mem_cons, List.not_mem_nil, or_false] at he
    rcases he with rfl | rfl | rfl
    · obtain rfl : item "m1" = found := Except.ok.inj hfound.1
      decide
    · obtain rfl : item "m2" = found := Except.ok.inj hfound.1
      decide
    · exact absurd hkind (by decide)

theorem announcedOnce : events.Pairwise (fun e e' => etype e = .outputItemAdded →
    etype e' = .outputItemAdded → ∀ item item' k, Carries e item k → ¬ Carries e' item' k) := by
  have hdistinct (item item' : JsonDict) (k : Key) (h : Carries (added "m1") item k) :
      ¬ Carries (added "m2") item' k := by
    intro h'
    have hk : Carries (added "m1") (Interleaved.item "m1") (.str "m1") := ⟨by decide,by decide,by decide⟩
    have hk' : Carries (added "m2") (Interleaved.item "m2") (.str "m2") := ⟨by decide,by decide,by decide⟩
    have hsame := (hk.unique h).2.trans (hk'.unique h').2.symm
    exact absurd hsame (by decide)
  refine .cons ?_ (.cons ?_ (List.pairwise_singleton _ _))
  · intro e he _ ht item item' k h
    simp only [List.mem_cons, List.not_mem_nil, or_false] at he
    rcases he with rfl | rfl
    · exact hdistinct item item' k h
    · exact absurd ht (by decide)
  · intro e he _ ht
    obtain rfl := List.mem_singleton.mp he
    exact absurd ht (by decide)

end Interleaved

theorem text_deltas_attributed_iff_interleaved :
    Attributed none Interleaved.events ↔ InPlace none Interleaved.events :=
  text_deltas_attributed_iff Interleaved.deltasOfMessages

theorem interleaved_text_misattributed :
    DeltasOfMessages Interleaved.events ∧
    (Interleaved.events.Pairwise fun e e' => etype e = .outputItemAdded → etype e' = .outputItemAdded →
      ∀ item item' k, Carries e item k → ¬ Carries e' item' k) ∧
    ¬ Attributed none Interleaved.events := by
  refine ⟨Interleaved.deltasOfMessages,Interleaved.announcedOnce,fun hall => ?_⟩
  have htext := (hall Interleaved.events [] (by simp) _ rfl (.str "m1")).1 (by decide) 0
  exact absurd htext (by decide)

end ResponsesGateway
