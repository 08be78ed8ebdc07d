import ResponsesGateway.Foundation.Split
import ResponsesGateway.Streaming.Buffer

namespace ResponsesGateway

def Adds (e : Event) (item : JsonDict) (id : String) : Prop :=
  etype e = .outputItemAdded ∧ Carries e item (.str id)

def Ends (e : Event) (item : JsonDict) (id : String) : Prop :=
  etype e = .outputItemDone ∧ Carries e item (.str id)

def Mentions (e : Event) (id : String) : Prop :=
  (etype e).message = true ∧ e.get "item_id" = .str id ∧ id ≠ ""

def Opens (e : Event) (id : String) : Prop := (∃ item, Adds e item id) ∨ Mentions e id

def Concerns (e : Event) (id : String) : Prop := Opens e id ∨ ∃ item, Ends e item id

structure WellIdentified (e : Event) : Prop where
  item : etype e = .outputItemAdded ∨ etype e = .outputItemDone → ∀ item,
    (e.getD "item" (.dict [])).methods = .ok item →
      item.get "id" = .null ∨ ∃ id, id ≠ "" ∧ item.get "id" = .str id
  itemId : (etype e).message = true →
    e.get "item_id" = .null ∨ ∃ id, id ≠ "" ∧ e.get "item_id" = .str id

def EachOnce (final : JsonDict) (events : List Event) : Prop :=
  ∃ items : List JsonDict, final.get? "output" = some (.list (items.map Json.obj)) ∧
    (items.map (fun item => item.get "id")).Nodup ∧
    ∀ j, j ∈ items.map (fun item => item.get "id") ↔ ∃ id, j = .str id ∧ ∃ e ∈ events, Concerns e id

def KeepsText (old new : JsonDict) : Prop :=
  ∀ n t, partText old n = .str t → t ≠ "" → ∃ t', partText new n = .str t' ∧ t.toList <+: t'.toList

def NeverErases (rewriteId : Option String) (events : List Event) : Prop :=
  ∀ pre e post, events = pre ++ e :: post → ∀ item id, Adds e item id →
    ∀ b b', ((StreamBridge.init rewriteId).tee pre).2 = .ok b → (b.teeEvent e).2 = .ok b' →
      ∀ old, b.itemsById.get? (.str id) = some old →
        ∃ new, b'.itemsById.get? (.str id) = some new ∧ KeepsText old new

def Timely (pre : List Event) (e : Event) : Prop := ∀ item id, Adds e item id → ∀ m ∈ pre, ¬ Mentions m id

structure AnnouncedInTime (events : List Event) : Prop where
  first : ∀ pre e post, events = pre ++ e :: post → Timely pre e
  ends : ∀ e ∈ events, ∀ item id, Ends e item id → ∃ e' ∈ events, Opens e' id
  done : ∀ pre e post, events = pre ++ e :: post → ∀ item id, Adds e item id →
    ∀ d ∈ pre, ∀ old, Ends d old id → KeepsText old item

structure AtMostOnce (events : List Event) : Prop where
  added : events.Pairwise (fun e e' => ∀ item item' id, Adds e item id → ¬ Adds e' item' id)
  done : events.Pairwise (fun e e' => ∀ item item' id, Ends e item id → ¬ Ends e' item' id)

section Kinds

variable {e : Event} {item item' : JsonDict} {k : Key} {id id' : String}

theorem Adds.quiet (h : Adds e item id) : (etype e).message = false := by rw [h.1]; rfl

theorem Ends.quiet (h : Ends e item id) : (etype e).message = false := by rw [h.1]; rfl

theorem Adds.not_ends (h : Adds e item id) : ¬ Ends e item' id' := by
  rintro ⟨ht,-⟩
  rw [h.1] at ht
  cases ht

theorem not_adds_of_message (h : (etype e).message = true) : ¬ Adds e item id :=
  fun ha => absurd (h.symm.trans ha.quiet) (by decide)

theorem not_ends_of_message (h : (etype e).message = true) : ¬ Ends e item id :=
  fun ha => absurd (h.symm.trans ha.quiet) (by decide)

theorem not_mentions_of_quiet (h : (etype e).message = false) : ¬ Mentions e id :=
  fun hm => absurd (hm.1.symm.trans h) (by decide)

theorem WellIdentified.key_eq (hw : WellIdentified e)
    (ht : etype e = .outputItemAdded ∨ etype e = .outputItemDone) (hc : Carries e item k) :
    ∃ id, id ≠ "" ∧ k = .str id := by
  obtain ⟨hi,htr,hk⟩ := hc
  rcases hw.item ht item hi with hn | ⟨id,hne,hid⟩
  · rw [hn] at htr; cases htr
  · rw [hid] at hk; cases hk
    exact ⟨id,hne,rfl⟩

end Kinds

structure Tally (pre : List Event) (c : Buffer) : Prop where
  keys : ∃ ids : List String, c.itemOrder = ids.map Key.str
  announced : ∀ id, Key.str id ∈ c.announced ↔ ∃ e ∈ pre, Opens e id
  order : ∀ id, Key.str id ∈ c.itemOrder ↔ Key.str id ∈ c.announced
  nodup : c.itemOrder.Nodup ↔ ∀ p x q, pre = p ++ x :: q → Timely p x
  kept : ∀ id, Key.str id ∉ c.announced → ∀ item, c.itemsById.get? (.str id) = some item →
    ∃ d ∈ pre, ∃ old, Ends d old id ∧ item.get? "content" = old.get? "content"
  ended : ∀ id, Key.str id ∉ c.announced → ∀ d ∈ pre, ∀ old, Ends d old id →
    ∃ item, c.itemsById.get? (.str id) = some item ∧ item.get? "content" = old.get? "content"

namespace Tally

variable {pre : List Event} {c c' : Buffer} {e : Event} {item item' : JsonDict} {k : Key} {id : String}

theorem init : Tally [] ⟨.empty, [], []⟩ where
  keys := ⟨[],rfl⟩
  announced := by simp
  order := by simp
  nodup := by simp
  kept := by simp
  ended := by simp

theorem idle (h : Tally pre c) (ho : ∀ id, Opens e id → Key.str id ∈ c.announced) (ht : Timely pre e)
    (hd : ∀ item id, ¬ Ends e item id) : Tally (pre ++ [e]) c where
  keys := h.keys
  announced id := by
    rw [List.exists_mem_concat, ← h.announced id]
    constructor
    · exact .inl
    · rintro (hk | hopens)
      · exact hk
      · exact ho id hopens
  order := h.order
  nodup := by
    rw [List.forall_split_concat, ← h.nodup]
    exact (and_iff_left ht).symm
  kept id hid item hitem := by
    obtain ⟨d,hdm,old,hold⟩ := h.kept id hid item hitem
    exact ⟨d,List.mem_append_left [e] hdm,old,hold⟩
  ended id hid d hdm old hold := by
    rcases List.mem_append.mp hdm with hdm | hdm
    · exact h.ended id hid d hdm old hold
    · rw [List.mem_singleton.mp hdm] at hold
      exact absurd hold (hd old id)

theorem put (h : Tally pre c) (hk : c.itemsById.get? k = some item)
    (hcontent : k ∈ c.announced ∨ item'.get? "content" = item.get? "content") : Tally pre (c.put k item') where
  keys := h.keys
  announced := h.announced
  order := h.order
  nodup := h.nodup
  kept id hid found hfound := by
    simp only [Buffer.put, Dict.get?_set] at hfound
    split at hfound
    · rename_i hj
      cases hfound
      obtain ⟨d,hdm,old,hold,heq⟩ := h.kept id hid item (hj ▸ hk)
      exact ⟨d,hdm,old,hold,(hcontent.resolve_left (hj ▸ hid)).trans heq⟩
    · exact h.kept id hid found hfound
  ended id hid d hdm old hold := by
    obtain ⟨found,hfound,heq⟩ := h.ended id hid d hdm old hold
    simp only [Buffer.put, Dict.get?_set]
    split
    · rename_i hj
      rw [hj] at hfound
      obtain rfl := Option.some.inj (hk.symm.trans hfound)
      exact ⟨item',rfl,(hcontent.resolve_left (hj ▸ hid)).trans heq⟩
    · exact ⟨found,hfound,heq⟩

theorem add (h : Tally pre c) (hopens : ∀ id', Opens e id' ↔ id' = id)
    (hends : ∀ item id', ¬ Ends e item id') (htimely : Key.str id ∉ c.announced ↔ Timely pre e) :
    Tally (pre ++ [e]) (c.add (.str id) item) where
  keys := by
    obtain ⟨ids,hids⟩ := h.keys
    exact ⟨ids ++ [id],by simp [Buffer.add, hids]⟩
  announced id' := by
    rw [List.exists_mem_concat, ← h.announced id', hopens id']
    simp [Buffer.add, or_comm]
  order id' := by
    rw [Buffer.add, List.mem_append, List.mem_singleton, List.mem_cons, h.order id', or_comm]
  nodup := by
    have hfresh := (h.order id).not.trans htimely
    rw [List.forall_split_concat, ← h.nodup, ← hfresh]
    simp only [Buffer.add, ← List.concat_eq_append, List.nodup_concat]
    exact and_comm
  kept id' hid found hfound := by
    simp only [Buffer.add, List.mem_cons, Key.str.injEq, not_or] at hid
    simp only [Buffer.add, Dict.get?_set, Key.str.injEq, if_neg hid.1] at hfound
    obtain ⟨d,hdm,old,hold⟩ := h.kept id' hid.2 found hfound
    exact ⟨d,List.mem_append_left [e] hdm,old,hold⟩
  ended id' hid d hdm old hold := by
    simp only [Buffer.add, List.mem_cons, Key.str.injEq, not_or] at hid
    simp only [Buffer.add, Dict.get?_set, Key.str.injEq, if_neg hid.1]
    rcases List.mem_append.mp hdm with hdm | hdm
    · exact h.ended id' hid.2 d hdm old hold
    · rw [List.mem_singleton.mp hdm] at hold
      exact absurd hold (hends old id')

theorem put_done (h : Tally pre c) (he : Ends e item id) (hfirst : ∀ d ∈ pre, ∀ old, ¬ Ends d old id) :
    Tally (pre ++ [e]) (c.put (.str id) item) where
  keys := h.keys
  announced id' := by
    have hopens : ¬ Opens e id' := by
      rintro (⟨item',ha⟩ | hm)
      · exact ha.not_ends he
      · exact not_mentions_of_quiet he.quiet hm
    rw [List.exists_mem_concat, or_iff_left hopens]
    exact h.announced id'
  order := h.order
  nodup := by
    rw [List.forall_split_concat, ← h.nodup]
    exact (and_iff_left fun item id ha => absurd he ha.not_ends).symm
  kept id' hid found hfound := by
    simp only [Buffer.put, Dict.get?_set, Key.str.injEq] at hfound
    split at hfound
    · rename_i heq
      obtain rfl := Option.some.inj hfound
      exact ⟨e,by simp,item,heq ▸ he,rfl⟩
    · obtain ⟨d,hdm,old,hold⟩ := h.kept id' hid found hfound
      exact ⟨d,List.mem_append_left [e] hdm,old,hold⟩
  ended id' hid d hdm old hold := by
    simp only [Buffer.put, Dict.get?_set, Key.str.injEq]
    rcases List.mem_append.mp hdm with hdm | hdm
    · have hne : id' ≠ id := fun heq => hfirst d hdm old (heq ▸ hold)
      rw [if_neg hne]
      exact h.ended id' hid d hdm old hold
    · rw [List.mem_singleton.mp hdm] at hold
      obtain ⟨hitem,hkey⟩ := he.2.unique hold.2
      cases hkey
      exact ⟨item,if_pos rfl,hitem ▸ rfl⟩

theorem noted (h : Tally pre c) (hw : WellIdentified e) (hm : (etype e).message = true) :
    Tally (pre ++ [e]) (c.noted e) := by
  have hends (item : JsonDict) (id : String) : ¬ Ends e item id := not_ends_of_message hm
  have htimely : Timely pre e := fun item id ha => absurd ha (not_adds_of_message hm)
  rcases hw.itemId hm with hn | ⟨id,hne,hid⟩
  · have hsame : c.noted e = c := by simp only [Buffer.noted, hn]
    rw [hsame]
    refine h.idle ?_ htimely hends
    rintro id (⟨item,ha⟩ | ⟨-,hid,-⟩)
    · exact absurd ha (not_adds_of_message hm)
    · rw [hn] at hid; cases hid
  · have hopens (id' : String) : Opens e id' ↔ id' = id := by
      constructor
      · rintro (⟨item,ha⟩ | ⟨-,hid',-⟩)
        · exact absurd ha (not_adds_of_message hm)
        · rw [hid] at hid'; cases hid'; rfl
      · rintro rfl
        exact .inr ⟨hm,hid,hne⟩
    simp only [Buffer.noted, hid, Buffer.introduce, if_neg hne]
    split
    · rename_i hk
      exact h.idle (fun id' ho => (hopens id').mp ho ▸ hk) htimely hends
    · rename_i hk
      exact h.add hopens hends (iff_of_true hk htimely)

theorem inert (h : Tally pre c) (hm : (etype e).message = false)
    (hno : etype e = .outputItemAdded ∨ etype e = .outputItemDone → ∀ item k, ¬ Carries e item k) :
    Tally (pre ++ [e]) c := by
  have hadds (item : JsonDict) (id : String) : ¬ Adds e item id := fun ⟨ht,hc⟩ => hno (.inl ht) _ _ hc
  refine h.idle ?_ (fun item id ha => absurd ha (hadds item id)) (fun item id ⟨ht,hc⟩ => hno (.inr ht) _ _ hc)
  rintro id (⟨item,ha⟩ | hmentions)
  · exact absurd ha (hadds item id)
  · exact absurd hmentions (not_mentions_of_quiet hm)

theorem added (h : Tally pre c) (he : Adds e item id) (hfirst : ∀ d ∈ pre, ∀ old, ¬ Adds d old id) :
    Tally (pre ++ [e]) (c.add (.str id) item) := by
  refine h.add ?_ (fun item' id' => he.not_ends) ?_
  · intro id'
    constructor
    · rintro (⟨item',ha⟩ | hm)
      · cases (he.2.unique ha.2).2
        rfl
      · exact absurd hm (not_mentions_of_quiet he.quiet)
    · rintro rfl
      exact .inl ⟨item,he⟩
  · rw [h.announced id]
    constructor
    · rintro hno item' id' ha m hm hmentions
      cases (he.2.unique ha.2).2
      exact hno ⟨m,hm,.inr hmentions⟩
    · rintro htimely ⟨m,hm,⟨old,ha⟩ | hmentions⟩
      · exact hfirst m hm old ha
      · exact htimely item id he m hm hmentions

theorem step (h : Tally pre c) (hb : Buffers c e c') (hw : WellIdentified e)
    (hadds : ∀ d ∈ pre, ∀ old item id, Adds d old id → ¬ Adds e item id)
    (hends : ∀ d ∈ pre, ∀ old item id, Ends d old id → ¬ Ends e item id) : Tally (pre ++ [e]) c' := by
  cases hb with
  | @added item k ht hc =>
    obtain ⟨id,-,rfl⟩ := hw.key_eq (.inl ht) hc
    exact h.added ⟨ht,hc⟩ fun d hd old ha => hadds d hd old item id ha ⟨ht,hc⟩
  | @done item k ht hc =>
    obtain ⟨id,-,rfl⟩ := hw.key_eq (.inr ht) hc
    exact h.put_done ⟨ht,hc⟩ fun d hd old ha => hends d hd old item id ha ⟨ht,hc⟩
  | mentioned hm => exact h.noted hw hm
  | extended ht hl =>
    have hn := h.noted hw (by rw [ht]; rfl)
    obtain ⟨hk,hget,-⟩ := Buffer.latest_inv hl
    obtain ⟨ids,hids⟩ := hn.keys
    obtain ⟨id,-,rfl⟩ := List.mem_map.mp (hids ▸ hk)
    exact hn.put hget (.inl ((hn.order id).mp hk))
  | dropped ht => exact h.noted hw (by rw [ht]; rfl)
  | argued ht hget =>
    have hi := h.inert (e := e) (by rw [ht]; rfl) (by rw [ht]; rintro (h | h) <;> cases h)
    exact hi.put hget (.inr (by simp))
  | quiet hm hno => exact h.inert hm hno

end Tally

namespace StreamBridge

variable {b b' : StreamBridge} {events pre post : List Event} {e : Event} {rewriteId : Option String}

theorem tally_tee (hw : ∀ e ∈ events, WellIdentified e) (ho : AtMostOnce events)
    (h : ((init rewriteId).tee events).2 = .ok b) : Tally events b.buffer := by
  refine tee_invariant (b := init rewriteId) (P := Tally) Tally.init ?_ h
  intro pre e c c' hpre htally hb
  have hadded := ho.added.sublist hpre.sublist
  have hdone := ho.done.sublist hpre.sublist
  rw [List.pairwise_append] at hadded hdone
  refine htally.step hb (hw e (hpre.subset (by simp))) ?_ ?_
  · intro d hd old item id
    exact hadded.2.2 d hd e (by simp) old item id
  · intro d hd old item id
    exact hdone.2.2 d hd e (by simp) old item id

theorem tee_split_ok (h : ((init rewriteId).tee (pre ++ e :: post)).2 = .ok b') :
    ∃ b₁ b₂, ((init rewriteId).tee pre).2 = .ok b₁ ∧ (b₁.teeEvent e).2 = .ok b₂ := by
  obtain ⟨b₁,hpre,hrest⟩ := tee_append_ok_iff.mp h
  obtain ⟨b₂,he,-⟩ := tee_cons_ok_iff.mp hrest
  exact ⟨b₁,b₂,hpre,he⟩

theorem items_ids {ids : List String} (hids : b.itemOrder = ids.map Key.str) (hf : b.buffer.Filed) :
    b.items.map (fun item => item.get "id") = ids.map Json.str := by
  have hmap := items_map (b := b) (f := fun item => item.get "id")
    (g := fun k => Key.casesOn k .null (fun _ => .null) Json.str) (by
      intro k hk item hitem
      obtain ⟨id,-,rfl⟩ := List.mem_map.mp (hids ▸ hk)
      exact Json.key_eq_str (hf _ item hitem))
  rw [hmap, hids, List.map_map]
  rfl

theorem eachOnce_iff (hw : ∀ e ∈ events, WellIdentified e) (ho : AtMostOnce events)
    (h : ((init rewriteId).tee events).2 = .ok b) :
    EachOnce b.finalState events ↔
      (∀ pre e post, events = pre ++ e :: post → Timely pre e) ∧
        ∀ e ∈ events, ∀ item id, Ends e item id → ∃ e' ∈ events, Opens e' id := by
  have ht := tally_tee hw ho h
  obtain ⟨ids,hids⟩ := ht.keys
  have hitems := items_ids hids (tee_filed h)
  have hnodup : (ids.map Json.str).Nodup ↔ b.itemOrder.Nodup := by
    have hkeys : b.itemOrder = ids.map Key.str := hids
    rw [hkeys, List.nodup_map_iff fun _ _ => Json.str.inj, List.nodup_map_iff fun _ _ => Key.str.inj]
  have hmem (id : String) : id ∈ ids ↔ ∃ e ∈ events, Opens e id := by
    rw [← ht.announced id, ← ht.order id, hids]
    simp
  have heach : EachOnce b.finalState events ↔ (ids.map Json.str).Nodup ∧
      ∀ j, j ∈ ids.map Json.str ↔ ∃ id, j = .str id ∧ ∃ e ∈ events, Concerns e id := by
    rw [← hitems]
    constructor
    · rintro ⟨items,hout,heach⟩
      simp only [finalState, Dict.get?_set, if_true, Option.some.injEq, Json.list.injEq] at hout
      rwa [List.map_injective_iff.mpr Json.obj_injective hout]
    · intro heach
      exact ⟨b.items,by simp [finalState],heach⟩
  rw [heach, hnodup, ← ht.nodup]
  refine and_congr_right fun _ => ?_
  constructor
  · intro hall e he item id hends
    have hid : Json.str id ∈ ids.map Json.str := (hall _).mpr ⟨id,rfl,e,he,.inr ⟨item,hends⟩⟩
    exact (hmem id).mp (by simpa using hid)
  · intro hends j
    constructor
    · intro hj
      obtain ⟨id,hid,rfl⟩ := List.mem_map.mp hj
      obtain ⟨e,he,hopens⟩ := (hmem id).mp hid
      exact ⟨id,rfl,e,he,.inl hopens⟩
    · rintro ⟨id,rfl,e,he,hopens | ⟨item,hended⟩⟩
      · exact List.mem_map_of_mem ((hmem id).mpr ⟨e,he,hopens⟩)
      · exact List.mem_map_of_mem ((hmem id).mpr (hends e he item id hended))

theorem keepsText_congr {old old' new : JsonDict} (h : old.get? "content" = old'.get? "content") :
    KeepsText old new ↔ KeepsText old' new := by
  simp only [KeepsText, partText_congr h]

theorem held_added {item : JsonDict} {id : String} (ha : Adds e item id) (h : (b.teeEvent e).2 = .ok b') :
    b'.itemsById.get? (.str id) = some item := by
  have hb := teeEvent_buffers h
  generalize hc : b'.buffer = c' at hb
  cases hb with
  | added ht hcarries =>
    obtain ⟨rfl,hk⟩ := ha.2.unique hcarries
    have hitems : b'.itemsById = (b.buffer.add _ item).itemsById := congrArg Buffer.itemsById hc
    rw [hitems, ← hk]
    simp [Buffer.add]
  | quiet _ hno => exact absurd ha.2 (hno (.inl ha.1) _ _)
  | done ht => rw [ha.1] at ht; cases ht
  | mentioned hm => exact absurd ha (not_adds_of_message hm)
  | extended ht => rw [ha.1] at ht; cases ht
  | dropped ht => rw [ha.1] at ht; cases ht
  | argued ht => rw [ha.1] at ht; cases ht

theorem neverErases_iff (hw : ∀ e ∈ events, WellIdentified e) (ho : AtMostOnce events)
    (h : ((init rewriteId).tee events).2 = .ok b')
    (hfirst : ∀ pre e post, events = pre ++ e :: post → Timely pre e) :
    NeverErases rewriteId events ↔ ∀ pre e post, events = pre ++ e :: post → ∀ item id, Adds e item id →
      ∀ d ∈ pre, ∀ old, Ends d old id → KeepsText old item := by
  have hwaiting (pre e post) (heq : events = pre ++ e :: post) (item id) (ha : Adds e item id) (b : StreamBridge)
      (hb : ((init rewriteId).tee pre).2 = .ok b) : Tally pre b.buffer ∧ Key.str id ∉ b.buffer.announced := by
    subst heq
    have ht : Tally pre b.buffer := by
      refine tally_tee (fun x hx => hw x (by simp [hx])) ⟨?_,?_⟩ hb
      · exact ho.added.sublist (List.sublist_append_left pre _)
      · exact ho.done.sublist (List.sublist_append_left pre _)
    refine ⟨ht,fun hk => ?_⟩
    obtain ⟨m,hm,⟨old,hadds⟩ | hmentions⟩ := (ht.announced id).mp hk
    · exact (List.pairwise_append.mp ho.added).2.2 m hm e (by simp) old item id hadds ha
    · exact hfirst pre e post rfl item id ha m hm hmentions
  constructor
  · intro hnever pre e post heq item id ha d hd old hends
    obtain ⟨b₁,b₂,hpre,he⟩ := tee_split_ok (heq ▸ h)
    obtain ⟨ht,hk⟩ := hwaiting pre e post heq item id ha b₁ hpre
    obtain ⟨held,hheld,hcontent⟩ := ht.ended id hk d hd old hends
    obtain ⟨new,hnew,hkeeps⟩ := hnever pre e post heq item id ha b₁ b₂ hpre he held hheld
    obtain rfl := Option.some.inj ((held_added ha he).symm.trans hnew)
    exact (keepsText_congr hcontent).mp hkeeps
  · intro hdone pre e post heq item id ha b₁ b₂ hpre he held hheld
    obtain ⟨ht,hk⟩ := hwaiting pre e post heq item id ha b₁ hpre
    obtain ⟨d,hd,old,hends,hcontent⟩ := ht.kept id hk held hheld
    exact ⟨item,held_added ha he,(keepsText_congr hcontent).mpr (hdone pre e post heq item id ha d hd old hends)⟩

end StreamBridge

theorem output_items_exact_iff {rewriteId : Option String} {events : List Event} {b : StreamBridge}
    (hw : ∀ e ∈ events, WellIdentified e) (ho : AtMostOnce events)
    (h : ((StreamBridge.init rewriteId).tee events).2 = .ok b) :
    EachOnce b.finalState events ∧ NeverErases rewriteId events ↔ AnnouncedInTime events := by
  rw [StreamBridge.eachOnce_iff hw ho h]
  constructor
  · rintro ⟨⟨hfirst,hends⟩,hnever⟩
    exact ⟨hfirst,hends,(StreamBridge.neverErases_iff hw ho h hfirst).mp hnever⟩
  · rintro ⟨hfirst,hends,hdone⟩
    exact ⟨⟨hfirst,hends⟩,(StreamBridge.neverErases_iff hw ho h hfirst).mpr hdone⟩

namespace LateAnnouncement

def delta : Event :=
  .ofEntries [("type", .str "response.output_text.delta"), ("item_id", .str "m1"), ("delta", .str "hi")]

def item : JsonDict := .ofEntries [("id", .str "m1"), ("type", .str "message"), ("content", .list [])]

def added : Event := .ofEntries [("type", .str "response.output_item.added"), ("item", .obj item)]

def events : List Event := [delta, added]

theorem wellIdentified : ∀ e ∈ events, WellIdentified e := by
  intro e he
  simp only [events, List.mem_cons, List.not_mem_nil, or_false] at he
  rcases he with rfl | rfl
  · exact ⟨fun ht => absurd ht (by decide),fun _ => .inr ⟨"m1",by decide,by decide⟩⟩
  · refine ⟨fun _ found hfound => .inr ⟨"m1",by decide,?_⟩,fun ht => absurd ht (by decide)⟩
    obtain rfl : item = found := Except.ok.inj hfound
    decide

theorem adds : Adds added item "m1" := ⟨by decide,by decide,by decide,by decide⟩

theorem atMostOnce : AtMostOnce events where
  added := by
    refine .cons ?_ (List.pairwise_singleton _ _)
    intro e _ item item' id ha
    exact absurd ha.1 (by decide)
  done := by
    refine .cons ?_ (List.pairwise_singleton _ _)
    intro e _ item item' id ha
    exact absurd ha.1 (by decide)

theorem forwarded : ∃ b, ((StreamBridge.init none).tee events).2 = .ok b := ⟨_,rfl⟩

end LateAnnouncement

theorem output_items_exact_iff_late : ∃ b, ((StreamBridge.init none).tee LateAnnouncement.events).2 = .ok b ∧
    (EachOnce b.finalState LateAnnouncement.events ∧ NeverErases none LateAnnouncement.events ↔
      AnnouncedInTime LateAnnouncement.events) := by
  obtain ⟨b,hb⟩ := LateAnnouncement.forwarded
  exact ⟨b,hb,output_items_exact_iff LateAnnouncement.wellIdentified LateAnnouncement.atMostOnce hb⟩

theorem late_announcement_listed_twice :
    (∀ e ∈ LateAnnouncement.events, WellIdentified e) ∧ AtMostOnce LateAnnouncement.events ∧
    ∃ b, ((StreamBridge.init none).tee LateAnnouncement.events).2 = .ok b ∧
      ¬ (EachOnce b.finalState LateAnnouncement.events ∧ NeverErases none LateAnnouncement.events) := by
  obtain ⟨b,hb⟩ := LateAnnouncement.forwarded
  refine ⟨LateAnnouncement.wellIdentified,LateAnnouncement.atMostOnce,b,hb,?_⟩
  rintro ⟨heach,-⟩
  obtain ⟨hfirst,-⟩ := (StreamBridge.eachOnce_iff LateAnnouncement.wellIdentified
    LateAnnouncement.atMostOnce hb).mp heach
  exact hfirst [LateAnnouncement.delta] LateAnnouncement.added [] rfl LateAnnouncement.item "m1"
    LateAnnouncement.adds LateAnnouncement.delta (by simp) ⟨by decide,by decide,by decide⟩

end ResponsesGateway
