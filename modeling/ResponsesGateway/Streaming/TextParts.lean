import ResponsesGateway.Streaming.Bridge

namespace ResponsesGateway

def partText (item : JsonDict) (n : ℤ) : Json :=
  match item.getD "content" (.list []) with
  | .list parts =>
      if n < 0 then .str ""
      else ((parts[n.toNat]?.bind Json.asDict).bind (fun part => part.get? "text")).getD (.str "")
  | _ => .str ""

def takesMore (parts : List Json) : Bool :=
  (parts.getLast?.bind Json.asDict).any (fun part => part.get "type" == .str "output_text")

def contentParts (item : JsonDict) : List Json :=
  match item.getD "content" (.list []) with
  | .list parts => parts
  | _ => []

def openIndex (item : JsonDict) : ℤ :=
  if takesMore (contentParts item) then (contentParts item).length - 1 else (contentParts item).length

section Append

variable {item item' : JsonDict} {delta : Json} {parts front : List Json} {part : JsonDict}

theorem partText_congr (h : item.get? "content" = item'.get? "content") (n : ℤ) :
    partText item n = partText item' n := by
  simp only [partText, Dict.getD, h]

theorem appendText_inv (h : appendText item delta = .ok item') :
    ∃ parts front part text text', item.getD "content" (.list []) = .list parts ∧
      openTextPart parts = .ok (front, part) ∧ part.get? "text" = some text ∧
      text.iadd delta = .ok text' ∧
      item' = item.set "content" (.list (front ++ [.obj (part.set "text" text')])) := by
  unfold appendText at h
  split at h
  · rename_i parts hparts
    obtain ⟨⟨front,part⟩,hopen,h⟩ := Except.bind_eq_ok_iff.mp h
    dsimp only at h
    split at h
    · cases h
    · rename_i text htext
      obtain ⟨text',hadd,h⟩ := Except.bind_eq_ok_iff.mp h
      cases h
      exact ⟨parts,front,part,text,text',hparts,hopen,htext,hadd,rfl⟩
  · split at h
    · split at h <;> cases h
    · cases h

theorem appendText_get? (h : appendText item delta = .ok item') {k : String} (hk : k ≠ "content") :
    item'.get? k = item.get? k := by
  obtain ⟨parts,front,part,text,text',-,-,-,-,rfl⟩ := appendText_inv h
  simp [hk]

theorem openTextPart_inv (h : openTextPart parts = .ok (front, part)) :
    (takesMore parts = true ∧ ∃ last, parts = front ++ [last] ∧ last.asDict = some part) ∨
      takesMore parts = false ∧ front = parts ∧ part = newTextPart := by
  unfold openTextPart at h
  split at h
  · rename_i hlast
    cases h
    exact .inr ⟨by simp [takesMore, hlast],rfl,rfl⟩
  · rename_i last hlast
    obtain ⟨d,hd,h⟩ := Except.bind_eq_ok_iff.mp h
    have hdict : last.asDict = some d := by
      unfold Json.methods at hd
      cases hl : last.asDict with
      | none => rw [hl] at hd; cases hd
      | some d' => rw [hl] at hd; cases hd; rfl
    split at h
    · rename_i ht
      cases h
      refine .inl ⟨by simp [takesMore, hlast, hdict, ht],last,?_,hdict⟩
      obtain ⟨init,rfl⟩ := List.getLast?_eq_some_iff.mp hlast
      simp
    · rename_i ht
      cases h
      exact .inr ⟨by simp [takesMore, hlast, hdict, ht],rfl,rfl⟩

theorem partText_append (front : List Json) (last : Json) (n : ℤ) (hn : n ≠ front.length)
    (hc : item.getD "content" (.list []) = .list (front ++ [last]))
    (hc' : item'.getD "content" (.list []) = .list front) : partText item n = partText item' n := by
  simp only [partText, hc, hc']
  split
  · rfl
  · rename_i hneg
    have hne : n.toNat ≠ front.length := by omega
    rcases Nat.lt_or_gt_of_ne hne with hlt | hgt
    · rw [List.getElem?_append_left hlt]
    · rw [List.getElem?_eq_none (by simp; omega), List.getElem?_eq_none (by omega)]

theorem partText_last (front : List Json) {last : Json} {part : JsonDict} (hpart : last.asDict = some part)
    (hc : item.getD "content" (.list []) = .list (front ++ [last])) :
    partText item front.length = (part.get? "text").getD (.str "") := by
  simp [partText, hc, hpart]

theorem partText_appendText {s : String} (h : appendText item (.str s) = .ok item')
    (htext : ∀ n, ∃ t, partText item n = .str t) (n : ℤ) :
    ∃ t, partText item n = .str t ∧
      partText item' n = .str (if n = openIndex item then t ++ s else t) := by
  obtain ⟨parts,front,part,text,text',hparts,hopen,hpart,hadd,rfl⟩ := appendText_inv h
  have hcontent : contentParts item = parts := by simp only [contentParts, hparts]
  have hnew : (item.set "content" (.list (front ++ [.obj (part.set "text" text')]))).getD "content"
      (.list []) = .list (front ++ [.obj (part.set "text" text')]) := by simp [Dict.getD]
  have hfront : (item.set "content" (.list front)).getD "content" (.list []) = .list front := by
    simp [Dict.getD]
  have hother (hn : n ≠ front.length) :
      partText (item.set "content" (.list (front ++ [.obj (part.set "text" text')]))) n =
        partText (item.set "content" (.list front)) n := partText_append front _ n hn hnew hfront
  have hgrown : partText (item.set "content" (.list (front ++ [.obj (part.set "text" text')])))
      front.length = text' := by
    rw [partText_last front (Json.asDict_obj _) hnew]
    simp
  obtain ⟨t,ht⟩ := htext n
  refine ⟨t,ht,?_⟩
  rcases openTextPart_inv hopen with ⟨htakes,last,rfl,hlast⟩ | ⟨htakes,rfl,rfl⟩
  · have hindex : openIndex item = front.length := by simp [openIndex, hcontent, htakes]
    rw [hindex]
    by_cases hn : n = front.length
    · subst hn
      rw [partText_last front hlast hparts, hpart, Option.getD_some] at ht
      subst ht
      cases hadd
      rw [if_pos rfl, hgrown]
    · rw [if_neg hn, hother hn, ← partText_append front last n hn hparts hfront, ht]
  · have hindex : openIndex item = front.length := by simp [openIndex, hcontent, htakes]
    rw [hindex]
    by_cases hn : n = front.length
    · subst hn
      have hempty : partText item front.length = .str "" := by simp [partText, hparts]
      rw [hempty] at ht
      cases ht
      have hnewText : newTextPart.get? "text" = some (.str "") := by decide
      obtain rfl := Option.some.inj (hpart.symm.trans hnewText)
      cases hadd
      rw [if_pos rfl, hgrown]
    · have hsame : partText (item.set "content" (.list front)) n = partText item n := by
        simp only [partText, hparts, hfront]
      rw [if_neg hn, hother hn, hsame, ht]

def EndsInText (item : JsonDict) : Prop :=
  ∃ (front : List Json) (part : JsonDict), item.get? "content" = some (.list (front ++ [.obj part])) ∧
    part.get "type" = .str "output_text"

theorem iadd_str_eq_self_iff {text text' : Json} {s : String} (h : text.iadd (.str s) = .ok text') :
    text' = text ↔ s = "" := by
  cases text with
  | str t =>
    cases h
    simp
  | list xs =>
    cases h
    simp
  | float x => cases h
  | _ => cases h

theorem appendText_content_iff {s : String} (h : appendText item (.str s) = .ok item') :
    item'.get? "content" = item.get? "content" ↔ s = "" ∧ EndsInText item := by
  obtain ⟨parts,front,part,text,text',hparts,hopen,hpart,hadd,rfl⟩ := appendText_inv h
  have hnew : (item.set "content" (.list (front ++ [.obj (part.set "text" text')]))).get? "content" =
      some (.list (front ++ [.obj (part.set "text" text')])) := by simp
  rw [hnew]
  constructor
  · intro heq
    have hc : parts = front ++ [.obj (part.set "text" text')] := by
      rw [Dict.getD, ← heq] at hparts
      simpa using hparts.symm
    rcases openTextPart_inv hopen with ⟨htakes,last,rfl,hlast⟩ | ⟨-,rfl,-⟩
    · obtain rfl : last = .obj (part.set "text" text') := by simpa using hc
      have hsame : part = part.set "text" text' := by simpa using hlast.symm
      have htext : text' = text := by
        rw [hsame] at hpart
        simpa using hpart
      refine ⟨(iadd_str_eq_self_iff hadd).mp htext,front,part,?_,?_⟩
      · rw [← heq, ← hsame]
      · simpa [takesMore, ← hsame] using htakes
    · simp at hc
  · rintro ⟨rfl,front',part',hc,ht⟩
    have hparts' : parts = front' ++ [.obj part'] := by
      rw [Dict.getD, hc] at hparts
      simpa using hparts.symm
    rcases openTextPart_inv hopen with ⟨-,last,rfl,hlast⟩ | ⟨htakes,-,-⟩
    · obtain ⟨rfl,hl⟩ := List.append_inj' hparts' rfl
      obtain rfl : last = .obj part' := by simpa using hl
      obtain rfl : part' = part := by simpa using hlast
      have htext : text' = text := (iadd_str_eq_self_iff hadd).mpr rfl
      rw [hc, htext, Dict.set_eq_self hpart]
    · rw [hparts'] at htakes
      simp [takesMore, ht] at htakes

end Append

end ResponsesGateway
