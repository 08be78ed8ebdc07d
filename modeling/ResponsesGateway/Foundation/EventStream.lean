import Mathlib.Data.List.Basic

namespace EventStream

def lines (text : List Char) : List (List Char) := (text.splitOn '\n').dropLast

def field : List Char := ['d', 'a', 't', 'a', ':']

/-- What a `data` field gives: one space after the colon is not part of it. -/
def data? (line : List Char) : Option (List Char) :=
  match line.dropPrefix? field with
  | some (' ' :: value) => some value
  | r => r

def blocks : Option (List Char) → List (List Char) → List (List Char)
  | _, [] => []
  | none, [] :: ls => blocks none ls
  | some data, [] :: ls => data :: blocks none ls
  | data, line :: ls =>
      match data? line, data with
      | none, data => blocks data ls
      | some value, none => blocks (some value) ls
      | some value, some data => blocks (some (data ++ '\n' :: value)) ls

def read (text : List Char) : List (List Char) := blocks none (lines text)

def write (data : List Char) : List Char := field ++ ' ' :: data ++ ['\n', '\n']

variable {data text : List Char}

theorem data?_write (data : List Char) : data? (field ++ ' ' :: data) = some data := rfl

theorem lines_append {line : List Char} (h : '\n' ∉ line) (text : List Char) :
    lines (line ++ '\n' :: text) = line :: lines text := by
  have hline : ∀ c ∈ line, (c == '\n') = false := fun c hc => by
    rw [beq_eq_false_iff_ne]
    rintro rfl
    exact h hc
  rw [lines, List.splitOn_eq_splitOnP, List.splitOnP_append_cons_of_forall_mem hline '\n' (by simp),
    List.dropLast_cons_of_ne_nil (List.splitOnP_ne_nil _ _)]
  rfl

theorem lines_unfinished {line : List Char} (h : '\n' ∉ line) : lines line = [] := by
  rw [lines, List.splitOn_eq_splitOnP, List.splitOnP_eq_singleton]
  · rfl
  · intro c hc
    rw [beq_eq_false_iff_ne]
    rintro rfl
    exact h hc

theorem not_mem_start (h : '\n' ∉ data) : '\n' ∉ field ++ ' ' :: data := by
  rw [List.mem_append, List.mem_cons, not_or, not_or]
  exact ⟨by decide, by decide, h⟩

theorem blocks_cons {line value : List Char} (h : data? line = some value) (ls : List (List Char)) :
    blocks none (line :: ls) = blocks (some value) ls := by
  cases line with
  | nil => cases h
  | cons c cs => simp only [blocks, h]

theorem read_write_append (h : '\n' ∉ data) (text : List Char) :
    read (write data ++ text) = data :: read text := by
  have hlines : lines (write data ++ text) = (field ++ ' ' :: data) :: [] :: lines text := by
    rw [show write data ++ text = (field ++ ' ' :: data) ++ '\n' :: ([] ++ '\n' :: text) by simp [write],
      lines_append (not_mem_start h), lines_append (by simp)]
  rw [read, hlines, blocks_cons (data?_write data), blocks, read]

theorem read_unfinished (h : '\n' ∉ data) (hpre : text <+: write data) (hne : text ≠ write data) :
    read text = [] := by
  rw [show write data = (field ++ ' ' :: data) ++ ['\n'] ++ ['\n'] by simp [write]] at hpre hne
  have hline := not_mem_start h
  have hvalue := data?_write data
  generalize field ++ ' ' :: data = line at *
  rcases List.prefix_concat_iff.mp ((List.prefix_concat_iff.mp hpre).resolve_left hne) with rfl | hpre
  · rw [read, lines_append hline, blocks_cons hvalue]
    rfl
  · rw [read, lines_unfinished fun hc => hline (hpre.subset hc)]
    rfl

theorem read_cut {ds : List (List Char)} (h : ∀ d ∈ ds, '\n' ∉ d) (hcut : text <+: ds.flatMap write) :
    ∃ k, read text = ds.take k ∧ ∀ j ≤ ds.length, (ds.take j).flatMap write <+: text ↔ j ≤ k := by
  induction ds generalizing text with
  | nil =>
    obtain rfl := List.prefix_nil.mp hcut
    refine ⟨0,rfl,fun j hj => ?_⟩
    simpa using hj
  | cons d ds ih =>
    rw [List.flatMap_cons] at hcut
    by_cases hwhole : write d <+: text
    · obtain ⟨rest,rfl⟩ := hwhole
      obtain ⟨k,hread,hk⟩ := ih (fun e he => h e (by simp [he])) ((List.prefix_append_right_inj _).mp hcut)
      refine ⟨k + 1,?_,fun j hj => ?_⟩
      · rw [read_write_append (h d (by simp)), hread, List.take_succ_cons]
      · cases j with
        | zero => simp
        | succ j =>
          rw [List.take_succ_cons, List.flatMap_cons, List.prefix_append_right_inj,
            hk j (Nat.le_of_succ_le_succ hj), Nat.succ_le_succ_iff]
    · have hpart : text <+: write d :=
        (List.prefix_or_prefix_of_prefix hcut (List.prefix_append _ _)).resolve_right hwhole
      refine ⟨0,read_unfinished (h d (by simp)) hpart fun he => hwhole (he ▸ List.prefix_rfl),fun j _ => ?_⟩
      cases j with
      | zero => simp
      | succ j =>
        rw [List.take_succ_cons, List.flatMap_cons]
        exact iff_of_false (fun hj => hwhole ((List.prefix_append _ _).trans hj)) (Nat.not_succ_le_zero j)

end EventStream
