import ResponsesGateway.Session.Orphans

namespace ResponsesGateway

open SessionRecorder

namespace Stores

variable (recorder : SessionRecorder)

def recordAll (s : Stores) (calls : List (RecordEnv × RecordCall)) : Stores :=
  s.run recorder (calls.map fun p => .record p.1 p.2)

def AllInserted (s : Stores) (calls : List (RecordEnv × RecordCall)) : Prop :=
  ∀ pre env c post, calls = pre ++ (env, c) :: post → Representable (env.now + recorder.ttl) →
    (recorder.record (s.recordAll recorder pre).store (s.recordAll recorder pre).cold env c).2.2 = .ok ()

def KeysDiffer (calls : List (RecordEnv × RecordCall)) : Prop :=
  calls.Pairwise (fun p q => ∀ key, p.1.put = .ok key → q.1.put ≠ .ok key)

/-- `await cold.get(key)` returns the payload. -/
def Gets (s : Stores) (key : String) (payload : JsonDict) : Prop :=
  ∃ objects, s.cold = some objects ∧ objects.get key = .ok payload

section Step

variable {recorder} {s : Stores} {env : RecordEnv} {c : RecordCall} {key : String} {payload : JsonDict}
  {calls later : List (RecordEnv × RecordCall)}

theorem recordAll_append : s.recordAll recorder (calls ++ later) =
    (s.recordAll recorder calls).recordAll recorder later := by
  simp only [recordAll, run, List.map_append, List.foldl_append]

theorem recordAll_concat : s.recordAll recorder (calls ++ [(env, c)]) =
    (s.recordAll recorder calls).after recorder (.record env c) := recordAll_append

theorem recordAll_cons : s.recordAll recorder ((env, c) :: later) =
    (s.after recorder (.record env c)).recordAll recorder later := rfl

theorem after_inserted (hflag : c.storeFlag.truthy = true)
    (hok : (recorder.record s.store s.cold env c).2.2 = .ok ()) :
    (s.after recorder (.record env c)).store.rows = s.store.rows ++ [(recorder.prepare s.cold env c).1] ∧
      (s.after recorder (.record env c)).cold = (recorder.prepare s.cold env c).2 := by
  obtain ⟨outcome,hrecord⟩ := @after_record recorder s env c
  rw [hrecord] at hok
  rcases record_cases hrecord with ⟨-,-,⟨hfalse,-⟩ | ⟨-,herror⟩⟩ | ⟨-,hcold,⟨-,exn,herror⟩ | ⟨hrows,-⟩⟩
  · rw [hflag] at hfalse
    cases hfalse
  · cases herror.symm.trans hok
  · cases herror.symm.trans hok
  · exact ⟨hrows,hcold⟩

theorem after_overflow (hflag : c.storeFlag.truthy = true) (h : ¬ Representable (env.now + recorder.ttl)) :
    s.after recorder (.record env c) = s := by
  rw [after, record_of_overflow hflag h]

theorem gets_after (hput : env.put ≠ .ok key) (h : s.Gets key payload) :
    (s.after recorder (.record env c)).Gets key payload := by
  obtain ⟨objects,hcold,hget⟩ := h
  obtain ⟨outcome,hrecord⟩ := @after_record recorder s env c
  rcases record_cases hrecord with ⟨-,hsame,-⟩ | ⟨-,hafter,-⟩
  · exact ⟨objects,hsame.trans hcold,hget⟩
  · rcases prepare_cases recorder s.cold env c with he | ⟨objects',drawn,hsome,-,hdrawn,he⟩
    · exact ⟨objects,by rw [hafter, he]; exact hcold,hget⟩
    · obtain rfl := Option.some.inj (hcold.symm.trans hsome)
      have hne : key ≠ drawn := by
        rintro rfl
        exact hput hdrawn
      exact ⟨objects.put drawn c.coldPayload,by rw [hafter, he],by rwa [ColdStorage.get_put_ne _ _ hne]⟩

theorem gets_recordAll (hputs : ∀ p ∈ later, p.1.put ≠ .ok key) (h : s.Gets key payload) :
    (s.recordAll recorder later).Gets key payload := by
  induction later generalizing s with
  | nil => exact h
  | cons p later ih =>
    obtain ⟨env,c⟩ := p
    obtain ⟨hput,hputs⟩ := List.forall_mem_cons.mp hputs
    rw [recordAll_cons]
    exact ih hputs (gets_after hput h)

theorem cold_isSome_after : (s.after recorder (.record env c)).cold.isSome = s.cold.isSome := by
  obtain ⟨outcome,hrecord⟩ := @after_record recorder s env c
  rcases record_cases hrecord with ⟨-,hsame,-⟩ | ⟨-,hafter,-⟩
  · rw [hsame]
  · rcases prepare_cases recorder s.cold env c with he | ⟨objects,drawn,hsome,-,-,he⟩
    · rw [hafter, he]
    · rw [hafter, he, hsome]
      rfl

theorem cold_isSome_recordAll : (s.recordAll recorder later).cold.isSome = s.cold.isSome := by
  induction later generalizing s with
  | nil => rfl
  | cons p later ih => exact ih.trans cold_isSome_after

theorem mem_rows_recordAll {row : SessionRecord} (h : row ∈ s.store.rows) :
    row ∈ (s.recordAll recorder later).store.rows := by
  induction later generalizing s with
  | nil => exact h
  | cons p later ih =>
    obtain ⟨env,c⟩ := p
    refine ih ?_
    obtain ⟨outcome,hrecord⟩ := @after_record recorder s env c
    rcases record_cases hrecord with ⟨hstore,-⟩ | ⟨-,-,⟨hstore,-⟩ | ⟨hrows,-⟩⟩
    · rwa [hstore]
    · rwa [hstore]
    · rw [hrows]
      exact List.mem_append_left _ h

end Step

end Stores

structure HoldsInline (row : SessionRecord) (c : RecordCall) : Prop where
  coldStorageKey : row.coldStorageKey = none
  inputJson : row.inputJson = some c.originalRequest
  outputJson : row.outputJson = some c.responsePayload

structure HoldsCold (row : SessionRecord) (c : RecordCall) (key : String) : Prop where
  coldStorageKey : row.coldStorageKey = some key
  inputJson : row.inputJson = none
  outputJson : row.outputJson = none

structure Columns (recorder : SessionRecorder) (env : RecordEnv) (c : RecordCall) (row : SessionRecord) :
    Prop where
  id : row.id = c.responseId
  parentId : row.parentId = c.parentId
  provider : row.provider = c.provider
  model : row.model = c.model
  createdAt : row.createdAt = env.now
  ttlAt : row.ttlAt = some (row.createdAt + recorder.ttl)

section Prepare

variable (recorder : SessionRecorder) (cold : Option ColdStorage) (env : RecordEnv) (c : RecordCall)

theorem columns_prepare : Columns recorder env c (recorder.prepare cold env c).1 := by
  rcases prepare_cases recorder cold env c with he | ⟨_,_,_,_,_,he⟩ <;>
  · rw [he]; exact ⟨rfl,rfl,rfl,rfl,rfl,rfl⟩

theorem prepare_forms :
    HoldsInline (recorder.prepare cold env c).1 c ∨
      ∃ key objects, cold.isSome = true ∧ recorder.threshold < c.size ∧ env.put = .ok key ∧
        HoldsCold (recorder.prepare cold env c).1 c key ∧
        (recorder.prepare cold env c).2 = some objects ∧ objects.get key = .ok c.coldPayload := by
  rcases prepare_cases recorder cold env c with he | ⟨objects,key,rfl,hsize,hput,he⟩
  · rw [he]
    exact .inl ⟨rfl,rfl,rfl⟩
  · rw [he]
    exact .inr ⟨key,_,rfl,hsize,hput,⟨rfl,rfl,rfl⟩,rfl,ColdStorage.get_put_self _ _ _⟩

end Prepare

theorem rows_self_contained {recorder : SessionRecorder} {s : Stores} {calls : List (RecordEnv × RecordCall)}
    (hflags : ∀ p ∈ calls, p.2.storeFlag.truthy = true) (hinserted : s.AllInserted recorder calls)
    (hkeys : Stores.KeysDiffer calls) {pre : List (RecordEnv × RecordCall)} {env : RecordEnv} {c : RecordCall}
    {post : List (RecordEnv × RecordCall)} (hcall : calls = pre ++ (env, c) :: post) :
    (Representable (env.now + recorder.ttl) →
      ∃ row, (s.recordAll recorder (pre ++ [(env, c)])).store.rows =
          (s.recordAll recorder pre).store.rows ++ [row] ∧
        Columns recorder env c row ∧
        (∀ later, later <+: post → row ∈ (s.recordAll recorder (pre ++ (env, c) :: later)).store.rows) ∧
        (HoldsInline row c ∨
          ∃ key, s.cold.isSome = true ∧ recorder.threshold < c.size ∧ env.put = .ok key ∧
            HoldsCold row c key ∧
            ∀ later, later <+: post → (s.recordAll recorder (pre ++ (env, c) :: later)).Gets key
              (.ofEntries [("input", .obj c.originalRequest), ("output", .obj c.responsePayload)]))) ∧
    (¬ Representable (env.now + recorder.ttl) →
      (recorder.record (s.recordAll recorder pre).store (s.recordAll recorder pre).cold env c).2.2 =
          .error (.python .overflowError) ∧
        s.recordAll recorder (pre ++ [(env, c)]) = s.recordAll recorder pre) := by
  have hmem : (env, c) ∈ calls := by rw [hcall]; simp
  constructor
  · intro hlast
    obtain ⟨hrows,hcold⟩ := Stores.after_inserted (hflags _ hmem) (hinserted pre env c post hcall hlast)
    have hsplit (later : List (RecordEnv × RecordCall)) : s.recordAll recorder (pre ++ (env, c) :: later) =
        ((s.recordAll recorder pre).after recorder (.record env c)).recordAll recorder later :=
      Stores.recordAll_append
    refine ⟨(recorder.prepare (s.recordAll recorder pre).cold env c).1,?_,columns_prepare _ _ _ _,?_,?_⟩
    · rw [Stores.recordAll_concat]
      exact hrows
    · intro later _
      rw [hsplit]
      refine Stores.mem_rows_recordAll ?_
      rw [hrows]
      exact List.mem_append_right _ (List.mem_singleton_self _)
    · refine (prepare_forms recorder (s.recordAll recorder pre).cold env c).imp_right ?_
      rintro ⟨key,objects,hsome,hsize,hput,hholds,hobjects,hget⟩
      rw [Stores.cold_isSome_recordAll] at hsome
      refine ⟨key,hsome,hsize,hput,hholds,fun later hlater => ?_⟩
      rw [hsplit]
      refine Stores.gets_recordAll (fun q hq => ?_) ⟨objects,hcold.trans hobjects,hget⟩
      rw [hcall, Stores.KeysDiffer, List.pairwise_append, List.pairwise_cons] at hkeys
      exact hkeys.2.1.1 q (hlater.subset hq) key hput
  · intro hover
    rw [Stores.recordAll_concat, record_of_overflow (hflags _ hmem) hover]
    exact ⟨rfl,Stores.after_overflow (hflags _ hmem) hover⟩

namespace Stores

/-- The first turn is offloaded; the `put` of the second fails, so it stays inline. -/
def turns : List (RecordEnv × RecordCall) :=
  [(⟨0, "session", .ok "key", none⟩, greeting),
    (⟨1, "session", .error (.gateway (.coldStorageUnavailable "S3 put failed")), none⟩,
      { greeting with responseId := "resp_2", parentId := some "resp_1" })]

theorem turns_inserted : bare.AllInserted ⟨0, 0⟩ turns := by
  intro pre env c post h _
  rcases pre with _ | ⟨p,_ | ⟨q,pre⟩⟩
  · cases h; rfl
  · cases h; rfl
  · simp [turns] at h

/-- Ten million days, from the first day of 2026. -/
def endless : SessionRecorder := ⟨864000000000000000, 0⟩

def newYear : RecordEnv := ⟨1767225600000000, "session", .ok "key", none⟩

end Stores

theorem rows_self_contained_turns :
    (Representable (Stores.turns[0].1.now + 0) →
      ∃ row, (Stores.bare.recordAll ⟨0, 0⟩ ([] ++ [Stores.turns[0]])).store.rows =
          (Stores.bare.recordAll ⟨0, 0⟩ []).store.rows ++ [row] ∧
        Columns ⟨0, 0⟩ Stores.turns[0].1 greeting row ∧
        (∀ later, later <+: [Stores.turns[1]] →
          row ∈ (Stores.bare.recordAll ⟨0, 0⟩ ([] ++ Stores.turns[0] :: later)).store.rows) ∧
        (HoldsInline row greeting ∨
          ∃ key, Stores.bare.cold.isSome = true ∧ 0 < greeting.size ∧ Stores.turns[0].1.put = .ok key ∧
            HoldsCold row greeting key ∧
            ∀ later, later <+: [Stores.turns[1]] →
              (Stores.bare.recordAll ⟨0, 0⟩ ([] ++ Stores.turns[0] :: later)).Gets key (.ofEntries
                [("input", .obj greeting.originalRequest), ("output", .obj greeting.responsePayload)]))) ∧
    (¬ Representable (Stores.turns[0].1.now + 0) →
      (SessionRecorder.record ⟨0, 0⟩ (Stores.bare.recordAll ⟨0, 0⟩ []).store
          (Stores.bare.recordAll ⟨0, 0⟩ []).cold Stores.turns[0].1 greeting).2.2 =
          .error (.python .overflowError) ∧
        Stores.bare.recordAll ⟨0, 0⟩ ([] ++ [Stores.turns[0]]) = Stores.bare.recordAll ⟨0, 0⟩ []) :=
  rows_self_contained (by decide) Stores.turns_inserted (by simp [Stores.KeysDiffer, Stores.turns]) rfl

theorem endless_ttl_inserts_nothing :
    Stores.bare.AllInserted Stores.endless [(Stores.newYear, greeting)] ∧
    ¬ ∃ row, (Stores.bare.recordAll Stores.endless [(Stores.newYear, greeting)]).store.rows =
      Stores.bare.store.rows ++ [row] := by
  have hover : ¬ Representable (Stores.newYear.now + Stores.endless.ttl) := by decide
  constructor
  · intro pre env c post h hlast
    rcases pre with _ | ⟨p,pre⟩
    · cases h
      exact absurd hlast hover
    · simp at h
  · rintro ⟨row,hrow⟩
    have hflag : greeting.storeFlag.truthy = true := by decide
    rw [Stores.recordAll_cons, Stores.after_overflow hflag hover] at hrow
    simp [Stores.recordAll, Stores.run] at hrow

end ResponsesGateway
