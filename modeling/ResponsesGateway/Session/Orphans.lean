import ResponsesGateway.Foundation.Split
import ResponsesGateway.Session.Offload

namespace ResponsesGateway

open SessionRecorder

inductive SessionCall where
  | record (env : RecordEnv) (c : RecordCall)
  | deleteExpired (asOf : Time)

structure Stores where
  store : SessionStore
  cold : Option ColdStorage

namespace Stores

variable (recorder : SessionRecorder)

def after (s : Stores) : SessionCall → Stores
  | .record env c =>
      let (store, cold, _) := recorder.record s.store s.cold env c
      ⟨store, cold⟩
  | .deleteExpired asOf => ⟨s.store.deleteExpired asOf, s.cold⟩

def run (s : Stores) (calls : List SessionCall) : Stores := calls.foldl (after recorder) s

def Holds (s : Stores) (key : String) : Prop := ∃ storage, s.cold = some storage ∧ key ∈ storage.objects.keys

def References (s : Stores) (key : String) : Prop := ∃ row ∈ s.store.rows, row.coldStorageKey = some key

def NoOrphans (s : Stores) : Prop := ∀ key, s.Holds key → s.References key

/-- A call leaves the object under `key` without a row: its own insert fails after the `put`, or the
row goes because it has expired. -/
def Strands (s : Stores) (key : String) : SessionCall → Prop
  | .record env c => Representable (env.now + recorder.ttl) ∧ env.put = .ok key ∧ recorder.threshold < c.size ∧
      ∃ store cold exn, recorder.record s.store s.cold env c = (store, cold, .error exn)
  | .deleteExpired asOf => ∃ row ∈ s.store.rows, row.coldStorageKey = some key ∧ row.expired asOf = true

end Stores

section Record

variable {recorder : SessionRecorder} {store store' : SessionStore} {cold cold' : Option ColdStorage}
  {env : RecordEnv} {c : RecordCall} {exn : Exn} {outcome : Py Unit}

theorem record_cases (h : recorder.record store cold env c = (store', cold', outcome)) :
    (store' = store ∧ cold' = cold ∧ ((c.storeFlag.truthy = false ∧ outcome = .ok ()) ∨
      (¬ Representable (env.now + recorder.ttl) ∧ outcome = .error (.python .overflowError)))) ∨
    (Representable (env.now + recorder.ttl) ∧ cold' = (recorder.prepare cold env c).2 ∧
      ((store' = store ∧ ∃ exn, outcome = .error exn) ∨
        store'.rows = store.rows ++ [(recorder.prepare cold env c).1] ∧ outcome = .ok ())) := by
  by_cases hflag : c.storeFlag.truthy = true
  · by_cases ht : Representable (env.now + recorder.ttl)
    · rw [record_of_datetime hflag ht] at h
      refine .inr ⟨ht,?_⟩
      generalize recorder.prepare cold env c = p at h ⊢
      obtain ⟨row,cold₁⟩ := p
      dsimp only at h
      cases hi : insertRow store env.insertError row with
      | error exn =>
        rw [hi] at h; cases h
        exact ⟨rfl,.inl ⟨rfl,exn,rfl⟩⟩
      | ok inserted =>
        rw [hi] at h; cases h
        refine ⟨rfl,.inr ⟨?_,rfl⟩⟩
        unfold insertRow at hi
        split at hi
        · cases hi
        · cases hins : store.insert row with
          | error x => rw [hins] at hi; cases hi
          | ok s =>
            rw [hins] at hi; cases hi
            exact (SessionStore.insert_eq_ok_iff.mp hins).2
    · rw [record_of_overflow hflag ht] at h
      cases h
      exact .inl ⟨rfl,rfl,.inr ⟨ht,rfl⟩⟩
  · rw [record, if_neg hflag] at h
    cases h
    exact .inl ⟨rfl,rfl,.inl ⟨by simpa using hflag,rfl⟩⟩

theorem record_raised (h : recorder.record store cold env c = (store', cold', .error exn)) :
    store' = store ∧ (cold' = cold ∨ ∃ storage key, cold = some storage ∧ env.put = .ok key ∧
      cold' = some (storage.put key c.coldPayload)) := by
  rcases record_cases h with ⟨hstore,hcold,-⟩ | ⟨-,hcold,⟨hstore,-⟩ | ⟨-,ho⟩⟩
  · exact ⟨hstore,.inl hcold⟩
  · refine ⟨hstore,?_⟩
    rcases prepare_cases recorder cold env c with he | ⟨storage,key,hsome,-,hput,he⟩
    · exact .inl (by rw [hcold, he])
    · exact .inr ⟨storage,key,hsome,hput,by rw [hcold, he]⟩
  · cases ho

end Record

namespace Stores

variable {recorder : SessionRecorder} {s : Stores} {call : SessionCall} {key : String}

theorem run_concat (calls : List SessionCall) :
    run recorder s (calls ++ [call]) = (run recorder s calls).after recorder call := by
  simp only [run, List.foldl_append, List.foldl_cons, List.foldl_nil]

theorem after_record (s : Stores) (env : RecordEnv) (c : RecordCall) :
    ∃ outcome, recorder.record s.store s.cold env c =
      ((s.after recorder (.record env c)).store, (s.after recorder (.record env c)).cold, outcome) :=
  ⟨_,rfl⟩

theorem holds_after (h : s.Holds key) : (s.after recorder call).Holds key := by
  obtain ⟨storage,hs,hkey⟩ := h
  cases call with
  | deleteExpired asOf => exact ⟨storage,hs,hkey⟩
  | record env c =>
    obtain ⟨outcome,hrecord⟩ := @after_record recorder s env c
    rcases record_cases hrecord with ⟨-,hcold,-⟩ | ⟨-,hcold,-⟩
    · exact ⟨storage,hcold.trans hs,hkey⟩
    · rcases prepare_cases recorder s.cold env c with he | ⟨storage',k,hsome,-,-,he⟩
      · exact ⟨storage,by rw [hcold, he]; exact hs,hkey⟩
      · obtain rfl := Option.some.inj (hs.symm.trans hsome)
        refine ⟨storage.put k c.coldPayload,by rw [hcold, he],?_⟩
        rw [ColdStorage.put, Dict.mem_keys_set]
        exact .inr hkey

theorem holds_run (calls : List SessionCall) (h : s.Holds key) : (run recorder s calls).Holds key := by
  induction calls using List.reverseRecOn with
  | nil => exact h
  | append_singleton calls call ih =>
    rw [run_concat]
    exact holds_after ih

theorem references_after (h : s.References key) :
    (s.after recorder call).References key ∨ Strands recorder s key call := by
  obtain ⟨row,hrow,hkey⟩ := h
  cases call with
  | deleteExpired asOf =>
    cases he : row.expired asOf with
    | true => exact .inr ⟨row,hrow,hkey,he⟩
    | false => exact .inl ⟨row,SessionStore.mem_deleteExpired.mpr ⟨hrow,he⟩,hkey⟩
  | record env c =>
    obtain ⟨outcome,hrecord⟩ := @after_record recorder s env c
    refine .inl ⟨row,?_,hkey⟩
    rcases record_cases hrecord with ⟨hstore,-⟩ | ⟨-,-,⟨hstore,-⟩ | ⟨hrows,-⟩⟩
    · rwa [hstore]
    · rwa [hstore]
    · rw [hrows]
      exact List.mem_append_left _ hrow

theorem new_after (h : (s.after recorder call).Holds key) :
    s.Holds key ∨ (s.after recorder call).References key ∨ Strands recorder s key call := by
  cases call with
  | deleteExpired asOf => exact .inl h
  | record env c =>
    obtain ⟨storage,hs,hkey⟩ := h
    obtain ⟨outcome,hrecord⟩ := @after_record recorder s env c
    rcases record_cases hrecord with ⟨-,hcold,-⟩ | ⟨hlast,hcold,hout⟩
    · exact .inl ⟨storage,hcold.symm.trans hs,hkey⟩
    · rcases prepare_cases recorder s.cold env c with he | ⟨storage',k,hsome,hsize,hput,he⟩
      · exact .inl ⟨storage,by rw [← hs, hcold, he],hkey⟩
      · rw [hcold, he, Option.some.injEq] at hs
        rw [← hs, ColdStorage.put, Dict.mem_keys_set] at hkey
        rcases hkey with rfl | hold
        -- The object was put before the insert, which nothing rolls back with it.
        · rcases hout with ⟨-,exn,hexn⟩ | ⟨hrows,-⟩
          · exact .inr (.inr ⟨hlast,hput,hsize,_,_,exn,hexn ▸ hrecord⟩)
          · refine .inr (.inl ⟨(recorder.prepare s.cold env c).1,?_,by rw [he]; rfl⟩)
            rw [hrows]
            exact List.mem_append_right _ (List.mem_singleton_self _)
        · exact .inl ⟨storage',hsome,hold⟩

theorem holds_accounted (h₀ : s.NoOrphans) (calls : List SessionCall)
    (h : (run recorder s calls).Holds key) :
    (run recorder s calls).References key ∨ ∃ pre call post, calls = pre ++ call :: post ∧
      Strands recorder (run recorder s pre) key call := by
  induction calls using List.reverseRecOn with
  | nil => exact .inl (h₀ key h)
  | append_singleton calls call ih =>
    rw [run_concat] at h ⊢
    rw [@List.exists_split_concat _ (fun pre call => Strands recorder (run recorder s pre) key call)]
    rcases new_after h with hold | href | hstrands
    · rcases ih hold with href | hstranded
      · exact (references_after href).imp_right .inr
      · exact .inr (.inl hstranded)
    · exact .inl href
    · exact .inr (.inr hstrands)

end Stores

theorem cold_objects_accounted {recorder : SessionRecorder} {s : Stores} (h₀ : s.NoOrphans)
    (calls : List SessionCall) :
    (∀ key, (s.run recorder calls).Holds key → (s.run recorder calls).References key ∨
      ∃ pre call post, calls = pre ++ call :: post ∧ (s.run recorder pre).Strands recorder key call) ∧
    (∀ key more, (s.run recorder calls).Holds key → (s.run recorder (calls ++ more)).Holds key) ∧
    ∀ env c store cold exn, recorder.record (s.run recorder calls).store (s.run recorder calls).cold env c =
        (store, cold, .error exn) →
      store = (s.run recorder calls).store ∧
        (cold = (s.run recorder calls).cold ∨ ∃ storage key, (s.run recorder calls).cold = some storage ∧
          env.put = .ok key ∧ cold = some (storage.put key c.coldPayload)) := by
  refine ⟨fun key h => Stores.holds_accounted h₀ calls h,?_,fun _ _ _ _ _ h => record_raised h⟩
  intro key more h
  rw [Stores.run, List.foldl_append]
  exact Stores.holds_run more h

namespace Stores

def bare : Stores := ⟨.empty, some .empty⟩

theorem bare_noOrphans : bare.NoOrphans := by
  rintro key ⟨storage,hs,hkey⟩
  cases hs
  cases hkey

def failing : List SessionCall :=
  [.record ⟨0, "session", .ok "key", some (.python .databaseError)⟩ greeting]

def lapsing : List SessionCall :=
  [.record ⟨0, "session", .ok "key", none⟩ greeting, .deleteExpired 1]

end Stores

theorem cold_objects_accounted_lapsing :
    (∀ key, (Stores.bare.run ⟨0, 0⟩ Stores.lapsing).Holds key →
      (Stores.bare.run ⟨0, 0⟩ Stores.lapsing).References key ∨
        ∃ pre call post, Stores.lapsing = pre ++ call :: post ∧
          (Stores.bare.run ⟨0, 0⟩ pre).Strands ⟨0, 0⟩ key call) ∧
    (∀ key more, (Stores.bare.run ⟨0, 0⟩ Stores.lapsing).Holds key →
      (Stores.bare.run ⟨0, 0⟩ (Stores.lapsing ++ more)).Holds key) ∧
    ∀ env c store cold exn, SessionRecorder.record ⟨0, 0⟩ (Stores.bare.run ⟨0, 0⟩ Stores.lapsing).store
        (Stores.bare.run ⟨0, 0⟩ Stores.lapsing).cold env c = (store, cold, .error exn) →
      store = (Stores.bare.run ⟨0, 0⟩ Stores.lapsing).store ∧
        (cold = (Stores.bare.run ⟨0, 0⟩ Stores.lapsing).cold ∨
          ∃ storage key, (Stores.bare.run ⟨0, 0⟩ Stores.lapsing).cold = some storage ∧
            env.put = .ok key ∧ cold = some (storage.put key c.coldPayload)) :=
  cold_objects_accounted Stores.bare_noOrphans Stores.lapsing

theorem orphans_left : ¬ (Stores.bare.run ⟨0, 0⟩ Stores.failing).NoOrphans ∧
    ¬ (Stores.bare.run ⟨0, 0⟩ Stores.lapsing).NoOrphans := by
  constructor <;> intro h
  · obtain ⟨row,hrow,-⟩ := h "key" ⟨_,rfl,List.mem_singleton.mpr rfl⟩
    cases hrow
  · obtain ⟨row,hrow,-⟩ := h "key" ⟨_,rfl,List.mem_singleton.mpr rfl⟩
    cases hrow

end ResponsesGateway
