import ResponsesGateway.Session.Recorder
import ResponsesGateway.Session.Resolver
import ResponsesGateway.Storage.Backends

namespace ResponsesGateway

variable {σ : Type}

namespace SessionResolver

/-- `_payload` over a backend, which is asked where the row has a key. -/
def payloadOver (backend? : Option (Backend σ)) (s : σ) (row : SessionRecord) (field : String) :
    Py JsonDict × σ :=
  match coldKey? row, backend? with
  | some key, some backend =>
      let (full, s) := backend.get s key
      (do
        let full ← full
        let full ← liftPy full.methods
        return .ofEntries [(field, full.getD field (.list []))], s)
  | _, _ => (payload none row field, s)

/-- `_reconstruct_messages` between two of its reads: the rows to come, the input of the first of them if
it has been read, and the messages so far. -/
structure Reconstruction where
  chain : List SessionRecord
  input? : Option JsonDict
  messages : List Json

namespace Reconstruction

def start (chain : List SessionRecord) : Reconstruction := ⟨chain, none, []⟩

def step (backend? : Option (Backend σ)) (s : σ) (w : Reconstruction) : Py Reconstruction × σ :=
  match w.chain, w.input? with
  | [], _ => (.ok w, s)
  | row :: _, none =>
      let (input, s) := payloadOver backend? s row "input"
      (input.map (fun input => { w with input? := some input }), s)
  | row :: chain, some input =>
      let (output, s) := payloadOver backend? s row "output"
      (do
        let output ← output
        let items ← liftPy (output.getD "output" (.list [])).iter
        return ⟨chain, none, w.messages ++
          (extractNonSystemInput (input.getD "input" (.list [])) ++ items.flatMap outputMessage)⟩, s)

def result (cold : Option ColdStorage) (w : Reconstruction) : Py (List Json) :=
  match w.chain, w.input? with
  | [], _ => .ok w.messages
  | row :: chain, input? => do
      let input ← input?.elim (payload cold row "input") .ok
      let output ← payload cold row "output"
      let items ← liftPy (output.getD "output" (.list [])).iter
      let rest ← reconstructMessages cold chain
      return w.messages ++
        (extractNonSystemInput (input.getD "input" (.list [])) ++ items.flatMap outputMessage ++ rest)

end Reconstruction

section Reading

variable {b : Backend σ} {remote : Bool} {R : ColdStorage → List String → σ → Prop} {cold : ColdStorage}
  {used : List String} {s : σ} {row : SessionRecord} {w w' : Reconstruction} {backend? : Option (Backend σ)}

theorem coldKey?_eq_some {key : String} (h : coldKey? row = some key) : row.coldStorageKey = some key :=
  (Option.filter_eq_some_iff.mp h).1

theorem payload_of_no_key (h : coldKey? row = none) (cold : Option ColdStorage) (field : String) :
    payload cold row field = payload none row field := by
  simp only [payload, h]

theorem payloadOver_spec (h : b.Refines remote R) (hR : R cold used s)
    (hrow : ∀ key, row.coldStorageKey = some key → key ∈ cold.objects.keys) (field : String) :
    R cold used (payloadOver (some b) s row field).2 ∧
      ((payloadOver (some b) s row field).1 = payload (some cold) row field ∨
        ∃ exn, (payloadOver (some b) s row field).1 = .error exn) := by
  cases hk : coldKey? row with
  | none => simp [payloadOver, hk, hR, payload_of_no_key hk (some cold) field]
  | some key =>
    obtain ⟨ha,hR'⟩ := h.get cold used s key hR
    simp only [payloadOver, hk]
    refine ⟨hR',?_⟩
    generalize (b.get s key).1 = answer at ha
    cases ha with
    | get =>
      left
      simp only [payload, hk]
      cases cold.get key with
      | error exn => rfl
      | ok full => simp [Except.map, Json.methods, bind, Except.bind, liftPy]
    | unreachableGet => exact .inr ⟨_,rfl⟩
    | stranger _ hstranger => exact absurd (hrow key (coldKey?_eq_some hk)) hstranger

namespace Reconstruction

theorem result_start (cold : Option ColdStorage) (chain : List SessionRecord) :
    (start chain).result cold = reconstructMessages cold chain := by
  cases chain with
  | nil => rfl
  | cons row chain =>
    simp only [start, result, reconstructMessages, rowMessages, Option.elim_none, List.nil_append, bind_assoc,
      pure_bind]

theorem result_of_done {cold : Option ColdStorage} (h : w.chain = []) : w.result cold = .ok w.messages := by
  simp only [result, h]

theorem step_result {cold : Option ColdStorage}
    (hp : ∀ row ∈ w.chain, ∀ field, (payloadOver backend? s row field).1 = payload cold row field ∨
      ∃ exn, (payloadOver backend? s row field).1 = .error exn)
    (hw : (w.step backend? s).1 = .ok w') : w'.result cold = w.result cold ∧ w'.chain ⊆ w.chain := by
  obtain ⟨chain,input?,messages⟩ := w
  cases chain with
  | nil => cases hw; exact ⟨rfl,fun _ => id⟩
  | cons row chain =>
    have hrow := hp row List.mem_cons_self
    cases input? with
    | none =>
      simp only [step] at hw
      rcases hrow "input" with ha | ⟨exn,ha⟩
      · rw [ha] at hw
        cases hi : payload cold row "input" with
        | error exn => rw [hi] at hw; cases hw
        | ok input =>
          rw [hi] at hw
          cases hw
          exact ⟨by simp only [result, Option.elim_none, Option.elim_some, hi],fun _ => id⟩
      · rw [ha] at hw; cases hw
    | some input =>
      simp only [step] at hw
      rcases hrow "output" with ha | ⟨exn,ha⟩
      · rw [ha] at hw
        obtain ⟨output,ho,hw⟩ := Except.bind_eq_ok_iff.mp hw
        obtain ⟨items,hi,hw⟩ := Except.bind_eq_ok_iff.mp hw
        cases hw
        refine ⟨?_,List.subset_cons_self _ _⟩
        cases chain with
        | nil => simp [result, ho, hi, reconstructMessages, bind, Except.bind, pure, Except.pure]
        | cons next chain =>
          have hok {α β : Type} (x : α) (f : α → Py β) : (Except.ok x >>= f) = f x := rfl
          simp only [result, ho, hi, hok, reconstructMessages, rowMessages, Option.elim_none, Option.elim_some,
            bind_assoc, pure_bind, List.append_assoc]
      · rw [ha] at hw; cases hw

theorem step_keeps {P : σ → Prop} (h : P s)
    (hp : ∀ row ∈ w.chain, ∀ field, P (payloadOver backend? s row field).2) : P (w.step backend? s).2 := by
  obtain ⟨chain,input?,messages⟩ := w
  cases chain with
  | nil => exact h
  | cons row chain =>
    have hrow := hp row List.mem_cons_self
    cases input? with
    | none => exact hrow "input"
    | some input => exact hrow "output"

end Reconstruction

end Reading

end SessionResolver

namespace SessionRecorder

variable (recorder : SessionRecorder)

/-- The row to insert, over a backend. `uuid` is what its `put` draws. -/
def prepareOver (backend? : Option (Backend σ)) (s : σ) (now : Time) (newSessionId uuid : String)
    (c : RecordCall) : SessionRecord × σ :=
  let row := recorder.inlineRow ⟨now, newSessionId, .ok uuid, none⟩ c
  match backend? with
  | none => (row, s)
  | some backend =>
      if recorder.threshold < c.size then
        match backend.put s uuid c.coldPayload with
        | (.ok key, s) => (offloadedRow row key, s)
        | (.error _, s) => (row, s)
      else (row, s)

variable {b : Backend σ} {remote : Bool} {R : ColdStorage → List String → σ → Prop}
  {cold : ColdStorage} {used : List String} {s : σ} {uuid : String} {c : RecordCall}

theorem prepareOver_spec (h : b.Refines remote R) (hR : R cold used s) (hu : uuid ∉ used)
    (hc : (ColdOp.put uuid c.coldPayload).Storable) (now : Time) (newSessionId : String) :
    ∃ put cold', (∀ key, put = .ok key → key ≠ "" ∧ key ∉ cold.objects.keys) ∧
      recorder.prepare (some cold) ⟨now, newSessionId, put, none⟩ c =
        ((recorder.prepareOver (some b) s now newSessionId uuid c).1, some cold') ∧
      R cold' (uuid :: used) (recorder.prepareOver (some b) s now newSessionId uuid c).2 := by
  by_cases hsize : recorder.threshold < c.size
  · obtain ⟨cold',ha,hR'⟩ := h.put cold used s uuid c.coldPayload hR hu hc
    simp only [prepareOver, prepare, if_pos hsize]
    generalize b.put s uuid c.coldPayload = r at ha hR'
    obtain ⟨answer,s'⟩ := r
    cases ha with
    | put hne hfresh => exact ⟨.ok _,_,fun key hk => Except.ok.inj hk ▸ ⟨hne,hfresh⟩,rfl,hR'⟩
    | @unreachablePut _ _ exn _ _ =>
      refine ⟨.error exn,_,fun key hk => ?_,rfl,hR'⟩
      cases hk
  · simp only [prepareOver, prepare, if_neg hsize]
    refine ⟨.error (.python .typeError),cold,fun key hk => ?_,rfl,h.drawn cold used s uuid hR⟩
    cases hk

end SessionRecorder

end ResponsesGateway
