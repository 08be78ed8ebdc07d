import ResponsesGateway.Python.Accepted
import ResponsesGateway.Storage.Cold

namespace ResponsesGateway

def encodePayload (payload : JsonDict) : ByteArray := (Json.dumps (.obj payload)).toUTF8

/-- `put` draws its key; `uuid` is what `uuid4().hex` gives it. -/
structure Backend (σ : Type) where
  put : σ → String → JsonDict → Py String × σ
  get : σ → String → Py Json × σ

structure InMemoryColdStorage where
  data : Dict String ByteArray

namespace InMemoryColdStorage

def init : InMemoryColdStorage := ⟨.empty⟩

def put (storage : InMemoryColdStorage) (uuid : String) (payload : JsonDict) : Py String × InMemoryColdStorage :=
  (.ok uuid, ⟨storage.data.set uuid (encodePayload payload)⟩)

def get (storage : InMemoryColdStorage) (key : String) : Py Json × InMemoryColdStorage :=
  match storage.data.get? key with
  | none => (.error (.gateway (.coldStorageUnavailable ("cold storage key not found: " ++ key))), storage)
  | some body => (liftPy (Json.loadsBytes body), storage)

end InMemoryColdStorage

/-- The client of `aioboto3`: its calls give their result or the text of an exception. -/
structure S3Client (σ : Type) where
  putObject : σ → String → String → ByteArray → Except String Unit × σ
  getObject : σ → String → String → Except String ByteArray × σ

/-- What S3 promises: a write that succeeded is seen by every later read, and nothing else changes an
object. Any call may fail, and a write that failed may have been made or not. -/
structure S3Client.Consistent {σ : Type} (client : S3Client σ)
    (stored : σ → String → String → Option ByteArray) : Prop where
  put_ok : ∀ s bucket key body, (client.putObject s bucket key body).1 = .ok () →
    stored (client.putObject s bucket key body).2 bucket key = some body
  put_other : ∀ s bucket key body bucket' key', (bucket', key') ≠ (bucket, key) →
    stored (client.putObject s bucket key body).2 bucket' key' = stored s bucket' key'
  get_ok : ∀ s bucket key body, (client.getObject s bucket key).1 = .ok body →
    stored s bucket key = some body
  get_same : ∀ s bucket key, stored (client.getObject s bucket key).2 = stored s

structure S3ColdStorage where
  bucket : String
  keyPrefix : String
  deriving DecidableEq

namespace S3ColdStorage

/-- `s3://bucket-name/optional-prefix`. -/
def init (bucketUrl : String) : Except PyError S3ColdStorage :=
  match bucketUrl.toList.dropPrefix? "s3://".toList with
  | none => .error .valueError
  | some rest =>
      let path := (rest.dropWhile (· ≠ '/')).drop 1
      let stripped := (path.reverse.dropWhile (· = '/')).reverse
      .ok ⟨String.ofList (rest.takeWhile (· ≠ '/')), if path = [] then "" else String.ofList stripped ++ "/"⟩

variable {σ : Type} (client : S3Client σ) (storage : S3ColdStorage)

def objectKey (uuid : String) : String := storage.keyPrefix ++ uuid ++ ".json"

def put (s : σ) (uuid : String) (payload : JsonDict) : Py String × σ :=
  match client.putObject s storage.bucket (storage.objectKey uuid) (encodePayload payload) with
  | (.ok (), s) => (.ok (storage.objectKey uuid), s)
  | (.error exc, s) => (.error (.gateway (.coldStorageUnavailable ("S3 put failed: " ++ exc))), s)

/-- `say` is the text of the exception that `json.loads` raises. -/
def get (say : PyError → String) (s : σ) (key : String) : Py Json × σ :=
  match client.getObject s storage.bucket key with
  | (.ok body, s) =>
      match Json.loadsBytes body with
      | .ok payload => (.ok payload, s)
      | .error x => (.error (.gateway (.coldStorageUnavailable ("S3 get failed: " ++ say x))), s)
  | (.error exc, s) => (.error (.gateway (.coldStorageUnavailable ("S3 get failed: " ++ exc))), s)

end S3ColdStorage

inductive ColdBackend where
  | inmem
  | s3 (storage : S3ColdStorage)
  deriving DecidableEq

def buildColdStorage (enabled : Bool) (backend : String) (bucketUrl : Option String) :
    Except PyError (Option ColdBackend) :=
  if enabled = false then .ok none
  else if backend = "inmem" then .ok (some .inmem)
  else if backend = "s3" then
    match bucketUrl with
    | none => .error .valueError
    | some url => if url = "" then .error .valueError else (S3ColdStorage.init url).map (fun s => some (.s3 s))
  else .error .valueError

example : S3ColdStorage.init "s3://my-bucket/a/b/c/" = .ok ⟨"my-bucket", "a/b/c/"⟩ := by decide

namespace ColdBackend

def remote : ColdBackend → Bool
  | inmem => false
  | s3 _ => true

variable {σ : Type} (client : S3Client σ) (say : PyError → String)

def backend : ColdBackend → Backend (InMemoryColdStorage × σ)
  | inmem =>
      { put := fun (memory, s) uuid payload => ((memory.put uuid payload).1, (memory.put uuid payload).2, s)
        get := fun (memory, s) key => ((memory.get key).1, (memory.get key).2, s) }
  | s3 storage =>
      { put := fun (memory, s) uuid payload =>
          ((storage.put client s uuid payload).1, memory, (storage.put client s uuid payload).2)
        get := fun (memory, s) key =>
          ((storage.get client say s key).1, memory, (storage.get client say s key).2) }

end ColdBackend

inductive ColdOp where
  | put (uuid : String) (payload : JsonDict)
  | get (key : String)

inductive ColdAnswer where
  | put (answer : Py String)
  | get (answer : Py Json)

def Backend.run {σ : Type} (b : Backend σ) : σ → List ColdOp → List ColdAnswer
  | _, [] => []
  | s, .put uuid payload :: ops => .put (b.put s uuid payload).1 :: b.run (b.put s uuid payload).2 ops
  | s, .get key :: ops => .get (b.get s key).1 :: b.run (b.get s key).2 ops

def Unavailable : Exn → Prop
  | .gateway (.coldStorageUnavailable _) => True
  | _ => False

/-- What cold storage may answer, and what it holds then. A remote one may be out of reach, and it is
asked for no other keys than it gave. -/
inductive Admits (remote : Bool) (cold : ColdStorage) : ColdOp → ColdAnswer → ColdStorage → Prop
  | put {uuid payload key} : key ≠ "" → key ∉ cold.objects.keys →
      Admits remote cold (.put uuid payload) (.put (.ok key)) (cold.put key payload)
  | get {key} : Admits remote cold (.get key) (.get ((cold.get key).map Json.obj)) cold
  | unreachablePut {uuid payload exn} : remote = true → Unavailable exn →
      Admits remote cold (.put uuid payload) (.put (.error exn)) cold
  | unreachableGet {key exn} : remote = true → Unavailable exn →
      Admits remote cold (.get key) (.get (.error exn)) cold
  | stranger {key answer} : remote = true → key ∉ cold.objects.keys →
      Admits remote cold (.get key) (.get answer) cold

inductive Answers (remote : Bool) : ColdStorage → List ColdOp → List ColdAnswer → Prop
  | nil {cold} : Answers remote cold [] []
  | cons {cold op answer cold' ops answers} : Admits remote cold op answer cold' →
      Answers remote cold' ops answers → Answers remote cold (op :: ops) (answer :: answers)

def ColdOp.uuid? : ColdOp → Option String
  | put uuid _ => some uuid
  | get _ => none

def ColdOp.Storable : ColdOp → Prop
  | put uuid payload => uuid ≠ "" ∧ (Json.obj payload).Loadable
  | get _ => True

structure Backend.Refines {σ : Type} (b : Backend σ) (remote : Bool)
    (R : ColdStorage → List String → σ → Prop) : Prop where
  put : ∀ cold used s uuid payload, R cold used s → uuid ∉ used → (ColdOp.put uuid payload).Storable →
    ∃ cold', Admits remote cold (.put uuid payload) (.put (b.put s uuid payload).1) cold' ∧
      R cold' (uuid :: used) (b.put s uuid payload).2
  get : ∀ cold used s key, R cold used s →
    Admits remote cold (.get key) (.get (b.get s key).1) cold ∧ R cold used (b.get s key).2
  drawn : ∀ cold used s uuid, R cold used s → R cold (uuid :: used) s

theorem Backend.Refines.answers {σ : Type} {b : Backend σ} {remote : Bool}
    {R : ColdStorage → List String → σ → Prop} (h : b.Refines remote R) {ops : List ColdOp}
    {cold : ColdStorage} {used : List String} {s : σ} (hR : R cold used s)
    (hops : ∀ op ∈ ops, op.Storable) (hn : (ops.filterMap ColdOp.uuid?).Nodup)
    (hu : ∀ uuid ∈ ops.filterMap ColdOp.uuid?, uuid ∉ used) :
    Answers remote cold ops (b.run s ops) := by
  induction ops generalizing cold used s with
  | nil => exact .nil
  | cons op ops ih =>
    have hlater : ∀ op ∈ ops, op.Storable := fun op hop => hops op (List.mem_cons_of_mem _ hop)
    cases op with
    | put uuid payload =>
      simp only [List.filterMap_cons,ColdOp.uuid?,List.nodup_cons,List.mem_cons,forall_eq_or_imp] at hn hu
      obtain ⟨cold',ha,hR'⟩ := h.put cold used s uuid payload hR hu.1 (hops _ List.mem_cons_self)
      refine .cons ha (ih hR' hlater hn.2 ?_)
      intro u hmem hused
      rcases List.mem_cons.mp hused with rfl | hold
      · exact hn.1 hmem
      · exact hu.2 u hmem hold
    | get key =>
      obtain ⟨ha,hR'⟩ := h.get cold used s key hR
      exact .cons ha (ih hR' hlater hn hu)

def Kept (cold : ColdStorage) (used : List String) (keyOf : String → String)
    (stored : String → Option ByteArray) : Prop :=
  ∀ key payload, cold.objects.get? key = some payload →
    stored key = some (encodePayload payload) ∧ (Json.obj payload).Loadable ∧ ∃ uuid ∈ used, keyOf uuid = key

namespace Kept

variable {cold : ColdStorage} {used : List String} {keyOf : String → String}
  {stored stored' : String → Option ByteArray} {uuid : String} {payload : JsonDict}

theorem loadsBytes_eq {key : String} {body : ByteArray} (h : Kept cold used keyOf stored)
    (hk : cold.objects.get? key = some payload) (hs : stored key = some body) :
    Json.loadsBytes body = .ok (.obj payload) := by
  obtain ⟨hbody,hload,-⟩ := h key payload hk
  rw [hbody] at hs
  cases hs
  exact Json.loadsBytes_dumps hload

theorem fresh (h : Kept cold used keyOf stored) (hinj : Function.Injective keyOf) (hu : uuid ∉ used) :
    keyOf uuid ∉ cold.objects.keys := by
  rw [Dict.mem_keys_iff, Option.isSome_iff_exists]
  rintro ⟨payload,hk⟩
  obtain ⟨-,-,u,hmem,he⟩ := h _ payload hk
  exact hu (hinj he ▸ hmem)

theorem put (h : Kept cold used keyOf stored) (hload : (Json.obj payload).Loadable)
    (hself : stored' (keyOf uuid) = some (encodePayload payload))
    (hother : ∀ key, key ≠ keyOf uuid → stored' key = stored key) :
    Kept (cold.put (keyOf uuid) payload) (uuid :: used) keyOf stored' := by
  intro key p hp
  simp only [ColdStorage.put,Dict.get?_set] at hp
  by_cases hk : key = keyOf uuid
  · rw [if_pos hk] at hp
    cases hp
    exact ⟨hk ▸ hself,hload,uuid,List.mem_cons_self,hk.symm⟩
  · rw [if_neg hk] at hp
    obtain ⟨hs,hl,u,hmem,he⟩ := h key p hp
    exact ⟨(hother key hk).trans hs,hl,u,List.mem_cons_of_mem _ hmem,he⟩

theorem drawn (h : Kept cold used keyOf stored) (uuid : String) : Kept cold (uuid :: used) keyOf stored := by
  intro key p hp
  obtain ⟨hs,hl,u,hmem,he⟩ := h key p hp
  exact ⟨hs,hl,u,List.mem_cons_of_mem _ hmem,he⟩

theorem attempted (h : Kept cold used keyOf stored) (hinj : Function.Injective keyOf) (hu : uuid ∉ used)
    (hother : ∀ key, key ≠ keyOf uuid → stored' key = stored key) :
    Kept cold (uuid :: used) keyOf stored' := by
  intro key p hp
  obtain ⟨hs,hl,hdrawn⟩ := h.drawn uuid key p hp
  obtain ⟨-,-,u,hmem,he⟩ := h key p hp
  have hne : key ≠ keyOf uuid := fun hk => hu (hinj (he.trans hk) ▸ hmem)
  exact ⟨(hother key hne).trans hs,hl,hdrawn⟩

end Kept

section

variable {σ : Type} {client : S3Client σ} {say : PyError → String}
  {stored : σ → String → String → Option ByteArray}

theorem inmem_refines : (ColdBackend.inmem.backend client say).Refines false
    (fun cold used s => Kept cold used id s.1.data.get? ∧
      ∀ key, cold.objects.get? key = none → s.1.data.get? key = none) := by
  constructor
  · rintro cold used ⟨memory,s⟩ uuid payload ⟨hheld,hnone⟩ hu ⟨hne,hload⟩
    refine ⟨cold.put uuid payload,.put hne (hheld.fresh Function.injective_id hu),?_,?_⟩
    · refine hheld.put hload ?_ ?_
      · simp [ColdBackend.backend, InMemoryColdStorage.put]
      · intro key hk
        simp only [id_eq] at hk
        simp [ColdBackend.backend,InMemoryColdStorage.put,hk]
    · intro key hk
      simp only [ColdStorage.put,Dict.get?_set] at hk
      simp only [ColdBackend.backend,InMemoryColdStorage.put,Dict.get?_set]
      split at hk
      · cases hk
      · next hne => rw [if_neg hne]; exact hnone key hk
  · rintro cold used ⟨memory,s⟩ key ⟨hheld,hnone⟩
    have hget : memory.get key = ((cold.get key).map Json.obj,memory) := by
      unfold InMemoryColdStorage.get ColdStorage.get
      cases hc : cold.objects.get? key with
      | none => simp only [hnone key hc]; rfl
      | some payload =>
        have hs : memory.data.get? key = some (encodePayload payload) := (hheld key payload hc).1
        simp only [hs,hheld.loadsBytes_eq hc hs]; rfl
    simp only [ColdBackend.backend,hget]
    exact ⟨.get,hheld,hnone⟩
  · exact fun cold used s uuid h => ⟨h.1.drawn uuid,h.2⟩

theorem objectKey_injective (storage : S3ColdStorage) : Function.Injective storage.objectKey := by
  intro u v h
  have hlist : (storage.objectKey u).toList = (storage.objectKey v).toList := congrArg String.toList h
  simp only [S3ColdStorage.objectKey,String.toList_append] at hlist
  have hmid := List.append_cancel_right hlist
  exact String.toList_inj.mp (List.append_cancel_left hmid)

theorem objectKey_ne_empty (storage : S3ColdStorage) (uuid : String) : storage.objectKey uuid ≠ "" := by
  intro h
  have hlist := congrArg String.toList h
  simp [S3ColdStorage.objectKey] at hlist

theorem s3_refines (hc : client.Consistent stored) (storage : S3ColdStorage) :
    ((ColdBackend.s3 storage).backend client say).Refines true
      (fun cold used s => Kept cold used storage.objectKey (stored s.2 storage.bucket)) := by
  constructor
  · rintro cold used ⟨memory,s⟩ uuid payload hheld hu ⟨-,hload⟩
    have hinj := objectKey_injective storage
    have hok := hc.put_ok s storage.bucket (storage.objectKey uuid) (encodePayload payload)
    have hother : ∀ key, key ≠ storage.objectKey uuid →
        stored (client.putObject s storage.bucket (storage.objectKey uuid) (encodePayload payload)).2
          storage.bucket key = stored s storage.bucket key :=
      fun key hk => hc.put_other _ _ _ _ _ _ (by simpa using hk)
    simp only [ColdBackend.backend,S3ColdStorage.put]
    generalize client.putObject s storage.bucket (storage.objectKey uuid) (encodePayload payload) = r at hok hother
    obtain ⟨answer,s'⟩ := r
    cases answer with
    | ok _ =>
      exact ⟨_,.put (objectKey_ne_empty storage uuid) (hheld.fresh hinj hu),hheld.put hload (hok rfl) hother⟩
    | error exc => exact ⟨cold,.unreachablePut rfl trivial,hheld.attempted hinj hu hother⟩
  · rintro cold used ⟨memory,s⟩ key hheld
    have hok := hc.get_ok s storage.bucket key
    have hsame := hc.get_same s storage.bucket key
    simp only [ColdBackend.backend,S3ColdStorage.get]
    generalize client.getObject s storage.bucket key = r at hok hsame
    obtain ⟨answer,s'⟩ := r
    have hheld' : Kept cold used storage.objectKey (stored s' storage.bucket) := by
      rw [show stored s' = stored s from hsame]; exact hheld
    cases answer with
    | error exc => exact ⟨.unreachableGet rfl trivial,hheld'⟩
    | ok body =>
      by_cases hk : key ∈ cold.objects.keys
      · obtain ⟨payload,hp⟩ := Option.isSome_iff_exists.mp ((Dict.mem_keys_iff _ _).mp hk)
        have hread := hheld.loadsBytes_eq hp (hok body rfl)
        have hget : cold.get key = .ok payload := by simp [ColdStorage.get,hp]
        have hanswer : Admits true cold (.get key) (.get ((cold.get key).map Json.obj)) cold := .get
        simp only [hread]
        rw [hget] at hanswer
        exact ⟨hanswer,hheld'⟩
      · cases hl : Json.loadsBytes body with
        | ok payload => simp only [hl]; exact ⟨.stranger rfl hk,hheld'⟩
        | error x => simp only [hl]; exact ⟨.stranger rfl hk,hheld'⟩
  · exact fun cold used s uuid h => h.drawn uuid

end

theorem buildColdStorage_some {enabled : Bool} {name : String} {url : Option String} {c : ColdBackend}
    (h : buildColdStorage enabled name url = .ok (some c)) : enabled = true ∧ c.remote = (name == "s3") := by
  unfold buildColdStorage at h
  split at h
  · cases h
  · next he =>
    refine ⟨by simpa using he,?_⟩
    split at h
    · next hn => cases h; subst hn; rfl
    · split at h
      · next hn =>
        subst hn
        cases url with
        | none => cases h
        | some url =>
          dsimp only at h
          split at h
          · cases h
          · cases hs : S3ColdStorage.init url with
            | error x => rw [hs] at h; cases h
            | ok storage => rw [hs] at h; cases h; rfl
      · cases h

theorem buildColdStorage_none {enabled : Bool} {name : String} {url : Option String}
    (h : buildColdStorage enabled name url = .ok none) : enabled = false := by
  unfold buildColdStorage at h
  split at h
  · assumption
  · split at h
    · cases h
    · split at h
      · cases url with
        | none => cases h
        | some url =>
          dsimp only at h
          split at h
          · cases h
          · cases hs : S3ColdStorage.init url with
            | error x => rw [hs] at h; cases h
            | ok storage => rw [hs] at h; cases h
      · cases h

theorem built_backend_answers {σ : Type} {client : S3Client σ} {stored : σ → String → String → Option ByteArray}
    {enabled : Bool} {name : String} {url : Option String} {c : ColdBackend} (say : PyError → String)
    (hb : buildColdStorage enabled name url = .ok (some c)) (hc : client.Consistent stored)
    {ops : List ColdOp} (hops : ∀ op ∈ ops, op.Storable) (hn : (ops.filterMap ColdOp.uuid?).Nodup) (s : σ) :
    Answers (name == "s3") .empty ops ((c.backend client say).run (.init, s) ops) := by
  have hempty : ∀ keyOf stored, Kept .empty [] keyOf stored := by
    intro keyOf stored key payload h
    simp [ColdStorage.empty] at h
  rw [← (buildColdStorage_some hb).2]
  cases c with
  | inmem =>
    exact inmem_refines.answers ⟨hempty _ _,fun _ _ => rfl⟩ hops hn (fun _ _ => List.not_mem_nil)
  | s3 storage => exact (s3_refines hc storage).answers (hempty _ _) hops hn (fun _ _ => List.not_mem_nil)

def smallBucket : S3Client (Dict (String × String) ByteArray) where
  putObject s bucket key body :=
    if s.entries.length < 5 then (.ok (), s.set (bucket, key) body) else (.error "quota exceeded", s)
  getObject s bucket key :=
    match s.get? (bucket, key) with
    | some body => (.ok body, s)
    | none => (.error "NoSuchKey", s)

theorem smallBucket_consistent : smallBucket.Consistent (fun s bucket key => s.get? (bucket, key)) := by
  constructor
  · intro s bucket key body h
    simp only [smallBucket] at h ⊢
    split at h
    · next hlt => simp [hlt]
    · cases h
  · intro s bucket key body bucket' key' h
    simp only [smallBucket]
    split
    · simp [h]
    · rfl
  · intro s bucket key body h
    simp only [smallBucket] at h
    split at h
    · next hs => cases h; exact hs
    · cases h
  · intro s bucket key
    simp only [smallBucket]
    split <;> rfl

def offloadedTurn : JsonDict := .ofEntries [("input", .dict [("input", .str "hi")]), ("output", .dict [])]

theorem built_backend_answers_s3 :
    Answers true .empty [.put "u1" offloadedTurn, .get "turns/u1.json", .get "turns/u2.json"]
      (((ColdBackend.s3 ⟨"gateway", "turns/"⟩).backend smallBucket (fun _ => "")).run (.init, .empty)
        [.put "u1" offloadedTurn, .get "turns/u1.json", .get "turns/u2.json"]) := by
  have hb : buildColdStorage true "s3" (some "s3://gateway/turns") = .ok (some (.s3 ⟨"gateway", "turns/"⟩)) := by
    decide
  refine built_backend_answers (fun _ => "") hb smallBucket_consistent ?_ (by decide) .empty
  intro op hop
  simp only [List.mem_cons,List.not_mem_nil,or_false] at hop
  obtain rfl | rfl | rfl := hop
  · exact ⟨by decide,Json.loadable_ofEntries (by simp [Json.Loadable,Json.LoadableFields])⟩
  · trivial
  · trivial

end ResponsesGateway
