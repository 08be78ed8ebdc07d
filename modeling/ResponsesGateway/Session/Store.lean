import ResponsesGateway.Python.Json
import Mathlib.Data.List.Sort

namespace ResponsesGateway

/-- Microseconds since the epoch, UTC. -/
abbrev Time := ℤ

/-- A datetime goes from the start of year 1 to the end of year 9999. -/
def Representable (t : Time) : Prop := -62135596800000000 ≤ t ∧ t < 253402300800000000

instance (t : Time) : Decidable (Representable t) := inferInstanceAs (Decidable (_ ∧ _))

structure SessionRecord where
  id : String
  sessionId : String
  parentId : Option String
  model : Json
  provider : String
  inputJson : Option JsonDict
  outputJson : Option JsonDict
  usageJson : Json
  coldStorageKey : Option String
  createdAt : Time
  ttlAt : Option Time

namespace SessionRecord

/-- `ttl_at < t`, false where there is no `ttl_at`. -/
def expired (row : SessionRecord) (t : Time) : Bool := row.ttlAt.any (· < t)

/-- The parent the walk goes to: `while cur` stops at an empty id too. -/
def parent (row : SessionRecord) : Option String := row.parentId.filter (· ≠ "")

end SessionRecord

structure SessionStore where
  rows : List SessionRecord
  primaryKey : (rows.map SessionRecord.id).Nodup

namespace SessionStore

variable (store : SessionStore)

def empty : SessionStore := ⟨[], List.nodup_nil⟩

def getById (id : String) : Option SessionRecord := store.rows.find? (fun r => r.id = id)

def insert (record : SessionRecord) : Except PyError SessionStore :=
  if h : record.id ∈ store.rows.map SessionRecord.id then .error .databaseError
  else .ok ⟨store.rows ++ [record], by
    rw [List.map_append, List.nodup_append]
    exact ⟨store.primaryKey, by simp, fun a ha b hb hab => h (by simp_all)⟩⟩

/-- `as_of` is an instant in UTC. (Of an aware datetime SQLite drops the offset.) -/
def deleteExpired (asOf : Time) : SessionStore :=
  ⟨store.rows.filter (fun r => !r.expired asOf),
    store.primaryKey.sublist (List.filter_sublist.map _)⟩

/-- `ORDER BY created_at`, rows of one instant in the order of the table. -/
def listBySessionId (sessionId : String) : List SessionRecord :=
  (store.rows.filter (fun r => r.sessionId = sessionId)).mergeSort (fun r r' => r.createdAt ≤ r'.createdAt)

structure Lists (sessionId : String) (listing : List SessionRecord) : Prop where
  perm : listing.Perm (store.rows.filter (fun r => r.sessionId = sessionId))
  sorted : listing.Pairwise (fun r r' => r.createdAt ≤ r'.createdAt)

theorem lists_listBySessionId (sessionId : String) : store.Lists sessionId (store.listBySessionId sessionId) where
  perm := List.mergeSort_perm _ _
  sorted := by
    have htrans : ∀ q r r' : SessionRecord, decide (q.createdAt ≤ r.createdAt) = true →
        decide (r.createdAt ≤ r'.createdAt) = true → decide (q.createdAt ≤ r'.createdAt) = true := by
      intro q r r' h h'
      simp only [decide_eq_true_eq] at h h' ⊢
      exact h.trans h'
    have htotal : ∀ r r' : SessionRecord,
        (decide (r.createdAt ≤ r'.createdAt) || decide (r'.createdAt ≤ r.createdAt)) = true := by
      intro r r'
      simpa using le_total r.createdAt r'.createdAt
    exact (List.pairwise_mergeSort htrans htotal _).imp (fun h => by simpa using h)

variable {store} {row : SessionRecord} {id : String}

theorem id_of_getById (h : store.getById id = some row) : row.id = id := by
  simpa using List.find?_some h

theorem mem_of_getById (h : store.getById id = some row) : row ∈ store.rows :=
  List.mem_of_find?_eq_some h

theorem getById_of_mem (h : row ∈ store.rows) : store.getById row.id = some row :=
  List.find?_key_of_mem store.primaryKey h

theorem getById_eq_some_iff : store.getById id = some row ↔ row ∈ store.rows ∧ row.id = id :=
  ⟨fun h => ⟨mem_of_getById h,id_of_getById h⟩, fun h => h.2 ▸ getById_of_mem h.1⟩

theorem getById_eq_none_iff : store.getById id = none ↔ id ∉ store.rows.map SessionRecord.id := by
  simp [getById, List.find?_eq_none]

theorem insert_eq_ok_iff {store' : SessionStore} :
    store.insert row = .ok store' ↔
      row.id ∉ store.rows.map SessionRecord.id ∧ store'.rows = store.rows ++ [row] := by
  unfold insert
  split
  · simp_all
  · rename_i h
    constructor
    · intro he; cases he; exact ⟨h,rfl⟩
    · rintro ⟨-,he⟩
      cases store'
      simp only [Except.ok.injEq, SessionStore.mk.injEq]
      exact he.symm

theorem mem_deleteExpired {t : Time} :
    row ∈ (store.deleteExpired t).rows ↔ row ∈ store.rows ∧ row.expired t = false := by
  simp [deleteExpired]

theorem getById_deleteExpired (t : Time) (id : String) :
    (store.deleteExpired t).getById id = (store.getById id).filter (fun r => !r.expired t) := by
  cases h : store.getById id with
  | none =>
    have hn : id ∉ (store.deleteExpired t).rows.map SessionRecord.id := fun hm => by
      obtain ⟨r,hr,rfl⟩ := List.mem_map.mp hm
      exact getById_eq_none_iff.mp h (List.mem_map.mpr ⟨r,(mem_deleteExpired.mp hr).1,rfl⟩)
    simpa using getById_eq_none_iff.mpr hn
  | some row =>
    obtain ⟨hm,hid⟩ := getById_eq_some_iff.mp h
    cases he : row.expired t with
    | false =>
      have hg := getById_eq_some_iff.mpr ⟨mem_deleteExpired.mpr ⟨hm,he⟩,hid⟩
      rw [hg, Option.filter_some_pos]
      simp [he]
    | true =>
      have hn : id ∉ (store.deleteExpired t).rows.map SessionRecord.id := fun hi => by
        obtain ⟨r,hr,hrid⟩ := List.mem_map.mp hi
        obtain ⟨hrm,hre⟩ := mem_deleteExpired.mp hr
        have hrr : r = row := by
          have := getById_eq_some_iff.mpr ⟨hrm,hrid⟩
          exact Option.some.inj (this.symm.trans h)
        simp [hrr, he] at hre
      rw [getById_eq_none_iff.mpr hn, Option.filter_some_neg]
      simp [he]

end SessionStore

end ResponsesGateway
