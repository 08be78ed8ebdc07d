import ResponsesGateway.Foundation.Climb
import ResponsesGateway.Session.Resolver

namespace ResponsesGateway

namespace SessionResolver

abbrev ParentPath (store : SessionStore) (startId : String) (chain : List SessionRecord) : Prop :=
  ParentChain store.getById SessionRecord.parent SessionRecord.id startId chain

def lookups (store : SessionStore) (startId : String) : List String :=
  ((walkStep store)^[store.rows.length + 1] (Walk.start startId)).visited.reverse

section Chain

variable (store : SessionStore) (startId : String)

theorem walk_climb :
    Climb store.getById SessionRecord.parent [] (some startId) (lookups store startId)
        (walkParentChain store startId).reverse ∧
      (lookups store startId).length ≤ store.rows.length + 1 := by
  have hdone := walk_done store startId (Nat.lt_add_one store.rows.length)
  obtain ⟨ids,rows,hclimb,hle⟩ := Walk.exists_climb hdone
  obtain ⟨rest,hrest⟩ := Nat.exists_eq_add_of_le' hle
  have hend : (walkStep store)^[store.rows.length + 1] (Walk.start startId) =
      (walkStep store)^[ids.length] (Walk.start startId) := by
    rw [hrest, Function.iterate_add_apply]
    refine Walk.iterate_of_done ?_ rest
    have hnext := Walk.next?_climb hclimb [] ids.length
    rwa [List.getElem?_eq_none (Nat.le_refl _)] at hnext
  obtain ⟨hchain,hvisited⟩ := Walk.climbed hclimb []
  have hids : lookups store startId = ids := by
    rw [lookups, hend]
    exact (congrArg List.reverse hvisited).trans (by simp [Walk.start])
  have hrows : (walkParentChain store startId).reverse = rows := by
    rw [walkParentChain, hend, List.reverse_reverse]
    exact hchain
  rw [hids, hrows]
  exact ⟨hclimb,hle⟩

variable {store startId}

theorem id_of_getById (k : String) (row : SessionRecord) (h : store.getById k = some row) : row.id = k :=
  SessionStore.id_of_getById h

theorem parentPath_iff {chain : List SessionRecord} :
    ParentPath store startId chain ↔ chain = walkParentChain store startId := by
  obtain ⟨hclimb,-⟩ := walk_climb store startId
  constructor
  · intro h
    obtain ⟨ids,hpath⟩ := Climb.of_parentChain id_of_getById h
    exact List.reverse_injective (hpath.unique hclimb).2
  · rintro rfl
    simpa using hclimb.parentChain id_of_getById

theorem walkParentChain_local {store' : SessionStore}
    (h : ∀ id ∈ lookups store startId, store'.getById id = store.getById id) :
    walkParentChain store' startId = walkParentChain store startId := by
  have hclimb := (walk_climb store startId).1.congr h
  exact List.reverse_injective ((walk_climb store' startId).1.unique hclimb).2

theorem getById_congr {store' : SessionStore} {id : String}
    (h : ∀ row : SessionRecord, row.id = id → (row ∈ store'.rows ↔ row ∈ store.rows)) :
    store'.getById id = store.getById id := by
  ext row
  rw [SessionStore.getById_eq_some_iff, SessionStore.getById_eq_some_iff]
  exact and_congr_left (h row)

theorem lookups_ne_empty (hid : startId ≠ "") : "" ∉ lookups store startId := by
  intro hm
  refine (walk_climb store startId).1.forall_keys (P := (· ≠ "")) ?_ ?_ "" hm rfl
  · rintro k ⟨⟩
    exact hid
  · intro row p hp
    simpa using (Option.filter_eq_some_iff.mp hp).2

end Chain

theorem walkParentChain_exact (store : SessionStore) {startId : String} (hid : startId ≠ "") :
    ((lookups store startId).length ≤ store.rows.length + 1 ∧ "" ∉ lookups store startId ∧
      ∀ m, ((walkStep store)^[m] (Walk.start startId)).next? = (lookups store startId)[m]?) ∧
    (∀ chain, ParentPath store startId chain ↔ chain = walkParentChain store startId) ∧
    (∀ store' : SessionStore, (∀ id ∈ lookups store startId, store'.getById id = store.getById id) →
      walkParentChain store' startId = walkParentChain store startId) ∧
    ∀ store' : SessionStore, (∀ row : SessionRecord, row.id ∈ lookups store startId →
        (row ∈ store'.rows ↔ row ∈ store.rows)) →
      walkParentChain store' startId = walkParentChain store startId := by
  obtain ⟨hclimb,hle⟩ := walk_climb store startId
  refine ⟨⟨hle,lookups_ne_empty hid,Walk.next?_climb hclimb []⟩,fun chain => parentPath_iff,
    fun store' h => walkParentChain_local h,fun store' h => ?_⟩
  refine walkParentChain_local fun id hm => getById_congr fun row hrow => h row (hrow ▸ hm)

namespace Cycle

def row (id : String) (parentId : Option String) : SessionRecord :=
  ⟨id, id, parentId, .str "glm", "openai", none, none, .null, none, 0, none⟩

/-- `c` hangs below a cycle of `a` and `b`, and `d` below nothing that is stored. -/
def store : SessionStore :=
  ⟨[row "a" (some "b"), row "b" (some "a"), row "c" (some "a"), row "d" (some "e")], by decide⟩

end Cycle

example : walkParentChain Cycle.store "c" =
    [Cycle.row "b" (some "a"), Cycle.row "a" (some "b"), Cycle.row "c" (some "a")] := rfl

example : lookups Cycle.store "d" = ["d", "e"] := rfl

theorem walkParentChain_exact_cycle :
    ((lookups Cycle.store "c").length ≤ Cycle.store.rows.length + 1 ∧ "" ∉ lookups Cycle.store "c" ∧
      ∀ m, ((walkStep Cycle.store)^[m] (Walk.start "c")).next? = (lookups Cycle.store "c")[m]?) ∧
    (∀ chain, ParentPath Cycle.store "c" chain ↔ chain = walkParentChain Cycle.store "c") ∧
    (∀ store' : SessionStore, (∀ id ∈ lookups Cycle.store "c", store'.getById id = Cycle.store.getById id) →
      walkParentChain store' "c" = walkParentChain Cycle.store "c") ∧
    ∀ store' : SessionStore, (∀ row : SessionRecord, row.id ∈ lookups Cycle.store "c" →
        (row ∈ store'.rows ↔ row ∈ Cycle.store.rows)) →
      walkParentChain store' "c" = walkParentChain Cycle.store "c" :=
  walkParentChain_exact Cycle.store (by decide)

end SessionResolver

end ResponsesGateway
