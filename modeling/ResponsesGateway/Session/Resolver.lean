import ResponsesGateway.Foundation.Lineage
import ResponsesGateway.Python.Value
import ResponsesGateway.Session.Store
import ResponsesGateway.Storage.Cold

namespace ResponsesGateway

structure ResolvedRequest where
  request : JsonDict
  sessionId : Option String
  parentId : Option String

def ResolvedRequest.value (resolved : ResolvedRequest) : Json × Option String × Option String :=
  ((Json.obj resolved.request).value, resolved.sessionId, resolved.parentId)

namespace SessionResolver

def checkParent (now : Time) (prevId : String) (currentProvider : String) :
    Option SessionRecord → Py SessionRecord
  | none => .error (.gateway (.previousResponseNotFound (.str prevId)))
  | some parent =>
      if parent.expired now then .error (.gateway (.previousResponseExpired (.str prevId)))
      else if parent.provider ≠ currentProvider then
        .error (.gateway (.previousResponseProviderMismatch parent.provider currentProvider))
      else .ok parent

abbrev ChainWalk := Walk String SessionRecord

def walkStep (store : SessionStore) (w : ChainWalk) : ChainWalk :=
  w.step store.getById SessionRecord.parent

/-- The walk on a table that does not change meanwhile, oldest row first. -/
def walkParentChain (store : SessionStore) (startId : String) : List SessionRecord :=
  ((walkStep store)^[store.rows.length + 1] (Walk.start startId)).chain.reverse

def normalizeCurrentInput : Json → List Json
  | .str s => [.dict [("role", .str "user"), ("content", .str s)]]
  | .list xs => xs
  | .dict fs => [.dict fs]
  | _ => []

def isSystem (item : Json) : Bool := item.asDict.any (fun d => d.get "role" == .str "system")

def extractNonSystemInput (items : Json) : List Json :=
  (normalizeCurrentInput items).filter (fun item => !isSystem item)

def outputMessage (item : Json) : List Json :=
  match item.asDict with
  | none => []
  | some d =>
      if d.get "type" = .str "message" then
        [.dict [("role", .str "assistant"), ("content", d.getD "content" (.list []))]]
      else if d.get "type" = .str "function_call" then [item]
      else []

/-- `row.input_json or default`, likewise for the output. -/
def orDefault (j : Option JsonDict) (field : String) : JsonDict :=
  match j with
  | some d => if d.entries = [] then .ofEntries [(field, .list [])] else d
  | none => .ofEntries [(field, .list [])]

def coldKey? (row : SessionRecord) : Option String := row.coldStorageKey.filter (· ≠ "")

def payload (cold : Option ColdStorage) (row : SessionRecord) (field : String) : Py JsonDict :=
  match coldKey? row with
  | some key =>
      match cold with
      | none => .error (.gateway (.coldStorageUnavailable
          ("row " ++ row.id ++ " has cold_storage_key but cold storage is not configured")))
      | some objects => do
          let full ← objects.get key
          return .ofEntries [(field, full.getD field (.list []))]
  | none => .ok (orDefault (if field = "input" then row.inputJson else row.outputJson) field)

def rowMessages (cold : Option ColdStorage) (row : SessionRecord) : Py (List Json) := do
  let input ← payload cold row "input"
  let output ← payload cold row "output"
  let items ← liftPy (output.getD "output" (.list [])).iter
  return extractNonSystemInput (input.getD "input" (.list [])) ++ items.flatMap outputMessage

def reconstructMessages (cold : Option ColdStorage) : List SessionRecord → Py (List Json)
  | [] => .ok []
  | row :: chain => do
      let messages ← rowMessages cold row
      let rest ← reconstructMessages cold chain
      return messages ++ rest

def rewrite (request : JsonDict) (history : List Json) : JsonDict :=
  (request.set "input"
    (.list (history ++ normalizeCurrentInput (request.getD "input" (.list []))))).erase
      "previous_response_id"

def passThrough (request : JsonDict) : ResolvedRequest := ⟨request, none, none⟩

/-- The id a request names, if any. Of the truthy values only a string can pass `resolve`: the others name
no row. (A list or a dict around the id of a row is not put into the visited set, a `TypeError`.) -/
def namedId (request : JsonDict) : Py (Option String) :=
  let prevId := request.get "previous_response_id"
  if !prevId.truthy then .ok none
  else
    match prevId with
    | .str id => .ok (some id)
    | j => .error (.gateway (.previousResponseNotFound j))

/-- `resolve` where no other request gets in between its reads. -/
def resolve (store : SessionStore) (cold : Option ColdStorage) (now : Time) (request : JsonDict)
    (currentProvider : String) : Py ResolvedRequest := do
  match ← namedId request with
  | none => return passThrough request
  | some prevId =>
      let parent ← checkParent now prevId currentProvider (store.getById prevId)
      let history ← reconstructMessages cold (walkParentChain store prevId)
      return ⟨rewrite request history, some parent.sessionId, some prevId⟩

variable {cold cold' : Option ColdStorage} {store store' : SessionStore} {row row' : SessionRecord}

theorem namedId_eq_some {request : JsonDict} {id : String} (h : namedId request = .ok (some id)) :
    request.get "previous_response_id" = .str id ∧ id ≠ "" := by
  unfold namedId at h
  dsimp only at h
  split at h
  · cases h
  · rename_i ht
    cases hp : request.get "previous_response_id" with
    | str s =>
      rw [hp] at h ht
      cases h
      exact ⟨rfl,by simpa [Json.truthy] using ht⟩
    | _ => rw [hp] at h; cases h

theorem checkParent_eq_ok {now : Time} {prevId provider : String} {found : Option SessionRecord}
    (h : checkParent now prevId provider found = .ok row) :
    found = some row ∧ row.expired now = false ∧ row.provider = provider := by
  cases found with
  | none => cases h
  | some parent =>
    unfold checkParent at h
    dsimp only at h
    split at h
    · cases h
    · split at h
      · cases h
      · rename_i he hp
        cases h
        exact ⟨rfl,by simpa using he,by simpa using hp⟩

theorem getD_orDefault (d : JsonDict) (field : String) :
    (orDefault (some d) field).getD field (.list []) = d.getD field (.list []) := by
  simp only [orDefault]
  split
  · rename_i h
    have hd : d = .empty := Dict.ext h
    simp [hd, Dict.getD, Dict.ofEntries, Dict.setAll]
  · rfl

theorem rowMessages_inline {input output : JsonDict} (hk : coldKey? row = none)
    (hi : row.inputJson = some input) (ho : row.outputJson = some output) :
    rowMessages cold row = (do
      let items ← liftPy (output.getD "output" (.list [])).iter
      return extractNonSystemInput (input.getD "input" (.list [])) ++ items.flatMap outputMessage) := by
  have hpi : payload cold row "input" = .ok (orDefault (some input) "input") := by
    simp [payload, hk, hi]
  have hpo : payload cold row "output" = .ok (orDefault (some output) "output") := by
    simp [payload, hk, ho]
  simp only [rowMessages, hpi, hpo, bind, Except.bind, getD_orDefault]

variable {objects : ColdStorage} {key : String}

theorem payload_put (p : JsonDict) (hk : row.coldStorageKey ≠ some key)
    (field : String) :
    payload (some objects) row field = payload (some (objects.put key p)) row field := by
  unfold payload
  cases hc : coldKey? row with
  | none => rfl
  | some k =>
    have hne : k ≠ key := by
      rintro rfl
      exact hk (Option.filter_eq_some_iff.mp hc).1
    simp [ColdStorage.get_put_ne _ _ hne]

theorem rowMessages_put (p : JsonDict) (hk : row.coldStorageKey ≠ some key) :
    rowMessages (some objects) row = rowMessages (some (objects.put key p)) row := by
  unfold rowMessages
  rw [payload_put p hk "input", payload_put p hk "output"]

theorem reconstructMessages_congr {rows rows' : List SessionRecord}
    (h : List.Forall₂ (fun r r' => rowMessages cold r = rowMessages cold' r') rows rows') :
    reconstructMessages cold rows = reconstructMessages cold' rows' := by
  induction h with
  | nil => rfl
  | cons hr _ ih => simp only [reconstructMessages, hr, ih]

def SameMessages (x y : Py (List Json)) : Prop := x.map (List.map Json.value) = y.map (List.map Json.value)

@[simp] theorem sameMessages_ok {xs ys : List Json} :
    SameMessages (.ok xs) (.ok ys) ↔ xs.map Json.value = ys.map Json.value := by
  simp [SameMessages, Except.map]

theorem sameMessages_bind {x y : Py (List Json)} (h : SameMessages x y) {f g : List Json → Py (List Json)}
    (hfg : ∀ xs ys, xs.map Json.value = ys.map Json.value → SameMessages (f xs) (g ys)) :
    SameMessages (x >>= f) (y >>= g) := by
  rcases Except.map_eq_map_iff.mp h with ⟨exn,rfl,rfl⟩ | ⟨xs,ys,rfl,rfl,hxs⟩
  · rfl
  · exact hfg xs ys hxs

theorem sameMessages_reconstruct {rows rows' : List SessionRecord}
    (h : List.Forall₂ (fun r r' => SameMessages (rowMessages cold r) (rowMessages cold' r')) rows rows') :
    SameMessages (reconstructMessages cold rows) (reconstructMessages cold' rows') := by
  induction h with
  | nil => rfl
  | cons hr _ ih =>
    refine sameMessages_bind hr fun xs ys hxs => sameMessages_bind ih fun more more' hmore => ?_
    simp [pure, Except.pure, hxs, hmore]

theorem value_rewrite (request : JsonDict) {history history' : List Json}
    (h : history.map Json.value = history'.map Json.value) :
    (Json.obj (rewrite request history)).value = (Json.obj (rewrite request history')).value := by
  refine Json.value_obj_set ?_ _
  simp [Json.value_list_inj, h]

structure SameTurn (cold cold' : Option ColdStorage) (row row' : SessionRecord) : Prop where
  parentId : row.parentId = row'.parentId
  sessionId : row.sessionId = row'.sessionId
  provider : row.provider = row'.provider
  ttlAt : row.ttlAt = row'.ttlAt
  messages : SameMessages (rowMessages cold row) (rowMessages cold' row')

theorem SameTurn.refl (hm : rowMessages cold row = rowMessages cold' row) :
    SameTurn cold cold' row row := ⟨rfl,rfl,rfl,rfl,congrArg _ hm⟩

theorem walk_done (store : SessionStore) (id : String) {n : ℕ} (hn : store.rows.length < n) :
    ((walkStep store)^[n] (Walk.start id)).next? = none := by
  refine Walk.done_of_card (store.rows.map SessionRecord.id).toFinset ?_ n ?_
  · intro k r hr
    rw [List.mem_toFinset]
    exact List.mem_map.mpr ⟨r,SessionStore.getById_eq_some_iff.mp hr⟩
  · have hle := (Finset.card_filter_le (store.rows.map SessionRecord.id).toFinset
      (fun k => k ∉ (Walk.start id : ChainWalk).visited)).trans (List.toFinset_card_le _)
    rw [List.length_map] at hle
    omega

theorem walkParentChain_eq (store : SessionStore) (id : String) {n : ℕ} (hn : store.rows.length < n) :
    ((walkStep store)^[n] (Walk.start id)).chain.reverse = walkParentChain store id := by
  obtain ⟨k,rfl⟩ := Nat.exists_eq_add_of_le' hn
  have hdone := walk_done store id (Nat.lt_succ_self store.rows.length)
  have hfix : walkStep store ((walkStep store)^[store.rows.length + 1] (Walk.start id)) =
      (walkStep store)^[store.rows.length + 1] (Walk.start id) := Walk.step_of_done hdone
  rw [Function.iterate_add_apply, Function.iterate_fixed hfix k]
  rfl

theorem head_mem_walkParentChain {id : String} (h : store.getById id = some row) :
    row ∈ walkParentChain store id := by
  have hstart : (Walk.start id : ChainWalk).next? = some id := rfl
  rw [walkParentChain, List.mem_reverse, Function.iterate_succ_apply, walkStep, Walk.step_of_found hstart h]
  refine (Walk.chain_prefix_iterate _).subset ?_
  simp [Walk.start]

theorem walkParentChain_deleteExpired {id : String} {t : Time}
    (h : ∀ row ∈ walkParentChain store id, row.expired t = false) :
    walkParentChain (store.deleteExpired t) id = walkParentChain store id := by
  have hlen : (store.deleteExpired t).rows.length < store.rows.length + 1 :=
    Nat.lt_succ_of_le (List.length_filter_le _ _)
  rw [← walkParentChain_eq (store.deleteExpired t) id hlen]
  have hsame : (Walk.step (store.deleteExpired t).getById SessionRecord.parent)^[store.rows.length + 1]
      (Walk.start id) = (Walk.step store.getById SessionRecord.parent)^[store.rows.length + 1]
        (Walk.start id) := by
    refine Walk.iterate_congr ?_ _ ?_
    · intro k hk
      rw [SessionStore.getById_deleteExpired, hk]; rfl
    · intro k row hrow hk
      rw [SessionStore.getById_deleteExpired, hk, Option.filter_some_pos]
      simp [h row (List.mem_reverse.mpr hrow)]
  exact congrArg (fun w => w.chain.reverse) hsame

theorem resolve_deleteExpired {now : Time} {request : JsonDict}
    (h : ∀ prevId, namedId request = .ok (some prevId) →
      ∀ row ∈ walkParentChain store prevId, row.expired now = false) (provider : String) :
    resolve (store.deleteExpired now) cold now request provider =
      resolve store cold now request provider := by
  unfold resolve
  cases hn : namedId request with
  | error exn => rfl
  | ok named =>
    cases named with
    | none => rfl
    | some prevId =>
      have hchain := h prevId hn
      have hhead : (store.deleteExpired now).getById prevId = store.getById prevId := by
        rw [SessionStore.getById_deleteExpired]
        cases hg : store.getById prevId with
        | none => rfl
        | some row => simp [hchain row (head_mem_walkParentChain hg)]
      simp only [bind, Except.bind, hhead, walkParentChain_deleteExpired hchain]

theorem checkParent_congr (now : Time) (prevId provider : String) {found found' : Option SessionRecord}
    (h : Option.Rel (SameTurn cold cold') found found') :
    (checkParent now prevId provider found).map SessionRecord.sessionId =
      (checkParent now prevId provider found').map SessionRecord.sessionId := by
  cases h with
  | none => rfl
  | @some row row' h =>
    simp only [checkParent, SessionRecord.expired, h.ttlAt, h.provider]
    by_cases ht : row'.ttlAt.any (· < now)
    · simp only [ht, if_true]
    · by_cases hp : row'.provider = provider <;> simp [ht, hp, Except.map, h.sessionId]

theorem walkParentChain_congr (hlen : store.rows.length = store'.rows.length)
    (h : ∀ id, Option.Rel (SameTurn cold cold') (store.getById id) (store'.getById id)) (id : String) :
    List.Forall₂ (SameTurn cold cold') (walkParentChain store id) (walkParentChain store' id) := by
  have hstart : Walk.Alike (SameTurn cold cold') (Walk.start id) (Walk.start id : ChainWalk) :=
    ⟨rfl,rfl,.nil⟩
  have hparent : ∀ r r', SameTurn cold cold' r r' → r.parent = r'.parent := by
    intro r r' hr; simp [SessionRecord.parent, hr.parentId]
  have := (hstart.iterate h hparent (store.rows.length + 1)).chain
  simp only [walkParentChain]
  rw [← hlen]
  exact List.rel_reverse this

theorem resolve_congr (hlen : store.rows.length = store'.rows.length)
    (h : ∀ id, Option.Rel (SameTurn cold cold') (store.getById id) (store'.getById id))
    (now : Time) (request : JsonDict) (provider : String) :
    (resolve store cold now request provider).map ResolvedRequest.value =
      (resolve store' cold' now request provider).map ResolvedRequest.value := by
  unfold resolve
  cases namedId request with
  | error exn => rfl
  | ok named =>
    cases named with
    | none => rfl
    | some prevId =>
      have hchecked := checkParent_congr now prevId provider (h prevId)
      have hchain := sameMessages_reconstruct ((walkParentChain_congr hlen h prevId).imp fun _ _ hr => hr.messages)
      simp only [bind, Except.bind]
      rcases Except.map_eq_map_iff.mp hchecked with ⟨exn,hx,hx'⟩ | ⟨parent,parent',hx,hx',hsession⟩
      · rw [hx, hx']
      · rw [hx, hx']
        rcases Except.map_eq_map_iff.mp hchain with ⟨exn,hy,hy'⟩ | ⟨history,history',hy,hy',hvalues⟩
        · rw [hy, hy']
        · rw [hy, hy']
          simp only [pure, Except.pure, Except.map, ResolvedRequest.value, hsession, value_rewrite request hvalues]

end SessionResolver

end ResponsesGateway
