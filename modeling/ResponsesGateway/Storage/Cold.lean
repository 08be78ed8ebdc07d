import ResponsesGateway.Errors

namespace ResponsesGateway

/-- Objects under opaque keys; `put` draws the key, `get` gives back the value that was put. -/
structure ColdStorage where
  objects : Dict String JsonDict

namespace ColdStorage

def empty : ColdStorage := ⟨.empty⟩

def put (cold : ColdStorage) (key : String) (payload : JsonDict) : ColdStorage :=
  ⟨cold.objects.set key payload⟩

def get (cold : ColdStorage) (key : String) : Py JsonDict :=
  match cold.objects.get? key with
  | some payload => .ok payload
  | none => .error (.gateway (.coldStorageUnavailable ("cold storage key not found: " ++ key)))

theorem get_put_self (cold : ColdStorage) (key : String) (payload : JsonDict) :
    (cold.put key payload).get key = .ok payload := by simp [get, put]

theorem get_put_ne (cold : ColdStorage) {key k : String} (payload : JsonDict) (h : k ≠ key) :
    (cold.put key payload).get k = cold.get k := by simp [get, put, h]

end ColdStorage

end ResponsesGateway
