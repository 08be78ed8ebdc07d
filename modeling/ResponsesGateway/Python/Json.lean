import ResponsesGateway.Foundation.Dict
import ResponsesGateway.Python.Number

inductive PyError where
  | typeError
  | attributeError
  | keyError
  | valueError
  | overflowError
  | databaseError
  deriving DecidableEq, Repr

theorem Except.bind_eq_ok_iff {ε α β : Type} {x : Except ε α} {f : α → Except ε β} {b : β} :
    (x >>= f) = .ok b ↔ ∃ a, x = .ok a ∧ f a = .ok b := by
  cases x <;> simp [bind, Except.bind]

theorem Except.bind_eq_error_iff {ε α β : Type} {x : Except ε α} {f : α → Except ε β} {e : ε} :
    (x >>= f) = .error e ↔ x = .error e ∨ ∃ a, x = .ok a ∧ f a = .error e := by
  cases x <;> simp [bind, Except.bind]

theorem Except.map_eq_map_iff {ε α β γ : Type} {f : α → γ} {g : β → γ} {x : Except ε α} {y : Except ε β} :
    x.map f = y.map g ↔
      (∃ e, x = .error e ∧ y = .error e) ∨ ∃ a b, x = .ok a ∧ y = .ok b ∧ f a = g b := by
  cases x <;> cases y <;> simp [Except.map, eq_comm]

/-- A JSON value as Python holds it. A `dict` lists its fields in insertion order. -/
inductive Json where
  | null
  | bool (b : Bool)
  | int (n : ℤ)
  | float (x : PyFloat)
  | str (s : String)
  | list (xs : List Json)
  | dict (fields : List (String × Json))

abbrev JsonDict := Dict String Json

/-- Hashable values up to `==`: `True`, `1` and `1.0` are one key. -/
inductive Key where
  | none
  | num (x : PyFloat)
  | str (s : String)
  deriving DecidableEq

namespace Json

mutual
def beq : Json → Json → Bool
  | null, null => true
  | bool a, bool b => a == b
  | int a, int b => a == b
  | float a, float b => a == b
  | str a, str b => a == b
  | list xs, list ys => beqList xs ys
  | dict fs, dict gs => beqFields fs gs
  | _, _ => false

def beqList : List Json → List Json → Bool
  | [], [] => true
  | x :: xs, y :: ys => beq x y && beqList xs ys
  | _, _ => false

def beqFields : List (String × Json) → List (String × Json) → Bool
  | [], [] => true
  | (k, v) :: fs, (l, w) :: gs => k == l && (beq v w && beqFields fs gs)
  | _, _ => false
end

mutual
theorem beq_iff : ∀ a b : Json, beq a b = true ↔ a = b
  | null, b => by cases b <;> simp [beq]
  | bool _, b => by cases b <;> simp [beq]
  | int _, b => by cases b <;> simp [beq]
  | float _, b => by cases b <;> simp [beq]
  | str _, b => by cases b <;> simp [beq]
  | list xs, b => by cases b <;> simp [beq, beqList_iff xs]
  | dict fs, b => by cases b <;> simp [beq, beqFields_iff fs]

theorem beqList_iff : ∀ xs ys : List Json, beqList xs ys = true ↔ xs = ys
  | [], ys => by cases ys <;> simp [beqList]
  | x :: xs, ys => by cases ys <;> simp [beqList, beq_iff x, beqList_iff xs]

theorem beqFields_iff : ∀ fs gs : List (String × Json), beqFields fs gs = true ↔ fs = gs
  | [], gs => by cases gs <;> simp [beqFields]
  | (k, v) :: fs, gs => by
      cases gs with
      | nil => simp [beqFields]
      | cons g gs => cases g; simp [beqFields, beq_iff v, beqFields_iff fs, and_assoc]
end

instance : DecidableEq Json := fun a b => decidable_of_iff _ (beq_iff a b)

def obj (d : JsonDict) : Json := dict d.entries

def asDict : Json → Option JsonDict
  | dict fs => some (Dict.ofEntries fs)
  | _ => none

@[simp] theorem asDict_obj (d : JsonDict) : (obj d).asDict = some d := by simp [obj, asDict]

theorem obj_injective : Function.Injective obj := fun d e h => Dict.ext (by simpa [obj] using h)

@[simp] theorem obj_inj (d e : JsonDict) : obj d = obj e ↔ d = e := obj_injective.eq_iff

/-- `bool(x)`. -/
def truthy : Json → Bool
  | null => false
  | bool b => b
  | int n => n != 0
  | float x => !x.isZero
  | str s => s != ""
  | list xs => !xs.isEmpty
  | dict fs => !fs.isEmpty

def iter : Json → Except PyError (List Json)
  | list xs => .ok xs
  | dict fs => .ok ((Dict.ofEntries fs).keys.map str)
  | str s => .ok (s.toList.map (fun c => str (String.ofList [c])))
  | _ => .error .typeError

/-- `hash(x)`: lists and dicts have none. -/
def key : Json → Except PyError Key
  | null => .ok .none
  | bool b => .ok (.num (.finite (if b then 1 else 0)))
  | int n => .ok (.num (.finite n))
  | float .negZero => .ok (.num (.finite 0))
  | float x => .ok (.num x)
  | str s => .ok (.str s)
  | _ => .error .typeError

theorem key_eq_str {j : Json} {s : String} (h : j.key = .ok (.str s)) : j = .str s := by
  unfold key at h
  split at h <;> cases h
  rfl

/-- `int(x)`. -/
def toInt : Json → Except PyError ℤ
  | bool b => .ok (if b then 1 else 0)
  | int n => .ok n
  | float (.finite q) => .ok (if q < 0 then ⌈q⌉ else ⌊q⌋)
  | float .negZero => .ok 0
  | float (.inf _) => .error .overflowError
  | float .nan => .error .valueError
  | str s => ((PyInt.parse s).map Except.ok).getD (.error .valueError)
  | _ => .error .typeError

def dumpsFloat : PyFloat → String
  | .inf negative => if negative then "-Infinity" else "Infinity"
  | .nan => "NaN"
  | x => x.repr

def keyText : Json → String
  | str s => s
  | null => "null"
  | bool b => if b then "true" else "false"
  | int n => toString n
  | float x => dumpsFloat x
  | _ => ""

/-- One item of a sequence given to `update`. -/
def pair (x : Json) : Except PyError (Key × String × Json) := do
  match ← x.iter with
  | [k, v] => return (← k.key, k.keyText, v)
  | _ => throw .valueError

/-- `True` after `1` is the key `1` with a new value. -/
def setPair (found : Dict Key (String × Json)) (p : Key × String × Json) : Dict Key (String × Json) :=
  found.set p.1 (((found.get? p.1).map Prod.fst).getD p.2.1, p.2.2)

def pairs : Json → Except PyError (List (String × Json))
  | dict fs => .ok (Dict.ofEntries fs).entries
  | x => do
      let ps ← (← x.iter).mapM pair
      return (ps.foldl setPair .empty).entries.map Prod.snd

/-- Attribute access to a dict method such as `x.get`. -/
def methods (j : Json) : Except PyError JsonDict :=
  (j.asDict.map Except.ok).getD (.error .attributeError)

def whole? : Json → Option ℤ
  | bool b => some (if b then 1 else 0)
  | int n => some n
  | _ => none

def wholeToFloat (n : ℤ) : Except PyError PyFloat :=
  match PyFloat.ofRat n with
  | .inf _ => .error .overflowError
  | x => .ok x

def add (a b : Json) : Except PyError Json :=
  match a, b with
  | str s, str t => .ok (str (s ++ t))
  | list xs, list ys => .ok (list (xs ++ ys))
  | float x, float y => .ok (float (x.add y))
  | float x, b =>
      match b.whole? with
      | some n => (wholeToFloat n).map (fun y => float (x.add y))
      | none => .error .typeError
  | a, float y =>
      match a.whole? with
      | some n => (wholeToFloat n).map (fun x => float (x.add y))
      | none => .error .typeError
  | a, b =>
      match a.whole?, b.whole? with
      | some m, some n => .ok (int (m + n))
      | _, _ => .error .typeError

/-- `a += b`: a list takes the items of any iterable. -/
def iadd (a b : Json) : Except PyError Json :=
  match a with
  | list xs => b.iter.map (fun ys => list (xs ++ ys))
  | a => a.add b

@[simp] theorem add_str (s t : String) : (str s).add (str t) = .ok (str (s ++ t)) := rfl

@[simp] theorem iadd_str (s t : String) : (str s).iadd (str t) = .ok (str (s ++ t)) := rfl

def eqScalar (a b : Json) : Bool :=
  match a, b with
  | null, null => true
  | str s, str t => s == t
  | float x, float y => x.eq y
  | float x, b => b.whole?.any (fun n => x.toRat? == some (n : ℚ))
  | a, float y => a.whole?.any (fun n => y.toRat? == some (n : ℚ))
  | a, b => a.whole?.any (fun n => b.whole? == some n)

mutual
/-- `x == y`: numbers by value, dicts in any order of their keys. -/
def eq : Json → Json → Bool
  | list xs, list ys => eqList xs ys
  | list _, _ => false
  | dict fs, dict gs => fs.length == gs.length && eqFields fs gs
  | dict _, _ => false
  | _, list _ => false
  | _, dict _ => false
  | a, b => eqScalar a b

def eqList : List Json → List Json → Bool
  | [], [] => true
  | x :: xs, y :: ys => eq x y && eqList xs ys
  | _, _ => false

def eqFields : List (String × Json) → List (String × Json) → Bool
  | [], _ => true
  | (k, v) :: fs, gs =>
      (match gs.lookup k with
        | some w => eq v w
        | none => false) && eqFields fs gs
end

end Json

namespace Dict

variable (d : JsonDict) (k : String)

/-- `d.get(k, default)`. -/
def getD (default : Json) : Json := (d.get? k).getD default

def get : Json := d.getD k .null

def updateFrom (x : Json) : Except PyError JsonDict := do
  return d.setAll (← x.pairs)

@[simp] theorem updateFrom_obj (e : JsonDict) : d.updateFrom (.obj e) = .ok (d.update e) := by
  simp [updateFrom, Json.obj, Json.pairs, update, bind, Except.bind, pure, Except.pure]

theorem get_eq_of_get? {d : JsonDict} {k : String} {v : Json} (h : d.get? k = some v) :
    d.get k = v := by simp [get, getD, h]

end Dict
