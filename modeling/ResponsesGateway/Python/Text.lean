import ResponsesGateway.Python.Json

namespace Json

def hex4 (n : ℕ) : List Char :=
  let ds := Nat.toDigits 16 n
  List.replicate (4 - ds.length) '0' ++ ds

/-- `json.dumps` writes ASCII only; what lies beyond goes out as UTF-16 escapes. -/
def escapeChar (c : Char) : List Char :=
  let n := c.toNat
  if c = '"' then ['\\', '"']
  else if c = '\\' then ['\\', '\\']
  else if c = '\n' then ['\\', 'n']
  else if c = '\r' then ['\\', 'r']
  else if c = '\t' then ['\\', 't']
  else if n = 8 then ['\\', 'b']
  else if n = 12 then ['\\', 'f']
  else if 32 ≤ n ∧ n < 127 then [c]
  else if n < 65536 then ['\\', 'u'] ++ hex4 n
  else ['\\', 'u'] ++ hex4 (0xd800 + (n - 65536) / 1024) ++
    ['\\', 'u'] ++ hex4 (0xdc00 + (n - 65536) % 1024)

def dumpsStr (s : String) : String := String.ofList ('"' :: s.toList.flatMap escapeChar ++ ['"'])

mutual
/-- `json.dumps(x)`. -/
def dumps : Json → String
  | null => "null"
  | bool b => if b then "true" else "false"
  | int n => toString n
  | float x => dumpsFloat x
  | str s => dumpsStr s
  | list xs => "[" ++ ", ".intercalate (dumpsList xs) ++ "]"
  | dict fs => "\x7b" ++ ", ".intercalate (dumpsFields fs) ++ "\x7d"

def dumpsList : List Json → List String
  | [] => []
  | x :: xs => dumps x :: dumpsList xs

def dumpsFields : List (String × Json) → List String
  | [] => []
  | (k, v) :: fs => (dumpsStr k ++ ": " ++ dumps v) :: dumpsFields fs
end

/-- `repr` of a string; code points beyond ASCII are taken to be printable. -/
def reprStr (s : String) : String :=
  let quote := if '\'' ∈ s.toList ∧ '"' ∉ s.toList then '"' else '\''
  let shown (c : Char) : List Char :=
    if c = quote ∨ c = '\\' then ['\\', c]
    else if c = '\n' then ['\\', 'n']
    else if c = '\r' then ['\\', 'r']
    else if c = '\t' then ['\\', 't']
    else if c.toNat < 32 ∨ c.toNat = 127 then ['\\', 'x'] ++ (hex4 c.toNat).drop 2
    else [c]
  String.ofList (quote :: s.toList.flatMap shown ++ [quote])

mutual
def repr : Json → String
  | null => "None"
  | bool b => if b then "True" else "False"
  | int n => toString n
  | float x => x.repr
  | str s => reprStr s
  | list xs => "[" ++ ", ".intercalate (reprList xs) ++ "]"
  | dict fs => "\x7b" ++ ", ".intercalate (reprFields fs) ++ "\x7d"

def reprList : List Json → List String
  | [] => []
  | x :: xs => repr x :: reprList xs

def reprFields : List (String × Json) → List String
  | [] => []
  | (k, v) :: fs => (reprStr k ++ ": " ++ repr v) :: reprFields fs
end

/-- `str(x)`. -/
def text : Json → String
  | str s => s
  | j => j.repr

theorem text_ne_empty {j : Json} (h : j.truthy = true) : j.text ≠ "" := by
  cases j with
  | null => cases h
  | bool b => cases b <;> decide
  | int n =>
    cases n with
    | ofNat m => exact Nat.repr_ne_empty
    | negSucc m =>
      intro he
      have := congrArg String.length he
      simp [text, repr, Int.repr] at this
  | float x => exact x.repr_ne_empty
  | str s => simpa [truthy, text] using h
  | list xs => simp [text, repr]
  | dict fs => simp [text, repr]

end Json
