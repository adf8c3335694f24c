import PushPlan.Value

/-!
# PushPlan.Toml.Table

Tables under construction.  A table comes into being by a header, as a step
of a header's path, or as a step of a dotted key:

1. a header makes a table once, or takes over one that was a step of a
   header's path;
2. a dotted key goes through tables that dotted keys made, and its value goes
   into one of them;
3. a key is given once, and nothing is added to a value.
-/

namespace PushPlan.Toml

/-- A table or a value under construction. -/
inductive Tree where
  | value (v : Value)
  /-- A table; `implicit` if no header made it, `dotted` if a dotted key did. -/
  | table (implicit dotted : Bool) (fields : List (String × Tree))

namespace Tree

instance : Inhabited Tree := ⟨.table false false []⟩

/-- A table that a header makes. -/
def fresh : Tree := .table false false []

/-- Puts a tree under a name, in place of what is there, else at the end. -/
def replace (name : String) (t : Tree) : List (String × Tree) → List (String × Tree)
  | [] => [(name, t)]
  | (n, u) :: fs => if n = name then (name, t) :: fs else (n, u) :: replace name t fs

/-- Makes the table of a header. -/
def header? : List String → Tree → Option Tree
  | [], _ | _, .value _ => none
  | [name], .table implicit dotted fs =>
    match fs.lookup name with
    | none => some (.table implicit dotted (replace name fresh fs))
    | some (.table true false sub) =>
      some (.table implicit dotted (replace name (.table false false sub) fs))
    | some _ => none
  | name :: path, .table implicit dotted fs =>
    (header? path ((fs.lookup name).getD (.table true false []))).map fun t =>
      .table implicit dotted (replace name t fs)

/-- Gives a key its value; all but the last of its parts name tables. -/
def assign? (dottedKey : Bool) : List String → Value → Tree → Option Tree
  | [], _, _ | _, _, .value _ => none
  | [name], v, .table implicit dotted fs =>
    if dotted ≠ dottedKey ∨ (fs.lookup name).isSome then none
    else some (.table implicit dotted (replace name (.value v) fs))
  | name :: path, v, .table implicit dotted fs =>
    match (fs.lookup name).getD (.table true true []) with
    | .table true d sub =>
      (assign? true path v (.table true d sub)).map fun t =>
        .table implicit dotted (replace name t fs)
    | _ => none

/-- Changes the table at the end of a header's path. -/
def under? (t : Tree) (f : Tree → Option Tree) (path : List String) : Option Tree :=
  match path, t with
  | [], t => f t
  | _, .value _ => none
  | name :: path, .table implicit dotted fs => do
    let t ← under? (← fs.lookup name) f path
    some (.table implicit dotted (replace name t fs))

mutual

/-- The value that was constructed. -/
def toValue : Tree → Value
  | .value v => v
  | .table _ _ fs => .record (toFields fs)

/-- The values that were constructed. -/
def toFields : List (String × Tree) → List (String × Value)
  | [] => []
  | (name, t) :: fs => (name, t.toValue) :: toFields fs

end

end Tree

end PushPlan.Toml
