import PushPlan.Settings
import PushPlan.Text.Numeral
import PushPlan.Request.Selection
import PushPlan.Request.Suite
import PushPlan.Request.Warning

/-!
# PushPlan.Request.Spec

Suite lists such as `mochitest-1,mochitest-3,reftest[linux64]`:

1. an entry may end in a platform filter in brackets, whose closing bracket
   may be missing at the end; brackets anywhere else make it malformed;
2. in a filter, a display name stands for its test platforms, any other name
   for itself;
3. a name that ends in a dash and digits asks for that chunk of the suite
   before the dash, unless the whole name is an alias; the whole name is kept
   and asks for itself too;
4. entries for chunks of one suite on the same platforms are joined into the
   first of them; every other entry stands alone.
-/

namespace PushPlan.Request

open Text

/-- What a suite list asks for in one place. -/
structure SuiteSpec where
  /-- The suite, without chunk and filter. -/
  name : String
  /-- What the name asks for. -/
  pattern : SuitePattern
  /-- Full names whose chunk was cut off, which ask for themselves too. -/
  literals : List String
  /-- Only these test platforms. -/
  platforms : Option (List String)
  /-- Only these chunks. -/
  chunks : Option (SortedSet Int)
deriving DecidableEq

/-! ## Platform filters -/

/-- The test platforms of one name. -/
def namedPlatforms (c : Conventions) (name : String) : List String :=
  (c.platformNames.get? name).getD [name]

/-- The test platforms that a filter lists. -/
def filterPlatforms (c : Conventions) (filter : List Char) : List String :=
  (items filter).foldl (fun found name => (namedPlatforms c name).foldl pushNew found) []

/-- Cuts an entry into its name and its filter, if it has one; nothing if it is malformed. -/
def cutFilter? (entry : List Char) : Option (List Char × Option (List Char)) :=
  match splitAt? '[' entry with
  | none => if entry.contains ']' then none else some (entry, none)
  | some ([], _) => none
  | some (name, rest) =>
    match splitAt? ']' rest with
    | none => some (trim name, some rest)
    | some (filter, []) => some (trim name, some filter)
    | some (_, _ :: _) => none

/-! ## Chunks -/

/-- Cuts a name that ends in a dash and a chunk number. -/
def cutChunk? (name : List Char) : Option (List Char × Int) :=
  match splitAtLast? '-' name with
  | none => none
  | some (base, digits) =>
    if base.isEmpty || base.contains '\n' then none
    else (readChunk? digits).map fun chunk => (base, chunk)

/-! ## Entries -/

/-- What a name asks for, within the given platforms. -/
def specOfName (resolve : Resolver) (platforms : Option (List String)) (name : List Char) :
    SuiteSpec :=
  let whole := String.ofList name
  match if (unittestAlias? whole).isSome then none else cutChunk? name with
  | some (base, chunk) =>
    { name := String.ofList base, pattern := resolve (String.ofList base), literals := [whole],
      platforms, chunks := some (.ofList [chunk]) }
  | none =>
    { name := whole, pattern := resolve whole, literals := [], platforms, chunks := none }

/-- What an entry asks for; nothing if it is malformed. -/
def readEntry? (c : Conventions) (resolve : Resolver) (entry : String) : Option SuiteSpec :=
  match cutFilter? entry.toList with
  | none | some ([], _) => none
  | some (name, filter) => some (specOfName resolve (filter.map (filterPlatforms c)) name)

/-! ## Lists -/

namespace SuiteSpec

/-- The join of two requests for chunks of one suite on the same platforms. -/
def join? (s t : SuiteSpec) : Option SuiteSpec :=
  match s.chunks, t.chunks with
  | some chunks, some more =>
    if s.name = t.name ∧ s.platforms = t.platforms then
      some { s with literals := s.literals ++ t.literals,
                    chunks := some (chunks.insertAll more.toList) }
    else none
  | _, _ => none

/-- Adds a request to a list: joined into the first that it can join, else at the end. -/
def addTo (t : SuiteSpec) : List SuiteSpec → List SuiteSpec
  | [] => [t]
  | s :: rest =>
    match s.join? t with
    | some joined => joined :: rest
    | none => s :: addTo t rest

end SuiteSpec

/-- Reads the entries of a list onto what was read before. -/
def readEntries (c : Conventions) (resolve : Resolver) (specs : List SuiteSpec) :
    List String → List SuiteSpec × List Warning
  | [] => (specs, [])
  | entry :: entries =>
    match readEntry? c resolve entry with
    | some spec => readEntries c resolve (spec.addTo specs) entries
    | none =>
      let (read, warnings) := readEntries c resolve specs entries
      (read, .malformedSuite entry :: warnings)

/-- The suites that a value asks for. -/
def readSuites (c : Conventions) (resolve : Resolver) (value : String) :
    Selection SuiteSpec × List Warning :=
  match readNames value with
  | .all => (.all, [])
  | .only entries =>
    let (specs, warnings) := readEntries c resolve [] entries
    (.only specs, warnings)

end PushPlan.Request
