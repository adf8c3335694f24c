import PushPlan.Proofs.Request.Spelling
import PushPlan.Proofs.Text.Numeral

/-!
# PushPlan.Proofs.Request.Runs

The two run counts of a request, one for unit tests and one for talos tests.

1. A count is the number that the last value of its flag spells.  Nothing else in
   the request depends on that flag (`RunCount.put`).
2. A value that spells no number counts as none.  It still is the last value, so it
   takes the place of a count that stands before it.
3. A malformed count is therefore passed over where a further count follows, or where
   none came before it that says anything; elsewhere it undoes the count before it.
-/

namespace PushPlan.Request

open Text

/-! ## Counts -/

/-- The run counts of a request. -/
inductive RunCount where
  | tests | talos
deriving DecidableEq

namespace RunCount

/-- The flag of a count. -/
def flag : RunCount → Flag
  | .tests => .rebuild
  | .talos => .rebuildTalos

/-- The name of the flag. -/
def name : RunCount → String
  | .tests => "rebuild"
  | .talos => "rebuild-talos"

/-- The flag as it is written. -/
def token (k : RunCount) : String := "--" ++ k.name

/-- The value of the flag, as written. -/
def value? (k : RunCount) (values : FlagValues) : Option String :=
  match k with
  | .tests => values.rebuild
  | .talos => values.rebuildTalos

/-- The count in a request. -/
def runs (k : RunCount) (r : Request) : UInt32 :=
  match k with
  | .tests => r.testRuns
  | .talos => r.talosRuns

/-- The request with another count. -/
def put (k : RunCount) (n : UInt32) (r : Request) : Request :=
  match k with
  | .tests => { r with testRuns := n }
  | .talos => { r with talosRuns := n }

@[simp] theorem runs_put (k : RunCount) (n : UInt32) (r : Request) : k.runs (k.put n r) = n := by
  cases k <;> rfl

@[simp] theorem put_runs (k : RunCount) (r : Request) : k.put (k.runs r) r = r := by
  cases k <;> rfl

theorem put_eq_self_iff {k : RunCount} {n : UInt32} {r : Request} :
    k.put n r = r ↔ n = k.runs r := by
  constructor
  · intro h
    rw [← h, runs_put]
  · intro h
    rw [h, put_runs]

/-! ## From values to counts -/

/-- The count that a value spells. -/
def ofValue (k : RunCount) (value : Option String) : UInt32 := (readRuns k.token value).1

/-- A count is read from the value of its flag. -/
theorem runs_ofFlags (k : RunCount) (c : Conventions) (values : FlagValues) :
    k.runs (ofFlags c values).1 = k.ofValue (k.value? values) := by
  cases k <;> rfl

theorem value?_merge (k : RunCount) (v w : FlagValues) :
    k.value? (v.merge w) = (k.value? w).or (k.value? v) := by
  cases k <;> rfl

/-- Values in front of which one more value of the flag is set: only the count can change. -/
theorem ofFlags_merge_set (k : RunCount) (c : Conventions) (v w : FlagValues) (x : String) :
    (ofFlags c ((v.set k.flag (some x)).merge w)).1 =
      k.put (k.ofValue ((k.value? w).or (some x))) (ofFlags c (v.merge w)).1 := by
  cases k <;> rfl

/-- What spells no number counts as none. -/
theorem ofValue_eq_zero {k : RunCount} {x : String}
    (hx : ∀ n : UInt32, ¬ SpellsCount x.toList n.toNat) : k.ofValue (some x) = 0 := by
  cases hread : readCount x.toList with
  | ok n => exact absurd (readCount_eq_ok_iff.1 hread) (hx n)
  | error e => simp [ofValue, readRuns, hread]

end RunCount

/-! ## Flags between tokens -/

theorem setsAnywhere_runCount (k : RunCount) {x : String} (hlike : flagLike x = false) :
    SetsAnywhere [k.token, x] k.flag x := by
  have harity : k.flag.arity ≠ .switch := by cases k <;> decide
  have hname : Flag.ofLong? k.name = some k.flag := by cases k <;> rfl
  exact setsAnywhere_of_separate harity (.long hname) hlike

/-- With one more value of its flag, a request has the count of the last value of that flag. -/
theorem ofTokens_runCount (c : Conventions) (k : RunCount) {x : String}
    (hlike : flagLike x = false) (a : List String) {b : List String} (hb : Boundary b) :
    (ofTokens c (a ++ [k.token, x] ++ b)).1 =
      k.put (k.ofValue ((k.value? (collectFlags b).1).or (some x))) (ofTokens c (a ++ b)).1 := by
  have hset := (setsAnywhere_runCount k hlike).collectFlags_between a b
  have hplain := collectFlags_append a hb
  simp only [ofTokens, hset, hplain]
  exact k.ofFlags_merge_set c _ _ x

/-- **Malformed counts**: a value that spells no count leaves the request as it is without it
exactly when a further value of the flag follows or the count before it is none.  Without a
further value, the count is none and nothing else changes. -/
theorem ofTokens_malformedCount (c : Conventions) (k : RunCount) {x : String}
    (hlike : flagLike x = false) (hx : ∀ n : UInt32, ¬ SpellsCount x.toList n.toNat)
    (a : List String) {b : List String} (hb : Boundary b) :
    ((ofTokens c (a ++ [k.token, x] ++ b)).1 = (ofTokens c (a ++ b)).1 ↔
        (k.value? (collectFlags b).1).isSome = true ∨ k.runs (ofTokens c a).1 = 0) ∧
      (k.value? (collectFlags b).1 = none →
        (ofTokens c (a ++ [k.token, x] ++ b)).1 = k.put 0 (ofTokens c (a ++ b)).1) := by
  have hruns : k.runs (ofTokens c (a ++ b)).1 =
      k.ofValue ((k.value? (collectFlags b).1).or (k.value? (collectFlags a).1)) := by
    simp only [ofTokens, collectFlags_append a hb, k.runs_ofFlags, k.value?_merge]
  rw [ofTokens_runCount c k hlike a hb, RunCount.put_eq_self_iff, hruns]
  cases hb? : k.value? (collectFlags b).1 with
  | some y => simp
  | none =>
      have hbefore : k.runs (ofTokens c a).1 = k.ofValue (k.value? (collectFlags a).1) := by
        simp only [ofTokens, k.runs_ofFlags]
      simp [RunCount.ofValue_eq_zero hx, hbefore, eq_comm]

/-- A malformed count between two good ones is passed over, and one among good counts of the
other sort undoes nothing. -/
theorem ofTokens_malformedCount_between :
    flagLike "many" = false ∧ (∀ n : UInt32, ¬ SpellsCount "many".toList n.toNat) ∧
      Boundary ["-e", "--rebuild", "+04"] ∧ Boundary ["-e"] ∧
      (ofTokens .standard (["--rebuild", "3"] ++ ["--rebuild", "many"] ++
          ["-e", "--rebuild", "+04"])).1 =
        (ofTokens .standard (["--rebuild", "3"] ++ ["-e", "--rebuild", "+04"])).1 ∧
      (ofTokens .standard (["--rebuild", "3"] ++ ["--rebuild-talos", "many"] ++ ["-e"])).1 =
        (ofTokens .standard (["--rebuild", "3"] ++ ["-e"])).1 := by
  have hlike : flagLike "many" = false := by decide
  have hread : readCount "many".toList = .error .invalidDigit := rfl
  have hmany := not_spellsCount_of_error hread
  have hb : Boundary ["-e", "--rebuild", "+04"] := by decide
  have he : Boundary ["-e"] := by decide
  have hfollowed := (ofTokens_malformedCount .standard .tests hlike hmany ["--rebuild", "3"] hb).1
  have hother := (ofTokens_malformedCount .standard .talos hlike hmany ["--rebuild", "3"] he).1
  exact ⟨hlike, hmany, hb, he, hfollowed.2 (.inl (by decide)), hother.2 (.inr (by decide))⟩

/-- A malformed count undoes a good one before it. -/
theorem ofTokens_malformedCount_last :
    flagLike "many" = false ∧ (∀ n : UInt32, ¬ SpellsCount "many".toList n.toNat) ∧
      Boundary [] ∧ (ofTokens .standard (["--rebuild", "3"] ++ [])).1.testRuns = 3 ∧
      (ofTokens .standard (["--rebuild", "3"] ++ ["--rebuild", "many"] ++ [])).1.testRuns = 0 ∧
      (ofTokens .standard (["--rebuild", "3"] ++ ["--rebuild", "many"] ++ [])).1 ≠
        (ofTokens .standard (["--rebuild", "3"] ++ [])).1 := by
  have hread : readCount "many".toList = .error .invalidDigit := rfl
  have hmany := not_spellsCount_of_error hread
  exact ⟨by decide, hmany, by decide, by decide, by decide, by decide⟩

end PushPlan.Request
