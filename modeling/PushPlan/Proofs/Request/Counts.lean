import PushPlan.Proofs.Request.Grouping
import PushPlan.Proofs.Request.Matching
import PushPlan.Proofs.Request.Runs
import PushPlan.Proofs.Strategy.Schedule

/-!
# PushPlan.Proofs.Request.Counts

From the value of a count flag to the number of runs of a task.

1. The walk over the tokens of a message sets a flag some times (`valuesOf`); the last
   of these values is the one that counts.
2. Of the warnings about a message, one at most is about a count: the one that reading
   the value of its flag gives (`filter_warns_ofTokens`).
3. So the only value of a count flag is read exactly: a number below 2³² as this number
   and without a warning, all else as none and with one warning (`CountRead`).  The two
   counts have nothing to do with each other.
4. A test runs as often as its count says, and at least once; any other task runs once
   (`RunsInBounds`).
-/

namespace PushPlan.Request

open Text

/-! ## The values of a flag -/

/-- The value that a step sets a flag to, if it sets it. -/
def Step.valueOf? (flag : Flag) (step : Step) : Option (Option String) :=
  step.setting.bind fun (f, value) => if f = flag then some value else none

/-- The values that tokens set a flag to, one after the other. -/
def valuesOf (flag : Flag) (tokens : List String) : List (Option String) :=
  (walk tokens).filterMap (Step.valueOf? flag)

namespace RunCount

/-- Setting a flag sets the value of a count when it is the flag of that count. -/
theorem value?_set (k : RunCount) (values : FlagValues) (flag : Flag) (value : Option String) :
    k.value? (values.set flag value) = if flag = k.flag then value else k.value? values := by
  cases k <;> cases flag <;> rfl

/-- The last value that steps set counts. -/
theorem value?_apply (k : RunCount) (values : FlagValues) (steps : List Step) :
    k.value? (values.apply steps) =
      (steps.filterMap (Step.valueOf? k.flag)).getLast?.getD (k.value? values) := by
  induction steps generalizing values with
  | nil => rfl
  | cons step steps ih =>
      rw [FlagValues.apply_cons, ih, List.filterMap_cons, Step.valueOf?]
      cases hset : step.setting with
      | none => rfl
      | some setting =>
          obtain ⟨flag, value⟩ := setting
          simp only [Option.bind_some, value?_set]
          by_cases hflag : flag = k.flag
          · simp [hflag, List.getLast?_cons]
          · simp [hflag]

theorem value?_collectFlags {k : RunCount} {tokens : List String} {value : Option String}
    (h : valuesOf k.flag tokens = [value]) : k.value? (collectFlags tokens).1 = value := by
  have happly := k.value?_apply {} (walk tokens)
  rw [← valuesOf, h] at happly
  exact happly

/-! ## Warnings about counts -/

/-- Whether a warning is about a count. -/
def warns (k : RunCount) : Warning → Bool
  | .malformedCount flag _ _ => flag == k.token
  | _ => false

theorem token_ne_token {k l : RunCount} (h : k ≠ l) : (k.token == l.token) = false := by
  cases k <;> cases l <;> first | contradiction | decide

/-- A step of a walk gives no warning about a count. -/
theorem warns_readGroup (k : RunCount) {token : String} {next : Option String} {w : Warning}
    (h : (readGroup token next).1.warning = some w) : k.warns w = false := by
  unfold readGroup at h
  split at h
  · split at h
    · cases h
      rfl
    · split at h <;> cases h <;> rfl
  · cases h
    rfl

theorem filter_warns_collectFlags (k : RunCount) (tokens : List String) :
    (collectFlags tokens).2.filter k.warns = [] := by
  rw [List.filter_eq_nil_iff]
  intro w hw
  obtain ⟨step, hstep, hwarning⟩ := List.mem_filterMap.1 hw
  obtain ⟨token, next, rfl⟩ := exists_readGroup_of_mem_walk hstep
  rw [k.warns_readGroup hwarning]
  exact Bool.false_ne_true

theorem filter_warns_readBuildTypes (k : RunCount) (letters : List Char) :
    (readBuildTypes letters).2.filter k.warns = [] := by
  rw [List.filter_eq_nil_iff]
  intro w hw
  obtain ⟨letter, _, rfl⟩ := List.mem_map.1 hw
  exact Bool.false_ne_true

theorem filter_warns_readSuites (k : RunCount) (c : Conventions) (resolve : Resolver)
    (value : String) : (readSuites c resolve value).2.filter k.warns = [] := by
  rw [List.filter_eq_nil_iff]
  intro w hw
  unfold readSuites at hw
  split at hw
  · contradiction
  · simp only [readEntries_warnings] at hw
    obtain ⟨entry, _, rfl⟩ := List.mem_map.1 hw
    exact Bool.false_ne_true

/-- What is said about a count is said about no other. -/
theorem filter_warns_readRuns (k l : RunCount) (value : Option String) :
    (readRuns l.token value).2.filter k.warns =
      if l = k then (readRuns l.token value).2 else [] := by
  have hwarns : ∀ w ∈ (readRuns l.token value).2, k.warns w = (l.token == k.token) := by
    intro w hw
    unfold readRuns at hw
    split at hw
    · contradiction
    · split at hw
      · contradiction
      · rw [List.mem_singleton.1 hw]
        rfl
  split
  · next heq =>
      subst heq
      rw [List.filter_eq_self]
      intro w hw
      rw [hwarns w hw, beq_self_eq_true]
  · next hne =>
      rw [List.filter_eq_nil_iff]
      intro w hw
      rw [hwarns w hw, token_ne_token hne]
      exact Bool.false_ne_true

/-- **Warnings about a count** are those about the last value of its flag. -/
theorem filter_warns_ofTokens (k : RunCount) (c : Conventions) (tokens : List String) :
    (ofTokens c tokens).2.filter k.warns =
      (readRuns k.token (k.value? (collectFlags tokens).1)).2 := by
  have hparts : (ofTokens c tokens).2.filter k.warns =
      (readRuns tests.token (collectFlags tokens).1.rebuild).2.filter k.warns ++
        (readRuns talos.token (collectFlags tokens).1.rebuildTalos).2.filter k.warns := by
    simp only [ofTokens, ofFlags, List.filter_append, filter_warns_collectFlags,
      filter_warns_readBuildTypes, filter_warns_readSuites, List.nil_append]
    rfl
  rw [hparts, filter_warns_readRuns, filter_warns_readRuns]
  cases k with
  | tests => exact List.append_nil _
  | talos => rfl

/-- The count in a request is read from the last value of its flag. -/
theorem runs_ofTokens (k : RunCount) (c : Conventions) (tokens : List String) :
    k.runs (ofTokens c tokens).1 = k.ofValue (k.value? (collectFlags tokens).1) := by
  simp only [ofTokens, k.runs_ofFlags]

/-! ## Reading one value -/

section

variable {k : RunCount} {s : String} {n : Nat}

theorem readRuns_of_spells (h : SpellsCount s.toList n) (hn : n < UInt32.size) :
    readRuns k.token (some s) = (UInt32.ofNat n, []) := by
  have hn' : (UInt32.ofNat n).toNat = n := UInt32.toNat_ofNat_of_lt' hn
  have hread : readCount s.toList = .ok (UInt32.ofNat n) := readCount_eq_ok_iff.2 (by rwa [hn'])
  simp only [readRuns, hread]

/-- What spells no number below 2³² is refused. -/
theorem exists_readRuns_eq (h : ∀ n, SpellsCount s.toList n → UInt32.size ≤ n) :
    ∃ e, readRuns k.token (some s) = (0, [.malformedCount k.token s e]) := by
  cases hread : readCount s.toList with
  | ok count =>
      have hle := h _ (readCount_eq_ok_iff.1 hread)
      have hlt := count.toNat_lt_size
      omega
  | error e => exact ⟨e, by simp only [readRuns, hread]⟩

end

/-! ## Runs of a task -/

/-- The count that applies to a test. -/
def of (t : Task) : RunCount := if t.hasAttribute "talos_try_name" then .talos else .tests

/-- A test runs as often as its count says, and at least once; other tasks run once. -/
theorem runs_eq (r : Request) (t : Task) :
    r.runs t = if t.IsOf r.kinds.test then max ((of t).runs r) 1 else 1 := by
  by_cases htest : t.IsOf r.kinds.test
  · rw [if_pos htest, (r.runsFor_runs t).asked htest, of]
    cases t.hasAttribute "talos_try_name" <;> rfl
  · rw [if_neg htest]
    exact (r.runsFor_runs t).once fun kind hkind hof => htest ⟨kind, hkind, hof⟩

theorem max_one_eq_self {n : UInt32} (h : 1 ≤ n) : max n 1 = n := by
  show (if n ≤ 1 then 1 else n) = n
  split
  · next hle => exact UInt32.le_antisymm h hle
  · rfl

/-- A test runs as often as is asked for, if it is asked for at all. -/
theorem runs_of_test {r : Request} {t : Task} (htest : t.IsOf r.kinds.test)
    (hcount : 1 ≤ (of t).runs r) : r.runs t = (of t).runs r := by
  rw [runs_eq, if_pos htest, max_one_eq_self hcount]

end RunCount

/-! ## Messages -/

/-- How the value of a count flag is read: exactly, or not at all. -/
structure CountRead (k : RunCount) (value : String) (r : Request) (warnings : List Warning) :
    Prop where
  /-- A number below 2³² is the count. -/
  spelled : ∀ n, SpellsCount value.toList n → n < UInt32.size →
    (k.runs r).toNat = n ∧ warnings.filter k.warns = []
  /-- All else counts as none, and is warned about once. -/
  malformed : (∀ n, SpellsCount value.toList n → UInt32.size ≤ n) →
    k.runs r = 0 ∧ ∃ e, warnings.filter k.warns = [.malformedCount k.token value e]
  /-- Tests to which the count applies run as often as the number says. -/
  tests : ∀ n t, SpellsCount value.toList n → 1 ≤ n → n < UInt32.size → t.IsOf r.kinds.test →
    RunCount.of t = k → (r.runs t).toNat = n

/-- How often a task may run when tests are the tasks of the given kinds. -/
structure RunsInBounds (r : Request) (kinds : List String) (t : Task) : Prop where
  pos : 1 ≤ (r.runs t).toNat
  le : (r.runs t).toNat ≤ UInt32.size - 1
  once : ¬ t.IsOf kinds → r.runs t = 1
  asked : t.IsOf kinds → 1 ≤ (RunCount.of t).runs r → r.runs t = (RunCount.of t).runs r

/-- The only value of a count flag among tokens is read exactly. -/
theorem countRead_of_valuesOf {k : RunCount} {c : Conventions} {tokens : List String}
    {value : String} (h : valuesOf k.flag tokens = [some value]) :
    CountRead k value (ofTokens c tokens).1 (ofTokens c tokens).2 := by
  have hruns := k.runs_ofTokens c tokens
  have hwarnings := k.filter_warns_ofTokens c tokens
  rw [k.value?_collectFlags h] at hruns hwarnings
  have hspelled : ∀ n, SpellsCount value.toList n → n < UInt32.size →
      (k.runs (ofTokens c tokens).1).toNat = n ∧ (ofTokens c tokens).2.filter k.warns = [] := by
    intro n hvalue hn
    rw [hruns, hwarnings, RunCount.ofValue, RunCount.readRuns_of_spells hvalue hn]
    exact ⟨UInt32.toNat_ofNat_of_lt' hn, rfl⟩
  refine ⟨hspelled, fun hvalue => ?_, fun n t hvalue hpos hn htest hof => ?_⟩
  · obtain ⟨e, hread⟩ := RunCount.exists_readRuns_eq (k := k) hvalue
    rw [hruns, hwarnings, RunCount.ofValue, hread]
    exact ⟨rfl, e, rfl⟩
  · have hcount := (hspelled n hvalue hn).1
    have hasked : 1 ≤ (RunCount.of t).runs (ofTokens c tokens).1 := by
      rw [hof, UInt32.le_iff_toNat_le, hcount]
      exact hpos
    rw [RunCount.runs_of_test htest hasked, hof, hcount]

theorem runsInBounds (r : Request) (t : Task) : RunsInBounds r r.kinds.test t where
  pos := UInt32.le_iff_toNat_le.1 (r.runsFor_runs t).pos
  le := Nat.le_pred_of_lt (r.runs t).toNat_lt_size
  once := by
    intro hno
    rw [RunCount.runs_eq, if_neg hno]
  asked := fun htest hcount => RunCount.runs_of_test htest hcount

/-- **Counts**: in every message, the only value of a count flag is read exactly, for unit tests
and for talos tests alike; and every task runs between once and 2³² - 1 times, a task that is no
test once and a test as often as is asked for, if it is. -/
theorem read_counts_exact (c : Conventions) (message : String) :
    (∀ k tokens value, tokensAfter? c.marker.toList message.toList = some tokens →
      valuesOf k.flag tokens = [some value] →
        CountRead k value (read c message).1 (read c message).2) ∧
      ∀ t, RunsInBounds (read c message).1 c.kinds.test t := by
  refine ⟨fun k tokens value htokens hvalue => ?_, fun t => ?_⟩
  · have hread : read c message = ofTokens c tokens := by rw [read, htokens]
    rw [hread]
    exact countRead_of_valuesOf hvalue
  · rw [← kinds_read c message]
    exact runsInBounds _ t

/-- The greatest count behind a plus sign and zeros, and beside it the next number, which is
refused: a unit test runs as often as it can, and a build once. -/
theorem read_counts_exact_limit :
    ∃ (message : String) (tokens : List String) (t u : Task),
      message = "try: --rebuild-talos=4294967296 -u all --rebuild +004294967295" ∧
      tokensAfter? Conventions.standard.marker.toList message.toList = some tokens ∧
      valuesOf .rebuild tokens = [some "+004294967295"] ∧
      valuesOf .rebuildTalos tokens = [some "4294967296"] ∧
      SpellsCount "+004294967295".toList 4294967295 ∧
      (read .standard message).2.filter RunCount.tests.warns = [] ∧
      t.IsOf Conventions.standard.kinds.test ∧ RunCount.of t = .tests ∧
      ((read .standard message).1.runs t).toNat = 4294967295 ∧
      (read .standard message).1.talosRuns = 0 ∧
      (∃ e, (read .standard message).2.filter RunCount.talos.warns =
        [.malformedCount RunCount.talos.token "4294967296" e]) ∧
      ¬ u.IsOf Conventions.standard.kinds.test ∧ (read .standard message).1.runs u = 1 := by
  let message := "try: --rebuild-talos=4294967296 -u all --rebuild +004294967295"
  let t : Task := ⟨"t", some "test", .empty, .null⟩
  let u : Task := ⟨"u", some "build", .empty, .null⟩
  have htokens : tokensAfter? Conventions.standard.marker.toList message.toList =
      some ["--rebuild-talos=4294967296", "-u", "all", "--rebuild", "+004294967295"] := by decide
  have hgood : readCount "+004294967295".toList = .ok 4294967295 := by rfl
  have hspells : SpellsCount "+004294967295".toList 4294967295 := readCount_eq_ok_iff.1 hgood
  have hbad : readCount "4294967296".toList = .error .tooLarge := by rfl
  have hlarge : ∀ n, SpellsCount "4294967296".toList n → UInt32.size ≤ n := by
    intro n hn
    refine Nat.le_of_not_lt fun hlt => not_spellsCount_of_error hbad (UInt32.ofNat n) ?_
    rwa [UInt32.toNat_ofNat_of_lt' hlt]
  have hkinds : (read .standard message).1.kinds = Kinds.standard := kinds_read _ _
  have htest : t.IsOf Conventions.standard.kinds.test := by decide
  have hbuild : ¬ u.IsOf Conventions.standard.kinds.test := by decide
  obtain ⟨hcounts, hruns⟩ := read_counts_exact .standard message
  have htests := hcounts .tests _ "+004294967295" htokens (by decide)
  have htalos := hcounts .talos _ "4294967296" htokens (by decide)
  obtain ⟨hzero, hwarning⟩ := htalos.malformed hlarge
  exact ⟨message, _, t, u, rfl, htokens, by decide, by decide, hspells,
    (htests.spelled _ hspells (by decide)).2, htest, rfl,
    htests.tests _ t hspells (by decide) (by decide) (hkinds ▸ htest) rfl, hzero, hwarning, hbuild,
    (hruns u).once hbuild⟩

end PushPlan.Request
