import PushPlan.Proofs.Request.CommaList
import PushPlan.Proofs.Request.Counts
import PushPlan.Proofs.Request.Items
import PushPlan.Proofs.Request.Monotone

/-!
# PushPlan.Proofs.Request.Repeated

The job flag, which may be repeated.

1. Its values add up (`readRepeated_eq`): one `all` is enough for everything, as is no
   value at all; otherwise the first occurrences of all items count, and `none` has none.
2. Which names are listed does not depend on the order of the values, so neither does
   which tasks are picked.
3. Values that leave no bracket open have the items that they have joined by commas.  Where
   no item is a word of its own, they may be joined.
4. The walk over the tokens of a message sets the job flag and the others independently of
   each other (`foldl_set_eq`).  So all this is about any two lists of tokens that set the
   other flags alike (`otherSettings`).
-/

namespace PushPlan.Request

/-! ## Values that add up -/

/-- The items of all values that are not the word for nothing, with repetitions. -/
def listed (values : List String) : List String :=
  (values.filter (· ≠ "none")).flatMap fun value => items value.toList

theorem listed_append (a b : List String) : listed (a ++ b) = listed a ++ listed b := by
  rw [listed, List.filter_append, List.flatMap_append, listed, listed]

theorem joinNames_of_all {values : List String} (h : "all" ∈ values) (found : List String) :
    joinNames found values = .all := by
  induction values generalizing found with
  | nil => contradiction
  | cons value values ih =>
      by_cases hall : value = "all"
      · rw [joinNames, hall]
        rfl
      · have hrest : "all" ∈ values := (List.mem_cons.1 h).resolve_left (Ne.symm hall)
        rw [joinNames]
        split
        · rfl
        · exact ih hrest _

theorem joinNames_of_lists {values : List String} (h : "all" ∉ values) (found : List String) :
    joinNames found values = .only ((listed values).foldl pushNew found) := by
  induction values generalizing found with
  | nil => rfl
  | cons value values ih =>
      obtain ⟨hall, hrest⟩ := not_or.1 (mt List.mem_cons.2 h)
      by_cases hnone : value = "none"
      · subst hnone
        rw [joinNames]
        exact ih hrest found
      · have hlisted : listed (value :: values) = items value.toList ++ listed values := by
          rw [listed, List.filter_cons_of_pos (by simpa using hnone), List.flatMap_cons, listed]
        have hjoin : joinNames found (value :: values) =
            joinNames ((firsts (items value.toList)).foldl pushNew found) values := by
          rw [joinNames, readNames_eq_only (Ne.symm hall) hnone]
        rw [hjoin, ih hrest, hlisted, List.foldl_append, firsts, foldl_pushNew_foldl_pushNew]
        rfl

/-- **Values add up**: without a value, or with the word for everything among them, everything is
selected, and otherwise the first occurrences of all items. -/
theorem readRepeated_eq (values : List String) :
    readRepeated values =
      if values = [] ∨ "all" ∈ values then .all else .only (listed values).eraseDups := by
  by_cases hempty : values = []
  · rw [hempty]
    rfl
  · rw [readRepeated, if_neg (by simpa using hempty)]
    by_cases hall : "all" ∈ values
    · rw [joinNames_of_all hall, if_pos (.inr hall)]
    · rw [joinNames_of_lists hall, if_neg (by simp [hempty, hall]), ← firsts_eq_eraseDups, firsts]

/-! ## Order -/

theorem Selection.extendedBy_refl {α : Type} (a : Selection α) : a = .all ∨ a.ExtendedBy a := by
  cases a with
  | all => exact .inl rfl
  | only items => exact .inr ⟨items, items, rfl, rfl, fun _ h => h⟩

/-- A request with other jobs picks at least as much if these are everything or hold the jobs. -/
theorem within_of_jobs {r : Request} {jobs : Selection String}
    (h : jobs = .all ∨ r.jobs.ExtendedBy jobs) : r.Within { r with jobs } where
  kinds := rfl
  buildTypes := fun _ hmem => hmem
  platforms := .inl rfl
  unittests := r.unittests.extendedBy_refl
  talos := r.talos.extendedBy_refl
  jobs := h
  tag := .inl rfl

/-- Values in another order select the same names. -/
theorem readRepeated_extendedBy_of_perm {values others : List String} (h : values.Perm others) :
    readRepeated others = .all ∨ (readRepeated values).ExtendedBy (readRepeated others) := by
  have hwords : (values = [] ∨ "all" ∈ values) ↔ (others = [] ∨ "all" ∈ others) := by
    rw [← List.length_eq_zero_iff, h.length_eq, List.length_eq_zero_iff, h.mem_iff]
  simp only [readRepeated_eq, hwords]
  split
  · exact .inl rfl
  · refine .inr ⟨_, _, rfl, rfl, fun name hname => ?_⟩
    have hlisted : (listed values).Perm (listed others) := (h.filter _).flatMap_right _
    rwa [List.mem_eraseDups, ← hlisted.mem_iff, ← List.mem_eraseDups]

/-- **Order**: a request with the job values in another order picks the same tasks. -/
theorem picks_of_perm {r : Request} {values others : List String} (h : values.Perm others)
    (hjobs : r.jobs = readRepeated values) (t : Task) :
    ({ r with jobs := readRepeated others } : Request).picks t = r.picks t := by
  have hthere := within_of_jobs (hjobs ▸ readRepeated_extendedBy_of_perm h)
  have hback : Within { r with jobs := readRepeated others } r :=
    within_of_jobs (hjobs ▸ readRepeated_extendedBy_of_perm h.symm)
  exact Bool.eq_iff_iff.2 ⟨hback.picks, hthere.picks⟩

/-! ## Joining -/

/-- No item of the values is a word for everything or nothing. -/
def Wordless (values : List String) : Prop :=
  ∀ value ∈ values, "all" ∉ items value.toList ∧ "none" ∉ items value.toList

instance (values : List String) : Decidable (Wordless values) :=
  inferInstanceAs (Decidable (∀ value ∈ values, _ ∧ _))

namespace Wordless

variable {values : List String}

theorem notMem (h : Wordless values) : "all" ∉ values ∧ "none" ∉ values :=
  ⟨fun hmem => (h _ hmem).1 (by decide), fun hmem => (h _ hmem).2 (by decide)⟩

theorem listed_eq (h : Wordless values) :
    listed values = values.flatMap fun value => items value.toList := by
  have hkept : values.filter (· ≠ "none") = values := by
    rw [List.filter_eq_self]
    intro value hvalue
    have hne : value ≠ "none" := fun hnone => h.notMem.2 (hnone ▸ hvalue)
    simpa using hne
  rw [listed, hkept]

end Wordless

/-- Values that may be joined by commas. -/
structure Joinable (values : List String) : Prop where
  ne_nil : values ≠ []
  closed : ∀ value ∈ values, depthAfter 0 value.toList = 0
  wordless : Wordless values

instance (values : List String) : Decidable (Joinable values) :=
  decidable_of_iff
    (values ≠ [] ∧ (∀ value ∈ values, depthAfter 0 value.toList = 0) ∧ Wordless values)
    ⟨fun ⟨hne, hclosed, hwordless⟩ => ⟨hne, hclosed, hwordless⟩,
      fun ⟨hne, hclosed, hwordless⟩ => ⟨hne, hclosed, hwordless⟩⟩

namespace Joinable

variable {values : List String}

theorem items_intercalate (h : Joinable values) :
    items (",".intercalate values).toList = values.flatMap fun value => items value.toList :=
  Request.items_intercalate fun value hmem => h.closed value (List.dropLast_subset _ hmem)

/-- Joining makes no words. -/
theorem wordless_intercalate (h : Joinable values) : Wordless [",".intercalate values] := by
  intro value hvalue
  rw [List.mem_singleton.1 hvalue, h.items_intercalate, List.mem_flatMap, List.mem_flatMap]
  constructor
  · intro hitem
    obtain ⟨part, hpart, hall⟩ := hitem
    exact (h.wordless part hpart).1 hall
  · intro hitem
    obtain ⟨part, hpart, hnone⟩ := hitem
    exact (h.wordless part hpart).2 hnone

theorem listed_intercalate (h : Joinable values) :
    listed [",".intercalate values] = listed values := by
  rw [h.wordless_intercalate.listed_eq, h.wordless.listed_eq, List.flatMap_singleton,
    h.items_intercalate]

/-- **Joining**: values that may be joined select the same when they are, among others. -/
theorem readRepeated_intercalate (h : Joinable values) (before after : List String) :
    readRepeated (before ++ [",".intercalate values] ++ after) =
      readRepeated (before ++ values ++ after) := by
  have hwords : ∀ others : List String, others ≠ [] → "all" ∉ others →
      ((before ++ others ++ after = [] ∨ "all" ∈ before ++ others ++ after) ↔
        "all" ∈ before ∨ "all" ∈ after) := by
    intro others hne hall
    simp [hne, hall]
  simp only [readRepeated_eq, hwords _ h.ne_nil h.wordless.notMem.1,
    hwords _ (List.cons_ne_nil _ _) h.wordless_intercalate.notMem.1, listed_append,
    h.listed_intercalate]

end Joinable

/-! ## Tokens -/

/-- The values of the job flag among tokens. -/
def jobValues (tokens : List String) : List String :=
  (valuesOf .job tokens).flatMap Option.toList

/-- Whether a step leaves the job flag alone. -/
def Step.isOther (step : Step) : Bool := (step.valueOf? .job).isNone

/-- The other flags that tokens set, with their values, one after the other. -/
def otherSettings (tokens : List String) : List (Flag × Option String) :=
  ((walk tokens).filter Step.isOther).filterMap (·.setting)

namespace FlagValues

theorem apply_cons_of_none {step : Step} (h : step.setting = none) (values : FlagValues)
    (steps : List Step) : values.apply (step :: steps) = values.apply steps := by
  rw [apply_cons, h]

theorem apply_cons_of_some {step : Step} {flag : Flag} {value : Option String}
    (h : step.setting = some (flag, value)) (values : FlagValues) (steps : List Step) :
    values.apply (step :: steps) = (values.set flag value).apply steps := by
  rw [apply_cons, h]

theorem set_of_ne_job {flag : Flag} (h : flag ≠ .job) (values : FlagValues) (jobs : List String)
    (value : Option String) :
    set { values with jobs } flag value = { values.set flag value with jobs } := by
  cases flag <;> first | contradiction | rfl

/-- Steps that leave the job flag alone leave the jobs as they are, and do not look at them. -/
theorem apply_of_isOther {steps : List Step} (h : ∀ step ∈ steps, step.isOther = true)
    (values : FlagValues) (jobs : List String) :
    apply { values with jobs } steps = { values.apply steps with jobs } := by
  induction steps generalizing values with
  | nil => rfl
  | cons step steps ih =>
      obtain ⟨hstep, hsteps⟩ := List.forall_mem_cons.1 h
      cases hset : step.setting with
      | none => rw [apply_cons_of_none hset, apply_cons_of_none hset, ih hsteps]
      | some setting =>
          obtain ⟨flag, value⟩ := setting
          have hne : flag ≠ .job := by
            rintro rfl
            simp [Step.isOther, Step.valueOf?, hset] at hstep
          rw [apply_cons_of_some hset, apply_cons_of_some hset, set_of_ne_job hne, ih hsteps]

/-- **Independence**: a walk sets the other flags as if there were no job flag, and adds the values
of the job flag to the jobs. -/
theorem apply_eq_jobs (values : FlagValues) (steps : List Step) :
    values.apply steps =
      { values.apply (steps.filter Step.isOther) with
        jobs := values.jobs ++
          (steps.filterMap (Step.valueOf? .job)).flatMap Option.toList } := by
  induction steps generalizing values with
  | nil => simp [apply]
  | cons step steps ih =>
      cases hset : step.setting with
      | none =>
          have hvalue : step.valueOf? .job = none := by rw [Step.valueOf?, hset, Option.bind_none]
          rw [List.filter_cons_of_pos (by rw [Step.isOther, hvalue, Option.isNone_none]),
            List.filterMap_cons_none hvalue, apply_cons_of_none hset, apply_cons_of_none hset, ih]
      | some setting =>
          obtain ⟨flag, value⟩ := setting
          by_cases hjob : flag = .job
          · subst hjob
            have hvalue : step.valueOf? .job = some value := by simp [Step.valueOf?, hset]
            have hothers : ∀ s ∈ steps.filter Step.isOther, s.isOther = true :=
              fun s hs => (List.mem_filter.1 hs).2
            rw [List.filter_cons_of_neg (by simp [Step.isOther, hvalue]),
              List.filterMap_cons_some hvalue, apply_cons_of_some hset, ih, set,
              apply_of_isOther hothers, List.flatMap_cons, List.append_assoc]
          · have hvalue : step.valueOf? .job = none := by simp [Step.valueOf?, hset, hjob]
            have hjobs : (values.set flag value).jobs = values.jobs := by
              cases flag <;> first | contradiction | rfl
            rw [List.filter_cons_of_pos (by rw [Step.isOther, hvalue, Option.isNone_none]),
              List.filterMap_cons_none hvalue, apply_cons_of_some hset, apply_cons_of_some hset, ih,
              hjobs]

end FlagValues

/-- The jobs in a request are the selection of the values of the job flag. -/
theorem jobs_ofTokens (c : Conventions) (tokens : List String) :
    (ofTokens c tokens).1.jobs = readRepeated (jobValues tokens) := by
  have hjobs : (collectFlags tokens).1.jobs = jobValues tokens := by
    rw [collectFlags, FlagValues.apply_eq_jobs]
    rfl
  simp only [ofTokens, ofFlags, hjobs]

/-- Tokens that set the other flags alike ask for the same but jobs. -/
theorem ofTokens_of_otherSettings (c : Conventions) {a b : List String}
    (h : otherSettings a = otherSettings b) :
    (ofTokens c b).1 = { (ofTokens c a).1 with jobs := readRepeated (jobValues b) } := by
  have hvalues : (collectFlags b).1 = { (collectFlags a).1 with jobs := jobValues b } := by
    rw [collectFlags, collectFlags, FlagValues.apply_eq_jobs {} (walk a),
      FlagValues.apply_eq_jobs {} (walk b), FlagValues.apply, FlagValues.apply]
    rw [otherSettings, otherSettings] at h
    rw [h]
    rfl
  simp only [ofTokens, hvalues]
  rfl

/-- **Repeated jobs**: the jobs in a request are the selection of the values of the job flag, which
add up.  Tokens that set the other flags alike and give these values in another order pick the same
tasks; and tokens that give some of them joined by commas ask for the same, if no value leaves a
bracket open and no item is a word of its own. -/
theorem ofTokens_repeated_jobs (c : Conventions) (tokens : List String) :
    (ofTokens c tokens).1.jobs = readRepeated (jobValues tokens) ∧
    (∀ values, readRepeated values =
      if values = [] ∨ "all" ∈ values then .all
      else .only ((values.filter (· ≠ "none")).flatMap fun value =>
        items value.toList).eraseDups) ∧
    (∀ others, otherSettings tokens = otherSettings others →
      (jobValues tokens).Perm (jobValues others) →
      ∀ t, (ofTokens c others).1.picks t = (ofTokens c tokens).1.picks t) ∧
    ∀ others before values after, otherSettings tokens = otherSettings others →
      jobValues tokens = before ++ values ++ after → Joinable values →
      jobValues others = before ++ [",".intercalate values] ++ after →
      (ofTokens c others).1 = (ofTokens c tokens).1 := by
  refine ⟨jobs_ofTokens c tokens, readRepeated_eq, fun others hsettings hperm t => ?_, ?_⟩
  · rw [ofTokens_of_otherSettings c hsettings]
    exact picks_of_perm hperm (jobs_ofTokens c tokens) t
  · intro others before values after hsettings hvalues hjoinable hjoined
    rw [ofTokens_of_otherSettings c hsettings, hjoined, hjoinable.readRepeated_intercalate,
      ← hvalues, ← jobs_ofTokens c]

/-- Three values, one of them for nothing: in another order, and with the other two joined behind
the flag of a platform. -/
theorem ofTokens_repeated_jobs_joined :
    ∃ tokens reordered joined : List String,
      tokens = ["-j", "b,a[x, y]", "-p", "linux64", "-ja,b", "--job=none"] ∧
      reordered = ["--job=none", "-p", "linux64", "-j", "a,b", "-j", "b,a[x, y]"] ∧
      joined = ["-p", "linux64", "-jb,a[x, y],a,b", "--job", "none"] ∧
      otherSettings tokens = otherSettings reordered ∧
      (jobValues tokens).Perm (jobValues reordered) ∧
      otherSettings tokens = otherSettings joined ∧
      jobValues tokens = [] ++ ["b,a[x, y]", "a,b"] ++ ["none"] ∧
      Joinable ["b,a[x, y]", "a,b"] ∧
      jobValues joined = [] ++ [",".intercalate ["b,a[x, y]", "a,b"]] ++ ["none"] ∧
      (ofTokens .standard tokens).1.jobs = .only ["b", "a[x, y]", "a"] ∧
      (ofTokens .standard reordered).1.jobs = .only ["a", "b", "a[x, y]"] ∧
      (∀ t, (ofTokens .standard reordered).1.picks t = (ofTokens .standard tokens).1.picks t) ∧
      (ofTokens .standard joined).1 = (ofTokens .standard tokens).1 := by
  let tokens := ["-j", "b,a[x, y]", "-p", "linux64", "-ja,b", "--job=none"]
  let reordered := ["--job=none", "-p", "linux64", "-j", "a,b", "-j", "b,a[x, y]"]
  let joined := ["-p", "linux64", "-jb,a[x, y],a,b", "--job", "none"]
  have hreordered : otherSettings tokens = otherSettings reordered := by decide
  have hperm : (jobValues tokens).Perm (jobValues reordered) := by decide
  have hjoined : otherSettings tokens = otherSettings joined := by decide
  have hvalues : jobValues tokens = [] ++ ["b,a[x, y]", "a,b"] ++ ["none"] := by decide
  have hjoinable : Joinable ["b,a[x, y]", "a,b"] := by decide
  have hintercalate : jobValues joined =
      [] ++ [",".intercalate ["b,a[x, y]", "a,b"]] ++ ["none"] := by decide
  obtain ⟨-, -, hpicks, hjoin⟩ := ofTokens_repeated_jobs .standard tokens
  exact ⟨tokens, reordered, joined, rfl, rfl, rfl, hreordered, hperm, hjoined, hvalues, hjoinable,
    hintercalate, by decide, by decide, hpicks reordered hreordered hperm,
    hjoin joined [] _ ["none"] hjoined hvalues hjoinable hintercalate⟩

end PushPlan.Request
