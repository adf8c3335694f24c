import PushPlan.Request

/-!
# PushPlan.Proofs.Request.Walk

The flag walk over a list of tokens that is put together from parts.

1. A part may be followed by anything that is a *boundary*: nothing, or tokens
   of which the first is flag-like.  The last flag of the part then has no value
   to take beyond its end, and the steps of the whole are the steps of the parts
   (`walk_append`).
2. Flag values *merge*: a value of the second part overrides one of the first,
   lists are appended, switches are or-ed.  With the empty values, merging is a
   monoid, and setting a flag is merging with the values that hold only that
   flag.  For this a flag that takes a value must be given one, as every step of
   a walk does (`Step.Valued`).
3. Reading flags is therefore a homomorphism, from which it follows that unknown
   flags change nothing and that groups which set different fields commute.
-/

namespace PushPlan.Request

/-! ## Boundaries -/

/-- Nothing follows, or a token that is flag-like. -/
def Boundary (tokens : List String) : Prop := ∀ token ∈ tokens.head?, flagLike token = true

instance (tokens : List String) : Decidable (Boundary tokens) :=
  inferInstanceAs (Decidable (∀ token ∈ tokens.head?, flagLike token = true))

theorem Boundary.append {a b : List String} (ha : Boundary a) (hb : Boundary b) :
    Boundary (a ++ b) := by
  cases a with
  | nil => exact hb
  | cons token a => exact ha

/-! ## Groups -/

theorem readGroup_none_snd (token : String) : (readGroup token none).2 = false := by
  unfold readGroup
  split
  · split
    · rfl
    · split <;> simp_all
  · rfl

/-- At a boundary there is nothing to take. -/
theorem readGroup_head?_of_boundary (token : String) {b : List String} (hb : Boundary b) :
    readGroup token b.head? = readGroup token none := by
  have hfilter : b.head?.filter (fun t => !flagLike t) = none := by
    rw [Option.filter_eq_none_iff]
    intro t ht
    simp [hb t ht]
  simp only [readGroup, hfilter, Option.filter_none]

/-- The walk takes one group and goes on behind it. -/
theorem walk_cons (token : String) (rest : List String) :
    walk (token :: rest) =
      (readGroup token rest.head?).1 ::
        walk (if (readGroup token rest.head?).2 then rest.tail else rest) := by
  cases rest with
  | nil => rw [List.head?_nil, readGroup_none_snd, if_neg Bool.false_ne_true, walk, walk]
  | cons next rest =>
      rw [walk]
      rcases hgroup : readGroup token (some next) with ⟨step, taken⟩
      cases taken <;> simp [hgroup]

/-- **Append law**: at a boundary the steps of the whole are those of the parts. -/
theorem walk_append (a : List String) {b : List String} (hb : Boundary b) :
    walk (a ++ b) = walk a ++ walk b := by
  induction a using walk.induct with
  | case1 => simp [walk]
  | case2 token =>
      -- The last token of `a` now has a next one, but cannot take it.
      rw [List.singleton_append, walk_cons, readGroup_head?_of_boundary token hb,
        readGroup_none_snd, if_neg Bool.false_ne_true, walk, List.singleton_append]
  | case3 token next rest step hgroup ih =>
      rw [List.cons_append, walk_cons, walk_cons]
      simp only [List.head?_cons, List.cons_append, hgroup, if_neg Bool.false_ne_true] at ih ⊢
      rw [ih]
  | case4 token next rest step hgroup ih =>
      rw [List.cons_append, walk_cons, walk_cons]
      simp only [List.head?_cons, List.cons_append, hgroup, if_true, List.tail_cons]
      rw [ih]

/-- A step of a walk is that of some token. -/
theorem exists_readGroup_of_mem_walk {tokens : List String} {step : Step}
    (h : step ∈ walk tokens) : ∃ token next, (readGroup token next).1 = step := by
  induction tokens using walk.induct with
  | case1 => simp [walk] at h
  | case2 token => exact ⟨token, none, by simpa [walk, eq_comm] using h⟩
  | case3 token next rest first hgroup ih =>
      rw [walk, hgroup] at h
      obtain rfl | h := List.mem_cons.1 h
      · exact ⟨token, some next, by rw [hgroup]⟩
      · exact ih h
  | case4 token next rest first hgroup ih =>
      rw [walk, hgroup] at h
      obtain rfl | h := List.mem_cons.1 h
      · exact ⟨token, some next, by rw [hgroup]⟩
      · exact ih h

/-! ## Unknown flags -/

/-- A token that looks like a flag and is none. -/
def UnknownFlag (token : String) : Prop :=
  flagLike token = true ∧ (spelled token).1 = none

instance (token : String) : Decidable (UnknownFlag token) :=
  inferInstanceAs (Decidable (_ ∧ _))

/-- An unknown flag is skipped by itself, whatever follows. -/
theorem readGroup_of_unknown {token : String} (h : UnknownFlag token) (next : Option String) :
    readGroup token next = (.skip (.unknownFlag token), false) := by
  obtain ⟨hflag, hname⟩ := h
  unfold readGroup
  rw [if_pos hflag]
  split
  · rfl
  · next flag attached hspelled =>
      rw [hspelled] at hname
      contradiction

/-- Unknown flags are skipped one by one. -/
theorem walk_of_unknown {tokens : List String} (h : ∀ token ∈ tokens, UnknownFlag token) :
    walk tokens = tokens.map fun token => .skip (.unknownFlag token) := by
  induction tokens with
  | nil => rfl
  | cons token tokens ih =>
      have htoken : UnknownFlag token := h token List.mem_cons_self
      have hrest : ∀ t ∈ tokens, UnknownFlag t := fun t ht => h t (List.mem_cons_of_mem token ht)
      rw [walk_cons, readGroup_of_unknown htoken, if_neg Bool.false_ne_true, ih hrest,
        List.map_cons]

theorem boundary_of_unknown {tokens : List String} (h : ∀ token ∈ tokens, UnknownFlag token) :
    Boundary tokens :=
  fun token htoken => (h token (List.mem_of_mem_head? htoken)).1

/-! ## Merging flag values -/

namespace FlagValues

/-- The values after those of `w` have been set over those of `v`. -/
def merge (v w : FlagValues) : FlagValues where
  build := w.build.or v.build
  platforms := w.platforms.or v.platforms
  unittests := w.unittests.or v.unittests
  talos := w.talos.or v.talos
  jobs := v.jobs ++ w.jobs
  rebuild := w.rebuild.or v.rebuild
  rebuildTalos := w.rebuildTalos.or v.rebuildTalos
  notifications := w.notifications.or v.notifications
  env := v.env ++ w.env
  profile := v.profile || w.profile
  tag := w.tag.or v.tag
  noRetry := v.noRetry || w.noRetry
  interactive := v.interactive || w.interactive

@[simp] theorem merge_empty (v : FlagValues) : v.merge {} = v := by
  simp [merge]

theorem merge_assoc (u v w : FlagValues) : (u.merge v).merge w = u.merge (v.merge w) := by
  simp only [merge, Option.or_assoc, List.append_assoc, Bool.or_assoc]

/-! ## Fields -/

/-- The fields of flag values. -/
inductive Field where
  | build | platforms | unittests | talos | jobs | rebuild | rebuildTalos
  | notifications | env | profile | tag | noRetry | interactive
deriving DecidableEq

/-- Whether a field is set. -/
def sets (v : FlagValues) : Field → Bool
  | .build => v.build.isSome
  | .platforms => v.platforms.isSome
  | .unittests => v.unittests.isSome
  | .talos => v.talos.isSome
  | .jobs => !v.jobs.isEmpty
  | .rebuild => v.rebuild.isSome
  | .rebuildTalos => v.rebuildTalos.isSome
  | .notifications => v.notifications.isSome
  | .env => !v.env.isEmpty
  | .profile => v.profile
  | .tag => v.tag.isSome
  | .noRetry => v.noRetry
  | .interactive => v.interactive

/-- No field is set in both. -/
def Disjoint (v w : FlagValues) : Prop := ∀ field, v.sets field = true → w.sets field = false

/-- Of two values that are not both there, it does not matter which one is tried first. -/
theorem or_comm_of_disjoint {a b : Option String} (h : a.isSome = true → b.isSome = false) :
    b.or a = a.or b := by
  cases a with
  | none => simp
  | some x =>
      have hb : b = none := by simpa using h rfl
      simp [hb]

/-- Of two lists that do not both hold something, it does not matter which one comes first. -/
theorem append_comm_of_disjoint {a b : List String}
    (h : (!a.isEmpty) = true → (!b.isEmpty) = false) : a ++ b = b ++ a := by
  cases a with
  | nil => simp
  | cons x a =>
      have hb : b = [] := by simpa using h rfl
      simp [hb]

/-- Values that set different fields can be merged in either order. -/
theorem merge_comm_of_disjoint {v w : FlagValues} (h : v.Disjoint w) : v.merge w = w.merge v := by
  simp only [merge, mk.injEq]
  exact ⟨or_comm_of_disjoint (h .build), or_comm_of_disjoint (h .platforms),
    or_comm_of_disjoint (h .unittests), or_comm_of_disjoint (h .talos),
    append_comm_of_disjoint (h .jobs), or_comm_of_disjoint (h .rebuild),
    or_comm_of_disjoint (h .rebuildTalos), or_comm_of_disjoint (h .notifications),
    append_comm_of_disjoint (h .env), Bool.or_comm _ _, or_comm_of_disjoint (h .tag),
    Bool.or_comm _ _, Bool.or_comm _ _⟩

end FlagValues

/-! ## Steps with values -/

/-- A step gives a value to a flag that takes one. -/
def Step.Valued (step : Step) : Prop :=
  ∀ flag value, step.setting = some (flag, value) → flag.arity = .switch ∨ value.isSome = true

/-- A group gives a value to a flag that takes one. -/
theorem valued_readGroup (token : String) (next : Option String) :
    (readGroup token next).1.Valued := by
  intro flag value hset
  unfold readGroup at hset
  split at hset
  · split at hset
    · contradiction
    · next attached hspelled =>
        -- Only switches are set without a value, whether one is attached or not.
        split at hset
        · cases hset
          exact .inl ‹flag.arity = .switch›
        · cases hset
          exact .inl ‹flag.arity = .switch›
        · cases hset
          exact .inr rfl
        · cases hset
          exact .inr rfl
        · cases hset
          exact .inr rfl
        · contradiction
  · contradiction

theorem valued_of_mem_walk {tokens : List String} : ∀ step ∈ walk tokens, step.Valued := by
  intro step hstep
  obtain ⟨token, next, rfl⟩ := exists_readGroup_of_mem_walk hstep
  exact valued_readGroup token next

namespace FlagValues

/-- Setting one flag is merging with the values that hold only that flag. -/
theorem set_eq_merge (v : FlagValues) {flag : Flag} {value : Option String}
    (h : flag.arity = .switch ∨ value.isSome = true) :
    v.set flag value = v.merge (set {} flag value) := by
  cases value with
  | some x => cases flag <;> simp [set, merge]
  | none => cases flag <;> simp_all [set, merge, Flag.arity]

theorem apply_cons (v : FlagValues) (step : Step) (steps : List Step) :
    v.apply (step :: steps) =
      (match step.setting with
        | some (flag, value) => v.set flag value
        | none => v).apply steps := by
  simp only [apply, List.filterMap_cons]
  cases step.setting <;> rfl

/-- The steps of a walk can be taken from the empty values and merged in afterwards. -/
theorem apply_eq_merge (v : FlagValues) {steps : List Step} (h : ∀ step ∈ steps, step.Valued) :
    v.apply steps = v.merge (apply {} steps) := by
  induction steps generalizing v with
  | nil => simp [apply]
  | cons step steps ih =>
      have hstep : step.Valued := h step List.mem_cons_self
      have hsteps : ∀ s ∈ steps, s.Valued := fun s hs => h s (List.mem_cons_of_mem step hs)
      rw [apply_cons, apply_cons]
      cases hset : step.setting with
      | none => exact ih v hsteps
      | some setting =>
          obtain ⟨flag, value⟩ := setting
          have hvalue := hstep flag value hset
          calc
            (v.set flag value).apply steps
            _ = (v.set flag value).merge (apply {} steps) := ih _ hsteps
            _ = (v.merge (set {} flag value)).merge (apply {} steps) := by
                rw [set_eq_merge v hvalue]
            _ = v.merge ((set {} flag value).merge (apply {} steps)) := merge_assoc _ _ _
            _ = v.merge ((set {} flag value).apply steps) := by rw [ih (set {} flag value) hsteps]

theorem apply_append (v : FlagValues) (xs ys : List Step) :
    v.apply (xs ++ ys) = (v.apply xs).apply ys := by
  simp only [apply, List.filterMap_append, List.foldl_append]

end FlagValues

/-! ## Reading flags in parts -/

/-- **Homomorphism**: at a boundary the values merge and the warnings follow each other. -/
theorem collectFlags_append (a : List String) {b : List String} (hb : Boundary b) :
    collectFlags (a ++ b) =
      ((collectFlags a).1.merge (collectFlags b).1,
        (collectFlags a).2 ++ (collectFlags b).2) := by
  simp only [collectFlags, walk_append a hb, FlagValues.apply_append, List.filterMap_append]
  rw [FlagValues.apply_eq_merge _ valued_of_mem_walk]

/-- Unknown flags set nothing and are each warned about. -/
theorem collectFlags_of_unknown {tokens : List String}
    (h : ∀ token ∈ tokens, UnknownFlag token) :
    collectFlags tokens = ({}, tokens.map .unknownFlag) := by
  have hsettings : (walk tokens).filterMap (·.setting) = [] := by
    rw [List.filterMap_eq_nil_iff, walk_of_unknown h]
    simp [Step.skip]
  have hwarnings : (walk tokens).filterMap (·.warning) = tokens.map .unknownFlag := by
    rw [walk_of_unknown h, List.filterMap_map, ← List.filterMap_eq_map]
    rfl
  simp only [collectFlags, FlagValues.apply, hsettings, hwarnings, List.foldl_nil]

/-- The request depends on the values of the flags alone. -/
theorem ofTokens_fst_congr (c : Conventions) {s t : List String}
    (h : (collectFlags s).1 = (collectFlags t).1) :
    (ofTokens c s).1 = (ofTokens c t).1 := by
  simp only [ofTokens, h]

/-- **Composition of flags**: at a boundary, reading flags merges the values of both parts and
puts the warnings one after the other.  Unknown flags put there add their warnings and change
nothing else, and groups put there that set different fields can be swapped. -/
theorem collectFlags_composes (a : List String) {b : List String} (hb : Boundary b) :
    collectFlags (a ++ b) =
        ((collectFlags a).1.merge (collectFlags b).1,
          (collectFlags a).2 ++ (collectFlags b).2) ∧
      (∀ unknown, (∀ token ∈ unknown, UnknownFlag token) →
        (collectFlags (a ++ unknown ++ b)).1 = (collectFlags (a ++ b)).1 ∧
        (collectFlags (a ++ unknown ++ b)).2 =
          (collectFlags a).2 ++ unknown.map .unknownFlag ++ (collectFlags b).2 ∧
        ∀ c, (ofTokens c (a ++ unknown ++ b)).1 = (ofTokens c (a ++ b)).1) ∧
      ∀ x y, Boundary x → Boundary y → (collectFlags x).1.Disjoint (collectFlags y).1 →
        ∀ c, (ofTokens c (a ++ x ++ y ++ b)).1 = (ofTokens c (a ++ y ++ x ++ b)).1 := by
  refine ⟨collectFlags_append a hb, fun unknown hunknown => ?_, fun x y hx hy hdisjoint c => ?_⟩
  · have hparts : collectFlags (a ++ unknown ++ b) =
        ((collectFlags a).1.merge (collectFlags b).1,
          (collectFlags a).2 ++ unknown.map .unknownFlag ++ (collectFlags b).2) := by
      rw [collectFlags_append _ hb, collectFlags_append a (boundary_of_unknown hunknown),
        collectFlags_of_unknown hunknown, FlagValues.merge_empty]
    have hvalues : (collectFlags (a ++ unknown ++ b)).1 = (collectFlags (a ++ b)).1 := by
      rw [hparts, collectFlags_append a hb]
    exact ⟨hvalues, by rw [hparts], fun c => ofTokens_fst_congr c hvalues⟩
  · apply ofTokens_fst_congr
    have hxy : (collectFlags x).1.merge (collectFlags y).1 =
        (collectFlags y).1.merge (collectFlags x).1 := FlagValues.merge_comm_of_disjoint hdisjoint
    rw [collectFlags_append _ hb, collectFlags_append _ hy, collectFlags_append _ hx,
      collectFlags_append _ hb, collectFlags_append _ hx, collectFlags_append _ hy]
    simp only [FlagValues.merge_assoc]
    rw [← FlagValues.merge_assoc (collectFlags x).1, hxy, FlagValues.merge_assoc]

/-- The laws behind a flag that still waits for its value. -/
theorem collectFlags_composes_after_waiting :
    Boundary ["-p", "linux64"] ∧ (∀ token ∈ ["--frob=1", "-x"], UnknownFlag token) ∧
      Boundary ["-u", "xpcshell"] ∧ Boundary ["-e", "--tag", "slow"] ∧
      (collectFlags ["-u", "xpcshell"]).1.Disjoint (collectFlags ["-e", "--tag", "slow"]).1 ∧
      (collectFlags (["-t", "-b"] ++ ["--frob=1", "-x"] ++ ["-p", "linux64"])).1 =
        (collectFlags (["-t", "-b"] ++ ["-p", "linux64"])).1 ∧
      ∀ c,
        (ofTokens c (["-t", "-b"] ++ ["-u", "xpcshell"] ++ ["-e", "--tag", "slow"] ++
          ["-p", "linux64"])).1 =
        (ofTokens c (["-t", "-b"] ++ ["-e", "--tag", "slow"] ++ ["-u", "xpcshell"] ++
          ["-p", "linux64"])).1 := by
  have hb : Boundary ["-p", "linux64"] := by decide
  have hunknown : ∀ token ∈ ["--frob=1", "-x"], UnknownFlag token := by decide
  have hx : Boundary ["-u", "xpcshell"] := by decide
  have hy : Boundary ["-e", "--tag", "slow"] := by decide
  have hdisjoint :
      (collectFlags ["-u", "xpcshell"]).1.Disjoint (collectFlags ["-e", "--tag", "slow"]).1 := by
    intro field
    cases field <;> decide
  obtain ⟨_, hinsert, hswap⟩ := collectFlags_composes ["-t", "-b"] hb
  have hinserted := (hinsert ["--frob=1", "-x"] hunknown).1
  have hswapped := hswap ["-u", "xpcshell"] ["-e", "--tag", "slow"] hx hy hdisjoint
  exact ⟨hb, hunknown, hx, hy, hdisjoint, hinserted, hswapped⟩

end PushPlan.Request
