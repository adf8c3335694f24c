import PushPlan.Proofs.Request.Walk
import PushPlan.Proofs.Text.Line

/-!
# PushPlan.Proofs.Request.Grammar

The grammar of flags, and that the walk is silent exactly on it.

1. A flag is written *bare*, as a dash and its letter or two dashes and a name
   of it, or with a value *attached*: behind the letter, where the value is not
   empty, or behind the name and an equals sign, where it may be.
2. A group is a bare switch, a flag that takes a value with that value attached
   or in the next token, or one of four flags that do without (`Spells`).  A
   `Group` carries the proof that it is one.
3. A group is a flag-like token and values behind it, so that the groups behind
   one are a boundary for it.  Hence a list of tokens is cut into groups in at
   most one way, and the walk over it sets one flag a group.
4. A step that gives no warning has read a group, whatever comes after it.
-/

namespace PushPlan.Request

open Text

/-! ## Ways to write a flag -/

/-- A token that is a flag and nothing else. -/
inductive Bare (flag : Flag) : String → Prop where
  | short {letter : Char} (h : Flag.ofShort? letter = some flag) : Bare flag ("-".push letter)
  | long {name : String} (h : Flag.ofLong? name = some flag) : Bare flag ("--" ++ name)

/-- A token that is a flag together with its value. -/
inductive Attached (flag : Flag) (value : String) : String → Prop where
  | short {letter : Char} (h : Flag.ofShort? letter = some flag) (hvalue : value ≠ "") :
      Attached flag value ("-".push letter ++ value)
  | long {name : String} (h : Flag.ofLong? name = some flag) :
      Attached flag value ("--" ++ name ++ "=" ++ value)

/-- The letter of a flag is neither a dash nor a digit. -/
theorem Flag.ne_dash_and_not_digit_of_ofShort? {letter : Char} {flag : Flag}
    (h : ofShort? letter = some flag) : letter ≠ '-' ∧ isDigit letter = false := by
  unfold ofShort? at h
  split at h <;> first | contradiction | decide

/-- No name of a flag has an equals sign, so the first one in a token ends the name. -/
theorem Flag.equals_notMem_of_ofLong? {name : String} {flag : Flag}
    (h : ofLong? name = some flag) : '=' ∉ name.toList := by
  unfold ofLong? at h
  split at h <;> first | contradiction | decide

/-- A token that names a flag is flag-like. -/
theorem flagLike_of_spelled {token : String} {flag : Flag} {attached : Option String}
    (h : spelled token = (some flag, attached)) : flagLike token = true := by
  unfold spelled at h
  unfold flagLike
  split at h
  · next htoken =>
      rw [htoken]
      rfl
  · next letter rest _ htoken =>
      have hletter : Flag.ofShort? letter = some flag := congrArg Prod.fst h
      rw [htoken]
      simp [(Flag.ne_dash_and_not_digit_of_ofShort? hletter).2]
  · cases h

theorem spelled_of_bare {flag : Flag} {token : String} (h : Bare flag token) :
    spelled token = (some flag, none) := by
  cases h with
  | short h =>
      -- A dash for the letter would start a long flag.
      have hdash := (Flag.ne_dash_and_not_digit_of_ofShort? h).1
      simp [spelled, h]
  | @long name h =>
      have hcut : splitAt? '=' name.toList = none :=
        splitAt?_eq_none_iff.2 (Flag.equals_notMem_of_ofLong? h)
      simp [spelled, hcut, h]

theorem spelled_of_attached {flag : Flag} {value token : String} (h : Attached flag value token) :
    spelled token = (some flag, some value) := by
  cases h with
  | short h hvalue =>
      have hdash := (Flag.ne_dash_and_not_digit_of_ofShort? h).1
      simp [spelled, h, hvalue]
  | @long name h =>
      have hcut : splitAt? '=' (name.toList ++ '=' :: value.toList) =
          some (name.toList, value.toList) :=
        splitAt?_eq_some_iff.2 ⟨rfl, Flag.equals_notMem_of_ofLong? h⟩
      simp [spelled, hcut, h]

theorem bare_of_spelled {flag : Flag} {token : String} (h : spelled token = (some flag, none)) :
    Bare flag token := by
  unfold spelled at h
  split at h
  · next long htoken =>
      split at h
      · simp at h
      · have hname : Flag.ofLong? (String.ofList long) = some flag := congrArg Prod.fst h
        have hwritten : token = "--" ++ String.ofList long :=
          String.toList_inj.1 (by simp [htoken])
        rw [hwritten]
        exact .long hname
  · next letter rest _ htoken =>
      have hletter : Flag.ofShort? letter = some flag := congrArg Prod.fst h
      have hrest : rest = [] := by
        have hattached := congrArg Prod.snd h
        simpa using hattached
      have hwritten : token = "-".push letter := String.toList_inj.1 (by simp [htoken, hrest])
      rw [hwritten]
      exact .short hletter
  · cases h

theorem attached_of_spelled {flag : Flag} {value token : String}
    (h : spelled token = (some flag, some value)) : Attached flag value token := by
  unfold spelled at h
  split at h
  · next long htoken =>
      split at h
      · next l r hcut =>
          obtain ⟨hlong, _⟩ := splitAt?_eq_some_iff.1 hcut
          have hname : Flag.ofLong? (String.ofList l) = some flag := congrArg Prod.fst h
          have hvalue : String.ofList r = value := Option.some.inj (congrArg Prod.snd h)
          have hwritten : token = "--" ++ String.ofList l ++ "=" ++ value :=
            String.toList_inj.1 (by simp [htoken, hlong, ← hvalue])
          rw [hwritten]
          exact .long hname
      · simp at h
  · next letter rest _ htoken =>
      have hletter : Flag.ofShort? letter = some flag := congrArg Prod.fst h
      have hrest : rest ≠ [] ∧ String.ofList rest = value := by
        have hattached := congrArg Prod.snd h
        simpa using hattached
      have hwritten : token = "-".push letter ++ value :=
        String.toList_inj.1 (by simp [htoken, ← hrest.2])
      rw [hwritten]
      exact .short hletter (by simp [← hrest.2, hrest.1])
  · cases h

/-! ## Groups -/

/-- Tokens that together set a flag to a value. -/
inductive Spells : List String → Flag → Option String → Prop where
  /-- A switch, by itself. -/
  | switch {token : String} {flag : Flag} (harity : flag.arity = .switch) (h : Bare flag token) :
      Spells [token] flag none
  /-- A flag that takes a value, and the value in the same token. -/
  | attached {token value : String} {flag : Flag} (harity : flag.arity ≠ .switch)
      (h : Attached flag value token) : Spells [token] flag (some value)
  /-- A flag that takes a value, and the value in the next token. -/
  | separate {token value : String} {flag : Flag} (harity : flag.arity ≠ .switch)
      (h : Bare flag token) (hvalue : flagLike value = false) :
      Spells [token, value] flag (some value)
  /-- A flag that stands for all when it has no value. -/
  | fallback {token : String} {flag : Flag}
      (hflag : flag ∈ [Flag.platform, .unittests, .talos, .job]) (h : Bare flag token) :
      Spells [token] flag (some "all")

/-- A group of tokens, with the flag that it sets and the value it sets it to. -/
@[ext]
structure Group where
  tokens : List String
  flag : Flag
  value : Option String
  spells : Spells tokens flag value

theorem Flag.arity_eq_optional_iff {flag : Flag} {word : String} :
    flag.arity = .optional word ↔
      flag ∈ [Flag.platform, .unittests, .talos, .job] ∧ word = "all" := by
  cases flag <;> simp [arity, eq_comm]

/-- A group is a flag-like token and values behind it. -/
theorem Spells.exists_eq_cons {tokens : List String} {flag : Flag} {value : Option String}
    (h : Spells tokens flag value) :
    ∃ token values, tokens = token :: values ∧ flagLike token = true ∧
      ∀ v ∈ values, flagLike v = false := by
  cases h with
  | switch _ h => exact ⟨_, [], rfl, flagLike_of_spelled (spelled_of_bare h), by simp⟩
  | attached _ h => exact ⟨_, [], rfl, flagLike_of_spelled (spelled_of_attached h), by simp⟩
  | separate _ h hvalue =>
      exact ⟨_, [_], rfl, flagLike_of_spelled (spelled_of_bare h), by simpa using hvalue⟩
  | fallback _ h => exact ⟨_, [], rfl, flagLike_of_spelled (spelled_of_bare h), by simp⟩

/-! ## The walk over groups -/

/-- A flag that takes values reads the one that is attached. -/
theorem readGroup_of_attached {flag : Flag} {value token : String} (harity : flag.arity ≠ .switch)
    (h : Attached flag value token) (next : Option String) :
    readGroup token next = (.set flag (some value), false) := by
  have hspelled := spelled_of_attached h
  rw [readGroup, if_pos (flagLike_of_spelled hspelled), hspelled]
  cases hcase : flag.arity with
  | switch => contradiction
  | optional word => simp [hcase]
  | required => simp [hcase]

/-- A flag that takes values reads the one that follows. -/
theorem readGroup_of_separate {flag : Flag} {value token : String} (harity : flag.arity ≠ .switch)
    (h : Bare flag token) (hvalue : flagLike value = false) :
    readGroup token (some value) = (.set flag (some value), true) := by
  have hspelled := spelled_of_bare h
  have htake : (some value).filter (fun t => !flagLike t) = some value := by simp [hvalue]
  rw [readGroup, if_pos (flagLike_of_spelled hspelled), hspelled, htake]
  cases hcase : flag.arity with
  | switch => contradiction
  | optional word => simp [hcase]
  | required => simp [hcase]

/-- The walk reads a group in one silent step. -/
theorem Spells.walk_eq {tokens : List String} {flag : Flag} {value : Option String}
    (h : Spells tokens flag value) : walk tokens = [.set flag value] := by
  cases h with
  | switch harity h =>
      have hspelled := spelled_of_bare h
      simp [walk, readGroup, flagLike_of_spelled hspelled, hspelled, harity]
  | attached harity h => rw [walk, readGroup_of_attached harity h]
  | separate harity h hvalue => simp [walk, readGroup_of_separate harity h hvalue]
  | fallback hflag h =>
      have hspelled := spelled_of_bare h
      have harity := Flag.arity_eq_optional_iff.2 ⟨hflag, rfl⟩
      simp [walk, readGroup, flagLike_of_spelled hspelled, hspelled, harity]

/-- A step without a warning has read a group. -/
theorem spells_of_readGroup {token : String} {next : Option String} {step : Step} {taken : Bool}
    (h : readGroup token next = (step, taken)) (hsilent : step.warning = none) :
    ∃ flag value, Spells (token :: if taken then next.toList else []) flag value := by
  unfold readGroup at h
  split at h
  · split at h
    · cases h
      contradiction
    · next flag attached hspelled =>
        split at h
        · next harity =>
            cases h
            exact ⟨flag, none, .switch harity (bare_of_spelled hspelled)⟩
        · cases h
          contradiction
        · next value harity =>
            cases h
            exact ⟨flag, some value, .attached harity (attached_of_spelled hspelled)⟩
        · next value hnext harity =>
            cases h
            obtain ⟨rfl, hvalue⟩ := Option.filter_eq_some_iff.1 hnext
            have hvalue : flagLike value = false := by simpa using hvalue
            exact ⟨flag, some value, .separate harity (bare_of_spelled hspelled) hvalue⟩
        · next word harity _ =>
            cases h
            obtain ⟨hflag, rfl⟩ := Flag.arity_eq_optional_iff.1 harity
            exact ⟨flag, some "all", .fallback hflag (bare_of_spelled hspelled)⟩
        · cases h
          contradiction
  · cases h
    contradiction

/-! ## Groups in a row -/

namespace Group

/-- The step of a group. -/
def step (group : Group) : Step := .set group.flag group.value

theorem walk_tokens (group : Group) : walk group.tokens = [group.step] := group.spells.walk_eq

/-- What a group sets follows from its tokens. -/
theorem ext_tokens {g h : Group} (htokens : g.tokens = h.tokens) : g = h := by
  have hstep : [g.step] = [h.step] := by rw [← walk_tokens, ← walk_tokens, htokens]
  simp only [step, Step.set, List.cons.injEq, Step.mk.injEq, Option.some.injEq, Prod.mk.injEq,
    and_true] at hstep
  exact Group.ext htokens hstep.1 hstep.2

theorem boundary_tokens (group : Group) : Boundary group.tokens := by
  obtain ⟨token, values, htokens, hflag, _⟩ := group.spells.exists_eq_cons
  simpa [Boundary, htokens] using hflag

theorem tokens_ne_nil (group : Group) : group.tokens ≠ [] := by
  obtain ⟨token, values, htokens, _⟩ := group.spells.exists_eq_cons
  simp [htokens]

/-- Groups are a boundary for what stands before them. -/
theorem boundary_flatMap_tokens (groups : List Group) : Boundary (groups.flatMap tokens) := by
  induction groups with
  | nil => simp [Boundary]
  | cons group groups ih =>
      rw [List.flatMap_cons]
      exact group.boundary_tokens.append ih

/-- **Run law**: the walk over groups takes one silent step a group, in order. -/
theorem walk_flatMap_tokens (groups : List Group) :
    walk (groups.flatMap tokens) = groups.map step := by
  induction groups with
  | nil => rfl
  | cons group groups ih =>
      rw [List.flatMap_cons, walk_append _ (boundary_flatMap_tokens groups), walk_tokens, ih,
        List.singleton_append, List.map_cons]

end Group

/-- Values end where a boundary begins. -/
theorem values_inj_of_boundary {vs ws a b : List String} (hvs : ∀ v ∈ vs, flagLike v = false)
    (hws : ∀ w ∈ ws, flagLike w = false) (ha : Boundary a) (hb : Boundary b)
    (h : vs ++ a = ws ++ b) : vs = ws ∧ a = b := by
  induction vs generalizing ws with
  | nil =>
      cases ws with
      | nil => exact ⟨rfl, h⟩
      | cons w ws =>
          have hw : flagLike w = true := ha w (by simp [show a = w :: (ws ++ b) from h])
          rw [hws w List.mem_cons_self] at hw
          contradiction
  | cons v vs ih =>
      cases ws with
      | nil =>
          have hv : flagLike v = true := hb v (by simp [← show v :: (vs ++ a) = b from h])
          rw [hvs v List.mem_cons_self] at hv
          contradiction
      | cons w ws =>
          obtain ⟨rfl, hrest⟩ := List.cons.inj h
          obtain ⟨rfl, hab⟩ := ih (fun v hv => hvs v (List.mem_cons_of_mem _ hv))
            (fun w hw => hws w (List.mem_cons_of_mem _ hw)) hrest
          exact ⟨rfl, hab⟩

/-- **Unique cut**: tokens are cut into groups in at most one way. -/
theorem Group.flatMap_tokens_inj {gs hs : List Group}
    (h : gs.flatMap tokens = hs.flatMap tokens) : gs = hs := by
  induction gs generalizing hs with
  | nil =>
      cases hs with
      | nil => rfl
      | cons h' hs => simp [h'.tokens_ne_nil] at h
  | cons g gs ih =>
      cases hs with
      | nil => simp [g.tokens_ne_nil] at h
      | cons g' hs =>
          obtain ⟨token, values, htokens, _, hvalues⟩ := g.spells.exists_eq_cons
          obtain ⟨token', values', htokens', _, hvalues'⟩ := g'.spells.exists_eq_cons
          rw [List.flatMap_cons, List.flatMap_cons, htokens, htokens', List.cons_append,
            List.cons_append] at h
          obtain ⟨htoken, hrest⟩ := List.cons.inj h
          obtain ⟨heq, htail⟩ := values_inj_of_boundary hvalues hvalues'
            (boundary_flatMap_tokens gs) (boundary_flatMap_tokens hs) hrest
          have hgroup : g = g' := ext_tokens (by rw [htokens, htokens', htoken, heq])
          rw [hgroup, ih htail]

/-- A walk without warnings has read groups. -/
theorem exists_groups_of_silent {tokens : List String}
    (h : ∀ step ∈ walk tokens, step.warning = none) :
    ∃ groups : List Group, groups.flatMap Group.tokens = tokens := by
  induction tokens using walk.induct with
  | case1 => exact ⟨[], rfl⟩
  | case2 token =>
      rcases hgroup : readGroup token none with ⟨step, taken⟩
      rw [walk, hgroup, List.forall_mem_cons] at h
      obtain ⟨flag, value, hspells⟩ := spells_of_readGroup hgroup h.1
      have htokens : (token :: if taken then none.toList else []) = [token] := by simp
      exact ⟨[⟨[token], flag, value, htokens ▸ hspells⟩], rfl⟩
  | case3 token next rest step hgroup ih =>
      rw [walk, hgroup, List.forall_mem_cons] at h
      obtain ⟨flag, value, hspells⟩ := spells_of_readGroup hgroup h.1
      obtain ⟨groups, hgroups⟩ := ih h.2
      exact ⟨⟨[token], flag, value, hspells⟩ :: groups, by simp [hgroups]⟩
  | case4 token next rest step hgroup ih =>
      rw [walk, hgroup, List.forall_mem_cons] at h
      obtain ⟨flag, value, hspells⟩ := spells_of_readGroup hgroup h.1
      obtain ⟨groups, hgroups⟩ := ih h.2
      exact ⟨⟨[token, next], flag, value, hspells⟩ :: groups, by simp [hgroups]⟩

/-- **Silence**: no warning is given exactly when the tokens are groups one after the other.
They are cut into groups in only one way then, and each group in turn sets its flag. -/
theorem collectFlags_silent_iff (tokens : List String) :
    ((collectFlags tokens).2 = [] ↔
        ∃ groups : List Group, groups.flatMap Group.tokens = tokens) ∧
      ∀ groups : List Group, groups.flatMap Group.tokens = tokens →
        (walk tokens).filterMap (·.setting) = groups.map (fun g => (g.flag, g.value)) ∧
        (collectFlags tokens).1 =
          groups.foldl (fun values g => values.set g.flag g.value) {} ∧
        ∀ others : List Group, others.flatMap Group.tokens = tokens → others = groups := by
  refine ⟨⟨fun hsilent => ?_, ?_⟩, ?_⟩
  · exact exists_groups_of_silent (List.filterMap_eq_nil_iff.1 hsilent)
  · rintro ⟨groups, rfl⟩
    rw [collectFlags, Group.walk_flatMap_tokens, List.filterMap_map]
    simp [Group.step, Step.set]
  · rintro groups rfl
    have hsettings : (walk (groups.flatMap Group.tokens)).filterMap (·.setting) =
        groups.map (fun g => (g.flag, g.value)) := by
      rw [Group.walk_flatMap_tokens, List.filterMap_map, ← List.filterMap_eq_map]
      rfl
    refine ⟨hsettings, ?_, fun others hothers => Group.flatMap_tokens_inj hothers⟩
    rw [collectFlags, FlagValues.apply, hsettings, List.foldl_map]

/-- A line with a group of every sort, of which `--tag=` has the empty value and `--rebuild`
a negative number. -/
theorem collectFlags_silent_iff_mixed :
    (∃ groups : List Group,
      groups.flatMap Group.tokens = ["-bdo", "-p", "--tag=", "--rebuild", "-1", "-e"] ∧
      groups.map (fun g => (g.flag, g.value)) =
        [(.build, some "do"), (.platform, some "all"), (.tag, some ""), (.rebuild, some "-1"),
          (.allEmails, none)] ∧
      ∀ others : List Group,
        others.flatMap Group.tokens = ["-bdo", "-p", "--tag=", "--rebuild", "-1", "-e"] →
        others = groups) ∧
      (collectFlags ["-bdo", "-p", "--tag=", "--rebuild", "-1", "-e"]).2 = [] := by
  obtain ⟨hsilent, hgroups⟩ :=
    collectFlags_silent_iff ["-bdo", "-p", "--tag=", "--rebuild", "-1", "-e"]
  let groups : List Group :=
    [⟨["-bdo"], .build, some "do", .attached (by decide) (attached_of_spelled (by decide))⟩,
      ⟨["-p"], .platform, some "all", .fallback (by decide) (bare_of_spelled (by decide))⟩,
      ⟨["--tag="], .tag, some "", .attached (by decide) (attached_of_spelled (by decide))⟩,
      ⟨["--rebuild", "-1"], .rebuild, some "-1",
        .separate (by decide) (bare_of_spelled (by decide)) (by decide)⟩,
      ⟨["-e"], .allEmails, none, .switch (by decide) (bare_of_spelled (by decide))⟩]
  obtain ⟨_, _, honly⟩ := hgroups groups rfl
  exact ⟨⟨groups, rfl, rfl, honly⟩, hsilent.2 ⟨groups, rfl⟩⟩

end PushPlan.Request
