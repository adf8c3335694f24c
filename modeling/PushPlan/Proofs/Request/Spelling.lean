import PushPlan.Proofs.Request.Grammar

/-!
# PushPlan.Proofs.Request.Spelling

The ways to write one flag with one value.

1. A flag with its value starts with a flag-like token, which no flag in front of it
   takes as a value; and the walk goes on right behind it, whatever stands there,
   since a flag that has its value takes nothing more (`SetsAnywhere`).
2. So the flag is set between what stands around it, however it is written.
3. Of the flags that take a value, five have a letter and a name (`Flag.lettered`).
   For these there are four spellings: the value behind the letter or in the token
   after it, behind the name and an equals sign or in the token after it.
-/

namespace PushPlan.Request

/-! ## Tokens that set a flag -/

/-- Tokens that set a flag to a value wherever they stand: no flag in front of them takes the first
of them, and they take nothing of what follows. -/
structure SetsAnywhere (tokens : List String) (flag : Flag) (value : String) : Prop where
  boundary : ∀ rest, Boundary (tokens ++ rest)
  walk_eq : ∀ rest, walk (tokens ++ rest) = .set flag (some value) :: walk rest

section

variable {flag : Flag} {token value : String}

/-- A flag with its value attached. -/
theorem setsAnywhere_of_attached (harity : flag.arity ≠ .switch) (h : Attached flag value token) :
    SetsAnywhere [token] flag value where
  boundary _ := by simpa [Boundary] using flagLike_of_spelled (spelled_of_attached h)
  walk_eq rest := by
    rw [List.singleton_append, walk_cons, readGroup_of_attached harity h,
      if_neg Bool.false_ne_true]

/-- A bare flag, and a token that it takes. -/
theorem setsAnywhere_of_separate (harity : flag.arity ≠ .switch) (h : Bare flag token)
    (hlike : flagLike value = false) : SetsAnywhere [token, value] flag value where
  boundary _ := by simpa [Boundary] using flagLike_of_spelled (spelled_of_bare h)
  walk_eq rest := by
    rw [List.cons_append, List.singleton_append, walk_cons, List.head?_cons,
      readGroup_of_separate harity h hlike, if_pos rfl, List.tail_cons]

/-- In front of other tokens, the flag is set first. -/
theorem SetsAnywhere.collectFlags_eq {tokens : List String} (h : SetsAnywhere tokens flag value)
    (rest : List String) :
    collectFlags (tokens ++ rest) =
      ((FlagValues.set {} flag (some value)).merge (collectFlags rest).1,
        (collectFlags rest).2) := by
  have hvalues : FlagValues.apply {} (.set flag (some value) :: walk rest) =
      (FlagValues.set {} flag (some value)).merge (FlagValues.apply {} (walk rest)) := by
    rw [FlagValues.apply_cons]
    exact FlagValues.apply_eq_merge _ valued_of_mem_walk
  simp only [collectFlags, h.walk_eq, hvalues]
  rfl

/-- Between other tokens, the flag is set after those before it and before those behind it. -/
theorem SetsAnywhere.collectFlags_between {tokens : List String}
    (h : SetsAnywhere tokens flag value) (before rest : List String) :
    collectFlags (before ++ tokens ++ rest) =
      (((collectFlags before).1.set flag (some value)).merge (collectFlags rest).1,
        (collectFlags before).2 ++ (collectFlags rest).2) := by
  have hset : (collectFlags before).1.set flag (some value) =
      (collectFlags before).1.merge (FlagValues.set {} flag (some value)) :=
    FlagValues.set_eq_merge _ (.inr rfl)
  rw [List.append_assoc, collectFlags_append before (h.boundary rest), h.collectFlags_eq, hset,
    FlagValues.merge_assoc]

end

/-! ## Spellings -/

namespace Flag

/-- The flags that take a value and have both a letter and a name. -/
def lettered : List (Flag × Char × String) :=
  [(.build, 'b', "build"), (.platform, 'p', "platform"), (.unittests, 'u', "unittests"),
    (.talos, 't', "talos"), (.job, 'j', "job")]

theorem ofShort?_and_ofLong?_of_mem_lettered {flag : Flag} {letter : Char} {name : String}
    (h : (flag, letter, name) ∈ lettered) :
    ofShort? letter = some flag ∧ ofLong? name = some flag ∧ flag.arity ≠ .switch := by
  have hall : ∀ x ∈ lettered, ofShort? x.2.1 = some x.1 ∧ ofLong? x.2.2 = some x.1 ∧
      x.1.arity ≠ .switch := by decide
  exact hall _ h

end Flag

/-- The ways to write a flag and its value. -/
def spellings (letter : Char) (name value : String) : List (List String) :=
  [["-".push letter ++ value], ["-".push letter, value], ["--" ++ name ++ "=" ++ value],
    ["--" ++ name, value]]

theorem setsAnywhere_of_mem_spellings {flag : Flag} {letter : Char} {name value : String}
    {tokens : List String} (hflag : (flag, letter, name) ∈ Flag.lettered) (hvalue : value ≠ "")
    (hlike : flagLike value = false) (h : tokens ∈ spellings letter name value) :
    SetsAnywhere tokens flag value := by
  obtain ⟨hletter, hname, harity⟩ := Flag.ofShort?_and_ofLong?_of_mem_lettered hflag
  simp only [spellings, List.mem_cons, List.not_mem_nil, or_false] at h
  rcases h with rfl | rfl | rfl | rfl
  · exact setsAnywhere_of_attached harity (.short hletter hvalue)
  · exact setsAnywhere_of_separate harity (.short hletter) hlike
  · exact setsAnywhere_of_attached harity (.long hname)
  · exact setsAnywhere_of_separate harity (.long hname) hlike

/-- **Spellings agree**: between any tokens, the four ways to write a value that is not empty and
not flag-like set the flag to that value, and give the same values and the same warnings. -/
theorem collectFlags_spellings_agree {flag : Flag} {letter : Char} {name value : String}
    (hflag : (flag, letter, name) ∈ Flag.lettered) (hvalue : value ≠ "")
    (hlike : flagLike value = false) (before rest : List String) :
    (∀ s ∈ spellings letter name value, ∀ t ∈ spellings letter name value,
      collectFlags (before ++ s ++ rest) = collectFlags (before ++ t ++ rest)) ∧
    ∀ s ∈ spellings letter name value,
      collectFlags (before ++ s ++ rest) =
        (((collectFlags before).1.set flag (some value)).merge (collectFlags rest).1,
          (collectFlags before).2 ++ (collectFlags rest).2) := by
  have hset := fun s (hs : s ∈ spellings letter name value) =>
    (setsAnywhere_of_mem_spellings hflag hvalue hlike hs).collectFlags_between before rest
  refine ⟨fun s hs t ht => ?_, hset⟩
  rw [hset s hs, hset t ht]

/-- A value that starts with a dash and a digit and holds an equals sign, behind a flag that still
waits for its value and before a token that no flag takes. -/
theorem collectFlags_spellings_agree_waiting :
    (Flag.platform, 'p', "platform") ∈ Flag.lettered ∧ "-1=x" ≠ "" ∧ flagLike "-1=x" = false ∧
      collectFlags ["--tag", "-p-1=x", "o"] = collectFlags ["--tag", "-p", "-1=x", "o"] ∧
      collectFlags ["--tag", "-p-1=x", "o"] = collectFlags ["--tag", "--platform=-1=x", "o"] ∧
      collectFlags ["--tag", "-p-1=x", "o"] =
        collectFlags ["--tag", "--platform", "-1=x", "o"] := by
  have hflag : (Flag.platform, 'p', "platform") ∈ Flag.lettered := by decide
  have hvalue : "-1=x" ≠ "" := by decide
  have hlike : flagLike "-1=x" = false := by decide
  obtain ⟨hagree, _⟩ := collectFlags_spellings_agree hflag hvalue hlike ["--tag"] ["o"]
  exact ⟨hflag, hvalue, hlike, hagree ["-p-1=x"] (by decide) ["-p", "-1=x"] (by decide),
    hagree ["-p-1=x"] (by decide) ["--platform=-1=x"] (by decide),
    hagree ["-p-1=x"] (by decide) ["--platform", "-1=x"] (by decide)⟩

end PushPlan.Request
