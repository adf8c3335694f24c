import PushPlan.Proofs.Strategy.Registry
import PushPlan.Proofs.Value

/-!
# PushPlan.Proofs.Strategy.History

Registries over their history.

1. Registries are kept side by side in numbered places.  A step registers a
   strategy in one of them, or puts a copy of one in the place of another: this is
   how a registry is saved, and how it is restored (`Step`).
2. The same steps make a history for every place, the latest registration first.  A
   copy takes its history along (`histories`).
3. A registry finds under every name what its history has under it, and no step
   changes that (`Follows`).  So all that can be asked of a registry is told from
   its history (`Answers`), whatever its strategies do and however they fail.
4. A step changes one place only, and registering changes what is found under one
   name only.
-/

namespace PushPlan.Registry

variable {ε : Type}

/-! ## Steps -/

/-- How a registry is made. -/
inductive Origin where
  | empty
  | standard
  | settings (s : Settings)

/-- Strategies by name, the latest registration first. -/
abbrev History (ε : Type) := List (String × Strategy ε)

namespace Origin

def registry : Origin → Registry ε
  | .empty => .empty
  | .standard => .standard
  | .settings s => .ofSettings s

/-- The strategies of the given settings, in the order in which they are registered. -/
def builtIn (s : Settings) : History ε :=
  [(byRequestName, .byRequest s.conventions), (byProjectName, .byProject s.projects)]

def history : Origin → History ε
  | .empty => []
  | .standard => builtIn .standard
  | .settings s => builtIn s

end Origin

/-- A step with registries in numbered places. -/
inductive Step (ε : Type) where
  /-- Registers a strategy in the registry of a place. -/
  | register (place : Nat) (name : String) (s : Strategy ε)
  /-- Puts a copy of the registry of one place into another. -/
  | copy (source target : Nat)

namespace Step

/-- The place that a step changes. -/
def target : Step ε → Nat
  | .register place _ _ => place
  | .copy _ target => target

variable {α : Type}

/-- What a step leaves in each place, when `add` adds a registration to what is there. -/
def act (add : String → Strategy ε → α → α) (places : Nat → α) (step : Step ε) (place : Nat) : α :=
  if place = step.target then
    match step with
    | .register place name s => add name s (places place)
    | .copy source _ => places source
  else places place

/-- What some steps leave in each place. -/
def run (add : String → Strategy ε → α → α) (places : Nat → α) (steps : List (Step ε)) : Nat → α :=
  steps.foldl (act add) places

end Step

def registries (start : Nat → Origin) (steps : List (Step ε)) : Nat → Registry ε :=
  Step.run register (fun place => (start place).registry) steps

def histories (start : Nat → Origin) (steps : List (Step ε)) : Nat → History ε :=
  Step.run (fun name s h => (name, s) :: h) (fun place => (start place).history) steps

/-! ## One place at a time -/

namespace Step

variable {α : Type} {add : String → Strategy ε → α → α} {places : Nat → α}

theorem act_of_ne {step : Step ε} {place : Nat} (h : place ≠ step.target) :
    act add places step place = places place := if_neg h

theorem act_register_self (place : Nat) (name : String) (s : Strategy ε) :
    act add places (.register place name s) place = add name s (places place) := if_pos rfl

theorem act_copy_self (source target : Nat) :
    act add places (.copy source target) target = places source := if_pos rfl

theorem run_nil : run add places [] = places := rfl

theorem run_cons (step : Step ε) (steps : List (Step ε)) :
    run add places (step :: steps) = run add (act add places step) steps := rfl

theorem run_append (steps later : List (Step ε)) :
    run add places (steps ++ later) = run add (run add places steps) later :=
  List.foldl_append

/-- Steps that change other places leave a place as it is. -/
theorem run_of_ne {steps : List (Step ε)} {place : Nat} (h : ∀ step ∈ steps, step.target ≠ place) :
    run add places steps place = places place := by
  induction steps generalizing places with
  | nil => rfl
  | cons step steps ih =>
      have hsteps : ∀ s ∈ steps, s.target ≠ place := fun s hs =>
        h s (List.mem_cons_of_mem step hs)
      have hne : place ≠ step.target := (h step List.mem_cons_self).symm
      calc
        run add (act add places step) steps place
        _ = act add places step place := ih hsteps
        _ = places place := act_of_ne hne

/-- What holds between two runs at the start, and is kept by adding a registration, holds after the
same steps. -/
theorem run_induction {β : Type} {add' : String → Strategy ε → β → β} {places' : Nat → β}
    {R : α → β → Prop} (hadd : ∀ name s a b, R a b → R (add name s a) (add' name s b))
    (hstart : ∀ place, R (places place) (places' place)) (steps : List (Step ε)) (place : Nat) :
    R (run add places steps place) (run add' places' steps place) := by
  induction steps generalizing places places' with
  | nil => exact hstart place
  | cons step steps ih =>
      -- The first step is taken on both sides: what it leaves is where the others start from.
      refine ih fun p => ?_
      by_cases hp : p = step.target
      · subst hp
        cases step with
        | register place name s =>
            rw [target, act_register_self, act_register_self]
            exact hadd name s _ _ (hstart place)
        | copy source target =>
            rw [Step.target, act_copy_self, act_copy_self]
            exact hstart source
      · rw [act_of_ne hp, act_of_ne hp]
        exact hstart p

end Step

/-! ## Following a history -/

/-- A registry that finds under every name what its history has there last. -/
def Follows (r : Registry ε) (h : History ε) : Prop :=
  ∀ name, r.strategies.get? name = h.lookup name

theorem follows_empty : Follows (.empty : Registry ε) [] := fun _ => rfl

theorem Follows.register {r : Registry ε} {h : History ε} (hr : r.Follows h) (name : String)
    (s : Strategy ε) : (r.register name s).Follows ((name, s) :: h) := by
  intro other
  by_cases heq : other = name
  · subst heq
    rw [Registry.register, SortedMap.get?_put_self, List.lookup_cons_self]
  · have hne : (other == name) = false := beq_eq_false_iff_ne.2 heq
    rw [Registry.register, SortedMap.get?_put_of_ne _ _ heq, hr other, List.lookup_cons, hne]

theorem follows_ofSettings (s : Settings) :
    (ofSettings s : Registry ε).Follows (Origin.builtIn s) :=
  (follows_empty.register byProjectName _).register byRequestName _

theorem Origin.follows (o : Origin) : (o.registry : Registry ε).Follows o.history := by
  cases o with
  | empty => exact follows_empty
  | standard => exact follows_ofSettings .standard
  | settings s => exact follows_ofSettings s

/-- **The run**: after any steps, every registry follows its history. -/
theorem follows_run (start : Nat → Origin) (steps : List (Step ε)) (place : Nat) :
    (registries start steps place).Follows (histories start steps place) :=
  Step.run_induction (fun name s _ _ h => h.register name s) (fun p => (start p).follows) steps
    place

/-! ## What a registry answers -/

/-- All that a registry answers, told from a history. -/
structure Answers (r : Registry ε) (h : History ε) : Prop where
  ascending_names : Ascending r.names
  mem_names_iff : ∀ name, name ∈ r.names ↔ ∃ s, (name, s) ∈ h
  contains_iff : ∀ name, r.contains name = true ↔ ∃ s, r.get name = .ok s
  get_eq_ok_iff : ∀ name s, r.get name = .ok s ↔ h.lookup name = some s
  get_eq_error_iff : ∀ name e, r.get name = .error e ↔ name ∉ r.names ∧ e = .unknownStrategy name
  select_latest : ∀ name s, h.lookup name = some s → ∀ g p, r.select name g p = s g p
  /-- A strategy is free to fail in the same way; the registry itself does so for no other name. -/
  select_unknown_iff : ∀ name g p, r.select name g p = .error (.unknownStrategy name) ↔
    name ∉ r.names ∨ ∃ s, h.lookup name = some s ∧ s g p = .error (.unknownStrategy name)

theorem Follows.answers {r : Registry ε} {h : History ε} (hr : r.Follows h) : r.Answers h where
  ascending_names := r.ascending_names
  mem_names_iff name := by
    rw [← isSome_get?_iff_mem_names, hr name, isSome_lookup_iff]
  contains_iff _ := contains_iff_get
  get_eq_ok_iff name s := by rw [get_eq_ok_iff, hr name]
  get_eq_error_iff _ _ := get_eq_error_iff
  select_latest name s hs := select_of_get? ((hr name).trans hs)
  select_unknown_iff name g p := by rw [select_unknown_iff, hr name]

/-- Two registries with the same answers for one name. -/
structure AlikeFor (name : String) (r r' : Registry ε) : Prop where
  mem_names : name ∈ r'.names ↔ name ∈ r.names
  contains : r'.contains name = r.contains name
  get : r'.get name = r.get name
  select : ∀ g p, r'.select name g p = r.select name g p

theorem alikeFor_register {name other : String} (h : other ≠ name) (s : Strategy ε)
    (r : Registry ε) : AlikeFor other r (r.register name s) := by
  have hget : (r.register name s).strategies.get? other = r.strategies.get? other :=
    SortedMap.get?_put_of_ne r.strategies s h
  have hmem : other ∈ (r.register name s).names ↔ other ∈ r.names := by
    rw [← isSome_get?_iff_mem_names, hget, isSome_get?_iff_mem_names]
  have hsame : (r.register name s).get other = r.get other := get_register_of_ne h s r
  refine ⟨hmem, ?_, hsame, fun g p => ?_⟩
  · rw [Bool.eq_iff_iff, contains_iff_get, contains_iff_get, hsame]
  · rw [Registry.select, Registry.select, hsame]

/-! ## Copies -/

/-- A copy is what the registry was, until its own place is changed. -/
theorem registries_target (start : Nat → Origin) (steps : List (Step ε)) (source : Nat)
    {target : Nat} {later : List (Step ε)} (h : ∀ step ∈ later, step.target ≠ target) :
    registries start (steps ++ .copy source target :: later) target =
      registries start steps source := by
  rw [registries, Step.run_append, Step.run_cons, Step.run_of_ne h, Step.act_copy_self]
  rfl

/-- A registry stays what it was when it was copied, until its own place is changed. -/
theorem registries_source (start : Nat → Origin) (steps : List (Step ε)) {source : Nat}
    (target : Nat) {later : List (Step ε)} (h : ∀ step ∈ later, step.target ≠ source) :
    registries start (steps ++ .copy source target :: later) source =
      registries start steps source := by
  rw [registries, Step.run_append, Step.run_cons, Step.run_of_ne h]
  by_cases heq : source = target
  · subst heq
    rw [Step.act_copy_self]
    rfl
  · rw [Step.act_of_ne heq]
    rfl

theorem registries_register (start : Nat → Origin) (steps : List (Step ε)) (place : Nat)
    (name : String) (s : Strategy ε) :
    registries start (steps ++ [.register place name s]) place =
      (registries start steps place).register name s := by
  rw [registries, Step.run_append, Step.run_cons, Step.run_nil, Step.act_register_self]
  rfl

/-! ## Any run -/

/-- **Registries over their history.**  After any steps, every registry answers by its history;
one more registration changes the answers for its own name only; and a copy and the registry that
it was made from do not change with each other. -/
theorem answers_of_history (start : Nat → Origin) (steps : List (Step ε)) :
    (∀ place, (registries start steps place).Answers (histories start steps place)) ∧
    (∀ place name s other, other ≠ name →
      AlikeFor other (registries start steps place)
        (registries start (steps ++ [.register place name s]) place)) ∧
    ∀ source target later,
      ((∀ step ∈ later, step.target ≠ target) →
        registries start (steps ++ .copy source target :: later) target =
          registries start steps source) ∧
      ((∀ step ∈ later, step.target ≠ source) →
        registries start (steps ++ .copy source target :: later) source =
          registries start steps source) := by
  refine ⟨fun place => (follows_run start steps place).answers, ?_, ?_⟩
  · intro place name s other hne
    rw [registries_register]
    exact alikeFor_register hne s _
  · intro source target later
    exact ⟨registries_target start steps source, registries_source start steps target⟩

/-- The standard registry is saved, and its selection by project replaced: the saved one keeps it,
and the selection by request is what it was.  A strategy that fails in a way of its own is answered
with that failure. -/
theorem answers_of_history_saved :
    let start : Nat → Origin := fun _ => .standard
    let saved : Step String := .copy 0 1
    let replaced : Step String := .register 0 "default" (.constant ["build"])
    let failing : Step String := .register 0 "default" fun _ _ => .error (.other "no machines")
    (∀ g p, (registries start [saved, replaced] 0).select "default" g p = .ok ["build"]) ∧
    (∀ g p, (registries start [saved, failing] 0).select "default" g p =
      .error (.other "no machines")) ∧
    registries start [saved, replaced] 1 = .standard ∧
    registries start [saved, .register 1 "default" (.constant [])] 0 = .standard ∧
    AlikeFor "try_option_syntax" (registries start [saved] 0)
      (registries start [saved, replaced] 0) := by
  intro start saved replaced failing
  obtain ⟨-, -, hcopy⟩ := answers_of_history start []
  obtain ⟨-, halike, -⟩ := answers_of_history start [saved]
  obtain ⟨hanswers, -, -⟩ := answers_of_history start [saved, replaced]
  obtain ⟨hfailing, -, -⟩ := answers_of_history start [saved, failing]
  refine ⟨?_, ?_, ?_, ?_, halike 0 "default" (.constant ["build"]) "try_option_syntax" (by decide)⟩
  · exact (hanswers 0).select_latest "default" (.constant ["build"]) rfl
  · exact (hfailing 0).select_latest "default" _ rfl
  · exact (hcopy 0 1 [replaced]).1 (by simp [replaced, Step.target])
  · exact (hcopy 0 1 [.register 1 "default" (.constant [])]).2 (by simp [Step.target])

end PushPlan.Registry
