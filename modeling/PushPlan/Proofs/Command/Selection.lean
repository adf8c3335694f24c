import PushPlan.Command.Run
import PushPlan.Proofs.Failure
import PushPlan.Proofs.Sorted

/-!
# PushPlan.Proofs.Command.Selection

What the command that selects tasks goes by.

1. A project and a message of the command line take the place of those in the
   parameters file, and leave all other parameters as they are
   (`Parameters.Overridden`).
2. A selection goes by the settings that hold, by the task graph of its file, and
   by parameters of this sort (`SelectOptions.Sources`).
3. It succeeds exactly when there are all of these and the strategy of the given
   name selects from them; its result is what the strategy selects
   (`SelectOptions.run_eq_ok_iff`).
-/

namespace PushPlan

open Failure (bind_eq_ok_iff mapError_eq_ok_iff)

/-! ## Parameters in the place of others -/

namespace Parameters

/-- Parameters in which a project and a message, where given, take the place of what there was. -/
structure Overridden (base : Parameters) (project message : Option String) (p : Parameters) :
    Prop where
  project : p.get? "project" = (project.map .text).or (base.get? "project")
  message : p.get? "message" = (message.map .text).or (base.get? "message")
  /-- All other parameters stay. -/
  other : ∀ name, name ≠ "project" → name ≠ "message" → p.get? name = base.get? name

variable {base p q : Parameters} {project message : Option String}

/-- There is one way to put a project and a message in their places. -/
theorem Overridden.unique (hp : base.Overridden project message p)
    (hq : base.Overridden project message q) : p = q := by
  have hget : ∀ name, p.get? name = q.get? name := by
    intro name
    by_cases hproject : name = "project"
    · rw [hproject, hp.project, hq.project]
    · by_cases hmessage : name = "message"
      · rw [hmessage, hp.message, hq.message]
      · rw [hp.other name hproject hmessage, hq.other name hproject hmessage]
  cases p
  cases q
  congr 1
  exact SortedMap.ext_get? hget

/-- The parameters with a text in place, if one is given. -/
def putGiven (name : String) (given : Option String) (p : Parameters) : Parameters :=
  match given with
  | some s => p.put name (.text s)
  | none => p

theorem get?_putGiven_self (name : String) (given : Option String) (p : Parameters) :
    (p.putGiven name given).get? name = (given.map .text).or (p.get? name) := by
  cases given with
  | none => simp [putGiven]
  | some s => exact SortedMap.get?_put_self p.values name (.text s)

theorem get?_putGiven_of_ne {name other : String} (h : other ≠ name) (given : Option String)
    (p : Parameters) : (p.putGiven name given).get? other = p.get? other := by
  cases given with
  | none => rfl
  | some s => exact SortedMap.get?_put_of_ne p.values (.text s) h

/-- The parameters with a project and a message in place, where they are given. -/
def override (project message : Option String) (p : Parameters) : Parameters :=
  (p.putGiven "project" project).putGiven "message" message

theorem overridden_override (base : Parameters) (project message : Option String) :
    base.Overridden project message (base.override project message) where
  project := by
    have hne : "project" ≠ "message" := by decide
    rw [override, get?_putGiven_of_ne hne, get?_putGiven_self]
  message := by
    have hne : "message" ≠ "project" := by decide
    rw [override, get?_putGiven_self, get?_putGiven_of_ne hne]
  other := by
    intro name hproject hmessage
    rw [override, get?_putGiven_of_ne hmessage, get?_putGiven_of_ne hproject]

theorem override_eq_iff :
    base.override project message = p ↔ base.Overridden project message p := by
  constructor
  · intro h
    subst h
    exact overridden_override base project message
  · intro h
    exact (overridden_override base project message).unique h

end Parameters

namespace Command.SelectOptions

variable {o : SelectOptions} {w : World} {config : Option String}

/-- The parameters of the file, if one is given. -/
def fileParameters [Formats] (o : SelectOptions) (w : World) : Except DocumentError Parameters :=
  match o.parameters with
  | some path => Parameters.load w.tree w.folder path
  | none => .ok .empty

theorem parametersOf_eq [Formats] (o : SelectOptions) (w : World) :
    o.parametersOf w =
      o.fileParameters w >>= fun base => .ok (base.override o.project o.message) := by
  rw [parametersOf, fileParameters]
  cases o.parameters <;> rfl

/-- What a selection goes by. -/
structure Sources [Formats] (o : SelectOptions) (w : World) (config : Option String) (s : Settings)
    (g : TaskGraph) (p : Parameters) : Prop where
  /-- The settings that hold. -/
  settings : ∃ path, w.settings config = .ok (s, path)
  /-- The task graph of the file. -/
  graph : TaskGraph.load w.tree w.folder o.graph = .ok g
  /-- The parameters of the file, with those of the command line in their place. -/
  parameters : ∃ base, o.fileParameters w = .ok base ∧ base.Overridden o.project o.message p

theorem parametersOf_eq_ok_iff [Formats] {p : Parameters} :
    o.parametersOf w = .ok p ↔
      ∃ base, o.fileParameters w = .ok base ∧ base.Overridden o.project o.message p := by
  rw [parametersOf_eq, bind_eq_ok_iff]
  simp only [Except.ok.injEq, Parameters.override_eq_iff]

/-- **Selecting**: it succeeds exactly when there is all that it goes by and the strategy selects
from that, and it gives what the strategy selects. -/
theorem run_eq_ok_iff [Formats] {selected : Selected} :
    o.run w config = .ok selected ↔
      ∃ s g p labels, o.Sources w config s g p ∧
        (Registry.ofSettings s : Registry).select o.strategy g p = .ok labels ∧
        selected = ⟨o.strategy, labels, g.size⟩ := by
  simp only [run, bind_eq_ok_iff, mapError_eq_ok_iff]
  constructor
  · intro h
    obtain ⟨⟨s, path⟩, hsettings, g, hgraph, p, hparameters, labels, hselect, heq⟩ := h
    exact ⟨s, g, p, labels, ⟨⟨path, hsettings⟩, hgraph, parametersOf_eq_ok_iff.1 hparameters⟩,
      hselect, (Except.ok.inj heq).symm⟩
  · intro h
    obtain ⟨s, g, p, labels, ⟨⟨path, hsettings⟩, hgraph, hparameters⟩, hselect, rfl⟩ := h
    exact ⟨(s, path), hsettings, g, hgraph, p, parametersOf_eq_ok_iff.2 hparameters, labels,
      hselect, rfl⟩

end Command.SelectOptions

end PushPlan
