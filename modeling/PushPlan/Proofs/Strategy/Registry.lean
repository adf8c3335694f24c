import PushPlan.Proofs.Sorted
import PushPlan.Strategy.Registry

/-!
# PushPlan.Proofs.Strategy.Registry

Looking up strategies.

1. What is told of a name is told from what is stored under it: the registry fails
   for a name that it has not, and only for such a name by itself.
2. A name stands for the strategy that was last registered under it; registering
   under one name leaves all other names as they were.
-/

namespace PushPlan.Registry

variable {ε : Type}

/-! ## Looking up -/

theorem ascending_names (r : Registry ε) : Ascending r.names :=
  List.pairwise_map.2 r.strategies.ascending

theorem isSome_get?_iff_mem_names {r : Registry ε} {name : String} :
    (r.strategies.get? name).isSome = true ↔ name ∈ r.names := SortedMap.isSome_get?_iff

theorem get?_eq_none_iff_notMem_names {r : Registry ε} {name : String} :
    r.strategies.get? name = none ↔ name ∉ r.names := by
  rw [← isSome_get?_iff_mem_names, Option.not_isSome_iff_eq_none]

theorem get_eq_ok_iff {r : Registry ε} {name : String} {s : Strategy ε} :
    r.get name = .ok s ↔ r.strategies.get? name = some s := by
  rw [get]
  cases r.strategies.get? name <;> simp

theorem get_eq_error_iff {r : Registry ε} {name : String} {e : SelectionError ε} :
    r.get name = .error e ↔ name ∉ r.names ∧ e = .unknownStrategy name := by
  rw [get, ← get?_eq_none_iff_notMem_names]
  cases r.strategies.get? name <;> simp [eq_comm]

theorem contains_iff_get {r : Registry ε} {name : String} :
    r.contains name = true ↔ ∃ s, r.get name = .ok s := by
  have hcontains : r.contains name = true ↔ name ∈ r.names := Sorted.contains_iff
  rw [hcontains, ← isSome_get?_iff_mem_names, Option.isSome_iff_exists]
  simp only [get_eq_ok_iff]

theorem select_of_get? {r : Registry ε} {name : String} {s : Strategy ε}
    (h : r.strategies.get? name = some s) (g : TaskGraph) (p : Parameters) :
    r.select name g p = s g p := by
  rw [select, get_eq_ok_iff.2 h]
  rfl

theorem select_of_notMem_names {r : Registry ε} {name : String} (h : name ∉ r.names)
    (g : TaskGraph) (p : Parameters) : r.select name g p = .error (.unknownStrategy name) := by
  rw [select, get_eq_error_iff.2 ⟨h, rfl⟩]
  rfl

theorem select_unknown_iff {r : Registry ε} {name : String} {g : TaskGraph} {p : Parameters} :
    r.select name g p = .error (.unknownStrategy name) ↔
      name ∉ r.names ∨
        ∃ s, r.strategies.get? name = some s ∧ s g p = .error (.unknownStrategy name) := by
  cases hget : r.strategies.get? name with
  | none =>
      have habsent : name ∉ r.names := get?_eq_none_iff_notMem_names.1 hget
      simp [habsent, select_of_notMem_names habsent g p]
  | some s =>
      have hthere : name ∈ r.names := isSome_get?_iff_mem_names.1 (by rw [hget]; rfl)
      simp [hthere, select_of_get? hget g p]

/-! ## Registering -/

theorem get_register_of_ne {name other : String} (h : other ≠ name) (s : Strategy ε)
    (r : Registry ε) : (r.register name s).get other = r.get other := by
  rw [get, get, register, SortedMap.get?_put_of_ne _ _ h]

theorem select_register_self (name : String) (s : Strategy ε) (r : Registry ε) (g : TaskGraph)
    (p : Parameters) : (r.register name s).select name g p = s g p :=
  select_of_get? (SortedMap.get?_put_self r.strategies name s) g p

/-! ## The registry of settings -/

/-- By the name of the selection by request, the registry of settings selects by request. -/
theorem select_ofSettings_byRequestName (s : Settings) (g : TaskGraph) (p : Parameters) :
    (ofSettings s : Registry ε).select byRequestName g p =
      Strategy.byRequest s.conventions g p :=
  select_register_self _ _ _ g p

end PushPlan.Registry
