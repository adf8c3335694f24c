/-!
# PushPlan.Proofs.Failure

Computations that may fail.  One after the other they succeed exactly when each
of them does, and what holds of reading one element holds of reading a list.

This module depends only on the Lean 4 core library.
-/

namespace PushPlan.Failure

variable {ε α β γ : Type}

/-- Two steps succeed when both do. -/
theorem bind_eq_ok_iff {x : Except ε α} {f : α → Except ε β} {b : β} :
    x >>= f = .ok b ↔ ∃ a, x = .ok a ∧ f a = .ok b := by
  cases x with
  | error e =>
      constructor
      · intro h
        contradiction
      · intro h
        obtain ⟨a, ha, _⟩ := h
        contradiction
  | ok a =>
      constructor
      · intro h
        exact ⟨a, rfl, h⟩
      · intro h
        obtain ⟨a', ha, hf⟩ := h
        cases ha
        exact hf

/-- Two steps fail when the first does, or the second after it. -/
theorem bind_eq_error_iff {x : Except ε α} {f : α → Except ε β} {e : ε} :
    x >>= f = .error e ↔ x = .error e ∨ ∃ a, x = .ok a ∧ f a = .error e := by
  cases x <;> simp [bind, Except.bind]

/-- A changed result is a result of the computation behind it. -/
theorem map_eq_ok_iff {x : Except ε α} {f : α → β} {b : β} :
    x.map f = .ok b ↔ ∃ a, x = .ok a ∧ f a = b := by
  cases x <;> simp [Except.map]

theorem toOption_eq_some_iff {x : Except ε α} {a : α} : x.toOption = some a ↔ x = .ok a := by
  cases x <;> simp [Except.toOption]

/-- Renaming failures leaves the results alone. -/
theorem mapError_eq_ok_iff {ε' : Type} {x : Except ε α} {f : ε → ε'} {a : α} :
    x.mapError f = .ok a ↔ x = .ok a := by
  cases x with
  | error e =>
      constructor
      · intro h
        cases h
      · intro h
        cases h
  | ok b =>
      constructor
      · intro h
        cases h
        rfl
      · intro h
        cases h
        rfl

theorem mapError_eq_error_iff {ε' : Type} {x : Except ε α} {f : ε → ε'} {e : ε'} :
    x.mapError f = .error e ↔ ∃ e', x = .error e' ∧ f e' = e := by
  constructor
  · intro h
    cases x with
    | error e' =>
        cases h
        exact ⟨e', rfl, rfl⟩
    | ok a => contradiction
  · intro h
    obtain ⟨e', rfl, rfl⟩ := h
    rfl

/-- What holds between each element and what it is read as holds between the lists. -/
theorem map_eq_map_of_mapM {read : α → Except ε β} {f : α → γ} {g : β → γ} {l : List α}
    {m : List β} (h : ∀ a ∈ l, ∀ b, read a = .ok b → f a = g b) (hm : l.mapM read = .ok m) :
    l.map f = m.map g := by
  induction l generalizing m with
  | nil =>
      cases hm
      rfl
  | cons a l ih =>
      rw [List.mapM_cons] at hm
      obtain ⟨b, hb, hrest⟩ := bind_eq_ok_iff.1 hm
      obtain ⟨bs, hbs, hlast⟩ := bind_eq_ok_iff.1 hrest
      cases hlast
      have hl : l.map f = bs.map g := ih (fun x hx => h x (List.mem_cons_of_mem a hx)) hbs
      rw [List.map_cons, List.map_cons, h a List.mem_cons_self b hb, hl]

/-- Where each element is read back, so is the list. -/
theorem mapM_map_eq_ok {read : α → Except ε β} {write : β → α} {m : List β}
    (h : ∀ b ∈ m, read (write b) = .ok b) : (m.map write).mapM read = .ok m := by
  induction m with
  | nil => rfl
  | cons b m ih =>
      have hm : (m.map write).mapM read = .ok m := ih fun x hx => h x (List.mem_cons_of_mem b hx)
      rw [List.map_cons, List.mapM_cons, h b List.mem_cons_self, hm]
      rfl

/-- A list can be read where each element can. -/
theorem exists_mapM {f : α → Except ε β} {l : List α} (h : ∀ a ∈ l, ∃ b, f a = .ok b) :
    ∃ m, l.mapM f = .ok m := by
  induction l with
  | nil => exact ⟨[], rfl⟩
  | cons a l ih =>
      obtain ⟨b, hb⟩ := h a List.mem_cons_self
      obtain ⟨m, hm⟩ := ih fun x hx => h x (List.mem_cons_of_mem a hx)
      refine ⟨b :: m, ?_⟩
      rw [List.mapM_cons, hb, hm]
      rfl

end PushPlan.Failure
