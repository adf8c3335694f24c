import PushPlan.Proofs.Failure
import PushPlan.Proofs.Value
import PushPlan.Shape

/-!
# PushPlan.Proofs.Shape

What the readers of document values accept.

1. Where reading one value undoes writing it, reading a list of fields or a map
   undoes writing those.
2. A structure is read field by field.  What is left in one of its parts is what
   the field of that part reads as, or what was there before if the field is
   absent (`Left`), whatever the other fields are and in whatever order they
   come, provided that no name is repeated.
-/

namespace PushPlan.Shape

open Failure

/-! ## Plain shapes -/

theorem text_eq_ok_iff {v : Value} {s : String} : text .json v = .ok s ↔ v = .text s := by
  cases v <;> simp [text, Dialect.json]

/-- An optional value is read from null or from the value. -/
theorem optional_eq_ok_iff {α : Type} {value : Reader α} {write : α → Value}
    (h : ∀ v a, value v = .ok a ↔ v = write a) (hnull : ∀ a, write a ≠ .null) {v : Value}
    {o : Option α} : optional value v = .ok o ↔ v = .ofOption write o := by
  by_cases hv : v = .null
  · subst hv
    cases o with
    | none => simp [optional, Value.ofOption]
    | some a => simpa [optional, Value.ofOption] using (hnull a).symm
  · have hread : optional value v = (value v).map some := by
      cases v <;> first | contradiction | rfl
    rw [hread, map_eq_ok_iff]
    cases o with
    | none => simpa [Value.ofOption] using hv
    | some a => simp [Value.ofOption, h]

/-- What holds between the value of a field and what it is read as holds between the fields. -/
theorem map_eq_map_of_fields {α β : Type} {value : Reader α} {f : Value → β} {g : α → β}
    {fs : List (String × Value)} {gs : List (String × α)}
    (h : ∀ field ∈ fs, ∀ a, value field.2 = .ok a → f field.2 = g a)
    (hgs : fields value fs = .ok gs) :
    (fs.map fun (name, v) => (name, f v)) = gs.map fun (name, a) => (name, g a) := by
  refine map_eq_map_of_mapM (fun field hfield read hread => ?_) hgs
  obtain ⟨a, ha, rfl⟩ := map_eq_ok_iff.1 hread
  exact congrArg (Prod.mk field.1) (h field hfield a ha)

theorem names_of_fields {α : Type} {value : Reader α} {fs : List (String × Value)}
    {gs : List (String × α)} (hgs : fields value fs = .ok gs) :
    fs.map Prod.fst = gs.map Prod.fst := by
  refine map_eq_map_of_mapM (fun field _ read hread => ?_) hgs
  obtain ⟨a, _, rfl⟩ := map_eq_ok_iff.1 hread
  rfl

theorem exists_map {α : Type} {value : Reader α} {fs : List (String × Value)}
    (h : ∀ f ∈ fs, ∃ a, value f.2 = .ok a) (d : Dialect) :
    ∃ m, map d value (.record fs) = .ok m := by
  have hfields : ∃ gs, fields value fs = .ok gs := by
    refine exists_mapM fun f hf => ?_
    obtain ⟨a, ha⟩ := h f hf
    exact ⟨(f.1, a), map_eq_ok_iff.2 ⟨a, ha, rfl⟩⟩
  obtain ⟨gs, hgs⟩ := hfields
  exact ⟨.ofList gs, map_eq_ok_iff.2 ⟨gs, hgs, rfl⟩⟩

/-- A written map reads back. -/
theorem map_record {α : Type} {value : Reader α} {write : α → Value} (d : Dialect)
    (h : ∀ a, value (write a) = .ok a) (m : SortedMap String α) :
    map d value (.record (m.mapValues write).toList) = .ok m := by
  have hfields : fields value (m.mapValues write).toList = .ok m.toList := by
    refine mapM_map_eq_ok fun field _ => ?_
    exact map_eq_ok_iff.2 ⟨field.2, h field.2, rfl⟩
  simp only [map, hfields, Except.map, Sorted.ofList_toList]

/-- The map that is read from a canonical record holds its fields, one by one. -/
theorem fields_of_map {α : Type} {value : Reader α} {fs : List (String × Value)}
    (hv : (Value.record fs).IsCanonical) {m : SortedMap String α}
    (hm : map .json value (.record fs) = .ok m) : fields value fs = .ok m.toList := by
  obtain ⟨gs, hgs, rfl⟩ := map_eq_ok_iff.1 hm
  have hnames : (gs.map Prod.fst).Pairwise fun a b => compare a b = .lt := by
    rw [← names_of_fields hgs]
    exact List.pairwise_map.2 hv.ascending
  rw [Sorted.toList_ofList_of_ascending (List.pairwise_map.1 hnames)]
  exact hgs

/-- A canonical value that reads as a map is that map written down. -/
theorem eq_record_of_map {α : Type} {value : Reader α} {write : α → Value} {v : Value}
    (hv : v.IsCanonical) (h : ∀ v a, value v = .ok a → v = write a) {m : SortedMap String α}
    (hm : map .json value v = .ok m) : v = .record (m.mapValues write).toList := by
  cases v with
  | record fs =>
      have hfs : (fs.map fun (name, v) => (name, id v)) =
          m.toList.map fun (name, a) => (name, write a) :=
        map_eq_map_of_fields (fun field _ => h field.2) (fields_of_map hv hm)
      rw [SortedMap.toList_mapValues, ← hfs]
      exact congrArg Value.record (List.map_id fs).symm
  | _ => contradiction

/-! ## Structures -/

section Structures

variable {α β : Type} {set : String → Value → α → Except ShapeError α}

theorem assign_cons_eq_ok_iff {a b : α} {name : String} {v : Value}
    {fs : List (String × Value)} :
    assign set a ((name, v) :: fs) = .ok b ↔
      ∃ a', set name v a = .ok a' ∧ assign set a' fs = .ok b := by
  rw [assign, List.foldlM_cons, bind_eq_ok_iff]
  rfl

/-- What a field leaves in its part: what its value reads as, or what was there before if there
is no such field. -/
def Left (reads : Value → β → Prop) (before after : β) : Option Value → Prop
  | none => after = before
  | some v => reads v after

/-- What is left is what the field spells, if an absent field counts as spelling what was there
before. -/
theorem getD_of_left {reads : Value → β → Prop} {before after : β} {found : Option Value}
    (hleft : Left reads before after found) (absent : Value) (h : reads absent before) :
    reads (found.getD absent) after := by
  cases found with
  | none =>
      cases hleft
      exact h
  | some v => exact hleft

/-- Each part of a structure is what its own field leaves there. -/
theorem left_of_assign (part : α → β) {name : String} {reads : Value → β → Prop}
    (hown : ∀ v a b, set name v a = .ok b → reads v (part b))
    (hother : ∀ other v a b, other ≠ name → set other v a = .ok b → part b = part a)
    {fs : List (String × Value)} (hn : (fs.map Prod.fst).Nodup) {a b : α}
    (h : assign set a fs = .ok b) : Left reads (part a) (part b) (fs.lookup name) := by
  induction fs generalizing a with
  | nil =>
      cases h
      rfl
  | cons f fs ih =>
      obtain ⟨first, v⟩ := f
      rw [List.map_cons, List.nodup_cons] at hn
      obtain ⟨a', hfirst, hrest⟩ := assign_cons_eq_ok_iff.1 h
      have hleft := ih hn.2 hrest
      by_cases hname : name = first
      · -- The part is not touched again, since the name does not come a second time.
        subst hname
        rw [lookup_eq_none_of_not_mem hn.1] at hleft
        have hpart : part b = part a' := hleft
        rw [List.lookup_cons_self, Left, hpart]
        exact hown v a a' hfirst
      · have hpart : part a' = part a := hother first v a a' (Ne.symm hname) hfirst
        have hlookup : ((first, v) :: fs).lookup name = fs.lookup name := by
          rw [List.lookup_cons, beq_eq_false_iff_ne.2 hname]
        rw [hlookup, ← hpart]
        exact hleft

/-- A structure is read if each of its fields can be taken at any time. -/
theorem exists_assign {fs : List (String × Value)}
    (h : ∀ f ∈ fs, ∀ a, ∃ b, set f.1 f.2 a = .ok b) (a : α) : ∃ b, assign set a fs = .ok b := by
  induction fs generalizing a with
  | nil => exact ⟨a, rfl⟩
  | cons f fs ih =>
      obtain ⟨a', ha'⟩ := h f List.mem_cons_self a
      obtain ⟨b, hb⟩ := ih (fun g hg => h g (List.mem_cons_of_mem f hg)) a'
      exact ⟨b, assign_cons_eq_ok_iff.2 ⟨a', ha', hb⟩⟩

end Structures

end PushPlan.Shape
