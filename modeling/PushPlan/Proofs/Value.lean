import PushPlan.Proofs.Sorted
import PushPlan.Value

/-!
# PushPlan.Proofs.Value

Canonical document values, in which a record is a map.

1. The fields of a canonical record ascend by name, and their values are
   canonical again.
2. Of a list of fields with different names, the field of a name is the one that
   looking it up finds.
-/

namespace PushPlan

/-! ## Looking up fields -/

theorem mem_of_lookup {α : Type} {fields : List (String × α)} {name : String} {a : α}
    (h : fields.lookup name = some a) : (name, a) ∈ fields := by
  obtain ⟨before, after, rfl, _⟩ := List.lookup_eq_some_iff.1 h
  exact List.mem_append_right before List.mem_cons_self

theorem lookup_eq_none_of_not_mem {α : Type} {fields : List (String × α)} {name : String}
    (h : name ∉ fields.map Prod.fst) : fields.lookup name = none := by
  rw [List.lookup_eq_none_iff]
  intro field hfield
  rw [bne_iff_ne]
  intro heq
  subst heq
  exact h (List.mem_map_of_mem hfield)

/-- Something is found under a name when a field has it. -/
theorem isSome_lookup_iff {α : Type} {fields : List (String × α)} {name : String} :
    (fields.lookup name).isSome = true ↔ ∃ a, (name, a) ∈ fields := by
  rw [Option.isSome_iff_exists]
  constructor
  · intro h
    obtain ⟨a, ha⟩ := h
    exact ⟨a, mem_of_lookup ha⟩
  · intro h
    obtain ⟨a, ha⟩ := h
    cases hlookup : fields.lookup name with
    | some b => exact ⟨b, rfl⟩
    | none =>
        have hne : (name != name) = true := List.lookup_eq_none_iff.1 hlookup (name, a) ha
        simp at hne

/-- Where no name is repeated, a field that is there is found. -/
theorem lookup_of_mem {α : Type} {fields : List (String × α)} {name : String} {a : α}
    (hn : (fields.map Prod.fst).Nodup) (h : (name, a) ∈ fields) : fields.lookup name = some a := by
  induction fields with
  | nil => exact absurd h List.not_mem_nil
  | cons field fields ih =>
      obtain ⟨name', a'⟩ := field
      rw [List.map_cons, List.nodup_cons] at hn
      rcases List.mem_cons.1 h with heq | h
      · cases heq
        exact List.lookup_cons_self
      · have hname : name ∈ fields.map Prod.fst := List.mem_map_of_mem h
        have hne : (name == name') = false := by
          rw [beq_eq_false_iff_ne]
          intro heq
          subst heq
          exact hn.1 hname
        rw [List.lookup_cons, hne]
        exact ih hn.2 h

namespace Value

/-! ## Texts -/

/-- A list of texts is told from its texts. -/
theorem mapM_asText?_eq_some_iff {items : List Value} {texts : List String} :
    items.mapM asText? = some texts ↔ items = texts.map text := by
  induction items generalizing texts with
  | nil => cases texts <;> simp
  | cons v items ih =>
      rw [List.mapM_cons]
      cases v with
      | text s =>
          simp only [asText?, Option.bind_eq_bind, Option.bind_some,
            Option.bind_eq_some_iff, ih]
          cases texts with
          | nil => simp
          | cons t texts =>
              constructor
              · intro h
                obtain ⟨rest, hrest, heq⟩ := h
                cases heq
                rw [hrest, List.map_cons]
              · intro h
                obtain ⟨hs, hrest⟩ := List.cons.inj h
                cases hs
                exact ⟨texts, hrest, rfl⟩
      | _ => cases texts <;> simp [asText?]

theorem ofOption_text_inj {a b : Option String} (h : ofOption text a = ofOption text b) :
    a = b := by
  cases a <;> cases b <;> simp_all [ofOption]

/-! ## Canonical values -/

/-- A value whose records are maps, at every depth. -/
def IsCanonical (v : Value) : Prop := ∃ raw : Value, raw.canonical = v

theorem isCanonical_canonical (raw : Value) : raw.canonical.IsCanonical := ⟨raw, rfl⟩

theorem isCanonical_of_mem_canonicalFields {fields : List (String × Value)}
    {field : String × Value} (h : field ∈ canonicalFields fields) : field.2.IsCanonical := by
  induction fields with
  | nil => exact absurd h List.not_mem_nil
  | cons first fields ih =>
      obtain ⟨name, v⟩ := first
      rw [canonicalFields] at h
      rcases List.mem_cons.1 h with rfl | h
      · exact isCanonical_canonical v
      · exact ih h

/-- The record that has the given fields is the canonical form of a record. -/
theorem IsCanonical.exists_fields {fields : List (String × Value)}
    (h : (Value.record fields).IsCanonical) :
    ∃ raw, (Sorted.ofList (canonicalFields raw) : SortedMap String Value).toList = fields := by
  obtain ⟨raw, hraw⟩ := h
  cases raw with
  | record raw =>
      rw [canonical] at hraw
      exact ⟨raw, Value.record.inj hraw⟩
  | _ => simp [canonical] at hraw

/-- The fields of a canonical record ascend by name. -/
theorem IsCanonical.ascending {fields : List (String × Value)}
    (h : (Value.record fields).IsCanonical) :
    fields.Pairwise fun f g => compare f.1 g.1 = .lt := by
  obtain ⟨raw, rfl⟩ := h.exists_fields
  exact Sorted.ascending _

theorem IsCanonical.nodup_names {fields : List (String × Value)}
    (h : (Value.record fields).IsCanonical) : (fields.map Prod.fst).Nodup :=
  Sorted.nodup_of_ascending (List.pairwise_map.2 h.ascending)

theorem IsCanonical.of_mem {fields : List (String × Value)}
    (h : (Value.record fields).IsCanonical) {field : String × Value} (hf : field ∈ fields) :
    field.2.IsCanonical := by
  obtain ⟨raw, rfl⟩ := h.exists_fields
  exact isCanonical_of_mem_canonicalFields (Sorted.mem_of_mem_ofList hf)

end Value

end PushPlan
