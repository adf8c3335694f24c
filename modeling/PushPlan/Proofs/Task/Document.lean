import PushPlan.Proofs.Shape
import PushPlan.Task.Document

/-!
# PushPlan.Proofs.Task.Document

What a task is read from.

* `Attribute.read_eq_ok_iff`: each attribute is read from one value, the one
  that it is written as.  The four sorts never overlap.
* `Task.Draft.finish_assign_iff`: a task is read from the fields of a record
  exactly when its label, kind and attributes are what the fields of these names
  hold, and its payload is what `task` holds; an absent field counts as null, as
  no attributes or as no payload.
-/

namespace PushPlan

open Shape Failure

/-! ## Attributes -/

namespace Attribute

theorem isSigned_iff {n : Int} :
    Word.isSigned n = true ↔ -Word.signedLimit ≤ n ∧ n < Word.signedLimit := by
  rw [Word.isSigned, Bool.and_eq_true, decide_eq_true_iff, decide_eq_true_iff]

/-- The value that spells an attribute is the one it is written as. -/
theorem ofValue?_eq_some_iff {v : Value} {a : Attribute} : ofValue? v = some a ↔ v = a.toValue := by
  cases v with
  | null => cases a <;> simp [ofValue?, toValue, Value.ofTexts]
  | bool b => cases a <;> simp [ofValue?, toValue, Value.ofTexts]
  | fraction d => cases a <;> simp [ofValue?, toValue, Value.ofTexts]
  | text s => cases a <;> simp [ofValue?, toValue, Value.ofTexts]
  | record fs => cases a <;> simp [ofValue?, toValue, Value.ofTexts]
  | list items =>
      cases a <;> simp [ofValue?, toValue, Value.ofTexts, Value.mapM_asText?_eq_some_iff]
  | int n =>
      cases a with
      | number k =>
          simp only [ofValue?, toValue, Value.int.injEq]
          constructor
          · intro h
            by_cases hn : Word.isSigned n = true
            · obtain ⟨hle, hlt⟩ := isSigned_iff.1 hn
              rw [if_pos hn, Option.some.injEq, number.injEq] at h
              rw [← h, Int64.toInt_ofInt_of_le hle hlt]
            · rw [if_neg hn] at h
              contradiction
          · intro h
            subst h
            have hn : Word.isSigned k.toInt = true :=
              isSigned_iff.2 ⟨Int64.le_toInt k, Int64.toInt_lt k⟩
            rw [if_pos hn, Int64.ofInt_toInt]
      | _ => simp [ofValue?, toValue, Value.ofTexts]

/-- **Attributes**: each is read from the value that it is written as and from no other. -/
theorem read_eq_ok_iff (v : Value) (a : Attribute) : read v = .ok a ↔ v = a.toValue := by
  rw [← ofValue?_eq_some_iff, read]
  cases ofValue? v <;> simp

end Attribute

namespace Task

/-! ## Fields of a draft -/

/-- What taking one field does, by the name of the field. -/
theorem Draft.set_cases {name : String} {v : Value} {t t' : Draft}
    (h : Draft.set name v t = .ok t') :
    (name = "label" ∧ ∃ s, v = .text s ∧ t' = { t with label := some s }) ∨
      (name = "kind" ∧ ∃ kind, v = .ofOption .text kind ∧ t' = { t with kind }) ∨
      (name = "attributes" ∧
        ∃ m, map .json Attribute.read v = .ok m ∧ t' = { t with attributes := m }) ∨
      (name = "task" ∧ t' = { t with payload := v }) ∨
      (name ∉ fieldNames ∧ t' = t) := by
  unfold Draft.set at h
  split at h
  · obtain ⟨s, hs, ht⟩ := bind_eq_ok_iff.1 h
    exact .inl ⟨rfl, s, text_eq_ok_iff.1 hs, (Except.ok.inj ht).symm⟩
  · obtain ⟨kind, hkind, ht⟩ := bind_eq_ok_iff.1 h
    have hv : v = .ofOption .text kind :=
      (optional_eq_ok_iff (fun _ _ => text_eq_ok_iff) nofun).1 hkind
    exact .inr (.inl ⟨rfl, kind, hv, (Except.ok.inj ht).symm⟩)
  · obtain ⟨m, hm, ht⟩ := bind_eq_ok_iff.1 h
    exact .inr (.inr (.inl ⟨rfl, m, hm, (Except.ok.inj ht).symm⟩))
  · exact .inr (.inr (.inr (.inl ⟨rfl, (Except.ok.inj h).symm⟩)))
  · next hlabel hkind hattributes htask =>
      refine .inr (.inr (.inr (.inr ⟨?_, (Except.ok.inj h).symm⟩)))
      simpa [fieldNames] using ⟨hlabel, hkind, hattributes, htask⟩

/-- What the fields of a task hold, under the names of its parts. -/
structure Spelled (fs : List (String × Value)) (t : Task) : Prop where
  label : fs.lookup "label" = some (.text t.label)
  kind : (fs.lookup "kind").getD .null = .ofOption .text t.kind
  attributes : map .json Attribute.read ((fs.lookup "attributes").getD (.record [])) =
    .ok t.attributes
  payload : (fs.lookup "task").getD .null = t.payload

/-- The parts of a draft are what the fields of their names hold. -/
theorem spelled_of_assign {fs : List (String × Value)} (hn : (fs.map Prod.fst).Nodup) {u : Draft}
    (h : assign Draft.set {} fs = .ok u) :
    fs.lookup "label" = u.label.map .text ∧
      (fs.lookup "kind").getD .null = .ofOption .text u.kind ∧
      map .json Attribute.read ((fs.lookup "attributes").getD (.record [])) = .ok u.attributes ∧
      (fs.lookup "task").getD .null = u.payload := by
  have hlabel : Left (fun v label => some v = Option.map Value.text label) none u.label
      (fs.lookup "label") := by
    refine left_of_assign Draft.label ?_ ?_ hn h
    all_goals grind [→ Draft.set_cases, fieldNames]
  have hkind : Left (fun v kind => v = .ofOption .text kind) none u.kind (fs.lookup "kind") := by
    refine left_of_assign Draft.kind ?_ ?_ hn h
    all_goals grind [→ Draft.set_cases, fieldNames]
  have hattributes : Left (fun v m => map .json Attribute.read v = .ok m) .empty u.attributes
      (fs.lookup "attributes") := by
    refine left_of_assign Draft.attributes ?_ ?_ hn h
    all_goals grind [→ Draft.set_cases, fieldNames]
  have hpayload : Left (fun v payload => v = payload) .null u.payload (fs.lookup "task") := by
    refine left_of_assign Draft.payload ?_ ?_ hn h
    all_goals grind [→ Draft.set_cases, fieldNames]
  refine ⟨?_, getD_of_left hkind .null rfl, getD_of_left hattributes (.record []) rfl,
    getD_of_left hpayload .null rfl⟩
  cases hfound : fs.lookup "label" with
  | none =>
      rw [hfound] at hlabel
      rw [hlabel, Option.map_none]
  | some v =>
      rw [hfound] at hlabel
      exact hlabel

/-- Fields that spell a task can all be taken. -/
theorem exists_draft {fs : List (String × Value)} {t : Task} (hn : (fs.map Prod.fst).Nodup)
    (h : Spelled fs t) : ∃ u, assign Draft.set {} fs = .ok u := by
  refine exists_assign ?_ ({} : Draft)
  intro field hf u
  obtain ⟨name, v⟩ := field
  have hfound : fs.lookup name = some v := lookup_of_mem hn hf
  change ∃ u', Draft.set name v u = .ok u'
  -- A field of a part holds what spells the part; any other field is skipped.
  unfold Draft.set
  split
  · have hv := h.label
    rw [hfound] at hv
    cases hv
    exact ⟨_, rfl⟩
  · have hv := h.kind
    rw [hfound, Option.getD_some] at hv
    have hread : optional (Shape.text .json) v = .ok t.kind :=
      (optional_eq_ok_iff (fun _ _ => text_eq_ok_iff) nofun).2 hv
    exact ⟨_, bind_eq_ok_iff.2 ⟨_, hread, rfl⟩⟩
  · have hv := h.attributes
    rw [hfound, Option.getD_some] at hv
    exact ⟨_, bind_eq_ok_iff.2 ⟨_, hv, rfl⟩⟩
  · exact ⟨_, rfl⟩
  · exact ⟨_, rfl⟩

/-- **Tasks**: a task is read from fields without repetitions exactly when they spell it. -/
theorem Draft.finish_assign_iff {fs : List (String × Value)} (hn : (fs.map Prod.fst).Nodup)
    {t : Task} {e : ShapeError} :
    (assign Draft.set {} fs >>= fun u => u.finish e) = .ok t ↔ Spelled fs t := by
  constructor
  · intro h
    obtain ⟨u, hu, hfinish⟩ := bind_eq_ok_iff.1 h
    obtain ⟨hlabel, hkind, hattributes, hpayload⟩ := spelled_of_assign hn hu
    unfold Draft.finish at hfinish
    split at hfinish
    · next label hsome =>
        cases hfinish
        rw [hsome] at hlabel
        exact ⟨hlabel, hkind, hattributes, hpayload⟩
    · contradiction
  · intro h
    obtain ⟨u, hu⟩ := exists_draft hn h
    -- The draft and the task are spelled by the same fields, so they are the same.
    obtain ⟨hlabel, hkind, hattributes, hpayload⟩ := spelled_of_assign hn hu
    have hu_label : u.label = some t.label := by
      rw [h.label] at hlabel
      obtain ⟨s, hs, heq⟩ := Option.map_eq_some_iff.1 hlabel.symm
      rw [hs, Value.text.inj heq]
    have hu_kind : u.kind = t.kind := Value.ofOption_text_inj (hkind.symm.trans h.kind)
    have hu_attributes : u.attributes = t.attributes :=
      Except.ok.inj (hattributes.symm.trans h.attributes)
    have hu_payload : u.payload = t.payload := hpayload.symm.trans h.payload
    refine bind_eq_ok_iff.2 ⟨u, hu, ?_⟩
    rw [Draft.finish, hu_label, hu_kind, hu_attributes, hu_payload]

end Task

end PushPlan
