import Mathlib.Data.List.Basic
import PushPlan.Proofs.Text.Blank
import PushPlan.Request.Items

/-!
# PushPlan.Proofs.Request.CommaList

The items of a comma list, and which lists are the items of one.

1. The depth behind a text (`depthAfter`) counts its brackets from a given depth on.
   A text is whole (`Whole`) when no comma of it stands outside brackets.
2. At a comma outside brackets the items of the whole are those of the parts.  A
   value is whole, or has a whole part in front of such a comma, on which one can go
   by induction (`comma_induction`).
3. A whole text has one item, or none if it is blank: what trimming leaves of it,
   which is again whole and leaves the same depth, as no blank is a bracket.
4. So the lists of items are those of trimmed whole texts that are not empty, of
   which only the last may leave a bracket open; joined by commas, such a list is
   read back.
-/

namespace PushPlan.Request

open Text

/-! ## Depth -/

/-- The bracket depth behind a text. -/
def depthAfter (depth : Nat) (cs : List Char) : Nat := cs.foldl nest depth

@[simp] theorem depthAfter_nil (depth : Nat) : depthAfter depth [] = depth := rfl

@[simp] theorem depthAfter_cons (depth : Nat) (c : Char) (cs : List Char) :
    depthAfter depth (c :: cs) = depthAfter (nest depth c) cs := rfl

theorem depthAfter_append (depth : Nat) (a b : List Char) :
    depthAfter depth (a ++ b) = depthAfter (depthAfter depth a) b := List.foldl_append

@[simp] theorem nest_comma (depth : Nat) : nest depth ',' = depth := rfl

theorem nest_of_blank (depth : Nat) {c : Char} (hc : isBlank c = true) : nest depth c = depth := by
  have hopen : c ≠ '[' := by rintro rfl; contradiction
  have hclose : c ≠ ']' := by rintro rfl; contradiction
  rw [nest, if_neg hopen, if_neg hclose]

theorem depthAfter_of_blank (depth : Nat) {cs : List Char} (h : ∀ c ∈ cs, isBlank c = true) :
    depthAfter depth cs = depth := by
  induction cs with
  | nil => rfl
  | cons c cs ih =>
      rw [List.forall_mem_cons] at h
      rw [depthAfter_cons, nest_of_blank depth h.1, ih h.2]

/-- Trimming leaves the depth as it is. -/
theorem depthAfter_trim (depth : Nat) (cs : List Char) :
    depthAfter depth (trim cs) = depthAfter depth cs := by
  obtain ⟨l, r, hcs, hl, hr⟩ := exists_append_trim cs
  have h : depthAfter depth (l ++ trim cs ++ r) = depthAfter depth (trim cs) := by
    rw [depthAfter_append, depthAfter_append, depthAfter_of_blank _ hr, depthAfter_of_blank _ hl]
  rw [← h, ← hcs]

/-! ## Whole texts -/

/-- No comma stands outside brackets. -/
def Whole (depth : Nat) (cs : List Char) : Prop :=
  ∀ front back, cs = front ++ ',' :: back → depthAfter depth front ≠ 0

theorem whole_nil (depth : Nat) : Whole depth [] := by
  intro front back h
  simp at h

theorem whole_cons_iff {depth : Nat} {c : Char} {cs : List Char} :
    Whole depth (c :: cs) ↔ ¬(c = ',' ∧ depth = 0) ∧ Whole (nest depth c) cs := by
  constructor
  · intro h
    refine ⟨?_, fun front back hcs => h (c :: front) back (by rw [hcs, List.cons_append])⟩
    rintro ⟨rfl, hdepth⟩
    exact h [] cs rfl hdepth
  · rintro ⟨hc, hcs⟩ front back h
    cases front with
    | nil =>
        obtain ⟨rfl, -⟩ := List.cons.inj h
        exact fun hdepth => hc ⟨rfl, hdepth⟩
    | cons d front =>
        obtain ⟨rfl, hrest⟩ := List.cons.inj h
        exact hcs front back hrest

/-- A part of a whole text that starts at the same depth is whole. -/
theorem Whole.of_append {depth : Nat} {l cs r : List Char} (h : Whole depth (l ++ cs ++ r)) :
    Whole (depthAfter depth l) cs := by
  rintro front back rfl
  rw [← depthAfter_append]
  exact h (l ++ front) (back ++ r) (by simp)

theorem Whole.trim {depth : Nat} {cs : List Char} (h : Whole depth cs) :
    Whole depth (trim cs) := by
  obtain ⟨l, r, hcs, hl, -⟩ := exists_append_trim cs
  rw [hcs] at h
  have hpart := h.of_append
  rwa [depthAfter_of_blank depth hl] at hpart

/-- A text is whole, or is whole up to a comma outside brackets. -/
theorem whole_or_exists_comma (depth : Nat) (cs : List Char) :
    Whole depth cs ∨
      ∃ a b, cs = a ++ ',' :: b ∧ Whole depth a ∧ depthAfter depth a = 0 := by
  induction cs generalizing depth with
  | nil => exact .inl (whole_nil depth)
  | cons c cs ih =>
      by_cases hc : c = ',' ∧ depth = 0
      · exact .inr ⟨[], cs, by rw [hc.1, List.nil_append], whole_nil depth, hc.2⟩
      · rcases ih (nest depth c) with hcs | ⟨a, b, rfl, ha, hdepth⟩
        · exact .inl (whole_cons_iff.2 ⟨hc, hcs⟩)
        · exact .inr ⟨c :: a, b, rfl, whole_cons_iff.2 ⟨hc, ha⟩, hdepth⟩

/-- Induction on comma lists: over the commas outside brackets. -/
theorem comma_induction {motive : List Char → Prop} (whole : ∀ a, Whole 0 a → motive a)
    (comma : ∀ a b, Whole 0 a → depthAfter 0 a = 0 → motive b → motive (a ++ ',' :: b))
    (cs : List Char) : motive cs := by
  induction hlength : cs.length using Nat.strongRecOn generalizing cs with
  | ind n ih =>
      rcases whole_or_exists_comma 0 cs with hcs | ⟨a, b, rfl, ha, hdepth⟩
      · exact whole cs hcs
      · have hshorter : b.length < n := by simp [← hlength]; omega
        exact comma a b ha hdepth (ih b.length hshorter b rfl)

/-! ## Pieces -/

/-- A whole text is one piece. -/
theorem pieces_of_whole {depth : Nat} {cs : List Char} (h : Whole depth cs) :
    pieces depth cs = (cs, []) := by
  induction cs generalizing depth with
  | nil => rfl
  | cons c cs ih =>
      obtain ⟨hc, hcs⟩ := whole_cons_iff.1 h
      rw [pieces, if_neg hc, ih hcs]

/-- **Append law**: at a comma outside brackets the pieces of the whole are those of the parts. -/
theorem pieces_append_comma {depth : Nat} {a : List Char} (ha : depthAfter depth a = 0)
    (b : List Char) :
    pieces depth (a ++ ',' :: b) =
      ((pieces depth a).1, (pieces depth a).2 ++ (pieces 0 b).1 :: (pieces 0 b).2) := by
  induction a generalizing depth with
  | nil =>
      obtain rfl : depth = 0 := ha
      rfl
  | cons c a ih =>
      rw [depthAfter_cons] at ha
      by_cases hc : c = ',' ∧ depth = 0
      · obtain ⟨rfl, rfl⟩ := hc
        rw [nest_comma] at ha
        rw [List.cons_append, pieces, pieces, if_pos ⟨rfl, rfl⟩, if_pos ⟨rfl, rfl⟩, ih ha]
        rfl
      · rw [List.cons_append, pieces, pieces, if_neg hc, if_neg hc, ih ha]

instance (depth : Nat) (cs : List Char) : Decidable (Whole depth cs) :=
  decidable_of_iff ((pieces depth cs).2 = []) <| by
    constructor
    · intro h
      rcases whole_or_exists_comma depth cs with hcs | ⟨a, b, rfl, -, hdepth⟩
      · exact hcs
      · rw [pieces_append_comma hdepth] at h
        simp at h
    · intro h
      rw [pieces_of_whole h]

/-! ## Items -/

/-- At a comma outside brackets the items of the whole are those of the parts. -/
theorem items_append_comma {a : List Char} (ha : depthAfter 0 a = 0) (b : List Char) :
    items (a ++ ',' :: b) = items a ++ items b := by
  simp only [items, pieces_append_comma ha, ← List.map_append, ← List.filter_append,
    List.cons_append]

/-- A whole text is one item, if it is not blank. -/
theorem items_of_whole {a : List Char} (ha : Whole 0 a) :
    items a = if trim a = [] then [] else [String.ofList (trim a)] := by
  by_cases h : trim a = [] <;> simp [items, pieces_of_whole ha, h]

/-- What an item of a comma list is. -/
structure IsItem (item : String) : Prop where
  ne_empty : item ≠ ""
  trimmed : trim item.toList = item.toList
  whole : Whole 0 item.toList

/-- What the items of a comma list are: only the last may leave a bracket open. -/
structure IsItemList (l : List String) : Prop where
  isItem : ∀ item ∈ l, IsItem item
  closed : ∀ item ∈ l.dropLast, depthAfter 0 item.toList = 0

instance (item : String) : Decidable (IsItem item) :=
  decidable_of_iff (item ≠ "" ∧ trim item.toList = item.toList ∧ Whole 0 item.toList)
    ⟨fun ⟨hne, htrim, hwhole⟩ => ⟨hne, htrim, hwhole⟩, fun ⟨hne, htrim, hwhole⟩ =>
      ⟨hne, htrim, hwhole⟩⟩

instance (l : List String) : Decidable (IsItemList l) :=
  decidable_of_iff ((∀ item ∈ l, IsItem item) ∧ ∀ item ∈ l.dropLast, depthAfter 0 item.toList = 0)
    ⟨fun ⟨hitems, hclosed⟩ => ⟨hitems, hclosed⟩, fun ⟨hitems, hclosed⟩ => ⟨hitems, hclosed⟩⟩

theorem isItem_trim {a : List Char} (ha : Whole 0 a) (hne : trim a ≠ []) :
    IsItem (String.ofList (trim a)) where
  ne_empty := by simpa using hne
  trimmed := by rw [String.toList_ofList, trim_trim]
  whole := by rw [String.toList_ofList]; exact ha.trim

theorem isItemList_nil : IsItemList [] := ⟨by simp, by simp⟩

theorem isItemList_cons_iff {item : String} {l : List String} :
    IsItemList (item :: l) ↔
      IsItem item ∧ (l ≠ [] → depthAfter 0 item.toList = 0) ∧ IsItemList l := by
  cases l with
  | nil =>
      constructor
      · rintro ⟨hitem, -⟩
        exact ⟨hitem item (by simp), by simp, isItemList_nil⟩
      · rintro ⟨hitem, -, -⟩
        exact ⟨by simpa using hitem, by simp⟩
  | cons next l =>
      constructor
      · rintro ⟨hitems, hclosed⟩
        rw [List.forall_mem_cons] at hitems
        rw [List.dropLast_cons_cons, List.forall_mem_cons] at hclosed
        exact ⟨hitems.1, fun _ => hclosed.1, hitems.2, hclosed.2⟩
      · rintro ⟨hitem, hclosed, hitems, hrest⟩
        refine ⟨List.forall_mem_cons.2 ⟨hitem, hitems⟩, ?_⟩
        rw [List.dropLast_cons_cons, List.forall_mem_cons]
        exact ⟨hclosed (by simp), hrest⟩

/-- **Soundness**: the items of a value are a list of items. -/
theorem isItemList_items (value : List Char) : IsItemList (items value) := by
  induction value using comma_induction with
  | whole a ha =>
      rw [items_of_whole ha]
      split
      · exact isItemList_nil
      · next hne => exact isItemList_cons_iff.2 ⟨isItem_trim ha hne, by simp, isItemList_nil⟩
  | comma a b ha hdepth ih =>
      rw [items_append_comma hdepth, items_of_whole ha]
      split
      · exact ih
      · next hne =>
          have hclosed : depthAfter 0 (String.ofList (trim a)).toList = 0 := by
            rw [String.toList_ofList, depthAfter_trim, hdepth]
          exact isItemList_cons_iff.2 ⟨isItem_trim ha hne, fun _ => hclosed, ih⟩

/-! ## Joining -/

theorem IsItem.items_eq {item : String} (h : IsItem item) : items item.toList = [item] := by
  have hne : item.toList ≠ [] := by simpa using h.ne_empty
  rw [items_of_whole h.whole, h.trimmed, if_neg hne, String.ofList_toList]

/-- The items of values with commas between them are the items of the values.  Only the last value
may leave a bracket open. -/
theorem items_intercalate {values : List String}
    (h : ∀ value ∈ values.dropLast, depthAfter 0 value.toList = 0) :
    items (",".intercalate values).toList = values.flatMap fun value => items value.toList := by
  rw [String.toList_intercalate]
  induction values with
  | nil => rfl
  | cons value values ih =>
      cases values with
      | nil => simp
      | cons next values =>
          rw [List.dropLast_cons_cons, List.forall_mem_cons] at h
          have hjoined : ",".toList.intercalate ((value :: next :: values).map String.toList) =
              value.toList ++
                ',' :: ",".toList.intercalate ((next :: values).map String.toList) := by
            rw [List.map_cons, List.map_cons, List.intercalate_cons_cons, List.append_assoc]
            rfl
          simp only [hjoined, items_append_comma h.1, ih h.2, List.flatMap_cons]

/-- **Completeness**: a list of items is read back from the items with commas between them. -/
theorem IsItemList.items_intercalate {l : List String} (h : IsItemList l) :
    items (",".intercalate l).toList = l := by
  have hitems : ∀ item ∈ l, items item.toList = [item] := fun item hmem =>
    (h.isItem item hmem).items_eq
  rw [Request.items_intercalate h.closed, List.flatMap_congr hitems, List.flatMap_singleton']

/-- **Normal form**: reading the items of a value, joined by commas, gives the same items.  The
lists that are read from some value are the lists of items, and each of them is read back from its
items joined by commas. -/
theorem items_normalises :
    (∀ value : String, items (",".intercalate (items value.toList)).toList =
      items value.toList) ∧
    ∀ l : List String, ((∃ value : String, items value.toList = l) ↔ IsItemList l) ∧
      (IsItemList l → items (",".intercalate l).toList = l) := by
  refine ⟨fun value => (isItemList_items _).items_intercalate, fun l => ⟨⟨?_, fun h => ?_⟩, ?_⟩⟩
  · rintro ⟨value, rfl⟩
    exact isItemList_items _
  · exact ⟨",".intercalate l, h.items_intercalate⟩
  · exact IsItemList.items_intercalate

/-- A stray closing bracket, a comma within brackets, and a last item that leaves a bracket open. -/
theorem items_normalises_open :
    IsItemList ["]", "a[x, y]", "b[c,[d"] ∧
      items (",".intercalate ["]", "a[x, y]", "b[c,[d"]).toList = ["]", "a[x, y]", "b[c,[d"] := by
  have hlist : IsItemList ["]", "a[x, y]", "b[c,[d"] := by decide
  exact ⟨hlist, (items_normalises.2 _).2 hlist⟩

end PushPlan.Request
