import PushPlan.Sorted

/-!
# PushPlan.Proofs.Sorted

Collections in ascending order, seen through their members:

1. an insertion adds one element and takes away the one with the same key, so
   a collection made from a list that uses a key for one element only has
   exactly the elements of the list;
2. an ascending list put in element by element comes out unchanged;
3. two collections with the same elements are the same;
4. searching a collection from the front finds the least element that passes
   (`Sorted.Least`);
5. a map gives back what was put under a key, and of what stands under other
   keys nothing changes.

The order is the one of the keys throughout; what is stored beside a key never
matters.
-/

namespace PushPlan

universe u v

/-- Each element is smaller than all later ones. -/
def Ascending {κ : Type u} [Ord κ] (l : List κ) : Prop := l.Pairwise fun a b => compare a b = .lt

instance {κ : Type u} [Ord κ] (l : List κ) : Decidable (Ascending l) :=
  inferInstanceAs (Decidable (l.Pairwise _))

namespace Sorted

variable {κ : Type u} {α : Type v} [Ord κ] {key : α → κ}

/-! ## Placing one element -/

theorem mem_place_self (a : α) (l : List α) : a ∈ place key a l := by
  induction l with
  | nil => simp [place]
  | cons b bs ih =>
      simp only [place]
      split
      · exact List.mem_cons_self
      · exact List.mem_cons_self
      · exact List.mem_cons_of_mem b ih

theorem mem_place_of_ne [Std.LawfulEqOrd κ] {a x : α} {l : List α} (hx : x ∈ l)
    (hne : key x ≠ key a) : x ∈ place key a l := by
  induction l with
  | nil => exact absurd hx List.not_mem_nil
  | cons b bs ih =>
      simp only [place]
      split
      · exact List.mem_cons_of_mem a hx
      · next heq =>
          have hab : key a = key b := Std.LawfulEqCmp.eq_of_compare heq
          rcases List.mem_cons.1 hx with rfl | hx
          · exact absurd hab.symm hne
          · exact List.mem_cons_of_mem a hx
      · rcases List.mem_cons.1 hx with rfl | hx
        · exact List.mem_cons_self
        · exact List.mem_cons_of_mem b (ih hx)

/-- Placing after all others is appending. -/
theorem place_eq_append [Std.OrientedOrd κ] {a : α} {l : List α}
    (h : ∀ b ∈ l, compare (key b) (key a) = .lt) : place key a l = l ++ [a] := by
  induction l with
  | nil => rfl
  | cons b bs ih =>
      have hgt : compare (key a) (key b) = .gt :=
        Std.OrientedCmp.gt_of_lt (h b List.mem_cons_self)
      have hbs : place key a bs = bs ++ [a] := ih fun c hc => h c (List.mem_cons_of_mem b hc)
      simp only [place, hgt, hbs, List.cons_append]

/-- Placing an element under a new key adds it and takes nothing away. -/
theorem perm_place {a : α} {l : List α} (h : ∀ b ∈ l, compare (key a) (key b) ≠ .eq) :
    (place key a l).Perm (a :: l) := by
  induction l with
  | nil => exact .refl _
  | cons b bs ih =>
      have hbs : (place key a bs).Perm (a :: bs) := ih fun c hc => h c (List.mem_cons_of_mem b hc)
      simp only [place]
      split
      · exact .refl _
      · next heq => exact absurd heq (h b List.mem_cons_self)
      · exact (hbs.cons b).trans (.swap a b bs)

/-! ## Least elements -/

/-- The element with the least key among those with a property. -/
structure Least (s : Sorted key) (P : α → Prop) (a : α) : Prop where
  mem : a ∈ s.toList
  holds : P a
  least : ∀ b ∈ s.toList, P b → b = a ∨ compare (key a) (key b) = .lt

theorem Least.congr {s : Sorted key} {P Q : α → Prop} {a : α}
    (h : ∀ b ∈ s.toList, P b ↔ Q b) : s.Least P a ↔ s.Least Q a := by
  constructor
  · intro hP
    exact ⟨hP.mem, (h a hP.mem).1 hP.holds, fun b hb hQ => hP.least b hb ((h b hb).2 hQ)⟩
  · intro hQ
    exact ⟨hQ.mem, (h a hQ.mem).2 hQ.holds, fun b hb hP => hQ.least b hb ((h b hb).1 hP)⟩

variable [Std.TransOrd κ]

/-- The least element is the first one in order. -/
theorem least_iff_append {s : Sorted key} {P : α → Prop} {a : α} :
    s.Least P a ↔ P a ∧ ∃ l r, s.toList = l ++ a :: r ∧ ∀ b ∈ l, ¬ P b := by
  have hascending := s.ascending
  constructor
  · intro h
    obtain ⟨l, r, hs⟩ := List.append_of_mem h.mem
    refine ⟨h.holds, l, r, hs, fun b hb hP => ?_⟩
    rw [hs] at hascending
    have hlt : compare (key b) (key a) = .lt :=
      (List.pairwise_append.1 hascending).2.2 b hb a List.mem_cons_self
    rcases h.least b (by rw [hs]; exact List.mem_append_left _ hb) hP with rfl | hgt
    · simp at hlt
    · have hself := Std.TransCmp.lt_trans hlt hgt
      simp at hself
  · intro h
    obtain ⟨hP, l, r, hs, hl⟩ := h
    refine ⟨by simp [hs], hP, fun b hb hPb => ?_⟩
    rw [hs] at hascending hb
    rcases List.mem_append.1 hb with hb | hb
    · exact absurd hPb (hl b hb)
    · rcases List.mem_cons.1 hb with rfl | hb
      · exact .inl rfl
      · have hright := (List.pairwise_append.1 hascending).2.1
        exact .inr ((List.pairwise_cons.1 hright).1 b hb)

/-- A search from the front finds the least element that passes. -/
theorem find?_toList_eq_some_iff {s : Sorted key} {p : α → Bool} {a : α} :
    s.toList.find? p = some a ↔ s.Least (fun b => p b = true) a := by
  rw [least_iff_append, List.find?_eq_some_iff_append]
  simp only [Bool.not_eq_true, Bool.not_eq_eq_eq_not, Bool.not_true]

theorem findSome?_toList_eq_some_iff {β : Type v} {s : Sorted key} {f : α → Option β} {b : β} :
    s.toList.findSome? f = some b ↔
      ∃ a, s.Least (fun x => (f x).isSome = true) a ∧ f a = some b := by
  rw [List.findSome?_eq_some_iff]
  constructor
  · intro h
    obtain ⟨l, a, r, hs, ha, hl⟩ := h
    refine ⟨a, least_iff_append.2 ⟨by rw [ha]; rfl, l, r, hs, fun x hx => ?_⟩, ha⟩
    rw [hl x hx]
    exact Bool.false_ne_true
  · intro h
    obtain ⟨a, hleast, ha⟩ := h
    obtain ⟨_, l, r, hs, hl⟩ := least_iff_append.1 hleast
    exact ⟨l, a, r, hs, ha, fun x hx => by simpa using hl x hx⟩

/-! ## Inserting lists -/

/-- Inserting an ascending list above all that is there appends it. -/
theorem toList_insertAll_of_ascending {l : List α} {s : Sorted key}
    (h : (s.toList ++ l).Pairwise fun a b => compare (key a) (key b) = .lt) :
    (s.insertAll l).toList = s.toList ++ l := by
  induction l generalizing s with
  | nil => simp [insertAll]
  | cons a l ih =>
      have hlt : ∀ b ∈ s.toList, compare (key b) (key a) = .lt := fun b hb =>
        (List.pairwise_append.1 h).2.2 b hb a List.mem_cons_self
      have hins : (s.insert a).toList = s.toList ++ [a] := place_eq_append hlt
      have hasc : ((s.insert a).toList ++ l).Pairwise
          fun a b => compare (key a) (key b) = .lt := by
        rw [hins, List.append_assoc]
        exact h
      have hrest : ((s.insert a).insertAll l).toList = (s.insert a).toList ++ l := ih hasc
      rw [hins, List.append_assoc] at hrest
      exact hrest

/-- **Normal form**: an ascending list is the list of the collection made from it. -/
theorem toList_ofList_of_ascending {l : List α}
    (h : l.Pairwise fun a b => compare (key a) (key b) = .lt) :
    (ofList l : Sorted key).toList = l :=
  toList_insertAll_of_ascending (s := empty) h

theorem ofList_toList (s : Sorted key) : ofList s.toList = s :=
  ext (toList_ofList_of_ascending s.ascending)

/-- Collections with the same elements are the same collection. -/
theorem ext_mem {s t : Sorted key} (h : ∀ a, a ∈ s.toList ↔ a ∈ t.toList) : s = t := by
  -- The elements themselves are put in the order of their keys, in which both lists ascend.
  let _ : Ord α := ⟨compareOn key⟩
  have _ : Std.TransOrd α := inferInstanceAs (Std.TransCmp (compareOn key))
  exact ext (eq_of_mem_iff s.ascending t.ascending h)

theorem mem_of_mem_insertAll {l : List α} {s : Sorted key} {x : α}
    (h : x ∈ (s.insertAll l).toList) : x ∈ l ∨ x ∈ s.toList := by
  induction l generalizing s with
  | nil => exact .inr h
  | cons a l ih =>
      rcases ih h with hl | ha
      · exact .inl (List.mem_cons_of_mem a hl)
      · rcases mem_of_mem_place ha with rfl | hs
        · exact .inl List.mem_cons_self
        · exact .inr hs

/-- Where a key stands for one element only, all that is inserted and all that was there stays. -/
theorem mem_insertAll_of_inj [Std.LawfulEqOrd κ] {l : List α} {s : Sorted key} {x : α}
    (hinj : ∀ a ∈ l, ∀ b, b ∈ l ∨ b ∈ s.toList → key b = key a → b = a) :
    x ∈ (s.insertAll l).toList ↔ x ∈ l ∨ x ∈ s.toList := by
  refine ⟨mem_of_mem_insertAll, fun h => ?_⟩
  induction l generalizing s with
  | nil => exact h.resolve_left List.not_mem_nil
  | cons a l ih =>
      have hinsert : ∀ b, b ∈ (a :: l) ∨ b ∈ s.toList → b ∈ l ∨ b ∈ (s.insert a).toList := by
        intro b hb
        by_cases hba : b = a
        · subst hba
          exact .inr (mem_place_self b s.toList)
        · rcases hb with hb | hb
          · exact .inl ((List.mem_cons.1 hb).resolve_left hba)
          · have hne : key b ≠ key a := fun heq =>
              hba (hinj a List.mem_cons_self b (.inr hb) heq)
            exact .inr (mem_place_of_ne hb hne)
      refine ih (s := s.insert a) (fun c hc b hb heq => ?_) (hinsert x h)
      refine hinj c (List.mem_cons_of_mem a hc) b ?_ heq
      rcases hb with hb | hb
      · exact .inl (List.mem_cons_of_mem a hb)
      · rcases mem_of_mem_place hb with rfl | hb
        · exact .inl List.mem_cons_self
        · exact .inr hb

/-- A collection made from a list in which a key stands for one element only has the elements of
the list. -/
theorem mem_ofList_of_inj [Std.LawfulEqOrd κ] {l : List α} {x : α}
    (hinj : ∀ a ∈ l, ∀ b ∈ l, key b = key a → b = a) :
    x ∈ (ofList l : Sorted key).toList ↔ x ∈ l := by
  have h : x ∈ ((empty : Sorted key).insertAll l).toList ↔ x ∈ l ∨ x ∈ [] :=
    mem_insertAll_of_inj fun a ha b hb => hinj a ha b (hb.resolve_right List.not_mem_nil)
  simpa [ofList] using h

theorem mem_of_mem_ofList {l : List α} {x : α} (h : x ∈ (ofList l : Sorted key).toList) :
    x ∈ l :=
  (mem_of_mem_insertAll (s := empty) h).resolve_right List.not_mem_nil

/-- An element of a collection is the only one with its key. -/
theorem eq_of_mem_of_key_eq [Std.LawfulEqOrd κ] {s : Sorted key} {a b : α} (ha : a ∈ s.toList)
    (hb : b ∈ s.toList) (h : key a = key b) : a = b := by
  have hfind : s.find? (key b) = some a := find?_eq_some_iff.2 ⟨ha, h⟩
  rw [find?_eq_some_iff.2 ⟨hb, rfl⟩] at hfind
  exact (Option.some.inj hfind).symm

theorem nodup_of_ascending {l : List κ} (h : l.Pairwise fun a b => compare a b = .lt) :
    l.Nodup := by
  refine h.imp ?_
  intro a b hlt heq
  subst heq
  simp at hlt

end Sorted

/-! ## Sets -/

namespace SortedSet

open Sorted

variable {κ : Type u} [Ord κ] [Std.TransOrd κ]

variable [Std.LawfulEqOrd κ]

theorem mem_insertAll {l : List κ} {s : SortedSet κ} {x : κ} :
    x ∈ (s.insertAll l).toList ↔ x ∈ l ∨ x ∈ s.toList :=
  mem_insertAll_of_inj fun _ _ _ _ h => h

theorem mem_ofList {l : List κ} {x : κ} : x ∈ (ofList l : SortedSet κ).toList ↔ x ∈ l :=
  mem_ofList_of_inj fun _ _ _ _ h => h

theorem contains_iff_mem {s : SortedSet κ} {x : κ} : s.contains x = true ↔ x ∈ s.toList := by
  rw [contains_iff, keys, List.map_id]

end SortedSet

/-! ## Maps -/

namespace SortedMap

variable {κ : Type u} {α β γ : Type v} [Ord κ]

theorem toList_mapValues (f : α → β) (m : SortedMap κ α) :
    (m.mapValues f).toList = m.toList.map fun (k, a) => (k, f a) := rfl

theorem keys_mapValues (f : α → β) (m : SortedMap κ α) : (m.mapValues f).keys = m.keys := by
  rw [Sorted.keys, Sorted.keys, toList_mapValues, List.map_map]
  rfl

theorem mapValues_mapValues (f : α → β) (g : β → γ) (m : SortedMap κ α) :
    (m.mapValues f).mapValues g = m.mapValues fun a => g (f a) := by
  apply Sorted.ext
  rw [toList_mapValues, toList_mapValues, toList_mapValues, List.map_map]
  rfl

theorem mapValues_self (m : SortedMap κ α) : m.mapValues (fun a => a) = m :=
  Sorted.ext (List.map_id _)

/-! ### Looking up -/

variable [Std.TransOrd κ] [Std.LawfulEqOrd κ]

theorem get?_eq_some_iff {m : SortedMap κ α} {k : κ} {a : α} :
    m.get? k = some a ↔ (k, a) ∈ m.toList := by
  rw [get?, Option.map_eq_some_iff]
  constructor
  · intro h
    obtain ⟨entry, hfind, rfl⟩ := h
    obtain ⟨hentry, rfl⟩ := Sorted.find?_eq_some_iff.1 hfind
    exact hentry
  · intro h
    exact ⟨(k, a), Sorted.find?_eq_some_iff.2 ⟨h, rfl⟩, rfl⟩

theorem isSome_get?_iff {m : SortedMap κ α} {k : κ} : (m.get? k).isSome = true ↔ k ∈ m.keys := by
  rw [get?, Option.isSome_map, ← Sorted.contains, Sorted.contains_iff]

/-- What was put under a key is found there. -/
theorem get?_put_self (m : SortedMap κ α) (k : κ) (a : α) : (m.put k a).get? k = some a :=
  get?_eq_some_iff.2 (Sorted.mem_place_self (k, a) m.toList)

/-- The least entry of a map with other values stands under the key of the least entry. -/
theorem least_mapValues_iff {m : SortedMap κ α} {f : α → β} {P : κ × β → Prop}
    {entry : κ × β} :
    (m.mapValues f).Least P entry ↔
      ∃ a, m.Least (fun x => P (x.1, f x.2)) (entry.1, a) ∧ f a = entry.2 := by
  constructor
  · intro h
    obtain ⟨⟨k, a⟩, hx, rfl⟩ := List.mem_map.1 h.mem
    refine ⟨a, ⟨hx, h.holds, fun b hb hP => ?_⟩, rfl⟩
    refine (h.least _ (List.mem_map_of_mem hb) hP).imp_left fun heq => ?_
    have hkey : b.1 = k := congrArg Prod.fst heq
    exact Sorted.eq_of_mem_of_key_eq hb hx hkey
  · intro h
    obtain ⟨k, b⟩ := entry
    obtain ⟨a, h, rfl⟩ := h
    refine ⟨List.mem_map_of_mem h.mem, h.holds, fun b hb hP => ?_⟩
    obtain ⟨x, hx, rfl⟩ := List.mem_map.1 hb
    exact (h.least x hx hP).imp_left fun heq => by rw [heq]

theorem mem_keys_put {m : SortedMap κ α} {k l : κ} {a : α} :
    l ∈ (m.put k a).keys ↔ l = k ∨ l ∈ m.keys := by
  rw [Sorted.keys, Sorted.keys, List.mem_map, List.mem_map]
  constructor
  · rintro ⟨entry, hentry, rfl⟩
    rcases Sorted.mem_of_mem_place hentry with rfl | hmem
    · exact .inl rfl
    · exact .inr ⟨entry, hmem, rfl⟩
  · rintro (rfl | ⟨entry, hentry, rfl⟩)
    · exact ⟨(l, a), Sorted.mem_place_self _ _, rfl⟩
    · by_cases hkey : entry.1 = k
      · exact ⟨(k, a), Sorted.mem_place_self _ _, hkey.symm⟩
      · exact ⟨entry, Sorted.mem_place_of_ne hentry hkey, rfl⟩

/-- Under other keys than the one that is put, nothing changes. -/
theorem get?_put_of_ne (m : SortedMap κ α) {k l : κ} (a : α) (h : l ≠ k) :
    (m.put k a).get? l = m.get? l := by
  apply Option.ext
  intro b
  rw [get?_eq_some_iff, get?_eq_some_iff]
  constructor
  · intro hb
    rcases Sorted.mem_of_mem_place hb with heq | hmem
    · exact absurd (congrArg Prod.fst heq) h
    · exact hmem
  · intro hb
    exact Sorted.mem_place_of_ne hb h

/-- Maps with the same value under every key are the same map. -/
theorem ext_get? {m n : SortedMap κ α} (h : ∀ k, m.get? k = n.get? k) : m = n := by
  apply Sorted.ext_mem
  intro entry
  obtain ⟨k, a⟩ := entry
  rw [← get?_eq_some_iff, ← get?_eq_some_iff, h k]

end SortedMap

end PushPlan
