/-!
# PushPlan.Sorted

Collections in strictly ascending order of a key.

1. A `Sorted key` is a list together with a proof that the keys ascend, so
   each key occurs at most once and equal collections are equal lists.
2. A set sorts by its elements themselves (`SortedSet`), a map by the first
   component of its entries (`SortedMap`).
3. Inserting an element replaces the one with the same key, so of several
   insertions under one key the last wins.

This module depends only on the Lean 4 core library.
-/

namespace PushPlan

universe u v

/-- A list in strictly ascending order of `key`. -/
structure Sorted {κ : Type u} {α : Type v} [Ord κ] (key : α → κ) where
  /-- The elements, in order. -/
  toList : List α
  /-- Each key is smaller than all later ones. -/
  ascending : toList.Pairwise fun a b => compare (key a) (key b) = .lt
deriving DecidableEq

namespace Sorted

variable {κ : Type u} {α : Type v} [Ord κ] {key : α → κ}

@[ext] theorem ext {s t : Sorted key} (h : s.toList = t.toList) : s = t := by
  cases s; cases t; cases h; rfl

/-- The collection with no elements. -/
def empty : Sorted key := ⟨[], .nil⟩

/-- The number of elements. -/
def size (s : Sorted key) : Nat := s.toList.length

/-- The keys, in order. -/
def keys (s : Sorted key) : List κ := s.toList.map key

/-- The element with a given key. -/
def find? (s : Sorted key) (k : κ) : Option α := s.toList.find? fun a => compare k (key a) == .eq

/-- Whether some element has the given key. -/
def contains (s : Sorted key) (k : κ) : Bool := (s.find? k).isSome

/-- The elements that satisfy a test. -/
def filter (p : α → Bool) (s : Sorted key) : Sorted key :=
  ⟨s.toList.filter p, s.ascending.filter p⟩

/-! ## Insertion -/

/-- Puts an element at its place in an ascending list, over one with the same key. -/
def place (key : α → κ) (a : α) : List α → List α
  | [] => [a]
  | b :: bs =>
    match compare (key a) (key b) with
    | .lt => a :: b :: bs
    | .eq => a :: bs
    | .gt => b :: place key a bs

theorem mem_of_mem_place {a x : α} {l : List α} (h : x ∈ place key a l) : x = a ∨ x ∈ l := by
  induction l with
  | nil => simpa [place] using h
  | cons b bs ih =>
    simp only [place] at h
    split at h
    · simpa using h
    · simp only [List.mem_cons] at h ⊢
      exact h.imp_right .inr
    · simp only [List.mem_cons] at h ⊢
      rcases h with h | h
      · exact .inr (.inl h)
      · exact (ih h).imp_right .inr

theorem pairwise_place [Std.TransOrd κ] (a : α) {l : List α}
    (h : l.Pairwise fun a b => compare (key a) (key b) = .lt) :
    (place key a l).Pairwise fun a b => compare (key a) (key b) = .lt := by
  induction l with
  | nil => simp [place]
  | cons b bs ih =>
    obtain ⟨hb, hbs⟩ := List.pairwise_cons.1 h
    simp only [place]
    split
    · next hlt =>
      refine List.pairwise_cons.2 ⟨fun x hx => ?_, h⟩
      rcases List.mem_cons.1 hx with rfl | hx
      · exact hlt
      · exact Std.TransCmp.lt_trans hlt (hb x hx)
    · next heq =>
      exact List.pairwise_cons.2
        ⟨fun x hx => by rw [Std.TransCmp.congr_left heq]; exact hb x hx, hbs⟩
    · next hgt =>
      refine List.pairwise_cons.2 ⟨fun x hx => ?_, ih hbs⟩
      rcases mem_of_mem_place hx with rfl | hx
      · exact Std.OrientedCmp.lt_of_gt hgt
      · exact hb x hx

/-- Adds an element, in place of one with the same key. -/
def insert [Std.TransOrd κ] (a : α) (s : Sorted key) : Sorted key :=
  ⟨place key a s.toList, pairwise_place a s.ascending⟩

/-- Adds the elements of a list one after the other, so the last of equal keys stays. -/
def insertAll [Std.TransOrd κ] (l : List α) (s : Sorted key) : Sorted key :=
  l.foldl (fun s a => s.insert a) s

/-- The elements of a list; of equal keys the last stays. -/
def ofList [Std.TransOrd κ] (l : List α) : Sorted key := (empty : Sorted key).insertAll l

/-! ## Looking up -/

theorem find?_eq_some_iff [Std.TransOrd κ] [Std.LawfulEqOrd κ] {s : Sorted key} {k : κ} {a : α} :
    s.find? k = some a ↔ a ∈ s.toList ∧ key a = k := by
  obtain ⟨l, hl⟩ := s
  simp only [find?]
  induction l with
  | nil => simp
  | cons b bs ih =>
    obtain ⟨hb, hbs⟩ := List.pairwise_cons.1 hl
    by_cases h : k = key b
    · subst h
      simp only [List.find?_cons, Std.ReflCmp.compare_self, beq_self_eq_true,
        Option.some.injEq, List.mem_cons]
      constructor
      · rintro rfl
        exact ⟨.inl rfl, rfl⟩
      · rintro ⟨rfl | ha, hk⟩
        · rfl
        · exact absurd (hb a ha) (by simp [hk])
    · have hne : (compare k (key b) == .eq) = false := by
        simp [Std.LawfulEqCmp.compare_eq_iff_eq, h]
      simp only [List.find?_cons, hne, ih hbs, List.mem_cons]
      constructor
      · rintro ⟨ha, hk⟩
        exact ⟨.inr ha, hk⟩
      · rintro ⟨rfl | ha, hk⟩
        · exact absurd hk.symm h
        · exact ⟨ha, hk⟩

/-- Ascending lists with the same elements are the same list. -/
theorem eq_of_mem_iff [Std.TransOrd κ] {l m : List κ}
    (hl : l.Pairwise fun a b => compare a b = .lt) (hm : m.Pairwise fun a b => compare a b = .lt)
    (h : ∀ a, a ∈ l ↔ a ∈ m) : l = m := by
  induction l generalizing m with
  | nil => exact (List.eq_nil_iff_forall_not_mem.2 fun a ha => by simpa using (h a).2 ha).symm
  | cons a l ih =>
    obtain ⟨ha, hls⟩ := List.pairwise_cons.1 hl
    cases m with
    | nil => exact absurd ((h a).1 List.mem_cons_self) List.not_mem_nil
    | cons b m =>
      obtain ⟨hb, hms⟩ := List.pairwise_cons.1 hm
      have irrefl (x : κ) (hx : compare x x = .lt) : False := by simp at hx
      have hab : a = b := by
        rcases List.mem_cons.1 ((h a).1 List.mem_cons_self) with rfl | ham
        · rfl
        · rcases List.mem_cons.1 ((h b).2 List.mem_cons_self) with rfl | hbl
          · rfl
          · exact (irrefl a (Std.TransCmp.lt_trans (ha b hbl) (hb a ham))).elim
      subst hab
      congr 1
      refine ih hls hms fun x => ⟨fun hx => ?_, fun hx => ?_⟩
      · rcases List.mem_cons.1 ((h x).1 (List.mem_cons_of_mem _ hx)) with rfl | hx'
        · exact (irrefl x (ha x hx)).elim
        · exact hx'
      · rcases List.mem_cons.1 ((h x).2 (List.mem_cons_of_mem _ hx)) with rfl | hx'
        · exact (irrefl x (hb x hx)).elim
        · exact hx'

/-- The keys of a collection ascend. -/
theorem pairwise_keys {s : Sorted key} : s.keys.Pairwise fun a b => compare a b = .lt :=
  List.pairwise_map.2 s.ascending

theorem contains_iff [Std.TransOrd κ] [Std.LawfulEqOrd κ] {s : Sorted key} {k : κ} :
    s.contains k = true ↔ k ∈ s.keys := by
  simp only [contains, Option.isSome_iff_exists, find?_eq_some_iff, keys, List.mem_map]

end Sorted

/-! ## Sets and maps -/

/-- A set of elements in ascending order. -/
abbrev SortedSet (κ : Type u) [Ord κ] := Sorted (id : κ → κ)

/-- A map whose entries ascend by key. -/
abbrev SortedMap (κ : Type u) (α : Type v) [Ord κ] := Sorted (Prod.fst : κ × α → κ)

namespace SortedMap

variable {κ : Type u} {α : Type v} [Ord κ]

/-- The value under a key. -/
def get? (m : SortedMap κ α) (k : κ) : Option α := (m.find? k).map Prod.snd

/-- The values, in the order of their keys. -/
def values (m : SortedMap κ α) : List α := m.toList.map Prod.snd

/-- Puts a value under a key, in place of an earlier one. -/
def put [Std.TransOrd κ] (k : κ) (a : α) (m : SortedMap κ α) : SortedMap κ α := m.insert (k, a)

/-- The map with every value replaced by its image. -/
def mapValues {β : Type v} (f : α → β) (m : SortedMap κ α) : SortedMap κ β :=
  ⟨m.toList.map fun (k, a) => (k, f a), List.pairwise_map.2 m.ascending⟩

end SortedMap

end PushPlan
