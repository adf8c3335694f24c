import Mathlib.Data.List.Forall2
import PushPlan.Proofs.Request.Entry
import PushPlan.Proofs.Request.Items
import PushPlan.Proofs.Request.Suites
import PushPlan.Proofs.Sorted

/-!
# PushPlan.Proofs.Request.Grouping

How a suite list gathers the entries for chunks of one suite.

1. The *group* of a spec that asks for chunks is its suite with its platforms.
   Two specs join exactly when they are in one group.
2. Where no two specs of a list are in one group, a further spec is joined
   into all that it can be joined into (`SuiteSpec.gather`), or it is put at
   the end.
3. An entry asks for one chunk and for its full name, or for no chunk and only
   for what its name stands for.
4. What has been read so far is grouped (`Grouped`), and one more entry keeps
   it so, well-formed or not.

So the list has one spec for each group and one for each entry outside all
groups, in the order in which the first entries of each came.
-/

namespace PushPlan.Request

open Text

/-! ## Groups of specs -/

namespace SuiteSpec

/-- A suite and the platforms that it is asked for on. -/
abbrev Group := String × Option (List String)

variable {s t : SuiteSpec} {specs : List SuiteSpec}

/-- The group of a spec that asks for chunks. -/
def group? (s : SuiteSpec) : Option Group := s.chunks.map fun _ => (s.name, s.platforms)

theorem group?_of_chunks {chunks : SortedSet Int} (h : s.chunks = some chunks) :
    s.group? = some (s.name, s.platforms) := by
  rw [group?, h, Option.map_some]

@[simp] theorem isSome_group? (s : SuiteSpec) : s.group?.isSome = s.chunks.isSome :=
  Option.isSome_map

/-- A spec takes what is in its group, if it has one. -/
def Takes (s : SuiteSpec) (g : Option Group) : Prop := s.group?.isSome ∧ g = s.group?

instance (s : SuiteSpec) (g : Option Group) : Decidable (s.Takes g) :=
  inferInstanceAs (Decidable (_ ∧ _))

theorem not_takes_of_chunks {g : Option Group} (h : s.chunks = none) : ¬ s.Takes g := by
  simp [Takes, h]

theorem not_takes_none (s : SuiteSpec) : ¬ s.Takes none := by
  intro h
  obtain ⟨hsome, hnone⟩ := h
  rw [← hnone] at hsome
  contradiction

/-- Specs join when they are in one group. -/
theorem exists_join?_iff : (∃ joined, s.join? t = some joined) ↔ s.Takes t.group? := by
  simp only [join?_eq_some_iff]
  constructor
  · intro h
    obtain ⟨_, chunks, more, hs, ht, hname, hplatforms, _⟩ := h
    rw [Takes, group?_of_chunks hs, group?_of_chunks ht, hname, hplatforms]
    exact ⟨rfl, rfl⟩
  · intro h
    obtain ⟨hsome, hgroup⟩ := h
    have hsome' : t.group?.isSome = true := by rw [hgroup, hsome]
    rw [isSome_group?, Option.isSome_iff_exists] at hsome hsome'
    obtain ⟨chunks, hs⟩ := hsome
    obtain ⟨more, ht⟩ := hsome'
    rw [group?_of_chunks hs, group?_of_chunks ht, Option.some.injEq, Prod.mk.injEq] at hgroup
    exact ⟨_, chunks, more, hs, ht, hgroup.1.symm, hgroup.2.symm, rfl⟩

theorem join?_eq_none_iff : s.join? t = none ↔ ¬ s.Takes t.group? := by
  rw [← exists_join?_iff, ← Option.isSome_iff_exists, Option.not_isSome_iff_eq_none]

/-! ### Joining what can be joined -/

/-- A spec with another one joined into it, if they are in one group. -/
def gather (s t : SuiteSpec) : SuiteSpec := (s.join? t).getD s

theorem gather_of_join {joined : SuiteSpec} (h : s.join? t = some joined) :
    s.gather t = joined := by
  rw [gather, h, Option.getD_some]

theorem gather_eq_self (h : ¬ s.Takes t.group?) : s.gather t = s := by
  rw [gather, join?_eq_none_iff.2 h, Option.getD_none]

/-- In one group, the literals and the chunks of both are put together. -/
theorem exists_gather_eq (h : s.Takes t.group?) :
    ∃ chunks more, s.chunks = some chunks ∧ t.chunks = some more ∧
      s.gather t = { s with literals := s.literals ++ t.literals,
                            chunks := some (chunks.insertAll more.toList) } := by
  obtain ⟨joined, hjoin⟩ := exists_join?_iff.2 h
  obtain ⟨chunks, more, hs, ht, _, _, hjoined⟩ := join?_eq_some_iff.1 hjoin
  exact ⟨chunks, more, hs, ht, (gather_of_join hjoin).trans hjoined⟩

@[simp] theorem group?_gather (s t : SuiteSpec) : (s.gather t).group? = s.group? := by
  by_cases h : s.Takes t.group?
  · obtain ⟨chunks, more, hs, _, hgather⟩ := exists_gather_eq h
    rw [hgather, group?_of_chunks hs, group?_of_chunks rfl]
  · rw [gather_eq_self h]

@[simp] theorem takes_gather_iff {g : Option Group} : (s.gather t).Takes g ↔ s.Takes g := by
  rw [Takes, Takes, group?_gather]

/-- A spec that asks for no chunk is outside all groups. -/
theorem gather_of_chunks (h : s.chunks = none) : s.gather t = s :=
  gather_eq_self (not_takes_of_chunks h)

@[simp] theorem isSome_chunks_gather (s t : SuiteSpec) :
    (s.gather t).chunks.isSome = s.chunks.isSome := by
  rw [← isSome_group?, group?_gather, isSome_group?]

/-! ### Adding to a list -/

/-- No two specs of a list are in one group. -/
def Apart (specs : List SuiteSpec) : Prop := specs.Pairwise fun s t => ¬ s.Takes t.group?

theorem map_gather_eq_self (h : ∀ s ∈ specs, ¬ s.Takes t.group?) :
    specs.map (·.gather t) = specs := by
  have hself : specs.map (·.gather t) = specs.map fun s => s :=
    List.map_congr_left fun s hs => gather_eq_self (h s hs)
  rw [hself, List.map_id']

theorem addTo_of_not_takes (h : ∀ s ∈ specs, ¬ s.Takes t.group?) :
    t.addTo specs = specs ++ [t] := by
  induction specs with
  | nil => rfl
  | cons s specs ih =>
      have hs : s.join? t = none := join?_eq_none_iff.2 (h s List.mem_cons_self)
      have hspecs := ih fun u hu => h u (List.mem_cons_of_mem s hu)
      simp only [addTo, hs, hspecs, List.cons_append]

/-- Where no two specs are in one group, joining into the first that can be joined is joining into
all of them. -/
theorem addTo_of_takes (hapart : Apart specs) (h : ∃ s ∈ specs, s.Takes t.group?) :
    t.addTo specs = specs.map (·.gather t) := by
  induction specs with
  | nil => simp at h
  | cons s specs ih =>
      obtain ⟨hs, hspecs⟩ := List.pairwise_cons.1 hapart
      by_cases htakes : s.Takes t.group?
      · obtain ⟨joined, hjoin⟩ := exists_join?_iff.2 htakes
        have hrest : ∀ u ∈ specs, ¬ u.Takes t.group? := fun u hu hu' =>
          hs u hu ⟨htakes.1, hu'.2.symm.trans htakes.2⟩
        simp only [addTo, hjoin]
        rw [List.map_cons, gather_of_join hjoin, map_gather_eq_self hrest]
      · have hjoin : s.join? t = none := join?_eq_none_iff.2 htakes
        have hrest : ∃ u ∈ specs, u.Takes t.group? := by
          simpa [htakes] using h
        simp only [addTo, hjoin]
        rw [List.map_cons, gather_eq_self htakes, ih hspecs hrest]

theorem apart_map_gather : Apart (specs.map (·.gather t)) ↔ Apart specs := by
  simp [Apart, List.pairwise_map]

theorem apart_append_singleton (h : ∀ s ∈ specs, ¬ s.Takes t.group?) (hapart : Apart specs) :
    Apart (specs ++ [t]) := by
  refine List.pairwise_append.2 ⟨hapart, List.pairwise_singleton _ t, fun s hs u hu => ?_⟩
  rw [List.mem_singleton.1 hu]
  exact h s hs

/-- Specs outside all groups stay as they are. -/
theorem filter_map_gather (specs : List SuiteSpec) (t : SuiteSpec) :
    (specs.map (·.gather t)).filter (·.chunks.isNone) = specs.filter (·.chunks.isNone) := by
  have hsame : (fun s : SuiteSpec => (s.gather t).chunks.isNone) = (·.chunks.isNone) := by
    funext s
    rw [Bool.eq_iff_iff, ← Option.not_isSome, ← Option.not_isSome, isSome_chunks_gather]
  have hself : ∀ s ∈ specs.filter (·.chunks.isNone), ¬ s.Takes t.group? := by
    intro s hs
    exact not_takes_of_chunks (by simpa using (List.mem_filter.1 hs).2)
  rw [List.filter_map, Function.comp_def, hsame, map_gather_eq_self hself]

end SuiteSpec

/-! ## Groups of entries -/

/-- The name in an entry, without the filter. -/
def fullName (entry : String) : String :=
  String.ofList (((cutFilter? entry.toList).map Prod.fst).getD [])

/-- The number behind the last dash of the name in an entry. -/
def chunkNumber? (entry : String) : Option Int :=
  (cutChunk? (fullName entry).toList).map Prod.snd

section Entry

variable (c : Conventions) (resolve : Resolver)

/-- A name asks for no chunk, or for the one that is cut off and for itself. -/
theorem chunks_specOfName (platforms : Option (List String)) (name : List Char) :
    ((specOfName resolve platforms name).chunks = none ∧
        (specOfName resolve platforms name).literals = []) ∨
      ∃ base n, cutChunk? name = some (base, n) ∧
        (specOfName resolve platforms name).chunks = some (.ofList [n]) ∧
        (specOfName resolve platforms name).literals = [String.ofList name] := by
  simp only [specOfName]
  split
  · next base n hchunk =>
      have hcut : cutChunk? name = some (base, n) := by
        split at hchunk
        · contradiction
        · exact hchunk
      exact .inr ⟨base, n, hcut, rfl, rfl⟩
  · exact .inl ⟨rfl, rfl⟩

/-- An entry asks for no chunk, or for one chunk and for its full name. -/
theorem chunks_of_read {entry : String} {t : SuiteSpec}
    (h : readEntry? c resolve entry = some t) :
    (t.chunks = none ∧ t.literals = []) ∨
      ∃ n, chunkNumber? entry = some n ∧ t.chunks = some (.ofList [n]) ∧
        t.literals = [fullName entry] := by
  obtain ⟨name, filter, hcut, rfl⟩ := exists_cut_of_read c resolve h
  have hname : fullName entry = String.ofList name := by
    rw [fullName, hcut, Option.map_some, Option.getD_some]
  rcases chunks_specOfName resolve (filter.map (filterPlatforms c)) name with
    halone | ⟨base, n, hchunk, hchunks, hliterals⟩
  · exact .inl halone
  · refine .inr ⟨n, ?_, hchunks, by rw [hname, hliterals]⟩
    rw [chunkNumber?, hname, String.toList_ofList, hchunk, Option.map_some]

/-- The group of an entry that asks for a chunk. -/
def groupOf? (entry : String) : Option SuiteSpec.Group :=
  readEntry? c resolve entry |>.bind (·.group?)

/-- The spec of an entry that asks for no chunk. -/
def alone? (entry : String) : Option SuiteSpec :=
  readEntry? c resolve entry |>.filter (·.chunks.isNone)

/-- The entries that ask for chunks of the suite of a spec, on the platforms of the spec.  A spec
that asks for no chunk has none. -/
def members (entries : List String) (s : SuiteSpec) : List String :=
  entries.filter fun entry => s.Takes (groupOf? c resolve entry)

variable {c resolve} {entries : List String} {entry : String} {s t : SuiteSpec}

theorem groupOf?_of_read (h : readEntry? c resolve entry = some t) :
    groupOf? c resolve entry = t.group? := by
  rw [groupOf?, h, Option.bind_some]

theorem alone?_of_read (h : readEntry? c resolve entry = some t) :
    alone? c resolve entry = if t.chunks.isNone then some t else none := by
  rw [alone?, h, Option.filter_some]

theorem mem_members_iff : entry ∈ members c resolve entries s ↔
    entry ∈ entries ∧ s.Takes (groupOf? c resolve entry) := by
  simp [members]

theorem members_of_chunks (h : s.chunks = none) : members c resolve entries s = [] := by
  simp [members, SuiteSpec.not_takes_of_chunks h]

theorem members_gather : members c resolve entries (s.gather t) = members c resolve entries s := by
  simp only [members, SuiteSpec.takes_gather_iff]

theorem members_append_of_takes (h : s.Takes (groupOf? c resolve entry)) :
    members c resolve (entries ++ [entry]) s = members c resolve entries s ++ [entry] := by
  simp [members, List.filter_append, h]

theorem members_append_of_not_takes (h : ¬ s.Takes (groupOf? c resolve entry)) :
    members c resolve (entries ++ [entry]) s = members c resolve entries s := by
  simp [members, List.filter_append, h]

/-- The entry of a spec for chunks is the only member if none came before. -/
theorem members_append_self (hread : readEntry? c resolve entry = some t)
    (hsome : t.chunks.isSome) (hnew : members c resolve entries t = []) :
    members c resolve (entries ++ [entry]) t = [entry] := by
  have htakes : t.Takes (groupOf? c resolve entry) := by
    rw [groupOf?_of_read hread, SuiteSpec.Takes, SuiteSpec.isSome_group?]
    exact ⟨hsome, rfl⟩
  rw [members_append_of_takes htakes, hnew, List.nil_append]

end Entry

/-! ## Grouped lists -/

section Grouped

variable (c : Conventions) (resolve : Resolver)

/-- A spec has the pattern of its suite, and the chunks of its members and their full names, in
order.  One without members has no literals. -/
structure Gathers (entries : List String) (s : SuiteSpec) : Prop where
  resolved : s.Resolved resolve
  chunks : ∀ chunks, s.chunks = some chunks → ∀ n,
    n ∈ chunks.toList ↔ ∃ entry ∈ members c resolve entries s, chunkNumber? entry = some n
  literals : s.literals = (members c resolve entries s).map fullName

/-- An entry is the first one that adds to a spec. -/
def Leads (entries : List String) (entry : String) (s : SuiteSpec) : Prop :=
  if s.chunks.isSome then (members c resolve entries s).head? = some entry
  else readEntry? c resolve entry = some s

/-- What a list of entries asks for, with the entries for chunks gathered. -/
structure Grouped (entries : List String) (specs : List SuiteSpec) : Prop where
  /-- No two specs ask for chunks of one suite on the same platforms. -/
  apart : SuiteSpec.Apart specs
  /-- Each spec has what its members ask for. -/
  gathers : ∀ s ∈ specs, Gathers c resolve entries s
  /-- Every entry that asks for a chunk is a member of some spec. -/
  taken : ∀ entry ∈ entries, ∀ g, groupOf? c resolve entry = some g → ∃ s ∈ specs, s.Takes (some g)
  /-- Every entry that asks for no chunk has a spec of its own. -/
  alone : specs.filter (·.chunks.isNone) = entries.filterMap (alone? c resolve)
  /-- The specs are in the order of the first entries that add to them. -/
  ordered : ∃ leaders, leaders.Sublist entries ∧
    List.Forall₂ (Leads c resolve entries) leaders specs

variable {c resolve} {entries : List String} {entry : String} {s t : SuiteSpec}
  {specs : List SuiteSpec}

theorem grouped_nil : Grouped c resolve [] [] where
  apart := .nil
  gathers := by simp
  taken := by simp
  alone := rfl
  ordered := ⟨[], .slnil, .nil⟩

/-! ### One more entry and one spec -/

namespace Gathers

/-- What is no member of a spec changes nothing. -/
theorem append_of_not_takes (h : Gathers c resolve entries s)
    (hnot : ¬ s.Takes (groupOf? c resolve entry)) :
    Gathers c resolve (entries ++ [entry]) s := by
  have hmembers : members c resolve (entries ++ [entry]) s = members c resolve entries s :=
    members_append_of_not_takes hnot
  constructor
  · exact h.resolved
  · rw [hmembers]
    exact h.chunks
  · rw [hmembers]
    exact h.literals

/-- A new member is gathered. -/
theorem append_gather (h : Gathers c resolve entries s)
    (hread : readEntry? c resolve entry = some t) :
    Gathers c resolve (entries ++ [entry]) (s.gather t) := by
  have hgroup := groupOf?_of_read hread
  by_cases htakes : s.Takes t.group?
  · have hmembers : members c resolve (entries ++ [entry]) (s.gather t) =
        members c resolve entries s ++ [entry] := by
      rw [members_gather, members_append_of_takes (hgroup ▸ htakes)]
    obtain ⟨chunks, more, hs, ht, hgather⟩ := SuiteSpec.exists_gather_eq htakes
    rw [hgather] at hmembers ⊢
    rcases chunks_of_read c resolve hread with ⟨hnone, _⟩ | ⟨k, hnumber, hone, hliterals⟩
    · rw [hnone] at ht
      contradiction
    · rw [hone] at ht
      obtain rfl := Option.some.inj ht
      constructor
      · exact h.resolved
      · intro all hall n
        obtain rfl := Option.some.inj hall
        have hold := h.chunks chunks hs n
        rw [SortedSet.mem_insertAll, SortedSet.mem_ofList, hold, hmembers, List.mem_singleton]
        simp only [List.mem_append, List.mem_singleton, or_and_right, exists_or, exists_eq_left,
          hnumber, Option.some.injEq]
        rw [or_comm, eq_comm]
      · rw [hmembers, List.map_append, ← h.literals, hliterals]
        rfl
  · rw [SuiteSpec.gather_eq_self htakes]
    exact h.append_of_not_takes (hgroup ▸ htakes)

/-- The first member of a new spec is gathered. -/
theorem append_self (hread : readEntry? c resolve entry = some t)
    (hnew : members c resolve entries t = []) :
    Gathers c resolve (entries ++ [entry]) t := by
  have hresolved : t.Resolved resolve := SuiteSpec.resolved_of_read hread
  rcases chunks_of_read c resolve hread with ⟨hnone, hliterals⟩ | ⟨k, hnumber, hone, hliterals⟩
  · constructor
    · exact hresolved
    · intro chunks hchunks
      rw [hnone] at hchunks
      contradiction
    · rw [members_of_chunks hnone, hliterals, List.map_nil]
  · have hmembers := members_append_self hread (Option.isSome_of_eq_some hone) hnew
    constructor
    · exact hresolved
    · intro chunks hchunks n
      rw [hone] at hchunks
      obtain rfl := Option.some.inj hchunks
      rw [SortedSet.mem_ofList, hmembers]
      simp [hnumber, eq_comm]
    · rw [hmembers, hliterals]
      rfl

end Gathers

namespace Leads

/-- The first entry that adds to a spec stays the first. -/
theorem append {leader : String} (h : Leads c resolve entries leader s) :
    Leads c resolve (entries ++ [entry]) leader s := by
  unfold Leads at h ⊢
  split
  · next hsome =>
      rw [if_pos hsome] at h
      rw [members, List.filter_append, ← members, List.head?_append, h, Option.some_or]
  · next hsome => rwa [if_neg hsome] at h

theorem gather {leader : String} (h : Leads c resolve entries leader s) :
    Leads c resolve entries leader (s.gather t) := by
  by_cases hsome : s.chunks.isSome
  · rw [Leads, if_pos hsome] at h
    rw [Leads, SuiteSpec.isSome_chunks_gather, if_pos hsome, members_gather, h]
  · rwa [SuiteSpec.gather_of_chunks (by simpa using hsome)]

/-- An entry leads its own spec if no entry before it adds to that. -/
theorem append_self (hread : readEntry? c resolve entry = some t)
    (hnew : members c resolve entries t = []) :
    Leads c resolve (entries ++ [entry]) entry t := by
  unfold Leads
  split
  · next hsome => rw [members_append_self hread hsome hnew, List.head?_cons]
  · exact hread

end Leads

/-! ### One more entry -/

namespace Grouped

/-- A malformed entry changes nothing. -/
theorem append_malformed (h : Grouped c resolve entries specs)
    (hread : readEntry? c resolve entry = none) :
    Grouped c resolve (entries ++ [entry]) specs := by
  have hgroup : groupOf? c resolve entry = none := by rw [groupOf?, hread, Option.bind_none]
  have hnot : ∀ s : SuiteSpec, ¬ s.Takes (groupOf? c resolve entry) := by
    rw [hgroup]
    exact SuiteSpec.not_takes_none
  have halone : alone? c resolve entry = none := by rw [alone?, hread, Option.filter_none]
  obtain ⟨leaders, hsublist, hleads⟩ := h.ordered
  constructor
  case apart =>
    exact h.apart
  case gathers =>
    exact fun s hs => (h.gathers s hs).append_of_not_takes (hnot s)
  case taken =>
    intro e he g hg
    rcases List.mem_append.1 he with he | he
    · exact h.taken e he g hg
    · rw [List.mem_singleton.1 he, hgroup] at hg
      contradiction
  case alone =>
    rw [List.filterMap_append, ← h.alone]
    simp [halone]
  case ordered =>
    exact ⟨leaders, hsublist.trans (List.sublist_append_left _ _),
      hleads.imp fun _ _ hlead => hlead.append⟩

/-- No entry so far adds to a spec outside the groups so far. -/
theorem members_eq_nil (h : Grouped c resolve entries specs)
    (hnew : ∀ s ∈ specs, ¬ s.Takes t.group?) : members c resolve entries t = [] := by
  rw [List.eq_nil_iff_forall_not_mem]
  intro e he
  obtain ⟨he, htakes⟩ := mem_members_iff.1 he
  obtain ⟨g, hg⟩ := Option.isSome_iff_exists.1 htakes.1
  obtain ⟨s, hs, hstakes⟩ := h.taken e he g (htakes.2.trans hg)
  exact hnew s hs (hg ▸ hstakes)

/-- A spec outside the groups so far is put at the end. -/
theorem append_new (h : Grouped c resolve entries specs)
    (hread : readEntry? c resolve entry = some t) (hnew : ∀ s ∈ specs, ¬ s.Takes t.group?) :
    Grouped c resolve (entries ++ [entry]) (specs ++ [t]) := by
  have hgroup := groupOf?_of_read hread
  have hmembers := h.members_eq_nil hnew
  obtain ⟨leaders, hsublist, hleads⟩ := h.ordered
  constructor
  case apart =>
    exact SuiteSpec.apart_append_singleton hnew h.apart
  case gathers =>
    intro s hs
    rcases List.mem_append.1 hs with hs | hs
    · exact (h.gathers s hs).append_of_not_takes (hgroup ▸ hnew s hs)
    · rw [List.mem_singleton.1 hs]
      exact .append_self hread hmembers
  case taken =>
    intro e he g hg
    rcases List.mem_append.1 he with he | he
    · obtain ⟨s, hs, htakes⟩ := h.taken e he g hg
      exact ⟨s, List.mem_append_left _ hs, htakes⟩
    · rw [List.mem_singleton.1 he, hgroup] at hg
      refine ⟨t, by simp, ?_⟩
      rw [SuiteSpec.Takes, hg]
      exact ⟨rfl, rfl⟩
  case alone =>
    rw [List.filter_append, List.filterMap_append, h.alone]
    congr 1
    cases hchunks : t.chunks <;> simp [alone?_of_read hread, hchunks]
  case ordered =>
    have hlast : List.Forall₂ (Leads c resolve (entries ++ [entry])) [entry] [t] :=
      .cons (.append_self hread hmembers) .nil
    exact ⟨leaders ++ [entry], hsublist.append (.refl _),
      List.rel_append (hleads.imp fun _ _ hlead => hlead.append) hlast⟩

/-- A spec of a group that is there is gathered. -/
theorem append_gather (h : Grouped c resolve entries specs)
    (hread : readEntry? c resolve entry = some t) (htaken : ∃ s ∈ specs, s.Takes t.group?) :
    Grouped c resolve (entries ++ [entry]) (specs.map (·.gather t)) := by
  have hgroup := groupOf?_of_read hread
  have hgathers : ∀ s ∈ specs, Gathers c resolve (entries ++ [entry]) (s.gather t) :=
    fun s hs => (h.gathers s hs).append_gather hread
  obtain ⟨leaders, hsublist, hleads⟩ := h.ordered
  constructor
  case apart =>
    exact SuiteSpec.apart_map_gather.2 h.apart
  case gathers =>
    exact List.forall_mem_map.2 hgathers
  case taken =>
    intro e he g hg
    have htakes : ∃ s ∈ specs, s.Takes (some g) := by
      rcases List.mem_append.1 he with he | he
      · exact h.taken e he g hg
      · rw [List.mem_singleton.1 he, hgroup] at hg
        rwa [hg] at htaken
    simpa using htakes
  case alone =>
    obtain ⟨s, _, hstakes⟩ := htaken
    have hsome : t.chunks.isSome = true := by
      rw [← SuiteSpec.isSome_group?, hstakes.2, hstakes.1]
    have halone : alone? c resolve entry = none := by
      rw [alone?_of_read hread, ← Option.not_isSome, hsome]
      rfl
    rw [SuiteSpec.filter_map_gather, List.filterMap_append, ← h.alone]
    simp [halone]
  case ordered =>
    refine ⟨leaders, hsublist.trans (List.sublist_append_left _ _), ?_⟩
    exact List.forall₂_map_right_iff.2 (hleads.imp fun _ _ hlead => hlead.append.gather)

/-- A well-formed entry is gathered or stands alone. -/
theorem append_read (h : Grouped c resolve entries specs)
    (hread : readEntry? c resolve entry = some t) :
    Grouped c resolve (entries ++ [entry]) (t.addTo specs) := by
  by_cases htaken : ∃ s ∈ specs, s.Takes t.group?
  · rw [SuiteSpec.addTo_of_takes h.apart htaken]
    exact h.append_gather hread htaken
  · have hnew : ∀ s ∈ specs, ¬ s.Takes t.group? := fun s hs htakes => htaken ⟨s, hs, htakes⟩
    rw [SuiteSpec.addTo_of_not_takes hnew]
    exact h.append_new hread hnew

/-! ### All entries -/

/-- What is read stays grouped as more entries are read. -/
theorem append (h : Grouped c resolve entries specs) (more : List String) :
    Grouped c resolve (entries ++ more) (readEntries c resolve specs more).1 := by
  -- By induction on what is still to be read: an entry that is read joins those before it.
  induction more generalizing entries specs with
  | nil =>
      rw [List.append_nil]
      exact h
  | cons entry more ih =>
      rw [List.append_cons, readEntries]
      cases hread : readEntry? c resolve entry with
      | none => exact ih (h.append_malformed hread)
      | some t => exact ih (h.append_read hread)

end Grouped

/-- Each malformed entry gives one warning, and nothing else does. -/
theorem readEntries_warnings (specs : List SuiteSpec) (entries : List String) :
    (readEntries c resolve specs entries).2 =
      (entries.filter fun entry => readEntry? c resolve entry |>.isNone).map .malformedSuite := by
  induction entries generalizing specs with
  | nil => rfl
  | cons entry entries ih =>
      rw [readEntries]
      cases hread : readEntry? c resolve entry with
      | none => simp [hread, ih]
      | some t => simp [hread, ih]

end Grouped

/-! ## Suite lists -/

/-- **Chunks are gathered**: of the distinct entries of a suite list, those for chunks of one suite
on the same platforms make up one spec, each other well-formed one has a spec of its own, and each
malformed one gives a warning and nothing else. -/
theorem readSuites_grouped (c : Conventions) (resolve : Resolver) {value : String}
    (hall : value ≠ "all") (hnone : value ≠ "none") :
    ∃ specs,
      readSuites c resolve value =
        (.only specs,
          ((items value.toList).eraseDups.filter fun entry =>
            readEntry? c resolve entry |>.isNone).map .malformedSuite) ∧
      Grouped c resolve (items value.toList).eraseDups specs := by
  have hnames : readNames value = .only (items value.toList).eraseDups := by
    rw [readNames, if_neg hall, if_neg hnone, firsts_eq_eraseDups]
  refine ⟨(readEntries c resolve [] (items value.toList).eraseDups).1, ?_, ?_⟩
  · rw [← readEntries_warnings []]
    simp only [readSuites, hnames]
  · exact grouped_nil.append _

/-- One chunk in two spellings and another one, among a malformed entry and a repeated one. -/
theorem readSuites_grouped_mixed :
    "mochitest-1,x],reftest[b2g],mochitest-01,mochitest-1,mochitest-3" ≠ "all" ∧
      "mochitest-1,x],reftest[b2g],mochitest-01,mochitest-1,mochitest-3" ≠ "none" ∧
      ∃ s t,
        readSuites .standard unittestPattern
            "mochitest-1,x],reftest[b2g],mochitest-01,mochitest-1,mochitest-3" =
          (.only [s, t], [.malformedSuite "x]"]) ∧
        Grouped .standard unittestPattern
          ["mochitest-1", "x]", "reftest[b2g]", "mochitest-01", "mochitest-3"] [s, t] ∧
        s.literals = ["mochitest-1", "mochitest-01", "mochitest-3"] ∧
        s.chunks = some (.ofList [1, 3]) ∧ t.literals = [] := by
  have hall : "mochitest-1,x],reftest[b2g],mochitest-01,mochitest-1,mochitest-3" ≠ "all" := by
    decide
  have hnone : "mochitest-1,x],reftest[b2g],mochitest-01,mochitest-1,mochitest-3" ≠ "none" := by
    decide
  have hentries :
      (items "mochitest-1,x],reftest[b2g],mochitest-01,mochitest-1,mochitest-3".toList).eraseDups =
        ["mochitest-1", "x]", "reftest[b2g]", "mochitest-01", "mochitest-3"] := by
    decide
  have hvalue :
      readSuites .standard unittestPattern
          "mochitest-1,x],reftest[b2g],mochitest-01,mochitest-1,mochitest-3" =
        (.only
          [⟨"mochitest", .start "mochitest", ["mochitest-1", "mochitest-01", "mochitest-3"], none,
              some (.ofList [1, 3])⟩,
            ⟨"reftest", .family "reftest", [], some ["b2g"], none⟩],
          [.malformedSuite "x]"]) := by
    decide +kernel
  obtain ⟨specs, hread, hgrouped⟩ := readSuites_grouped .standard unittestPattern hall hnone
  obtain ⟨hspecs, _⟩ := Prod.mk.inj (hvalue.symm.trans hread)
  obtain rfl := Selection.only.inj hspecs
  exact ⟨hall, hnone, _, _, hvalue, hentries ▸ hgrouped, rfl, rfl, rfl⟩

end PushPlan.Request
