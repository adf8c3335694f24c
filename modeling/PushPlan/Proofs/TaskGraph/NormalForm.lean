import PushPlan.Proofs.TaskGraph.Document

/-!
# PushPlan.Proofs.TaskGraph.NormalForm

The normal form of a task graph document:

1. it has the keys of the document;
2. an entry keeps its label, kind, attributes and payload, and has null, no
   attributes or a null payload where they are absent; all other fields are gone;
3. its dependencies are the labels that its dependencies had as values, each
   under its own name.

A document is read as a graph exactly when the graph is written as the normal
form of the document.  So of a document that is read the graph keeps the normal
form, and nothing but the normal form decides which graph it is.
-/

namespace PushPlan

open Shape Failure

/-! ## Normal forms -/

/-- The value of a field, or another value in its place if the field is absent. -/
def Value.fieldOr (v : Value) (name : String) (absent : Value) : Value :=
  (v.field? name).getD absent

namespace TaskGraph

/-- The labels that a map of texts has as values, each under its own name; anything else is
left as it is. -/
def normalDependencies : Value → Value
  | .record fs =>
    match (fs.map Prod.snd).mapM Value.asText? with
    | some labels => .record ((identityOn labels).mapValues .text).toList
    | none => .record fs
  | v => v

/-- The normal form of an entry. -/
def normalEntry (v : Value) : Value :=
  .record
    [("attributes", v.fieldOr "attributes" (.record [])),
      ("dependencies", normalDependencies (v.fieldOr "dependencies" (.record []))),
      ("kind", v.fieldOr "kind" .null), ("label", v.fieldOr "label" .null),
      ("task", v.fieldOr "task" .null)]

/-- The normal form of a document. -/
def normalForm : Value → Value
  | .record es => .record (es.map fun (label, v) => (label, normalEntry v))
  | v => v

/-! ## Dependencies -/

/-- Of a map of texts only the set of labels is kept. -/
theorem normalDependencies_record (deps : SortedMap String String) :
    normalDependencies (.record (deps.mapValues .text).toList) =
      .record ((identityOn deps.values).mapValues .text).toList := by
  have htexts : ((deps.mapValues Value.text).toList.map Prod.snd).mapM Value.asText? =
      some deps.values := by
    rw [Value.mapM_asText?_eq_some_iff, SortedMap.toList_mapValues, SortedMap.values, List.map_map,
      List.map_map]
    rfl
  rw [normalDependencies, htexts]

/-- Maps of texts have one normal form if they hold the same labels. -/
theorem normalDependencies_eq_iff (deps deps' : SortedMap String String) :
    normalDependencies (.record (deps.mapValues .text).toList) =
        normalDependencies (.record (deps'.mapValues .text).toList) ↔
      ∀ label, label ∈ deps.values ↔ label ∈ deps'.values := by
  rw [normalDependencies_record, normalDependencies_record]
  constructor
  · intro h label
    have hread := map_record .json (fun s => text_eq_ok_iff.2 rfl) (identityOn deps.values)
    rw [Value.record.inj h, map_record .json (fun s => text_eq_ok_iff.2 rfl)] at hread
    have heq : identityOn deps.values = identityOn deps'.values := (Except.ok.inj hread).symm
    rw [← mem_values_identityOn, heq, mem_values_identityOn]
  · intro h
    rw [identityOn_congr h]

/-- What has a map of texts as its normal form is a map of texts itself. -/
theorem exists_map_of_normalDependencies {v : Value} {deps : SortedMap String String}
    (h : normalDependencies v = .record (deps.mapValues .text).toList) :
    ∃ m, map .json (text .json) v = .ok m := by
  cases v with
  | record fs =>
      rw [normalDependencies] at h
      split at h
      · next labels hlabels =>
          have htexts : fs.map Prod.snd = labels.map Value.text :=
            Value.mapM_asText?_eq_some_iff.1 hlabels
          refine exists_map (fun f hf => ?_) .json
          have hmem : f.2 ∈ labels.map Value.text := htexts ▸ List.mem_map_of_mem hf
          obtain ⟨s, _, hs⟩ := List.mem_map.1 hmem
          exact ⟨s, text_eq_ok_iff.2 hs.symm⟩
      · rw [h]
        exact ⟨deps, map_record .json (fun s => text_eq_ok_iff.2 rfl) deps⟩
  | _ => contradiction

/-! ## Entries -/

theorem isCanonical_lookup_getD {fs : List (String × Value)} (h : (Value.record fs).IsCanonical)
    (name : String) {absent : Value} (habsent : absent.IsCanonical) :
    ((fs.lookup name).getD absent).IsCanonical := by
  cases hfound : fs.lookup name with
  | none => exact habsent
  | some v => exact h.of_mem (mem_of_lookup hfound)

/-- An entry that is read has the plain entry as its normal form. -/
theorem normalEntry_of_read {v : Value} (hv : v.IsCanonical) {e : Entry}
    (he : Entry.read v = .ok e) : normalEntry v = e.plain.toValue := by
  cases v with
  | record fs =>
      obtain ⟨hspelled, hdeps⟩ := (Entry.read_record_iff hv.nodup_names).1 he
      have hempty : (Value.record []).IsCanonical := Value.isCanonical_canonical (.record [])
      have hattributes : (fs.lookup "attributes").getD (.record []) =
          .record (e.task.attributes.mapValues Attribute.toValue).toList :=
        eq_record_of_map (isCanonical_lookup_getD hv "attributes" hempty)
          (fun v a => (Attribute.read_eq_ok_iff v a).1) hspelled.attributes
      have hdependencies : (fs.lookup "dependencies").getD (.record []) =
          .record (e.dependencies.mapValues Value.text).toList :=
        eq_record_of_map (isCanonical_lookup_getD hv "dependencies" hempty)
          (fun v s => text_eq_ok_iff.1) hdeps
      simp only [normalEntry, Value.fieldOr, Value.field?, hattributes, hdependencies,
        hspelled.label, hspelled.kind, hspelled.payload, normalDependencies_record]
      rfl
  | _ => contradiction

/-- What has the normal form of a written entry can be read. -/
theorem exists_read_of_normalEntry {v : Value} (hv : v.IsCanonical) {e : Entry}
    (h : normalEntry v = e.toValue) : ∃ e', Entry.read v = .ok e' := by
  cases v with
  | record fs =>
      simp only [normalEntry, Value.fieldOr, Value.field?, Entry.toValue, Value.record.injEq,
        List.cons.injEq, Prod.mk.injEq, true_and, and_true] at h
      obtain ⟨hattributes, hdependencies, hkind, hlabel, hpayload⟩ := h
      obtain ⟨deps, hdeps⟩ := exists_map_of_normalDependencies hdependencies
      have hspelled : Task.Spelled fs e.task :=
        { label := by
            cases hfound : fs.lookup "label" with
            | none =>
                rw [hfound] at hlabel
                contradiction
            | some v =>
                rw [hfound] at hlabel
                exact congrArg some hlabel
          kind := hkind
          attributes := by
            rw [hattributes]
            exact map_record .json (fun a => (Attribute.read_eq_ok_iff _ a).2 rfl) _
          payload := hpayload }
      exact ⟨⟨e.task, deps⟩, (Entry.read_record_iff hv.nodup_names).2 ⟨hspelled, hdeps⟩⟩
  | _ => simp [normalEntry, Value.fieldOr, Value.field?, Entry.toValue] at h

/-! ## Documents -/

theorem normalForm_record (es : List (String × Value)) :
    normalForm (.record es) = .record (es.map fun field => (field.1, normalEntry field.2)) := rfl

/-- Entries that are read have their plain forms as the normal form of the document. -/
theorem normalForm_of_map {d : Value} (hd : d.IsCanonical) {entries : SortedMap String Entry}
    (h : map .json Entry.read d = .ok entries) :
    normalForm d = .record ((entries.mapValues Entry.plain).mapValues Entry.toValue).toList := by
  cases d with
  | record es =>
      have hes : (es.map fun field => (field.1, normalEntry field.2)) =
          entries.toList.map fun entry => (entry.1, entry.2.plain.toValue) :=
        map_eq_map_of_fields (fun _ hfield _ => normalEntry_of_read (hd.of_mem hfield))
          (fields_of_map hd h)
      rw [normalForm_record, hes, SortedMap.mapValues_mapValues, SortedMap.toList_mapValues]
  | _ => contradiction

/-- A document is read if its normal form is how a graph is written. -/
theorem exists_map_of_normalForm {d : Value} (hd : d.IsCanonical) {g : TaskGraph}
    (h : normalForm d = g.toValue) : ∃ entries, map .json Entry.read d = .ok entries := by
  rw [toValue_eq] at h
  cases d with
  | record es =>
      rw [normalForm_record, Value.record.injEq] at h
      refine exists_map (fun field hfield => ?_) .json
      have hmem : (field.1, normalEntry field.2) ∈ (g.entries.mapValues Entry.toValue).toList := by
        rw [← h]
        exact List.mem_map_of_mem hfield
      rw [SortedMap.toList_mapValues] at hmem
      obtain ⟨entry, _, heq⟩ := List.mem_map.1 hmem
      exact exists_read_of_normalEntry (hd.of_mem hfield) (Prod.mk.inj heq).2.symm
  | _ => contradiction

/-- Entries are told apart by how they are written. -/
theorem mapValues_toValue_inj {entries entries' : SortedMap String Entry}
    (h : (entries.mapValues Entry.toValue).toList = (entries'.mapValues Entry.toValue).toList) :
    entries = entries' := by
  have hread : map .json Entry.read (.record (entries.mapValues Entry.toValue).toList) =
      .ok entries := map_record .json Entry.read_toValue entries
  rw [h, map_record .json Entry.read_toValue entries'] at hread
  exact (Except.ok.inj hread).symm

/-- A graph is read from the documents whose normal form is how it is written. -/
theorem ofValue_eq_ok_iff {d : Value} (hd : d.IsCanonical) {g : TaskGraph} :
    ofValue d = .ok g ↔ normalForm d = g.toValue := by
  constructor
  · intro h
    unfold ofValue at h
    split at h
    · contradiction
    · next entries hentries =>
        have hplain : entries.mapValues Entry.plain = g.entries :=
          ofDocument_eq_ok_iff.1 (mapError_eq_ok_iff.1 h)
        rw [normalForm_of_map hd hentries, hplain, toValue_eq]
  · intro h
    -- The normal form says that the entries can be read, and then which ones they are.
    obtain ⟨entries, hentries⟩ := exists_map_of_normalForm hd h
    rw [normalForm_of_map hd hentries, toValue_eq] at h
    have hplain : entries.mapValues Entry.plain = g.entries :=
      mapValues_toValue_inj (Value.record.inj h)
    rw [ofValue, hentries]
    exact mapError_eq_ok_iff.2 (ofDocument_eq_ok_iff.2 hplain)

/-- **Normal form**: a document is read as a graph exactly when the graph is written as the
normal form of the document.  So documents with one normal form are read as the same graph, and
of the dependencies of an entry nothing but the set of labels is kept. -/
theorem ofValue_iff_normalForm (d : Value) (g : TaskGraph) :
    (ofValue d.canonical = .ok g ↔ normalForm d.canonical = g.toValue) ∧
      (∀ e : Value, normalForm e.canonical = normalForm d.canonical →
        (ofValue e.canonical = .ok g ↔ ofValue d.canonical = .ok g)) ∧
      ∀ deps deps' : SortedMap String String,
        normalDependencies (.record (deps.mapValues .text).toList) =
            normalDependencies (.record (deps'.mapValues .text).toList) ↔
          ∀ label, label ∈ deps.values ↔ label ∈ deps'.values := by
  have hd : d.canonical.IsCanonical := Value.isCanonical_canonical d
  refine ⟨ofValue_eq_ok_iff hd, ?_, normalDependencies_eq_iff⟩
  intro e he
  rw [ofValue_eq_ok_iff hd, ofValue_eq_ok_iff (Value.isCanonical_canonical e), he]

/-- Two documents of a task that depends on itself are read as one graph.  The second gives a
field that may be absent, two names for the dependency, and a field that does not count. -/
theorem ofValue_iff_normalForm_renamed :
    ∃ g,
      ofValue (.canonical (.record [("a", .record [("label", .text "a"),
        ("dependencies", .record [("build", .text "a")])])])) = .ok g ∧
      ofValue (.canonical (.record [("a", .record [("label", .text "a"), ("kind", .null),
        ("dependencies", .record [("x", .text "a"), ("y", .text "a")]),
        ("extra", .bool true)])])) = .ok g := by
  have hread : ∃ g, ofValue (.canonical (.record [("a", .record [("label", .text "a"),
      ("dependencies", .record [("build", .text "a")])])])) = .ok g := ⟨_, rfl⟩
  obtain ⟨g, hg⟩ := hread
  exact ⟨g, hg, ((ofValue_iff_normalForm _ g).2.1 _ (by decide)).2 hg⟩

end TaskGraph

end PushPlan
