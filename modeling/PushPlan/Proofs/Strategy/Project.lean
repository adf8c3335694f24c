import PushPlan.Proofs.Strategy.Local

/-!
# PushPlan.Proofs.Strategy.Project

What a task's list of projects means for the selection by project.

1. By the rule of names (`ProjectClasses.Means`), `all` stands for any project, the
   name of a class for the projects of that class, and any other name for the
   project of this name.  A task runs on a project when its list has a name that
   stands for it; each name counts by itself.
2. The selection goes by this rule, and beside it lets the name of a class stand for
   a project that is called like the class (`ProjectClasses.standsFor_iff`).
3. So the rule alone decides exactly when the project is not called like a class to
   which it does not belong (`ProjectClasses.Distinct`).
-/

namespace PushPlan

namespace ProjectClasses

/-! ## The rule of names -/

/-- The projects of the class of a name. -/
def class? (p : ProjectClasses) : String → Option (SortedSet String)
  | "integration" => some p.integration
  | "release" => some p.release
  | _ => none

/-- A name in a list of projects stands for a project. -/
inductive Means (p : ProjectClasses) (project name : String) : Prop where
  /-- `all` stands for any project. -/
  | all (h : name = "all")
  /-- The name of a class stands for the projects of the class. -/
  | member {members : SortedSet String} (hclass : p.class? name = some members)
      (h : project ∈ members.toList)
  /-- Any other name stands for the project of this name. -/
  | literal (hall : name ≠ "all") (hclass : p.class? name = none) (h : name = project)

/-- A task runs on a project: it has a list of projects, and a name in it stands for the project. -/
def RunsOn (p : ProjectClasses) (project : String) (t : Task) : Prop :=
  ∃ names, t.attribute? "run_on_projects" = some (.list names) ∧
    ∃ name ∈ names, p.Means project name

/-- A project that is called like a class belongs to it. -/
def Distinct (p : ProjectClasses) (project : String) : Prop :=
  ∀ members, p.class? project = some members → project ∈ members.toList

/-! ## The rule and the selection -/

variable {p : ProjectClasses} {project name : String}

theorem standsFor_of_class {members : SortedSet String} (h : p.class? name = some members) :
    p.standsFor name project = (project == name || members.contains project) := by
  unfold class? at h
  split at h
  · cases h
    rfl
  · cases h
    rfl
  · contradiction

theorem standsFor_of_no_class (h : p.class? name = none) :
    p.standsFor name project = (name == "all" || name == project) := by
  unfold standsFor
  split
  · rfl
  · contradiction
  · contradiction
  · next hall _ _ =>
      have hne : (name == "all") = false := beq_eq_false_iff_ne.2 hall
      rw [hne, Bool.false_or]

/-- Beside what the rule says, the name of a class stands for a project called like it. -/
theorem standsFor_iff :
    p.standsFor name project = true ↔
      p.Means project name ∨ name = project ∧ (p.class? project).isSome = true := by
  cases hclass : p.class? name with
  | some members =>
      rw [standsFor_of_class hclass, Bool.or_eq_true, beq_iff_eq, SortedSet.contains_iff_mem]
      constructor
      · rintro (rfl | h)
        · exact .inr ⟨rfl, by rw [hclass]; rfl⟩
        · exact .inl (.member hclass h)
      · rintro ((rfl | ⟨hmembers, h⟩ | ⟨_, hnone, _⟩) | ⟨rfl, _⟩)
        · contradiction
        · rw [hclass] at hmembers
          cases hmembers
          exact .inr h
        · rw [hclass] at hnone
          contradiction
        · exact .inl rfl
  | none =>
      rw [standsFor_of_no_class hclass, Bool.or_eq_true, beq_iff_eq, beq_iff_eq]
      constructor
      · rintro (rfl | rfl)
        · exact .inl (.all rfl)
        · by_cases hall : name = "all"
          · exact .inl (.all hall)
          · exact .inl (.literal hall hclass rfl)
      · rintro ((hall | ⟨hmembers, _⟩ | ⟨_, _, h⟩) | ⟨h, _⟩)
        · exact .inl hall
        · rw [hclass] at hmembers
          contradiction
        · exact .inr h
        · exact .inr h

theorem list?_eq_some_iff {t : Task} {items : List String} :
    t.list? name = some items ↔ t.attribute? name = some (.list items) := by
  rw [Task.list?, Option.bind_eq_some_iff]
  constructor
  · intro h
    obtain ⟨a, ha, hitems⟩ := h
    cases a <;> simp_all [Attribute.asList?]
  · intro h
    exact ⟨.list items, h, rfl⟩

/-- A task is picked when it runs on the project, or when the project is called like a class and
the task lists it by this name. -/
theorem picks_iff {t : Task} :
    p.picks project t = true ↔
      p.RunsOn project t ∨ (p.class? project).isSome = true ∧
        ∃ names, t.attribute? "run_on_projects" = some (.list names) ∧ project ∈ names := by
  rw [picks, Option.any_eq_true]
  simp only [list?_eq_some_iff, covers, List.any_eq_true, standsFor_iff]
  constructor
  · rintro ⟨names, hnames, name, hname, hmeans | ⟨rfl, hclass⟩⟩
    · exact .inl ⟨names, hnames, name, hname, hmeans⟩
    · exact .inr ⟨hclass, names, hnames, hname⟩
  · rintro (⟨names, hnames, name, hname, hmeans⟩ | ⟨hclass, names, hnames, hmem⟩)
    · exact ⟨names, hnames, name, hname, .inl hmeans⟩
    · exact ⟨names, hnames, project, hmem, .inr ⟨rfl, hclass⟩⟩

/-- A project that alone makes a task run on it is distinct from the classes. -/
theorem distinct_of_runsOn {t : Task}
    (hlist : t.attribute? "run_on_projects" = some (.list [project])) (h : p.RunsOn project t) :
    p.Distinct project := by
  intro members hclass
  obtain ⟨names, hnames, name, hname, hmeans⟩ := h
  rw [hlist] at hnames
  cases hnames
  rw [List.mem_singleton] at hname
  subst hname
  cases hmeans with
  | all hall =>
      subst hall
      contradiction
  | member hmembers hmem =>
      rw [hclass] at hmembers
      cases hmembers
      exact hmem
  | literal _ hnone _ =>
      rw [hclass] at hnone
      contradiction

/-- For a project that is distinct from the classes, the rule decides. -/
theorem Distinct.picks_iff_runsOn (h : p.Distinct project) (t : Task) :
    p.picks project t = true ↔ p.RunsOn project t := by
  rw [picks_iff]
  constructor
  · rintro (hruns | ⟨hclass, names, hnames, hmem⟩)
    · exact hruns
    · obtain ⟨members, hmembers⟩ := Option.isSome_iff_exists.1 hclass
      exact ⟨names, hnames, project, hmem, .member hmembers (h members hmembers)⟩
  · exact .inl

end ProjectClasses

/-! ## Selecting by project -/

namespace Strategy

open ProjectClasses

variable {ε : Type}

/-- With a project, selecting by project gives the labels of the tasks that it picks. -/
theorem mem_byProject_iff (classes : ProjectClasses) {p : Parameters} {project : String}
    (hp : p.get? "project" = some (.text project)) (g : TaskGraph) :
    ∃ labels, (byProject classes : Strategy ε) g p = .ok labels ∧
      ∀ label, label ∈ labels ↔ ∃ t, g.get? label = some t ∧ classes.picks project t = true := by
  rw [byProject_eq_ofTest]
  exact ⟨_, ofTest_eq_ok_iff.2 ⟨project, hp, rfl⟩, fun _ => TaskGraph.mem_labelsWhere_iff⟩

/-- **Selection by project**: with a project, the selection succeeds.  It selects the tasks that
run on the project, and where the project is called like a class also the tasks that list it by
this name.  The rule of names alone decides exactly when the project belongs to the class that it
is called like, if there is one. -/
theorem byProject_selects (classes : ProjectClasses) {p : Parameters} {project : String}
    (hp : p.get? "project" = some (.text project)) :
    (∀ g, ∃ labels, (byProject classes : Strategy ε) g p = .ok labels ∧
      ∀ label, label ∈ labels ↔ ∃ t, g.get? label = some t ∧
        (classes.RunsOn project t ∨ (classes.class? project).isSome = true ∧
          ∃ names, t.attribute? "run_on_projects" = some (.list names) ∧ project ∈ names)) ∧
    ((∀ g labels, (byProject classes : Strategy ε) g p = .ok labels →
        ∀ label, label ∈ labels ↔ ∃ t, g.get? label = some t ∧ classes.RunsOn project t) ↔
      classes.Distinct project) := by
  refine ⟨fun g => ?_, ⟨fun h members hclass => ?_, fun h g labels hlabels label => ?_⟩⟩
  · simpa only [picks_iff] using mem_byProject_iff classes hp g
  · -- A task that lists the project and nothing else, in a graph of its own.
    let t := (Task.mk "a" none .empty .null).withAttribute "run_on_projects" (.list [project])
    have hlist : t.attribute? "run_on_projects" = some (.list [project]) :=
      SortedMap.get?_put_self _ _ _
    have hpicks : classes.picks project t = true :=
      picks_iff.2 (.inr ⟨by rw [hclass]; rfl, [project], hlist, List.mem_cons_self⟩)
    have hlabel : t.label ≠ "" := show "a" ≠ "" by decide
    obtain ⟨g, hg⟩ := TaskGraph.exists_get?_label hlabel
    obtain ⟨labels, hlabels, hmem⟩ := mem_byProject_iff classes hp g
    obtain ⟨u, hu, hruns⟩ := (h g labels hlabels t.label).1 ((hmem t.label).2 ⟨t, hg, hpicks⟩)
    rw [hg] at hu
    cases hu
    exact distinct_of_runsOn hlist hruns members hclass
  · obtain ⟨others, hothers, hmem⟩ := mem_byProject_iff classes hp g
    rw [hlabels] at hothers
    cases hothers
    simpa only [h.picks_iff_runsOn] using hmem label

/-- Every sort of name in one list: a project of a class, and one that is listed by its name. -/
theorem byProject_selects_classes :
    ∃ t g labels others,
      TaskGraph.ofTasks [t] .empty = .ok g ∧
      t.attribute? "run_on_projects" = some (.list ["nightly", "release", "baobab"]) ∧
      (Parameters.empty.withProject "mozilla-beta").get? "project" = some (.text "mozilla-beta") ∧
      (byProject .standard : Strategy) g (Parameters.empty.withProject "mozilla-beta") =
        .ok labels ∧
      (∀ label, label ∈ labels ↔
        ∃ t, g.get? label = some t ∧ ProjectClasses.standard.RunsOn "mozilla-beta" t) ∧
      (byProject .standard : Strategy) g (Parameters.empty.withProject "baobab") = .ok others ∧
      ∀ label, label ∈ others ↔
        ∃ t, g.get? label = some t ∧ ProjectClasses.standard.RunsOn "baobab" t := by
  have hg : ∃ t g, TaskGraph.ofTasks [t] .empty = .ok g ∧
      t.attribute? "run_on_projects" = some (.list ["nightly", "release", "baobab"]) :=
    ⟨(Task.mk "a" none .empty .null).withAttribute "run_on_projects"
      (.list ["nightly", "release", "baobab"]), _, rfl, rfl⟩
  obtain ⟨t, g, hg, hlist⟩ := hg
  have hbeta : (Parameters.empty.withProject "mozilla-beta").get? "project" =
      some (.text "mozilla-beta") := by decide
  have hbaobab : (Parameters.empty.withProject "baobab").get? "project" =
      some (.text "baobab") := by decide
  obtain ⟨hselect, hrule⟩ := byProject_selects .standard hbeta
  obtain ⟨hselect', hrule'⟩ := byProject_selects .standard hbaobab
  obtain ⟨labels, hlabels, _⟩ := hselect g
  obtain ⟨others, hothers, _⟩ := hselect' g
  refine ⟨t, g, labels, others, hg, hlist, hbeta, hlabels, ?_, hothers, ?_⟩
  · exact hrule.2 (fun members hclass => nomatch hclass) g labels hlabels
  · exact hrule'.2 (fun members hclass => nomatch hclass) g others hothers

/-- A project that is called like a class gets the tasks of the class without belonging to it. -/
theorem byProject_selects_called_like_class :
    ∃ p g labels t,
      p.get? "project" = some (.text "integration") ∧
      (byProject .standard : Strategy) g p = .ok labels ∧ g.get? "a" = some t ∧
      t.attribute? "run_on_projects" = some (.list ["integration"]) ∧
      "integration" ∉ ProjectClasses.standard.integration.toList ∧ "a" ∈ labels ∧
      ¬ ProjectClasses.standard.RunsOn "integration" t := by
  have hg : ∃ g t, TaskGraph.ofTasks [t] .empty = .ok g ∧ g.get? "a" = some t ∧
      t.attribute? "run_on_projects" = some (.list ["integration"]) ∧
      (byProject .standard : Strategy) g (Parameters.empty.withProject "integration") =
        .ok ["a"] :=
    ⟨_, (Task.mk "a" none .empty .null).withAttribute "run_on_projects" (.list ["integration"]),
      rfl, by decide, by decide, rfl⟩
  obtain ⟨g, t, _, ht, hlist, hselect⟩ := hg
  have habsent : "integration" ∉ ProjectClasses.standard.integration.toList := by decide
  refine ⟨_, g, ["a"], t, by decide, hselect, ht, hlist, habsent, by decide, fun h => ?_⟩
  exact habsent (distinct_of_runsOn hlist h _ rfl)

end Strategy

end PushPlan
