import PushPlan.Proofs.Settings.Legal
import PushPlan.Proofs.Strategy.Schedule

/-!
# PushPlan.Proofs.Request.Classes

The classes of task kinds in legal settings.

1. Legal settings put no kind into two classes (`Kinds.Disjoint`).
2. Where no kind is in two classes, the first class of a kind is its only one, so
   the order in which matching tries the classes decides nothing.  Where a kind is
   in two, that order does decide.
3. What is legal about kinds goes by which kinds a class lists, not by how often it
   lists them (`Kinds.SameMembers`).
-/

namespace PushPlan

namespace Kinds

variable {kinds other : Kinds}

/-! ## Disjoint classes -/

/-- No kind belongs to two classes. -/
def Disjoint (kinds : Kinds) : Prop :=
  ∀ kind c d, kind ∈ kinds.inClass c → kind ∈ kinds.inClass d → c = d

/-- Classes are disjoint when each one avoids the classes before it. -/
theorem disjoint_of_notMem (htest : ∀ kind ∈ kinds.test, kind ∉ kinds.build)
    (hjob : ∀ kind ∈ kinds.job, kind ∉ kinds.build ∧ kind ∉ kinds.test) : kinds.Disjoint := by
  intro kind c d hc hd
  cases c with
  | build =>
      cases d with
      | build => rfl
      | test => exact absurd hc (htest kind hd)
      | job => exact absurd hc (hjob kind hd).1
  | test =>
      cases d with
      | build => exact absurd hd (htest kind hc)
      | test => rfl
      | job => exact absurd hc (hjob kind hd).2
  | job =>
      cases d with
      | build => exact absurd hd (hjob kind hc).1
      | test => exact absurd hd (hjob kind hc).2
      | job => rfl

/-- The first class of a kind, in an order that leaves no class out, is the one that it belongs
to. -/
theorem Disjoint.classIn?_eq_some_iff (h : kinds.Disjoint) {order : List TaskClass}
    (horder : ∀ c, c ∈ order) {kind : String} {c : TaskClass} :
    kinds.classIn? order kind = some c ↔ kind ∈ kinds.inClass c := by
  have hmem : ∀ d, kinds.classIn? order kind = some d → kind ∈ kinds.inClass d := by
    intro d hd
    simpa using List.find?_some hd
  constructor
  · exact hmem c
  · intro hc
    cases hfind : kinds.classIn? order kind with
    | none =>
        have hnone := List.find?_eq_none.1 hfind c (horder c)
        simp [hc] at hnone
    | some d => rw [h kind d c (hmem d hfind) hc]

/-- Two orders that leave no class out give the same class. -/
theorem Disjoint.classIn?_congr (h : kinds.Disjoint) {order order' : List TaskClass}
    (horder : ∀ c, c ∈ order) (horder' : ∀ c, c ∈ order') (kind : String) :
    kinds.classIn? order kind = kinds.classIn? order' kind := by
  apply Option.ext
  intro c
  rw [h.classIn?_eq_some_iff horder, h.classIn?_eq_some_iff horder']

/-! ## Repeated kinds -/

/-- The classes list the same kinds, in whatever order and however often. -/
def SameMembers (kinds other : Kinds) : Prop :=
  ∀ c kind, kind ∈ kinds.inClass c ↔ kind ∈ other.inClass c

theorem SameMembers.build (h : kinds.SameMembers other) (kind : String) :
    kind ∈ kinds.build ↔ kind ∈ other.build := h .build kind

theorem SameMembers.test (h : kinds.SameMembers other) (kind : String) :
    kind ∈ kinds.test ↔ kind ∈ other.test := h .test kind

theorem SameMembers.job (h : kinds.SameMembers other) (kind : String) :
    kind ∈ kinds.job ↔ kind ∈ other.job := h .job kind

end Kinds

/-! ## Legal settings -/

namespace Settings

variable {s : Settings}

theorem IsLegal.disjoint (h : s.IsLegal) : s.conventions.kinds.Disjoint := by
  obtain ⟨_, _, _, htest, hjob, _⟩ := isLegal_iff.1 h
  exact Kinds.disjoint_of_notMem htest hjob

/-- The settings with other kinds. -/
def withKinds (s : Settings) (kinds : Kinds) : Settings :=
  { s with conventions := { s.conventions with kinds } }

/-- Legal settings stay legal when classes list their kinds in another order or repeatedly. -/
theorem IsLegal.withKinds (h : s.IsLegal) {kinds : Kinds}
    (hsame : kinds.SameMembers s.conventions.kinds) : (s.withKinds kinds).IsLegal := by
  obtain ⟨hintegration, hrelease, hmarker, htest, hjob, hnames⟩ := isLegal_iff.1 h
  refine isLegal_iff.2 ⟨hintegration, hrelease, hmarker, ?_, ?_, hnames⟩
  · intro kind hkind hbuild
    exact htest kind ((hsame.test kind).1 hkind) ((hsame.build kind).1 hbuild)
  · intro kind hkind
    obtain ⟨hbuild, hnotTest⟩ := hjob kind ((hsame.job kind).1 hkind)
    exact ⟨fun h => hbuild ((hsame.build kind).1 h), fun h => hnotTest ((hsame.test kind).1 h)⟩

end Settings

/-! ## The order of the classes -/

theorem TaskClass.mem_order (c : TaskClass) : c ∈ order := by
  cases c <;> decide

namespace Request

/-- Where no kind is in two classes, a task is picked in one order of the classes exactly when it
is picked in another. -/
theorem picksIn_congr {r : Request} (h : r.kinds.Disjoint) {order order' : List TaskClass}
    (horder : ∀ c, c ∈ order) (horder' : ∀ c, c ∈ order') (t : Task) :
    r.picksIn order t = r.picksIn order' t := by
  have hclass : r.kinds.classIn? order = r.kinds.classIn? order' :=
    funext (h.classIn?_congr horder horder')
  rw [picksIn, picksIn, hclass]

/-- **The order of the classes decides nothing**: under legal settings, a request that is read from
whatever message picks a task in every order of the three classes or in none, for it puts no kind
into two of them.  That a class lists a kind more than once is legal all the same. -/
theorem picksIn_eq_picks_of_isLegal {s : Settings} (h : s.IsLegal) :
    (∀ message, (read s.conventions message).1.kinds.Disjoint ∧
      ∀ order, order.Perm TaskClass.order → ∀ t,
        (read s.conventions message).1.picksIn order t =
          (read s.conventions message).1.picks t) ∧
    ∀ kinds : Kinds, kinds.SameMembers s.conventions.kinds → (s.withKinds kinds).IsLegal := by
  refine ⟨fun message => ?_, fun kinds hsame => h.withKinds hsame⟩
  have hdisjoint : (read s.conventions message).1.kinds.Disjoint := by
    rw [kinds_read]
    exact h.disjoint
  refine ⟨hdisjoint, fun order hperm t => ?_⟩
  have horder : ∀ c, c ∈ order := fun c => hperm.mem_iff.2 (TaskClass.mem_order c)
  exact picksIn_congr hdisjoint horder TaskClass.mem_order t

/-- With a test kind that is listed twice, settings are still legal, and a test is picked as one
although builds and jobs are tried first. -/
theorem picksIn_eq_picks_of_isLegal_repeated :
    ∃ (s : Settings) (t : Task) (message : String), s.IsLegal ∧
      s.conventions.kinds.test = ["test", "test"] ∧
      message = "try: -b o -p linux64 -u xpcshell" ∧
      [TaskClass.build, .job, .test].Perm TaskClass.order ∧
      (read s.conventions message).1.picksIn [.build, .job, .test] t = true := by
  have hstandard : (Settings.standard.withKinds ⟨["build"], ["test"], []⟩).IsLegal := by decide
  have hsame : Kinds.SameMembers ⟨["build"], ["test", "test"], []⟩ ⟨["build"], ["test"], []⟩ := by
    intro c kind
    cases c <;> simp [Kinds.inClass]
  have hlegal : (Settings.standard.withKinds ⟨["build"], ["test", "test"], []⟩).IsLegal :=
    (picksIn_eq_picks_of_isLegal hstandard).2 _ hsame
  have hperm : [TaskClass.build, .job, .test].Perm TaskClass.order := by decide
  have hpicks : ∃ t : Task,
      (read (Settings.standard.withKinds ⟨["build"], ["test", "test"], []⟩).conventions
        "try: -b o -p linux64 -u xpcshell").1.picks t = true :=
    ⟨⟨"a", some "test", .ofList [("build_platform", .text "linux64"), ("build_type", .text "opt"),
      ("unittest_try_name", .text "xpcshell")], .null⟩, by decide⟩
  obtain ⟨t, hpicks⟩ := hpicks
  have horder := ((picksIn_eq_picks_of_isLegal hlegal).1 "try: -b o -p linux64 -u xpcshell").2
    [.build, .job, .test] hperm t
  exact ⟨_, t, _, hlegal, rfl, rfl, hperm, horder.trans hpicks⟩

/-- Of a kind in two classes, the class that is tried first counts: settings like these are not
legal. -/
example :
    let r : Request := { nothing ⟨[], ["check"], ["check"]⟩ with jobs := .all }
    let t : Task := ⟨"a", some "check", .empty, .null⟩
    r.picksIn [.test, .job, .build] t = false ∧ r.picksIn [.job, .test, .build] t = true ∧
      ¬ (Settings.standard.withKinds r.kinds).IsLegal := by
  decide

end Request

end PushPlan
