import PushPlan.Proofs.Settings.Legal
import PushPlan.Proofs.Strategy.Local
import PushPlan.Proofs.Text.Line
import PushPlan.Schedule

/-!
# PushPlan.Proofs.Request.Marker

What the marker of a message decides.

1. Of a message with the marker, the rest of the line after the first marker is
   read.  What stands before it and on later lines is never looked at, further
   markers and flags included.
2. A message without the marker asks for nothing (`AsksNothing`).  This is not what
   a marker with nothing after it asks for, which is every job.
3. Legal settings have a marker that is not blank, so that a blank message is one
   without the marker.
-/

namespace PushPlan.Request

open Text

/-! ## The line after the marker -/

theorem tokensAfter?_of_firstAfter {marker front rest : List Char}
    (h : FirstAfter front marker rest) :
    tokensAfter? marker (front ++ marker ++ rest) = some (tokenize (firstLine rest)) := by
  rw [tokensAfter?, after?_of_firstAfter h, Option.map_some]

theorem read_of_firstAfter (c : Conventions) {front rest : String}
    (h : FirstAfter front.toList c.marker.toList rest.toList) :
    read c (front ++ c.marker ++ rest) = ofTokens c (tokenize (firstLine rest.toList)) := by
  rw [read, String.toList_append, String.toList_append, tokensAfter?_of_firstAfter h]

/-- What comes before the marker and after the end of its line is not read. -/
theorem read_line (c : Conventions) {front line tail : String}
    (hfirst : FirstAfter front.toList c.marker.toList line.toList)
    (hnewline : '\n' ∉ line.toList) (hreturn : line.toList.getLast? ≠ some '\r')
    (htail : firstLine tail.toList = []) :
    read c (front ++ c.marker ++ line ++ tail) = read c (c.marker ++ line) := by
  have hline : ∀ rest, firstLine rest = [] → firstLine (line.toList ++ rest) = line.toList := by
    intro rest hrest
    rw [firstLine_append hnewline (fun h => absurd h hreturn), hrest, List.append_nil]
  have hwhole : read c (front ++ c.marker ++ (line ++ tail)) =
      ofTokens c (tokenize line.toList) := by
    rw [read_of_firstAfter c (hfirst.change_rest _), String.toList_append, hline _ htail]
  -- The marker at the front is the first one, whatever the line holds besides.
  have halone : read c ("" ++ c.marker ++ line) = ofTokens c (tokenize line.toList) := by
    have hself := hline [] rfl
    rw [List.append_nil] at hself
    have hfront : FirstAfter "".toList c.marker.toList line.toList := firstAfter_nil _ _
    rw [read_of_firstAfter c hfront, hself]
  rw [String.append_assoc, hwhole, ← halone, String.empty_append]

/-- **Only the marker line counts**: text before the first marker and text behind the end of its
line change neither the request, nor the warnings, nor what is selected. -/
theorem read_marker_line (c : Conventions) {before line : String} (later : String)
    (hfirst : FirstAfter before.toList c.marker.toList line.toList)
    (hnewline : '\n' ∉ line.toList) (hreturn : line.toList.getLast? ≠ some '\r') :
    ∀ message ∈ [before ++ c.marker ++ line, before ++ c.marker ++ line ++ "\n" ++ later,
        before ++ c.marker ++ line ++ "\r\n" ++ later],
      read c message = read c (c.marker ++ line) ∧
        ∀ (ε : Type) (g : TaskGraph) (params : Parameters),
          (Strategy.byRequest c : Strategy ε) g (params.withMessage message) =
            Strategy.byRequest c g (params.withMessage (c.marker ++ line)) := by
  intro message hmessage
  have hread : read c message = read c (c.marker ++ line) := by
    simp only [List.mem_cons, List.not_mem_nil, or_false] at hmessage
    rcases hmessage with rfl | rfl | rfl
    · have hend : read c (before ++ c.marker ++ line ++ "") = read c (c.marker ++ line) :=
        read_line c hfirst hnewline hreturn rfl
      rwa [String.append_empty] at hend
    · rw [String.append_assoc]
      exact read_line c hfirst hnewline hreturn (by rw [String.toList_append]; rfl)
    · rw [String.append_assoc]
      exact read_line c hfirst hnewline hreturn (by rw [String.toList_append]; rfl)
  refine ⟨hread, fun ε g params => ?_⟩
  have hparams : ∀ m, (params.withMessage m).get? "message" = some (.text m) :=
    fun m => SortedMap.get?_put_self _ _ _
  rw [Strategy.byRequest_eq_ok c g (hparams _), Strategy.byRequest_eq_ok c g (hparams _), hread]

/-- Half a marker in front, and whole ones later on the line and on the next one. -/
theorem read_marker_line_repeated :
    FirstAfter "retry, tr".toList Conventions.standard.marker.toList " -b o try: -p all".toList ∧
      '\n' ∉ " -b o try: -p all".toList ∧ " -b o try: -p all".toList.getLast? ≠ some '\r' ∧
      read .standard ("retry, tr" ++ Conventions.standard.marker ++ " -b o try: -p all" ++ "\r\n" ++
          "try: -u all") =
        read .standard (Conventions.standard.marker ++ " -b o try: -p all") := by
  have hfirst : FirstAfter "retry, tr".toList Conventions.standard.marker.toList
      " -b o try: -p all".toList := by decide
  have hnewline : '\n' ∉ " -b o try: -p all".toList := by decide
  have hreturn : " -b o try: -p all".toList.getLast? ≠ some '\r' := by decide
  have hmessages := read_marker_line .standard "try: -u all" hfirst hnewline hreturn
  exact ⟨hfirst, hnewline, hreturn, (hmessages _ (by simp)).1⟩

/-! ## No marker -/

/-- A message that asks for nothing under the given conventions. -/
structure AsksNothing (c : Conventions) (message : String) : Prop where
  /-- No task is picked. -/
  picks : ∀ t, (read c message).1.picks t = false
  /-- Selecting by request succeeds, and selects nothing. -/
  selects : ∀ (ε : Type) (g : TaskGraph) (p : Parameters),
    p.get? "message" = some (.text message) → (Strategy.byRequest c : Strategy ε) g p = .ok []
  /-- Nothing is scheduled. -/
  schedules : ∀ g, (read c message).1.schedule g = []
  /-- Every task would run once. -/
  runs : ∀ t, (read c message).1.runs t = 1
  /-- Nothing is said about the message. -/
  warns : (read c message).2 = []

theorem read_of_unmarked {c : Conventions} {message : String}
    (h : ¬ c.marker.toList <:+: message.toList) : read c message = (nothing c.kinds, []) := by
  rw [read, tokensAfter?, after?_eq_none_iff.2 h, Option.map_none]

theorem any_contains_nil {α : Type} [BEq α] (x : Option α) : x.any [].contains = false := by
  cases x <;> rfl

/-- Whatever a task is taken for, the request that asks for nothing does not pick it. -/
theorem picksAs_nothing (kinds : Kinds) (t : Task) (as : TaskClass) :
    (nothing kinds).picksAs t as = false := by
  have hbuild : (nothing kinds).picksBuild t = false := by
    rw [picksBuild, asksBuildType, nothing, any_contains_nil, Bool.false_and]
  cases as with
  | build => exact hbuild
  | test => rw [picksAs, picksTest, hbuild, Bool.false_and, Bool.false_and]
  | job =>
      simp only [picksAs, picksJob, nothing, Selection.nothing, any_contains_nil, Bool.or_false]

theorem picks_nothing (kinds : Kinds) (t : Task) : (nothing kinds).picks t = false := by
  have has : (nothing kinds).picksAs t = fun _ => false := funext (picksAs_nothing kinds t)
  rw [picks, picksIn, has]
  cases t.kind.bind ((nothing kinds).kinds.classIn? TaskClass.order) <;> rfl

theorem runs_nothing (kinds : Kinds) (t : Task) : (nothing kinds).runs t = 1 := by
  have hmax : max (if isTalos t then (nothing kinds).talosRuns else (nothing kinds).testRuns) 1 =
      1 := by
    cases isTalos t <;> rfl
  rw [runs, hmax, ite_self]

theorem asksNothing_of_read {c : Conventions} {message : String}
    (h : read c message = (nothing c.kinds, [])) : AsksNothing c message := by
  have hpicks : ∀ t, (read c message).1.picks t = false := by
    intro t
    rw [h, picks_nothing]
  have hfilter : ∀ g : TaskGraph, g.inOrder.filter (read c message).1.picks = [] := by
    intro g
    rw [List.filter_eq_nil_iff]
    intro t _
    rw [hpicks t]
    exact Bool.false_ne_true
  refine ⟨hpicks, fun ε g p hp => ?_, fun g => ?_, fun t => ?_, ?_⟩
  · rw [Strategy.byRequest_eq_ok c g hp, TaskGraph.labelsWhere, hfilter g, List.map_nil]
  · rw [schedule, hfilter g, List.map_nil]
  · rw [h, runs_nothing]
  · rw [h]

/-- A blank text holds no text that is not blank. -/
theorem not_infix_of_allBlank {part text : String} (hpart : allBlank part = false)
    (htext : allBlank text = true) : ¬ part.toList <:+: text.toList := by
  intro h
  obtain ⟨ch, hch, hblank⟩ := List.all_eq_false.1 hpart
  exact hblank (List.all_eq_true.1 htext ch (h.subset hch))

/-- **Without the marker nothing happens**, under any conventions; and under legal ones, a blank
message is without the marker. -/
theorem asksNothing_of_unmarked :
    (∀ (c : Conventions) (message : String), ¬ c.marker.toList <:+: message.toList →
      AsksNothing c message) ∧
    ∀ (s : Settings) (message : String), s.IsLegal → allBlank message = true →
      ¬ s.conventions.marker.toList <:+: message.toList ∧ AsksNothing s.conventions message := by
  have hunmarked : ∀ (c : Conventions) (message : String),
      ¬ c.marker.toList <:+: message.toList → AsksNothing c message :=
    fun c message h => asksNothing_of_read (read_of_unmarked h)
  refine ⟨hunmarked, fun s message hlegal hblank => ?_⟩
  obtain ⟨_, _, hmarker, _⟩ := Settings.isLegal_iff.1 hlegal
  have habsent : ¬ s.conventions.marker.toList <:+: message.toList :=
    not_infix_of_allBlank hmarker hblank
  exact ⟨habsent, hunmarked s.conventions message habsent⟩

/-- A message that breaks off within the marker, where one kind is in all classes; and a blank
message under the standard settings. -/
theorem asksNothing_of_unmarked_overlapping :
    (∃ c : Conventions, c.kinds = ⟨["x"], ["x"], ["x"]⟩ ∧
      ¬ c.marker.toList <:+: "-b o -u all, please try".toList ∧
      AsksNothing c "-b o -u all, please try") ∧
    Settings.standard.IsLegal ∧ allBlank " \t\r\n" = true ∧
      AsksNothing Settings.standard.conventions " \t\r\n" := by
  have habsent : ¬ Conventions.standard.marker.toList <:+: "-b o -u all, please try".toList :=
    after?_eq_none_iff.1 (by decide)
  have hlegal : Settings.standard.IsLegal := by decide
  have hblank : allBlank " \t\r\n" = true := by decide
  exact ⟨⟨{ Conventions.standard with kinds := ⟨["x"], ["x"], ["x"]⟩ }, rfl, habsent,
      asksNothing_of_unmarked.1 _ _ habsent⟩,
    hlegal, hblank, (asksNothing_of_unmarked.2 _ _ hlegal hblank).2⟩

end PushPlan.Request
