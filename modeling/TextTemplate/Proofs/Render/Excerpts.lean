import TextTemplate.Proofs.Render.Places

/-!
Excerpts of sources in failures. A failure that has a source names a template and a line of it, and the source is
the one that was compiled under that name, so that the excerpt shows the line among those around it.
-/
namespace TextTemplate

namespace Text

/-- No line holds a line feed. -/
theorem lines_unbroken {cs line : List Char} (found : line ∈ lines cs) : '\n' ∉ line := by
  fun_induction lines cs generalizing line with
  | case1 => cases found
  | case2 cs ih | case3 cs ih =>
    rcases List.mem_cons.mp found with rfl | found
    · exact List.not_mem_nil
    · exact ih found
  | case4 c cs _ plain ih =>
    cases behind : lines cs with
    | nil =>
      rw [behind] at found
      obtain rfl := List.mem_singleton.mp found
      simpa [eq_comm] using plain
    | cons first rest =>
      rw [behind] at found ih
      rcases List.mem_cons.mp found with rfl | found
      · have unbroken := ih List.mem_cons_self
        simpa [eq_comm, unbroken] using plain
      · exact ih (List.mem_cons_of_mem _ found)

end Text

namespace Excerpt

variable {source : String} {line n : Nat}

def linesOf (source : String) : List String :=
  (Text.lines source.toList).map String.ofList

/-- The numbers of the lines that are shown around a line; the first line of a source has the number 1. -/
def window (source : String) (line : Nat) : List Nat :=
  let first := max 1 (line - around)
  let last := min (linesOf source).length (line + around)
  List.range' first (last + 1 - first)

/-- The line of a number as an excerpt shows it that marks a line. -/
def shown (source : String) (marked n : Nat) : String :=
  numbered (if n = marked then ">" else "|") (n - 1) ((linesOf source).getD (n - 1) "")

theorem mem_window :
    n ∈ window source line ↔ max 1 (line - around) ≤ n ∧ n ≤ min (linesOf source).length (line + around) := by
  rw [window, List.mem_range'_1]
  omega

theorem window_pairwise (source : String) (line : Nat) : (window source line).Pairwise (· < ·) :=
  List.pairwise_lt_range'

/-- The marked line stands between those in front of it and those behind. -/
theorem window_eq (has : Source.HasLine source line) :
    window source line = List.range' (line - 1 - around + 1) (line - 1 - (line - 1 - around)) ++
      line :: List.range' (line + 1) (min around ((linesOf source).length - line)) := by
  obtain ⟨positive, within⟩ := has
  have within : line ≤ (linesOf source).length := by rwa [linesOf, List.length_map]
  have before : line = line - 1 - around + 1 + (line - 1 - (line - 1 - around)) := by
    simp only [around]
    omega
  have all : window source line = List.range' (line - 1 - around + 1)
      (line - 1 - (line - 1 - around) + (min around ((linesOf source).length - line) + 1)) := by
    unfold window
    simp only [around]
    congr 1 <;> omega
  rw [all, ← List.range'_append_1, ← before]
  rfl

/-- Lines that are not the marked one. -/
theorem unmarked_eq (source : String) (marked start count : Nat) (apart : start + count < marked ∨ marked ≤ start) :
    (((linesOf source).drop start).take count).mapIdx (fun i text => numbered "|" (start + i) text) =
      (List.range' (start + 1) (min count ((linesOf source).length - start))).map (shown source marked) := by
  apply List.ext_getElem
  · simp
  · intro i inside inside'
    have bounded : start + i < (linesOf source).length ∧ i < count := by
      simp at inside
      omega
    have other : start + 1 + i ≠ marked := by omega
    have index : start + 1 + i - 1 = start + i := by omega
    simp [shown, other, index, bounded]

/-- The excerpt around a line that a source has. -/
theorem ofSource_eq (has : Source.HasLine source line) :
    ofSource source line =
      "\n" ++ rule " Template Source " ++ "\n" ++ String.join ((window source line).map (shown source line)) ++
        rule "" := by
  obtain ⟨positive, within⟩ := id has
  have within : line - 1 < (linesOf source).length := by
    rw [linesOf, List.length_map]
    omega
  have front : min (line - 1 - (line - 1 - around)) ((linesOf source).length - (line - 1 - around)) =
      line - 1 - (line - 1 - around) := by omega
  have behind : line - 1 + 1 = line := by omega
  have before := unmarked_eq source line (line - 1 - around) (line - 1 - (line - 1 - around)) (by omega)
  have after := unmarked_eq source line (line - 1 + 1) around (by omega)
  have marked : numbered ">" (line - 1) (linesOf source)[line - 1] = shown source line line := by
    simp [shown, List.getD_eq_getElem?_getD, within]
  unfold ofSource
  rw [← linesOf]
  simp only [List.getElem?_eq_getElem within]
  rw [before, after, marked, front, behind, window_eq has, List.map_append, List.map_cons, String.join_append,
    String.join_cons]
  simp only [String.append_assoc]

end Excerpt

/-- The long form of a failure shows the lines around a line of a source, each one once and in order, and marks
that line only. -/
structure Fault.Shows (fault : Fault) (source : String) (line : Nat) : Prop where
  excerpt : ∃ front behind, fault.longMessage = front ++ ("\n" ++ Excerpt.rule " Template Source " ++ "\n" ++
    String.join ((Excerpt.window source line).map (Excerpt.shown source line)) ++ Excerpt.rule "") ++ behind
  listed : ∀ n, n ∈ Excerpt.window source line ↔
    max 1 (line - 3) ≤ n ∧ n ≤ min (Text.lines source.toList).length (line + 3)
  ordered : (Excerpt.window source line).Pairwise (· < ·)
  unbroken : ∀ text ∈ Text.lines source.toList, '\n' ∉ text

theorem Fault.shows {fault : Fault} {source name : String} {line : Nat} (sourced : fault.source = some source)
    (placed : fault.place = some ⟨name, line⟩) (has : Source.HasLine source line) : fault.Shows source line := by
  refine ⟨?_, fun n => ?_, Excerpt.window_pairwise source line, fun _ => Text.lines_unbroken⟩
  · obtain ⟨listing, long⟩ : ∃ listing,
        fault.longMessage = fault.message ++ (Excerpt.ofSource source line ++ listing) := by
      unfold longMessage excerpts
      simp only [sourced, placed]
      exact ⟨_, rfl⟩
    rw [long, Excerpt.ofSource_eq has, ← String.append_assoc]
    exact ⟨_, _, rfl⟩
  · rw [Excerpt.mem_window, Excerpt.linesOf, List.length_map]
    rfl

/-- A failure that has a source names a line of it, and the template that it is the source of. -/
def Fault.Points (sources : String → String → Prop) (fault : Fault) : Prop :=
  ∀ source, fault.source = some source →
    ∃ name line, fault.place = some ⟨name, line⟩ ∧ sources name source ∧ Source.HasLine source line

namespace Compiled

/-- A template that cannot be compiled has its own source, or none if a section is what cannot be read. -/
theorem compile_points {name text : String} {session : Session} {fault : Fault}
    (fails : compile name text session = .error fault) :
    fault.Points fun template source => template = name ∧ source = text := by
  intro source sourced
  rcases bind_eq_error.mp fails with unread | ⟨template, -, rest⟩
  · obtain ⟨line, place, shows, has⟩ := Template.parse_error unread
    obtain rfl := Option.some.inj (sourced.symm.trans shows)
    exact ⟨name, line, place, ⟨rfl, rfl⟩, has⟩
  · dsimp only at rest
    split at rest
    · rename_i cause unfilled
      have bare : cause.source = none := by
        refine Filled.ofStmts_error_of (P := fun fault => fault.source = none) (fun _ captured fault _ unread => ?_)
          (fun _ => rfl) unfilled
        unfold Filled.parsed Template.parsePart at unread
        split at unread
        · cases unread
        · obtain rfl := Except.error.inj unread
          rfl
      obtain rfl := Except.error.inj rest
      unfold Fault.placedAt at sourced
      split at sourced
      · cases bare.symm.trans sourced
      · cases bare.symm.trans sourced
    · cases rest

end Compiled

namespace Environment

variable {env : Environment} {root : Value} {levels : Nat} {request : Request} {link : Link} {scene : Scene}
  {culprit : Culprit} {failure : Failure}

/-- What a template reports of a failure that has no place yet. -/
theorem Stops.points (stops : Stops env root levels request link scene culprit failure)
    (unplaced : failure.fault.place = none) (unsourced : failure.fault.source = none) :
    (scene.report culprit.origin failure).fault.Points (Compiles env root (levels + 1) request) := by
  intro source sourced
  obtain ⟨listing, reported⟩ := stops.report_unplaced unplaced
  rw [reported] at sourced ⊢
  obtain ⟨node, template, call⟩ := culprit
  dsimp only at sourced
  rw [unsourced, Option.none_or] at sourced
  cases template with
  | some origin => cases sourced
  | none =>
    obtain rfl : link.source = source := Option.some.inj sourced
    obtain ⟨compiles, parses⟩ := stops.runs.compiles
    refine ⟨link.name, node.line, rfl, compiles, ?_⟩
    cases Stmt.filledCulprit_stems stops.culprit with
    | own inside => exact (Node.at_of_parse parses inside).hasLine

theorem FailsWith.points (fails : FailsWith env root levels request failure) :
    failure.fault.Points (Compiles env root levels request) := by
  induction fails with
  | nowhere _ unsourced _ =>
    intro source sourced
    cases unsourced.symm.trans sourced
  | uncompiled content fresh loads fails =>
    intro source sourced
    obtain ⟨name, line, place, ⟨rfl, rfl⟩, has⟩ := Compiled.compile_points fails source sourced
    exact ⟨name, line, place, .here content fresh loads, has⟩
  | alone stops => exact stops.points rfl rfl
  | @inside levels request link scene culprit failure call stops there _ ih =>
    cases placed : failure.fault.place with
    | none =>
      refine stops.points placed ?_
      cases sourced : failure.fault.source with
      | none => rfl
      | some source =>
        obtain ⟨name, line, place, -⟩ := ih source sourced
        cases placed.symm.trans place
    | some place =>
      obtain ⟨listing, reported⟩ := scene.report_placed placed
      rw [reported]
      intro source sourced
      obtain ⟨name, line, place, compiles, has⟩ := ih source sourced
      exact ⟨name, line, place, .inside stops there compiles, has⟩

/-- A compilation or a render that ends with a failure, with the texts that it compiles and their names. -/
inductive FailsOver (env : Environment) : Failure → (String → String → Prop) → Prop where
  | compile {name : String} {failure : Failure} : env.compile name = .error failure →
    FailsOver env failure fun template source => template = name ∧ env.load name = .ok source
  | compileSource {text : String} {failure : Failure} : env.compileSource text = .error failure →
    FailsOver env failure fun template source => template = sourceName ∧ source = text
  | render {name : String} {context : Value} {failure : Failure} : env.render name context = .error failure →
    FailsOver env failure
      (Compiles env (env.rootOf context) (maxRenderDepth + 1) ⟨none, name, env.rootOf context, {}, .text ""⟩)
  | renderSource {text : String} {context : Value} {failure : Failure} :
    env.renderSource text context = .error failure →
    FailsOver env failure
      (Compiles env (env.rootOf context) (maxRenderDepth + 1) ⟨some text, sourceName, env.rootOf context, {}, .text ""⟩)
  | renderTo {name message : String} {context : Value} {limit : Option Nat} {failure : Failure} :
    (env.renderTo name context limit message).result = .error failure →
    FailsOver env failure
      (Compiles env (env.rootOf context) (maxRenderDepth + 1)
        ⟨none, name, env.rootOf context, {}, .writer limit [] false⟩)

/-- Where a compilation or a render ends: at a template that is not loaded, at a text that is not compiled, in the
run, or at its output. -/
inductive EndsIn (env : Environment) (failure : Failure) (sources : String → String → Prop) : Prop where
  | loading {name : String} : env.load name = .error failure → EndsIn env failure sources
  | compiling {name text : String} {fault : Fault} : sources name text →
    Compiled.compile name text {} = .error fault → failure = ⟨fault, []⟩ → EndsIn env failure sources
  | running {root : Value} {request : Request} : Compiles env root (maxRenderDepth + 1) request = sources →
    request.session = {} → (request.outcome env (maxRenderDepth + 1) root).result = .error failure →
    EndsIn env failure sources
  | writing {message : String} : failure = ⟨{ problem := .writerFailed }, [.io (.writer message)]⟩ →
    EndsIn env failure sources

theorem FailsOver.ends {sources : String → String → Prop} (fails : env.FailsOver failure sources) :
    EndsIn env failure sources := by
  cases fails with
  | compile fails =>
    unfold Environment.compile at fails
    split at fails
    · rename_i unread
      obtain rfl := Except.error.inj fails
      exact .loading unread
    · rename_i text loads
      split at fails
      · rename_i uncompiled
        exact .compiling ⟨rfl, loads⟩ uncompiled (Except.error.inj fails).symm
      · cases fails
  | compileSource fails =>
    unfold Environment.compileSource at fails
    split at fails
    · rename_i uncompiled
      exact .compiling ⟨rfl, rfl⟩ uncompiled (Except.error.inj fails).symm
    · cases fails
  | render fails => exact .running rfl rfl (textOf_eq_error.mp fails)
  | renderSource fails => exact .running rfl rfl (textOf_eq_error.mp fails)
  | renderTo fails =>
    rcases renderTo_eq_error fails with unwritten | failed
    · exact .writing unwritten
    · exact .running rfl rfl failed

theorem FailsOver.points {sources : String → String → Prop} (fails : env.FailsOver failure sources) :
    failure.fault.Points sources := by
  intro source sourced
  cases fails.ends with
  | loading unread =>
    rcases load_error unread with ⟨path, siblings, rfl⟩ | ⟨path, problem, rfl⟩
    · cases sourced
    · cases sourced
  | compiling known uncompiled same =>
    subst same
    obtain ⟨template, line, place, ⟨rfl, rfl⟩, has⟩ := Compiled.compile_points uncompiled source sourced
    exact ⟨template, line, place, known, has⟩
  | @running root request same fresh failed =>
    have bare : request.session.layout = none := by rw [fresh]
    subst same
    exact (fails_with bare failed).points source sourced
  | writing same =>
    subst same
    cases sourced

end Environment

end TextTemplate
