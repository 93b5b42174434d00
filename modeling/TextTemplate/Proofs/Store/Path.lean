import Mathlib.Data.List.Infix
import Mathlib.Tactic.SplitIfs
import TextTemplate.Store.Path

/-!
Names of templates as paths. The path of a name is the base, a separator where one is needed, and the name
as it is; its components are those of the base and, behind them, the segments of the name.
-/
namespace TextTemplate

namespace Text

theorem not_mem_of_mem_splitOn {c : Char} {cs piece : List Char} (found : piece ∈ cs.splitOn c) : c ∉ piece := by
  induction cs generalizing piece with
  | nil => simp_all
  | cons a cs ih =>
    rw [List.splitOn_cons_eq_if_modifyHead] at found
    split at found
    · rcases List.mem_cons.mp found with rfl | found
      · exact List.not_mem_nil
      · exact ih found
    · rename_i other
      cases split : cs.splitOn c with
      | nil => exact absurd split (List.splitOn_ne_nil c cs)
      | cons first rest =>
        rw [split] at found ih
        rcases List.mem_cons.mp found with rfl | found
        · rw [List.mem_cons, not_or]
          exact ⟨fun same => other (by simp [same]), ih List.mem_cons_self⟩
        · exact ih (List.mem_cons_of_mem _ found)

theorem not_mem_of_mem_pieces {c : Char} {s piece : String} (found : piece ∈ pieces c s) : c ∉ piece.toList := by
  obtain ⟨cs, inside, rfl⟩ := List.mem_map.mp found
  rw [String.toList_ofList]
  exact not_mem_of_mem_splitOn inside

theorem pieces_eq_singleton {c : Char} {s : String} (free : c ∉ s.toList) : pieces c s = [s] := by
  simp [pieces, List.splitOn_eq_singleton free]

theorem pieces_append {c : Char} {s left right : String} (split : s.toList = left.toList ++ c :: right.toList) :
    pieces c s = pieces c left ++ pieces c right := by
  simp [pieces, split, List.splitOn_append_cons_self]

theorem pieces_injective {c : Char} {s t : String} (same : pieces c s = pieces c t) : s = t := by
  have lists : s.toList.splitOn c = t.toList.splitOn c :=
    List.map_injective_iff.mpr (fun _ _ => String.ofList_injective) same
  have joined : [c].intercalate (s.toList.splitOn c) = s.toList := List.intercalate_splitOn c
  rw [← String.toList_inj, ← joined, lists, List.intercalate_splitOn]

end Text

namespace Path

/-- The segments in front of what is joined to a directory. -/
def front (directory : String) : List String :=
  if directory.isEmpty then []
  else if directory.endsWith '/' then (Text.pieces '/' directory).dropLast
  else Text.pieces '/' directory

theorem pieces_child (directory name : String) :
    Text.pieces '/' (child directory name) = front directory ++ Text.pieces '/' name := by
  unfold child front
  by_cases empty : directory.isEmpty
  · obtain rfl : directory = "" := String.isEmpty_iff.mp empty
    simp
  · by_cases ends : directory.endsWith '/'
    · obtain ⟨init, rfl⟩ := String.endsWith_char_iff_exists_append.mp ends
      have split : (init ++ String.singleton '/' ++ name).toList = init.toList ++ '/' :: name.toList := by simp
      have bare : (init ++ String.singleton '/').toList = init.toList ++ '/' :: "".toList := by simp
      simp only [empty, ends, Bool.false_or, if_true, Bool.false_eq_true, if_false]
      rw [Text.pieces_append split, Text.pieces_append bare, Text.pieces_eq_singleton (s := "") (by simp),
        List.dropLast_concat]
    · have split : (directory ++ "/" ++ name).toList = directory.toList ++ '/' :: name.toList := by simp
      simp only [empty, ends, Bool.or_false, Bool.false_eq_true, if_false]
      rw [Text.pieces_append split]

/-- The segments of a directory are those in front of what is joined to it, but for a slash at its end. -/
theorem pieces_eq_front {directory : String} (nonempty : directory ≠ "") :
    Text.pieces '/' directory = front directory ∨ Text.pieces '/' directory = front directory ++ [""] := by
  have bare : ¬directory.isEmpty = true := mt String.isEmpty_iff.mp nonempty
  by_cases ends : directory.endsWith '/'
  · obtain ⟨init, rfl⟩ := String.endsWith_char_iff_exists_append.mp ends
    refine .inr ?_
    have split : (init ++ String.singleton '/').toList = init.toList ++ '/' :: "".toList := by simp
    rw [front, if_neg bare, if_pos ends, Text.pieces_append split, Text.pieces_eq_singleton (s := "") (by simp),
      List.dropLast_concat]
  · rw [front, if_neg bare, if_neg ends]
    exact .inl rfl

/-- A segment that can be joined to a directory. -/
structure Plain (segment : String) : Prop where
  nonempty : segment ≠ ""
  undotted : segment ≠ "."
  forward : segment ≠ ".."
  single : '/' ∉ segment.toList

theorem plain_of_isSafeSegment {name segment : String} (found : segment ∈ segments name)
    (safe : isSafeSegment segment = true) : Plain segment := by
  simp only [isSafeSegment, Bool.and_eq_true, Bool.not_eq_true', String.startsWith_char_eq_head?] at safe
  obtain ⟨⟨nonempty, undotted⟩, -⟩ := safe
  refine ⟨?_, ?_, ?_, Text.not_mem_of_mem_pieces found⟩
  · rintro rfl
    simp at nonempty
  · rintro rfl
    simp at undotted
  · rintro rfl
    simp at undotted

theorem front_child {directory segment : String} (plain : Plain segment) :
    front (child directory segment) = front directory ++ [segment] := by
  obtain ⟨before, same⟩ : ∃ before, child directory segment = before ++ segment := by
    unfold child
    split
    · exact ⟨_, rfl⟩
    · exact ⟨_, rfl⟩
  have nonempty : (child directory segment).isEmpty = false := by
    simp [same, plain.nonempty]
  have ends : (child directory segment).endsWith '/' = false := by
    rw [same, String.endsWith_char_eq_getLast?, String.toList_append, List.getLast?_append]
    cases last : segment.toList.getLast? with
    | none => simp [plain.nonempty] at last
    | some c =>
      have other : c ≠ '/' := fun same => plain.single (same ▸ List.mem_of_getLast? last)
      simp [other]
  rw [front, nonempty, ends, ← Text.pieces_eq_singleton plain.single, ← pieces_child]
  rfl

theorem pieces_foldl_child {base segment : String} {rest : List String} (plain : ∀ s ∈ segment :: rest, Plain s) :
    Text.pieces '/' ((segment :: rest).foldl child base) = front base ++ segment :: rest := by
  induction rest generalizing base segment with
  | nil =>
    rw [List.foldl_cons, List.foldl_nil, pieces_child,
      Text.pieces_eq_singleton (plain segment List.mem_cons_self).single]
  | cons next rest ih =>
    rw [List.foldl_cons, ih fun s found => plain s (List.mem_cons_of_mem _ found),
      front_child (plain segment List.mem_cons_self), List.append_assoc, List.singleton_append]

theorem segments_ne_nil (name : String) : segments name ≠ [] := by
  simp [segments, Text.pieces, List.splitOn_ne_nil]

/-- The segments of a name are joined to what the whole name is joined to. -/
theorem foldl_child {base name : String} (plain : ∀ segment ∈ segments name, Plain segment) :
    (segments name).foldl child base = child base name := by
  refine Text.pieces_injective (c := '/') ?_
  rw [pieces_child]
  cases parts : segments name with
  | nil => exact absurd parts (segments_ne_nil name)
  | cons segment rest =>
    rw [pieces_foldl_child (parts ▸ plain), ← parts]
    rfl

theorem plain_of_join? {base name path : String} (joined : join? base name = some path) :
    ∀ segment ∈ segments name, Plain segment := by
  unfold join? at joined
  split at joined
  · rename_i safe
    exact fun segment found => plain_of_isSafeSegment found (List.all_eq_true.mp safe segment found)
  · cases joined

/-- The path of a name, with the name as it is. -/
theorem join?_eq_some_iff {base name path : String} :
    join? base name = some path ↔ (∀ segment ∈ segments name, isSafeSegment segment = true) ∧ path = child base name := by
  unfold join?
  split
  · rename_i safe
    rw [List.all_eq_true] at safe
    rw [foldl_child fun segment found => plain_of_isSafeSegment found (safe segment found), Option.some_inj]
    exact ⟨fun same => ⟨safe, same.symm⟩, fun both => both.2.symm⟩
  · rename_i unsafeName
    rw [List.all_eq_true] at unsafeName
    exact ⟨nofun, fun both => absurd both.1 unsafeName⟩

theorem pieces_join? {base name path : String} (joined : join? base name = some path) :
    Text.pieces '/' path = front base ++ segments name := by
  obtain ⟨-, rfl⟩ := join?_eq_some_iff.mp joined
  exact pieces_child base name

section Components

/-- A step of a path. -/
inductive Component where
  | root
  | current
  | parent
  | name (name : String)
  deriving DecidableEq, Repr

/-- Nothing and a single dot do not count as steps. -/
def Component.ofSegment? (segment : String) : Option Component :=
  if segment = "" ∨ segment = "." then none
  else if segment = ".." then some .parent
  else some (.name segment)

/-- The step that a path starts with: the root if a separator comes first, and a dot only there. -/
def Component.first? (segment : String) (rest : List String) : Option Component :=
  if segment = "" ∧ rest ≠ [] then some .root
  else if segment = "." then some .current
  else ofSegment? segment

/-- The steps of a path. -/
def components (path : String) : List Component :=
  match Text.pieces '/' path with
  | [] => []
  | segment :: rest => (Component.first? segment rest).toList ++ rest.filterMap Component.ofSegment?

/-- A path that leads down from a base by one name or more. -/
def Below (base path : String) : Prop :=
  ∃ names, names ≠ [] ∧ components path = components base ++ names.map .name

theorem ofSegment?_of_plain {segment : String} (plain : Plain segment) :
    Component.ofSegment? segment = some (.name segment) := by
  simp [Component.ofSegment?, plain.nonempty, plain.undotted, plain.forward]

theorem filterMap_of_plain {segments : List String} (plain : ∀ segment ∈ segments, Plain segment) :
    segments.filterMap Component.ofSegment? = segments.map .name := by
  rw [← List.filterMap_eq_map]
  exact List.filterMap_congr fun segment found => ofSegment?_of_plain (plain segment found)

theorem first?_congr {segment : String} {rest others : List String} (alike : segment = "" → (rest = [] ↔ others = [])) :
    Component.first? segment rest = Component.first? segment others := by
  have same : (segment = "" ∧ rest ≠ []) ↔ segment = "" ∧ others ≠ [] :=
    and_congr_right fun empty => not_congr (alike empty)
  rw [Component.first?, Component.first?, if_congr same rfl rfl]

/-- What stands in front of a joined name has the steps of the whole base. -/
theorem exists_front_eq {base : String} (nonempty : base ≠ "") :
    ∃ segment rest all, front base = segment :: rest ∧ Text.pieces '/' base = segment :: all ∧
      all.filterMap Component.ofSegment? = rest.filterMap Component.ofSegment? ∧ (segment = "" → all ≠ []) := by
  have blank : Text.pieces '/' base ≠ [""] := fun single =>
    nonempty (Text.pieces_injective (c := '/') (single.trans (Text.pieces_eq_singleton (by simp)).symm))
  rcases pieces_eq_front nonempty with bare | slash
  · obtain ⟨segment, rest, parts⟩ := List.exists_cons_of_ne_nil (segments_ne_nil base)
    rw [segments] at parts
    refine ⟨segment, rest, rest, bare ▸ parts, parts, rfl, ?_⟩
    rintro rfl rfl
    exact blank parts
  · cases before : front base with
    | nil =>
      rw [before, List.nil_append] at slash
      exact absurd slash blank
    | cons segment rest =>
      refine ⟨segment, rest, rest ++ [""], rfl, by rw [slash, before, List.cons_append], ?_, by simp⟩
      simp [Component.ofSegment?]

/-- The steps of a base, and behind them the names that are joined to it. -/
theorem components_child {base name : String} (plain : ∀ segment ∈ segments name, Plain segment) :
    components (child base name) = components base ++ (segments name).map .name := by
  obtain ⟨first, names, parts⟩ := List.exists_cons_of_ne_nil (segments_ne_nil name)
  have pieces : Text.pieces '/' (child base name) = front base ++ segments name := pieces_child base name
  by_cases empty : base = ""
  · subst empty
    obtain ⟨here, rest⟩ := List.forall_mem_cons.mp (parts ▸ plain)
    have start : Component.first? first names = some (.name first) := by
      rw [Component.first?, if_neg (fun both => here.nonempty both.1), if_neg here.undotted, ofSegment?_of_plain here]
    rw [components, pieces, parts]
    show (Component.first? first names).toList ++ names.filterMap Component.ofSegment? = _
    rw [start, filterMap_of_plain rest]
    rfl
  · obtain ⟨segment, rest, all, before, whole, steps, more⟩ := exists_front_eq empty
    have start : Component.first? segment (rest ++ segments name) = Component.first? segment all :=
      first?_congr fun blank => by simp [more blank, segments_ne_nil name]
    rw [components, components, pieces, before, whole]
    show (Component.first? segment (rest ++ segments name)).toList ++
      (rest ++ segments name).filterMap Component.ofSegment? = _
    rw [start, List.filterMap_append, filterMap_of_plain plain, ← steps, List.append_assoc]

end Components

section Pushing

/-- Adds a path to another one, or puts it in its place if it starts at the root. -/
def push (path more : String) : String :=
  if more.startsWith '/' then more else child path more

/-- Adds segment after segment, up to the first one that is not safe. -/
def pushAll? (path : String) : List String → Option String
  | [] => some path
  | segment :: rest => if isSafeSegment segment then pushAll? (push path segment) rest else none

theorem push_eq_child {path segment : String} (single : '/' ∉ segment.toList) : push path segment = child path segment := by
  have relative : ¬segment.startsWith '/' = true := by
    rw [String.startsWith_char_eq_head?, beq_iff_eq]
    exact fun first => single (List.mem_of_head? first)
  exact if_neg relative

theorem pushAll?_eq (path : String) {all : List String} (single : ∀ segment ∈ all, '/' ∉ segment.toList) :
    pushAll? path all = if all.all isSafeSegment then some (all.foldl child path) else none := by
  induction all generalizing path with
  | nil => rfl
  | cons segment rest ih =>
    obtain ⟨here, rest⟩ := List.forall_mem_cons.mp single
    rw [pushAll?, ih _ rest, push_eq_child here, List.all_cons, List.foldl_cons]
    cases isSafeSegment segment <;> rfl

/-- Joining a name is adding its segments one after the other. -/
theorem join?_eq_pushAll? (base name : String) : join? base name = pushAll? base (segments name) :=
  (pushAll?_eq base fun _ found => Text.not_mem_of_mem_pieces found).symm

end Pushing

theorem isSafeSegment_eq_false_iff {segment : String} :
    isSafeSegment segment = false ↔ segment = "" ∨ segment.startsWith '.' = true ∨ '\\' ∈ segment.toList := by
  simp only [isSafeSegment, Bool.and_eq_false_iff, Bool.not_eq_false', String.isEmpty_iff, List.contains_iff_mem,
    or_assoc]

theorem join?_eq_none_iff {base name : String} :
    join? base name = none ↔
      ∃ segment ∈ segments name, segment = "" ∨ segment.startsWith '.' = true ∨ '\\' ∈ segment.toList := by
  simp only [← isSafeSegment_eq_false_iff, Option.eq_none_iff_forall_ne_some, ne_eq, join?_eq_some_iff]
  constructor
  · intro never
    by_contra none
    refine never (child base name) ⟨fun segment found => ?_, rfl⟩
    by_contra risky
    exact none ⟨segment, found, Bool.eq_false_iff.mpr risky⟩
  · rintro ⟨segment, found, risky⟩ path ⟨safe, -⟩
    rw [safe segment found] at risky
    cases risky

theorem components_join? {base name path : String} (joined : join? base name = some path) :
    components path = components base ++ (segments name).map .name := by
  obtain ⟨-, rfl⟩ := join?_eq_some_iff.mp joined
  exact components_child (plain_of_join? joined)

theorem below_of_join? {base name path : String} (joined : join? base name = some path) : Below base path :=
  ⟨segments name, segments_ne_nil name, components_join? joined⟩

/-- A path of names alone is made of these names and of nothing that leads back. -/
theorem pieces_of_components {path first : String} {names : List String}
    (steps : components path = .name first :: names.map .name) :
    ∃ rest, Text.pieces '/' path = first :: rest ∧ ".." ∉ rest := by
  obtain ⟨segment, rest, parts⟩ := List.exists_cons_of_ne_nil (segments_ne_nil path)
  rw [segments] at parts
  have steps : (Component.first? segment rest).toList ++ rest.filterMap Component.ofSegment? =
      .name first :: names.map .name := by
    rw [← steps, components, parts]
  have forward : Component.parent ∉ (Component.first? segment rest).toList ++ rest.filterMap Component.ofSegment? := by
    simp [steps]
  have start : segment = first := by
    unfold Component.first? Component.ofSegment? at steps
    split_ifs at steps with absolute current blank back
    · cases steps
    · cases steps
    · obtain rfl | rfl := blank
      · obtain rfl : rest = [] := by simpa using absolute
        cases steps
      · exact absurd rfl current
    · cases steps
    · exact Component.name.inj (List.cons.inj steps).1
  refine ⟨rest, start ▸ parts, fun back => forward (List.mem_append_right _ ?_)⟩
  exact List.mem_filterMap.mpr ⟨"..", back, rfl⟩

end Path

end TextTemplate
