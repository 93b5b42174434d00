import Mathlib.Tactic.SplitIfs
import TextTemplate.Proofs.Declarations
import TextTemplate.Store.FileTree

/-!
Replacing a file in a tree. Names alone lead to a place in a tree; a path is walked through directories to
a place, dots and two dots included. When a file is put at a place, paths to any other place lead on to
what they led to before.
-/
namespace TextTemplate

namespace FileNode

variable {root root' node : FileNode}

/-- The bytes of a file; a directory has none. -/
def bytes? : FileNode → Option (List UInt8)
  | .file bytes => some bytes
  | .directory _ => none

/-- The node that names lead to, each an entry of the directory before. -/
def at? (node : FileNode) : List String → Option FileNode
  | [] => some node
  | name :: names => (node.child? name).bind fun child => child.at? names

/-- What stands at a place: nothing, a directory, or a file with its bytes. -/
def stands? (root : FileNode) (place : List String) : Option (Option (List UInt8)) :=
  (root.at? place).map bytes?

theorem isSome_bytes? (node : FileNode) : node.bytes?.isSome = node.isFile := by
  cases node <;> rfl

theorem at?_append (node : FileNode) (first rest : List String) :
    node.at? (first ++ rest) = (node.at? first).bind fun inner => inner.at? rest := by
  induction first generalizing node with
  | nil => rfl
  | cons name first ih =>
    rw [List.cons_append, at?, at?, Option.bind_assoc]
    exact congrArg _ (funext ih)

theorem at?_concat (node : FileNode) (names : List String) (name : String) :
    node.at? (names ++ [name]) = (node.at? names).bind fun inner => inner.child? name := by
  rw [at?_append]
  congr 1
  funext inner
  rw [at?]
  cases inner.child? name <;> rfl

theorem child?_withChild (node child : FileNode) (name other : String) :
    (node.withChild name child).child? other = if other = name then some child else node.child? other :=
  Table.lookup_insertInto name child node.entries other

section Walking

/-- The directories around a node and the names that lead to it from the root. -/
inductive Along (root : FileNode) : List String → List FileNode → FileNode → Prop
  | top : Along root [] [] root
  | down {names : List String} {above : List FileNode} {node child : FileNode} {name : String}
    (along : Along root names above node) (found : node.child? name = some child) :
    Along root (names ++ [name]) (node :: above) child

theorem Along.at? {names : List String} {above : List FileNode} (along : Along root names above node) :
    root.at? names = some node := by
  induction along with
  | top => rfl
  | down _ found ih => rw [at?_concat, ih, Option.bind_some, found]

/-- The place that a path leads to from another place, if it leads anywhere. -/
def walk? (root : FileNode) (names : List String) : List String → Option (List String)
  | [] => some names
  | segment :: path =>
    if (root.stands? names).join.isSome then none
    else if segment = "" ∨ segment = "." then root.walk? names path
    else if segment = ".." then if names = [] then none else root.walk? names.dropLast path
    else if (root.stands? (names ++ [segment])).isSome then root.walk? (names ++ [segment]) path
    else none

/-- Following a path is walking to a place and looking there. -/
theorem follow_eq_walk? {names : List String} {above : List FileNode} (along : Along root names above node)
    (path : List String) : (follow above node path).toOption = (root.walk? names path).bind root.at? := by
  induction path generalizing names above node with
  | nil => exact along.at?.symm
  | cons segment path ih =>
    have file : (root.stands? names).join.isSome = node.isFile := by
      rw [stands?, along.at?]
      exact isSome_bytes? node
    rw [follow.eq_def, walk?, file]
    dsimp only
    split
    · rfl
    split
    · exact ih along
    split
    · cases along with
      | top => rfl
      | down along _ =>
        rw [if_neg (by simp), List.dropLast_concat]
        exact ih along
    · have inner : root.stands? (names ++ [segment]) = (node.child? segment).map bytes? := by
        rw [stands?, at?_concat, along.at?, Option.bind_some]
      rw [inner]
      cases found : node.child? segment with
      | none => rfl
      | some child => exact ih (along.down found)

/-- Where a path leads is told by its segments alone. -/
theorem walk?_steps {names path place : List String} (leads : root.walk? names path = some place) :
    place = path.foldl FileTree.takeStep names := by
  induction path generalizing names with
  | nil => exact (Option.some.inj leads).symm
  | cons segment path ih =>
    rw [walk?] at leads
    rw [List.foldl_cons, FileTree.takeStep]
    split_ifs at leads ⊢ <;> exact ih leads

end Walking

/-- Two trees that differ in one place, where a file has been put. -/
structure Replaced (root root' : FileNode) (place : List String) (bytes : List UInt8) : Prop where
  here : root'.stands? place = some (some bytes)
  before : root.stands? place ≠ some none
  elsewhere : ∀ other, other ≠ place → root'.stands? other = root.stands? other

namespace Replaced

variable {place names path target : List String} {bytes : List UInt8}

theorem exists_dropLast (known : (root.stands? names).isSome = true) :
    (root.stands? names.dropLast).isSome = true := by
  rcases List.eq_nil_or_concat names with rfl | ⟨front, name, rfl⟩
  · exact known
  · rw [List.concat_eq_append, stands?, at?_concat] at known
    rw [List.concat_eq_append, List.dropLast_concat, stands?]
    cases found : root.at? front with
    | none =>
      rw [found] at known
      cases known
    | some node => rfl

/-- A path that led somewhere leads to the same place. -/
theorem walk? (replaced : Replaced root root' place bytes) (known : (root.stands? names).isSome = true)
    (leads : root.walk? names path = some target) : root'.walk? names path = some target := by
  induction path generalizing names with
  | nil => exact leads
  | cons segment path ih =>
    rw [FileNode.walk?] at leads ⊢
    split at leads
    · cases leads
    rename_i directory
    have other : names ≠ place := by
      rintro rfl
      cases stands : root.stands? names with
      | none =>
        rw [stands] at known
        cases known
      | some content =>
        cases content with
        | none => exact replaced.before stands
        | some bytes =>
          rw [stands] at directory
          exact directory rfl
    rw [replaced.elsewhere names other, if_neg directory]
    split at leads
    · rw [if_pos ‹_›]
      exact ih known leads
    rw [if_neg ‹_›]
    split at leads
    · rw [if_pos ‹_›]
      split at leads
      · cases leads
      · rw [if_neg ‹_›]
        exact ih (exists_dropLast known) leads
    rw [if_neg ‹_›]
    split at leads
    · rename_i found
      have found' : (root'.stands? (names ++ [segment])).isSome = true := by
        by_cases same : names ++ [segment] = place
        · rw [same, replaced.here]
          rfl
        · rw [replaced.elsewhere _ same, found]
      rw [if_pos found']
      exact ih found leads
    · cases leads

/-- A file put into a directory. -/
theorem child {entries : List (String × FileNode)} {name : String}
    (free : ∀ inner, entries.lookup name ≠ some (.directory inner)) (bytes : List UInt8) :
    Replaced (.directory entries) ((FileNode.directory entries).withChild name (.file bytes)) [name] bytes where
  here := by
    rw [stands?, at?, child?_withChild, if_pos rfl]
    rfl
  before := by
    rw [stands?, at?]
    cases found : (FileNode.directory entries).child? name with
    | none => exact nofun
    | some node =>
      cases node with
      | file => exact nofun
      | directory inner => exact absurd found (free inner)
  elsewhere := by
    intro other different
    cases other with
    | nil => rfl
    | cons first rest =>
      rw [stands?, stands?, at?, at?, child?_withChild]
      split
      · rename_i same
        subst same
        cases rest with
        | nil => exact absurd rfl different
        | cons second rest =>
          cases found : (FileNode.directory entries).child? first with
          | none => rfl
          | some node =>
            cases node with
            | file => rfl
            | directory inner => exact absurd found (free inner)
      · rfl

/-- A replacement inside of an entry is one of the tree. -/
theorem inside {inner inner' : FileNode} {name : String} (replaced : Replaced inner inner' place bytes)
    (found : root.child? name = some inner) : Replaced root (root.withChild name inner') (name :: place) bytes where
  here := by
    rw [stands?, at?, child?_withChild, if_pos rfl]
    exact replaced.here
  before := by
    rw [stands?, at?, found]
    exact replaced.before
  elsewhere := by
    intro other different
    cases other with
    | nil =>
      cases root with
      | file => cases found
      | directory => rfl
    | cons first rest =>
      rw [stands?, stands?, at?, at?, child?_withChild]
      split
      · rename_i same
        subst same
        rw [found]
        exact replaced.elsewhere rest fun same => different (congrArg _ same)
      · rfl

/-- A file put below directories that are there changes nothing else. -/
theorem put {entries : List (String × FileNode)} {names : List String} {name : String}
    (leads : root.at? names = some (.directory entries))
    (free : ∀ inner, entries.lookup name ≠ some (.directory inner)) (bytes : List UInt8) :
    Replaced root (root.put (.file bytes) (names ++ [name])) (names ++ [name]) bytes := by
  induction names generalizing root with
  | nil =>
    obtain rfl := Option.some.inj leads
    exact child free bytes
  | cons first names ih =>
    obtain ⟨inner, found, leads⟩ := Option.bind_eq_some_iff.mp leads
    rw [List.cons_append, FileNode.put, found]
    exact (ih leads).inside found

end Replaced

end FileNode

namespace FileTree

open FileNode

variable {tree tree' : FileTree} {path other : String} {bytes : List UInt8}

/-- The place that a path names in the working directory, if all on the way to it is there. -/
def place (path : String) : List String :=
  plainSteps (Text.pieces '/' path)

/-- What a path leads to: nothing, a directory, or a file with its bytes. -/
def leadsTo (tree : FileTree) (path : String) : Option (Option (List UInt8)) :=
  (tree.node? path).toOption.map FileNode.bytes?

/-- A file that can be replaced has a name and lies in a directory that is there. -/
structure Replaceable (tree : FileTree) (path : String) (above : List String) (name : String)
    (entries : List (String × FileNode)) : Prop where
  spelled : '\x00' ∉ path.toList
  split : Text.pieces '/' path = above ++ [name]
  named : name ≠ "" ∧ name ≠ "." ∧ name ≠ ".."
  leads : tree.root.follow [] above = .ok (.directory entries)
  free : ∀ inner, entries.lookup name ≠ some (.directory inner)

namespace Replaceable

variable {above : List String} {name : String} {entries : List (String × FileNode)}

theorem place_eq (replaceable : tree.Replaceable path above name entries) :
    place path = plainSteps above ++ [name] := by
  obtain ⟨nonempty, noDot, noDots⟩ := replaceable.named
  rw [place, replaceable.split, plainSteps, List.foldl_append]
  show takeStep (plainSteps above) name = _
  rw [takeStep, if_neg (not_or.mpr ⟨nonempty, noDot⟩), if_neg noDots]

/-- The directory of the file is reached. -/
theorem reached (replaceable : tree.Replaceable path above name entries) :
    tree.root.walk? [] above = some (plainSteps above) ∧
      tree.root.at? (plainSteps above) = some (.directory entries) := by
  have start : Along tree.root [] [] tree.root := .top
  have leads := follow_eq_walk? start above
  rw [replaceable.leads] at leads
  obtain ⟨target, walked, directory⟩ := Option.bind_eq_some_iff.mp leads.symm
  obtain rfl : target = plainSteps above := walk?_steps walked
  exact ⟨walked, directory⟩

theorem replaced (replaceable : tree.Replaceable path above name entries) (bytes : List UInt8) :
    Replaced tree.root (tree.root.put (.file bytes) (place path)) (place path) bytes :=
  replaceable.place_eq ▸ .put replaceable.reached.2 replaceable.free bytes

end Replaceable

end FileTree

end TextTemplate
