import TextTemplate.Environment
import TextTemplate.Proofs.Results

/-!
Whether a template is there, and what reading it gives. A store has a template where a file stands; a
name without a file is not found, unless something else stands in the way of the file that would be
read.
-/
namespace TextTemplate

namespace FileNode

theorem follow_file {node : FileNode} (above : List FileNode) (file : node.isFile = true) (segment : String)
    (path : List String) : follow above node (segment :: path) = .error .notDirectory := by
  simp only [follow, file, if_true]

/-- The first segment of a path leads to one node, where the rest is followed, or nowhere. -/
theorem follow_cons {node : FileNode} (above : List FileNode) (inside : node.isFile = false) (segment : String) :
    (∀ path, follow above node (segment :: path) = .error .notFound) ∨
      ∃ outer inner, ∀ path, follow above node (segment :: path) = follow outer inner path := by
  simp only [follow, inside, Bool.false_eq_true, if_false]
  by_cases stays : segment = "" ∨ segment = "."
  · simp only [stays, if_true]
    exact .inr ⟨above, node, fun _ => rfl⟩
  by_cases back : segment = ".."
  · simp only [back, if_true]
    cases above with
    | nil => exact .inl fun _ => rfl
    | cons outer above => exact .inr ⟨above, outer, fun _ => rfl⟩
  simp only [stays, back, if_false]
  cases node.child? segment with
  | none => exact .inl fun _ => rfl
  | some child => exact .inr ⟨node :: above, child, fun _ => rfl⟩

theorem follow_error {above : List FileNode} {node : FileNode} {path : List String} {problem : IoProblem}
    (stuck : follow above node path = .error problem) : problem = .notDirectory ∨ problem = .notFound := by
  induction path generalizing above node with
  | nil => cases stuck
  | cons segment path ih =>
    cases here : node.isFile with
    | true =>
      rw [follow_file above here] at stuck
      exact .inl (Except.error.inj stuck).symm
    | false =>
      obtain missing | ⟨outer, inner, leads⟩ := follow_cons above here segment
      · rw [missing] at stuck
        exact .inr (Except.error.inj stuck).symm
      · rw [leads] at stuck
        exact ih stuck

/-- A path cannot go on behind a file. -/
theorem follow_behind_file {above : List FileNode} {node : FileNode} {front : List String} {bytes : List UInt8}
    (reached : follow above node front = .ok (.file bytes)) (segment : String) (rest : List String) :
    follow above node (front ++ segment :: rest) = .error .notDirectory := by
  induction front generalizing above node with
  | nil =>
    obtain rfl := Except.ok.inj reached
    rfl
  | cons first front ih =>
    cases here : node.isFile with
    | true =>
      rw [follow_file above here] at reached
      cases reached
    | false =>
      obtain missing | ⟨outer, inner, leads⟩ := follow_cons above here first
      · rw [missing] at reached
        cases reached
      · rw [leads] at reached
        rw [List.cons_append, leads]
        exact ih reached

theorem follow_eq_notDirectory_iff {above : List FileNode} {node : FileNode} {path : List String} :
    follow above node path = .error .notDirectory ↔
      ∃ front segment rest bytes, path = front ++ segment :: rest ∧ follow above node front = .ok (.file bytes) := by
  constructor
  · intro stuck
    induction path generalizing above node with
    | nil => cases stuck
    | cons segment path ih =>
      cases here : node.isFile with
      | true =>
        cases node with
        | file bytes => exact ⟨[], segment, path, bytes, rfl, rfl⟩
        | directory entries => cases here
      | false =>
        obtain missing | ⟨outer, inner, leads⟩ := follow_cons above here segment
        · rw [missing] at stuck
          cases stuck
        · rw [leads] at stuck
          obtain ⟨front, next, rest, bytes, rfl, reached⟩ := ih stuck
          exact ⟨segment :: front, next, rest, bytes, rfl, (leads front).trans reached⟩
  · rintro ⟨front, segment, rest, bytes, rfl, reached⟩
    exact follow_behind_file reached segment rest

end FileNode

namespace FileTree

/-- What stands in the way of reading a path that leads to no file. -/
inductive Blocks (tree : FileTree) (path : String) : IoProblem → Prop
  | directory {entries : List (String × FileNode)} (reached : tree.node? path = .ok (.directory entries)) :
      Blocks tree path .isDirectory
  | file {front rest : List String} {segment : String} {bytes : List UInt8}
      (spelled : '\x00' ∉ path.toList) (relative : ¬(path.isEmpty ∨ path.startsWith '/'))
      (split : Text.pieces '/' path = front ++ segment :: rest)
      (reached : tree.root.follow [] front = .ok (.file bytes)) : Blocks tree path .notDirectory
  | nul (found : '\x00' ∈ path.toList) : Blocks tree path .nulInName

variable {tree : FileTree} {path : String} {problem : IoProblem}

theorem node?_error (stuck : tree.node? path = .error problem) : problem = .notFound ∨ tree.Blocks path problem := by
  unfold node? at stuck
  split at stuck
  · rename_i found
    obtain rfl := Except.error.inj stuck
    exact .inr (.nul (by simpa using found))
  rename_i spelled
  split at stuck
  · exact .inl (Except.error.inj stuck).symm
  rename_i relative
  obtain rfl | rfl := FileNode.follow_error stuck
  · obtain ⟨front, segment, rest, bytes, split, reached⟩ := FileNode.follow_eq_notDirectory_iff.mp stuck
    exact .inr (.file (by simpa using spelled) relative split reached)
  · exact .inl rfl

/-- Where something stands in the way, there is no file, and the path cannot be read. -/
theorem Blocks.unread (blocked : tree.Blocks path problem) :
    tree.isFile path = false ∧ tree.read path = .error problem ∧ problem ≠ .notFound := by
  unfold FileTree.isFile FileTree.read
  cases blocked with
  | directory reached =>
    rw [reached]
    exact ⟨rfl, rfl, by simp⟩
  | file spelled relative split reached =>
    have stuck : tree.node? path = .error .notDirectory := by
      rw [node?, if_neg (by simpa using spelled), if_neg relative, split]
      exact FileNode.follow_behind_file reached _ _
    rw [stuck]
    exact ⟨rfl, rfl, by simp⟩
  | nul found =>
    have stuck : tree.node? path = .error .nulInName := by rw [node?, if_pos (by simpa using found)]
    rw [stuck]
    exact ⟨rfl, rfl, by simp⟩

/-- Without a file a path is not found or blocked. -/
theorem read_of_not_file (absent : tree.isFile path = false) :
    tree.read path = .error .notFound ∨ ∃ problem, tree.Blocks path problem := by
  unfold FileTree.isFile at absent
  unfold FileTree.read
  cases found : tree.node? path with
  | error problem =>
    obtain rfl | blocked := node?_error found
    · exact .inl rfl
    · exact .inr ⟨problem, blocked⟩
  | ok node =>
    cases node with
    | file bytes =>
      rw [found] at absent
      cases absent
    | directory entries => exact .inr ⟨_, .directory found⟩

/-- A file is read, unless its bytes are no text. -/
theorem read_of_file (there : tree.isFile path = true) :
    (∃ text, tree.read path = .ok text) ∨ tree.read path = .error .notUtf8 := by
  unfold FileTree.isFile at there
  unfold FileTree.read
  cases found : tree.node? path with
  | error problem =>
    rw [found] at there
    cases there
  | ok node =>
    cases node with
    | directory entries =>
      rw [found] at there
      cases there
    | file bytes =>
      dsimp only
      cases Text.decode? bytes with
      | none => exact .inr rfl
      | some text => exact .inl ⟨text, rfl⟩

end FileTree

theorem MemoryStore.has_eq_false_iff {store : MemoryStore} {name : String} :
    store.has name = false ↔ store.get? name = none := by
  simp [has, get?, Table.contains]

namespace Store

/-- Something stands in the way of the file that a template would be read from. Nothing does in memory. -/
def Blocks : Store → String → String → IoProblem → Prop
  | .memory _, _, _, _ => False
  | .files store, name, path, problem => store.path? name = some path ∧ store.tree.Blocks path problem

variable {store : Store} {name path : String} {problem : IoProblem}

theorem Blocks.unread (blocked : store.Blocks name path problem) :
    store.has name = false ∧ store.read name = .error ⟨{ problem := .unreadable path }, [.io problem]⟩ := by
  cases store with
  | memory store => cases blocked
  | files store =>
    obtain ⟨named, blocked⟩ := blocked
    obtain ⟨absent, unread, found⟩ := blocked.unread
    simp only [has, read, FileStore.has, FileStore.read, named, absent, unread, true_and]

theorem read_of_not_has (absent : store.has name = false) :
    store.read name = .ok none ∨ ∃ path problem, store.Blocks name path problem := by
  cases store with
  | memory store => exact .inl (congrArg Except.ok (MemoryStore.has_eq_false_iff.mp absent))
  | files store =>
    cases named : store.path? name with
    | none =>
      left
      simp only [read, FileStore.read, named]
    | some path =>
      simp only [has, FileStore.has, named] at absent
      obtain missing | ⟨problem, blocked⟩ := FileTree.read_of_not_file absent
      · left
        simp only [read, FileStore.read, named, missing]
      · exact .inr ⟨path, problem, named, blocked⟩

/-- A template of a store is read, unless it is a file whose bytes are no text. -/
theorem read_of_has (there : store.has name = true) :
    (∃ source, store.read name = .ok (some source)) ∨
      ∃ path, store.read name = .error ⟨{ problem := .unreadable path }, [.io .notUtf8]⟩ := by
  cases store with
  | memory store =>
    obtain ⟨source, found⟩ := Option.isSome_iff_exists.mp there
    exact .inl ⟨source, congrArg Except.ok found⟩
  | files store =>
    cases named : store.path? name with
    | none =>
      simp only [has, FileStore.has, named] at there
      cases there
    | some path =>
      simp only [has, FileStore.has, named] at there
      obtain ⟨text, reads⟩ | unread := FileTree.read_of_file there
      · left
        exact ⟨text, by simp only [read, FileStore.read, named, reads]⟩
      · right
        exact ⟨path, by simp only [read, FileStore.read, named, unread]⟩

/-- A store without a template does not read it, and says so unless something stands in the way. -/
theorem has_eq_false_iff :
    store.has name = false ↔ store.read name = .ok none ∨ ∃ path problem, store.Blocks name path problem := by
  constructor
  · exact read_of_not_has
  · rintro (missing | ⟨path, problem, blocked⟩)
    · cases there : store.has name with
      | false => rfl
      | true =>
        obtain ⟨source, reads⟩ | ⟨path, unread⟩ := read_of_has there
        · rw [reads] at missing
          cases missing
        · rw [unread] at missing
          cases missing
    · exact blocked.unread.1

end Store

namespace Environment

/-- Something stands in the way of a template that was not added. -/
def Blocks (env : Environment) (name path : String) (problem : IoProblem) : Prop :=
  env.templates.has name = false ∧ ∃ store, env.store = some store ∧ store.Blocks name path problem

variable {env : Environment} {name path : String} {problem : IoProblem}

theorem load_of_store {store : Store} (fresh : env.templates.has name = false) (given : env.store = some store) :
    env.hasTemplate name = store.has name ∧
      env.load name = (match store.read name with
        | .error failure => .error failure
        | .ok (some source) => .ok source
        | .ok none => .error (env.missing name)) := by
  rw [hasTemplate, load, fresh, MemoryStore.has_eq_false_iff.mp fresh, given]
  exact ⟨rfl, rfl⟩

theorem Blocks.unread (blocked : env.Blocks name path problem) :
    env.hasTemplate name = false ∧ env.load name = .error ⟨{ problem := .unreadable path }, [.io problem]⟩ := by
  obtain ⟨fresh, store, given, blocked⟩ := blocked
  obtain ⟨absent, unread⟩ := blocked.unread
  obtain ⟨has, loads⟩ := load_of_store fresh given
  rw [has, loads, unread]
  exact ⟨absent, rfl⟩

end Environment

end TextTemplate
