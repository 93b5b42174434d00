import Mathlib.Data.List.Nodup
import TextTemplate.Environment
import TextTemplate.Proofs.Store.Path

/-!
How many names can be loaded. Names with different segments lead to different files, and a file has
one name with and one without the extension of its store, so that distinct names which can all be
loaded are no more than `Environment.nameBound`.
-/
namespace TextTemplate

namespace FileNode

mutual

/-- The paths from a node to the files below it. -/
def paths : FileNode → List (List String)
  | .file _ => [[]]
  | .directory entries => entryPaths entries

def entryPaths : List (String × FileNode) → List (List String)
  | [] => []
  | (name, node) :: rest => (paths node).map (name :: ·) ++ entryPaths rest

end

mutual

theorem length_paths : (node : FileNode) → node.paths.length = node.fileCount
  | .file _ => rfl
  | .directory entries => by rw [paths, fileCount, length_entryPaths]

theorem length_entryPaths : (entries : List (String × FileNode)) → (entryPaths entries).length = fileCounts entries
  | [] => rfl
  | (name, node) :: rest => by
    rw [entryPaths, fileCounts, List.length_append, List.length_map, length_paths, length_entryPaths]

end

theorem mem_entryPaths {entries : List (String × FileNode)} {name : String} {node : FileNode} {path : List String}
    (found : entries.lookup name = some node) (below : path ∈ node.paths) : name :: path ∈ entryPaths entries := by
  induction entries with
  | nil => simp at found
  | cons entry rest ih =>
    obtain ⟨key, other⟩ := entry
    rw [entryPaths, List.mem_append]
    rw [List.lookup_cons] at found
    split at found
    · rename_i same
      obtain rfl : name = key := by simpa using same
      obtain rfl := Option.some.inj found
      exact .inl (List.mem_map_of_mem below)
    · exact .inr (ih found)

theorem fileCount_child_le {entries : List (String × FileNode)} {name : String} {node : FileNode}
    (found : entries.lookup name = some node) : node.fileCount ≤ fileCounts entries := by
  induction entries with
  | nil => simp at found
  | cons entry rest ih =>
    obtain ⟨key, other⟩ := entry
    rw [fileCounts]
    rw [List.lookup_cons] at found
    split at found
    · obtain rfl := Option.some.inj found
      omega
    · have := ih found
      omega

/-- Following plain segments leads down to a file along one of the paths. -/
theorem mem_paths_of_follow {above : List FileNode} {node : FileNode} {path : List String} {bytes : List UInt8}
    (plain : ∀ segment ∈ path, Path.Plain segment) (reached : follow above node path = .ok (.file bytes)) :
    path ∈ node.paths := by
  induction path generalizing above node with
  | nil =>
    obtain rfl := Except.ok.inj reached
    exact List.mem_singleton_self _
  | cons segment path ih =>
    have here := plain segment List.mem_cons_self
    cases node with
    | file bytes => simp [follow, isFile] at reached
    | directory entries =>
      simp only [follow, isFile, here.nonempty, here.undotted, here.forward, Bool.false_eq_true, if_false,
        or_self] at reached
      split at reached
      · cases reached
      · rename_i child found
        rw [paths]
        exact mem_entryPaths found (ih (fun s inside => plain s (List.mem_cons_of_mem _ inside)) reached)

/-- The first part of a path leads to one node, where the rest is followed, or nowhere. -/
theorem follow_append {above : List FileNode} {node : FileNode} {size : Nat} (first : List String)
    (bound : ∀ n ∈ node :: above, n.fileCount ≤ size) :
    (∃ outer inner, inner.fileCount ≤ size ∧ ∀ rest, follow above node (first ++ rest) = follow outer inner rest) ∨
      ∀ segment rest, ∃ problem, follow above node (first ++ segment :: rest) = .error problem := by
  induction first generalizing above node with
  | nil => exact .inl ⟨above, node, bound node List.mem_cons_self, fun _ => rfl⟩
  | cons segment first ih =>
    simp only [List.cons_append, follow]
    by_cases file : node.isFile
    · simp only [file, if_true]
      exact .inr fun _ _ => ⟨_, rfl⟩
    by_cases stays : segment = "" ∨ segment = "."
    · simp only [file, stays, if_true, Bool.false_eq_true, if_false]
      exact ih bound
    by_cases back : segment = ".."
    · simp only [file, back, if_true, Bool.false_eq_true, if_false]
      cases above with
      | nil => exact .inr fun _ _ => ⟨_, rfl⟩
      | cons outer above => exact ih fun n found => bound n (List.mem_cons_of_mem _ found)
    simp only [file, stays, back, Bool.false_eq_true, if_false]
    cases found : node.child? segment with
    | none => exact .inr fun _ _ => ⟨_, rfl⟩
    | some child =>
      refine ih fun n inside => ?_
      rcases List.mem_cons.mp inside with rfl | inside
      · cases node with
        | file bytes => simp [isFile] at file
        | directory entries =>
          exact Nat.le_trans (fileCount_child_le found) (bound (.directory entries) List.mem_cons_self)
      · exact bound n inside

end FileNode

namespace FileTree

theorem follow_of_node? {tree : FileTree} {path : String} {node : FileNode} (found : tree.node? path = .ok node) :
    tree.root.follow [] (Text.pieces '/' path) = .ok node := by
  unfold node? at found
  split at found
  · cases found
  · split at found
    · cases found
    · exact found

theorem follow_of_read {tree : FileTree} {path text : String} (read : tree.read path = .ok text) :
    ∃ bytes, tree.root.follow [] (Text.pieces '/' path) = .ok (.file bytes) := by
  unfold FileTree.read at read
  split at read
  · cases read
  · cases read
  · rename_i bytes found
    exact ⟨bytes, follow_of_node? found⟩

end FileTree

/-- Distinct names are at most twice as many as the things two ways of naming lead to. -/
theorem length_le_of_two_ways {α β : Type} {names : List α} {things : List β} {f g : α → β} (nodup : names.Nodup)
    (injective : Function.Injective f) (injective' : Function.Injective g)
    (leads : ∀ name ∈ names, f name ∈ things ∨ g name ∈ things) : names.length ≤ 2 * things.length := by
  classical
  have first : (names.filter (f · ∈ things)).length ≤ things.length := by
    rw [← List.length_map f]
    refine ((nodup.filter _).map injective).length_le_of_subset fun thing found => ?_
    obtain ⟨name, kept, rfl⟩ := List.mem_map.mp found
    simpa using (List.mem_filter.mp kept).2
  have second : (names.filter fun name => !decide (f name ∈ things)).length ≤ things.length := by
    rw [← List.length_map g]
    refine ((nodup.filter _).map injective').length_le_of_subset fun thing found => ?_
    obtain ⟨name, kept, rfl⟩ := List.mem_map.mp found
    obtain ⟨inside, other⟩ := List.mem_filter.mp kept
    exact (leads name inside).resolve_left (by simpa using other)
  have all := List.length_eq_length_filter_add (l := names) (fun name => decide (f name ∈ things))
  omega

namespace FileStore

/-- A template that can be read is a file that its name leads to, or its name with the extension. -/
theorem join?_of_path? {store : FileStore} {name path : String} (named : store.path? name = some path) :
    Path.join? store.root name = some path ∨
      Path.join? store.root (name ++ "." ++ store.extension.getD "") = some path := by
  unfold path? at named
  split at named
  · rename_i extension given
    rw [given, Option.getD_some]
    split at named
    · exact .inl named
    · exact .inr named
  · exact .inl named

theorem leads_to_file {store : FileStore} {name path text : String} {inner : FileNode} {outer : List FileNode}
    (joined : Path.join? store.root name = some path) (read : store.tree.read path = .ok text)
    (below : ∀ rest, store.tree.root.follow [] (Path.front store.root ++ rest) = inner.follow outer rest) :
    Path.segments name ∈ inner.paths := by
  obtain ⟨bytes, reached⟩ := FileTree.follow_of_read read
  rw [Path.pieces_join? joined, below] at reached
  exact FileNode.mem_paths_of_follow (Path.plain_of_join? joined) reached

theorem length_le_of_read {store : FileStore} {names : List String} (nodup : names.Nodup)
    (readable : ∀ name ∈ names, ∃ source, store.read name = .ok (some source)) :
    names.length ≤ 2 * store.tree.root.fileCount := by
  have joined : ∀ name ∈ names, ∃ path text, store.path? name = some path ∧ store.tree.read path = .ok text := by
    intro name found
    obtain ⟨source, read⟩ := readable name found
    unfold FileStore.read at read
    split at read
    · cases read
    · rename_i path named
      split at read
      · rename_i text there
        exact ⟨path, text, named, there⟩
      · cases read
      · cases read
  have size : ∀ n ∈ [store.tree.root], n.fileCount ≤ store.tree.root.fileCount := by
    intro n found
    exact Nat.le_of_eq (congrArg FileNode.fileCount (List.mem_singleton.mp found))
  obtain ⟨outer, inner, small, below⟩ | nowhere := FileNode.follow_append (Path.front store.root) size
  · have injective : Function.Injective Path.segments := fun _ _ => Text.pieces_injective
    have injective' : Function.Injective fun name => Path.segments (name ++ "." ++ store.extension.getD "") := by
      intro a b same
      have extended := Text.pieces_injective same
      rwa [String.append_left_inj, String.append_left_inj] at extended
    have ways : names.length ≤ 2 * inner.paths.length := by
      refine length_le_of_two_ways nodup injective injective' fun name found => ?_
      obtain ⟨path, text, named, read⟩ := joined name found
      cases join?_of_path? named with
      | inl bare => exact .inl (leads_to_file bare read below)
      | inr extended => exact .inr (leads_to_file extended read below)
    rw [FileNode.length_paths] at ways
    omega
  · -- the root is no directory, so that nothing can be read
    cases names with
    | nil => exact Nat.zero_le _
    | cons name names =>
      obtain ⟨path, text, named, read⟩ := joined name List.mem_cons_self
      have broken : ∀ name, Path.join? store.root name = some path → False := by
        intro name joins
        obtain ⟨bytes, reached⟩ := FileTree.follow_of_read read
        rw [Path.pieces_join? joins] at reached
        cases parts : Path.segments name with
        | nil => exact absurd parts (Path.segments_ne_nil name)
        | cons segment rest =>
          obtain ⟨problem, fails⟩ := nowhere segment rest
          rw [parts, fails] at reached
          cases reached
      cases join?_of_path? named with
      | inl bare => exact (broken _ bare).elim
      | inr extended => exact (broken _ extended).elim

end FileStore

/-- Names that a table has entries for are no more than its entries. -/
theorem Table.length_le_of_get? {α : Type} {table : Table α} {names : List String} (nodup : names.Nodup)
    (present : ∀ name ∈ names, ∃ a, table.get? name = some a) : names.length ≤ table.entries.length := by
  rw [← List.length_map Prod.fst]
  refine nodup.length_le_of_subset fun name found => ?_
  obtain ⟨a, there⟩ := present name found
  obtain ⟨before, after, same, -⟩ := List.lookup_eq_some_iff.mp there
  rw [same, List.map_append]
  simp

theorem Store.length_le_nameBound {store : Store} {names : List String} (nodup : names.Nodup)
    (readable : ∀ name ∈ names, ∃ source, store.read name = .ok (some source)) :
    names.length ≤ store.nameBound := by
  cases store with
  | memory store =>
    refine Table.length_le_of_get? nodup fun name found => ?_
    obtain ⟨source, read⟩ := readable name found
    exact ⟨source, Except.ok.inj read⟩
  | files store => exact FileStore.length_le_of_read nodup readable

/-- Distinct names that can all be loaded are no more than the bound of the environment. -/
theorem Environment.length_le_nameBound {env : Environment} {names : List String} (nodup : names.Nodup)
    (loadable : ∀ name ∈ names, ∃ source, env.load name = .ok source) : names.length ≤ env.nameBound := by
  have added : (names.filter fun name => (env.templates.get? name).isSome).length ≤
      env.templates.templates.entries.length := by
    refine Table.length_le_of_get? (nodup.filter _) fun name kept => ?_
    exact Option.isSome_iff_exists.mp (List.mem_filter.mp kept).2
  have stored : (names.filter fun name => !(env.templates.get? name).isSome).length ≤
      (env.store.map Store.nameBound).getD 0 := by
    have readable : ∀ name ∈ names.filter fun name => !(env.templates.get? name).isSome,
        ∃ store source, env.store = some store ∧ store.read name = .ok (some source) := by
      intro name kept
      obtain ⟨found, absent⟩ := List.mem_filter.mp kept
      obtain ⟨source, loads⟩ := loadable name found
      have missing : env.templates.get? name = none := by simpa using absent
      simp only [load, missing] at loads
      split at loads
      · cases loads
      · rename_i store given
        split at loads
        · cases loads
        · rename_i text read
          exact ⟨store, text, given, read⟩
        · cases loads
    cases given : env.store with
    | none =>
      cases kept : names.filter fun name => !(env.templates.get? name).isSome with
      | nil => exact Nat.zero_le _
      | cons name rest =>
        obtain ⟨store, -, same, -⟩ := readable name (kept ▸ List.mem_cons_self)
        rw [given] at same
        cases same
    | some store =>
      refine Store.length_le_nameBound (nodup.filter _) fun name kept => ?_
      obtain ⟨other, source, same, read⟩ := readable name kept
      obtain rfl : store = other := Option.some.inj (given.symm.trans same)
      exact ⟨source, read⟩
  have all := List.length_eq_length_filter_add (l := names) (fun name => (env.templates.get? name).isSome)
  rw [nameBound]
  omega

end TextTemplate
