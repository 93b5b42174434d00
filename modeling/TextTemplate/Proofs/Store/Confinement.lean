import TextTemplate.Proofs.Store.Path
import TextTemplate.Store.Files

/-!
A store of files is confined to its root. Whatever the name, what it describes, finds and reads is below the
root, and what is elsewhere makes no difference.
-/
namespace TextTemplate

namespace FileNode

/-- Without two dots it makes no difference what is around a directory. -/
theorem follow_forward {above others : List FileNode} {node : FileNode} {path : List String} (forward : ".." ∉ path) :
    follow above node path = follow others node path := by
  induction path generalizing above others node with
  | nil => rfl
  | cons segment path ih =>
    obtain ⟨here, forward⟩ := not_or.mp (mt List.mem_cons.mpr forward)
    simp only [follow, if_neg (Ne.symm here)]
    split
    · rfl
    split
    · exact ih forward
    split
    · rfl
    · exact ih forward

end FileNode

namespace FileStore

open TextTemplate.Path

variable {store : FileStore} {name path : String}

/-- Wherever a template is looked for, with the extension or without, is below the root. -/
theorem below_of_path? (named : store.path? name = some path) : Below store.root path := by
  unfold path? at named
  split at named
  · split at named
    · exact below_of_join? named
    · exact below_of_join? named
  · exact below_of_join? named

/-- What is not below the root makes no difference. -/
theorem has_read_congr {tree : FileTree} (same : ∀ path, Below store.root path → tree.node? path = store.tree.node? path) :
    FileStore.has { store with tree } name = store.has name ∧ FileStore.read { store with tree } name = store.read name := by
  have names : FileStore.path? { store with tree } name = store.path? name := rfl
  unfold has read
  rw [names]
  cases named : store.path? name with
  | none => exact ⟨rfl, rfl⟩
  | some path =>
    have there := same path (below_of_path? named)
    simp only [FileTree.isFile, FileTree.read, there, and_self]

theorem describe_of_path? (named : store.path? name = some path) : store.describe name = path := by
  rw [describe, named, Option.getD_some]

theorem unused_of_path? (named : store.path? name = none) :
    store.has name = false ∧ store.read name = .ok none ∧
      store.describe name = name ++ " (invalid template name)" := by
  simp only [has, read, describe, named, Option.getD_none, and_self]

/-- Names cannot leave a store. A name is joined segment by segment, unless one of its segments is empty, starts
with a dot or has a backslash; then the path is the base, a separator if the base is not empty and has none at
its end, and the name as it is. The steps of the path are those of the base and then the segments, of which
none is a dot or two or starts at the root, so that different names have different paths. A store of files
describes, finds and reads nothing that is not below its root: whatever else there is makes no difference. -/
theorem path?_confined (base name : String) :
    join? base name = pushAll? base (segments name) ∧
      (join? base name = none ↔
        ∃ segment ∈ segments name, segment = "" ∨ segment.startsWith '.' = true ∨ '\\' ∈ segment.toList) ∧
      (∀ path, join? base name = some path →
        path = base ++ (if base = "" ∨ base.endsWith '/' = true then "" else "/") ++ name ∧
          components path = components base ++ (segments name).map .name ∧
          ∀ segment ∈ segments name, segment ≠ "." ∧ segment ≠ ".." ∧ segment.startsWith '/' = false) ∧
      (∀ other path path', join? base name = some path → join? base other = some path' → name ≠ other →
        path ≠ path' ∧ components path ≠ components path') ∧
      ∀ store : FileStore,
        (store.path? name = none → store.has name = false ∧ store.read name = .ok none ∧
            store.describe name = name ++ " (invalid template name)") ∧
          (∀ path, store.path? name = some path → store.describe name = path ∧ Below store.root path) ∧
          ∀ tree : FileTree, (∀ path, Below store.root path → tree.node? path = store.tree.node? path) →
            FileStore.has { store with tree } name = store.has name ∧
              FileStore.read { store with tree } name = store.read name := by
  refine ⟨join?_eq_pushAll? base name, join?_eq_none_iff, ?_, ?_, ?_⟩
  · intro path joined
    refine ⟨?_, components_join? joined, ?_⟩
    · obtain ⟨-, rfl⟩ := join?_eq_some_iff.mp joined
      rw [child]
      by_cases ready : base = "" ∨ base.endsWith '/' = true
      · rw [if_pos ready, if_pos (by simpa [String.isEmpty_iff] using ready), String.append_empty]
      · rw [if_neg ready, if_neg (by simpa [String.isEmpty_iff] using ready)]
    · intro segment found
      have plain := plain_of_join? joined segment found
      refine ⟨plain.undotted, plain.forward, Bool.eq_false_iff.mpr ?_⟩
      intro absolute
      rw [String.startsWith_char_eq_head?, beq_iff_eq] at absolute
      exact plain.single (List.mem_of_head? absolute)
  · intro other path path' joined joined' distinct
    have apart : components path ≠ components path' := by
      rw [components_join? joined, components_join? joined']
      intro same
      have names : segments name = segments other :=
        List.map_injective_iff.mpr (fun _ _ => Component.name.inj) (List.append_cancel_left same)
      exact distinct (Text.pieces_injective names)
    constructor
    · intro same
      exact apart (congrArg components same)
    · exact apart
  · intro store
    refine ⟨unused_of_path?, ?_, ?_⟩
    · intro path named
      exact ⟨describe_of_path? named, below_of_path? named⟩
    · intro tree same
      exact has_read_congr same

/-- Two stores that differ outside of their root, and a name that would lead there. -/
theorem path?_confined_views :
    let home : FileNode := .directory [("views", .directory [("home.tpl", .file [104])])]
    let wider : FileNode := .directory [("secret.tpl", .file [115]), ("views", .directory [("home.tpl", .file [104])])]
    let store : FileStore := ⟨"views/", some "tpl", ⟨wider⟩⟩
    (join? "views/" "a/b" = some "views/a/b" ∧ components "views/a/b" = components "views/" ++ [.name "a", .name "b"]) ∧
      (join? "views/" "a/c" = some "views/a/c" ∧ components "views/a/b" ≠ components "views/a/c") ∧
      (store.path? "../secret" = none ∧ store.has "../secret" = false) ∧
      (store.path? "home" = some "views/home.tpl" ∧ Below "views/" "views/home.tpl") ∧
      (∀ path, Below "views/" path → FileTree.node? ⟨home⟩ path = store.tree.node? path) ∧
      FileStore.has { store with tree := ⟨home⟩ } "home" = store.has "home" := by
  intro home wider store
  have joined : join? "views/" "a/b" = some "views/a/b" := by decide +kernel
  have joined' : join? "views/" "a/c" = some "views/a/c" := by decide +kernel
  have outside : store.path? "../secret" = none := by decide +kernel
  have named : store.path? "home" = some "views/home.tpl" := by decide +kernel
  have alike (path : String) (below : Below "views/" path) :
      FileTree.node? ⟨home⟩ path = store.tree.node? path := by
    obtain ⟨names, -, steps⟩ := below
    have base : components "views/" = [.name "views"] := by decide +kernel
    obtain ⟨rest, parts, forward⟩ := pieces_of_components (base ▸ steps)
    have inside : home.follow [] ("views" :: rest) = wider.follow [] ("views" :: rest) :=
      FileNode.follow_forward forward
    rw [FileTree.node?, FileTree.node?, parts]
    exact congrArg _ (congrArg _ inside)
  obtain ⟨-, -, text, apart, -⟩ := path?_confined "views/" "a/b"
  have steps := (text _ joined).2.1
  exact ⟨⟨joined, steps⟩, ⟨joined', (apart _ _ _ joined joined' (by decide)).2⟩,
    ⟨outside, (((path?_confined "views/" "../secret").2.2.2.2 store).1 outside).1⟩,
    ⟨named, (((path?_confined "views/" "home").2.2.2.2 store).2.1 _ named).2⟩, alike,
    (((path?_confined "views/" "home").2.2.2.2 store).2.2 _ alike).1⟩

end FileStore

end TextTemplate
