import Mathlib.Data.String.Basic
import TextTemplate.Environment
import TextTemplate.Proofs.Fields
import TextTemplate.Proofs.Store.Path
import TextTemplate.Proofs.Store.Replacement
import TextTemplate.Proofs.Tables

/-!
The templates next to a missing one. What a store lists for a name stands in the directory of the name. Behind
the same directory a store in memory finds it again; a store of files does so where it would look for the very
file that is listed. Those that are listed for an environment are sorted.
-/
namespace TextTemplate

namespace Table

end Table

namespace Path

end Path

/-- The name that an entry of a directory can have: it is one segment, without a NUL, and that of a file has no
backslash. -/
structure FileNode.Names (name : String) (node : FileNode) : Prop where
  plain : Path.Plain name
  spelled : '\x00' ∉ name.toList
  forward : node.isFile = true → '\\' ∉ name.toList

instance (name : String) (node : FileNode) : Decidable (node.Names name) :=
  decidable_of_iff
    ((name ≠ "" ∧ name ≠ "." ∧ name ≠ ".." ∧ '/' ∉ name.toList) ∧ '\x00' ∉ name.toList ∧
      (node.isFile = true → '\\' ∉ name.toList))
    ⟨fun ⟨⟨nonempty, undotted, forward, single⟩, spelled, plain⟩ =>
      ⟨⟨nonempty, undotted, forward, single⟩, spelled, plain⟩,
    fun ⟨⟨nonempty, undotted, forward, single⟩, spelled, plain⟩ =>
      ⟨⟨nonempty, undotted, forward, single⟩, spelled, plain⟩⟩

/-- A tree whose directories have their entries under different names, and under such that they can have. -/
inductive FileNode.Proper : FileNode → Prop
  | file (bytes : List UInt8) : Proper (.file bytes)
  | directory {entries : List (String × FileNode)} (distinct : (entries.map Prod.fst).Nodup)
    (named : ∀ entry ∈ entries, entry.2.Names entry.1) (inside : ∀ entry ∈ entries, Proper entry.2) :
    Proper (.directory entries)

namespace FileNode

variable {root node : FileNode}

theorem Proper.single {name : String} (named : node.Names name) (inside : node.Proper) :
    Proper (.directory [(name, node)]) :=
  .directory (List.nodup_singleton name) (List.forall_mem_singleton.mpr named) (List.forall_mem_singleton.mpr inside)

theorem Proper.at? (proper : root.Proper) {names : List String} (leads : root.at? names = some node) : node.Proper := by
  induction names generalizing root with
  | nil => exact Option.some.inj leads ▸ proper
  | cons name names ih =>
    obtain ⟨child, found, behind⟩ := Option.bind_eq_some_iff.mp leads
    cases proper with
    | file bytes => cases found
    | directory distinct named inside =>
      obtain ⟨before, after, rfl, -⟩ := List.lookup_eq_some_iff.mp found
      exact ih (inside (name, child) (List.mem_append_right _ List.mem_cons_self)) behind

end FileNode

namespace FileTree

open FileNode TextTemplate.Path

variable {tree : FileTree} {directory name : String} {node inner : FileNode}

end FileTree

namespace FileStore

open TextTemplate.Path

variable {store : FileStore} {name sibling : String}

end FileStore

end TextTemplate
