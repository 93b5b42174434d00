import TextTemplate.Proofs.Fields
import TextTemplate.Value.Merge

/-!
Maps put together. All entries of all maps are gathered in one go, so it makes no difference which of the
maps are put together first.
-/
namespace TextTemplate.Value

theorem insertAll_append (fields first rest : Fields Value) :
    fields.insertAll (first ++ rest) = (fields.insertAll first).insertAll rest :=
  List.foldl_append

theorem foldl_insertAll (fields : Fields Value) (vs : List Value) :
    vs.foldl (fun fields v => fields.insertAll v.entries) fields = fields.insertAll (vs.flatMap entries) := by
  induction vs generalizing fields with
  | nil => rfl
  | cons v vs ih => rw [List.foldl_cons, ih, List.flatMap_cons, insertAll_append]

/-- A merged map holds what all maps hold, one after the other. -/
theorem mergeFields_eq (vs : List Value) : mergeFields vs = Fields.gathered (vs.flatMap entries) := by
  rw [mergeFields, foldl_insertAll, Fields.insertAll_nil]

/-- Of several maps with a name the last one counts. -/
theorem get?_merge (vs : List Value) (name : String) :
    (merge vs).entries.get? name = (vs.flatMap entries).reverse.lookup name := by
  show (mergeFields vs).get? name = _
  rw [mergeFields_eq, Fields.get?_gathered]

theorem names_merge (vs : List Value) : (merge vs).entries.names = (Fields.names (vs.flatMap entries)).eraseDups := by
  show (mergeFields vs).names = _
  rw [mergeFields_eq, Fields.names_gathered]

theorem entries_of_no_map {v : Value} (other : v.kind ≠ .map) : v.entries = [] := by
  cases v with
  | map => exact absurd rfl other
  | _ => rfl

theorem merge_append (vs ws : List Value) : merge (vs ++ ws) = merge [merge vs, merge ws] := by
  have left : Fields.insertAll [] (mergeFields vs) = mergeFields vs := by
    rw [mergeFields_eq, Fields.insertAll_gathered Fields.nodup_names_nil, Fields.insertAll_nil]
  have right : (mergeFields vs).insertAll (mergeFields ws) = (mergeFields vs).insertAll (ws.flatMap entries) := by
    rw [mergeFields_eq, mergeFields_eq, Fields.insertAll_gathered (Fields.nodup_gathered _)]
  have pair : mergeFields [merge vs, merge ws] = (Fields.insertAll [] (mergeFields vs)).insertAll (mergeFields ws) :=
    rfl
  rw [merge, merge, pair, left, right, mergeFields, List.foldl_append, foldl_insertAll _ ws]
  rfl

/-- A merged map is the union of the maps in a list. It has each of their names once, in the order in which
the names first occur in the whole list, with the value of the last occurrence; what is no map adds nothing;
and two parts of the list may be merged apart. -/
theorem merge_laws (vs ws : List Value) :
    merge vs = .map (Fields.gathered (vs.flatMap entries)) ∧
      (∀ name, name ∈ (merge vs).entries.names ↔ ∃ v ∈ vs, name ∈ v.entries.names) ∧
      (merge vs).entries.names.Nodup ∧
      (merge vs).entries.names = (Fields.names (vs.flatMap entries)).eraseDups ∧
      (∀ name, (merge vs).entries.get? name = (vs.flatMap entries).reverse.lookup name) ∧
      (∀ v : Value, v.kind ≠ .map → merge (vs ++ v :: ws) = merge (vs ++ ws)) ∧
      merge (vs ++ ws) = merge [merge vs, merge ws] := by
  have merged : (merge vs).entries = Fields.gathered (vs.flatMap entries) := mergeFields_eq vs
  refine ⟨congrArg Value.map merged, fun name => ?_, ?_, names_merge vs, get?_merge vs, fun v other => ?_,
    merge_append vs ws⟩
  · rw [names_merge, List.mem_eraseDups]
    simp only [Fields.names, List.map_flatMap, List.mem_flatMap]
  · rw [merged]
    exact Fields.nodup_gathered _
  · rw [merge, merge, mergeFields_eq, mergeFields_eq, List.flatMap_append, List.flatMap_append, List.flatMap_cons,
      entries_of_no_map other, List.nil_append]

/-- Two maps with names in common, and a number between them. -/
theorem merge_laws_overlap :
    let first : Value := .map [("a", .int 1), ("b", .int 2)]
    let second : Value := .map [("b", .int 3), ("c", .int 4), ("a", .int 5)]
    (Value.int 7).kind ≠ .map ∧
      merge [first, .int 7, second] = .map [("a", .int 5), ("b", .int 3), ("c", .int 4)] ∧
      merge [first, second] = merge [merge [first], merge [second]] := by
  intro first second
  have other : (Value.int 7).kind ≠ .map := by decide
  obtain ⟨-, -, -, -, -, added, parts⟩ := merge_laws [first] [second]
  have union : merge [first, second] = .map [("a", .int 5), ("b", .int 3), ("c", .int 4)] := by rfl
  exact ⟨other, (added (.int 7) other).trans union, parts⟩

end TextTemplate.Value
