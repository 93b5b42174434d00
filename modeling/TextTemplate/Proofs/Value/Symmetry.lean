import Mathlib.Data.List.Perm.Subperm
import Mathlib.Logic.Relation
import TextTemplate.Proofs.Value.Keyed

/-!
Equality of values from either side. A map is compared by its length and by looking up each of its names
in the other map. Since a map has each name once, two maps of one length that agree so far have the same
names, so the comparison gives the same answer from the other side and in any order of the entries.
-/
namespace TextTemplate.Value

variable {a b c : Value}

/-- No number in a value is none. -/
def NaNFree (v : Value) : Prop :=
  ¬Within (.float .nan) v

/-- One change that equality does not see: somewhere in a value the entries of a map come in another
order, or an absent value stands for another one. -/
inductive Rearranged : Value → Value → Prop
  | order {entries others : List (String × Value)} (permuted : entries.Perm others) :
    Rearranged (.map entries) (.map others)
  | absent {a b : Value} (left : a.isAbsent = true) (right : b.isAbsent = true) : Rearranged a b
  | item {a b : Value} (before after : List Value) (inside : Rearranged a b) :
    Rearranged (.seq (before ++ a :: after)) (.seq (before ++ b :: after))
  | entry {a b : Value} (before after : List (String × Value)) (name : String) (inside : Rearranged a b) :
    Rearranged (.map (before ++ (name, a) :: after)) (.map (before ++ (name, b) :: after))

section Symmetry

theorem sameNumber_comm (a b : Value) : sameNumber a b = sameNumber b a := by
  rw [Bool.eq_iff_iff]
  by_cases integers : AreIntegers a b
  · obtain ⟨i, j, rfl, rfl⟩ := integers
    rw [sameNumber_int, sameNumber_int, eq_comm]
  · have swapped : ¬AreIntegers b a := fun ⟨j, i, right, left⟩ => integers ⟨i, j, left, right⟩
    rw [sameNumber_iff_place? integers, sameNumber_iff_place? swapped]
    exact exists_congr fun p => and_comm

theorem same_symm_simple (seq : a.kind ≠ .seq) (map : a.kind ≠ .map) (equal : a.same b = true) : b.same a = true := by
  cases a with
  | undefined | none =>
    rw [same_absent rfl] at equal
    exact same_absent equal _
  | bool =>
    rw [same_bool] at equal
    exact equal ▸ same_bool.mpr rfl
  | str =>
    rw [same_str] at equal
    exact equal ▸ same_str.mpr rfl
  | int | float =>
    rw [same_number rfl] at equal
    rw [same_number (kinds_of_sameNumber equal).2, sameNumber_comm]
    exact equal
  | seq => exact absurd rfl seq
  | map => exact absurd rfl map

/-- A map that is found in another one of its length has all the names of that. -/
theorem names_of_same_map {as bs : List (String × Value)} (once : (as.map Prod.fst).Nodup)
    (length : as.length = bs.length)
    (found : ∀ entry ∈ as, ∃ b, bs.lookup entry.1 = some b ∧ entry.2.same b = true) {name : String}
    (member : name ∈ bs.map Prod.fst) : name ∈ as.map Prod.fst := by
  have inside : as.map Prod.fst ⊆ bs.map Prod.fst := by
    intro _ named
    obtain ⟨entry, inA, rfl⟩ := List.mem_map.mp named
    obtain ⟨b, other, -⟩ := found entry inA
    exact List.mem_map.mpr ⟨_, mem_of_lookup other, rfl⟩
  have permuted := (List.subperm_of_subset once inside).perm_of_length_le (by simp [length])
  exact permuted.mem_iff.mpr member

theorem same_symm (left : a.Keyed) (right : b.Keyed) (equal : a.same b = true) : b.same a = true := by
  induction a using Value.induction generalizing b with
  | simple a seq map => exact same_symm_simple seq map equal
  | seq as ih =>
    obtain ⟨bs, rfl, items⟩ := same_seq.mp equal
    refine same_seq.mpr ⟨as, rfl, ?_⟩
    obtain ⟨length, items⟩ := List.forall₂_iff_get.mp items
    refine List.forall₂_iff_get.mpr ⟨length.symm, fun n inB inA => ?_⟩
    exact ih _ (List.getElem_mem inA) (left.item (List.getElem_mem inA)) (right.item (List.getElem_mem inB))
      (items n inA inB)
  | map as ih =>
    obtain ⟨bs, rfl, length, found⟩ := same_map.mp equal
    refine same_map.mpr ⟨as, rfl, length.symm, fun (name, b) inB => ?_⟩
    -- the name of each entry on the right stands on the left, where it was looked up from
    obtain ⟨⟨_, a⟩, inA, rfl⟩ :=
      List.mem_map.mp (names_of_same_map left.names length found (List.mem_map_of_mem inB))
    obtain ⟨other, foundB, equal⟩ := found _ inA
    obtain rfl : other = b := Option.some.inj (foundB.symm.trans (lookup_of_mem right.names inB))
    exact ⟨a, lookup_of_mem left.names inA, ih _ inA (left.entry inA) (right.entry inB) equal⟩

theorem same_comm (left : a.Keyed) (right : b.Keyed) : a.same b = b.same a :=
  Bool.eq_iff_iff.mpr ⟨same_symm left right, same_symm right left⟩

end Symmetry

section Reflexivity

theorem sameNumber_self (number : a.kind = .number) (nanFree : a ≠ .float .nan) : sameNumber a a = true := by
  cases a with
  | int => exact sameNumber_int.mpr rfl
  | float x =>
    refine (sameNumber_iff_place? (by rintro ⟨_, _, ⟨⟩, -⟩)).mpr ?_
    cases x with
    | nan => exact absurd rfl nanFree
    | infinite | finite => exact ⟨_, rfl, rfl⟩
  | _ => cases number

theorem same_self (keyed : a.Keyed) (nanFree : a.NaNFree) : a.same a = true := by
  induction a using Value.induction with
  | simple a seq map =>
    cases a with
    | undefined | none => exact same_absent rfl _
    | bool => exact same_bool.mpr rfl
    | str => exact same_str.mpr rfl
    | int | float =>
      rw [same_number rfl]
      exact sameNumber_self rfl fun same => nanFree (same ▸ .itself)
    | seq => exact absurd rfl seq
    | map => exact absurd rfl map
  | seq items ih =>
    refine same_seq.mpr ⟨items, rfl, List.forall₂_same.mpr fun item member => ?_⟩
    exact ih item member (keyed.item member) fun within => nanFree (.item member within)
  | map entries ih =>
    refine same_map.mpr ⟨entries, rfl, rfl, fun entry member => ⟨entry.2, lookup_of_mem keyed.names member, ?_⟩⟩
    exact ih entry member (keyed.entry member) fun within => nanFree (.entry member within)

end Reflexivity

section Rearrangement

theorem sameItems_congr (equal : ∀ c : Value, a.same c = b.same c) (before after cs : List Value) :
    sameItems (before ++ a :: after) cs = sameItems (before ++ b :: after) cs := by
  induction before generalizing cs with
  | nil =>
    cases cs with
    | nil => rfl
    | cons c cs => simp only [List.nil_append, sameItems, equal]
  | cons first before ih =>
    cases cs with
    | nil => rfl
    | cons c cs => simp only [List.cons_append, sameItems, ih]

theorem sameEntries_congr (equal : ∀ c : Value, a.same c = b.same c) (before after cs : List (String × Value))
    (name : String) :
    sameEntries (before ++ (name, a) :: after) cs = sameEntries (before ++ (name, b) :: after) cs := by
  induction before with
  | nil => simp only [List.nil_append, sameEntries, equal]
  | cons first before ih => simp only [List.cons_append, sameEntries, ih]

theorem sameEntries_perm {as bs : List (String × Value)} (permuted : as.Perm bs) (cs : List (String × Value)) :
    sameEntries as cs = sameEntries bs cs := by
  rw [Bool.eq_iff_iff, sameEntries_iff, sameEntries_iff]
  exact forall_congr' fun entry => imp_congr_left permuted.mem_iff

theorem same_of_maps {as bs : List (String × Value)} (length : as.length = bs.length)
    (entries : ∀ cs, sameEntries as cs = sameEntries bs cs) (c : Value) :
    (Value.map as).same c = (Value.map bs).same c := by
  cases c with
  | map cs => simp only [same, length, entries]
  | _ => rfl

/-- A change that equality does not see on its left side. -/
theorem Rearranged.same (changed : Rearranged a b) (c : Value) : a.same c = b.same c := by
  induction changed generalizing c with
  | order permuted => exact same_of_maps permuted.length_eq (sameEntries_perm permuted) c
  | absent left right => rw [same_absent left, same_absent right]
  | item before after _ ih =>
    cases c with
    | seq cs => simp only [Value.same, sameItems_congr ih]
    | _ => rfl
  | entry before after name _ ih =>
    refine same_of_maps ?_ (fun cs => sameEntries_congr ih before after cs name) c
    simp only [List.length_append, List.length_cons]

/-- Any number of such changes, one after the other. -/
theorem same_rearranged (changed : Relation.ReflTransGen Rearranged a b) (c : Value) : a.same c = b.same c := by
  induction changed with
  | refl => rfl
  | tail _ last ih => exact ih.trans (last.same c)

end Rearrangement

/-- Equality of values, of any nesting, is symmetric, reflexive where no number is none, and blind to the
order of the entries of maps and to which absent value stands somewhere. -/
theorem same_laws :
    (∀ a b : Value, a.Keyed → b.Keyed → a.same b = b.same a) ∧
      (∀ a : Value, a.Keyed → a.NaNFree → a.same a = true) ∧
      ∀ a changed b : Value, Relation.ReflTransGen Rearranged a changed → changed.same b = a.same b :=
  ⟨fun _ _ => same_comm, fun _ => same_self, fun _ _ b changed => (same_rearranged changed b).symm⟩

theorem same_laws_nested :
    (Keyed (.seq [.map [("k", .int 2), ("l", .undefined)]]) ∧
        Keyed (.seq [.map [("l", .none), ("k", .float (.ofInt 2))]]) ∧
        (Value.seq [.map [("k", .int 2), ("l", .undefined)]]).same
            (.seq [.map [("l", .none), ("k", .float (.ofInt 2))]]) =
          (Value.seq [.map [("l", .none), ("k", .float (.ofInt 2))]]).same
            (.seq [.map [("k", .int 2), ("l", .undefined)]])) ∧
      (NaNFree (.seq [.map [("k", .int 2), ("l", .undefined)]]) ∧
        (Value.seq [.map [("k", .int 2), ("l", .undefined)]]).same
          (.seq [.map [("k", .int 2), ("l", .undefined)]]) = true) ∧
      Relation.ReflTransGen Rearranged (.seq [.map [("k", .int 2), ("l", .undefined)]])
        (.seq [.map [("l", .none), ("k", .int 2)]]) ∧
      (Value.seq [.map [("l", .none), ("k", .int 2)]]).same (.seq [.map [("l", .none), ("k", .float (.ofInt 2))]]) =
        (Value.seq [.map [("k", .int 2), ("l", .undefined)]]).same
          (.seq [.map [("l", .none), ("k", .float (.ofInt 2))]]) := by
  have keyed : Keyed (.seq [.map [("k", .int 2), ("l", .undefined)]]) :=
    .of_items (List.forall_mem_singleton.mpr
      (.insert (.of_entry "k" (.of_simple (by decide) (by decide))) "l" (.of_simple (by decide) (by decide))))
  have keyed' : Keyed (.seq [.map [("l", .none), ("k", .float (.ofInt 2))]]) :=
    Datum.value_keyed (.seq [.map [(.text "l", .absent), (.text "k", .real (.ofInt 2))]]) rfl
  have nanFree : NaNFree (.seq [.map [("k", .int 2), ("l", .undefined)]]) := by
    rintro (_ | ⟨member, within⟩)
    obtain rfl := List.mem_singleton.mp member
    obtain _ | _ | ⟨member, within⟩ := within
    obtain rfl | member := List.mem_cons.mp member
    · cases within
    · obtain rfl := List.mem_singleton.mp member
      cases within
  have absent : Rearranged (.seq [.map [("k", .int 2), ("l", .undefined)]])
      (.seq [.map [("k", .int 2), ("l", .none)]]) :=
    .item [] [] (.entry [("k", .int 2)] [] "l" (.absent rfl rfl))
  have ordered : Rearranged (.seq [.map [("k", .int 2), ("l", .none)]]) (.seq [.map [("l", .none), ("k", .int 2)]]) :=
    .item [] [] (.order (.swap _ _ []))
  have changed := Relation.ReflTransGen.tail (.single absent) ordered
  exact ⟨⟨keyed, keyed', same_laws.1 _ _ keyed keyed'⟩, ⟨nanFree, same_laws.2.1 _ keyed nanFree⟩, changed,
    same_laws.2.2 _ _ _ changed⟩

end TextTemplate.Value
