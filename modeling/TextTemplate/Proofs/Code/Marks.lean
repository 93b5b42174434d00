import Mathlib.Data.List.Induction
import TextTemplate.Code.Listing

/-!
The marks of a listing. Neighbours of one origin share a mark, some instructions are added without an
origin, and the mark that holds for an instruction is searched by halving. Main statement: what is
looked up for an instruction is what the last addition up to it gave, whatever is added behind it.
-/
namespace TextTemplate

/-- Where a condition holds of just the first elements, filtering is taking them. -/
theorem filter_eq_take {p : α → Bool} {xs : List α} {n : Nat}
    (front : ∀ (i : Nat) (inside : i < xs.length), p xs[i] = true ↔ i < n) : xs.filter p = xs.take n := by
  have taken : (xs.take n).filter p = xs.take n := by
    refine List.filter_eq_self.mpr fun x found => ?_
    obtain ⟨i, bound, rfl⟩ := List.mem_take_iff_getElem.mp found
    exact (front i (by omega)).mpr (by omega)
  have dropped : (xs.drop n).filter p = [] := by
    refine List.filter_eq_nil_iff.mpr fun x found => ?_
    obtain ⟨i, bound, rfl⟩ := List.mem_drop_iff_getElem.mp found
    exact mt (front (n + i) (by omega)).mp (by omega)
  calc xs.filter p = (xs.take n ++ xs.drop n).filter p := by rw [List.take_append_drop]
    _ = xs.take n := by rw [List.filter_append, taken, dropped, List.append_nil]

/-- How many marks start at the index that is searched or before it. -/
def MarkPlace.count : MarkPlace → Nat
  | .found place => place + 1
  | .missing place => place

namespace OriginMark

variable {marks : Array OriginMark} {index low high : Nat}

/-- The marks stand in the order of where they start, and no two start at the same instruction. -/
def Ordered (marks : Array OriginMark) : Prop :=
  marks.toList.Pairwise fun a b => a.first < b.first

theorem Ordered.lt (ordered : Ordered marks) {i j : Nat} (before : i < j) (inside : j < marks.size) :
    marks[i].first < marks[j].first :=
  List.pairwise_iff_getElem.mp ordered i j (by simp; omega) inside before

theorem Ordered.le_iff (ordered : Ordered marks) {i j : Nat} (inside : i < marks.size) {inside' : j < marks.size} :
    marks[i].first ≤ marks[j].first ↔ i ≤ j := by
  rcases Nat.lt_trichotomy i j with before | rfl | behind
  · have := ordered.lt before inside'
    omega
  · simp
  · have := ordered.lt behind inside
    omega

/-- The first `n` marks start at the index or before it, the others behind it. -/
structure Splits (marks : Array OriginMark) (index n : Nat) : Prop where
  within : n ≤ marks.size
  front : ∀ (i : Nat) (inside : i < marks.size), marks[i].first ≤ index ↔ i < n

/-- What is known of the marks outside of the stretch that is searched is kept by halving it. -/
theorem search_splits (ordered : Ordered marks) (within : high ≤ marks.size) (nonempty : low ≤ high)
    (before : ∀ (i : Nat) (inside : i < marks.size), i < low → marks[i].first < index)
    (behind : ∀ (i : Nat) (inside : i < marks.size), high ≤ i → index < marks[i].first) :
    Splits marks index (search marks index low high within).count := by
  fun_induction search marks index low high within with
  | case1 low high within bound middle less ih =>
    have less := Nat.compare_eq_lt.mp less
    refine ih (by omega) (fun i inside front => ?_) behind
    exact Nat.lt_of_le_of_lt ((ordered.le_iff inside).mpr (Nat.le_of_lt_succ front)) less
  | case2 low high within bound middle same =>
    refine ⟨by simp only [MarkPlace.count]; omega, fun i inside => ?_⟩
    rw [← Nat.compare_eq_eq.mp same, ordered.le_iff inside, MarkPlace.count, Nat.lt_succ_iff]
  | case3 low high within bound middle more ih =>
    have more := Nat.compare_eq_gt.mp more
    refine ih (by omega) before fun i inside back => ?_
    exact Nat.lt_of_lt_of_le more ((ordered.le_iff (by omega)).mpr back)
  | case4 low high within bound =>
    refine ⟨by simp only [MarkPlace.count]; omega, fun i inside => ?_⟩
    rw [MarkPlace.count]
    rcases Nat.lt_or_ge i low with front | back
    · exact iff_of_true (Nat.le_of_lt (before i inside front)) front
    · exact iff_of_false (Nat.not_le_of_gt (behind i inside (by omega))) (Nat.not_lt_of_ge back)

end OriginMark

namespace Listing

variable {listing : Listing} {instruction : Instruction} {origin : Origin} {index : Nat}

/-- The mark that the search ends at is the last one that starts at the index or before it. -/
theorem mark?_eq (ordered : OriginMark.Ordered listing.marks) :
    listing.mark? index = (listing.marks.toList.filter fun mark => mark.first ≤ index).getLast? := by
  have splits : OriginMark.Splits listing.marks index _ :=
    OriginMark.search_splits ordered (Nat.le_refl _) (Nat.zero_le _)
      (fun _ _ front => absurd front (Nat.not_lt_zero _)) fun _ inside back => absurd inside (Nat.not_lt_of_ge back)
  have counted (place : Nat) (within : place < listing.marks.size) :
      (listing.marks.toList.take (place + 1)).getLast? = listing.marks[place]? := by
    rw [List.getLast?_take, if_neg (Nat.succ_ne_zero _), Nat.add_sub_cancel]
    simp [within]
  rw [filter_eq_take (n := (OriginMark.search listing.marks index 0 listing.marks.size (Nat.le_refl _)).count)
    fun i inside => by simpa using splits.front i inside]
  unfold mark?
  split
  · rename_i place found
    rw [found] at splits ⊢
    exact (counted place splits.within).symm
  · rename_i found
    rw [found]
    simp [MarkPlace.count]
  · rename_i place found
    rw [found] at splits ⊢
    exact (counted place splits.within).symm

/-- Marks are ordered and start at instructions that are there. -/
structure Marked (listing : Listing) : Prop where
  ordered : OriginMark.Ordered listing.marks
  inside : ∀ mark ∈ listing.marks.toList, mark.first < listing.size

theorem marked_empty : ({} : Listing).Marked :=
  ⟨by simp [OriginMark.Ordered], by simp⟩

@[simp]
theorem size_add : (listing.add instruction).size = listing.size + 1 := by
  simp [add, size]

@[simp]
theorem size_addAt : (listing.addAt instruction origin).size = listing.size + 1 := by
  simp [addAt, size]

theorem Marked.add (marked : listing.Marked) : (listing.add instruction).Marked :=
  ⟨marked.ordered, fun mark found => by
    rw [size_add]
    exact Nat.lt_succ_of_lt (marked.inside mark found)⟩

/-- An addition with an origin needs no mark behind one of the same origin. -/
theorem addAt_marks (listing : Listing) (instruction : Instruction) (origin : Origin) :
    (listing.addAt instruction origin).marks = listing.marks ∧
        listing.marks.toList.getLast?.map (·.origin) = some origin ∨
      (listing.addAt instruction origin).marks = listing.marks.push ⟨listing.size, origin⟩ := by
  unfold addAt
  dsimp only
  split
  · rename_i same
    exact .inl ⟨rfl, by simpa using same⟩
  · exact .inr rfl

theorem Marked.addAt (marked : listing.Marked) : (listing.addAt instruction origin).Marked := by
  have grown (mark : OriginMark) (found : mark ∈ listing.marks.toList) : mark.first < listing.size + 1 :=
    Nat.lt_succ_of_lt (marked.inside mark found)
  rcases addAt_marks listing instruction origin with ⟨same, -⟩ | pushed
  · refine ⟨same ▸ marked.ordered, fun mark found => ?_⟩
    rw [size_addAt]
    exact grown mark (same ▸ found)
  · refine ⟨?_, fun mark found => ?_⟩
    · rw [OriginMark.Ordered, pushed, Array.toList_push, List.pairwise_append]
      refine ⟨marked.ordered, List.pairwise_singleton _ _, fun mark found last same => ?_⟩
      obtain rfl := List.mem_singleton.mp same
      exact marked.inside mark found
    · rw [size_addAt]
      rw [pushed, Array.toList_push, List.mem_append, List.mem_singleton] at found
      rcases found with found | rfl
      · exact grown mark found
      · exact Nat.lt_succ_self _

/-- An origin holds from the instruction on that it was added with, and changes nothing in front. -/
theorem origin?_addAt (marked : listing.Marked) : (listing.addAt instruction origin).origin? index =
    if listing.size ≤ index then some origin else listing.origin? index := by
  rw [origin?, origin?, mark?_eq marked.addAt.ordered, mark?_eq marked.ordered]
  rcases addAt_marks listing instruction origin with ⟨same, last⟩ | pushed
  -- the mark is shared with the instruction in front, and all marks start in front of the new one
  · rw [same]
    split
    · rename_i behind
      rw [List.filter_eq_self.mpr, last]
      intro mark found
      simpa using Nat.le_of_lt (Nat.lt_of_lt_of_le (marked.inside mark found) behind)
    · rfl
  · rw [pushed, Array.toList_push, List.filter_append]
    split
    · rename_i behind
      simp [behind]
    · rename_i front
      simp [front]

/-- An addition to a listing, perhaps with the place that the instruction comes from. -/
inductive Addition where
  | add (instruction : Instruction)
  | addAt (instruction : Instruction) (origin : Origin)

def Addition.origin? : Addition → Option Origin
  | .add _ => none
  | .addAt _ origin => some origin

def extend (listing : Listing) : Addition → Listing
  | .add instruction => listing.add instruction
  | .addAt instruction origin => listing.addAt instruction origin

def ofAdditions (additions : List Addition) : Listing :=
  additions.foldl extend {}

/-- The origin that the last addition up to an index gave; each adds one instruction, so that its index is that of
its instruction. -/
def lastOrigin? (additions : List Addition) (index : Nat) : Option Origin :=
  ((additions.take (index + 1)).filterMap (·.origin?)).getLast?

variable {additions : List Addition} {addition : Addition}

theorem size_extend : (listing.extend addition).size = listing.size + 1 := by
  cases addition with
  | add instruction => exact size_add
  | addAt instruction origin => exact size_addAt

theorem Marked.extend (marked : listing.Marked) : (listing.extend addition).Marked := by
  cases addition with
  | add instruction => exact marked.add
  | addAt instruction origin => exact marked.addAt

theorem origin?_extend (marked : listing.Marked) : (listing.extend addition).origin? index =
    if listing.size ≤ index then addition.origin?.or (listing.origin? index) else listing.origin? index := by
  cases addition with
  | add instruction =>
    rw [Addition.origin?, Option.none_or, ite_self]
    rfl
  | addAt instruction origin => exact origin?_addAt marked

theorem ofAdditions_concat (additions : List Addition) (addition : Addition) :
    ofAdditions (additions ++ [addition]) = (ofAdditions additions).extend addition := by
  rw [ofAdditions, List.foldl_append]
  rfl

theorem size_ofAdditions (additions : List Addition) : (ofAdditions additions).size = additions.length := by
  induction additions using List.reverseRecOn with
  | nil => rfl
  | append_singleton additions addition ih =>
    rw [ofAdditions_concat, size_extend, ih, List.length_append]
    rfl

theorem marked_ofAdditions (additions : List Addition) : (ofAdditions additions).Marked := by
  induction additions using List.reverseRecOn with
  | nil => exact marked_empty
  | append_singleton additions addition ih =>
    rw [ofAdditions_concat]
    exact ih.extend

theorem lastOrigin?_append (inside : index < additions.length) (later : List Addition) :
    lastOrigin? (additions ++ later) index = lastOrigin? additions index := by
  rw [lastOrigin?, List.take_append_of_le_length inside, ← lastOrigin?]

theorem lastOrigin?_concat : lastOrigin? (additions ++ [addition]) index =
    if additions.length ≤ index then addition.origin?.or (lastOrigin? additions index)
    else lastOrigin? additions index := by
  split
  · rename_i behind
    have all : (additions ++ [addition]).take (index + 1) = additions.take (index + 1) ++ [addition] := by
      rw [List.take_of_length_le (by simpa using behind), List.take_of_length_le (by omega)]
    rw [lastOrigin?, lastOrigin?, all, List.filterMap_append]
    cases addition with
    | add instruction => simp [Addition.origin?]
    | addAt instruction origin => simp [Addition.origin?]
  · rename_i front
    exact lastOrigin?_append (by omega) _

/-- What is looked up is what was given last, also for instructions that are still to be added. -/
theorem origin?_ofAdditions (additions : List Addition) (index : Nat) :
    (ofAdditions additions).origin? index = lastOrigin? additions index := by
  induction additions using List.reverseRecOn with
  | nil => simp [ofAdditions, origin?, mark?_eq marked_empty.ordered, lastOrigin?]
  | append_singleton additions addition ih =>
    rw [ofAdditions_concat, origin?_extend (marked_ofAdditions additions), lastOrigin?_concat, size_ofAdditions, ih]

/-- The marks of a listing that is built from nothing decode to what was added: an instruction that is there has the
line and the template that the last addition up to it gave, none if there was none, and keeps them whatever is added
behind it. -/
theorem origins_last_added (additions : List Addition) :
    OriginMark.Ordered (ofAdditions additions).marks ∧ (ofAdditions additions).size = additions.length ∧
      ∀ index < (ofAdditions additions).size,
        (ofAdditions additions).line? index = (lastOrigin? additions index).map (·.line) ∧
        (ofAdditions additions).template? index = (lastOrigin? additions index).bind (·.template) ∧
        ∀ later,
          (ofAdditions (additions ++ later)).line? index = (ofAdditions additions).line? index ∧
          (ofAdditions (additions ++ later)).template? index = (ofAdditions additions).template? index := by
  refine ⟨(marked_ofAdditions additions).ordered, size_ofAdditions additions, fun index inside => ?_⟩
  refine ⟨?_, ?_, fun later => ?_⟩
  · rw [line?, origin?_ofAdditions]
  · rw [template?, origin?_ofAdditions]
  · have kept : (ofAdditions (additions ++ later)).origin? index = (ofAdditions additions).origin? index := by
      rw [origin?_ofAdditions, origin?_ofAdditions, lastOrigin?_append (by rwa [size_ofAdditions] at inside)]
    rw [line?, line?, template?, template?, kept]
    exact ⟨rfl, rfl⟩

/-- An instruction without an origin behind two of one mark, and a return to the first origin behind it. -/
theorem origins_last_added_gap :
    let layout : Origin := ⟨3, some "layout"⟩
    let additions := [.add .emit, .addAt .emit ⟨1, none⟩, .addAt .emit layout, .addAt .not layout, .add .not,
      .addAt .emit ⟨1, none⟩]
    (ofAdditions additions).line? 0 = none ∧ (ofAdditions additions).line? 4 = some 3 ∧
      (ofAdditions additions).template? 4 = some "layout" ∧ (ofAdditions additions).template? 5 = none ∧
      ∀ later, (ofAdditions (additions ++ later)).line? 4 = some 3 := by
  intro layout additions
  obtain ⟨-, size, decoded⟩ := origins_last_added additions
  have inside (index : Nat) (bound : index < 6) := decoded index (size ▸ bound)
  have line : (ofAdditions additions).line? 4 = some 3 := (inside 4 (by decide)).1
  exact ⟨(inside 0 (by decide)).1, line, (inside 4 (by decide)).2.1, (inside 5 (by decide)).2.1,
    fun later => ((inside 4 (by decide)).2.2 later).1.trans line⟩

end Listing

end TextTemplate
