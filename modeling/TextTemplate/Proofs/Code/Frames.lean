import TextTemplate.Proofs.Code.Correctness
import TextTemplate.Proofs.Code.Patching

/-!
What is on the stack at each place of the code. Code is followed once, from its end: all jumps lead
forward, so that what an instruction leaves can be compared with what is expected where it leads. Keys
of bindings are told from other values, since maps are only built of them.
-/
namespace TextTemplate

/-- What a place of the stack holds: the key of a binding or any value. -/
inductive Slot where
  | key
  | value
  deriving DecidableEq, Repr

/-- What the stack holds, the top first. -/
abbrev Frame := List Slot

namespace Instruction

/-- How many values an instruction takes from the stack. -/
def pops : Instruction → Nat
  | .emitText _ | .lookup _ | .load _ | .jump _ | .includes _ => 0
  | .member _ | .applyFilter .. | .applyDefault _ | .not | .emit | .jumpIfFalse _ | .jumpIfFalseOrPop _
  | .jumpIfTrueOrPop _ | .each .. | .embeds _ => 1
  | .eq | .ne | .lt | .lte | .gt | .gte => 2
  | .buildMap pairs => 2 * pairs

/-- How many values an instruction that does not jump leaves on the stack. -/
def pushes : Instruction → Nat
  | .lookup _ | .load _ | .member _ | .applyFilter .. | .applyDefault _ | .not | .eq | .ne | .lt | .lte | .gt | .gte
  | .buildMap _ => 1
  | .emitText _ | .emit | .each .. | .includes _ | .embeds _ | .jump _ | .jumpIfFalse _ | .jumpIfFalseOrPop _
  | .jumpIfTrueOrPop _ => 0

/-- Whether an instruction leads to the next one, whatever its operands are. -/
def isPlain : Instruction → Bool
  | .jump _ | .jumpIfFalse _ | .jumpIfFalseOrPop _ | .jumpIfTrueOrPop _ | .buildMap _ => false
  | _ => true

/-- The instructions that may follow one at `index`, and how high the stack is there. -/
def exits (index height : Nat) : Instruction → List (Nat × Nat)
  | .jump target => [(target, height)]
  | .jumpIfFalse target => [(index + 1, height - 1), (target, height - 1)]
  | .jumpIfFalseOrPop target | .jumpIfTrueOrPop target => [(index + 1, height - 1), (target, height)]
  | instruction => [(index + 1, height - instruction.pops + instruction.pushes)]

/-- How many instructions are skipped on the ways from an instruction that has its jump by distance. -/
def distances : Instruction → List Nat
  | .jump distance => [distance]
  | .jumpIfFalse distance | .jumpIfFalseOrPop distance | .jumpIfTrueOrPop distance => [0, distance]
  | _ => [0]

/-- The pairs of keys and values that a map is built of. -/
def pairSlots : Nat → Frame
  | 0 => []
  | pairs + 1 => .value :: .key :: pairSlots pairs

/-- An instruction, with its jump by distance, finds its operands in a frame, and leaves other frames
where it leads. -/
inductive Leads : Instruction → Frame → List (Nat × Frame) → Prop where
  | next {instruction : Instruction} (operands below : Frame) :
    instruction.isPlain = true → operands.length = instruction.pops →
    Leads instruction (operands ++ below) [(0, List.replicate instruction.pushes .value ++ below)]
  | key (name : String) (below : Frame) : Leads (.load (.str name)) below [(0, .key :: below)]
  | map (pairs : Nat) (below : Frame) : Leads (.buildMap pairs) (pairSlots pairs ++ below) [(0, .value :: below)]
  | jump (distance : Nat) (below : Frame) : Leads (.jump distance) below [(distance, below)]
  | jumpIfFalse (distance : Nat) (slot : Slot) (below : Frame) :
    Leads (.jumpIfFalse distance) (slot :: below) [(0, below), (distance, below)]
  | jumpIfFalseOrPop (distance : Nat) (below : Frame) :
    Leads (.jumpIfFalseOrPop distance) (.value :: below) [(0, below), (distance, .value :: below)]
  | jumpIfTrueOrPop (distance : Nat) (below : Frame) :
    Leads (.jumpIfTrueOrPop distance) (.value :: below) [(0, below), (distance, .value :: below)]

variable {instruction : Instruction} {frame : Frame} {exits : List (Nat × Frame)}

theorem pairSlots_append (pairs : Nat) (below : Frame) :
    pairSlots pairs ++ .value :: .key :: below = pairSlots (pairs + 1) ++ below := by
  induction pairs with
  | zero => rfl
  | succ pairs ih =>
    rw [pairSlots, List.cons_append, List.cons_append, ih]
    rfl

theorem length_pairSlots (pairs : Nat) : (pairSlots pairs).length = 2 * pairs := by
  induction pairs with
  | zero => rfl
  | succ pairs ih =>
    rw [pairSlots, List.length_cons, List.length_cons, ih]
    omega

theorem target?_of_isPlain (plain : instruction.isPlain = true) : instruction.target? = none := by
  cases instruction <;> first | rfl | cases plain

theorem exits_of_isPlain (plain : instruction.isPlain = true) (index height : Nat) :
    instruction.exits index height = [(index + 1, height - instruction.pops + instruction.pushes)] := by
  cases instruction <;> first | rfl | cases plain

theorem mem_distances_of_target? {distance : Nat} (jump : instruction.target? = some distance) :
    distance ∈ instruction.distances := by
  cases instruction <;> simp_all [target?, distances]

theorem Leads.distances (leads : instruction.Leads frame exits) : exits.map Prod.fst = instruction.distances := by
  cases leads with
  | next _ _ plain => cases instruction <;> first | rfl | cases plain
  | key | map | jump | jumpIfFalse | jumpIfFalseOrPop | jumpIfTrueOrPop => rfl

theorem Leads.pops_le (leads : instruction.Leads frame exits) : instruction.pops ≤ frame.length := by
  cases leads with
  | next operands below plain enough =>
    rw [List.length_append, enough]
    omega
  | map pairs below =>
    rw [List.length_append, length_pairSlots]
    exact Nat.le_add_right _ _
  | key | jump => exact Nat.zero_le _
  | jumpIfFalse | jumpIfFalseOrPop | jumpIfTrueOrPop => exact Nat.succ_le_succ (Nat.zero_le _)

/-- Where an instruction leads, with its jump turned into a target. -/
theorem Leads.exits_eq (leads : instruction.Leads frame exits) (index : Nat) :
    (instruction.retarget (index + 1 + ·)).exits index frame.length =
      exits.map fun (distance, after) => (index + 1 + distance, after.length) := by
  cases leads with
  | next operands below plain enough =>
    rw [retarget_plain (target?_of_isPlain plain), exits_of_isPlain plain]
    simp only [List.length_append, enough, List.map_cons, List.map_nil, List.length_replicate]
    congr 2
    omega
  | map pairs below =>
    simp only [retarget, Instruction.exits, pops, pushes, List.length_append, length_pairSlots, List.map_cons,
      List.map_nil, List.length_cons]
    congr 2
    omega
  | key | jump | jumpIfFalse | jumpIfFalseOrPop | jumpIfTrueOrPop => rfl

end Instruction

/-- The frames in front of the instructions of some code, and the one behind it. -/
inductive Framed (after : Frame) : List Instruction → List Frame → Prop where
  | nil : Framed after [] [after]
  | cons {instruction : Instruction} {frame : Frame} {exits : List (Nat × Frame)} {rest : List Instruction}
    {frames : List Frame} :
    instruction.Leads frame exits → (∀ exit ∈ exits, frames[exit.1]? = some exit.2) →
    Framed after rest frames → Framed after (instruction :: rest) (frame :: frames)

namespace Framed

variable {after middle : Frame} {code first rest : List Instruction} {frames before behind : List Frame}

theorem length_eq (framed : Framed after code frames) : frames.length = code.length + 1 := by
  induction framed with
  | nil => rfl
  | cons _ _ _ ih => rw [List.length_cons, ih, List.length_cons]

theorem end_eq (framed : Framed after code frames) : frames[code.length]? = some after := by
  induction framed with
  | nil => rfl
  | cons _ _ _ ih => simpa using ih

theorem get (framed : Framed after code frames) {index : Nat} {instruction : Instruction}
    (found : code[index]? = some instruction) :
    ∃ frame exits, frames[index]? = some frame ∧ instruction.Leads frame exits ∧
      ∀ exit ∈ exits, frames[index + 1 + exit.1]? = some exit.2 := by
  induction framed generalizing index with
  | nil => cases found
  | @cons first frame exits rest frames leads agree _ ih =>
    cases index with
    | zero =>
      obtain rfl : first = instruction := by simpa using found
      refine ⟨frame, exits, rfl, leads, fun exit led => ?_⟩
      rw [Nat.zero_add, Nat.add_comm, List.getElem?_cons_succ]
      exact agree exit led
    | succ index =>
      obtain ⟨frame, exits, there, leads, agree⟩ := ih (by simpa using found)
      refine ⟨frame, exits, by simpa using there, leads, fun exit led => ?_⟩
      rw [Nat.add_right_comm, Nat.add_right_comm _ 1 exit.1, List.getElem?_cons_succ, Nat.add_right_comm]
      exact agree exit led

/-- Code behind other code that leaves the frame it starts with. -/
theorem append (framed : Framed middle first before) (next : Framed after rest behind)
    (meets : behind[0]? = some middle) :
    ∃ frames : List Frame, Framed after (first ++ rest) frames ∧
      (∀ (index : Nat) (frame : Frame), before[index]? = some frame → frames[index]? = some frame) ∧
      ∀ index, frames[first.length + index]? = behind[index]? := by
  induction framed with
  | nil =>
    refine ⟨behind, next, fun index frame found => ?_, fun index => by rw [List.length_nil, Nat.zero_add]⟩
    cases index with
    | zero => exact meets.trans found
    | succ index => cases found
  | @cons instruction frame exits rest' before leads agree _ ih =>
    obtain ⟨frames, framed, start, stop⟩ := ih
    refine ⟨frame :: frames, .cons leads (fun exit led => start _ _ (agree exit led)) framed,
      fun index other found => ?_, fun index => ?_⟩
    · cases index with
      | zero => exact found
      | succ index => exact start index other found
    · rw [List.length_cons, Nat.add_right_comm, List.getElem?_cons_succ, stop]

end Framed

/-- Some code leads from a frame to another one, and the stack is empty at the marks. -/
def Carries (before : Frame) (code : List Instruction) (after : Frame) (marks : List Nat) : Prop :=
  ∃ frames, Framed after code frames ∧ frames[0]? = some before ∧ ∀ mark ∈ marks, frames[mark]? = some []

namespace Carries

variable {before middle after frame : Frame} {code first rest : List Instruction} {marks more : List Nat}
  {instruction : Instruction} {exits : List (Nat × Frame)}

theorem nil : Carries after [] after [] :=
  ⟨[after], .nil, rfl, by simp⟩

theorem mono (carries : Carries before code after marks) (fewer : more ⊆ marks) : Carries before code after more := by
  obtain ⟨frames, framed, start, empty⟩ := carries
  exact ⟨frames, framed, start, fun mark found => empty mark (fewer found)⟩

theorem mark_start (carries : Carries [] code after marks) : Carries [] code after (0 :: marks) := by
  obtain ⟨frames, framed, start, empty⟩ := carries
  exact ⟨frames, framed, start, List.forall_mem_cons.mpr ⟨start, empty⟩⟩

theorem append (one : Carries before first middle marks) (two : Carries middle rest after more) :
    Carries before (first ++ rest) after (marks ++ more.map (first.length + ·)) := by
  obtain ⟨frames, framed, start, empty⟩ := one
  obtain ⟨behind, next, meets, emptyBehind⟩ := two
  obtain ⟨all, framedAll, keeps, shifts⟩ := framed.append next meets
  refine ⟨all, framedAll, keeps 0 before start, fun mark found => ?_⟩
  rcases List.mem_append.mp found with found | found
  · exact keeps mark [] (empty mark found)
  · obtain ⟨inner, marked, rfl⟩ := List.mem_map.mp found
    rw [shifts]
    exact emptyBehind inner marked

/-- An instruction that leads to the start or to the end of the code behind it, or to an empty stack. -/
theorem cons (leads : instruction.Leads frame exits) (carries : Carries before code after marks)
    (agree : ∀ exit ∈ exits,
      exit = (0, before) ∨ exit = (code.length, after) ∨ exit.1 ∈ marks ∧ exit.2 = []) :
    Carries frame (instruction :: code) after (marks.map (1 + ·)) := by
  obtain ⟨frames, framed, start, empty⟩ := carries
  refine ⟨frame :: frames, .cons leads (fun exit led => ?_) framed, rfl, fun mark found => ?_⟩
  · rcases agree exit led with rfl | rfl | ⟨found, none⟩
    · exact start
    · exact framed.end_eq
    · rw [none]
      exact empty _ found
  · obtain ⟨inner, marked, rfl⟩ := List.mem_map.mp found
    rw [Nat.add_comm, List.getElem?_cons_succ]
    exact empty inner marked

theorem single (leads : instruction.Leads before [(0, after)]) : Carries before [instruction] after [] :=
  .cons leads .nil (by simp)

end Carries

/-- Every place behind the first can be come to from an instruction before it. -/
def Connected (code : List Instruction) : Prop :=
  ∀ index, index < code.length → ∃ (before : Nat) (instruction : Instruction) (distance : Nat),
    code[before]? = some instruction ∧ distance ∈ instruction.distances ∧ before + distance = index

namespace Connected

variable {code first rest inner : List Instruction} {instruction : Instruction}

theorem nil : Connected [] :=
  fun _ inside => absurd inside (Nat.not_lt_zero _)

theorem cons (next : 0 ∈ instruction.distances) (connected : Connected code) : Connected (instruction :: code) := by
  intro index inside
  cases index with
  | zero => exact ⟨0, instruction, 0, rfl, next, rfl⟩
  | succ index =>
    obtain ⟨before, other, distance, found, leads, same⟩ := connected index (by simpa using inside)
    exact ⟨before + 1, other, distance, by simpa using found, leads, by omega⟩

theorem append (one : Connected first) (two : Connected rest) : Connected (first ++ rest) := by
  intro index inside
  by_cases early : index < first.length
  · obtain ⟨before, instruction, distance, found, leads, same⟩ := one index early
    refine ⟨before, instruction, distance, ?_, leads, same⟩
    rw [List.getElem?_append_left (by omega)]
    exact found
  · rw [List.length_append] at inside
    obtain ⟨before, instruction, distance, found, leads, same⟩ := two (index - first.length) (by omega)
    refine ⟨first.length + before, instruction, distance, ?_, leads, by omega⟩
    rw [List.getElem?_append_right (by omega), Nat.add_sub_cancel_left]
    exact found

/-- Code that follows a jump is come to from the jump around both. -/
theorem around (one : Connected inner) (two : Connected rest) (distance : Nat) :
    Connected (.jumpIfFalse (inner.length + 1) :: (inner ++ .jump distance :: rest)) := by
  have front : Connected (.jumpIfFalse (inner.length + 1) :: inner) := one.cons (by simp [Instruction.distances])
  intro index inside
  simp only [List.length_cons, List.length_append] at inside
  rcases Nat.lt_trichotomy index (inner.length + 1) with early | rfl | late
  · obtain ⟨before, instruction, distance', found, leads, same⟩ := front index early
    refine ⟨before, instruction, distance', ?_, leads, same⟩
    rw [← List.cons_append, List.getElem?_append_left (by rw [List.length_cons]; omega)]
    exact found
  · exact ⟨0, _, inner.length + 1, rfl, by simp [Instruction.distances], Nat.zero_add _⟩
  · obtain ⟨before, instruction, distance', found, leads, same⟩ := two (index - (inner.length + 2)) (by omega)
    refine ⟨inner.length + 2 + before, instruction, distance', ?_, leads, by omega⟩
    have split : .jumpIfFalse (inner.length + 1) :: (inner ++ .jump distance :: rest) =
        (.jumpIfFalse (inner.length + 1) :: (inner ++ [.jump distance])) ++ rest := by simp
    have length : (Instruction.jumpIfFalse (inner.length + 1) :: (inner ++ [.jump distance])).length =
        inner.length + 2 := by simp
    rw [split, List.getElem?_append_right (by rw [length]; omega), length, Nat.add_sub_cancel_left]
    exact found

end Connected

/-- Some code leads from a frame to another one, with no place in it that is not come to. -/
structure Balanced (before : Frame) (code : List Instruction) (after : Frame) (marks : List Nat) : Prop where
  carries : Carries before code after marks
  connected : Connected code

namespace Balanced

variable {before middle after : Frame} {first rest : List Instruction} {marks more : List Nat}
  {instruction : Instruction}

theorem append (one : Balanced before first middle marks) (two : Balanced middle rest after more) :
    Balanced before (first ++ rest) after (marks ++ more.map (first.length + ·)) :=
  ⟨one.carries.append two.carries, one.connected.append two.connected⟩

theorem single (leads : instruction.Leads before [(0, after)]) : Balanced before [instruction] after [] := by
  refine ⟨.single leads, .cons ?_ .nil⟩
  rw [← leads.distances]
  exact List.mem_singleton_self 0

/-- Code that leaves a value, and an instruction behind it. -/
theorem snoc (one : Balanced before first middle []) (leads : instruction.Leads middle [(0, after)]) :
    Balanced before (first ++ [instruction]) after [] :=
  one.append (.single leads)

/-- A jump over code, in front of which the value that decides is dropped. -/
theorem shortCircuit {jump : Nat → Instruction} (leads : ∀ distance below,
    (jump distance).Leads (.value :: below) [(0, below), (distance, .value :: below)])
    (one : Balanced before first (.value :: before) []) (two : Balanced before rest (.value :: before) []) :
    Balanced before (first ++ jump rest.length :: rest) (.value :: before) [] := by
  have decides := leads rest.length before
  have next : 0 ∈ (jump rest.length).distances := by
    rw [← decides.distances]
    exact List.mem_cons_self
  have behind : Balanced (.value :: before) (jump rest.length :: rest) (.value :: before) [] :=
    ⟨.cons decides two.carries (by simp), two.connected.cons next⟩
  exact one.append behind

end Balanced

/-- Code of an expression leaves one value above what is there. -/
theorem Expr.code_balanced (e : Expr) (below : Frame) : Balanced below e.code (.value :: below) [] := by
  induction e generalizing below with
  | var name span => exact .single (.next [] below rfl rfl)
  | const value span => exact .single (.next [] below rfl rfl)
  | member of name span ih => exact (ih below).snoc (.next [.value] below rfl rfl)
  | not operand span ih => exact (ih below).snoc (.next [.value] below rfl rfl)
  | filter name operand argument span ih =>
    refine (ih below).snoc ?_
    split
    · exact .next [.value] below rfl rfl
    · exact .next [.value] below rfl rfl
  | binary op left right span first second =>
    have operands : Balanced below (left.code ++ right.code) (.value :: .value :: below) [] :=
      (first below).append (second (.value :: below))
    cases op with
    | and => exact .shortCircuit .jumpIfFalseOrPop (first below) (second below)
    | or => exact .shortCircuit .jumpIfTrueOrPop (first below) (second below)
    | eq | ne | lt | lte | gt | gte => exact operands.snoc (.next [.value, .value] below rfl rfl)

namespace Filled

/-- Code of bindings leaves their keys and values above what is there. -/
theorem bindingsCode_balanced (bindings : List (String × Expr)) (below : Frame) :
    Balanced below (bindingsCode bindings) (Instruction.pairSlots bindings.length ++ below) [] := by
  induction bindings generalizing below with
  | nil => exact ⟨.nil, .nil⟩
  | cons binding rest ih =>
    obtain ⟨key, path⟩ := binding
    have bound : Balanced below (.load (.str key) :: path.code) (.value :: .key :: below) [] :=
      .append (.single (.key key below)) (path.code_balanced (.key :: below))
    have others := ih (.value :: .key :: below)
    rw [Instruction.pairSlots_append] at others
    exact bound.append others

mutual

/-- Where the statements inside a statement start and end in its code. -/
def innerBoundaries (template : Option String) : Filled → List Nat
  | .conditional branches otherwise _ =>
    branchesBoundaries template (otherwiseCode template otherwise) (otherwiseBoundaries template otherwise) branches
  | .filled origin body _ => boundaries (some origin) body
  | .text .. | .output .. | .each .. | .inclusion .. | .embedding .. | .unfilled _ => []

/-- Where statements start and end in their code, with those inside them. -/
def boundaries (template : Option String) : List Filled → List Nat
  | [] => [0]
  | statement :: rest =>
    0 :: innerBoundaries template statement ++
      (boundaries template rest).map ((code template statement).length + ·)

def branchesBoundaries (template : Option String) (otherwise : Option (List Located)) (last : List Nat) :
    List (Expr × List Filled) → List Nat
  | [] => last
  | (condition, body) :: rest =>
    let start := condition.code.length + 1
    let stop := start + (codeAll template body).length +
      (leave template (lastLineAll condition.span.start.line body) otherwise rest).length
    (boundaries template body).map (start + ·) ++ (branchesBoundaries template otherwise last rest).map (stop + ·)

def otherwiseBoundaries (template : Option String) : Option (List Filled) → List Nat
  | none => []
  | some body => boundaries template body

end

/-- Code of statements, which starts and ends with an empty stack. -/
def Levels (code : List Located) (marks : List Nat) : Prop :=
  Balanced [] (code.map Prod.fst) [] marks

/-- What stands between a branch and the others leads behind them, or there are no others. -/
def Leaves (leave others : List Located) : Prop :=
  leave = [] ∧ others = [] ∨ ∃ place, leave = [(.jump others.length, place)]

theorem leave_leaves (template : Option String) (line : Nat) (otherwise : Option (List Located))
    (rest : List (Expr × List Filled)) :
    Leaves (leave template line otherwise rest) (branchesCode template otherwise rest) := by
  unfold leave
  split
  · rename_i last
    obtain ⟨rfl, rfl⟩ : rest = [] ∧ otherwise = none := by simpa using last
    exact .inl ⟨rfl, rfl⟩
  · exact .inr ⟨_, rfl⟩

theorem Leaves.carries {leave others : List Located} {marks : List Nat} (leaves : Leaves leave others)
    (rest : Carries [] (others.map Prod.fst) [] marks) :
    Carries [] ((leave ++ others).map Prod.fst) [] (marks.map (leave.length + ·)) := by
  obtain ⟨rfl, rfl⟩ | ⟨place, rfl⟩ := leaves
  · simpa using rest
  · refine .cons (.jump others.length []) rest ?_
    simp

/-- The code of a branch and of what is behind it. -/
theorem branch_levels {inner others leave : List Located} {marks more : List Nat} (body : Levels inner marks)
    (rest : Levels others more) (leaves : Leaves leave others) (condition : Expr) (origin : Origin) :
    let start := condition.code.length + 1
    Levels (locate origin condition.code ++
        ((.jumpIfFalse (inner.length + leave.length), origin) :: inner ++ (leave ++ others)))
      (marks.map (start + ·) ++ more.map (start + inner.length + leave.length + ·)) := by
  intro start
  unfold Levels
  rw [List.map_append, Machine.locate_fst, List.cons_append, List.map_cons, List.map_append]
  have decided := condition.code_balanced []
  constructor
  · have behind := body.carries.append (leaves.carries rest.carries.mark_start)
    have skipped := Carries.cons (.jumpIfFalse (inner.length + leave.length) .value []) behind (by simp)
    refine (decided.carries.append skipped).mono fun mark found => ?_
    rw [List.length_map, List.nil_append]
    rcases List.mem_append.mp found with found | found
    · obtain ⟨place, marked, rfl⟩ := List.mem_map.mp found
      exact List.mem_map.mpr ⟨_, List.mem_map_of_mem (List.mem_append_left _ marked), by omega⟩
    · obtain ⟨place, marked, rfl⟩ := List.mem_map.mp found
      have placed := List.mem_map_of_mem (f := (leave.length + ·)) (List.mem_cons_of_mem 0 marked)
      have behind := List.mem_append_right marks (List.mem_map_of_mem (f := (inner.length + ·)) placed)
      exact List.mem_map.mpr ⟨_, List.mem_map_of_mem behind, by omega⟩
  · refine decided.connected.append ?_
    obtain ⟨rfl, rfl⟩ | ⟨place, rfl⟩ := leaves
    · have plain : Connected (.jumpIfFalse inner.length :: inner.map Prod.fst) :=
        body.connected.cons (by simp [Instruction.distances])
      simpa using plain
    · have around := body.connected.around rest.connected others.length
      simpa using around

mutual

theorem code_levels (template : Option String) : (statement : Filled) →
    Levels (code template statement) (innerBoundaries template statement)
  | .text raw line => .single (.next [] [] rfl rfl)
  | .output value line => by
    rw [Levels, code, Machine.locate_fst]
    exact (value.code_balanced []).snoc (.next [.value] [] rfl rfl)
  | .conditional branches otherwise _ => branches_level template (otherwise_levels template otherwise) branches
  | .each item collection part line => by
    rw [Levels, code, Machine.locate_fst]
    exact (collection.code_balanced []).snoc (.next [.value] [] rfl rfl)
  | .inclusion name line => .single (.next [] [] rfl rfl)
  | .embedding name bindings line => by
    rw [Levels, code, Machine.locate_fst, List.append_cons]
    exact ((bindingsCode_balanced bindings []).snoc (.map bindings.length [])).snoc (.next [.value] [] rfl rfl)
  | .unfilled _ => ⟨.nil, .nil⟩
  | .filled origin body _ => codeAll_levels (some origin) body

theorem codeAll_levels (template : Option String) : (all : List Filled) →
    Levels (codeAll template all) (boundaries template all)
  | [] => ⟨Carries.nil.mark_start, .nil⟩
  | statement :: rest => by
    have all := (code_levels template statement).append (codeAll_levels template rest)
    rw [List.length_map, ← List.map_append] at all
    exact ⟨all.carries.mark_start, all.connected⟩

theorem branches_level (template : Option String) {otherwise : Option (List Located)} {last : List Nat}
    (other : Levels (otherwise.getD []) last) : (branches : List (Expr × List Filled)) →
    Levels (branchesCode template otherwise branches) (branchesBoundaries template otherwise last branches)
  | [] => other
  | (condition, body) :: rest => by
    rw [branchesCode_cons]
    exact branch_levels (codeAll_levels template body) (branches_level template other rest)
      (leave_leaves template _ otherwise rest) condition _

theorem otherwise_levels (template : Option String) : (otherwise : Option (List Filled)) →
    Levels ((otherwiseCode template otherwise).getD []) (otherwiseBoundaries template otherwise)
  | none => ⟨.nil, .nil⟩
  | some body => codeAll_levels template body

end

end Filled

end TextTemplate
