import TextTemplate.Proofs.Code.Frames
import TextTemplate.Proofs.Render.Termination

/-!
How high the stack is at each instruction of a listing. All paths to an instruction come with the same
height, every instruction finds as many values as it takes, and between statements there are none.
-/
namespace TextTemplate

namespace Listing

/-- The ways through a listing from its first instruction, with the height of the stack on them. Of a
conditional jump both ways are taken. -/
inductive Path (listing : Listing) : Nat → Nat → Prop where
  | start : Path listing 0 0
  | step {index height : Nat} {instruction : Instruction} {exit : Nat × Nat} :
    Path listing index height → listing.get? index = some instruction → exit ∈ instruction.exits index height →
    Path listing exit.1 exit.2

/-- The stack has a height at each instruction. -/
structure Leveled (listing : Listing) (height : Nat → Nat) : Prop where
  path_iff {index found : Nat} : listing.Path index found ↔ index ≤ listing.size ∧ found = height index
  pops_le {index : Nat} {instruction : Instruction} :
    listing.get? index = some instruction → instruction.pops ≤ height index

/-- A listing has some code with its jumps turned into targets, and the code starts and ends with an
empty stack. -/
structure HasFrames (listing : Listing) (code : List Instruction) (frames : List Frame) : Prop where
  get?_eq (index : Nat) : listing.get? index = code[index]?.map (·.retarget (index + 1 + ·))
  size_eq : listing.size = code.length
  framed : Framed [] code frames
  start : frames[0]? = some []
  connected : Connected code

theorem ofStatements_hasFrames (statements : List Filled) :
    ∃ code frames, (ofStatements statements).HasFrames code frames ∧
      ∀ boundary ∈ Filled.boundaries none statements, frames[boundary]? = some [] := by
  obtain ⟨⟨frames, framed, start, empty⟩, connected⟩ := Filled.codeAll_levels none statements
  refine ⟨_, frames, ⟨fun index => ?_, ?_, framed, start, connected⟩, empty⟩
  · rw [get?_ofStatements, List.getElem?_map, Option.map_map]
    rfl
  · rw [List.length_map]
    exact size_ofStatements statements

namespace HasFrames

variable {listing : Listing} {code : List Instruction} {frames : List Frame} {index found target : Nat}
  {instruction : Instruction} {frame : Frame}

theorem le_size (hasFrames : listing.HasFrames code frames) (there : frames[index]? = some frame) :
    index ≤ listing.size := by
  have inside := (List.getElem?_eq_some_iff.mp there).1
  rw [hasFrames.framed.length_eq] at inside
  rw [hasFrames.size_eq]
  omega

/-- What an instruction of the listing finds, and what it leaves where it leads. -/
theorem leads (hasFrames : listing.HasFrames code frames) (stands : listing.get? index = some instruction) :
    ∃ (relative : Instruction) (frame : Frame) (exits : List (Nat × Frame)),
      instruction = relative.retarget (index + 1 + ·) ∧ frames[index]? = some frame ∧ relative.Leads frame exits ∧
      ∀ exit ∈ exits, frames[index + 1 + exit.1]? = some exit.2 := by
  rw [hasFrames.get?_eq] at stands
  obtain ⟨relative, placed, rfl⟩ := Option.map_eq_some_iff.mp stands
  obtain ⟨frame, exits, there, leads, agree⟩ := hasFrames.framed.get placed
  exact ⟨relative, frame, exits, rfl, there, leads, agree⟩

theorem frame_of_path (hasFrames : listing.HasFrames code frames) (path : listing.Path index found) :
    ∃ frame, frames[index]? = some frame ∧ found = frame.length := by
  induction path with
  | start => exact ⟨[], hasFrames.start, rfl⟩
  | @step index height instruction exit _ stands leads ih =>
    obtain ⟨frame, there, rfl⟩ := ih
    obtain ⟨relative, other, exits, rfl, same, led, agree⟩ := hasFrames.leads stands
    obtain rfl : frame = other := Option.some.inj (there.symm.trans same)
    rw [led.exits_eq] at leads
    obtain ⟨⟨distance, after⟩, exit, rfl⟩ := List.mem_map.mp leads
    exact ⟨after, agree _ exit, rfl⟩

/-- Every place of the listing is on a path. -/
theorem path_of_frame (hasFrames : listing.HasFrames code frames) (there : frames[index]? = some frame) :
    listing.Path index frame.length := by
  induction index using Nat.strongRecOn generalizing frame with
  | ind index ih =>
    cases index with
    | zero =>
      obtain rfl : [] = frame := Option.some.inj (hasFrames.start.symm.trans there)
      exact .start
    | succ index =>
      have inside := hasFrames.le_size there
      rw [hasFrames.size_eq] at inside
      obtain ⟨before, relative, distance, stands, near, rfl⟩ := hasFrames.connected index inside
      obtain ⟨earlier, exits, there', led, agree⟩ := hasFrames.framed.get stands
      rw [← led.distances] at near
      obtain ⟨⟨distance, after⟩, exit, rfl⟩ := List.mem_map.mp near
      have placed : listing.get? before = some (relative.retarget (before + 1 + ·)) := by
        rw [hasFrames.get?_eq, stands, Option.map_some]
      have path := Path.step (ih before (by omega) there') placed (by rw [led.exits_eq]; exact List.mem_map_of_mem exit)
      have same : frames[before + 1 + distance]? = some after := agree _ exit
      have there : frames[before + distance + 1]? = some frame := there
      rw [Nat.add_right_comm, same] at there
      obtain rfl := Option.some.inj there
      rw [Nat.add_right_comm]
      exact path

theorem target_le_size (hasFrames : listing.HasFrames code frames) (stands : listing.get? index = some instruction)
    (jumps : instruction.target? = some target) : target ≤ listing.size := by
  obtain ⟨relative, frame, exits, rfl, -, led, agree⟩ := hasFrames.leads stands
  rw [target?_retarget] at jumps
  obtain ⟨distance, skips, rfl⟩ := Option.map_eq_some_iff.mp jumps
  have near := Instruction.mem_distances_of_target? skips
  rw [← led.distances] at near
  obtain ⟨exit, led, rfl⟩ := List.mem_map.mp near
  exact hasFrames.le_size (agree exit led)

theorem leveled (hasFrames : listing.HasFrames code frames) :
    listing.Leveled fun index => (frames[index]?.getD []).length := by
  constructor
  · intro index found
    constructor
    · intro path
      obtain ⟨frame, there, rfl⟩ := hasFrames.frame_of_path path
      exact ⟨hasFrames.le_size there, by rw [there, Option.getD_some]⟩
    · rintro ⟨inside, rfl⟩
      have there : index < frames.length := by
        rw [hasFrames.framed.length_eq, ← hasFrames.size_eq]
        omega
      rw [List.getElem?_eq_getElem there]
      exact hasFrames.path_of_frame (List.getElem?_eq_getElem there)
  · intro index instruction stands
    obtain ⟨relative, frame, exits, rfl, there, led, -⟩ := hasFrames.leads stands
    have pops : (relative.retarget (index + 1 + ·)).pops = relative.pops := by cases relative <;> rfl
    rw [pops, there, Option.getD_some]
    exact led.pops_le

end HasFrames

end Listing

end TextTemplate
