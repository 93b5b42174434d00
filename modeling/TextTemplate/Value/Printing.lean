import TextTemplate.Outline
import TextTemplate.Value.Basic

/-!
Printed forms of values. A text stands for itself in output and is quoted inside a container;
absent values print nothing.
-/
namespace TextTemplate

/-- Floats in output are written without an exponent and with a point. -/
def NumberStyle.output : NumberStyle := ⟨.up, none, ".0", "", "NaN", "inf"⟩

namespace Value

mutual

def outline : Value → Outline
  | .undefined => .atom "undefined"
  | .none => .atom "none"
  | .bool b => .atom (toString b)
  | .int i => .atom (toString i)
  | .float x => .atom (NumberStyle.listing.write x)
  | .str s => .quoted s
  | .seq items => .list (outlines items)
  | .map entries => .map (entryOutlines entries)

def outlines : List Value → List Outline
  | [] => []
  | v :: vs => outline v :: outlines vs

def entryOutlines : List (String × Value) → List Outline
  | [] => []
  | (name, v) :: entries => .entry (.quoted name) (outline v) :: entryOutlines entries

end

def listing (v : Value) : String :=
  v.outline.compact

/-- The text that an output tag writes. -/
def display : Value → String
  | .undefined | .none => ""
  | .bool b => toString b
  | .int i => toString i
  | .float x => NumberStyle.output.write x
  | .str s => s
  | v => v.listing

end Value

end TextTemplate
