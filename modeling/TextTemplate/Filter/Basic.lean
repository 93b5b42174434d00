import TextTemplate.Decimal.Reading
import TextTemplate.Text.Words
import TextTemplate.Value.Printing

/-!
Filters. A filter says which type of value and of argument it works on; whatever does not convert to
these types passes through unchanged.
-/
namespace TextTemplate

/-- What a filter makes of a value and the text of its argument. -/
structure Filter where
  run : Value → Option String → Value

class FilterInput (α : Type) where
  ofValue? : Value → Option α

class FilterArgument (α : Type) where
  ofText? : Option String → Option α

class FilterResult (α : Type) where
  toValue : α → Value

/-- Texts, numbers and truth values are texts. -/
def Value.inputText? (v : Value) : Option String :=
  match v with
  | .str _ | .int _ | .float _ | .bool _ => some v.display
  | _ => Option.none

instance : FilterInput Value := ⟨some⟩

instance : FilterInput String := ⟨Value.inputText?⟩

instance : FilterInput Int := ⟨Value.asInt?⟩

instance : FilterInput Binary64 := ⟨Value.asFloat?⟩

instance : FilterInput Bool := ⟨fun v => match v with | .bool b => some b | _ => none⟩

instance : FilterInput (List Value) := ⟨Value.asSeq?⟩

/-- The text of an argument without the spaces around it. -/
def trimmedArgument (argument : Option String) : Option String :=
  argument.map fun s => String.ofList (Text.trim s.toList)

instance : FilterArgument (Option String) := ⟨some⟩

instance : FilterArgument String := ⟨id⟩

instance : FilterArgument Nat := ⟨fun argument => (trimmedArgument argument).bind readCount?⟩

instance : FilterArgument Int := ⟨fun argument => (trimmedArgument argument).bind readInteger?⟩

instance : FilterResult Value := ⟨id⟩

instance : FilterResult String := ⟨.str⟩

instance : FilterResult (List Char) := ⟨fun cs => .str (String.ofList cs)⟩

instance : FilterResult Int := ⟨.int⟩

instance : FilterResult Nat := ⟨.ofUnsigned⟩

instance : FilterResult Binary64 := ⟨.float⟩

instance : FilterResult Bool := ⟨.bool⟩

instance : FilterResult (List Value) := ⟨.seq⟩

namespace Filter

variable {α β ρ : Type} [FilterInput α] [FilterArgument β] [FilterResult ρ]

/-- A filter without argument. -/
def ofFunction (f : α → ρ) : Filter :=
  ⟨fun v _ =>
    match FilterInput.ofValue? v with
    | some a => FilterResult.toValue (f a)
    | none => v⟩

/-- A filter with an argument. -/
def ofFunction₂ (f : α → β → ρ) : Filter :=
  ⟨fun v argument =>
    match FilterInput.ofValue? v, FilterArgument.ofText? argument with
    | some a, some b => FilterResult.toValue (f a b)
    | _, _ => v⟩

end Filter

end TextTemplate
