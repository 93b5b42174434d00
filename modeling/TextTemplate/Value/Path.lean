import TextTemplate.Decimal.Reading
import TextTemplate.Text.Pieces
import TextTemplate.Value.Basic

/-!
Members of values and dotted paths. A step that finds nothing gives the undefined value.
-/
namespace TextTemplate.Value

/-- The entry of a map, or the item of a sequence at a decimal index. -/
def member (v : Value) (key : String) : Value :=
  match v with
  | .map entries => (Fields.get? entries key).getD .undefined
  | .seq items => ((readCount? key).bind fun i => items[i]?).getD .undefined
  | _ => .undefined

/-- Follows segments until one is undefined. -/
def follow (v : Value) : List String → Value
  | [] => v
  | segment :: segments =>
    match v.member segment with
    | .undefined => .undefined
    | next => next.follow segments

def resolve (v : Value) (path : String) : Value :=
  v.follow (Text.pieces '.' path)

end TextTemplate.Value
