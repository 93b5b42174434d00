import TextTemplate.Syntax.Expression

/-!
Reading the text and the tags of a template. The body of a section is not read but cut out of the
source, from the end of its tag up to the tag that ends it.
-/
namespace TextTemplate.Stmt

open Parse

def keywords : List String :=
  ["extends", "section", "endsection", "fill", "if", "elseif", "else", "endif", "each", "include", "embed"]

def stringText : Token → Option String
  | .plainString s | .escapedString s => some s
  | _ => none

def quotedName (expected : String) : Parse String := do
  let (named, _) ← expect expected stringText
  return named

def endOfTag : Parse Span :=
  expectToken "end of tag" .tagEnd

def layoutTag : Parse String := do
  if (← pending).hasLayout then fail .secondLayout
  else
    noteLayout
    let layout ← quotedName "layout name"
    let _ ← endOfTag
    return layout

/-- Passes over a section up to the tag that ends it, which it takes; gives the start of that tag. -/
def sectionEnd : Parse Span := fun start =>
  match front : start.tokens with
  | [] => .error (start.misread (start.problem.getD (.unexpected "end of input" "endsection")))
  | lexeme :: rest =>
    let next := start.behind lexeme rest
    have shorter := Pending.behind_size front
    let goOn : Except Misread (Parsed Span start) :=
      match sectionEnd next with
      | .error e => .error e
      | .ok r => .ok ⟨r.value, r.next, Nat.le_trans r.within (Nat.le_of_lt shorter)⟩
    if lexeme.token = .tagStart then
      match peek next with
      | .error e => .error e
      | .ok ahead =>
        if ahead.value = some (.word "endsection") then
          match (do let _ ← take ""; endOfTag : Parse Span) next with
          | .error e => .error e
          | .ok r => .ok ⟨lexeme.span, r.next, Nat.le_trans r.within (Nat.le_of_lt shorter)⟩
        else if ahead.value = some (.word "section") then .error (next.misread .nestedSection)
        else goOn
    else goOn
termination_by start => start.size

def sectionTag (source : List Char) : Parse (String × SectionBody) := do
  let section_ ← quotedName "section name"
  let tagEnd ← endOfTag
  if (← pending).sections.contains section_ then fail (.repeatedSection section_)
  else
    noteSection section_
    let close ← sectionEnd
    let text := String.ofList (Text.slice tagEnd.stop.offset close.start.offset source)
    return (section_, ⟨text, tagEnd.stop.line, tagEnd.stop.column⟩)

def eachTag (levels : Nat) : Parse (String × Expr × String) := do
  let (item, _) ← expect "identifier" Expr.wordName
  let _ ← expectToken "in" (.word "in")
  let collection ← Expr.parse levels
  let _ ← expectToken "using" (.word "using")
  let part ← quotedName "partial name"
  let _ ← endOfTag
  return (item, collection, part)

def binding (levels : Nat) : Parse (String × Expr) := do
  let key ← quotedName "binding key"
  let _ ← expectToken "`=>`" .arrow
  let path ← Expr.path levels
  return (key, path)

/-- Bindings behind another one, up to the closing bracket. A comma stands before each, and one may
stand behind the last. -/
def moreBindings (levels : Nat) : Parse (List (String × Expr)) := fun start =>
  match skip .bracketClose start with
  | .error e => .error e
  | .ok closed =>
    if closed.value then .ok ⟨[], closed.next, closed.within⟩
    else
      match expectFirst "`,`" (isToken .comma) closed.next with
      | .error e => .error e
      | .ok ⟨comma, shorter⟩ =>
        match (do if ← skip .bracketClose then return none else return some (← binding levels) :
            Parse (Option (String × Expr))) comma.next with
        | .error e => .error e
        | .ok step =>
          have shorter := Nat.lt_of_le_of_lt step.within (Nat.lt_of_lt_of_le shorter closed.within)
          match step.value with
          | none => .ok ⟨[], step.next, Nat.le_of_lt shorter⟩
          | some bound =>
            match moreBindings levels step.next with
            | .error e => .error e
            | .ok rest =>
              .ok ⟨bound :: rest.value, rest.next, Nat.le_trans rest.within (Nat.le_of_lt shorter)⟩
termination_by start => start.size

def bindings (levels : Nat) : Parse (List (String × Expr)) := do
  if ← skip .bracketClose then return []
  else
    let bound ← binding levels
    let rest ← moreBindings levels
    return bound :: rest

def embedTag (levels : Nat) : Parse (String × List (String × Expr)) := do
  let template ← quotedName "template name"
  if ← skip (.word "with") then
    let _ ← expectToken "`[`" .bracketOpen
    let bound ← bindings levels
    let _ ← endOfTag
    return (template, bound)
  else
    let _ ← endOfTag
    return (template, [])

abbrev Branches := List (Expr × List Stmt) × Option (List Stmt)

/-- One tag behind its start, which has the given span. -/
def tag (source : List Char) (levels : Nat) (conditional : Parse Branches) (start : Span) : Parse Stmt := do
  match ← peek with
  | none => fail (.unexpected "end of input" "expression")
  | some (.word keyword) =>
    if keywords.contains keyword then
      let _ ← take ""
      match keyword with
      | "extends" =>
        let layout ← layoutTag
        return .layout layout (← spanFrom start)
      | "section" =>
        let (section_, body) ← sectionTag source
        return .capture section_ body (← spanFrom start)
      | "fill" =>
        let section_ ← quotedName "section name"
        let _ ← endOfTag
        return .fill section_ (← spanFrom start)
      | "if" =>
        let (branches, otherwise) ← conditional
        return .conditional branches otherwise (← spanFrom start)
      | "each" =>
        let (item, collection, part) ← eachTag levels
        return .each item collection part (← spanFrom start)
      | "include" =>
        let template ← quotedName "template name"
        let _ ← endOfTag
        return .inclusion template (← spanFrom start)
      | "embed" =>
        let (template, bound) ← embedTag levels
        return .embedding template bound (← spanFrom start)
      | keyword => fail (.misplacedKeyword keyword)
    else output
  | some _ => output
where
  output : Parse Stmt := do
    let value ← Expr.parse levels
    let _ ← endOfTag
    return .output value (← spanFrom start)

/-- Text and tags up to the end, or up to a tag that starts with a token that stops the block; the
start of that tag is taken. -/
def block (tag : Span → Parse Stmt) (stops : Token → Bool) : Parse (List Stmt) := fun start =>
  match front : start.tokens with
  | [] =>
    match start.problem with
    | some problem => .error (start.misread problem)
    | none => .ok ⟨[], start, Nat.le_refl _⟩
  | lexeme :: rest =>
    let next := start.behind lexeme rest
    have shorter : next.size < start.size := Pending.behind_size front
    match lexeme.token with
    | .text raw =>
      match block tag stops next with
      | .error e => .error e
      | .ok all =>
        .ok ⟨.text raw lexeme.span :: all.value, all.next, Nat.le_trans all.within (Nat.le_of_lt shorter)⟩
    | .tagStart =>
      match peek next with
      | .error e => .error e
      | .ok ahead =>
        if (ahead.value.map stops).getD false then .ok ⟨[], next, Nat.le_of_lt shorter⟩
        else
          match tag lexeme.span next with
          | .error e => .error e
          | .ok first =>
            have closer := Nat.lt_of_le_of_lt first.within shorter
            match block tag stops first.next with
            | .error e => .error e
            | .ok all => .ok ⟨first.value :: all.value, all.next, Nat.le_trans all.within (Nat.le_of_lt closer)⟩
    | token => .error (next.misread (.unexpected token.description "template data or tag"))
termination_by start => start.size

def endsBranch : Token → Bool
  | .word name => name == "elseif" || name == "else" || name == "endif"
  | _ => false

def endsConditional : Token → Bool
  | .word name => name == "endif"
  | _ => false

/-- What stands behind one branch of a conditional. -/
inductive AfterBranch where
  | branch (condition : Expr)
  | done (otherwise : Option (List Stmt))

def afterBranch (condition : Parse Expr) (body : (Token → Bool) → Parse (List Stmt)) : Parse AfterBranch := do
  let (keyword, _) ← expect "endif" Expr.wordName
  match keyword with
  | "elseif" => return .branch (← condition)
  | "else" =>
    let _ ← endOfTag
    let otherwise ← body endsConditional
    let _ ← expectToken "endif" (.word "endif")
    return .done (some otherwise)
  | _ => return .done none

/-- The rest of a conditional behind the condition of a branch. -/
def branches (condition : Parse Expr) (body : (Token → Bool) → Parse (List Stmt)) (first : Expr) :
    Parse Branches := fun start =>
  match expectFirst "end of tag" (isToken .tagEnd) start with
  | .error e => .error e
  | .ok ⟨tagEnd, shorter⟩ =>
    match body endsBranch tagEnd.next with
    | .error e => .error e
    | .ok inner =>
      match afterBranch condition body inner.next with
      | .error e => .error e
      | .ok after =>
        have shorter := Nat.lt_of_le_of_lt (Nat.le_trans after.within inner.within) shorter
        match after.value with
        | .done otherwise => .ok ⟨([(first, inner.value)], otherwise), after.next, Nat.le_of_lt shorter⟩
        | .branch next =>
          match branches condition body next after.next with
          | .error e => .error e
          | .ok rest =>
            .ok ⟨((first, inner.value) :: rest.value.1, rest.value.2), rest.next,
              Nat.le_trans rest.within (Nat.le_of_lt shorter)⟩
termination_by start => start.size

/-- A conditional behind its keyword. -/
def conditionalTag (condition : Parse Expr) (body : (Token → Bool) → Parse (List Stmt)) : Parse Branches := do
  let first ← condition
  let all ← branches condition body first
  let _ ← endOfTag
  return all

/-- Text and tags in which `levels` more conditionals and expressions may nest. -/
def parse (source : List Char) (levels : Nat) (stops : Token → Bool) : Parse (List Stmt) :=
  match levels with
  | 0 => block (tag source 0 (fail .tooNested)) stops
  | inner + 1 => block (tag source (inner + 1) (conditionalTag (Expr.parse inner) (parse source inner))) stops

end TextTemplate.Stmt
