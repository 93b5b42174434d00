import TextTemplate.Proofs.Syntax.Lines
import TextTemplate.Proofs.Syntax.Sections

/-!
The parts of a template that can fail, and where they stand in its source. A tag stands where its two
braces do, also one in the body of a section, which is cut out of the source and read on its own.
-/
namespace TextTemplate

open Parse

/-- A part of a template that can fail: a tag, or the condition of a branch. -/
inductive Node where
  | tag (stmt : Stmt)
  | condition (condition : Expr)

def Node.line : Node → Nat
  | .tag stmt => stmt.span.start.line
  | .condition expr => expr.span.start.line

namespace Stmt

mutual

def nodes : Stmt → List Node
  | .output value span => [.tag (.output value span)]
  | .conditional branches otherwise _ => branchNodes branches ++ otherwiseNodes otherwise
  | .each item collection part span => [.tag (.each item collection part span)]
  | .embedding name bindings span => [.tag (.embedding name bindings span)]
  | .text .. | .inclusion .. | .fill .. | .layout .. | .capture .. => []

def allNodes : List Stmt → List Node
  | [] => []
  | stmt :: stmts => nodes stmt ++ allNodes stmts

def branchNodes : List (Expr × List Stmt) → List Node
  | [] => []
  | (condition, body) :: branches => .condition condition :: (allNodes body ++ branchNodes branches)

def otherwiseNodes : Option (List Stmt) → List Node
  | none => []
  | some body => allNodes body

end

end Stmt

/-- The nodes of a part of a template; the condition of the first branch stands in front of the branches. -/
def Phrase.nodes : Phrase → List Node
  | .statements all => Stmt.allNodes all
  | .tag stmt => stmt.nodes
  | .branches all otherwise => (Stmt.branchNodes all).tail ++ Stmt.otherwiseNodes otherwise

namespace Node

/-- The tokens of a node with the start of its tag: those of the tag, or those of the condition. -/
inductive Spelled : Node → (opening : Span) → List Lexeme → Prop where
  | tag {source : List Char} {levels : Nat} {stmt : Stmt} {opening : Span} {taken : List Lexeme} :
    Stmt.Tagged source levels opening stmt taken → Spelled (.tag stmt) opening taken
  | condition {levels : Nat} {expr : Expr} {word : String} {taken : List Lexeme} (opening keyword : Span) :
    word ∈ ["if", "elseif"] → (Expr.parse levels).Reads expr taken →
    Spelled (.condition expr) opening (⟨.word word, keyword⟩ :: taken)

/-- A node stands in a text: its tokens, but for the bytes in front of them, are among those of the text, and
the line of a tag is the one in which its braces open, that of a condition the one in which the token starts that
the condition starts with. -/
inductive At (text : String) : Node → Nat → Prop where
  | tag {stmt : Stmt} {opening : Span} {taken : List Lexeme} {n : Nat} {front behind : List Char} :
    Spelled (.tag stmt) opening taken →
    (⟨.tagStart, opening⟩ :: taken).map (Lexeme.moved n) <:+: (Source.start text).lexemes.tokens →
    text.toList = front ++ '\x7b' :: '\x7b' :: behind → (opening.start.moved n).offset = String.utf8Len front →
    At text (.tag stmt) (1 + front.count '\n')
  | condition {expr : Expr} {opening : Span} {taken : List Lexeme} {n : Nat} {first : Lexeme} {c : Char}
    {front behind : List Char} :
    Spelled (.condition expr) opening taken →
    (⟨.tagStart, opening⟩ :: taken).map (Lexeme.moved n) <:+: (Source.start text).lexemes.tokens →
    first ∈ taken → expr.span.start = first.span.start →
    text.toList = front ++ c :: behind → (first.span.start.moved n).offset = String.utf8Len front →
    At text (.condition expr) (1 + front.count '\n')

variable {source : List Char} {levels n : Nat} {opening : Span} {stmt : Stmt} {taken tokens : List Lexeme} {node : Node}
  {text name : String}

theorem nodes_of_tagged (tagged : Stmt.Tagged source levels opening stmt taken) (found : node ∈ stmt.nodes) :
    node = .tag stmt ∧ stmt.span.start = opening.start := by
  cases tagged with
  | output | each | embedding | embeddingWith => exact ⟨List.mem_singleton.mp found, rfl⟩
  | layout | capture | fill | inclusion => cases found

/-- The start of a tag and the tokens of a node behind it stand among some tokens. -/
def Among (node : Node) (tokens : List Lexeme) : Prop :=
  ∃ opening taken, node.Spelled opening taken ∧ ⟨.tagStart, opening⟩ :: taken <:+: tokens ∧
    (∀ stmt, node = .tag stmt → stmt.span.start = opening.start)

theorem Among.mono (among : node.Among taken) (within : taken <:+: tokens) : node.Among tokens := by
  obtain ⟨opening, inner, spelled, place, start⟩ := among
  exact ⟨opening, inner, spelled, place.trans within, start⟩

theorem among_condition {expr : Expr} {word : String} {behind : List Lexeme} (keyword : Span)
    (opens : word ∈ ["if", "elseif"]) (reads : (Expr.parse levels).Reads expr taken)
    (front : tokens = ⟨.tagStart, opening⟩ :: ⟨.word word, keyword⟩ :: (taken ++ behind)) :
    Node.Among (.condition expr) tokens :=
  ⟨opening, _, .condition opening keyword opens reads, ⟨[], behind, by simp [front]⟩, fun _ other => by cases other⟩

/-- The nodes of statements stand among the tokens that spell them. -/
theorem among_of_spelled {phrase : Phrase} (spelled : Stmt.Spelled source levels phrase tokens)
    (found : node ∈ phrase.nodes) : node.Among tokens := by
  induction spelled with
  | done => cases found
  | text raw span _ ih => exact (ih found).mono (List.suffix_cons _ _).isInfix
  | @tag levels stmt rest inner later opening tagged _ ih =>
    rcases List.mem_append.mp found with found | found
    · obtain ⟨rfl, start⟩ := nodes_of_tagged tagged found
      refine ⟨opening, inner, .tag tagged, ⟨[], later, by simp⟩, fun stmt same => ?_⟩
      cases same
      exact start
    · exact (ih found).mono ⟨⟨.tagStart, opening⟩ :: inner, [], by simp⟩
  | @conditional levels first body others otherwise rest condition inner later opening keyword ending reads _ _ ihInner
      ih =>
    rcases List.mem_append.mp found with found | found
    · rw [Stmt.nodes, Stmt.branchNodes, List.cons_append] at found
      rcases List.mem_cons.mp found with rfl | found
      · exact among_condition keyword (by simp) reads rfl
      · exact (ihInner found).mono ⟨⟨.tagStart, opening⟩ :: ⟨.word "if", keyword⟩ :: condition, ⟨.tagEnd, ending⟩ :: later,
          by simp⟩
    · exact (ih found).mono
        ⟨⟨.tagStart, opening⟩ :: ⟨.word "if", keyword⟩ :: (condition ++ (inner ++ [⟨.tagEnd, ending⟩])),
        [], by simp⟩
  | @lastBranch levels condition body inner ending opening keyword _ ih =>
    have found : node ∈ Stmt.allNodes body := by
      simpa [Phrase.nodes, Stmt.branchNodes, Stmt.otherwiseNodes] using found
    exact (ih found).mono ⟨[⟨.tagEnd, ending⟩], [⟨.tagStart, opening⟩, ⟨.word "endif", keyword⟩], by simp⟩
  | @otherwise levels condition body other inner last ending opening keyword ending' opening' keyword' _ _ first second =>
    have found : node ∈ Stmt.allNodes body ∨ node ∈ Stmt.allNodes other := by
      simpa [Phrase.nodes, Stmt.branchNodes, Stmt.otherwiseNodes] using found
    rcases found with found | found
    · exact (first found).mono ⟨[⟨.tagEnd, ending⟩], _, List.singleton_append⟩
    · exact (second found).mono ⟨⟨.tagEnd, ending⟩ ::
          (inner ++ [⟨.tagStart, opening⟩, ⟨.word "else", keyword⟩, ⟨.tagEnd, ending'⟩]),
        [⟨.tagStart, opening'⟩, ⟨.word "endif", keyword'⟩], by simp⟩
  | @anotherBranch levels condition second body next others otherwise inner taken later ending opening keyword _ reads _
      first more =>
    have found : node ∈ Stmt.allNodes body ∨ node = .condition second ∨
        node ∈ (Phrase.branches ((second, next) :: others) otherwise).nodes := by
      simpa [Phrase.nodes, Stmt.branchNodes, or_assoc] using found
    rcases found with found | rfl | found
    · exact (first found).mono ⟨[⟨.tagEnd, ending⟩], _, List.singleton_append⟩
    · have conditional : Node.Among (.condition second)
          (⟨.tagStart, opening⟩ :: ⟨.word "elseif", keyword⟩ :: (taken ++ later)) :=
        among_condition keyword (by simp) reads rfl
      exact conditional.mono ⟨⟨.tagEnd, ending⟩ :: inner, [], by simp⟩
    · exact (more found).mono ⟨⟨.tagEnd, ending⟩ ::
          (inner ++ ⟨.tagStart, opening⟩ :: ⟨.word "elseif", keyword⟩ :: taken), [], by simp⟩

end Node

namespace Source

variable {text : String} {lexeme : Lexeme} {opening : Span}

/-- A token starts with the characters that spell it. -/
theorem token_at (found : lexeme ∈ (start text).lexemes.tokens) :
    ∃ front written behind, text.toList = front ++ written ++ behind ∧ written ≠ [] ∧ lexeme.token.Spells written ∧
      lexeme.span.start = .behind front := by
  obtain ⟨ending, -, here⟩ := start_at text
  obtain ⟨last, lexes, -⟩ := Cursor.lexes_lexemes (start text)
  obtain ⟨front, cursor, next, first, stepped⟩ := lexes.mem found
  obtain ⟨taken, here⟩ := first.at_last here
  obtain ⟨blanks, written, takes⟩ := Cursor.step_takes stepped
  exact ⟨[] ++ taken ++ blanks, written, next.rest ++ ending, takes.source_eq here, takes.nonempty, takes.spells,
    congrArg Span.start (takes.span_eq here)⟩

end Source

namespace Node

variable {levels n : Nat} {opening : Span} {taken tokens : List Lexeme} {node : Node} {text name : String}

/-- A node whose tokens stand in a text stands in that text. -/
theorem Among.at (among : node.Among tokens) (n : Nat)
    (within : tokens.map (Lexeme.moved n) <:+: (Source.start text).lexemes.tokens) : node.At text node.line := by
  obtain ⟨opening, taken, spelled, place, start⟩ := among
  have place := (place.map (Lexeme.moved n)).trans within
  cases node with
  | condition expr =>
    obtain ⟨first, inside, same⟩ : ∃ first ∈ taken, expr.span.start = first.span.start := by
      cases spelled with
      | condition opening keyword _ reads =>
        obtain ⟨first, inside, same⟩ := Expr.start_of_reads reads
        exact ⟨first, List.mem_cons_of_mem _ inside, same⟩
    have found : first.moved n ∈ (Source.start text).lexemes.tokens :=
      place.subset (List.mem_map_of_mem (List.mem_cons_of_mem _ inside))
    obtain ⟨front, written, behind, split, some, -, position⟩ := Source.token_at found
    obtain ⟨c, rest, rfl⟩ := List.exists_cons_of_ne_nil some
    have line : expr.span.start.line = 1 + front.count '\n' := by
      rw [same]
      exact congrArg Position.line position
    rw [Node.line, line]
    exact .condition spelled place inside same (by rw [split, List.append_assoc, List.cons_append])
      (congrArg Position.offset position)
  | tag stmt =>
    have found : Lexeme.moved n ⟨.tagStart, opening⟩ ∈ (Source.start text).lexemes.tokens :=
      place.subset List.mem_cons_self
    obtain ⟨front, written, behind, split, -, spells, position⟩ := Source.token_at found
    obtain rfl : written = ['\x7b', '\x7b'] := spells
    have line : stmt.span.start.line = 1 + front.count '\n' := by
      rw [start stmt rfl]
      exact congrArg Position.line position
    rw [Node.line, line]
    exact .tag spelled place (by rw [split, List.append_assoc]; rfl) (congrArg Position.offset position)

/-- The line of a node is a line of the text that it stands in. -/
theorem At.hasLine {line : Nat} (here : node.At text line) : Source.HasLine text line := by
  cases here with
  | tag _ _ split => exact Source.hasLine_before split
  | condition _ _ _ _ split => exact Source.hasLine_before split

/-- The nodes of a template stand in its source. -/
theorem at_of_parse {template : Template} (parses : Template.parse text name = .ok template)
    (found : node ∈ Stmt.allNodes template.children) : node.At text node.line := by
  have spelled := (Template.parseFrom_spelledAs.mp ⟨template, (Template.Accepted.whole parses).parseFrom, rfl⟩).spelled
  have among : node.Among (Source.start text).lexemes.tokens :=
    among_of_spelled spelled found
  exact among.at 0 ((Lexeme.map_moved_zero _).symm ▸ List.infix_rfl)

/-- The nodes of a section stand in the source of the template that declares it. -/
theorem at_of_part {template part : Template} {section_ origin : String} {body : SectionBody}
    (parses : Template.parse text name = .ok template) (declared : .capture section_ body ∈ template.declarations)
    (parsesPart : Template.parsePart body.text origin body.line body.column = .ok part)
    (found : node ∈ Stmt.allNodes part.children) : node.At text node.line := by
  have accepted := Template.Accepted.whole parses
  obtain ⟨tags, inner, ⟨before, after, split⟩, -, -, rfl⟩ := accepted.written.captures declared {}
  obtain ⟨front, -, -, -, -, -, tokens⟩ := accepted.cut split.symm
  have spelled := (Template.parseFrom_spelledAs.mp ⟨part, (Template.Accepted.part parsesPart).parseFrom, rfl⟩).spelled
  have among : node.Among _ := among_of_spelled spelled found
  refine among.at (String.utf8Len front) ?_
  rw [← tokens]
  refine List.IsInfix.trans ?_ ⟨before, after, split⟩
  exact ⟨tags.first, tags.last, rfl⟩

end Node

end TextTemplate
