import TextTemplate.Proofs.Declarations
import TextTemplate.Proofs.Syntax.Recognition

/-!
The grammar of statements: which tokens a statement is written with. Expressions and paths are what
their readers take. A section is written with the tag that starts it, any tokens among which no tag
starts or ends a section, and the tag that ends it; its body is the source between these two tags.
-/
namespace TextTemplate

open Parse

/-- Whether a section starts or ends somewhere among some tokens. -/
def holdsSectionTag : List Lexeme → Bool
  | opening :: keyword :: rest =>
    (opening.token == .tagStart && (keyword.token == .word "section" || keyword.token == .word "endsection")) ||
      holdsSectionTag (keyword :: rest)
  | _ => false

namespace Parse

variable {α : Type}

/-- A reader reads a value from some tokens, whatever stands in front of them and behind. -/
def Reads (p : Parse α) (a : α) (taken : List Lexeme) : Prop :=
  ∃ start next, p.run start = .ok (a, next) ∧ start.tokens = taken ++ next.tokens

end Parse

/-- The part of a template that some tokens are: statements, one tag behind its start, or the branches
of a conditional behind the condition of the first. -/
inductive Phrase where
  | statements (all : List Stmt)
  | tag (stmt : Stmt)
  | branches (branches : List (Expr × List Stmt)) (otherwise : Option (List Stmt))

/-- The tokens of the bindings behind one another, up to the closing bracket. -/
inductive MoreBindings : List (String × Expr) → List Lexeme → Prop where
  | done (ending : Span) : MoreBindings [] [⟨.bracketClose, ending⟩]
  | comma (mark ending : Span) : MoreBindings [] [⟨.comma, mark⟩, ⟨.bracketClose, ending⟩]
  | bound {levels : Nat} {path : Expr} {rest : List (String × Expr)} {name : Lexeme} {key : String}
    {value more : List Lexeme} (mark arrow : Span) :
    Stmt.stringText name.token = some key → (Expr.path levels).Reads path value → MoreBindings rest more →
    MoreBindings ((key, path) :: rest) (⟨.comma, mark⟩ :: name :: ⟨.arrow, arrow⟩ :: (value ++ more))

/-- The tokens of the bindings of an embedding, up to the closing bracket. -/
inductive Bindings : List (String × Expr) → List Lexeme → Prop where
  | none (ending : Span) : Bindings [] [⟨.bracketClose, ending⟩]
  | some {levels : Nat} {path : Expr} {rest : List (String × Expr)} {name : Lexeme} {key : String}
    {value more : List Lexeme} (arrow : Span) :
    Stmt.stringText name.token = some key → (Expr.path levels).Reads path value → MoreBindings rest more →
    Bindings ((key, path) :: rest) (name :: ⟨.arrow, arrow⟩ :: (value ++ more))

/-- The tokens that a part of a template is written with. -/
inductive Written (source : List Char) : Phrase → List Lexeme → Prop where
  | done : Written source (.statements []) []
  | text {rest : List Stmt} {later : List Lexeme} (raw : String) (span : Span) :
    Written source (.statements rest) later →
    Written source (.statements (.text raw span :: rest)) (⟨.text raw, span⟩ :: later)
  | tag {stmt : Stmt} {rest : List Stmt} {inner later : List Lexeme} (opening : Span) :
    Written source (.tag stmt) inner → Written source (.statements rest) later →
    Written source (.statements (stmt :: rest)) (⟨.tagStart, opening⟩ :: (inner ++ later))
  | output {levels : Nat} {value : Expr} {taken : List Lexeme} (span ending : Span) :
    (Expr.parse levels).Reads value taken →
    (∀ first ∈ taken.head?, ∀ keyword ∈ Stmt.keywords, first.token ≠ .word keyword) →
    Written source (.tag (.output value span)) (taken ++ [⟨.tagEnd, ending⟩])
  | layout {quoted : Lexeme} {name : String} (span keyword ending : Span) :
    Stmt.stringText quoted.token = some name →
    Written source (.tag (.layout name span)) [⟨.word "extends", keyword⟩, quoted, ⟨.tagEnd, ending⟩]
  | capture {quoted : Lexeme} {name : String} {inner : List Lexeme} (span keyword tagEnd close closing ending : Span) :
    Stmt.stringText quoted.token = some name → holdsSectionTag inner = false →
    Written source
      (.tag (.capture name
        ⟨String.ofList (Text.slice tagEnd.stop.offset close.start.offset source), tagEnd.stop.line,
          tagEnd.stop.column⟩
        span))
      (⟨.word "section", keyword⟩ :: quoted :: ⟨.tagEnd, tagEnd⟩ ::
        (inner ++ [⟨.tagStart, close⟩, ⟨.word "endsection", closing⟩, ⟨.tagEnd, ending⟩]))
  | fill {quoted : Lexeme} {name : String} (span keyword ending : Span) :
    Stmt.stringText quoted.token = some name →
    Written source (.tag (.fill name span)) [⟨.word "fill", keyword⟩, quoted, ⟨.tagEnd, ending⟩]
  | conditional {levels : Nat} {first : Expr} {body : List Stmt} {rest : List (Expr × List Stmt)}
    {otherwise : Option (List Stmt)} {condition inner : List Lexeme} (span keyword ending : Span) :
    (Expr.parse levels).Reads first condition → Written source (.branches ((first, body) :: rest) otherwise) inner →
    Written source (.tag (.conditional ((first, body) :: rest) otherwise span))
      (⟨.word "if", keyword⟩ :: (condition ++ (inner ++ [⟨.tagEnd, ending⟩])))
  | each {levels : Nat} {item part : String} {collection : Expr} {taken : List Lexeme} {quoted : Lexeme}
    (span keyword named marks uses ending : Span) :
    (Expr.parse levels).Reads collection taken → Stmt.stringText quoted.token = some part →
    Written source (.tag (.each item collection part span))
      (⟨.word "each", keyword⟩ :: ⟨.word item, named⟩ :: ⟨.word "in", marks⟩ ::
        (taken ++ [⟨.word "using", uses⟩, quoted, ⟨.tagEnd, ending⟩]))
  | inclusion {quoted : Lexeme} {name : String} (span keyword ending : Span) :
    Stmt.stringText quoted.token = some name →
    Written source (.tag (.inclusion name span)) [⟨.word "include", keyword⟩, quoted, ⟨.tagEnd, ending⟩]
  | embedding {quoted : Lexeme} {name : String} (span keyword ending : Span) :
    Stmt.stringText quoted.token = some name →
    Written source (.tag (.embedding name [] span)) [⟨.word "embed", keyword⟩, quoted, ⟨.tagEnd, ending⟩]
  | embeddingWith {quoted : Lexeme} {name : String} {bindings : List (String × Expr)} {bound : List Lexeme}
    (span keyword marks opening ending : Span) :
    Stmt.stringText quoted.token = some name → Bindings bindings bound →
    Written source (.tag (.embedding name bindings span))
      (⟨.word "embed", keyword⟩ :: quoted :: ⟨.word "with", marks⟩ :: ⟨.bracketOpen, opening⟩ ::
        (bound ++ [⟨.tagEnd, ending⟩]))
  | lastBranch {condition : Expr} {body : List Stmt} {inner : List Lexeme} (ending opening keyword : Span) :
    Written source (.statements body) inner →
    Written source (.branches [(condition, body)] none)
      (⟨.tagEnd, ending⟩ :: (inner ++ [⟨.tagStart, opening⟩, ⟨.word "endif", keyword⟩]))
  | otherwise {condition : Expr} {body other : List Stmt} {inner last : List Lexeme}
    (ending opening keyword ending' opening' keyword' : Span) :
    Written source (.statements body) inner → Written source (.statements other) last →
    Written source (.branches [(condition, body)] (some other))
      (⟨.tagEnd, ending⟩ ::
        (inner ++ ⟨.tagStart, opening⟩ :: ⟨.word "else", keyword⟩ :: ⟨.tagEnd, ending'⟩ ::
        (last ++ [⟨.tagStart, opening'⟩, ⟨.word "endif", keyword'⟩])))
  | anotherBranch {levels : Nat} {condition second : Expr} {body next : List Stmt} {rest : List (Expr × List Stmt)}
    {otherwise : Option (List Stmt)} {inner taken later : List Lexeme} (ending opening keyword : Span) :
    Written source (.statements body) inner → (Expr.parse levels).Reads second taken →
    Written source (.branches ((second, next) :: rest) otherwise) later →
    Written source (.branches ((condition, body) :: (second, next) :: rest) otherwise)
      (⟨.tagEnd, ending⟩ ::
        (inner ++ ⟨.tagStart, opening⟩ :: ⟨.word "elseif", keyword⟩ :: (taken ++ later)))

namespace Stmt

theorem endsBranch_cases {token : Token} (ends : endsBranch token = true) :
    token = .word "elseif" ∨ token = .word "else" ∨ token = .word "endif" := by
  unfold endsBranch at ends
  split at ends
  · simpa [or_assoc] using ends
  · cases ends

end Stmt

end TextTemplate
