import TextTemplate.Proofs.Syntax.Statements
import TextTemplate.Syntax.Parser

/-!
Which tags may stand where, by their keywords alone: each conditional ends, and has no branch behind
its `else`; each section ends, and holds no other one. Tokens that are read as statements are nested so,
and no name of a section and no layout stands in their tags twice.
-/
namespace TextTemplate

/-- The name of the section that is declared. -/
def Declaration.section? : Declaration → Option String
  | .layout _ => none
  | .capture name _ => some name

/-- Statements that declare no section twice, and at most one layout. -/
structure Stmt.DeclaresOnce (all : List Stmt) : Prop where
  sections : ((allDeclarations all).filterMap Declaration.section?).Nodup
  layouts : ((allDeclarations all).filterMap Declaration.layout?).length ≤ 1

theorem Pending.admits_iff {start : Pending} {declared : List Declaration} :
    start.Admits declared ↔
      (declared.filterMap Declaration.section?).Nodup ∧
      (∀ name ∈ declared.filterMap Declaration.section?, name ∉ start.sections) ∧
      (declared.filterMap Declaration.layout?).length + start.hasLayout.toNat ≤ 1 := by
  induction declared generalizing start with
  | nil => simp [Admits, Bool.toNat_le]
  | cons declaration declared ih =>
    rw [Admits, ih]
    cases declaration with
    | layout name =>
      simp only [Allows, note, List.filterMap_cons, Declaration.section?, Declaration.layout?, List.length_cons]
      cases start.hasLayout <;> simp
    | capture name body =>
      simp only [Allows, note, List.filterMap_cons, Declaration.section?, Declaration.layout?, List.nodup_cons,
        List.mem_cons, not_or, forall_eq_or_imp]
      constructor
      · rintro ⟨fresh, nodup, others, layouts⟩
        exact ⟨⟨fun found => (others name found).1 rfl, nodup⟩, ⟨fresh, fun other found => (others other found).2⟩,
          layouts⟩
      · rintro ⟨⟨unnamed, nodup⟩, ⟨fresh, others⟩, layouts⟩
        exact ⟨fresh, nodup, fun other found => ⟨fun same => unnamed (same ▸ found), others other found⟩, layouts⟩

/-- What the tags so far leave open, and what they declared. -/
structure Nesting where
  /-- Conditionals that have not ended, innermost first, each with whether its last branch has started. -/
  conditionals : List Bool := []
  inSection : Bool := false
  sections : List String := []
  layouts : Nat := 0

namespace Nesting

/-- A tag in a section; nothing if it may not stand there. -/
def sectionTag (nesting : Nesting) : (keyword : Token) → Option Nesting
  | .word "section" => none
  | .word "endsection" => some { nesting with inSection := false }
  | _ => some nesting

/-- A tag outside of sections with its keyword and the token behind it; nothing if it may not stand there. -/
def outerTag (nesting : Nesting) (keyword : Token) (behind : Option Token) : Option Nesting :=
  match keyword with
  | .word "if" => some { nesting with conditionals := false :: nesting.conditionals }
  | .word "elseif" =>
    match nesting.conditionals with
    | false :: _ => some nesting
    | _ => none
  | .word "else" =>
    match nesting.conditionals with
    | false :: outer => some { nesting with conditionals := true :: outer }
    | _ => none
  | .word "endif" =>
    match nesting.conditionals with
    | _ :: outer => some { nesting with conditionals := outer }
    | [] => none
  | .word "section" =>
    match behind.bind Stmt.stringText with
    | some name => some { nesting with inSection := true, sections := nesting.sections ++ [name] }
    | none => none
  | .word "endsection" => none
  | .word "extends" => some { nesting with layouts := nesting.layouts + 1 }
  | _ => some nesting

def tag (nesting : Nesting) (keyword : Token) (behind : Option Token) : Option Nesting :=
  if nesting.inSection then nesting.sectionTag keyword else nesting.outerTag keyword behind

/-- The tag whose start stands in front of some tokens. -/
def opened (nesting : Nesting) : List Lexeme → Option Nesting
  | [] => none
  | keyword :: behind => nesting.tag keyword.token (behind.head?.map (·.token))

/-- The tags among some tokens, one after the other. -/
def along (nesting : Nesting) : List Lexeme → Option Nesting
  | [] => some nesting
  | first :: rest =>
    if first.token = .tagStart then nesting.opened rest >>= (along · rest) else nesting.along rest

/-- Whether nothing is open, and nothing was declared twice. -/
def isClosed (nesting : Nesting) : Bool :=
  nesting.conditionals.isEmpty && !nesting.inSection && nesting.sections.Nodup && nesting.layouts ≤ 1

/-- What nesting is behind declarations. -/
def noting (nesting : Nesting) (declared : List Declaration) : Nesting :=
  { nesting with
    sections := nesting.sections ++ declared.filterMap Declaration.section?
    layouts := nesting.layouts + (declared.filterMap Declaration.layout?).length }

end Nesting

/-- Whether each tag among some tokens may stand where it does. -/
def isNested (tokens : List Lexeme) : Bool :=
  (Nesting.along {} tokens).any Nesting.isClosed

namespace Nesting

variable {nesting : Nesting} {one two : List Declaration} {taken rest : List Lexeme}

@[simp]
theorem noting_nil : nesting.noting [] = nesting := by
  simp [noting]

@[simp]
theorem noting_layout {name : String} :
    nesting.noting [.layout name] = { nesting with layouts := nesting.layouts + 1 } := by
  show (⟨_, _, nesting.sections ++ [], _⟩ : Nesting) = _
  rw [List.append_nil]
  rfl

@[simp]
theorem noting_capture {name : String} {body : SectionBody} :
    nesting.noting [.capture name body] = { nesting with sections := nesting.sections ++ [name] } := rfl

theorem noting_append (one two : List Declaration) : nesting.noting (one ++ two) = (nesting.noting one).noting two := by
  simp [noting, Nat.add_assoc]

theorem along_plain (plain : ∀ lexeme ∈ taken, lexeme.token ≠ .tagStart) (rest : List Lexeme) :
    nesting.along (taken ++ rest) = nesting.along rest := by
  induction taken with
  | nil => rfl
  | cons first taken ih =>
    obtain ⟨plainFirst, plain⟩ := List.forall_mem_cons.mp plain
    rw [List.cons_append, along, if_neg plainFirst, ih plain]

theorem along_tag {opening : Span} {keyword : Lexeme} (plain : keyword.token ≠ .tagStart) :
    nesting.along (⟨.tagStart, opening⟩ :: keyword :: rest) =
      nesting.tag keyword.token (rest.head?.map (·.token)) >>= (along · rest) := by
  rw [along, if_pos rfl, opened]
  congr 1
  funext nesting
  rw [along, if_neg plain]

theorem along_keyword {opening keyword : Span} {word : String} :
    nesting.along (⟨.tagStart, opening⟩ :: ⟨.word word, keyword⟩ :: rest) =
      nesting.tag (.word word) (rest.head?.map (·.token)) >>= (along · rest) :=
  along_tag nofun

/-- The keywords of tags that must stand in their places, or only once. -/
def placedKeywords : List String :=
  ["if", "elseif", "else", "endif", "section", "endsection", "extends"]

theorem tag_outside {keyword : Token} {behind : Option Token} (outside : nesting.inSection = false) :
    nesting.tag keyword behind = nesting.outerTag keyword behind :=
  if_neg (outside ▸ Bool.false_ne_true)

theorem tag_plain {keyword : Token} {behind : Option Token} (outside : nesting.inSection = false)
    (other : ∀ word ∈ placedKeywords, keyword ≠ .word word) : nesting.tag keyword behind = some nesting := by
  rw [tag_outside outside]
  unfold outerTag
  split <;> first | rfl | exact absurd rfl (other _ (by decide))

theorem tag_within {keyword : Token} {behind : Option Token} (within : nesting.inSection = true)
    (other : keyword ≠ .word "section" ∧ keyword ≠ .word "endsection") : nesting.tag keyword behind = some nesting := by
  rw [tag, if_pos within]
  unfold sectionTag
  split
  · exact absurd rfl other.1
  · exact absurd rfl other.2
  · rfl

/-- In a section nothing counts up to the tag that ends it. -/
theorem along_section {close closing ending : Span} (within : nesting.inSection = true)
    (free : holdsSectionTag taken = false) :
    nesting.along (taken ++ (Stmt.sectionClose close closing ending ++ rest)) =
      { nesting with inSection := false }.along rest := by
  induction taken with
  | nil =>
    have closes {behind : Option Token} :
        nesting.tag (.word "endsection") behind = some { nesting with inSection := false } := if_pos within
    rw [List.nil_append, Stmt.sectionClose, List.cons_append, List.cons_append, along_keyword, closes]
    rfl
  | cons first taken ih =>
    have later : holdsSectionTag taken = false := by
      cases taken with
      | nil => rfl
      | cons ahead taken => exact (Stmt.holdsSectionTag_cons_eq_false.mp free).2
    rw [List.cons_append, along]
    split
    · rename_i opens
      have passes : nesting.opened (taken ++ (Stmt.sectionClose close closing ending ++ rest)) = some nesting := by
        cases taken with
        | nil => exact tag_within within (by simp)
        | cons ahead taken =>
          obtain ⟨other, -⟩ := Stmt.holdsSectionTag_cons_eq_false.mp free
          exact tag_within within (other.resolve_left (not_not_intro opens))
      rw [passes]
      exact ih later
    · exact ih later

/-- A tag that no other one belongs to leaves open what was, and declares nothing. -/
theorem along_plainTag {opening : Span} {first : Lexeme} (outside : nesting.inSection = false)
    (other : ∀ word ∈ placedKeywords, first.token ≠ .word word)
    (plain : ∀ lexeme ∈ first :: taken, lexeme.token ≠ .tagStart) :
    nesting.along (⟨.tagStart, opening⟩ :: (first :: taken ++ rest)) = nesting.along rest := by
  obtain ⟨plainFirst, plain⟩ := List.forall_mem_cons.mp plain
  rw [List.cons_append, along_tag plainFirst, tag_plain outside other]
  exact along_plain plain rest

theorem plain_of_text {quoted : Lexeme} {name : String} (text : Stmt.stringText quoted.token = some name) :
    quoted.token ≠ .tagStart := by
  intro opens
  rw [opens] at text
  cases text

theorem plain_of_reads {p : Parse Expr} {value : Expr} (reads : p.Reads value taken) (locally : p.Local) :
    ∀ lexeme ∈ taken, lexeme.token ≠ .tagStart := by
  intro lexeme found opens
  have inner := (reads.inner locally).2 lexeme found
  rw [opens] at inner
  cases inner

theorem plain_of_moreBound {levels : Nat} {bindings : List (String × Expr)}
    (bound : Stmt.MoreBound levels bindings taken) : ∀ lexeme ∈ taken, lexeme.token ≠ .tagStart := by
  induction bound with
  | done | comma => simp
  | bound mark arrow text reads more ih =>
    simp only [List.mem_cons, List.mem_append]
    rintro lexeme (rfl | rfl | rfl | found | found)
    · nofun
    · exact plain_of_text text
    · nofun
    · exact plain_of_reads reads (Expr.path_local levels) lexeme found
    · exact ih lexeme found

theorem plain_of_bound {levels : Nat} {bindings : List (String × Expr)} (bound : Stmt.Bound levels bindings taken) :
    ∀ lexeme ∈ taken, lexeme.token ≠ .tagStart := by
  cases bound with
  | none => simp
  | some arrow text reads more =>
    simp only [List.mem_cons, List.mem_append]
    rintro lexeme (rfl | rfl | found | found)
    · exact plain_of_text text
    · nofun
    · exact plain_of_reads reads (Expr.path_local levels) lexeme found
    · exact plain_of_moreBound more lexeme found

/-- A tag that is no part of a conditional leaves open what was. -/
theorem along_tagged {source : List Char} {levels : Nat} {opening : Span} {stmt : Stmt}
    (tagged : Stmt.Tagged source levels opening stmt taken) (outside : nesting.inSection = false) :
    nesting.along (⟨.tagStart, opening⟩ :: (taken ++ rest)) = (nesting.noting stmt.declarations).along rest := by
  cases tagged with
  | @output value taken ending reads free =>
    have plain := plain_of_reads reads (Expr.parse_local levels)
    obtain ⟨some, -⟩ := reads.inner (Expr.parse_local levels)
    obtain ⟨first, taken, rfl⟩ := List.exists_cons_of_ne_nil some
    rw [Stmt.declarations, noting_nil]
    refine along_plainTag outside (fun word placed => ?_) ?_
    · exact free first rfl word (by revert word; decide)
    · exact List.forall_mem_append.mpr ⟨plain, by simp⟩
  | @layout quoted name keyword ending text =>
    rw [List.cons_append, along_keyword, tag_outside outside, Stmt.declarations, noting_layout]
    refine along_plain ?_ rest
    simp [plain_of_text text]
  | @capture quoted name inner keyword tagEnd close closing ending text free =>
    have starts : nesting.outerTag (.word "section") (some quoted.token) =
        some { nesting with inSection := true, sections := nesting.sections ++ [name] } := by
      unfold outerTag
      simp only [Option.bind_some, text]
    rw [List.cons_append, along_keyword, tag_outside outside, Stmt.declarations, noting_capture]
    refine (congrArg (· >>= _) starts).trans ?_
    show along _ ([quoted, ⟨.tagEnd, tagEnd⟩] ++ (inner ++ _ ++ rest)) = _
    rw [along_plain (by simp [plain_of_text text]), List.append_assoc, along_section rfl free, ← outside]
  | @fill quoted name keyword ending text | @inclusion quoted name keyword ending text
  | @embedding quoted name keyword ending text =>
    rw [Stmt.declarations, noting_nil]
    refine along_plainTag outside (by simp [placedKeywords]) ?_
    simp [plain_of_text text]
  | each keyword named marks uses ending reads text =>
    rw [Stmt.declarations, noting_nil]
    refine along_plainTag outside (by simp [placedKeywords]) ?_
    simp only [List.forall_mem_cons, List.forall_mem_append]
    exact ⟨nofun, nofun, nofun, plain_of_reads reads (Expr.parse_local levels), nofun, plain_of_text text, nofun, nofun⟩
  | embeddingWith keyword marks bracket ending text bound =>
    rw [Stmt.declarations, noting_nil]
    refine along_plainTag outside (by simp [placedKeywords]) ?_
    simp only [List.forall_mem_cons, List.forall_mem_append]
    exact ⟨nofun, plain_of_text text, nofun, nofun, plain_of_bound bound, nofun, nofun⟩

/-- What tokens leave open that are a part of a template: nothing new, and the branches of a conditional
the conditionals around it. -/
def LeavesOpen (taken : List Lexeme) : Phrase → Prop
  | .statements all =>
    ∀ (nesting : Nesting) (rest : List Lexeme), nesting.inSection = false →
      nesting.along (taken ++ rest) = (nesting.noting (Stmt.allDeclarations all)).along rest
  | .branches all otherwise =>
    ∀ (nesting : Nesting) (outer : List Bool) (rest : List Lexeme), nesting.inSection = false →
      nesting.conditionals = false :: outer →
      nesting.along (taken ++ rest) =
        ({ nesting with conditionals := outer }.noting
          (Stmt.branchDeclarations all ++ Stmt.otherwiseDeclarations otherwise)).along rest
  | .tag _ => True

theorem along_tagEnd {ending : Span} : nesting.along (⟨.tagEnd, ending⟩ :: rest) = nesting.along rest := rfl

theorem spelled_leavesOpen {source : List Char} {levels : Nat} {phrase : Phrase}
    (spelled : Stmt.Spelled source levels phrase taken) : LeavesOpen taken phrase := by
  induction spelled with
  | done =>
    intro nesting rest _
    rw [Stmt.allDeclarations, noting_nil]
    rfl
  | text raw span spelled ih => exact ih
  | @tag levels stmt stmts inner later opening tagged spelled ih =>
    intro nesting rest outside
    rw [List.cons_append, List.append_assoc, along_tagged tagged outside,
      ih (nesting.noting stmt.declarations) rest outside, Stmt.allDeclarations, noting_append]
  | @conditional levels first body others otherwise stmts condition inner later opening keyword ending reads spelled
      _ ihInner ih =>
    intro nesting rest outside
    have opened {behind : Option Token} : nesting.outerTag (.word "if") behind =
        some { nesting with conditionals := false :: nesting.conditionals } := rfl
    simp only [List.cons_append, List.append_assoc]
    rw [along_keyword, tag_outside outside, opened]
    show along _ (condition ++ _) = _
    rw [along_plain (plain_of_reads reads (Expr.parse_local levels)),
      ihInner { nesting with conditionals := false :: nesting.conditionals } nesting.conditionals _ outside rfl,
      along_tagEnd, ih (nesting.noting _) rest outside, ← noting_append]
    rfl
  | @lastBranch levels condition body inner ending opening keyword spelled ih =>
    intro nesting outer rest outside within
    have behind : (nesting.noting (Stmt.allDeclarations body)).inSection = false := outside
    have closes {behind : Option Token} : (nesting.noting (Stmt.allDeclarations body)).outerTag (.word "endif") behind =
        some ({ nesting with conditionals := outer }.noting (Stmt.allDeclarations body)) := by
      simp [outerTag, noting, within]
    simp only [List.cons_append, List.append_assoc, List.nil_append, Stmt.branchDeclarations,
      Stmt.otherwiseDeclarations, List.append_nil]
    rw [along_tagEnd, ih nesting _ outside, along_keyword, tag_outside behind, closes]
    rfl
  | @otherwise levels condition body other inner last ending opening keyword ending' opening' keyword' spelled
      spelledOther ih ihOther =>
    intro nesting outer rest outside within
    have behind : (nesting.noting (Stmt.allDeclarations body)).inSection = false := outside
    have turns {behind : Option Token} : (nesting.noting (Stmt.allDeclarations body)).outerTag (.word "else") behind =
        some ({ nesting with conditionals := true :: outer }.noting (Stmt.allDeclarations body)) := by
      simp [outerTag, noting, within]
    simp only [List.cons_append, List.append_assoc, List.nil_append, Stmt.branchDeclarations,
      Stmt.otherwiseDeclarations]
    rw [along_tagEnd, ih nesting _ outside, along_keyword, tag_outside behind, turns]
    have other := ihOther ({ nesting with conditionals := true :: outer }.noting (Stmt.allDeclarations body))
      (⟨.tagStart, opening'⟩ :: ⟨.word "endif", keyword'⟩ :: rest) outside
    refine other.trans ?_
    rw [along_keyword, tag_outside, noting_append]
    · rfl
    · exact outside
  | @anotherBranch levels condition second body next others otherwise inner taken later ending opening keyword spelled
      reads spelledOthers ih ihOthers =>
    intro nesting outer rest outside within
    have behind : (nesting.noting (Stmt.allDeclarations body)).inSection = false := outside
    have goes {behind : Option Token} : (nesting.noting (Stmt.allDeclarations body)).outerTag (.word "elseif") behind =
        some (nesting.noting (Stmt.allDeclarations body)) := by
      simp [outerTag, noting, within]
    simp only [List.cons_append, List.append_assoc]
    rw [along_tagEnd, ih nesting _ outside, along_keyword, tag_outside behind, goes]
    show along _ (taken ++ _) = _
    rw [along_plain (plain_of_reads reads (Expr.parse_local levels)),
      ihOthers (nesting.noting (Stmt.allDeclarations body)) outer _ outside within]
    show _ = along (noting _ (_ ++ Stmt.branchDeclarations ((second, next) :: others) ++ _)) rest
    rw [List.append_assoc, noting_append (Stmt.allDeclarations body)]
    rfl

end Nesting

/-- Tokens that spell statements which declare nothing twice are nested. -/
theorem Stmt.Spelled.isNested {source : List Char} {levels : Nat} {all : List Stmt} {tokens : List Lexeme}
    (spelled : Spelled source levels (.statements all) tokens) (once : DeclaresOnce all) :
    TextTemplate.isNested tokens = true := by
  have along := Nesting.spelled_leavesOpen spelled {} [] rfl
  rw [List.append_nil] at along
  rw [TextTemplate.isNested, along]
  simp [Nesting.along, Nesting.noting, Nesting.isClosed, once.sections, once.layouts]

theorem Stmt.run_parse_whole_eq_ok {source : List Char} {levels : Nat} {tokens : List Lexeme}
    {problem : Option SyntaxProblem} {last : Span} {all : List Stmt} :
    (∃ next, (parse source levels (fun _ => false)).run { tokens, problem, last } = .ok (all, next)) ↔
      problem = none ∧ Spelled source levels (.statements all) tokens ∧ DeclaresOnce all := by
  constructor
  · rintro ⟨next, reads⟩
    obtain ⟨taken, closing, spelled, declares, ends⟩ :=
      (run_parse_eq_ok fun _ stops => absurd stops Bool.false_ne_true).mp reads
    obtain ⟨front, admits, -⟩ := declares
    obtain ⟨sections, -, layouts⟩ := Pending.admits_iff.mp admits
    generalize next.tokens = rest at front ends
    cases ends with
    | source whole =>
      have front : tokens = taken := front.trans (by simp)
      exact ⟨whole, front ▸ spelled, sections, layouts⟩
    | tag opening stops => cases stops
  · rintro ⟨whole, spelled, once⟩
    let start : Pending := { tokens, problem, last }
    have admits : start.Admits (allDeclarations all) :=
      Pending.admits_iff.mpr ⟨once.sections, fun _ _ => List.not_mem_nil, once.layouts⟩
    refine ⟨start.beyond (allDeclarations all) tokens [], ?_⟩
    refine (run_parse_eq_ok fun _ stops => absurd stops Bool.false_ne_true).mpr ⟨tokens, [], spelled, ?_, .source whole⟩
    rw [List.append_nil]
    exact ⟨(List.append_nil _).symm, admits, rfl⟩

namespace Template

/-- Whether the tokens of a source from some place on spell statements that declare nothing twice. -/
structure SpelledAs (source : List Char) (start : Cursor) (all : List Stmt) : Prop where
  whole : start.lexemes.problem = none
  spelled : Stmt.Spelled source maxSyntaxLevels (.statements all) start.lexemes.tokens
  once : Stmt.DeclaresOnce all

theorem parseFrom_spelledAs {source : List Char} {start : Cursor} {all : List Stmt} :
    (∃ template, parseFrom source start = .ok template ∧ template.children = all) ↔ SpelledAs source start all := by
  constructor
  · rintro ⟨template, parsed, rfl⟩
    unfold parseFrom at parsed
    dsimp only at parsed
    split at parsed
    · cases parsed
    · rename_i all reads
      obtain rfl := Except.ok.inj parsed
      obtain ⟨whole, spelled, once⟩ :=
        Stmt.run_parse_whole_eq_ok.mp ⟨all.next, Parse.run_eq_ok.mpr ⟨all, reads, rfl, rfl⟩⟩
      exact ⟨whole, spelled, once⟩
  · rintro ⟨whole, spelled, once⟩
    let before : Position := ⟨start.position.line, 0, 0⟩
    let pending : Pending :=
      { tokens := start.lexemes.tokens, problem := start.lexemes.problem, last := ⟨before, before⟩ }
    obtain ⟨next, reads⟩ : ∃ next, (Stmt.parse source maxSyntaxLevels fun _ => false).run pending = .ok (all, next) :=
      Stmt.run_parse_whole_eq_ok.mpr ⟨whole, spelled, once⟩
    obtain ⟨r, goes, rfl, -⟩ := Parse.run_eq_ok.mp reads
    refine ⟨⟨r.value, Span.upTo ⟨before, before⟩ r.next.last⟩, ?_, rfl⟩
    unfold parseFrom
    dsimp only
    split
    · rename_i failed
      cases goes.symm.trans failed
    · rename_i all same
      obtain rfl := Except.ok.inj (goes.symm.trans same)
      rfl

/-- A template is read or its syntax is wrong. -/
theorem parse_eq (text name : String) :
    (∃ template, parse text name = .ok template ∧ SpelledAs text.toList (Source.start text) template.children) ∨
      ∃ fault, parse text name = .error fault ∧ fault.kind = .syntaxError ∧
        ∀ all, ¬SpelledAs text.toList (Source.start text) all := by
  unfold parse
  cases parsed : parseFrom text.toList (Source.start text) with
  | ok template => exact .inl ⟨template, rfl, parseFrom_spelledAs.mp ⟨template, parsed, rfl⟩⟩
  | error misread =>
    refine .inr ⟨_, rfl, rfl, fun all spelled => ?_⟩
    obtain ⟨template, same, -⟩ := parseFrom_spelledAs.mpr spelled
    cases parsed.symm.trans same

/-- Tokens are read as statements if and only if they spell them, and the statements declare no section twice and at
most one layout. The text of a template is read so, with nested tags, or its syntax is wrong. -/
theorem statements_spelled :
    (∀ (source : List Char) (levels : Nat) (tokens : List Lexeme) (problem : Option SyntaxProblem) (last : Span)
        (all : List Stmt),
      (∃ next, (Stmt.parse source levels fun _ => false).run { tokens, problem, last } = .ok (all, next)) ↔
        problem = none ∧ Stmt.Spelled source levels (.statements all) tokens ∧ Stmt.DeclaresOnce all) ∧
    ∀ text name : String,
      match parse text name with
      | .ok template =>
        SpelledAs text.toList (Source.start text) template.children ∧
          isNested (Source.start text).lexemes.tokens = true
      | .error fault => fault.kind = .syntaxError ∧ ∀ all, ¬SpelledAs text.toList (Source.start text) all := by
  refine ⟨fun source levels tokens problem last all => Stmt.run_parse_whole_eq_ok, fun text name => ?_⟩
  obtain ⟨template, parsed, spelled⟩ | ⟨fault, failed, kind, unspelled⟩ := parse_eq text name
  · rw [parsed]
    exact ⟨spelled, spelled.spelled.isNested spelled.once⟩
  · rw [failed]
    exact ⟨kind, unspelled⟩

end Template

end TextTemplate
