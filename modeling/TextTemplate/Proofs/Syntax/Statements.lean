import TextTemplate.Proofs.Syntax.Tags

/-!
Statements are read up to where they end, and conditionals up to the tag that ends them, exactly from
the tokens that spell them. What the parts of a template declare passes from each part to the next.
-/
namespace TextTemplate

open Parse

namespace Stmt

variable {source : List Char} {levels : Nat} {start next : Pending} {span opening : Span}
  {stmt : Stmt} {taken rest : List Lexeme} {word : String} {keyword : Span}

/-- The reader of conditionals where `levels` more of them may nest. -/
def conditionalAt (source : List Char) : Nat → Parse Branches
  | 0 => fail .tooNested
  | inner + 1 => conditionalTag (Expr.parse inner) (parse source inner)

theorem parse_eq_block (source : List Char) (levels : Nat) (stops : Token → Bool) :
    parse source levels stops = block (tag source levels (conditionalAt source levels)) stops := by
  cases levels <;> rfl

/-- Where a block ends: at the end of the source, or behind the start of a tag that stops it. -/
inductive BlockEnds (stops : Token → Bool) (problem : Option SyntaxProblem) : (closing rest : List Lexeme) → Prop where
  | source : problem = none → BlockEnds stops problem [] []
  | tag {first : Lexeme} {rest : List Lexeme} (opening : Span) :
    stops first.token = true → BlockEnds stops problem [⟨.tagStart, opening⟩] (first :: rest)

/-- Tokens spell statements up to where a block ends, and the statements may declare what they do. -/
structure Block (source : List Char) (levels : Nat) (stops : Token → Bool) (all : List Stmt)
    (taken closing : List Lexeme) (start next : Pending) : Prop where
  spelled : Spelled source levels (.statements all) taken
  declares : start.Declares (allDeclarations all) (taken ++ closing) next
  ends : BlockEnds stops start.problem closing next.tokens

variable {stops : Token → Bool} {all : List Stmt} {middle : Pending} {closing front : List Lexeme}
  {declared : List Declaration}

/-- A block goes on behind what stands in front of it. -/
theorem Block.prepend {stmts : List Stmt} (block : Block source levels stops stmts taken closing middle next)
    (declares : start.Declares declared front middle)
    (declared_eq : allDeclarations all = declared ++ allDeclarations stmts)
    (spelled : Spelled source levels (.statements all) (front ++ taken)) :
    Block source levels stops all (front ++ taken) closing start next := by
  refine ⟨spelled, ?_, declares.problem ▸ block.ends⟩
  rw [declared_eq, List.append_assoc]
  exact declares.trans block.declares

/-- What a tag reads, it reads from tokens that spell it. -/
def TagSound (source : List Char) (levels : Nat) (tag : Span → Parse Stmt) : Prop :=
  ∀ ⦃opening start next stmt⦄, (tag opening).run start = .ok (stmt, next) →
    ∃ taken, start.Declares stmt.declarations taken next ∧
      ∀ {stmts later}, Spelled source levels (.statements stmts) later →
        Spelled source levels (.statements (stmt :: stmts)) (⟨.tagStart, opening⟩ :: (taken ++ later))

theorem block_sound {tag : Span → Parse Stmt} (sound : TagSound source levels tag)
    (reads : (block tag stops).run start = .ok (all, next)) :
    ∃ taken closing, Block source levels stops all taken closing start next := by
  induction size : start.tokens.length using Nat.strongRecOn generalizing start all with
  | ind n ih =>
  rw [run_block] at reads
  split at reads
  · rename_i front
    split at reads
    · cases reads
    · rename_i ended
      obtain ⟨rfl, rfl⟩ := Prod.mk.inj (Except.ok.inj reads)
      exact ⟨[], [], .done, .refl start, by rw [front]; exact .source ended⟩
  rename_i lexeme rest front
  obtain ⟨token, span⟩ := lexeme
  have one {token : Token} (front : start.tokens = ⟨token, span⟩ :: rest) :
      start.Declares [] [⟨token, span⟩] (start.behind ⟨token, span⟩ rest) := .single front
  split at reads
  · rename_i raw text
    obtain rfl : token = .text raw := text
    obtain ⟨⟨later, _⟩, goes, more⟩ := bind_eq_ok.mp reads
    obtain ⟨rfl, rfl⟩ := Prod.mk.inj (Except.ok.inj more)
    obtain ⟨taken, closing, block⟩ := ih _ (size ▸ (one front).shorter (by simp)) goes rfl
    exact ⟨_, _, block.prepend (one front) rfl (.text raw span block.spelled)⟩
  · rename_i opens
    obtain rfl : token = .tagStart := opens
    obtain ⟨⟨ahead, _⟩, peeks, more⟩ := bind_eq_ok.mp reads
    obtain ⟨-, rfl⟩ := run_peek_eq_ok peeks
    dsimp only at more
    split at more
    · rename_i stopped
      obtain ⟨rfl, rfl⟩ := Prod.mk.inj (Except.ok.inj more)
      cases rest with
      | nil => cases stopped
      | cons first rest => exact ⟨[], _, .done, one front, .tag span stopped⟩
    · obtain ⟨⟨stmt, middle⟩, tagged, more⟩ := bind_eq_ok.mp more
      obtain ⟨⟨later, _⟩, goes, more⟩ := bind_eq_ok.mp more
      obtain ⟨rfl, rfl⟩ := Prod.mk.inj (Except.ok.inj more)
      obtain ⟨inner, declares, spells⟩ := sound tagged
      have whole := (one front).trans declares
      obtain ⟨taken, closing, block⟩ := ih _ (size ▸ whole.shorter (by simp)) goes rfl
      exact ⟨_, _, block.prepend whole rfl (spells block.spelled)⟩
  · cases reads

theorem BlockEnds.of_cons {problem : Option SyntaxProblem} {first : Lexeme}
    (ends : BlockEnds stops problem closing (first :: rest)) :
    ∃ opening, closing = [⟨.tagStart, opening⟩] ∧ stops first.token = true := by
  cases ends with
  | tag opening stops => exact ⟨opening, rfl, stops⟩

/-- The branches of a conditional are spelled by the tokens they are read from. -/
theorem branches_sound {body : (Token → Bool) → Parse (List Stmt)}
    (sound : ∀ {stops start next all}, (body stops).run start = .ok (all, next) →
      ∃ taken closing, Block source levels stops all taken closing start next)
    {first : Expr} {all : List (Expr × List Stmt)} {otherwise : Option (List Stmt)}
    (reads : (branches (Expr.parse levels) body first).run start = .ok ((all, otherwise), next)) :
    ∃ taken inner others, all = (first, inner) :: others ∧ Spelled source levels (.branches all otherwise) taken ∧
      start.Declares (branchDeclarations all ++ otherwiseDeclarations otherwise) taken next := by
  induction size : start.tokens.length using Nat.strongRecOn generalizing start first all with
  | ind n ih =>
  rw [run_branches] at reads
  obtain ⟨⟨⟨_, ending⟩, _⟩, one, more⟩ := bind_eq_ok.mp reads
  obtain ⟨rest, front, rfl⟩ := run_expectIs_eq_ok.mp one
  have opened : start.Declares [] [⟨.tagEnd, ending⟩] (start.past [⟨.tagEnd, ending⟩] rest) := .past front
  obtain ⟨⟨inner, middle⟩, two, more⟩ := bind_eq_ok.mp more
  obtain ⟨⟨after, behind⟩, three, more⟩ := bind_eq_ok.mp more
  obtain ⟨⟨keyword, _⟩, _, four, five⟩ := run_bind_eq_ok.mp three
  obtain ⟨⟨token, place⟩, later, ahead, named, -, rfl⟩ := run_expect_eq_ok.mp four
  obtain rfl := Expr.wordName_eq_some named
  have worded : middle.Declares [] [⟨.word keyword, place⟩] (middle.behind ⟨.word keyword, place⟩ later) :=
    .single ahead
  obtain ⟨taken, closing, spelled, declares, ends⟩ := sound two
  rw [ahead] at ends
  obtain ⟨opening, rfl, stops⟩ := ends.of_cons
  have branch := (opened.trans declares).trans worded
  rcases endsBranch_cases stops with word | word | word
  all_goals obtain rfl := Token.word.inj word
  · obtain ⟨second, _, six, seven⟩ := run_bind_eq_ok.mp five
    obtain ⟨rfl, rfl⟩ := run_pure_eq_ok.mp seven
    obtain ⟨condition, value, passes⟩ := (Expr.parse_local levels).reads six
    obtain ⟨⟨⟨others, _⟩, _⟩, eight, more⟩ := bind_eq_ok.mp more
    obtain ⟨same, rfl⟩ := Prod.mk.inj (Except.ok.inj more)
    obtain ⟨rfl, rfl⟩ := Prod.mk.inj same
    have conditioned := branch.trans passes.declares
    obtain ⟨last, body, _, rfl, spelledLast, declaresLast⟩ := ih _ (size ▸ conditioned.shorter (by simp)) eight rfl
    refine ⟨_, inner, _, rfl, .anotherBranch ending opening place spelled value spelledLast, ?_⟩
    simpa [branchDeclarations] using conditioned.trans declaresLast
  · obtain ⟨ending', _, six, seven⟩ := run_bind_eq_ok.mp five
    obtain ⟨other, _, eight, nine⟩ := run_bind_eq_ok.mp seven
    obtain ⟨closing, _, ten, eleven⟩ := run_bind_eq_ok.mp nine
    obtain ⟨rfl, rfl⟩ := run_pure_eq_ok.mp eleven
    obtain ⟨same, rfl⟩ := Prod.mk.inj (Except.ok.inj more)
    obtain ⟨rfl, rfl⟩ := Prod.mk.inj same
    obtain ⟨_, closed, rfl⟩ := run_endOfTag_eq_ok.mp six
    obtain ⟨_, endif, rfl⟩ := run_expectToken_eq_ok.mp ten
    obtain ⟨last, _, spelledLast, declaresLast, endsLast⟩ := sound eight
    rw [endif] at endsLast
    obtain ⟨opening', rfl, -⟩ := endsLast.of_cons
    have whole := ((branch.trans (.single closed)).trans declaresLast).trans (.single endif)
    refine ⟨_, inner, [], rfl, .otherwise ending opening place ending' opening' closing spelled spelledLast, ?_⟩
    simpa [branchDeclarations, otherwiseDeclarations, Pending.behind_eq_past] using whole
  · obtain ⟨rfl, rfl⟩ := run_pure_eq_ok.mp five
    obtain ⟨same, rfl⟩ := Prod.mk.inj (Except.ok.inj more)
    obtain ⟨rfl, rfl⟩ := Prod.mk.inj same
    refine ⟨_, inner, [], rfl, .lastBranch ending opening place spelled, ?_⟩
    simpa [branchDeclarations, otherwiseDeclarations] using branch

/-- Statements are spelled by the tokens they are read from. -/
theorem parse_sound (reads : (parse source levels stops).run start = .ok (all, next)) :
    ∃ taken closing, Block source levels stops all taken closing start next := by
  induction levels generalizing stops start next all with
  | zero =>
    rw [parse_eq_block] at reads
    refine block_sound (fun opening start next stmt reads => ?_) reads
    obtain ⟨taken, tagged, declares⟩ | ⟨keyword, rest, branches, otherwise, -, fails, -⟩ := tag_eq_ok reads
    · exact ⟨taken, declares, .tag opening tagged⟩
    · cases fails
  | succ inner ih =>
    rw [parse_eq_block] at reads
    refine block_sound (fun opening start next stmt reads => ?_) reads
    obtain ⟨taken, tagged, declares⟩ | ⟨keyword, rest, _, otherwise, front, more, rfl⟩ := tag_eq_ok reads
    · exact ⟨taken, declares, .tag opening tagged⟩
    obtain ⟨first, _, one, more⟩ := run_bind_eq_ok.mp more
    obtain ⟨⟨all, _⟩, _, two, more⟩ := run_bind_eq_ok.mp more
    obtain ⟨ending, _, three, more⟩ := run_bind_eq_ok.mp more
    obtain ⟨same, rfl⟩ := run_pure_eq_ok.mp more
    obtain ⟨rfl, rfl⟩ := Prod.mk.inj same
    obtain ⟨condition, value, passes⟩ := (Expr.parse_local inner).reads one
    obtain ⟨taken, body, others, rfl, spelled, declares⟩ := branches_sound ih two
    obtain ⟨rest, closed, rfl⟩ := run_endOfTag_eq_ok.mp three
    have whole := (((Pending.Declares.single front).trans passes.declares).trans declares).trans
      (.single closed)
    refine ⟨⟨.word "if", keyword⟩ :: (condition ++ (taken ++ [⟨.tagEnd, ending⟩])), ?_, fun {stmts later} rest => ?_⟩
    · simpa [declarations, Pending.behind_eq_past] using whole
    · have spells := Spelled.conditional opening keyword ending value spelled rest
      simpa [Pending.past] using spells

section Reading

variable {tag : Span → Parse Stmt} {stmt : Stmt} {first : Lexeme}

theorem run_block_nil (ended : start.tokens = []) (whole : start.problem = none) :
    (block tag stops).run start = .ok ([], start) := by
  rw [run_block, ended, whole]

theorem run_block_stop (front : start.tokens = ⟨.tagStart, opening⟩ :: first :: rest)
    (stopped : stops first.token = true) :
    (block tag stops).run start = .ok ([], start.past [⟨.tagStart, opening⟩] (first :: rest)) := by
  rw [run_block, front]
  refine bind_eq_ok.mpr ⟨_, run_peek_cons rfl, ?_⟩
  exact if_pos stopped

theorem run_block_text {raw : String} (front : start.tokens = ⟨.text raw, span⟩ :: rest)
    (more : (block tag stops).run (start.past [⟨.text raw, span⟩] rest) = .ok (all, next)) :
    (block tag stops).run start = .ok (.text raw span :: all, next) := by
  rw [run_block, front]
  exact bind_eq_ok.mpr ⟨_, more, rfl⟩

theorem run_block_tag (front : start.tokens = ⟨.tagStart, opening⟩ :: first :: rest)
    (goes : stops first.token = false)
    (one : (tag opening).run (start.past [⟨.tagStart, opening⟩] (first :: rest)) = .ok (stmt, middle))
    (more : (block tag stops).run middle = .ok (all, next)) :
    (block tag stops).run start = .ok (stmt :: all, next) := by
  rw [run_block, front]
  refine bind_eq_ok.mpr ⟨_, run_peek_cons rfl, ?_⟩
  have going : ¬((some first.token).map stops).getD false = true := Bool.eq_false_iff.mp goes
  refine (if_neg going).trans ?_
  exact bind_eq_ok.mpr ⟨_, one, bind_eq_ok.mpr ⟨_, more, rfl⟩⟩

end Reading

/-- A tag that is no part of a conditional does not end one either. -/
theorem Tagged.opens (tagged : Tagged source levels opening stmt taken) :
    ∃ first rest, taken = first :: rest ∧ endsBranch first.token = false := by
  cases tagged with
  | output ending reads free =>
    obtain ⟨some, -⟩ := reads.inner (Expr.parse_local levels)
    obtain ⟨first, taken, rfl⟩ := List.exists_cons_of_ne_nil some
    refine ⟨first, _, rfl, Bool.eq_false_iff.mpr fun ends => ?_⟩
    rcases endsBranch_cases ends with word | word | word <;>
      exact free first rfl _ (by decide) word
  | _ => exact ⟨_, _, rfl, rfl⟩

/-- Tokens are read as the part of a template that they are. -/
def Phrase.ReadFrom (source : List Char) (levels : Nat) (taken : List Lexeme) : Phrase → Prop
  | .statements all =>
    ∀ ⦃stops start next closing⦄, (∀ token, stops token = true → endsBranch token = true) →
      start.Declares (allDeclarations all) (taken ++ closing) next → BlockEnds stops start.problem closing next.tokens →
      (parse source levels stops).run start = .ok (all, next)
  | .branches all otherwise =>
    ∀ ⦃start next first body others⦄, all = (first, body) :: others →
      start.Declares (branchDeclarations all ++ otherwiseDeclarations otherwise) taken next →
      (branches (Expr.parse levels) (parse source levels) first).run start = .ok ((all, otherwise), next)
  | .tag _ => True

theorem Spelled.branches_open {all : List (Expr × List Stmt)} {otherwise : Option (List Stmt)}
    (spelled : Spelled source levels (.branches all otherwise) taken) :
    ∃ ending rest, taken = ⟨.tagEnd, ending⟩ :: rest := by
  cases spelled with
  | _ => exact ⟨_, _, rfl⟩

/-- A conditional is read where its condition and its branches are. -/
theorem run_conditionalTag {first : Expr} {body : List Stmt} {others : List (Expr × List Stmt)}
    {otherwise : Option (List Stmt)} {condition inner : List Lexeme} {ending : Span}
    (reads : (Expr.parse levels).Reads first condition)
    (spelled : Spelled source levels (.branches ((first, body) :: others) otherwise) inner)
    (within : Phrase.ReadFrom source levels inner (.branches ((first, body) :: others) otherwise))
    (declares : start.Declares (branchDeclarations ((first, body) :: others) ++ otherwiseDeclarations otherwise)
      (condition ++ (inner ++ [⟨.tagEnd, ending⟩])) next) :
    (conditionalTag (Expr.parse levels) (parse source levels)).run start =
      .ok (((first, body) :: others, otherwise), next) := by
  obtain ⟨front, declares⟩ := declares.behind
  rw [← List.append_nil (_ ++ _)] at declares
  obtain ⟨branches, ends⟩ := declares.between
  obtain ⟨mark, rest, rfl⟩ := spelled.branches_open
  refine run_bind_eq_ok.mpr ⟨_, _, reads.run (Expr.parse_local levels) front Token.closes_tagEnd, ?_⟩
  refine run_bind_eq_ok.mpr ⟨_, _, within rfl branches, ?_⟩
  refine run_bind_eq_ok.mpr ⟨_, _, run_endOfTag_eq_ok.mpr ⟨next.tokens, ends.front, rfl⟩, ?_⟩
  exact run_pure_eq_ok.mpr ⟨rfl, ends.beyond.symm⟩

/-- A branch is read up to the keyword behind it. -/
theorem run_branches_of_body {word : String} {first : Expr} {body : List Stmt} {inner : List Lexeme} {ending mark : Span}
    (within : Phrase.ReadFrom source levels inner (.statements body)) (ends : endsBranch (.word word) = true)
    (declares : start.Declares (allDeclarations body ++ declared)
      (⟨.tagEnd, ending⟩ :: (inner ++ ⟨.tagStart, opening⟩ :: ⟨.word word, mark⟩ :: taken)) next) :
    ∃ middle, middle.Declares declared (⟨.word word, mark⟩ :: taken) next ∧
      (branches (Expr.parse levels) (parse source levels) first).run start =
        (afterBranch (Expr.parse levels) (parse source levels)).run middle >>= fun (after, next) =>
          match after with
          | .done otherwise => .ok (([(first, body)], otherwise), next)
          | .branch second =>
            (branches (Expr.parse levels) (parse source levels) second).run next >>= fun (rest, next) =>
              .ok (((first, body) :: rest.1, rest.2), next) := by
  have declares : start.Declares (allDeclarations body ++ declared)
      ([⟨.tagEnd, ending⟩] ++ ((inner ++ [⟨.tagStart, opening⟩]) ++ ⟨.word word, mark⟩ :: taken)) next := by
    simpa using declares
  obtain ⟨front, declares⟩ := declares.behind
  obtain ⟨one, declares⟩ := declares.between
  rw [List.singleton_append] at front
  have opens : (expect "end of tag" (isToken .tagEnd)).run start = .ok (((), ending), _) :=
    run_expectIs_eq_ok.mpr ⟨_, front, rfl⟩
  have reads := within (fun _ stops => stops) one (.tag opening ends)
  refine ⟨_, declares, ?_⟩
  rw [run_branches, opens]
  dsimp only [bind, Except.bind]
  rewrite [reads]
  rfl

/-- What tokens spell is read from them. -/
theorem Spelled.readFrom {phrase : Phrase} (spelled : Spelled source levels phrase taken) :
    Phrase.ReadFrom source levels taken phrase := by
  induction spelled with
  | @done levels =>
    intro stops start next closing within declares ends
    rw [parse_eq_block]
    obtain ⟨front, -, beyond⟩ := declares
    generalize next.tokens = rest at *
    cases ends with
    | source whole =>
      obtain rfl : next = start := beyond.trans (start.beyond_refl front).symm
      exact run_block_nil front whole
    | tag opening stopped =>
      rw [beyond]
      exact run_block_stop front stopped
  | @text levels stmts later raw span spelled ih =>
    intro stops start next closing within declares ends
    obtain ⟨front, declares⟩ := declares.behind_first
    have more := ih within declares ends
    rw [parse_eq_block] at more ⊢
    exact run_block_text front more
  | @tag levels stmt stmts taken later opening tagged spelled ih =>
    intro stops start next closing within declares ends
    rw [allDeclarations, List.cons_append, List.append_assoc] at declares
    obtain ⟨front, declares⟩ := declares.behind_first
    obtain ⟨one, declares⟩ := declares.between
    obtain ⟨first, behind, rfl, plain⟩ := tagged.opens
    have more := ih within declares (one.problem ▸ ends)
    rw [parse_eq_block] at more ⊢
    have goes : stops first.token = false := Bool.eq_false_iff.mpr fun stopped => by simp [within _ stopped] at plain
    exact run_block_tag front goes (tagged.run one) more
  | @conditional levels first body others otherwise stmts condition inner later opening keyword ending reads spelled
      rest ihInner ih =>
    intro stops start next closing within declares ends
    have declares : start.Declares ((branchDeclarations ((first, body) :: others) ++ otherwiseDeclarations otherwise) ++
        allDeclarations stmts) ([⟨.tagStart, opening⟩] ++ (⟨.word "if", keyword⟩ ::
          (condition ++ (inner ++ [⟨.tagEnd, ending⟩])) ++ (later ++ closing))) next := by
      simpa [allDeclarations, declarations] using declares
    obtain ⟨front, declares⟩ := declares.behind
    obtain ⟨one, declares⟩ := declares.between
    obtain ⟨opens, inside⟩ := one.behind_first
    have more := ih within declares (one.problem ▸ ends)
    rw [parse_eq_block] at more ⊢
    have goes : stops (.word "if") = false := Bool.eq_false_iff.mpr fun stopped => by cases within _ stopped
    refine run_block_tag front goes ?_ more
    refine run_bind_eq_ok.mpr ⟨_, _, run_peek_cons opens, run_tag_keyword opens (by decide) ?_⟩
    refine run_bind_eq_ok.mpr ⟨_, _, run_conditionalTag reads spelled ihInner inside, ?_⟩
    refine run_pure_eq_ok.mpr ⟨?_, rfl⟩
    simp [Pending.beyond, Pending.past, List.getLast?_cons]
  | @lastBranch levels condition body inner ending opening keyword spelled ih =>
    rintro start next _ _ _ ⟨rfl, rfl⟩ declares
    rw [branchDeclarations, branchDeclarations, otherwiseDeclarations, List.append_assoc] at declares
    obtain ⟨middle, declares, run⟩ := run_branches_of_body ih rfl declares
    rw [run]
    refine bind_eq_ok.mpr ⟨(.done none, next), ?_, rfl⟩
    refine run_bind_eq_ok.mpr ⟨_, _, run_expect_eq_ok.mpr ⟨_, _, declares.front, rfl, rfl, rfl⟩, ?_⟩
    exact run_pure_eq_ok.mpr ⟨rfl, declares.beyond.symm⟩
  | @otherwise levels condition body other inner last ending opening keyword ending' opening' keyword' spelled
      spelledOther ih ihOther =>
    rintro start next _ _ _ ⟨rfl, rfl⟩ declares
    rw [branchDeclarations, branchDeclarations, otherwiseDeclarations, List.append_assoc] at declares
    obtain ⟨middle, declares, run⟩ := run_branches_of_body ih rfl declares
    have declares : middle.Declares (allDeclarations other ++ []) ([⟨.word "else", keyword⟩] ++ ([⟨.tagEnd, ending'⟩] ++
        ((last ++ [⟨.tagStart, opening'⟩]) ++ [⟨.word "endif", keyword'⟩]))) next := by
      simpa using declares
    obtain ⟨front, declares⟩ := declares.behind
    obtain ⟨closed, declares⟩ := declares.behind
    obtain ⟨one, declares⟩ := declares.between
    have within (token : Token) (stops : endsConditional token = true) : endsBranch token = true := by
      unfold endsConditional at stops
      split at stops
      · exact (Bool.or_eq_true _ _).mpr (.inr stops)
      · cases stops
    rw [run]
    refine bind_eq_ok.mpr ⟨(.done (some other), next), ?_, rfl⟩
    refine run_bind_eq_ok.mpr ⟨_, _, run_expect_eq_ok.mpr ⟨_, _, front, rfl, rfl, rfl⟩, ?_⟩
    refine run_bind_eq_ok.mpr ⟨_, _, run_endOfTag_eq_ok.mpr ⟨_, closed, rfl⟩, ?_⟩
    refine run_bind_eq_ok.mpr ⟨_, _, ihOther within one (.tag opening' rfl), ?_⟩
    refine run_bind_eq_ok.mpr ⟨_, _, run_expectToken_eq_ok.mpr ⟨_, declares.front, rfl⟩, ?_⟩
    exact run_pure_eq_ok.mpr ⟨rfl, declares.beyond.symm⟩
  | @anotherBranch levels condition second body next others otherwise inner taken later ending opening keyword spelled
      reads spelledOthers ih ihOthers =>
    rintro start _ _ _ _ ⟨rfl, rfl⟩ declares
    rw [branchDeclarations, List.append_assoc] at declares
    obtain ⟨middle, declares, run⟩ := run_branches_of_body ih rfl declares
    obtain ⟨front, declares⟩ := declares.behind_first
    obtain ⟨split, declares⟩ := declares.behind
    obtain ⟨mark, rest, rfl⟩ := spelledOthers.branches_open
    rw [run]
    refine bind_eq_ok.mpr ⟨(.branch second, _), ?_, bind_eq_ok.mpr ⟨_, ihOthers rfl declares, rfl⟩⟩
    refine run_bind_eq_ok.mpr ⟨_, _, run_expect_eq_ok.mpr ⟨_, _, front, rfl, rfl, rfl⟩, ?_⟩
    refine run_bind_eq_ok.mpr ⟨_, _, reads.run (Expr.parse_local levels) split Token.closes_tagEnd, ?_⟩
    exact run_pure_eq_ok.mpr ⟨rfl, rfl⟩

/-- Statements are read up to a tag that stops them exactly from the tokens that spell them. -/
theorem run_parse_eq_ok (within : ∀ token, stops token = true → endsBranch token = true) :
    (parse source levels stops).run start = .ok (all, next) ↔
      ∃ taken closing, Block source levels stops all taken closing start next := by
  constructor
  · exact parse_sound
  · rintro ⟨taken, closing, spelled, declares, ends⟩
    exact spelled.readFrom within declares ends

theorem MoreBound.bindings {bindings : List (String × Expr)} (bound : MoreBound levels bindings taken) :
    MoreBindings bindings taken := by
  induction bound with
  | done ending => exact .done ending
  | comma mark ending => exact .comma mark ending
  | bound mark arrow text reads _ ih => exact .bound mark arrow text reads ih

theorem Bound.bindings {bindings : List (String × Expr)} (bound : Bound levels bindings taken) :
    Bindings bindings taken := by
  cases bound with
  | none ending => exact .none ending
  | some arrow text reads more => exact .some arrow text reads more.bindings

theorem Tagged.written (tagged : Tagged source levels opening stmt taken) : Written source (.tag stmt) taken := by
  cases tagged with
  | output ending reads free => exact .output _ ending reads free
  | layout keyword ending text => exact .layout _ keyword ending text
  | capture keyword tagEnd close closing ending text free =>
    exact .capture _ keyword tagEnd close closing ending text free
  | fill keyword ending text => exact .fill _ keyword ending text
  | each keyword named marks uses ending reads text => exact .each _ keyword named marks uses ending reads text
  | inclusion keyword ending text => exact .inclusion _ keyword ending text
  | embedding keyword ending text => exact .embedding _ keyword ending text
  | embeddingWith keyword marks bracket ending text bound =>
    exact .embeddingWith _ keyword marks bracket ending text bound.bindings

/-- The grammar without its levels and the places of tags. -/
theorem Spelled.written {phrase : Phrase} (spelled : Spelled source levels phrase taken) :
    Written source phrase taken := by
  induction spelled with
  | done => exact .done
  | text raw span _ ih => exact .text raw span ih
  | tag opening tagged _ ih => exact .tag opening tagged.written ih
  | conditional opening keyword ending reads _ _ ihInner ih =>
    have written := Written.tag opening (.conditional (opening.upTo ending) keyword ending reads ihInner) ih
    simpa using written
  | lastBranch ending opening keyword _ ih => exact .lastBranch ending opening keyword ih
  | otherwise ending opening keyword ending' opening' keyword' _ _ ih ihOther =>
    exact .otherwise ending opening keyword ending' opening' keyword' ih ihOther
  | anotherBranch ending opening keyword _ reads _ ih ihOthers =>
    exact .anotherBranch ending opening keyword ih reads ihOthers

end Stmt

end TextTemplate
