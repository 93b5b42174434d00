import Mathlib.Data.List.Chain
import TextTemplate.Text.Words

/-!
Words of a text. Words that are joined by single spaces are found again, so that joining them a second time, or
only the first of them, brings nothing new.
-/
namespace TextTemplate.Text

structure IsWord (word : List Char) : Prop where
  nonempty : word ≠ []
  spaceless : ∀ c ∈ word, isSpace c = false

/-- A text with no space at either end, and nothing but single blanks inside. -/
structure SinglySpaced (cs : List Char) : Prop where
  front : ∀ c, cs.head? = some c → isSpace c = false
  back : ∀ c, cs.getLast? = some c → isSpace c = false
  blanks : ∀ c ∈ cs, isSpace c = true → c = ' '
  single : cs.IsChain fun c d => isSpace c = true → isSpace d = false

theorem isSpace_blank : isSpace ' ' = true := by
  decide

section

variable {isBreak : Char → Bool} {cs word : List Char} {ws : List (List Char)}

/-- The first piece of a text is empty unless a word starts the text. -/
theorem exists_splitOnP (isBreak : Char → Bool) (cs : List Char) :
    ∃ first rest, cs.splitOnP isBreak = first :: rest ∧ startsWord isBreak cs = !first.isEmpty := by
  cases cs with
  | nil => exact ⟨[], [], rfl, rfl⟩
  | cons c cs =>
    rw [List.splitOnP_cons_eq_if_modifyHead, startsWord]
    split
    · rename_i space
      exact ⟨[], _, rfl, by rw [space]; rfl⟩
    · rename_i letter
      obtain ⟨first, rest, split⟩ := List.exists_cons_of_ne_nil (List.splitOnP_ne_nil isBreak cs)
      exact ⟨c :: first, rest, by rw [split, List.modifyHead_cons], by simpa using letter⟩

/-- Words are the pieces between breaks that are not empty. -/
theorem wordsBy_eq_splitOnP (isBreak : Char → Bool) (cs : List Char) :
    wordsBy isBreak cs = (cs.splitOnP isBreak).filter (!·.isEmpty) := by
  induction cs with
  | nil => rfl
  | cons c cs ih =>
    rw [wordsBy, List.splitOnP_cons_eq_if_modifyHead]
    split
    · exact ih
    · obtain ⟨first, rest, split, starts⟩ := exists_splitOnP isBreak cs
      rw [ih, split, starts, List.modifyHead_cons]
      cases first with
      | nil => rfl
      | cons => rfl

theorem mem_wordsBy {cs : List Char} (found : word ∈ wordsBy isBreak cs) :
    word ≠ [] ∧ ∀ c ∈ word, isBreak c = false := by
  induction cs generalizing word with
  | nil => cases found
  | cons c cs ih =>
    have alone (letter : isBreak c = false) : [c] ≠ [] ∧ ∀ d ∈ [c], isBreak d = false :=
      ⟨List.cons_ne_nil _ _, List.forall_mem_singleton.mpr letter⟩
    rw [wordsBy] at found
    split at found
    · exact ih found
    rename_i letter
    replace letter : isBreak c = false := Bool.eq_false_iff.mpr letter
    split at found
    · cases following : wordsBy isBreak cs with
      | nil =>
        rw [following, extendFirst, List.mem_singleton] at found
        exact found ▸ alone letter
      | cons first rest =>
        rw [following] at ih found
        rcases List.mem_cons.mp found with rfl | later
        · obtain ⟨-, plain⟩ := ih List.mem_cons_self
          exact ⟨List.cons_ne_nil _ _, List.forall_mem_cons.mpr ⟨letter, plain⟩⟩
        · exact ih (List.mem_cons_of_mem _ later)
    · rcases List.mem_cons.mp found with rfl | later
      · exact alone letter
      · exact ih later

theorem isWord_of_mem_words (found : word ∈ words cs) : IsWord word :=
  ⟨(mem_wordsBy found).1, (mem_wordsBy found).2⟩

theorem words_of_isWord (isWord : IsWord word) : words word = [word] := by
  rw [words, wordsBy_eq_splitOnP, List.splitOnP_eq_singleton isWord.spaceless]
  exact List.filter_cons_of_pos (by simpa using isWord.nonempty)

/-- What stands in front of a blank and what stands behind it have no word in common. -/
theorem words_append_blank (before behind : List Char) :
    words (before ++ ' ' :: behind) = words before ++ words behind := by
  simp only [words, wordsBy_eq_splitOnP]
  rw [List.splitOnP_append_cons _ _ isSpace_blank, List.filter_append]

theorem unwords_cons_cons (word next : List Char) (rest : List (List Char)) :
    unwords (word :: next :: rest) = word ++ ' ' :: unwords (next :: rest) := by
  rw [unwords, List.intercalate_cons_cons, List.append_assoc, List.singleton_append, unwords]

theorem unwords_singleton (word : List Char) : unwords [word] = word :=
  List.intercalate_singleton

/-- Words stay apart where single blanks join them. -/
theorem words_unwords (each : ∀ word ∈ ws, IsWord word) : words (unwords ws) = ws := by
  induction ws with
  | nil => rfl
  | cons word rest ih =>
    obtain ⟨first, each⟩ := List.forall_mem_cons.mp each
    cases rest with
    | nil => rw [unwords_singleton, words_of_isWord first]
    | cons next rest => rw [unwords_cons_cons, words_append_blank, words_of_isWord first, ih each, List.singleton_append]

/-- The first words make up the front of the text. -/
theorem unwords_take_prefix (ws : List (List Char)) (n : Nat) : unwords (ws.take n) <+: unwords ws := by
  induction ws generalizing n with
  | nil => simp
  | cons word rest ih =>
    cases n with
    | zero => exact List.nil_prefix
    | succ n =>
      rw [List.take_succ_cons]
      cases rest with
      | nil => simp
      | cons next rest =>
        rw [unwords_cons_cons]
        cases n with
        | zero =>
          rw [List.take_zero, unwords_singleton]
          exact List.prefix_append _ _
        | succ n =>
          rw [List.take_succ_cons, unwords_cons_cons, List.prefix_append_right_inj, List.cons_prefix_cons]
          exact ⟨rfl, List.take_succ_cons ▸ ih (n + 1)⟩

namespace SinglySpaced

theorem nil : SinglySpaced [] :=
  ⟨nofun, nofun, nofun, List.isChain_nil⟩

theorem of_isWord (isWord : IsWord word) : SinglySpaced word where
  front c first := isWord.spaceless c (List.mem_of_head? first)
  back c last := isWord.spaceless c (List.mem_of_getLast? last)
  blanks c member space := absurd (isWord.spaceless c member) (by rw [space]; decide)
  single := by
    refine List.Pairwise.isChain (List.pairwise_of_forall_mem_list fun _ _ d member _ => ?_)
    exact isWord.spaceless d member

/-- A word and a blank in front of a text that is singly spaced and not empty. -/
theorem append (isWord : IsWord word) (some : cs ≠ []) (spaced : SinglySpaced cs) :
    SinglySpaced (word ++ ' ' :: cs) where
  front c first := by
    rw [List.head?_append_of_ne_nil _ isWord.nonempty] at first
    exact isWord.spaceless c (List.mem_of_head? first)
  back c last := by
    rw [List.append_cons, List.getLast?_append_of_ne_nil _ some] at last
    exact spaced.back c last
  blanks c member space := by
    rcases List.mem_append.mp member with inside | behind
    · exact absurd (isWord.spaceless c inside) (by rw [space]; decide)
    · rcases List.mem_cons.mp behind with blank | behind
      · exact blank
      · exact spaced.blanks c behind space
  single := by
    refine List.isChain_append.mpr ⟨(of_isWord isWord).single, ?_, fun c last d _ space => ?_⟩
    · exact List.isChain_cons.mpr ⟨fun d first _ => spaced.front d first, spaced.single⟩
    · exact absurd (isWord.spaceless c (List.mem_of_getLast? last)) (by rw [space]; decide)

end SinglySpaced

theorem unwords_ne_nil (isWord : IsWord word) (rest : List (List Char)) : unwords (word :: rest) ≠ [] := by
  cases rest with
  | nil =>
    rw [unwords_singleton]
    exact isWord.nonempty
  | cons next rest =>
    rw [unwords_cons_cons]
    exact List.append_ne_nil_of_left_ne_nil isWord.nonempty _

theorem singlySpaced_unwords (each : ∀ word ∈ ws, IsWord word) : SinglySpaced (unwords ws) := by
  induction ws with
  | nil => exact .nil
  | cons word rest ih =>
    obtain ⟨first, each⟩ := List.forall_mem_cons.mp each
    cases rest with
    | nil =>
      rw [unwords_singleton]
      exact .of_isWord first
    | cons next rest =>
      rw [unwords_cons_cons]
      exact .append first (unwords_ne_nil (each next List.mem_cons_self) rest) (ih each)

end

theorem words_squish (cs : List Char) : words (squish cs) = words cs :=
  words_unwords fun _ => isWord_of_mem_words

theorem words_limitWords (n : Nat) (cs : List Char) : words (limitWords n cs) = (words cs).take n :=
  words_unwords fun _ member => isWord_of_mem_words (List.mem_of_mem_take member)

/-- Squishing a text keeps its words, which are its pieces between spaces that are not empty, and puts a single blank
between them; a limit keeps the first of them. So both may be done again, and in any order: of two limits the lower
one counts. -/
theorem squish_laws (cs : List Char) (m n : Nat) :
    words cs = (cs.splitOnP isSpace).filter (!·.isEmpty) ∧
      words (squish cs) = words cs ∧
      SinglySpaced (squish cs) ∧
      squish (squish cs) = squish cs ∧
      words (limitWords n cs) = (words cs).take n ∧
      limitWords n cs <+: squish cs ∧
      (limitWords n cs = squish cs ↔ (words cs).length ≤ n) ∧
      squish (limitWords n cs) = limitWords n cs ∧
      limitWords n (squish cs) = limitWords n cs ∧
      limitWords m (limitWords n cs) = limitWords (min m n) cs := by
  refine ⟨wordsBy_eq_splitOnP isSpace cs, words_squish cs, ?_, ?_, words_limitWords n cs, ?_, ?_, ?_, ?_, ?_⟩
  · exact singlySpaced_unwords fun _ => isWord_of_mem_words
  · rw [squish, words_squish, squish]
  · exact unwords_take_prefix (words cs) n
  · constructor
    · intro same
      have kept := congrArg (List.length ∘ words) same
      simp only [Function.comp_apply, words_limitWords, words_squish, List.length_take] at kept
      omega
    · intro few
      rw [limitWords, List.take_of_length_le few, squish]
  · rw [squish, words_limitWords, limitWords]
  · rw [limitWords, words_squish, limitWords]
  · rw [limitWords, words_limitWords, List.take_take, limitWords]

/-- Tabs, line ends and spaces beyond ASCII are spaces too. -/
example : squish "\t one\u00a0 two\n".toList = "one two".toList := by decide +kernel

end TextTemplate.Text
