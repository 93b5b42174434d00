import TextTemplate.Decimal.Reading

/-!
Spans at the front of a text, such as the digits of a number. A span is as long as it can be.
-/
namespace TextTemplate

section Spans

variable {α : Type} {p : α → Bool} {body behind : List α}

theorem takeWhile_append_of_boundary (inside : ∀ a ∈ body, p a = true) (boundary : ∀ a ∈ behind.head?, p a = false) :
    (body ++ behind).takeWhile p = body := by
  have stops : behind.takeWhile p = [] := by
    cases behind with
    | nil => rfl
    | cons a behind => rw [List.takeWhile_cons, boundary a rfl]; rfl
  rw [List.takeWhile_append_of_pos inside, stops, List.append_nil]

theorem dropWhile_append_of_boundary (inside : ∀ a ∈ body, p a = true) (boundary : ∀ a ∈ behind.head?, p a = false) :
    (body ++ behind).dropWhile p = behind := by
  rw [List.dropWhile_append_of_pos inside]
  cases behind with
  | nil => rfl
  | cons a behind => rw [List.dropWhile_cons, boundary a rfl]; rfl

theorem spanDigits_append {digits behind : List Char} (inside : ∀ d ∈ digits, d.isDigit = true)
    (boundary : ∀ d ∈ behind.head?, d.isDigit = false) : spanDigits (digits ++ behind) = (digits, behind) := by
  rw [spanDigits, takeWhile_append_of_boundary inside boundary, dropWhile_append_of_boundary inside boundary]

theorem of_spanDigits {cs digits rest : List Char} (span : spanDigits cs = (digits, rest)) :
    (∀ d ∈ digits, d.isDigit = true) ∧ cs = digits ++ rest := by
  obtain ⟨rfl, rfl⟩ := Prod.mk.inj span
  exact ⟨fun d member => List.all_eq_true.mp (List.all_takeWhile ..) d member, List.takeWhile_append_dropWhile.symm⟩

end Spans

end TextTemplate
