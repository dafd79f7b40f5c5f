import Mathlib.Data.List.DropRight
import SpotCapacity.Text.Blank

/-!
# What trimming leaves

Trimming removes characters of a kind from both ends of a text. What is removed surrounds what is left
(`Text.exists_around`), and a text surrounded by such characters is trimmed to the same text as without
them (`Text.trimmed_around`). A character that is not blank is not passed (`Text.trim_solid`).
-/

namespace SpotCapacity.Text

variable (blank : Char → Bool)

/-- A text without the characters of a kind at its ends. -/
def trimmed (text : List Char) : List Char :=
  ((text.dropWhile blank).reverse.dropWhile blank).reverse

theorem trim_eq (text : List Char) : trim text = trimmed isBlank text := rfl

variable {blank} {before body after text : List Char}

/-- A text is what is left of it when it is trimmed, between blanks. -/
theorem exists_around (blank : Char → Bool) (text : List Char) :
    ∃ before after, text = before ++ trimmed blank text ++ after ∧
      (∀ c ∈ before, blank c = true) ∧ ∀ c ∈ after, blank c = true := by
  refine ⟨text.takeWhile blank, ((text.dropWhile blank).reverse.takeWhile blank).reverse, ?_, ?_, ?_⟩
  · rw [trimmed, List.append_assoc, ← List.reverse_append, List.takeWhile_append_dropWhile,
      List.reverse_reverse, List.takeWhile_append_dropWhile]
  · exact fun c member => List.mem_takeWhile_imp member
  · exact fun c member => List.mem_takeWhile_imp (List.mem_reverse.mp member)

/-- Blanks around a text make no difference when it is trimmed. -/
theorem trimmed_around (start : ∀ c ∈ before, blank c = true) (stop : ∀ c ∈ after, blank c = true) :
    trimmed blank (before ++ body ++ after) = trimmed blank body := by
  have nothing : after.dropWhile blank = [] := List.dropWhile_eq_nil_iff.mpr stop
  have reversed : ∀ c ∈ after.reverse, blank c = true := fun c member =>
    stop c (List.mem_reverse.mp member)
  rw [trimmed, trimmed, List.append_assoc, List.dropWhile_append_of_pos start, List.dropWhile_append]
  split
  · rename_i empty
    rw [nothing, List.isEmpty_iff.mp empty]
  · rw [List.reverse_append, List.dropWhile_append_of_pos reversed]

/-- A text whose ends are of another kind is trimmed already. -/
theorem trimmed_of_ends (first : ∀ c ∈ text.head?, blank c = false)
    (last : ∀ c ∈ text.getLast?, blank c = false) : trimmed blank text = text := by
  have stays : ∀ {text : List Char}, (∀ c ∈ text.head?, blank c = false) →
      text.dropWhile blank = text := by
    intro text head
    cases text with
    | nil => rfl
    | cons c rest => exact List.dropWhile_cons_of_neg (by simp [head c rfl])
  have back : text.reverse.dropWhile blank = text.reverse := stays (by simpa using last)
  rw [trimmed, stays first, back, List.reverse_reverse]

/-- What is trimmed at the start of a text is blank. -/
theorem exists_trimStart (text : List Char) :
    ∃ before, text = before ++ trimStart text ∧ ∀ c ∈ before, isBlank c = true :=
  ⟨text.takeWhile isBlank, List.takeWhile_append_dropWhile.symm,
    fun _ member => List.mem_takeWhile_imp member⟩

/-- What is trimmed at the end of a text is blank. -/
theorem exists_trimEnd (text : List Char) :
    ∃ after, text = trimEnd text ++ after ∧ ∀ c ∈ after, isBlank c = true := by
  refine ⟨(text.reverse.takeWhile isBlank).reverse, ?_, ?_⟩
  · rw [trimEnd, ← List.reverse_append, List.takeWhile_append_dropWhile, List.reverse_reverse]
  · exact fun c member => List.mem_takeWhile_imp (List.mem_reverse.mp member)

theorem trim_trimStart (text : List Char) : trim (trimStart text) = trim text := by
  obtain ⟨before, around, start⟩ := exists_trimStart text
  have same : trimmed isBlank (before ++ trimStart text ++ []) = trimmed isBlank (trimStart text) :=
    trimmed_around start (List.forall_mem_nil _)
  rw [List.append_nil, ← around] at same
  rw [trim_eq, trim_eq, same]

theorem trim_trimEnd (text : List Char) : trim (trimEnd text) = trim text := by
  obtain ⟨after, around, stop⟩ := exists_trimEnd text
  have same : trimmed isBlank ([] ++ trimEnd text ++ after) = trimmed isBlank (trimEnd text) :=
    trimmed_around (List.forall_mem_nil _) stop
  rw [List.nil_append, ← around] at same
  rw [trim_eq, trim_eq, same]

/-- Trimming once is enough. -/
theorem trim_trim (text : List Char) : trim (trim text) = trim text := by
  rw [trim.eq_def text, trim_trimEnd, trim_trimStart, trim]

/-- A text that neither begins nor ends with a blank. -/
structure Solid (text : List Char) : Prop where
  head : ∀ c ∈ text.head?, isBlank c = false
  last : ∀ c ∈ text.getLast?, isBlank c = false

/-- A trimmed text is not blank at its ends. -/
theorem solid_trim (text : List Char) : Solid (trim text) := by
  have stops : ∀ text : List Char, ∀ c ∈ (text.dropWhile isBlank).head?, isBlank c = false := by
    intro text c first
    have solid := List.head?_dropWhile_not isBlank text
    rw [first] at solid
    exact solid
  constructor
  · intro c first
    obtain ⟨after, around, -⟩ := exists_trimEnd (trimStart text)
    apply stops text
    change (trimStart text).head? = some c
    rw [around, List.head?_append]
    exact Option.or_eq_some_iff.mpr (.inl first)
  · intro c last
    apply stops (trimStart text).reverse
    rwa [trim, trimEnd, List.getLast?_reverse] at last

/-- The solid texts are those that trimming leaves as they are. -/
theorem trim_eq_self_iff : trim text = text ↔ Solid text :=
  ⟨fun same => same ▸ solid_trim text, fun solid => trim_of_ends solid.head solid.last⟩

/-- A character that is not blank splits what is trimmed. -/
theorem trim_solid {solid : Char} (stays : isBlank solid = false) (left right : List Char) :
    trim (left ++ solid :: right) = trimStart left ++ solid :: trimEnd right := by
  have passes : ∀ left right : List Char, (left ++ solid :: right).dropWhile isBlank =
      left.dropWhile isBlank ++ solid :: right := by
    intro left right
    rw [List.dropWhile_append]
    split
    · rename_i empty
      rw [List.isEmpty_iff.mp empty, List.nil_append]
      exact List.dropWhile_cons_of_neg (by simp [stays])
    · rfl
  rw [trim, trimStart, trimStart, passes, trimEnd, trimEnd, List.reverse_append, List.reverse_cons,
    List.append_assoc, List.singleton_append, passes, List.reverse_append, List.reverse_cons,
    List.reverse_reverse, List.append_assoc, List.singleton_append]

end SpotCapacity.Text
