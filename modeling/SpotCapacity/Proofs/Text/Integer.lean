import Mathlib
import SpotCapacity.Proofs.Text.Trim
import SpotCapacity.Text.Integer

/-!
# The grammar of integers

An integer is written as a sign, which may be left out, and decimal digits of any script, with single low
lines between digits and white space around the whole. Reading accepts exactly the texts of this grammar
that have no more digits than are read, and gives the number that they denote
(`Text.integer?_eq_some_iff`). What is read can be written again (`Text.Denotes.isWritable`).
-/

namespace SpotCapacity.Text

/-- Digits with their values, at most one low line between two of them. -/
inductive Digits : List Char → List Nat → Prop where
  | one {c : Char} {value : Nat} (digit : digitValue? c = some value) : Digits [c] [value]
  | next {c : Char} {value : Nat} (digit : digitValue? c = some value) {text : List Char}
      {values : List Nat} (rest : Digits text values) : Digits (c :: text) (value :: values)
  | gap {c : Char} {value : Nat} (digit : digitValue? c = some value) {text : List Char}
      {values : List Nat} (rest : Digits text values) : Digits (c :: '_' :: text) (value :: values)

/-- The sign of a written integer. -/
inductive Sign where
  | absent
  | plus
  | minus

namespace Sign

def written : Sign → List Char
  | absent => []
  | plus => ['+']
  | minus => ['-']

def signed : Sign → Nat → Int
  | minus, n => -(n : Int)
  | _, n => n

end Sign

/-- A text denotes an integer: what is left of it between white space is a sign and digits. -/
inductive Denotes : List Char → Int → Prop where
  | written {before after text : List Char} {values : List Nat} (sign : Sign)
      (start : ∀ c ∈ before, isIntegerSpace c = true) (stop : ∀ c ∈ after, isIntegerSpace c = true)
      (digits : Digits text values) (short : values.length ≤ maxDigits) :
      Denotes (before ++ (sign.written ++ text) ++ after) (sign.signed (ofDigits values))

/-- No script has a digit among the characters that surround integers. -/
theorem isIntegerSpace_of_digit {c : Char} {value : Nat} (digit : digitValue? c = some value) :
    isIntegerSpace c = false := by
  have apart : ∀ first ∈ digitZeros, (first = 0x30 ∨ 0x660 ≤ first) ∧
      (first + 10 ≤ 0x1680 ∨ 0x1680 < first) ∧ (first + 10 ≤ 0x2000 ∨ 0x205F < first) ∧
      (first + 10 ≤ 0x3000 ∨ 0x3000 < first) := by decide
  obtain ⟨first, found, -⟩ := Option.map_eq_some_iff.mp digit
  have inside := List.find?_some found
  have placed := apart first (List.mem_of_find?_eq_some found)
  simp only [Bool.and_eq_true, decide_eq_true_eq] at inside
  have solid : isBlank c = false := by
    simp only [isBlank, Bool.or_eq_false_iff, Bool.and_eq_false_iff, decide_eq_false_iff_not,
      beq_eq_false_iff_ne]
    omega
  rw [isIntegerSpace, solid, Bool.false_and]

namespace Digits

variable {text : List Char} {values : List Nat}

private theorem head_digit (digits : Digits text values) :
    ∃ c rest value, text = c :: rest ∧ digitValue? c = some value := by
  cases digits with
  | one digit => exact ⟨_, _, _, rfl, digit⟩
  | next digit rest => exact ⟨_, _, _, rfl, digit⟩
  | gap digit rest => exact ⟨_, _, _, rfl, digit⟩

private theorem last_digit (digits : Digits text values) :
    ∃ c value, text.getLast? = some c ∧ digitValue? c = some value := by
  induction digits with
  | one digit => exact ⟨_, _, rfl, digit⟩
  | next digit rest ih =>
      obtain ⟨c, value, last, found⟩ := ih
      exact ⟨c, value, by rw [List.getLast?_cons, last, Option.getD_some], found⟩
  | gap digit rest ih =>
      obtain ⟨c, value, last, found⟩ := ih
      exact ⟨c, value, by simp only [List.getLast?_cons, last, Option.getD_some], found⟩

end Digits

/-- Digits are read exactly from texts of digits, with single underscores between them. -/
theorem digits_iff {text : List Char} {values : List Nat} :
    groupedDigits? text = some values ↔ Digits text values := by
  constructor
  · intro read
    induction text using groupedDigits?.induct generalizing values with
    | case1 => cases read
    | case2 c =>
        obtain ⟨value, digit, rfl⟩ := Option.map_eq_some_iff.mp read
        exact .one digit
    | case3 c rest ih =>
        rw [groupedDigits?] at read
        simp only [Option.bind_eq_bind, Option.bind_eq_some_iff, Option.pure_def,
          Option.some.injEq] at read
        obtain ⟨value, digit, others, later, rfl⟩ := read
        exact .gap digit (ih later)
    | case4 c rest more plain ih =>
        rw [groupedDigits?.eq_4 c rest more plain] at read
        simp only [Option.bind_eq_bind, Option.bind_eq_some_iff, Option.pure_def,
          Option.some.injEq] at read
        obtain ⟨value, digit, others, later, rfl⟩ := read
        exact .next digit (ih later)
  · intro digits
    induction digits with
    | one digit => rw [groupedDigits?, digit]; rfl
    | @next c value digit text values rest ih =>
        obtain ⟨first, others, least, rfl, found⟩ := rest.head_digit
        have plain : ∀ more, first :: others = '_' :: more → False := by
          rintro more ⟨⟩
          rw [show digitValue? '_' = none by decide] at found
          cases found
        rw [groupedDigits?.eq_4 c _ (List.cons_ne_nil _ _) plain, digit, ih]
        rfl
    | gap digit rest ih => rw [groupedDigits?, digit, ih]; rfl

/-- A natural number is read exactly from digits, if there are not too many of them. -/
theorem natural?_eq_some_iff {text : List Char} {n : Nat} :
    natural? text = some n ↔
      ∃ values, Digits text values ∧ values.length ≤ maxDigits ∧ ofDigits values = n := by
  simp only [natural?, Option.bind_eq_bind, Option.bind_eq_some_iff, Option.pure_def,
    Option.some.injEq, Option.guard_eq_some', digits_iff, exists_const]

/-- A text that does not begin with a sign. -/
def Unsigned (text : List Char) : Prop := text.head? ≠ some '+' ∧ text.head? ≠ some '-'

private theorem exists_sign (body : List Char) : ∃ (sign : Sign) (digits : List Char),
    body = sign.written ++ digits ∧ (sign = .absent → Unsigned digits) := by
  by_cases plus : body.head? = some '+'
  · obtain ⟨digits, rfl⟩ := List.head?_eq_some_iff.mp plus
    exact ⟨.plus, digits, rfl, nofun⟩
  by_cases minus : body.head? = some '-'
  · obtain ⟨digits, rfl⟩ := List.head?_eq_some_iff.mp minus
    exact ⟨.minus, digits, rfl, nofun⟩
  exact ⟨.absent, body, rfl, fun _ => ⟨plus, minus⟩⟩

private theorem integer?_of_trimmed {text digits : List Char} {sign : Sign}
    (body : trimmed isIntegerSpace text = sign.written ++ digits)
    (unsigned : sign = .absent → Unsigned digits) :
    integer? text = (natural? digits).map sign.signed := by
  rw [trimmed] at body
  simp only [integer?, body]
  cases sign with
  | absent =>
      obtain ⟨noPlus, noMinus⟩ := unsigned rfl
      rw [Sign.written, List.nil_append]
      split
      · exact absurd rfl noPlus
      · exact absurd rfl noMinus
      · cases natural? digits <;> rfl
  | plus =>
      simp only [Sign.written, List.singleton_append]
      cases natural? digits <;> rfl
  | minus =>
      simp only [Sign.written, List.singleton_append]
      cases natural? digits <;> rfl

private theorem Digits.unsigned {text : List Char} {values : List Nat} (digits : Digits text values) :
    Unsigned text := by
  obtain ⟨c, rest, value, rfl, found⟩ := digits.head_digit
  have other : ∀ mark, digitValue? mark = none → (c :: rest).head? ≠ some mark := by
    rintro mark none ⟨⟩
    rw [none] at found
    cases found
  exact ⟨other '+' (by decide), other '-' (by decide)⟩

private theorem Digits.trimmed_signed {text : List Char} {values : List Nat} (digits : Digits text values)
    (sign : Sign) : trimmed isIntegerSpace (sign.written ++ text) = sign.written ++ text := by
  obtain ⟨first, rest, value, same, firstDigit⟩ := digits.head_digit
  obtain ⟨last, value', ends, lastDigit⟩ := digits.last_digit
  refine trimmed_of_ends ?_ ?_
  · intro c head
    cases sign with
    | absent =>
        rw [same] at head
        cases head
        exact isIntegerSpace_of_digit firstDigit
    | plus => cases head; decide
    | minus => cases head; decide
  · intro c tail
    rw [List.getLast?_append, ends] at tail
    cases tail
    exact isIntegerSpace_of_digit lastDigit

private theorem Digits.lt_ten {text : List Char} {values : List Nat} (digits : Digits text values) :
    ∀ value ∈ values, value < 10 := by
  induction digits with
  | one digit => exact List.forall_mem_singleton.mpr (digitValue?_lt digit)
  | next digit rest ih => exact List.forall_mem_cons.mpr ⟨digitValue?_lt digit, ih⟩
  | gap digit rest ih => exact List.forall_mem_cons.mpr ⟨digitValue?_lt digit, ih⟩

/-- A number has no more digits than it is written with. -/
theorem ofDigits_lt {values : List Nat} (small : ∀ value ∈ values, value < 10) :
    ofDigits values < 10 ^ values.length := by
  induction values using List.reverseRecOn with
  | nil => exact Nat.zero_lt_one
  | append_singleton values last ih =>
      obtain ⟨others, ends⟩ := List.forall_mem_append.mp small
      have bound := ih others
      have digit := List.forall_mem_singleton.mp ends
      have step : ofDigits (values ++ [last]) = ofDigits values * 10 + last := List.foldl_append
      rw [step, List.length_append, List.length_singleton, Nat.pow_succ]
      omega

/-- An integer that is read from a text is short enough to be written. -/
theorem Denotes.isWritable {text : List Char} {n : Int} (denotes : Denotes text n) :
    isWritable n = true := by
  obtain ⟨sign, -, -, digits, short⟩ := denotes
  rename_i values
  have size : (sign.signed (ofDigits values)).natAbs = ofDigits values := by
    cases sign with
    | absent => rfl
    | plus => rfl
    | minus => exact Int.natAbs_neg _
  have bound : ofDigits values < Nat.pow 10 values.length := ofDigits_lt digits.lt_ten
  have longer : ∀ most, values.length ≤ most → Nat.pow 10 values.length ≤ Nat.pow 10 most :=
    fun _ => Nat.pow_le_pow_right (by decide)
  apply decide_eq_true
  rw [size]
  exact Nat.lt_of_lt_of_le bound (longer _ short)

/-- **Reading integers is their grammar.** -/
theorem integer?_eq_some_iff {text : List Char} {n : Int} :
    integer? text = some n ↔ Denotes text n := by
  constructor
  · intro read
    obtain ⟨before, after, around, start, stop⟩ := exists_around isIntegerSpace text
    obtain ⟨sign, body, signed, unsigned⟩ := exists_sign (trimmed isIntegerSpace text)
    rw [integer?_of_trimmed signed unsigned] at read
    obtain ⟨natural, found, rfl⟩ := Option.map_eq_some_iff.mp read
    obtain ⟨values, digits, short, rfl⟩ := natural?_eq_some_iff.mp found
    rw [around, signed]
    exact .written sign start stop digits short
  · intro denotes
    obtain ⟨sign, start, stop, digits, short⟩ := denotes
    have body := (trimmed_around start stop).trans (digits.trimmed_signed sign)
    rw [integer?_of_trimmed body fun _ => digits.unsigned,
      natural?_eq_some_iff.mpr ⟨_, digits, short, rfl⟩, Option.map_some]

end SpotCapacity.Text
