import SpotCapacity.Cluster.Object
import SpotCapacity.Proofs.Text.Trim

/-!
# The grammar of label rules

A rule is written as a key, or as a key and a value with an equals sign between them. What the text of a
rule is read as follows from the place of its first equals sign (`LabelRule.parse_keyOnly`,
`LabelRule.parse_keyValue`), and exactly the texts of the grammar are read
(`LabelRule.parse_eq_ok_iff`). The rules that are read are the canonical ones, and each of them is what its
own text is read as (`LabelRule.parse_reprints`).
-/

namespace SpotCapacity

open Text

namespace LabelRule

/-- A text of a rule. Blanks around the key and around the value do not count. -/
inductive Written : List Char → LabelRule → Prop where
  | keyOnly {key : List Char} (single : '=' ∉ key) (present : trim key ≠ []) :
      Written key ⟨String.ofList (trim key), none⟩
  | keyValue {key value : List Char} (first : '=' ∉ key) (single : '=' ∉ value)
      (present : trim key ≠ []) :
      Written (key ++ '=' :: value)
        ⟨String.ofList (trim key), some (String.ofList (trim value))⟩

variable {key value : List Char}

private theorem count_trimEnd (value : List Char) : (trimEnd value).count '=' = value.count '=' := by
  obtain ⟨after, around, stop⟩ := exists_trimEnd value
  have none : '=' ∉ after := fun member => absurd (stop _ member) (by decide)
  conv_rhs => rw [around, List.count_append, List.count_eq_zero_of_not_mem none, Nat.add_zero]

private theorem one_lt_count_iff : 1 < value.count '=' + 1 ↔ '=' ∈ value := by
  rw [Nat.lt_add_left_iff_pos, List.count_pos_iff]

private theorem not_mem_trim {part : List Char} (single : '=' ∉ part) : '=' ∉ trim part := by
  obtain ⟨before, after, around, -, -⟩ := exists_around isBlank part
  rw [← trim_eq] at around
  intro member
  apply single
  rw [around]
  exact List.mem_append_left _ (List.mem_append_right _ member)

private theorem other_of_single (single : '=' ∉ key) : ∀ c ∈ key, (c != '=') = true := by
  intro c member
  apply bne_iff_ne.mpr
  rintro rfl
  exact single member

/-- A text without an equals sign is a key. -/
theorem parse_keyOnly {written : String} (single : '=' ∉ written.toList) :
    parse written =
      if trim written.toList = [] then .error (.emptyKey (String.ofList (trim written.toList)))
      else .ok ⟨String.ofList (trim written.toList), none⟩ := by
  have apart : '=' ∉ trim written.toList := not_mem_trim single
  have other : ∀ c ∈ trim written.toList, (c != '=') = true := other_of_single apart
  simp only [parse, List.count_eq_zero_of_not_mem apart, List.takeWhile_eq_self_iff.mpr other,
    List.dropWhile_eq_nil_iff.mpr other, trim_trim, Nat.not_lt_zero, if_false]

/-- A text with an equals sign is a key and, unless there is another one, a value. -/
theorem parse_keyValue {written : String} (splits : written.toList = key ++ '=' :: value)
    (first : '=' ∉ key) :
    parse written =
      if '=' ∈ value then
        .error (.separators (String.ofList (trim written.toList)) (value.count '=' + 1))
      else if trim key = [] then .error (.emptyKey (String.ofList (trim written.toList)))
      else .ok ⟨String.ofList (trim key), some (String.ofList (trim value))⟩ := by
  have body : trim written.toList = trimStart key ++ '=' :: trimEnd value := by
    rw [splits, trim_solid (by decide)]
  have apart : '=' ∉ trimStart key := by
    obtain ⟨before, around, -⟩ := exists_trimStart key
    intro member
    rw [around] at first
    exact first (List.mem_append_right _ member)
  have other : ∀ c ∈ trimStart key, (c != '=') = true := other_of_single apart
  have separators : (trim written.toList).count '=' = value.count '=' + 1 := by
    rw [body, List.count_append, List.count_eq_zero_of_not_mem apart, List.count_cons_self,
      count_trimEnd, Nat.zero_add]
  have front : (trim written.toList).takeWhile (· != '=') = trimStart key := by
    rw [body, List.takeWhile_append_of_pos other]
    simp
  have back : (trim written.toList).dropWhile (· != '=') = '=' :: trimEnd value := by
    rw [body, List.dropWhile_append_of_pos other]
    simp
  simp only [parse, separators, front, back, trim_trimStart, trim_trimEnd, one_lt_count_iff]

/-- **Reading label rules is their grammar.** -/
theorem parse_eq_ok_iff {written : String} {rule : LabelRule} :
    parse written = .ok rule ↔ Written written.toList rule := by
  constructor
  · intro read
    by_cases separated : '=' ∈ written.toList
    · obtain ⟨key, value, splits, first⟩ := List.eq_append_cons_of_mem separated
      rw [parse_keyValue splits first] at read
      split_ifs at read with more empty
      cases read
      rw [splits]
      exact .keyValue first more empty
    · rw [parse_keyOnly separated] at read
      split_ifs at read with empty
      cases read
      exact .keyOnly separated empty
  · intro grammar
    generalize same : written.toList = text at grammar
    cases grammar with
    | keyOnly single present => rw [parse_keyOnly (same ▸ single), same, if_neg present]
    | keyValue first single present =>
        rw [parse_keyValue same first, if_neg single, if_neg present]

/-! ### Rules as texts -/

/-- The part of a text before its first equals sign, all of it when there is none. -/
def keyPart (text : List Char) : List Char := text.takeWhile (· != '=')

/-- The part of a text after its first equals sign. -/
def valuePart (text : List Char) : List Char := (text.dropWhile (· != '=')).tail

private theorem keyPart_keyOnly (single : '=' ∉ key) : keyPart key = key :=
  List.takeWhile_eq_self_iff.mpr (other_of_single single)

private theorem keyPart_keyValue (first : '=' ∉ key) : keyPart (key ++ '=' :: value) = key := by
  rw [keyPart, List.takeWhile_append_of_pos (other_of_single first)]
  simp

private theorem valuePart_keyValue (first : '=' ∉ key) : valuePart (key ++ '=' :: value) = value := by
  rw [valuePart, List.dropWhile_append_of_pos (other_of_single first)]
  simp

/-- What any text is read as, by the count of its equals signs and by its parts. -/
theorem parse_eq (written : String) :
    parse written =
      if 1 < written.toList.count '=' then
        .error (.separators (String.ofList (trim written.toList)) (written.toList.count '='))
      else if trim (keyPart written.toList) = [] then
        .error (.emptyKey (String.ofList (trim written.toList)))
      else .ok ⟨String.ofList (trim (keyPart written.toList)),
        if '=' ∈ written.toList then some (String.ofList (trim (valuePart written.toList)))
        else none⟩ := by
  by_cases separated : '=' ∈ written.toList
  · rw [if_pos separated]
    obtain ⟨key, value, splits, first⟩ := List.eq_append_cons_of_mem separated
    have count : written.toList.count '=' = value.count '=' + 1 := by
      rw [splits, List.count_append, List.count_eq_zero_of_not_mem first, List.count_cons_self,
        Nat.zero_add]
    rw [parse_keyValue splits first, count]
    simp only [splits, keyPart_keyValue first, valuePart_keyValue first, one_lt_count_iff]
  · have none : ¬ 1 < written.toList.count '=' := by
      rw [List.count_eq_zero_of_not_mem separated]
      exact Nat.not_lt_zero 1
    rw [parse_keyOnly separated, keyPart_keyOnly separated, if_neg separated, if_neg none]

/-- A rule as it is read: its key is not empty, and neither its key nor its value has an equals sign in it or
blanks around it. -/
structure Canonical (rule : LabelRule) : Prop where
  present : rule.key ≠ ""
  keySingle : '=' ∉ rule.key.toList
  keySolid : Solid rule.key.toList
  valueSingle : ∀ value, rule.value = some value → '=' ∉ value.toList
  valueSolid : ∀ value, rule.value = some value → Solid value.toList

variable {rule : LabelRule}

/-- Every rule that is written in some way is one that parsing can give. -/
theorem Written.canonical {text : List Char} (grammar : Written text rule) : rule.Canonical := by
  cases grammar with
  | keyOnly single present =>
      constructor
      case present => exact fun empty => present (String.ofList_eq_empty_iff.mp empty)
      case keySingle => simpa using not_mem_trim single
      case keySolid => simpa using solid_trim _
      case valueSingle => exact nofun
      case valueSolid => exact nofun
  | keyValue first single present =>
      constructor
      case present => exact fun empty => present (String.ofList_eq_empty_iff.mp empty)
      case keySingle => simpa using not_mem_trim first
      case keySolid => simpa using solid_trim _
      case valueSingle =>
        intro _ given
        cases given
        simpa using not_mem_trim single
      case valueSolid =>
        intro _ given
        cases given
        simpa using solid_trim _

/-- The text of a canonical rule is in the grammar. -/
theorem Canonical.written (canonical : rule.Canonical) : Written rule.text.toList rule := by
  obtain ⟨key, value⟩ := rule
  obtain ⟨present, keySingle, keySolid, valueSingle, valueSolid⟩ := canonical
  have trimmed : trim key.toList = key.toList := trim_eq_self_iff.mpr keySolid
  have given : trim key.toList ≠ [] := by
    rw [trimmed]
    exact fun empty => present (String.toList_eq_nil_iff.mp empty)
  cases value with
  | none =>
      have grammar := Written.keyOnly keySingle given
      rwa [trimmed, String.ofList_toList] at grammar
  | some value =>
      have same : trim value.toList = value.toList := trim_eq_self_iff.mpr (valueSolid value rfl)
      have grammar := Written.keyValue keySingle (valueSingle value rfl) given
      rw [trimmed, same, String.ofList_toList, String.ofList_toList] at grammar
      have printed : (text ⟨key, some value⟩).toList = key.toList ++ '=' :: value.toList := by
        simp [text]
      rwa [printed]

/-- The rules that texts are read as are the canonical ones. -/
theorem exists_parse_iff : (∃ written, parse written = .ok rule) ↔ rule.Canonical := by
  simp only [parse_eq_ok_iff]
  exact ⟨fun ⟨_, grammar⟩ => grammar.canonical, fun canonical => ⟨rule.text, canonical.written⟩⟩

/-- A rule that parsing can give is read from its own text. -/
theorem Canonical.parse_text (canonical : rule.Canonical) : parse rule.text = .ok rule :=
  parse_eq_ok_iff.mpr canonical.written

/-- A text is read exactly when it has at most one equals sign and more than blanks before it. -/
theorem parse_succeeds_iff (written : String) :
    (∃ rule, parse written = .ok rule) ↔
      written.toList.count '=' ≤ 1 ∧ trim (keyPart written.toList) ≠ [] := by
  rw [parse_eq]
  constructor
  · rintro ⟨rule, read⟩
    split_ifs at read with more empty
    all_goals exact ⟨Nat.not_lt.mp more, empty⟩
  · rintro ⟨few, present⟩
    rw [if_neg (Nat.not_lt.mpr few), if_neg present]
    exact ⟨_, rfl⟩

/-- The parts of the rule that a text is read as. -/
theorem parts_of_parse {written : String} (read : parse written = .ok rule) :
    (rule.keyOnly = true ↔ '=' ∉ written.toList) ∧
    rule.key.toList = trim (keyPart written.toList) ∧
    ∀ value, rule.value = some value → value.toList = trim (valuePart written.toList) := by
  rw [parse_eq] at read
  split_ifs at read with more empty separated
  all_goals cases read
  case pos =>
    refine ⟨iff_of_false Bool.false_ne_true (not_not_intro separated), String.toList_ofList, ?_⟩
    intro value given
    cases given
    exact String.toList_ofList
  case neg => exact ⟨iff_of_true rfl separated, String.toList_ofList, nofun⟩

/-- **A rule that is read stays itself when it is printed and read again.** A text is read exactly when it
has at most one equals sign and more than blanks before it, and refused as invalid configuration otherwise.
The rule has the trimmed parts of the text, and no value only where the text has no equals sign. The rules
that are read are the canonical ones; each is what its own text is read as, so that reading the printed
rules again classifies every label set and every node as before. -/
theorem parse_reprints :
    (∀ written : String,
      ((∃ rule, parse written = .ok rule) ↔
        written.toList.count '=' ≤ 1 ∧ trim (keyPart written.toList) ≠ []) ∧
      (¬ (written.toList.count '=' ≤ 1 ∧ trim (keyPart written.toList) ≠ []) →
        ∃ fault, parse written = .error fault ∧
          (Fault.setting (.rule none fault)).kind = .config) ∧
      ∀ rule, parse written = .ok rule →
        (rule.keyOnly = true ↔ '=' ∉ written.toList) ∧
        rule.key.toList = trim (keyPart written.toList) ∧
        (∀ value, rule.value = some value → value.toList = trim (valuePart written.toList)) ∧
        parse rule.text = .ok rule) ∧
    (∀ rule, ((∃ written, parse written = .ok rule) ↔ rule.Canonical) ∧
      (rule.Canonical → parse rule.text = .ok rule)) ∧
    ∀ spotRule onDemandRule spotAgain onDemandAgain : LabelRule,
      spotRule.Canonical → onDemandRule.Canonical →
      parse spotRule.text = .ok spotAgain → parse onDemandRule.text = .ok onDemandAgain →
      (∀ labels, spotAgain.accepts labels = spotRule.accepts labels ∧
        NodeClass.ofLabels spotAgain onDemandAgain labels =
          NodeClass.ofLabels spotRule onDemandRule labels) ∧
      ∀ node : Node, node.classify spotAgain onDemandAgain = node.classify spotRule onDemandRule := by
  refine ⟨?_, ?_, ?_⟩
  · intro written
    refine ⟨parse_succeeds_iff written, ?_, ?_⟩
    · rw [← parse_succeeds_iff]
      intro unread
      cases outcome : parse written with
      | ok rule => exact absurd ⟨rule, outcome⟩ unread
      | error fault => exact ⟨fault, rfl, rfl⟩
    · intro rule read
      obtain ⟨keyOnly, key, value⟩ := parts_of_parse read
      exact ⟨keyOnly, key, value, (exists_parse_iff.mp ⟨written, read⟩).parse_text⟩
  · exact fun rule => ⟨exists_parse_iff, Canonical.parse_text⟩
  · intro spotRule onDemandRule spotAgain onDemandAgain spot onDemand spotRead onDemandRead
    have spotSame : spotRule = spotAgain := Except.ok.inj (spot.parse_text.symm.trans spotRead)
    have onDemandSame : onDemandRule = onDemandAgain :=
      Except.ok.inj (onDemand.parse_text.symm.trans onDemandRead)
    subst spotSame onDemandSame
    exact ⟨fun _ => ⟨rfl, rfl⟩, fun _ => rfl⟩

/-- A key alone is one rule, a key with an empty value another. -/
example : parse "key" = .ok ⟨"key", none⟩ ∧ parse " key = " = .ok ⟨"key", some ""⟩ := by decide

end LabelRule

end SpotCapacity
