/-!
# Keyed lists

Lists of key and value pairs that keep the order in which their keys were first put. `put` replaces
the value of a key in its place and appends a new key, `erase` removes it. Reading is
`List.lookup`; `lookup_put` and `lookup_erase` are the laws that tie the three together.
-/

namespace SpotCapacity.Keyed

variable {κ : Type} {α : Type} [BEq κ] [LawfulBEq κ]

/-- Gives a key a value, in the place of the key when it has one and at the end otherwise. -/
def put (key : κ) (value : α) : List (κ × α) → List (κ × α)
  | [] => [(key, value)]
  | (other, old) :: rest =>
    if other == key then (other, value) :: rest else (other, old) :: put key value rest

def erase (key : κ) (entries : List (κ × α)) : List (κ × α) :=
  entries.filter fun entry => entry.1 != key

/-- The pairs put one after another. -/
def ofPairs (pairs : List (κ × α)) : List (κ × α) :=
  pairs.foldl (fun entries (key, value) => put key value entries) []

/-- What is put at a key is found there, and all else as before. -/
theorem lookup_put (key wanted : κ) (value : α) (entries : List (κ × α)) :
    (put key value entries).lookup wanted =
      if wanted == key then some value else entries.lookup wanted := by
  induction entries with
  | nil => by_cases same : wanted == key <;> simp [put, List.lookup_cons, same]
  | cons entry rest ih =>
      obtain ⟨other, old⟩ := entry
      by_cases here : other == key
      · have : other = key := eq_of_beq here
        subst this
        by_cases same : wanted == other <;> simp [put, List.lookup_cons, same]
      · have apart : (other == key) = false := by simpa using here
        simp only [put, apart, Bool.false_eq_true, if_false, List.lookup_cons]
        by_cases found : wanted == other
        · have : wanted = other := eq_of_beq found
          subst this
          simp [apart]
        · have missed : (wanted == other) = false := by simpa using found
          simp [missed, ih]

/-- What is erased is not found any more, and all else as before. -/
theorem lookup_erase (key wanted : κ) (entries : List (κ × α)) :
    (erase key entries).lookup wanted =
      if wanted == key then none else entries.lookup wanted := by
  induction entries with
  | nil => by_cases same : wanted == key <;> simp [erase, same]
  | cons entry rest ih =>
      obtain ⟨other, old⟩ := entry
      by_cases here : other == key
      · have : other = key := eq_of_beq here
        subst this
        have skip : erase other ((other, old) :: rest) = erase other rest := by simp [erase]
        rw [skip, ih]
        by_cases same : wanted == other <;> simp [List.lookup_cons, same]
      · have apart : (other != key) = true := by simpa [bne] using here
        have keep : erase key ((other, old) :: rest) = (other, old) :: erase key rest := by
          simp [erase, apart]
        rw [keep, List.lookup_cons, List.lookup_cons, ih]
        by_cases found : wanted == other
        · have : wanted = other := eq_of_beq found
          subst this
          have : (wanted == key) = false := by simpa using here
          simp [this]
        · have missed : (wanted == other) = false := by simpa using found
          simp [missed]

end SpotCapacity.Keyed
