/-! # Dictionaries

A dictionary is a finite map from texts. It is kept as the list of its entries in
ascending order of key, so that listing a dictionary needs no sorting.
-/

namespace ZephirPhp

abbrev Dictionary (α : Type) := List (String × α)

namespace Dictionary

variable {α : Type}

def get? : Dictionary α → String → Option α
  | [], _ => none
  | entry :: rest, key => if key = entry.1 then some entry.2 else get? rest key

def contains (dictionary : Dictionary α) (key : String) : Bool :=
  (dictionary.get? key).isSome

def insert (key : String) (value : α) : Dictionary α → Dictionary α
  | [] => [(key, value)]
  | entry :: rest =>
    if key = entry.1 then
      (key, value) :: rest
    else if key < entry.1 then
      (key, value) :: entry :: rest
    else
      entry :: insert key value rest

def erase (key : String) : Dictionary α → Dictionary α
  | [] => []
  | entry :: rest => if key = entry.1 then erase key rest else entry :: erase key rest

/-- The dictionary of a list of entries; the last entry of a key counts. -/
def ofEntries (entries : List (String × α)) : Dictionary α :=
  entries.foldl (fun dictionary entry => dictionary.insert entry.1 entry.2) []

def keys (dictionary : Dictionary α) : List String :=
  dictionary.map Prod.fst

example : ofEntries [("b", 1), ("a", 2), ("b", 3)] = [("a", 2), ("b", 3)] := by decide

@[simp] theorem get?_insert_self (dictionary : Dictionary α) (key : String) (value : α) :
    (dictionary.insert key value).get? key = some value := by
  induction dictionary with
  | nil => simp [insert, get?]
  | cons entry rest induction =>
    simp only [insert]
    split
    · simp [get?]
    · rename_i different
      split
      · simp [get?]
      · simp [get?, different, induction]

theorem get?_insert_of_ne (dictionary : Dictionary α) {key other : String} (value : α)
    (different : other ≠ key) :
    (dictionary.insert key value).get? other = dictionary.get? other := by
  induction dictionary with
  | nil => simp [insert, get?, different]
  | cons entry rest induction =>
    simp only [insert]
    split
    · rename_i same
      subst same
      simp [get?, different]
    · split
      · simp [get?, different]
      · simp [get?, induction]

@[simp] theorem get?_erase_self (dictionary : Dictionary α) (key : String) :
    (dictionary.erase key).get? key = none := by
  induction dictionary with
  | nil => rfl
  | cons entry rest induction =>
    by_cases same : key = entry.1
    · simpa [erase, same] using induction
    · simpa [erase, get?, same] using induction

theorem get?_erase_of_ne (dictionary : Dictionary α) {key other : String}
    (different : other ≠ key) :
    (dictionary.erase key).get? other = dictionary.get? other := by
  induction dictionary with
  | nil => rfl
  | cons entry rest induction =>
    by_cases same : key = entry.1
    · have notEntry : other ≠ entry.1 := fun equal => different (equal.trans same.symm)
      simpa [erase, get?, same, notEntry] using induction
    · simp [erase, get?, same, induction]

end Dictionary

end ZephirPhp
