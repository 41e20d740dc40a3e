import ZephirPhp.Path

/-! # Tables of files

A table holds values by path, in the order of the places that the paths lead to. Two
spellings of one place are one key, which keeps the spelling under which it was first
stored.
-/

namespace ZephirPhp

abbrev FileTable (α : Type) := List (String × α)

namespace FileTable

variable {α : Type}

def get? : FileTable α → String → Option α
  | [], _ => none
  | entry :: rest, path =>
    if Path.place path = Path.place entry.1 then some entry.2 else get? rest path

def contains (table : FileTable α) (path : String) : Bool :=
  (table.get? path).isSome

def insert (path : String) (value : α) : FileTable α → FileTable α
  | [] => [(path, value)]
  | entry :: rest =>
    if Path.place path = Path.place entry.1 then (entry.1, value) :: rest
    else if Path.place path < Path.place entry.1 then (path, value) :: entry :: rest
    else entry :: insert path value rest

def erase (path : String) : FileTable α → FileTable α
  | [] => []
  | entry :: rest =>
    if Path.place path = Path.place entry.1 then erase path rest
    else entry :: erase path rest

def ofEntries (entries : List (String × α)) : FileTable α :=
  entries.foldl (fun table entry => table.insert entry.1 entry.2) []

/-- The paths as they were first spelt. -/
def paths (table : FileTable α) : List String :=
  table.map Prod.fst

example : ofEntries [("b", 1), ("a/c", 2), ("a.c", 3), ("a//c", 4)] =
    [("a/c", 4), ("a.c", 3), ("b", 1)] := by decide

theorem get?_congr (table : FileTable α) {left right : String}
    (same : Path.place left = Path.place right) : table.get? left = table.get? right := by
  induction table with
  | nil => rfl
  | cons entry rest induction => simp only [get?, same, induction]

@[simp] theorem get?_insert_self (table : FileTable α) (path : String) (value : α) :
    (table.insert path value).get? path = some value := by
  induction table with
  | nil => simp [insert, get?]
  | cons entry rest induction =>
      simp only [insert]
      split
      · rename_i same
        simp [get?, same]
      · rename_i different
        split
        · simp [get?]
        · simp [get?, different, induction]

theorem get?_insert_of_ne (table : FileTable α) {path other : String} (value : α)
    (different : Path.place other ≠ Path.place path) :
    (table.insert path value).get? other = table.get? other := by
  induction table with
  | nil => simp [insert, get?, different]
  | cons entry rest induction =>
      simp only [insert]
      split
      · rename_i same
        simp [get?, ← same, different]
      · split
        · simp [get?, different]
        · simp [get?, induction]

@[simp] theorem get?_erase_self (table : FileTable α) (path : String) :
    (table.erase path).get? path = none := by
  induction table with
  | nil => rfl
  | cons entry rest induction =>
      rw [erase]
      split
      · exact induction
      · rename_i different
        rw [get?, if_neg different, induction]

theorem get?_erase_of_ne (table : FileTable α) {path other : String}
    (different : Path.place other ≠ Path.place path) :
    (table.erase path).get? other = table.get? other := by
  induction table with
  | nil => rfl
  | cons entry rest induction =>
      rw [erase]
      split
      · rename_i same
        rw [get?, if_neg (same ▸ different), induction]
      · rw [get?, get?, induction]

theorem get?_ne_none_of_mem_paths (table : FileTable α) {path : String}
    (member : path ∈ table.paths) : table.get? path ≠ none := by
  induction table with
  | nil => cases member
  | cons entry rest induction =>
      rw [get?]
      split
      · simp
      · rename_i different
        refine induction ((List.mem_cons.mp member).resolve_left ?_)
        rintro rfl
        exact different rfl

theorem exists_mem_paths_of_get? (table : FileTable α) {path : String}
    (found : table.get? path ≠ none) :
    ∃ stored ∈ table.paths, Path.place stored = Path.place path := by
  induction table with
  | nil => exact absurd rfl found
  | cons entry rest induction =>
      rw [get?] at found
      split at found
      · rename_i same
        exact ⟨entry.1, List.mem_cons_self, same.symm⟩
      · rcases induction found with ⟨stored, member, same⟩
        exact ⟨stored, List.mem_cons_of_mem _ member, same⟩

theorem mem_paths_of_insert (table : FileTable α) {path other : String} {value : α}
    (member : other ∈ (table.insert path value).paths) :
    other ∈ table.paths ∨ other = path := by
  induction table with
  | nil => exact .inr (List.mem_singleton.mp member)
  | cons entry rest induction =>
      simp only [insert] at member
      split at member
      · exact .inl member
      · split at member
        · exact (List.mem_cons.mp member).symm
        · rcases List.mem_cons.mp member with first | later
          · exact .inl (first ▸ List.mem_cons_self)
          · exact (induction later).imp_left (List.mem_cons_of_mem _)

theorem mem_paths_of_erase (table : FileTable α) {path other : String}
    (member : other ∈ (table.erase path).paths) : other ∈ table.paths := by
  induction table with
  | nil => exact member
  | cons entry rest induction =>
      rw [erase] at member
      split at member
      · exact List.mem_cons_of_mem _ (induction member)
      · rcases List.mem_cons.mp member with first | later
        · exact first ▸ List.mem_cons_self
        · exact List.mem_cons_of_mem _ (induction later)

end FileTable

end ZephirPhp
