import ZephirPhp.Dictionary

/-! # Trees of directories

A place in a tree is the list of names that leads to it. Names in a directory are in
ascending order.
-/

namespace ZephirPhp

inductive DiskEntry where
  /-- A file. It names the tool that it starts if it can be executed. -/
  | file (bytes : ByteArray) (time : Nat) (tool : Option String)
  | directory (time : Nat) (entries : List (String × DiskEntry))

namespace DiskEntry

def time : DiskEntry → Nat
  | .file _ time _ => time
  | .directory time _ => time

def isDirectory : DiskEntry → Bool
  | .file _ _ _ => false
  | .directory _ _ => true

def touch (time : Nat) : DiskEntry → DiskEntry
  | .file bytes _ tool => .file bytes time tool
  | .directory _ entries => .directory time entries

def find? : List String → DiskEntry → Option DiskEntry
  | [], entry => some entry
  | _ :: _, .file _ _ _ => none
  | name :: rest, .directory _ entries =>
    match Dictionary.get? entries name with
    | some entry => find? rest entry
    | none => none

/-- The tree with another entry at a place, if the directory above is there. -/
def put : List String → DiskEntry → DiskEntry → DiskEntry
  | [], _, new => new
  | _ :: _, .file bytes time tool, _ => .file bytes time tool
  | name :: rest, .directory time entries, new =>
    match Dictionary.get? entries name, rest with
    | some entry, rest =>
      .directory time (Dictionary.insert name (put rest entry new) entries)
    | none, [] => .directory time (Dictionary.insert name new entries)
    | none, _ :: _ => .directory time entries

def delete : List String → DiskEntry → DiskEntry
  | [], entry => entry
  | _ :: _, .file bytes time tool => .file bytes time tool
  | [name], .directory time entries => .directory time (Dictionary.erase name entries)
  | name :: next :: rest, .directory time entries =>
    match Dictionary.get? entries name with
    | some entry =>
      .directory time (Dictionary.insert name (delete (next :: rest) entry) entries)
    | none => .directory time entries

mutual

def filePlaces : DiskEntry → List (List String)
  | .file _ _ _ => [[]]
  | .directory _ entries => filePlacesIn entries

def filePlacesIn : List (String × DiskEntry) → List (List String)
  | [] => []
  | (name, entry) :: rest => entry.filePlaces.map (name :: ·) ++ filePlacesIn rest

end

end DiskEntry

end ZephirPhp
