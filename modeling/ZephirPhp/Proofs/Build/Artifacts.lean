import Mathlib.Data.List.Forall2
import ZephirPhp.Compiler
import ZephirPhp.Files.Memory
import ZephirPhp.Proofs.Build.Places

/-! # Where artifacts lie

The artifacts of a source lie right in the output root, under the flattened path of the
source. Two sources share their artifacts exactly if flattening makes their paths equal,
and neither a syntax tree nor a source ever lies where a PHP file does.
-/

namespace ZephirPhp

namespace Path

/-! ## Flattening -/

/-- The characters that a flattened path shows as an underscore. -/
def isFlattened (character : Char) : Bool :=
  character = '/' ∨ character = '\\' ∨ character = ':' ∨ character = '_'

/-- Two characters that a flattened path shows alike. -/
def Alike (left right : Char) : Prop :=
  left = right ∨ isFlattened left = true ∧ isFlattened right = true

/-- Two paths that differ at most in which of the flattened characters they have. -/
def SameShape (left right : String) : Prop :=
  List.Forall₂ Alike left.toList right.toList

/-- The character that a flattened path shows for another. -/
def flattenChar (character : Char) : Char :=
  if character = '/' ∨ character = '\\' ∨ character = ':' then '_' else character

theorem toList_flatten (path : String) :
    (flatten path).toList = path.toList.map flattenChar := by
  simp [flatten, flattenChar]

theorem flattenChar_eq_iff (left right : Char) :
    flattenChar left = flattenChar right ↔ Alike left right := by
  simp only [flattenChar, Alike, isFlattened, decide_eq_true_eq]
  grind

theorem flatten_eq_flatten_iff (left right : String) :
    flatten left = flatten right ↔ SameShape left right := by
  rw [← String.toList_inj, toList_flatten, toList_flatten, SameShape]
  generalize left.toList = left
  generalize right.toList = right
  induction left generalizing right with
  | nil => cases right <;> simp
  | cons head tail induction =>
      cases right with
      | nil => simp
      | cons other rest =>
          simp [flattenChar_eq_iff, induction]

theorem flattenChar_ne_slash (character : Char) : flattenChar character ≠ '/' := by
  simp only [flattenChar]
  split
  · decide
  · rename_i ordinary
    exact fun equal => ordinary (.inl equal)

theorem slash_not_mem_flatten (path : String) : '/' ∉ (flatten path).toList := by
  rw [toList_flatten]
  intro member
  rcases List.mem_map.mp member with ⟨character, _, shown⟩
  exact flattenChar_ne_slash character shown

theorem length_toList_flatten (path : String) :
    (flatten path).toList.length = path.toList.length := by
  rw [toList_flatten, List.length_map]

/-! ## Files in a directory -/

/-- A path that leads to a file right in a directory, not through another one and not
up. -/
def LiesIn (directory path : String) : Prop :=
  ∃ name, place path = place directory ++ [.normal name]

theorem length_le_of_mem_splitOn {separator : Char} {characters stretch : List Char}
    (member : stretch ∈ characters.splitOn separator) :
    stretch.length ≤ characters.length := by
  induction characters generalizing stretch with
  | nil =>
      cases List.mem_singleton.mp member
      exact Nat.le_refl 0
  | cons character rest induction =>
      rw [List.splitOn_cons_eq_if_modifyHead] at member
      split at member
      · rcases List.mem_cons.mp member with rfl | member
        · exact Nat.zero_le _
        · exact Nat.le_succ_of_le (induction member)
      · cases split : rest.splitOn separator with
        | nil => exact absurd split (List.splitOn_ne_nil _ _)
        | cons first others =>
            rw [split, List.modifyHead_cons] at member
            rcases List.mem_cons.mp member with rfl | member
            · exact Nat.succ_le_succ (induction (split ▸ List.mem_cons_self))
            · exact Nat.le_succ_of_le (induction (split ▸ List.mem_cons_of_mem _ member))

theorem length_le_of_mem_names {path name : String} (member : name ∈ names path) :
    name.toList.length ≤ path.toList.length := by
  rcases List.mem_map.mp (List.mem_filter.mp member).1 with ⟨stretch, found, rfl⟩
  rw [String.toList_ofList]
  exact length_le_of_mem_splitOn found

/-- A file does not lie where its path is continued in a single name. -/
theorem place_ne_of_longer {root path name : String} (undivided : '/' ∉ name.toList)
    (proper : name ∉ ["", ".", ".."]) (longer : path.toList.length < name.toList.length) :
    place path ≠ place (join root name) := by
  intro same
  rw [place_join_name root undivided proper] at same
  have member : name ∈ names path := by
    rw [names_eq_filterMap, same, List.filterMap_append]
    simp [Component.name?]
  have shorter := length_le_of_mem_names member
  omega

end Path

/-! ## Artifacts -/

theorem Freshness.slash_not_mem_baseName (source : String) :
    '/' ∉ (baseName source).toList :=
  Path.slash_not_mem_flatten source

namespace Roots

/-- Where the artifact of a source with an extension lies. -/
def artifactPath (roots : Roots) (extension source : String) : String :=
  Path.join roots.output (Freshness.baseName source ++ extension)

/-- Where the syntax tree of a source lies. -/
def treePath (roots : Roots) (source : String) : String :=
  roots.artifactPath ".js" source

/-- Where the PHP file of a source lies. -/
def outputPath (roots : Roots) (source : String) : String :=
  roots.artifactPath ".php" source

section

variable (roots : Roots) (source ending : String) (undivided : '/' ∉ ending.toList)
  (plain : '.' ∉ ending.toList) (nonempty : ending ≠ "")

include undivided in
theorem slash_not_mem_artifactName :
    '/' ∉ (Freshness.baseName source ++ "." ++ ending).toList := by
  simpa using ⟨Freshness.slash_not_mem_baseName source, undivided⟩

include undivided plain nonempty

theorem place_artifactPath :
    Path.place (roots.artifactPath ("." ++ ending) source) =
      Path.place roots.output ++
        [.normal (Freshness.baseName source ++ "." ++ ending)] := by
  rw [artifactPath, ← String.append_assoc]
  exact Path.place_join_name roots.output
    (slash_not_mem_artifactName source ending undivided)
    (Path.append_point_not_idle _ plain nonempty)

theorem place_artifactPath_eq_iff (left right : String) :
    Path.place (roots.artifactPath ("." ++ ending) left) =
        Path.place (roots.artifactPath ("." ++ ending) right) ↔
      Path.SameShape left right := by
  rw [place_artifactPath roots left ending undivided plain nonempty,
    place_artifactPath roots right ending undivided plain nonempty, List.append_right_inj,
    List.singleton_inj, Path.Component.normal.injEq, String.append_left_inj,
    String.append_left_inj]
  exact Path.flatten_eq_flatten_iff left right

theorem artifactPath_eq_iff (left right : String) :
    roots.artifactPath ("." ++ ending) left = roots.artifactPath ("." ++ ending) right ↔
      Path.SameShape left right := by
  constructor
  · intro same
    rw [← roots.place_artifactPath_eq_iff ending undivided plain nonempty, same]
  · intro alike
    have flat := (Path.flatten_eq_flatten_iff left right).mpr alike
    rw [artifactPath, artifactPath, Freshness.baseName, Freshness.baseName, flat]

/-- An artifact repeats the path of its source in its name, which is thus longer. -/
theorem place_ne_artifactPath :
    Path.place source ≠ Path.place (roots.artifactPath ("." ++ ending) source) := by
  rw [artifactPath, ← String.append_assoc]
  refine Path.place_ne_of_longer (slash_not_mem_artifactName source ending undivided)
    (Path.append_point_not_idle _ plain nonempty) ?_
  rw [String.toList_append, String.toList_append, List.length_append, List.length_append,
    Freshness.baseName, Path.length_toList_flatten]
  have point : ".".toList.length = 1 := rfl
  omega

theorem extension?_artifactPath :
    Path.extension? (roots.artifactPath ("." ++ ending) source) =
      if source.toList.isEmpty then none else some ending := by
  have flat : '/' ∉ (Freshness.baseName source).toList ++ ending.toList := by
    rw [List.mem_append, not_or]
    exact ⟨Freshness.slash_not_mem_baseName source, undivided⟩
  rw [artifactPath, ← String.append_assoc,
    Path.extension?_join_name _ flat plain nonempty,
    Freshness.baseName, Path.toList_flatten, List.isEmpty_map]

/-- A file with another extension does not lie where an artifact does. -/
theorem place_ne_of_extension? {path extension : String}
    (found : Path.extension? path = some extension) (different : ending ≠ extension) :
    Path.place path ≠ Path.place (roots.artifactPath ("." ++ ending) source) := by
  intro same
  rw [Path.extension?_congr same,
    extension?_artifactPath roots source ending undivided plain nonempty] at found
  split at found
  · cases found
  · exact different (Option.some.inj found)

end

variable (roots : Roots) (source left right : String)

theorem treePath_eq_iff :
    roots.treePath left = roots.treePath right ↔ Path.SameShape left right :=
  roots.artifactPath_eq_iff "js" (by decide) (by decide) (by decide) left right

theorem outputPath_eq_iff :
    roots.outputPath left = roots.outputPath right ↔ Path.SameShape left right :=
  roots.artifactPath_eq_iff "php" (by decide) (by decide) (by decide) left right

theorem place_treePath_eq_iff :
    Path.place (roots.treePath left) = Path.place (roots.treePath right) ↔
      Path.SameShape left right :=
  roots.place_artifactPath_eq_iff "js" (by decide) (by decide) (by decide) left right

theorem place_outputPath_eq_iff :
    Path.place (roots.outputPath left) = Path.place (roots.outputPath right) ↔
      Path.SameShape left right :=
  roots.place_artifactPath_eq_iff "php" (by decide) (by decide) (by decide) left right

theorem place_treePath :
    Path.place (roots.treePath source) =
      Path.place roots.output ++ [.normal (Freshness.baseName source ++ "." ++ "js")] :=
  roots.place_artifactPath source "js" (by decide) (by decide) (by decide)

theorem place_outputPath :
    Path.place (roots.outputPath source) =
      Path.place roots.output ++ [.normal (Freshness.baseName source ++ "." ++ "php")] :=
  roots.place_artifactPath source "php" (by decide) (by decide) (by decide)

/-- The last letters of the two extensions differ. -/
theorem place_treePath_ne_outputPath :
    Path.place (roots.treePath left) ≠ Path.place (roots.outputPath right) := by
  rw [place_treePath, place_outputPath, Ne, List.append_right_inj, List.singleton_inj,
    Path.Component.normal.injEq]
  intro same
  have lasts := congrArg (fun name => name.toList.getLast?) same
  simp at lasts

theorem treePath_ne_outputPath : roots.treePath left ≠ roots.outputPath right := by
  intro same
  exact roots.place_treePath_ne_outputPath left right (congrArg Path.place same)

theorem treePath_liesIn : Path.LiesIn roots.output (roots.treePath source) :=
  ⟨_, roots.place_treePath source⟩

theorem outputPath_liesIn : Path.LiesIn roots.output (roots.outputPath source) :=
  ⟨_, roots.place_outputPath source⟩

theorem place_ne_treePath : Path.place source ≠ Path.place (roots.treePath source) :=
  roots.place_ne_artifactPath source "js" (by decide) (by decide) (by decide)

theorem place_ne_outputPath : Path.place source ≠ Path.place (roots.outputPath source) :=
  roots.place_ne_artifactPath source "php" (by decide) (by decide) (by decide)

/-- A path that leads to where an artifact of a source lies. -/
def IsArtifact (source path : String) : Prop :=
  Path.place path = Path.place (roots.treePath source) ∨
    Path.place path = Path.place (roots.outputPath source)

instance (path : String) : Decidable (roots.IsArtifact source path) :=
  inferInstanceAs (Decidable (_ ∨ _))

theorem not_isArtifact_self : ¬roots.IsArtifact source source := by
  rintro (tree | output)
  · exact roots.place_ne_treePath source tree
  · exact roots.place_ne_outputPath source output

/-- No source lies where an artifact does. -/
theorem not_isArtifact_of_source {path : String}
    (isSource : Path.extension? path = some Compiler.sourceExtension) :
    ¬roots.IsArtifact source path := by
  rintro (tree | output)
  · exact roots.place_ne_of_extension? source "js" (by decide) (by decide) (by decide)
      isSource (by decide) tree
  · exact roots.place_ne_of_extension? source "php" (by decide) (by decide) (by decide)
      isSource (by decide) output

/-- Who shares an artifact has the same base name. -/
theorem baseName_eq_of_isArtifact {left right path : String}
    (artifact : roots.IsArtifact left path) (shared : roots.IsArtifact right path) :
    Freshness.baseName left = Freshness.baseName right := by
  refine (Path.flatten_eq_flatten_iff left right).mpr ?_
  rcases artifact with tree | output
  · rcases shared with otherTree | otherOutput
    · exact (roots.place_treePath_eq_iff left right).mp (tree.symm.trans otherTree)
    · exact absurd (tree.symm.trans otherOutput)
        (roots.place_treePath_ne_outputPath left right)
  · rcases shared with otherTree | otherOutput
    · exact absurd (otherTree.symm.trans output)
        (roots.place_treePath_ne_outputPath right left)
    · exact (roots.place_outputPath_eq_iff left right).mp (output.symm.trans otherOutput)

end Roots

theorem Memory.resolve_eq (memory : Memory) (root : Root) (path : String) :
    FileSystem.resolve memory root path = Path.join (memory.roots.get root) path := rfl

namespace Freshness

variable (memory : Memory) (source parser : String)

@[simp] theorem load_source : (load memory source parser).source = source := rfl

@[simp] theorem load_treePath :
    (load memory source parser).treePath = memory.roots.treePath source := by
  simp only [load, Memory.resolve_eq]
  rfl

@[simp] theorem load_outputPath :
    (load memory source parser).outputPath = memory.roots.outputPath source := by
  simp only [load, Memory.resolve_eq]
  rfl

end Freshness

end ZephirPhp
