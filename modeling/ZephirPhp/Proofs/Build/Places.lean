import Mathlib.Data.List.Basic
import ZephirPhp.Path

/-! # Where paths lead

Seen from a root, a path leads on from where the root leads. The place that a path leads
to decides over its names and over its extension, however the path is spelt.
-/

namespace ZephirPhp.Path

/-! ## Joining -/

theorem join_of_relative (root path : String) (relative : isAbsolute path = false) :
    join root path =
      (if root.isEmpty || endsInSlash root then root else root ++ "/") ++ path := by
  rw [join, relative]
  by_cases divided : (root.isEmpty || endsInSlash root) = true
  · simp only [Bool.false_eq_true, if_false, divided, if_true]
  · simp only [Bool.false_eq_true, if_false, divided]

theorem join_of_absolute (root : String) {path : String}
    (absolute : isAbsolute path = true) :
    join root path = path := by
  rw [join, if_pos absolute]

theorem join_empty (path : String) : join "" path = path := by
  cases absolute : isAbsolute path with
  | true => exact join_of_absolute "" absolute
  | false =>
      rw [join_of_relative "" path absolute]
      exact String.empty_append

theorem isAbsolute_join {root path : String} (relative : isAbsolute path = false) :
    isAbsolute (join root path) = isAbsolute root := by
  rw [join_of_relative root path relative]
  simp only [isAbsolute, String.toList_append] at relative ⊢
  cases characters : root.toList with
  | nil =>
      rw [String.toList_eq_nil_iff.mp characters]
      simpa using relative
  | cons head tail => split <;> simp [characters]

theorem isAbsolute_of_undivided {name : String} (undivided : '/' ∉ name.toList) :
    isAbsolute name = false := by
  rw [isAbsolute, beq_eq_false_iff_ne]
  exact fun found => undivided (List.mem_of_head? found)

/-! ## Pieces and names -/

theorem pieces_append_slash (left right : String) :
    pieces (left ++ "/" ++ right) = pieces left ++ pieces right := by
  have divided : (left ++ "/" ++ right).toList = left.toList ++ '/' :: right.toList := by
    simp
  rw [pieces, divided, List.splitOn_append_cons_self, List.map_append, pieces, pieces]

theorem pieces_ne_nil (path : String) : pieces path ≠ [] := by
  simp [pieces]

theorem pieces_of_undivided {name : String} (undivided : '/' ∉ name.toList) :
    pieces name = [name] := by
  rw [pieces, List.splitOn_eq_singleton undivided, List.map_singleton,
    String.ofList_toList]

/-- The pieces of a root come first, but for an empty one at its end. -/
theorem pieces_join {root path : String} (relative : isAbsolute path = false)
    (nonempty : root ≠ "") :
    ∃ front, front ≠ [] ∧ (pieces root = front ∨ pieces root = front ++ [""]) ∧
      pieces (join root path) = front ++ pieces path := by
  rw [join_of_relative root path relative]
  split
  · rename_i divided
    have ends : endsInSlash root = true := by simpa [nonempty] using divided
    rw [endsInSlash, beq_iff_eq, List.getLast?_eq_some_iff] at ends
    rcases ends with ⟨before, split⟩
    have whole : root = String.ofList before ++ "/" := by
      rw [← String.toList_inj, split]
      simp
    refine ⟨pieces (String.ofList before), pieces_ne_nil _, .inr ?_, ?_⟩
    · rw [whole, ← String.append_empty (s := String.ofList before ++ "/"),
        pieces_append_slash]
      rfl
    · rw [whole, pieces_append_slash]
  · exact ⟨pieces root, pieces_ne_nil root, .inl rfl, pieces_append_slash root path⟩

theorem names_join (root path : String) (relative : isAbsolute path = false) :
    names (join root path) = names root ++ names path := by
  by_cases empty : root = ""
  · rw [empty, join_empty]
    rfl
  · rcases pieces_join relative empty with ⟨front, _, last, joined⟩
    rw [names, joined, List.filter_append, ← names]
    congr 1
    rcases last with same | same
    · rw [names, same]
    · rw [names, same, List.filter_append]
      simp

theorem names_of_undivided {name : String} (undivided : '/' ∉ name.toList)
    (proper : name ≠ "" ∧ name ≠ ".") : names name = [name] := by
  rw [names, pieces_of_undivided undivided]
  exact List.filter_cons_of_pos (decide_eq_true proper)

/-! ## Places -/

namespace Component

def name? : Component → Option String
  | .root | .current => none
  | .parent => some ".."
  | .normal name => some name

@[simp] theorem name?_ofName (name : String) : (ofName name).name? = some name := by
  rw [ofName]
  split
  · rename_i up
    rw [up, name?]
  · rw [name?]

end Component

theorem names_eq_filterMap (path : String) :
    names path = (place path).filterMap Component.name? := by
  have stepwise : ((names path).map .ofName).filterMap Component.name? = names path := by
    rw [List.filterMap_map]
    simp
  have begins : (start path).filterMap Component.name? = [] := by
    rw [start]
    split
    · rfl
    · split <;> rfl
  rw [place, List.filterMap_append, begins, stepwise, List.nil_append]

theorem names_congr {left right : String} (same : place left = place right) :
    names left = names right := by
  rw [names_eq_filterMap, names_eq_filterMap, same]

/-- A place begins with where the path starts. -/
theorem start_eq_filter (path : String) :
    start path = (place path).filter (·.name?.isNone) := by
  have passed : ((names path).map Component.ofName).filter (·.name?.isNone) = [] := by
    rw [List.filter_eq_nil_iff]
    intro component member
    rcases List.mem_map.mp member with ⟨name, _, rfl⟩
    simp
  have kept : (start path).filter (·.name?.isNone) = start path := by
    rw [start]
    split
    · rfl
    · split <;> rfl
  rw [place, List.filter_append, passed, kept, List.append_nil]

theorem isAbsolute_iff_start (path : String) :
    isAbsolute path = true ↔ start path = [.root] := by
  rw [start]
  split
  · rename_i absolute
    simp [absolute]
  · rename_i relative
    split <;> simp [relative]

theorem length_start_le (path : String) : (start path).length ≤ 1 := by
  rw [start]
  split
  · exact Nat.le_refl 1
  · split <;> simp

/-- A relative path leads on from its root. -/
theorem place_join {root path : String} (relative : isAbsolute path = false)
    (nonempty : root ≠ "") :
    place (join root path) = place root ++ (names path).map .ofName := by
  have starts : start (join root path) = start root := by
    rcases pieces_join relative nonempty with ⟨front, some, last, joined⟩
    have head : (pieces (join root path)).head? = (pieces root).head? := by
      rcases last with same | same
      · rw [joined, same, List.head?_append_of_ne_nil _ some]
      · rw [joined, same, List.head?_append_of_ne_nil _ some,
          List.head?_append_of_ne_nil _ some]
    rw [start, start, isAbsolute_join relative, head]
  rw [place, place, starts, names_join root path relative, List.map_append,
    List.append_assoc]

/-- A single name leads to what lies right in the root. -/
theorem place_join_name (root : String) {name : String} (undivided : '/' ∉ name.toList)
    (proper : name ∉ ["", ".", ".."]) :
    place (join root name) = place root ++ [.normal name] := by
  simp only [List.mem_cons, List.not_mem_nil, or_false, not_or] at proper
  have single : (names name).map Component.ofName = [.normal name] := by
    rw [names_of_undivided undivided ⟨proper.1, proper.2.1⟩, List.map_singleton,
      Component.ofName, if_neg proper.2.2]
  have relative := isAbsolute_of_undivided undivided
  by_cases empty : root = ""
  · have starts : start name = [] := by
      simp [start, relative, pieces_of_undivided undivided, proper.2.1]
    rw [empty, join_empty, place, single, starts]
    rfl
  · rw [place_join relative empty, single]

theorem start_of_nameless {root : String} (relative : isAbsolute root = false)
    (nonempty : root ≠ "") (nameless : names root = []) : start root = [.current] := by
  rw [start, if_neg (Bool.eq_false_iff.mp relative)]
  refine if_pos ?_
  cases split : pieces root with
  | nil => exact absurd split (pieces_ne_nil root)
  | cons piece rest =>
      rw [names, List.filter_eq_nil_iff, split] at nameless
      have idle := nameless piece List.mem_cons_self
      -- A path whose first piece is empty would begin with a slash.
      have first : piece ≠ "" := by
        rintro rfl
        cases characters : root.toList with
        | nil => exact nonempty (String.toList_eq_nil_iff.mp characters)
        | cons head tail =>
            rw [isAbsolute, characters] at relative
            rw [pieces, characters, List.splitOn_cons_eq_if_modifyHead] at split
            split at split
            · rename_i slash
              simp [beq_iff_eq.mp slash] at relative
            · cases more : tail.splitOn '/' with
              | nil => exact absurd more (List.splitOn_ne_nil _ _)
              | cons stretch others => simp [more] at split
      have point : piece = "." := by
        by_contra other
        exact idle (decide_eq_true ⟨first, other⟩)
      rw [point]
      rfl

/-- From an absolute root, and from one that names nothing, what lies below is found
again. -/
theorem place_join_of_below {root path : String}
    (harmless : isAbsolute root = true ∨ names root = [])
    (below : place root <+: place path) : place (join root path) = place path := by
  cases absolute : isAbsolute path with
  | true => rw [join_of_absolute root absolute]
  | false =>
      by_cases empty : root = ""
      · rw [empty, join_empty]
      have begins : start root <+: start path := by
        have filtered := below.filter (·.name?.isNone)
        rwa [← start_eq_filter, ← start_eq_filter] at filtered
      have same (first : Component) (starts : start root = [first]) : start path =
          [first] := by
        rw [starts] at begins
        exact (begins.eq_of_length_le (length_start_le path)).symm
      have relative : isAbsolute root = false := by
        rw [Bool.eq_false_iff]
        intro rooted
        have rootedPath := same .root ((isAbsolute_iff_start root).mp rooted)
        exact Bool.eq_false_iff.mp absolute ((isAbsolute_iff_start path).mpr rootedPath)
      have nameless := harmless.resolve_left (Bool.eq_false_iff.mp relative)
      have current := start_of_nameless relative empty nameless
      rw [place_join absolute empty, place, current, nameless, place,
        same .current current]
      rfl

/-! ## Extensions -/

theorem extension?_eq (path : String) :
    extension? path =
      (fileName? path).bind fun name => (extensionOf? name.toList).map String.ofList := by
  cases named : fileName? path with
  | none => simp [extension?, named]
  | some name =>
      cases ending : extensionOf? name.toList <;> simp [extension?, named, ending]

theorem extension?_congr {left right : String} (same : place left = place right) :
    extension? left = extension? right := by
  rw [extension?_eq, extension?_eq, fileName?, fileName?, names_congr same]

/-- A file keeps its extension if it is seen from another path. -/
theorem extension?_join (root : String) {path extension : String}
    (found : extension? path = some extension) :
    extension? (join root path) = some extension := by
  cases absolute : isAbsolute path with
  | true =>
      rw [join, if_pos absolute]
      exact found
  | false =>
      have last : (names (join root path)).getLast? = (names path).getLast? := by
        rw [names_join root path absolute, List.getLast?_append]
        cases ends : (names path).getLast? with
        | none => simp [extension?_eq, fileName?, ends] at found
        | some name => rfl
      rw [extension?_eq, fileName?, last]
      rwa [extension?_eq, fileName?] at found

/-- What follows a point is the extension, unless the point comes first. -/
theorem extensionOf?_append_point (name ending : List Char) (plain : '.' ∉ ending) :
    extensionOf? (name ++ '.' :: ending) =
      if name.isEmpty then none else some ending := by
  have reversed : (name ++ '.' :: ending).reverse =
      ending.reverse ++ '.' :: name.reverse := by
    simp
  have inside : ∀ character ∈ ending.reverse, decide (character ≠ '.') = true := by
    intro character member
    rw [decide_eq_true_iff]
    rintro rfl
    exact plain (List.mem_reverse.mp member)
  have after : (ending.reverse ++ '.' :: name.reverse).takeWhile (· ≠ '.') =
      ending.reverse := by
    rw [List.takeWhile_append_of_pos inside]
    simp
  have before : (ending.reverse ++ '.' :: name.reverse).dropWhile (· ≠ '.') =
      '.' :: name.reverse := by
    rw [List.dropWhile_append_of_pos inside]
    simp
  simp only [extensionOf?, reversed, after, before, List.drop_one, List.tail_cons,
    List.isEmpty_reverse, List.reverse_reverse]

/-- A name with an extension is not one of the pieces that are passed over. -/
theorem append_point_not_idle (name : String) {ending : String}
    (plain : '.' ∉ ending.toList) (nonempty : ending ≠ "") :
    name ++ "." ++ ending ∉ ["", ".", ".."] := by
  intro member
  have idle : ∀ piece ∈ ["", ".", ".."], piece.toList = [] ∨
      piece.toList.getLast? = some '.' := by
    decide
  rcases idle _ member with empty | point
  · simp at empty
  · have nonempty : ending.toList ≠ [] := by simpa using nonempty
    rw [String.toList_append, List.getLast?_append_of_ne_nil _ nonempty] at point
    exact plain (List.mem_of_getLast? point)

/-- The extension of a single name that is seen from a path. -/
theorem extension?_join_name (root : String) {name ending : String}
    (undivided : '/' ∉ name.toList ++ ending.toList) (plain : '.' ∉ ending.toList)
    (nonempty : ending ≠ "") :
    extension? (join root (name ++ "." ++ ending)) =
      if name.toList.isEmpty then none else some ending := by
  have characters : (name ++ "." ++ ending).toList =
      name.toList ++ '.' :: ending.toList := by
    simp
  have undivided : '/' ∉ (name ++ "." ++ ending).toList := by
    simpa [characters] using undivided
  have proper := append_point_not_idle name plain nonempty
  simp only [List.mem_cons, List.not_mem_nil, or_false, not_or] at proper
  have single : names (name ++ "." ++ ending) = [name ++ "." ++ ending] :=
    names_of_undivided undivided ⟨proper.1, proper.2.1⟩
  have relative : isAbsolute (name ++ "." ++ ending) = false :=
    isAbsolute_of_undivided undivided
  have named : fileName? (join root (name ++ "." ++ ending)) =
      some (name ++ "." ++ ending) := by
    rw [fileName?, names_join root _ relative, single, List.getLast?_concat,
      Option.filter_some,
      if_pos (decide_eq_true proper.2.2)]
  rw [extension?_eq, named, Option.bind_some, characters,
    extensionOf?_append_point _ _ plain]
  split <;> simp

end ZephirPhp.Path
