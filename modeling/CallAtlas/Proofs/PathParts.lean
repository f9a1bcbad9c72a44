import CallAtlas.FilePath
import CallAtlas.Proofs.TextLines

/-!
# Parts of a path

The first piece of a path is read in its own way: an empty one makes the path absolute, and a
single dot counts.  All others are read alike, so the parts behind a slash do not depend on what
stands before it (`parts_append_slash`), and a path that ends in a name ends in it whatever it is
put behind (`fileName?_append_slash`).

Without slashes and dots, the pieces of a path are its names (`names`).  The parts of a relative
path (`parts_of_relative`) that does not go up are its names, behind a dot if it begins with one
(`innerParts_eq_names`).
-/

set_option autoImplicit false

namespace CallAtlas.FilePath

variable {path : List Char}

/-- The parts of what stands behind a slash. -/
def innerParts (path : List Char) : List PathPart :=
  (Text.splitAt '/' path).filterMap innerPart

/-- The names in a path: its pieces but for the empty ones and single dots. -/
def names (path : List Char) : List (List Char) :=
  (Text.splitAt '/' path).filter fun piece => piece != [] && piece != ['.']

/-- A path that begins with a slash begins at the root. -/
theorem parts_slash (rest : List Char) : parts ('/' :: rest) = .root :: innerParts rest := by
  rw [parts, Text.splitAt_cons_self]
  rfl

/-- The parts of a path are those before a slash and those behind it. -/
theorem parts_append_slash (h : path ≠ []) (rest : List Char) :
    parts (path ++ '/' :: rest) = parts path ++ innerParts rest := by
  obtain ⟨first, more, hsplit⟩ := List.exists_cons_of_ne_nil (Text.splitAt_ne_nil '/' path)
  rw [parts, parts, Text.splitAt_append_cons, hsplit, List.cons_append]
  simp only [List.isEmpty_iff, h, List.append_eq_nil_iff, false_and, if_false, List.filterMap_append,
    List.append_assoc, innerParts]

/-- A relative path is read like what stands behind a slash, but for a dot at its beginning. -/
theorem parts_of_relative (h : path.head? ≠ some '/') :
    parts path =
      (if (Text.splitAt '/' path).head? = some ['.'] then [.here] else []) ++ innerParts path := by
  cases path with
  | nil => rfl
  | cons c path =>
    have hc : c ≠ '/' := fun hc => h (congrArg some hc)
    obtain ⟨piece, pieces, -, hsplit⟩ := Text.splitAt_cons_of_ne hc path
    rw [parts, innerParts, hsplit]
    by_cases hdot : c :: piece = ['.']
    · simp [hdot, innerPart]
    · have hfirst : (some (c :: piece) = some ['.']) = False := by simpa using hdot
      have hstart : (innerPart (c :: piece)).toList ++ pieces.filterMap innerPart =
          ((c :: piece) :: pieces).filterMap innerPart := by
        rw [List.filterMap_cons]
        cases innerPart (c :: piece) <;> rfl
      simp only [List.isEmpty_cons, Bool.false_eq_true, if_false, beq_eq_false_iff_ne.mpr hdot,
        List.head?_cons, hfirst, hstart, List.nil_append]

/-! ## Ways up -/

/-- What stands behind a slash does not begin at the root. -/
theorem root_not_mem_innerParts : PathPart.root ∉ innerParts path := by
  rw [innerParts, List.mem_filterMap]
  rintro ⟨piece, -, hpart⟩
  unfold innerPart at hpart
  split at hpart <;> simp_all

/-- A path goes back where two dots stand between slashes. -/
theorem up_mem_innerParts_iff :
    PathPart.up ∈ innerParts path ↔ ['.', '.'] ∈ Text.splitAt '/' path := by
  rw [innerParts, List.mem_filterMap]
  constructor
  · rintro ⟨piece, hpiece, hpart⟩
    unfold innerPart at hpart
    split at hpart <;> simp_all
  · exact fun h => ⟨_, h, rfl⟩

/-- A path is absolute if it begins with a slash. -/
theorem root_mem_parts_iff : PathPart.root ∈ parts path ↔ path.head? = some '/' := by
  by_cases hhead : path.head? = some '/'
  · obtain ⟨rest, rfl⟩ := List.head?_eq_some_iff.mp hhead
    simp [parts_slash]
  · rw [parts_of_relative hhead, List.mem_append]
    simp only [root_not_mem_innerParts, hhead, or_false, iff_false]
    split <;> simp

/-- Two dots between slashes go up, whatever else stands in the path. -/
theorem up_mem_parts_iff : PathPart.up ∈ parts path ↔ ['.', '.'] ∈ Text.splitAt '/' path := by
  by_cases hhead : path.head? = some '/'
  · obtain ⟨rest, rfl⟩ := List.head?_eq_some_iff.mp hhead
    rw [parts_slash, Text.splitAt_cons_self, List.mem_cons, List.mem_cons, up_mem_innerParts_iff]
    simp
  · rw [parts_of_relative hhead, List.mem_append, up_mem_innerParts_iff]
    refine or_iff_right fun hstart => ?_
    split at hstart <;> simp at hstart

/-! ## Names -/

/-- The file name of a path is that of what follows a slash, if it has one. -/
theorem fileName?_append_slash {rest name : List Char} (h : fileName? ('/' :: rest) = some name) :
    fileName? (path ++ '/' :: rest) = some name := by
  by_cases hpath : path = []
  · rwa [hpath]
  · have hparts : (parts ('/' :: rest)).getLast? = some (.name name) := by
      rw [fileName?] at h
      split at h
      · rename_i hlast
        rwa [Option.some.inj h] at hlast
      · exact absurd h nofun
    have hinner : (innerParts rest).getLast? = some (.name name) := by
      rw [parts_slash, List.getLast?_cons] at hparts
      cases hlast : (innerParts rest).getLast? with
      | none =>
        rw [hlast] at hparts
        exact absurd hparts nofun
      | some part => rwa [hlast] at hparts
    rw [fileName?, parts_append_slash hpath, List.getLast?_append, hinner]
    rfl

/-- The parts of what stands behind a slash and does not go back are its names. -/
theorem innerParts_eq_names (h : ['.', '.'] ∉ Text.splitAt '/' path) :
    innerParts path = (names path).map .name := by
  rw [innerParts, names, ← List.filterMap_eq_map, List.filterMap_filter]
  refine List.filterMap_congr fun piece hpiece => ?_
  unfold innerPart
  split
  · rfl
  · rfl
  · exact absurd hpiece h
  · rename_i hempty hdot _
    have hname : (piece != [] && piece != ['.']) = true := by
      simpa using And.intro hempty hdot
    rw [if_pos hname]
    rfl

end CallAtlas.FilePath
