import CallAtlas.Diagram.Render
import CallAtlas.Proofs.CharClasses
import CallAtlas.Proofs.DiagramEdges
import CallAtlas.Proofs.DiagramOpening

/-!
# Names in printed lines

A diagram is a list of lines, and some of them hold a label between double quotes.  Names and base
names are printed there much as they are, so a newline or a double quote in one of them comes into
the diagram.  A newline breaks the line that it comes to, and the text then has more lines than the
document (`DiagramDocument.length_parts`).  A double quote is spelled out in the box of a flowchart,
but the component diagram leaves it in the label of a package or class, which then ends early.

The main statement, `printed_names_keep_their_place_iff`, says when a diagram has such lines, and
which they are.
-/

set_option autoImplicit false

namespace CallAtlas

open Text

/-! ## Lines of the text -/

namespace DiagramDocument

variable {doc : DiagramDocument}

/-- Every line of the document is one line. -/
def HasSingleLines (doc : DiagramDocument) : Prop :=
  ∀ line ∈ doc.lines, '\n' ∉ line.toList

instance : Decidable doc.HasSingleLines :=
  inferInstanceAs (Decidable (∀ line ∈ doc.lines, '\n' ∉ line.toList))

/-- Cut at its newlines, a text has one part for each line of the document and one more for each
newline within a line. -/
theorem length_parts (h : doc.lines ≠ []) :
    (splitAt '\n' doc.text.toList).length =
      doc.lines.length + (doc.lines.flatMap String.toList).count '\n' := by
  rw [doc.toList_text, splitAt_joinWith_eq_flatMap (by simpa using h)]
  induction doc.lines with
  | nil => rfl
  | cons line lines ih =>
    simp only [List.map_cons, List.flatMap_cons, List.length_append, List.count_append,
      List.length_cons, length_splitAt, ih]
    omega

/-- A text has as many lines as its document exactly when each of these is one line. -/
theorem length_parts_eq_iff (h : doc.lines ≠ []) :
    (splitAt '\n' doc.text.toList).length = doc.lines.length ↔ doc.HasSingleLines := by
  rw [length_parts h, Nat.add_eq_left, List.count_eq_zero, List.mem_flatMap]
  simp [HasSingleLines]

end DiagramDocument

/-! ## Newlines in titles -/

section Titles

variable {c : Char}

/-- No greater code point is that of the newline. -/
theorem newline_ne_ofNat {n : Nat} (h : 10 < n) : '\n' ≠ Char.ofNat n := by
  intro heq
  by_cases hvalid : n.isValidChar
  · have hn : 10 = n := congrArg Char.toNat (heq.trans (dif_pos hvalid))
    omega
  · exact absurd (heq.trans (dif_neg hvalid)) (by decide)

/-- If no shift goes below a code point, no greater one is shifted there. -/
theorem lt_shifted {shifts : List CharShift} {n : Nat}
    (h : ∀ s ∈ shifts, (10 : Int) < s.span.first + s.offset) (hn : 10 < n) :
    10 < shifted shifts n := by
  unfold shifted
  split
  · next s hfound =>
    have hmem := h s (List.mem_of_find?_eq_some hfound)
    have hspan := List.find?_some hfound
    simp only [CharSpan.contains, Bool.and_eq_true, Nat.ble_eq] at hspan
    omega
  · exact hn

/-- In either case a letter is no newline. -/
theorem newline_ne_of_isAlpha (h : c.isAlpha) : '\n' ≠ c.toLower ∧ '\n' ≠ c.toUpper := by
  have hall : ∀ n < 128, (Char.ofNat n).isAlpha →
      '\n' ≠ (Char.ofNat n).toLower ∧ '\n' ≠ (Char.ofNat n).toUpper := by
    decide +kernel
  have hsmall := toNat_lt_of_isAlphanum (isAlphanum_of_isAlpha h)
  simpa using hall c.toNat hsmall (by simpa using h)

/-- The lower-case form of a letter has no newline. -/
theorem newline_not_mem_lowerForm (h : isAlphabetic c) : '\n' ∉ lowerForm c := by
  unfold lowerForm
  split
  · next hsmall =>
    rw [isAlphabetic, if_pos hsmall] at h
    exact fun hmem => (newline_ne_of_isAlpha h).1 (List.mem_singleton.mp hmem)
  · split
    · decide
    · rw [List.mem_singleton]
      exact newline_ne_ofNat (lt_shifted (by decide +kernel) (by omega))

/-- The upper-case form of a letter has no newline. -/
theorem newline_not_mem_upperForm (h : isAlphabetic c) : '\n' ∉ upperForm c := by
  unfold upperForm
  split
  · next hsmall =>
    rw [isAlphabetic, if_pos hsmall] at h
    exact fun hmem => (newline_ne_of_isAlpha h).2 (List.mem_singleton.mp hmem)
  · split
    · next form hform =>
      have hforms : ∀ entry ∈ upperForms, ∀ n ∈ entry.2, 10 < n := by decide +kernel
      obtain ⟨before, after, hsplit, -⟩ := List.lookup_eq_some_iff.mp hform
      have hentry : (c.toNat, form) ∈ upperForms := by simp [hsplit]
      intro hmem
      obtain ⟨n, hn, heq⟩ := List.mem_map.mp hmem
      exact newline_ne_ofNat (hforms _ hentry n hn) heq.symm
    · rw [List.mem_singleton]
      exact newline_ne_ofNat (lt_shifted (by decide +kernel) (by omega))

/-- A title has a newline where its name has one. -/
theorem newline_mem_titleAfter_iff {inWord : Bool} {cs : List Char} :
    '\n' ∈ Label.titleAfter inWord cs ↔ '\n' ∈ cs := by
  induction cs generalizing inWord with
  | nil => rfl
  | cons c cs ih =>
    have hspace : '\n' = (if c == '_' then ' ' else c) ↔ '\n' = c := by
      by_cases hc : c = '_'
      · simp [hc]
      · simp [hc]
    simp only [Label.titleAfter]
    generalize (if c == '_' then ' ' else c) = printed at hspace ⊢
    split
    · next hletter =>
      have hform : '\n' ∉ (if inWord then lowerForm printed else upperForm printed) := by
        split
        · exact newline_not_mem_lowerForm hletter
        · exact newline_not_mem_upperForm hletter
      have hne : '\n' ≠ c := by
        intro heq
        rw [← hspace.mpr heq] at hletter
        exact absurd hletter (by decide)
      rw [List.mem_append, or_iff_right hform, ih, List.mem_cons, or_iff_right hne]
    · rw [List.mem_cons, List.mem_cons, ih, hspace]

/-- The title of a name has a newline exactly when the name does. -/
theorem newline_mem_title_iff {name : String} :
    '\n' ∈ (Label.title name).toList ↔ '\n' ∈ name.toList := by
  rw [Label.title, String.toList_ofList]
  exact newline_mem_titleAfter_iff

end Titles

/-! ## Characters that printing does not bring in -/

/-- A newline ends a line, and a double quote ends a label. -/
def IsEndingMark (m : Char) : Prop := m = '\n' ∨ m = '"'

instance : DecidablePred IsEndingMark := fun m =>
  inferInstanceAs (Decidable (m = '\n' ∨ m = '"'))

/-- Neither mark is in an identifier. -/
theorem not_mem_identifier {m : Char} (hm : IsEndingMark m) (name : String) :
    m ∉ (Label.identifier name).toList := by
  have hmark : ¬(m.isAlphanum ∨ m = '_') := by
    rcases hm with rfl | rfl <;> decide
  exact mt ComponentDiagram.isAlphanum_of_mem_identifier hmark

/-- Neither mark is in a box identifier. -/
theorem not_mem_boxId {m : Char} (hm : IsEndingMark m) (n : Nat) :
    m ∉ (Flowchart.boxId n).toList := by
  have hmark : ¬(m = 'N' ∨ m.isDigit) := by
    rcases hm with rfl | rfl <;> decide
  exact mt Flowchart.eq_or_isDigit_of_mem_boxId hmark

/-- A package name has the marks of the base name of its file. -/
theorem count_packageName {m : Char} (hm : IsEndingMark m) (file : String) :
    (Label.packageName file).toList.count m = (FilePath.baseName file).toList.count m := by
  obtain ⟨hdot, hline⟩ : m ≠ '.' ∧ m ≠ '_' := by
    rcases hm with rfl | rfl <;> decide
  rw [Label.packageName, String.toList_ofList, List.count_eq_countP, List.countP_map,
    List.count_eq_countP]
  refine List.countP_congr fun c _ => ?_
  by_cases hc : c = '.'
  · simp [hc, Ne.symm hdot, Ne.symm hline]
  · simp [hc]

/-! ## Lines of a flowchart -/

namespace Flowchart

/-- The label of a box has a newline exactly when the name or the base name of the file does. -/
theorem newline_mem_boxLabel_iff {n : CallTree} :
    '\n' ∈ (boxLabel n).toList ↔
      '\n' ∈ n.name.toList ∨ '\n' ∈ (FilePath.baseName n.file).toList := by
  have hspelled : ∀ c : Char, '\n' ∈ (if c = '"' then "#quot;".toList else [c]) ↔ '\n' = c := by
    intro c
    by_cases hc : c = '"'
    · rw [if_pos hc, hc]
      decide
    · rw [if_neg hc, List.mem_singleton]
  rw [toList_boxLabel, List.mem_flatMap]
  simp only [hspelled, exists_eq_right', String.toList_append, List.mem_append,
    newline_mem_title_iff]
  simp

/-- The label of a box has no double quote. -/
theorem quote_not_mem_boxLabel (n : CallTree) : '"' ∉ (boxLabel n).toList := by
  rw [toList_boxLabel, List.mem_flatMap]
  rintro ⟨c, -, hc⟩
  split at hc
  · exact absurd hc (by decide)
  · next hne => exact hne (List.mem_singleton.mp hc).symm

/-- The line of a box has a newline exactly when the name or the base name of the file does. -/
theorem newline_mem_boxLine_iff {k : Nat} {n : CallTree} :
    '\n' ∈ (boxLine k n).toList ↔
      '\n' ∈ n.name.toList ∨ '\n' ∈ (FilePath.baseName n.file).toList := by
  have hid : '\n' ∉ (boxId k).toList := not_mem_boxId (by decide) k
  simp only [boxLine, String.toList_append, List.mem_append, hid, newline_mem_boxLabel_iff]
  simp

/-- The line of a box has the two double quotes around its label. -/
theorem count_quote_boxLine (k : Nat) (n : CallTree) : (boxLine k n).toList.count '"' = 2 := by
  have hid : (boxId k).toList.count '"' = 0 := List.count_eq_zero.mpr (not_mem_boxId (by decide) k)
  have hlabel : (boxLabel n).toList.count '"' = 0 :=
    List.count_eq_zero.mpr (quote_not_mem_boxLabel n)
  simp only [boxLine, String.toList_append, List.count_append, hid, hlabel]
  decide

/-- Neither mark is in an arrow line. -/
theorem not_mem_arrowLine {m : Char} (hm : IsEndingMark m) (i j : Nat) :
    m ∉ (arrowLine i j).toList := by
  obtain ⟨hspaces, harrow⟩ : m ∉ "    ".toList ∧ m ∉ " --> ".toList := by
    rcases hm with rfl | rfl <;> decide
  simp only [arrowLine, String.toList_append, List.mem_append, not_or]
  exact ⟨⟨⟨hspaces, not_mem_boxId hm i⟩, harrow⟩, not_mem_boxId hm j⟩

/-- Neither mark is in the marker or the lines of the styles. -/
theorem not_mem_frame {m : Char} (hm : IsEndingMark m) :
    ∀ line ∈ [Grammar.graph.marker, classLine, linkLine], m ∉ line.toList := by
  rcases hm with rfl | rfl <;> decide +kernel

section Distinct

variable {forest : CallForest} (hnames : forest.names.Nodup)

include hnames

/-- The box lines are those of the nodes with their places. -/
theorem mem_boxLines_iff {line : String} :
    line ∈ boxLines forest ↔ ∃ k n, forest.nodes[k]? = some n ∧ line = boxLine k n := by
  rw [boxLines, boxes_eq hnames, List.mem_map]
  constructor
  · rintro ⟨⟨n, k⟩, hmem, rfl⟩
    exact ⟨k, n, List.mk_mem_zipIdx_iff_getElem?.mp hmem, rfl⟩
  · rintro ⟨k, n, hk, rfl⟩
    exact ⟨(n, k), List.mk_mem_zipIdx_iff_getElem?.mpr hk, rfl⟩

/-- A line of a flowchart is a frame line, a box or an arrow. -/
theorem mem_lines_render_iff {line : String} :
    line ∈ (render forest).lines ↔ line ∈ [Grammar.graph.marker, classLine, linkLine] ∨
      line ∈ boxLines forest ∨ ∃ m n, (m, n) ∈ forest.edges ∧
        line = arrowLine (forest.number m) (forest.number n) := by
  have harrows : line ∈ arrowLines forest ↔ ∃ m n, (m, n) ∈ forest.edges ∧
      line = arrowLine (forest.number m) (forest.number n) := by
    rw [arrowLines_eq_map_edges hnames, List.mem_map]
    simp only [Prod.exists, eq_comm]
  rw [← harrows]
  simp only [render, List.mem_append, List.mem_cons, List.not_mem_nil, or_false]
  simp only [or_assoc, or_comm, or_left_comm]

/-- A flowchart has single lines exactly when no name and no base name has a newline. -/
theorem hasSingleLines_iff :
    (render forest).HasSingleLines ↔
      ∀ n ∈ forest.nodes, '\n' ∉ n.name.toList ∧ '\n' ∉ (FilePath.baseName n.file).toList := by
  constructor
  · intro h n hn
    obtain ⟨k, hk⟩ := List.getElem?_of_mem hn
    have hbox : boxLine k n ∈ (render forest).lines := (mem_lines_render_iff hnames).mpr
      (Or.inr (Or.inl ((mem_boxLines_iff hnames).mpr ⟨k, n, hk, rfl⟩)))
    exact not_or.mp (mt newline_mem_boxLine_iff.mpr (h _ hbox))
  · intro h line hline
    rcases (mem_lines_render_iff hnames).mp hline with hframe | hbox | ⟨m, n, -, rfl⟩
    · exact not_mem_frame (by decide) line hframe
    · obtain ⟨k, n, hk, rfl⟩ := (mem_boxLines_iff hnames).mp hbox
      exact mt newline_mem_boxLine_iff.mp (not_or.mpr (h n (List.mem_of_getElem? hk)))
    · exact not_mem_arrowLine (by decide) _ _

/-- A box has two double quotes, and no other line has any. -/
theorem count_quote_of_mem_lines {line : String} (hline : line ∈ (render forest).lines) :
    line.toList.count '"' = if line ∈ boxLines forest then 2 else 0 := by
  by_cases hbox : line ∈ boxLines forest
  · rw [if_pos hbox]
    obtain ⟨k, n, -, rfl⟩ := (mem_boxLines_iff hnames).mp hbox
    exact count_quote_boxLine k n
  · rw [if_neg hbox, List.count_eq_zero]
    rcases (mem_lines_render_iff hnames).mp hline with hframe | hbox' | ⟨m, n, -, rfl⟩
    · exact not_mem_frame (by decide) line hframe
    · exact absurd hbox' hbox
    · exact not_mem_arrowLine (by decide) _ _

end Distinct

end Flowchart

/-! ## Lines of a component diagram -/

namespace ComponentDiagram

variable {forest : CallForest} {defs : List Definition}

/-- The line that opens the package of a file. -/
def packageLine (file : String) : String :=
  "package \"" ++ Label.packageName file ++ "\" \x7b"

/-- The line that opens the class of a utility. -/
def classLine (name : String) : String :=
  "  class \"" ++ name ++ "\" as " ++ Label.identifier name ++ " " ++ Role.utility.tag ++ " \x7b"

/-- What the lines begin with that open neither a package nor a class. -/
def otherStarts : List String :=
  Grammar.component.marker :: preamble ++ ["\x7d", "  [", "    +", "  \x7d", "fn_", endMarker]

/-! ### What the lines hold -/

/-- The line of a package has the marks of the base name of the file besides its own. -/
theorem count_packageLine {m : Char} (hm : IsEndingMark m) (file : String) :
    (packageLine file).toList.count m =
      "package \"\" \x7b".toList.count m + (FilePath.baseName file).toList.count m := by
  have hframe : "package \"".toList.count m + "\" \x7b".toList.count m =
      "package \"\" \x7b".toList.count m := by
    rcases hm with rfl | rfl <;> decide
  simp only [packageLine, String.toList_append, List.count_append, count_packageName hm]
  omega

/-- The line of a class has the marks of the name besides its own. -/
theorem count_classLine {m : Char} (hm : IsEndingMark m) (name : String) :
    (classLine name).toList.count m =
      "  class \"\" as ".toList.count m + name.toList.count m := by
  have hframe : "  class \"".toList.count m + "\" as ".toList.count m +
      (" ".toList.count m + Role.utility.tag.toList.count m + " \x7b".toList.count m) =
        "  class \"\" as ".toList.count m := by
    rcases hm with rfl | rfl <;> decide
  have hid := List.count_eq_zero.mpr (not_mem_identifier hm name)
  unfold classLine
  simp only [String.toList_append, List.count_append, hid]
  omega

/-- A declaration has a newline exactly if its name does. -/
theorem newline_declarationLines_iff (role : Role) (name : String) :
    (∃ line ∈ declarationLines role name, '\n' ∈ line.toList) ↔ '\n' ∈ name.toList := by
  have hid : '\n' ∉ (Label.identifier name).toList := not_mem_identifier (by decide) name
  cases role <;> simp [declarationLines, Role.tag, hid]

/-- Neither mark is in an edge line. -/
theorem not_mem_edgeLine {m : Char} (hm : IsEndingMark m) (a b : String) :
    m ∉ (edgeLine a b).toList := by
  have harrow : m ∉ " --> ".toList := by
    rcases hm with rfl | rfl <;> decide
  simp only [edgeLine, String.toList_append, List.mem_append, not_or]
  exact ⟨⟨not_mem_identifier hm a, harrow⟩, not_mem_identifier hm b⟩

/-- Every edge line joins two names. -/
theorem exists_edge_of_mem_edgeLines {line : String} (h : line ∈ edgeLines forest) :
    ∃ a b, line = edgeLine a b := by
  rw [edgeLines, List.mem_eraseDups] at h
  obtain ⟨e, -, rfl⟩ := List.mem_map.mp h
  exact ⟨_, _, rfl⟩

/-- A line of a component diagram is a frame line, one of the block of a file, or an edge. -/
theorem mem_lines_render_iff {line : String} :
    line ∈ (render forest defs).lines ↔
      line ∈ Grammar.component.marker :: preamble ++ [endMarker] ∨
        (∃ file ∈ files defs, line = packageLine file ∨
          (∃ name ∈ declaredIn defs file,
            line ∈ declarationLines (Role.classify file name) name) ∨ line = "\x7d") ∨
        line ∈ edgeLines forest := by
  have hblocks : line ∈ (files defs).flatMap (blockLines defs) ↔
      ∃ file ∈ files defs, line = packageLine file ∨
        (∃ name ∈ declaredIn defs file,
          line ∈ declarationLines (Role.classify file name) name) ∨ line = "\x7d" := by
    simp only [List.mem_flatMap, blockLines, List.mem_append, List.mem_cons, List.not_mem_nil,
      or_false, packageLine, or_assoc, declarationLines_eq]
  rw [lines_render, ← hblocks]
  simp only [List.mem_append, List.mem_cons, List.not_mem_nil, or_false]
  simp only [or_assoc, or_comm, or_left_comm]

/-- No newline is in the marker, the preamble or the end. -/
theorem newline_not_mem_frame : ∀ line ∈ Grammar.component.marker :: preamble ++ [endMarker],
    '\n' ∉ line.toList := by
  decide +kernel

/-- A component diagram has single lines exactly when no name and no base name has a newline. -/
theorem hasSingleLines_iff :
    (render forest defs).HasSingleLines ↔
      ∀ d ∈ defs, '\n' ∉ d.name.toList ∧ '\n' ∉ (FilePath.baseName d.file).toList := by
  have hpackage : ∀ file, '\n' ∈ (packageLine file).toList ↔
      '\n' ∈ (FilePath.baseName file).toList := by
    intro file
    have hcount := count_packageLine (m := '\n') (by decide) file
    rw [show "package \"\" \x7b".toList.count '\n' = 0 by decide, Nat.zero_add] at hcount
    rw [← List.count_pos_iff, hcount, List.count_pos_iff]
  constructor
  · intro h d hd
    have hfile : d.file ∈ files defs := mem_files_iff.mpr ⟨d, hd, rfl⟩
    obtain ⟨home, hhome, hdeclared⟩ := exists_home ⟨d, hd, rfl⟩
    refine ⟨fun hname => ?_, fun hbase => ?_⟩
    · obtain ⟨line, hline, hbroken⟩ :=
        (newline_declarationLines_iff (Role.classify home d.name) d.name).mpr hname
      exact h line (mem_lines_render_iff.mpr (Or.inr (Or.inl
        ⟨home, hhome, Or.inr (Or.inl ⟨d.name, mem_declaredIn_iff.mpr hdeclared, hline⟩)⟩))) hbroken
    · exact h _ (mem_lines_render_iff.mpr (Or.inr (Or.inl ⟨d.file, hfile, Or.inl rfl⟩)))
        ((hpackage d.file).mpr hbase)
  · intro h line hline
    rcases mem_lines_render_iff.mp hline with hframe | ⟨file, hfile, hblock⟩ | hedge
    · exact newline_not_mem_frame line hframe
    · obtain ⟨d, hd, rfl⟩ := mem_files_iff.mp hfile
      rcases hblock with rfl | ⟨name, hname, hmem⟩ | rfl
      · exact mt (hpackage d.file).mp (h d hd).2
      · obtain ⟨-, -, -, hdefined, -⟩ := home?_eq_some_iff.mp (mem_declaredIn_iff.mp hname)
        obtain ⟨e, he, -, rfl⟩ := mem_namesIn_iff.mp hdefined
        exact fun hbroken =>
          (h e he).1 ((newline_declarationLines_iff _ _).mp ⟨line, hmem, hbroken⟩)
      · decide
    · obtain ⟨a, b, rfl⟩ := exists_edge_of_mem_edgeLines hedge
      exact not_mem_edgeLine (by decide) a b

/-! ### What the lines begin with -/

/-- A line of a declaration opens a class or begins as lines do that open none. -/
theorem classLine_or_start {role : Role} {name line : String}
    (h : line ∈ declarationLines role name) :
    line = classLine name ∨ ∃ start ∈ otherStarts, start.toList <+: line.toList := by
  cases role with
  | utility =>
    rcases List.mem_cons.mp h with rfl | h
    · exact Or.inl rfl
    · rcases List.mem_cons.mp h with rfl | h
      · exact Or.inr ⟨"    +", by decide, by simp⟩
      · obtain rfl := List.mem_singleton.mp h
        exact Or.inr ⟨"  \x7d", by decide, List.prefix_rfl⟩
  | component =>
    obtain rfl := List.mem_singleton.mp h
    exact Or.inr ⟨"  [", by decide, by simp⟩
  | service =>
    obtain rfl := List.mem_singleton.mp h
    exact Or.inr ⟨"  [", by decide, by simp⟩

/-- A line opens the package of a file or the class of a defined name, or one can tell by its
beginning that it does not. -/
theorem exists_start {line : String} (hline : line ∈ (render forest defs).lines) :
    (∃ file ∈ files defs, line = packageLine file) ∨
      (∃ name, IsDefined defs name ∧ line = classLine name) ∨
        ∃ start ∈ otherStarts, start.toList <+: line.toList := by
  rcases mem_lines_render_iff.mp hline with hframe | ⟨file, hfile, hblock⟩ | hedge
  · have hstart : ∀ line ∈ Grammar.component.marker :: preamble ++ [endMarker],
        line ∈ otherStarts := by decide
    exact Or.inr (Or.inr ⟨line, hstart line hframe, List.prefix_rfl⟩)
  · rcases hblock with rfl | ⟨name, hname, hmem⟩ | rfl
    · exact Or.inl ⟨file, hfile, rfl⟩
    · refine Or.inr ((classLine_or_start hmem).imp_left fun hclass => ⟨name, ?_, hclass⟩)
      obtain ⟨-, -, -, hdefined, -⟩ := home?_eq_some_iff.mp (mem_declaredIn_iff.mp hname)
      obtain ⟨d, hd, -, hdname⟩ := mem_namesIn_iff.mp hdefined
      exact ⟨d, hd, hdname⟩
    · exact Or.inr (Or.inr ⟨"\x7d", by decide, List.prefix_rfl⟩)
  · obtain ⟨a, b, rfl⟩ := exists_edge_of_mem_edgeLines hedge
    exact Or.inr (Or.inr ⟨"fn_", by decide, by simp [edgeLine, Label.identifier]⟩)

/-- The line of a package says so at its beginning. -/
theorem prefix_packageLine (file : String) : "package \"".toList <+: (packageLine file).toList := by
  simp [packageLine]

/-- The line of a class says so at its beginning. -/
theorem prefix_classLine (name : String) : "  class \"".toList <+: (classLine name).toList := by
  unfold classLine
  simp

/-- What begins as a package line does is the package line of a file. -/
theorem eq_packageLine_of_prefix {line : String} (hline : line ∈ (render forest defs).lines)
    (h : "package \"".toList <+: line.toList) : ∃ file ∈ files defs, line = packageLine file := by
  have hapart : ∀ start ∈ "  class \"" :: otherStarts,
      ¬("package \"".toList <+: start.toList ∨ start.toList <+: "package \"".toList) := by decide
  rcases exists_start hline with hpackage | ⟨name, -, rfl⟩ | ⟨start, hstart, hprefix⟩
  · exact hpackage
  · exact absurd (List.prefix_or_prefix_of_prefix h (prefix_classLine name))
      (hapart _ List.mem_cons_self)
  · exact absurd (List.prefix_or_prefix_of_prefix h hprefix)
      (hapart start (List.mem_cons_of_mem _ hstart))

/-- What begins as a class line does is the class line of a defined name. -/
theorem eq_classLine_of_prefix {line : String} (hline : line ∈ (render forest defs).lines)
    (h : "  class \"".toList <+: line.toList) :
    ∃ name, IsDefined defs name ∧ line = classLine name := by
  have hapart : ∀ start ∈ "package \"" :: otherStarts,
      ¬("  class \"".toList <+: start.toList ∨ start.toList <+: "  class \"".toList) := by decide
  rcases exists_start hline with ⟨file, -, rfl⟩ | hclass | ⟨start, hstart, hprefix⟩
  · exact absurd (List.prefix_or_prefix_of_prefix h (prefix_packageLine file))
      (hapart _ List.mem_cons_self)
  · exact hclass
  · exact absurd (List.prefix_or_prefix_of_prefix h hprefix)
      (hapart start (List.mem_cons_of_mem _ hstart))

end ComponentDiagram

/-! ## Newlines and quotes in names -/

/-- A diagram has as many lines in its text as in its document exactly if every line of it is one
line; the flowchart exactly if no name or base name in its forest has a newline, and the component
diagram if no one among the definitions does.  The lines of a flowchart that hold double quotes are
those that declare a box, and they hold two.  A line that opens a package or a class holds two more
than its base name or name. -/
theorem printed_names_keep_their_place_iff (defs : List Definition) (limits : ForestLimits) :
    (∀ g : Grammar,
        (splitAt '\n' (g.render (CallForest.grow defs limits) defs).text.toList).length =
            (g.render (CallForest.grow defs limits) defs).lines.length ↔
          (g.render (CallForest.grow defs limits) defs).HasSingleLines) ∧
      ((Grammar.graph.render (CallForest.grow defs limits) defs).HasSingleLines ↔
        ∀ n ∈ (CallForest.grow defs limits).nodes,
          '\n' ∉ n.name.toList ∧ '\n' ∉ (FilePath.baseName n.file).toList) ∧
      ((Grammar.component.render (CallForest.grow defs limits) defs).HasSingleLines ↔
        ∀ d ∈ defs, '\n' ∉ d.name.toList ∧ '\n' ∉ (FilePath.baseName d.file).toList) ∧
      (∀ line ∈ (Grammar.graph.render (CallForest.grow defs limits) defs).lines,
        line.toList.count '"' =
          if line ∈ Flowchart.boxLines (CallForest.grow defs limits) then 2 else 0) ∧
      ∀ line ∈ (Grammar.component.render (CallForest.grow defs limits) defs).lines,
        ("package \"".toList <+: line.toList →
          ∃ file ∈ ComponentDiagram.files defs, line = ComponentDiagram.packageLine file ∧
            line.toList.count '"' = 2 + (FilePath.baseName file).toList.count '"') ∧
        ("  class \"".toList <+: line.toList →
          ∃ name, IsDefined defs name ∧ line = ComponentDiagram.classLine name ∧
            line.toList.count '"' = 2 + name.toList.count '"') := by
  have hnames := CallForest.nodup_names_grow defs limits
  refine ⟨fun g => DiagramDocument.length_parts_eq_iff ?_, Flowchart.hasSingleLines_iff hnames,
    ComponentDiagram.hasSingleLines_iff, fun line => Flowchart.count_quote_of_mem_lines hnames,
    fun line hline => ⟨fun hpackage => ?_, fun hclass => ?_⟩⟩
  · cases g <;> simp [Grammar.render, Flowchart.render, ComponentDiagram.render]
  · obtain ⟨file, hfile, rfl⟩ := ComponentDiagram.eq_packageLine_of_prefix hline hpackage
    exact ⟨file, hfile, rfl, ComponentDiagram.count_packageLine (by decide) file⟩
  · obtain ⟨name, hname, rfl⟩ := ComponentDiagram.eq_classLine_of_prefix hline hclass
    exact ⟨name, hname, rfl, ComponentDiagram.count_classLine (by decide) name⟩

/-- A class whose method is named by a text in brackets, over three lines. -/
def quotedMethod : String :=
  "class Reader \x7b\n  [\n  \"parse\"\n](text) \x7b\n    return text;\n  \x7d\n\x7d\n"

/-- The method of `quotedMethod`, and a function of a file with a double quote in its name. -/
def quotedNames : List Definition :=
  [⟨"[\n  \"parse\"\n]", "a.js", 2, .method, .empty⟩,
   ⟨"load", "b\"c.js", 1, .declaration, .empty⟩]

/-- The source text is the name of the method, so it breaks lines of both diagrams; and in the
component diagram a package and a class have more than the quotes around their labels. -/
theorem quoted_names_leave_their_place :
    Source.extract .javascript false quotedMethod "a.js" = quotedNames.take 1 ∧
      (∀ g : Grammar,
        ¬(g.render (CallForest.grow quotedNames {}) quotedNames).HasSingleLines ∧
        (splitAt '\n' (g.render (CallForest.grow quotedNames {}) quotedNames).text.toList).length ≠
          (g.render (CallForest.grow quotedNames {}) quotedNames).lines.length) ∧
      (∃ line ∈ (Grammar.component.render (CallForest.grow quotedNames {}) quotedNames).lines,
        "package \"".toList <+: line.toList ∧ line.toList.count '"' = 3) ∧
      ∃ line ∈ (Grammar.component.render (CallForest.grow quotedNames {}) quotedNames).lines,
        "  class \"".toList <+: line.toList ∧ line.toList.count '"' = 4 := by
  have hbroken : ∀ g : Grammar,
      ¬(g.render (CallForest.grow quotedNames {}) quotedNames).HasSingleLines := by
    intro g
    cases g <;> decide +kernel
  have hparts : ∀ g : Grammar,
      (splitAt '\n' (g.render (CallForest.grow quotedNames {}) quotedNames).text.toList).length ≠
        (g.render (CallForest.grow quotedNames {}) quotedNames).lines.length := by
    intro g
    have hlines : (g.render (CallForest.grow quotedNames {}) quotedNames).lines ≠ [] := by
      cases g <;> decide +kernel
    exact (DiagramDocument.length_parts_eq_iff hlines).not.mpr (hbroken g)
  exact ⟨by decide +kernel, fun g => ⟨hbroken g, hparts g⟩, by decide +kernel, by decide +kernel⟩

end CallAtlas
