import CallAtlas.Proofs.DiagramEdges

/-!
# The file of a name

Both diagrams tell the file of a function.  If several files define its name, the flowchart goes by
the last definition, which is the one that the trees follow, and prints the base name of its file.
The component diagram goes by the files in order of first occurrence and declares the name in the
block of the first one that defines it (`placesIn_iff`).  What the block of a file is can be read
off the document in one way only, since a block ends with its first closing line
(`HasBlocks.body_eq`), and a line that declares a name tells which one
(`eq_of_mem_declarationText`).

The main statement, `names_are_placed_by_last_and_first`, says when the two agree: exactly if no
file before that of the last definition defines the name.  Otherwise a diagram places the function
in a file that the other one does not show it in (`helper_is_placed_apart`).
-/

set_option autoImplicit false

namespace CallAtlas

namespace ComponentDiagram

variable {defs : List Definition} {file name : String}

/-! ## Blocks of a document -/

/-- The lines of the block of a file: an opening line, some lines, and a closing line. -/
def block (body : String → List String) (file : String) : List String :=
  ("package \"" ++ Label.packageName file ++ "\" \x7b") :: body file ++ ["\x7d"]

/-- A document has a block with the given lines in it for each of some files: the blocks begin
behind the marker and the preamble, and a block ends with the first closing line in it. -/
structure HasBlocks (doc : DiagramDocument) (files : List String) (body : String → List String) :
    Prop where
  /-- The blocks come in the order of the files. -/
  lines_eq : ∃ rest, doc.lines = "@startuml" :: preamble ++ files.flatMap (block body) ++ rest
  /-- No block is closed before its end. -/
  closed : ∀ file ∈ files, "\x7d" ∉ body file

/-- A document with blocks for some files places a name in one of them when the block of that file
declares the name. -/
def PlacesIn (doc : DiagramDocument) (files : List String) (file name : String) : Prop :=
  file ∈ files ∧ ∃ body, HasBlocks doc files body ∧ ∃ role, declarationText role name <:+: body file

/-- The lines in the blocks of a document can be read in one way only. -/
theorem body_eq_of_append {body body' : String → List String} {files rest rest' : List String}
    (h : ∀ file ∈ files, "\x7d" ∉ body file) (h' : ∀ file ∈ files, "\x7d" ∉ body' file)
    (heq : files.flatMap (block body) ++ rest = files.flatMap (block body') ++ rest') :
    ∀ file ∈ files, body file = body' file := by
  induction files with
  | nil => simp
  | cons file files ih =>
    rw [List.forall_mem_cons] at h h' ⊢
    simp only [List.flatMap_cons, block, List.cons_append, List.append_assoc, List.nil_append,
      List.cons.injEq, true_and] at heq
    obtain ⟨hbody, hrest⟩ := Text.eq_of_append_sep_eq h.1 h'.1 heq
    exact ⟨hbody, ih h.2 h'.2 hrest⟩

/-- Two readings of the blocks of a document find the same lines in them. -/
theorem HasBlocks.body_eq {doc : DiagramDocument} {files : List String}
    {body body' : String → List String} (h : HasBlocks doc files body)
    (h' : HasBlocks doc files body') : ∀ file ∈ files, body file = body' file := by
  obtain ⟨rest, hlines⟩ := h.lines_eq
  obtain ⟨rest', hlines'⟩ := h'.lines_eq
  have heq := hlines.symm.trans hlines'
  rw [List.append_assoc, List.append_assoc] at heq
  exact body_eq_of_append h.closed h'.closed (List.append_cancel_left heq)

/-! ## Names of declarations -/

/-- A line with a name and then its identifier, between given texts, is that of one name only. -/
theorem name_eq_of_line_eq {start middle tail a b : String}
    (h : start ++ a ++ middle ++ Label.identifier a ++ tail =
      start ++ b ++ middle ++ Label.identifier b ++ tail) : a = b := by
  have hchars := congrArg String.toList h
  simp only [String.toList_append, List.append_assoc, List.append_cancel_left_eq] at hchars
  -- The identifier is longer than the name by its first three characters.
  have hlength := congrArg List.length hchars
  simp only [Label.identifier, String.toList_append, String.toList_ofList, List.length_append,
    List.length_map] at hlength
  exact String.toList_inj.mp (List.append_inj_left hchars (by omega))

/-- Two declarations that begin with the same line are those of one name. -/
theorem eq_of_head?_eq {role role' : Role} {a b : String}
    (h : (declarationText role a).head? = (declarationText role' b).head?) : a = b := by
  -- Of two forms, either the third character of the line is different or the tag at its end.
  have hstart : ∀ {s t : String}, s = t → s.toList[2]? = t.toList[2]? := fun h => h ▸ rfl
  have hend : ∀ {s t : String}, s ++ " <<component>>" ≠ t ++ " <<service>>" := by
    intro s t h
    have hchars := congrArg (fun s : String => s.toList.reverse.take 3) h
    simp at hchars
  cases role <;> cases role' <;>
    simp only [declarationText, List.head?_cons, Option.some.injEq] at h
  case utility.utility | component.component | service.service => exact name_eq_of_line_eq h
  case component.service => exact absurd h hend
  case service.component => exact absurd h.symm hend
  all_goals exact absurd (hstart h) (by simp)

/-- The first line of a declaration stands in no declaration of another name. -/
theorem eq_of_mem_declarationText {role role' : Role} {a b line : String}
    (hline : (declarationText role a).head? = some line) (hmem : line ∈ declarationText role' b) :
    a = b := by
  have hcases : (declarationText role' b).head? = some line ∨
      line.toList[2]? = some ' ' ∨ line.toList[2]? = some '\x7d' := by
    cases role' with
    | utility =>
      rcases List.mem_cons.mp hmem with rfl | hmem
      · exact Or.inl rfl
      · rcases List.mem_pair.mp hmem with rfl | rfl <;> simp
    | component => exact Or.inl (List.mem_singleton.mp hmem ▸ rfl)
    | service => exact Or.inl (List.mem_singleton.mp hmem ▸ rfl)
  rcases hcases with hhead | hinner
  · exact eq_of_head?_eq (hline.trans hhead.symm)
  · cases role <;> obtain rfl := Option.some.inj hline <;> simp at hinner

/-- The lines of a declaration are indented. -/
theorem head?_of_mem_declarationText {role : Role} {line : String}
    (h : line ∈ declarationText role name) : line.toList.head? = some ' ' := by
  cases role with
  | utility =>
    rcases List.mem_cons.mp h with rfl | h
    · simp
    · rcases List.mem_pair.mp h with rfl | rfl <;> simp
  | component => simp [List.mem_singleton.mp h]
  | service => simp [List.mem_singleton.mp h]

/-- The lines that declare some names declare no other name. -/
theorem mem_of_declares {role : Role} {roleOf : String → Role} {names : List String}
    (h : declarationText role name <:+: names.flatMap fun other =>
      declarationText (roleOf other) other) : name ∈ names := by
  obtain ⟨line, hline⟩ : ∃ line, (declarationText role name).head? = some line := by
    cases role <;> exact ⟨_, rfl⟩
  obtain ⟨other, hother, hmem⟩ := List.mem_flatMap.mp (h.subset (List.mem_of_head? hline))
  rwa [eq_of_mem_declarationText hline hmem]

/-! ## Places -/

/-- The document of a program has a block for each file, which declares the names at home in it. -/
theorem hasBlocks_render (forest : CallForest) (defs : List Definition) :
    HasBlocks (render forest defs) (files defs) fun file =>
      (declaredIn defs file).flatMap fun name =>
        declarationText (Role.classify file name) name where
  lines_eq := by
    refine ⟨edgeLines forest ++ [endMarker], ?_⟩
    rw [lines_render, List.append_assoc]
    rfl
  closed file _ hmem := by
    obtain ⟨name, -, hline⟩ := List.mem_flatMap.mp hmem
    exact absurd (head?_of_mem_declarationText hline) (by decide)

/-- A name is placed at home and nowhere else. -/
theorem placesIn_iff {forest : CallForest} :
    PlacesIn (render forest defs) (files defs) file name ↔ IsHome defs file name := by
  rw [← home?_eq_some_iff, ← mem_declaredIn_iff]
  constructor
  · rintro ⟨hfile, body, hblocks, role, hdeclared⟩
    rw [hblocks.body_eq (hasBlocks_render forest defs) file hfile] at hdeclared
    exact mem_of_declares hdeclared
  · intro hname
    obtain ⟨before, after, hfiles, -⟩ := home?_eq_some_iff.mp (mem_declaredIn_iff.mp hname)
    have hfile : file ∈ files defs := hfiles ▸ List.mem_append_right before List.mem_cons_self
    refine ⟨hfile, _, hasBlocks_render forest defs, Role.classify file name, ?_⟩
    exact infix_flatMap_of_mem (fun name => declarationText (Role.classify file name) name) hname

/-- A defined name is placed in one file. -/
theorem existsUnique_place {forest : CallForest} (h : IsDefined defs name) :
    ∃! file, PlacesIn (render forest defs) (files defs) file name := by
  obtain ⟨home, -, hhome⟩ := exists_home h
  refine ⟨home, placesIn_iff.mpr (home?_eq_some_iff.mp hhome), fun other hother => ?_⟩
  have hother : home? defs name = some other := home?_eq_some_iff.mpr (placesIn_iff.mp hother)
  exact Option.some.inj (hother.symm.trans hhome)

/-- The file of a definition is the home of its name exactly if no definition of that name stands in
a file before it. -/
theorem isHome_iff {d : Definition} (hd : d ∈ defs) :
    IsHome defs d.file d.name ↔
      ∀ e ∈ defs, e.name = d.name → (files defs).idxOf d.file ≤ (files defs).idxOf e.file := by
  obtain ⟨done, rest, hfiles⟩ := List.append_of_mem (mem_files_iff.mpr ⟨d, hd, rfl⟩)
  have hnodup : (done ++ d.file :: rest).Nodup := hfiles ▸ nodup_files defs
  have hnew : d.file ∉ done := fun hmem =>
    (List.nodup_append.mp hnodup).2.2 d.file hmem d.file List.mem_cons_self rfl
  have hplace : (files defs).idxOf d.file = done.length := by
    rw [hfiles, List.idxOf_append_of_notMem hnew, List.idxOf_cons_self, Nat.add_zero]
  have hname : d.name ∈ namesIn defs d.file := mem_namesIn_iff.mpr ⟨d, hd, rfl, rfl⟩
  rw [← home?_eq_some_iff, home?_iff_of_files hfiles hname, hplace]
  constructor
  · intro hdone e he hename
    have hlater : e.file ∉ done := fun hmem =>
      hdone e.file hmem (mem_namesIn_iff.mpr ⟨e, he, rfl, hename⟩)
    rw [hfiles, List.idxOf_append_of_notMem hlater]
    omega
  · intro hfirst other hother hmem
    obtain ⟨e, he, rfl, hename⟩ := mem_namesIn_iff.mp hmem
    have hle := hfirst e he hename
    have hlt := List.idxOf_lt_length_of_mem hother
    rw [hfiles, List.idxOf_append_of_mem hother] at hle
    omega

end ComponentDiagram

open ComponentDiagram (PlacesIn IsHome)

/-- Where the two diagrams of a program place the function of a node: the file of the node is that
of the last definition of its name, and the component diagram has the name in the block of the first
file that defines it and in no other. -/
structure PlacedByLastAndFirst (defs : List Definition) (limits : ForestLimits) (n : CallTree) :
    Prop where
  /-- The file of the node is that of the last definition. -/
  last : ∃ d, IsLast defs d ∧ d.name = n.name ∧ d.file = n.file
  /-- The component diagram has the name at home. -/
  placesIn_iff : ∀ file, PlacesIn (ComponentDiagram.render (CallForest.grow defs limits) defs)
    (ComponentDiagram.files defs) file n.name ↔ IsHome defs file n.name
  /-- It has it in one block. -/
  existsUnique : ∃! file, PlacesIn (ComponentDiagram.render (CallForest.grow defs limits) defs)
    (ComponentDiagram.files defs) file n.name
  /-- This is the block of the node's file exactly if no file before that one defines the name. -/
  agree_iff : PlacesIn (ComponentDiagram.render (CallForest.grow defs limits) defs)
      (ComponentDiagram.files defs) n.file n.name ↔
    ∀ d ∈ defs, d.name = n.name →
      (ComponentDiagram.files defs).idxOf n.file ≤ (ComponentDiagram.files defs).idxOf d.file

/-- The nodes of a grown forest are placed in this way. -/
theorem placedByLastAndFirst_of_mem_nodes {defs : List Definition} {limits : ForestLimits}
    {n : CallTree} (hn : n ∈ (CallForest.grow defs limits).nodes) :
    PlacedByLastAndFirst defs limits n := by
  obtain ⟨d, hlast, hname, hfile⟩ := CallForest.exists_last_of_mem_nodes hn
  refine ⟨⟨d, hlast, hname.symm, hfile.symm⟩, fun _ => ComponentDiagram.placesIn_iff, ?_, ?_⟩
  · exact ComponentDiagram.existsUnique_place (CallForest.isDefined_of_mem_nodes hn)
  · rw [ComponentDiagram.placesIn_iff, hname, hfile]
    exact ComponentDiagram.isHome_iff hlast.mem

/-- **The flowchart places a name by its last definition, the component diagram by the first file.**
The flowchart has a box for every node of the forest, with the base name of the node's file beside
the title of its name, and the component diagram has a block for every file, which declares the
names at home in it.  The node's file is that of the last definition of its name; the block that
declares the name is that of the first file that defines it.  So the two agree exactly if no file
before that of the last definition defines the name. -/
theorem names_are_placed_by_last_and_first (defs : List Definition) (limits : ForestLimits) :
    (Flowchart.render (CallForest.grow defs limits)).lines =
        Grammar.graph.marker :: Flowchart.classLine ::
            ((CallForest.grow defs limits).nodes.zipIdx.map fun b =>
              "    N" ++ toString b.2 ++ "[\"" ++
                Flowchart.quoted
                  (Label.title b.1.name ++ " (" ++ FilePath.baseName b.1.file ++ ")") ++ "\"]") ++
          Flowchart.arrowLines (CallForest.grow defs limits) ++ [Flowchart.linkLine] ∧
      (ComponentDiagram.render (CallForest.grow defs limits) defs).lines =
        Grammar.component.marker :: ComponentDiagram.preamble ++
            ((ComponentDiagram.files defs).flatMap fun file =>
              ("package \"" ++ Label.packageName file ++ "\" \x7b") ::
                ((ComponentDiagram.declaredIn defs file).flatMap fun name =>
                  ComponentDiagram.declarationText (Role.classify file name) name) ++ ["\x7d"]) ++
          ComponentDiagram.edgeLines (CallForest.grow defs limits) ++
            [ComponentDiagram.endMarker] ∧
      ∀ n ∈ (CallForest.grow defs limits).nodes, PlacedByLastAndFirst defs limits n := by
  refine ⟨?_, ComponentDiagram.lines_render _ defs,
    fun n hn => placedByLastAndFirst_of_mem_nodes hn⟩
  simp only [← Flowchart.boxLine_eq]
  rw [Flowchart.render, Flowchart.boxLines, Flowchart.boxes_eq (CallForest.nodup_names_grow _ _)]

/-- A program in which two files define the function that is called. -/
def helperInTwoFiles : List Definition :=
  [⟨"main", "m.js", 1, .declaration, .ofList ["helper"]⟩,
   ⟨"helper", "a.js", 1, .declaration, .empty⟩,
   ⟨"helper", "b.js", 1, .declaration, .empty⟩]

/-- The flowchart prints the second file beside the name, and the component diagram declares it in
the block of the first one. -/
theorem helper_is_placed_apart :
    (∃ n ∈ (CallForest.grow helperInTwoFiles {}).nodes, n.name = "helper" ∧ n.file = "b.js" ∧
        ¬PlacesIn (ComponentDiagram.render (CallForest.grow helperInTwoFiles {}) helperInTwoFiles)
          (ComponentDiagram.files helperInTwoFiles) n.file n.name) ∧
      PlacesIn (ComponentDiagram.render (CallForest.grow helperInTwoFiles {}) helperInTwoFiles)
        (ComponentDiagram.files helperInTwoFiles) "a.js" "helper" ∧
      "    N1[\"Helper (b.js)\"]" ∈
        (Flowchart.render (CallForest.grow helperInTwoFiles {})).lines ∧
      (ComponentDiagram.render (CallForest.grow helperInTwoFiles {}) helperInTwoFiles).lines =
        "@startuml" :: ComponentDiagram.preamble ++
          ["package \"m_js\" \x7b", "  [main] as fn_main <<service>>", "\x7d",
           "package \"a_js\" \x7b", "  [helper] as fn_helper <<service>>", "\x7d",
           "package \"b_js\" \x7b", "\x7d",
           "fn_main --> fn_helper", "@enduml"] := by
  have hhome : ∀ file,
      PlacesIn (ComponentDiagram.render (CallForest.grow helperInTwoFiles {}) helperInTwoFiles)
        (ComponentDiagram.files helperInTwoFiles) file "helper" ↔ some "a.js" = some file := by
    intro file
    rw [ComponentDiagram.placesIn_iff, ← ComponentDiagram.home?_eq_some_iff]
    rfl
  refine ⟨⟨.node "helper" "b.js" [], ?_, rfl, rfl, ?_⟩, ?_, by decide +kernel, by decide +kernel⟩
  · exact List.mem_cons_of_mem _ List.mem_cons_self
  · exact fun hplace => absurd ((hhome "b.js").mp hplace) (by decide)
  · exact (hhome "a.js").mpr rfl

end CallAtlas
