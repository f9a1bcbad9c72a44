import CallAtlas.Diagram.Component
import CallAtlas.Proofs.FirstOccurrence

/-!
# The packages of a component diagram

The packages are written file by file, and what has been declared in one of them is left out of all
later ones.  So the package of a name is that of its home, the first file that defines it
(`IsHome`), although the definitions of a file need not stand together.  `packages_spec` says this
of the packages, and `packages_blocks` of their lines: they are the blocks of the files, each of
which can be written on its own (`blockLines`).

The main statement, `each_name_is_declared_at_home`, says that every name is declared once, in the
block of its home and in the order of the definitions there, and counts the lines.
-/

set_option autoImplicit false

namespace CallAtlas.ComponentDiagram

variable {defs : List Definition} {file name : String}

/-- The names that the definitions of a file have, in their order. -/
def namesIn (defs : List Definition) (file : String) : List String :=
  (defs.filter (·.file == file)).map (·.name)

/-- A file is the home of a name when it is the first file with a definition of that name. -/
def IsHome (defs : List Definition) (file name : String) : Prop :=
  ∃ before after, files defs = before ++ file :: after ∧ name ∈ namesIn defs file ∧
    ∀ other ∈ before, name ∉ namesIn defs other

/-- The home of a name, which is found by going through the files. -/
def home? (defs : List Definition) (name : String) : Option String :=
  (files defs).find? fun file => name ∈ namesIn defs file

/-- The names that are at home in a file, each once, in the order of the definitions there. -/
def declaredIn (defs : List Definition) (file : String) : List String :=
  ((namesIn defs file).filter fun name => home? defs name = some file).eraseDups

/-- The role that a name is declared in: that of a function of its home. -/
def role? (defs : List Definition) (name : String) : Option Role :=
  (home? defs name).map fun file => Role.classify file name

/-- The text that declares a name in a role: three lines for a utility, and one otherwise. -/
def declarationText : Role → String → List String
  | .utility, name =>
    ["  class \"" ++ name ++ "\" as " ++ Label.identifier name ++ " <<utility>> \x7b",
     "    +" ++ name ++ "()",
     "  \x7d"]
  | .component, name => ["  [" ++ name ++ "] as " ++ Label.identifier name ++ " <<component>>"]
  | .service, name => ["  [" ++ name ++ "] as " ++ Label.identifier name ++ " <<service>>"]

/-- The lines of the package of a file. -/
def blockLines (defs : List Definition) (file : String) : List String :=
  ("package \"" ++ Label.packageName file ++ "\" \x7b") ::
    ((declaredIn defs file).flatMap fun name => declarationText (Role.classify file name) name) ++
    ["\x7d"]

/-! ## Homes -/

/-- The names in a file are those of its definitions. -/
theorem mem_namesIn_iff : name ∈ namesIn defs file ↔ ∃ d ∈ defs, d.file = file ∧ d.name = name := by
  simp [namesIn, and_assoc]

/-- The files are those of the definitions. -/
theorem mem_files_iff : file ∈ files defs ↔ ∃ d ∈ defs, d.file = file := by
  simp [files]

/-- No file is listed twice. -/
theorem nodup_files (defs : List Definition) : (files defs).Nodup :=
  nodup_eraseDups _

/-- Going through the files finds the home of a name. -/
theorem home?_eq_some_iff : home? defs name = some file ↔ IsHome defs file name := by
  rw [home?, List.find?_eq_some_iff_append, IsHome]
  constructor
  · rintro ⟨hname, before, after, hsplit, hbefore⟩
    exact ⟨before, after, hsplit, by simpa using hname, by simpa using hbefore⟩
  · rintro ⟨before, after, hsplit, hname, hbefore⟩
    exact ⟨by simpa using hname, before, after, hsplit, by simpa using hbefore⟩

/-- Every defined name has a home. -/
theorem exists_home (h : IsDefined defs name) :
    ∃ file ∈ files defs, home? defs name = some file := by
  obtain ⟨d, hd, rfl⟩ := h
  have hfile : d.file ∈ files defs := mem_files_iff.mpr ⟨d, hd, rfl⟩
  have hname : d.name ∈ namesIn defs d.file := mem_namesIn_iff.mpr ⟨d, hd, rfl, rfl⟩
  have hsome : (home? defs d.name).isSome := by
    rw [home?, List.find?_isSome]
    exact ⟨d.file, hfile, by simpa using hname⟩
  obtain ⟨home, hhome⟩ := Option.isSome_iff_exists.mp hsome
  exact ⟨home, List.mem_of_find?_eq_some hhome, hhome⟩

/-- The names declared in a file are those at home in it. -/
theorem mem_declaredIn_iff : name ∈ declaredIn defs file ↔ home? defs name = some file := by
  rw [declaredIn, List.mem_eraseDups, List.mem_filter, decide_eq_true_iff]
  refine and_iff_right_of_imp fun h => ?_
  obtain ⟨-, -, -, hname, -⟩ := home?_eq_some_iff.mp h
  exact hname

/-- A file that defines a name is its home exactly when no file before it does. -/
theorem home?_iff_of_files {done rest : List String} (h : files defs = done ++ file :: rest)
    (hname : name ∈ namesIn defs file) :
    home? defs name = some file ↔ ∀ other ∈ done, name ∉ namesIn defs other := by
  have hnodup : (done ++ file :: rest).Nodup := h ▸ nodup_files defs
  have hnew : file ∉ done := fun hmem =>
    (List.nodup_append.mp hnodup).2.2 file hmem file List.mem_cons_self rfl
  constructor
  · intro hhome other hother hmem
    -- The search would have ended among the files before.
    have hfound : (done.find? fun file => name ∈ namesIn defs file).isSome := by
      rw [List.find?_isSome]
      exact ⟨other, hother, by simpa using hmem⟩
    obtain ⟨found, hfound⟩ := Option.isSome_iff_exists.mp hfound
    rw [home?, h, List.find?_append, hfound, Option.some_or] at hhome
    obtain rfl := Option.some.inj hhome
    exact hnew (List.mem_of_find?_eq_some hfound)
  · intro hdone
    exact home?_eq_some_iff.mpr ⟨done, rest, h, hname, hdone⟩

/-- What a member of a list yields stands somewhere in what the list yields. -/
theorem infix_flatMap_of_mem {α β : Type} (f : α → List β) {x : α} {xs : List α} (h : x ∈ xs) :
    f x <:+: xs.flatMap f := by
  obtain ⟨earlier, later, rfl⟩ := List.append_of_mem h
  exact ⟨earlier.flatMap f, later.flatMap f, by simp⟩

/-! ## Declared names -/

/-- The undeclared definitions have the names that are not declared, each once. -/
theorem map_name_undeclared (declared : List String) (ds : List Definition) :
    (undeclared declared ds).map (·.name) =
      ((ds.map (·.name)).filter fun name => name ∉ declared).eraseDups := by
  induction ds generalizing declared with
  | nil => rfl
  | cons d ds ih =>
    by_cases hd : d.name ∈ declared
    · simp [undeclared, hd, ih]
    · simp only [undeclared, hd, if_false, List.map_cons, ih, not_false_eq_true, decide_true,
        List.filter_cons_of_pos, List.eraseDups_cons, List.filter_filter]
      refine congrArg (fun names => d.name :: names.eraseDups) (List.filter_congr fun name _ => ?_)
      by_cases hname : name = d.name <;> simp [hname]

/-- An undeclared definition is one of those given. -/
theorem mem_of_mem_undeclared {declared : List String} {ds : List Definition} {d : Definition}
    (h : d ∈ undeclared declared ds) : d ∈ ds := by
  induction ds generalizing declared with
  | nil => exact h
  | cons e ds ih =>
    rw [undeclared] at h
    split at h
    · exact List.mem_cons_of_mem e (ih h)
    · rcases List.mem_cons.mp h with rfl | h
      · exact List.mem_cons_self
      · exact List.mem_cons_of_mem e (ih h)

/-- When the names of the files before it have been declared, the package of a file declares those
that are at home in it. -/
theorem map_name_members {done rest declared : List String}
    (hfiles : files defs = done ++ file :: rest)
    (hdeclared : ∀ name, name ∈ declared ↔ ∃ other ∈ done, name ∈ namesIn defs other) :
    (undeclared declared (defs.filter (·.file == file))).map (·.name) = declaredIn defs file := by
  rw [map_name_undeclared, declaredIn, ← namesIn]
  congr 1
  refine List.filter_congr fun name hname => ?_
  rw [decide_eq_decide, home?_iff_of_files hfiles hname, hdeclared]
  simp

/-- A package of a file: its members are definitions of the file, and have the names that are at
home in it. -/
structure IsPackage (defs : List Definition) (file : String) (package : String × List Definition) :
    Prop where
  /-- It is opened for the file. -/
  file_eq : package.1 = file
  /-- The members stand in the file. -/
  member_file : ∀ d ∈ package.2, d.file = file
  /-- The names that it declares are those at home in the file. -/
  names_eq : package.2.map (·.name) = declaredIn defs file

/-- A declaration is written with the name, its identifier and the tag of the role. -/
theorem declarationLines_eq (role : Role) (name : String) :
    declarationLines role name = declarationText role name := by
  cases role <;> simp [declarationLines, declarationText, Role.tag, String.append_assoc]

/-- The lines of a package are those of the block of its file. -/
theorem IsPackage.packageLines_eq {package : String × List Definition}
    (h : IsPackage defs file package) : packageLines package = blockLines defs file := by
  have hdeclared : package.2.flatMap declare = (package.2.map (·.name)).flatMap fun name =>
      declarationText (Role.classify file name) name := by
    rw [List.flatMap_map]
    refine List.flatMap_congr fun d hd => ?_
    rw [declare, h.member_file d hd, declarationLines_eq]
  rw [packageLines, blockLines, hdeclared, h.names_eq, h.file_eq]

/-- After the files in `done`, the packages are those of the other files, one for each. -/
theorem forall₂_isPackage {done rest declared : List String} (hfiles : files defs = done ++ rest)
    (hdeclared : ∀ name, name ∈ declared ↔ ∃ other ∈ done, name ∈ namesIn defs other) :
    List.Forall₂ (IsPackage defs) rest (packages defs declared rest) := by
  induction rest generalizing done declared with
  | nil => exact List.Forall₂.nil
  | cons file rest ih =>
    have hnames := map_name_members hfiles hdeclared
    have hmembers : ∀ d ∈ undeclared declared (defs.filter (·.file == file)), d.file = file := by
      intro d hd
      simpa using (List.mem_filter.mp (mem_of_mem_undeclared hd)).2
    have hmore : files defs = (done ++ [file]) ++ rest := by simpa using hfiles
    have hdeclared' : ∀ name, name ∈ declared ++ declaredIn defs file ↔
        ∃ other ∈ done ++ [file], name ∈ namesIn defs other := by
      intro name
      rw [List.mem_append, hdeclared, mem_declaredIn_iff]
      constructor
      · rintro (⟨other, hother, hname⟩ | hhome)
        · exact ⟨other, List.mem_append_left _ hother, hname⟩
        · obtain ⟨-, -, -, hname, -⟩ := home?_eq_some_iff.mp hhome
          exact ⟨file, by simp, hname⟩
      · rintro ⟨other, hother, hname⟩
        by_cases hdone : ∃ other ∈ done, name ∈ namesIn defs other
        · exact Or.inl hdone
        · right
          obtain rfl : other = file := by
            rcases List.mem_append.mp hother with hother | hother
            · exact absurd ⟨other, hother, hname⟩ hdone
            · exact List.mem_singleton.mp hother
          rw [home?_iff_of_files hfiles hname]
          exact fun earlier hearlier hmem => hdone ⟨earlier, hearlier, hmem⟩
    rw [packages]
    simp only [hnames]
    exact List.Forall₂.cons ⟨rfl, hmembers, hnames⟩ (ih hmore hdeclared')

/-- There is one package for each file, in order. -/
theorem packages_spec (defs : List Definition) :
    List.Forall₂ (IsPackage defs) (files defs) (packages defs [] (files defs)) :=
  forall₂_isPackage (List.nil_append (files defs)).symm (by simp)

/-- The lines of packages are the blocks of their files. -/
theorem packages_blocks {files : List String} {packages : List (String × List Definition)}
    (h : List.Forall₂ (IsPackage defs) files packages) :
    packages.flatMap packageLines = files.flatMap (blockLines defs) := by
  induction h with
  | nil => rfl
  | cons hpackage _ ih => rw [List.flatMap_cons, List.flatMap_cons, hpackage.packageLines_eq, ih]

/-- A component diagram is its marker, its preamble, the blocks of the files, its edges and its
end. -/
theorem lines_render (forest : CallForest) (defs : List Definition) :
    (render forest defs).lines =
      Grammar.component.marker :: preamble ++ (files defs).flatMap (blockLines defs) ++
        edgeLines forest ++ [endMarker] := by
  rw [render, packages_blocks (packages_spec defs)]

/-- The declarations of a defined name stand together in the document. -/
theorem declarationLines_infix (forest : CallForest) (h : IsDefined defs name) :
    ∃ file, home? defs name = some file ∧
      declarationLines (Role.classify file name) name <:+: (render forest defs).lines := by
  obtain ⟨file, hfile, hhome⟩ := exists_home h
  have hdeclared : name ∈ declaredIn defs file := mem_declaredIn_iff.mpr hhome
  have hblock : declarationLines (Role.classify file name) name <:+: blockLines defs file := by
    have hinner := infix_flatMap_of_mem
      (fun name => declarationText (Role.classify file name) name) hdeclared
    rw [declarationLines_eq]
    exact hinner.trans ⟨["package \"" ++ Label.packageName file ++ "\" \x7b"], ["\x7d"], rfl⟩
  have hlines : (files defs).flatMap (blockLines defs) <:+: (render forest defs).lines := by
    rw [lines_render, List.append_assoc]
    exact ⟨_, _, rfl⟩
  exact ⟨file, hhome, (hblock.trans (infix_flatMap_of_mem _ hfile)).trans hlines⟩

/-- Over all files, every name is declared once. -/
theorem perm_declaredIn (defs : List Definition) :
    ((files defs).flatMap (declaredIn defs)).Perm (defs.map (·.name)).eraseDups := by
  have hnodup : ((files defs).flatMap (declaredIn defs)).Nodup := by
    rw [List.nodup_flatMap]
    refine ⟨fun file _ => nodup_eraseDups _, (nodup_files defs).imp ?_⟩
    intro file other hne name hfile hother
    rw [mem_declaredIn_iff] at hfile hother
    exact hne (Option.some.inj (hfile.symm.trans hother))
  rw [List.perm_ext_iff_of_nodup hnodup (nodup_eraseDups _)]
  intro name
  rw [List.mem_flatMap, List.mem_eraseDups, List.mem_map]
  constructor
  · rintro ⟨file, -, hdeclared⟩
    obtain ⟨-, -, -, hname, -⟩ := home?_eq_some_iff.mp (mem_declaredIn_iff.mp hdeclared)
    obtain ⟨d, hd, -, hdname⟩ := mem_namesIn_iff.mp hname
    exact ⟨d, hd, hdname⟩
  · intro hdefined
    obtain ⟨file, hfile, hhome⟩ := exists_home hdefined
    exact ⟨file, hfile, mem_declaredIn_iff.mpr hhome⟩

/-- The edge lines are those of the edges between two names. -/
theorem mem_edgeLines_iff {forest : CallForest} {line : String} :
    line ∈ edgeLines forest ↔ ∃ m n, (m, n) ∈ forest.edges ∧ m.name ≠ n.name ∧
      line = Label.identifier m.name ++ " --> " ++ Label.identifier n.name := by
  rw [edgeLines, List.mem_eraseDups, List.mem_map]
  constructor
  · rintro ⟨⟨m, n⟩, hedge, rfl⟩
    obtain ⟨hmem, hne⟩ := List.mem_filter.mp hedge
    exact ⟨m, n, hmem, by simpa using hne, rfl⟩
  · rintro ⟨m, n, hmem, hne, rfl⟩
    exact ⟨(m, n), List.mem_filter.mpr ⟨hmem, by simpa using hne⟩, rfl⟩

/-! ## Numbers of lines -/

/-- A utility is declared in three lines, any other name in one. -/
theorem length_declarationText (role : Role) (name : String) :
    (declarationText role name).length = if role = .utility then 3 else 1 := by
  cases role <;> rfl

/-- The lines that declare names at home in a file are as many as the names, and two more for each
utility. -/
theorem length_declarations {names : List String}
    (h : ∀ name ∈ names, home? defs name = some file) :
    (names.flatMap fun name => declarationText (Role.classify file name) name).length =
      names.length + 2 * names.countP fun name => role? defs name = some .utility := by
  induction names with
  | nil => rfl
  | cons name names ih =>
    have hrest := ih fun other hother => h other (List.mem_cons_of_mem name hother)
    have hrole : role? defs name = some (Role.classify file name) := by
      rw [role?, h name List.mem_cons_self]
      rfl
    rw [List.flatMap_cons, List.length_append, hrest, length_declarationText, List.length_cons,
      List.countP_cons, hrole]
    by_cases hutility : Role.classify file name = .utility
    · simp [hutility]
      omega
    · simp [hutility]
      omega

/-- The blocks have two lines for each file and the lines of their declarations. -/
theorem length_blocks (defs : List Definition) (files : List String) :
    (files.flatMap (blockLines defs)).length =
      2 * files.length + (files.flatMap (declaredIn defs)).length +
        2 * (files.flatMap (declaredIn defs)).countP fun name =>
          role? defs name = some .utility := by
  induction files with
  | nil => rfl
  | cons file files ih =>
    have hblock := length_declarations fun name (hname : name ∈ declaredIn defs file) =>
      mem_declaredIn_iff.mp hname
    simp only [List.flatMap_cons, List.length_append, List.countP_append, List.length_cons, ih,
      blockLines, hblock, List.length_nil]
    omega

/-- A component diagram has eight lines of its own besides the blocks and the edges. -/
theorem length_lines_render (forest : CallForest) (defs : List Definition) :
    (render forest defs).lines.length =
      8 + 2 * (files defs).length + (defs.map (·.name)).eraseDups.length +
        2 * ((defs.map (·.name)).eraseDups.countP fun name => role? defs name = some .utility) +
        (edgeLines forest).length := by
  have hnames := (perm_declaredIn defs).length_eq
  have hutilities := (perm_declaredIn defs).countP_eq fun name => role? defs name = some .utility
  rw [lines_render]
  simp only [List.length_append, List.length_cons, length_blocks, hnames, hutilities, preamble,
    List.length_nil]
  omega

/-- The declarations of a component diagram: every name has one, in the block of its home, and the
names of a block come in the order of the definitions. -/
structure DeclaredAtHome (defs : List Definition) : Prop where
  /-- Over all files, each name is declared once. -/
  once : ((files defs).flatMap (declaredIn defs)).Perm (defs.map (·.name)).eraseDups
  /-- A name is declared in the block of the first file that defines it. -/
  home_iff : ∀ file name, name ∈ declaredIn defs file ↔ IsHome defs file name
  /-- In a block, the name that is defined first is declared first. -/
  in_order : ∀ file, (declaredIn defs file).Pairwise fun a b =>
    (namesIn defs file).idxOf a < (namesIn defs file).idxOf b

/-- **A component diagram declares every name at home.**  Its lines are the marker, the preamble,
one block for each file in order of first occurrence, the edge lines and the end marker.  An edge
line joins the identifiers of two names between which the forest has an edge. -/
theorem each_name_is_declared_at_home (forest : CallForest) (defs : List Definition) :
    (render forest defs).lines =
        "@startuml" :: preamble ++ (files defs).flatMap (blockLines defs) ++
          edgeLines forest ++ ["@enduml"] ∧
      DeclaredAtHome defs ∧
      (∀ role name, (declarationText role name).length = if role = .utility then 3 else 1) ∧
      (∀ line, line ∈ edgeLines forest ↔ ∃ m n, (m, n) ∈ forest.edges ∧ m.name ≠ n.name ∧
        line = Label.identifier m.name ++ " --> " ++ Label.identifier n.name) ∧
      (render forest defs).lines.length =
        8 + 2 * (files defs).length + (defs.map (·.name)).eraseDups.length +
          2 * ((defs.map (·.name)).eraseDups.countP fun name => role? defs name = some .utility) +
          (edgeLines forest).length :=
  ⟨lines_render forest defs,
    ⟨perm_declaredIn defs, fun _ _ => mem_declaredIn_iff.trans home?_eq_some_iff,
      fun _ => pairwise_idxOf_eraseDups_filter _ _⟩,
    length_declarationText, fun _ => mem_edgeLines_iff, length_lines_render forest defs⟩

end CallAtlas.ComponentDiagram
