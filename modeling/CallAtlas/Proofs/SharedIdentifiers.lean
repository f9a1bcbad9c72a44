import CallAtlas.Proofs.DiagramEdges

/-!
# Functions that share an identifier

A component diagram tells functions apart by their identifiers, and an identifier keeps of a name
only the ASCII letters and digits.  So two functions are one node exactly when their names differ in
other characters alone (`identifier_eq_iff`), as `$load` and `_load` do.

The main statement, `functions_merge_by_identifier`, says what becomes of the edges then.  An edge
between two such functions is drawn as a loop, and edges that agree in the identifiers of both ends
are drawn as one line.  If no two defined names agree in this way, every function is a node of its
own and every edge a line of its own (`FunctionsApart`), and only then.
-/

set_option autoImplicit false

namespace CallAtlas.ComponentDiagram

/-- Two names agree up to marks when they have the same letters and digits at the same places, and
other characters at all other places. -/
def AgreeUpToMarks (a b : String) : Prop :=
  List.Forall₂ (fun c d => c = d ∨ c.isAlphanum = false ∧ d.isAlphanum = false) a.toList b.toList

/-- A document declares a name under an identifier when the lines that declare the name with that
identifier stand in it. -/
def DeclaresAs (doc : DiagramDocument) (name id : String) : Prop :=
  Label.identifier name = id ∧ ∃ role, declarationText role name <:+: doc.lines

/-- The functions of a program are nodes of their own, and the edges of the forest lines of their
own. -/
structure FunctionsApart (forest : CallForest) (defs : List Definition) : Prop where
  /-- No identifier stands for two names. -/
  name_eq : ∀ a b id, IsDefined defs a → IsDefined defs b → DeclaresAs (render forest defs) a id →
    DeclaresAs (render forest defs) b id → a = b
  /-- No line joins an identifier to itself. -/
  no_loop : ∀ id, id ++ " --> " ++ id ∉ edgeLines forest
  /-- There are as many lines as edges. -/
  length_eq : (edgeLines forest).length = forest.edges.length

/-! ## Identifiers -/

/-- Two characters are printed alike when they are the same or are both neither letters nor
digits. -/
theorem mark_eq_iff {c d : Char} :
    (if c.isAlphanum then c else '_') = (if d.isAlphanum then d else '_') ↔
      c = d ∨ c.isAlphanum = false ∧ d.isAlphanum = false := by
  have hmark : ∀ e : Char, e.isAlphanum → e ≠ '_' := by
    rintro e he rfl
    exact absurd he (by decide)
  by_cases hc : c.isAlphanum <;> by_cases hd : d.isAlphanum <;> grind

/-- Two names have one identifier exactly when they agree up to marks. -/
theorem identifier_eq_iff {a b : String} :
    Label.identifier a = Label.identifier b ↔ AgreeUpToMarks a b := by
  unfold Label.identifier AgreeUpToMarks
  rw [String.append_right_inj, String.ofList_inj, ← List.forall₂_eq_eq_eq,
    List.forall₂_map_left_iff, List.forall₂_map_right_iff]
  simp only [mark_eq_iff]

/-- A component diagram declares every defined name under its identifier. -/
theorem declaresAs_of_isDefined {defs : List Definition} (forest : CallForest) {name : String}
    (h : IsDefined defs name) : DeclaresAs (render forest defs) name (Label.identifier name) := by
  obtain ⟨file, -, hlines⟩ := declarationLines_infix forest h
  rw [declarationLines_eq] at hlines
  exact ⟨rfl, _, hlines⟩

/-! ## Edge lines -/

section Lines

variable {forest : CallForest} (hnames : forest.names.Nodup)

include hnames

/-- Where names are distinct, every edge has its line. -/
theorem mem_edgeLines_iff_of_nodup {line : String} :
    line ∈ edgeLines forest ↔ ∃ m n, (m, n) ∈ forest.edges ∧
      Label.identifier m.name ++ " --> " ++ Label.identifier n.name = line := by
  rw [edgeLines_eq hnames, List.mem_eraseDups, List.mem_map]
  exact Prod.exists

/-- The lines that join an identifier to itself are those of the edges between functions that share
it. -/
theorem loop_mem_edgeLines_iff {id : String} :
    id ++ " --> " ++ id ∈ edgeLines forest ↔
      ∃ m n, (m, n) ∈ forest.edges ∧ Label.identifier m.name = id ∧
        Label.identifier n.name = id := by
  rw [mem_edgeLines_iff_of_nodup hnames]
  constructor
  · rintro ⟨m, n, hedge, hline⟩
    -- The line has two spaces, those of the arrow, so there is none in the identifier.
    have hspaces := congrArg (fun line : String => line.toList.count ' ') hline
    have hm := List.count_eq_zero_of_not_mem (space_not_mem_identifier m.name)
    have hn := List.count_eq_zero_of_not_mem (space_not_mem_identifier n.name)
    simp only [String.toList_append, List.count_append, hm, hn] at hspaces
    have hid : ' ' ∉ id.toList := List.count_eq_zero.mp (by omega)
    obtain ⟨hsource, htarget⟩ := joined_inj (space_not_mem_identifier m.name) hid hline
    exact ⟨m, n, hedge, hsource, htarget⟩
  · rintro ⟨m, n, hedge, rfl, hn⟩
    refine ⟨m, n, hedge, ?_⟩
    rw [hn]

/-- There is one line for each pair of identifiers that an edge joins. -/
theorem length_edgeLines :
    (edgeLines forest).length =
      (forest.edges.map fun e =>
        (Label.identifier e.1.name, Label.identifier e.2.name)).toFinset.card := by
  have hlines : (edgeLines forest).toFinset =
      (forest.edges.map fun e =>
        (Label.identifier e.1.name, Label.identifier e.2.name)).toFinset.image
          fun ids => ids.1 ++ " --> " ++ ids.2 := by
    ext line
    simp [mem_edgeLines_iff_of_nodup hnames]
  have hnodup : (edgeLines forest).Nodup := nodup_eraseDups _
  rw [← List.toFinset_card_of_nodup hnodup, hlines]
  apply Finset.card_image_of_injOn
  intro ids hids ids' hids' hline
  simp only [Finset.mem_coe, List.mem_toFinset, List.mem_map] at hids hids'
  obtain ⟨e, -, rfl⟩ := hids
  obtain ⟨e', -, rfl⟩ := hids'
  obtain ⟨hsource, htarget⟩ := edgeLine_inj hline
  rw [hsource, htarget]

end Lines

/-! ## Functions apart -/

section Grown

variable {defs : List Definition} {limits : ForestLimits}

/-- Functions are apart exactly when no two defined names agree up to marks. -/
theorem functionsApart_iff :
    FunctionsApart (CallForest.grow defs limits) defs ↔
      ∀ a b, IsDefined defs a → IsDefined defs b → AgreeUpToMarks a b → a = b := by
  have hnames := CallForest.nodup_names_grow defs limits
  constructor
  · intro hapart a b ha hb hagree
    have hdeclared := declaresAs_of_isDefined (CallForest.grow defs limits) hb
    rw [← identifier_eq_iff.mpr hagree] at hdeclared
    exact hapart.name_eq a b _ ha hb (declaresAs_of_isDefined _ ha) hdeclared
  · intro hagree
    have hinj : ∀ a b, IsDefined defs a → IsDefined defs b →
        Label.identifier a = Label.identifier b → a = b :=
      fun a b ha hb hid => hagree a b ha hb (identifier_eq_iff.mp hid)
    refine ⟨?_, ?_, ?_⟩
    · rintro a b id ha hb ⟨hid, -⟩ ⟨hid', -⟩
      exact hinj a b ha hb (hid.trans hid'.symm)
    · intro id hloop
      obtain ⟨m, n, hedge, hm, hn⟩ := (loop_mem_edgeLines_iff hnames).mp hloop
      obtain ⟨hmnode, hnnode⟩ := CallForest.mem_nodes_of_mem_edges hedge
      have hname := hinj m.name n.name (CallForest.isDefined_of_mem_nodes hmnode)
        (CallForest.isDefined_of_mem_nodes hnnode) (hm.trans hn.symm)
      exact CallForest.name_ne_of_mem_edges hnames hedge hname
    · have hids : ((CallForest.grow defs limits).names.map Label.identifier).Nodup := by
        refine hnames.map_on ?_
        intro a ha b hb hid
        obtain ⟨m, hm, rfl⟩ := List.mem_map.mp ha
        obtain ⟨n, hn, rfl⟩ := List.mem_map.mp hb
        exact hinj m.name n.name (CallForest.isDefined_of_mem_nodes hm)
          (CallForest.isDefined_of_mem_nodes hn) hid
      rw [edgeLines_eq_map_edges hids, List.length_map]

end Grown

/-- **Functions merge by identifier.**  The component diagram of a program declares every name under
its identifier, and names share one exactly when they agree up to marks.  The edge lines are those
of the edges of the forest.  A line that joins an identifier to itself stands for an edge between
two names that share it, and there is one line for each pair of identifiers that an edge joins.  So
the functions are apart exactly when no two names agree up to marks. -/
theorem functions_merge_by_identifier (defs : List Definition) (limits : ForestLimits) :
    (∀ name, IsDefined defs name →
      DeclaresAs (render (CallForest.grow defs limits) defs) name (Label.identifier name)) ∧
    (∀ a b, Label.identifier a = Label.identifier b ↔ AgreeUpToMarks a b) ∧
    (∀ line, line ∈ edgeLines (CallForest.grow defs limits) ↔
      ∃ m n, (m, n) ∈ (CallForest.grow defs limits).edges ∧
        Label.identifier m.name ++ " --> " ++ Label.identifier n.name = line) ∧
    (∀ id, id ++ " --> " ++ id ∈ edgeLines (CallForest.grow defs limits) ↔
      ∃ m n, (m, n) ∈ (CallForest.grow defs limits).edges ∧ Label.identifier m.name = id ∧
        Label.identifier n.name = id) ∧
    (edgeLines (CallForest.grow defs limits)).length =
      ((CallForest.grow defs limits).edges.map fun e =>
        (Label.identifier e.1.name, Label.identifier e.2.name)).toFinset.card ∧
    (FunctionsApart (CallForest.grow defs limits) defs ↔
      ∀ a b, IsDefined defs a → IsDefined defs b → AgreeUpToMarks a b → a = b) := by
  have hnames := CallForest.nodup_names_grow defs limits
  exact ⟨fun _ h => declaresAs_of_isDefined _ h, fun _ _ => identifier_eq_iff,
    fun _ => mem_edgeLines_iff_of_nodup hnames, fun _ => loop_mem_edgeLines_iff hnames,
    length_edgeLines hnames, functionsApart_iff⟩

/-- A function that calls two others by two names each, which differ in a mark; one of the names
also calls the other. -/
def markedNames : List Definition :=
  [⟨"main", "app.js", 1, .declaration, .ofList ["$load", "$save", "_save"]⟩,
   ⟨"$load", "app.js", 5, .arrow, .ofList ["_load"]⟩,
   ⟨"_load", "app.js", 9, .arrow, .empty⟩,
   ⟨"$save", "app.js", 13, .arrow, .empty⟩,
   ⟨"_save", "app.js", 17, .arrow, .empty⟩]

/-- Here two names are declared under one identifier, an identifier is joined to itself, and three
lines are drawn for four edges. -/
theorem marked_names_are_not_apart :
    IsDefined markedNames "$load" ∧ IsDefined markedNames "_load" ∧
      DeclaresAs (render (CallForest.grow markedNames {}) markedNames) "$load" "fn__load" ∧
      DeclaresAs (render (CallForest.grow markedNames {}) markedNames) "_load" "fn__load" ∧
      "fn__load --> fn__load" ∈ edgeLines (CallForest.grow markedNames {}) ∧
      (CallForest.grow markedNames {}).edges.length = 4 ∧
      (edgeLines (CallForest.grow markedNames {})).length = 3 ∧
      ¬FunctionsApart (CallForest.grow markedNames {}) markedNames := by
  have hdollar : IsDefined markedNames "$load" := ⟨markedNames[1], List.getElem_mem _, rfl⟩
  have hunderscore : IsDefined markedNames "_load" := ⟨markedNames[2], List.getElem_mem _, rfl⟩
  have hloop : "fn__load --> fn__load" ∈ edgeLines (CallForest.grow markedNames {}) := by
    decide +kernel
  refine ⟨hdollar, hunderscore, ?_, ?_, hloop, by decide +kernel, by decide +kernel, ?_⟩
  · exact declaresAs_of_isDefined _ hdollar
  · exact declaresAs_of_isDefined _ hunderscore
  · exact fun hapart => hapart.no_loop "fn__load" hloop

end CallAtlas.ComponentDiagram
