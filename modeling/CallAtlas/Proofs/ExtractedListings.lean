import CallAtlas.Proofs.NestedCalls

/-!
# What a listing of definitions looks like

The definitions that are extracted from a text come in three blocks, one for each form of a head.
Within a block they come in the order of their heads, so their lines never go back.  A name is an
identifier and no keyword; a call is a path of identifiers, counts as a call of its definition, and
is not the definition's own name (`WellFormedListing`).  So no name has an edge to itself in the
call graph of such definitions, whatever texts they come from, and whatever is recursive takes at
least two names (`LoopFree`).
-/

set_option autoImplicit false

namespace CallAtlas

open Text
open Relation (TransGen)

namespace Lexical

variable {text file : String} {excluded : List String} {f : Found Char} {d : Definition}

/-! ## Paths -/

/-- Whether a run of characters is a path: identifiers joined by dots. -/
def IsDottedPath (path : List Char) : Prop :=
  ∃ parts, parts ≠ [] ∧ (∀ part ∈ parts, IsIdentifier part) ∧ path = joinWith '.' parts

/-- What a repetition takes is made up of runs of the pattern. -/
theorem exists_runs_of_mem_cuts_star {α : Type} {p : Pattern α} {P : List α → Prop}
    (hstep : ∀ {before input run rest}, (run, rest) ∈ p.cuts before input → P run)
    {before : Option α} {input run rest : List α}
    (h : (run, rest) ∈ (Pattern.star p).cuts before input) :
    ∃ runs : List (List α), run = runs.flatten ∧ ∀ run ∈ runs, P run := by
  refine Pattern.cuts_star_induct (motive := fun _ _ run =>
    ∃ runs : List (List α), run = runs.flatten ∧ ∀ run ∈ runs, P run) ?_ ?_ h
  · intro _
    exact ⟨[], rfl, by simp⟩
  · rintro _ _ first _ _ - hfirst - ⟨runs, rfl, hruns⟩
    exact ⟨first :: runs, rfl, List.forall_mem_cons.mpr ⟨hstep hfirst, hruns⟩⟩

/-- A join is its first part and the others with a separator before each. -/
theorem joinWith_cons {α : Type} (sep : α) (part : List α) (parts : List (List α)) :
    joinWith sep (part :: parts) = part ++ (parts.map (sep :: ·)).flatten := by
  induction parts generalizing part with
  | nil => simp [joinWith]
  | cons next parts ih => simp [joinWith, ih next]

/-- What the pattern of a dotted path takes is one. -/
theorem isDottedPath_of_mem_cuts {before : Option Char} {input run rest : List Char}
    (h : (run, rest) ∈ dottedPath.cuts before input) : IsDottedPath run := by
  obtain ⟨first, more, middle, rfl, hfirst, hmore⟩ := Pattern.mem_cuts_seq_iff.mp h
  have hstep : ∀ {before input run rest},
      (run, rest) ∈ (Pattern.seq (sym '.') identifier).cuts before input →
        ∃ part, run = '.' :: part ∧ IsIdentifier part := by
    intro before input run rest h
    obtain ⟨dot, part, middle, rfl, hdot, hpart⟩ := Pattern.mem_cuts_seq_iff.mp h
    obtain ⟨c, hc, rfl, -⟩ := Pattern.mem_cuts_one_iff.mp hdot
    obtain rfl : c = '.' := by simpa using hc
    exact ⟨part, rfl, (mem_cuts_identifier_iff.mp hpart).1⟩
  obtain ⟨runs, rfl, hruns⟩ := exists_runs_of_mem_cuts_star hstep hmore
  have hparts : ∃ parts : List (List Char), runs = parts.map ('.' :: ·) ∧
      ∀ part ∈ parts, IsIdentifier part := by
    clear hmore h
    induction runs with
    | nil => exact ⟨[], rfl, by simp⟩
    | cons run runs ih =>
      rw [List.forall_mem_cons] at hruns
      obtain ⟨part, rfl, hpart⟩ := hruns.1
      obtain ⟨parts, rfl, hparts⟩ := ih hruns.2
      exact ⟨part :: parts, rfl, List.forall_mem_cons.mpr ⟨hpart, hparts⟩⟩
  obtain ⟨parts, rfl, hidentifiers⟩ := hparts
  refine ⟨first :: parts, List.cons_ne_nil first parts, ?_, (joinWith_cons '.' first parts).symm⟩
  exact List.forall_mem_cons.mpr ⟨(mem_cuts_identifier_iff.mp hfirst).1, hidentifiers⟩

/-- The target of a call is a dotted path. -/
theorem isDottedPath_of_mem_callTargets {text : List Char} {callee : String}
    (h : callee ∈ callTargets text) : IsDottedPath callee.toList := by
  obtain ⟨f, hf, rfl⟩ := List.mem_map.mp h
  obtain ⟨-, -, htarget, -⟩ := Probe.matchHere_eq_some (Probe.of_mem_findAll hf).1
  rw [String.toList_ofList]
  exact isDottedPath_of_mem_cuts htarget

/-! ## Listings -/

/-- A run of definitions of one kind whose lines never go back. -/
structure IsBlock (kind : DefinitionKind) (defs : List Definition) : Prop where
  kinds : ∀ d ∈ defs, d.kind = kind
  lines : defs.Pairwise fun d e => d.line ≤ e.line

/-- A listing of the definitions of a text as it should be. -/
structure WellFormedListing (excluded : List String) (text : String) (defs : List Definition) :
    Prop where
  /-- The functions come first, then the arrow functions, then the methods. -/
  blocks : ∃ functions arrows methods, defs = functions ++ arrows ++ methods ∧
    IsBlock .declaration functions ∧ IsBlock .arrow arrows ∧ IsBlock .method methods
  /-- The lines are lines of the text. -/
  lines : ∀ d ∈ defs, 1 ≤ d.line ∧ d.line ≤ 1 + newlines text.toList
  /-- The names are identifiers and no keywords. -/
  names : ∀ d ∈ defs, IsIdentifier d.name.toList ∧ isKeyword d.name = false
  /-- The calls are paths, no keywords, not the name of the definition, and begin with none of the
  excluded prefixes. -/
  calls : ∀ d ∈ defs, ∀ callee ∈ d.calls, IsDottedPath callee.toList ∧
    isKeyword callee = false ∧ callee ≠ d.name ∧ ∀ start ∈ excluded, ¬start.toList <+: callee.toList

/-- The definitions of one head. -/
def blockOf (excluded : List String) (text file : String) (head : DefinitionKind × Probe Char) :
    List Definition :=
  ((head.2.findAll text.toList).filter fun f => !isKeyword (String.ofList f.target)).map
    fun f => definitionAt excluded file head.1 f

/-- A listing is made of the definitions of each head in turn. -/
theorem extract_eq (excluded : List String) (text file : String) :
    extract excluded text file = heads.flatMap (blockOf excluded text file) := by
  simp only [extract, headMatches, List.filter_flatMap, List.map_flatMap, List.filter_map,
    List.map_map]
  rfl

/-- The definitions of one head are of its kind, and their lines never go back. -/
theorem isBlock_blockOf (excluded : List String) (text file : String)
    (head : DefinitionKind × Probe Char) :
    IsBlock head.1 (blockOf excluded text file head) := by
  constructor
  · intro d hd
    obtain ⟨f, -, rfl⟩ := List.mem_map.mp hd
    rfl
  · rw [blockOf, List.pairwise_map]
    apply ((Probe.findAll_ordered head.2 text.toList).filter _).imp
    intro f g hpast
    have hcount : newlines f.past ≤ newlines g.past := hpast.sublist.count_le '\n'
    simpa [definitionAt] using hcount

/-- No definition stands below the last line. -/
theorem ExtractedAt.line_le (hd : ExtractedAt excluded text file d f) :
    d.line ≤ 1 + newlines text.toList := by
  obtain ⟨-, -, -, htext⟩ := exists_head hd.found
  have hcount : newlines f.past ≤ newlines text.toList := by
    simp only [newlines, ← htext, List.count_append, List.count_reverse]
    omega
  have hline : d.line = newlines f.past + 1 := by
    rw [hd.eq]
    rfl
  omega

/-- The listing of any text is well formed. -/
theorem wellFormedListing_extract (excluded : List String) (text file : String) :
    WellFormedListing excluded text (extract excluded text file) where
  blocks := by
    refine ⟨_, _, _, ?_, isBlock_blockOf excluded text file (.declaration, functionHead),
      isBlock_blockOf excluded text file (.arrow, arrowHead),
      isBlock_blockOf excluded text file (.method, methodHead)⟩
    simp [extract_eq, heads]
  lines := by
    intro d hd
    obtain ⟨f, hf⟩ := mem_extract_iff_exists.mp hd
    refine ⟨?_, hf.line_le⟩
    rw [hf.eq]
    exact Nat.succ_le_succ (Nat.zero_le _)
  names := by
    intro d hd
    obtain ⟨f, hf⟩ := mem_extract_iff_exists.mp hd
    rw [hf.name_eq, String.toList_ofList]
    exact ⟨isIdentifier_of_head hf.found, hf.nameable⟩
  calls := by
    intro d hd callee hcallee
    obtain ⟨f, hf⟩ := mem_extract_iff_exists.mp hd
    obtain ⟨htarget, hcounts⟩ := hf.mem_calls_iff.mp hcallee
    obtain ⟨hne, hnameable, hkept⟩ := counts_iff.mp hcounts
    exact ⟨isDottedPath_of_mem_callTargets htarget, hnameable, hne, hkept⟩

end Lexical

/-! ## Call graphs without loops -/

/-- Whether no name of a program has an edge to itself and no name is recursive on its own. -/
structure LoopFree (defs : List Definition) : Prop where
  edges : ∀ name, (name, name) ∉ (CallGraph.ofDefinitions defs).edges
  groups : ∀ group ∈ (CallGraph.ofDefinitions defs).recursiveGroups, 2 ≤ group.length

/-- Where no name calls itself, whatever is recursive takes two names. -/
theorem loopFree_of_not_calls {defs : List Definition} (h : ∀ name, ¬Calls defs name name) :
    LoopFree defs := by
  constructor
  · intro name hedge
    exact h name (CallGraph.mem_edges_iff.mp hedge)
  · intro group hgroup
    obtain ⟨a, hcycle, rfl⟩ := CallGraph.mem_recursiveGroups_iff.mp hgroup
    obtain ⟨b, hstep, hback⟩ := TransGen.head'_iff.mp hcycle
    have hne : a ≠ b := by
      rintro rfl
      exact h a hstep
    have hreturn : TransGen (Calls defs) b a := by
      rcases Relation.reflTransGen_iff_eq_or_transGen.mp hback with heq | htrans
      · exact absurd heq hne
      · exact htrans
    have ha : a ∈ (CallGraph.ofDefinitions defs).groupOf a :=
      CallGraph.mem_groupOf_iff.mpr ⟨hcycle, hcycle⟩
    have hb : b ∈ (CallGraph.ofDefinitions defs).groupOf a :=
      CallGraph.mem_groupOf_iff.mpr ⟨.single hstep, hreturn⟩
    have hpair : [a, b].Nodup := by simpa using hne
    apply hpair.length_le_of_subset
    simp [ha, hb]

open Lexical in
/-- **The listing of a text is well formed**, and the call graph of the definitions that any texts
list has no loops. -/
theorem extracted_listings_are_well_formed (excluded : List String) (text file : String) :
    WellFormedListing excluded text (Lexical.extract excluded text file) ∧
      ∀ files : List (String × String),
        LoopFree (files.flatMap fun source => Lexical.extract excluded source.2 source.1) := by
  refine ⟨wellFormedListing_extract excluded text file, fun files => ?_⟩
  apply loopFree_of_not_calls
  rintro name ⟨⟨d, hd, rfl, hcall⟩, -⟩
  obtain ⟨source, -, hsource⟩ := List.mem_flatMap.mp hd
  obtain ⟨-, -, hne, -⟩ :=
    (wellFormedListing_extract excluded source.2 source.1).calls d hsource d.name hcall
  exact hne rfl

end CallAtlas
