import CallAtlas.Proofs.PackageBlocks
import CallAtlas.Proofs.PrintedNames
import CallAtlas.Proofs.TaggedLines
import CallAtlas.Proofs.UtilityNames

/-!
# Roles in a tidied diagram

Tidying may turn the tag of a component into that of a utility, by words anywhere on the line; but a
declaration is written so that these can only be words of the declared name.  The identifier that
stands beside it is the name once more, and nothing else on the line holds such a word or can be
part of one (`infix_bracketHead_iff`).  So the role that a name is left with depends on its rendered
role and on the name alone (`Role.tidied`).

The words of tidying are all known to the rule for utilities (`Role.classify_ne_service`), so a name
with one of them ends up as a utility wherever it is defined.
-/

set_option autoImplicit false

namespace CallAtlas

open Text

variable {name : String} {c d : Char} {cs : List Char}

/-! ## Plain names -/

/-- Whether a name is made of ASCII letters and digits, underscores and dollar signs. -/
def IsPlainName (name : String) : Prop := ∀ c ∈ name.toList, isPlainChar c

/-- Whether a name holds a word of handlers, formatters and validators in any letter case. -/
def HoldsHandlerWord (name : String) : Prop :=
  ∃ word ∈ Tidy.handlerWords, word.toList <:+: name.toList.map Char.toLower

/-- Whether the letters, digits and underscores that a name begins with are a branch word in any
letter case. -/
def BeginsWithBranchWord (name : String) : Prop :=
  ∃ word ∈ Tidy.branchWords,
    (name.toList.map Char.toLower).takeWhile (fun c => c.isAlphanum || c == '_') = word.toList

instance (name : String) : Decidable (HoldsHandlerWord name) :=
  inferInstanceAs (Decidable (∃ word ∈ Tidy.handlerWords, _))

instance (name : String) : Decidable (BeginsWithBranchWord name) :=
  inferInstanceAs (Decidable (∃ word ∈ Tidy.branchWords, _))

/-- The role that a name declared in a given role is left with when its diagram is tidied. -/
def Role.tidied (role : Role) (name : String) : Role :=
  if role = .component ∧ (HoldsHandlerWord name ∨ BeginsWithBranchWord name) then .utility else role

/-- For plain names, ignoring case is writing small letters. -/
theorem map_fold_of_plain (h : ∀ c ∈ cs, isPlainChar c) :
    cs.map Tidy.fold = cs.map Char.toLower := by
  refine List.map_congr_left fun c hc => ?_
  have hne : c ≠ 'ſ' := ne_of_isPlainChar (h c hc) (by decide +kernel)
  rw [Tidy.fold, beq_eq_false_iff_ne.mpr hne]
  rfl

/-- The lower-case form of a plain name is made letter by letter. -/
theorem lowerAfter_of_plain (h : ∀ c ∈ cs, isPlainChar c) (before : List Char) :
    lowerAfter before cs = cs.map Char.toLower := by
  induction cs generalizing before with
  | nil => rfl
  | cons c cs ih =>
    have hc : isPlainChar c := h c List.mem_cons_self
    have hsigma : c ≠ 'Σ' := ne_of_isPlainChar hc (by decide +kernel)
    rw [lowerAfter, beq_eq_false_iff_ne.mpr hsigma, ih fun d hd => h d (List.mem_cons_of_mem c hd),
      lowerForm, if_pos (toNat_lt_of_isPlainChar hc)]
    rfl

/-- The first word of a plain name is made of letters, digits and underscores. -/
theorem takeWhile_isWord_of_plain (h : ∀ c ∈ cs, isPlainChar c) :
    (cs.map Char.toLower).takeWhile isWord =
      (cs.map Char.toLower).takeWhile fun c => c.isAlphanum || c == '_' := by
  induction cs with
  | nil => rfl
  | cons c cs ih =>
    have hrest := ih fun d hd => h d (List.mem_cons_of_mem c hd)
    simp only [List.map_cons, List.takeWhile_cons,
      isWord_toLower_of_isPlainChar (h c List.mem_cons_self), hrest]

/-- Every word by which tidying tells a handler is known to the rule for utilities. -/
theorem Role.classify_ne_service (hplain : IsPlainName name) (h : HoldsHandlerWord name)
    (path : String) : Role.classify path name ≠ .service := by
  have hutility : Role.looksLikeUtility path name := by
    obtain ⟨word, hword, hocc⟩ := h
    have hmarkers : ∀ word ∈ Tidy.handlerWords,
        ∃ marker ∈ ["format", "parse", "valid", "handle"], marker.toList <:+: word.toList := by
      decide
    obtain ⟨marker, hmarker, hinfix⟩ := hmarkers word hword
    rw [Role.looksLikeUtility, Bool.or_eq_true]
    refine Or.inr (List.any_eq_true.mpr ⟨marker, hmarker, ?_⟩)
    rw [lowerAfter_of_plain hplain, hasFragment_iff_infix]
    exact hinfix.trans hocc
  rw [Role.classify, hutility]
  split <;> simp

/-- A name is left a utility if it was one, or a component with the name of one. -/
theorem Role.tidied_eq_utility_iff {role : Role} : role.tidied name = .utility ↔
    role = .utility ∨ role = .component ∧ (HoldsHandlerWord name ∨ BeginsWithBranchWord name) := by
  unfold Role.tidied
  split
  · simp_all
  · simp_all

/-- A name that is left no utility has kept its role. -/
theorem Role.tidied_eq_self {role : Role} (h : role.tidied name ≠ .utility) :
    role.tidied name = role := by
  unfold Role.tidied at h ⊢
  split at h
  · exact absurd rfl h
  · rename_i hnot
    exact if_neg hnot

/-- A name with a handler word is left a utility wherever it is defined. -/
theorem Role.tidied_of_holdsHandlerWord (hplain : IsPlainName name) (h : HoldsHandlerWord name)
    (path : String) : (Role.classify path name).tidied name = .utility := by
  rw [Role.tidied_eq_utility_iff]
  cases hrole : Role.classify path name with
  | component => exact Or.inr ⟨rfl, Or.inl h⟩
  | utility => exact Or.inl rfl
  | service => exact absurd hrole (Role.classify_ne_service hplain h path)

/-! ## Declarations -/

namespace ComponentDiagram

open Tidy

variable {role : Role} {defs : List Definition} {line : List Char}

/-- Whether some lines bear the tag of a role, and of no other one. -/
def DeclareAs (role : Role) (lines : List (List Char)) : Prop :=
  ∀ other : Role, (∃ line ∈ lines, other.tag.toList <:+: line) ↔ other = role

/-- Of free lines and one with a tag, only that tag is borne. -/
theorem declareAs_cons {head tail : List Char} {later : List (List Char)}
    (hhead : ∀ c ∈ head, isFree c) (htail : ∀ c ∈ tail, isFree c)
    (hlater : ∀ line ∈ later, ∀ c ∈ line, isFree c) :
    DeclareAs role ((head ++ (role.tag.toList ++ tail)) :: later) := by
  intro other
  rw [List.exists_mem_cons_iff, tag_infix_iff hhead htail]
  refine or_iff_left ?_
  rintro ⟨line, hline, hocc⟩
  exact not_tag_infix (hlater line hline) hocc

/-- An identifier without what all of them begin with. -/
def suffix (name : String) : List Char :=
  name.toList.map fun c => if c.isAlphanum then c else '_'

/-- What stands between the name and the tag on the line of a component or a service. -/
def labelRest (name : String) : List Char :=
  "] as ".toList ++ ("fn_".toList ++ (suffix name ++ " ".toList))

/-- What stands before the tag on the line of a component or a service. -/
def bracketHead (name : String) : List Char :=
  "  [".toList ++ (name.toList ++ labelRest name)

/-- An identifier is what all begin with, and the rest. -/
theorem toList_identifier (name : String) :
    (Label.identifier name).toList = "fn_".toList ++ suffix name := by
  rw [Label.identifier, String.toList_append]
  exact congrArg _ String.toList_ofList

/-- The rest of an identifier is plain. -/
theorem isPlainChar_of_mem_suffix (h : c ∈ suffix name) : isPlainChar c := by
  obtain ⟨d, -, rfl⟩ := List.mem_map.mp h
  split
  · rename_i hd
    simp [isPlainChar, hd]
  · decide

/-- The line of a component or a service ends in the tag. -/
theorem toList_bracketLine (name : String) (role : Role) :
    ("  [" ++ name ++ "] as " ++ Label.identifier name ++ " " ++ role.tag).toList =
      bracketHead name ++ (role.tag.toList ++ []) := by
  unfold bracketHead labelRest
  rw [String.toList_append, String.toList_append, String.toList_append, String.toList_append,
    String.toList_append, toList_identifier]
  simp only [List.append_assoc, List.append_nil]

/-- The tag of a utility stands before the brace. -/
theorem toList_classLine (name : String) (role : Role) :
    ("  class \"" ++ name ++ "\" as " ++ Label.identifier name ++ " " ++ role.tag ++
        " \x7b").toList = ("  class \"".toList ++ (name.toList ++ ("\" as ".toList ++
      ("fn_".toList ++ (suffix name ++ " ".toList))))) ++ (role.tag.toList ++ " \x7b".toList) := by
  rw [String.toList_append, String.toList_append, String.toList_append, String.toList_append,
    String.toList_append, String.toList_append, toList_identifier]
  simp only [List.append_assoc]

/-- An identifier has no handler word that its name does not have. -/
theorem infix_of_infix_suffix {word : String} (hword : word ∈ handlerWords)
    (hocc : word.toList <:+: (suffix name).map fold) : word.toList <:+: name.toList.map fold := by
  have hletters : ∀ word ∈ handlerWords, fold '_' ∉ word.toList := by decide
  rw [suffix, List.map_map] at hocc
  obtain ⟨run, hrun, hmap⟩ := List.infix_map_iff.mp hocc
  refine List.infix_map_iff.mpr ⟨run, hrun, hmap.trans (List.map_congr_left fun c hc => ?_)⟩
  have hmem : (fold ∘ fun c => if c.isAlphanum then c else '_') c ∈ word.toList :=
    hmap ▸ List.mem_map_of_mem hc
  by_cases hc : c.isAlphanum
  · simp [hc]
  · rw [Function.comp_apply, if_neg hc] at hmem
    exact absurd hmem (hletters word hword)

/-- A handler word stands on the line of a component only if it stands in the name. -/
theorem infix_bracketHead_iff {word : String} (hword : word ∈ handlerWords) :
    word.toList <:+: (bracketHead name ++ (Role.component.tag.toList ++ [])).map fold ↔
      word.toList <:+: name.toList.map fold := by
  have hparts : ∀ word ∈ handlerWords, ∀ part ∈ ["  [", "] as ", "fn_", " ", "<<component>>"],
      isApart word.toList (part.toList.map fold) := by decide +kernel
  have hpart := hparts word hword
  have hnil : ¬word.toList <:+: [] := by
    have hne : ∀ word ∈ handlerWords, word.toList ≠ [] := by decide
    exact fun hocc => hne word hword (List.infix_nil.mp hocc)
  have hskip : ∀ {part second : List Char}, isApart word.toList part →
      word.toList <:+: part ++ second → word.toList <:+: second := by
    intro part second hpart hocc
    rw [← List.nil_append (part ++ second)] at hocc
    exact (infix_of_isApart hpart hocc).resolve_left hnil
  unfold bracketHead labelRest
  simp only [List.map_append, List.append_assoc]
  constructor
  · intro hocc
    -- The parts of the line that are no name are passed over one by one.
    rcases infix_of_isApart (hpart "] as " (by decide)) (hskip (hpart "  [" (by decide)) hocc)
      with hname | hocc
    · exact hname
    rcases infix_of_isApart (hpart " " (by decide)) (hskip (hpart "fn_" (by decide)) hocc)
      with hocc | hocc
    · exact infix_of_infix_suffix hword hocc
    · exact absurd (hskip (hpart "<<component>>" (by decide)) hocc) hnil
  · intro hocc
    exact hocc.trans ⟨"  [".toList.map fold, _, List.append_assoc _ _ _⟩

/-- The line of a component has its capitals, and one bracket that opens. -/
theorem exists_capitalize_bracketHead (name : String) : ∃ tail, '[' ∉ tail ∧
    capitalize (bracketHead name ++ (Role.component.tag.toList ++ [])) =
      "  ".toList ++ '[' :: (capitalize name.toList ++ ']' :: tail) := by
  let rest := "fn_".toList ++ (suffix name ++ (" ".toList ++ (Role.component.tag.toList ++ [])))
  refine ⟨" as ".toList ++ capitalize rest, ?_, ?_⟩
  · have hwords : ∀ word ∈ [" as ", "fn_", " ", Role.component.tag], '[' ∉ word.toList := by decide
    have hsuffix : '[' ∉ suffix name := fun hmem =>
      ne_of_isPlainChar (isPlainChar_of_mem_suffix hmem) (by decide) rfl
    have hrest : '[' ∉ rest := by
      simp only [rest, List.mem_append, not_or]
      exact ⟨hwords "fn_" (by decide), hsuffix, hwords " " (by decide),
        hwords Role.component.tag (by decide), List.not_mem_nil⟩
    rw [List.mem_append, not_or]
    refine ⟨hwords " as " (by decide), fun hmem => ?_⟩
    rcases mem_capitalize hmem with hmem | hmem
    · exact hrest hmem
    · exact absurd hmem (by decide)
  · have hparts : bracketHead name ++ (Role.component.tag.toList ++ []) =
        [] ++ ("  [".toList ++ (name.toList ++ ("] as ".toList ++ rest))) := by
      unfold bracketHead labelRest
      simp only [rest, List.append_assoc, List.nil_append]
    rw [hparts, capitalize_append_word (by decide) (by decide),
      capitalize_append_word (by decide) (by decide)]
    rfl

section Plain

variable (hplain : IsPlainName name)

include hplain

/-- With its capitals, a plain name still is one. -/
theorem isPlainChar_of_mem_capitalize : ∀ c ∈ capitalize name.toList, isPlainChar c := by
  intro c hc
  rcases mem_capitalize hc with hname | halpha
  · exact hplain c hname
  · exact isPlainChar_of_isAlpha halpha

/-- What stands before the tag on the line of a plain name is free. -/
theorem isFree_of_mem_bracketHead : ∀ c ∈ bracketHead name, isFree c := by
  have hword {word : String} (h : word.toList.all isFree) := List.all_eq_true.mp h
  unfold bracketHead labelRest
  simp only [List.forall_mem_append]
  exact ⟨hword (by decide), fun c hc => isFree_of_isPlainChar (hplain c hc), hword (by decide),
    hword (by decide), fun c hc => isFree_of_isPlainChar (isPlainChar_of_mem_suffix hc),
    hword (by decide)⟩

/-- The line of a component names a branch exactly if the component begins like one. -/
theorem branchNode_occurs_bracketHead_iff :
    branchNode.occurs none (capitalize (bracketHead name ++ (Role.component.tag.toList ++ []))) ↔
      BeginsWithBranchWord name := by
  have hkept := isPlainChar_of_mem_capitalize hplain
  have hnot : ∀ {d}, isPlainChar d = false → d ∉ capitalize name.toList := fun hd hmem =>
    ne_of_isPlainChar (hkept _ hmem) hd rfl
  have hblank : ∀ c ∈ (capitalize name.toList).head?, isBlank c = false := fun c hc =>
    isBlank_of_isPlainChar (hkept c (List.mem_of_mem_head? hc))
  obtain ⟨tail, htail, hline⟩ := exists_capitalize_bracketHead name
  rw [hline, branchNode_occurs_iff (by decide) htail (hnot (by decide)) (hnot (by decide))
    (hnot (by decide)) hblank, map_fold_capitalize, map_fold_of_plain hplain,
    takeWhile_isWord_of_plain hplain, BeginsWithBranchWord]

/-- The line of a component names a utility exactly when its name holds a handler word or begins
with a branch word. -/
theorem namesUtility_bracketHead_iff :
    namesUtility (capitalize (bracketHead name ++ (Role.component.tag.toList ++ []))) ↔
      HoldsHandlerWord name ∨ BeginsWithBranchWord name := by
  rw [namesUtility, Bool.or_eq_true, branchNode_occurs_bracketHead_iff hplain,
    handlerWord_occurs_iff, map_fold_capitalize]
  refine or_congr_left (exists_congr fun word => and_congr_right fun hword => ?_)
  rw [infix_bracketHead_iff hword, map_fold_of_plain hplain]

/-- A declaration has its tag on the first line, and nothing like a tag, an arrow or a newline
beside it or on later lines. -/
theorem exists_declaration (role : Role) : ∃ head tail later,
    (declarationLines role name).map String.toList = (head ++ (role.tag.toList ++ tail)) :: later ∧
      (∀ c ∈ head, isFree c) ∧ (∀ c ∈ tail, isFree c) ∧ (∀ line ∈ later, ∀ c ∈ line, isFree c) ∧
      (role = .component → head = bracketHead name ∧ tail = []) := by
  have hname : ∀ c ∈ name.toList, isFree c := fun c hc => isFree_of_isPlainChar (hplain c hc)
  have hbracket := isFree_of_mem_bracketHead hplain
  cases role with
  | component =>
    exact ⟨_, [], [], congrArg (· :: []) (toList_bracketLine name .component), hbracket,
      fun c hc => absurd hc List.not_mem_nil, fun line hline => absurd hline List.not_mem_nil,
      fun _ => ⟨rfl, rfl⟩⟩
  | service =>
    exact ⟨_, [], [], congrArg (· :: []) (toList_bracketLine name .service), hbracket,
      fun c hc => absurd hc List.not_mem_nil, fun line hline => absurd hline List.not_mem_nil,
      fun hrole => Role.noConfusion hrole⟩
  | utility =>
    have hword {word : String} (h : word.toList.all isFree) := List.all_eq_true.mp h
    have hsuffix : ∀ c ∈ suffix name, isFree c := fun c hc =>
      isFree_of_isPlainChar (isPlainChar_of_mem_suffix hc)
    refine ⟨"  class \"".toList ++ (name.toList ++ ("\" as ".toList ++
      ("fn_".toList ++ (suffix name ++ " ".toList)))), " \x7b".toList,
      ["    +".toList ++ (name.toList ++ "()".toList), "  \x7d".toList], ?_, ?_, ?_, ?_, ?_⟩
    · rw [declarationLines, List.map_cons, List.map_cons, List.map_cons, List.map_nil,
        toList_classLine, String.toList_append, String.toList_append]
      simp only [List.append_assoc]
    · simp only [List.forall_mem_append]
      exact ⟨hword (by decide), hname, hword (by decide), hword (by decide), hsuffix,
        hword (by decide)⟩
    · exact hword (by decide)
    · rintro line (_ | ⟨_, _ | ⟨_, ⟨⟩⟩⟩)
      · simp only [List.forall_mem_append]
        exact ⟨hword (by decide), hname, hword (by decide)⟩
      · exact hword (by decide)
    · exact fun hrole => Role.noConfusion hrole

/-- The lines that declare a plain name are single. -/
theorem newline_not_mem_declarationLines (role : Role) :
    ∀ line ∈ declarationLines role name, '\n' ∉ line.toList := by
  have hname : '\n' ∉ name.toList := fun hmem =>
    ne_of_isPlainChar (hplain _ hmem) (by decide) rfl
  exact fun line hline hmem =>
    hname ((newline_declarationLines_iff role name).mp ⟨line, hline, hmem⟩)

/-- The lines that declare a name in a role bear its tag and no other. -/
theorem declareAs_declarationLines (role : Role) :
    DeclareAs role ((declarationLines role name).map String.toList) := by
  obtain ⟨head, tail, later, hlines, hhead, htail, hlater, -⟩ := exists_declaration hplain role
  rw [hlines]
  exact declareAs_cons hhead htail hlater

/-- The tags of a tidied declaration are those of the role that the name is left with. -/
theorem declareAs_tidied (role : Role) : DeclareAs (role.tidied name)
    ((declarationLines role name).map fun line => tidyLine line.toList) := by
  obtain ⟨head, tail, later, hlines, hhead, htail, hlater, hcomponent⟩ :=
    exists_declaration hplain role
  have hmeant : (role = .component ∧
      namesUtility (capitalize (head ++ (role.tag.toList ++ tail)))) ↔
      (role = .component ∧ (HoldsHandlerWord name ∨ BeginsWithBranchWord name)) := by
    refine and_congr_right fun hrole => ?_
    obtain ⟨rfl, rfl⟩ := hcomponent hrole
    rw [hrole, namesUtility_bracketHead_iff hplain]
  have htidied : (declarationLines role name).map (fun line => tidyLine line.toList) =
      (capitalize head ++ ((role.tidied name).tag.toList ++ capitalize tail)) ::
        later.map tidyLine := by
    have hmap := congrArg (List.map tidyLine) hlines
    rw [List.map_map, List.map_cons, tidyLine_of_tagged hhead htail] at hmap
    simp only [hmeant] at hmap
    exact hmap
  rw [htidied]
  refine declareAs_cons (isFree_of_mem_capitalize hhead) (isFree_of_mem_capitalize htail) ?_
  intro line hline
  obtain ⟨before, hbefore, rfl⟩ := List.mem_map.mp hline
  rw [tidyLine_of_free (hlater before hbefore)]
  exact isFree_of_mem_capitalize (hlater before hbefore)

end Plain

/-- **The roles that tidying leaves.**  Every defined name stands in the document with a declaration
in its role, and the tidied document has the same lines, tidied, in the same place.  These declare
it as a utility if it was declared as one, or if it was declared as a component and holds a handler
word or begins with a branch word; otherwise they declare it as before.  A name with a handler word
is a utility there whatever file it is defined in. -/
theorem roles_after_tidying (forest : CallForest) (hdefined : IsDefined defs name)
    (hplain : IsPlainName name) :
    ∃ role before after, role? defs name = some role ∧
      (render forest defs).lines = before ++ declarationLines role name ++ after ∧
      DeclareAs role ((declarationLines role name).map String.toList) ∧
      (tidy (render forest defs).text.toList).splitOn '\n' =
        tidiedLines before ++ (declarationLines role name).map (fun line => tidyLine line.toList) ++
          tidiedLines after ∧
      DeclareAs (role.tidied name)
        ((declarationLines role name).map fun line => tidyLine line.toList) ∧
      (role.tidied name = .utility ↔ role = .utility ∨
        role = .component ∧ (HoldsHandlerWord name ∨ BeginsWithBranchWord name)) ∧
      (role.tidied name ≠ .utility → role.tidied name = role) ∧
      (HoldsHandlerWord name → role.tidied name = .utility) := by
  obtain ⟨file, hhome, before, after, hlines⟩ := declarationLines_infix forest hdefined
  have hrole : role? defs name = some (Role.classify file name) := by
    rw [role?, hhome, Option.map_some]
  have hne : (render forest defs).lines ≠ [] := by
    rw [lines_render]
    exact List.append_ne_nil_of_right_ne_nil _ (List.cons_ne_nil _ _)
  refine ⟨Role.classify file name, before, after, hrole, hlines.symm,
    declareAs_declarationLines hplain _, ?_, declareAs_tidied hplain _, Role.tidied_eq_utility_iff,
    Role.tidied_eq_self, fun hhandler => Role.tidied_of_holdsHandlerWord hplain hhandler file⟩
  rw [splitOn_tidy_text hne, ← hlines, tidiedLines_append, tidiedLines_append,
    tidiedLines_of_not_mem (newline_not_mem_declarationLines hplain _)]

/-- A handler of a user interface. -/
def dashboard : List Definition :=
  [⟨"handleSubmit", "src/components/Dashboard.jsx", 12, .arrow, NameSet.empty⟩]

/-- It is declared as a component, and the tidied document declares it as a utility. -/
theorem handler_of_dashboard_is_utility :
    IsDefined dashboard "handleSubmit" ∧ IsPlainName "handleSubmit" ∧
      role? dashboard "handleSubmit" = some .component ∧
      ∃ before after,
        (tidy (render ⟨[]⟩ dashboard).text.toList).splitOn '\n' = tidiedLines before ++
          (declarationLines .component "handleSubmit").map (fun line => tidyLine line.toList) ++
            tidiedLines after ∧
        DeclareAs .utility
          ((declarationLines .component "handleSubmit").map fun line => tidyLine line.toList) := by
  have hdefined : IsDefined dashboard "handleSubmit" := ⟨_, List.mem_singleton_self _, rfl⟩
  have hplain : IsPlainName "handleSubmit" := List.all_eq_true.mp (by decide)
  have hcomponent : role? dashboard "handleSubmit" = some .component := by decide +kernel
  obtain ⟨role, before, after, hrole, -, -, htidied, hdeclares, -, -, hhandler⟩ :=
    roles_after_tidying ⟨[]⟩ hdefined hplain
  obtain rfl := Option.some.inj (hrole.symm.trans hcomponent)
  rw [hhandler (by decide)] at hdeclares
  exact ⟨hdefined, hplain, hcomponent, before, after, htidied, hdeclares⟩

end ComponentDiagram

end CallAtlas
