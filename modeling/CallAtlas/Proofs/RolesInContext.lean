import CallAtlas.Diagram.Role
import CallAtlas.Proofs.FragmentReplacement
import CallAtlas.Proofs.PathParts
import Mathlib.Data.List.Forall2

/-!
# Roles in a wider context

The path of a file is relative to the folder that is scanned, so a function is judged by a longer
path if a folder further up is scanned.  That path says all the shorter one says.  In the form in
which paths are compared the shorter one begins with a slash, and the longer one ends in it,
whatever stands before (`exists_normalPath_append`): a slash ends every word, so the letters behind
it have the same small forms.

The main statement, `roles_only_gain_from_context`, says that a component stays one and that a
utility can only become a component.  Which way the slashes of a path lean makes no difference.
-/

set_option autoImplicit false

namespace CallAtlas

/-! ## Small letters behind a slash -/

namespace Text

/-- A slash ends the search for a cased letter. -/
theorem meetsCased_append_slash (cs rest : List Char) :
    meetsCased (cs ++ '/' :: rest) = meetsCased cs := by
  induction cs with
  | nil => exact show isCased '/' = false by decide +kernel
  | cons c cs ih => rw [List.cons_append, meetsCased, meetsCased, ih]

/-- What stands before a slash makes no difference to the lower-case form behind it. -/
theorem lowerAfter_append_slash_past (before past rest : List Char) :
    lowerAfter (before ++ '/' :: past) rest = lowerAfter before rest := by
  induction rest generalizing before with
  | nil => rfl
  | cons c rest ih =>
    rw [lowerAfter, lowerAfter, meetsCased_append_slash, ← List.cons_append, ih]

/-- A slash parts the small form of a text. -/
theorem lowerAfter_append_slash (before cs rest : List Char) :
    lowerAfter before (cs ++ '/' :: rest) = lowerAfter before cs ++ '/' :: lowerAfter [] rest := by
  induction cs generalizing before with
  | nil => exact congrArg ('/' :: ·) (lowerAfter_append_slash_past [] before rest)
  | cons c cs ih =>
    rw [List.cons_append, lowerAfter, lowerAfter, meetsCased_append_slash, ih, List.append_assoc]

end Text

namespace Role

open Text

/-- The characters of a path with all slashes leaning forward. -/
def slashed (path : String) : List Char :=
  path.toList.map fun c => if c == '\\' then '/' else c

/-- Two paths agree up to the way their slashes lean. -/
def AgreeUpToSlashes (path path' : String) : Prop :=
  List.Forall₂ (fun c d => c = d ∨ c ∈ ['/', '\\'] ∧ d ∈ ['/', '\\']) path.toList path'.toList

/-- With their slashes leaning forward, paths are the same when they agree up to slashes. -/
theorem slashed_eq_iff {path path' : String} :
    slashed path = slashed path' ↔ AgreeUpToSlashes path path' := by
  have hchar : ∀ c d : Char, (if c == '\\' then '/' else c) = (if d == '\\' then '/' else d) ↔
      c = d ∨ c ∈ ['/', '\\'] ∧ d ∈ ['/', '\\'] := by
    intro c d
    by_cases hc : c = '\\' <;> by_cases hd : d = '\\' <;> simp [hc, hd] <;> grind
  unfold slashed AgreeUpToSlashes
  rw [← List.forall₂_eq_eq_eq, List.forall₂_map_left_iff, List.forall₂_map_right_iff]
  simp only [hchar]

/-- The slashes of a folder and of a path below it are made to lean forward each on its own. -/
theorem slashed_append_slash (folder path : String) :
    slashed (folder ++ "/" ++ path) = slashed folder ++ '/' :: slashed path := by
  simp [slashed]

/-- The small form of a path, before a slash is put in front of it. -/
theorem normalPath_eq (path : String) :
    normalPath path = if (lowerAfter [] (slashed path)).head? = some '/' then
      lowerAfter [] (slashed path) else '/' :: lowerAfter [] (slashed path) := by
  have hbeq : ((lowerAfter [] (slashed path)).head? == some '/') = true ↔
      (lowerAfter [] (slashed path)).head? = some '/' := beq_iff_eq
  exact if_congr hbeq rfl rfl

/-- Behind a folder, a path is compared as it is alone. -/
theorem exists_normalPath_append (folder path : String) :
    ∃ lead rest, normalPath path = '/' :: rest ∧
      normalPath (folder ++ "/" ++ path) = lead ++ '/' :: rest := by
  obtain ⟨rest, hrest, lead, hlead⟩ : ∃ rest, normalPath path = '/' :: rest ∧
      ∃ lead, lowerAfter [] (slashed (folder ++ "/" ++ path)) = lead ++ '/' :: rest := by
    rw [slashed_append_slash, lowerAfter_append_slash, normalPath_eq]
    split
    · rename_i hhead
      obtain ⟨rest, hrest⟩ := List.head?_eq_some_iff.mp hhead
      exact ⟨rest, hrest, lowerAfter [] (slashed folder) ++ ['/'], by simp [hrest]⟩
    · exact ⟨_, rfl, _, rfl⟩
  rw [normalPath_eq (folder ++ "/" ++ path), hlead]
  split
  · exact ⟨lead, rest, hrest, rfl⟩
  · exact ⟨'/' :: lead, rest, hrest, rfl⟩

/-! ## What a longer path shows -/

section Context

variable {fragments : List String} {lead rest : List Char}

/-- A fragment of a text is one of any text that ends in it. -/
theorem hasAny_append (h : hasAny fragments rest) : hasAny fragments (lead ++ rest) := by
  rw [hasAny, List.any_eq_true] at h ⊢
  obtain ⟨fragment, hmem, hocc⟩ := h
  rw [ hasFragment_iff_infix] at hocc
  have hlonger := hocc.trans (List.suffix_append lead rest).isInfix
  exact ⟨fragment, hmem, hasFragment_iff_infix.mpr hlonger⟩

/-- The path of a page or layout file stays one below any folder. -/
theorem isRouteFile_append_slash (h : isRouteFile ('/' :: rest)) :
    isRouteFile (lead ++ '/' :: rest) := by
  rw [isRouteFile, Bool.and_eq_true, hasFragment_iff_infix] at h ⊢
  refine ⟨h.1.trans (List.suffix_append lead _).isInfix, ?_⟩
  cases hname : FilePath.fileName? ('/' :: rest) with
  | none =>
    rw [FilePath.stem?, hname] at h
    exact absurd h.2 nofun
  | some name =>
    have hlonger : FilePath.fileName? (lead ++ '/' :: rest) = some name :=
      FilePath.fileName?_append_slash hname
    have hstem : FilePath.stem? (lead ++ '/' :: rest) = FilePath.stem? ('/' :: rest) := by
      rw [FilePath.stem?, FilePath.stem?, hname, hlonger]
    rw [hstem]
    exact h.2

end Context

/-- What looks like a part of the user interface does so below any folder. -/
theorem looksLikeInterface_append {path name : String} (folder : String)
    (h : looksLikeInterface path name) : looksLikeInterface (folder ++ "/" ++ path) name := by
  obtain ⟨lead, rest, hpath, hlonger⟩ := exists_normalPath_append folder path
  simp only [looksLikeInterface, hpath, hlonger, Bool.or_eq_true] at h ⊢
  exact h.imp_left fun h => h.imp_left fun h => h.imp hasAny_append isRouteFile_append_slash

/-- What looks like a helper does so below any folder. -/
theorem looksLikeUtility_append {path name : String} (folder : String)
    (h : looksLikeUtility path name) : looksLikeUtility (folder ++ "/" ++ path) name := by
  obtain ⟨lead, rest, hpath, hlonger⟩ := exists_normalPath_append folder path
  simp only [looksLikeUtility, hpath, hlonger, Bool.or_eq_true] at h ⊢
  exact h.imp_left hasAny_append

/-! ## Roles -/

/-- A function is a component exactly when it looks like a part of the user interface. -/
theorem classify_eq_component_iff {path name : String} :
    classify path name = .component ↔ looksLikeInterface path name := by
  rw [classify]
  split_ifs with hinterface hutility <;> simp_all

/-- A utility looks like a helper. -/
theorem looksLikeUtility_of_classify {path name : String} (h : classify path name = .utility) :
    looksLikeUtility path name := by
  rw [classify] at h
  split_ifs at h with hinterface hutility
  exact hutility

/-- What looks like a helper is a component or a utility. -/
theorem classify_of_looksLikeUtility {path name : String} (h : looksLikeUtility path name) :
    classify path name = .component ∨ classify path name = .utility := by
  rw [classify]
  split_ifs
  · exact Or.inl rfl
  · exact Or.inr rfl

/-- The way the slashes lean makes no difference to the role. -/
theorem classify_eq_of_agree {path path' : String} (h : AgreeUpToSlashes path path')
    (name : String) : classify path name = classify path' name := by
  have hnormal : normalPath path = normalPath path' := by
    rw [normalPath_eq, normalPath_eq, slashed_eq_iff.mpr h]
  rw [classify, classify, looksLikeInterface, looksLikeInterface, looksLikeUtility,
    looksLikeUtility, hnormal]

/-- Seen from further up, a component is a component and a utility is a component or a utility, so
keeping to a folder never gives a function a higher role.  The way the slashes of a path lean does
not matter. -/
theorem roles_only_gain_from_context :
    (∀ folder path name : String,
      (classify path name = .component →
        classify (folder ++ "/" ++ path) name = .component) ∧
      (classify path name = .utility →
        classify (folder ++ "/" ++ path) name = .component ∨
          classify (folder ++ "/" ++ path) name = .utility)) ∧
    ∀ path path' name : String, AgreeUpToSlashes path path' →
      classify path name = classify path' name := by
  refine ⟨fun folder path name => ⟨fun h => ?_, fun h => ?_⟩, fun path path' name h => ?_⟩
  · exact classify_eq_component_iff.mpr
      (looksLikeInterface_append folder (classify_eq_component_iff.mp h))
  · exact classify_of_looksLikeUtility
      (looksLikeUtility_append folder (looksLikeUtility_of_classify h))
  · exact classify_eq_of_agree h name

/-- A page is one below any folder, and a library function becomes a component below a folder of
components. -/
theorem library_function_gains_from_context :
    (classify "pages/ΜΕΝΟΥΣ.js" "load" = .component ∧
      classify "ΣΕΛΙΔΕΣ/pages/ΜΕΝΟΥΣ.js" "load" = .component) ∧
    (classify "lib/http.ts" "get" = .utility ∧
      (classify "src/components/lib/http.ts" "get" = .component ∨
        classify "src/components/lib/http.ts" "get" = .utility)) ∧
    AgreeUpToSlashes "src\\lib/http.ts" "src/lib\\http.ts" ∧
      classify "src\\lib/http.ts" "get" = classify "src/lib\\http.ts" "get" := by
  have hpage : classify "pages/ΜΕΝΟΥΣ.js" "load" = .component := by decide +kernel
  have hlibrary : classify "lib/http.ts" "get" = .utility := by decide +kernel
  have hagree : AgreeUpToSlashes "src\\lib/http.ts" "src/lib\\http.ts" :=
    slashed_eq_iff.mp (by decide +kernel)
  exact ⟨⟨hpage, (roles_only_gain_from_context.1 "ΣΕΛΙΔΕΣ" "pages/ΜΕΝΟΥΣ.js" "load").1 hpage⟩,
    ⟨hlibrary, (roles_only_gain_from_context.1 "src/components" "lib/http.ts" "get").2 hlibrary⟩,
    hagree, roles_only_gain_from_context.2 _ _ "get" hagree⟩

end Role

end CallAtlas
