import CallAtlas.FileTree.Access
import CallAtlas.Proofs.PatternLanguages
import CallAtlas.Proofs.TextBytes
import CallAtlas.Proofs.TextLines

/-!
# Globs for folders and endings

Two kinds of globs are read here for all words of plain characters.  A word between two stars on
either side excludes what is in a folder of that name: such a glob matches a path exactly if the
word is one of the folders of the path (`matchesPath_folderGlob_iff`).  A word behind two stars and
one more is an ending: such a glob matches the paths that end in the word
(`matchesPath_endingGlob_iff`).

Globs are matched against bytes, and the patterns of their tokens do not look around, so what a
glob matches is a language of bytes.  From there to characters one goes by the bytes of ASCII
characters, the slash among them, which stand for nothing else.
-/

set_option autoImplicit false

namespace CallAtlas.Glob

open Text Pattern

/-! ## Reading -/

/-- Whether a character stands for itself wherever it is in a glob. -/
def isPlain (c : Char) : Bool :=
  !(['?', '*', '[', '\x7b', '\x7d', ',', '\\'].contains c)

/-- The glob for everything in the folders of a name. -/
def folderGlob (name : List Char) : String :=
  String.ofList ('*' :: '*' :: '/' :: (name ++ ['/', '*', '*']))

/-- The glob for everything that ends in a word. -/
def endingGlob (ending : List Char) : String :=
  String.ofList ('*' :: '*' :: '/' :: '*' :: ending)

/-- A plain character is read as itself. -/
theorem readTokens_plain_cons {lenient classes : Bool} {before : Option Char} {draft : Draft}
    {c : Char} (h : isPlain c) (rest : List Char) :
    readTokens lenient 0 classes before draft (c :: rest) =
      readTokens lenient 0 classes (some c) (draft.push (.literal c)) rest := by
  simp only [isPlain, Bool.not_eq_true', List.contains_eq_mem, decide_eq_false_iff_not,
    List.mem_cons, not_or] at h
  obtain ⟨hany, hstar, hclass, hgroup, hend, hcomma, hescape, -⟩ := h
  rw [readTokens] <;> assumption

/-- Plain characters are read as themselves. -/
theorem readTokens_plain {lenient classes : Bool} {word : List Char} (h : ∀ c ∈ word, isPlain c)
    (before : Option Char) (draft : Draft) (rest : List Char) :
    readTokens lenient 0 classes before draft (word ++ rest) =
      readTokens lenient 0 classes (lastOf before word)
        { draft with branch := (word.map .literal).reverse ++ draft.branch } rest := by
  induction word generalizing before draft with
  | nil => rfl
  | cons c word ih =>
    rw [List.forall_mem_cons] at h
    rw [List.cons_append, readTokens_plain_cons h.1, ih h.2, ← List.singleton_append (l := word),
      lastOf_append]
    simp [Draft.push, lastOf]

/-- The glob of a folder name is read as folders, the characters of the name and folders. -/
theorem ofString_folderGlob {name : List Char} (h : ∀ c ∈ name, isPlain c) :
    ofString (folderGlob name) =
      .ok ⟨folderGlob name, .foldersFirst :: (name.map .literal ++ [.foldersLast])⟩ := by
  have hname : ∀ c ∈ name ++ ['/'], isPlain c := by
    simpa [or_imp, forall_and] using And.intro h (by decide : isPlain '/' = true)
  have htokens : tokensOf false ('*' :: '*' :: '/' :: (name ++ ['/', '*', '*'])) =
      .ok (.foldersFirst :: (name.map .literal ++ [.foldersLast])) := by
    have hsplit : name ++ ['/', '*', '*'] = name ++ ['/'] ++ ['*', '*'] := by simp
    show readTokens false 0 true (some '/') (Draft.start.push .foldersFirst) _ = _
    rw [hsplit, readTokens_plain hname]
    simp [lastOf, readTokens, Draft.addStars, Draft.push, Draft.start, Draft.folderBegins,
      Draft.endInFolders, Draft.inGroup]
  rw [ofString, folderGlob, String.toList_ofList, htokens]

/-- A star is read as one if no other follows. -/
theorem readTokens_star {lenient classes : Bool} {before : Option Char} {draft : Draft}
    {rest : List Char} (h : rest.head? ≠ some '*') :
    readTokens lenient 0 classes before draft ('*' :: rest) =
      readTokens lenient 0 classes (some '*') (draft.push .anyRun) rest := by
  rw [readTokens]
  rintro next rfl
  exact h rfl

/-- The glob of an ending is read as folders, any run and the characters of the ending. -/
theorem ofString_endingGlob {ending : List Char} (h : ∀ c ∈ ending, isPlain c) :
    ofString (endingGlob ending) =
      .ok ⟨endingGlob ending, .foldersFirst :: .anyRun :: ending.map .literal⟩ := by
  have hhead : ending.head? ≠ some '*' := fun hstar =>
    absurd (h '*' (List.mem_of_head? hstar)) (by decide)
  have htokens : tokensOf false ('*' :: '*' :: '/' :: '*' :: ending) =
      .ok (.foldersFirst :: .anyRun :: ending.map .literal) := by
    show readTokens false 0 true (some '/') (Draft.start.push .foldersFirst) ('*' :: ending) = _
    rw [readTokens_star hhead, ← List.append_nil ending, readTokens_plain h]
    simp [readTokens, Draft.push, Draft.start, Draft.inGroup]
  rw [ofString, endingGlob, String.toList_ofList, htokens]

/-! ## Languages of tokens -/

variable {parted : Bool}

/-- Leading folders take nothing or a run that a slash ends. -/
theorem spans_foldersFirst : (Token.foldersFirst.pattern parted).Spans fun run =>
    run = [] ∨ ∃ folders, run = folders ++ [slash] := by
  have hslash : (one (· == slash)).Spans (· = [slash]) := spans_word [slash]
  have hoptional := hslash.alt (spans_empty (α := UInt8))
  have hfolders := (spans_star_one fun _ : UInt8 => true).seq hslash
  rw [Token.pattern]
  refine (hoptional.alt hfolders).congr fun run => ?_
  constructor
  · rintro ((rfl | rfl) | ⟨folders, mark, rfl, -, rfl⟩)
    · exact Or.inr ⟨[], rfl⟩
    · exact Or.inl rfl
    · exact Or.inr ⟨folders, rfl⟩
  · rintro (rfl | ⟨folders, rfl⟩)
    · exact Or.inl (Or.inr rfl)
    · exact Or.inr ⟨folders, [slash], rfl, fun _ _ => rfl, rfl⟩

/-- Trailing folders take a slash and whatever follows it. -/
theorem spans_foldersLast : (Token.foldersLast.pattern parted).Spans fun run =>
    ∃ below, run = slash :: below := by
  have hslash : (one (· == slash)).Spans (· = [slash]) := spans_word [slash]
  rw [Token.pattern]
  refine (hslash.seq (spans_star_one fun _ : UInt8 => true)).congr fun run => ?_
  constructor
  · rintro ⟨mark, below, rfl, rfl, -⟩
    exact ⟨below, rfl⟩
  · rintro ⟨below, rfl⟩
    exact ⟨[slash], below, rfl, rfl, fun _ _ => rfl⟩

/-- Where slashes do not part a path, a star takes anything. -/
theorem spans_anyRun : (Token.anyRun.pattern false).Spans fun _ => True := by
  rw [Token.pattern]
  exact (spans_star_one _).congr fun run => iff_of_true (fun _ _ => rfl) trivial

/-- No tokens span the empty run. -/
theorem spans_nil : (Token.patterns parted []).Spans (· = []) := by
  rw [Token.patterns]
  exact spans_empty

/-- Tokens span the runs of the first one followed by runs of the others. -/
theorem spans_cons {token : Token} {tokens : List Token} {L M : List UInt8 → Prop}
    (h : (token.pattern parted).Spans L) (hrest : (Token.patterns parted tokens).Spans M) :
    (Token.patterns parted (token :: tokens)).Spans fun run =>
      ∃ first second, run = first ++ second ∧ L first ∧ M second := by
  rw [Token.patterns]
  exact h.seq hrest

/-- Characters that stand for themselves and the tokens after them. -/
theorem spans_literals {tokens : List Token} {L : List UInt8 → Prop}
    (h : (Token.patterns parted tokens).Spans L) (word : List Char) :
    (Token.patterns parted (word.map .literal ++ tokens)).Spans fun run =>
      ∃ rest, run = encoded word ++ rest ∧ L rest := by
  induction word with
  | nil => exact h.congr fun run => by simp [encoded]
  | cons c word ih =>
    have hword : ((Token.literal c).pattern parted).Spans (· = String.utf8EncodeChar c) := by
      rw [Token.pattern]
      exact spans_word _
    refine (spans_cons hword ih).congr fun run => ?_
    have hcons : encoded (c :: word) = String.utf8EncodeChar c ++ encoded word := List.flatMap_cons
    rw [hcons]
    constructor
    · rintro ⟨_, _, rfl, rfl, rest, rfl, hrest⟩
      exact ⟨rest, (List.append_assoc _ _ _).symm, hrest⟩
    · rintro ⟨rest, rfl, hrest⟩
      exact ⟨_, _, List.append_assoc _ _ _, rfl, rest, rfl, hrest⟩

/-! ## Matches -/

/-- A glob matches a path if the bytes of the path are in the language of its tokens. -/
theorem matchesPath_iff {glob : Glob} {L : List UInt8 → Prop}
    (h : (Token.patterns parted glob.tokens).Spans L) (hne : glob.tokens ≠ [.foldersFirst])
    (path : String) : glob.matchesPath parted path ↔ L (encoded path.toList) := by
  have hpattern : pattern parted glob.tokens = Token.patterns parted glob.tokens := by
    unfold pattern
    split
    · rename_i heq
      exact absurd heq hne
    · rfl
  rw [matchesPath, hpattern, bytes_eq, h.accepts_iff]

/-- Among the bytes of a path, a name between the slashes is found where it is in the path. -/
theorem encoded_eq_folder_iff {cs name : List Char} (h : '/' ∉ name) :
    (∃ above below, encoded cs = above ++ encoded name ++ slash :: below ∧
        (above = [] ∨ ∃ folders, above = folders ++ [slash])) ↔
      name ∈ (splitAt '/' cs).dropLast := by
  have hslash : slash = UInt8.ofNat '/'.toNat := rfl
  rw [mem_dropLast_splitAt_iff h]
  constructor
  · rintro ⟨above, below, hsplit, habove⟩
    rw [hslash] at hsplit
    obtain ⟨front, after, rfl, hfront, -⟩ := exists_append_of_encoded (by decide) hsplit
    rcases habove with rfl | ⟨folders, rfl⟩
    · obtain rfl : front = name := encoded_injective hfront
      exact ⟨[], after, rfl, Or.inl rfl⟩
    · rw [List.append_assoc, hslash, List.singleton_append] at hfront
      obtain ⟨earlier, last, rfl, -, hlast⟩ := exists_append_of_encoded (by decide) hfront
      obtain rfl : last = name := encoded_injective hlast
      exact ⟨earlier ++ ['/'], after, by simp, Or.inr ⟨earlier, rfl⟩⟩
  · rintro ⟨before, after, rfl, hbefore⟩
    have hmark : encoded ['/'] = [slash] := rfl
    refine ⟨encoded before, encoded after, ?_, ?_⟩
    · rw [encoded_append, encoded_append]
      rfl
    · rcases hbefore with rfl | ⟨earlier, rfl⟩
      · exact Or.inl rfl
      · exact Or.inr ⟨encoded earlier, by rw [encoded_append, hmark]⟩

/-- A name is a step of a path before the last one if it is a part of its text before the last
slash. -/
theorem mem_dropLast_steps_iff {name : List Char} {path : String} :
    String.ofList name ∈ (FileTree.steps path).dropLast ↔
      name ∈ (splitAt '/' path.toList).dropLast := by
  rw [FileTree.steps, ← List.map_dropLast,
    List.mem_map_of_injective fun _ _ => String.ofList_inj.mp]

/-- A folder glob matches the paths that go through a folder of its name. -/
theorem matchesPath_folderGlob_iff {name : List Char} (hplain : ∀ c ∈ name, isPlain c)
    (hslash : '/' ∉ name) :
    ∃ glob, ofString (folderGlob name) = .ok glob ∧
      ∀ path, glob.matchesPath parted path ↔
        String.ofList name ∈ (FileTree.steps path).dropLast := by
  refine ⟨_, ofString_folderGlob hplain, fun path => ?_⟩
  have hspans := spans_cons spans_foldersFirst
    (spans_literals (spans_cons (@spans_foldersLast parted) spans_nil) name)
  rw [matchesPath_iff hspans (by simp), mem_dropLast_steps_iff, ← encoded_eq_folder_iff hslash]
  constructor
  · rintro ⟨above, _, hpath, habove, _, rfl, _, _, rfl, ⟨below, rfl⟩, rfl⟩
    exact ⟨above, below, by rw [hpath]; simp, habove⟩
  · rintro ⟨above, below, hpath, habove⟩
    exact ⟨above, _, by rw [hpath, List.append_assoc], habove, _, rfl, _, _,
      (List.append_nil _).symm, ⟨below, rfl⟩, rfl⟩

/-- A glob for an ending that begins with an ASCII character matches the paths with that ending. -/
theorem matchesPath_endingGlob_iff {c : Char} {ending : List Char}
    (hplain : ∀ d ∈ c :: ending, isPlain d) (hc : c.toNat < 128) :
    ∃ glob, ofString (endingGlob (c :: ending)) = .ok glob ∧
      ∀ path, glob.matchesPath false path ↔ c :: ending <:+ path.toList := by
  refine ⟨_, ofString_endingGlob hplain, fun path => ?_⟩
  have hspans := spans_cons spans_foldersFirst
    (spans_cons spans_anyRun (spans_literals spans_nil (c :: ending)))
  rw [List.append_nil] at hspans
  rw [matchesPath_iff hspans (by simp)]
  have hcons : encoded (c :: ending) = UInt8.ofNat c.toNat :: encoded ending := by
    rw [encoded, List.flatMap_cons, utf8EncodeChar_of_ascii hc]
    rfl
  constructor
  · rintro ⟨folders, _, hpath, -, before, _, rfl, -, _, rfl, rfl⟩
    rw [List.append_nil, ← List.append_assoc, hcons] at hpath
    obtain ⟨front, back, hsplit, -, hback⟩ := exists_append_of_encoded hc hpath
    obtain rfl : back = ending := encoded_injective hback
    exact ⟨front, hsplit.symm⟩
  · rintro ⟨front, hsplit⟩
    refine ⟨[], encoded path.toList, rfl, Or.inl rfl, encoded front, encoded (c :: ending), ?_,
      trivial, [], (List.append_nil _).symm, rfl⟩
    rw [← hsplit, encoded_append]

end CallAtlas.Glob
