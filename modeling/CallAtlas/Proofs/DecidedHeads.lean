import CallAtlas.Proofs.LaterDefinitions
import CallAtlas.Proofs.PatternSymbols
import CallAtlas.Proofs.TextLines

/-!
# Heads that are read in one way

A match prefers some ways to read a text over others.  For the heads of definitions and for calls
there is nothing to prefer: the parts of a match are fixed by the text and the place where it begins
(`decided_functionHead`, `decided_arrowHead`, `decided_methodHead`, `decided_call`).  So there is a
match wherever the text can be read as one, and it is that reading (`Decided.matchHere_eq`).

Mostly a part ends where the first symbol comes that cannot belong to it.  Two places need more.
The modifiers of a method look like names, but only the last name stands before the parenthesis
(`decided_methodHead`).  And `async` before the parameters of an arrow function may be a parameter
itself, but then the arrow follows at once (`not_async_twice`).
-/

set_option autoImplicit false

namespace CallAtlas

namespace Text.Probe

variable {α : Type} {p : Probe α} {before : Option α} {lead target tail rest : List α}

/-- Whether a text is read as a match of the probe with the given parts. -/
structure Reads (p : Probe α) (before : Option α) (lead target tail rest : List α) : Prop where
  lead_mem : (lead, target ++ (tail ++ rest)) ∈
    p.lead.cuts before (lead ++ (target ++ (tail ++ rest)))
  target_mem : (target, tail ++ rest) ∈
    p.target.cuts (Pattern.lastOf before lead) (target ++ (tail ++ rest))
  tail_mem : (tail, rest) ∈
    p.tail.cuts (Pattern.lastOf (Pattern.lastOf before lead) target) (tail ++ rest)

/-- A match is a reading of the input it was found in. -/
theorem reads_of_matchHere {past input : List α} {f : Found α}
    (h : p.matchHere past input = some f) :
    p.Reads past.head? f.lead f.target f.tail f.rest ∧ f.past = past ∧
      f.lead ++ (f.target ++ (f.tail ++ f.rest)) = input := by
  obtain ⟨hpast, hlead, htarget, htail⟩ := matchHere_eq_some h
  have hinput : f.lead ++ (f.target ++ (f.tail ++ f.rest)) = input := by
    rw [← Pattern.append_of_mem_cuts hlead, List.append_assoc]
  rw [List.head?_reverse] at htarget
  rw [List.head?_reverse, List.head?_reverse] at htail
  rw [List.append_assoc] at hlead htarget
  exact ⟨⟨by rwa [hinput], htarget, htail⟩, hpast, hinput⟩

/-- Whether a text is read as a match of the probe in one way at most. -/
structure Decided (p : Probe α) : Prop where
  eq_of_reads : ∀ {before : Option α} {lead target tail rest lead' target' tail' rest' : List α},
    p.Reads before lead target tail rest → p.Reads before lead' target' tail' rest' →
    lead ++ (target ++ (tail ++ rest)) = lead' ++ (target' ++ (tail' ++ rest')) →
      lead = lead' ∧ target = target' ∧ tail = tail' ∧ rest = rest'

/-- The match of a decided probe is the only reading. -/
theorem Decided.matchHere_eq (hp : p.Decided) {past : List α}
    (h : p.Reads past.head? lead target tail rest) :
    p.matchHere past (lead ++ (target ++ (tail ++ rest))) =
      some ⟨past, lead, target, tail, rest⟩ := by
  obtain ⟨hlead, htarget, htail⟩ := h
  have hfound : ∃ f, p.matchHere past (lead ++ (target ++ (tail ++ rest))) = some f := by
    apply exists_matchHere hlead
    · rw [List.head?_reverse]
      exact htarget
    · rw [List.head?_reverse, List.head?_reverse]
      exact htail
  obtain ⟨f, hf⟩ := hfound
  obtain ⟨hreads, hpast, hinput⟩ := reads_of_matchHere hf
  obtain ⟨h1, h2, h3, h4⟩ := hp.eq_of_reads hreads ⟨hlead, htarget, htail⟩ hinput
  rw [hf, ← hpast, ← h1, ← h2, ← h3, ← h4]

/-- A probe is decided if each of its parts is settled before the next. -/
theorem decided_of_settled (hlead : p.lead.Settled (p.target.opens (p.tail.opens fun _ => true)))
    (htarget : p.target.Settled (p.tail.opens fun _ => true))
    (htail : p.tail.Settled fun _ => true) : p.Decided := by
  constructor
  intro before lead target tail rest lead' target' tail' rest' h h' htext
  have hany : ∀ rest : List α, Pattern.Follows (fun _ => true) rest := fun _ _ _ => rfl
  have hopen := Pattern.follows_of_mem_cuts h.tail_mem (hany rest)
  have hopen' := Pattern.follows_of_mem_cuts h'.tail_mem (hany rest')
  have hcut := h.lead_mem
  have hcut' := h'.lead_mem
  rw [← htext] at hcut'
  obtain rfl : lead = lead' := hlead.eq_of_cuts hcut hcut'
    (Pattern.follows_of_mem_cuts h.target_mem hopen)
    (Pattern.follows_of_mem_cuts h'.target_mem hopen')
  have hmiddle := List.append_cancel_left htext
  have hcut := h.target_mem
  have hcut' := h'.target_mem
  rw [← hmiddle] at hcut'
  obtain rfl : target = target' := htarget.eq_of_cuts hcut hcut' hopen hopen'
  have hend := List.append_cancel_left hmiddle
  have hcut := h.tail_mem
  have hcut' := h'.tail_mem
  rw [← hend] at hcut'
  obtain rfl : tail = tail' := htail.eq_of_cuts hcut hcut' (hany rest) (hany rest')
  exact ⟨rfl, rfl, rfl, List.append_cancel_left hend⟩

end Text.Probe

namespace Lexical

open Text
open Text.Pattern (Settled settled_of_not_takes settled_one settled_word)

variable {c : Char} {before : Option Char} {input run rest run' rest' : List Char}

/-! ## The symbols of the parts -/

/-- A blank does not go on with an identifier. -/
theorem isIdentifierRest_of_isBlank (h : isBlank c) : isIdentifierRest c = false := by
  have hpath := isPathChar_of_isBlank h
  rw [isPathChar, Bool.or_eq_false_iff] at hpath
  exact hpath.1

/-- What goes on with an identifier is not blank. -/
theorem isBlank_of_rest (h : isIdentifierRest c) : isBlank c = false := by
  rw [← Bool.not_eq_true]
  intro hblank
  rw [isIdentifierRest_of_isBlank hblank] at h
  exact absurd h (by simp)

/-- What cannot go on with an identifier is in none. -/
theorem takes_identifier (h : isIdentifierRest c = false) : identifier.takes c = false := by
  have hstart : isIdentifierStart c = false := by
    rw [← Bool.not_eq_true]
    intro hstart
    rw [isIdentifierRest_of_start hstart] at h
    exact absurd h (by simp)
  simp [identifier, Pattern.takes, hstart, h]

/-- A symbol opens with itself only. -/
theorem opens_sym {a : Char} {next : Char → Bool} : (sym a).opens next c ↔ c = a := by
  simp [sym, Pattern.opens, Pattern.mayBegin, Pattern.nullable]

/-- Whatever comes behind a symbol, it opens with itself only. -/
theorem opens_sym_seq {a : Char} {p : Pattern Char} {next : Char → Bool} :
    ∀ c, ((sym a).seq p).opens next c → c = a := by
  intro c hc
  simpa [sym, Pattern.opens, Pattern.mayBegin, Pattern.nullable] using hc

/-- An identifier opens with a character that may begin one. -/
theorem opens_identifier {next : Char → Bool} :
    identifier.opens next c ↔ isIdentifierStart c := by
  simp [identifier, Pattern.opens, Pattern.mayBegin, Pattern.nullable]

/-- Optional blanks open with a blank or with what comes behind them. -/
theorem opens_blanks_seq {p : Pattern Char} {next : Char → Bool} :
    (blanks.seq p).opens next c ↔ isBlank c ∨ p.opens next c := by
  simp [blanks, Pattern.opens, Pattern.mayBegin, Pattern.nullable, or_assoc]

/-- An optional annotation opens with a colon or with what comes behind it. -/
theorem opens_annotation_seq {test : Char → Bool} {p : Pattern Char} {next : Char → Bool} :
    (( annotation test).seq p).opens next c ↔ c = ':' ∨ p.opens next c := by
  simp [ annotation, Pattern.optional, Pattern.all, sym, Pattern.opens, Pattern.mayBegin,
    Pattern.nullable, or_assoc]

/-- Whitespace is settled before anything that is none. -/
theorem settled_blanks {next : Char → Bool} (h : ∀ c, next c → isBlank c = false) :
    blanks.Settled next :=
  settled_of_not_takes h

/-- An annotation is settled before a character that it may not hold and that begins none. -/
theorem annotation_settled (test : Char → Bool) {stop : Char} (htest : test stop = false)
    (hstop : stop ≠ ':' ∧ isBlank stop = false) {next : Char → Bool}
    (h : ∀ c, next c → c = stop) : ( annotation test).Settled next := by
  apply settled_of_not_takes
  intro c hc
  obtain rfl := h c hc
  simp [ annotation, Pattern.optional, Pattern.all, Pattern.plus, sym, blanks, Pattern.takes, htest,
    hstop]

/-- Parameters end with the first closing parenthesis, whatever comes behind them. -/
theorem settled_parameters (next : Char → Bool) : parameters.Settled next := by
  apply (settled_one _ _).seq
  apply Settled.seq _ (settled_one _ _)
  apply settled_of_not_takes
  intro c hc
  rw [← sym, opens_sym] at hc
  simp [Pattern.takes, hc]

/-! ## Functions and calls -/

/-- What stands behind the name of a function and behind the path of a call. -/
theorem settled_opening : (Pattern.all [blanks, sym '(']).Settled fun _ => true := by
  apply (settled_blanks _).seq (settled_one _ _)
  intro c hc
  obtain rfl := opens_sym.mp hc
  decide

/-- The opening of a call begins with a blank or with the parenthesis. -/
theorem opens_opening {next : Char → Bool} :
    (Pattern.all [blanks, sym '(']).opens next c ↔ isBlank c ∨ c = '(' := by
  show (blanks.seq (sym '(')).opens next c ↔ _
  rw [opens_blanks_seq, opens_sym]

/-- The head of a function declaration is read in one way at most. -/
theorem decided_functionHead : functionHead.Decided := by
  apply Probe.decided_of_settled
  · apply Settled.seq (settled_of_not_takes fun _ _ => rfl)
    apply (settled_word _ _).seq
    apply settled_of_not_takes
    intro c hc
    have hstart : isIdentifierStart c := opens_identifier.mp hc
    have hblank : isBlank c = false := isBlank_of_rest (isIdentifierRest_of_start hstart)
    have hstar : c ≠ '*' := by
      rintro rfl
      exact absurd hstart (by decide)
    simp [Pattern.all, Pattern.optional, blanks, sym, Pattern.takes, hblank, hstar]
  · apply settled_of_not_takes
    intro c hc
    apply takes_identifier
    rcases opens_opening.mp hc with hblank | rfl
    · exact isIdentifierRest_of_isBlank hblank
    · decide
  · exact settled_opening

/-- A call is read in one way at most. -/
theorem decided_call : call.Decided := by
  apply Probe.decided_of_settled
  · exact settled_of_not_takes fun _ _ => rfl
  · apply settled_of_not_takes
    intro c hc
    have hpath : isPathChar c = false := by
      rcases opens_opening.mp hc with hblank | rfl
      · exact isPathChar_of_isBlank hblank
      · decide
    rw [isPathChar, Bool.or_eq_false_iff] at hpath
    have hidentifier := takes_identifier hpath.1
    simp only [call, dottedPath, Pattern.takes, sym, hidentifier, hpath.2, Bool.or_self]
  · exact settled_opening

/-! ## Methods -/

/-- Two ends of a list whose symbols all pass a test, with nothing that passes it before them, are
the same. -/
theorem eq_of_ends {test : Char → Bool} (h : rest ++ run = rest' ++ run')
    (hrun : ∀ a ∈ run, test a) (hrun' : ∀ a ∈ run', test a)
    (hrest : ∀ a ∈ rest.getLast?, test a = false) (hrest' : ∀ a ∈ rest'.getLast?, test a = false) :
    run = run' := by
  have hreverse := congrArg List.reverse h
  rw [List.reverse_append, List.reverse_append] at hreverse
  apply List.reverse_injective
  apply Pattern.eq_of_stops test hreverse
  · simpa using hrun
  · simpa using hrun'
  · intro a ha
    rw [List.head?_reverse] at ha
    simp [hrest a ha]
  · intro a ha
    rw [List.head?_reverse] at ha
    simp [hrest' a ha]

/-- What follows the name of a method ends in one place only. -/
theorem settled_methodTail : methodHead.tail.Settled fun _ => true := by
  have hbrace : ∀ {next : Char → Bool} c, (sym '\x7b').opens next c → c = '\x7b' :=
    fun c hc => opens_sym.mp hc
  have htyped : ( annotation fun c => c != '\x7b' && c != ';').Settled
      ((sym '\x7b').opens fun _ => true) :=
    annotation_settled _ (by decide) (by decide) hbrace
  have hend := htyped.seq (settled_one _ _)
  have hblanks := (settled_blanks fun c hc => by
    rcases opens_annotation_seq.mp hc with rfl | hc
    · decide
    · obtain rfl := hbrace c hc
      decide).seq hend
  have hparameters := (settled_parameters _).seq hblanks
  apply Settled.seq _ hparameters
  apply settled_blanks
  intro c hc
  have hopening : c = '(' := by
    simpa [parameters, Pattern.all, Pattern.opens, Pattern.mayBegin, Pattern.nullable, sym] using hc
  rw [hopening]
  decide

/-- The lead and the name of a method, with the whitespace behind it, are what stands before the
first parenthesis. -/
theorem exists_gap_of_methodHead {lead target tail : List Char}
    (h : methodHead.Reads before lead target tail rest) :
    ∃ gap after, (∀ c ∈ gap, isBlank c) ∧ tail ++ rest = gap ++ '(' :: after ∧
      '(' ∉ lead ++ target ++ gap := by
  obtain ⟨gap, after, hgap, htail⟩ := opening_of_parameters h.tail_mem
  refine ⟨gap, after, hgap, htail, ?_⟩
  simp only [List.mem_append, not_or]
  refine ⟨⟨fun hmem => ?_, fun hmem => ?_⟩, fun hmem => ?_⟩
  · exact absurd (Pattern.takes_of_mem_cuts h.lead_mem hmem) (by decide)
  · exact absurd (Pattern.takes_of_mem_cuts h.target_mem hmem) (by decide)
  · exact absurd (hgap _ hmem) (by decide)

/-- What ends in an identifier does not end in a blank. -/
theorem last_of_name {lead target : List Char} (h : IsIdentifier target) :
    ∀ a ∈ (lead ++ target).getLast?, isBlank a = false := by
  intro a ha
  have hrest := h.isIdentifierRest
  obtain ⟨c, cs, rfl, -⟩ := h
  rw [List.getLast?_append_of_ne_nil _ (List.cons_ne_nil c cs)] at ha
  exact isBlank_of_rest (hrest a (List.mem_of_getLast? ha))

/-- What stands before the name of a method ends in no character of an identifier. -/
theorem last_of_lead {lead middle : List Char}
    (h : (lead, middle) ∈ methodHead.lead.cuts before input) :
    ∀ a ∈ lead.getLast?, isIdentifierRest a = false := by
  intro a ha
  have hclear := isClear_of_methodHead h a (by
    rw [Pattern.lastOf, Option.mem_def.mp ha, Option.some_or]
    exact Option.mem_some_self a)
  rcases hclear with hblank | rfl
  · exact isIdentifierRest_of_isBlank hblank
  · decide

/-- The head of a method is read in one way at most. -/
theorem decided_methodHead : methodHead.Decided := by
  constructor
  intro before lead target tail rest lead' target' tail' rest' h h' htext
  obtain ⟨gap, after, hgap, htail, hopening⟩ := exists_gap_of_methodHead h
  obtain ⟨gap', after', hgap', htail', hopening'⟩ := exists_gap_of_methodHead h'
  have htarget := (mem_cuts_identifier_iff.mp h.target_mem).1
  have htarget' := (mem_cuts_identifier_iff.mp h'.target_mem).1
  have hbegin : lead ++ target ++ gap = lead' ++ target' ++ gap' := by
    rw [htail, htail'] at htext
    have hsplit : (lead ++ target ++ gap) ++ '(' :: after =
        (lead' ++ target' ++ gap') ++ '(' :: after' := by
      simpa using htext
    exact (eq_of_append_sep_eq hopening hopening' hsplit).1
  -- From the parenthesis back: whitespace, the name, and what is no part of a name.
  obtain rfl : gap = gap' :=
    eq_of_ends hbegin hgap hgap' (last_of_name htarget) (last_of_name htarget')
  have hnames : lead ++ target = lead' ++ target' := List.append_cancel_right hbegin
  obtain rfl : target = target' := eq_of_ends hnames htarget.isIdentifierRest
    htarget'.isIdentifierRest (last_of_lead h.lead_mem) (last_of_lead h'.lead_mem)
  obtain rfl : lead = lead' := List.append_cancel_right hnames
  have hend := List.append_cancel_left (List.append_cancel_left htext)
  have hcut := h.tail_mem
  have hcut' := h'.tail_mem
  rw [← hend] at hcut'
  obtain rfl : tail = tail' :=
    settled_methodTail.eq_of_cuts hcut hcut' (fun _ _ => rfl) (fun _ _ => rfl)
  exact ⟨rfl, rfl, rfl, List.append_cancel_left hend⟩

/-! ## Arrow functions -/

/-- What stands behind the parameters of an arrow function. -/
def arrowEnd : Pattern Char :=
  .all [blanks, annotation (· != '='), sym '=', sym '>']

/-- The `async` before the parameters of an arrow function. -/
def asyncMark : Pattern Char :=
  .seq (keyword "async") someBlanks

/-- The parameters of an arrow function and what stands behind them. -/
def arrowParameters : Pattern Char :=
  .seq (.alt parameters identifier) arrowEnd

/-- What follows the name of an arrow function falls into named parts. -/
theorem arrowHead_tail_eq : arrowHead.tail =
    .seq blanks (.seq ( annotation (· != '=')) (.seq (sym '=')
      (.seq blanks (.seq (.optional asyncMark) arrowParameters)))) :=
  rfl

/-- What stands behind the parameters begins with a blank, a colon or an equals sign. -/
theorem opens_arrowEnd {next : Char → Bool} :
    arrowEnd.opens next c ↔ isBlank c ∨ c = ':' ∨ c = '=' := by
  show (blanks.seq (( annotation (· != '=')).seq ((sym '=').seq (sym '>')))).opens next c ↔ _
  rw [opens_blanks_seq, opens_annotation_seq]
  simp [sym, Pattern.opens, Pattern.mayBegin, Pattern.nullable]

/-- The parameters begin with a parenthesis or as an identifier does. -/
theorem opens_arrowParameters {next : Char → Bool} :
    arrowParameters.opens next c ↔ c = '(' ∨ isIdentifierStart c := by
  simp [arrowParameters, parameters, identifier, Pattern.all, sym, Pattern.opens, Pattern.mayBegin,
    Pattern.nullable]

/-- What stands behind the parameters ends in one place only. -/
theorem settled_arrowEnd : arrowEnd.Settled fun _ => true := by
  have hend : ((sym '=').seq (sym '>')).Settled fun _ => true :=
    (settled_one _ _).seq (settled_one _ _)
  have htyped := (annotation_settled (· != '=') (by decide) (by decide)
    opens_sym_seq).seq hend
  apply Settled.seq _ htyped
  apply settled_blanks
  intro c hc
  rcases opens_annotation_seq.mp hc with rfl | hc
  · decide
  · obtain rfl := opens_sym_seq c hc
    decide

/-- Nothing that may stand behind the parameters goes on with an identifier. -/
theorem takes_identifier_of_opens_arrowEnd {next : Char → Bool} (h : arrowEnd.opens next c) :
    isIdentifierRest c = false := by
  rcases opens_arrowEnd.mp h with hblank | rfl | rfl
  · exact isIdentifierRest_of_isBlank hblank
  · decide
  · decide

/-- The parameters and what stands behind them end in one place only. -/
theorem settled_arrowParameters : arrowParameters.Settled fun _ => true := by
  apply Settled.seq _ settled_arrowEnd
  apply (settled_parameters _).alt
  · apply settled_of_not_takes
    intro c hc
    exact takes_identifier (takes_identifier_of_opens_arrowEnd hc)
  · intro c hc
    have hopening : c = '(' := by
      simpa [parameters, Pattern.all, Pattern.opens, Pattern.mayBegin, Pattern.nullable, sym]
        using hc
    rw [hopening, ← Bool.not_eq_true, opens_identifier]
    decide

/-- If `async` is read as the parameter, an arrow or a type follows it. -/
theorem arrow_follows_async {gap middle : List Char} (hne : gap ≠ [])
    (hgap : ∀ c ∈ gap, isBlank c) (hmiddle : ∀ c ∈ middle.head?, isBlank c = false)
    (h : (run, rest) ∈ arrowParameters.cuts before ("async".toList ++ (gap ++ middle))) :
    ∀ c ∈ middle.head?, c = ':' ∨ c = '=' := by
  obtain ⟨b, more, rfl⟩ := List.exists_cons_of_ne_nil hne
  have hb : isBlank b := hgap b List.mem_cons_self
  obtain ⟨name, tail, after, -, hname, htail⟩ := Pattern.mem_cuts_seq_iff.mp h
  have hafter : Pattern.Follows (arrowEnd.opens fun _ => true) after :=
    Pattern.follows_of_mem_cuts htail fun _ _ => rfl
  rcases Pattern.mem_cuts_alt_iff.mp hname with hname | hname
  · obtain ⟨_, _, _, -, hopening, -⟩ := Pattern.mem_cuts_seq_iff.mp hname
    obtain ⟨c, hc, -, hbegin⟩ := Pattern.mem_cuts_one_iff.mp hopening
    obtain rfl : 'a' = c := (List.cons.inj hbegin).1
    exact absurd hc (by decide)
  · obtain ⟨hidentifier, hsplit⟩ := mem_cuts_identifier_iff.mp hname
    have hasync : "async".toList = name := by
      apply Pattern.eq_of_stops isIdentifierRest hsplit.symm (List.all_eq_true.mp (by decide))
        hidentifier.isIdentifierRest
      · intro a ha
        obtain rfl : b = a := by simpa using ha
        simp [isIdentifierRest_of_isBlank hb]
      · intro a ha
        simp [takes_identifier_of_opens_arrowEnd (hafter a ha)]
    rw [← hasync] at hsplit
    obtain ⟨gap', end', middle', -, hgap', hend⟩ := Pattern.mem_cuts_seq_iff.mp htail
    obtain ⟨hsplit', hblanks'⟩ := Pattern.mem_cuts_star_one_iff.mp hgap'
    have harrow : ∀ a ∈ middle'.head?, a = ':' ∨ a = '=' := by
      intro a ha
      have hopen := Pattern.follows_of_mem_cuts hend (fun _ _ => rfl) a ha
      exact (opens_annotation_seq.mp hopen).imp_right (opens_sym_seq a)
    have hrest : (b :: more) ++ middle = gap' ++ middle' := by
      rw [hsplit', List.append_cancel_left hsplit]
    have hgaps : b :: more = gap' := by
      apply Pattern.eq_of_stops isBlank hrest hgap hblanks'
      · intro a ha
        simp [hmiddle a ha]
      · intro a ha
        rcases harrow a ha with rfl | rfl <;> decide
    rw [hgaps] at hrest
    rwa [List.append_cancel_left hrest]

/-- A text that is read with `async` before the parameters is not read with `async` as the
parameter. -/
theorem not_async_twice (h : (run, rest) ∈ (asyncMark.seq arrowParameters).cuts before input) :
    (run', rest') ∉ arrowParameters.cuts before input := by
  intro h'
  obtain ⟨mark, params, middle, -, hmark, hparams⟩ := Pattern.mem_cuts_seq_iff.mp h
  obtain ⟨word, gap, _, rfl, hword, hgap⟩ := Pattern.mem_cuts_seq_iff.mp hmark
  obtain rfl : word = "async".toList := Pattern.eq_of_mem_cuts_word hword
  obtain ⟨hne, -, hblanks⟩ := Pattern.mem_cuts_plus_one_iff.mp hgap
  have hopen : Pattern.Follows (arrowParameters.opens fun _ => true) middle :=
    Pattern.follows_of_mem_cuts hparams fun _ _ => rfl
  have hmiddle : ∀ c ∈ middle.head?, isBlank c = false := by
    intro c hc
    rcases opens_arrowParameters.mp (hopen c hc) with rfl | hstart
    · decide
    · exact isBlank_of_rest (isIdentifierRest_of_start hstart)
  have hinput : "async".toList ++ (gap ++ middle) = input := by
    simpa using Pattern.append_of_mem_cuts hmark
  rw [← hinput] at h'
  have harrow := arrow_follows_async hne hblanks hmiddle h'
  cases middle with
  | nil =>
    obtain ⟨rfl, -⟩ := List.append_eq_nil_iff.mp (Pattern.append_of_mem_cuts hparams)
    exact absurd (Pattern.nullable_of_mem_cuts hparams) (by decide)
  | cons a middle =>
    rcases harrow a rfl with rfl | rfl <;>
      rcases opens_arrowParameters.mp (hopen _ rfl) with h | h <;> revert h <;> decide

/-- So they do with or without `async` before them, since that word is not read in two ways. -/
theorem settled_arrowBody :
    (Pattern.seq (.optional asyncMark) arrowParameters).Settled fun _ => true := by
  have hmark : asyncMark.Settled (arrowParameters.opens fun _ => true) := by
    apply (settled_word _ _).seq
    apply settled_of_not_takes
    intro c hc
    have hblank : isBlank c = false := by
      rcases opens_arrowParameters.mp hc with rfl | hstart
      · decide
      · exact isBlank_of_rest (isIdentifierRest_of_start hstart)
    simp [someBlanks, Pattern.plus, Pattern.takes, hblank]
  have hcases : ∀ {before input run rest},
      (run, rest) ∈ (Pattern.seq (.optional asyncMark) arrowParameters).cuts before input →
        (run, rest) ∈ (asyncMark.seq arrowParameters).cuts before input ∨
          (run, rest) ∈ arrowParameters.cuts before input := by
    intro before input run rest h
    obtain ⟨first, second, middle, rfl, hfirst, hsecond⟩ := Pattern.mem_cuts_seq_iff.mp h
    rcases Pattern.mem_cuts_alt_iff.mp hfirst with hfirst | hfirst
    · exact Or.inl (Pattern.mem_cuts_seq_iff.mpr ⟨first, second, middle, rfl, hfirst, hsecond⟩)
    · obtain ⟨rfl, rfl⟩ := Pattern.mem_cuts_empty_iff.mp hfirst
      exact Or.inr hsecond
  constructor
  intro before input run rest run' rest' hcut hcut' hrest hrest'
  rcases hcases hcut with hcut | hcut <;> rcases hcases hcut' with hcut' | hcut'
  · exact (hmark.seq settled_arrowParameters).eq_of_cuts hcut hcut' hrest hrest'
  · exact absurd hcut' (not_async_twice hcut)
  · exact absurd hcut (not_async_twice hcut')
  · exact settled_arrowParameters.eq_of_cuts hcut hcut' hrest hrest'

/-- With or without `async`, they begin with its first letter, a parenthesis or an identifier. -/
theorem opens_arrowBody {next : Char → Bool} :
    (Pattern.seq (.optional asyncMark) arrowParameters).opens next c ↔
      c = 'a' ∨ c = '(' ∨ isIdentifierStart c := by
  have hparameters : arrowParameters.opens next c ↔ _ := opens_arrowParameters
  rw [← hparameters]
  simp [Pattern.optional, asyncMark, keyword, Pattern.word, Pattern.all, Pattern.opens,
    Pattern.mayBegin, Pattern.nullable, or_assoc]

/-- What follows the name of an arrow function ends in one place only. -/
theorem settled_arrowTail : arrowHead.tail.Settled fun _ => true := by
  have hblanks : (blanks.seq (.seq (.optional asyncMark) arrowParameters)).Settled
      fun _ => true := by
    apply (settled_blanks _).seq settled_arrowBody
    intro c hc
    rcases opens_arrowBody.mp hc with rfl | rfl | hstart
    · decide
    · decide
    · exact isBlank_of_rest (isIdentifierRest_of_start hstart)
  have hequals : ((sym '=').seq (blanks.seq (.seq (.optional asyncMark) arrowParameters))).Settled
      fun _ => true :=
    (settled_one _ _).seq hblanks
  have htyped := (annotation_settled (· != '=') (by decide) (by decide)
    opens_sym_seq).seq hequals
  rw [arrowHead_tail_eq]
  apply (settled_blanks _).seq htyped
  intro c hc
  rcases opens_annotation_seq.mp hc with rfl | hc
  · decide
  · obtain rfl := opens_sym_seq c hc
    decide

/-- The keywords that bind an arrow function to a name begin with different letters. -/
theorem settled_binding (next : Char → Bool) :
    (Pattern.any [keyword "const", keyword "let", keyword "var"]).Settled next := by
  apply (settled_word _ _).alt ((settled_word _ _).alt (settled_word _ _) _)
  · intro c hc
    obtain rfl : c = 'c' := by
      simpa [Pattern.word, Pattern.all, Pattern.opens, Pattern.mayBegin, Pattern.nullable] using hc
    rfl
  · intro c hc
    obtain rfl : c = 'l' := by
      simpa [Pattern.word, Pattern.all, Pattern.opens, Pattern.mayBegin, Pattern.nullable] using hc
    rfl

/-- The head of an arrow function is read in one way at most. -/
theorem decided_arrowHead : arrowHead.Decided := by
  apply Probe.decided_of_settled _ _ settled_arrowTail
  · apply Settled.seq (settled_of_not_takes fun _ _ => rfl)
    apply (settled_binding _).seq
    apply settled_of_not_takes
    intro c hc
    have hblank : isBlank c = false :=
      isBlank_of_rest (isIdentifierRest_of_start (opens_identifier.mp hc))
    simp [someBlanks, Pattern.plus, Pattern.all, Pattern.takes, hblank]
  · apply settled_of_not_takes
    intro c hc
    apply takes_identifier
    rw [arrowHead_tail_eq, opens_blanks_seq, opens_annotation_seq] at hc
    rcases hc with hblank | rfl | hc
    · exact isIdentifierRest_of_isBlank hblank
    · decide
    · obtain rfl := opens_sym_seq c hc
      decide

end Lexical

end CallAtlas
