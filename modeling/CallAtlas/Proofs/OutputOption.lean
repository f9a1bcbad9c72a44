import CallAtlas.CommandLine.Arguments
import Mathlib.Data.List.Basic

/-!
# Arguments without the option of a file to write to

The option may be taken out of the arguments of a command: there are arguments that ask for the
same command with its result printed (`exists_printing_arguments`).  Arguments are read one by one,
and each of them is kept, or shortened, or left out, according to what it says about the option
(`exists_readOption_printing`).
-/

set_option autoImplicit false

namespace CallAtlas

/-! ## Steps one after the other -/

section Steps

variable {ε ε' α β : Type} {x : Except ε α} {f : α → Except ε β} {g : ε → ε'} {a : α} {b : β}
  {e : ε}

/-- Two steps succeed when the second does with what the first gives. -/
theorem bind_eq_ok_iff : (x >>= f) = .ok b ↔ ∃ a, x = .ok a ∧ f a = .ok b := by
  cases x <;> simp [bind, Except.bind]

/-- Two steps fail when the first does, or the second with what the first gives. -/
theorem bind_eq_error_iff :
    (x >>= f) = .error e ↔ x = .error e ∨ ∃ a, x = .ok a ∧ f a = .error e := by
  cases x <;> simp [bind, Except.bind]

/-- With its errors changed, a step fails when it did before. -/
theorem mapError_eq_error_iff {e' : ε'} :
    x.mapError g = .error e' ↔ ∃ e, x = .error e ∧ g e = e' := by
  cases x <;> simp [Except.mapError]

/-- A step that only gives a value does not fail. -/
theorem pure_ne_error : (pure a : Except ε α) ≠ .error e :=
  nofun

end Steps

namespace CommandLine

/-- The command without a file to write to. -/
def Command.printing : Command → Command
  | analyze project grammar maxDepth format =>
    analyze { project with output := none } grammar maxDepth format
  | functions project => functions { project with output := none }

/-- The draft without a file to write to. -/
def Draft.printing (draft : Draft) : Draft :=
  { draft with output := none }

/-- What has been read, without the option of a file to write to. -/
def Reading.printing (reading : Reading) : Reading :=
  (reading.1.printing, reading.2.filter (· != .output))

/-- Before anything is read, no option is to be left out. -/
theorem printing_start : Reading.printing ({}, none) = ({}, none) :=
  rfl

/-- Another option that waits for its value still waits. -/
theorem printing_of_ne {draft : Draft} {switch : Switch} (h : switch ≠ .output) :
    Reading.printing (draft, some switch) = (draft.printing, some switch) := by
  simp [Reading.printing, Option.filter_some, h]

variable {allowed : List Switch} {draft draft' : Draft} {reading reading' : Reading}
  {switch : Switch} {value arg : String} {literal literal' : Bool}

/-! ## Options one by one -/

/-- A positional argument is taken in the same way without the file to write to. -/
theorem place_printing : draft.printing.place value = Draft.printing <$> draft.place value := by
  simp only [Draft.place, map_bind, map_pure]
  rfl

/-- So is an option without a value. -/
theorem mark_printing : draft.printing.mark switch = Draft.printing <$> draft.mark switch := by
  cases switch with
  | preferStructured =>
    cases hset : draft.preferStructured <;> simp [Draft.mark, Draft.printing, hset]
  | _ => rfl

/-- So is the value of any other option. -/
theorem assign_printing (h : switch ≠ .output) :
    draft.printing.assign value switch = Draft.printing <$> draft.assign value switch := by
  cases switch with
  | output => exact absurd rfl h
  | verbose | help | version | preferStructured => rfl
  | _ =>
    simp only [Draft.assign, map_bind, map_pure]
    rfl

/-- The value of the option changes nothing else. -/
theorem printing_of_assign_output (h : draft.assign value .output = .ok draft') :
    draft'.printing = draft.printing := by
  obtain ⟨output, -, h⟩ := bind_eq_ok_iff.mp h
  obtain rfl := Except.ok.inj h
  rfl

/-! ## Arguments one by one -/

/-- What a step gives, the changed step gives changed. -/
theorem ok_of_map {α β : Type} {f : α → β} {x : Except Stop α} {y : Except Stop β} {a : α}
    (h : y = f <$> x) (hx : x = .ok a) : y = .ok (f a) := by
  rw [h, hx]
  rfl

/-- A value read in the same argument is taken in the same way. -/
theorem printing_assigned (h : switch ≠ .output) :
    (do return (← draft.printing.assign value switch, none) : Except Stop Reading) =
      Reading.printing <$>
        (do return (← draft.assign value switch, none) : Except Stop Reading) := by
  rw [assign_printing h]
  cases draft.assign value switch <;> rfl

/-- The rest of an argument is read in the same way as the value of another option. -/
theorem readValue_printing (h : switch ≠ .output) (value : List Char) :
    readValue draft.printing switch value = Reading.printing <$> readValue draft switch value := by
  unfold readValue
  split
  · rw [← printing_of_ne h]
    rfl
  · exact printing_assigned h
  · exact printing_assigned h

/-- The rest of an argument as the value of the option changes nothing else. -/
theorem printing_of_readValue_output {value : List Char}
    (h : readValue draft .output value = .ok reading) :
    reading.printing = (draft.printing, none) := by
  have hassigned : ∀ {value},
      (do return (← draft.assign value .output, none) : Except Stop Reading) =
      .ok reading → reading.printing = (draft.printing, none) := by
    intro value h
    obtain ⟨draft', hassign, h⟩ := bind_eq_ok_iff.mp h
    obtain rfl := Except.ok.inj h
    rw [← printing_of_assign_output hassign]
    rfl
  unfold readValue at h
  split at h
  · obtain rfl : (draft, some Switch.output) = reading := Except.ok.inj h
    rfl
  · exact hassigned h
  · exact hassigned h

/-- Of the letters of an argument those before that of the option are kept. -/
theorem exists_readLetters_printing {letters : List Char}
    (h : readLetters allowed draft letters = .ok reading) :
    ∃ kept, kept <+: letters ∧
      readLetters allowed draft.printing kept = .ok reading.printing := by
  induction letters generalizing draft with
  | nil =>
    obtain rfl := Except.ok.inj h
    exact ⟨[], List.prefix_refl [], rfl⟩
  | cons c letters ih =>
    rw [readLetters] at h
    cases hfind : allowed.find? (·.letter? == some c) with
    | none => simp [hfind] at h
    | some switch =>
      simp only [hfind] at h
      split_ifs at h with hvalue
      · by_cases hswitch : switch = .output
        · subst hswitch
          refine ⟨[], List.nil_prefix, ?_⟩
          rw [printing_of_readValue_output h]
          rfl
        · refine ⟨c :: letters, List.prefix_refl _, ?_⟩
          rw [readLetters, hfind]
          simp only [hvalue, if_true]
          exact ok_of_map (readValue_printing hswitch letters) h
      · obtain ⟨draft', hmark, h⟩ := bind_eq_ok_iff.mp h
        obtain ⟨kept, hkept, hread⟩ := ih h
        refine ⟨c :: kept, List.prefix_cons_inj c |>.mpr hkept, ?_⟩
        rw [readLetters, hfind]
        simp only [hvalue]
        rw [ok_of_map mark_printing hmark]
        exact hread

/-- A word is kept unless it is that of the option. -/
theorem readWord_printing {word : List Char} (h : readWord allowed draft word = .ok reading) :
    readWord allowed draft.printing word = .ok reading.printing ∨
      reading.printing = (draft.printing, none) := by
  unfold readWord at h ⊢
  cases hfind : allowed.find? (·.word == String.ofList (word.takeWhile (· != '='))) with
  | none => simp [hfind] at h
  | some switch =>
    simp only [hfind] at h ⊢
    split_ifs at h ⊢ with hvalue hrest
    · by_cases hswitch : switch = .output
      · subst hswitch
        exact Or.inr (printing_of_readValue_output h)
      · exact Or.inl (ok_of_map (readValue_printing hswitch _) h)
    · left
      obtain ⟨draft', hmark, h⟩ := bind_eq_ok_iff.mp h
      obtain rfl := Except.ok.inj h
      rw [ok_of_map mark_printing hmark]
      rfl

/-- The letters of an argument come after one hyphen, so the first of them is none. -/
theorem argumentForm_eq_letters {chars letters : List Char}
    (h : argumentForm chars = .letters letters) : ∃ c cs, letters = c :: cs ∧ c ≠ '-' := by
  unfold argumentForm at h
  split at h
  · exact absurd h nofun
  · exact absurd h nofun
  · rename_i c cs hseparator hword
    obtain rfl := ArgumentForm.letters.inj h
    refine ⟨c, cs, rfl, ?_⟩
    rintro rfl
    exact hword rfl
  · exact absurd h nofun

/-- An argument with one hyphen and more behind it has letters. -/
theorem argumentForm_hyphen {c : Char} (h : c ≠ '-') (cs : List Char) :
    argumentForm ('-' :: c :: cs) = .letters (c :: cs) := by
  unfold argumentForm
  split <;> simp_all

/-- The first of the letters of an argument are those of another one. -/
theorem exists_letters_argument {letters kept : List Char} {chars : List Char}
    (hletters : argumentForm chars = .letters letters) (hkept : kept <+: letters)
    (hne : kept ≠ []) :
    ∃ arg : String, argumentForm arg.toList = .letters kept := by
  obtain ⟨c, cs, rfl, hc⟩ := argumentForm_eq_letters hletters
  obtain ⟨d, kept, rfl⟩ := List.exists_cons_of_ne_nil hne
  obtain ⟨rfl, -⟩ := List.cons_prefix_cons.mp hkept
  exact ⟨String.ofList ('-' :: d :: kept), by rw [String.toList_ofList, argumentForm_hyphen hc]⟩

/-- Behind an option that waits for its value, the argument is kept unless that option is left
out. -/
theorem exists_readOption_printing_of_waiting
    (h : readOption allowed false (draft, some switch) arg = .ok (literal', reading')) :
    (∃ arg', readOption allowed false (Reading.printing (draft, some switch)) arg' =
        .ok (literal', reading'.printing)) ∨
      (literal' = false ∧ reading'.printing = Reading.printing (draft, some switch)) := by
  cases hform : argumentForm arg.toList with
  | plain =>
    simp only [readOption, hform] at h
    obtain ⟨draft', hassign, h⟩ := bind_eq_ok_iff.mp h
    obtain ⟨rfl, rfl⟩ := Prod.mk.inj (Except.ok.inj h)
    by_cases hswitch : switch = .output
    · subst hswitch
      right
      refine ⟨rfl, ?_⟩
      rw [Reading.printing, printing_of_assign_output hassign]
      rfl
    · left
      refine ⟨arg, ?_⟩
      rw [printing_of_ne hswitch]
      simp only [readOption, hform, ok_of_map (assign_printing hswitch) hassign]
      rfl
  | _ =>
    simp only [readOption, hform] at h
    exact absurd h nofun

/-- Where no option waits, the argument is kept or shortened, unless it sets the option that is
left out. -/
theorem exists_readOption_printing_of_ready
    (h : readOption allowed false (draft, none) arg = .ok (literal', reading')) :
    (∃ arg', readOption allowed false (draft.printing, none) arg' =
        .ok (literal', reading'.printing)) ∨
      (literal' = false ∧ reading'.printing = (draft.printing, none)) := by
  cases hform : argumentForm arg.toList with
  | separator =>
    simp only [readOption, hform] at h
    obtain ⟨rfl, rfl⟩ := Prod.mk.inj (Except.ok.inj h)
    left
    refine ⟨arg, ?_⟩
    simp only [readOption, Reading.printing, Option.filter_none, hform]
  | word word =>
    simp only [readOption, hform] at h
    obtain ⟨reading, hword, h⟩ := bind_eq_ok_iff.mp h
    obtain ⟨rfl, rfl⟩ := Prod.mk.inj (Except.ok.inj h)
    apply (readWord_printing hword).imp
    · intro hkept
      refine ⟨arg, ?_⟩
      simp only [readOption, hform]
      rw [hkept]
      rfl
    · intro hsame
      exact ⟨rfl, hsame⟩
  | letters letters =>
    simp only [readOption, hform] at h
    obtain ⟨reading, hletters, h⟩ := bind_eq_ok_iff.mp h
    obtain ⟨rfl, rfl⟩ := Prod.mk.inj (Except.ok.inj h)
    obtain ⟨kept, hkept, hread⟩ := exists_readLetters_printing hletters
    by_cases hne : kept = []
    · subst hne
      exact Or.inr ⟨rfl, (Except.ok.inj hread).symm⟩
    · obtain ⟨arg', harg⟩ := exists_letters_argument hform hkept hne
      left
      refine ⟨arg', ?_⟩
      simp only [readOption, harg]
      rw [hread]
      rfl
  | plain =>
    simp only [readOption, hform] at h
    obtain ⟨draft', hplace, h⟩ := bind_eq_ok_iff.mp h
    obtain ⟨rfl, rfl⟩ := Prod.mk.inj (Except.ok.inj h)
    left
    refine ⟨arg, ?_⟩
    simp only [readOption, hform, ok_of_map place_printing hplace]
    rfl

/-- An argument is kept or shortened, or it is left out. -/
theorem exists_readOption_printing
    (h : readOption allowed literal reading arg = .ok (literal', reading')) :
    (∃ arg', readOption allowed literal reading.printing arg' = .ok (literal', reading'.printing)) ∨
      (literal' = literal ∧ reading'.printing = reading.printing) := by
  obtain ⟨draft, waiting⟩ := reading
  cases literal with
  | true =>
    obtain ⟨draft', hplace, h⟩ := bind_eq_ok_iff.mp h
    obtain ⟨rfl, rfl⟩ := Prod.mk.inj (Except.ok.inj h)
    left
    refine ⟨arg, ?_⟩
    simp only [readOption, Reading.printing, ok_of_map place_printing hplace]
    rfl
  | false =>
    cases waiting with
    | some switch => exact exists_readOption_printing_of_waiting h
    | none => exact exists_readOption_printing_of_ready h

/-- Where arguments are read as a draft, others are read as that draft without a file to write
to. -/
theorem exists_readOptions_printing {args : List String}
    (h : readOptions allowed literal reading args = .ok draft) :
    ∃ args', readOptions allowed literal reading.printing args' = .ok draft.printing := by
  induction args generalizing literal reading with
  | nil =>
    obtain ⟨draft', waiting⟩ := reading
    cases waiting with
    | some switch => simp [readOptions] at h
    | none =>
      obtain rfl : draft' = draft := by simpa [readOptions] using h
      exact ⟨[], by simp [readOptions, Reading.printing]⟩
  | cons arg args ih =>
    rw [readOptions] at h
    cases hread : readOption allowed literal reading arg with
    | error e => simp [hread, bind, Except.bind] at h
    | ok read =>
      obtain ⟨literal', reading'⟩ := read
      rw [hread] at h
      obtain ⟨args', hargs⟩ := ih h
      rcases exists_readOption_printing hread with ⟨arg', harg⟩ | ⟨rfl, hsame⟩
      · refine ⟨arg' :: args', ?_⟩
        rw [readOptions, harg]
        exact hargs
      · rw [hsame] at hargs
        exact ⟨args', hargs⟩

/-! ## Commands -/

/-- A draft of a project without the file to write to is read as that project. -/
theorem project_printing {project : ProjectOptions} (h : draft.project = .ok project) :
    draft.printing.project = .ok { project with output := none } := by
  unfold Draft.project at h ⊢
  cases hroot : draft.root with
  | none => simp [hroot] at h
  | some root =>
    simp only [hroot] at h
    obtain rfl := Except.ok.inj h
    simp [Draft.printing, hroot]

/-- A command has arguments that ask for it without the file to write to. -/
theorem exists_readCommand_printing {name : String} {args : List String} {command : Command}
    (h : readCommand name args = .ok (.run command)) :
    ∃ args', readCommand name args' = .ok (.run command.printing) := by
  unfold readCommand at h
  split at h
  · obtain ⟨draft, hread, h⟩ := bind_eq_ok_iff.mp h
    obtain ⟨project, hproject, h⟩ := bind_eq_ok_iff.mp h
    obtain rfl := Request.run.inj (Except.ok.inj h)
    obtain ⟨args', hargs⟩ := exists_readOptions_printing hread
    rw [printing_start] at hargs
    refine ⟨args', ?_⟩
    simp only [readCommand, hargs, project_printing hproject, bind, Except.bind]
    rfl
  · obtain ⟨draft, hread, h⟩ := bind_eq_ok_iff.mp h
    obtain ⟨project, hproject, h⟩ := bind_eq_ok_iff.mp h
    obtain rfl := Request.run.inj (Except.ok.inj h)
    obtain ⟨args', hargs⟩ := exists_readOptions_printing hread
    rw [printing_start] at hargs
    refine ⟨args', ?_⟩
    simp only [readCommand, hargs, project_printing hproject, bind, Except.bind]
    rfl
  · exact absurd h nofun
  · split at h
    · exact absurd h nofun
    · exact absurd h nofun
  · exact absurd h nofun

/-- Where arguments ask for a command, others ask for the same command with its result printed. -/
theorem exists_printing_arguments {args : List String} {command : Command}
    (h : request? args = some (.run command)) :
    ∃ args', request? args' = some (.run command.printing) := by
  have hread : readArguments args = .ok (.run command) := by
    unfold request? at h
    split at h <;> simp_all
  have hexists : ∃ args', readArguments args' = .ok (.run command.printing) := by
    clear h
    induction args with
    | nil => exact absurd hread nofun
    | cons arg args ih =>
      cases hform : argumentForm arg.toList with
      | separator =>
        simp only [readArguments, hform] at hread
        exact absurd hread nofun
      | word word =>
        simp only [readArguments, hform] at hread
        obtain ⟨reading, hword, hread⟩ := bind_eq_ok_iff.mp hread
        obtain ⟨args', hargs⟩ := ih hread
        exact ⟨arg :: args', by simp only [readArguments, hform, hword]; exact hargs⟩
      | letters letters =>
        simp only [readArguments, hform] at hread
        obtain ⟨reading, hletters, hread⟩ := bind_eq_ok_iff.mp hread
        obtain ⟨args', hargs⟩ := ih hread
        exact ⟨arg :: args', by simp only [readArguments, hform, hletters]; exact hargs⟩
      | plain =>
        simp only [readArguments, hform] at hread
        obtain ⟨args', hargs⟩ := exists_readCommand_printing hread
        exact ⟨arg :: args', by simp only [readArguments, hform, hargs]⟩
  obtain ⟨args', hargs⟩ := hexists
  exact ⟨args', by rw [request?, hargs]⟩

end CommandLine

end CallAtlas
