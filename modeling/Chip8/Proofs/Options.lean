/-
Command lines of options.  A line is made of groups, each an option with its value, and at most
one program, which stands among the groups or behind the separator.  It is read, and its groups
make their choices in order.
-/
import Chip8.CommandLine.Reader
import Chip8.Proofs.Arguments

namespace Chip8.CommandLine

/-- The settings that are numbers. -/
inductive Quantity
  | scale
  | clock
  | tone
  | steps
deriving Repr, DecidableEq

namespace Quantity

def switch : Quantity → Switch
  | .scale => .scale
  | .clock => .clock
  | .tone => .tone
  | .steps => .steps

def get (settings : Settings) : Quantity → Option Int
  | .scale => settings.scale
  | .clock => settings.clockHz
  | .tone => settings.toneHz
  | .steps => settings.steps

def set (settings : Settings) (number : Int) : Quantity → Settings
  | .scale => { settings with scale := some number }
  | .clock => { settings with clockHz := some number }
  | .tone => { settings with toneHz := some number }
  | .steps => { settings with steps := some number }

end Quantity

/-- The settings that are off when nothing is said. -/
inductive Flag
  | legacyStore
  | headless
  | dumpMemory
deriving Repr, DecidableEq

namespace Flag

def switch : Flag → Switch
  | .legacyStore => .legacyStore
  | .headless => .headless
  | .dumpMemory => .dumpMemory

def get (settings : Settings) : Flag → Bool
  | .legacyStore => settings.legacyStore
  | .headless => settings.headless
  | .dumpMemory => settings.dumpMemory

def raise (settings : Settings) : Flag → Settings
  | .legacyStore => { settings with legacyStore := true }
  | .headless => { settings with headless := true }
  | .dumpMemory => { settings with dumpMemory := true }

end Flag

/-- Whether a value is joined to its switch by an equals sign or is an argument by itself. -/
inductive Spelling
  | joined
  | apart
deriving Repr, DecidableEq

namespace Spelling

def arguments (switch : Switch) (value : String) : Spelling → List String
  | .joined => [switch.longName ++ "=" ++ value]
  | .apart => [switch.longName, value]

def tokens (switch : Switch) (value : String) : Spelling → List Token
  | .joined => [.named switch (some value)]
  | .apart => [.named switch none, .plain value]

end Spelling

/-- An option with its value. -/
inductive Group
  | number (quantity : Quantity) (numeral : Numeral) (spelling : Spelling)
  | level (name : String) (known : name ∈ levelNames) (spelling : Spelling)
  | flag (chosen : Flag)
deriving DecidableEq

namespace Group

def arguments : Group → List String
  | .number quantity numeral spelling => spelling.arguments quantity.switch numeral.text
  | .level name _ spelling => spelling.arguments .logLevel name
  | .flag chosen => [chosen.switch.longName]

def tokens : Group → List Token
  | .number quantity numeral spelling => spelling.tokens quantity.switch numeral.text
  | .level name _ spelling => spelling.tokens .logLevel name
  | .flag chosen => [.named chosen.switch none]

/-- Make the choice of a group. -/
def choose (settings : Settings) : Group → Settings
  | .number quantity numeral _ => quantity.set settings numeral.value
  | .level name _ _ => { settings with logLevel := some name }
  | .flag chosen => chosen.raise settings

/-- Whether the numeral of a group, if it has one, is short enough to be read. -/
def Short : Group → Prop
  | .number _ numeral _ => numeral.Short
  | .level _ _ _ | .flag _ => True

instance : (group : Group) → Decidable group.Short
  | .number _ numeral _ => inferInstanceAs (Decidable numeral.Short)
  | .level _ _ _ | .flag _ => isTrue trivial

end Group

/-- A command line of groups and at most one program. -/
inductive Line
  /-- No program. -/
  | bare (groups : List Group)
  /-- A program that does not start with a dash, anywhere between groups. -/
  | among (before : List Group) (path : String) (plain : path.toList.head? ≠ some '-')
      (after : List Group)
  /-- Any program behind the separator, at the end. -/
  | behind (groups : List Group) (path : String)

namespace Line

def groups : Line → List Group
  | .bare groups | .behind groups _ => groups
  | .among before _ _ after => before ++ after

def path? : Line → Option String
  | .bare _ => none
  | .among _ path _ _ | .behind _ path => some path

def arguments : Line → List String
  | .bare groups => groups.flatMap Group.arguments
  | .among before path _ after =>
      before.flatMap Group.arguments ++ path :: after.flatMap Group.arguments
  | .behind groups path => groups.flatMap Group.arguments ++ ["--", path]

def tokens : Line → List Token
  | .bare groups => groups.flatMap Group.tokens
  | .among before path _ after =>
      before.flatMap Group.tokens ++ .plain path :: after.flatMap Group.tokens
  | .behind groups path => groups.flatMap Group.tokens ++ [.separator, .plain path]

/-- The settings after all groups have made their choices in order. -/
def settings (line : Line) : Settings :=
  { line.groups.foldl Group.choose {} with romPath := line.path? }

def Short (line : Line) : Prop :=
  ∀ group ∈ line.groups, group.Short

instance (line : Line) : Decidable line.Short :=
  inferInstanceAs (Decidable (∀ group ∈ line.groups, group.Short))

end Line

/-! ### Tokens -/

section Tokens

variable {value : String}

theorem ofArguments_cons {argument : String} {token : Token}
    (htoken : Token.ofChars argument.toList = .ok token) (rest : List String) :
    Token.ofArguments (argument :: rest) = (Token.ofArguments rest).map (token :: ·) := by
  have hseparator : argument ≠ "--" := by
    rintro rfl
    cases htoken
  rw [Token.ofArguments, if_neg hseparator, htoken]
  cases Token.ofArguments rest <;> rfl

theorem ofChars_program {path : String} (hpath : path.toList.head? ≠ some '-') :
    Token.ofChars path.toList = .ok (.plain path) := by
  rw [Token.ofChars_of_head hpath, String.ofList_toList]

theorem ofChars_level {name : String} (hname : name ∈ levelNames) :
    Token.ofChars name.toList = .ok (.plain name) := by
  refine ofChars_program ?_
  revert name
  decide +kernel

theorem Spelling.ofArguments_append (spelling : Spelling) (switch : Switch)
    (hvalue : Token.ofChars value.toList = .ok (.plain value)) (rest : List String) :
    Token.ofArguments (spelling.arguments switch value ++ rest) =
      (Token.ofArguments rest).map (spelling.tokens switch value ++ ·) := by
  cases spelling with
  | joined =>
      refine ofArguments_cons ?_ rest
      have hattached := Token.ofChars_attached switch value.toList
      rw [String.ofList_toList] at hattached
      simpa using hattached
  | apart =>
      calc Token.ofArguments (switch.longName :: value :: rest)
        _ = ((Token.ofArguments rest).map (.plain value :: ·)).map (.named switch none :: ·) := by
            rw [ofArguments_cons (Token.ofChars_longName switch), ofArguments_cons hvalue]
        _ = _ := by cases Token.ofArguments rest <;> rfl

theorem Group.ofArguments_append (group : Group) (rest : List String) :
    Token.ofArguments (group.arguments ++ rest) =
      (Token.ofArguments rest).map (group.tokens ++ ·) := by
  cases group with
  | number quantity numeral spelling =>
      exact spelling.ofArguments_append _ (Token.ofChars_numeral numeral) rest
  | level name hname spelling => exact spelling.ofArguments_append _ (ofChars_level hname) rest
  | flag chosen => exact ofArguments_cons (Token.ofChars_longName chosen.switch) rest

theorem ofArguments_groups_append (groups : List Group) (rest : List String) :
    Token.ofArguments (groups.flatMap Group.arguments ++ rest) =
      (Token.ofArguments rest).map (groups.flatMap Group.tokens ++ ·) := by
  induction groups with
  | nil =>
      rw [List.flatMap_nil, List.nil_append]
      cases Token.ofArguments rest <;> rfl
  | cons group groups ih =>
      rw [List.flatMap_cons, List.append_assoc, group.ofArguments_append, ih]
      cases Token.ofArguments rest with
      | error refusal => rfl
      | ok tokens => simp [Except.map]

theorem ofArguments_groups (groups : List Group) :
    Token.ofArguments (groups.flatMap Group.arguments) =
      .ok (groups.flatMap Group.tokens) := by
  have hgroups := ofArguments_groups_append groups []
  rwa [List.append_nil, Token.ofArguments, Except.map, List.append_nil] at hgroups

theorem Line.ofArguments_arguments (line : Line) :
    Token.ofArguments line.arguments = .ok line.tokens := by
  cases line with
  | bare groups => exact ofArguments_groups groups
  | among before path hpath after =>
      rw [arguments, ofArguments_groups_append, ofArguments_cons (ofChars_program hpath),
        ofArguments_groups]
      rfl
  | behind groups path =>
      rw [arguments, ofArguments_groups_append, Token.ofArguments, if_pos rfl]
      rfl

end Tokens

/-! ### Reading -/

section Reading

variable {reading : Reading} {group : Group}

theorem Quantity.takesValue_switch (quantity : Quantity) :
    quantity.switch.takesValue = true := by
  cases quantity <;> rfl

theorem Quantity.setValue (quantity : Quantity) (numeral : Numeral) :
    reading.setValue quantity.switch numeral.text =
      if numeral.Short then
        .ok { reading with settings := quantity.set reading.settings numeral.value }
      else .error (.refused (.notAnInteger quantity.switch numeral.text)) := by
  have hblank : numeral.text ≠ blank := Numeral.text_ne (by decide)
  by_cases hshort : numeral.Short
  · have hvalue := Numeral.ofString?_text hshort
    rw [if_pos hshort]
    cases quantity <;>
      simp only [switch, Reading.setValue, Reading.setInteger, if_neg hblank, hvalue, set]
  · have hvalue := Numeral.ofString?_text_of_not_short hshort
    rw [if_neg hshort]
    cases quantity <;>
      simp only [switch, Reading.setValue, Reading.setInteger, if_neg hblank, hvalue]

theorem setValue_level {name : String} (hname : name ∈ levelNames) :
    reading.setValue .logLevel name =
      .ok { reading with settings.logLevel := some name } := by
  have hblank : name ≠ blank := by
    revert name
    decide +kernel
  rw [Reading.setValue, Reading.setLevel, if_neg hblank,
    if_pos (List.contains_iff_mem.mpr hname)]

theorem Flag.readTokens_cons (flag : Flag) (rest : List Token) :
    reading.readTokens (.named flag.switch none :: rest) =
      { reading with settings := flag.raise reading.settings }.readTokens rest := by
  have hswitch : flag.switch.takesValue = false := by cases flag <;> rfl
  have hflag : reading.setFlag flag.switch =
      .ok { reading with settings := flag.raise reading.settings } := by
    cases flag <;> rfl
  rw [Reading.readTokens.eq_def]
  simp only [hswitch, Bool.false_eq_true, if_false, hflag]
  rfl

theorem Spelling.readTokens_append (spelling : Spelling) {switch : Switch} {value : String}
    (hswitch : switch.takesValue = true) (rest : List Token) :
    reading.readTokens (spelling.tokens switch value ++ rest) =
      reading.setValue switch value >>= fun next => next.readTokens rest := by
  cases spelling with
  | joined => rfl
  | apart =>
      rw [tokens, List.cons_append, List.cons_append, Reading.readTokens, if_pos hswitch]
      rfl

theorem Group.readTokens_append (hshort : group.Short) (rest : List Token) :
    reading.readTokens (group.tokens ++ rest) =
      { reading with settings := group.choose reading.settings }.readTokens rest := by
  cases group with
  | number quantity numeral spelling =>
      have hnumeral : numeral.Short := hshort
      rw [tokens, spelling.readTokens_append quantity.takesValue_switch, quantity.setValue,
        if_pos hnumeral]
      rfl
  | level name hname spelling =>
      rw [tokens, spelling.readTokens_append rfl, setValue_level hname]
      rfl
  | flag chosen => exact chosen.readTokens_cons rest

theorem readTokens_groups_append {groups : List Group}
    (hshort : ∀ group ∈ groups, group.Short) (reading : Reading) (rest : List Token) :
    reading.readTokens (groups.flatMap Group.tokens ++ rest) =
      { reading with
        settings := groups.foldl Group.choose reading.settings }.readTokens rest := by
  induction groups generalizing reading with
  | nil => rfl
  | cons group groups ih =>
      obtain ⟨hgroup, hgroups⟩ := List.forall_mem_cons.mp hshort
      rw [List.flatMap_cons, List.append_assoc, Group.readTokens_append hgroup, ih hgroups]
      rfl

theorem readTokens_groups {groups : List Group} (hshort : ∀ group ∈ groups, group.Short)
    (reading : Reading) :
    reading.readTokens (groups.flatMap Group.tokens) =
      .ok { reading with settings := groups.foldl Group.choose reading.settings } := by
  have hgroups := readTokens_groups_append hshort reading []
  rwa [List.append_nil, Reading.readTokens] at hgroups

/-- A program is taken when none is known yet and no separator follows it. -/
theorem readTokens_program (hknown : reading.programKnown = false) (path : String)
    {rest : List Token} (hrest : rest.head? ≠ some .separator) :
    reading.readTokens (.plain path :: rest) = (reading.setProgram path).readTokens rest := by
  rw [Reading.readTokens.eq_8 _ _ _ fun more hmore => hrest (by rw [hmore]; rfl),
    if_neg (Bool.eq_false_iff.mp hknown)]

theorem head?_tokens (groups : List Group) :
    (groups.flatMap Group.tokens).head? ≠ some .separator := by
  cases groups with
  | nil => exact nofun
  | cons group rest =>
      rw [List.flatMap_cons]
      cases group with
      | number _ _ spelling | level _ _ spelling => cases spelling <;> exact nofun
      | flag chosen => exact nofun

theorem Group.choose_romPath (path : Option String) (settings : Settings) (group : Group) :
    choose { settings with romPath := path } group =
      { choose settings group with romPath := path } := by
  cases group with
  | number quantity numeral spelling => cases quantity <;> rfl
  | level name hname spelling => rfl
  | flag chosen => cases chosen <;> rfl

/-- No group acts on the program, so it may be set before or behind them. -/
theorem foldl_choose_romPath (path : Option String) (groups : List Group)
    (settings : Settings) :
    groups.foldl Group.choose { settings with romPath := path } =
      { groups.foldl Group.choose settings with romPath := path } := by
  induction groups generalizing settings with
  | nil => rfl
  | cons group rest ih => rw [List.foldl_cons, Group.choose_romPath, ih, List.foldl_cons]

theorem readTokens_line {line : Line} (hshort : line.Short) :
    ({} : Reading).readTokens line.tokens =
      .ok { settings := line.settings, programKnown := line.path?.isSome } := by
  cases line with
  | bare groups =>
      have hgroups : ∀ group ∈ groups, group.Short := hshort
      rw [Line.tokens, readTokens_groups hgroups, Line.settings, Line.groups, Line.path?,
        ← foldl_choose_romPath]
      rfl
  | among before path hpath after =>
      obtain ⟨hbefore, hafter⟩ := List.forall_mem_append.mp hshort
      rw [Line.tokens, readTokens_groups_append hbefore,
        readTokens_program rfl path (head?_tokens after), readTokens_groups hafter]
      simp only [Reading.setProgram, foldl_choose_romPath, ← List.foldl_append]
      rfl
  | behind groups path =>
      have hgroups : ∀ group ∈ groups, group.Short := hshort
      rw [Line.tokens, readTokens_groups_append hgroups]
      rfl

end Reading

theorem read_of_readTokens {line : Line} {result : Except Stop Reading}
    (htokens : ({} : Reading).readTokens line.tokens = result) :
    read line.arguments = result >>= fun reading =>
      if reading.surplus.isEmpty then .ok reading.settings
      else .error (.refused (.unrecognized reading.surplus.reverse)) := by
  rw [read, line.ofArguments_arguments, ← htokens]
  rfl

/-- A line is read, and its groups make their choices in order. -/
theorem read_arguments {line : Line} (hshort : line.Short) :
    read line.arguments = .ok line.settings :=
  read_of_readTokens (readTokens_line hshort)

/-- A numeral that is too long is refused, whatever follows it. -/
theorem read_of_not_short {before : List Group} (hbefore : ∀ group ∈ before, group.Short)
    (quantity : Quantity) {numeral : Numeral} (hlong : ¬ numeral.Short) (spelling : Spelling)
    (after : List Group) :
    read (Line.bare (before ++ .number quantity numeral spelling :: after)).arguments =
      .error (.refused (.notAnInteger quantity.switch numeral.text)) := by
  have htokens : ({} : Reading).readTokens
      (Line.bare (before ++ .number quantity numeral spelling :: after)).tokens =
        .error (.refused (.notAnInteger quantity.switch numeral.text)) := by
    rw [Line.tokens, List.flatMap_append, List.flatMap_cons, readTokens_groups_append hbefore,
      Group.tokens, spelling.readTokens_append quantity.takesValue_switch, quantity.setValue,
      if_neg hlong]
    rfl
  exact read_of_readTokens htokens

end Chip8.CommandLine
