/-
Chosen settings.  The settings of a command line hold what was chosen last for each option.  So
the order of groups for different options makes no difference, and every choice of settings has
a command line.
-/
import Chip8.Proofs.LastWrite
import Chip8.Proofs.Options
import Chip8.Proofs.Reading
import Mathlib.Tactic.Choose

namespace Chip8.CommandLine

/-- The number when nothing is said. -/
def Quantity.default : Quantity → Int
  | .scale => 15
  | .clock => 700
  | .tone => 440
  | .steps => 1000

namespace Group

def switch : Group → Switch
  | .number quantity _ _ => quantity.switch
  | .level _ _ _ => .logLevel
  | .flag chosen => chosen.switch

/-- The number that a group chooses, if it is for that quantity. -/
def number? (quantity : Quantity) : Group → Option Int
  | .number chosen numeral _ => if chosen = quantity then some numeral.value else none
  | .level _ _ _ | .flag _ => none

/-- The level that a group chooses. -/
def level? : Group → Option String
  | .level name _ _ => some name
  | .number _ _ _ | .flag _ => none

end Group

namespace Line

/-- The groups for an option. -/
def groupsFor (line : Line) (option : Switch) : List Group :=
  line.groups.filter fun group => group.switch = option

/-- What a line chooses: of each number and of the level what the last group for it says, the
flags that have a group, and the program. -/
structure Chooses (line : Line) (settings : Settings) : Prop where
  number : ∀ quantity : Quantity, quantity.get settings =
    some ((line.groups.filterMap (Group.number? quantity)).getLast?.getD quantity.default)
  level : settings.logLevel =
    some ((line.groups.filterMap Group.level?).getLast?.getD "WARNING")
  flag : ∀ flag : Flag, flag.get settings = true ↔ Group.flag flag ∈ line.groups
  program : settings.romPath = line.path?
  rate : settings.timerHz = 60

end Line

/-! ### Settings -/

section Settings

variable {line : Line}

theorem Quantity.get_choose (quantity : Quantity) (settings : Settings) (group : Group) :
    quantity.get (group.choose settings) =
      (group.number? quantity).or (quantity.get settings) := by
  cases group with
  | number chosen numeral spelling => cases chosen <;> cases quantity <;> rfl
  | level name hname spelling => rfl
  | flag chosen => cases chosen <;> rfl

theorem Group.logLevel_choose (settings : Settings) (group : Group) :
    (group.choose settings).logLevel = group.level?.or settings.logLevel := by
  cases group with
  | number quantity numeral spelling => cases quantity <;> rfl
  | level name hname spelling => rfl
  | flag chosen => cases chosen <;> rfl

theorem Flag.get_choose (flag : Flag) (settings : Settings) (group : Group) :
    flag.get (group.choose settings) = true ↔
      flag.get settings = true ∨ .flag flag = group := by
  cases group with
  | number quantity numeral spelling =>
      cases quantity <;> cases flag <;> simp [get, Group.choose, Quantity.set]
  | level name hname spelling => cases flag <;> simp [get, Group.choose]
  | flag chosen => cases chosen <;> cases flag <;> simp [get, Group.choose, raise]

theorem Flag.get_foldl_choose (flag : Flag) (groups : List Group) (settings : Settings) :
    flag.get (groups.foldl Group.choose settings) = true ↔
      flag.get settings = true ∨ .flag flag ∈ groups := by
  induction groups generalizing settings with
  | nil => simp
  | cons group rest ih => rw [List.foldl_cons, ih, flag.get_choose, List.mem_cons, or_assoc]

/-- The settings of a line are those that it chooses. -/
theorem Line.Short.chooses_settings (hshort : line.Short) : line.Chooses line.settings where
  number quantity := by
    rw [Line.settings, ← foldl_choose_romPath]
    exact part_foldl_eq_some_last (fun settings => quantity.get settings)
      (Group.number? quantity) quantity.get_choose (by cases quantity <;> rfl) line.groups
  level := by
    rw [Line.settings, ← foldl_choose_romPath]
    exact part_foldl_eq_some_last Settings.logLevel Group.level? Group.logLevel_choose rfl
      line.groups
  flag flag := by
    rw [Line.settings, ← foldl_choose_romPath, flag.get_foldl_choose]
    cases flag <;> simp [Flag.get]
  program := rfl
  rate := timerHz_read (read_arguments hshort)

theorem eq_of_get {first second : Settings}
    (hnumber : ∀ quantity : Quantity, quantity.get first = quantity.get second)
    (hlevel : first.logLevel = second.logLevel)
    (hflag : ∀ flag : Flag, flag.get first = true ↔ flag.get second = true)
    (hprogram : first.romPath = second.romPath) (hrate : first.timerHz = second.timerHz) :
    first = second := by
  have hbool (flag : Flag) : flag.get first = flag.get second :=
    Bool.eq_iff_iff.mpr (hflag flag)
  obtain ⟨⟩ := first
  obtain ⟨⟩ := second
  exact (Settings.mk.injEq ..).mpr ⟨hprogram, hnumber .scale, hnumber .clock, hrate,
    hnumber .tone, hbool .legacyStore, hbool .headless, hnumber .steps, hbool .dumpMemory,
    hlevel⟩

/-- A line chooses one settings only. -/
theorem Line.Chooses.unique {first second : Settings} (hfirst : line.Chooses first)
    (hsecond : line.Chooses second) : first = second :=
  eq_of_get (fun quantity => (hfirst.number quantity).trans (hsecond.number quantity).symm)
    (hfirst.level.trans hsecond.level.symm)
    (fun flag => (hfirst.flag flag).trans (hsecond.flag flag).symm)
    (hfirst.program.trans hsecond.program.symm) (hfirst.rate.trans hsecond.rate.symm)

/-! ### The order of groups -/

variable {other : Line}

theorem Line.filterMap_groupsFor {β : Type} {option : Switch} {write? : Group → Option β}
    (hwrite : ∀ group : Group, group.switch ≠ option → write? group = none) (line : Line) :
    (line.groupsFor option).filterMap write? = line.groups.filterMap write? := by
  rw [groupsFor, List.filterMap_filter]
  congr 1
  funext group
  by_cases hoption : group.switch = option
  · rw [decide_eq_true hoption, if_pos rfl]
  · rw [decide_eq_false hoption, if_neg Bool.false_ne_true, hwrite group hoption]

theorem Group.number?_of_switch_ne {quantity : Quantity} (group : Group)
    (hswitch : group.switch ≠ quantity.switch) : group.number? quantity = none := by
  cases group with
  | number chosen numeral spelling =>
      exact if_neg fun heq => hswitch (congrArg Quantity.switch heq)
  | level name hname spelling => rfl
  | flag chosen => rfl

theorem Group.level?_of_switch_ne (group : Group) (hswitch : group.switch ≠ .logLevel) :
    group.level? = none := by
  cases group with
  | number quantity numeral spelling => rfl
  | level name hname spelling => exact absurd rfl hswitch
  | flag chosen => rfl

theorem Line.mem_groupsFor {group : Group} :
    group ∈ line.groupsFor group.switch ↔ group ∈ line.groups := by
  simp [groupsFor]

/-- Lines with the same program, and with the same groups in the same order for each option,
choose the same settings. -/
theorem Line.Chooses.of_groupsFor {settings : Settings} (hchooses : line.Chooses settings)
    (hpath : other.path? = line.path?)
    (hgroups : ∀ option, other.groupsFor option = line.groupsFor option) :
    other.Chooses settings where
  number quantity := by
    rw [hchooses.number, ← line.filterMap_groupsFor Group.number?_of_switch_ne, ← hgroups,
      other.filterMap_groupsFor Group.number?_of_switch_ne]
  level := by
    rw [hchooses.level, ← line.filterMap_groupsFor Group.level?_of_switch_ne, ← hgroups,
      other.filterMap_groupsFor Group.level?_of_switch_ne]
  flag flag := by
    rw [hchooses.flag, ← Line.mem_groupsFor, ← hgroups, Line.mem_groupsFor]
  program := hchooses.program.trans hpath.symm
  rate := hchooses.rate

theorem Line.Short.of_groupsFor (hshort : line.Short)
    (hgroups : ∀ option, other.groupsFor option = line.groupsFor option) : other.Short := by
  intro group hmem
  refine hshort group (Line.mem_groupsFor.mp ?_)
  rw [← hgroups]
  exact Line.mem_groupsFor.mpr hmem

/-! ### Lines for all settings -/

/-- Groups for the numbers, the level, and the flags that are raised. -/
def groupsOf (numeral : Quantity → Numeral) {name : String} (known : name ∈ levelNames)
    (raised : Flag → Bool) : List Group :=
  [Quantity.scale, .clock, .tone, .steps].map
      (fun quantity => Group.number quantity (numeral quantity) .joined) ++
    .level name known .joined ::
      ([Flag.legacyStore, .headless, .dumpMemory].filter raised).map .flag

/-- A line with some groups and any program. -/
def Line.of (groups : List Group) : Option String → Line
  | none => .bare groups
  | some path => .behind groups path

section

variable {numeral : Quantity → Numeral} {name : String} {hname : name ∈ levelNames}
  {raised : Flag → Bool}

theorem filterMap_flags {β : Type} {write? : Group → Option β}
    (hwrite : ∀ flag, write? (.flag flag) = none) (flags : List Flag) :
    (flags.map Group.flag).filterMap write? = [] := by
  rw [List.filterMap_map]
  exact List.filterMap_eq_nil_iff.mpr fun flag _ => hwrite flag

theorem filterMap_number?_groupsOf (quantity : Quantity) :
    (groupsOf numeral hname raised).filterMap (Group.number? quantity) =
      [(numeral quantity).value] := by
  rw [groupsOf, List.filterMap_append, List.filterMap_cons, filterMap_flags fun _ => rfl]
  cases quantity <;> rfl

theorem filterMap_level?_groupsOf :
    (groupsOf numeral hname raised).filterMap Group.level? = [name] := by
  rw [groupsOf, List.filterMap_append, List.filterMap_cons, filterMap_flags fun _ => rfl]
  rfl

theorem flag_mem_groupsOf (flag : Flag) :
    .flag flag ∈ groupsOf numeral hname raised ↔ raised flag = true := by
  cases flag <;> simp [groupsOf]

theorem short_groupsOf (hshort : ∀ quantity, (numeral quantity).Short) :
    ∀ group ∈ groupsOf numeral hname raised, group.Short := by
  refine List.forall_mem_append.mpr ⟨?_, List.forall_mem_cons.mpr ⟨trivial, ?_⟩⟩
  · exact List.forall_mem_map.mpr fun quantity _ => hshort quantity
  · exact List.forall_mem_map.mpr fun _ _ => trivial

end

theorem exists_line {settings : Settings} (hrate : settings.timerHz = 60)
    (hlevel : ∃ name ∈ levelNames, settings.logLevel = some name)
    (hnumber : ∀ quantity : Quantity, ∃ number, quantity.get settings = some number ∧
      number.natAbs < 10 ^ Integer.digitLimit) :
    ∃ line : Line, line.Short ∧ line.Chooses settings := by
  obtain ⟨name, hname, hlevel⟩ := hlevel
  choose number hget hsmall using hnumber
  choose numeral hshort hvalue using fun quantity => Numeral.exists_short (hsmall quantity)
  let groups := groupsOf numeral hname fun flag => flag.get settings
  have hgroups (path : Option String) : (Line.of groups path).groups = groups := by
    cases path <;> rfl
  have hpath (path : Option String) : (Line.of groups path).path? = path := by
    cases path <;> rfl
  refine ⟨Line.of groups settings.romPath, ?_, ?_⟩
  · rw [Line.Short, hgroups]
    exact short_groupsOf hshort
  · refine ⟨fun quantity => ?_, ?_, fun flag => ?_, (hpath _).symm, hrate⟩
    · rw [hgroups, filterMap_number?_groupsOf, hvalue, hget]
      rfl
    · rw [hgroups, filterMap_level?_groupsOf, hlevel]
      rfl
    · rw [hgroups, flag_mem_groupsOf]

end Settings

/-! ### Command lines -/

/-- Every line is read, provided that no numeral is too long, and gives the settings that it
chooses.  The order of groups for different options makes no difference.  All settings with the
usual timer rate, a known level and numbers that are not too long have a line. -/
theorem line_gives_chosen_settings :
    (∀ line : Line, line.Short →
      ∃ settings, read line.arguments = .ok settings ∧ line.Chooses settings) ∧
    (∀ line other : Line, line.Short → other.path? = line.path? →
      (∀ option, other.groupsFor option = line.groupsFor option) →
        read other.arguments = read line.arguments) ∧
    ∀ settings : Settings, settings.timerHz = 60 →
      (∃ name ∈ levelNames, settings.logLevel = some name) →
      (∀ quantity : Quantity, ∃ number, quantity.get settings = some number ∧
        number.natAbs < 10 ^ Integer.digitLimit) →
      ∃ line : Line, line.Short ∧ read line.arguments = .ok settings := by
  refine ⟨fun line hshort => ⟨_, read_arguments hshort, hshort.chooses_settings⟩,
    fun line other hshort hpath hgroups => ?_, fun settings hrate hlevel hnumber => ?_⟩
  · have hother := hshort.of_groupsFor hgroups
    have hsame := hshort.chooses_settings.of_groupsFor hpath hgroups
    rw [read_arguments hshort, read_arguments hother, hother.chooses_settings.unique hsame]
  · obtain ⟨line, hshort, hchooses⟩ := exists_line hrate hlevel hnumber
    refine ⟨line, hshort, ?_⟩
    rw [read_arguments hshort, hshort.chooses_settings.unique hchooses]

/-- A scale that is chosen twice, first with a minus sign, the same groups in another order with
the program behind the separator, and settings whose program looks like a switch. -/
theorem line_gives_chosen_settings_game :
    let line : Line := .among [.number .scale ⟨.minus, 0, [7]⟩ .apart, .flag .headless]
      "game.ch8" (by decide +kernel)
      [.level "DEBUG" (by decide) .apart, .number .scale ⟨.plus, 3, []⟩ .joined]
    let other : Line := .behind [.flag .headless, .level "DEBUG" (by decide) .apart,
      .number .scale ⟨.minus, 0, [7]⟩ .apart, .number .scale ⟨.plus, 3, []⟩ .joined] "game.ch8"
    let looksLikeHelp : Settings :=
      { romPath := some "--help", steps := some (-20), dumpMemory := true }
    line.arguments =
        ["--scale", "-07", "--headless", "game.ch8", "--log-level", "DEBUG", "--scale=+3"] ∧
      line.Short ∧
      read line.arguments = .ok
        { romPath := some "game.ch8", scale := some 3, headless := true,
          logLevel := some "DEBUG" } ∧
      other.path? = line.path? ∧
      (∀ option, other.groupsFor option = line.groupsFor option) ∧
      read other.arguments = read line.arguments ∧
      ∃ third : Line, third.Short ∧ read third.arguments = .ok looksLikeHelp := by
  intro line other looksLikeHelp
  obtain ⟨hread, horder, hall⟩ := line_gives_chosen_settings
  have hshort : line.Short := by decide
  have hgroups (option : Switch) : other.groupsFor option = line.groupsFor option := by
    cases option <;> rfl
  obtain ⟨settings, hsettings, hchooses⟩ := hread line hshort
  obtain rfl := hchooses.unique hshort.chooses_settings
  have hsmall : 10 ^ 4 ≤ 10 ^ Integer.digitLimit :=
    Nat.pow_le_pow_right (by decide) (by decide)
  refine ⟨by decide +kernel, hshort, hsettings, rfl, hgroups,
    horder line other hshort rfl hgroups,
    hall looksLikeHelp rfl ⟨"WARNING", by decide, rfl⟩ fun quantity => ?_⟩
  cases quantity <;> exact ⟨_, rfl, Nat.lt_of_lt_of_le (by decide) hsmall⟩

/-- A scale of 4301 ones before one that would be last. -/
theorem line_with_long_numeral_refused :
    let ones : Numeral := ⟨.bare, 1, List.replicate 4300 1⟩
    let line : Line := .bare [.number .scale ones .joined,
      .number .scale ⟨.bare, 5, []⟩ .joined]
    read line.arguments = .error (.refused (.notAnInteger .scale ones.text)) ∧
      ¬ ∃ settings, read line.arguments = .ok settings ∧ line.Chooses settings := by
  intro ones line
  have hlong : ¬ ones.Short := by
    have hlength : ones.digits.length = 4301 := by
      rw [Numeral.digits, List.length_cons, List.length_replicate]
    rw [Numeral.Short, hlength]
    decide
  have hrefused : read line.arguments =
      .error (.refused (.notAnInteger .scale ones.text)) :=
    read_of_not_short (List.forall_mem_nil _) .scale hlong .joined _
  refine ⟨hrefused, ?_⟩
  rintro ⟨settings, hread, -⟩
  rw [hrefused] at hread
  cases hread

end Chip8.CommandLine
