/-
The run of the maze.  `Drawing` lists the points of the program with what holds at each,
and with a bound on the steps that are left; a step leads from point to point and makes
the bound smaller, and whatever a host does between the steps reaches only the keypad.  So
the program comes to its last jump, with the picture complete, and stays there.
-/
import Chip8.Proofs.MazeProgram

namespace Chip8.Maze

variable {setup : Setup} {random : Nat → Int} {state : State} {keypad : Keypad}
  {history : List Event}

/-- The most steps that are left when the program starts on a tile.  A row of tiles takes
131 at most: eight for a tile, and three more for the next row. -/
def budget (tile : Nat) : Nat :=
  131 * (8 - tile / 16) - 8 * (tile % 16)

/-- The points of the program, each with the most steps that are left. -/
inductive Drawing (random : Nat → Int) : Nat → State → Prop
  | start {index column row coin} :
      Drawing random 1050 ⟨0x200, index, column, row, coin, Display.blank, 0⟩
  | firstRow {index row coin} :
      Drawing random 1049 ⟨0x202, index, 0, row, coin, Display.blank, 0⟩
  | tile {tile index coin display} (htile : tile < 128) (hshows : Shows random tile display) :
      Drawing random (budget tile) ⟨0x204, index, .ofNat (left tile), .ofNat (top tile),
        coin, display, tile⟩
  | toss {tile coin display} (htile : tile < 128) (hshows : Shows random tile display) :
      Drawing random (budget tile - 1) ⟨0x206, 0x222, .ofNat (left tile),
        .ofNat (top tile), coin, display, tile⟩
  | tossed {tile display} (htile : tile < 128) (hshows : Shows random tile display) :
      Drawing random (budget tile - 2) ⟨0x208, 0x222, .ofNat (left tile),
        .ofNat (top tile), coinOf (random tile), display, tile + 1⟩
  | even {tile coin display} (htile : tile < 128) (hshows : Shows random tile display)
      (heven : random tile % 2 = 0) :
      Drawing random (budget tile - 3) ⟨0x20A, 0x222, .ofNat (left tile),
        .ofNat (top tile), coin, display, tile + 1⟩
  | stroke {tile coin display} {index : Int} (htile : tile < 128)
      (hshows : Shows random tile display) (hindex : index = spriteAddress (random tile)) :
      Drawing random (budget tile - 4) ⟨0x20C, index, .ofNat (left tile),
        .ofNat (top tile), coin, display, tile + 1⟩
  | drawn {tile index coin display} (htile : tile < 128)
      (hshows : Shows random (tile + 1) display) :
      Drawing random (budget tile - 5) ⟨0x20E, index, .ofNat (left tile),
        .ofNat (top tile), coin, display, tile + 1⟩
  | edge {tile index coin display} (htile : tile < 128)
      (hshows : Shows random (tile + 1) display) :
      Drawing random (budget tile - 6) ⟨0x210, index, .ofNat (left tile) + 4,
        .ofNat (top tile), coin, display, tile + 1⟩
  /-- Either of the two jumps back. -/
  | again {pc tile index column row coin display} (hpc : pc = 0x212 ∨ pc = 0x21A)
      (htile : tile < 128) (hcolumn : column = .ofNat (left tile))
      (hrow : row = .ofNat (top tile)) (hshows : Shows random tile display) :
      Drawing random (budget tile + 1) ⟨pc, index, column, row, coin, display, tile⟩
  | rowDone {line index column row coin display} (hline : line < 8)
      (hrow : row = .ofNat (4 * line)) (hshows : Shows random (16 * (line + 1)) display) :
      Drawing random (131 * (7 - line) + 4) ⟨0x214, index, column, row, coin, display,
        16 * (line + 1)⟩
  | nextRow {line index coin display} (hline : line < 8)
      (hshows : Shows random (16 * (line + 1)) display) :
      Drawing random (131 * (7 - line) + 3) ⟨0x216, index, 0, .ofNat (4 * line), coin,
        display, 16 * (line + 1)⟩
  | bottom {line index coin display} (hline : line < 8)
      (hshows : Shows random (16 * (line + 1)) display) :
      Drawing random (131 * (7 - line) + 2) ⟨0x218, index, 0, .ofNat (4 * line) + 4, coin,
        display, 16 * (line + 1)⟩
  | done {index coin display} (hshows : Shows random 128 display) :
      Drawing random 0 ⟨0x21C, index, 0, 0x20, coin, display, 128⟩

/-- The column behind the last tile of a row is the width of the screen. -/
theorem left_add_four_eq_width_iff (tile : Nat) :
    UInt8.ofNat (left tile) + 4 = 0x40 ↔ tile % 16 = 15 := by
  have hfour : (4 : UInt8).toNat = 4 := rfl
  have hwidth : (0x40 : UInt8).toNat = 64 := rfl
  rw [← UInt8.toNat_inj, UInt8.toNat_add, toNat_ofNat_left, hfour, hwidth]
  simp only [left]
  omega

theorem left_add_four {tile : Nat} (hlast : tile % 16 ≠ 15) :
    UInt8.ofNat (left tile) + 4 = .ofNat (left (tile + 1)) := by
  have hnext : left (tile + 1) = left tile + 4 := by
    simp only [left]
    omega
  rw [hnext, UInt8.ofNat_add]
  rfl

theorem top_succ {tile : Nat} (hlast : tile % 16 ≠ 15) : top (tile + 1) = top tile := by
  simp only [top]
  omega

/-- The row behind the last one is the height of the screen. -/
theorem row_add_four_eq_height_iff {line : Nat} (hline : line < 8) :
    UInt8.ofNat (4 * line) + 4 = 0x20 ↔ line = 7 := by
  revert line
  decide

theorem row_add_four (line : Nat) :
    UInt8.ofNat (4 * line) + 4 = .ofNat (top (16 * (line + 1))) := by
  have hnext : top (16 * (line + 1)) = 4 * line + 4 := by
    simp only [top]
    omega
  rw [hnext, UInt8.ofNat_add]
  rfl

theorem coinOf_eq_one_iff (number : Int) : coinOf number = 1 ↔ ¬ number % 2 = 0 := by
  unfold coinOf
  split <;> simp [*]

/-- A step leads to another point of the program, and to a smaller bound. -/
def Advances (setup : Setup) (steps : Nat) (state : State) : Prop :=
  ∀ keypad, ∃ next, (state.vm keypad).step setup = .done (State.vm next keypad) ∧
    ∃ fewer ≤ steps - 1, Drawing setup.random fewer next

/-- The coin decides which of the two sprites the index register points at. -/
theorem advances_tossed {tile : Nat} {display : Display} (htile : tile < 128)
    (hshows : Shows setup.random tile display) :
    Advances setup (budget tile - 2) ⟨0x208, 0x222, .ofNat (left tile), .ofNat (top tile),
      coinOf (setup.random tile), display, tile + 1⟩ := by
  intro keypad
  by_cases heven : setup.random tile % 2 = 0
  · have hcoin : ¬ coinOf (setup.random tile) = 1 :=
      fun hone => (coinOf_eq_one_iff _).mp hone heven
    exact ⟨_, step_of_skip 2 1 (by simp [code]) (beq_eq_false_iff_ne.mpr hcoin), _, le_refl _,
      .even htile hshows heven⟩
  · have hcoin : coinOf (setup.random tile) = 1 := (coinOf_eq_one_iff _).mpr heven
    have hindex : 0x222 = (spriteAddress (setup.random tile) : Int) :=
      congrArg Nat.cast (if_neg heven).symm
    exact ⟨_, step_of_skip 2 1 (by simp [code]) (beq_iff_eq.mpr hcoin), _, by omega,
      .stroke htile hshows hindex⟩

/-- Behind a tile the program goes on with its neighbour, or leaves the row. -/
theorem advances_edge {tile : Nat} {index : Int} {coin : UInt8} {display : Display}
    (htile : tile < 128) (hshows : Shows setup.random (tile + 1) display) :
    Advances setup (budget tile - 6) ⟨0x210, index, .ofNat (left tile) + 4,
      .ofNat (top tile), coin, display, tile + 1⟩ := by
  intro keypad
  by_cases hlast : tile % 16 = 15
  · have hcolumn := (left_add_four_eq_width_iff tile).mpr hlast
    obtain ⟨line, rfl⟩ : ∃ line, tile = 16 * line + 15 := ⟨tile / 16, by omega⟩
    have hrow : top (16 * line + 15) = 4 * line := by
      simp only [top]
      omega
    refine ⟨_, step_of_skip 0 0x40 (by simp [code]) (beq_iff_eq.mpr hcolumn), _, ?_,
      .rowDone (by omega) (congrArg UInt8.ofNat hrow) hshows⟩
    simp only [budget]
    omega
  · have hcolumn := mt (left_add_four_eq_width_iff tile).mp hlast
    have hnext : tile + 1 < 128 := by omega
    have hrow : UInt8.ofNat (top tile) = .ofNat (top (tile + 1)) :=
      congrArg UInt8.ofNat (top_succ hlast).symm
    refine ⟨_, step_of_skip 0 0x40 (by simp [code]) (beq_eq_false_iff_ne.mpr hcolumn), _, ?_,
      .again (.inl rfl) hnext (left_add_four hlast) hrow hshows⟩
    simp only [budget]
    omega

/-- Behind a row the program goes on with the next one, or is done. -/
theorem advances_bottom {line : Nat} {index : Int} {coin : UInt8} {display : Display}
    (hline : line < 8) (hshows : Shows setup.random (16 * (line + 1)) display) :
    Advances setup (131 * (7 - line) + 2) ⟨0x218, index, 0, .ofNat (4 * line) + 4, coin,
      display, 16 * (line + 1)⟩ := by
  intro keypad
  by_cases hlast : line = 7
  · have hrow := (row_add_four_eq_height_iff hline).mpr hlast
    subst hlast
    exact ⟨_, step_of_skip 1 0x20 (by simp [code]) (beq_iff_eq.mpr hrow), 0,
      Nat.zero_le _, .done hshows⟩
  · have hrow := mt (row_add_four_eq_height_iff hline).mp hlast
    have hcolumn : left (16 * (line + 1)) = 0 := by
      simp only [left]
      omega
    have hnext : 16 * (line + 1) < 128 := by omega
    refine ⟨_, step_of_skip 1 0x20 (by simp [code]) (beq_eq_false_iff_ne.mpr hrow), _, ?_,
      .again (.inr rfl) hnext (congrArg UInt8.ofNat hcolumn.symm) (row_add_four line) hshows⟩
    simp only [budget]
    omega

/-- Every point of the program has a next one; all but the three tests are straight
lines. -/
theorem Drawing.advances {steps : Nat} (hdrawing : Drawing setup.random steps state) :
    Advances setup steps state := by
  intro keypad
  cases hdrawing with
  | start =>
      exact ⟨_, step_of_code (.setByte 0 0) (by simp [code]) rfl, _, le_refl _, .firstRow⟩
  | firstRow =>
      exact ⟨_, step_of_code (.setByte 1 0) (by simp [code]) rfl, _, le_refl _,
        .tile (by decide) (shows_blank _)⟩
  | tile htile hshows =>
      exact ⟨_, step_of_code (.setIndex 0x222) (by simp [code]) rfl, _, le_refl _,
        .toss htile hshows⟩
  | toss htile hshows =>
      exact ⟨_, step_of_random (by simp [code]), _, le_refl _, .tossed htile hshows⟩
  | tossed htile hshows => exact advances_tossed htile hshows keypad
  | even htile hshows heven =>
      have hindex : 0x21E = (spriteAddress _ : Int) := congrArg Nat.cast (if_pos heven).symm
      exact ⟨_, step_of_code (.setIndex 0x21E) (by simp [code]) rfl, _, le_refl _,
        .stroke htile hshows hindex⟩
  | @stroke tile coin display index htile hshows hindex =>
      obtain ⟨picture, hpicture, hstep⟩ := step_of_draw
        ⟨0x20C, index, .ofNat (left tile), .ofNat (top tile), coin, display, tile + 1⟩ htile
        (by simp [code]) hindex rfl rfl hshows
      exact ⟨_, hstep, _, le_refl _, .drawn htile hpicture⟩
  | drawn htile hshows =>
      exact ⟨_, step_of_code (.addByte 0 4) (by simp [code]) rfl, _, le_refl _,
        .edge htile hshows⟩
  | edge htile hshows => exact advances_edge htile hshows keypad
  | again hpc htile hcolumn hrow hshows =>
      subst hcolumn hrow
      rcases hpc with rfl | rfl
      · exact ⟨_, step_of_code (.jump 0x204) (by simp [code]) rfl, _, le_refl _,
          .tile htile hshows⟩
      · exact ⟨_, step_of_code (.jump 0x204) (by simp [code]) rfl, _, le_refl _,
          .tile htile hshows⟩
  | rowDone hline hrow hshows =>
      subst hrow
      exact ⟨_, step_of_code (.setByte 0 0) (by simp [code]) rfl, _, le_refl _,
        .nextRow hline hshows⟩
  | nextRow hline hshows =>
      exact ⟨_, step_of_code (.addByte 1 4) (by simp [code]) rfl, _, le_refl _,
        .bottom hline hshows⟩
  | bottom hline hshows => exact advances_bottom hline hshows keypad
  | done hshows =>
      exact ⟨_, step_of_code (.jump 0x21C) (by simp [code]) rfl, 0, le_refl _, .done hshows⟩

section Run

/-- What a host does between the steps reaches the keypad and nothing else, for the
timers stand still. -/
theorem handle_of_input {event : Event} (hinput : event.isInput) :
    (state.vm keypad).handle setup event =
      .done (state.vm (keypad.handle event)) := by
  cases event with
  | press number => rfl
  | release number => rfl
  | tick => rfl
  | _ => cases hinput

theorem Drawing.handle {steps : Nat} (hdrawing : Drawing setup.random steps state)
    {event : Event} (hevent : event = .step ∨ event.isInput) :
    ∃ next pad, (state.vm keypad).handle setup event = .done (next.vm pad) ∧
      ∃ fewer ≤ steps - [event].count .step, Drawing setup.random fewer next := by
  rcases hevent with rfl | hinput
  · obtain ⟨next, hstep, hnext⟩ := hdrawing.advances keypad
    exact ⟨next, keypad, hstep, hnext⟩
  · have hquiet : [event].count .step = 0 := by
      cases event with
      | step => cases hinput
      | _ => rfl
    exact ⟨state, _, handle_of_input hinput, steps, by omega, hdrawing⟩

/-- Every event goes through, and the steps use up the bound. -/
theorem Drawing.run {steps : Nat} (hdrawing : Drawing setup.random steps state)
    (keypad : Keypad) (hplay : ∀ event ∈ history, event = .step ∨ event.isInput) :
    (∀ outcome ∈ (state.vm keypad).outcomes setup history,
      ∃ next pad, outcome = .done (State.vm next pad)) ∧
      ∃ next pad, (state.vm keypad).run setup history = next.vm pad ∧
        ∃ fewer ≤ steps - history.count .step, Drawing setup.random fewer next := by
  -- The point of the program changes with a step, and the keypad with any other event.
  induction history generalizing steps state keypad with
  | nil => exact ⟨by simp [Vm.outcomes], state, keypad, rfl, steps, le_refl _, hdrawing⟩
  | cons event rest ih =>
      obtain ⟨hevent, hrest⟩ := List.forall_mem_cons.mp hplay
      obtain ⟨next, pad, hhandle, fewer, hfewer, hnext⟩ := hdrawing.handle hevent
      obtain ⟨houtcomes, last, lastPad, hrun, least, hleast, hlast⟩ := ih hnext pad hrest
      have hcount : (event :: rest).count .step = [event].count .step + rest.count .step := by
        rw [← List.singleton_append, List.count_append]
      refine ⟨?_, last, lastPad, ?_, least, by omega, hlast⟩
      · rw [Vm.outcomes, hhandle]
        exact List.forall_mem_cons.mpr ⟨⟨next, pad, rfl⟩, houtcomes⟩
      · rw [Vm.run, List.foldl_cons, hhandle]
        exact hrun

/-- Without a step left the program is on its last jump. -/
theorem Drawing.pc_of_zero (hdrawing : Drawing random 0 state) : state.pc = 0x21C := by
  generalize hsteps : 0 = steps at hdrawing
  cases hdrawing with
  | done hshows => rfl
  | tile htile | toss htile | tossed htile | even htile | stroke htile | drawn htile
  | edge htile | again _ htile =>
      simp only [budget] at hsteps
      omega
  | _ => omega

theorem Drawing.complete {steps : Nat} (hdrawing : Drawing random steps state)
    (hpc : state.pc = 0x21C) :
    state.column = 0 ∧ state.row = 0x20 ∧ state.drawn = 128 ∧
      Shows random 128 state.display := by
  cases hdrawing with
  | done hshows => exact ⟨rfl, rfl, rfl, hshows⟩
  | again hjump =>
      obtain rfl : _ = (0x21C : Int) := hpc
      rcases hjump with hjump | hjump
      · cases hjump
      · cases hjump
  | _ => cases hpc

theorem step_of_last (hpc : state.pc = 0x21C) :
    (state.vm keypad).step setup = .done (state.vm keypad) := by
  obtain ⟨pc, index, column, row, coin, display, drawn⟩ := state
  obtain rfl : pc = 0x21C := hpc
  exact step_of_code (.jump 0x21C) (by simp [code]) rfl

theorem run_of_last (setup : Setup) (hpc : state.pc = 0x21C)
    (hplay : ∀ event ∈ history, event = .step ∨ event.isInput) :
    ∃ pad, (state.vm keypad).run setup history = state.vm pad := by
  induction history generalizing keypad with
  | nil => exact ⟨keypad, rfl⟩
  | cons event rest ih =>
      obtain ⟨hevent, hrest⟩ := List.forall_mem_cons.mp hplay
      rw [Vm.run, List.foldl_cons]
      rcases hevent with rfl | hinput
      · rw [Vm.handle, step_of_last hpc]
        exact ih hrest
      · rw [handle_of_input hinput]
        exact ih hrest

end Run

/-- The cell of an offset on a tile. -/
theorem Shows.pixel {display : Display} (hshows : Shows random 128 display)
    (tile : Fin 128) (right down : Fin 4) :
    display.pixel ⟨4 * (tile.val % 16) + right.val, by omega⟩
        ⟨4 * (tile.val / 16) + down.val, by omega⟩ =
      if (right.val, down.val) ∈ stroke (random tile.val) then 1 else 0 := by
  have htile : tileOf ⟨4 * (tile.val % 16) + right.val, by omega⟩
      ⟨4 * (tile.val / 16) + down.val, by omega⟩ = tile.val := by
    simp only [tileOf]
    omega
  have hoffset : offsetOf ⟨4 * (tile.val % 16) + right.val, by omega⟩
      ⟨4 * (tile.val / 16) + down.val, by omega⟩ = (right.val, down.val) := by
    simp only [offsetOf, Prod.mk.injEq]
    omega
  rw [hshows, htile, hoffset]
  simp

/-- Whatever numbers the random source gives and whatever keys are pressed on the way, the
built-in program is on its last jump after 1100 steps and stays there, has drawn the stroke
of one random number on each of the 128 tiles, and neither faults nor waits. -/
theorem maze_complete (setup : Setup) {history : List Event}
    (hplay : ∀ event ∈ history, event = .step ∨ event.isInput) :
    let loaded := Vm.fresh.handle setup (.load Demo.maze)
    let reached := loaded.vm.run setup history
    loaded.error = none ∧
      (∀ outcome ∈ loaded.vm.outcomes setup history,
        outcome.error = none ∧ outcome.reports = [] ∧ outcome.vm.wait = none) ∧
      (1100 ≤ history.count .step → reached.machine.pc = 0x21C) ∧
      (reached.machine.pc = 0x21C →
        reached.step setup = .done reached ∧
        (∀ later : List Event, (∀ event ∈ later, event = .step ∨ event.isInput) →
          ∃ keypad, reached.run setup later = { reached with keypad }) ∧
        reached.drawn = 128 ∧
        reached.machine.v 0 = 0 ∧ reached.machine.v 1 = 0x20 ∧ reached.machine.v 15 = 0 ∧
        reached.machine.calls.depth = 0 ∧
        reached.machine.memory = loaded.vm.machine.memory ∧
        ∀ (tile : Fin 128) (right down : Fin 4),
          reached.machine.display.pixel ⟨4 * (tile.val % 16) + right.val, by omega⟩
              ⟨4 * (tile.val / 16) + down.val, by omega⟩ =
            if (right.val, down.val) ∈ stroke (setup.random tile.val) then 1 else 0) := by
  intro loaded reached
  have hstart : Drawing setup.random 1050 ⟨0x200, 0, 0, 0, 0, Display.blank, 0⟩ := .start
  obtain ⟨houtcomes, last, pad, hrun, fewer, hfewer, hlast⟩ :=
    hstart.run Keypad.released hplay
  have hreached : reached = last.vm pad := hrun
  refine ⟨rfl, ?_, ?_, ?_⟩
  · intro outcome houtcome
    obtain ⟨next, keypad, rfl⟩ := houtcomes outcome houtcome
    exact ⟨rfl, rfl, rfl⟩
  · intro hsteps
    obtain rfl : fewer = 0 := by omega
    rw [hreached]
    exact hlast.pc_of_zero
  · intro hpc
    rw [hreached] at hpc ⊢
    obtain ⟨hcolumn, hrow, hdrawn, hshows⟩ := hlast.complete hpc
    refine ⟨step_of_last hpc, ?_, hdrawn, hcolumn, hrow, rfl, rfl, rfl, hshows.pixel⟩
    intro later hlater
    exact run_of_last setup hpc hlater

/-- Random numbers that alternate, a key that stays down and ticks between the steps. -/
theorem maze_complete_alternating :
    let setup : Setup := { random := fun place => place }
    let history : List Event := .press 3 :: (List.replicate 1100 [.step, .tick]).flatten
    let reached := (Vm.fresh.handle setup (.load Demo.maze)).vm.run setup history
    (∀ event ∈ history, event = .step ∨ event.isInput) ∧
      1100 ≤ history.count .step ∧ reached.machine.pc = 0x21C ∧
      reached.step setup = .done reached ∧
      reached.machine.display.pixel 0 0 = 1 ∧ reached.machine.display.pixel 4 0 = 0 := by
  intro setup history
  have hplay : ∀ event ∈ history, event = .step ∨ event.isInput := by
    intro event hevent
    rcases List.mem_cons.mp hevent with rfl | hevent
    · exact Or.inr rfl
    · obtain ⟨round, hround, hevent⟩ := List.mem_flatten.mp hevent
      obtain rfl := List.eq_of_mem_replicate hround
      rcases List.mem_pair.mp hevent with rfl | rfl
      · exact Or.inl rfl
      · exact Or.inr rfl
  have hsteps : 1100 ≤ history.count .step := by
    rw [List.count_cons_of_ne (by decide), List.count_flatten, List.map_replicate,
      List.sum_replicate_nat]
    decide
  obtain ⟨-, -, hlast, hcomplete⟩ := maze_complete setup hplay
  have hpc := hlast hsteps
  obtain ⟨hstep, -, -, -, -, -, -, -, hpixel⟩ := hcomplete hpc
  refine ⟨hplay, hsteps, hpc, hstep, ?_, ?_⟩
  · exact hpixel 0 0 0
  · exact hpixel 1 0 0

end Chip8.Maze
