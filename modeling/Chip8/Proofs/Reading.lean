/-
What reading a command line leaves alone.  No switch acts on the timer rate, so a frame
always has a length.
-/
import Chip8.CommandLine.Reader

namespace Chip8.CommandLine

namespace Reading

variable {reading next : Reading}

theorem timerHz_setInteger {switch : Switch} {value : String}
    {change : Settings → Option Int → Settings}
    (hset : reading.setInteger switch value change = .ok next)
    (hchange : ∀ settings number, (change settings number).timerHz = settings.timerHz) :
    next.settings.timerHz = reading.settings.timerHz := by
  rw [setInteger] at hset
  split at hset
  · cases hset
    exact hchange _ _
  · split at hset
    · cases hset
      exact hchange _ _
    · cases hset

theorem timerHz_setValue {switch : Switch} {value : String}
    (hset : reading.setValue switch value = .ok next) :
    next.settings.timerHz = reading.settings.timerHz := by
  cases switch with
  | scale | clock | tone | steps =>
      rw [setValue] at hset
      exact timerHz_setInteger hset fun _ _ => rfl
  | logLevel =>
      rw [setValue, setLevel] at hset
      split at hset
      · cases hset
        rfl
      · split at hset
        · cases hset
          rfl
        · cases hset
  | help | legacyStore | headless | dumpMemory => cases hset

theorem timerHz_setFlag {switch : Switch} (hset : reading.setFlag switch = .ok next) :
    next.settings.timerHz = reading.settings.timerHz := by
  cases switch with
  | legacyStore | headless | dumpMemory =>
      cases hset
      rfl
  | help | scale | clock | tone | steps | logLevel => cases hset

theorem exists_of_bind_eq_ok {α β : Type} {first : Except Stop α} {rest : α → Except Stop β}
    {result : β} (hbind : first >>= rest = .ok result) :
    ∃ value, first = .ok value ∧ rest value = .ok result := by
  cases first with
  | error stop => cases hbind
  | ok value => exact ⟨value, rfl, hbind⟩

/-- No token acts on the timer rate. -/
theorem timerHz_readTokens {tokens : List Token}
    (hread : reading.readTokens tokens = .ok next) :
    next.settings.timerHz = reading.settings.timerHz := by
  fun_induction readTokens reading tokens with
  | case1 =>
      cases hread
      rfl
  | case2 reading switch value rest ih | case3 reading switch _ value rest ih =>
      obtain ⟨middle, hset, hrest⟩ := exists_of_bind_eq_ok hread
      exact (ih middle hrest).trans (timerHz_setValue hset)
  | case5 reading switch rest _ ih =>
      obtain ⟨middle, hset, hrest⟩ := exists_of_bind_eq_ok hread
      exact (ih middle hrest).trans (timerHz_setFlag hset)
  | case4 | case6 => cases hread
  -- The other tokens change the program or what is put aside.
  | case7 _ _ _ ih | case8 _ _ _ _ ih | case9 _ _ _ _ ih | case10 _ _ _ _ _ ih
  | case11 _ _ _ _ _ ih | case12 _ _ _ ih | case13 _ _ _ ih => exact ih hread

end Reading

theorem timerHz_read {arguments : List String} {settings : Settings}
    (hread : read arguments = .ok settings) : settings.timerHz = 60 := by
  obtain ⟨tokens, -, hread⟩ := Reading.exists_of_bind_eq_ok hread
  obtain ⟨reading, hreading, hread⟩ := Reading.exists_of_bind_eq_ok hread
  split at hread
  · cases hread
    exact Reading.timerHz_readTokens hreading
  · cases hread

end Chip8.CommandLine
