/-
What was written last.  When each step of a history either writes a part of the state or leaves
that part alone, the history leaves there what was written last, and what was there before when
nothing was written.
-/

namespace Chip8

variable {σ ε β : Type}

theorem getD_getLast?_cons (first : β) (rest : List β) (before : β) :
    (first :: rest).getLast?.getD before = rest.getLast?.getD first := by
  rw [List.getLast?_cons]
  rfl

theorem part_foldl_eq_last {step : σ → ε → σ} (part : σ → β) (write? : ε → Option β)
    (hstep : ∀ state event, part (step state event) = (write? event).getD (part state))
    (state : σ) (history : List ε) :
    part (history.foldl step state) =
      (history.filterMap write?).getLast?.getD (part state) := by
  induction history generalizing state with
  | nil => rfl
  | cons event rest ih =>
      rw [List.foldl_cons, ih, hstep, List.filterMap_cons]
      cases write? event with
      | none => rfl
      | some written => exact (getD_getLast?_cons written _ _).symm

/-- A part that may be blank, which the steps write and do not make blank. -/
theorem part_foldl_eq_some_last {step : σ → ε → σ} (part : σ → Option β)
    (write? : ε → Option β)
    (hstep : ∀ state event, part (step state event) = (write? event).or (part state))
    {state : σ} {before : β} (hbefore : part state = some before) (history : List ε) :
    part (history.foldl step state) =
      some ((history.filterMap write?).getLast?.getD before) := by
  have hwrite (state : σ) (event : ε) : part (step state event) =
      ((write? event).map some).getD (part state) := by
    rw [hstep]
    cases write? event <;> rfl
  rw [part_foldl_eq_last part (fun event => (write? event).map some) hwrite, hbefore,
    ← List.map_filterMap, List.getLast?_map, Option.getD_map]

end Chip8
