import Chip8.Proofs.Drawing
import Mathlib.Data.List.Induction

/-! # Which frames a tick reports

A tick reports a frame if the screen was written since the last one, by clearing or drawing. A reset empties the screen
and takes the mark of earlier writes away, so it is the only way to a picture that differs from that of the last tick
and is not reported. -/

namespace Chip8.Machine
variable {m : Machine} {e : Event} {es : List Event}

def Resets (_ : Machine) (e : Event) : Prop := e = .reset

/-- After a history without a tick, the screen is blank and unmarked if a reset was the last to write it; otherwise it
is marked, or nothing has written it. -/
theorem screen_after (ht : Event.tick ∉ es) :
    (Since Resets Draws m es ∧ (m.after es).screen = .blank) ∨
      (¬ Since Resets Draws m es ∧ ((m.after es).screen.dirty = true ∨ (m.after es).screen = m.screen)) := by
  induction es using List.reverseRecOn with
  | nil => exact .inr ⟨since_nil, .inr rfl⟩
  | append_singleton es e ih =>
    rw [List.mem_append, not_or, List.mem_singleton] at ht
    rw [since_concat, after_concat]
    by_cases hr : e = .reset
    · subst hr
      exact .inl ⟨.inl rfl, rfl⟩
    by_cases hd : Draws (m.after es) e
    · obtain rfl := hd.1
      refine .inr ⟨fun h => ?_, .inl (stepped_of_draws hd).1⟩
      rcases h with h | ⟨h, -⟩
      · exact hr h
      · exact h hd
    · rw [screen_handle hd hr (Ne.symm ht.2)]
      rcases ih ht.1 with ⟨hs, h⟩ | ⟨hs, h⟩
      · exact .inl ⟨.inr ⟨hd, hs⟩, h⟩
      · refine .inr ⟨fun h => ?_, h⟩
        rcases h with h | ⟨-, h⟩
        · exact hr h
        · exact hs h

/-- Between two ticks nothing marks the screen as written at first: a tick takes the mark away, and a new machine has
none. -/
theorem dirty_after_tick (keypad : Keypad) (random : RandomSource) (h : es = [] ∨ es.getLast? = some .tick) :
    ((new keypad random).after es).screen.dirty = false := by
  rcases List.eq_nil_or_concat es with rfl | ⟨es, e, rfl⟩
  · rfl
  · rw [List.concat_eq_append] at h ⊢
    obtain rfl : e = .tick := by simpa using h
    rw [after_concat]
    rfl

/-- A tick keeps quiet about a picture other than that of the tick before exactly if that one was not blank and a reset
was the last to write the screen since. -/
theorem unreported_change_iff (keypad : Keypad) (random : RandomSource) (past recent : List Event)
    (hpast : past = [] ∨ past.getLast? = some .tick) (hrecent : Event.tick ∉ recent) :
    let last := (new keypad random).after past
    let now := last.after recent
    (now.tick.1 = false ∧ now.screen.rows ≠ last.screen.rows) ↔
      (last.screen.rows ≠ Screen.blank.rows ∧ Since Resets Draws last recent) := by
  intro last now
  have hclean : last.screen.dirty = false := dirty_after_tick keypad random hpast
  have htick : now.tick.1 = now.screen.dirty := rfl
  rw [htick]
  rcases screen_after (m := last) hrecent with ⟨hs, h⟩ | ⟨hs, h⟩
  · have hnow : now.screen = .blank := h
    rw [hnow]
    exact ⟨fun hne => ⟨fun heq => hne.2 heq.symm, hs⟩, fun hne => ⟨rfl, fun heq => hne.1 heq.symm⟩⟩
  · refine ⟨fun hne => ?_, fun hne => absurd hne.2 hs⟩
    rcases h with h | h
    · have hdirty : now.screen.dirty = true := h
      exact absurd hne.1 (by rw [hdirty]; decide)
    · exact absurd (congrArg Screen.rows h) hne.2

/-- After a drawn frame was reported, a key press and a reset: the next tick keeps quiet about a change if anything was
drawn. -/
theorem unreported_change_iff_press_reset :
    let past : List Event := [.load [0xA0, 0x50, 0xD0, 0x05], .step, .step, .tick]
    let recent : List Event := [.press 3, .reset]
    let last := (new .released (.ofScript #[])).after past
    let now := last.after recent
    past.getLast? = some .tick ∧ Event.tick ∉ recent ∧
      ((now.tick.1 = false ∧ now.screen.rows ≠ last.screen.rows) ↔ last.screen.rows ≠ Screen.blank.rows) := by
  intro past recent last now
  refine ⟨rfl, by decide, ?_⟩
  have hiff := unreported_change_iff .released (.ofScript #[]) past recent (.inr rfl) (by decide)
  have hs : Since Resets Draws last ([.press 3] ++ [.reset]) := since_concat.mpr (.inl rfl)
  exact hiff.trans (and_iff_left hs)

/-- The digit 0 is drawn and reported; a reset then empties the screen, and the next tick does not report that. -/
theorem reset_unreported :
    let last := (new .released (.ofScript #[])).after [.load [0xA0, 0x50, 0xD0, 0x05], .step, .step, .tick]
    let now := last.after [.reset]
    now.tick.1 = false ∧ now.screen.rows ≠ last.screen.rows := by
  decide +kernel

end Chip8.Machine
