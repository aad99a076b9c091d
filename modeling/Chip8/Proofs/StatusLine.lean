import Chip8.Proofs.History
import Chip8.Proofs.PlainText
import Chip8.View.Panel

/-! # The status line in the panel

A console that draws panels takes their width from the picture and the title, and cuts the status line to what is left of the
lower edge (`Console.DrawsPanels`). So the status line is in the edge in full if it fits (`showsStatus_iff`), which is a matter
of its length and of the title, and not of the console (`status_shown_iff`): it does not fit beside a short title while the
machine waits for a key. -/

namespace Chip8.View
open Text
variable {console : Console} {m : Machine} {title : String} {s : List Char} {rule width : Nat}
  {titleCells : String → Except DrawError Nat}

/-- The characters that have a part in markup. -/
def markupCharacters : List Char := ['[', ']', '\\', ':']

def isPlainInTitle (c : Char) : Bool := isPlain c && !markupCharacters.contains c

def IsPlainTitle (title : String) : Prop := ∀ c ∈ title.toList, isPlainInTitle c = true

instance (title : String) : Decidable (IsPlainTitle title) :=
  decidable_of_iff (title.toList.all isPlainInTitle = true) List.all_eq_true

/-- The width of a panel with the picture and a title of as many cells, with borders and a blank beside them. -/
def panelWidth (width cells : Nat) : Nat := min width (max Screen.width cells + 4)

/-- On a console of the given width, frames are drawn as panels as wide as the picture or the title needs. `titleCells` counts
the cells of a title with a blank on either side, or is the error that it is refused with. -/
structure Console.DrawsPanels (console : Console) (width : Nat) (titleCells : String → Except DrawError Nat) : Prop where
  untitled : titleCells "" = .ok 0
  plain : ∀ title, IsPlainTitle title → title ≠ "" → titleCells title = .ok (title.length + 2)
  refused : ∀ m title e, titleCells title = .error e → console.draw (.of m title) = .error e
  /-- The lower edge has the status line with a blank on either side, cut to the width of the panel less four, between borders
  of no plain characters. -/
  lowerEdge : ∀ m title cells, titleCells title = .ok cells → ∃ lines front back, console.draw (.of m title) = .ok lines ∧
    lines.getLast? = some (String.ofList
      (front ++ (' ' :: (status m).toList ++ [' ']).take (panelWidth width cells - 4) ++ back)) ∧
    front.filter isPlain = [] ∧ back.filter isPlain = []

/-! ### What is in the edge -/

section Edge
variable (hs : ∀ c ∈ s, isPlain c = true)
include hs

theorem plain_of_mem_padded {c : Char} (h : c ∈ ' ' :: s ++ [' ']) : isPlain c = true := by
  have hblank : isPlain ' ' = true := by decide
  rw [List.mem_append, List.mem_cons, List.mem_singleton] at h
  rcases h with (rfl | h) | rfl
  · exact hblank
  · exact hs c h
  · exact hblank

/-- A plain text that does not begin with a blank is in an edge in full if there is room for it and for the blank before it. -/
theorem infix_edge_iff {front back : List Char} (hfront : front.filter isPlain = []) (hback : back.filter isPlain = [])
    (hfirst : ∃ c ∈ s.head?, c ≠ ' ') : s <:+: front ++ (' ' :: s ++ [' ']).take rule ++ back ↔ s.length < rule := by
  constructor
  · intro h
    -- Its characters are among those that the cut has left, which are too few unless they are the text itself.
    have hsub := h.sublist.filter isPlain
    have hkept : ((' ' :: s ++ [' ']).take rule).filter isPlain = (' ' :: s ++ [' ']).take rule :=
      List.filter_eq_self.mpr fun c hc => plain_of_mem_padded hs (List.mem_of_mem_take hc)
    rw [List.filter_append, List.filter_append, hfront, hback, hkept, List.filter_eq_self.mpr hs, List.nil_append,
      List.append_nil] at hsub
    refine Nat.lt_of_not_le fun hle => ?_
    have hlength : ((' ' :: s ++ [' ']).take rule).length = rule := by
      simp only [List.length_take, List.length_append, List.length_cons, List.length_nil]
      omega
    have heq := hsub.eq_of_length_le (by omega)
    obtain ⟨c, hc, hne⟩ := hfirst
    rw [heq] at hc
    cases rule with
    | zero => cases hc
    | succ rule =>
      cases hc
      exact hne rfl
  · intro h
    obtain ⟨room, rfl⟩ : ∃ room, rule = s.length + 1 + room := ⟨rule - (s.length + 1), by omega⟩
    have htake : (' ' :: s ++ [' ']).take ((' ' :: s).length + room) = ' ' :: s ++ [' '].take room :=
      List.take_length_add_append room
    rw [List.length_cons] at htake
    rw [htake]
    exact ⟨front ++ [' '], [' '].take room ++ back, by
      simp only [List.append_assoc, List.cons_append, List.nil_append]⟩

end Edge

/-! ### What the status line says -/

theorem isPlainText_status (m : Machine) : IsPlainText (status m) := by
  have hsound : IsPlainText (if m.timers.soundActive then " (on)" else " (off)") := by split <;> decide
  have hwaiting : IsPlainText (if m.waiting then "  |  waiting for key" else "") := by split <;> decide
  have hunrecognized :
      IsPlainText (if m.unrecognized = 0 then "" else "  |  unrecognized: " ++ toString m.unrecognized) := by
    split
    · decide
    · exact .append (by decide) (isPlainText_toString _)
  have hcounter : IsPlainText ("PC: 0x" ++ hex 3 m.pc.val ++ "  |  Cycles: " ++ toString m.cycles) :=
    .append (.append (.append (by decide) (isPlainText_hex _ _)) (by decide)) (isPlainText_toString _)
  have htimers : IsPlainText ("PC: 0x" ++ hex 3 m.pc.val ++ "  |  Cycles: " ++ toString m.cycles ++
      "  |  DT: " ++ flushRight 3 m.timers.delay.toNat ++ "  ST: " ++ flushRight 3 m.timers.sound.toNat) :=
    .append (.append (.append (hcounter.append (by decide)) (isPlainText_flushRight _ _)) (by decide))
      (isPlainText_flushRight _ _)
  exact ((htimers.append hsound).append hwaiting).append hunrecognized

theorem head?_status (m : Machine) : (status m).toList.head? = some 'P' := by
  -- The equation of `status` would cost more than the rest of the module: making it evaluates the literals.
  delta status
  simp only [String.toList_append, List.append_assoc]
  rfl

/-- The counters and what is told only at times make the length of the status line. -/
theorem length_status (m : Machine) : (status m).length = 48 + (Nat.toDigits 10 m.cycles).length +
    (if m.timers.soundActive then 0 else 1) + (if m.waiting then 20 else 0) +
    (if m.unrecognized = 0 then 0 else 19 + (Nat.toDigits 10 m.unrecognized).length) := by
  have hpc : (hex 3 m.pc.val).length = 3 := length_hex (by decide) m.pc.isLt
  have hdelay : (flushRight 3 m.timers.delay.toNat).length = 3 :=
    length_flushRight (by decide) (Nat.lt_trans m.timers.delay.toNat_lt (by decide))
  have hsound : (flushRight 3 m.timers.sound.toNat).length = 3 :=
    length_flushRight (by decide) (Nat.lt_trans m.timers.sound.toNat_lt (by decide))
  have hliterals : "PC: 0x".length = 6 ∧ "  |  Cycles: ".length = 13 ∧ "  |  DT: ".length = 9 ∧ "  ST: ".length = 6 ∧
      " (on)".length = 5 ∧ " (off)".length = 6 ∧ "  |  waiting for key".length = 20 ∧ "  |  unrecognized: ".length = 19 := by
    decide
  delta status
  simp only [String.length_append, hpc, hdelay, hsound, length_toString, apply_ite String.length, hliterals,
    String.length_empty]
  split <;> split <;> split <;> omega

/-- The last line that is drawn of the frame holds the whole status line. -/
def ShowsStatus (console : Console) (m : Machine) (title : String) : Prop :=
  ∃ lines edge, console.draw (.of m title) = .ok lines ∧ lines.getLast? = some edge ∧ (status m).toList <:+: edge.toList

theorem showsStatus_iff (h : console.DrawsPanels width titleCells) : ShowsStatus console m title ↔
    ∃ cells, titleCells title = .ok cells ∧ (status m).length < panelWidth width cells - 4 := by
  have hfirst : ∃ c ∈ (status m).toList.head?, c ≠ ' ' := ⟨'P', head?_status m, by decide⟩
  cases hcells : titleCells title with
  | error e =>
    refine iff_of_false ?_ nofun
    rintro ⟨lines, -, hlines, -⟩
    rw [h.refused m title e hcells] at hlines
    cases hlines
  | ok cells =>
    obtain ⟨lines, front, back, hlines, hlast, hfront, hback⟩ := h.lowerEdge m title cells hcells
    have hedge : (status m).toList <:+: _ ↔ (status m).toList.length < panelWidth width cells - 4 :=
      infix_edge_iff (isPlainText_status m) hfront hback hfirst
    rw [String.length_toList] at hedge
    constructor
    · rintro ⟨lines', edge, hlines', hlast', hinfix⟩
      rw [hlines] at hlines'
      cases hlines'
      rw [hlast] at hlast'
      cases hlast'
      rw [String.toList_ofList] at hinfix
      exact ⟨cells, rfl, hedge.mp hinfix⟩
    · rintro ⟨_, ⟨⟩, hroom⟩
      refine ⟨lines, _, hlines, hlast, ?_⟩
      rw [String.toList_ofList]
      exact hedge.mpr hroom

/-- A console with room for the status line has it in full if it has no more than 63 characters or the title takes more cells. -/
theorem showsStatus_iff_of_wide (h : console.DrawsPanels width titleCells) (hwidth : max 68 ((status m).length + 6) ≤ width) :
    ShowsStatus console m title ↔
      ∃ cells, titleCells title = .ok cells ∧ ((status m).length ≤ 63 ∨ (status m).length < cells) := by
  have hpanel (cells : Nat) : (status m).length < panelWidth width cells - 4 ↔
      (status m).length ≤ 63 ∨ (status m).length < cells := by
    rw [panelWidth, show Screen.width = 64 from rfl]
    omega
  simp only [showsStatus_iff h, hpanel]

/-- The cells of a plain title are its characters and the blanks. -/
theorem showsStatus_iff_of_plain (h : console.DrawsPanels width titleCells) (htitle : IsPlainTitle title)
    (hwidth : max 68 ((status m).length + 6) ≤ width) :
    ShowsStatus console m title ↔ (status m).length ≤ 63 ∨ (status m).length < title.length + 2 := by
  rw [showsStatus_iff_of_wide h hwidth]
  by_cases hempty : title = ""
  · subst hempty
    have hlength := length_status m
    simp only [h.untitled, Except.ok.injEq, exists_eq_left', String.length_empty]
    omega
  · simp only [h.plain title htitle hempty, Except.ok.injEq, exists_eq_left']

/-- On a console that is wide enough for it, the status line is shown in full exactly if it has no more than 63 characters or the
title, with the blanks around it, takes more cells; below a title that is refused nothing is shown. Its length is given by the
cycles, the sound, the wait for a key and the unrecognized words. -/
theorem status_shown_iff (h : console.DrawsPanels width titleCells) (m : Machine) (title : String)
    (hwidth : max 68 ((status m).length + 6) ≤ width) :
    (ShowsStatus console m title ↔
      ∃ cells, titleCells title = .ok cells ∧ ((status m).length ≤ 63 ∨ (status m).length < cells)) ∧
    (IsPlainTitle title →
      (ShowsStatus console m title ↔ (status m).length ≤ 63 ∨ (status m).length < title.length + 2)) ∧
    (status m).length = 48 + (Nat.toDigits 10 m.cycles).length + (if m.timers.soundActive then 0 else 1) +
      (if m.waiting then 20 else 0) +
      (if m.unrecognized = 0 then 0 else 19 + (Nat.toDigits 10 m.unrecognized).length) :=
  ⟨showsStatus_iff_of_wide h hwidth, fun htitle => showsStatus_iff_of_plain h htitle hwidth, length_status m⟩

/-! ### The plain console -/

/-- Without brackets and backslashes a title stands for itself. -/
theorem textFrom_of_unmarked (h : ∀ c ∈ s, c ≠ '\\' ∧ c ≠ '[') (position : Nat) (opened : List (List Char)) :
    textFrom position opened 0 0 s = .ok s := by
  induction s generalizing position with
  | nil => rfl
  | cons c s ih =>
    obtain ⟨hbackslash, hbracket⟩ := h c (List.mem_cons_self ..)
    rw [textFrom, if_neg hbackslash, if_neg hbracket, ih fun d hd => h d (List.mem_cons_of_mem c hd)]
    rfl

theorem expandTabsFrom_of_no_tab (h : '\t' ∉ s) (since : List Char) : expandTabsFrom since s = since.reverse ++ s := by
  induction s generalizing since with
  | nil => rw [expandTabsFrom, List.append_nil]
  | cons c s ih =>
    rw [List.mem_cons, not_or] at h
    rw [expandTabsFrom, if_neg (Ne.symm h.1), ih h.2, List.reverse_cons, List.append_assoc]
    rfl

theorem titleLine_of_plain (h : ∀ c ∈ s, isPlain c = true) : titleLine s = s := by
  have hdropped : ∀ c ∈ s, decide (c ∉ droppedControls) = true := fun c hc => by
    have hcontrols : droppedControls.all (fun d => !isPlain d) = true := by decide
    refine decide_eq_true fun hmem => ?_
    have hcontrol := List.all_eq_true.mp hcontrols c hmem
    rw [h c hc] at hcontrol
    cases hcontrol
  have hlines : s.map (fun c => if c = '\n' then ' ' else c) = s := by
    refine (List.map_congr_left fun c hc => ?_).trans (List.map_id s)
    have hline : c ≠ '\n' := ne_of_plain (h c hc) (by decide)
    rw [if_neg hline, id_eq]
  have htab : '\t' ∉ s := fun hmem => absurd (h _ hmem) (by decide)
  rw [titleLine, List.filter_eq_self.mpr hdropped, hlines, expandTabs, expandTabsFrom_of_no_tab htab, List.reverse_nil,
    List.nil_append]

theorem plain_of_mem_title (h : IsPlainTitle title) : ∀ c ∈ title.toList, isPlain c = true :=
  fun c hc => (Bool.and_eq_true_iff.mp (h c hc)).1

theorem unmarked_of_mem_title (h : IsPlainTitle title) : ∀ c ∈ title.toList, c ≠ '\\' ∧ c ≠ '[' := by
  refine fun c hc => ⟨?_, ?_⟩
  · rintro rfl
    exact absurd (h _ hc) (by decide)
  · rintro rfl
    exact absurd (h _ hc) (by decide)

theorem edgeTitle_of_plain (h : IsPlainTitle title) (hne : title ≠ "") :
    edgeTitle title = .ok (' ' :: title.toList ++ [' ']) := by
  have htext : titleText title = .ok title.toList := textFrom_of_unmarked (unmarked_of_mem_title h) 0 []
  have hempty : title.isEmpty = false := by
    rwa [← Bool.not_eq_true, String.isEmpty_iff]
  simp only [edgeTitle, hempty, Bool.false_eq_true, ↓reduceIte, htext, Except.map,
    titleLine_of_plain (plain_of_mem_title h)]

/-- The lower edge of a panel that has `rule` cells for its text. -/
def lowerEdge (rule : Nat) (s : List Char) : List Char := '╰' :: '─' :: inRule rule (' ' :: s ++ [' ']) ++ ['─', '╯']

/-- Around the text that is cut the edge has rules and corners only. -/
theorem exists_lowerEdge_eq (hs : ∀ c ∈ s, isPlain c = true) (rule : Nat) : ∃ front back,
    lowerEdge rule s = front ++ (' ' :: s ++ [' ']).take rule ++ back ∧
      front.filter isPlain = [] ∧ back.filter isPlain = [] := by
  have hrules (n : Nat) : (List.replicate n '─').filter isPlain = [] := List.filter_replicate_of_neg (by decide)
  have hcrop := crop_of_plain (fun c hc => plain_of_mem_padded hs hc) rule
  let rest := rule - cellCount ((' ' :: s ++ [' ']).take rule)
  refine ⟨['╰', '─'] ++ List.replicate (rest / 2) '─', List.replicate (rest - rest / 2) '─' ++ ['─', '╯'], ?_, ?_, ?_⟩
  · rw [lowerEdge, inRule, hcrop]
    simp only [rest, List.append_assoc, List.cons_append, List.nil_append]
  · rw [List.filter_append, hrules]
    rfl
  · rw [List.filter_append, hrules]
    rfl

/-- The plain console is one that draws panels. -/
theorem drawsPanels_plain (hwidth : 68 ≤ width) :
    (Console.plain width).DrawsPanels width fun title => (edgeTitle title).map cellCount where
  untitled := rfl
  plain title h hne := by
    have hcells := cellCount_of_plain fun c => plain_of_mem_padded (plain_of_mem_title h)
    rw [edgeTitle_of_plain h hne, Except.map, hcells]
    simp only [List.length_append, List.length_cons, List.length_nil, String.length_toList]
  refused m title e h := by
    cases htitle : edgeTitle title with
    | ok edge =>
      rw [htitle] at h
      cases h
    | error e' =>
      rw [htitle] at h
      cases h
      simp only [Console.plain, Frame.of, htitle, Except.map]
  lowerEdge m title cells h := by
    cases htitle : edgeTitle title with
    | error e =>
      rw [htitle] at h
      cases h
    | ok edge =>
      rw [htitle] at h
      cases h
      have hrule : innerWidth width (cellCount edge) - 2 = panelWidth width (cellCount edge) - 4 := by
        rw [innerWidth, panelWidth, show Screen.width = 64 from rfl]
        omega
      obtain ⟨front, back, hedge, hfront, hback⟩ :=
        exists_lowerEdge_eq (isPlainText_status m) (panelWidth width (cellCount edge) - 4)
      refine ⟨(Frame.of m title).panel width edge, front, back, ?_, ?_, hfront, hback⟩
      · simp only [Console.plain, Frame.of, htitle, Except.map]
      · rw [← hedge, ← hrule]
        exact List.getLast?_concat

/-! ### Beside a short title -/

/-- A program that asks for a key. -/
def awaitKey : List UInt8 := [0xF0, 0x0A]

theorem length_status_awaitKey :
    (status ((Machine.new .released (.ofScript #[])).after [.load awaitKey, .step])).length = 70 := by
  rw [length_status]
  decide +kernel

/-- A title with room below it. -/
def longTitle : String := String.ofList (List.replicate 69 '=')

/-- While the machine waits for a key, the status line of seventy characters is shown in full only below a long title. -/
theorem status_shown_iff_long_title :
    let m := (Machine.new .released (.ofScript #[])).after [.load awaitKey, .step]
    (Console.plain 80).DrawsPanels 80 (fun title => (edgeTitle title).map cellCount) ∧
      max 68 ((status m).length + 6) ≤ 80 ∧ ShowsStatus (.plain 80) m longTitle := by
  intro m
  have hpanels := drawsPanels_plain (show 68 ≤ 80 by decide)
  have hlength : (status m).length = 70 := length_status_awaitKey
  have hwidth : max 68 ((status m).length + 6) ≤ 80 := by rw [hlength]; decide
  have hplain : IsPlainTitle longTitle := by decide +kernel
  have hiff := (status_shown_iff hpanels m longTitle hwidth).2.1 hplain
  have hroom : (status m).length < longTitle.length + 2 := by
    rw [hlength]
    decide +kernel
  exact ⟨hpanels, hwidth, hiff.mpr (Or.inr hroom)⟩

/-- The machine waits for a key, and the panel with the default title does not say so. -/
theorem status_cut_while_waiting :
    let m := (Machine.new .released (.ofScript #[])).after [.load awaitKey, .step]
    m.waiting = true ∧ max 68 ((status m).length + 6) ≤ 100 ∧ ¬ ShowsStatus (.plain 100) m defaultTitle := by
  intro m
  have hlength : (status m).length = 70 := length_status_awaitKey
  have hwidth : max 68 ((status m).length + 6) ≤ 100 := by rw [hlength]; decide
  have hplain : IsPlainTitle defaultTitle := by decide
  refine ⟨by decide +kernel, hwidth, ?_⟩
  rw [showsStatus_iff_of_plain (drawsPanels_plain (by decide)) hplain hwidth, hlength]
  decide

end Chip8.View
