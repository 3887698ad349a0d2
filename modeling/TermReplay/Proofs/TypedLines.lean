import TermReplay.Proofs.Chunking
import TermReplay.Proofs.ShownPages

/-!
Lines of plain text on a fresh terminal. Read as bytes and cut at the width they are rows of a
page; the screen shows its last rows, and a history that watches has the last of the others.
-/

namespace TermReplay

open Recognizer (isPrintable controlCommand?)

def lineEnding : List Output := [.command .carriageReturn, .command .lineFeed]

variable {width height : Nat} {p : Page Char} {t : Terminal} {x : Nat}

namespace Terminal.Shows

theorem type_line (h : t.Shows width height p p.last.length) (line : List UInt8) :
    let after := (Text.ascii line).toList.foldl (Page.type width) p
    (followAll (typed line) t).Turns width height p after after.last.length := by
  rw [Text.ascii, String.toList_ofList]
  induction line generalizing t p with
  | nil => exact .of_gone_eq h rfl rfl
  | cons b line ih =>
      have hchar := h.printChar (Char.ofNat b.toNat)
      rw [← print_singleton] at hchar
      exact hchar.andThen (ih hchar.shows)

theorem end_line (h : t.Shows width height p x) :
    (followAll lineEnding t).Turns width height p p.newLine 0 := by
  have hreturned : t.returnCarriage.Turns width height p p 0 := by
    rw [returnCarriage, h.cursor]
    exact .of_gone_eq (h.moved (Nat.zero_le width)) rfl rfl
  have hadvanced := hreturned.shows.advanceLine
  have hfed : t.returnCarriage.terminal.lineFeed.Turns width height p p.newLine 0 := by
    refine hadvanced.andThen ?_
    rw [hadvanced.shows.modes]
    exact hadvanced.shows.tellingCursor
  have hboth : followAll lineEnding t = t.returnCarriage.andThen lineFeed := by
    rw [lineEnding, ← Reaction.andThen_quietly (t.returnCarriage.andThen lineFeed),
      Reaction.andThen_assoc]
    rfl
  rw [hboth]
  exact hreturned.andThen hfed

/-- Between lines the cursor is in front of an empty row. -/
theorem type_lines (h : t.Shows width height p 0) (hlast : p.last = [])
    (lines : List (List UInt8)) :
    (followAll (lines.flatMap fun line => typed line ++ lineEnding) t).Turns width height p
      (lines.foldl (fun p line => p.typeLine width (Text.ascii line).toList) p) 0 := by
  induction lines generalizing t p with
  | nil => exact .of_gone_eq h rfl rfl
  | cons line lines ih =>
      have htyped := type_line (p := p) (by rw [hlast]; exact h) line
      have hline := htyped.andThen htyped.shows.end_line
      rw [List.flatMap_cons, followAll_append, followAll_append]
      exact hline.andThen (ih hline.shows rfl)

end Terminal.Shows

theorem readTokens_control {b : UInt8} {c : Command} (h : controlCommand? b = some c)
    (rest : List UInt8) :
    readTokens (b :: rest) = (.command c :: (readTokens rest).1, (readTokens rest).2) := by
  have hclaim : Recognizer.control (b :: rest) = some (.command 1 c) := by
    rw [Recognizer.control, h]
    rfl
  have htoken : nextToken (b :: rest) = some (.command 1 c) :=
    nextToken_eq_some_iff.mpr ⟨.control, hclaim⟩
  exact readTokens_of_some htoken

theorem readTokens_lines {lines : List (List UInt8)}
    (hprintable : ∀ line ∈ lines, ∀ b ∈ line, isPrintable b = true) :
    Output.spell (readTokens (lines.flatMap (· ++ [0x0d, 0x0a]))).1 =
        lines.flatMap (fun line => typed line ++ lineEnding) ∧
      (readTokens (lines.flatMap (· ++ [0x0d, 0x0a]))).2 = [] := by
  induction lines with
  | nil =>
      rw [List.flatMap_nil, readTokens_of_none nextToken_nil]
      exact ⟨rfl, rfl⟩
  | cons line lines ih =>
      have hline := hprintable line (List.mem_cons_self ..)
      have hrest := ih fun line hl => hprintable line (List.mem_cons_of_mem _ hl)
      have hrun := readTokens_run (line ++ 0x0d :: 0x0a :: lines.flatMap (· ++ [0x0d, 0x0a]))
      rw [List.takeWhile_append_of_pos hline, List.dropWhile_append_of_pos hline,
        List.takeWhile_cons_of_neg (by decide), List.dropWhile_cons_of_neg (by decide),
        readTokens_control rfl, readTokens_control rfl, List.append_nil] at hrun
      rw [List.flatMap_cons, List.flatMap_cons, List.append_assoc, ← hrest.1]
      refine ⟨hrun.1.trans ?_, hrun.2.trans hrest.2⟩
      rw [List.append_assoc]
      rfl

theorem Terminal.initial_shows (hw : 1 ≤ width) (hh : 2 ≤ height) (depth : Nat) :
    (Terminal.initial width height depth).Shows width height {} 0 where
  fits := Terminal.initial_fits hw hh
  live := Grid.Shows.blank width height
  cursor := rfl
  modes := rfl
  margins := rfl
  designations := rfl
  short := by
    intro row hrow
    obtain rfl := List.mem_singleton.mp hrow
    exact Nat.zero_le _

/-- A player that is fed lines turns its empty page to the one with their rows. -/
theorem Player.feed_lines_turns (hw : 1 ≤ width) (hh : 2 ≤ height) (depth limit : Nat)
    {lines : List (List UInt8)}
    (hprintable : ∀ line ∈ lines, ∀ b ∈ line, isPrintable b = true) :
    let played := (Player.mk { limit } (Terminal.initial width height depth)).feed
      (lines.flatMap (· ++ [0x0d, 0x0a]))
    played.stuck = none ∧ ∃ page : Page Char,
      (Reaction.mk played.player.terminal played.notices).Turns width height {} page 0 ∧
        page.rows = lines.flatMap (fun line => wrap width (Text.ascii line).toList) ++ [[]] := by
  intro played
  obtain ⟨hspell, hpending⟩ := readTokens_lines hprintable
  constructor
  · show (if limit < (readTokens (lines.flatMap (· ++ [0x0d, 0x0a]))).2.length then _ else _) = _
    rw [hpending]
    rfl
  · have hturns := (Terminal.initial_shows hw hh depth).type_lines rfl lines
    rw [← hspell, Terminal.followAll_spell, ← List.foldl_map, Page.foldl_typeLine hw] at hturns
    refine ⟨_, hturns, ?_⟩
    rw [Page.rows, List.nil_append, List.flatMap_map]

/-- Lines of printable characters, each ended by a carriage return and a line feed, on a fresh
terminal with a history. Cut at the width they are rows, with an empty one at the end where the
cursor is. The screen shows the last rows, and the history has the last of those above. -/
theorem Player.feed_lines (hw : 1 ≤ width) (hh : 2 ≤ height) (depth capacity limit : Nat)
    {lines : List (List UInt8)}
    (hprintable : ∀ line ∈ lines, ∀ b ∈ line, isPrintable b = true) :
    ∃ t, Terminal.create width height depth = .ok t ∧
      let played := (Player.mk { limit } t).feed (lines.flatMap (· ++ [0x0d, 0x0a]))
      let rows := lines.flatMap (fun line => wrap width (Text.ascii line).toList) ++ [[]]
      let above := rows.take (rows.length - height)
      let history := (played.notices.foldl History.watch (History.create capacity)).toList
      let live := played.player.terminal.live
      let screen := (List.range height).map live.row
      played.stuck = none ∧
      (rows.length ≤ height → history = [] ∧
        screen = (rows ++ List.replicate (height - rows.length) []).map (Cell.padded width)) ∧
      (height < rows.length →
        screen = (rows.drop (rows.length - height)).map (Cell.padded width) ∧
        history = (above.drop (above.length - min capacity (rows.length - height))).map
          (RowImage.padded width)) := by
  refine ⟨Terminal.initial width height depth, if_pos ⟨hw, hh⟩, ?_⟩
  intro played rows above history live screen
  obtain ⟨hstuck, page, hpage, hrows⟩ := Player.feed_lines_turns hw hh depth limit hprintable
  have hhistory : history = (above.rtake capacity).map (RowImage.padded width) := by
    have htold := hpage.told
    rw [Page.gone_eq_nil (Nat.le_of_succ_le hh), List.map_nil, List.nil_append, Page.gone,
      hrows] at htold
    show (played.notices.foldl History.watch (History.create capacity)).toList = _
    rw [History.toList_foldl_watch, htold, List.rtake, List.rtake, List.length_map, List.map_drop]
    rfl
  have hscreen : screen = (rows.rtake height ++ List.replicate (height - rows.length) []).map
      (Cell.padded width) := by
    rw [show rows = page.rows from hrows.symm, ← Page.map_shown, List.map_map]
    apply List.map_congr_left
    intro y hy
    exact hpage.shows.row_eq (List.mem_range.mp hy)
  have habove : above.length = rows.length - height := List.length_take_of_le (Nat.sub_le ..)
  refine ⟨hstuck, fun hshort => ⟨?_, ?_⟩, fun hlong => ⟨?_, ?_⟩⟩
  · have hnil : above = [] := List.eq_nil_of_length_eq_zero (by omega)
    rw [hhistory, hnil, List.rtake_nil, List.map_nil]
  · rw [hscreen, rtake_of_length_le hshort]
  · rw [hscreen, Nat.sub_eq_zero_of_le (Nat.le_of_lt hlong), List.replicate_zero, List.append_nil]
    rfl
  · rw [hhistory, List.rtake, habove]
    congr 2
    omega

/-- Two columns, two rows and a history of two: a line of two rows, an empty one and a short one.
The line that just fills its rows brings no empty row with it. -/
theorem Player.feed_lines_past_the_top :
    let lines : List (List UInt8) := [[0x61, 0x62, 0x63, 0x64], [], [0x65]]
    (∀ line ∈ lines, ∀ b ∈ line, isPrintable b = true) ∧
    ∃ t, Terminal.create 2 2 1 = .ok t ∧
      let played := (Player.mk { limit := 16 } t).feed (lines.flatMap (· ++ [0x0d, 0x0a]))
      (List.range 2).map played.player.terminal.live.row = [['e'], []].map (Cell.padded 2) ∧
      (played.notices.foldl History.watch (History.create 2)).toList =
        [['c', 'd'], []].map (RowImage.padded 2) := by
  intro lines
  have hall : lines.all (·.all isPrintable) = true := rfl
  have hprintable : ∀ line ∈ lines, ∀ b ∈ line, isPrintable b = true := fun line hline =>
    List.all_eq_true.mp (List.all_eq_true.mp hall line hline)
  have hfull : wrap 2 (['a', 'b'] ++ ['c', 'd']) = [['a', 'b'], ['c', 'd']] := by
    have hlength : ['a', 'b'].length = 2 := rfl
    have hrest : ['c', 'd'].length ≤ 2 := by decide
    rw [wrap_append Nat.two_pos hlength (List.cons_ne_nil _ _), wrap_of_length_le hrest]
  have hrows : lines.flatMap (fun line => wrap 2 (Text.ascii line).toList) ++ [[]] =
      [['a', 'b'], ['c', 'd'], [], ['e'], []] := by
    have htext : lines.map (fun line => (Text.ascii line).toList) =
        [['a', 'b'] ++ ['c', 'd'], [], ['e']] := by decide
    rw [← List.flatMap_map (fun line => (Text.ascii line).toList) (wrap 2), htext]
    simp only [List.flatMap_cons, List.flatMap_nil, hfull,
      wrap_of_length_le (show ([] : List Char).length ≤ 2 by decide),
      wrap_of_length_le (show ['e'].length ≤ 2 by decide)]
    rfl
  obtain ⟨t, ht, -, -, hlong⟩ :=
    Player.feed_lines (show 1 ≤ 2 by decide) (show 2 ≤ 2 by decide) 1 2 16 hprintable
  rw [hrows] at hlong
  exact ⟨hprintable, t, ht, hlong (by decide)⟩

end TermReplay
