import TermReplay.Proofs.Reachability
import TermReplay.Proofs.SaturatedNumbers
import TermReplay.Proofs.ScalarText
import TermReplay.Proofs.ScrollRegion

/-!
Reports of the cursor position. What is answered is a pair of decimal numbers that count from one
and from the origin; sent back as an address, the pair is read as the same numbers, and the cursor
is where it was.
-/

namespace TermReplay

open Text Recognizer

namespace Params

def decimal (n : Nat) : List UInt8 := asciiBytes (toString n)

theorem decimal_eq (n : Nat) :
    decimal n = (Nat.toDigits 10 n).map fun c => UInt8.ofNat c.toNat := by
  rw [decimal, asciiBytes, Nat.toString_eq_ofList_toDigits, String.toList_ofList]

theorem decimal_ne_nil (n : Nat) : decimal n ≠ [] := by
  rw [decimal_eq]
  exact fun h => Nat.toDigits_ne_nil (List.map_eq_nil_iff.mp h)

theorem digit_byte {c : Char} (hc : c.isDigit = true) :
    isDigit (UInt8.ofNat c.toNat) = true ∧
      digitValue (UInt8.ofNat c.toNat) = c.toNat - '0'.toNat := by
  rw [Char.isDigit_iff_toNat] at hc
  have hbyte : (UInt8.ofNat c.toNat).toNat = c.toNat :=
    UInt8.toNat_ofNat_of_lt' (Nat.lt_of_le_of_lt hc.2 (by decide))
  constructor
  · rw [isDigit, Bool.and_eq_true, decide_eq_true_iff, decide_eq_true_iff, UInt8.le_iff_toNat_le,
      UInt8.le_iff_toNat_le, hbyte]
    exact hc
  · rw [digitValue, hbyte]
    rfl

theorem decimal_isDigit (n : Nat) : ∀ b ∈ decimal n, isDigit b = true := by
  rw [decimal_eq]
  intro b hb
  obtain ⟨c, hc, rfl⟩ := List.mem_map.mp hb
  exact (digit_byte (Json.isDigit_of_mem_digits hc)).1

theorem value_digits {digits : List Char} (h : ∀ c ∈ digits, c.isDigit = true) :
    value (digits.map fun c => UInt8.ofNat c.toNat) = Nat.ofDigitChars 10 digits 0 := by
  induction digits using List.reverseRecOn with
  | nil => rfl
  | append_singleton digits c ih =>
      obtain ⟨hdigits, hc⟩ := List.forall_mem_append.mp h
      rw [List.map_append, List.map_singleton, value_concat, ih hdigits, Nat.ofDigitChars_append,
        Nat.ofDigitChars_cons, (digit_byte (hc c (List.mem_singleton_self c))).2]
      rfl

theorem value_decimal (n : Nat) : value (decimal n) = n := by
  rw [decimal_eq, value_digits fun c hc => Json.isDigit_of_mem_digits hc,
    Nat.ofDigitChars_ten_toDigits]

theorem saturate_of_le {n : Nat} (h : n ≤ limit) : saturate n = n := Nat.min_eq_left h

/-- A number is read as it was written, up to the limit. -/
theorem number?_decimal (n : Nat) : number? (decimal n) = some (some (saturate n)) := by
  rw [number?_of_digits (decimal_isDigit n), reading, if_neg (decimal_ne_nil n), value_decimal]
  rfl

def decimals (nums : List Nat) : List UInt8 := join (nums.map decimal)

theorem decimals_inPart (nums : List Nat) :
    ∀ part ∈ nums.map decimal, ∀ b ∈ part, inPart b = true := by
  intro part hpart b hb
  obtain ⟨n, -, rfl⟩ := List.mem_map.mp hpart
  rw [inPart, decimal_isDigit n b hb, Bool.true_or]

theorem numbers?_decimals {nums : List Nat} (hne : nums ≠ []) :
    numbers? (decimals nums) = some (nums.map fun n => some (saturate n)) := by
  have hsplit : split (decimals nums) = nums.map decimal :=
    split_join (fun h => hne (List.map_eq_nil_iff.mp h)) fun part hpart =>
      semicolon_not_mem (decimals_inPart nums part hpart)
  have heach : number? ∘ decimal = fun n => pure (some (saturate n)) := funext number?_decimal
  rw [numbers?, hsplit, List.mapM_map, heach, List.mapM_pure]
  rfl

theorem decimals_pair (m n : Nat) :
    decimals [m, n] = decimal m ++ semicolon :: decimal n := by
  rw [decimals, List.map_cons, List.map_singleton, join_cons_cons, join_singleton]

end Params

def positionBytes (row col : Nat) (final : UInt8) : List UInt8 :=
  sequenceBytes none (Params.decimals [row, col]) final

theorem asciiBytes_append (s₁ s₂ : String) :
    asciiBytes (s₁ ++ s₂) = asciiBytes s₁ ++ asciiBytes s₂ := by
  rw [asciiBytes, String.toList_append, List.map_append]
  rfl

/-- With no parameters at all the command would be another one. -/
theorem outputs_address (raw : List UInt8) (row col : Nat) :
    ControlSequence.outputs ⟨raw, none, Params.decimals [row, col], [], 0x48⟩ =
      [.command (.goto (Params.saturate row) (Params.saturate col))] := by
  let s : ControlSequence := ⟨raw, none, Params.decimals [row, col], [], 0x48⟩
  have hnums : Params.numbers? s.params =
      some [some (Params.saturate row), some (Params.saturate col)] :=
    Params.numbers?_decimals (List.cons_ne_nil row [col])
  have hbare : s.params.isEmpty = false := by
    show (Params.decimals [row, col]).isEmpty = false
    rw [Params.decimals_pair]
    simp
  have hcommand : s.plainCommand? [some (Params.saturate row), some (Params.saturate col)] =
      some (if s.params.isEmpty then .home
        else .goto (Params.saturate row) (Params.saturate col)) := rfl
  rw [hbare] at hcommand
  have hfinal : Char.ofNat s.final.toNat = 'H' := rfl
  show s.plainOutputs = _
  simp only [ControlSequence.plainOutputs, hfinal, hnums, Option.bind_some, hcommand]
  rfl

/-- Both numbers of an address are read up to the limit. -/
theorem nextToken_address (row col : Nat) :
    nextToken (positionBytes row col 0x48) =
      some ⟨(positionBytes row col 0x48).length,
        [.command (.goto (Params.saturate row) (Params.saturate col))]⟩ := by
  have hmarker : ∀ m ∈ (none : Option UInt8), isMarker m = true := fun m hm => nomatch hm
  have hparams := Params.join_isParam (Params.decimals_inPart [row, col])
  have hclaim := controlSequence_claims hmarker hparams (show isFinal 0x48 = true from rfl) []
  rw [List.append_nil] at hclaim
  exact nextToken_eq_some_iff.mpr ⟨.controlSequence, outputs_address _ row col ▸ hclaim⟩

/-- A token that is all there is, and a command. -/
theorem Player.feed_command {p : Player} (hp : p.stream.pending = []) {bytes : List UInt8}
    {c : Command} (ht : nextToken bytes = some ⟨bytes.length, [.command c]⟩) :
    p.feed bytes =
      ⟨{ p with terminal := (p.terminal.obey c).terminal }, (p.terminal.obey c).notices,
        none⟩ := by
  have hread : readTokens bytes = ([.command c], []) := by
    rw [readTokens_of_some ht, List.drop_length, readTokens_of_none nextToken_nil]
    rfl
  obtain ⟨⟨pending, limit⟩, terminal⟩ := p
  obtain rfl : pending = [] := hp
  simp only [feed, ByteStream.feed, List.nil_append, hread, Terminal.followAll,
    Terminal.each_singleton, List.length_nil, Nat.not_lt_zero, if_false]
  rfl

/-- The commands that send the cursor to a place and do nothing else. -/
def Command.addresses : Command → Bool
  | .home | .goto .. | .gotoColumn _ | .gotoRow _ => true
  | _ => false

namespace Terminal

variable {t : Terminal}

theorem reply_of_position (t : Terminal) :
    asciiBytes (t.reportText .cursorPosition) =
      positionBytes (t.cursor.y - t.originRow + 1) (t.column + 1) 0x52 := by
  simp only [reportText, asciiBytes_append, positionBytes, Params.decimals_pair, sequenceBytes,
    Params.decimal]
  simp [asciiBytes, Params.semicolon]

theorem obey_addresses {c : Command} (hc : c.addresses = true) (t : Terminal) :
    ∃ x y, (t.obey c).terminal = t.moveTo x y := by
  cases c with
  | home | goto _ _ | gotoColumn _ | gotoRow _ => exact ⟨_, _, rfl⟩
  | _ => cases hc

/-- Where an address leads does not depend on where the cursor was. -/
theorem goto_moveTo (t : Terminal) (x y col row : Nat) :
    (t.moveTo x y).goto col row = t.goto col row := rfl

/-- The place that was reported, as an address. -/
theorem goto_reported (h : t.WellFormed)
    (ho : t.modes.origin = .screen ∨ t.margins.Has t.cursor.y) :
    t.goto t.column (t.cursor.y - t.originRow) =
      (t.moveTo t.column t.cursor.y).tellingCursor := by
  have hcolumn : min t.column t.lastColumn = t.column := Nat.min_eq_left (Nat.min_le_right ..)
  cases horigin : t.modes.origin with
  | screen =>
      have hy : t.cursor.y ≤ t.lastRow := Nat.le_sub_one_of_lt (Fits.cursor h).2
      simp only [goto, originRow, horigin, hcolumn, Nat.sub_zero, Nat.min_eq_left hy]
  | margin =>
      have hhas : t.margins.Has t.cursor.y := by simpa [horigin] using ho
      simp only [goto, originRow, horigin, hcolumn, Nat.sub_add_cancel hhas.1,
        Nat.min_eq_left hhas.2]

end Terminal

theorem Player.feed_positionRequest {p : Player} (hp : p.stream.pending = []) :
    p.feed (asciiBytes "\x1b[6n") =
      ⟨p, [.reply (positionBytes (p.terminal.cursor.y - p.terminal.originRow + 1)
        (p.terminal.column + 1) 0x52)], none⟩ := by
  have htoken : nextToken (asciiBytes "\x1b[6n") =
      some ⟨(asciiBytes "\x1b[6n").length, [.command (.report .cursorPosition)]⟩ := by
    decide +kernel
  rw [feed_command hp htoken, Terminal.obey, Terminal.report, Terminal.reply_of_position]
  rfl

/-- The position that is reported leads back. The answer to `CSI 6 n` is one reply with a row and a
column, which count from one and from the origin, and nothing is changed by asking. Wherever the
cursor is then sent by a single address, the same row and column sent as an address bring it back
to its row and to its column, which is the last one if a wrap was pending, and everything else of
the player is as it was. -/
theorem Player.reported_position_leads_back (p : Player) (hr : p.terminal.Reachable)
    (hp : p.stream.pending = []) (hw : p.terminal.width ≤ Params.limit)
    (hh : p.terminal.height ≤ Params.limit)
    (ho : p.terminal.modes.origin = .screen ∨ p.terminal.margins.Has p.terminal.cursor.y) :
    let x := p.terminal.column
    let y := p.terminal.cursor.y
    let row := y - p.terminal.originRow + 1
    let col := x + 1
    p.feed (asciiBytes "\x1b[6n") = ⟨p, [.reply (positionBytes row col 0x52)], none⟩ ∧
      ∀ c : Command, c.addresses = true →
        ({ p with terminal := (p.terminal.obey c).terminal } : Player).feed
            (positionBytes row col 0x48) =
          ⟨{ p with terminal := p.terminal.moveTo x y }, [.cursor x y], none⟩ := by
  intro x y row col
  have h := hr.wellFormed
  have hx : x < p.terminal.width := Terminal.Fits.column_lt h
  have hy : y < p.terminal.height := (Terminal.Fits.cursor h).2
  have hrow : row ≤ Params.limit := by omega
  have hcol : col ≤ Params.limit := by omega
  refine ⟨Player.feed_positionRequest hp, fun c hc => ?_⟩
  obtain ⟨x', y', haway⟩ := Terminal.obey_addresses hc p.terminal
  let away : Player := { p with terminal := p.terminal.moveTo x' y' }
  have htoken := nextToken_address row col
  rw [Params.saturate_of_le hrow, Params.saturate_of_le hcol] at htoken
  have hback : away.terminal.obey (.goto row col) = (p.terminal.moveTo x y).tellingCursor := by
    rw [Terminal.obey, Nat.add_sub_cancel, Nat.add_sub_cancel, Terminal.goto_moveTo]
    exact Terminal.goto_reported h ho
  rw [haway, Player.feed_command (p := away) hp htoken, hback]
  rfl

/-- Under the margin origin, with a wrap pending in the last row of the region: the answer has two
digits for the column, and counts the row from the third. -/
theorem Player.reported_position_leads_back_under_margins :
    let t := (Terminal.obeyAll [.margins (some 3) (some 4), .origin .margin, .goto 2 9,
      .print "ab"] (.initial 10 5 1)).terminal
    let p : Player := ⟨{}, t⟩
    t.cursor.x = t.width ∧
      p.feed (asciiBytes "\x1b[6n") = ⟨p, [.reply (asciiBytes "\x1b[2;10R")], none⟩ ∧
      ∀ c : Command, c.addresses = true →
        ({ p with terminal := (t.obey c).terminal } : Player).feed (asciiBytes "\x1b[2;10H") =
          ⟨{ p with terminal := t.moveTo 9 3 }, [.cursor 9 3], none⟩ := by
  intro t p
  have hr : t.Reachable :=
    Terminal.each_keeps (fun c _ ht => .obey ht c) _
      (.create (show 10 * 5 ≤ Stored.wordLimit by decide) rfl)
  have hreply : positionBytes 2 10 0x52 = asciiBytes "\x1b[2;10R" := by decide +kernel
  have haddress : positionBytes 2 10 0x48 = asciiBytes "\x1b[2;10H" := by decide +kernel
  rw [← hreply, ← haddress]
  exact ⟨by decide, p.reported_position_leads_back hr rfl (by decide) (by decide)
    (.inr (by decide))⟩

end TermReplay
