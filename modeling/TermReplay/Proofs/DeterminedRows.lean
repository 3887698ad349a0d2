import TermReplay.Proofs.GridTable
import TermReplay.Proofs.PaletteKept
import TermReplay.Proofs.Reachability

/-!
What is told of a row is all there is to know of it. An image has one character for each column
and attribute, and a colour of the palette is one digit; so as long as only commands are obeyed,
rows with the same image have the same cells.
-/

namespace TermReplay

namespace RowImage

def strings (r : RowImage) : List String :=
  [r.text, r.bold, r.underline, r.lowIntensity, r.blink, r.foreground, r.background]

theorem flag_inj {on on' : Bool} : flag on = flag on' ↔ on = on' := by
  revert on on'
  decide

theorem flag_eq_plain {on : Bool} : (flag on = 'F' ↔ on = false) ∧ (flag on = 'T' ↔ on = true) := by
  revert on
  decide

theorem toNat_colour {c : UInt8} (hc : c ≤ 9) : (colour c).toNat = 48 + c.toNat := by
  rw [colour, if_pos hc, Nat.toNat_digitChar_of_lt_ten]
  exact Nat.lt_succ_of_le (UInt8.le_iff_toNat_le.mp hc)

theorem colour_inj {c c' : UInt8} (hc : c ≤ 9) (hc' : c' ≤ 9) : colour c = colour c' ↔ c = c' := by
  refine ⟨fun h => UInt8.toNat_inj.mp ?_, congrArg colour⟩
  have hnat := congrArg Char.toNat h
  rw [toNat_colour hc, toNat_colour hc'] at hnat
  exact Nat.add_left_cancel hnat

/-- Also outside of the palette only the plain colours look plain. -/
theorem colour_eq_plain : ∀ c : UInt8, (colour c = '7' ↔ c = 7) ∧ (colour c = '0' ↔ c = 0) :=
  TokenKind.forall_byte (by decide +kernel)

/-- A cell of the palette by its characters in an image. -/
theorem cell_inj {c c' : Cell} (hc : c.pen.InPalette) (hc' : c'.pen.InPalette) :
    (c.char = c'.char ∧ flag c.pen.bold = flag c'.pen.bold ∧
      flag c.pen.underline = flag c'.pen.underline ∧
      flag c.pen.lowIntensity = flag c'.pen.lowIntensity ∧
      flag c.pen.blink = flag c'.pen.blink ∧
      colour c.pen.foreground = colour c'.pen.foreground ∧
      colour c.pen.background = colour c'.pen.background) ↔ c = c' := by
  rw [colour_inj hc.1 hc'.1, colour_inj hc.2 hc'.2]
  simp only [flag_inj]
  obtain ⟨char, pen⟩ := c
  obtain ⟨char', pen'⟩ := c'
  rw [Cell.mk.injEq, ← Pen.mk.injEq]

theorem ofCells_inj {cells cells' : List Cell} {size size' : LineSize}
    (hcells : ∀ c ∈ cells, c.pen.InPalette) (hcells' : ∀ c ∈ cells', c.pen.InPalette) :
    ofCells cells size = ofCells cells' size' ↔ cells = cells' ∧ size = size' := by
  refine ⟨fun h => ?_, fun ⟨hc, hs⟩ => by rw [hc, hs]⟩
  simp only [ofCells, RowImage.mk.injEq, String.ofList_inj] at h
  obtain ⟨htext, hbold, hunderline, hlow, hblink, hforeground, hbackground, hsize⟩ := h
  refine ⟨?_, hsize⟩
  have hlength : cells.length = cells'.length := by
    have hmap := congrArg List.length htext
    rwa [List.length_map, List.length_map] at hmap
  apply List.ext_getElem hlength
  intro x hx hx'
  have hat {part : Cell → Char} (hpart : cells.map part = cells'.map part) :
      part cells[x] = part cells'[x] := by
    have hget := congrArg (·[x]?) hpart
    simpa only [List.getElem?_map, List.getElem?_eq_getElem hx, List.getElem?_eq_getElem hx',
      Option.map_some, Option.some.injEq] using hget
  exact (cell_inj (hcells _ (List.getElem_mem hx)) (hcells' _ (List.getElem_mem hx'))).mp
    ⟨hat htext, hat hbold, hat hunderline, hat hlow, hat hblink, hat hforeground,
      hat hbackground⟩

theorem isBlank_ofCells (cells : List Cell) (size : LineSize) :
    (ofCells cells size).isBlank = true ↔ ∀ c ∈ cells, c = .blank := by
  simp only [isBlank, ofCells, String.toList_ofList, Bool.and_eq_true, List.all_eq_true,
    List.forall_mem_map, beq_iff_eq, flag_eq_plain, colour_eq_plain, ← forall_and]
  refine forall₂_congr fun c _ => ?_
  obtain ⟨char, bold, underline, low, blink, foreground, background⟩ := c
  simp only [Cell.blank, Cell.mk.injEq, Pen.mk.injEq, and_assoc]

theorem length_of_mem_strings {cells : List Cell} {size : LineSize} {s : String}
    (hs : s ∈ (ofCells cells size).strings) : s.length = cells.length := by
  have hmap (part : Cell → Char) : (String.ofList (cells.map part)).length = cells.length := by
    rw [String.length_ofList, List.length_map]
  simp only [strings, ofCells, List.mem_cons, List.not_mem_nil, or_false] at hs
  obtain rfl | rfl | rfl | rfl | rfl | rfl | rfl := hs <;> exact hmap _

end RowImage

namespace Grid

variable {g g' : Grid} {width height height' : Nat}

theorem Fits.forall_mem_row (h : g.Fits width height) (y : Nat) {P : Cell → Prop} :
    (∀ c ∈ g.row y, P c) ↔ ∀ x, x < width → P (g.cell x y) := by
  simp only [row, List.forall_mem_map, List.mem_range, h.width_eq]

theorem Fits.row_eq_iff (h : g.Fits width height) (h' : g'.Fits width height') (y y' : Nat) :
    g.row y = g'.row y' ↔ ∀ x, x < width → g.cell x y = g'.cell x y' := by
  simp only [row, h.width_eq, h'.width_eq, List.map_inj_left, List.mem_range]

end Grid

namespace Terminal

def OfRun (t : Terminal) (width height : Nat) : Prop :=
  ∃ depth start commands, create width height depth = .ok start ∧
    t = (obeyAll commands start).terminal

variable {t u : Terminal} {width height height' : Nat}

theorem OfRun.fits (h : t.OfRun width height) : t.Fits width height := by
  obtain ⟨depth, start, commands, hc, rfl⟩ := h
  obtain ⟨hsize, rfl⟩ := create_eq_ok hc
  exact each_keeps (P := (·.Fits width height)) (fun c _ ht => ht.obey c) commands
    (initial_fits hsize.1 hsize.2)

theorem OfRun.inPalette (h : t.OfRun width height) : t.InPalette := by
  obtain ⟨depth, start, commands, hc, rfl⟩ := h
  obtain ⟨-, rfl⟩ := create_eq_ok hc
  exact ((initial_inPalette ..).obeyAll commands).terminal

theorem Fits.grid (h : t.Fits width height) (kind : ScreenKind) :
    (t.grid kind).Fits width height := by
  cases kind with
  | primary => exact h.primary
  | alternate => exact h.alternate

/-- Whatever a new terminal obeys, all its colours are in the palette, and so the image of a row
is as good as the row: its strings have a character for each column, it is blank exactly if all
cells are, and it is the image of another row of this width, on any screen of any such terminal,
exactly if the cells and the size of the two rows are the same. -/
theorem images_determine_rows (ht : t.OfRun width height) :
    (∀ kind x y, ((t.grid kind).cell x y).pen.InPalette) ∧ t.cursor.pen.InPalette ∧
      (∀ c ∈ t.saved.entries, c.pen.InPalette) ∧
      ∀ kind y, y < height →
        let image := (t.grid kind).rowImage y
        (∀ s ∈ image.strings, s.length = width) ∧
        (image.isBlank = true ↔ ∀ x, x < width → (t.grid kind).cell x y = .blank) ∧
        ∀ {height' : Nat} {u : Terminal}, u.OfRun width height' → ∀ kind' y', y' < height' →
          (image = (u.grid kind').rowImage y' ↔
            (∀ x, x < width → (t.grid kind).cell x y = (u.grid kind').cell x y') ∧
              (t.grid kind).lineSize y = (u.grid kind').lineSize y') := by
  have hcells {height : Nat} {t : Terminal} (ht : t.OfRun width height) (kind : ScreenKind)
      (x y : Nat) : ((t.grid kind).cell x y).pen.InPalette :=
    Grid.inPalette_iff_cells.mp (ht.inPalette.grids kind) x y
  refine ⟨hcells ht, ht.inPalette.cursor, ht.inPalette.saved, fun kind y hy => ?_⟩
  have hg := ht.fits.grid kind
  simp only [hg.rowImage_eq hy]
  refine ⟨fun s hs => ?_, ?_, fun {height' u} hu kind' y' hy' => ?_⟩
  · rw [RowImage.length_of_mem_strings hs, hg.length_row]
  · rw [RowImage.isBlank_ofCells, hg.forall_mem_row]
  · have hg' := hu.fits.grid kind'
    rw [hg'.rowImage_eq hy', RowImage.ofCells_inj, hg.row_eq_iff hg']
    · exact (hg.forall_mem_row y).mpr fun x _ => hcells ht kind x y
    · exact (hg'.forall_mem_row y').mpr fun x _ => hcells hu kind' x y'

/-- A word in reverse video, in the first row of one terminal and the last of another. -/
theorem images_determine_rows_in_reverse_video :
    let t := (obeyAll [.attribute 31, .attribute 7, .saveCursor, .print "ab"]
      (initial 2 2 1)).terminal
    let u := (obeyAll [.attribute 7, .attribute 41, .mode (.screen .alternate), .goto 3 1,
      .print "ab"] (initial 2 3 4)).terminal
    let image := t.primary.rowImage 0
    t.cursor.pen.InPalette ∧ (∀ s ∈ image.strings, s.length = 2) ∧
      (image.isBlank = true ↔ ∀ x, x < 2 → t.primary.cell x 0 = .blank) ∧
      (image = u.alternate.rowImage 2 ↔
        (∀ x, x < 2 → t.primary.cell x 0 = u.alternate.cell x 2) ∧
          t.primary.lineSize 0 = u.alternate.lineSize 2) := by
  intro t u image
  have ht : t.OfRun 2 2 := ⟨1, initial 2 2 1, _, rfl, rfl⟩
  have hu : u.OfRun 2 3 := ⟨4, initial 2 3 4, _, rfl, rfl⟩
  obtain ⟨-, hcursor, -, hrows⟩ := images_determine_rows ht
  obtain ⟨hlength, hblank, heq⟩ := hrows .primary 0 (by decide)
  exact ⟨hcursor, hlength, hblank, heq hu .alternate 2 (by decide)⟩

end Terminal

end TermReplay
