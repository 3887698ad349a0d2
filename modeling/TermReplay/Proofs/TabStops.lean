import Mathlib.Data.List.Sort
import Mathlib.Data.Set.Insert
import Mathlib.Order.Bounds.Basic
import Mathlib.Order.Interval.Set.Defs
import TermReplay.Proofs.DrawnAndMoved
import TermReplay.Proofs.FullScreen
import TermReplay.Proofs.Reachability

/-!
Tab stops. A tab goes to the least stop to the right of the cursor, and to the edge beyond the last
column where there is none; tabs in a row go through the stops from left to right. Which columns
are stops is a matter of four commands alone.
-/

namespace TermReplay

namespace Terminal

def stops (t : Terminal) : Set Nat := {x | t.tabs[x]? = some true}

def defaultStops (width : Nat) : Set Nat := {x | x < width ∧ 8 ∣ x}

/-- The stops to the right of a column, from left to right. -/
def stopsFrom (t : Terminal) (x : Nat) : List Nat :=
  (rowsUpTo (x + 1) t.width).filter fun stop => t.tabs[stop]?.getD false

def inColumn (t : Terminal) (x : Nat) : Terminal := { t with cursor := { t.cursor with x } }

end Terminal

def Command.stopsAfter (t : Terminal) : Command → Set Nat
  | .setTab => insert t.column t.stops
  | .clearTab => t.stops \ {t.column}
  | .clearAllTabs => ∅
  | .reset => Terminal.defaultStops t.width
  | _ => t.stops

namespace Terminal

variable {t : Terminal}

theorem stops_congr {u : Terminal} (h : u.tabs = t.tabs) : u.stops = t.stops := by
  rw [stops, h, stops]

theorem stops_editLive (t : Terminal) (f : Grid → Grid) : (t.editLive f).stops = t.stops := by
  apply stops_congr
  unfold editLive
  split <;> rfl

theorem DrawnAndMoved.stops {u : Terminal} (h : t.DrawnAndMoved u) : u.stops = t.stops := by
  obtain ⟨f, x, y, rfl⟩ := h
  exact stops_editLive t f

theorem stops_initial (width height depth : Nat) :
    (initial width height depth).stops = defaultStops width := by
  ext x
  have hstop : x ∈ (initial width height depth).stops ↔
      ((Array.range width).map (· % 8 == 0))[x]? = some true := Iff.rfl
  rw [hstop, Array.getElem?_map, Array.getElem?_range]
  by_cases hx : x < width
  · simp [defaultStops, hx, Nat.dvd_iff_mod_eq_zero]
  · simp [defaultStops, hx]

theorem mem_stops_setTab (h : t.WellFormed) (on : Bool) (x : Nat) :
    x ∈ (t.setTab on).terminal.stops ↔ if t.column = x then on = true else x ∈ t.stops := by
  have hcolumn : t.column < t.tabs.size := (Fits.tabs h).symm ▸ Fits.column_lt h
  have hstop : x ∈ (t.setTab on).terminal.stops ↔
      (t.tabs.setIfInBounds t.column on)[x]? = some true := Iff.rfl
  rw [hstop, Array.getElem?_setIfInBounds]
  split
  · rw [Option.some.injEq]
  · exact Iff.rfl

theorem obey_setTab_stops (h : t.WellFormed) :
    (t.setTab true).terminal.stops = insert t.column t.stops := by
  ext x
  rw [mem_stops_setTab h, Set.mem_insert_iff]
  by_cases hx : t.column = x
  · simp [hx]
  · simp [hx, Ne.symm hx]

theorem obey_clearTab_stops (h : t.WellFormed) :
    (t.setTab false).terminal.stops = t.stops \ {t.column} := by
  ext x
  rw [mem_stops_setTab h, Set.mem_sdiff, Set.mem_singleton_iff]
  by_cases hx : t.column = x
  · simp [hx]
  · simp [hx, Ne.symm hx]

theorem clearAllTabs_stops (t : Terminal) : t.clearAllTabs.terminal.stops = ∅ := by
  ext x
  have hstop : x ∈ t.clearAllTabs.terminal.stops ↔
      (Array.replicate t.tabs.size false)[x]? = some true := Iff.rfl
  rw [hstop, Array.getElem?_replicate]
  split <;> simp

theorem restoreCursor_stops (t : Terminal) : t.restoreCursor.terminal.stops = t.stops := by
  rw [restoreCursor]
  split <;> rfl

theorem applyAttribute_stops (t : Terminal) (code : Nat) :
    (t.applyAttribute code).terminal.stops = t.stops := by
  rw [applyAttribute]
  split <;> rfl

theorem obey_stops (h : t.WellFormed) (c : Command) :
    (t.obey c).terminal.stops = c.stopsAfter t := by
  cases c with
  | setTab => exact obey_setTab_stops h
  | clearTab => exact obey_clearTab_stops h
  | clearAllTabs => exact clearAllTabs_stops t
  | reset => exact stops_initial ..
  | restoreCursor => exact restoreCursor_stops t
  | mode change => cases change <;> rfl
  | «attribute» code => exact applyAttribute_stops t code
  | screenAlignment => exact stops_editLive t _
  | backspace | tab | carriageReturn | lineFeed | verticalTab | formFeed | print _ | arrow _ _
  | home | goto _ _ | gotoColumn _ | gotoRow _ | index | reverseIndex | nextLine | scrollUp _
  | scrollDown _ | lineSize _ | eraseInLine _ | eraseInDisplay _ | eraseChars _ | deleteChars _
  | insertChars _ | insertLines _ | deleteLines _ => exact (t.obey_drawnAndMoved rfl).stops
  | _ => rfl

theorem mem_stops_iff {x : Nat} : x ∈ t.stops ↔ t.tabs[x]?.getD false = true := by
  show t.tabs[x]? = some true ↔ _
  cases t.tabs[x]? <;> simp

theorem lt_width_of_mem_stops (h : t.WellFormed) {x : Nat} (hx : x ∈ t.stops) : x < t.width := by
  obtain ⟨hsize, -⟩ := Array.getElem?_eq_some_iff.mp hx
  exact (Fits.tabs h) ▸ hsize

theorem mem_stopsFrom (h : t.WellFormed) {x stop : Nat} :
    stop ∈ t.stopsFrom x ↔ stop ∈ t.stops ∧ x < stop := by
  rw [stopsFrom, List.mem_filter, ← mem_stops_iff, rowsUpTo, List.mem_range'_1]
  constructor
  · rintro ⟨hrange, hstop⟩
    exact ⟨hstop, by omega⟩
  · rintro ⟨hstop, hx⟩
    have hwidth := lt_width_of_mem_stops h hstop
    exact ⟨by omega, hstop⟩

theorem stopsFrom_sorted (t : Terminal) (x : Nat) : (t.stopsFrom x).Pairwise (· < ·) :=
  (List.pairwise_lt_range' 1 Nat.one_pos).filter _

theorem nextStop_eq (t : Terminal) :
    t.nextStop = (t.stopsFrom t.cursor.x).head?.getD t.width := by
  rw [stopsFrom, List.head?_filter]
  rfl

section

variable {x first : Nat} {rest : List Nat}

theorem mem_of_stopsFrom (h : t.WellFormed) (hs : t.stopsFrom x = first :: rest) (stop : Nat) :
    stop ∈ first :: rest ↔ stop ∈ t.stops ∧ x < stop := by
  rw [← hs]
  exact mem_stopsFrom h

theorem sorted_of_stopsFrom (hs : t.stopsFrom x = first :: rest) :
    (∀ stop ∈ rest, first < stop) ∧ rest.Pairwise (· < ·) := by
  have hsorted := t.stopsFrom_sorted x
  rwa [hs, List.pairwise_cons] at hsorted

theorem isLeast_of_stopsFrom (h : t.WellFormed) (hs : t.stopsFrom x = first :: rest) :
    IsLeast (t.stops ∩ Set.Ioi x) first := by
  have hmem := mem_of_stopsFrom h hs
  refine ⟨(hmem first).mp (List.mem_cons_self ..), fun stop hstop => ?_⟩
  obtain rfl | hrest := List.mem_cons.mp ((hmem stop).mpr hstop)
  · exact Nat.le_refl _
  · exact Nat.le_of_lt ((sorted_of_stopsFrom hs).1 stop hrest)

theorem stopsFrom_first (h : t.WellFormed) (hs : t.stopsFrom x = first :: rest) :
    t.stopsFrom first = rest := by
  have hmem := mem_of_stopsFrom h hs
  obtain ⟨hfirst, hrest⟩ := sorted_of_stopsFrom hs
  have hx : x < first := ((hmem first).mp (List.mem_cons_self ..)).2
  refine (t.stopsFrom_sorted first).eq_of_mem_iff hrest fun stop => ?_
  rw [mem_stopsFrom h]
  constructor
  · rintro ⟨hstop, hbeyond⟩
    have hfound := (hmem stop).mpr ⟨hstop, Nat.lt_trans hx hbeyond⟩
    exact (List.mem_cons.mp hfound).resolve_left (Nat.ne_of_gt hbeyond)
  · exact fun hr => ⟨((hmem stop).mp (List.mem_cons_of_mem _ hr)).1, hfirst stop hr⟩

end

theorem stopsFrom_width (h : t.WellFormed) : t.stopsFrom t.width = [] := by
  refine List.eq_nil_iff_forall_not_mem.mpr fun stop hstop => ?_
  obtain ⟨hmem, hbeyond⟩ := (mem_stopsFrom h).mp hstop
  exact Nat.lt_asymm hbeyond (lt_width_of_mem_stops h hmem)

/-- Behind the next stop are the others. -/
theorem stopsFrom_nextStop (h : t.WellFormed) :
    t.stopsFrom t.nextStop = (t.stopsFrom t.cursor.x).tail := by
  rw [nextStop_eq]
  cases hs : t.stopsFrom t.cursor.x with
  | nil => exact stopsFrom_width h
  | cons first rest => exact stopsFrom_first h hs

theorem obey_tab (t : Terminal) : t.obey .tab = (t.inColumn t.nextStop).tellingCursor := rfl

/-- To go on from the first of the columns, or from the edge, is to leave out one column. -/
theorem column_of_tail (columns : List Nat) (edge n : Nat) :
    (columns.head?.getD edge :: columns.tail)[n]?.getD edge = columns[n]?.getD edge := by
  cases columns with
  | nil => cases n <;> rfl
  | cons first rest => rfl

/-- Tabs in a row go through the stops and stay at the edge: each leaves its stop behind, and the
others go through the tail. -/
theorem obeyAll_tabs (h : t.WellFormed) (n : Nat) :
    let visited := t.stopsFrom t.cursor.x
    obeyAll (List.replicate n .tab) t =
      ⟨t.inColumn ((t.cursor.x :: visited)[n]?.getD t.width),
        (List.range n).map fun i => .cursor (visited[i]?.getD t.width) t.cursor.y⟩ := by
  induction n generalizing t with
  | zero => rfl
  | succ n ih =>
      intro visited
      have hnext : t.nextStop = visited.head?.getD t.width := nextStop_eq t
      have hbehind : t.stopsFrom t.nextStop = visited.tail := stopsFrom_nextStop h
      have hrest : obeyAll (List.replicate n .tab) (t.inColumn t.nextStop) =
          ⟨t.inColumn ((t.nextStop :: t.stopsFrom t.nextStop)[n]?.getD t.width),
            (List.range n).map fun i =>
              .cursor ((t.stopsFrom t.nextStop)[i]?.getD t.width) t.cursor.y⟩ :=
        ih (h.obey .tab)
      rw [hbehind, hnext, column_of_tail] at hrest
      have hrun : obeyAll (List.replicate (n + 1) .tab) t =
          ⟨(obeyAll (List.replicate n .tab) (t.inColumn t.nextStop)).terminal,
            .cursor t.nextStop t.cursor.y ::
              (obeyAll (List.replicate n .tab) (t.inColumn t.nextStop)).notices⟩ := rfl
      rw [hrun, hnext, hrest, List.range_succ_eq_map, List.map_cons, List.map_map,
        List.head?_eq_getElem?]
      simp only [List.getElem?_tail]
      rfl

/-- On a terminal whose parts fit together a tab reads no column that has no entry among the tab
stops. It goes to the least stop to the right of the cursor, or to the edge beyond the last column
if there is none, and only changes and tells that. So tabs in a row go through all the stops to the
right in increasing order and then stay at the edge. The stops are those at the last reset with
what was set and cleared since: no other command changes them. -/
theorem tab_finds_next_stop (h : t.WellFormed) :
    let ahead := t.stops ∩ Set.Ioi t.cursor.x
    let visited := t.stopsFrom t.cursor.x
    t.obey? .tab = some (t.obey .tab) ∧
      ((∃ stop, IsLeast ahead stop ∧
          t.obey .tab = ⟨t.inColumn stop, [.cursor stop t.cursor.y]⟩) ∨
        ahead = ∅ ∧ t.obey .tab = ⟨t.inColumn t.width, [.cursor t.width t.cursor.y]⟩) ∧
      visited.Pairwise (· < ·) ∧ (∀ stop, stop ∈ visited ↔ stop ∈ ahead) ∧
      (∀ n, obeyAll (List.replicate n .tab) t =
        ⟨t.inColumn ((t.cursor.x :: visited)[n]?.getD t.width),
          (List.range n).map fun i => .cursor (visited[i]?.getD t.width) t.cursor.y⟩) ∧
      ∀ c : Command, (t.obey c).terminal.stops = c.stopsAfter t := by
  intro ahead visited
  refine ⟨Fits.obey?_eq h .tab, ?_, t.stopsFrom_sorted t.cursor.x, fun _ => mem_stopsFrom h,
    obeyAll_tabs h, obey_stops h⟩
  have hnext := nextStop_eq t
  cases hs : t.stopsFrom t.cursor.x with
  | nil =>
      have hnone : ahead = ∅ := by
        refine Set.eq_empty_iff_forall_notMem.mpr fun stop hstop => ?_
        have hfound := (mem_stopsFrom h).mpr hstop
        rw [hs] at hfound
        cases hfound
      rw [obey_tab, hnext, hs]
      exact .inr ⟨hnone, rfl⟩
  | cons first rest =>
      rw [obey_tab, hnext, hs]
      exact .inl ⟨first, isLeast_of_stopsFrom h hs, rfl⟩

/-- A stop added and a default one taken away: four tabs from the first column. A tab while a wrap
is pending. -/
theorem tab_finds_stop_that_was_set :
    let t := (obeyAll [.goto 1 4, .setTab, .goto 1 9, .clearTab, .carriageReturn]
      (initial 20 2 1)).terminal
    let u := ((initial 2 2 1).obey (.print "ab")).terminal
    t.WellFormed ∧ t.stopsFrom t.cursor.x = [3, 16] ∧
      obeyAll (List.replicate 4 .tab) t =
        ⟨t.inColumn 20, [.cursor 3 0, .cursor 16 0, .cursor 20 0, .cursor 20 0]⟩ ∧
      u.WellFormed ∧ u.cursor.x = u.width ∧
      obeyAll (List.replicate 1 .tab) u = ⟨u, [.cursor 2 0]⟩ := by
  intro t u
  have ht : t.WellFormed :=
    each_keeps (P := WellFormed) (fun c _ ht => ht.obey c) _
      (initial_fits (by decide) (by decide))
  have hu : u.WellFormed := WellFormed.obey (initial_fits (by decide) (by decide)) _
  have hstops : t.stopsFrom t.cursor.x = [3, 16] := by decide +kernel
  have hnone : u.stopsFrom u.cursor.x = [] := by decide +kernel
  obtain ⟨-, -, -, -, hrun, -⟩ := tab_finds_next_stop ht
  obtain ⟨-, -, -, -, hstay, -⟩ := tab_finds_next_stop hu
  have hfour := hrun 4
  have hone := hstay 1
  rw [hstops] at hfour
  rw [hnone] at hone
  exact ⟨ht, hstops, hfour, hu, rfl, hone⟩

end Terminal

end TermReplay
