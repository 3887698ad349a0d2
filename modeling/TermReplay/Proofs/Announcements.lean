import TermReplay.Proofs.FullScreen

/-!
Modes and titles as a watcher can know them who only has what is announced. Every command but the
two resets announces what it changes of them. The resets put them back to their defaults and
announce nothing, so the watcher is right exactly as long as they find nothing to put back.
-/

namespace TermReplay

/-- The modes after a change that was announced. -/
def Modes.apply (m : Modes) : ModeChange → Modes
  | .screen kind => { m with screen := kind }
  | change => (m.store? change).getD m

/-- A watcher's copy of the modes and titles. -/
structure Followed where
  modes : Modes := {}
  windowTitle : String := ""
  iconTitle : String := ""
  deriving DecidableEq, Repr

namespace Followed

def watch (w : Followed) : Notice → Followed
  | .mode change => { w with modes := w.modes.apply change }
  | .windowTitle title => { w with windowTitle := title }
  | .iconTitle title => { w with iconTitle := title }
  | .change .. | .cursor .. | .bell | .scrolled .. | .replaced | .reply _ | .warning _ => w

def watchAll (w : Followed) (notices : List Notice) : Followed := notices.foldl watch w

theorem watchAll_append (w : Followed) (xs ys : List Notice) :
    w.watchAll (xs ++ ys) = (w.watchAll xs).watchAll ys := List.foldl_append

theorem watchAll_wholeRows (w : Followed) (t : Terminal) (rows : List Nat) :
    w.watchAll (t.wholeRows rows) = w := by
  induction rows with
  | nil => rfl
  | cons y rows ih => exact ih

end Followed

namespace Terminal

/-- What there is to follow of a terminal. The origin is never announced and stays out. -/
def followed (t : Terminal) : Followed :=
  { modes := { t.modes with origin := .screen }
    windowTitle := t.windowTitle
    iconTitle := t.iconTitle }

theorem followed_editLive (t : Terminal) (f : Grid → Grid) :
    (t.editLive f).followed = t.followed := by
  unfold editLive
  split <;> rfl

/-- A watcher who is right before is right after all that is told. -/
def Announces (f : Terminal → Reaction) : Prop :=
  ∀ t : Terminal, t.followed.watchAll (f t).notices = (f t).terminal.followed

namespace Announces

variable {f g : Terminal → Reaction}

theorem andThen (hf : Announces f) (hg : Announces g) : Announces fun t => (f t).andThen g := by
  intro t
  rw [Reaction.andThen_notices, Followed.watchAll_append, hf t, hg, Reaction.andThen_terminal]

theorem ite {p : Terminal → Prop} [DecidablePred p] (hf : Announces f) (hg : Announces g) :
    Announces fun t => if p t then f t else g t := by
  intro t
  dsimp only
  split
  · exact hf t
  · exact hg t

theorem each {α : Type} {f : α → Terminal → Reaction} (hf : ∀ a, Announces (f a))
    (xs : List α) : Announces (Terminal.each f xs) := by
  induction xs with
  | nil => exact fun _ => rfl
  | cons x xs ih => exact (hf x).andThen ih

/-- Edits of the grid on display that tell of something else than modes and titles. -/
theorem edit (f : Grid → Grid) {notices : List Notice}
    (hn : ∀ w : Followed, w.watchAll notices = w) :
    Announces fun t => (t.editLive f).telling notices := by
  intro t
  rw [telling_notices, telling_terminal, hn, followed_editLive]

end Announces

theorem cycleRows_announces (remove insert : Nat) (direction : Int) (count : Nat) :
    Announces (cycleRows remove insert direction count) := by
  induction count with
  | zero => exact fun _ => rfl
  | succ count ih =>
      have hstep : Announces fun t => (t.editLive (·.cycleRows remove insert)).telling
          [.scrolled (t.live.rowImage remove) direction] :=
        fun t => Announces.edit (·.cycleRows remove insert) (fun _ => rfl) t
      exact hstep.andThen ih

theorem tellingRegion_announces : Announces tellingRegion :=
  fun t => Followed.watchAll_wholeRows t.followed t _

theorem scrolling_announces (remove insert : Nat) (direction : Int) (count : Nat) :
    Announces fun t => (cycleRows remove insert direction count t).andThen tellingRegion :=
  (cycleRows_announces remove insert direction count).andThen tellingRegion_announces

theorem scrollUp_announces (count : Nat) : Announces (·.scrollUp count) :=
  .ite (fun _ => rfl) fun t =>
    scrolling_announces t.margins.top t.margins.bottom 1 (min count t.regionHeight) t

theorem scrollDown_announces (count : Nat) : Announces (·.scrollDown count) :=
  .ite (fun _ => rfl) fun t =>
    scrolling_announces t.margins.bottom t.margins.top (-1) (min count t.regionHeight) t

theorem advanceLine_announces : Announces advanceLine := by
  have hdown : Announces fun t =>
      if t.cursor.y = t.margins.bottom then t.scrollUp 1
      else (t.moveTo t.cursor.x (t.cursor.y + 1)).quietly :=
    .ite (scrollUp_announces 1) fun _ => rfl
  intro t
  rw [advanceLine_eq]
  exact hdown.andThen (g := fun t => t.limitRow.quietly) (fun _ => rfl) t

theorem index_announces : Announces index :=
  .ite (scrollUp_announces 1) (.ite (fun _ => rfl) fun _ => rfl)

theorem reverseIndex_announces : Announces reverseIndex :=
  .ite (scrollDown_announces 1) (.ite (fun _ => rfl) fun _ => rfl)

theorem lineFeed_announces : Announces lineFeed := by
  refine advanceLine_announces.andThen fun t => ?_
  cases t.modes.newLine <;> rfl

theorem nextLine_announces : Announces nextLine := index_announces.andThen fun _ => rfl

theorem settleWrap_announces : Announces settleWrap :=
  .ite (.ite (fun t => advanceLine_announces (t.moveTo 0 t.cursor.y)) fun _ => rfl) fun _ => rfl

theorem place_announces (char : Char) : Announces (·.place char) := by
  have hedit : ∀ (f : Grid → Grid) (row first last x y : Nat), Announces fun t =>
      ((t.editLive f).telling [.change row first last]).andThen
        fun t => (t.moveTo x y).tellingCursor :=
    fun f _ _ _ _ _ => (Announces.edit f fun _ => rfl).andThen fun _ => rfl
  exact .ite (fun t => hedit _ _ _ _ _ _ t) fun t => hedit _ _ _ _ _ _ t

theorem printChar_announces (char : Char) : Announces (printChar char) :=
  fun t => settleWrap_announces.andThen (place_announces (t.designations.translate char)) t

theorem print_announces (text : String) : Announces (·.print text) :=
  Announces.each printChar_announces text.toList

theorem blankColumns_announces (first last : Nat) : Announces (·.blankColumns first last) :=
  fun t => Announces.edit (·.blankSpan t.cursor.y first last) (fun _ => rfl) t

theorem eraseInLine_announces (scope : EraseScope) : Announces (·.eraseInLine scope) := by
  cases scope <;> exact fun t => blankColumns_announces _ _ t

/-- Edits that tell of whole rows. -/
theorem editRows_announces (f : Terminal → Grid → Grid) (rows : Terminal → List Nat) :
    Announces fun t => (t.editLive (f t)).telling (t.wholeRows (rows t)) :=
  fun t => Announces.edit (f t) (Followed.watchAll_wholeRows · t (rows t)) t

theorem blankRows_announces (first stop : Nat) (order : List Nat → List Nat) :
    Announces (·.blankRows first stop order) := editRows_announces _ _

theorem eraseInDisplay_announces (scope : EraseScope) : Announces (·.eraseInDisplay scope) := by
  cases scope with
  | toStart =>
      exact fun t => (eraseInLine_announces .toStart).andThen
        (blankRows_announces 0 t.cursor.y List.reverse) t
  | toEnd =>
      exact fun t => (eraseInLine_announces .toEnd).andThen
        (fun t' => blankRows_announces (t.cursor.y + 1) t'.height id t') t
  | whole => exact fun t => blankRows_announces 0 t.height id t

/-- Edits that tell of the rest of the cursor row. -/
theorem editRest_announces (f : Grid → Grid) : Announces fun t => (t.editLive f).tellingRest :=
  fun t => (followed_editLive t f).symm

theorem editLines_announces (count : Nat) (f : Nat → Nat → Grid → Grid) :
    Announces (·.editLines count f) :=
  .ite (fun _ => rfl) (editRows_announces _ _)

/-- Tells of every row and then of the cursor. -/
theorem everyRow_announces :
    Announces fun t => (t.telling (t.wholeRows (rowsUpTo 0 t.height))).andThen tellingCursor :=
  Announces.andThen (fun t => Followed.watchAll_wholeRows t.followed t _) fun _ => rfl

theorem alignScreen_announces : Announces alignScreen := by
  intro t
  have hrows := everyRow_announces
    ({ t.editLive (·.fill 'E') with margins := Margins.full t.height }.moveTo 0 0)
  have hsame : ({ t.editLive (·.fill 'E') with margins := Margins.full t.height }.moveTo
      0 0).followed = t.followed := followed_editLive t _
  rw [hsame] at hrows
  simpa only [alignScreen, editLive_height] using hrows

/-- The rows of a screen that is switched to are told first, and do not matter to the watcher. -/
theorem changeMode_announces (change : ModeChange) : Announces (·.changeMode change) := by
  intro t
  cases change with
  | screen kind =>
      simp only [changeMode, telling_notices, Followed.watchAll_append, Followed.watchAll_wholeRows]
      rfl
  | _ => rfl

theorem restoreCursor_announces : Announces restoreCursor := by
  intro t
  simp only [restoreCursor]
  split <;> rfl

theorem applyAttribute_announces (code : Nat) : Announces (·.applyAttribute code) := by
  intro t
  simp only [applyAttribute]
  split <;> rfl

theorem obey_announces {c : Command} (hsoft : c ≠ .softReset) (hreset : c ≠ .reset) :
    Announces (·.obey c) := by
  cases c with
  | softReset => exact absurd rfl hsoft
  | reset => exact absurd rfl hreset
  | bell | backspace | tab | carriageReturn => exact fun _ => rfl
  | useSlot _ | designate _ _ | singleShift _ _ => exact fun _ => rfl
  | home | goto _ _ | gotoColumn _ | gotoRow _ | origin _ => exact fun _ => rfl
  | setTab | clearTab | clearAllTabs | saveCursor => exact fun _ => rfl
  | report _ | ledsOff | led _ | selfTest _ => exact fun _ => rfl
  | windowTitle _ | iconTitle _ | bothTitles _ => exact fun _ => rfl
  | margins _ _ | resetMargins => exact fun _ => rfl
  | arrow direction _ => cases direction <;> exact fun _ => rfl
  | lineFeed | verticalTab | formFeed => exact lineFeed_announces
  | index => exact index_announces
  | reverseIndex => exact reverseIndex_announces
  | nextLine => exact nextLine_announces
  | restoreCursor => exact restoreCursor_announces
  | print text => exact print_announces text
  | mode change => exact changeMode_announces change
  | lineSize size =>
      exact editRows_announces (fun t g => g.setLineSize t.cursor.y size) fun t => [t.cursor.y]
  | eraseInLine scope => exact eraseInLine_announces scope
  | eraseInDisplay scope => exact eraseInDisplay_announces scope
  | deleteChars _ | insertChars _ => exact fun t => editRest_announces _ t
  | eraseChars _ => exact fun t => blankColumns_announces _ _ t
  | insertLines count => exact editLines_announces count fun y bottom g => g.cycleRows bottom y
  | deleteLines count => exact editLines_announces count fun y bottom g => g.cycleRows y bottom
  | scrollUp count => exact scrollUp_announces count
  | scrollDown count => exact scrollDown_announces count
  | «attribute» code => exact applyAttribute_announces code
  | screenAlignment => exact alignScreen_announces

end Terminal

/-- Whether a watcher who is right stays right over the command: a reset must find nothing that
it puts back. A soft reset leaves the titles and the choice of the screen alone. -/
def Command.KeepsWatcher (c : Command) (t : Terminal) : Prop :=
  match c with
  | .softReset => t.followed.modes = { screen := t.modes.screen }
  | .reset => t.followed = {}
  | _ => True

namespace Terminal

variable {t : Terminal}

theorem obey_announced_iff (c : Command) :
    t.followed.watchAll (t.obey c).notices = (t.obey c).terminal.followed ↔
      c.KeepsWatcher t := by
  by_cases hsoft : c = .softReset
  · subst hsoft
    have hafter : t.softReset.terminal.followed =
        { t.followed with modes := { screen := t.modes.screen } } := rfl
    show t.followed = t.softReset.terminal.followed ↔ t.followed.modes = _
    rw [hafter]
    exact ⟨congrArg Followed.modes, fun h => h ▸ rfl⟩
  by_cases hreset : c = .reset
  · subst hreset
    have hnotices : (t.obey .reset).notices =
        (initial t.width t.height t.saved.depth).wholeRows (rowsUpTo 0 t.height) ++ [.cursor 0 0] :=
      rfl
    rw [hnotices, Followed.watchAll_append, Followed.watchAll_wholeRows]
    exact Iff.rfl
  · refine iff_of_true (obey_announces hsoft hreset t) ?_
    cases c with
    | softReset => exact absurd rfl hsoft
    | reset => exact absurd rfl hreset
    | _ => trivial

/-- The watcher is right after so many commands, having been right at the start. -/
def FollowedFor (commands : List Command) (t : Terminal) (count : Nat) : Prop :=
  let r := obeyAll (commands.take count) t
  t.followed.watchAll r.notices = r.terminal.followed

theorem followedFor_succ {commands : List Command} {count : Nat} {c : Command}
    (hc : commands[count]? = some c) (h : FollowedFor commands t count) :
    FollowedFor commands t (count + 1) ↔
      c.KeepsWatcher (obeyAll (commands.take count) t).terminal := by
  have hrun : obeyAll (commands.take (count + 1)) t =
      (obeyAll (commands.take count) t).andThen (·.obey c) := by
    have hone : each (fun c t => t.obey c) [c] = (·.obey c) :=
      funext fun t => each_singleton (fun c t => t.obey c) c t
    rw [List.take_add_one, hc, obeyAll, each_append, Option.toList_some, hone]
    rfl
  rw [FollowedFor, hrun, Reaction.andThen_notices, Followed.watchAll_append, h]
  exact obey_announced_iff c

theorem followedFor_iff (commands : List Command) :
    (∀ count, FollowedFor commands t count) ↔
      ∀ (count : Nat) (c : Command), commands[count]? = some c →
        c.KeepsWatcher (obeyAll (commands.take count) t).terminal := by
  constructor
  · intro h count c hc
    exact (followedFor_succ hc (h count)).mp (h (count + 1))
  · intro h count
    induction count with
    | zero => rfl
    | succ count ih =>
        cases hc : commands[count]? with
        | some c => exact (followedFor_succ hc ih).mpr (h count c hc)
        | none =>
            have hsame : commands.take (count + 1) = commands.take count := by
              rw [List.take_add_one, hc, Option.toList_none, List.append_nil]
            rw [FollowedFor, hsame]
            exact ih

/-- A watcher who starts with default modes and empty titles, and goes by the announced changes
alone, has the modes and titles of a new terminal after each of its commands exactly if every
reset on the way finds nothing to put back. -/
theorem watcher_right_iff {width height depth : Nat}
    (ht : create width height depth = .ok t) (commands : List Command) :
    (∀ count,
        let r := obeyAll (commands.take count) t
        Followed.watchAll {} r.notices = r.terminal.followed) ↔
      ∀ (count : Nat) (c : Command), commands[count]? = some c →
        c.KeepsWatcher (obeyAll (commands.take count) t).terminal := by
  have hstart : t.followed = {} := by
    rw [(create_eq_ok ht).2]
    rfl
  rw [← followedFor_iff]
  simp only [FollowedFor, hstart]

/-- Titles, a switch of the screen and an origin are no obstacle to a soft reset. -/
theorem watcher_right_over_soft_reset :
    let commands : List Command :=
      [.bothTitles "a", .mode (.screen .alternate), .origin .margin, .softReset]
    ∀ count,
      let r := obeyAll (commands.take count) (initial 4 2 1)
      Followed.watchAll {} r.notices = r.terminal.followed := by
  intro commands
  refine (watcher_right_iff (show create 4 2 1 = .ok (initial 4 2 1) from rfl) commands).mpr ?_
  intro count c hc
  match count with
  | 0 | 1 | 2 | 3 =>
      cases hc
      trivial
  | count + 4 => cases hc

/-- Reverse video goes on for a watcher whom nobody tells that a soft reset ended it. -/
theorem reverse_video_outlives_soft_reset :
    let r := obeyAll [.mode (.reverseScreen true), .softReset] (initial 4 2 1)
    Followed.watchAll {} r.notices = { modes := { reverseScreen := true } } ∧
      r.terminal.followed = {} :=
  ⟨rfl, rfl⟩

end Terminal

end TermReplay
