import TermReplay.Proofs.Chunking
import TermReplay.Proofs.HiddenScreen

/-!
Programs that take the whole screen: the sequences in front of one and behind it switch to the
alternate screen and back, around one more saved cursor. What the program shows in between stays
on the alternate screen, and the cursors it saves itself are above the one saved first.
-/

namespace TermReplay

/-- Every cursor that is restored was saved before, every saved one is restored, and of the
commands' own at most `limit` are held at once; `held` of them were saved in front. -/
inductive Command.SavesNest (limit : Nat) : Nat → List Command → Prop
  | done : SavesNest limit 0 []
  | save {held : Nat} {rest : List Command} : held < limit → SavesNest limit (held + 1) rest →
      SavesNest limit held (.saveCursor :: rest)
  | restore {held : Nat} {rest : List Command} : SavesNest limit held rest →
      SavesNest limit (held + 1) (.restoreCursor :: rest)
  | other {held : Nat} {c : Command} {rest : List Command} : c ≠ .saveCursor →
      c ≠ .restoreCursor → SavesNest limit held rest → SavesNest limit held (c :: rest)

namespace SavedCursors

variable {s : SavedCursors} {mark : Cursor} {held : Nat}

@[simp] theorem push_depth (s : SavedCursors) (c : Cursor) : (s.push c).depth = s.depth := by
  unfold push
  split <;> rfl

/-- What is `held` below the newest is one further down after another is saved, if there is room
for both. -/
theorem push_keeps (h : s.entries[held]? = some mark) (hroom : held + 1 < s.depth) (c : Cursor) :
    (s.push c).entries[held + 1]? = some mark := by
  rw [push, if_neg (Nat.ne_zero_of_lt hroom)]
  show ((c :: s.entries).take s.depth)[held + 1]? = some mark
  rw [List.getElem?_take, if_pos hroom]
  exact h

theorem push_top (hroom : 0 < s.depth) (c : Cursor) : (s.push c).entries[0]? = some c := by
  rw [push, if_neg (Nat.ne_of_gt hroom)]
  show ((c :: s.entries).take s.depth)[0]? = some c
  rw [List.getElem?_take, if_pos hroom]
  rfl

/-- Something is saved where there is a mark, and taking it off brings the mark up. -/
theorem pop_of_mark (h : s.entries[held]? = some mark) :
    ∃ c rest, s.entries = c :: rest ∧ s.pop? = some (c, { s with entries := rest }) := by
  cases he : s.entries with
  | nil => simp [he] at h
  | cons c rest => exact ⟨c, rest, rfl, by rw [pop?, he]⟩

end SavedCursors

namespace Terminal

def obeyAll (commands : List Command) (t : Terminal) : Reaction :=
  each (fun c t => t.obey c) commands t

theorem restoreCursor_of_pop {t : Terminal} {c : Cursor} {saved : SavedCursors}
    (h : t.saved.pop? = some (c, saved)) :
    t.restoreCursor = { t with cursor := c, saved }.tellingCursor := by
  rw [restoreCursor, h]

/-- The alternate screen is on display, the primary one and the cursor are kept as they were at
`start`; `held` cursors were saved since. -/
structure AsideFrom (start : Terminal) (held : Nat) (t : Terminal) : Prop where
  screen : t.modes.screen = .alternate
  primary : t.primary = start.primary
  depth : t.saved.depth = start.saved.depth
  mark : t.saved.entries[held]? = some start.cursor

namespace AsideFrom

variable {start t : Terminal} {held limit : Nat}

theorem obey_other (h : AsideFrom start held t) {c : Command} (hc : c.KeepsUnseen) :
    AsideFrom start held (t.obey c).terminal := by
  have hun := obey_unaware hc
  have hscreen : (t.obey c).terminal.modes.screen = .alternate :=
    (hun t t.hidden t.saved).2.trans h.screen
  have hhidden := hun.hidden t
  have hsaved := hun.saved t
  refine ⟨hscreen, ?_, ?_, ?_⟩
  · simp only [Terminal.hidden, hscreen, h.screen] at hhidden
    exact hhidden.trans h.primary
  · rw [hsaved, h.depth]
  · rw [hsaved, h.mark]

theorem saveCursor (h : AsideFrom start held t) (hroom : held + 1 < start.saved.depth) :
    AsideFrom start (held + 1) t.saveCursor.terminal where
  screen := h.screen
  primary := h.primary
  depth := (SavedCursors.push_depth ..).trans h.depth
  mark := SavedCursors.push_keeps h.mark (h.depth ▸ hroom) _

theorem restoreCursor (h : AsideFrom start (held + 1) t) :
    AsideFrom start held t.restoreCursor.terminal := by
  obtain ⟨c, rest, hentries, hpop⟩ := SavedCursors.pop_of_mark h.mark
  have hmark := h.mark
  rw [hentries, List.getElem?_cons_succ] at hmark
  rw [restoreCursor_of_pop hpop]
  exact ⟨h.screen, h.primary, h.depth, hmark⟩

/-- Once as many cursors were restored as saved, the one to be restored next is that of the
start. -/
theorem obeyAll {body : List Command} (hnest : Command.SavesNest limit held body)
    (hroom : limit < start.saved.depth)
    (hbody : ∀ c ∈ body, c ≠ .reset ∧ c ≠ .softReset ∧ ∀ kind, c ≠ .mode (.screen kind))
    (h : AsideFrom start held t) : AsideFrom start 0 (obeyAll body t).terminal := by
  induction hnest generalizing t with
  | done => exact h
  | save hlimit _ ih =>
      refine ih (fun c hc => hbody c (List.mem_cons_of_mem _ hc)) ?_
      exact h.saveCursor (Nat.lt_of_le_of_lt hlimit hroom)
  | restore _ ih => exact ih (fun c hc => hbody c (List.mem_cons_of_mem _ hc)) h.restoreCursor
  | other hsave hrestore _ ih =>
      refine ih (fun c hc => hbody c (List.mem_cons_of_mem _ hc)) ?_
      obtain ⟨hreset, hsoft, hswitch⟩ := hbody _ (List.mem_cons_self ..)
      exact h.obey_other ⟨hsave, hrestore, hsoft, hreset, hswitch⟩

end AsideFrom

/-- Set and reset private mode 1049. -/
def enterFullScreen : List UInt8 := Text.asciiBytes "\x1b[?1049h"

def leaveFullScreen : List UInt8 := Text.asciiBytes "\x1b[?1049l"

theorem readTokens_enterFullScreen :
    (readTokens enterFullScreen).1 = [.command .saveCursor,
      .command (.mode (.screen .alternate)), .command (.eraseInDisplay .whole)] := by
  decide +kernel

theorem readTokens_leaveFullScreen :
    (readTokens leaveFullScreen).1 =
      [.command (.mode (.screen .primary)), .command .restoreCursor] := by
  decide +kernel

theorem followAll_map_command (commands : List Command) (t : Terminal) :
    t.followAll (commands.map .command) = obeyAll commands t :=
  each_map follow .command commands t

theorem aside_of_enter {t : Terminal} (hroom : 0 < t.saved.depth) :
    AsideFrom t 0 (t.followAll (readTokens enterFullScreen).1).terminal := by
  have hswitched : AsideFrom t 0
      (t.saveCursor.terminal.changeMode (.screen .alternate)).terminal :=
    ⟨rfl, rfl, SavedCursors.push_depth .., SavedCursors.push_top hroom _⟩
  rw [readTokens_enterFullScreen]
  exact hswitched.obey_other (c := .eraseInDisplay .whole)
    ⟨nofun, nofun, nofun, nofun, fun _ => nofun⟩

theorem AsideFrom.leave {start t : Terminal} (h : AsideFrom start 0 t) :
    let after := (t.followAll (readTokens leaveFullScreen).1).terminal
    after.modes.screen = .primary ∧ after.primary = start.primary ∧
      after.cursor = start.cursor := by
  obtain ⟨c, rest, hentries, hpop⟩ := SavedCursors.pop_of_mark h.mark
  have hmark := h.mark
  rw [hentries] at hmark
  cases hmark
  have hafter : (t.followAll
      [.command (.mode (.screen .primary)), .command .restoreCursor]).terminal =
      { t with
        modes := { t.modes with screen := .primary }
        cursor := start.cursor
        saved := { t.saved with entries := rest } } :=
    congrArg Reaction.terminal
      (restoreCursor_of_pop (t := { t with modes := { t.modes with screen := .primary } }) hpop)
  rw [readTokens_leaveFullScreen, hafter]
  exact ⟨rfl, h.primary, rfl⟩

/-- A program that takes the whole screen and saves no more cursors at once than there is room
for leaves no trace: the primary screen is on display again, with every cell and line size, and
the cursor is back with its pen, whatever was saved at the start. -/
theorem fullScreen_leaves_no_trace (t : Terminal) {body : List Command}
    (hbody : ∀ c ∈ body, c ≠ .reset ∧ c ≠ .softReset ∧ ∀ kind, c ≠ .mode (.screen kind))
    {nesting : Nat} (hnest : Command.SavesNest nesting 0 body)
    (hroom : nesting < t.saved.depth) :
    let after := (t.followAll ((readTokens enterFullScreen).1 ++ body.map .command ++
      (readTokens leaveFullScreen).1)).terminal
    after.modes.screen = .primary ∧ after.primary = t.primary ∧ after.cursor = t.cursor := by
  have hentered := aside_of_enter (Nat.zero_lt_of_lt hroom)
  have hdone := AsideFrom.obeyAll hnest hroom hbody hentered
  simp only [followAll_append, Reaction.andThen_terminal, followAll_map_command]
  exact hdone.leave

/-- A stack of two that is full at the start, and a wrap pending: what was saved before gives way
to the cursor saved in front of the program and to the program's own. -/
theorem fullScreen_with_no_room_left :
    let t := (obeyAll [.print "ab", .attribute 7, .saveCursor, .saveCursor]
      (Terminal.initial 2 2 2)).terminal
    let body : List Command := [.print "xyz", .saveCursor, .attribute 31, .scrollUp 1,
      .restoreCursor, .screenAlignment]
    let after := (t.followAll ((readTokens enterFullScreen).1 ++ body.map .command ++
      (readTokens leaveFullScreen).1)).terminal
    t.saved.entries.length = t.saved.depth ∧ t.cursor.x = t.width ∧
      after.modes.screen = .primary ∧ after.primary = t.primary ∧ after.cursor = t.cursor := by
  intro t body after
  have hbody : ∀ c ∈ body,
      c ≠ .reset ∧ c ≠ .softReset ∧ ∀ kind, c ≠ .mode (.screen kind) := by
    simp [body]
  have hnest : Command.SavesNest 1 0 body :=
    .other nofun nofun (.save Nat.one_pos (.other nofun nofun (.other nofun nofun
      (.restore (.other nofun nofun .done)))))
  exact ⟨by decide, by decide, fullScreen_leaves_no_trace t hbody hnest (by decide)⟩

end Terminal

end TermReplay
