import TermReplay.Proofs.StoredForms

/-!
The parts of a terminal give back what was stored. A record is stored losslessly if its fields
are, and sizes and positions have to fit a machine word.
-/

namespace TermReplay

open Json (Schema)
open Stored (Restores Lossless accepts wordLimit nat_restores)

instance : Lossless LineSize where
  restores s := {
    accepts := Schema.accepts_record (by decide)
      (.cons (accepts s.width) (.cons (accepts s.height) .nil))
    ofJson :=
      (Lossless.restores s.width).bind_eq <|
      (Lossless.restores s.height).bind_eq rfl }

instance : Lossless Designations where
  restores d := {
    accepts := Schema.accepts_record (by decide)
      (.cons (accepts d.g0) (.cons (accepts d.g1) (.cons (accepts d.active) .nil)))
    ofJson :=
      (Lossless.restores d.g0).bind_eq <|
      (Lossless.restores d.g1).bind_eq <|
      (Lossless.restores d.active).bind_eq rfl }

instance : Lossless Leds where
  restores l := {
    accepts := Schema.accepts_exactly [.bool l.led1, .bool l.led2, .bool l.led3, .bool l.led4] (by
        intro v hv
        simp only [List.mem_cons, List.not_mem_nil, or_false] at hv
        obtain rfl | rfl | rfl | rfl := hv <;> exact Schema.accepts_bool _)
    ofJson := rfl }

instance : Lossless Modes where
  restores m := {
    accepts := Schema.accepts_record (by decide) <|
      .cons (accepts m.cursorKeyAnsi) <| .cons (accepts m.keypad) <| .cons (accepts m.scroll) <|
      .cons (accepts m.reverseScreen) <| .cons (accepts m.origin) <| .cons (accepts m.autoWrap) <|
      .cons (accepts m.autoRepeat) <| .cons (accepts m.mouseDown) <| .cons (accepts m.mouseUp) <|
      .cons (accepts m.screen) <| .cons (accepts m.keyboardLocked) <| .cons (accepts m.insert) <|
      .cons (accepts m.localEcho) <| .cons (accepts m.newLine) <|
      .cons (accepts m.cursorVisible) .nil
    ofJson :=
      (Lossless.restores m.cursorKeyAnsi).bind_eq <|
      (Lossless.restores m.keypad).bind_eq <|
      (Lossless.restores m.scroll).bind_eq <|
      (Lossless.restores m.reverseScreen).bind_eq <|
      (Lossless.restores m.origin).bind_eq <|
      (Lossless.restores m.autoWrap).bind_eq <|
      (Lossless.restores m.autoRepeat).bind_eq <|
      (Lossless.restores m.mouseDown).bind_eq <|
      (Lossless.restores m.mouseUp).bind_eq <|
      (Lossless.restores m.screen).bind_eq <|
      (Lossless.restores m.keyboardLocked).bind_eq <|
      (Lossless.restores m.insert).bind_eq <|
      (Lossless.restores m.localEcho).bind_eq <|
      (Lossless.restores m.newLine).bind_eq <|
      (Lossless.restores m.cursorVisible).bind_eq rfl }

theorem Margins.restores {m : Margins} (ht : m.top ≤ wordLimit) (hb : m.bottom ≤ wordLimit) :
    Restores m where
  accepts := Schema.accepts_record (by decide)
    (.cons (nat_restores ht).accepts (.cons (nat_restores hb).accepts .nil))
  ofJson := (nat_restores ht).bind_eq <| (nat_restores hb).bind_eq rfl

theorem Grid.restores {g : Grid} (hw : g.width ≤ wordLimit) (hh : g.height ≤ wordLimit) :
    Restores g where
  accepts := Schema.accepts_record (by decide) <|
    .cons (nat_restores hw).accepts <| .cons (nat_restores hh).accepts <|
    .cons (accepts g.text) <| .cons (accepts g.bold) <| .cons (accepts g.underline) <|
    .cons (accepts g.lowIntensity) <| .cons (accepts g.blink) <| .cons (accepts g.foreground) <|
    .cons (accepts g.background) <| .cons (accepts g.sizes) .nil
  ofJson :=
    (nat_restores hw).bind_eq <|
    (nat_restores hh).bind_eq <|
    (Lossless.restores g.text).bind_eq <|
    (Lossless.restores g.bold).bind_eq <|
    (Lossless.restores g.underline).bind_eq <|
    (Lossless.restores g.lowIntensity).bind_eq <|
    (Lossless.restores g.blink).bind_eq <|
    (Lossless.restores g.foreground).bind_eq <|
    (Lossless.restores g.background).bind_eq <|
    (Lossless.restores g.sizes).bind_eq rfl

theorem Cursor.restores {c : Cursor} (hx : c.x ≤ wordLimit) (hy : c.y ≤ wordLimit) :
    Restores c where
  accepts := Schema.accepts_record (by decide) <|
    .cons (nat_restores hx).accepts <| .cons (nat_restores hy).accepts <|
    .cons (accepts c.pen.bold) <| .cons (accepts c.pen.underline) <|
    .cons (accepts c.pen.lowIntensity) <| .cons (accepts c.pen.blink) <|
    .cons (accepts c.reversed) <| .cons (accepts c.invisible) <|
    .cons (accepts c.pen.foreground) <| .cons (accepts c.pen.background) .nil
  ofJson :=
    (Lossless.restores c.pen.bold).bind_eq <|
    (Lossless.restores c.pen.underline).bind_eq <|
    (Lossless.restores c.pen.lowIntensity).bind_eq <|
    (Lossless.restores c.pen.blink).bind_eq <|
    (Lossless.restores c.pen.foreground).bind_eq <|
    (Lossless.restores c.pen.background).bind_eq <|
    (nat_restores hx).bind_eq <|
    (nat_restores hy).bind_eq <|
    (Lossless.restores c.reversed).bind_eq <|
    (Lossless.restores c.invisible).bind_eq rfl

/-- Saved cursors are stored oldest first and come back in the order they had. -/
theorem SavedCursors.restores {s : SavedCursors} (hs : ∀ c ∈ s.entries, Restores c)
    (hd : s.depth ≤ wordLimit) : Restores s where
  accepts := Schema.accepts_record (by decide)
    (.cons (Stored.list_restores fun c hc => hs c (List.mem_reverse.mp hc)).accepts
      (.cons (nat_restores hd).accepts .nil))
  ofJson :=
    (Stored.list_restores fun c hc => hs c (List.mem_reverse.mp hc)).bind_eq <|
    (nat_restores hd).bind_eq (by
      rw [List.reverse_reverse]
      rfl)

end TermReplay
