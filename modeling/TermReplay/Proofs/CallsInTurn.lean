import Mathlib.Data.List.Basic
import TermReplay.Proofs.PrintedText

/-!
Commands asked for in several calls, one after the other, going on after calls that failed. What
the calls read is what one call reads of all the bytes. A call that fails gives none of what it
read, so commands are lost exactly if a call fails after it has read some.
-/

namespace TermReplay

open Text

namespace Delivery

def commands (d : Delivery) : List Command := d.outputs.filterMap Output.command?

def answer (d : Delivery) : Except StuckInput (List Command) :=
  match d.stuck with
  | some e => .error e
  | none => .ok d.commands

/-- The commands that a call gives: all that it read, or none. -/
def given (d : Delivery) : List Command := if d.stuck.isSome then [] else d.commands

theorem given_sublist (d : Delivery) : d.given.Sublist d.commands := by
  unfold given
  split
  · exact List.nil_sublist d.commands
  · exact List.Sublist.refl d.commands

/-- What several calls give is part of what they read. -/
theorem letters_given_sublist (ds : List Delivery) :
    ((ds.flatMap given).flatMap Command.letters).Sublist
      ((ds.flatMap commands).flatMap Command.letters) := by
  induction ds with
  | nil => exact List.Sublist.refl []
  | cons d ds ih =>
      simp only [List.flatMap_cons, List.flatMap_append]
      refine List.Sublist.append ?_ ih
      unfold given
      split
      · exact List.nil_sublist _
      · exact List.Sublist.refl _

/-- Calls give all that they read exactly if those that fail have read nothing: what the other
calls give is too short to make up for it. -/
theorem letters_given_iff {ds : List Delivery} (h : ∀ d ∈ ds, ∀ c ∈ d.commands, c.HasText) :
    (ds.flatMap given).flatMap Command.letters =
        (ds.flatMap commands).flatMap Command.letters ↔
      ∀ d ∈ ds, d.stuck.isSome → d.commands = [] := by
  induction ds with
  | nil => simp
  | cons d ds ih =>
      obtain ⟨hd, hds⟩ := List.forall_mem_cons.mp h
      simp only [List.flatMap_cons, List.flatMap_append]
      rw [List.forall_mem_cons, ← ih hds, given]
      by_cases hstuck : d.stuck.isSome
      · rw [if_pos hstuck, List.flatMap_nil, List.nil_append]
        constructor
        · intro heq
          have hle := (letters_given_sublist ds).length_le
          have hlength := congrArg List.length heq
          rw [List.length_append] at hlength
          have hnone : d.commands = [] :=
            (Command.letters_eq_nil_iff hd).mp (List.length_eq_zero_iff.mp (by omega))
          rw [hnone] at heq
          exact ⟨fun _ => hnone, heq⟩
        · rintro ⟨hnone, heq⟩
          rw [heq, hnone hstuck]
          rfl
      · rw [if_neg hstuck, List.append_cancel_left_eq]
        exact (and_iff_right fun he => absurd he hstuck).symm

end Delivery

namespace ByteStream

def fresh (limit : Nat) : ByteStream := { limit }

def feedEach (s : ByteStream) : List (List UInt8) → List Delivery
  | [] => []
  | bytes :: rest => s.feed bytes :: (s.feed bytes).stream.feedEach rest

/-- The answers when the commands of chunks are asked for one after the other. -/
def commandsEach (s : ByteStream) : List (List UInt8) → List (Except StuckInput (List Command))
  | [] => []
  | bytes :: rest => (s.commands bytes).2 :: (s.commands bytes).1.commandsEach rest

def allGiven (answers : List (Except StuckInput (List Command))) : List Command :=
  answers.flatMap fun answer => answer.toOption.getD []

theorem allGiven_commandsEach (s : ByteStream) (chunks : List (List UInt8)) :
    allGiven (s.commandsEach chunks) = (s.feedEach chunks).flatMap Delivery.given := by
  induction chunks generalizing s with
  | nil => rfl
  | cons bytes rest ih =>
      have hanswer : (s.feed bytes).answer.toOption.getD [] = (s.feed bytes).given := by
        unfold Delivery.answer Delivery.given
        split <;> simp [Except.toOption, *]
      rw [feedEach, List.flatMap_cons, ← ih, ← hanswer]
      rfl

theorem feedEach_hasText (s : ByteStream) (chunks : List (List UInt8)) :
    ∀ d ∈ s.feedEach chunks, ∀ c ∈ d.commands, c.HasText := by
  induction chunks generalizing s with
  | nil => exact List.forall_mem_nil _
  | cons bytes rest ih =>
      refine List.forall_mem_cons.mpr ⟨fun c hc => ?_, ih _⟩
      obtain ⟨output, houtput, hcommand⟩ := List.mem_filterMap.mp hc
      exact readTokens_hasText _ output houtput c hcommand

/-- All calls together read what one call reads of all bytes. -/
theorem feedEach_letters {s : ByteStream} (hs : nextToken s.pending = none)
    (chunks : List (List UInt8)) :
    ((s.feedEach chunks).flatMap Delivery.commands).flatMap Command.letters =
      (s.feed chunks.flatten).commands.flatMap Command.letters := by
  induction chunks generalizing s with
  | nil => simp [feedEach, feed, Delivery.commands, readTokens_of_none hs]
  | cons bytes rest ih =>
      have hrest := ih (s := (s.feed bytes).stream) (nextToken_left_over _)
      obtain ⟨hread, -⟩ := readTokens_append (s.pending ++ bytes) rest.flatten
      have hcommands := congrArg (List.filterMap Output.command?) hread
      rw [List.filterMap_append] at hcommands
      simp only [Output.commands_spell] at hcommands
      rw [feedEach, List.flatMap_cons, List.flatMap_append, hrest]
      simp only [feed, Delivery.commands, List.flatten_cons, ← List.append_assoc, hcommands]

/-- A stream that has room for all its bytes is not stuck. -/
theorem commands_of_le {s : ByteStream} {bytes : List UInt8}
    (h : (s.pending ++ bytes).length ≤ s.limit) :
    (s.commands bytes).2 = .ok (s.feed bytes).commands := by
  have hle : (readTokens (s.pending ++ bytes)).2.length ≤ s.limit :=
    Nat.le_trans (length_left_over_le _) h
  have hstuck : (s.feed bytes).stuck = none := if_neg (Nat.not_lt.mpr hle)
  simp only [commands, hstuck]
  rfl

/-- Calls in turn read the commands that one call gives which has room for all their bytes. They
give all of these, but for where the printed text is cut, exactly if none fails after it has read
some. -/
theorem given_eq_whole_iff {chunks : List (List UInt8)} {enough : Nat}
    (h : chunks.flatten.length ≤ enough) (limit : Nat) :
    ∃ whole, ((fresh enough).commands chunks.flatten).2 = .ok whole ∧
      Command.joinPrints (((fresh limit).feedEach chunks).flatMap Delivery.commands) =
        Command.joinPrints whole ∧
      (Command.joinPrints (allGiven ((fresh limit).commandsEach chunks)) =
          Command.joinPrints whole ↔
        ∀ d ∈ (fresh limit).feedEach chunks, d.stuck.isSome → d.commands = []) := by
  have hread := feedEach_hasText (fresh limit) chunks
  have hall : ∀ c ∈ ((fresh limit).feedEach chunks).flatMap Delivery.commands, c.HasText :=
    List.forall_mem_flatMap.mpr hread
  have hgiven : ∀ c ∈ ((fresh limit).feedEach chunks).flatMap Delivery.given, c.HasText :=
    List.forall_mem_flatMap.mpr fun d hd c hc => hread d hd c (d.given_sublist.subset hc)
  have hwhole : ∀ c ∈ ((fresh enough).feed chunks.flatten).commands, c.HasText :=
    feedEach_hasText (fresh enough) [chunks.flatten] _ (List.mem_singleton_self _)
  have hletters : (((fresh limit).feedEach chunks).flatMap Delivery.commands).flatMap
      Command.letters = ((fresh enough).feed chunks.flatten).commands.flatMap Command.letters :=
    feedEach_letters (s := fresh limit) nextToken_nil chunks
  refine ⟨_, commands_of_le h, (Command.joinPrints_eq_iff hall hwhole).mpr hletters, ?_⟩
  rw [allGiven_commandsEach, Command.joinPrints_eq_iff hgiven hwhole, ← hletters,
    Delivery.letters_given_iff hread]

/-- A colour that overruns the limit is only delayed, and the text behind it is cut otherwise. -/
theorem given_eq_whole_of_late_colour :
    let chunks := [asciiBytes "\x1b[1234", asciiBytes "mab", asciiBytes "c"]
    chunks.flatten.length ≤ 10 ∧
      (fresh 4).commandsEach chunks =
        [.error ⟨asciiBytes "\x1b[1234"⟩, .ok [.attribute 1234, .print "ab"], .ok [.print "c"]] ∧
      ∃ whole, ((fresh 10).commands chunks.flatten).2 = .ok whole ∧
        Command.joinPrints (allGiven ((fresh 4).commandsEach chunks)) =
          Command.joinPrints whole := by
  intro chunks
  have hroom : chunks.flatten.length ≤ 10 := by decide +kernel
  obtain ⟨whole, hwhole, -, hlost⟩ := given_eq_whole_iff hroom 4
  exact ⟨hroom, by decide +kernel, whole, hwhole, hlost.mpr (by decide +kernel)⟩

/-- A call that fails on the start of a colour has read a text, which no call gives. -/
theorem text_lost_before_late_colour :
    let chunks := [asciiBytes "x\x1b[1234", asciiBytes "m"]
    (fresh 4).commandsEach chunks =
        [.error ⟨asciiBytes "\x1b[1234"⟩, .ok [.attribute 1234]] ∧
      ((fresh 8).commands chunks.flatten).2 = .ok [.print "x", .attribute 1234] ∧
      Command.joinPrints (allGiven ((fresh 4).commandsEach chunks)) ≠
        Command.joinPrints [.print "x", .attribute 1234] := by
  decide +kernel

end ByteStream

end TermReplay
