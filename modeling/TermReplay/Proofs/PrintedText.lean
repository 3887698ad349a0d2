import TermReplay.Proofs.Chunking

/-!
Text between other commands. Where printed text is cut is an accident of how bytes arrive, so
commands are compared with the texts in a row put together. No token prints an empty text, and
then this comes to the same as comparing them with every text taken apart into its characters.
-/

namespace TermReplay

open Text Recognizer

namespace Command

/-- Text that is printed in front of other commands. -/
def printBefore (text : String) : List Command → List Command
  | .print more :: rest => .print (text ++ more) :: rest
  | rest => .print text :: rest

/-- Commands with the texts that are printed one right after the other put together. -/
def joinPrints : List Command → List Command
  | [] => []
  | .print text :: rest => printBefore text (joinPrints rest)
  | c :: rest => c :: joinPrints rest

def letters : Command → List Command
  | .print text => text.toList.map fun c => .print (String.singleton c)
  | c => [c]

/-- What prints has something to print. -/
def HasText : Command → Prop
  | .print text => text ≠ ""
  | _ => True

theorem printBefore_append (first second : String) (rest : List Command) :
    printBefore (first ++ second) rest = printBefore first (printBefore second rest) := by
  unfold printBefore
  split <;> simp [String.append_assoc]

theorem letters_printBefore (text : String) (rest : List Command) :
    (printBefore text rest).flatMap letters = (print text).letters ++ rest.flatMap letters := by
  unfold printBefore
  split
  · simp [letters]
  · exact List.flatMap_cons

theorem letters_joinPrints (cs : List Command) :
    (joinPrints cs).flatMap letters = cs.flatMap letters := by
  fun_induction joinPrints cs with
  | case1 => rfl
  | case2 text rest ih => rw [letters_printBefore, ih, List.flatMap_cons]
  | case3 c rest _ ih => rw [List.flatMap_cons, List.flatMap_cons, ih]

/-- Characters that are printed one by one are put together again. -/
theorem joinPrints_characters {cs : List Char} (h : cs ≠ []) (rest : List Command) :
    joinPrints (cs.map (fun c => print (String.singleton c)) ++ rest) =
      printBefore (String.ofList cs) (joinPrints rest) := by
  induction cs with
  | nil => exact absurd rfl h
  | cons c cs ih =>
      cases cs with
      | nil => rfl
      | cons d cs =>
          have hcons : String.ofList (c :: d :: cs) =
              String.singleton c ++ String.ofList (d :: cs) := by
            simp
          rw [hcons, printBefore_append, ← ih (List.cons_ne_nil d cs)]
          rfl

theorem joinPrints_letters {cs : List Command} (h : ∀ c ∈ cs, c.HasText) :
    joinPrints (cs.flatMap letters) = joinPrints cs := by
  fun_induction joinPrints cs with
  | case1 => rfl
  | case2 text rest ih =>
      obtain ⟨htext, hrest⟩ := List.forall_mem_cons.mp h
      have hchars : text.toList ≠ [] := mt String.toList_eq_nil_iff.mp htext
      rw [List.flatMap_cons, letters, joinPrints_characters hchars, ih hrest, String.ofList_toList]
  | case3 c rest hc ih =>
      have hletters : c.letters = [c] := by
        unfold letters
        split
        · exact absurd rfl (hc _)
        · rfl
      rw [List.flatMap_cons, hletters, List.singleton_append, joinPrints.eq_3 _ _ hc,
        ih (List.forall_mem_cons.mp h).2]

/-- Commands are the same with their texts put together if they are the same with all texts
taken apart. -/
theorem joinPrints_eq_iff {cs ds : List Command} (hcs : ∀ c ∈ cs, c.HasText)
    (hds : ∀ d ∈ ds, d.HasText) :
    joinPrints cs = joinPrints ds ↔ cs.flatMap letters = ds.flatMap letters := by
  constructor
  · intro h
    rw [← letters_joinPrints cs, h, letters_joinPrints]
  · intro h
    rw [← joinPrints_letters hcs, h, joinPrints_letters hds]

theorem letters_eq_nil_iff {cs : List Command} (h : ∀ c ∈ cs, c.HasText) :
    cs.flatMap letters = [] ↔ cs = [] := by
  constructor
  · intro hnil
    rw [List.flatMap_eq_nil_iff] at hnil
    refine List.eq_nil_iff_forall_not_mem.mpr fun c hc => ?_
    have hletters := hnil c hc
    have htext := h c hc
    unfold letters at hletters
    split at hletters
    · exact htext (String.toList_eq_nil_iff.mp (List.map_eq_nil_iff.mp hletters))
    · cases hletters
  · rintro rfl
    rfl

end Command

theorem Output.commands_spell (outputs : List Output) :
    (Output.spell outputs).filterMap Output.command? =
      (outputs.filterMap Output.command?).flatMap Command.letters := by
  induction outputs with
  | nil => rfl
  | cons output outputs ih =>
      rw [Output.spell_cons, List.filterMap_append, ih]
      cases output with
      | warning message => rfl
      | command c =>
          have hletters : (Output.command c).letters = c.letters.map Output.command := by
            cases c <;> simp [Output.letters, Command.letters]
          have hcommands :
              (c.letters.map Output.command).filterMap Output.command? = c.letters := by
            rw [List.filterMap_map]
            exact List.filterMap_some
          rw [hletters, hcommands]
          rfl

def Output.HasText (output : Output) : Prop := ∀ c ∈ output.command?, c.HasText

theorem Output.hasText_warning (message : String) : (Output.warning message).HasText := nofun

theorem Output.hasText_command {c : Command} (h : c.HasText) : (Output.command c).HasText := by
  intro d hd
  cases hd
  exact h

theorem Output.hasText_singleton (c : Char) :
    (Output.command (.print (String.singleton c))).HasText :=
  Output.hasText_command (by simp [Command.HasText])

theorem controlCommand_hasText {b : UInt8} {c : Command} (h : controlCommand? b = some c) :
    c.HasText := by
  unfold controlCommand? at h
  split at h <;> cases h <;> trivial

theorem escapeCommand_hasText {b : UInt8} {c : Command} (h : escapeCommand? b = some c) :
    c.HasText := by
  unfold escapeCommand? at h
  split at h <;> cases h <;> trivial

theorem lineCommand_hasText {b : UInt8} {c : Command} (h : lineCommand? b = some c) :
    c.HasText := by
  unfold lineCommand? at h
  split at h <;> cases h <;> trivial

namespace ControlSequence

theorem modeCommands_hasText {key : String} {set : Bool} {cs : List Command}
    (h : modeCommands? key set = some cs) : ∀ c ∈ cs, c.HasText := by
  unfold modeCommands? at h
  split at h
  all_goals first | cases h | split at h <;> cases h
  all_goals simp [Command.HasText]

theorem plainCommand_hasText {s : ControlSequence} {nums : List (Option Nat)} {c : Command}
    (h : s.plainCommand? nums = some c) : c.HasText := by
  simp only [plainCommand?] at h
  split at h
  all_goals try split at h
  all_goals first
    | cases h <;> trivial
    | obtain ⟨scope, -, rfl⟩ := Option.map_eq_some_iff.mp h; trivial

variable (s : ControlSequence)

theorem modeOutputs_hasText (set : Bool) (part : List UInt8) :
    ∀ output ∈ s.modeOutputs set part, output.HasText := by
  unfold modeOutputs
  split
  · next cs hcs =>
      rw [List.forall_mem_map]
      exact fun c hc => Output.hasText_command (modeCommands_hasText hcs c hc)
  · exact List.forall_mem_singleton.mpr (Output.hasText_warning _)

theorem reportOutput_hasText (part : List UInt8) : (s.reportOutput part).HasText := by
  unfold reportOutput
  split <;> first | exact Output.hasText_warning _ | exact Output.hasText_command trivial

theorem attributeOutput_hasText (part : List UInt8) : (attributeOutput part).HasText := by
  unfold attributeOutput
  split <;> first | exact Output.hasText_warning _ | exact Output.hasText_command trivial

theorem ledOutput_hasText (part : List UInt8) : (ledOutput part).HasText := by
  unfold ledOutput
  split <;> first | exact Output.hasText_warning _ | exact Output.hasText_command trivial

theorem unhandled_hasText : ∀ output ∈ s.unhandled, output.HasText :=
  List.forall_mem_singleton.mpr (Output.hasText_warning _)

theorem plainOutputs_hasText : ∀ output ∈ s.plainOutputs, output.HasText := by
  unfold plainOutputs
  split
  · exact List.forall_mem_flatMap.mpr fun part _ => s.modeOutputs_hasText true part
  · exact List.forall_mem_flatMap.mpr fun part _ => s.modeOutputs_hasText false part
  · exact List.forall_mem_map.mpr fun part _ => s.reportOutput_hasText part
  · exact List.forall_mem_map.mpr fun part _ => attributeOutput_hasText part
  · exact List.forall_mem_map.mpr fun part _ => ledOutput_hasText part
  · exact List.forall_mem_singleton.mpr (Output.hasText_command trivial)
  · split
    · next c hc =>
        obtain ⟨nums, -, hplain⟩ := Option.bind_eq_some_iff.mp hc
        exact List.forall_mem_singleton.mpr
          (Output.hasText_command (plainCommand_hasText hplain))
    · exact s.unhandled_hasText

theorem outputs_hasText : ∀ output ∈ s.outputs, output.HasText := by
  unfold outputs
  split
  · exact s.plainOutputs_hasText
  · split
    · exact List.forall_mem_flatMap.mpr fun part _ => s.modeOutputs_hasText true part
    · exact List.forall_mem_flatMap.mpr fun part _ => s.modeOutputs_hasText false part
    · exact List.forall_mem_map.mpr fun part _ => s.reportOutput_hasText part
    · exact s.unhandled_hasText
  · split
    · exact List.forall_mem_singleton.mpr (Output.hasText_command trivial)
    · exact s.unhandled_hasText
  · split
    · exact List.forall_mem_singleton.mpr (Output.hasText_command trivial)
    · exact s.unhandled_hasText
  · exact s.unhandled_hasText

end ControlSequence

def Token.HasText (t : Token) : Prop := ∀ output ∈ t.outputs, output.HasText

theorem Token.hasText_command {c : Command} (length : Nat) (h : c.HasText) :
    (Token.command length c).HasText :=
  List.forall_mem_singleton.mpr (Output.hasText_command h)

theorem Token.hasText_warning (length : Nat) (message : String) :
    (Token.warning length message).HasText :=
  List.forall_mem_singleton.mpr (Output.hasText_warning message)

theorem hasText_singleShift {slot : ShiftSlot} {buffer : List UInt8} {t : Token}
    (h : singleShift slot buffer = some t) : t.HasText := by
  cases buffer with
  | nil => cases h
  | cons b bs =>
      simp only [singleShift] at h
      split at h <;> cases h
      · exact Token.hasText_command 3 trivial
      · exact Token.hasText_warning 2 _

theorem hasText_designation {slot : Slot} {opener : UInt8} {buffer : List UInt8} {t : Token}
    (h : designation slot opener buffer = some t) : t.HasText := by
  cases buffer with
  | nil => cases h
  | cons b bs =>
      simp only [designation] at h
      split at h <;> cases h
      · exact Token.hasText_command 3 trivial
      · exact Token.hasText_warning 3 _

theorem hasText_lineSequence {buffer : List UInt8} {t : Token}
    (h : lineSequence buffer = some t) : t.HasText := by
  cases buffer with
  | nil => cases h
  | cons b bs =>
      simp only [lineSequence] at h
      split at h
      · next c hc =>
          cases h
          exact Token.hasText_command 3 (lineCommand_hasText hc)
      · cases h
        exact Token.hasText_warning 3 _

theorem hasText_intermediateSequence {buffer : List UInt8} {t : Token}
    (h : intermediateSequence buffer = some t) : t.HasText := by
  simp only [intermediateSequence] at h
  split at h
  · cases h
  · split at h <;> cases h <;> exact Token.hasText_warning _ _

theorem hasText_escape {buffer : List UInt8} {t : Token} (h : escape buffer = some t) :
    t.HasText := by
  simp only [escape] at h
  split at h
  · split at h
    · cases h
    · cases h
    · cases h
      exact List.forall_mem_nil _
    · exact hasText_singleShift h
    · exact hasText_singleShift h
    · exact hasText_designation h
    · exact hasText_designation h
    · exact hasText_lineSequence h
    · split at h
      · next c hc =>
          cases h
          exact Token.hasText_command 2 (escapeCommand_hasText hc)
      · split at h
        · exact hasText_intermediateSequence h
        · split at h <;> cases h <;> exact Token.hasText_warning _ _
  · cases h

theorem hasText_systemOutput (body : List UInt8) : (systemOutput body).HasText := by
  simp only [systemOutput]
  split
  · exact Output.hasText_warning _
  · split <;> first | exact Output.hasText_warning _ | exact Output.hasText_command trivial

/-- No recognizer claims a token that prints an empty text. -/
theorem TokenKind.hasText_of_claim {kind : TokenKind} {buffer : List UInt8} {t : Token}
    (h : kind.recognizer buffer = some t) : t.HasText := by
  cases kind with
  | control =>
      cases buffer with
      | nil => cases h
      | cons b bs =>
          obtain ⟨c, hc, rfl⟩ := Option.map_eq_some_iff.mp h
          exact Token.hasText_command 1 (controlCommand_hasText hc)
  | ignoredControl =>
      cases buffer with
      | nil => cases h
      | cons b bs =>
          simp only [recognizer, Recognizer.ignoredControl] at h
          split at h <;> cases h
          exact List.forall_mem_nil _
  | asciiRun =>
      obtain ⟨hrun, rfl⟩ := run_of_claim h
      exact Token.hasText_command _ (by simpa [Command.HasText, ascii] using hrun)
  | multiByte =>
      cases buffer with
      | nil => cases h
      | cons b bs =>
          simp only [recognizer, Recognizer.multiByte] at h
          split at h
          · split at h <;> cases h
            exact List.forall_mem_singleton.mpr (Output.hasText_singleton _)
          · cases h
  | invalidByte =>
      cases buffer with
      | nil => cases h
      | cons b bs =>
          simp only [recognizer, Recognizer.invalidByte] at h
          split at h
          · split at h <;> cases h
            exact List.forall_mem_cons.mpr ⟨Output.hasText_warning _,
              List.forall_mem_singleton.mpr (Output.hasText_singleton _)⟩
          · cases h
  | controlSequence =>
      simp only [recognizer, Recognizer.controlSequence] at h
      split at h
      · split at h
        · cases h
        · split at h <;> cases h
          · exact ControlSequence.outputs_hasText _
          · exact Token.hasText_warning _ _
      · cases h
  | escape => exact hasText_escape h
  | systemCommand =>
      simp only [recognizer, Recognizer.systemCommand] at h
      split at h
      · obtain ⟨ending, -, rfl⟩ := Option.map_eq_some_iff.mp h
        exact List.forall_mem_singleton.mpr (hasText_systemOutput _)
      · cases h

theorem readTokens_hasText (buffer : List UInt8) :
    ∀ output ∈ (readTokens buffer).1, output.HasText := by
  induction hn : buffer.length using Nat.strongRecOn generalizing buffer with
  | _ n ih =>
    cases ht : nextToken buffer with
    | none => simp [readTokens_of_none ht]
    | some t =>
        obtain ⟨kind, hk⟩ := nextToken_eq_some_iff.mp ht
        rw [readTokens_of_some ht]
        exact List.forall_mem_append.mpr ⟨TokenKind.hasText_of_claim hk,
          ih _ (hn ▸ length_drop_nextToken ht) _ rfl⟩

end TermReplay
