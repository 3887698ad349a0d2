import TermReplay.Proofs.Chunking

/-!
Sequences whose parameters count one by one: attributes, lamps, modes and reports. What one
parameter asks for depends on the marker and the final byte only, so a list of parameters comes
to the same as a sequence for each of them.
-/

namespace TermReplay

open Text Recognizer

namespace Params

theorem split_eq_splitOn (bytes : List UInt8) : split bytes = bytes.splitOn semicolon := by
  induction bytes with
  | nil => rfl
  | cons b bytes ih =>
      obtain ⟨part, parts, hparts⟩ :=
        List.exists_cons_of_ne_nil (List.splitOn_ne_nil semicolon bytes)
      rw [List.splitOn_cons_eq_if_modifyHead, split, ih, hparts]
      simp only [beq_iff_eq, List.modifyHead_cons]

def join (parts : List (List UInt8)) : List UInt8 := [semicolon].intercalate parts

theorem split_join {parts : List (List UInt8)} (hne : parts ≠ [])
    (h : ∀ part ∈ parts, semicolon ∉ part) : split (join parts) = parts := by
  rw [split_eq_splitOn, join, List.splitOn_intercalate semicolon h hne]

theorem join_singleton (part : List UInt8) : join [part] = part :=
  List.intercalate_singleton

theorem join_cons_cons (part next : List UInt8) (parts : List (List UInt8)) :
    join (part :: next :: parts) = part ++ semicolon :: join (next :: parts) := by
  rw [join, List.intercalate_cons_cons, List.append_assoc]
  rfl

/-- Bytes of a single parameter: digits, and the colons that some parameters have. -/
def inPart (b : UInt8) : Bool := isDigit b || b == 0x3a

theorem inPart_isParam :
    ∀ b : UInt8, inPart b = true → isParam b = true ∧ b ≠ semicolon :=
  TokenKind.forall_byte (by decide +kernel)

theorem semicolon_not_mem {part : List UInt8} (h : ∀ b ∈ part, inPart b = true) :
    semicolon ∉ part := fun hs => (inPart_isParam semicolon (h semicolon hs)).2 rfl

theorem join_isParam {parts : List (List UInt8)}
    (h : ∀ part ∈ parts, ∀ b ∈ part, inPart b = true) : ∀ b ∈ join parts, isParam b = true := by
  induction parts with
  | nil => exact List.forall_mem_nil _
  | cons part parts ih =>
      obtain ⟨hpart, hparts⟩ := List.forall_mem_cons.mp h
      have hparam : ∀ b ∈ part, isParam b = true := fun b hb => (inPart_isParam b (hpart b hb)).1
      cases parts with
      | nil => rwa [join_singleton]
      | cons next parts =>
          rw [join_cons_cons]
          exact List.forall_mem_append.mpr ⟨hparam, List.forall_mem_cons.mpr ⟨rfl, ih hparts⟩⟩

end Params

/-- The sequences whose parameters count one by one: attributes and lamps without a marker, modes
and reports with a question mark as well. -/
def CountsParts (marker : Option UInt8) (final : UInt8) : Prop :=
  (marker = none ∧ final ∈ asciiBytes "mq") ∨
    ((marker = none ∨ marker = some 0x3f) ∧ final ∈ asciiBytes "hln")

theorem CountsParts.cases {marker : Option UInt8} {final : UInt8} (h : CountsParts marker final) :
    (marker = none ∧ (final = 0x6d ∨ final = 0x71)) ∨
      (marker = none ∨ marker = some 0x3f) ∧ (final = 0x68 ∨ final = 0x6c ∨ final = 0x6e) := by
  simpa [CountsParts, asciiBytes] using h

def sequenceBytes (marker : Option UInt8) (params : List UInt8) (final : UInt8) : List UInt8 :=
  0x1b :: 0x5b :: (marker.toList ++ params ++ [final])

namespace ControlSequence

def partOutputs (marker : Option UInt8) (final : UInt8) (part : List UInt8) : List Output :=
  let s : ControlSequence := ⟨[], marker, [], [], final⟩
  match Char.ofNat final.toNat with
  | 'h' => s.modeOutputs true part
  | 'l' => s.modeOutputs false part
  | 'n' => [s.reportOutput part]
  | 'm' => [attributeOutput part]
  | _ => [ledOutput part]

theorem outputs_by_part {s : ControlSequence} (h : CountsParts s.marker s.final)
    (hs : s.intermediates = []) :
    s.outputs = (Params.split s.params).flatMap (partOutputs s.marker s.final) := by
  obtain ⟨raw, marker, params, intermediates, final⟩ := s
  obtain rfl : intermediates = [] := hs
  obtain ⟨rfl, rfl | rfl⟩ | ⟨rfl | rfl, rfl | rfl | rfl⟩ := h.cases
  all_goals first | rfl | exact List.map_eq_flatMap

end ControlSequence

theorem not_isMarker_of_isParam : ∀ b : UInt8, isParam b = true → isMarker b = false :=
  TokenKind.forall_byte (by decide +kernel)

theorem isFinal_alone :
    ∀ b : UInt8, isFinal b = true →
      isMarker b = false ∧ isParam b = false ∧ isIntermediate b = false :=
  TokenKind.forall_byte (by decide +kernel)

/-- A sequence without intermediates is claimed up to its final byte, whatever follows. -/
theorem controlSequence_claims {marker : Option UInt8} {params : List UInt8} {final : UInt8}
    (hmarker : ∀ m ∈ marker, isMarker m = true) (hparams : ∀ b ∈ params, isParam b = true)
    (hfinal : isFinal final = true) (rest : List UInt8) :
    controlSequence (sequenceBytes marker params final ++ rest) =
      some ⟨(sequenceBytes marker params final).length,
        ControlSequence.outputs
          ⟨sequenceBytes marker params final, marker, params, [], final⟩⟩ := by
  obtain ⟨hfm, hfp, hfi⟩ := isFinal_alone final hfinal
  have hcut : cutMarker (marker.toList ++ params ++ [final] ++ rest) =
      (marker, params ++ final :: rest) := by
    cases marker with
    | some m => simp [cutMarker, hmarker m rfl]
    | none =>
        cases params with
        | nil => simp [cutMarker, hfm]
        | cons b params =>
            have hb := not_isMarker_of_isParam b (hparams b (List.mem_cons_self ..))
            simp [cutMarker, hb]
  have htake : (params ++ final :: rest).takeWhile isParam = params := by
    rw [List.takeWhile_append_of_pos hparams]
    simp [hfp]
  have hdrop : (params ++ final :: rest).dropWhile isParam = final :: rest := by
    rw [List.dropWhile_append_of_pos hparams]
    simp [hfp]
  have hnone : (final :: rest).takeWhile isIntermediate = [] ∧
      (final :: rest).dropWhile isIntermediate = final :: rest := by
    simp [hfi]
  simp only [sequenceBytes, List.cons_append, controlSequence, hcut, htake, hdrop, hnone, hfinal,
    if_true, List.append_nil, List.length_cons, List.length_append, List.length_nil]

section

variable {marker : Option UInt8} {final : UInt8} {parts : List (List UInt8)}

theorem CountsParts.claimable (h : CountsParts marker final) :
    (∀ m ∈ marker, isMarker m = true) ∧ isFinal final = true := by
  obtain ⟨rfl, rfl | rfl⟩ | ⟨rfl | rfl, rfl | rfl | rfl⟩ := h.cases
  all_goals
    refine ⟨?_, rfl⟩
    rintro m ⟨⟩ <;> rfl

/-- A list in front of other bytes is read part by part. -/
theorem readTokens_list (h : CountsParts marker final) (hne : parts ≠ [])
    (hparts : ∀ part ∈ parts, ∀ b ∈ part, Params.inPart b = true) (rest : List UInt8) :
    readTokens (sequenceBytes marker (Params.join parts) final ++ rest) =
      (parts.flatMap (ControlSequence.partOutputs marker final) ++ (readTokens rest).1,
        (readTokens rest).2) := by
  obtain ⟨hmarker, hfinal⟩ := h.claimable
  have hclaim := controlSequence_claims hmarker (Params.join_isParam hparts) hfinal rest
  rw [ControlSequence.outputs_by_part h rfl, Params.split_join hne fun part hpart =>
    Params.semicolon_not_mem (hparts part hpart)] at hclaim
  have ht : nextToken (sequenceBytes marker (Params.join parts) final ++ rest) =
      some ⟨_, parts.flatMap (ControlSequence.partOutputs marker final)⟩ :=
    nextToken_eq_some_iff.mpr ⟨.controlSequence, hclaim⟩
  rw [readTokens_of_some ht, List.drop_left]

theorem readTokens_part {part : List UInt8} (h : CountsParts marker final)
    (hpart : ∀ b ∈ part, Params.inPart b = true) (rest : List UInt8) :
    readTokens (sequenceBytes marker part final ++ rest) =
      (ControlSequence.partOutputs marker final part ++ (readTokens rest).1,
        (readTokens rest).2) := by
  have hone := readTokens_list h (List.cons_ne_nil part [])
    (List.forall_mem_singleton.mpr hpart) rest
  rwa [Params.join_singleton, List.flatMap_singleton] at hone

/-- Sequences of one parameter each are read the same way. -/
theorem readTokens_parts (h : CountsParts marker final)
    (hparts : ∀ part ∈ parts, ∀ b ∈ part, Params.inPart b = true) :
    readTokens (parts.flatMap fun part => sequenceBytes marker part final) =
      (parts.flatMap (ControlSequence.partOutputs marker final), []) := by
  induction parts with
  | nil => exact readTokens_of_none nextToken_nil
  | cons part parts ih =>
      obtain ⟨hpart, hrest⟩ := List.forall_mem_cons.mp hparts
      rw [List.flatMap_cons, readTokens_part h hpart, ih hrest]
      rfl

end

/-- A list of parameters is a sequence for each of them. What is read of the one sequence is what
is read of each of the others, in their order, with nothing left over, and a player that waits
for nothing ends in the same state with the same notices. -/
theorem list_read_by_part {marker : Option UInt8} {final : UInt8} {parts : List (List UInt8)}
    (h : CountsParts marker final) (hne : parts ≠ [])
    (hparts : ∀ part ∈ parts, ∀ b ∈ part, Params.inPart b = true) :
    readTokens (sequenceBytes marker (Params.join parts) final) =
        (parts.flatMap fun part => (readTokens (sequenceBytes marker part final)).1, []) ∧
      ∀ p : Player, p.stream.pending = [] →
        p.feed (sequenceBytes marker (Params.join parts) final) =
          p.feed (parts.flatMap fun part => sequenceBytes marker part final) := by
  have hlist := readTokens_list h hne hparts []
  rw [List.append_nil, readTokens_of_none nextToken_nil, List.append_nil] at hlist
  have hone : ∀ part ∈ parts, (readTokens (sequenceBytes marker part final)).1 =
      ControlSequence.partOutputs marker final part := by
    intro part hpart
    have hread := readTokens_part h (hparts part hpart) []
    rw [List.append_nil, readTokens_of_none nextToken_nil, List.append_nil] at hread
    rw [hread]
  constructor
  · rw [hlist, List.flatMap_def, List.flatMap_def, List.map_congr_left hone]
  · intro p hp
    simp only [Player.feed, ByteStream.feed, hp, List.nil_append, hlist,
      readTokens_parts h hparts]

/-- An unknown mode, an empty parameter and one with a colon between two known modes. -/
theorem modes_read_by_part :
    let parts := ["25", "2004", "", "1:2", "1049"].map asciiBytes
    sequenceBytes (some 0x3f) (Params.join parts) 0x68 =
        asciiBytes "\x1b[?25;2004;;1:2;1049h" ∧
      (readTokens (asciiBytes "\x1b[?25;2004;;1:2;1049h")).1 =
        parts.flatMap fun part => (readTokens (sequenceBytes (some 0x3f) part 0x68)).1 := by
  intro parts
  have hbytes : sequenceBytes (some 0x3f) (Params.join parts) 0x68 =
      asciiBytes "\x1b[?25;2004;;1:2;1049h" := by decide +kernel
  have hcounts : CountsParts (some 0x3f) 0x68 := .inr ⟨.inr rfl, by decide⟩
  have hread := list_read_by_part hcounts (show parts ≠ [] by decide) (by decide +kernel)
  exact ⟨hbytes, by rw [← hbytes, hread.1]⟩

end TermReplay
