import TermReplay.Proofs.RecordingFrames

/-!
Writing recordings and reading them back, in both orders. A file holds seconds up to the largest
word and whole microseconds; what was read off a file has no finer times, but its microseconds may
have carried the seconds past a word, and then they are cut when they are written again.
-/

namespace TermReplay

/-- What is left of a chunk in a file: seconds beyond a word are cut, and so is what is less than
a microsecond. -/
def Chunk.stored (c : Chunk) : Chunk :=
  { c with
    time := .ofSeconds (min c.time.seconds Recording.wordLimit) (c.time.subsecond / 1000 * 1000) }

namespace Recording

/-- No time of a word of seconds and a word of microseconds reaches the longest duration. -/
theorem ofSeconds_nanoseconds {seconds nanoseconds : Nat} (hs : seconds ≤ wordLimit)
    (hn : nanoseconds ≤ wordLimit * 1000) :
    (Duration.ofSeconds seconds nanoseconds).nanoseconds = seconds * second + nanoseconds := by
  have hlimit : wordLimit = 4294967295 := rfl
  have hsecond : second = 1000000000 := rfl
  have hword : Number.twoTo 64 = 18446744073709551616 := rfl
  simp only [Duration.ofSeconds, Duration.ofNanoseconds, hsecond, hword]
  omega

theorem stored_nanoseconds (c : Chunk) : c.stored.time.nanoseconds =
    min c.time.seconds wordLimit * second + c.time.subsecond / 1000 * 1000 := by
  have hlimit : wordLimit = 4294967295 := rfl
  have hsubsecond : c.time.subsecond < second := Nat.mod_lt _ (by decide)
  have hsecond : second = 1000000000 := rfl
  exact ofSeconds_nanoseconds (Nat.min_le_right ..) (by omega)

/-- What a file can hold is held as it is. -/
theorem stored_eq_self_iff (c : Chunk) :
    c.stored = c ↔ c.time.seconds ≤ wordLimit ∧ 1000 ∣ c.time.nanoseconds := by
  have htime : c.stored = c ↔ c.stored.time.nanoseconds = c.time.nanoseconds := by
    constructor
    · exact fun h => congrArg (·.time.nanoseconds) h
    · intro h
      exact congrArg (Chunk.mk · c.data) (Duration.eq_of_nanoseconds h)
  have hlimit : wordLimit = 4294967295 := rfl
  have hsecond : second = 1000000000 := rfl
  rw [htime, stored_nanoseconds]
  simp only [Duration.seconds, Duration.subsecond, hlimit, hsecond]
  omega

variable {recording : Recording}

theorem encodeChunk_eq {c : Chunk} (h : c.data.length ≤ wordLimit) :
    encodeChunk c = (Frame.ofChunk c h).bytes := by
  rw [encodeChunk, payloads, if_pos h]
  exact List.flatMap_singleton ..

theorem encode_eq_frames (h : ∀ c ∈ recording, c.data.length ≤ wordLimit) :
    encode recording = (recording.pmap Frame.ofChunk h).flatMap Frame.bytes := by
  induction recording with
  | nil => rfl
  | cons c recording ih =>
      obtain ⟨hc, hrest⟩ := List.forall_mem_cons.mp h
      rw [List.pmap_cons, List.flatMap_cons, ← ih hrest, ← encodeChunk_eq hc]
      exact List.flatMap_cons

theorem decode_encode (h : ∀ c ∈ recording, c.data.length ≤ wordLimit) :
    decode (encode recording) = .ok (recording.map Chunk.stored) := by
  have hchunk : ∀ c hc, (Frame.ofChunk c hc).chunk = c.stored := fun _ _ => rfl
  rw [encode_eq_frames h, decode_frames, List.map_pmap]
  simp only [hchunk, List.pmap_eq_map]

theorem map_stored_eq_self_iff :
    recording.map Chunk.stored = recording ↔ ∀ c ∈ recording, c.stored = c := by
  simpa using List.map_inj_left (f := Chunk.stored) (g := id) (l := recording)

namespace Frame

variable (f : Frame)

theorem chunk_nanoseconds :
    f.chunk.time.nanoseconds = f.seconds * second + f.microseconds * 1000 :=
  ofSeconds_nanoseconds f.seconds_le (Nat.mul_le_mul_right 1000 f.microseconds_le)

/-- Of what is read off a file, only the seconds may be too many to be written again. -/
theorem chunk_stored_eq_self_iff : f.chunk.stored = f.chunk ↔ f.chunk.time.seconds ≤ wordLimit := by
  have hsecond : second = 1000000000 := rfl
  have hdvd : 1000 ∣ f.chunk.time.nanoseconds := by
    rw [chunk_nanoseconds, hsecond]
    omega
  rw [stored_eq_self_iff, and_iff_left hdvd]

/-- A header with less than a second in its microseconds is written as it was read. -/
theorem encodeChunk_chunk (h : f.microseconds < 1000000) : encodeChunk f.chunk = f.bytes := by
  have hsecond : second = 1000000000 := rfl
  have hlimit := f.seconds_le
  have hseconds : min f.chunk.time.seconds wordLimit = f.seconds := by
    rw [Duration.seconds, chunk_nanoseconds, hsecond]
    omega
  have hmicroseconds : f.chunk.time.subsecond / 1000 = f.microseconds := by
    rw [Duration.subsecond, chunk_nanoseconds, hsecond]
    omega
  rw [encodeChunk_eq f.length_le]
  simp only [bytes, ofChunk, hseconds, hmicroseconds]
  rfl

end Frame

/-- The microseconds words of all headers, from header to header by the lengths that they give. -/
def microsecondWords (bytes : List UInt8) : List Nat :=
  if _h : bytes.length < headerLength then []
  else
    wordOf ((bytes.drop 4).take 4) ::
      microsecondWords (bytes.drop (headerLength + wordOf ((bytes.drop 8).take 4)))
  termination_by bytes.length
  decreasing_by
    have hpos : 0 < headerLength := by decide
    simp only [List.length_drop]
    omega

theorem microsecondWords_frame (f : Frame) (rest : List UInt8) :
    microsecondWords (f.bytes ++ rest) = f.microseconds :: microsecondWords rest := by
  have hlong : ¬(f.bytes ++ rest).length < headerLength := by
    rw [List.length_append, f.length_bytes]
    omega
  have hword : ((f.bytes ++ rest).drop 4).take 4 = wordBytes f.microseconds := rfl
  have hlength : ((f.bytes ++ rest).drop 8).take 4 = wordBytes f.data.length := rfl
  rw [microsecondWords, dif_neg hlong, hword, hlength, wordOf_wordBytes f.microseconds_le,
    wordOf_wordBytes f.length_le, ← f.length_bytes, List.drop_left]

theorem microsecondWords_frames (frames : List Frame) :
    microsecondWords (frames.flatMap Frame.bytes) = frames.map Frame.microseconds := by
  induction frames with
  | nil =>
      rw [List.flatMap_nil, microsecondWords, dif_pos (by decide), List.map_nil]
  | cons f frames ih =>
      rw [List.flatMap_cons, microsecondWords_frame, ih, List.map_cons]

theorem encode_frames {frames : List Frame} (h : ∀ f ∈ frames, f.microseconds < 1000000) :
    encode (frames.map Frame.chunk) = frames.flatMap Frame.bytes := by
  induction frames with
  | nil => rfl
  | cons f frames ih =>
      obtain ⟨hf, hrest⟩ := List.forall_mem_cons.mp h
      rw [List.flatMap_cons, ← ih hrest, ← f.encodeChunk_chunk hf]
      exact List.flatMap_cons

/-- What was read off a file and is written again comes back with its times as a file can hold
them. A chunk is as it was exactly if its time does not reach the end of the seconds word, and so
all is as it was exactly if no time reaches it. -/
theorem read_again_iff {bytes : List UInt8} (h : decode bytes = .ok recording) :
    decode (encode recording) = .ok (recording.map Chunk.stored) ∧
      (∀ c ∈ recording, c.stored = c ↔ c.time.seconds ≤ wordLimit) ∧
      (decode (encode recording) = .ok recording ↔
        ∀ c ∈ recording, c.time.seconds ≤ wordLimit) := by
  obtain ⟨frames, rfl, rfl⟩ := decode_eq_ok_iff.mp h
  have hback : decode (encode (frames.map Frame.chunk)) =
      .ok ((frames.map Frame.chunk).map Chunk.stored) :=
    decode_encode (List.forall_mem_map.mpr fun f _ => f.length_le)
  have heach : ∀ c ∈ frames.map Frame.chunk, c.stored = c ↔ c.time.seconds ≤ wordLimit :=
    List.forall_mem_map.mpr fun f _ => f.chunk_stored_eq_self_iff
  refine ⟨hback, heach, ?_⟩
  rw [hback, Except.ok.injEq, map_stored_eq_self_iff]
  exact forall₂_congr heach

/-- Nearly two seconds in the microseconds are carried into the last second of a word. -/
theorem read_again_in_last_second :
    let bytes : List UInt8 :=
      [0xfe, 0xff, 0xff, 0xff, 0x7f, 0x84, 0x1e, 0x00, 0x02, 0x00, 0x00, 0x00, 0x68, 0x69]
    let recording : Recording := [⟨.ofSeconds 4294967295 999999000, [0x68, 0x69]⟩]
    decode bytes = .ok recording ∧ encode recording ≠ bytes ∧
      decode (encode recording) = .ok recording := by
  intro bytes recording
  have h : decode bytes = .ok recording := by decide +kernel
  exact ⟨h, by decide +kernel, (read_again_iff h).2.2.mpr (by decide +kernel)⟩

/-- A million microseconds in the last second of a word carry over, and are lost. -/
theorem carry_lost_past_word :
    let bytes : List UInt8 :=
      [0xff, 0xff, 0xff, 0xff, 0x40, 0x42, 0x0f, 0x00, 0x00, 0x00, 0x00, 0x00]
    let recording : Recording := [⟨.ofSeconds 4294967296 0, []⟩]
    decode bytes = .ok recording ∧
      decode (encode recording) = .ok [⟨.ofSeconds 4294967295 0, []⟩] ∧
      decode (encode recording) ≠ .ok recording := by
  decide +kernel

/-- What is written can be read back, with the times as a file can hold them, and unchanged if
they are such already. What was read without a second or more in any microseconds word is written
byte for byte as it was. -/
theorem written_and_read :
    (∀ recording : Recording, (∀ c ∈ recording, c.data.length ≤ wordLimit) →
      decode (encode recording) = .ok (recording.map Chunk.stored) ∧
        ((∀ c ∈ recording, c.time.seconds ≤ wordLimit ∧ 1000 ∣ c.time.nanoseconds) →
          decode (encode recording) = .ok recording)) ∧
    ∀ (bytes : List UInt8) (recording : Recording), decode bytes = .ok recording →
      (∀ m ∈ microsecondWords bytes, m < 1000000) → encode recording = bytes := by
  constructor
  · intro recording h
    have hback := decode_encode h
    refine ⟨hback, fun ht => ?_⟩
    rw [hback, map_stored_eq_self_iff.mpr fun c hc => (stored_eq_self_iff c).mpr (ht c hc)]
  · intro bytes recording h hm
    obtain ⟨frames, rfl, rfl⟩ := decode_eq_ok_iff.mp h
    rw [microsecondWords_frames, List.forall_mem_map] at hm
    exact encode_frames hm

/-- One time is too long and too fine for a file, the other is not; both payloads are kept. -/
theorem written_and_read_long_time :
    let long : Chunk := ⟨.ofSeconds 4294967300 123456789, [0x68, 0x69]⟩
    let short : Chunk := ⟨.ofSeconds 1 2000, []⟩
    let bytes : List UInt8 :=
      [0x01, 0x00, 0x00, 0x00, 0x02, 0x00, 0x00, 0x00, 0x00, 0x00, 0x00, 0x00]
    decode (encode [long, short]) =
        .ok [⟨.ofSeconds 4294967295 123456000, [0x68, 0x69]⟩, short] ∧
      decode (encode [short]) = .ok [short] ∧
      decode bytes = .ok [short] ∧ encode [short] = bytes := by
  intro long short bytes
  obtain ⟨hwritten, hread⟩ := written_and_read
  have hboth := (hwritten [long, short] (by decide +kernel)).1
  have hstored : [long, short].map Chunk.stored =
      [⟨.ofSeconds 4294967295 123456000, [0x68, 0x69]⟩, short] := by decide +kernel
  have hshort := (hwritten [short] (by decide +kernel)).2 (by decide +kernel)
  have hbytes : decode bytes = .ok [short] := by decide +kernel
  exact ⟨hstored ▸ hboth, hshort, hbytes, hread bytes [short] hbytes (by decide +kernel)⟩

end Recording

end TermReplay
