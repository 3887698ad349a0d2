import Mathlib.Data.List.Basic
import TermReplay.Playback.Recording

/-!
The layout of a recording in a file: frames, each a header of three words and a payload of the
length that the header gives. Bytes are a recording exactly if they are frames in a row, and the
chunks that are read are those of the frames.
-/

namespace TermReplay.Recording

theorem wordOf_wordBytes {n : Nat} (h : n ≤ wordLimit) : wordOf (wordBytes n) = n := by
  have hlimit : wordLimit = 4294967295 := rfl
  simp only [wordBytes, wordOf, UInt8.toNat_ofNat']
  omega

theorem wordBytes_wordOf {bytes : List UInt8} (h : bytes.length = 4) :
    wordBytes (wordOf bytes) = bytes := by
  obtain ⟨a, b, c, d, rfl⟩ := List.length_eq_four.mp h
  have ha := a.toNat_lt
  have hb := b.toNat_lt
  have hc := c.toNat_lt
  have hd := d.toNat_lt
  simp only [wordBytes, wordOf, List.cons.injEq, and_true]
  refine ⟨?_, ?_, ?_, ?_⟩ <;> rw [← UInt8.toNat_inj, UInt8.toNat_ofNat'] <;> omega

theorem length_wordBytes (n : Nat) : (wordBytes n).length = 4 := rfl

/-- Four bytes spell a number that fits a word. -/
theorem wordOf_le {bytes : List UInt8} (h : bytes.length = 4) : wordOf bytes ≤ wordLimit := by
  obtain ⟨a, b, c, d, rfl⟩ := List.length_eq_four.mp h
  have ha := a.toNat_lt
  have hb := b.toNat_lt
  have hc := c.toNat_lt
  have hd := d.toNat_lt
  have hlimit : wordLimit = 4294967295 := rfl
  simp only [wordOf]
  omega

/-- A header and its payload. The length word is the length of the payload. -/
structure Frame where
  seconds : Nat
  microseconds : Nat
  data : List UInt8
  seconds_le : seconds ≤ wordLimit
  microseconds_le : microseconds ≤ wordLimit
  length_le : data.length ≤ wordLimit

namespace Frame

def bytes (f : Frame) : List UInt8 :=
  wordBytes f.seconds ++ wordBytes f.microseconds ++ wordBytes f.data.length ++ f.data

def chunk (f : Frame) : Chunk := ⟨headerTime f.seconds f.microseconds, f.data⟩

def ofChunk (c : Chunk) (h : c.data.length ≤ wordLimit) : Frame where
  seconds := min c.time.seconds wordLimit
  microseconds := c.time.subsecond / 1000
  data := c.data
  seconds_le := Nat.min_le_right ..
  microseconds_le := by
    have hlimit : wordLimit = 4294967295 := rfl
    have hlt : c.time.subsecond < second := Nat.mod_lt _ (by decide)
    have hsecond : second = 1000000000 := rfl
    omega
  length_le := h

variable (f : Frame) (rest : List UInt8)

theorem length_bytes : f.bytes.length = headerLength + f.data.length := by
  simp only [bytes, List.length_append, length_wordBytes, headerLength]

theorem take_header : (f.bytes ++ rest).take headerLength =
    wordBytes f.seconds ++ wordBytes f.microseconds ++ wordBytes f.data.length := by
  rw [bytes, List.append_assoc]
  exact List.take_left' rfl

theorem drop_header : (f.bytes ++ rest).drop headerLength = f.data ++ rest := by
  rw [bytes, List.append_assoc]
  exact List.drop_left' rfl

end Frame

/-- A frame in front is read as its chunk, and reading goes on behind it. -/
theorem decodeFrom_frame (offset : Nat) (f : Frame) (rest : List UInt8) :
    decodeFrom offset (f.bytes ++ rest) =
      (decodeFrom (offset + f.bytes.length) rest).map (f.chunk :: ·) := by
  have hne : f.bytes ++ rest ≠ [] := by
    intro h
    have hlength := congrArg List.length h
    rw [List.length_append, f.length_bytes] at hlength
    simp [headerLength] at hlength
  have hlength : wordOf (wordBytes f.data.length) = f.data.length := wordOf_wordBytes f.length_le
  rw [decodeFrom, dif_neg hne]
  simp only [f.take_header, f.drop_header]
  rw [if_neg (by simp [length_wordBytes, headerLength])]
  have hlast : (wordBytes f.seconds ++ wordBytes f.microseconds ++
      wordBytes f.data.length).drop 8 = wordBytes f.data.length := rfl
  have htime : headerTime
      (wordOf ((wordBytes f.seconds ++ wordBytes f.microseconds ++
        wordBytes f.data.length).take 4))
      (wordOf (((wordBytes f.seconds ++ wordBytes f.microseconds ++
        wordBytes f.data.length).drop 4).take 4)) = f.chunk.time :=
    congrArg₂ headerTime (wordOf_wordBytes f.seconds_le) (wordOf_wordBytes f.microseconds_le)
  simp only [hlast, hlength, htime, List.take_left, List.drop_left, Nat.lt_irrefl, if_false,
    f.length_bytes, ← Nat.add_assoc]
  cases decodeFrom (offset + headerLength + f.data.length) rest <;> rfl

/-- Behind frames that are whole, reading goes on as if it started there. -/
theorem decodeFrom_frames_append (offset : Nat) (frames : List Frame) (rest : List UInt8) :
    decodeFrom offset (frames.flatMap Frame.bytes ++ rest) =
      (decodeFrom (offset + (frames.flatMap Frame.bytes).length) rest).map
        (frames.map Frame.chunk ++ ·) := by
  induction frames generalizing offset with
  | nil => cases hd : decodeFrom offset rest <;> simp [hd, Except.map]
  | cons f frames ih =>
      rw [List.flatMap_cons, List.append_assoc, decodeFrom_frame, ih, List.length_append,
        Nat.add_assoc]
      cases decodeFrom (offset + (f.bytes.length + (frames.flatMap Frame.bytes).length)) rest <;>
        rfl

theorem decodeFrom_frames (offset : Nat) (frames : List Frame) :
    decodeFrom offset (frames.flatMap Frame.bytes) = .ok (frames.map Frame.chunk) := by
  have h := decodeFrom_frames_append offset frames []
  rw [List.append_nil] at h
  rw [h, decodeFrom, dif_pos rfl]
  simp [Except.map]

theorem decode_frames (frames : List Frame) :
    decode (frames.flatMap Frame.bytes) = .ok (frames.map Frame.chunk) :=
  decodeFrom_frames 0 frames

/-- A header with the payload that it asks for is a frame. -/
theorem exists_frame {header data : List UInt8} (hheader : header.length = headerLength)
    (hdata : data.length = wordOf (header.drop 8)) : ∃ f : Frame, f.bytes = header ++ data := by
  have hseconds : (header.take 4).length = 4 := by simp [hheader, headerLength]
  have hmicroseconds : ((header.drop 4).take 4).length = 4 := by simp [hheader, headerLength]
  have hlength : (header.drop 8).length = 4 := by simp [hheader, headerLength]
  have hwords : header.take 4 ++ ((header.drop 4).take 4 ++ header.drop 8) = header := by
    have hlast : header.drop 8 = (header.drop 4).drop 4 := by rw [List.drop_drop]
    rw [hlast, List.take_append_drop, List.take_append_drop]
  refine ⟨⟨wordOf (header.take 4), wordOf ((header.drop 4).take 4), data, wordOf_le hseconds,
    wordOf_le hmicroseconds, hdata ▸ wordOf_le hlength⟩, ?_⟩
  simp only [Frame.bytes, hdata, wordBytes_wordOf hseconds, wordBytes_wordOf hmicroseconds,
    wordBytes_wordOf hlength, List.append_assoc]
  rw [← List.append_assoc ((header.drop 4).take 4), ← List.append_assoc, hwords]

/-- Bytes that can be read are frames in a row. -/
theorem exists_frames_of_decodeFrom {offset : Nat} {bytes : List UInt8} {recording : Recording}
    (h : decodeFrom offset bytes = .ok recording) :
    ∃ frames : List Frame, bytes = frames.flatMap Frame.bytes := by
  fun_induction decodeFrom offset bytes generalizing recording with
  | case1 => exact ⟨[], rfl⟩
  | case2 => cases h
  | case3 => cases h
  | case4 => cases h
  | case5 _ bytes _ _ header rest hlong _ length data hwhole chunks hc =>
      rename_i ih
      obtain ⟨frames, hframes⟩ := ih hc
      have hheader : header.length = headerLength :=
        Nat.le_antisymm (List.length_take_le ..) (Nat.not_lt.mp hlong)
      have hdata : data.length = length :=
        Nat.le_antisymm (List.length_take_le ..) (Nat.not_lt.mp hwhole)
      obtain ⟨f, hf⟩ := exists_frame hheader hdata
      refine ⟨f :: frames, ?_⟩
      rw [List.flatMap_cons, hf, ← hframes, List.append_assoc, List.take_append_drop,
        List.take_append_drop]

/-- Reading succeeds on frames in a row and on nothing else. -/
theorem decode_eq_ok_iff {bytes : List UInt8} {recording : Recording} :
    decode bytes = .ok recording ↔
      ∃ frames : List Frame, bytes = frames.flatMap Frame.bytes ∧
        recording = frames.map Frame.chunk := by
  constructor
  · intro h
    obtain ⟨frames, rfl⟩ := exists_frames_of_decodeFrom h
    exact ⟨frames, rfl, Except.ok.inj (h.symm.trans (decode_frames frames))⟩
  · rintro ⟨frames, rfl, rfl⟩
    exact decode_frames frames

end TermReplay.Recording
