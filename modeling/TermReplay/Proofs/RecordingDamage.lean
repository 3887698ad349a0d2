import TermReplay.Proofs.RecordingFrames

/-!
Where a recording is damaged. The frames in front of the bytes of a file are cut off as long as
they are whole. What is left begins at the damaged frame, and how much of it there is tells
whether its header or its payload is cut short; in front of it everything can still be read.
-/

namespace TermReplay

def RecordingError.offset? : RecordingError → Option Nat
  | .file _ => none
  | .truncatedHeader offset => some offset
  | .truncatedPayload offset _ _ => some offset

namespace Recording

theorem wordBytes_inj {n m : Nat} (hn : n ≤ wordLimit) (hm : m ≤ wordLimit)
    (h : wordBytes n = wordBytes m) : n = m := by
  rw [← wordOf_wordBytes hn, h, wordOf_wordBytes hm]

/-- Bytes begin with at most one frame. -/
theorem Frame.append_inj {f g : Frame} {rest more : List UInt8}
    (h : f.bytes ++ rest = g.bytes ++ more) : f = g ∧ rest = more := by
  have hheader : wordBytes f.seconds ++ wordBytes f.microseconds ++ wordBytes f.data.length =
      wordBytes g.seconds ++ wordBytes g.microseconds ++ wordBytes g.data.length := by
    rw [← f.take_header rest, ← g.take_header more, h]
  obtain ⟨htimes, hlengths⟩ := List.append_inj' hheader rfl
  obtain ⟨hseconds, hmicroseconds⟩ := List.append_inj' htimes rfl
  have hpayload : f.data ++ rest = g.data ++ more := by
    rw [← f.drop_header rest, ← g.drop_header more, h]
  obtain ⟨hdata, hrest⟩ :=
    List.append_inj hpayload (wordBytes_inj f.length_le g.length_le hlengths)
  have hs := wordBytes_inj f.seconds_le g.seconds_le hseconds
  have hm := wordBytes_inj f.microseconds_le g.microseconds_le hmicroseconds
  cases f
  cases g
  cases hs
  cases hm
  cases hdata
  exact ⟨rfl, hrest⟩

def payloadLength (bytes : List UInt8) : Nat := wordOf ((bytes.drop 8).take 4)

/-- Bytes begin with a frame if there is a header and the payload that it asks for. -/
theorem exists_frame_in_front {bytes : List UInt8} (hheader : headerLength ≤ bytes.length)
    (hpayload : payloadLength bytes ≤ bytes.length - headerLength) :
    ∃ (f : Frame) (rest : List UInt8), bytes = f.bytes ++ rest := by
  have hlength : (bytes.take headerLength).length = headerLength := List.length_take_of_le hheader
  have hword : (bytes.take headerLength).drop 8 = (bytes.drop 8).take 4 := List.drop_take ..
  have hdata : ((bytes.drop headerLength).take (payloadLength bytes)).length =
      wordOf ((bytes.take headerLength).drop 8) := by
    rw [hword]
    exact List.length_take_of_le (by rwa [List.length_drop])
  obtain ⟨f, hf⟩ := exists_frame hlength hdata
  refine ⟨f, (bytes.drop headerLength).drop (payloadLength bytes), ?_⟩
  rw [hf, List.append_assoc, List.take_append_drop, List.take_append_drop]

/-- The whole frames in front of some bytes, and the bytes behind them, which begin with none. -/
structure Cut (bytes : List UInt8) where
  frames : List Frame
  rest : List UInt8
  split : bytes = frames.flatMap Frame.bytes ++ rest
  ends : ∀ (f : Frame) (more : List UInt8), rest ≠ f.bytes ++ more

theorem exists_cut (bytes : List UInt8) : Nonempty (Cut bytes) := by
  induction hn : bytes.length using Nat.strongRecOn generalizing bytes with
  | _ n ih =>
    by_cases h : ∃ (f : Frame) (more : List UInt8), bytes = f.bytes ++ more
    · obtain ⟨f, more, rfl⟩ := h
      have hshort : more.length < n := by
        rw [← hn, List.length_append, f.length_bytes, headerLength]
        omega
      obtain ⟨cut⟩ := ih _ hshort more rfl
      exact ⟨f :: cut.frames, cut.rest, by
        rw [List.flatMap_cons, List.append_assoc, ← cut.split], cut.ends⟩
    · exact ⟨[], bytes, rfl, fun f more he => h ⟨f, more, he⟩⟩

namespace Cut

variable {bytes : List UInt8} (cut : Cut bytes)

def offset : Nat := (cut.frames.flatMap Frame.bytes).length

theorem take_offset : bytes.take cut.offset = cut.frames.flatMap Frame.bytes := by
  have htake : (cut.frames.flatMap Frame.bytes ++ cut.rest).take cut.offset =
      cut.frames.flatMap Frame.bytes := List.take_left
  rwa [← cut.split] at htake

/-- No other way to cut frames off goes further. -/
theorem longest {others : List Frame} {rest : List UInt8}
    (h : bytes = others.flatMap Frame.bytes ++ rest) : others <+: cut.frames := by
  obtain ⟨frames, behind, hsplit, hends⟩ := cut
  subst hsplit
  induction others generalizing frames with
  | nil => exact List.nil_prefix
  | cons f others ih =>
      cases frames with
      | nil =>
          rw [List.flatMap_cons, List.append_assoc] at h
          exact absurd h (hends f _)
      | cons g frames =>
          simp only [List.flatMap_cons, List.append_assoc] at h
          obtain ⟨rfl, hrest⟩ := Frame.append_inj h
          exact List.cons_prefix_cons.mpr ⟨rfl, ih frames hrest⟩

def damage : RecordingError :=
  if cut.rest.length < headerLength then .truncatedHeader cut.offset
  else .truncatedPayload cut.offset (payloadLength cut.rest) (cut.rest.length - headerLength)

theorem offset_damage : cut.damage.offset? = some cut.offset := by
  unfold damage
  split <;> rfl

/-- Reading stops where no frame begins. -/
theorem decodeFrom_rest (hrest : cut.rest ≠ []) :
    decodeFrom cut.offset cut.rest = .error cut.damage := by
  rw [decodeFrom, dif_neg hrest]
  by_cases hheader : cut.rest.length < headerLength
  · have hshort : (cut.rest.take headerLength).length < headerLength :=
      Nat.lt_of_le_of_lt (List.length_take_le' ..) hheader
    simp only [if_pos hshort, damage, if_pos hheader]
  · have hlong : ¬(cut.rest.take headerLength).length < headerLength := by
      rw [List.length_take_of_le (Nat.not_lt.mp hheader)]
      exact Nat.lt_irrefl _
    have hword : wordOf ((cut.rest.take headerLength).drop 8) = payloadLength cut.rest :=
      congrArg wordOf (List.drop_take ..)
    have hpayload : cut.rest.length - headerLength < payloadLength cut.rest := by
      by_contra hfits
      obtain ⟨f, more, hfront⟩ :=
        exists_frame_in_front (Nat.not_lt.mp hheader) (Nat.not_lt.mp hfits)
      exact cut.ends f more hfront
    have hshort : ((cut.rest.drop headerLength).take (payloadLength cut.rest)).length <
        payloadLength cut.rest := by
      refine Nat.lt_of_le_of_lt (List.length_take_le' ..) ?_
      rwa [List.length_drop]
    simp only [if_neg hlong, hword, if_pos hshort, List.length_drop, damage, if_neg hheader]

/-- The chunks of the whole frames are read if nothing is left behind them, and otherwise what
is left is the damage. -/
theorem decode_eq : decode bytes =
    if cut.rest = [] then .ok (cut.frames.map Frame.chunk) else .error cut.damage := by
  by_cases hrest : cut.rest = []
  · have hwhole := cut.split
    rw [hrest, List.append_nil] at hwhole
    rw [if_pos hrest, ← decode_frames, ← hwhole]
  · have hread := decodeFrom_frames_append 0 cut.frames cut.rest
    rw [← cut.split, Nat.zero_add, ← offset, cut.decodeFrom_rest hrest] at hread
    rw [if_neg hrest]
    exact hread

theorem decode_take_offset :
    decode (bytes.take cut.offset) = .ok (cut.frames.map Frame.chunk) := by
  rw [take_offset, decode_frames]

end Cut

theorem decode_append {front back : List UInt8} {first second : Recording}
    (hfirst : decode front = .ok first) (hsecond : decode back = .ok second) :
    decode (front ++ back) = .ok (first ++ second) := by
  obtain ⟨frames, rfl, rfl⟩ := decode_eq_ok_iff.mp hfirst
  obtain ⟨others, rfl, rfl⟩ := decode_eq_ok_iff.mp hsecond
  rw [← List.flatMap_append, ← List.map_append]
  exact decode_frames (frames ++ others)

/-- Reading takes the longest part in front that is frames in a row. It succeeds if that is all,
with their chunks in order. Otherwise it says where that part ends, and whether too little is left
for a header or for the payload that the header there asks for, how long that is and how much of
it there is. What stands in front of the damage can be read, and recordings that can be read can
be read one after the other. -/
theorem decode_locates_damage (bytes : List UInt8) :
    (∃ cut : Cut bytes,
      (∀ (others : List Frame) (rest : List UInt8),
        bytes = others.flatMap Frame.bytes ++ rest → others <+: cut.frames) ∧
      decode bytes =
        (if cut.rest = [] then .ok (cut.frames.map Frame.chunk)
        else if cut.rest.length < headerLength then .error (.truncatedHeader cut.offset)
        else .error (.truncatedPayload cut.offset (payloadLength cut.rest)
          (cut.rest.length - headerLength))) ∧
      ∀ e, decode bytes = .error e → e.offset? = some cut.offset ∧
        decode (bytes.take cut.offset) = .ok (cut.frames.map Frame.chunk)) ∧
    ∀ (more : List UInt8) (first second : Recording), decode bytes = .ok first →
      decode more = .ok second → decode (bytes ++ more) = .ok (first ++ second) := by
  refine ⟨?_, fun _ _ _ => decode_append⟩
  obtain ⟨cut⟩ := exists_cut bytes
  refine ⟨cut, fun _ _ => cut.longest, ?_, fun e he => ⟨?_, cut.decode_take_offset⟩⟩
  · rw [cut.decode_eq, Cut.damage]
    split
    · rfl
    · split <;> rfl
  · rw [cut.decode_eq] at he
    split at he
    · cases he
    · cases he
      exact cut.offset_damage

/-- Behind one whole frame, a payload of the largest length that a word holds is cut short. -/
theorem damage_in_longest_payload :
    let whole : List UInt8 := [0x01, 0, 0, 0, 0x02, 0, 0, 0, 0x01, 0, 0, 0, 0x78]
    let short : List UInt8 := [0, 0, 0, 0, 0, 0, 0, 0, 0xff, 0xff, 0xff, 0xff, 0x61, 0x62]
    let chunk : Chunk := ⟨.ofSeconds 1 2000, [0x78]⟩
    decode (whole ++ short) = .error (.truncatedPayload 13 4294967295 2) ∧
      (∃ recording, decode ((whole ++ short).take 13) = .ok recording) ∧
      decode whole = .ok [chunk] ∧ decode (whole ++ whole) = .ok [chunk, chunk] := by
  intro whole short chunk
  have herror : decode (whole ++ short) = .error (.truncatedPayload 13 4294967295 2) := by
    decide +kernel
  have hwhole : decode whole = .ok [chunk] := by decide +kernel
  obtain ⟨⟨cut, -, -, hdamage⟩, -⟩ := decode_locates_damage (whole ++ short)
  obtain ⟨hoffset, htake⟩ := hdamage _ herror
  have hthirteen : 13 = cut.offset := Option.some.inj hoffset
  rw [← hthirteen] at htake
  exact ⟨herror, ⟨_, htake⟩, hwhole, (decode_locates_damage whole).2 whole _ _ hwhole hwhole⟩

end Recording

end TermReplay
