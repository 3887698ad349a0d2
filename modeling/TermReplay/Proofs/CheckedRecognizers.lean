import TermReplay.Proofs.TokenClaims

/-!
Recognizers as machine steps. They look bytes up by index, scan runs of them and take ranges of the
buffer; a range that is not in the buffer fails. No range ever is outside of it, whatever the
buffer and wherever in a token it ends, and what is claimed is what the recognizers without indices
claim.
-/

namespace TermReplay

open Text

def range? (buffer : List UInt8) (start stop : Nat) : Option (List UInt8) :=
  if start ≤ stop ∧ stop ≤ buffer.length then some ((buffer.drop start).take (stop - start))
  else none

theorem range?_append (front middle back : List UInt8) :
    range? (front ++ middle ++ back) front.length (front ++ middle).length = some middle := by
  have hin : front.length ≤ (front ++ middle).length ∧
      (front ++ middle).length ≤ (front ++ middle ++ back).length := by
    simp only [List.length_append]
    omega
  rw [range?, if_pos hin, List.append_assoc, List.drop_left, List.length_append,
    Nat.add_sub_cancel_left, List.take_left]

theorem range?_front (front back : List UInt8) :
    range? (front ++ back) 0 front.length = some front :=
  range?_append [] front back

theorem range?_back (front back : List UInt8) :
    range? (front ++ back) front.length (front ++ back).length = some back := by
  have h := range?_append front back []
  rwa [List.append_nil] at h

theorem range?_take {buffer : List UInt8} {n : Nat} (h : n ≤ buffer.length) :
    range? buffer 0 n = some (buffer.take n) := by
  have hfront := range?_front (buffer.take n) (buffer.drop n)
  rwa [List.take_append_drop, List.length_take_of_le h] at hfront

def runEnd (p : UInt8 → Bool) (buffer : List UInt8) (i : Nat) : Nat :=
  if h : i < buffer.length then if p buffer[i] then runEnd p buffer (i + 1) else i
  else i
  termination_by buffer.length - i

theorem runEnd_append (p : UInt8 → Bool) (front rest : List UInt8) :
    runEnd p (front ++ rest) front.length = (front ++ rest.takeWhile p).length := by
  induction rest generalizing front with
  | nil => rw [runEnd, dif_neg (by simp), List.takeWhile_nil, List.append_nil]
  | cons b rest ih =>
      have hin : front.length < (front ++ b :: rest).length := by simp
      have hb : (front ++ b :: rest)[front.length] = b := by simp
      rw [runEnd, dif_pos hin, hb]
      by_cases hp : p b = true
      · have hnext := ih (front ++ [b])
        rw [List.length_append, List.append_assoc] at hnext
        rw [if_pos hp, List.takeWhile_cons_of_pos hp]
        simpa using hnext
      · rw [if_neg hp, List.takeWhile_cons_of_neg hp, List.append_nil]

namespace Recognizer

/-- A recognizer of which a step may fail: what it claims, if anything, once all goes through. -/
abbrev Checked := List UInt8 → Option (Option Token)

def asciiRun? : Checked := fun buffer =>
  let length := (buffer.takeWhile isPrintable).length
  if length = 0 then some none
  else do some (some (.command length (.print (ascii (← range? buffer 0 length)))))

def multiByte? : Checked
  | [] => some none
  | b :: bs =>
    if isHigh b then
      match Utf8.front (b :: bs) with
      | .complete n => do
        let bytes ← range? (b :: bs) 0 n
        some (some (.command n (.print (String.singleton (Utf8.character bytes)))))
      | _ => some none
    else some none

theorem asciiRun?_eq (buffer : List UInt8) : asciiRun? buffer = some (asciiRun buffer) := by
  have hrun : range? buffer 0 (buffer.takeWhile isPrintable).length =
      some (buffer.takeWhile isPrintable) := by
    have h := range?_front (buffer.takeWhile isPrintable) (buffer.dropWhile isPrintable)
    rwa [List.takeWhile_append_dropWhile] at h
  simp only [asciiRun?, asciiRun, hrun, List.isEmpty_iff, List.length_eq_zero_iff]
  split <;> rfl

theorem multiByte?_eq (buffer : List UInt8) : multiByte? buffer = some (multiByte buffer) := by
  cases buffer with
  | nil => rfl
  | cons b bs =>
      simp only [multiByte?, multiByte]
      split
      · cases hf : Utf8.front (b :: bs) with
        | complete n =>
            simp only [range?_take (front_complete hf).2]
            rfl
        | truncated => rfl
        | invalid fits => rfl
      · rfl

/-- Whether the buffer begins with an escape byte and `second`. Bytes are only looked up once there
are two. -/
def opens? (second : UInt8) (buffer : List UInt8) : Option Bool :=
  if buffer.length < 2 then some false
  else do some ((← buffer[0]?) == escapeCode && (← buffer[1]?) == second)

def sequenceFrom? (marker : Option UInt8) (start : Nat) : Checked := fun buffer =>
  let paramsEnd := runEnd isParam buffer start
  let stop := runEnd isIntermediate buffer paramsEnd
  match buffer[stop]? with
  | none => some none
  | some final =>
    if isFinal final then do
      let sequence : ControlSequence :=
        { raw := ← range? buffer 0 (stop + 1)
          marker
          params := ← range? buffer start paramsEnd
          intermediates := ← range? buffer paramsEnd stop
          final }
      some (some ⟨stop + 1, sequence.outputs⟩)
    else do
      let head ← range? buffer 0 stop
      some (some (.warning stop ("Malformed control sequence: " ++ escapeBytes head)))

def controlSequence? : Checked := fun buffer => do
  if ← opens? 0x5b buffer then
    match buffer[2]? with
    | none => some none
    | some b => if isMarker b then sequenceFrom? (some b) 3 buffer else sequenceFrom? none 2 buffer
  else some none

theorem opens?_cases (second : UInt8) (buffer : List UInt8) :
    (∃ body, buffer = 0x1b :: second :: body ∧ opens? second buffer = some true) ∨
      ((∀ body, buffer ≠ 0x1b :: second :: body) ∧ opens? second buffer = some false) := by
  match buffer with
  | [] | [_] => exact .inr ⟨by simp, rfl⟩
  | a :: b :: body =>
      have hopens : opens? second (a :: b :: body) = some (a == escapeCode && b == second) := rfl
      rw [hopens]
      by_cases hab : a = 0x1b ∧ b = second
      · obtain ⟨rfl, rfl⟩ := hab
        exact .inl ⟨body, rfl, by simp [escapeCode]⟩
      · refine .inr ⟨?_, by simpa [escapeCode] using hab⟩
        rintro rest hrest
        cases hrest
        exact hab ⟨rfl, rfl⟩

/-- The parameters, the intermediates and the final byte stand behind one another. -/
theorem sequenceFrom?_eq (marker : Option UInt8) (front rest : List UInt8) :
    let params := rest.takeWhile isParam
    let intermediates := (rest.dropWhile isParam).takeWhile isIntermediate
    let head := front ++ params ++ intermediates
    sequenceFrom? marker front.length (front ++ rest) =
      some (match (rest.dropWhile isParam).dropWhile isIntermediate with
        | [] => none
        | final :: _ =>
          if isFinal final then
            let sequence : ControlSequence :=
              { raw := head ++ [final], marker, params, intermediates, final }
            some ⟨head.length + 1, sequence.outputs⟩
          else
            some (.warning head.length ("Malformed control sequence: " ++ escapeBytes head))) := by
  intro params intermediates head
  have hparamsEnd : runEnd isParam (front ++ rest) front.length = (front ++ params).length :=
    runEnd_append isParam front rest
  have hafter : front ++ rest = (front ++ params) ++ rest.dropWhile isParam := by
    rw [List.append_assoc, List.takeWhile_append_dropWhile]
  have hstop : runEnd isIntermediate (front ++ rest) (front ++ params).length = head.length := by
    rw [hafter]
    exact runEnd_append isIntermediate (front ++ params) (rest.dropWhile isParam)
  have hwhole : front ++ rest = head ++ (rest.dropWhile isParam).dropWhile isIntermediate := by
    rw [hafter, List.append_assoc (front ++ params), List.takeWhile_append_dropWhile]
  simp only [sequenceFrom?, hparamsEnd, hstop]
  have hparams : range? (front ++ rest) front.length (front ++ params).length = some params := by
    rw [hafter]
    exact range?_append front params _
  cases hlast : (rest.dropWhile isParam).dropWhile isIntermediate with
  | nil =>
      rw [hlast, List.append_nil] at hwhole
      rw [hwhole, List.getElem?_eq_none (Nat.le_refl _)]
  | cons final more =>
      rw [hlast] at hwhole
      have hfinal : (front ++ rest)[head.length]? = some final := by
        rw [hwhole, List.getElem?_append_right (Nat.le_refl _), Nat.sub_self]
        rfl
      have hintermediates :
          range? (front ++ rest) (front ++ params).length head.length = some intermediates := by
        rw [hwhole]
        exact range?_append (front ++ params) intermediates _
      have hhead : range? (front ++ rest) 0 head.length = some head := by
        rw [hwhole]
        exact range?_front head _
      have hraw : range? (front ++ rest) 0 (head.length + 1) = some (head ++ [final]) := by
        rw [hwhole, List.append_cons]
        simpa using range?_front (head ++ [final]) more
      simp only [hfinal, hparams, hintermediates, hhead, hraw]
      split <;> rfl

theorem controlSequence?_eq (buffer : List UInt8) :
    controlSequence? buffer = some (controlSequence buffer) := by
  obtain ⟨body, rfl, hopens⟩ | ⟨hother, hopens⟩ := opens?_cases 0x5b buffer
  · simp only [controlSequence?, hopens]
    cases body with
    | nil => rfl
    | cons b bs =>
        by_cases hb : isMarker b = true
        · have hmarked := sequenceFrom?_eq (some b) [0x1b, 0x5b, b] bs
          simp only [controlSequence, cutMarker, if_pos hb]
          show (if isMarker b then _ else _) = _
          rw [if_pos hb]
          exact hmarked
        · have hplain := sequenceFrom?_eq none [0x1b, 0x5b] (b :: bs)
          simp only [controlSequence, cutMarker, if_neg hb]
          show (if isMarker b then _ else _) = _
          rw [if_neg hb]
          exact hplain
  · simp only [controlSequence?, hopens]
    have hclaim : controlSequence buffer = none := by
      unfold controlSequence
      split
      · next body => exact absurd rfl (hother body)
      · rfl
    rw [hclaim]
    rfl

/-- The end of the body of a system command, and how long the command is: both are looked for from
index `i` on, and not known while the body, or the byte after an escape, is missing. -/
def bodyEnd? (buffer : List UInt8) (i : Nat) : Option (Nat × Nat) :=
  if h : i < buffer.length then
    if buffer[i] = bellCode then some (i, i + 1)
    else if buffer[i] = escapeCode then
      buffer[i + 1]?.map fun next => (i, if next = 0x5c then i + 2 else i)
    else bodyEnd? buffer (i + 1)
  else none
  termination_by buffer.length - i

def systemOutput? (body : List UInt8) : Option Output :=
  match body.findIdx? (· == Params.semicolon) with
  | none => some (.warning ("Unhandled OSC: " ++ escapeBytes body))
  | some split => do
    let text := String.ofList (Utf8.decodeLossy (← range? body (split + 1) body.length))
    let code ← range? body 0 split
    some
      (match code with
      | [0x30] => .command (.bothTitles text)
      | [0x31] => .command (.iconTitle text)
      | [0x32] => .command (.windowTitle text)
      | _ => .warning ("Unhandled OSC " ++ escapeBytes code))

def systemCommand? : Checked := fun buffer => do
  if ← opens? 0x5d buffer then
    match bodyEnd? buffer 2 with
    | none => some none
    | some (bodyEnd, length) => do
      let body ← range? buffer 2 bodyEnd
      some (some ⟨length, [← systemOutput? body]⟩)
  else some none

theorem isBodyByte_eq_true_iff {b : UInt8} :
    isBodyByte b = true ↔ b ≠ bellCode ∧ b ≠ escapeCode := by
  simp only [isBodyByte, Bool.and_eq_true, bne_iff_ne]

theorem bodyEnd?_append (front rest : List UInt8) :
    bodyEnd? (front ++ rest) front.length =
      (terminator? (rest.dropWhile isBodyByte)).map fun ending =>
        ((front ++ rest.takeWhile isBodyByte).length,
          (front ++ rest.takeWhile isBodyByte).length + ending) := by
  induction rest generalizing front with
  | nil =>
      rw [bodyEnd?, dif_neg (by simp)]
      rfl
  | cons b rest ih =>
      have hin : front.length < (front ++ b :: rest).length := by simp
      have hb : (front ++ b :: rest)[front.length] = b := by simp
      rw [bodyEnd?, dif_pos hin, hb]
      by_cases hbody : isBodyByte b = true
      · have hnext := ih (front ++ [b])
        rw [List.length_append, List.append_assoc] at hnext
        obtain ⟨hbell, hescape⟩ := isBodyByte_eq_true_iff.mp hbody
        rw [if_neg hbell, if_neg hescape, List.takeWhile_cons_of_pos hbody,
          List.dropWhile_cons_of_pos hbody]
        simpa using hnext
      · rw [List.takeWhile_cons_of_neg hbody, List.dropWhile_cons_of_neg hbody, List.append_nil]
        by_cases hbell : b = bellCode
        · subst hbell
          rfl
        · have hescape : b = escapeCode :=
            Decidable.byContradiction fun he => hbody (isBodyByte_eq_true_iff.mpr ⟨hbell, he⟩)
          subst hescape
          have hnext : (front ++ escapeCode :: rest)[front.length + 1]? = rest.head? := by
            rw [List.getElem?_append_right (Nat.le_succ _), Nat.succ_sub (Nat.le_refl _),
              Nat.sub_self, List.head?_eq_getElem?]
            rfl
          rw [if_neg hbell, if_pos rfl, hnext]
          show _ = (rest.head?.map fun b => if b = 0x5c then 2 else 0).map _
          cases rest.head? with
          | none => rfl
          | some next => by_cases hn : next = 0x5c <;> simp [hn]

theorem findIdx_of_run {α : Type} (p : α → Bool) (l : List α) :
    l.findIdx? (fun a => !p a) =
      match l.dropWhile p with
      | [] => none
      | _ :: _ => some (l.takeWhile p).length := by
  induction l with
  | nil => rfl
  | cons a l ih =>
      cases ha : p a with
      | true =>
          rw [List.findIdx?_cons, ha, List.dropWhile_cons_of_pos ha,
            List.takeWhile_cons_of_pos ha, ih]
          cases l.dropWhile p <;> rfl
      | false =>
          have hn : ¬p a = true := by simp [ha]
          rw [List.findIdx?_cons, ha, List.dropWhile_cons_of_neg hn,
            List.takeWhile_cons_of_neg hn]
          rfl

theorem systemOutput?_eq (body : List UInt8) : systemOutput? body = some (systemOutput body) := by
  let isCode (b : UInt8) : Bool := b != Params.semicolon
  have hsemicolon : (fun b => b == Params.semicolon) = fun b => !isCode b :=
    funext fun b => (Bool.not_not _).symm
  have hwhole := List.takeWhile_append_dropWhile (p := isCode) (l := body)
  rw [systemOutput?, hsemicolon, findIdx_of_run]
  show _ = some (match body.dropWhile isCode with
    | [] => _
    | _ :: bytes => _)
  cases htext : body.dropWhile isCode with
  | nil => rfl
  | cons b bytes =>
      rw [htext] at hwhole
      have hcode : range? body 0 (body.takeWhile isCode).length = some (body.takeWhile isCode) := by
        have h := range?_front (body.takeWhile isCode) (b :: bytes)
        rwa [hwhole] at h
      have hbytes : range? body ((body.takeWhile isCode).length + 1) body.length = some bytes := by
        have h := range?_back (body.takeWhile isCode ++ [b]) bytes
        rwa [List.append_assoc, List.singleton_append, hwhole, List.length_append] at h
      simp only [hcode, hbytes, Option.bind_eq_bind, Option.bind_some]
      rfl

theorem systemCommand?_eq (buffer : List UInt8) :
    systemCommand? buffer = some (systemCommand buffer) := by
  obtain ⟨bytes, rfl, hopens⟩ | ⟨hother, hopens⟩ := opens?_cases 0x5d buffer
  · have hend : bodyEnd? (0x1b :: 0x5d :: bytes) 2 = _ := bodyEnd?_append [0x1b, 0x5d] bytes
    have hbody : range? (0x1b :: 0x5d :: bytes) 2
        ([0x1b, 0x5d] ++ bytes.takeWhile isBodyByte).length =
          some (bytes.takeWhile isBodyByte) := by
      have h := range?_append [0x1b, 0x5d] (bytes.takeWhile isBodyByte) (bytes.dropWhile isBodyByte)
      rwa [List.append_assoc, List.takeWhile_append_dropWhile] at h
    simp only [systemCommand?, hopens, hend, systemCommand, Option.bind_eq_bind, Option.bind_some,
      if_true]
    cases terminator? (bytes.dropWhile isBodyByte) with
    | none => rfl
    | some ending =>
        simp only [Option.map_some, hbody, systemOutput?_eq, Option.bind_some]
        rw [List.length_append]
        rfl
  · simp only [systemCommand?, hopens]
    have hclaim : systemCommand buffer = none := by
      unfold systemCommand
      split
      · next body => exact absurd rfl (hother body)
      · rfl
    rw [hclaim]
    rfl

/-- The designation of a slot; the bytes up to the one that names the set are quoted. -/
def designation? (slot : Slot) : Checked := fun buffer =>
  match buffer[2]? with
  | none => some none
  | some b =>
    match characterSet? b with
    | some set => some (some (.command 3 (.designate slot set)))
    | none => do
      let bytes ← range? buffer 0 3
      some (some (.warning 3 ("Unhandled charset designation: " ++ escapeBytes bytes)))

def lineSequence? : Checked := fun buffer =>
  match buffer[2]? with
  | none => some none
  | some b =>
    match lineCommand? b with
    | some c => some (some (.command 3 c))
    | none => do some (some (.warning 3 (unhandledEscape (← range? buffer 0 3))))

def intermediateSequence? : Checked := fun buffer => do
  let bytes ← range? buffer 1 buffer.length
  let length := 1 + (bytes.takeWhile isIntermediate).length
  match buffer[length]? with
  | none => some none
  | some final =>
    if 0x30 ≤ final ∧ final ≤ 0x7e then
      some (some (.warning (length + 1) (unhandledEscape (← range? buffer 0 (length + 1)))))
    else
      let head ← range? buffer 0 length
      some (some (.warning length ("Malformed escape sequence: " ++ escapeBytes head)))

def shortEscape? (b : UInt8) : Checked := fun buffer =>
  match escapeCommand? b with
  | some c => some (some (.command 2 c))
  | none =>
    if isIntermediate b then intermediateSequence? buffer
    else if isPrintable b then do
      some (some (.warning 2 (unhandledEscape (← range? buffer 0 2))))
    else some (some (.warning 1 ("stray ESC before " ++ namedByte b)))

def escape? : Checked := fun buffer =>
  match buffer with
  | 0x1b :: b :: bs =>
    match Char.ofNat b.toNat with
    | '[' => some none
    | ']' => some none
    | '\x5c' => some (some (.silent 2))
    | 'N' => some (singleShift .g2 bs)
    | 'O' => some (singleShift .g3 bs)
    | '(' => designation? .g0 buffer
    | ')' => designation? .g1 buffer
    | '#' => lineSequence? buffer
    | _ => shortEscape? b buffer
  | _ => some none

theorem designation?_eq (slot : Slot) (opener : UInt8) (bs : List UInt8) :
    designation? slot (0x1b :: opener :: bs) = some (designation slot opener bs) := by
  cases bs with
  | nil => rfl
  | cons b bs =>
      have hb : (0x1b :: opener :: b :: bs)[2]? = some b := rfl
      have hthree : range? (0x1b :: opener :: b :: bs) 0 3 = some [0x1b, opener, b] :=
        range?_front [0x1b, opener, b] bs
      simp only [designation?, designation, hb, hthree]
      cases characterSet? b <;> rfl

theorem lineSequence?_eq (bs : List UInt8) :
    lineSequence? (0x1b :: 0x23 :: bs) = some (lineSequence bs) := by
  cases bs with
  | nil => rfl
  | cons b bs =>
      have hb : (0x1b :: 0x23 :: b :: bs)[2]? = some b := rfl
      have hthree : range? (0x1b :: 0x23 :: b :: bs) 0 3 = some [0x1b, 0x23, b] :=
        range?_front [0x1b, 0x23, b] bs
      simp only [lineSequence?, lineSequence, hb, hthree]
      cases lineCommand? b <;> rfl

theorem intermediateSequence?_eq (bytes : List UInt8) :
    intermediateSequence? (0x1b :: bytes) = some (intermediateSequence bytes) := by
  let head := 0x1b :: bytes.takeWhile isIntermediate
  have hwhole : 0x1b :: bytes = head ++ bytes.dropWhile isIntermediate := by
    rw [List.cons_append, List.takeWhile_append_dropWhile]
  have hlength : 1 + (bytes.takeWhile isIntermediate).length = head.length := Nat.add_comm ..
  have hbytes : range? (0x1b :: bytes) 1 (0x1b :: bytes).length = some bytes :=
    range?_back [0x1b] bytes
  simp only [intermediateSequence?, intermediateSequence, hbytes, hlength, Option.bind_eq_bind,
    Option.bind_some]
  cases hlast : bytes.dropWhile isIntermediate with
  | nil =>
      rw [hlast, List.append_nil] at hwhole
      rw [hwhole, List.getElem?_eq_none (Nat.le_refl _)]
  | cons final more =>
      rw [hlast] at hwhole
      have hfinal : (0x1b :: bytes)[head.length]? = some final := by
        rw [hwhole, List.getElem?_append_right (Nat.le_refl _), Nat.sub_self]
        rfl
      have hhead : range? (0x1b :: bytes) 0 head.length = some head := by
        rw [hwhole]
        exact range?_front head _
      have hraw : range? (0x1b :: bytes) 0 (head.length + 1) = some (head ++ [final]) := by
        rw [hwhole, List.append_cons]
        simpa using range?_front (head ++ [final]) more
      simp only [hfinal, hhead, hraw]
      split <;> rfl

theorem hash_of_char : ∀ b : UInt8, Char.ofNat b.toNat = '#' → b = 0x23 :=
  TokenKind.forall_byte (by decide +kernel)

theorem shortEscape?_eq (b : UInt8) (bs : List UInt8) :
    shortEscape? b (0x1b :: b :: bs) =
      some (match escapeCommand? b with
        | some c => some (.command 2 c)
        | none =>
          if isIntermediate b then intermediateSequence (b :: bs)
          else if isPrintable b then some (.warning 2 (unhandledEscape [escapeCode, b]))
          else some (.warning 1 ("stray ESC before " ++ namedByte b))) := by
  have htwo : range? (0x1b :: b :: bs) 0 2 = some [0x1b, b] := range?_front [0x1b, b] bs
  simp only [shortEscape?, htwo, intermediateSequence?_eq]
  cases escapeCommand? b with
  | some c => rfl
  | none =>
      dsimp only
      split
      · rfl
      · split <;> rfl

theorem escape?_eq (buffer : List UInt8) : escape? buffer = some (escape buffer) := by
  by_cases hopens : ∃ b bs, buffer = 0x1b :: b :: bs
  · obtain ⟨b, bs, rfl⟩ := hopens
    simp only [escape]
    split
    · next hb => simp only [escape?, hb]
    · next hb => simp only [escape?, hb]
    · next hb => simp only [escape?, hb]
    · next hb => simp only [escape?, hb]
    · next hb => simp only [escape?, hb]
    · next hb =>
        simp only [escape?, hb]
        exact designation?_eq .g0 b bs
    · next hb =>
        simp only [escape?, hb]
        exact designation?_eq .g1 b bs
    · next hb =>
        simp only [escape?, hb]
        rw [hash_of_char b hb]
        exact lineSequence?_eq bs
    · refine Eq.trans ?_ (shortEscape?_eq b bs)
      simp only [escape?]
  · have hclaim : escape buffer = none := by
      unfold escape
      split
      · next b bs => exact absurd ⟨b, bs, rfl⟩ hopens
      · rfl
    rw [hclaim]
    unfold escape?
    split
    · next b bs => exact absurd ⟨b, bs, rfl⟩ hopens
    · rfl

end Recognizer

namespace TokenKind

open Recognizer

/-- Recognizers that take no range of the buffer have no step that fails. -/
def checked : TokenKind → Checked
  | .control => fun buffer => some (Recognizer.control buffer)
  | .ignoredControl => fun buffer => some (Recognizer.ignoredControl buffer)
  | .asciiRun => asciiRun?
  | .multiByte => multiByte?
  | .invalidByte => fun buffer => some (Recognizer.invalidByte buffer)
  | .controlSequence => controlSequence?
  | .escape => escape?
  | .systemCommand => systemCommand?

theorem checked_eq (kind : TokenKind) (buffer : List UInt8) :
    kind.checked buffer = some (kind.recognizer buffer) := by
  cases kind with
  | control | ignoredControl | invalidByte => rfl
  | asciiRun => exact asciiRun?_eq buffer
  | multiByte => exact multiByte?_eq buffer
  | controlSequence => exact controlSequence?_eq buffer
  | escape => exact escape?_eq buffer
  | systemCommand => exact systemCommand?_eq buffer

end TokenKind

def nextToken? : Recognizer.Checked := fun buffer =>
  TokenKind.all.foldlM (fun best kind => do some (Token.better best (← kind.checked buffer))) none

theorem nextToken?_eq (buffer : List UInt8) : nextToken? buffer = some (nextToken buffer) := by
  have hkinds (kinds : List TokenKind) (best : Option Token) :
      kinds.foldlM (fun best kind => do some (Token.better best (← kind.checked buffer))) best =
        some ((kinds.map TokenKind.recognizer).foldl
          (fun best recognize => Token.better best (recognize buffer)) best) := by
    induction kinds generalizing best with
    | nil => rfl
    | cons kind kinds ih =>
        rw [List.foldlM_cons, kind.checked_eq, List.map_cons, List.foldl_cons, ← ih]
        rfl
  rw [nextToken?, hkinds, nextToken, TokenKind.recognizers_eq]

end TermReplay
