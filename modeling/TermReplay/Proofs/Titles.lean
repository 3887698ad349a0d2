import TermReplay.Proofs.EncodedText

/-!
Titles. The body of a title is any text without a bell or an escape character, and it is set as it
was sent: the bytes of its characters neither end the body nor separate the code from it again.
Whatever ends the body, reading goes on behind it, with nothing but the title changed.
-/

namespace TermReplay

open Text Recognizer

inductive TitleCode
  | both | icon | window
  deriving DecidableEq, Repr

namespace TitleCode

def byte : TitleCode → UInt8
  | both => 0x30
  | icon => 0x31
  | window => 0x32

def command : TitleCode → String → Command
  | both => .bothTitles
  | icon => .iconTitle
  | window => .windowTitle

def apply (title : String) (t : Terminal) : TitleCode → Terminal
  | both => { t with windowTitle := title, iconTitle := title }
  | icon => { t with iconTitle := title }
  | window => { t with windowTitle := title }

def told (title : String) : TitleCode → List Notice
  | both => [.windowTitle title, .iconTitle title]
  | icon => [.iconTitle title]
  | window => [.windowTitle title]

theorem obey_command (code : TitleCode) (title : String) (t : Terminal) :
    t.obey (code.command title) = ⟨code.apply title t, code.told title⟩ := by
  cases code <;> rfl

end TitleCode

def titleBody (code : TitleCode) (title : String) : List UInt8 :=
  code.byte :: 0x3b :: title.toUTF8.data.toList

def titleSequence (code : TitleCode) (title : String) : List UInt8 :=
  0x1b :: 0x5d :: titleBody code title

theorem isBodyByte_iff {b : UInt8} : isBodyByte b = true ↔ b.toNat ≠ 0x07 ∧ b.toNat ≠ 0x1b := by
  rw [isBodyByte, Bool.and_eq_true, bne_iff_ne, bne_iff_ne, ne_eq, ne_eq, ← UInt8.toNat_inj,
    ← UInt8.toNat_inj]
  rfl

theorem isBodyByte_encoded {c : Char} (hbell : c ≠ '\x07') (hescape : c ≠ '\x1b') :
    ∀ b ∈ String.utf8EncodeChar c, isBodyByte b = true := by
  intro b hb
  rw [isBodyByte_iff]
  by_cases hc : c.toNat < 0x80
  · rw [Utf8.encoded_ascii hc, List.mem_singleton] at hb
    rw [hb, UInt8.toNat_ofNat_of_lt' (Nat.lt_trans hc (by decide))]
    exact ⟨fun h => hbell (Char.toNat_inj.mp h), fun h => hescape (Char.toNat_inj.mp h)⟩
  · have hhigh := (Utf8.sequence_encoded (Nat.le_of_not_lt hc)).1.high b hb
    omega

theorem isBodyByte_titleBody (code : TitleCode) {title : String}
    (h : ∀ c ∈ title.toList, c ≠ '\x07' ∧ c ≠ '\x1b') :
    ∀ b ∈ titleBody code title, isBodyByte b = true := by
  intro b hb
  rw [titleBody, List.mem_cons, List.mem_cons] at hb
  obtain rfl | rfl | hb := hb
  · cases code <;> rfl
  · rfl
  · rw [Utf8.toUTF8_eq, List.mem_flatMap] at hb
    obtain ⟨c, hc, hb⟩ := hb
    exact isBodyByte_encoded (h c hc).1 (h c hc).2 b hb

theorem systemOutput_titleBody (code : TitleCode) (title : String) :
    systemOutput (titleBody code title) = .command (code.command title) := by
  have htext : String.ofList (Utf8.decodeLossy title.toUTF8.data.toList) = title := by
    rw [Utf8.toUTF8_eq, Utf8.decodeLossy_encoded, String.ofList_toList]
  calc systemOutput (titleBody code title)
      = .command (code.command (String.ofList (Utf8.decodeLossy title.toUTF8.data.toList))) := by
        cases code <;> rfl
    _ = .command (code.command title) := by rw [htext]

/-- A token at the front is followed first. -/
theorem Player.feed_of_token {p : Player} (hp : p.stream.pending = []) {bytes rest : List UInt8}
    {token : Token} (ht : nextToken bytes = some token) (hrest : bytes.drop token.length = rest) :
    p.feed bytes =
      (⟨{ p with terminal := (p.terminal.followAll token.outputs).terminal },
        (p.terminal.followAll token.outputs).notices, none⟩ : Played).andThen (·.feed rest) := by
  subst hrest
  simp only [feed, ByteStream.feed, hp, List.nil_append, readTokens_of_some ht, Played.andThen,
    Terminal.followAll_append, Reaction.andThen_terminal, Reaction.andThen_notices]

/-- With nothing to end, `ESC \` does nothing. -/
theorem Player.feed_stringTerminator {p : Player} (hp : p.stream.pending = [])
    (rest : List UInt8) : p.feed (0x1b :: 0x5c :: rest) = p.feed rest := by
  have htoken : nextToken (0x1b :: 0x5c :: rest) = some (.silent 2) := rfl
  exact feed_of_token hp htoken rfl

def Player.titled (p : Player) (code : TitleCode) (title : String) : Played :=
  ⟨{ p with terminal := code.apply title p.terminal }, code.told title, none⟩

/-- A title with what ends its body. -/
theorem feed_title {p : Player} (hp : p.stream.pending = []) (code : TitleCode) {title : String}
    (ht : ∀ c ∈ title.toList, c ≠ '\x07' ∧ c ≠ '\x1b') (rest : List UInt8) (ending : Nat)
    (htake : rest.takeWhile isBodyByte = []) (hdrop : rest.dropWhile isBodyByte = rest)
    (h : terminator? rest = some ending) :
    p.feed (titleSequence code title ++ rest) =
      (p.titled code title).andThen (·.feed (rest.drop ending)) := by
  have htoken := nextToken_systemCommand rest ending (isBodyByte_titleBody code ht) htake hdrop h
  have hfollowed : p.terminal.followAll [systemOutput (titleBody code title)] =
      ⟨code.apply title p.terminal, code.told title⟩ := by
    rw [systemOutput_titleBody, Terminal.followAll, Terminal.each_singleton]
    exact code.obey_command title p.terminal
  have hbehind : (titleSequence code title ++ rest).drop
      (2 + (titleBody code title).length + ending) = rest.drop ending := by
    have hlength : (titleSequence code title).length = 2 + (titleBody code title).length := by
      rw [titleSequence, List.length_cons, List.length_cons]
      omega
    rw [← hlength, ← List.drop_drop, List.drop_left]
  have hfeed := Player.feed_of_token hp htoken hbehind
  rw [hfollowed] at hfeed
  exact hfeed

/-- A title without bells and escape characters arrives as it was sent. Its titles are set and
told, and nothing else of the player is changed; reading goes on behind the bell or `ESC \` that
ends it, or with the escape byte of whatever follows directly. -/
theorem title_arrives (p : Player) (hp : p.stream.pending = []) (code : TitleCode)
    {title : String} (ht : ∀ c ∈ title.toList, c ≠ '\x07' ∧ c ≠ '\x1b') (rest : List UInt8) :
    p.feed (titleSequence code title ++ 0x07 :: rest) =
        (p.titled code title).andThen (·.feed rest) ∧
      p.feed (titleSequence code title ++ 0x1b :: 0x5c :: rest) =
        (p.titled code title).andThen (·.feed rest) ∧
      ∀ b, p.feed (titleSequence code title ++ 0x1b :: b :: rest) =
        (p.titled code title).andThen (·.feed (0x1b :: b :: rest)) := by
  have hstring : p.feed (titleSequence code title ++ 0x1b :: 0x5c :: rest) =
      (p.titled code title).andThen (·.feed rest) :=
    feed_title hp code ht (0x1b :: 0x5c :: rest) 2 rfl rfl rfl
  refine ⟨feed_title hp code ht (0x07 :: rest) 1 rfl rfl rfl, hstring, fun b => ?_⟩
  by_cases hb : b = 0x5c
  · have hsilent := Player.feed_stringTerminator (p := (p.titled code title).player) hp rest
    rw [hb, hstring]
    simp only [Player.titled, Played.andThen] at hsilent ⊢
    rw [hsilent]
  · have hending : terminator? (0x1b :: b :: rest) = some 0 := by
      rw [terminator?, List.head?_cons, Option.map_some, if_neg hb]
    exact feed_title hp code ht (0x1b :: b :: rest) 0 rfl rfl hending

/-- A semicolon, a line feed, a tab and characters of two and three bytes, sent while a wrap is
pending, and in front of more text. -/
theorem title_with_semicolon_arrives :
    let p : Player := ⟨{}, (Terminal.obeyAll [.print "ab"] (.initial 2 2 1)).terminal⟩
    let title := "caf\u00e9; \n\t\u2022"
    let rest := Text.asciiBytes "Hxy"
    p.feed (titleSequence .both title ++ 0x07 :: rest) =
        (p.titled .both title).andThen (·.feed rest) ∧
      p.feed (titleSequence .both title ++ 0x1b :: 0x5c :: rest) =
        (p.titled .both title).andThen (·.feed rest) ∧
      ∀ b, p.feed (titleSequence .both title ++ 0x1b :: b :: rest) =
        (p.titled .both title).andThen (·.feed (0x1b :: b :: rest)) :=
  title_arrives _ rfl .both (by simp) _

end TermReplay
