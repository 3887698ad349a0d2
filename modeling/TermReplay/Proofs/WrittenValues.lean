import TermReplay.Proofs.ScalarText

/-!
Values, written and read again. The reader comes to the tree of the value and goes on behind it,
whatever stands there. This is one lemma for each kind of value; the members of arrays and
objects are read back because each of them is.
-/

namespace TermReplay.Json

mutual

def node : Json → Node
  | .null => .null
  | .bool b => .bool b
  | .natural n => .number (.ok (.natural n))
  | .float f => .number (.ok (.float f))
  | .string s => .string (.ok s)
  | .array vs => .array (nodes vs) .proper
  | .object ms => .object (memberNodes ms) .proper

def nodes : List Json → List Node
  | [] => []
  | v :: vs => v.node :: nodes vs

def memberNodes : List (String × Json) → List (Except Fault String × Node)
  | [] => []
  | (key, v) :: ms => (.ok key, v.node) :: memberNodes ms

end

/-- A value without binary64 numbers, whose naturals fit a machine word. -/
inductive Plain : Json → Prop
  | null : Plain .null
  | bool (b : Bool) : Plain (.bool b)
  | natural {n : Nat} (fits : n ≤ Spelling.wordLimit) : Plain (.natural n)
  | string (s : String) : Plain (.string s)
  | array {vs : List Json} (items : ∀ v ∈ vs, Plain v) : Plain (.array vs)
  | object {ms : List (String × Json)} (members : ∀ m ∈ ms, Plain m.2) : Plain (.object ms)

/-- At any level, the value begins with a character that begins an item, and it is read as its
tree. -/
structure ReadsBack (v : Json) : Prop where
  head : ∀ level : Nat,
    ∃ c cs, v.write level = c :: cs ∧ Reading.isBlank c = false ∧ c ≠ ']'
  read : ∀ (level fuel : Nat) {rest : List Char}, 2 * (v.write level).length + 1 ≤ fuel →
    Ends rest → Reading.value fuel (v.write level ++ rest) = (v.node, .ok rest)

namespace Reading

theorem dropBlank_cons {c : Char} (h : isBlank c = false) (cs : List Char) :
    dropBlank (c :: cs) = c :: cs := by
  rw [dropBlank, List.dropWhile_cons_of_neg]
  rw [h]
  exact Bool.false_ne_true

theorem dropBlank_newLine (level : Nat) (cs : List Char) :
    dropBlank (newLine level ++ cs) = dropBlank cs := by
  rw [dropBlank, List.dropWhile_append_of_pos]
  · rfl
  · intro c hc
    obtain rfl | hc := List.mem_cons.mp hc
    · rfl
    · rw [List.eq_of_mem_replicate hc]
      rfl

theorem expect_self (letters rest : List Char) : expect letters (letters ++ rest) = .ok rest := by
  induction letters with
  | nil => rfl
  | cons c cs ih => simpa only [expect, List.cons_append, if_true] using ih

theorem word_self (letters : String) (node : Node) (rest : List Char) :
    word letters node (letters.toList ++ rest) = (node, .ok rest) := by
  simp only [word, expect_self]

theorem dropBlank_write {v : Json} (hv : ReadsBack v) (level : Nat) (rest : List Char) :
    dropBlank (v.write level ++ rest) = v.write level ++ rest := by
  obtain ⟨c, cs, heq, hblank, -⟩ := hv.head level
  rw [heq, List.cons_append, dropBlank_cons hblank]

theorem ends_items (level outer : Nat) (vs : List Json) (rest : List Char) :
    Ends (writeItems level vs ++ (newLine outer ++ rest)) := by
  cases vs with
  | nil => exact ends_newLine outer rest
  | cons v vs => exact ends_comma _

/-- Items are read with two steps for each of their characters: the comma between two of them pays
for the steps that lead to the next. -/
theorem items_written (level outer fuel : Nat) {vs : List Json} (hvs : ∀ w ∈ vs, ReadsBack w)
    {v : Json} (hv : ReadsBack v)
    (hfuel : 2 * ((v.write level).length + (writeItems level vs).length) + 2 ≤ fuel)
    (afterComma : Bool) (rest : List Char) :
    items fuel afterComma
        (v.write level ++ (writeItems level vs ++ (newLine outer ++ ']' :: rest))) =
      (v.node :: nodes vs, .proper, .ok rest) := by
  induction vs generalizing v fuel afterComma with
  | nil =>
      obtain _ | fuel := fuel
      · omega
      have hclose : dropBlank (']' :: rest) = ']' :: rest := dropBlank_cons rfl rest
      rw [items, hv.read level fuel (by omega) (ends_items level outer [] _)]
      simp only [writeItems, List.nil_append, dropBlank_newLine, hclose, nodes]
  | cons w ws ih =>
      obtain _ | fuel := fuel
      · omega
      have hw := hvs w (List.mem_cons_self ..)
      have hcomma (cs : List Char) : dropBlank (',' :: cs) = ',' :: cs := dropBlank_cons rfl cs
      obtain ⟨c, cs, heq, hblank, hclose⟩ := hw.head level
      rw [items, hv.read level fuel (by omega) (ends_items level outer (w :: ws) _)]
      have hrest := ih fuel (fun u hu => hvs u (List.mem_cons_of_mem _ hu)) hw (by
        simp only [writeItems, List.length_cons, List.length_append] at hfuel
        omega) true
      simp only [writeItems, List.cons_append, List.append_assoc, dropBlank_newLine, hcomma, nodes]
      rw [heq] at hrest ⊢
      rw [List.cons_append, dropBlank_cons hblank]
      split
      · next hnil => cases hnil
      · next hcut =>
          cases hcut
          exact absurd rfl hclose
      · rw [← List.cons_append, hrest]

/-- An item begins with no bracket, so the array is not taken for an empty one. -/
theorem array_readsBack {vs : List Json} (hvs : ∀ v ∈ vs, ReadsBack v) :
    ReadsBack (.array vs) where
  head level := by
    cases vs with
    | nil => exact ⟨'[', _, rfl, rfl, by decide⟩
    | cons v vs => exact ⟨'[', _, rfl, rfl, by decide⟩
  read {level fuel rest} hfuel _ := by
    obtain _ | fuel := fuel
    · omega
    cases vs with
    | nil => rfl
    | cons v vs =>
        have hv := hvs v (List.mem_cons_self ..)
        obtain ⟨c, cs, heq, hblank, hclose⟩ := hv.head (level + 1)
        have hitems := items_written (level + 1) level fuel
          (fun w hw => hvs w (List.mem_cons_of_mem _ hw)) hv (by
            simp only [write, List.length_cons, List.length_append] at hfuel
            omega) false rest
        rw [heq] at hitems
        simp only [write, List.cons_append, List.append_assoc, heq, value, dropBlank_newLine,
          dropBlank_cons hblank, List.nil_append]
        split
        · next hcut =>
            cases hcut
            exact absurd rfl hclose
        · next hnil => cases hnil
        · rw [← List.cons_append, hitems]
          rfl

theorem ends_members (level outer : Nat) (ms : List (String × Json)) (rest : List Char) :
    Ends (writeMembers level ms ++ (newLine outer ++ rest)) := by
  cases ms with
  | nil => exact ends_newLine outer rest
  | cons m ms => exact ends_comma _

theorem quote_append (s : String) (rest : List Char) :
    quote s ++ rest = '\x22' :: (s.toList.flatMap escapeChar ++ '\x22' :: rest) := by
  simp only [quote, List.cons_append, List.append_assoc, List.nil_append]

theorem members_written (level outer fuel : Nat) {ms : List (String × Json)}
    (hms : ∀ m ∈ ms, ReadsBack m.2) (key : String) {v : Json} (hv : ReadsBack v)
    (hfuel : 2 * ((v.write level).length + (writeMembers level ms).length) + 2 ≤ fuel)
    (afterComma : Bool) (rest : List Char) :
    members fuel afterComma
        (quote key ++ ':' :: ' ' ::
          (v.write level ++ (writeMembers level ms ++ (newLine outer ++ '\x7d' :: rest)))) =
      ((.ok key, v.node) :: memberNodes ms, .proper, .ok rest) := by
  have hcolon (cs : List Char) : dropBlank (':' :: cs) = ':' :: cs := dropBlank_cons rfl cs
  have hspace (cs : List Char) : dropBlank (' ' :: cs) = dropBlank cs := rfl
  induction ms generalizing key v fuel afterComma with
  | nil =>
      obtain _ | fuel := fuel
      · omega
      have hclose : dropBlank ('\x7d' :: rest) = '\x7d' :: rest := dropBlank_cons rfl rest
      simp only [quote_append, members, text_escaped, hcolon, hspace, dropBlank_write hv]
      rw [hv.read level fuel (by omega) (ends_members level outer [] _)]
      simp only [writeMembers, List.nil_append, dropBlank_newLine, hclose, memberNodes]
  | cons m ms ih =>
      obtain _ | fuel := fuel
      · omega
      have hm := hms m (List.mem_cons_self ..)
      have hcomma (cs : List Char) : dropBlank (',' :: cs) = ',' :: cs := dropBlank_cons rfl cs
      have hquote (cs : List Char) : dropBlank ('\x22' :: cs) = '\x22' :: cs :=
        dropBlank_cons rfl cs
      simp only [quote_append, members, text_escaped, hcolon, hspace, dropBlank_write hv]
      rw [hv.read level fuel (by omega) (ends_members level outer (m :: ms) _)]
      have hrest := ih fuel (fun n hn => hms n (List.mem_cons_of_mem _ hn)) m.1 hm (by
          simp only [writeMembers, List.length_cons, List.length_append] at hfuel
          omega) true
      simp only [quote_append] at hrest
      simp only [writeMembers, List.cons_append, List.append_assoc, quote_append,
        dropBlank_newLine, hcomma, hquote, hrest, memberNodes]

theorem object_readsBack {ms : List (String × Json)} (hms : ∀ m ∈ ms, ReadsBack m.2) :
    ReadsBack (.object ms) where
  head level := by
    cases ms with
    | nil => exact ⟨'\x7b', _, rfl, rfl, by decide⟩
    | cons m ms => exact ⟨'\x7b', _, rfl, rfl, by decide⟩
  read {level fuel rest} hfuel _ := by
    obtain _ | fuel := fuel
    · omega
    cases ms with
    | nil => rfl
    | cons m ms =>
        have hmembers := members_written (level + 1) level fuel
          (fun n hn => hms n (List.mem_cons_of_mem _ hn)) m.1 (hms m (List.mem_cons_self ..)) (by
            simp only [write, List.length_cons, List.length_append] at hfuel
            omega) false rest
        have hquote (cs : List Char) : dropBlank ('\x22' :: cs) = '\x22' :: cs :=
          dropBlank_cons rfl cs
        simp only [quote_append] at hmembers
        simp only [write, List.cons_append, List.append_assoc, quote_append, value,
          dropBlank_newLine, hquote, List.nil_append]
        split
        · next hcut => cases hcut
        · rw [hmembers]
          rfl

theorem scalar_readsBack {v : Json} {c : Char} {cs : List Char}
    (heq : ∀ level : Nat, v.write level = c :: cs) (hblank : isBlank c = false)
    (hopen : c ≠ '[' ∧ c ≠ '\x7b' ∧ c ≠ ']')
    (hscalar : ∀ rest : List Char, Ends rest → scalar (c :: (cs ++ rest)) = (v.node, .ok rest)) :
    ReadsBack v where
  head level := ⟨c, cs, heq level, hblank, hopen.2.2⟩
  read {level fuel rest} hfuel hrest := by
    obtain _ | fuel := fuel
    · omega
    rw [heq, List.cons_append, value]
    · exact hscalar rest hrest
    · intro tail ht
      cases ht
      exact hopen.1 rfl
    · intro tail ht
      cases ht
      exact hopen.2.1 rfl

theorem ne_of_isDigit {c d : Char} (hc : c.isDigit = true) (hd : d.isDigit = false) : c ≠ d := by
  rintro rfl
  rw [hc] at hd
  cases hd

/-- Digits begin no other value. -/
theorem scalar_digit {c : Char} (h : c.isDigit = true) (cs : List Char) :
    scalar (c :: cs) = number false (c :: cs) := by
  have hne {d : Char} (hd : d.isDigit = false) : c ≠ d := ne_of_isDigit h hd
  simp only [scalar, if_neg (hne (d := 'n') rfl), if_neg (hne (d := 't') rfl),
    if_neg (hne (d := 'f') rfl), if_neg (hne (d := '\x22') rfl), if_neg (hne (d := '-') rfl), h,
    if_true]

theorem natural_readsBack {n : Nat} (hn : n ≤ Spelling.wordLimit) : ReadsBack (.natural n) := by
  obtain ⟨c, cs, heq, hdigit, -⟩ := head_digits n
  have hne {d : Char} (hd : d.isDigit = false) : c ≠ d := ne_of_isDigit hdigit hd
  have hwrite (level : Nat) : Json.write level (.natural n) = c :: cs := heq
  apply scalar_readsBack hwrite
  · simp only [isBlank, hne (d := ' ') rfl, hne (d := '\n') rfl, hne (d := '\t') rfl,
      hne (d := '\r') rfl, decide_false, Bool.or_false]
  · exact ⟨hne rfl, hne rfl, hne rfl⟩
  · intro rest hrest
    rw [scalar_digit hdigit, ← List.cons_append, ← heq]
    exact number_digits hn hrest

theorem string_readsBack (s : String) : ReadsBack (.string s) := by
  have hwrite (level : Nat) :
      Json.write level (.string s) = '\x22' :: (s.toList.flatMap escapeChar ++ ['\x22']) := rfl
  apply scalar_readsBack hwrite rfl (by decide)
  intro rest _
  simp only [scalar, Char.reduceEq, if_false, if_true, List.append_assoc, List.cons_append,
    List.nil_append, text_escaped, node]

end Reading

theorem Plain.readsBack {v : Json} (h : Plain v) : ReadsBack v := by
  induction h with
  | null => exact Reading.scalar_readsBack (fun _ => rfl) rfl (by decide) fun rest _ =>
      Reading.word_self "ull" .null rest
  | bool b =>
      cases b with
      | false => exact Reading.scalar_readsBack (fun _ => rfl) rfl (by decide) fun rest _ =>
          Reading.word_self "alse" (.bool false) rest
      | true => exact Reading.scalar_readsBack (fun _ => rfl) rfl (by decide) fun rest _ =>
          Reading.word_self "rue" (.bool true) rest
  | natural fits => exact Reading.natural_readsBack fits
  | string s => exact Reading.string_readsBack s
  | array _ ih => exact Reading.array_readsBack ih
  | object _ ih => exact Reading.object_readsBack ih

/-- The whole written form is read as its tree, and nothing is left of it. -/
theorem Plain.document {v : Json} (h : Plain v) :
    Reading.document v.text = (v.node, .ok []) := by
  have hback := h.readsBack
  have hstart := Reading.dropBlank_write hback 0 []
  have hread := hback.read 0 (2 * (v.write 0).length + 2) (by omega) ends_nil
  rw [List.append_nil] at hstart hread
  simp only [Reading.document, text, String.toList_ofList, hstart, hread]

end TermReplay.Json
