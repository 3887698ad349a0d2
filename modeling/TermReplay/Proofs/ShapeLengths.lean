import TermReplay.Json.Schema
import TermReplay.Proofs.ArrayLengths

/-!
The lengths of arrays that shapes let through. A shape takes no more items from a tree than there
are in its arrays, unless a field that is left out has a default. So no array of a value that is
read has more items than the text has characters.
-/

namespace TermReplay.Json

inductive Within (n : Nat) : Json → Prop
  | null : Within n .null
  | bool (b : Bool) : Within n (.bool b)
  | natural (k : Nat) : Within n (.natural k)
  | float (f : Float) : Within n (.float f)
  | string (s : String) : Within n (.string s)
  | array {vs : List Json} (few : vs.length ≤ n) (items : ∀ v ∈ vs, Within n v) :
      Within n (.array vs)
  | object {ms : List (String × Json)} (members : ∀ m ∈ ms, Within n m.2) : Within n (.object ms)

mutual

/-- Whether no field of a record may be left out. -/
def Schema.isComplete : Schema → Bool
  | .list item | .exactly _ item => item.isComplete
  | .record fields => fields.isComplete
  | _ => true

def Fields.isComplete : Fields → Bool
  | .nil => true
  | .cons _ schema default rest => default.isNone && schema.isComplete && rest.isComplete

end

theorem exists_of_bind_eq_ok {ε α β : Type} {first : Except ε α} {rest : α → Except ε β} {b : β}
    (h : (first >>= rest) = .ok b) : ∃ a, first = .ok a ∧ rest a = .ok b := by
  cases first with
  | error e => cases h
  | ok a => exact ⟨a, rfl, h⟩

theorem exists_of_map_eq_ok {ε α β : Type} {first : Except ε α} {f : α → β} {b : β}
    (h : (f <$> first) = .ok b) : ∃ a, first = .ok a ∧ f a = b := by
  cases first with
  | error e => cases h
  | ok a =>
      cases h
      exact ⟨a, rfl, rfl⟩

/-- What each result of a list was made of. -/
theorem exists_of_mapM_eq_ok {ε α β : Type} {f : α → Except ε β} {xs : List α} {ys : List β}
    (h : xs.mapM f = .ok ys) : ys.length = xs.length ∧ ∀ y ∈ ys, ∃ x ∈ xs, f x = .ok y := by
  induction xs generalizing ys with
  | nil =>
      cases h
      exact ⟨rfl, nofun⟩
  | cons x xs ih =>
      rw [List.mapM_cons] at h
      obtain ⟨y, hy, h⟩ := exists_of_bind_eq_ok h
      obtain ⟨ys, hys, h⟩ := exists_of_bind_eq_ok h
      cases h
      obtain ⟨hlength, hmade⟩ := ih hys
      refine ⟨congrArg (· + 1) hlength, List.forall_mem_cons.mpr ⟨?_, fun y hy => ?_⟩⟩
      · exact ⟨x, List.mem_cons_self .., hy⟩
      · obtain ⟨x, hx, hf⟩ := hmade y hy
        exact ⟨x, List.mem_cons_of_mem _ hx, hf⟩

namespace Schema

variable {n : Nat}

/-- What is read of a tree has no longer arrays than the tree. -/
def Keeps (n : Nat) (read : Node → Except Fault Json) : Prop :=
  ∀ (node : Node) (v : Json), node.Within n → read node = .ok v → v.Within n

theorem keeps_natural (limit : Nat) : Keeps n (readNatural limit) := by
  intro node v _ h
  unfold readNatural at h
  split at h
  · split at h
    · cases h
      exact .natural _
    · cases h
  · cases h

theorem keeps_float : Keeps n readFloat := by
  intro node v _ h
  unfold readFloat at h
  split at h
  all_goals
    cases h
    try exact .float _

theorem keeps_bool : Keeps n readBool := by
  intro node v _ h
  unfold readBool at h
  split at h
  · cases h
    exact .bool _
  · cases h

theorem keeps_string : Keeps n readString := by
  intro node v _ h
  unfold readString at h
  split at h
  · cases h
    exact .string _
  · cases h

theorem keeps_char : Keeps n readChar := by
  intro node v _ h
  unfold readChar at h
  split at h
  · split at h
    · cases h
      exact .string _
    · cases h
  · cases h

theorem within_of_knownName {names : List String} {s : String} {v : Json}
    (h : knownName names s = .ok v) : v.Within n := by
  unfold knownName at h
  split at h
  · cases h
    exact .string s
  · cases h

theorem keeps_name (names : List String) : Keeps n (readName names) := by
  intro node v _ h
  unfold readName at h
  split at h
  · cases h
  · exact within_of_knownName h
  · cases h
  · split at h
    · cases h
    · cases h
    · obtain ⟨_, -, h⟩ := exists_of_bind_eq_ok h
      obtain ⟨_, -, h⟩ := exists_of_bind_eq_ok h
      cases h
  · obtain ⟨key, -, h⟩ := exists_of_bind_eq_ok h
    obtain ⟨name, hname, h⟩ := exists_of_bind_eq_ok h
    dsimp only at h
    split at h
    · split at h
      · cases h
        exact within_of_knownName hname
      · cases h
      · cases h
    · cases h
  · cases h

theorem keeps_list {item : Node → Except Fault Json} (hitem : Keeps n item) :
    Keeps n (readList item) := by
  intro node v hnode h
  unfold readList at h
  split at h
  · obtain ⟨values, hvalues, h⟩ := exists_of_bind_eq_ok h
    cases hnode with
    | array close few items =>
        obtain ⟨hlength, hread⟩ := exists_of_mapM_eq_ok hvalues
        split at h
        · cases h
        · cases h
          refine .array (hlength ▸ few) fun v hv => ?_
          obtain ⟨node, hnode, hvalue⟩ := hread v hv
          exact hitem node v (items node hnode) hvalue
  · cases h

/-- Without defaults there is an item for each reader. -/
theorem within_of_readItems {close : Close}
    {readers : List ((Node → Except Fault Json) × Option Json)}
    (hreaders : ∀ r ∈ readers, Keeps n r.1 ∧ r.2 = none) {nodes left : List Node}
    (hnodes : ∀ node ∈ nodes, node.Within n) {values : List Json}
    (h : readItems close readers nodes = .ok (values, left)) :
    (∀ v ∈ values, v.Within n) ∧ values.length ≤ nodes.length := by
  induction readers generalizing nodes values with
  | nil =>
      cases h
      exact ⟨nofun, Nat.zero_le _⟩
  | cons r readers ih =>
      obtain ⟨hr, hreaders⟩ := List.forall_mem_cons.mp hreaders
      cases nodes with
      | nil =>
          obtain ⟨read, default⟩ := r
          obtain rfl : default = none := hr.2
          simp only [readItems] at h
          split at h
          · cases h
          · cases h
          · next heq => cases heq
      | cons node nodes =>
          obtain ⟨hnode, hnodes⟩ := List.forall_mem_cons.mp hnodes
          simp only [readItems] at h
          obtain ⟨v, hv, h⟩ := exists_of_bind_eq_ok h
          obtain ⟨⟨vs, _⟩, hvs, h⟩ := exists_of_bind_eq_ok h
          cases h
          obtain ⟨hvalues, hlength⟩ := ih hreaders hnodes hvs
          exact ⟨List.forall_mem_cons.mpr ⟨hr.1 node v hnode hv, hvalues⟩, Nat.succ_le_succ hlength⟩

theorem within_of_readExactly {readers : List ((Node → Except Fault Json) × Option Json)}
    (hreaders : ∀ r ∈ readers, Keeps n r.1 ∧ r.2 = none) {node : Node} (hnode : node.Within n)
    {values : List Json} (h : readExactly readers node = .ok values) :
    (∀ v ∈ values, v.Within n) ∧ values.length ≤ n := by
  unfold readExactly at h
  split at h
  · obtain ⟨⟨vs, left⟩, hvs, h⟩ := exists_of_bind_eq_ok h
    cases hnode with
    | array close few items =>
        obtain ⟨hwithin, hlength⟩ := within_of_readItems hreaders items hvs
        dsimp only at h
        split at h
        · cases h
        · cases h
          exact ⟨hwithin, Nat.le_trans hlength few⟩
  · cases h

theorem keeps_exactly {item : Node → Except Fault Json} (hitem : Keeps n item) (count : Nat) :
    Keeps n fun node => Json.array <$> readExactly (List.replicate count (item, none)) node := by
  intro node v hnode h
  obtain ⟨values, hvalues, rfl⟩ := exists_of_map_eq_ok h
  have hreaders : ∀ r ∈ List.replicate count (item, (none : Option Json)),
      Keeps n r.1 ∧ r.2 = none := by
    intro r hr
    rw [List.eq_of_mem_replicate hr]
    exact ⟨hitem, rfl⟩
  obtain ⟨hwithin, hlength⟩ := within_of_readExactly hreaders hnode hvalues
  exact .array hlength hwithin

theorem within_of_readMembers {readers : List Reader} (hreaders : ∀ r ∈ readers, Keeps n r.read)
    {ms : List (Except Fault String × Node)} (hms : ∀ m ∈ ms, m.2.Within n)
    {found found' : List (String × Json)} (hfound : ∀ m ∈ found, m.2.Within n)
    (h : readMembers readers ms found = .ok found') : ∀ m ∈ found', m.2.Within n := by
  induction ms generalizing found with
  | nil =>
      cases h
      exact hfound
  | cons m ms ih =>
      obtain ⟨hm, hms⟩ := List.forall_mem_cons.mp hms
      simp only [readMembers] at h
      obtain ⟨key, -, h⟩ := exists_of_bind_eq_ok h
      split at h
      · exact ih hms hfound h
      · next r hr =>
          split at h
          · cases h
          · obtain ⟨v, hv, h⟩ := exists_of_bind_eq_ok h
            have hvalue := hreaders r (List.mem_of_find?_eq_some hr) _ v hm hv
            exact ih hms (List.forall_mem_cons.mpr ⟨hvalue, hfound⟩) h

theorem within_of_choose {found : List (String × Json)} (hfound : ∀ m ∈ found, m.2.Within n)
    {r : Reader} (hr : r.default = none) {m : String × Json} (h : r.choose found = .ok m) :
    m.2.Within n := by
  simp only [Reader.choose, hr] at h
  split at h
  · next hlookup =>
      cases h
      obtain ⟨before, after, rfl, -⟩ := List.lookup_eq_some_iff.mp hlookup
      exact hfound _ (List.mem_append_right _ (List.mem_cons_self ..))
  · next heq => cases heq
  · cases h

theorem keeps_record {readers : List Reader}
    (hreaders : ∀ r ∈ readers, Keeps n r.read ∧ r.default = none) :
    Keeps n (readRecord readers) := by
  intro node v hnode h
  unfold readRecord at h
  split at h
  · obtain ⟨found, hfound, h⟩ := exists_of_bind_eq_ok h
    cases hnode with
    | object close members =>
        split at h
        · cases h
        · obtain ⟨ms, hms, rfl⟩ := exists_of_map_eq_ok h
          have hwithin := within_of_readMembers (fun r hr => (hreaders r hr).1) members
            (List.forall_mem_nil _) hfound
          refine .object fun m hm => ?_
          obtain ⟨r, hr, hchoose⟩ := (exists_of_mapM_eq_ok hms).2 m hm
          exact within_of_choose hwithin (hreaders r hr).2 hchoose
  · obtain ⟨values, hvalues, h⟩ := exists_of_bind_eq_ok h
    cases h
    have hpairs : ∀ r ∈ readers.map fun r => (r.read, r.default), Keeps n r.1 ∧ r.2 = none :=
      List.forall_mem_map.mpr hreaders
    obtain ⟨hwithin, -⟩ := within_of_readExactly hpairs hnode hvalues
    exact .object fun m hm => hwithin m.2 (List.of_mem_zip hm).2

end Schema

mutual

theorem Schema.keeps {n : Nat} :
    ∀ s : Schema, s.isComplete = true → Schema.Keeps n s.read
  | .natural limit, _ => Schema.keeps_natural limit
  | .float, _ => Schema.keeps_float
  | .bool, _ => Schema.keeps_bool
  | .string, _ => Schema.keeps_string
  | .char, _ => Schema.keeps_char
  | .name names, _ => Schema.keeps_name names
  | .list item, h => Schema.keeps_list (Schema.keeps item h)
  | .exactly count item, h => Schema.keeps_exactly (Schema.keeps item h) count
  | .record fields, h => Schema.keeps_record (Fields.keeps fields h)

theorem Fields.keeps {n : Nat} :
    ∀ fields : Fields, fields.isComplete = true →
      ∀ r ∈ fields.readers, Schema.Keeps n r.read ∧ r.default = none
  | .nil, _ => nofun
  | .cons _ schema _ rest, h => by
      simp only [Fields.isComplete, Bool.and_eq_true, Option.isNone_iff_eq_none] at h
      obtain ⟨⟨hdefault, hschema⟩, hrest⟩ := h
      exact List.forall_mem_cons.mpr ⟨⟨Schema.keeps schema hschema, hdefault⟩,
        Fields.keeps rest hrest⟩

end

/-- No array that a text is read as has more items than the text has characters. -/
theorem Schema.within_length {s : Schema} (hs : s.isComplete = true) {text : String} {v : Json}
    (h : s.readText text = .ok v) : v.Within text.length := by
  simp only [Schema.readText] at h
  obtain ⟨v, hv, h⟩ := exists_of_bind_eq_ok h
  obtain ⟨rest, hrest, h⟩ := exists_of_bind_eq_ok h
  split at h
  · cases h
    have hdocument : Reading.document text = ((Reading.document text).1, .ok rest) :=
      Prod.ext rfl hrest
    have hlength := Reading.length_dropBlank_le text.toList
    rw [String.length_toList] at hlength
    exact Schema.keeps s hs _ v ((Reading.bounded _ _).value hdocument hlength).1 hv
  · cases h

end TermReplay.Json
