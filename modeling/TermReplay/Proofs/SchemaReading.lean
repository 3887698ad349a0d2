import TermReplay.Json.Schema
import TermReplay.Proofs.WrittenValues

/-!
Shapes against the trees of written values. A value of a shape is read as itself. For a record
this says that its members find their readers, and that each field finds its member again, which
rests on the names being distinct.
-/

namespace TermReplay.Json

theorem nodes_eq_map (vs : List Json) : nodes vs = vs.map node := by
  induction vs with
  | nil => rfl
  | cons v vs ih => rw [nodes, ih, List.map_cons]

/-- The value is read as itself after it was written. -/
structure Schema.Accepts (s : Schema) (v : Json) : Prop where
  plain : v.Plain
  read : s.read v.node = .ok v

namespace Schema

theorem accepts_natural {n limit : Nat} (h : n ≤ limit) (hword : limit ≤ Spelling.wordLimit) :
    (natural limit).Accepts (.natural n) where
  plain := .natural (Nat.le_trans h hword)
  read := by simp only [Schema.read, node, readNatural, if_pos h]

theorem accepts_bool (b : Bool) : bool.Accepts (.bool b) where
  plain := .bool b
  read := rfl

theorem accepts_string (s : String) : string.Accepts (.string s) where
  plain := .string s
  read := rfl

theorem accepts_char (c : Char) : char.Accepts (.string (String.singleton c)) where
  plain := .string _
  read := by simp only [Schema.read, node, readChar, String.toList_singleton]

theorem accepts_name {names : List String} {s : String} (h : s ∈ names) :
    (name names).Accepts (.string s) where
  plain := .string s
  read := by
    simp only [Schema.read, node, readName, knownName, List.contains_iff_mem.mpr h, if_true]

theorem mapM_read (read : Node → Except Fault Json) {vs : List Json}
    (h : ∀ v ∈ vs, read v.node = .ok v) : (vs.map node).mapM read = .ok vs := by
  induction vs with
  | nil => rfl
  | cons v vs ih =>
      have hv := h v (List.mem_cons_self ..)
      have hvs := ih fun w hw => h w (List.mem_cons_of_mem _ hw)
      rw [List.map_cons, List.mapM_cons, hv, hvs]
      rfl

theorem accepts_list {item : Schema} {vs : List Json} (h : ∀ v ∈ vs, item.Accepts v) :
    (list item).Accepts (.array vs) where
  plain := .array fun v hv => (h v hv).plain
  read := by
    have hvs := mapM_read item.read fun v hv => (h v hv).read
    simp only [Schema.read, node, readList, nodes_eq_map, hvs, closeFault?]
    rfl

theorem readItems_all (read : Node → Except Fault Json) {vs : List Json}
    (h : ∀ v ∈ vs, read v.node = .ok v) :
    readItems .proper (List.replicate vs.length (read, none)) (vs.map node) = .ok (vs, []) := by
  induction vs with
  | nil => rfl
  | cons v vs ih =>
      have hv := h v (List.mem_cons_self ..)
      have hvs := ih fun w hw => h w (List.mem_cons_of_mem _ hw)
      rw [List.length_cons, List.replicate_succ, List.map_cons, readItems, hv, hvs]
      rfl

theorem accepts_exactly {item : Schema} (vs : List Json) (h : ∀ v ∈ vs, item.Accepts v) :
    (exactly vs.length item).Accepts (.array vs) where
  plain := .array fun v hv => (h v hv).plain
  read := by
    have hvs := readItems_all item.read fun v hv => (h v hv).read
    simp only [Schema.read, node, readExactly, nodes_eq_map, hvs]
    rfl

end Schema

/-- The values of a record, each of the shape of its field. -/
inductive Filled : List (String × Schema) → List Json → Prop
  | nil : Filled [] []
  | cons {name : String} {schema : Schema} {v : Json} {fields : List (String × Schema)}
      {values : List Json} (first : schema.Accepts v) (rest : Filled fields values) :
      Filled ((name, schema) :: fields) (v :: values)

def filledMembers (fields : List (String × Schema)) (values : List Json) : List (String × Json) :=
  (fields.map (·.1)).zip values

namespace Filled

variable {fields : List (String × Schema)} {values : List Json}

theorem keys_eq (h : Filled fields values) :
    (filledMembers fields values).map (·.1) = fields.map (·.1) := by
  induction h with
  | nil => rfl
  | cons _ _ ih => exact congrArg _ ih

theorem plain (h : Filled fields values) : (labelled fields values).Plain := by
  refine .object ?_
  induction h with
  | nil => nofun
  | cons first _ ih =>
      intro m hm
      obtain rfl | hm := List.mem_cons.mp hm
      · exact first.plain
      · exact ih m hm

/-- Each member finds the reader of its field, and this reader takes its value. -/
theorem find_reader (h : Filled fields values) (hn : (fields.map (·.1)).Nodup) :
    ∀ m ∈ filledMembers fields values, ∃ r : Schema.Reader,
      (Fields.ofList fields).readers.find? (·.name == m.1) = some r ∧
        r.read m.2.node = .ok m.2 := by
  induction h with
  | nil => nofun
  | cons first rest ih =>
      rw [List.map_cons, List.nodup_cons] at hn
      intro m hm
      rw [Fields.ofList, Fields.readers]
      obtain rfl | hm := List.mem_cons.mp hm
      · exact ⟨_, List.find?_cons_of_pos (beq_self_eq_true _), first.read⟩
      · have hkey : m.1 ∈ _ := rest.keys_eq ▸ List.mem_map_of_mem hm
        rw [List.find?_cons_of_neg]
        · exact ih hn.2 m hm
        · rw [beq_iff_eq]
          rintro rfl
          exact hn.1 hkey

end Filled

namespace Schema

theorem lookup_of_mem {members : List (String × Json)} (hn : (members.map (·.1)).Nodup)
    {m : String × Json} (hm : m ∈ members) : members.lookup m.1 = some m.2 := by
  induction members with
  | nil => cases hm
  | cons first rest ih =>
      rw [List.map_cons, List.nodup_cons] at hn
      obtain rfl | hm := List.mem_cons.mp hm
      · exact List.lookup_cons_self
      · have hne : (m.1 == first.1) = false := by
          rw [beq_eq_false_iff_ne]
          intro heq
          exact hn.1 (heq ▸ List.mem_map_of_mem hm)
        rw [List.lookup_cons, hne]
        exact ih hn.2 hm

theorem readMembers_cons {readers : List Reader} {key : String} {r : Reader}
    (hr : readers.find? (·.name == key) = some r) {v : Json} (hv : r.read v.node = .ok v)
    {found : List (String × Json)} (hnew : found.lookup key = none)
    (members : List (Except Fault String × Node)) :
    readMembers readers ((.ok key, v.node) :: members) found =
      readMembers readers members ((key, v) :: found) := by
  simp only [readMembers, bind, Except.bind, hr, hnew, hv, Option.isSome_none,
    Bool.false_eq_true, if_false]

/-- Members with distinct names are all found, the last one first. -/
theorem readMembers_all {readers : List Reader} {members : List (String × Json)}
    (hread : ∀ m ∈ members, ∃ r : Reader,
      readers.find? (·.name == m.1) = some r ∧ r.read m.2.node = .ok m.2)
    (found : List (String × Json))
    (hn : ((members.reverse ++ found).map (·.1)).Nodup) :
    readMembers readers (memberNodes members) found = .ok (members.reverse ++ found) := by
  induction members generalizing found with
  | nil => rfl
  | cons m members ih =>
      obtain ⟨r, hr, hvalue⟩ := hread m (List.mem_cons_self ..)
      rw [List.reverse_cons, List.append_assoc, List.singleton_append] at hn ⊢
      have hnew : found.lookup m.1 = none := by
        rw [List.lookup_eq_none_iff]
        intro w hw
        rw [List.map_append, List.nodup_append, List.map_cons, List.nodup_cons] at hn
        rw [bne_iff_ne]
        rintro heq
        exact hn.2.1.1 (heq ▸ List.mem_map_of_mem hw)
      rw [memberNodes, readMembers_cons hr hvalue hnew]
      exact ih (fun w hw => hread w (List.mem_cons_of_mem _ hw)) (m :: found) hn

/-- Each field finds its value among the members. -/
theorem mapM_choose {fields : List (String × Schema)} {values : List Json}
    (h : Filled fields values) (found : List (String × Json))
    (hfound : ∀ m ∈ filledMembers fields values, found.lookup m.1 = some m.2) :
    (Fields.ofList fields).readers.mapM (Reader.choose found) =
      .ok (filledMembers fields values) := by
  induction h with
  | nil => rfl
  | @cons name schema v fields values first rest ih =>
      have hfirst : found.lookup name = some v := hfound (name, v) (List.mem_cons_self ..)
      have hrest := ih fun m hm => hfound m (List.mem_cons_of_mem _ hm)
      rw [Fields.ofList, Fields.readers, List.mapM_cons, hrest]
      simp only [Reader.choose, hfirst]
      rfl

theorem accepts_record {fields : List (String × Schema)} {values : List Json}
    (hn : (fields.map (·.1)).Nodup) (h : Filled fields values) :
    (record (Fields.ofList fields)).Accepts (labelled fields values) where
  plain := h.plain
  read := by
    have hkeys : ((filledMembers fields values).map (·.1)).Nodup := h.keys_eq ▸ hn
    have hreverse : ((filledMembers fields values).reverse.map (·.1)).Nodup :=
      ((List.reverse_perm _).map _).nodup_iff.mpr hkeys
    have hmembers := readMembers_all (h.find_reader hn) [] (by rwa [List.append_nil])
    rw [List.append_nil] at hmembers
    have hchoose := mapM_choose h (filledMembers fields values).reverse
      fun m hm => lookup_of_mem hreverse (List.mem_reverse.mpr hm)
    rw [labelled, Schema.read, node, readRecord, ← filledMembers, hmembers]
    simp only [bind, Except.bind, objectFault?, closeFault?, hchoose]
    rfl

end Schema

/-- A whole text that a value was written to is read as the value. -/
theorem Schema.Accepts.readText {s : Schema} {v : Json} (h : s.Accepts v) :
    s.readText v.text = .ok v := by
  simp only [Schema.readText, h.plain.document, h.read]
  rfl

end TermReplay.Json
