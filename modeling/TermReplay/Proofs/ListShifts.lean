import Mathlib.Data.List.Basic

/-!
Shifts of a list, and of a part of a list. What leaves on one side is made up for by fresh values
on the other, so the length stays; a number of single shifts is one shift by that number; and
nothing is left to shift after as many steps as there are elements.
-/

namespace TermReplay.Shift

variable {α : Type}

/-- The first `count` elements leave, and `value` comes in at the end. -/
def out (count : Nat) (value : α) (l : List α) : List α :=
  l.drop count ++ List.replicate (min count l.length) value

/-- `value` comes in at the front, and what is pushed past the end is cut off. -/
def into (count : Nat) (value : α) (l : List α) : List α :=
  (List.replicate (min count l.length) value ++ l).take l.length

/-- Edits the elements from `first` up to but not including `stop`. -/
def within (first stop : Nat) (f : List α → List α) (l : List α) : List α :=
  l.take first ++ f (l.extract first stop) ++ l.drop stop

theorem length_out (count : Nat) (value : α) (l : List α) :
    (out count value l).length = l.length := by
  rw [out, List.length_append, List.length_drop, List.length_replicate]
  omega

theorem length_into (count : Nat) (value : α) (l : List α) :
    (into count value l).length = l.length := by
  rw [into, List.length_take, List.length_append, List.length_replicate]
  omega

theorem into_eq (count : Nat) (value : α) (l : List α) :
    into count value l =
      List.replicate (min count l.length) value ++ l.take (l.length - count) := by
  rw [into, List.take_append, List.length_replicate,
    List.take_of_length_le (by rw [List.length_replicate]; exact Nat.min_le_right ..)]
  congr 2
  omega

theorem out_out (m n : Nat) (value : α) (l : List α) :
    out n value (out m value l) = out (m + n) value l := by
  have hlen := length_out m value l
  rw [out, hlen]
  simp only [out, List.drop_append, List.length_drop, List.drop_drop, List.drop_replicate,
    List.append_assoc, List.replicate_append_replicate]
  congr 2
  omega

theorem into_into (m n : Nat) (value : α) (l : List α) :
    into n value (into m value l) = into (m + n) value l := by
  have hlen := length_into m value l
  rw [into_eq, hlen]
  simp only [into_eq, List.take_append, List.length_replicate, List.take_replicate, List.take_take,
    ← List.append_assoc, List.replicate_append_replicate]
  congr 2 <;> omega

/-- Shifting by a count, in either direction. -/
structure IsShift (shift : Nat → List α → List α) : Prop where
  length_eq : ∀ count l, (shift count l).length = l.length
  zero : ∀ l, shift 0 l = l
  add : ∀ m n l, shift n (shift m l) = shift (m + n) l
  min_length : ∀ count l, shift (min count l.length) l = shift count l

theorem out_isShift (value : α) : IsShift (out · value) where
  length_eq count l := length_out count value l
  zero l := by simp [out]
  add m n l := out_out m n value l
  min_length count l := by
    simp only [out, Nat.min_assoc, Nat.min_self]
    congr 1
    obtain h | h := Nat.le_total count l.length
    · rw [Nat.min_eq_left h]
    · rw [Nat.min_eq_right h, List.drop_length, List.drop_of_length_le h]

theorem into_isShift (value : α) : IsShift (into · value) where
  length_eq count l := length_into count value l
  zero l := by simp [into]
  add m n l := into_into m n value l
  min_length count l := by simp only [into, Nat.min_assoc, Nat.min_self]

theorem extract_append {first stop : Nat} {front middle : List α} (hf : front.length = first)
    (hm : first + middle.length = stop) (back : List α) :
    (front ++ middle ++ back).extract first stop = middle := by
  subst hf hm
  rw [List.extract_eq_take_drop, List.append_assoc, List.drop_left, Nat.add_sub_cancel_left,
    List.take_left]

theorem within_append {first stop : Nat} (f : List α → List α) {front middle : List α}
    (hf : front.length = first) (hm : first + middle.length = stop) (back : List α) :
    within first stop f (front ++ middle ++ back) = front ++ f middle ++ back := by
  have hwhole : (front ++ middle).length = stop := by rw [List.length_append, hf, hm]
  rw [within, extract_append hf hm, List.drop_left' hwhole, List.append_assoc front,
    List.take_left' hf]

variable {first stop : Nat} {l : List α}

/-- A list in front of, inside and behind a part. -/
theorem split_part (hs : first ≤ stop) (hl : stop ≤ l.length) :
    ∃ front middle back, l = front ++ middle ++ back ∧ front.length = first ∧
      first + middle.length = stop := by
  refine ⟨l.take first, (l.drop first).take (stop - first), l.drop stop, ?_, ?_, ?_⟩
  · have hback := List.take_append_drop (stop - first) (l.drop first)
    rw [List.drop_drop, Nat.add_sub_cancel' hs] at hback
    rw [List.append_assoc, hback, List.take_append_drop]
  · rw [List.length_take]
    omega
  · rw [List.length_take, List.length_drop]
    omega

theorem within_within (hs : first ≤ stop) (hl : stop ≤ l.length) {f : List α → List α}
    (hf : ∀ m, (f m).length = m.length) (g : List α → List α) :
    within first stop g (within first stop f l) = within first stop (fun m => g (f m)) l := by
  obtain ⟨front, middle, back, rfl, hfront, hmiddle⟩ := split_part hs hl
  rw [within_append f hfront hmiddle, within_append g hfront (by rw [hf, hmiddle]),
    within_append _ hfront hmiddle]

theorem within_self (hs : first ≤ stop) (hl : stop ≤ l.length) {f : List α → List α}
    (hf : ∀ m, f m = m) : within first stop f l = l := by
  obtain ⟨front, middle, back, rfl, hfront, hmiddle⟩ := split_part hs hl
  rw [within_append f hfront hmiddle, hf]

namespace IsShift

variable {shift : Nat → List α → List α}

theorem repeat_within (h : IsShift shift) (hs : first ≤ stop) (hl : stop ≤ l.length)
    (count : Nat) :
    Nat.repeat (within first stop (shift 1)) count l = within first stop (shift count) l := by
  induction count with
  | zero => exact (within_self hs hl h.zero).symm
  | succ count ih =>
      rw [Nat.repeat, ih, within_within hs hl (h.length_eq count)]
      exact congrArg (within first stop · l) (funext (h.add count 1))

theorem within_min (h : IsShift shift) (hs : first ≤ stop) (hl : stop ≤ l.length)
    (count : Nat) :
    within first stop (shift (min count (stop - first))) l = within first stop (shift count) l := by
  obtain ⟨front, middle, back, rfl, rfl, rfl⟩ := split_part hs hl
  rw [within_append _ rfl rfl, within_append _ rfl rfl, Nat.add_sub_cancel_left, h.min_length]

end IsShift

theorem insertIdx_length_append (front back : List α) (value : α) :
    (front ++ back).insertIdx front.length value = front ++ value :: back := by
  induction front with
  | nil => rfl
  | cons a front ih => simpa using ih

/-- One element taken out at the front of a part and a value put in at its end. -/
theorem insertIdx_eraseIdx_out {first last : Nat} (value : α) (hs : first ≤ last)
    (hl : last < l.length) :
    (l.eraseIdx first).insertIdx last value = within first (last + 1) (out 1 value) l := by
  obtain ⟨front, middle, back, rfl, rfl, hmiddle⟩ := split_part (Nat.le_succ_of_le hs) hl
  cases middle with
  | nil =>
      rw [List.length_nil] at hmiddle
      omega
  | cons a middle =>
      have hlast : last = (front ++ middle).length := by
        rw [List.length_cons] at hmiddle
        rw [List.length_append]
        omega
      have herase : (front ++ a :: middle ++ back).eraseIdx front.length =
          front ++ middle ++ back := by
        simp [List.eraseIdx_append_of_length_le]
      rw [within_append _ rfl hmiddle, herase, hlast, insertIdx_length_append]
      simp [out]

/-- One element taken out at the end of a part and a value put in at its front. -/
theorem insertIdx_eraseIdx_into {first last : Nat} (value : α) (hs : first ≤ last)
    (hl : last < l.length) :
    (l.eraseIdx last).insertIdx first value = within first (last + 1) (into 1 value) l := by
  obtain ⟨front, middle, back, rfl, rfl, hmiddle⟩ := split_part (Nat.le_succ_of_le hs) hl
  obtain rfl | ⟨middle, a, rfl⟩ := List.eq_nil_or_concat middle
  · rw [List.length_nil] at hmiddle
    omega
  · have hlast : last = (front ++ middle).length := by
      rw [List.length_concat] at hmiddle
      rw [List.length_append]
      omega
    have herase : (front ++ middle.concat a ++ back).eraseIdx last = front ++ (middle ++ back) := by
      subst hlast
      simp [List.eraseIdx_append_of_length_le]
    rw [within_append _ rfl hmiddle, herase, insertIdx_length_append]
    simp [into]

/-- The same shifts of the end of a list, written without the part. -/
theorem eraseIdx_append_out {first : Nat} (value : α) (hs : first < l.length) :
    l.eraseIdx first ++ [value] = within first l.length (out 1 value) l := by
  have hlen : (l.eraseIdx first).length = l.length - 1 := List.length_eraseIdx_of_lt hs
  have h : (l.eraseIdx first).insertIdx (l.length - 1) value = _ :=
    insertIdx_eraseIdx_out value (Nat.le_pred_of_lt hs) (Nat.sub_one_lt_of_lt hs)
  rw [Nat.sub_add_cancel (Nat.one_le_of_lt hs), ← hlen, List.insertIdx_length_self] at h
  exact h

theorem dropLast_insertIdx_into {first : Nat} (value : α) (hs : first < l.length) :
    (l.insertIdx first value).dropLast = within first l.length (into 1 value) l := by
  obtain ⟨front, middle, back, rfl, rfl, hmiddle⟩ :=
    split_part (Nat.le_of_lt hs) (Nat.le_refl _)
  have hback : back = [] := by
    apply List.eq_nil_of_length_eq_zero
    rw [List.length_append, List.length_append] at hmiddle
    omega
  subst hback
  obtain rfl | ⟨middle, a, rfl⟩ := List.eq_nil_or_concat middle
  · simp at hs
  · have hcut : (front ++ value :: middle.concat a).dropLast = front ++ value :: middle := by
      rw [List.concat_eq_append, ← List.cons_append, ← List.append_assoc, List.dropLast_concat]
    rw [within_append _ rfl hmiddle, List.append_nil, List.append_nil, insertIdx_length_append,
      hcut]
    simp [into]

/-- The first value that comes in pushes the last element out. -/
theorem into_succ (count : Nat) (value : α) (hl : l ≠ []) :
    into (count + 1) value l = value :: into count value l.dropLast := by
  have hlen := List.length_pos_iff.mpr hl
  have hmin : min (count + 1) l.length = min count (l.length - 1) + 1 := by omega
  rw [into_eq, into_eq, List.length_dropLast, List.dropLast_eq_take, List.take_take, hmin,
    List.replicate_succ, List.cons_append]
  congr 3
  omega

/-- To put in a value of its own and shift behind it is to shift once more and then overwrite the
first of what came in. -/
theorem within_into_behind (count : Nat) (value own : α) (hs : first < stop)
    (hl : stop ≤ l.length) :
    within (first + 1) stop (into count value) (within first stop (into 1 own) l) =
      (within first stop (into (count + 1) value) l).set first own := by
  obtain ⟨front, middle, back, rfl, rfl, hmiddle⟩ := split_part (Nat.le_of_lt hs) hl
  have hne : middle ≠ [] := by
    rintro rfl
    rw [List.length_nil] at hmiddle
    omega
  have hone : into 1 own middle = own :: middle.dropLast := by
    rw [into_succ 0 own hne, (into_isShift own).zero]
  have hbehind : front.length + 1 + middle.dropLast.length = stop := by
    have hpos := List.length_pos_iff.mpr hne
    rw [List.length_dropLast]
    omega
  have hfront : front ++ own :: middle.dropLast ++ back =
      (front ++ [own]) ++ middle.dropLast ++ back := by
    rw [List.append_assoc front [own], List.singleton_append]
  have hlonger : (front ++ [own]).length = front.length + 1 := List.length_append
  rw [within_append _ rfl hmiddle, within_append _ rfl hmiddle, hone, hfront,
    within_append _ hlonger hbehind, into_succ count value hne]
  simp

theorem modify_congr {f g : α → α} (h : ∀ a ∈ l, f a = g a) (i : Nat) :
    l.modify i f = l.modify i g := by
  apply List.ext_getElem?
  intro j
  rw [List.getElem?_modify, List.getElem?_modify]
  cases hj : l[j]? with
  | none => rfl
  | some a =>
      have ha := h a (List.mem_of_getElem? hj)
      simp only [Option.map_eq_map, Option.map_some, ha]

theorem repeat_modify (f : α → α) (i count : Nat) (l : List α) :
    Nat.repeat (·.modify i f) count l = l.modify i (Nat.repeat f count) := by
  induction count with
  | zero => exact (List.modify_id i l).symm
  | succ count ih =>
      rw [Nat.repeat, ih, List.modify_modify_eq]
      rfl

end TermReplay.Shift
