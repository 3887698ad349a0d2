import TermReplay.Json.Node

/-!
The lengths of arrays in the trees that texts are read as. Each item takes at least one character
of the text, so no array has more items than there are characters.
-/

namespace TermReplay.Json

/-- No array in the tree has more than `n` items. -/
inductive Node.Within (n : Nat) : Node → Prop
  | absent : Within n .absent
  | broken (f : Fault) : Within n (.broken f)
  | null : Within n .null
  | bool (b : Bool) : Within n (.bool b)
  | number (v : Except Fault Numeral) : Within n (.number v)
  | string (v : Except Fault String) : Within n (.string v)
  | array {nodes : List Node} (close : Close) (few : nodes.length ≤ n)
      (items : ∀ node ∈ nodes, Within n node) : Within n (.array nodes close)
  | object {ms : List (Except Fault String × Node)} (close : Close)
      (members : ∀ m ∈ ms, Within n m.2) : Within n (.object ms close)

namespace Reading

theorem length_dropWhile_le (p : Char → Bool) (cs : List Char) :
    (cs.dropWhile p).length ≤ cs.length :=
  (List.dropWhile_suffix p).length_le

theorem length_dropBlank_le (cs : List Char) : (dropBlank cs).length ≤ cs.length :=
  length_dropWhile_le isBlank cs

theorem length_of_expect {letters cs rest : List Char} (h : expect letters cs = .ok rest) :
    rest.length ≤ cs.length := by
  induction letters generalizing cs with
  | nil =>
      cases h
      exact Nat.le_refl _
  | cons w letters ih =>
      cases cs with
      | nil => cases h
      | cons c cs =>
          simp only [expect] at h
          split at h
          · exact Nat.le_succ_of_le (ih h)
          · cases h

theorem length_of_cutExponent {spelling : Spelling} {cs rest : List Char}
    (h : (cutExponent spelling cs).2 = .ok rest) : rest.length ≤ cs.length := by
  cases cs with
  | nil =>
      cases h
      exact Nat.le_refl _
  | cons c cs =>
      simp only [cutExponent] at h
      split at h
      · split at h
        all_goals
          simp only at h
          split at h
          · cases h
          · cases h
            refine Nat.le_trans (length_dropWhile_le ..) ?_
            simp only [List.length_cons]
            omega
      · cases h
        exact Nat.le_refl _

theorem length_of_cutFraction {spelling : Spelling} {cs rest : List Char}
    (h : (cutFraction spelling cs).2 = .ok rest) : rest.length ≤ cs.length := by
  unfold cutFraction at h
  split at h
  · next cs =>
      split at h
      · cases h
      · have hdigits := length_dropWhile_le Char.isDigit cs
        exact Nat.le_succ_of_le (Nat.le_trans (length_of_cutExponent h) hdigits)
  · exact length_of_cutExponent h

theorem length_of_cutNumber {negative : Bool} {cs rest : List Char}
    (h : (cutNumber negative cs).2 = .ok rest) : rest.length < cs.length := by
  cases cs with
  | nil => cases h
  | cons c cs =>
      simp only [cutNumber] at h
      split at h
      · split at h
        · cases h
        · exact Nat.lt_succ_of_le (length_of_cutFraction h)
      · split at h
        · have hdigits := length_dropWhile_le Char.isDigit cs
          exact Nat.lt_succ_of_le (Nat.le_trans (length_of_cutFraction h) hdigits)
        · cases h

/-- A reader of text stops at a fault, goes on behind the closing quote or goes on with the rest. -/
theorem length_of_quoted {pair : Option Nat} {cs rest : List Char}
    (h : (quoted pair cs).2 = .ok rest) : rest.length < cs.length := by
  fun_induction quoted pair cs
  all_goals
    first
    | cases h
      done
    | simp_all only [List.length_cons, Except.ok.injEq, forall_const]
      omega

theorem length_of_text {cs rest : List Char} (h : (text cs).2 = .ok rest) :
    rest.length < cs.length :=
  length_of_quoted h

variable {n : Nat}

theorem within_of_word {letters : String} {v node : Node} {cs rest : List Char}
    (hv : v.Within n) (h : word letters v cs = (node, .ok rest)) :
    node.Within n ∧ rest.length ≤ cs.length := by
  unfold word at h
  split at h
  · next hexpect =>
      cases h
      exact ⟨hv, length_of_expect hexpect⟩
  · cases h

theorem within_of_number {negative : Bool} {node : Node} {cs rest : List Char}
    (h : number negative cs = (node, .ok rest)) : node.Within n ∧ rest.length < cs.length := by
  simp only [number, Prod.mk.injEq] at h
  obtain ⟨rfl, hrest⟩ := h
  exact ⟨.number _, length_of_cutNumber hrest⟩

theorem within_of_scalar {node : Node} {cs rest : List Char}
    (h : scalar cs = (node, .ok rest)) : node.Within n ∧ rest.length < cs.length := by
  cases cs with
  | nil => cases h
  | cons c cs =>
      have hword {letters : String} {v : Node} (hv : v.Within n)
          (h : word letters v cs = (node, .ok rest)) :
          node.Within n ∧ rest.length < (c :: cs).length := by
        obtain ⟨hnode, hrest⟩ := within_of_word hv h
        exact ⟨hnode, Nat.lt_succ_of_le hrest⟩
      simp only [scalar] at h
      split at h
      · exact hword .null h
      split at h
      · exact hword (.bool true) h
      split at h
      · exact hword (.bool false) h
      split at h
      · simp only [Prod.mk.injEq] at h
        obtain ⟨rfl, hrest⟩ := h
        exact ⟨.string _, Nat.lt_succ_of_lt (length_of_text hrest)⟩
      split at h
      · obtain ⟨hnode, hrest⟩ := within_of_number h
        exact ⟨hnode, Nat.lt_succ_of_lt hrest⟩
      split at h
      · exact within_of_number h
      · cases h

/-- What is read, where it is not stopped by a fault: each item takes at least one character. -/
structure Bounded (n fuel : Nat) : Prop where
  value {cs rest : List Char} {node : Node} (h : value fuel cs = (node, .ok rest))
    (hn : cs.length ≤ n) : node.Within n ∧ rest.length < cs.length
  items {afterComma : Bool} {cs rest : List Char} {nodes : List Node} {close : Close}
    (h : items fuel afterComma cs = (nodes, close, .ok rest)) (hn : cs.length ≤ n) :
    (∀ node ∈ nodes, node.Within n) ∧ nodes.length + rest.length ≤ cs.length
  members {afterComma : Bool} {cs rest : List Char} {ms : List (Except Fault String × Node)}
    {close : Close} (h : members fuel afterComma cs = (ms, close, .ok rest))
    (hn : cs.length ≤ n) : (∀ m ∈ ms, m.2.Within n) ∧ rest.length ≤ cs.length

namespace Bounded

variable {fuel : Nat}

theorem value_succ (ih : Bounded n fuel) {cs rest : List Char} {node : Node}
    (h : Reading.value (fuel + 1) cs = (node, .ok rest)) (hn : cs.length ≤ n) :
    node.Within n ∧ rest.length < cs.length := by
  simp only [Reading.value] at h
  split at h
  · next cs =>
      have hcs := length_dropBlank_le cs
      rw [List.length_cons] at hn ⊢
      split at h
      · next heq =>
          cases h
          rw [heq, List.length_cons] at hcs
          exact ⟨.array _ (Nat.zero_le n) nofun, by omega⟩
      · cases h
      · generalize hread : Reading.items fuel false (dropBlank cs) = read at h
        obtain ⟨nodes, ending, after⟩ := read
        dsimp only at h
        cases h
        obtain ⟨hitems, hlength⟩ := ih.items hread (by omega)
        exact ⟨.array _ (by omega) hitems, by omega⟩
  · next cs =>
      have hcs := length_dropBlank_le cs
      rw [List.length_cons] at hn ⊢
      split at h
      · next heq =>
          cases h
          rw [heq, List.length_cons] at hcs
          exact ⟨.object _ nofun, by omega⟩
      · generalize hread : Reading.members fuel false (dropBlank cs) = read at h
        obtain ⟨ms, ending, after⟩ := read
        dsimp only at h
        cases h
        obtain ⟨hmembers, hlength⟩ := ih.members hread (by omega)
        exact ⟨.object _ hmembers, by omega⟩
  · exact within_of_scalar h

theorem items_succ (ih : Bounded n fuel) {afterComma : Bool} {cs rest : List Char}
    {nodes : List Node} {close : Close}
    (h : Reading.items (fuel + 1) afterComma cs = (nodes, close, .ok rest))
    (hn : cs.length ≤ n) :
    (∀ node ∈ nodes, node.Within n) ∧ nodes.length + rest.length ≤ cs.length := by
  simp only [Reading.items] at h
  split at h
  · cases h
  · next node after hvalue =>
      obtain ⟨hnode, hafter⟩ := ih.value hvalue hn
      have hblank := length_dropBlank_le after
      split at h
      · next heq =>
          cases h
          rw [heq, List.length_cons] at hblank
          exact ⟨List.forall_mem_singleton.mpr hnode, by rw [List.length_singleton]; omega⟩
      · cases h
      · next next heq =>
          rw [heq, List.length_cons] at hblank
          have hnext := length_dropBlank_le next
          split at h
          · cases h
          · cases h
          · generalize hread : Reading.items fuel true (dropBlank next) = read at h
            obtain ⟨nodes, ending, after⟩ := read
            dsimp only at h
            cases h
            obtain ⟨hitems, hlength⟩ := ih.items hread (by omega)
            exact ⟨List.forall_mem_cons.mpr ⟨hnode, hitems⟩,
              by rw [List.length_cons]; omega⟩
      · cases h

theorem members_succ (ih : Bounded n fuel) {afterComma : Bool} {cs rest : List Char}
    {ms : List (Except Fault String × Node)} {close : Close}
    (h : Reading.members (fuel + 1) afterComma cs = (ms, close, .ok rest))
    (hn : cs.length ≤ n) : (∀ m ∈ ms, m.2.Within n) ∧ rest.length ≤ cs.length := by
  simp only [Reading.members] at h
  split at h
  · cases h
  · next cs =>
      rw [List.length_cons] at hn ⊢
      split at h
      · cases h
      · next after hkey =>
          have hafter := length_of_text (congrArg Prod.snd hkey)
          have hblank := length_dropBlank_le after
          split at h
          · next colon heq =>
              rw [heq, List.length_cons] at hblank
              have hcolon := length_dropBlank_le colon
              split at h
              · cases h
              · next node behind hvalue =>
                  obtain ⟨hnode, hbehind⟩ := ih.value hvalue (by omega)
                  have hend := length_dropBlank_le behind
                  split at h
                  · next heq =>
                      cases h
                      rw [heq, List.length_cons] at hend
                      exact ⟨List.forall_mem_singleton.mpr hnode, by omega⟩
                  · cases h
                  · next next heq =>
                      rw [heq, List.length_cons] at hend
                      have hnext := length_dropBlank_le next
                      generalize hread : Reading.members fuel true (dropBlank next) = read at h
                      obtain ⟨ms, ending, after⟩ := read
                      dsimp only at h
                      cases h
                      obtain ⟨hmembers, hlength⟩ := ih.members hread (by omega)
                      exact ⟨List.forall_mem_cons.mpr ⟨hnode, hmembers⟩, by omega⟩
                  · cases h
          · cases h
          · cases h
  · cases h

end Bounded

theorem bounded (n fuel : Nat) : Bounded n fuel := by
  induction fuel with
  | zero => exact ⟨nofun, nofun, nofun⟩
  | succ fuel ih => exact ⟨ih.value_succ, ih.items_succ, ih.members_succ⟩

end Reading

end TermReplay.Json
