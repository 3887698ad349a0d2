import TermReplay.Proofs.TokenClaims

/-!
Tables of recognizers in any order, with any rule for choosing between claims. On no buffer do two
recognizers claim a token, so there is nothing to choose: neither the order of the table nor the
rule shows in what is read.
-/

namespace TermReplay

open Text

/-- A rule that says which claims (first) replace the one that was kept so far (second). -/
abbrev ChoiceRule := Token → Token → Bool

def ChoiceRule.shortest : ChoiceRule := fun claim kept => claim.length < kept.length

/-- Takes `claim` if it is not empty and either the first one or one that replaces the best. -/
def Token.betterBy (rule : ChoiceRule) (best claim : Option Token) : Option Token :=
  match claim with
  | none => best
  | some token => if 0 < token.length && best.all (rule token) then some token else best

def chosenToken (rule : ChoiceRule) (table : List Recognizer) (buffer : List UInt8) :
    Option Token :=
  table.foldl (fun best recognize => Token.betterBy rule best (recognize buffer)) none

def claims (table : List Recognizer) (buffer : List UInt8) : List Token :=
  table.filterMap fun recognize => recognize buffer

/-- Of any two recognizers in the table at least one declines. -/
def Exclusive (table : List Recognizer) (buffer : List UInt8) : Prop :=
  table.Pairwise fun one other => one buffer = none ∨ other buffer = none

section

variable {table : List Recognizer} {buffer : List UInt8}

theorem claims_eq_nil (h : ∀ recognize ∈ table, recognize buffer = none) :
    claims table buffer = [] :=
  List.filterMap_eq_nil_iff.mpr h

theorem claims_append (front back : List Recognizer) :
    claims (front ++ back) buffer = claims front buffer ++ claims back buffer :=
  List.filterMap_append

theorem claims_cons (recognize : Recognizer) (table : List Recognizer) :
    claims (recognize :: table) buffer = (recognize buffer).toList ++ claims table buffer := by
  rw [claims, List.filterMap_cons]
  cases recognize buffer <;> rfl

/-- Recognizers that decline have no part in the choice. -/
theorem chosenToken_eq_foldl_claims (rule : ChoiceRule) :
    chosenToken rule table buffer =
      (claims table buffer).foldl (fun best token => Token.betterBy rule best (some token))
        none := by
  rw [claims, List.foldl_filterMap, chosenToken]
  congr 1
  funext best recognize
  cases recognize buffer <;> rfl

/-- Every rule chooses a sole claim, and nothing where there is none. -/
theorem chosenToken_of_claims (rule : ChoiceRule) {found : Option Token}
    (h : claims table buffer = found.toList) (hpos : ∀ token ∈ found, 0 < token.length) :
    chosenToken rule table buffer = found := by
  rw [chosenToken_eq_foldl_claims, h]
  cases found with
  | none => rfl
  | some token => simp [Token.betterBy, hpos token rfl]

namespace Exclusive

theorem of_perm {other : List Recognizer} (h : Exclusive table buffer) (hp : other.Perm table) :
    Exclusive other buffer :=
  (hp.pairwise_iff Or.symm).mpr h

/-- Beside a recognizer that claims a token all others decline. -/
theorem others_decline {front back : List Recognizer} {recognize : Recognizer}
    (h : Exclusive (front ++ recognize :: back) buffer) (hr : recognize buffer ≠ none) :
    (∀ other ∈ front, other buffer = none) ∧ ∀ other ∈ back, other buffer = none := by
  obtain ⟨-, hback, hfront⟩ := List.pairwise_append.mp h
  constructor
  · exact fun other ho => (hfront other ho recognize (List.mem_cons_self ..)).resolve_right hr
  · exact fun other ho => ((List.pairwise_cons.mp hback).1 other ho).resolve_left hr

theorem claims_eq_singleton (h : Exclusive table buffer) {recognize : Recognizer}
    (hm : recognize ∈ table) {token : Token} (hr : recognize buffer = some token) :
    claims table buffer = [token] := by
  obtain ⟨front, back, rfl⟩ := List.append_of_mem hm
  obtain ⟨hfront, hback⟩ := h.others_decline (by simp [hr])
  rw [claims_append, claims_cons, hr, claims_eq_nil hfront, claims_eq_nil hback]
  rfl

/-- A rule never meets a second claim: there is none yet, or the next recognizer declines. -/
theorem chosen_or_declines {front back : List Recognizer} {recognize : Recognizer}
    (h : Exclusive (front ++ recognize :: back) buffer) (rule : ChoiceRule) :
    chosenToken rule front buffer = none ∨ recognize buffer = none := by
  by_cases hr : recognize buffer = none
  · exact .inr hr
  · have hfront := claims_eq_nil (h.others_decline hr).1
    exact .inl (chosenToken_of_claims rule hfront nofun)

end Exclusive

end

theorem TokenKind.mem_all (kind : TokenKind) : kind ∈ all := by
  cases kind <;> decide

/-- The buffer leaves one kind of token, and two entries of the table are of two kinds. -/
theorem exclusive_recognizers (buffer : List UInt8) : Exclusive recognizers buffer := by
  have hkinds : TokenKind.all.Pairwise (· ≠ ·) := by decide
  rw [Exclusive, TokenKind.recognizers_eq, List.pairwise_map]
  refine hkinds.imp fun {one other} hne => ?_
  by_cases hone : TokenKind.ofBuffer buffer = one
  · exact .inr (TokenKind.claim_eq_none (hone ▸ hne))
  · exact .inl (TokenKind.claim_eq_none hone)

/-- In any order the one claim of the table, if there is one, is the token at the front. -/
theorem claims_of_perm {table : List Recognizer} (hp : table.Perm recognizers)
    (buffer : List UInt8) : claims table buffer = (nextToken buffer).toList := by
  cases ht : nextToken buffer with
  | none =>
      refine claims_eq_nil fun recognize hr => ?_
      obtain ⟨kind, -, rfl⟩ : ∃ kind ∈ TokenKind.all, kind.recognizer = recognize :=
        List.mem_map.mp (hp.mem_iff.mp hr)
      refine Option.eq_none_iff_forall_ne_some.mpr fun token hclaim => ?_
      rw [nextToken_eq_some_iff.mpr ⟨kind, hclaim⟩] at ht
      cases ht
  | some token =>
      obtain ⟨kind, hclaim⟩ := nextToken_eq_some_iff.mp ht
      have hmem : kind.recognizer ∈ table :=
        hp.mem_iff.mpr (List.mem_map_of_mem (f := TokenKind.recognizer) kind.mem_all)
      exact ((exclusive_recognizers buffer).of_perm hp).claims_eq_singleton hmem hclaim

/-- Recognizers never compete. On every buffer at most one of the table claims a token. So every
order of the table finds the same token, also if another rule chose between claims, and on the way
through the table no rule ever has a second claim to decide on. -/
theorem recognizers_never_compete (buffer : List UInt8) :
    Exclusive recognizers buffer ∧
      nextToken buffer = chosenToken .shortest recognizers buffer ∧
      ∀ table : List Recognizer, table.Perm recognizers →
        claims table buffer = (nextToken buffer).toList ∧
          ∀ rule : ChoiceRule,
            chosenToken rule table buffer = nextToken buffer ∧
              ∀ front recognize back, table = front ++ recognize :: back →
                chosenToken rule front buffer = none ∨ recognize buffer = none := by
  have hall := exclusive_recognizers buffer
  refine ⟨hall, rfl, fun table hp => ⟨claims_of_perm hp buffer, fun rule => ⟨?_, ?_⟩⟩⟩
  · exact chosenToken_of_claims rule (claims_of_perm hp buffer) fun _ => nextToken_length_pos
  · rintro front recognize back rfl
    exact (hall.of_perm hp).chosen_or_declines rule

/-- The table from its end, and a rule that prefers the longest claim. -/
theorem attributes_claimed_once :
    let table := recognizers.reverse
    let rule : ChoiceRule := fun claim kept => kept.length < claim.length
    let buffer := asciiBytes "\x1b[1;31mred"
    table.Perm recognizers ∧
      claims table buffer = [⟨7, [.command (.attribute 1), .command (.attribute 31)]⟩] ∧
      chosenToken rule table buffer =
        some ⟨7, [.command (.attribute 1), .command (.attribute 31)]⟩ ∧
      (chosenToken rule [.systemCommand, .escape] buffer = none ∨
        Recognizer.controlSequence buffer = none) := by
  intro table rule buffer
  have htoken : nextToken buffer =
      some ⟨7, [.command (.attribute 1), .command (.attribute 31)]⟩ := by decide +kernel
  have hp : table.Perm recognizers := List.reverse_perm _
  obtain ⟨hclaims, hrule⟩ := (recognizers_never_compete buffer).2.2 table hp
  obtain ⟨hchosen, hnever⟩ := hrule rule
  rw [htoken] at hclaims hchosen
  exact ⟨hp, hclaims, hchosen, hnever [.systemCommand, .escape] .controlSequence _ rfl⟩

end TermReplay
