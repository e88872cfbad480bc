/-
Scriptlet.Proofs.Piece.Grouping — the tokens of a source of which only the white space is
known.

In the mode for HTTP there is one rule. What it reads is a group of blank characters that is
as long as possible, and what is skipped before it applies again is a group of characters
that are not blank, which is as long as possible too. So reading is grouping
(`Text.groupsByBlank`), although a batch may hold two groups and the reader takes a line
break of two characters for one: both of these are blank.
-/
import Mathlib.Data.List.SplitBy
import Scriptlet.Proofs.Piece.Faults

namespace Scriptlet

/-! ## Groups -/

namespace Text

/-- The longest groups of neighbouring characters that are all blank or all not. -/
def groupsByBlank (text : List Char) : List (List Char) :=
  text.splitBy fun x y => isBlank x == isBlank y

/-- There are characters, and they are all blank, or all not. -/
structure IsGroup (blank : Bool) (group : List Char) : Prop where
  nonempty : group ≠ []
  all : ∀ x ∈ group, isBlank x = blank

variable {blank : Bool} {group text rest : List Char}

theorem IsGroup.all_isBlank (h : IsGroup blank group) : group.all isBlank = blank := by
  obtain ⟨x, others, rfl⟩ := List.exists_cons_of_ne_nil h.nonempty
  cases blank with
  | true => exact List.all_eq_true.2 h.all
  | false => simp [h.all x]

/-- A group that is as long as possible comes first, and the others behind it. -/
theorem groupsByBlank_append (h : IsGroup blank group)
    (hstops : ∀ x ∈ rest.head?, isBlank x = !blank) :
    groupsByBlank (group ++ rest) = group :: groupsByBlank rest := by
  have hone : groupsByBlank group = [group] := by
    refine List.splitBy_of_isChain h.nonempty (List.Pairwise.isChain ?_)
    refine List.pairwise_of_forall_mem_list fun x hx y hy => ?_
    rw [h.all x hx, h.all y hy, beq_self_eq_true]
  have happend : groupsByBlank (group ++ rest) = groupsByBlank group ++ groupsByBlank rest := by
    refine List.splitBy_append fun x hx y hy => ?_
    rw [h.all x (List.mem_of_mem_getLast? hx), hstops y hy]
    cases blank <;> rfl
  rw [happend, hone, List.singleton_append]

theorem exists_isGroup (h : group ∈ groupsByBlank text) : ∃ blank, IsGroup blank group := by
  obtain ⟨x, others, rfl⟩ := List.exists_cons_of_ne_nil (List.ne_nil_of_mem_splitBy h)
  have hchain : (x :: others).IsChain fun x y => isBlank x = isBlank y :=
    (List.isChain_of_mem_splitBy h).imp fun _ _ => eq_of_beq
  have : Trans (isBlank · = isBlank ·) (isBlank · = isBlank ·) (isBlank · = isBlank ·) :=
    ⟨Eq.trans⟩
  exact ⟨isBlank x, by simp,
    List.forall_mem_cons.2 ⟨rfl, fun y hy => (hchain.rel_cons hy).symm⟩⟩

/-- Blank groups and others take turns. -/
theorem isChain_groupsByBlank (text : List Char) : (groupsByBlank text).IsChain
    fun group next => group.all isBlank ≠ next.all isBlank := by
  refine List.IsChain.imp_of_mem_imp ?_ (List.isChain_getLast_head_splitBy _ text)
  rintro group next hgroup hnext ⟨hne, hne', hdiffer⟩
  obtain ⟨blank, hgroup⟩ := exists_isGroup hgroup
  obtain ⟨blank', hnext⟩ := exists_isGroup hnext
  rw [hgroup.all _ (List.getLast_mem hne), hnext.all _ (List.head_mem hne')] at hdiffer
  rw [hgroup.all_isBlank, hnext.all_isBlank]
  exact ne_of_beq_false hdiffer

end Text

open Text

namespace Piece

open Rule

/-- What a group is read as. -/
def ofGroup (group : List Char) : Piece :=
  if group.all isBlank then ⟨.whiteSpace, group, none, none⟩ else unknown group

variable {p : Piece} {ps : List Piece}

/-- Where no other rule is known, each piece is a group, and it ends where the characters
change. -/
theorem Lexed.isGroup (h : Lexed [.blank] (p :: ps)) : ∃ blank, IsGroup blank p.text ∧
    ofGroup p.text = p ∧ ∀ x ∈ (join ps).head?, isBlank x = !blank := by
  cases h with
  | cut first =>
    obtain ⟨r, hr, hcuts⟩ := first
    obtain rfl := List.mem_singleton.1 (List.mem_of_find?_eq_some hr)
    cases hcuts with
    | @blank run _ nonempty blanks =>
      have hgroup : IsGroup true run := ⟨nonempty, blanks.all⟩
      exact ⟨true, hgroup, if_pos hgroup.all_isBlank, blanks.stops_head? (by decide)⟩
  | @skip run _ first =>
    have hgroup : IsGroup false run :=
      ⟨first.nonempty, fun x hx => first.not_blank List.mem_cons_self hx⟩
    have hblank : ¬run.all isBlank = true := by simp [hgroup.all_isBlank]
    refine ⟨false, hgroup, if_neg hblank, fun x hx => ?_⟩
    -- The skipped characters end where the only rule applies.
    have hne : join ps ≠ [] := by
      intro hnil
      rw [hnil] at hx
      cases hx
    obtain ⟨r, hr⟩ := Option.ne_none_iff_exists'.1 (first.stops hne)
    have hopens := opens_of_opening? hr
    obtain rfl := List.mem_singleton.1 (List.mem_of_find?_eq_some hr)
    rw [opens_eq (by decide), hx] at hopens
    exact hopens

/-- The pieces of a text are its groups. -/
theorem Lexed.eq_map_ofGroup (h : Lexed [.blank] ps) :
    ps = (groupsByBlank (join ps)).map ofGroup := by
  induction ps with
  | nil => rfl
  | cons p ps ih =>
    obtain ⟨blank, hgroup, hpiece, hstops⟩ := h.isGroup
    rw [join_cons, groupsByBlank_append hgroup hstops, List.map_cons, hpiece, ← ih h.tail]

/-- The tokens of groups say what the groups are. -/
theorem map_tokens_ofGroup (pos : Position) (groups : List (List Char)) :
    (tokens pos (groups.map ofGroup)).map (fun t => (t.kind, t.text, t.value)) =
      groups.map fun group =>
        if group.all isBlank then (.whiteSpace, String.ofList group, none)
        else (.error, String.ofList group, some (.fault .unknownToken)) := by
  induction groups generalizing pos with
  | nil => rfl
  | cons group groups ih =>
    rw [List.map_cons, tokens, List.map_append, ih, List.map_cons, ← List.singleton_append]
    congr 1
    unfold ofGroup
    split <;> rfl

end Piece

/-! ## Sources -/

/-- The tokens of a source are those of its groups, one for each. -/
theorem tokenize_eq_groups (source : String) : tokenize .http source =
    Piece.tokens .start ((groupsByBlank source.toList).map Piece.ofGroup) := by
  obtain ⟨ps, hps, rfl⟩ := Piece.exists_join_eq .http source
  rw [Piece.tokenize_join hps, String.toList_ofList, ← hps.eq_map_ofGroup]

/-- In the mode for HTTP the tokens of a source are its groups: white space for blank
characters, and a report for others. They take turns. -/
theorem tokenize_http (source : String) :
    (tokenize .http source).map (fun t => (t.kind, t.text, t.value)) =
        (groupsByBlank source.toList).map (fun group =>
          if group.all isBlank then (.whiteSpace, String.ofList group, none)
          else (.error, String.ofList group, some (.fault .unknownToken))) ∧
      (∀ group ∈ groupsByBlank source.toList, ∃ blank, IsGroup blank group) ∧
      (tokenize .http source).IsChain fun t next => t.kind ≠ next.kind := by
  have htokens := Piece.map_tokens_ofGroup .start (groupsByBlank source.toList)
  rw [← tokenize_eq_groups] at htokens
  refine ⟨htokens, fun _ => exists_isGroup, ?_⟩
  have hkinds : (tokenize .http source).map Token.kind =
      (groupsByBlank source.toList).map fun group =>
        if group.all isBlank then .whiteSpace else .error := by
    have hfst := congrArg (List.map Prod.fst) htokens
    simpa only [List.map_map, Function.comp_def, apply_ite Prod.fst] using hfst
  rw [← List.isChain_map Token.kind (R := (· ≠ ·)), hkinds, List.isChain_map]
  refine (isChain_groupsByBlank source.toList).imp fun group next hdiffer => ?_
  cases hgroup : group.all isBlank <;> cases hnext : next.all isBlank <;> simp_all

end Scriptlet
