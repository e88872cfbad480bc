/-
Scriptlet.Proofs.Rule.Nesting — block comments by their grammar. A block comment is an
opening mark, a body and a closing mark; a body is made up of block comments and of single
characters at which no mark begins (`Rule.CommentBody`).

The rule for comments counts how deep it is, and so does `Rule.Closes`: inside `depth`
further comments, what is left of the text is the bodies of `depth + 1` comments, each
with its closing mark (`Rule.exists_bodies_of_closes`). An opening mark makes one body of
the first two of them. At depth 0 a single body is left, and the two ways to tell a
comment agree (`Rule.closes_iff`).

`Rule.comment?_blockComment` is about a text that begins with an opening mark. The rule
takes the beginning of it that is a block comment, of which there is one at most, and
otherwise all of it.
-/
import Scriptlet.Proofs.Rule.Applies

namespace Scriptlet.Rule

open Cursor

/-! ## The grammar -/

/-- The text is the body of a block comment. Whether a mark begins at a character is seen
from the character behind it, which may be the first one of the closing mark. -/
inductive CommentBody : List Char → Prop where
  | empty : CommentBody []
  | nested {inner others : List Char} (comment : CommentBody inner)
      (behind : CommentBody others) :
      CommentBody ('/' :: '*' :: (inner ++ '*' :: '/' :: others))
  | plain {x : Char} {others : List Char}
      (noOpening : ¬['/', '*'] <+: x :: (others ++ ['*', '/']))
      (noClosing : ¬['*', '/'] <+: x :: (others ++ ['*', '/'])) (behind : CommentBody others) :
      CommentBody (x :: others)

/-- The text is a block comment. -/
def IsBlockComment (text : List Char) : Prop :=
  ∃ body, CommentBody body ∧ text = '/' :: '*' :: (body ++ ['*', '/'])

/-- The bodies of some comments, each with its closing mark. -/
def closeAll (bodies : List (List Char)) : List Char :=
  bodies.flatMap (· ++ ['*', '/'])

@[simp] theorem closeAll_cons (body : List Char) (bodies : List (List Char)) :
    closeAll (body :: bodies) = body ++ '*' :: '/' :: closeAll bodies := by
  simp [closeAll]

/-! ## Counting the depth -/

variable {depth : Nat} {x y z : Char} {body text tail : List Char}

theorem pair_prefix_cons_iff : [y, z] <+: x :: text ↔ x = y ∧ text.head? = some z := by
  cases text with
  | nil => simp
  | cons x' text => simp [List.cons_prefix_cons, eq_comm]

/-- What comes behind the closing mark is not seen from a body. -/
theorem head?_append_mark (body tail : List Char) :
    (body ++ '*' :: '/' :: tail).head? = (body ++ ['*', '/']).head? := by
  cases body <;> rfl

/-- A body in front of a closing mark changes nothing of how deep the mark is. -/
theorem CommentBody.closes (h : CommentBody body) (htail : Closes depth ('*' :: '/' :: tail)) :
    Closes depth (body ++ '*' :: '/' :: tail) := by
  induction h generalizing depth tail with
  | empty => exact htail
  | @nested inner others _ _ inner_ih others_ih =>
    have hinner : Closes (depth + 1) (inner ++ '*' :: '/' :: (others ++ '*' :: '/' :: tail)) :=
      inner_ih (.closing (others_ih htail))
    simpa using Closes.opening hinner
  | plain noOpening noClosing _ ih =>
    rw [pair_prefix_cons_iff, ← head?_append_mark _ tail] at noOpening noClosing
    exact .plain (fun hx hhead => noOpening ⟨hx, hhead⟩) (fun hx hhead => noClosing ⟨hx, hhead⟩)
      (ih htail)

/-- Inside so many further comments, the bodies of these comments and of the outermost one
are left, from the inside to the outside. -/
theorem exists_bodies_of_closes (h : Closes depth text) :
    ∃ bodies, bodies.length = depth + 1 ∧ (∀ body ∈ bodies, CommentBody body) ∧
      text = closeAll bodies := by
  induction h with
  | last => exact ⟨[[]], rfl, by simp [CommentBody.empty], rfl⟩
  | closing _ ih =>
    obtain ⟨bodies, hlength, hall, rfl⟩ := ih
    refine ⟨[] :: bodies, by simp [hlength], ?_, by simp⟩
    exact List.forall_mem_cons.2 ⟨.empty, hall⟩
  | opening _ ih =>
    obtain ⟨bodies, hlength, hall, rfl⟩ := ih
    obtain ⟨inner, bodies, rfl⟩ := List.exists_cons_of_length_eq_add_one hlength
    rw [List.length_cons, Nat.add_right_cancel_iff] at hlength
    obtain ⟨others, bodies, rfl⟩ := List.exists_cons_of_length_eq_add_one hlength
    simp only [List.forall_mem_cons] at hall
    obtain ⟨hinner, hothers, hall⟩ := hall
    refine ⟨('/' :: '*' :: (inner ++ '*' :: '/' :: others)) :: bodies, ?_, ?_, ?_⟩
    · exact hlength
    · exact List.forall_mem_cons.2 ⟨.nested hinner hothers, hall⟩
    · simp
  | @plain depth x text noOpening noClosing _ ih =>
    obtain ⟨bodies, hlength, hall, rfl⟩ := ih
    obtain ⟨body, bodies, rfl⟩ := List.exists_cons_of_length_eq_add_one hlength
    obtain ⟨hbody, hall⟩ := List.forall_mem_cons.1 hall
    rw [closeAll_cons, head?_append_mark] at noOpening noClosing
    refine ⟨(x :: body) :: bodies, hlength, List.forall_mem_cons.2 ⟨?_, hall⟩, by simp⟩
    refine .plain ?_ ?_ hbody
    · rw [pair_prefix_cons_iff]
      exact fun ⟨hx, hhead⟩ => noOpening hx hhead
    · rw [pair_prefix_cons_iff]
      exact fun ⟨hx, hhead⟩ => noClosing hx hhead

theorem closes_iff : Closes 0 text ↔ ∃ body, CommentBody body ∧ text = body ++ ['*', '/'] := by
  constructor
  · intro h
    obtain ⟨bodies, hlength, hall, rfl⟩ := exists_bodies_of_closes h
    obtain ⟨body, rfl⟩ := List.length_eq_one_iff.1 hlength
    exact ⟨body, hall body (by simp), by simp [closeAll]⟩
  · rintro ⟨body, hbody, rfl⟩
    exact hbody.closes .last

theorem isBlockComment_iff : IsBlockComment text ↔ ∃ body, Closes 0 body ∧
    text = '/' :: '*' :: body := by
  constructor
  · rintro ⟨body, hbody, rfl⟩
    exact ⟨_, closes_iff.2 ⟨body, hbody, rfl⟩, rfl⟩
  · rintro ⟨text, hcloses, rfl⟩
    obtain ⟨body, hbody, rfl⟩ := closes_iff.1 hcloses
    exact ⟨body, hbody, rfl⟩

/-! ## The rule -/

/-- At an opening mark the rule for comments cuts off a block comment, or it finds that no
beginning of the text is one and takes all of it. -/
theorem cuts_of_openingMark {c : Cursor} (h : ['/', '*'] <+: c.rest) :
    ∃ (p : Piece) (rest : List Char), c.rest = p.text ++ rest ∧
      comment? c = some (p.scanned c) ∧ p.kind = .comment ∧ p.value = none ∧
      (p.fault = none ∧ IsBlockComment p.text ∨
        p.fault = some .missingEndComment ∧ rest = [] ∧
          ∀ text, text <+: c.rest → ¬IsBlockComment text) := by
  obtain ⟨body, hc⟩ := h
  have hsome : (comment? c).isSome = true := by
    rw [isSome_comment?, ← hc]
    rfl
  obtain ⟨s, hs⟩ := Option.isSome_iff_exists.1 hsome
  obtain ⟨p, rest, hrest, hcuts, rfl⟩ := makes_of_comment? hs
  refine ⟨p, rest, hrest, hs, ?_⟩
  rw [hrest] at hc ⊢
  cases hcuts with
  | lineComment => simp at hc
  | lastLineComment => simp at hc
  | blockComment closes => exact ⟨rfl, rfl, .inl ⟨rfl, isBlockComment_iff.2 ⟨_, closes, rfl⟩⟩⟩
  | openComment never =>
    refine ⟨rfl, rfl, .inr ⟨rfl, rfl, fun text hprefix hblock => ?_⟩⟩
    obtain ⟨front, hcloses, rfl⟩ := isBlockComment_iff.1 hblock
    simp only [List.append_nil, List.cons_prefix_cons, true_and] at hprefix
    exact never front hprefix hcloses

/-- A text has at most one beginning that is a block comment. -/
theorem IsBlockComment.unique {text text' rest : List Char} (h : IsBlockComment text)
    (h' : IsBlockComment text') (hfront : text <+: rest) (hfront' : text' <+: rest) :
    text = text' := by
  obtain ⟨body, hcloses, rfl⟩ := isBlockComment_iff.1 h
  obtain ⟨body', hcloses', rfl⟩ := isBlockComment_iff.1 h'
  obtain ⟨back, rfl⟩ := hfront
  obtain ⟨back', heq⟩ := hfront'
  simp only [List.cons_append, List.cons.injEq, true_and] at heq
  rw [hcloses.unique hcloses' heq.symm]

/-- At an opening mark the rule for comments makes a token of the one beginning of the text
that is a block comment. If no beginning is one, it makes a token of all of the text and
reports that its end is missing. -/
theorem comment?_blockComment (c : Cursor) (h : ['/', '*'] <+: c.rest) :
    (∀ text, text <+: c.rest → IsBlockComment text →
      (∀ other, other <+: c.rest → IsBlockComment other → other = text) ∧
      ∃ s, comment? c = some s ∧ c.Reads text s.stop ∧
        s.token = ⟨.comment, c.spanTo s.stop, String.ofList text, none⟩ ∧ s.fault = none) ∧
    ((∀ text, text <+: c.rest → ¬IsBlockComment text) →
      ∃ s, comment? c = some s ∧ c.Reads c.rest s.stop ∧
        s.token = ⟨.comment, c.spanTo s.stop, String.ofList c.rest, none⟩ ∧
        s.fault = some (.ofFault .missingEndComment (c.spanTo s.stop) "")) := by
  obtain ⟨p, rest, hc, hs, hkind, hvalue, houtcome⟩ := cuts_of_openingMark h
  have hreads : c.Reads p.text (p.scanned c).stop := by
    rw [Piece.stop_scanned]
    exact reads_past hc
  have htoken : (p.scanned c).token
      = ⟨.comment, c.spanTo (p.scanned c).stop, String.ofList p.text, none⟩ := by
    rw [← hreads.textTo_eq, ← hkind, ← hvalue]
    unfold Piece.scanned
    split <;> rfl
  rcases houtcome with ⟨hfault, hblock⟩ | ⟨hfault, rfl, hnever⟩
  · have hprefix : p.text <+: c.rest := ⟨rest, hc.symm⟩
    refine ⟨fun text htext hcomment => ?_, fun hnever => absurd hblock (hnever _ hprefix)⟩
    obtain rfl : text = p.text := hcomment.unique hblock htext hprefix
    refine ⟨fun other hother hcomment' => hcomment'.unique hcomment hother htext, ?_⟩
    refine ⟨_, hs, hreads, htoken, ?_⟩
    rw [Piece.scanned, hfault]
    rfl
  · refine ⟨fun text htext hcomment => absurd hcomment (hnever text htext), fun _ => ?_⟩
    rw [List.append_nil] at hc
    rw [← hc] at hreads htoken
    refine ⟨_, hs, hreads, htoken, ?_⟩
    rw [Piece.scanned, hfault]
    rfl

/-- A slash directly behind the opening mark, a comment in the comment, a line break of two
characters, and a star directly behind the closing mark. -/
theorem comment?_blockComment_overlapping :
    let c := (Cursor.start "a/*/ /**/\r\n*/*/").skip 1
    ['/', '*'] <+: c.rest ∧ IsBlockComment "/*/ /**/\r\n*/".toList ∧
      ∃ s, comment? c = some s ∧ s.token.text = "/*/ /**/\r\n*/" ∧ s.fault = none ∧
        s.stop.rest = ['*', '/'] := by
  intro c
  have hc : ['/', '*'] <+: c.rest := ⟨_, rfl⟩
  have hprefix : "/*/ /**/\r\n*/".toList <+: c.rest := ⟨['*', '/'], rfl⟩
  have hblock : IsBlockComment "/*/ /**/\r\n*/".toList := by
    refine ⟨['/', ' ', '/', '*', '*', '/', '\r', '\n'], ?_, rfl⟩
    have hbreak : CommentBody ['\r', '\n'] :=
      .plain (by decide) (by decide) (.plain (by decide) (by decide) .empty)
    have hnested : CommentBody (['/', '*'] ++ ([] ++ ['*', '/', '\r', '\n'])) :=
      .nested .empty hbreak
    exact .plain (by decide) (by decide) (.plain (by decide) (by decide) hnested)
  obtain ⟨-, s, hs, hreads, htoken, hfault⟩ :=
    (comment?_blockComment c hc).1 _ hprefix hblock
  refine ⟨hc, hblock, s, hs, ?_, hfault, ?_⟩
  · rw [htoken]
    rfl
  · have hrest : "/*/ /**/\r\n*/".toList ++ ['*', '/'] = "/*/ /**/\r\n*/".toList ++ s.stop.rest :=
      hreads.rest_eq
    exact (List.append_cancel_left hrest).symm

end Scriptlet.Rule
