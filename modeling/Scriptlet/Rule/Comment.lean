/-
Scriptlet.Rule.Comment — line comments, from two slashes up to and including
the next line break, and block comments, which nest. A line comment is always
whole; a block comment that the source ends in is faulty.
-/
import Scriptlet.Rule.Scanned

namespace Scriptlet.Rule

/-! ## Line comments -/

/-- The cursor behind a line comment, given the cursor behind its two slashes. -/
def lineCommentEnd (body : Cursor) : Cursor :=
  let stop := body.advanceWhile (· != '\n')
  (stop.accept? '\n').getD stop

/-- A line comment ends at or behind its beginning. -/
theorem length_lineCommentEnd (body : Cursor) :
    (lineCommentEnd body).rest.length ≤ body.rest.length := by
  have hw := Cursor.length_advanceWhile (· != '\n') body
  simp only [lineCommentEnd]
  cases h : (body.advanceWhile (· != '\n')).accept? '\n' with
  | none => simpa using hw
  | some stop => have := Cursor.length_accept? h; simp; omega

/-! ## Block comments -/

/-- The next piece of a block comment and the cursor behind it: a mark that
opens or closes a comment, or a single character that begins neither. A mark is
read whole, so that the slash of an opening mark does not close anything. -/
def commentPiece? (c : Cursor) : Option (Option Side × Cursor) := do
  let (x, c') ← c.next?
  match x with
  | '/' => return (c'.accept? '*').elim (none, c') (some .opening, ·)
  | '*' => return (c'.accept? '/').elim (none, c') (some .closing, ·)
  | _ => return (none, c')

/-- A piece is not empty. -/
theorem length_commentPiece? {c c' : Cursor} {side : Option Side}
    (h : commentPiece? c = some (side, c')) : c'.rest.length < c.rest.length := by
  simp only [commentPiece?, Option.bind_eq_bind, Option.bind_eq_some_iff] at h
  obtain ⟨⟨x, body⟩, hx, h⟩ := h
  have := Cursor.length_next? hx
  split at h
  · cases hm : body.accept? '*' with
    | none => simp_all
    | some _ => have := Cursor.length_accept? hm; simp_all; omega
  · cases hm : body.accept? '/' with
    | none => simp_all
    | some _ => have := Cursor.length_accept? hm; simp_all; omega
  · simp_all

/-- The cursor behind a block comment, given a cursor in its body inside
`depth` further comments; `none` if the source ends first. -/
def blockCommentEnd? (depth : Nat) (c : Cursor) : Option Cursor :=
  match _h : commentPiece? c with
  | none => none
  | some (none, c') => blockCommentEnd? depth c'
  | some (some .opening, c') => blockCommentEnd? (depth + 1) c'
  | some (some .closing, c') =>
    match depth with
    | 0 => some c'
    | outer + 1 => blockCommentEnd? outer c'
termination_by c.rest.length
decreasing_by all_goals exact length_commentPiece? _h

/-- The mark that closes a block comment is not empty. -/
theorem length_blockCommentEnd? {depth : Nat} {c stop : Cursor}
    (h : blockCommentEnd? depth c = some stop) : stop.rest.length < c.rest.length := by
  fun_induction blockCommentEnd? depth c with
  | case1 => simp at h
  | case2 _ _ _ hp ih => have := length_commentPiece? hp; have := ih h; omega
  | case3 _ _ _ hp ih => have := length_commentPiece? hp; have := ih h; omega
  | case4 _ _ hp => cases h; exact length_commentPiece? hp
  | case5 _ _ hp _ ih => have := length_commentPiece? hp; have := ih h; omega

/-! ## The rule -/

/-- A block comment that began at `start`, given the cursor behind its opening
mark. If the source ends first, all of it is the comment. -/
def blockComment (start body : Cursor) : Scanned :=
  match blockCommentEnd? 0 body with
  | some stop => .sound start stop .comment none
  | none => .faulty start body.toEnd .comment none .missingEndComment

/-- Reads a comment of either form. -/
def comment? (c : Cursor) : Option Scanned := do
  let slash ← c.accept? '/'
  let (mark, body) ← slash.nextIf? fun x => x == '/' || x == '*'
  if mark = '/' then
    return .sound c (lineCommentEnd body) .comment none
  else
    return blockComment c body

/-- A block comment ends at or behind its beginning. -/
theorem length_blockComment (start body : Cursor) :
    (blockComment start body).stop.rest.length ≤ body.rest.length := by
  unfold blockComment
  split
  · next h => exact Nat.le_of_lt (length_blockCommentEnd? h)
  · exact Cursor.length_advanceWhile ..

/-- The rule reads at least one character. -/
theorem comment?_shortens {c : Cursor} {s : Scanned} (h : comment? c = some s) :
    s.stop.rest.length < c.rest.length := by
  simp only [comment?, Option.bind_eq_bind, Option.bind_eq_some_iff] at h
  obtain ⟨slash, hs, ⟨mark, body⟩, hm, h⟩ := h
  have := Cursor.length_accept? hs
  have := Cursor.length_nextIf? hm
  have := length_lineCommentEnd body
  have := length_blockComment c body
  split at h <;> cases h
  · simp only [Scanned.stop_sound]; omega
  · simp only; omega

end Scriptlet.Rule
