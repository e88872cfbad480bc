/-
Scriptlet.Proofs.Rule.Applies — the rules at a cursor, and the pieces that they cut
off the text there.

* `Rule.makes_of_scan?` — whatever a rule makes of the text at a cursor is a piece
  that it cuts off (one lemma for each rule, by which it was read on);
* `Rule.isSome_scan?` — a rule applies if the text opens as its pieces do;
* `Rule.scan?_of_cuts` — a piece that can be cut off is what the rule makes of the
  text. For this no rule has to be read again: it applies, and a text determines the
  piece.
-/
import Scriptlet.Proofs.Rule.Cuts

namespace Scriptlet

open Text

/-- The rule cuts off a piece of the text at a cursor, and this is the outcome. -/
def Rule.Makes (r : Rule) (c : Cursor) (s : Scanned) : Prop :=
  ∃ p rest, c.rest = p.text ++ rest ∧ r.Cuts p rest ∧ s = p.scanned c

namespace Rule

open Cursor

variable {c c' body stop : Cursor} {s : Scanned} {r : Rule}

theorem makes_sound {kind : Kind} {text : List Char} {value : Option Value}
    (h : c.Reads text stop) (hcuts : r.Cuts ⟨kind, text, value, none⟩ stop.rest) :
    r.Makes c (.sound c stop kind value) :=
  ⟨_, _, h.rest_eq, hcuts, Piece.sound_eq_scanned h kind value⟩

theorem makes_faulty {kind : Kind} {text : List Char} {value : Option Value} {fault : Fault}
    (h : c.Reads text stop) (hcuts : r.Cuts ⟨kind, text, value, some fault⟩ stop.rest) :
    r.Makes c (.faulty c stop kind value fault) :=
  ⟨_, _, h.rest_eq, hcuts, Piece.faulty_eq_scanned h kind value fault⟩

/-- Reading one character that passes a test, and then on while it is passed, reads a run. -/
theorem run_of_nextIf? {test : Char → Bool} {x : Char} (h : c.nextIf? test = some (x, body))
    (htest : test '\n' = true → test '\r' = true) :
    ∃ run, run ≠ [] ∧ c.Reads run (body.advanceWhile test) ∧
      Run test run (body.advanceWhile test).rest := by
  have hwhole : c.advanceWhile test = body.advanceWhile test := by
    rw [advanceWhile]
    split
    · next h' => cases h.symm.trans h'; rfl
    · next h' => cases h.symm.trans h'
  obtain ⟨run, hreads, hrun⟩ := run_advanceWhile test htest c
  rw [hwhole] at hreads hrun
  refine ⟨run, ?_, hreads, hrun⟩
  rintro rfl
  have hstop := congrArg (·.rest.length) hreads.eq_of_nil
  have hshort := length_nextIf? h
  have hmore := length_advanceWhile test body
  omega

/-! ## Runs and single characters -/

theorem makes_of_blank? (h : blank? c = some s) : Makes .blank c s := by
  simp only [blank?, Option.bind_eq_bind, Option.bind_eq_some_iff, Option.pure_def,
    Option.some.injEq] at h
  obtain ⟨⟨x, body⟩, hx, rfl⟩ := h
  obtain ⟨run, hne, hreads, hrun⟩ := run_of_nextIf? hx fun _ => by decide
  exact makes_sound hreads (.blank hne hrun)

theorem makes_of_paren? (h : paren? c = some s) : Makes .paren c s := by
  simp only [paren?, Option.bind_eq_bind, Option.bind_eq_some_iff, Option.pure_def,
    Option.some.injEq] at h
  obtain ⟨⟨x, stop⟩, hx, ⟨bracket, side⟩, is, rfl⟩ := h
  obtain ⟨text, rfl | ⟨rfl, -⟩, hreads⟩ := reads_next? hx
  · exact makes_sound hreads (.paren is)
  · cases is

theorem makes_of_operator? (h : operator? c = some s) : Makes .operator c s := by
  simp only [operator?, Option.bind_eq_bind, Option.bind_eq_some_iff, Option.pure_def,
    Option.some.injEq] at h
  obtain ⟨⟨x, stop⟩, hx, operator, is, rfl⟩ := h
  obtain ⟨text, rfl | ⟨rfl, -⟩, hreads⟩ := reads_next? hx
  · exact makes_sound hreads (.operator is)
  · cases is

theorem makes_of_number? (h : number? c = some s) : Makes .number c s := by
  simp only [number?, Option.bind_eq_bind, Option.bind_eq_some_iff, Option.pure_def,
    Option.some.injEq] at h
  obtain ⟨⟨x, body⟩, hx, rfl⟩ := h
  obtain ⟨digits, hne, hreads, hrun⟩ := run_of_nextIf? hx (by decide)
  rw [hreads.textTo_eq, String.toList_ofList]
  exact makes_sound hreads (.number hne hrun)

theorem makes_of_symbol? (h : symbol? c = some s) : Makes .symbol c s := by
  simp only [symbol?, Option.bind_eq_bind, Option.bind_eq_some_iff, Option.pure_def,
    Option.some.injEq] at h
  obtain ⟨⟨x, body⟩, hx, rfl⟩ := h
  obtain ⟨hfirst, starts⟩ := reads_nextIf? hx (by decide +kernel)
  obtain ⟨others, hothers, hrun⟩ := run_advanceWhile continuesSymbol
    (by decide +kernel) body
  have hreads := hfirst.trans hothers
  rw [hreads.textTo_eq]
  exact makes_sound hreads (.symbol starts hrun)

/-! ## Strings -/

theorem makes_of_string? (h : string? c = some s) : Makes .string c s := by
  simp only [string?, Option.bind_eq_bind, Option.bind_eq_some_iff, Option.pure_def,
    Option.some.injEq] at h
  obtain ⟨⟨quote, body⟩, hquote, rfl⟩ := h
  obtain ⟨hopening, is⟩ := reads_nextIf? hquote (by decide)
  obtain ⟨content, hcontent, hrun⟩ := run_advanceWhile (fun x => x != quote && x != '\n')
    (by simp) body
  dsimp only
  generalize body.advanceWhile (fun x => x != quote && x != '\n') = stop at hcontent hrun ⊢
  have hrun : Run (insideString quote) content stop.rest := hrun
  rw [hcontent.textTo_eq]
  split
  · next closed hclosing =>
    have hlast := reads_accept? hclosing (by rintro rfl; cases is)
    rw [hlast.rest_eq] at hrun
    exact makes_sound (hopening.trans (hcontent.trans hlast)) (.string is hrun)
  · next hclosing =>
    have hnone := isSome_accept? stop quote
    rw [hclosing] at hnone
    refine makes_faulty (hopening.trans hcontent) (.openString is hrun fun hquote => ?_)
    simp [hquote] at hnone

/-! ## Comments -/

theorem reads_toEnd (c : Cursor) : c.Reads c.rest c.toEnd ∧ c.toEnd.rest = [] := by
  obtain ⟨run, hreads, hrun⟩ := run_advanceWhile (fun _ => true) (fun h => h) c
  have hnil : c.toEnd.rest = [] := by
    rw [← firstLogical?_eq_none_iff, Option.eq_none_iff_forall_ne_some]
    intro x hx
    cases hrun.stops x hx
  have heq := hreads.rest_eq
  rw [show (c.advanceWhile fun _ => true).rest = [] from hnil, List.append_nil] at heq
  rw [heq]
  exact ⟨hreads, hnil⟩

/-- A line comment is a line and the line break behind it, or the last line. -/
theorem makes_of_lineComment (h : c.Reads ['/', '/'] body) :
    Makes .comment c (.sound c (lineCommentEnd body) .comment none) := by
  obtain ⟨line, hline, hrun⟩ := run_advanceWhile ((· != '\n')) (by simp) body
  simp only [lineCommentEnd]
  generalize body.advanceWhile (· != '\n') = stop at hline hrun
  cases hbreak : stop.accept? '\n' with
  | some stop' =>
    rw [accept?, Option.map_eq_some_iff] at hbreak
    obtain ⟨⟨x, stop'⟩, hx, rfl⟩ := hbreak
    rw [nextIf?, Option.filter_eq_some_iff] at hx
    obtain ⟨hnext, hx⟩ := hx
    obtain rfl : x = '\n' := eq_of_beq hx
    obtain ⟨lineBreak, hlineBreak, hreads⟩ := reads_next? hnext
    rw [hreads.rest_eq] at hrun
    have hcuts := Cuts.lineComment (by simpa [IsLineBreak] using hlineBreak) hrun
    exact makes_sound (h.trans (hline.trans hreads)) hcuts
  | none =>
    have hnone := isSome_accept? stop '\n'
    have hnil : stop.rest = [] := by
      rw [← firstLogical?_eq_none_iff]
      cases hfirst : firstLogical? stop.rest with
      | none => rfl
      | some x =>
        have hx := hrun.stops x hfirst
        simp_all
    refine makes_sound (h.trans hline) ?_
    rw [Option.getD_none, hnil]
    rw [hnil] at hrun
    exact .lastLineComment hrun

/-- The first part of the body of a block comment, as it is read. -/
inductive Part (c c' : Cursor) : Option Side → Prop where
  | opening (reads : c.Reads ['/', '*'] c') : Part c c' (some .opening)
  | closing (reads : c.Reads ['*', '/'] c') : Part c c' (some .closing)
  | lineBreak (reads : c.Reads ['\r', '\n'] c') : Part c c' none
  | plain {x : Char} (reads : c.Reads [x] c') (noOpening : x = '/' → c'.rest.head? ≠ some '*')
      (noClosing : x = '*' → c'.rest.head? ≠ some '/') : Part c c' none

theorem head?_ne_of_accept? {x : Char} (h : c.accept? x = none) (hx : x ≠ '\r') :
    c.rest.head? ≠ some x := by
  intro hhead
  obtain ⟨rest, hrest⟩ := List.head?_eq_some_iff.1 hhead
  have hnone := isSome_accept? c x
  rw [h, hrest, firstLogical?_cons rest hx] at hnone
  simp at hnone

theorem part_of_commentPiece? {side : Option Side} (h : commentPiece? c = some (side, c')) :
    Part c c' side := by
  simp only [commentPiece?, Option.bind_eq_bind, Option.bind_eq_some_iff] at h
  obtain ⟨⟨x, body⟩, hx, h⟩ := h
  obtain ⟨text, htext, hreads⟩ := reads_next? hx
  split at h
  · next hslash =>
    obtain rfl : x = '/' := hslash
    obtain rfl : text = ['/'] := by simpa using htext
    cases hm : body.accept? '*' with
    | none =>
      rw [hm] at h
      cases h
      exact .plain hreads (fun _ => head?_ne_of_accept? hm (by decide)) (fun hx => by cases hx)
    | some c'' =>
      rw [hm] at h
      cases h
      exact .opening (hreads.trans (reads_accept? hm (by decide)))
  · next hstar =>
    obtain rfl : x = '*' := hstar
    obtain rfl : text = ['*'] := by simpa using htext
    cases hm : body.accept? '/' with
    | none =>
      rw [hm] at h
      cases h
      exact .plain hreads (fun hx => by cases hx) (fun _ => head?_ne_of_accept? hm (by decide))
    | some c'' =>
      rw [hm] at h
      cases h
      exact .closing (hreads.trans (reads_accept? hm (by decide)))
  · next hslash hstar =>
    -- Only here may the piece be a line break of two characters; to the relation it is two.
    cases h
    rcases htext with rfl | ⟨-, rfl⟩
    · exact .plain hreads (fun hx => absurd hx hslash) (fun hx => absurd hx hstar)
    · exact .lineBreak hreads

theorem closes_of_blockCommentEnd? {depth : Nat} (h : blockCommentEnd? depth c = some stop) :
    ∃ text, c.Reads text stop ∧ Closes depth text := by
  fun_induction blockCommentEnd? depth c with
  | case1 => cases h
  | case2 _ _ _ hp ih =>
    obtain ⟨text, hreads, hcloses⟩ := ih h
    cases part_of_commentPiece? hp with
    | lineBreak hfirst =>
      -- The relation knows single characters only, so this is a plain character twice.
      refine ⟨_, hfirst.trans hreads, .plain ?_ ?_ (.plain ?_ ?_ hcloses)⟩ <;> rintro ⟨⟩
    | plain hfirst noOpening noClosing =>
      rw [hreads.rest_eq, hcloses.head?_append] at noOpening noClosing
      exact ⟨_, hfirst.trans hreads, .plain noOpening noClosing hcloses⟩
  | case3 _ _ _ hp ih =>
    obtain ⟨text, hreads, hcloses⟩ := ih h
    cases part_of_commentPiece? hp with
    | opening hfirst => exact ⟨_, hfirst.trans hreads, .opening hcloses⟩
  | case4 _ _ hp =>
    cases h
    cases part_of_commentPiece? hp with
    | closing hfirst => exact ⟨_, hfirst, .last⟩
  | case5 _ _ hp _ ih =>
    obtain ⟨text, hreads, hcloses⟩ := ih h
    cases part_of_commentPiece? hp with
    | closing hfirst => exact ⟨_, hfirst.trans hreads, .closing hcloses⟩

theorem exists_behind {depth : Nat} {front rest : List Char} {x y : Char}
    (h : Closes depth front) (hc : c.rest = front ++ rest) (hreads : c.Reads [x, y] c') :
    ∃ tail, front = x :: y :: tail ∧ c'.rest = tail ++ rest := by
  obtain ⟨x', y', tail, rfl⟩ := h.exists_cons_cons
  rw [hreads.rest_eq] at hc
  simp only [List.cons_append, List.nil_append, List.cons.injEq] at hc
  obtain ⟨rfl, rfl, hrest⟩ := hc
  exact ⟨tail, rfl, hrest⟩

theorem isSome_blockCommentEnd? {depth : Nat} {front rest : List Char}
    (h : Closes depth front) (hc : c.rest = front ++ rest) :
    (blockCommentEnd? depth c).isSome = true := by
  fun_induction blockCommentEnd? depth c generalizing front with
  | case1 _ c hp =>
    obtain ⟨x, y, tail, rfl⟩ := h.exists_cons_cons
    obtain ⟨step, hstep⟩ := Option.ne_none_iff_exists'.1
      (mt next?_eq_none_iff.1 (show c.rest ≠ [] by simp [hc]))
    simp only [commentPiece?, hstep, Option.bind_eq_bind, Option.bind_some] at hp
    split at hp <;> cases hp
  | case2 _ _ _ hp ih =>
    cases part_of_commentPiece? hp with
    | lineBreak hfirst =>
      obtain ⟨tail, rfl, hrest⟩ := exists_behind h hc hfirst
      have hlineFeed := h.of_plain (by rintro ⟨⟩) (by rintro ⟨⟩)
      exact ih (hlineFeed.of_plain (by rintro ⟨⟩) (by rintro ⟨⟩)) hrest
    | plain hfirst noOpening noClosing =>
      obtain ⟨x, y, tail, rfl⟩ := h.exists_cons_cons
      rw [hfirst.rest_eq] at hc
      simp only [List.cons_append, List.nil_append, List.cons.injEq] at hc
      obtain ⟨rfl, hrest⟩ := hc
      rw [hrest] at noOpening noClosing
      exact ih (h.of_plain noOpening noClosing) hrest
  | case3 _ _ _ hp ih =>
    cases part_of_commentPiece? hp with
    | opening hfirst =>
      obtain ⟨tail, rfl, hrest⟩ := exists_behind h hc hfirst
      exact ih h.of_opening hrest
  | case4 => rfl
  | case5 _ _ hp _ ih =>
    cases part_of_commentPiece? hp with
    | closing hfirst =>
      obtain ⟨tail, rfl, hrest⟩ := exists_behind h hc hfirst
      exact ih h.of_closing hrest

theorem makes_of_blockComment (h : c.Reads ['/', '*'] body) :
    Makes .comment c (blockComment c body) := by
  unfold blockComment
  split
  · next stop hend =>
    obtain ⟨text, hreads, hcloses⟩ := closes_of_blockCommentEnd? hend
    exact makes_sound (h.trans hreads) (.blockComment hcloses)
  · next hend =>
    obtain ⟨hreads, hnil⟩ := reads_toEnd body
    refine makes_faulty (h.trans hreads) ?_
    rw [hnil]
    refine .openComment ?_
    rintro front ⟨behind, hfront⟩ hcloses
    have hsome := isSome_blockCommentEnd? hcloses hfront.symm
    rw [hend] at hsome
    cases hsome

theorem makes_of_comment? (h : comment? c = some s) : Makes .comment c s := by
  simp only [comment?, Option.bind_eq_bind, Option.bind_eq_some_iff] at h
  obtain ⟨slash, hslash, ⟨mark, body⟩, hmark, h⟩ := h
  have hfirst := reads_accept? hslash (by decide)
  obtain ⟨hsecond, is⟩ := reads_nextIf? hmark (by decide)
  have hreads := hfirst.trans hsecond
  split at h
  · next hline =>
    obtain rfl : mark = '/' := hline
    cases h
    exact makes_of_lineComment hreads
  · next hline =>
    obtain rfl : mark = '*' := by simpa [hline] using is
    cases h
    exact makes_of_blockComment hreads

/-! ## All rules -/

theorem makes_of_scan? (h : r.scan? c = some s) : r.Makes c s := by
  cases r with
  | blank => exact makes_of_blank? h
  | paren => exact makes_of_paren? h
  | operator => exact makes_of_operator? h
  | comment => exact makes_of_comment? h
  | string => exact makes_of_string? h
  | number => exact makes_of_number? h
  | symbol => exact makes_of_symbol? h

theorem any_next? (test : Char → Bool) (h : test '\r' = test '\n') (c : Cursor) :
    (c.next?.any fun step => test step.1) = c.rest.head?.any test := by
  rw [← any_firstLogical? test h, ← map_fst_next?]
  cases c.next? <;> rfl

theorem isSome_bind_nextIf? {α : Type} (test : Char → Bool) (h : test '\r' = test '\n')
    (c : Cursor) {f : Char × Cursor → Option α} (hf : ∀ step, (f step).isSome = true) :
    ((c.nextIf? test).bind f).isSome = c.rest.head?.any test := by
  rw [← any_firstLogical? test h, ← isSome_nextIf?]
  cases c.nextIf? test with
  | none => rfl
  | some step => exact hf step

theorem isSome_comment? (c : Cursor) : (comment? c).isSome = opens .comment c.rest := by
  have hslash := isSome_accept? c '/'
  rw [any_firstLogical? (· == '/') (by decide)] at hslash
  rw [comment?, Option.bind_eq_bind]
  cases hs : c.accept? '/' with
  | none =>
    rw [hs] at hslash
    simp [opens, begins, ← hslash]
  | some slash =>
    have hopens : opens .comment c.rest = slash.rest.head?.any isCommentMark := by
      rw [(reads_accept? hs (by decide)).rest_eq]
      simp [opens, begins]
    rw [hopens, Option.bind_some]
    refine isSome_bind_nextIf? isCommentMark (by decide) slash fun step => ?_
    dsimp only
    split <;> rfl

theorem isSome_scan? (r : Rule) (c : Cursor) : (r.scan? c).isSome = r.opens c.rest := by
  cases r with
  | blank =>
    rw [opens_eq (by decide)]
    exact isSome_bind_nextIf? isBlank (by decide) c fun _ => rfl
  | paren =>
    have hfirst := any_next? (fun x => (Bracket.ofChar? x).isSome) rfl c
    simp [scan?, paren?, Option.isSome_bind, opens, begins, ← hfirst]
  | operator =>
    have hfirst := any_next? (fun x => (Operator.ofChar? x).isSome) rfl c
    simp [scan?, operator?, Option.isSome_bind, opens, begins, ← hfirst]
  | comment => exact isSome_comment? c
  | string =>
    rw [opens_eq (by decide)]
    exact isSome_bind_nextIf? isQuote (by decide) c fun _ => rfl
  | number =>
    rw [opens_eq (by decide)]
    exact isSome_bind_nextIf? Char.isDigit (by decide) c fun _ => rfl
  | symbol =>
    rw [opens_eq (by decide)]
    exact isSome_bind_nextIf? startsSymbol (by decide +kernel) c fun _ => rfl

theorem scan?_of_cuts {p : Piece} {rest : List Char} (h : r.Cuts p rest)
    (hc : c.rest = p.text ++ rest) : r.scan? c = some (p.scanned c) := by
  have hsome := isSome_scan? r c
  rw [hc, opens_append rest h.opens] at hsome
  obtain ⟨s, hs⟩ := Option.isSome_iff_exists.1 hsome
  obtain ⟨p', rest', hc', h', rfl⟩ := makes_of_scan? hs
  rw [hs, h'.unique h (by rw [← hc, ← hc'])]

end Rule

end Scriptlet
