/-
Scriptlet.Proofs.Piece.Lexed — the pieces of a text.

`Piece.Lexed rules ps` says that the pieces are those into which the rules cut the text
that they make up. Every text has such pieces (`Piece.exists_lexed`).

What each constructor asks of the text behind a piece is asked of its beginning only.
So the pieces in front of a place stay what they are if the text is cut off there
(`Piece.Lexed.of_append`), provided that the place does not lie in a line break; and
since line breaks are blank, there is no such place between two pieces
(`Piece.Lexed.unbroken`).
-/
import Scriptlet.Proofs.Rule.Applies

namespace Scriptlet

open Text

namespace Rule

/-! ## The rule that applies to a text -/

/-- The first rule of a list whose pieces begin as the text does. -/
def opening? (rules : List Rule) (text : List Char) : Option Rule :=
  rules.find? (·.opens text)

variable {rules : List Rule} {r : Rule} {text rest : List Char}

theorem opening?_nil (rules : List Rule) : opening? rules [] = none := by
  simp [opening?, opens_nil]

theorem opens_of_opening? (h : opening? rules text = some r) : r.opens text = true := by
  have hfound := List.find?_some h
  exact hfound

/-- If no rule applies to a text, none applies to its beginning. -/
theorem opening?_eq_none_of_append (h : opening? rules (text ++ rest) = none) :
    opening? rules text = none := by
  rw [opening?, List.find?_eq_none] at h ⊢
  exact fun r hr hopens => h r hr (opens_append rest hopens)

/-- If a rule applies to a text, it applies to each beginning that is enough for it. -/
theorem opening?_of_append (h : opening? rules (text ++ rest) = some r)
    (hopens : r.opens text = true) : opening? rules text = some r := by
  rw [opening?, List.find?_eq_some_iff_append] at h ⊢
  obtain ⟨-, before, after, rfl, hbefore⟩ := h
  refine ⟨hopens, before, after, rfl, fun r' hr' => ?_⟩
  have hnot := hbefore r' hr'
  simp only [Bool.not_eq_eq_eq_not, Bool.not_true, ← Bool.not_eq_true] at hnot ⊢
  exact mt (opens_append rest) hnot

/-- The first rule that applies to the text of a piece and what lies behind it cuts the
piece off. -/
def FirstCuts (rules : List Rule) (p : Piece) (rest : List Char) : Prop :=
  ∃ r, opening? rules (p.text ++ rest) = some r ∧ r.Cuts p rest

/-- No rule applies anywhere in the run, and one applies behind it, unless the text
ends there. -/
structure Skips (rules : List Rule) (run rest : List Char) : Prop where
  nonempty : run ≠ []
  silent : ∀ back, back ≠ [] → back <:+ run → opening? rules (back ++ rest) = none
  stops : rest ≠ [] → opening? rules rest ≠ none

theorem skips_singleton {x : Char} (h : opening? rules (x :: rest) = none)
    (stops : rest ≠ [] → opening? rules rest ≠ none) : Skips rules [x] rest := by
  refine ⟨by simp, fun back hne hback => ?_, stops⟩
  rcases List.suffix_cons_iff.1 hback with rfl | hnil
  · exact h
  · exact absurd (List.suffix_nil.1 hnil) hne

theorem Skips.cons {x : Char} {run : List Char} (hrun : Skips rules run rest)
    (h : opening? rules (x :: (run ++ rest)) = none) : Skips rules (x :: run) rest := by
  refine ⟨by simp, fun back hne hback => ?_, hrun.stops⟩
  rcases List.suffix_cons_iff.1 hback with rfl | hback
  · exact h
  · exact hrun.silent back hne hback

theorem opening?_ne_none (hr : r ∈ rules) (hopens : r.opens text = true) :
    opening? rules text ≠ none := by
  intro hnone
  rw [opening?, List.find?_eq_none] at hnone
  exact hnone r hr hopens

/-- Blank characters are not skipped. -/
theorem Skips.not_blank {run : List Char} (h : Skips rules run rest) (hblank : .blank ∈ rules)
    {x : Char} (hx : x ∈ run) : isBlank x = false := by
  obtain ⟨front, back, rfl⟩ := List.append_of_mem hx
  have hnone := h.silent (x :: back) (by simp) (List.suffix_append front _)
  by_contra hx
  refine opening?_ne_none hblank ?_ hnone
  simpa [opens, begins] using hx

end Rule

namespace Piece

open Rule

/-! ## The pieces of a text -/

/-- The pieces are those into which the rules cut the text that they make up. -/
inductive Lexed (rules : List Rule) : List Piece → Prop where
  | nil : Lexed rules []
  | cut {p : Piece} {ps : List Piece} (first : FirstCuts rules p (join ps))
      (others : Lexed rules ps) : Lexed rules (p :: ps)
  | skip {run : List Char} {ps : List Piece} (first : Skips rules run (join ps))
      (others : Lexed rules ps) : Lexed rules (unknown run :: ps)

theorem Lexed.tail {rules : List Rule} {p : Piece} {ps : List Piece} (h : Lexed rules (p :: ps)) :
    Lexed rules ps := by
  cases h with
  | cut _ others => exact others
  | skip _ others => exact others

theorem Lexed.text_ne_nil {rules : List Rule} {p : Piece} {ps : List Piece}
    (h : Lexed rules (p :: ps)) : p.text ≠ [] := by
  cases h with
  | cut first =>
    obtain ⟨r, -, hcuts⟩ := first
    exact hcuts.text_ne_nil
  | skip first => exact first.nonempty

theorem Lexed.eq_nil_of_join {rules : List Rule} {ps : List Piece} (h : Lexed rules ps)
    (hjoin : join ps = []) : ps = [] := by
  cases ps with
  | nil => rfl
  | cons p ps => exact absurd hjoin (by simp [h.text_ne_nil])

/-- Where a rule applies to a text, it applies to its first piece. -/
theorem Lexed.opening?_text {rules : List Rule} {p : Piece} {ps : List Piece}
    (h : Lexed rules (p :: ps)) (hopen : opening? rules (join (p :: ps)) ≠ none) :
    opening? rules p.text ≠ none := by
  rw [join_cons] at hopen
  cases h with
  | cut first =>
    obtain ⟨r, hr, hcuts⟩ := first
    rw [opening?_of_append hr hcuts.opens]
    simp
  | skip first => exact absurd (first.silent _ first.nonempty List.suffix_rfl) hopen

/-- Every text has pieces. -/
theorem exists_lexed (rules : List Rule) (text : List Char) :
    ∃ ps, Lexed rules ps ∧ join ps = text := by
  induction hn : text.length using Nat.strongRecOn generalizing text with
  | ind n ih =>
    cases hopen : opening? rules text with
    | some r =>
      obtain ⟨s, hs⟩ : ∃ s, r.scan? ⟨text, .start⟩ = some s := by
        rw [← Option.isSome_iff_exists, isSome_scan?]
        exact opens_of_opening? hopen
      obtain ⟨p, rest, htext, hcuts, -⟩ := makes_of_scan? hs
      have htext : text = p.text ++ rest := htext
      have hpos := List.length_pos_iff.2 hcuts.text_ne_nil
      have hlt : rest.length < n := by
        rw [← hn, htext, List.length_append]
        omega
      obtain ⟨ps, hps, rfl⟩ := ih _ hlt rest rfl
      rw [htext] at hopen
      exact ⟨p :: ps, .cut ⟨r, hopen, hcuts⟩ hps, htext.symm⟩
    | none =>
      cases text with
      | nil => exact ⟨[], .nil, rfl⟩
      | cons x text =>
        have hlt : text.length < n := by
          rw [← hn]
          exact Nat.lt_succ_self _
        obtain ⟨ps, hps, rfl⟩ := ih _ hlt text rfl
        -- The character is skipped, and so is what follows it up to the next piece: if the
        -- rest begins with a skipped run, this run gets longer.
        cases hps with
        | nil => exact ⟨[unknown [x]], .skip (skips_singleton hopen (absurd rfl)) .nil, rfl⟩
        | @cut p ps first others =>
          have hfirst : opening? rules (join (p :: ps)) ≠ none := by
            obtain ⟨r, hr, -⟩ := first
            rw [join_cons, hr]
            simp
          exact ⟨unknown [x] :: p :: ps,
            .skip (skips_singleton hopen fun _ => hfirst) (.cut first others), rfl⟩
        | @skip run ps first others =>
          exact ⟨unknown (x :: run) :: ps, .skip (first.cons hopen) others, rfl⟩

/-! ## Pieces in front of a place -/

namespace Lexed

variable {rules : List Rule} {p : Piece} {ps qs : List Piece}

theorem unbroken_head (hblank : .blank ∈ rules) (h : Lexed rules (p :: ps)) :
    Unbroken p.text (join ps) := by
  cases h with
  | cut first =>
    obtain ⟨r, -, hcuts⟩ := first
    exact hcuts.unbroken
  | @skip run _ first =>
    refine unbroken_of_getLast? fun hlast => ?_
    have hreturn := first.not_blank hblank (List.mem_of_getLast? hlast)
    exact absurd hreturn (by decide)

/-- No line break is cut in two. -/
theorem unbroken (hblank : .blank ∈ rules) (h : Lexed rules (ps ++ qs)) :
    Unbroken (join ps) (join qs) := by
  induction ps with
  | nil => simp [Unbroken]
  | cons p ps ih =>
    rw [join_cons]
    cases ps with
    | nil =>
      rw [join_nil, List.append_nil]
      exact unbroken_head hblank h
    | cons p' ps =>
      have hne : join (p' :: ps) ≠ [] := by simp [h.tail.text_ne_nil]
      exact (unbroken_append_iff hne).2 (ih h.tail)

/-- The pieces in front of a place are those of the text in front of it, and the pieces
behind it are those of the text behind it. -/
theorem of_append (hblank : .blank ∈ rules) (h : Lexed rules (ps ++ qs)) :
    Lexed rules ps ∧ Lexed rules qs := by
  induction ps with
  | nil => exact ⟨.nil, h⟩
  | cons p ps ih =>
    rw [List.cons_append] at h
    obtain ⟨hps, hqs⟩ := ih h.tail
    refine ⟨?_, hqs⟩
    have hunbroken := h.tail.unbroken hblank
    cases h with
    | cut first others =>
      obtain ⟨r, hr, hcuts⟩ := first
      rw [join_append] at hr hcuts
      rw [← List.append_assoc] at hr
      have hopens := opens_append (join ps) hcuts.opens
      exact .cut ⟨r, opening?_of_append hr hopens, hcuts.cut hunbroken⟩ hps
    | @skip run _ first others =>
      refine .skip ⟨first.nonempty, fun back hne hback => ?_, fun hrest => ?_⟩ hps
      · have hnone := first.silent back hne hback
        rw [join_append, ← List.append_assoc] at hnone
        exact opening?_eq_none_of_append hnone
      · cases ps with
        | nil => exact absurd rfl hrest
        | cons p' ps =>
          -- A rule applies to the whole text behind the run. It applies to its first piece
          -- too, for that is all it has to see, and this piece is not cut off.
          rw [List.cons_append] at first others
          have hbehind := first.stops (by simp [others.text_ne_nil])
          have hfirst := others.opening?_text hbehind
          rw [join_cons]
          exact mt opening?_eq_none_of_append hfirst

end Lexed

end Piece

end Scriptlet
