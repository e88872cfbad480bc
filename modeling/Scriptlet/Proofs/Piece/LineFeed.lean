/-
Scriptlet.Proofs.Piece.LineFeed — what a line feed between two texts does to their
pieces.

`Token.contents` is what is left of some tokens without white space and without their
places. `Piece.Lexed.lineFeed` says that the pieces of two texts with a line feed
between them have the contents of both, one after the other. Nothing but the last piece
of the first text and the first piece of the second one can change, and these can in
three ways (`Rule.Cuts.lineFeed`): white space takes the line feed in, with white space
behind it (`Piece.Lexed.prepend_blank`); a line comment takes it in as its end; and all
other pieces end where they ended before. Two things must not be at the end of the first
text: a carriage return, for the two characters would be one line break, and a block
comment that is still open.
-/
import Scriptlet.Proofs.Piece.Reading

namespace Scriptlet

open Text

/-- What the tokens are and say, without white space and wherever they stand. -/
def Token.contents (tokens : List Token) : List (Kind × Option Value) :=
  (tokens.filter (·.kind != .whiteSpace)).map fun t => (t.kind, t.value)

theorem Token.contents_append (tokens tokens' : List Token) :
    contents (tokens ++ tokens') = contents tokens ++ contents tokens' := by
  rw [contents, List.filter_append, List.map_append]
  rfl

namespace Rule

variable {rules others : List Rule} {p : Piece} {text run rest : List Char}

theorem opening?_lineFeed (hne : text ≠ []) (rest : List Char) :
    opening? rules (text ++ '\n' :: rest) = opening? rules text := by
  simp only [opening?, opens_lineFeed _ hne]

/-- Where white space is tried first, it is found. -/
theorem opening?_blank (h : opens .blank text = true) :
    opening? (.blank :: others) text = some .blank :=
  List.find?_cons_of_pos h

theorem firstCuts_blank (hne : run ≠ []) (hrun : Run isBlank run rest) :
    FirstCuts (.blank :: others) ⟨.whiteSpace, run, none, none⟩ rest := by
  have hcuts := Cuts.blank hne hrun
  exact ⟨.blank, opening?_blank (opens_append rest hcuts.opens), hcuts⟩

/-- White space ends before a text that does not begin with white space. -/
theorem run_of_not_opens (hrun : ∀ x ∈ run, isBlank x = true)
    (hlast : run.getLast? ≠ some '\r') (h : opens .blank rest = false) :
    Run isBlank run rest := by
  refine ⟨hrun, fun x hx => ?_, unbroken_of_getLast? hlast⟩
  have hany := any_firstLogical? isBlank (by decide) rest
  simp only [opens, begins] at h
  simp_all

/-- If something lies behind a piece, a line feed behind that has no influence on it. -/
theorem FirstCuts.lineFeed (h : FirstCuts rules p rest) (hne : rest ≠ [])
    (hlast : rest.getLast? ≠ some '\r') (behind : List Char) :
    FirstCuts rules p (rest ++ '\n' :: behind) := by
  obtain ⟨r, hr, hcuts⟩ := h
  refine ⟨r, ?_, hcuts.extend hne (unbroken_of_getLast? hlast)⟩
  rw [← List.append_assoc, opening?_lineFeed (by simp [hne]), hr]

/-- It is not skipped, and what is skipped before it is skipped without it. -/
theorem Skips.lineFeed (h : Skips (.blank :: others) run rest) (behind : List Char) :
    Skips (.blank :: others) run (rest ++ '\n' :: behind) := by
  refine ⟨h.nonempty, fun back hne hback => ?_, fun _ => ?_⟩
  · rw [← List.append_assoc, opening?_lineFeed (by simp [hne])]
    exact h.silent back hne hback
  · by_cases hrest : rest = []
    · have hopens : opens .blank (rest ++ '\n' :: behind) = true := by
        rw [hrest]
        rfl
      rw [opening?_blank hopens]
      simp
    · rw [opening?_lineFeed hrest]
      exact h.stops hrest

end Rule

namespace Piece

open Rule

/-- What the tokens of a piece are and say. -/
def contents (p : Piece) : List (Kind × Option Value) :=
  p.fault.toList.map (fun fault => (.error, some (.fault fault))) ++
    [(p.kind, p.value)].filter (·.1 != .whiteSpace)

theorem contents_tokensAt (p : Piece) (pos : Position) :
    Token.contents (p.tokensAt pos) = p.contents := by
  obtain ⟨kind, text, value, fault⟩ := p
  rw [tokensAt, Token.contents_append]
  cases fault <;> cases kind <;> rfl

theorem contents_tokens (pos : Position) (ps : List Piece) :
    Token.contents (tokens pos ps) = ps.flatMap contents := by
  induction ps generalizing pos with
  | nil => rfl
  | cons p ps ih =>
    rw [tokens, Token.contents_append, contents_tokensAt, ih, List.flatMap_cons]

namespace Lexed

variable {rules others : List Rule} {ps qs : List Piece}

/-- White space in front of a text is a piece, or goes into the first one. -/
theorem prepend_blank {run : List Char} (hne : run ≠ []) (hrun : ∀ x ∈ run, isBlank x = true)
    (hlast : run.getLast? ≠ some '\r') (h : Lexed (.blank :: others) qs) :
    ∃ rs, Lexed (.blank :: others) rs ∧ join rs = run ++ join qs ∧
      rs.flatMap contents = qs.flatMap contents := by
  by_cases hopens : opens .blank (join qs) = true
  · have hblank : opening? (.blank :: others) (join qs) = some .blank := opening?_blank hopens
    cases h with
    | nil => cases hopens
    | skip first =>
      cases (first.silent _ first.nonempty List.suffix_rfl).symm.trans hblank
    | @cut q qs first behind =>
      obtain ⟨r, hr, hcuts⟩ := first
      cases hr.symm.trans hblank
      cases hcuts with
      | @blank run' _ hne' blanks =>
        have hwhole : Run isBlank (run ++ run') (join qs) :=
          ⟨by simpa [or_imp, forall_and] using ⟨hrun, blanks.all⟩, blanks.stops,
            (unbroken_append_iff hne').2 blanks.unbroken⟩
        exact ⟨_, .cut (firstCuts_blank (by simp [hne]) hwhole) behind, by simp, rfl⟩
  · rw [Bool.not_eq_true] at hopens
    have hrun := run_of_not_opens hrun hlast hopens
    exact ⟨_, .cut (firstCuts_blank hne hrun) h, rfl, rfl⟩

theorem isBlank_lineFeed {x : Char} (hx : x ∈ ['\n']) : isBlank x = true := by
  rw [List.mem_singleton.1 hx]
  rfl

theorem prepend_lineFeed (h : Lexed (.blank :: others) qs) :
    ∃ rs, Lexed (.blank :: others) rs ∧ join rs = '\n' :: join qs ∧
      rs.flatMap contents = qs.flatMap contents :=
  prepend_blank (by simp) (fun _ => isBlank_lineFeed) (by simp) h

/-- A line feed behind a text that is one piece. -/
theorem single_lineFeed {p : Piece} (h : FirstCuts (.blank :: others) p [])
    (hqs : Lexed (.blank :: others) qs) (hlast : p.text.getLast? ≠ some '\r')
    (hclosed : p.fault ≠ some .missingEndComment) :
    ∃ rs, Lexed (.blank :: others) rs ∧ join rs = p.text ++ '\n' :: join qs ∧
      rs.flatMap contents = p.contents ++ qs.flatMap contents := by
  obtain ⟨r, hr, hcuts⟩ := h
  rw [List.append_nil, ← opening?_lineFeed hcuts.text_ne_nil (join qs)] at hr
  rcases hcuts.lineFeed hlast hclosed (join qs) with rfl | hended | hcuts'
  · cases hcuts with
    | @blank run _ hne blanks =>
      have hrun : ∀ x ∈ run ++ ['\n'], isBlank x = true :=
        fun x hx => (List.mem_append.1 hx).elim (blanks.all x) isBlank_lineFeed
      obtain ⟨rs, hrs, hjoin, hcontents⟩ := prepend_blank (by simp) hrun (by simp) hqs
      exact ⟨rs, hrs, by simp [hjoin], hcontents⟩
  · have hr : opening? (.blank :: others) ((p.text ++ ['\n']) ++ join qs) = some r := by
      rw [List.append_assoc]
      exact hr
    exact ⟨_, .cut ⟨r, hr, hended⟩ hqs, by simp, rfl⟩
  · obtain ⟨ms, hms, hjoin, hcontents⟩ := prepend_lineFeed hqs
    rw [← hjoin] at hr hcuts'
    exact ⟨p :: ms, .cut ⟨r, hr, hcuts'⟩ hms, by simp [hjoin], by simp [hcontents]⟩

theorem getLast?_ne_of_append {text text' : List Char}
    (h : (text ++ text').getLast? ≠ some '\r') : text'.getLast? ≠ some '\r' := by
  intro hlast
  rw [List.getLast?_append, hlast] at h
  exact h rfl

/-- A line feed between two texts leaves the contents of their pieces alone. -/
theorem lineFeed (hps : Lexed (.blank :: others) ps) (hqs : Lexed (.blank :: others) qs)
    (hlast : (join ps).getLast? ≠ some '\r')
    (hclosed : ∀ p ∈ ps, p.fault ≠ some .missingEndComment) :
    ∃ rs, Lexed (.blank :: others) rs ∧ join rs = join ps ++ '\n' :: join qs ∧
      rs.flatMap contents = ps.flatMap contents ++ qs.flatMap contents := by
  induction hps with
  | nil => exact prepend_lineFeed hqs
  | @cut p ps first behind ih =>
    rw [join_cons] at hlast
    cases ps with
    | nil =>
      rw [join_nil, List.append_nil] at hlast
      obtain ⟨rs, hrs, hjoin, hcontents⟩ := single_lineFeed first hqs hlast (hclosed p (by simp))
      exact ⟨rs, hrs, by simp [hjoin], by simp [hcontents]⟩
    | cons p' ps =>
      have hlast := getLast?_ne_of_append hlast
      obtain ⟨rs, hrs, hjoin, hcontents⟩ := ih hlast fun q hq => hclosed q (by simp [hq])
      have hne : join (p' :: ps) ≠ [] := by simp [behind.text_ne_nil]
      have hcuts := first.lineFeed hne hlast (join qs)
      rw [← hjoin] at hcuts
      exact ⟨p :: rs, .cut hcuts hrs, by simp [hjoin], by simp [hcontents]⟩
  | @skip run ps first behind ih =>
    rw [join_cons] at hlast
    have hlast := getLast?_ne_of_append hlast
    obtain ⟨rs, hrs, hjoin, hcontents⟩ := ih hlast fun q hq => hclosed q (by simp [hq])
    have hskips := first.lineFeed (join qs)
    rw [← hjoin] at hskips
    exact ⟨unknown run :: rs, .skip hskips hrs, by simp [hjoin], by simp [hcontents]⟩

end Lexed

end Piece

end Scriptlet
