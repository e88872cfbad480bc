/-
Scriptlet.Proofs.Piece.Reading — the tokens of a source are the tokens of its pieces.

`Piece.map_token_readFrom` says so of everything from a cursor to the end, and
`Piece.tokenize_join` of a source, which is made up of pieces (`Piece.exists_join_eq`).
Behind this module a tokenization is a list of pieces, and no cursor is left in it.
-/
import Scriptlet.Proofs.Lexeme.Chain
import Scriptlet.Proofs.Piece.Lexed

namespace Scriptlet

/-! ## The search for a rule -/

namespace Rule

variable {rules : List Rule} {c c' place : Cursor} {x : Char} {run rest : List Char}

theorem scanFirst?_eq (rules : List Rule) (c : Cursor) :
    scanFirst? rules c = (opening? rules c.rest).bind (·.scan? c) := by
  induction rules with
  | nil => rfl
  | cons r rules ih =>
    have hsome := isSome_scan? r c
    rw [scanFirst?, List.findSome?_cons, opening?, List.find?_cons]
    cases hr : r.scan? c with
    | none =>
      rw [hr] at hsome
      rw [← hsome]
      exact ih
    | some s =>
      rw [hr] at hsome
      rw [← hsome]
      exact hr.symm

theorem scanFirst?_eq_none (h : opening? rules c.rest = none) : scanFirst? rules c = none := by
  rw [scanFirst?_eq, h]
  rfl

theorem scanFirst?_of_firstCuts {p : Piece} (h : FirstCuts rules p rest)
    (hc : c.rest = p.text ++ rest) : scanFirst? rules c = some (p.scanned c) := by
  obtain ⟨r, hr, hcuts⟩ := h
  rw [scanFirst?_eq, hc, hr, Option.bind_some, scan?_of_cuts hcuts hc]

theorem exists_scanFirst? (h : opening? rules c.rest ≠ none) :
    ∃ s, scanFirst? rules c = some s := by
  obtain ⟨r, hr⟩ := Option.ne_none_iff_exists'.1 h
  rw [scanFirst?_eq, hr, Option.bind_some, ← Option.isSome_iff_exists, isSome_scan?]
  exact opens_of_opening? hr

theorem firstMatch_of_scanFirst? {s : Scanned} (h : scanFirst? rules c = some s) :
    firstMatch rules c = (c, some s) := by
  rw [firstMatch]
  split
  · next hs =>
    cases h.symm.trans hs
    rfl
  · next hs => cases h.symm.trans hs

theorem firstMatch_next (h : scanFirst? rules c = none) (hnext : c.next? = some (x, c')) :
    firstMatch rules c = firstMatch rules c' := by
  rw [firstMatch]
  split
  · next hs => cases h.symm.trans hs
  · split
    · next hstep =>
      cases hnext.symm.trans hstep
      rfl
    · next hstep => cases hnext.symm.trans hstep

theorem firstMatch_end (rules : List Rule) (hc : c.rest = []) :
    firstMatch rules c = (c, none) := by
  have hnone : opening? rules c.rest = none := by rw [hc, opening?_nil]
  rw [firstMatch]
  split
  · next hs => cases (scanFirst?_eq_none hnone).symm.trans hs
  · split
    · next hstep => cases (Cursor.next?_eq_none_iff.2 hc).symm.trans hstep
    · rfl

/-- The search passes over what is to be skipped. -/
theorem firstMatch_past (hblank : .blank ∈ rules) (h : Skips rules run rest)
    (hc : c.rest = run ++ rest) : firstMatch rules c = firstMatch rules (c.past run) := by
  -- The search goes by logical characters. Line breaks are blank and are not skipped, so
  -- here these are the characters of the run.
  have hreturn : ∀ x ∈ run, x ≠ '\r' := by
    rintro x hx rfl
    exact absurd (h.not_blank hblank hx) (by decide)
  have hsilent := h.silent
  clear h
  induction run generalizing c with
  | nil => rfl
  | cons x run ih =>
    have hfirst : c.rest = [x] ++ (run ++ rest) := hc
    have hnone : opening? rules c.rest = none := by
      rw [hc]
      exact hsilent _ (by simp) List.suffix_rfl
    have hnext := Cursor.next?_cons hfirst (hreturn x (by simp))
    have hothers := ih (Cursor.rest_past hfirst) (fun y hy => hreturn y (by simp [hy]))
      fun back hne hback => hsilent back hne (hback.trans (List.suffix_cons x run))
    rw [firstMatch_next (scanFirst?_eq_none hnone) hnext, hothers, Cursor.past_past]
    rfl

/-- It stops behind it. -/
theorem firstMatch_behind (hc : c.rest = run ++ rest) (h : Skips rules run rest) :
    (firstMatch rules (c.past run)).1 = c.past run := by
  have hrest := Cursor.rest_past hc
  by_cases hnil : rest = []
  · rw [firstMatch_end rules (hrest.trans hnil)]
  · obtain ⟨s, hs⟩ := exists_scanFirst? (hrest ▸ h.stops hnil)
    rw [firstMatch_of_scanFirst? hs]

end Rule

theorem Mode.blank_mem_rules (mode : Mode) : .blank ∈ mode.rules := by
  cases mode <;> simp [rules]

/-! ## The tokens of a source -/

namespace Piece

open Rule

variable {rules : List Rule} {c : Cursor}

/-- Where a rule applies, it makes the batch. -/
theorem scan_of_scanFirst? {s : Scanned} (h : scanFirst? rules c = some s) :
    Batch.scan rules c = ⟨s.tokens.map (⟨·, c⟩), s.stop⟩ := by
  rw [Batch.scan, firstMatch_of_scanFirst? h]
  simp [Batch.skipped_self]

theorem scan_at_end (rules : List Rule) (hc : c.rest = []) : Batch.scan rules c = ⟨[], c⟩ := by
  rw [Batch.scan, firstMatch_end rules hc]
  simp [Batch.skipped_self]

theorem scan_past {run rest : List Char} (hblank : .blank ∈ rules) (h : Skips rules run rest)
    (hc : c.rest = run ++ rest) :
    Batch.scan rules c =
      ⟨Batch.skipped c (c.past run) ++ (Batch.scan rules (c.past run)).lexemes,
        (Batch.scan rules (c.past run)).stop⟩ := by
  have hplace := firstMatch_behind hc h
  rw [Batch.scan, Batch.scan, firstMatch_past hblank h hc]
  generalize firstMatch rules (c.past run) = found at hplace ⊢
  obtain ⟨place, found⟩ := found
  obtain rfl : place = c.past run := hplace
  cases found with
  | none => simp [Batch.skipped_self]
  | some s => simp [Batch.skipped_self]

/-- What is skipped is reported once, and reading goes on behind it. -/
theorem readFrom_skips {run rest : List Char} (hblank : .blank ∈ rules)
    (h : Skips rules run rest) (hc : c.rest = run ++ rest) :
    Lexeme.readFrom rules c =
      Batch.skipped c (c.past run) ++ Lexeme.readFrom rules (c.past run) := by
  have hne : c.rest ≠ [] := by simp [hc, h.nonempty]
  rw [Lexeme.readFrom_batch rules hne, scan_past hblank h hc]
  -- The batch that begins with the report goes on with the batch behind it, if there is one.
  by_cases hend : (c.past run).rest = []
  · rw [scan_at_end rules hend, List.append_nil]
  · rw [Lexeme.readFrom_batch rules hend, List.append_assoc]

theorem skipped_past {run rest : List Char} (hc : c.rest = run ++ rest) (hne : run ≠ []) :
    Batch.skipped c (c.past run) =
      [⟨.ofFault .unknownToken (c.spanTo (c.past run)) (String.ofList run), c⟩] := by
  have hreads := Cursor.reads_past hc
  have hlt : c.pos.offset < (c.past run).pos.offset := by
    have hpos := List.length_pos_iff.2 hne
    rw [hreads.offset_eq]
    omega
  rw [Batch.skipped, if_pos hlt, hreads.textTo_eq]

theorem map_token_skipped {run rest : List Char} (hc : c.rest = run ++ rest) (hne : run ≠ []) :
    (Batch.skipped c (c.past run)).map Lexeme.token = (unknown run).tokensAt c.pos := by
  rw [skipped_past hc hne]
  rfl

theorem map_token_readFrom (hblank : .blank ∈ rules) {ps : List Piece} (h : Lexed rules ps)
    (hc : c.rest = join ps) : (Lexeme.readFrom rules c).map Lexeme.token = tokens c.pos ps := by
  induction h generalizing c with
  | nil =>
    rw [Lexeme.readFrom_end rules hc]
    rfl
  | @cut p ps first others ih =>
    have hs := scanFirst?_of_firstCuts first hc
    have hne : c.rest ≠ [] := by simp [hc, (Lexed.cut first others).text_ne_nil]
    have htokens :
        ((p.scanned c).tokens.map (Lexeme.mk · c)).map Lexeme.token = p.tokensAt c.pos := by
      rw [List.map_map, ← tokens_scanned hc]
      exact List.map_id _
    rw [Lexeme.readFrom_batch rules hne, scan_of_scanFirst? hs, List.map_append, htokens,
      stop_scanned, ih (Cursor.rest_past hc)]
    rfl
  | @skip run ps first _ ih =>
    have hc : c.rest = run ++ join ps := hc
    rw [readFrom_skips hblank first hc, List.map_append, ih (Cursor.rest_past hc),
      map_token_skipped hc first.nonempty]
    rfl

/-- The tokens of a text are those of its pieces. -/
theorem tokenize_join {mode : Mode} {ps : List Piece} (h : Lexed mode.rules ps) :
    tokenize mode (String.ofList (join ps)) = tokens .start ps := by
  have hc : (Cursor.start (String.ofList (join ps))).rest = join ps := String.toList_ofList
  exact map_token_readFrom mode.blank_mem_rules h hc

/-- Every source is made up of pieces. -/
theorem exists_join_eq (mode : Mode) (source : String) :
    ∃ ps, Lexed mode.rules ps ∧ source = String.ofList (join ps) := by
  obtain ⟨ps, hps, hjoin⟩ := exists_lexed mode.rules source.toList
  exact ⟨ps, hps, by rw [hjoin, String.ofList_toList]⟩

end Piece

end Scriptlet
