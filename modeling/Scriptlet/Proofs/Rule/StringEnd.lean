/-
Scriptlet.Proofs.Rule.StringEnd — where a string ends.

A string holds whatever comes behind its opening quote, up to the same quote or to a line
break. The carriage return of a line break is not in the string, for line breaks are left
whole, but every other one is. Told without reading, the content is the longest beginning
of the text that holds neither the quote nor a line feed and does not end in half a line
break (`Rule.IsContent`).

The rule for strings reads a run (`Text.Run`), and a run is the longest beginning of its
text that passes a test. So `Rule.string?_content` has to look only at what stops the run:
the quote, which belongs to the string, or the end of the line, which does not.
-/
import Scriptlet.Proofs.Rule.Applies

namespace Scriptlet.Rule

open Text Cursor

variable {quote : Char} {text content rest : List Char}

/-- A string whose opening quote the text follows may hold this beginning of the text. -/
def MayHold (quote : Char) (text content : List Char) : Prop :=
  quote ∉ content ∧ '\n' ∉ content ∧ ∃ rest, text = content ++ rest ∧ Unbroken content rest

/-- It may hold this beginning of the text and no longer one. -/
structure IsContent (quote : Char) (text content : List Char) : Prop where
  mayHold : MayHold quote text content
  longest : ∀ other, MayHold quote text other → other.length ≤ content.length

theorem isContent_of_run (body : Run (insideString quote) content rest) :
    IsContent quote (content ++ rest) content := by
  obtain ⟨hquote, hlineFeed⟩ := not_mem_of_run body
  refine ⟨⟨hquote, hlineFeed, rest, rfl, body.unbroken⟩, ?_⟩
  rintro other ⟨hquote', hlineFeed', back, heq, hunbroken⟩
  have hall := forall_insideString_iff.2 ⟨hquote', hlineFeed'⟩
  exact (body.longest heq hall hunbroken).length_le

/-- A text has one content. -/
theorem IsContent.unique {content' : List Char} (h : IsContent quote text content)
    (h' : IsContent quote text content') : content = content' := by
  obtain ⟨-, -, rest, heq, -⟩ := h.mayHold
  obtain ⟨-, -, rest', heq', -⟩ := h'.mayHold
  have hlength := Nat.le_antisymm (h'.longest _ h.mayHold) (h.longest _ h'.mayHold)
  exact (List.append_inj (heq.symm.trans heq') hlength).1

/-- Strings begin with a quote, and every quote begins a string. Behind the quote comes the
content. If the quote comes again behind the content, it closes the string. Otherwise the
line ends there; this is reported, and the line break is left to be read. -/
theorem string?_content (c : Cursor) :
    ((string? c).isSome = true ↔ ∃ quote ∈ c.rest.head?, quote = '\x27' ∨ quote = '\x22') ∧
    ∀ quote text, c.rest = quote :: text → isQuote quote = true →
      ∃ content rest s, text = content ++ rest ∧ IsContent quote text content ∧
        string? c = some s ∧
        ((∃ behind, rest = quote :: behind ∧ c.Reads (quote :: (content ++ [quote])) s.stop ∧
            s.token = ⟨.stringLiteral, c.spanTo s.stop,
              String.ofList (quote :: (content ++ [quote])),
              some (.string (String.ofList content))⟩ ∧
            s.fault = none) ∨
          ((rest = [] ∨ ∃ lineBreak, IsLineBreak lineBreak ∧ lineBreak <+: rest) ∧
            c.Reads (quote :: content) s.stop ∧ s.stop.rest = rest ∧
            s.token = ⟨.stringLiteral, c.spanTo s.stop, String.ofList (quote :: content),
              some (.string (String.ofList content))⟩ ∧
            s.fault = some (.ofFault .missingEndQuote (c.spanTo s.stop) ""))) := by
  have hsome : (string? c).isSome = c.rest.head?.any isQuote :=
    (isSome_scan? .string c).trans (opens_eq (by decide) _)
  refine ⟨?_, fun quote text hc is => ?_⟩
  · rw [hsome, Option.any_eq_true]
    simp [isQuote]
  · rw [hc, List.head?_cons, Option.any_some, is] at hsome
    obtain ⟨s, hs⟩ := Option.isSome_iff_exists.1 hsome
    obtain ⟨p, behind, hp, hcuts, rfl⟩ := makes_of_string? hs
    have hreads := Piece.reads_scanned hp
    have htoken := Piece.token_scanned hp
    have hfault := Piece.fault_scanned p c
    rw [hc] at hp
    cases hcuts with
    | string _ body =>
      simp only [List.cons_append, List.append_assoc, List.nil_append, List.cons.injEq] at hp
      obtain ⟨rfl, rfl⟩ := hp
      exact ⟨_, _, _, rfl, isContent_of_run body, hs,
        .inl ⟨behind, rfl, hreads, htoken, hfault⟩⟩
    | openString _ body never =>
      simp only [List.cons_append, List.cons.injEq] at hp
      obtain ⟨rfl, rfl⟩ := hp
      have hends : behind = [] ∨ ∃ lineBreak, IsLineBreak lineBreak ∧ lineBreak <+: behind :=
        or_iff_not_imp_left.2 fun hne =>
          lineBreak_of_firstLogical? (firstLogical?_of_never body never hne)
      have hrest := hreads.rest_eq
      rw [hc] at hrest
      have hbehind := List.append_cancel_left (List.cons.inj hrest).2
      exact ⟨_, _, _, rfl, isContent_of_run body, hs,
        .inr ⟨hends, hreads, hbehind.symm, htoken, hfault⟩⟩

/-- The other quote, a comment mark, and two carriage returns before the line feed, of which
the first one is in the string. -/
theorem string?_content_two_returns :
    let c := (Cursor.start "=\"it's /*\r\r\n").skip 1
    ∃ s, string? c = some s ∧ s.token.text = "\"it's /*\r" ∧
      s.token.value = some (.string "it's /*\r") ∧ s.fault.isSome = true ∧
      s.stop.rest = ['\r', '\n'] := by
  intro c
  have hc : c.rest = '\x22' :: "it's /*\r\r\n".toList := rfl
  have body : Run (insideString '\x22') "it's /*\r".toList ['\r', '\n'] := by
    refine ⟨forall_insideString_iff.2 ⟨by decide, by decide⟩, ?_, by simp [Unbroken]⟩
    rintro x ⟨⟩
    rfl
  have hcontent : IsContent '\x22' "it's /*\r\r\n".toList "it's /*\r".toList :=
    isContent_of_run body
  obtain ⟨content, rest, s, htext, his, hs, hcases⟩ := (string?_content c).2 _ _ hc rfl
  obtain rfl := his.unique hcontent
  have hrest : "it's /*\r".toList ++ ['\r', '\n'] = "it's /*\r".toList ++ rest := htext
  obtain rfl := List.append_cancel_left hrest
  rcases hcases with ⟨behind, hbehind, -⟩ | ⟨-, -, hstop, htoken, hfault⟩
  · cases hbehind
  · exact ⟨s, hs, by rw [htoken]; rfl, by rw [htoken]; rfl, by rw [hfault]; rfl, hstop⟩

end Scriptlet.Rule
