/-
Scriptlet.Proofs.Program.LineFeed — sources with a line feed between them.

`Program.contents_lineFeed` says that the tokens of two sources with a line feed between
them are what the tokens of each source are, white space apart: whatever the first one
ends in is ended by the line feed and has no influence on the second one. Programs with
a line feed between them are a program for this reason, since the grammar sees no more of
a token than its kind and its value, and a program behind a program is a program.
-/
import Scriptlet.Proofs.Piece.LineFeed
import Scriptlet.Proofs.Program.Acceptance

namespace Scriptlet

/-- A program behind a program is a program. -/
theorem Derives.program_append {word word' : List Terminal} (h : Derives .program word)
    (h' : Derives .program word') : Derives .program (word ++ word') := by
  cases h with
  | @program statements each =>
    cases h' with
    | @program statements' each' =>
      rw [← List.flatten_append]
      refine .program fun word hword => ?_
      rcases List.mem_append.1 hword with hword | hword
      · exact each word hword
      · exact each' word hword

namespace Token

/-- The letter that a token of this kind and value is to the grammar. -/
def terminalOf? (content : Kind × Option Value) : Option Terminal :=
  terminal? ⟨content.1, ⟨0, 0, 1, 1, 1, 0⟩, "", content.2⟩

/-- The grammar sees nothing else of the tokens. -/
theorem filterMap_terminal? (tokens : List Token) :
    tokens.filterMap terminal? = (contents tokens).filterMap terminalOf? := by
  rw [contents, List.filterMap_map, List.filterMap_filter]
  congr 1
  funext t
  obtain ⟨kind, span, text, value⟩ := t
  cases kind <;> rfl

end Token

namespace Piece

theorem mem_tokens_of_fault {ps : List Piece} {p : Piece} {fault : Fault} (hp : p ∈ ps)
    (hfault : p.fault = some fault) (pos : Position) :
    ∃ span, Token.ofFault fault span "" ∈ tokens pos ps := by
  obtain ⟨front, back, rfl⟩ := List.append_of_mem hp
  refine ⟨p.span (pos.along (join front)), ?_⟩
  rw [tokens_append, tokens, tokensAt, hfault]
  simp

end Piece

namespace Program

theorem isWellFormed_iff_derives (source : String) :
    isWellFormed source = true ↔
      Derives .program ((tokenize .breakout source).filterMap Token.terminal?) := by
  have hahead : (Session.start .breakout source).ahead
      = (tokenize .breakout source).filterMap Token.terminal? := by
    rw [tokenize, tokensBy, List.filterMap_map]
    rfl
  rw [← hahead]
  exact read_fst_iff (Session.shaped_start .breakout source)

/-- A line feed between two sources keeps their tokens apart, unless it meets a carriage
return or an open comment before it. -/
theorem contents_lineFeed (source source' : String)
    (hlast : source.toList.getLast? ≠ some '\r')
    (hclosed : ∀ t ∈ tokenize .breakout source, t.fault? ≠ some .missingEndComment) :
    Token.contents (tokenize .breakout (source ++ "\n" ++ source'))
        = Token.contents (tokenize .breakout source)
          ++ Token.contents (tokenize .breakout source') ∧
      (isWellFormed source = true → isWellFormed source' = true →
        isWellFormed (source ++ "\n" ++ source') = true) := by
  have hcontents : Token.contents (tokenize .breakout (source ++ "\n" ++ source'))
      = Token.contents (tokenize .breakout source)
        ++ Token.contents (tokenize .breakout source') := by
    obtain ⟨ps, hps, rfl⟩ := Piece.exists_join_eq .breakout source
    obtain ⟨qs, hqs, rfl⟩ := Piece.exists_join_eq .breakout source'
    rw [Piece.tokenize_join hps] at hclosed ⊢
    rw [String.toList_ofList] at hlast
    have hopen : ∀ p ∈ ps, p.fault ≠ some .missingEndComment := by
      intro p hp hfault
      obtain ⟨span, hmem⟩ := Piece.mem_tokens_of_fault hp hfault .start
      exact hclosed _ hmem rfl
    obtain ⟨rs, hlexed, hjoin, hcontents⟩ := hps.lineFeed hqs hlast hopen
    have hrs : Piece.Lexed Mode.breakout.rules rs := hlexed
    have hsource : String.ofList (Piece.join ps) ++ "\n" ++ String.ofList (Piece.join qs)
        = String.ofList (Piece.join rs) := by
      rw [← String.toList_inj]
      simp [hjoin]
    rw [hsource, Piece.tokenize_join hrs, Piece.tokenize_join hqs, Piece.contents_tokens,
      Piece.contents_tokens, Piece.contents_tokens, hcontents]
  refine ⟨hcontents, fun h h' => ?_⟩
  rw [isWellFormed_iff_derives, Token.filterMap_terminal?] at h h' ⊢
  rw [hcontents, List.filterMap_append]
  exact h.program_append h'

/-- An open string before the line feed and a number behind it: the string stays open, it
does not reach the number, and both are statements. -/
theorem contents_lineFeed_open_string :
    Token.contents (tokenize .breakout ("'a" ++ "\n" ++ "12 // b"))
        = [(.error, some (.fault .missingEndQuote)), (.stringLiteral, some (.string "a")),
          (.numberLiteral, some (.number 12)), (.comment, none)] ∧
      isWellFormed ("'a" ++ "\n" ++ "12 // b") = true := by
  have h := contents_lineFeed "'a" "12 // b" (by decide) (by decide +kernel)
  have hstring : isWellFormed "'a" = true := by
    have hword : (tokenize .breakout "'a").filterMap Token.terminal? = [.string] := by
      decide +kernel
    rw [isWellFormed_iff_derives, hword]
    have hcall := Derives.invocation .string (by simp : ∀ word ∈ [], Derives .arguments word)
    exact .program_cons (.bareStatement (.ofInvocation hcall)) .program_nil
  have hnumber : isWellFormed "12 // b" = true := by
    have hword : (tokenize .breakout "12 // b").filterMap Token.terminal? = [.number] := by
      decide +kernel
    rw [isWellFormed_iff_derives, hword]
    have hcall := Derives.invocation .number (by simp : ∀ word ∈ [], Derives .arguments word)
    exact .program_cons (.bareStatement (.ofInvocation hcall)) .program_nil
  refine ⟨h.1.trans ?_, h.2 hstring hnumber⟩
  decide +kernel

end Program

end Scriptlet
