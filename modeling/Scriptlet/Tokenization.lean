/-
Scriptlet.Tokenization — all the tokens of a source in one pass: batch after
batch, each from where the one before it stopped.
-/
import Scriptlet.Batch

namespace Scriptlet

namespace Lexeme

/-- Everything from a cursor to the end of the source, behind what has been
read already. -/
def readOnto (rules : List Rule) (read : Array Lexeme) (c : Cursor) : Array Lexeme :=
  if _h : c.rest = [] then read
  else
    let batch := Batch.scan rules c
    readOnto rules (read ++ batch.lexemes) batch.stop
termination_by c.rest.length
decreasing_by exact (Batch.scan_progress rules _h).2

/-- Everything from a cursor to the end of the source. -/
def readFrom (rules : List Rule) (c : Cursor) : List Lexeme :=
  (readOnto rules #[] c).toList

/-- What has been read already stays in front. -/
theorem toList_readOnto (rules : List Rule) (read : Array Lexeme) (c : Cursor) :
    (readOnto rules read c).toList = read.toList ++ readFrom rules c := by
  unfold readFrom
  induction hn : c.rest.length using Nat.strongRecOn generalizing read c with
  | ind n ih =>
    rw [readOnto, readOnto.eq_def rules #[]]
    split
    · simp
    · next h =>
      have := (Batch.scan_progress rules h).2
      rw [ih _ (hn ▸ this) _ _ rfl, ih _ (hn ▸ this) (#[] ++ _) _ rfl]
      simp

/-- Nothing is read at the end. -/
theorem readFrom_end (rules : List Rule) {c : Cursor} (h : c.rest = []) :
    readFrom rules c = [] := by
  rw [readFrom, readOnto, dif_pos h]

/-- Before the end, the first batch comes first, and the rest is read from
where it stopped. -/
theorem readFrom_batch (rules : List Rule) {c : Cursor} (h : c.rest ≠ []) :
    readFrom rules c =
      (Batch.scan rules c).lexemes ++ readFrom rules (Batch.scan rules c).stop := by
  rw [readFrom, readOnto, dif_neg h, toList_readOnto]
  simp

end Lexeme

/-- The tokens of a source, read by a list of rules. -/
def tokensBy (rules : List Rule) (source : String) : List Token :=
  (Lexeme.readFrom rules (.start source)).map Lexeme.token

/-- The tokens of a source that is written in one mode throughout. -/
def tokenize (mode : Mode) (source : String) : List Token :=
  tokensBy mode.rules source

end Scriptlet
