/-
Scriptlet.Source.Walk — a cursor that is led over a source step by step: on by one
character, past what was expected if it comes next, and back to places recorded on the way.

A place is recorded as a position only. The text behind it is the source's, so
`Cursor.ofPosition` finds it again.
-/
import Scriptlet.Source.Cursor

namespace Scriptlet

/-- A cursor on a source, and the places recorded so far, newest first. -/
structure Walk where
  source : String
  cursor : Cursor
  places : List Position

namespace Walk

/-- A walk that is about to begin. -/
def start (source : String) : Walk :=
  ⟨source, .start source, []⟩

/-- What may be asked of a walk. -/
inductive Action where
  | advance
  | skip
  | accept (x : Char)
  | acceptAny (set : List Char)
  | acceptText (literal : String)
  | snapshot
  | restore (index : Nat)

/-- What a walk answers: nothing, a character or the lack of one, or whether it went on. -/
inductive Reply where
  | done
  | char (x? : Option Char)
  | told (found : Bool)

/-- The walk with its cursor at a place further on, if there is one. -/
def goOn (w : Walk) (c? : Option Cursor) : Walk :=
  { w with cursor := c?.getD w.cursor }

/-- The walk back at a recorded place. -/
def goBack (w : Walk) (index : Nat) : Walk :=
  { w with cursor := w.places[index]?.elim w.cursor (.ofPosition w.source) }

/-- Does one thing that was asked. What was expected and does not come next leaves the
cursor where it is. -/
def perform (w : Walk) : Action → Reply × Walk
  | .advance =>
    let step? := w.cursor.next?
    (.char (step?.map Prod.fst), w.goOn (step?.map Prod.snd))
  | .skip =>
    let step? := w.cursor.next?
    (.told step?.isSome, w.goOn (step?.map Prod.snd))
  | .accept x =>
    let c? := w.cursor.accept? x
    (.told c?.isSome, w.goOn c?)
  | .acceptAny set =>
    let step? := w.cursor.nextIf? set.contains
    (.char (step?.map Prod.fst), w.goOn (step?.map Prod.snd))
  | .acceptText literal =>
    let c? := w.cursor.acceptText? literal.toList
    (.told c?.isSome, w.goOn c?)
  | .snapshot => (.done, { w with places := w.cursor.pos :: w.places })
  | .restore index => (.done, w.goBack index)

end Walk

/-- The characters that are read by going on to the end, and the cursor there. -/
def Cursor.readAll (c : Cursor) : List Char × Cursor :=
  match _h : c.next? with
  | some (x, c') =>
    let (others, stop) := c'.readAll
    (x :: others, stop)
  | none => ([], c)
termination_by c.rest.length
decreasing_by exact length_next? _h

end Scriptlet
