/-
Scriptlet.RewindLog — a log that is written at its end and read from a movable
place. Marks remember places to come back to: `rewind` goes back to the last
mark, `release` forgets it, and neither takes anything out of the log. Only
`dropUnread` does.

The two views of a log are `consumed` (what lies before the read place) and
`pending` (what lies behind it).
-/

namespace Scriptlet

/-- A log of items, the number of items read, and the marks, newest first. -/
structure RewindLog (α : Type) where
  items : Array α
  next : Nat
  marks : List Nat

/-- What goes wrong when a log without marks is asked to use the last one. -/
inductive MarkError where
  | rewindWithoutMark
  | releaseWithoutMark
deriving DecidableEq

/-- The wording of the error. -/
def MarkError.message : MarkError → String
  | .rewindWithoutMark => "pop_restore_point called without an active restore point"
  | .releaseWithoutMark => "discard_restore_point called without an active restore point"

namespace RewindLog

variable {α : Type}

/-- A log without items. -/
def empty : RewindLog α :=
  ⟨#[], 0, []⟩

/-- Writes an item at the end. -/
def push (log : RewindLog α) (item : α) : RewindLog α :=
  { log with items := log.items.push item }

/-- Writes several items at the end. -/
def append (log : RewindLog α) (items : List α) : RewindLog α :=
  { log with items := log.items ++ items }

/-- Writing items lengthens the log by their number. -/
theorem size_append (log : RewindLog α) (items : List α) :
    (log.append items).items.size = log.items.size + items.length := by
  rw [← Array.length_toList, append, Array.toList_appendList, List.length_append,
    Array.length_toList]

/-- The next item to be read. -/
def peek? (log : RewindLog α) : Option α :=
  log.items[log.next]?

/-- Reads the next item. -/
def advance (log : RewindLog α) : Option α × RewindLog α :=
  match log.peek? with
  | some item => (some item, { log with next := log.next + 1 })
  | none => (none, log)

/-- How many items are still to be read. -/
def unread (log : RewindLog α) : Nat :=
  log.items.size - log.next

/-- The items that have been read. -/
def consumed (log : RewindLog α) : List α :=
  log.items.toList.take log.next

/-- The items that are still to be read. -/
def pending (log : RewindLog α) : List α :=
  log.items.toList.drop log.next

/-- Takes out the items that are still to be read, and tells the first of them. -/
def dropUnread (log : RewindLog α) : Option α × RewindLog α :=
  (log.peek?, { log with items := log.items.shrink log.next })

/-- There is a next item only while some are unread. -/
theorem unread_pos_iff {log : RewindLog α} : 0 < log.unread ↔ log.peek?.isSome := by
  simp only [unread, peek?, Option.isSome_iff_ne_none, ne_eq, Array.getElem?_eq_none_iff]
  omega

/-- Reading the next item leaves one fewer unread. -/
theorem unread_advance {log : RewindLog α} (h : 0 < log.unread) :
    log.advance.2.unread + 1 = log.unread := by
  obtain ⟨item, hi⟩ := Option.isSome_iff_exists.1 (unread_pos_iff.1 h)
  simp only [advance, hi, unread] at *
  omega

/-! ## Marks -/

/-- Marks the read place. -/
def mark (log : RewindLog α) : RewindLog α :=
  { log with marks := log.next :: log.marks }

/-- Goes back to the last mark and forgets it. -/
def rewind (log : RewindLog α) : Except MarkError (RewindLog α) :=
  match log.marks with
  | place :: marks => .ok { log with next := place, marks := marks }
  | [] => .error .rewindWithoutMark

/-- Forgets the last mark and stays where it is. -/
def release (log : RewindLog α) : Except MarkError (RewindLog α) :=
  match log.marks with
  | _ :: marks => .ok { log with marks := marks }
  | [] => .error .releaseWithoutMark

/-- How many marks there are. -/
def depth (log : RewindLog α) : Nat :=
  log.marks.length

/-! ## One step at a time -/

/-- What may be done to a log. -/
inductive Action (α : Type) where
  | push (item : α)
  | peek
  | advance
  | dropUnread
  | mark
  | rewind
  | release

/-- What a log answers: nothing, an item or the lack of one, or an error. -/
inductive Reply (α : Type) where
  | done
  | item (item? : Option α)
  | refused (error : MarkError)

/-- The answer of a step that succeeds with nothing to tell, and the log after
it; a refused step leaves the log as it was. -/
def settle (log : RewindLog α) : Except MarkError (RewindLog α) → Reply α × RewindLog α
  | .ok log' => (.done, log')
  | .error e => (.refused e, log)

/-- Does one thing to a log. -/
def perform (log : RewindLog α) : Action α → Reply α × RewindLog α
  | .push item => (.done, log.push item)
  | .peek => (.item log.peek?, log)
  | .advance =>
    let (item?, log') := log.advance
    (.item item?, log')
  | .dropUnread =>
    let (item?, log') := log.dropUnread
    (.item item?, log')
  | .mark => (.done, log.mark)
  | .rewind => log.settle log.rewind
  | .release => log.settle log.release

end RewindLog

end Scriptlet
