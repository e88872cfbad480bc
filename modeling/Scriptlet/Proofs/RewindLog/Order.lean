/-
Scriptlet.Proofs.RewindLog.Order — the places that a log knows are in order:
newer marks do not lie before older ones, the read place does not lie before any
mark, and the end of the log does not lie before the read place.

`RewindLog.Orderly` is this invariant. A mark stays good when the unread items
are dropped, for the cut is made at the read place, and that is why the order of
the whole stack belongs to the invariant: going back to the last mark makes its
place the read place, and the marks below it must not lie beyond.
-/
import Scriptlet.RewindLog

namespace Scriptlet.RewindLog

variable {α : Type}

/-- Marks, read place and end of a log follow one another. -/
structure Orderly (log : RewindLog α) : Prop where
  marks_descend : log.marks.Pairwise (· ≥ ·)
  marks_le : ∀ place ∈ log.marks, place ≤ log.next
  next_le : log.next ≤ log.items.size

theorem orderly_empty : (empty : RewindLog α).Orderly :=
  ⟨.nil, by simp [empty], Nat.le_refl _⟩

/-! ## What the operations do to the two views -/

theorem consumed_append_pending (log : RewindLog α) :
    log.consumed ++ log.pending = log.items.toList :=
  List.take_append_drop ..

theorem toList_append (log : RewindLog α) (items : List α) :
    (log.append items).items.toList = log.items.toList ++ items :=
  Array.toList_appendList

theorem toList_dropUnread (log : RewindLog α) : log.dropUnread.2.items.toList = log.consumed := by
  simp [dropUnread, consumed]

theorem dropUnread_fst (log : RewindLog α) : log.dropUnread.1 = log.pending.head? := by
  simp [dropUnread, peek?, pending]

theorem consumed_dropUnread (log : RewindLog α) : log.dropUnread.2.consumed = log.consumed := by
  rw [consumed, toList_dropUnread, consumed]
  exact List.take_take.trans (by rw [show log.dropUnread.2.next = log.next from rfl, Nat.min_self])

theorem items_rewind {log log' : RewindLog α} (h : log.rewind = .ok log') :
    log'.items = log.items := by
  unfold rewind at h
  split at h <;> cases h
  rfl

theorem items_release {log log' : RewindLog α} (h : log.release = .ok log') :
    log'.items = log.items := by
  unfold release at h
  split at h <;> cases h
  rfl

/-! ## The operations keep the order -/

namespace Orderly

variable {log log' : RewindLog α}

theorem append (h : log.Orderly) (items : List α) : (log.append items).Orderly := by
  refine ⟨h.marks_descend, h.marks_le, ?_⟩
  have := h.next_le
  rw [size_append]
  show log.next ≤ _
  omega

theorem advance (h : log.Orderly) : log.advance.2.Orderly := by
  unfold RewindLog.advance
  split
  · next item hi =>
    have hlt : log.next < log.items.size := (Array.getElem?_eq_some_iff.1 hi).1
    refine ⟨h.marks_descend, ?_, hlt⟩
    intro place hp
    exact Nat.le_succ_of_le (h.marks_le place hp)
  · exact h

theorem dropUnread (h : log.Orderly) : log.dropUnread.2.Orderly := by
  refine ⟨h.marks_descend, h.marks_le, ?_⟩
  have := h.next_le
  simp only [RewindLog.dropUnread, Array.size_shrink]
  omega

theorem mark (h : log.Orderly) : log.mark.Orderly := by
  refine ⟨.cons h.marks_le h.marks_descend, ?_, h.next_le⟩
  intro place hp
  rcases List.mem_cons.1 hp with rfl | hp
  · exact Nat.le_refl _
  · exact h.marks_le place hp

theorem rewind (h : log.Orderly) (hr : log.rewind = .ok log') : log'.Orderly := by
  obtain ⟨items, next, marks⟩ := log
  cases marks with
  | nil => cases hr
  | cons place marks =>
    cases hr
    obtain ⟨hd, hm, hn⟩ := h
    rw [List.pairwise_cons] at hd
    exact ⟨hd.2, hd.1, Nat.le_trans (hm place List.mem_cons_self) hn⟩

theorem release (h : log.Orderly) (hr : log.release = .ok log') : log'.Orderly := by
  obtain ⟨items, next, marks⟩ := log
  cases marks with
  | nil => cases hr
  | cons place marks =>
    cases hr
    obtain ⟨hd, hm, hn⟩ := h
    rw [List.pairwise_cons] at hd
    exact ⟨hd.2, fun m hm' => hm m (List.mem_cons_of_mem _ hm'), hn⟩

end Orderly

end Scriptlet.RewindLog
