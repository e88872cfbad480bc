/-
Scriptlet.Proofs.RewindLog.Ledger — what a log knows after any steps, and what became of the
items that were written to it.

The order of its places (`RewindLog.Orderly`) is kept by every step, so nothing that is computed
from them is out of range: there are as many items before the read place as it says.

A ledger lists the items in the order in which they were written, and tells of each whether it
was dropped and by which step. `RewindLog.Accounts actions ledger` ties it to the steps: the
items that were not dropped are those in the log, and the items that a step dropped are those
that were unread before it. Dropping cuts the log at the read place, so of the items that are
still kept it leaves the first ones (`RewindLog.cut`), also where dropped items stand between
them in the ledger.
-/
import Mathlib.Data.List.Induction
import Scriptlet.Proofs.RewindLog.Order

namespace Scriptlet.RewindLog

variable {α : Type}

/-! ## Runs -/

/-- The log after some steps. -/
def run (log : RewindLog α) (actions : List (Action α)) : RewindLog α :=
  actions.foldl (fun log action => (log.perform action).2) log

/-- An empty log after some steps. -/
def after (actions : List (Action α)) : RewindLog α :=
  empty.run actions

theorem after_concat (actions : List (Action α)) (action : Action α) :
    after (actions ++ [action]) = ((after actions).perform action).2 := by
  rw [after, run, List.foldl_append]
  rfl

/-- What holds of a log, and of the log that a step leads to if it succeeds, holds behind the step
also if it is refused. -/
theorem settle_snd {motive : RewindLog α → Prop} {log : RewindLog α}
    {outcome : Except MarkError (RewindLog α)} (hrefused : motive log)
    (hdone : ∀ log', outcome = .ok log' → motive log') : motive (log.settle outcome).2 := by
  cases outcome with
  | ok log' => exact hdone log' rfl
  | error => exact hrefused

theorem Orderly.perform {log : RewindLog α} (h : log.Orderly) (action : Action α) :
    (log.perform action).2.Orderly := by
  cases action with
  | push item =>
    refine ⟨h.marks_descend, h.marks_le, ?_⟩
    have := h.next_le
    simp only [RewindLog.perform, push, Array.size_push]
    omega
  | peek => exact h
  | advance => exact h.advance
  | dropUnread => exact h.dropUnread
  | mark => exact h.mark
  | rewind => exact settle_snd h fun _ hr => h.rewind hr
  | release => exact settle_snd h fun _ hr => h.release hr

theorem orderly_after (actions : List (Action α)) : (after actions).Orderly := by
  induction actions using List.reverseRecOn with
  | nil => exact orderly_empty
  | append_singleton actions action ih =>
    rw [after_concat]
    exact ih.perform action

/-! ## Places in range -/

namespace Orderly

variable {log : RewindLog α}

theorem length_consumed (h : log.Orderly) : log.consumed.length = log.next := by
  rw [consumed, List.length_take, Array.length_toList]
  exact Nat.min_eq_left h.next_le

theorem next_add_unread (h : log.Orderly) : log.next + log.unread = log.items.size :=
  Nat.add_sub_cancel' h.next_le

end Orderly

theorem length_pending (log : RewindLog α) : log.pending.length = log.unread := by
  rw [pending, List.length_drop, Array.length_toList, unread]

/-! ## Ledgers -/

/-- An item that was written to a log, and the step that dropped it, if one did. -/
structure Entry (α : Type) where
  item : α
  droppedBy : Option Nat

/-- The items with one fate: still in the log, or dropped by one step. -/
def withFate (fate : Option Nat) (ledger : List (Entry α)) : List α :=
  (ledger.filter (·.droppedBy == fate)).map Entry.item

/-- The item that the step writes. -/
def Action.written? : Action α → Option α
  | .push item => some item
  | _ => none

/-- The items of the log that the step drops: those that are unread, if it is the one to drop
them. -/
def Action.dropped (log : RewindLog α) : Action α → List α
  | .dropUnread => log.pending
  | _ => []

/-- What the step with this index drops, if there is one. -/
def droppedAt (actions : List (Action α)) (index : Nat) : List α :=
  actions[index]?.elim [] (Action.dropped (after (actions.take index)))

/-- The ledger tells of every item that was written what became of it. -/
structure Accounts (actions : List (Action α)) (ledger : List (Entry α)) : Prop where
  written : ledger.map Entry.item = actions.filterMap Action.written?
  kept : withFate none ledger = (after actions).items.toList
  dropped : ∀ index, withFate (some index) ledger = droppedAt actions index

/-- The ledger after a step with this index that leaves the first `n` of the items still kept. -/
def cut (index : Nat) : Nat → List (Entry α) → List (Entry α)
  | _, [] => []
  | n, ⟨item, some earlier⟩ :: ledger => ⟨item, some earlier⟩ :: cut index n ledger
  | 0, ⟨item, none⟩ :: ledger => ⟨item, some index⟩ :: cut index 0 ledger
  | n + 1, ⟨item, none⟩ :: ledger => ⟨item, none⟩ :: cut index n ledger

/-! ### One fate -/

theorem withFate_cons (fate : Option Nat) (e : Entry α) (ledger : List (Entry α)) :
    withFate fate (e :: ledger) =
      if e.droppedBy = fate then e.item :: withFate fate ledger else withFate fate ledger := by
  by_cases h : e.droppedBy = fate <;> simp [withFate, h]

theorem withFate_append (fate : Option Nat) (ledger ledger' : List (Entry α)) :
    withFate fate (ledger ++ ledger') = withFate fate ledger ++ withFate fate ledger' := by
  rw [withFate, List.filter_append, List.map_append]
  rfl

theorem map_item_cut (index n : Nat) (ledger : List (Entry α)) :
    (cut index n ledger).map Entry.item = ledger.map Entry.item := by
  fun_induction cut index n ledger with
  | case1 => rfl
  | case2 n item earlier ledger ih => rw [List.map_cons, ih, List.map_cons]
  | case3 item ledger ih => rw [List.map_cons, ih, List.map_cons]
  | case4 n item ledger ih => rw [List.map_cons, ih, List.map_cons]

/-- The first items are still kept. -/
theorem withFate_none_cut (index n : Nat) (ledger : List (Entry α)) :
    withFate none (cut index n ledger) = (withFate none ledger).take n := by
  fun_induction cut index n ledger with
  | case1 => simp [withFate]
  | case2 n item earlier ledger ih => simpa [withFate_cons] using ih
  | case3 item ledger ih => simpa [withFate_cons] using ih
  | case4 n item ledger ih => simpa [withFate_cons] using ih

/-- The others are dropped by the step, which has dropped nothing before. -/
theorem withFate_cut_self {index : Nat} {ledger : List (Entry α)}
    (h : withFate (some index) ledger = []) (n : Nat) :
    withFate (some index) (cut index n ledger) = (withFate none ledger).drop n := by
  fun_induction cut index n ledger with
  | case1 => simp [withFate]
  | case2 n item earlier ledger ih =>
    rw [withFate_cons] at h
    split at h
    · cases h
    · next hne => simpa [withFate_cons, hne] using ih h
  | case3 item ledger ih => simpa [withFate_cons] using ih (by simpa [withFate_cons] using h)
  | case4 n item ledger ih => simpa [withFate_cons] using ih (by simpa [withFate_cons] using h)

theorem withFate_cut_of_ne {index other : Nat} (h : other ≠ index) (n : Nat)
    (ledger : List (Entry α)) :
    withFate (some other) (cut index n ledger) = withFate (some other) ledger := by
  fun_induction cut index n ledger with
  | case1 => rfl
  | case2 n item earlier ledger ih => rw [withFate_cons, withFate_cons, ih]
  | case3 item ledger ih => simpa [withFate_cons, h.symm] using ih
  | case4 n item ledger ih => simpa [withFate_cons] using ih

/-! ### One more step -/

theorem droppedAt_concat_self (actions : List (Action α)) (action : Action α) :
    droppedAt (actions ++ [action]) actions.length = action.dropped (after actions) := by
  rw [droppedAt, List.getElem?_concat_length, List.take_left]
  rfl

theorem droppedAt_length (actions : List (Action α)) : droppedAt actions actions.length = [] := by
  rw [droppedAt, List.getElem?_eq_none (Nat.le_refl _)]
  rfl

theorem droppedAt_concat_of_ne {actions : List (Action α)} {index : Nat}
    (h : index ≠ actions.length) (action : Action α) :
    droppedAt (actions ++ [action]) index = droppedAt actions index := by
  rw [droppedAt, droppedAt]
  rcases Nat.lt_or_gt_of_ne h with hlt | hgt
  · rw [List.getElem?_append_left hlt, List.take_append_of_le_length (Nat.le_of_lt hlt)]
  · rw [List.getElem?_eq_none (Nat.le_of_lt hgt), List.getElem?_eq_none]
    · rfl
    · rw [List.length_append, List.length_singleton]
      omega

namespace Accounts

variable {actions : List (Action α)} {ledger ledger' : List (Entry α)} {action : Action α}

/-- What a ledger has to do to keep up with a step. -/
theorem concat (h : Accounts actions ledger)
    (written : ledger'.map Entry.item = ledger.map Entry.item ++ action.written?.toList)
    (kept : withFate none ledger' = (after (actions ++ [action])).items.toList)
    (dropped : withFate (some actions.length) ledger' = action.dropped (after actions))
    (others : ∀ index, index ≠ actions.length →
      withFate (some index) ledger' = withFate (some index) ledger) :
    Accounts (actions ++ [action]) ledger' := by
  refine ⟨?_, kept, fun index => ?_⟩
  · rw [written, h.written, List.filterMap_append]
    cases hwritten : action.written? <;> simp [hwritten]
  · by_cases hindex : index = actions.length
    · rw [hindex, dropped, droppedAt_concat_self]
    · rw [others index hindex, h.dropped, droppedAt_concat_of_ne hindex]

theorem withFate_length (h : Accounts actions ledger) :
    withFate (some actions.length) ledger = [] := by
  rw [h.dropped, droppedAt_length]

/-- A step that neither writes nor drops changes nothing in the ledger. -/
theorem idle (h : Accounts actions ledger) (hwritten : action.written? = none)
    (hdropped : action.dropped (after actions) = [])
    (hitems : ((after actions).perform action).2.items = (after actions).items) :
    Accounts (actions ++ [action]) ledger := by
  refine h.concat ?_ ?_ ?_ fun _ _ => rfl
  · rw [hwritten, Option.toList_none, List.append_nil]
  · rw [h.kept, after_concat, hitems]
  · rw [hdropped, h.withFate_length]

theorem push (h : Accounts actions ledger) (item : α) :
    Accounts (actions ++ [.push item]) (ledger ++ [⟨item, none⟩]) := by
  refine h.concat ?_ ?_ ?_ fun index _ => ?_
  · rw [List.map_append]
    rfl
  · rw [withFate_append, h.kept, after_concat]
    exact Array.toList_push.symm
  · rw [withFate_append, h.withFate_length]
    rfl
  · rw [withFate_append]
    exact List.append_nil _

theorem dropUnread (h : Accounts actions ledger) :
    Accounts (actions ++ [.dropUnread]) (cut actions.length (after actions).next ledger) := by
  refine h.concat ?_ ?_ ?_ fun index hindex => withFate_cut_of_ne hindex _ _
  · rw [map_item_cut]
    exact (List.append_nil _).symm
  · rw [withFate_none_cut, h.kept, after_concat]
    exact (toList_dropUnread _).symm
  · rw [withFate_cut_self h.withFate_length, h.kept]
    rfl

end Accounts

theorem items_settle {log : RewindLog α} {outcome : Except MarkError (RewindLog α)}
    (h : ∀ log', outcome = .ok log' → log'.items = log.items) :
    (log.settle outcome).2.items = log.items :=
  settle_snd (motive := fun log' => log'.items = log.items) rfl h

theorem items_advance (log : RewindLog α) : log.advance.2.items = log.items := by
  unfold advance
  split <;> rfl

/-- Every item can be accounted for. -/
theorem exists_accounts (actions : List (Action α)) : ∃ ledger, Accounts actions ledger := by
  induction actions using List.reverseRecOn with
  | nil => exact ⟨[], rfl, rfl, fun index => rfl⟩
  | append_singleton actions action ih =>
    obtain ⟨ledger, h⟩ := ih
    cases action with
    | push item => exact ⟨_, h.push item⟩
    | dropUnread => exact ⟨_, h.dropUnread⟩
    | peek => exact ⟨_, h.idle rfl rfl rfl⟩
    | advance => exact ⟨_, h.idle rfl rfl (items_advance _)⟩
    | mark => exact ⟨_, h.idle rfl rfl rfl⟩
    | rewind => exact ⟨_, h.idle rfl rfl (items_settle fun _ => items_rewind)⟩
    | release => exact ⟨_, h.idle rfl rfl (items_settle fun _ => items_release)⟩

/-! ## Logs after any steps -/

/-- Only a log without marks refuses to go back, and then it stays as it was. -/
theorem perform_rewind_eq_iff (log : RewindLog α) :
    log.perform .rewind = (.refused .rewindWithoutMark, log) ↔ log.marks = [] := by
  obtain ⟨items, next, marks⟩ := log
  cases marks with
  | nil => simp [perform, rewind, settle]
  | cons place marks => simp [perform, rewind, settle]

/-- So it is with forgetting a mark. -/
theorem perform_release_eq_iff (log : RewindLog α) :
    log.perform .release = (.refused .releaseWithoutMark, log) ↔ log.marks = [] := by
  obtain ⟨items, next, marks⟩ := log
  cases marks with
  | nil => simp [perform, release, settle]
  | cons place marks => simp [perform, release, settle]

/-- After any steps the places of a log are in order, also when unread items were dropped while
there were marks, and nothing that is computed from them is out of range; every item that was
written is still there, or was unread when it was dropped; and without marks the log refuses to
use one and stays as it is. -/
theorem accounts_after (actions : List (Action α)) :
    let log := after actions
    log.Orderly ∧ log.consumed.length = log.next ∧ log.pending.length = log.unread ∧
      log.next + log.unread = log.items.size ∧
      log.dropUnread.2.items.toList = log.consumed ∧ log.dropUnread.1 = log.pending.head? ∧
      (∃ ledger, Accounts actions ledger) ∧
      (log.perform .rewind = (.refused .rewindWithoutMark, log) ↔ log.marks = []) ∧
      (log.perform .release = (.refused .releaseWithoutMark, log) ↔ log.marks = []) := by
  intro log
  have h : log.Orderly := orderly_after actions
  exact ⟨h, h.length_consumed, log.length_pending, h.next_add_unread, log.toList_dropUnread,
    log.dropUnread_fst, exists_accounts actions, log.perform_rewind_eq_iff,
    log.perform_release_eq_iff⟩

end Scriptlet.RewindLog
