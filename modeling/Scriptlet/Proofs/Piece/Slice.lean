/-
Scriptlet.Proofs.Piece.Slice — the tokens of a slice of a source are the slice of its
tokens, if the source is cut between tokens.

A place between tokens is told by the number `k` of tokens in front of it, and lies
behind their texts (`Token.extent`). A fault and the token that it is about have one
text between them, so there is no place between those two (`Token.isBehindFault`).

`tokenize_slice` is about two such places: the tokens of what lies in front of one, of
what lies behind it, and of what lies between the two are those that the whole source
has there. Offsets count from where a text begins, hence `Token.ShiftedBy`.
-/
import Mathlib.Data.List.Forall2
import Scriptlet.Proofs.Piece.Reading
import Scriptlet.Proofs.Session.Spans

namespace Scriptlet

/-! ## Places between tokens -/

namespace Token

/-- The number of characters in the texts of some tokens. -/
def extent (tokens : List Token) : Nat :=
  (String.join (tokens.map text)).length

theorem extent_eq (tokens : List Token) :
    extent tokens = (tokens.flatMap (·.text.toList)).length := by
  rw [extent, ← String.length_toList, String.toList_join, List.flatMap_map]

/-- Whether the token with this index is what the fault before it is about. -/
def isBehindFault (tokens : List Token) (k : Nat) : Bool :=
  (tokens.take k).getLast?.any isAttached

/-- The tokens are the same, and the second one has so many more characters before it. -/
structure ShiftedBy (distance : Nat) (t t' : Token) : Prop where
  kind_eq : t'.kind = t.kind
  text_eq : t'.text = t.text
  value_eq : t'.value = t.value
  startOffset_eq : t'.span.startOffset = t.span.startOffset + distance
  endOffset_eq : t'.span.endOffset = t.span.endOffset + distance

theorem isBehindFault_take {tokens : List Token} {j k : Nat} (h : j ≤ k) :
    isBehindFault (tokens.take k) j = isBehindFault tokens j := by
  rw [isBehindFault, List.take_take, Nat.min_eq_left h, isBehindFault]

/-- The tokens in front of others have no influence, unless the last of them is asked about. -/
theorem isBehindFault_of_append {front tokens : List Token} {k : Nat}
    (h : isBehindFault (front ++ tokens) (front.length + k) = false) :
    isBehindFault tokens k = false := by
  rw [isBehindFault, List.take_append, List.take_of_length_le (Nat.le_add_right _ _),
    Nat.add_sub_cancel_left, List.getLast?_append] at h
  rw [isBehindFault]
  cases hlast : (tokens.take k).getLast? with
  | none => rfl
  | some t =>
    rw [hlast, Option.some_or] at h
    exact h

end Token

/-! ## Slices -/

theorem slice_eq {source : String} {start stop : Nat} (front text back : List Char)
    (hsource : source.toList = front ++ (text ++ back)) (hstart : start = front.length)
    (hstop : stop = front.length + text.length) : slice source start stop = String.ofList text := by
  rw [slice, hsource, hstart, hstop, List.drop_left, Nat.add_sub_cancel_left, List.take_left]

/-! ## Pieces -/

namespace Piece

open Token

variable {mode : Mode} {rules : List Rule} {pos pos' : Position} {ps qs rs : List Piece}

theorem extent_tokens (pos : Position) (ps : List Piece) :
    extent (tokens pos ps) = (join ps).length := by
  rw [extent_eq, flatMap_text_tokens]

/-- Where pieces stand shifts their tokens. -/
theorem shifted_tokens {distance : Nat} (h : pos'.offset = pos.offset + distance)
    (ps : List Piece) :
    List.Forall₂ (ShiftedBy distance) (tokens pos ps) (tokens pos' ps) := by
  induction ps generalizing pos pos' with
  | nil => exact .nil
  | cons p ps ih =>
    have hbehind : (pos'.along p.text).offset = (pos.along p.text).offset + distance := by
      rw [Position.offset_along, Position.offset_along, h]
      omega
    have hspan (t t' : Token) (ht : t.span = p.span pos) (ht' : t'.span = p.span pos')
        (hkind : t'.kind = t.kind) (htext : t'.text = t.text) (hvalue : t'.value = t.value) :
        ShiftedBy distance t t' := by
      refine ⟨hkind, htext, hvalue, ?_, ?_⟩
      · rw [ht, ht']
        exact h
      · rw [ht, ht']
        exact hbehind
    refine List.rel_append (List.rel_append ?_ ?_) (ih hbehind)
    · cases p.fault with
      | none => exact .nil
      | some fault => exact .cons (hspan _ _ rfl rfl rfl rfl rfl) .nil
    · exact .cons (hspan _ _ rfl rfl rfl rfl rfl) .nil

theorem Lexed.known (h : Lexed rules ps) : ∀ p ∈ ps, p.fault ≠ some .unknownToken := by
  induction h with
  | nil => simp
  | cut first _ ih =>
    obtain ⟨r, -, hcuts⟩ := first
    exact List.forall_mem_cons.2 ⟨hcuts.known, ih⟩
  | skip _ _ ih => exact List.forall_mem_cons.2 ⟨by simp [unknown], ih⟩

/-- A place between tokens is a place between pieces. -/
theorem exists_split (known : ∀ p ∈ ps, p.fault ≠ some .unknownToken) (pos : Position) (k : Nat)
    (h : isBehindFault (tokens pos ps) k = false) :
    ∃ qs rs, ps = qs ++ rs ∧ tokens pos qs = (tokens pos ps).take k ∧
      tokens (pos.along (join qs)) rs = (tokens pos ps).drop k := by
  induction ps generalizing pos k with
  | nil => exact ⟨[], [], rfl, by simp [tokens], by simp [tokens]⟩
  | cons p ps ih =>
    by_cases hk : (p.tokensAt pos).length ≤ k
    · obtain ⟨k, rfl⟩ := Nat.exists_eq_add_of_le hk
      rw [tokens] at h
      obtain ⟨qs, rs, hps, hqs, hrs⟩ := ih (fun q hq => known q (by simp [hq]))
        (pos.along p.text) k (isBehindFault_of_append h)
      refine ⟨p :: qs, rs, by rw [hps, List.cons_append], ?_, ?_⟩
      · rw [tokens, hqs, tokens, List.take_length_add_append]
      · rw [join_cons, Position.along_append, hrs, tokens, List.drop_length_add_append]
    · -- The place is before the piece, or inside it, between its fault and its token.
      cases k with
      | zero => exact ⟨[], p :: ps, rfl, rfl, rfl⟩
      | succ k =>
        cases hfault : p.fault with
        | none => simp [tokensAt, hfault] at hk
        | some fault =>
          have hknown := known p (by simp)
          simp only [tokensAt, hfault, Option.toList_some, List.map_cons, List.map_nil,
            List.length_append, List.length_cons, List.length_nil] at hk
          obtain rfl : k = 0 := by omega
          have hattached : (ofFault fault (p.span pos) "").isAttached = false := by
            simpa [isBehindFault, tokens, tokensAt, hfault] using h
          rw [isAttached_ofFault, bne_eq_false_iff_eq] at hattached
          rw [hfault, hattached] at hknown
          exact absurd rfl hknown

theorem Lexed.split (hblank : .blank ∈ rules) (h : Lexed rules ps) (pos : Position) (k : Nat)
    (hk : isBehindFault (tokens pos ps) k = false) :
    ∃ qs rs, ps = qs ++ rs ∧ Lexed rules qs ∧ Lexed rules rs ∧
      tokens pos qs = (tokens pos ps).take k ∧
      tokens (pos.along (join qs)) rs = (tokens pos ps).drop k := by
  obtain ⟨qs, rs, rfl, hqs, hrs⟩ := exists_split h.known pos k hk
  obtain ⟨hfront, hback⟩ := h.of_append hblank
  exact ⟨qs, rs, rfl, hfront, hback, hqs, hrs⟩

end Piece

/-! ## Sources -/

open Piece

/-- If a source is cut between tokens, its tokens are cut there: those in front of the
place `k` keep even their spans, those behind it, and those between `j` and `k`, are
shifted by what is missing in front of them. -/
theorem tokenize_slice (mode : Mode) (source : String) {j k : Nat} (hjk : j ≤ k)
    (hj : Token.isBehindFault (tokenize mode source) j = false)
    (hk : Token.isBehindFault (tokenize mode source) k = false) :
    let tokens := tokenize mode source
    let start := Token.extent (tokens.take j)
    let stop := Token.extent (tokens.take k)
    tokenize mode (slice source 0 stop) = tokens.take k ∧
      List.Forall₂ (Token.ShiftedBy stop) (tokenize mode (slice source stop source.length))
        (tokens.drop k) ∧
      List.Forall₂ (Token.ShiftedBy start) (tokenize mode (slice source start stop))
        ((tokens.take k).drop j) := by
  dsimp only
  obtain ⟨ps, hps, rfl⟩ := exists_join_eq mode source
  rw [tokenize_join hps] at hj hk ⊢
  obtain ⟨qs, rs, rfl, hqs, hrs, htake, hdrop⟩ := hps.split mode.blank_mem_rules .start k hk
  rw [← Token.isBehindFault_take hjk, ← htake] at hj
  obtain ⟨qs, ms, rfl, -, hms, htake', hdrop'⟩ := hqs.split mode.blank_mem_rules .start j hj
  -- The source is now `qs`, `ms` and `rs`, and the places are before and behind `ms`.
  have hfront : (tokens .start (qs ++ ms ++ rs)).take j = tokens .start qs := by
    rw [htake', htake, List.take_take, Nat.min_eq_left hjk]
  have hshift (ps : List Piece) :
      (Position.start.along (join ps)).offset = Position.start.offset + (join ps).length :=
    Position.offset_along ..
  rw [hfront, ← htake, ← hdrop, ← hdrop', extent_tokens, extent_tokens]
  generalize hsource : String.ofList (join (qs ++ ms ++ rs)) = source
  have htext : source.toList = join qs ++ (join ms ++ join rs) := by simp [← hsource]
  have hlength : source.length = (join qs).length + ((join ms).length + (join rs).length) := by
    simp [← String.length_toList, htext]
  refine ⟨?_, ?_, ?_⟩
  · have hslice : slice source 0 (join (qs ++ ms)).length = String.ofList (join (qs ++ ms)) :=
      slice_eq [] _ (join rs) (by simp [htext]) rfl (by simp)
    rw [hslice, tokenize_join hqs]
  · have hslice : slice source (join (qs ++ ms)).length source.length = String.ofList (join rs) :=
      slice_eq (join (qs ++ ms)) _ [] (by simp [htext]) rfl (by simp [hlength, Nat.add_assoc])
    rw [hslice, tokenize_join hrs]
    exact shifted_tokens (hshift (qs ++ ms)) rs
  · have hslice : slice source (join qs).length (join (qs ++ ms)).length
        = String.ofList (join ms) :=
      slice_eq (join qs) _ (join rs) htext rfl (by simp)
    rw [hslice, tokenize_join hms]
    exact shifted_tokens (hshift qs) ms

/-- An open string, a line break and a number: the line break is a token of its own, and
both ends of it are places to cut at. -/
theorem tokenize_slice_behind_open_string :
    let tokens := tokenize .breakout "'a\n12"
    Token.isBehindFault tokens 2 = false ∧ Token.isBehindFault tokens 3 = false ∧
      Token.extent (tokens.take 2) = 2 ∧ Token.extent (tokens.take 3) = 3 ∧
      tokenize .breakout (slice "'a\n12" 0 3) = tokens.take 3 ∧
      List.Forall₂ (Token.ShiftedBy 2) (tokenize .breakout (slice "'a\n12" 2 3))
        ((tokens.take 3).drop 2) := by
  have hj : Token.isBehindFault (tokenize .breakout "'a\n12") 2 = false := by decide +kernel
  have hk : Token.isBehindFault (tokenize .breakout "'a\n12") 3 = false := by decide +kernel
  have hstart : Token.extent ((tokenize .breakout "'a\n12").take 2) = 2 := by decide +kernel
  have hstop : Token.extent ((tokenize .breakout "'a\n12").take 3) = 3 := by decide +kernel
  have h := tokenize_slice .breakout "'a\n12" (by decide) hj hk
  dsimp only at h
  rw [hstart, hstop] at h
  exact ⟨hj, hk, hstart, hstop, h.1, h.2.2⟩

end Scriptlet
