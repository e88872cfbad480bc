/-
Scriptlet.Proofs.Text.Quoted — the quoted form of a text can be read back: it determines the
text, and where it ends if something follows it.

A character is written as itself, as a backslash and a letter, or as its code point
(`Text.Writes`). Which of the three it is can be seen from the first two characters of its form,
and the end of a code point from the brace that closes it. So no form is the beginning of another
(`Text.Writes.append_inj`), and forms in a row can be told apart (`Text.forms_append_inj`). The
same is true of numbers in digits, if what follows is not a digit (`Text.toDigits_append_inj`).

Which characters are hidden, and so written by their code points, does not matter for this: it
changes with the tables of characters, and `Text.quotedHiding_injective` holds of all tables.
-/
import Mathlib.Logic.Function.Basic
import Scriptlet.Text.Quoted

namespace Scriptlet.Text

/-! ## Texts with an end mark -/

/-- A text in which the end mark does not occur is what stands before the first end mark. -/
theorem append_cons_inj {x : Char} {text text' rest rest' : List Char} (hx : x ∉ text)
    (hx' : x ∉ text') (h : text ++ x :: rest = text' ++ x :: rest') :
    text = text' ∧ rest = rest' := by
  induction text generalizing text' with
  | nil =>
    cases text' with
    | nil => exact ⟨rfl, (List.cons.inj h).2⟩
    | cons y text' =>
      obtain rfl : x = y := (List.cons.inj h).1
      exact absurd List.mem_cons_self hx'
  | cons y text ih =>
    cases text' with
    | nil =>
      obtain rfl : y = x := (List.cons.inj h).1
      exact absurd List.mem_cons_self hx
    | cons y' text' =>
      obtain ⟨rfl, hothers⟩ := List.cons.inj h
      obtain ⟨rfl, hrest⟩ :=
        ih (List.not_mem_of_not_mem_cons hx) (List.not_mem_of_not_mem_cons hx') hothers
      exact ⟨rfl, hrest⟩

/-! ## Numbers in digits -/

/-- The digits up to base 16. -/
def isDigitChar (x : Char) : Bool :=
  (List.range 16).any fun d => Nat.digitChar d == x

theorem isDigitChar_digitChar {d : Nat} (h : d < 16) : isDigitChar d.digitChar = true := by
  rw [isDigitChar, List.any_eq_true]
  exact ⟨d, List.mem_range.2 h, beq_self_eq_true _⟩

theorem digitChar_inj {d e : Nat} (hd : d < 16) (he : e < 16) (h : d.digitChar = e.digitChar) :
    d = e := by
  have hall : ∀ d < 16, ∀ e < 16, Nat.digitChar d = Nat.digitChar e → d = e := by decide
  exact hall d hd e he h

section Digits

variable {b : Nat} (hb : 1 < b) (hb' : b ≤ 16)
include hb hb'

theorem isDigitChar_of_mem_toDigits {n : Nat} {x : Char} (hx : x ∈ Nat.toDigits b n) :
    isDigitChar x = true := by
  induction n using Nat.strongRecOn with
  | ind n ih =>
    rw [Nat.toDigits_eq_if hb] at hx
    split at hx
    · rw [List.mem_singleton.1 hx]
      exact isDigitChar_digitChar (by omega)
    · next hn =>
      rcases List.mem_append.1 hx with hx | hx
      · exact ih _ (Nat.div_lt_self (by omega) hb) hx
      · have := Nat.mod_lt n (show 0 < b by omega)
        rw [List.mem_singleton.1 hx]
        exact isDigitChar_digitChar (by omega)

theorem toDigits_inj {m n : Nat} (h : Nat.toDigits b m = Nat.toDigits b n) : m = n := by
  induction m using Nat.strongRecOn generalizing n with
  | ind m ih =>
    have hm := Nat.mod_lt m (show 0 < b by omega)
    have hn := Nat.mod_lt n (show 0 < b by omega)
    rcases Nat.lt_or_ge m b with hmb | hmb <;> rcases Nat.lt_or_ge n b with hnb | hnb
    · rw [Nat.toDigits_of_lt_base hmb, Nat.toDigits_of_lt_base hnb] at h
      exact digitChar_inj (by omega) (by omega) (List.cons.inj h).1
    · rw [Nat.toDigits_of_lt_base hmb, Nat.toDigits_of_base_le hb hnb] at h
      simpa using congrArg List.length h
    · rw [Nat.toDigits_of_base_le hb hmb, Nat.toDigits_of_lt_base hnb] at h
      simpa using congrArg List.length h
    · rw [Nat.toDigits_of_base_le hb hmb, Nat.toDigits_of_base_le hb hnb] at h
      obtain ⟨hfront, hlast⟩ := List.append_inj' h rfl
      have hdiv := ih (m / b) (Nat.div_lt_self (by omega) hb) hfront
      have hmod := digitChar_inj (by omega) (by omega) (List.cons.inj hlast).1
      rw [← Nat.div_add_mod m b, ← Nat.div_add_mod n b, hdiv, hmod]

/-- The digits of a number end before the first character that is not a digit. -/
theorem toDigits_append_inj {m n : Nat} {x : Char} {rest rest' : List Char}
    (hx : isDigitChar x = false)
    (h : Nat.toDigits b m ++ x :: rest = Nat.toDigits b n ++ x :: rest') :
    m = n ∧ rest = rest' := by
  have hnot (k : Nat) : x ∉ Nat.toDigits b k := by
    intro hmem
    rw [isDigitChar_of_mem_toDigits hb hb' hmem] at hx
    cases hx
  obtain ⟨hdigits, hrest⟩ := append_cons_inj (hnot m) (hnot n) h
  exact ⟨toDigits_inj hb hb' hdigits, hrest⟩

end Digits

/-! ## Characters -/

/-- The letter behind the backslash by which the character is written, if there is one. -/
def escapeLetter? : Char → Option Char
  | '\x22' => some '\x22'
  | '\\' => some '\\'
  | '\x00' => some '0'
  | '\t' => some 't'
  | '\n' => some 'n'
  | '\r' => some 'r'
  | _ => none

/-- The ways to write a character between quotes. -/
inductive Writes (c : Char) : List Char → Prop where
  | plain (quote : c ≠ '\x22') (backslash : c ≠ '\\') : Writes c [c]
  | letter {x : Char} (is : escapeLetter? c = some x) : Writes c ['\\', x]
  | codePoint : Writes c (hexEscape c)

/-- The form of a character, if these characters would be lost on a line of print. -/
def formHiding (hidden : Char → Bool) (c : Char) : List Char :=
  match escapeLetter? c with
  | some x => ['\\', x]
  | none => if hidden c then hexEscape c else [c]

theorem quotedChar_eq (c : Char) : quotedChar c = formHiding isHidden c := by
  rw [formHiding]
  fun_cases escapeLetter? c
  case case1 | case2 | case3 | case4 | case5 | case6 => rfl
  case case7 hquote hbackslash hnul htab hlineFeed hreturn =>
    rw [quotedChar, if_neg hquote, if_neg hbackslash, if_neg hnul, if_neg htab, if_neg hlineFeed,
      if_neg hreturn]

theorem writes_formHiding (hidden : Char → Bool) (c : Char) : Writes c (formHiding hidden c) := by
  unfold formHiding
  split
  · next x is => exact .letter is
  · next hnone =>
    split
    · exact .codePoint
    · refine .plain ?_ ?_ <;> (rintro rfl; cases hnone)

theorem escapeLetter?_inj {c d x : Char} (hc : escapeLetter? c = some x)
    (hd : escapeLetter? d = some x) : c = d := by
  unfold escapeLetter? at hc hd
  split at hc <;> cases hc <;> split at hd <;> first | rfl | cases hd

theorem escapeLetter?_ne {c : Char} : escapeLetter? c ≠ some 'u' := by
  unfold escapeLetter?
  split <;> simp

/-- A character that is written by its code point is known from it. -/
theorem hexEscape_append_inj {c d : Char} {rest rest' : List Char}
    (h : hexEscape c ++ rest = hexEscape d ++ rest') : c = d ∧ rest = rest' := by
  simp only [hexEscape, List.cons_append, List.append_assoc, List.cons.injEq, true_and,
    List.nil_append] at h
  obtain ⟨hcode, hrest⟩ := toDigits_append_inj (by decide) (by decide) (by decide) h
  exact ⟨Char.toNat_inj.1 hcode, hrest⟩

namespace Writes

variable {c d : Char} {form form' rest rest' : List Char}

/-- No form begins with a double quote. -/
theorem append_ne (h : Writes c form) : form ++ rest ≠ '\x22' :: rest' := by
  intro heq
  cases h with
  | plain hquote => exact hquote (List.cons.inj heq).1
  | letter => cases (List.cons.inj heq).1
  | codePoint => cases (List.cons.inj heq).1

/-- The form of a character determines the character, and where the form ends. -/
theorem append_inj (hc : Writes c form) (hd : Writes d form')
    (h : form ++ rest = form' ++ rest') : c = d ∧ rest = rest' := by
  cases hc with
  | plain _ hbackslash =>
    cases hd with
    | plain => exact List.cons.inj h
    | letter => exact absurd (List.cons.inj h).1 hbackslash
    | codePoint => exact absurd (List.cons.inj h).1 hbackslash
  | letter is =>
    cases hd with
    | plain _ hbackslash => exact absurd (List.cons.inj h).1.symm hbackslash
    | letter is' =>
      obtain ⟨rfl, hrest⟩ := List.cons.inj (List.cons.inj h).2
      exact ⟨escapeLetter?_inj is is', hrest⟩
    | codePoint =>
      obtain ⟨rfl, -⟩ := List.cons.inj (List.cons.inj h).2
      exact absurd is escapeLetter?_ne
  | codePoint =>
    cases hd with
    | plain _ hbackslash => exact absurd (List.cons.inj h).1.symm hbackslash
    | letter is =>
      obtain ⟨rfl, -⟩ := List.cons.inj (List.cons.inj h).2
      exact absurd is escapeLetter?_ne
    | codePoint => exact hexEscape_append_inj h

end Writes

/-! ## Texts -/

/-- Forms in a row, up to a double quote, determine the characters. -/
theorem forms_append_inj {form : Char → List Char} (hform : ∀ c, Writes c (form c))
    {cs cs' rest rest' : List Char}
    (h : cs.flatMap form ++ '\x22' :: rest = cs'.flatMap form ++ '\x22' :: rest') :
    cs = cs' ∧ rest = rest' := by
  induction cs generalizing cs' with
  | nil =>
    cases cs' with
    | nil => exact ⟨rfl, (List.cons.inj h).2⟩
    | cons d cs' =>
      rw [List.flatMap_cons, List.append_assoc] at h
      exact absurd h.symm (hform d).append_ne
  | cons c cs ih =>
    rw [List.flatMap_cons, List.append_assoc] at h
    cases cs' with
    | nil => exact absurd h (hform c).append_ne
    | cons d cs' =>
      rw [List.flatMap_cons, List.append_assoc] at h
      obtain ⟨rfl, hothers⟩ := (hform c).append_inj (hform d) h
      obtain ⟨rfl, hrest⟩ := ih hothers
      exact ⟨rfl, hrest⟩

/-- A text in the quoted form in which these characters are written by their code points. -/
def quotedHiding (hidden : Char → Bool) (text : String) : String :=
  String.ofList ('\x22' :: (text.toList.flatMap (formHiding hidden) ++ ['\x22']))

theorem quoted_eq : quoted = quotedHiding isHidden := by
  funext text
  rw [quoted, quotedChars, quotedHiding, funext quotedChar_eq]

/-- Texts with one quoted form are equal, whichever characters are taken to be hidden. -/
theorem quotedHiding_injective (hidden : Char → Bool) :
    Function.Injective (quotedHiding hidden) := by
  intro text text' h
  have hforms := (List.cons.inj (String.ofList_inj.1 h)).2
  exact String.toList_inj.1 (forms_append_inj (writes_formHiding hidden) hforms).1

end Scriptlet.Text
