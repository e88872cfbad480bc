/-
Scriptlet.Proofs.Token.Display — the description of a token says what the token is.

The description is read from the left. The name of the kind ends at the first blank, each number
of the span at the first character that is not a digit, and what is left is the value in brackets.
Its form depends on the value's constructor, which the kind decides: the name of a symbol is
written as it stands, and the content of a string in quotes, and neither could be mistaken for the
other because no two kinds carry values of one constructor.

All of this is so whichever characters are hidden in the quoted form, and the description in use
is the one that hides `Text.isHidden` (`Token.display_eq`). `Session.eq_of_display_eq` says it of
the tokens of any sessions. That they carry values of their kinds is known of the lexemes of every
batch.
-/
import Mathlib.Logic.Function.Basic
import Scriptlet.Proofs.Session.Spans
import Scriptlet.Proofs.Text.Quoted
import Scriptlet.Token.Display

namespace Scriptlet

open Text

/-! ## Kinds -/

namespace Kind

theorem name_inj {k k' : Kind} (h : k.name = k'.name) : k = k' := by
  cases k <;> cases k' <;> first | rfl | exact absurd h (by decide)

theorem blank_not_mem_name (k : Kind) : ' ' ∉ k.name.toList := by
  cases k <;> decide

end Kind

/-! ## Spans -/

namespace Span

/-- The spans have the same ends, as lines and columns. -/
structure SameLines (s s' : Span) : Prop where
  startLine_eq : s.startLine = s'.startLine
  startColumn_eq : s.startColumn = s'.startColumn
  endLine_eq : s.endLine = s'.endLine
  endColumn_eq : s.endColumn = s'.endColumn

theorem toList_display (s : Span) : s.display.toList =
    'L' :: (Nat.toDigits 10 s.startLine ++ 'C' :: (Nat.toDigits 10 s.startColumn ++
      '-' :: 'L' :: (Nat.toDigits 10 s.endLine ++ 'C' :: Nat.toDigits 10 s.endColumn))) := by
  simp [display, toString, Nat.repr_eq_ofList_toDigits]

/-- The description of a span determines its lines and columns, and where it ends. -/
theorem display_append_inj {s s' : Span} {rest rest' : List Char}
    (h : s.display.toList ++ '>' :: rest = s'.display.toList ++ '>' :: rest') :
    s.SameLines s' ∧ rest = rest' := by
  simp only [toList_display, List.cons_append, List.append_assoc, List.cons.injEq, true_and] at h
  obtain ⟨hstartLine, h⟩ := toDigits_append_inj (by decide) (by decide) (by decide) h
  obtain ⟨hstartColumn, h⟩ := toDigits_append_inj (by decide) (by decide) (by decide) h
  obtain ⟨hendLine, h⟩ :=
    toDigits_append_inj (by decide) (by decide) (by decide) (List.cons.inj h).2
  obtain ⟨hendColumn, hrest⟩ := toDigits_append_inj (by decide) (by decide) (by decide) h
  exact ⟨⟨hstartLine, hstartColumn, hendLine, hendColumn⟩, hrest⟩

end Span

/-! ## Values -/

namespace Value

/-- The kind of the tokens that carry the value. -/
def kind : Value → Kind
  | .paren .. => .paren
  | .operator _ => .operator
  | .symbol _ => .symbol
  | .string _ => .stringLiteral
  | .number _ => .numberLiteral
  | .fault _ => .error

theorem kind_of_carries {k : Kind} {v : Value} (h : k.carries (some v) = true) : v.kind = k := by
  cases k <;> cases v <;> first | rfl | cases h

/-- The description of a value, if these characters are hidden in the quoted form. -/
def displayHiding (hidden : Char → Bool) : Value → String
  | .string content => quotedHiding hidden content
  | v => v.display

theorem display_eq (v : Value) : v.display = v.displayHiding isHidden := by
  cases v with
  | string content => exact congrFun quoted_eq content
  | _ => rfl

theorem paren_display_inj {bracket bracket' : Bracket} {side side' : Side}
    (h : (paren bracket side).display = (paren bracket' side').display) :
    paren bracket side = paren bracket' side' := by
  cases bracket <;> cases side <;> cases bracket' <;> cases side' <;>
    first | rfl | exact absurd h (by decide)

theorem operator_name_inj {o o' : Operator} (h : o.name = o'.name) : o = o' := by
  cases o <;> cases o' <;> first | rfl | exact absurd h (by decide)

theorem fault_code_inj {f f' : Fault} (h : f.code = f'.code) : f = f' := by
  cases f <;> cases f' <;> first | rfl | exact absurd h (by decide)

/-- Values of tokens of one kind are known by how they are described. -/
theorem displayHiding_inj {hidden : Char → Bool} {v v' : Value} (hkind : v.kind = v'.kind)
    (h : v.displayHiding hidden = v'.displayHiding hidden) : v = v' := by
  cases v <;> cases v' <;> try cases hkind
  case paren.paren => exact paren_display_inj h
  case operator.operator => exact congrArg _ (operator_name_inj h)
  case symbol.symbol => exact congrArg _ h
  case string.string => exact congrArg _ (quotedHiding_injective hidden h)
  case number.number n n' =>
    have hdigits : Nat.toDigits 10 n.toNat = Nat.toDigits 10 n'.toNat := by
      simpa [displayHiding, display, toString, Nat.repr_eq_ofList_toDigits] using
        congrArg String.toList h
    exact congrArg _ (UInt64.toNat_inj.1 (toDigits_inj (by decide) (by decide) hdigits))
  case fault.fault => exact congrArg _ (fault_code_inj h)

end Value

/-! ## Tokens -/

namespace Token

/-- The description of a token, if these characters are hidden in the quoted form. -/
def displayHiding (hidden : Char → Bool) (t : Token) : String :=
  match t.value with
  | none => s!"{t.kind.name} <{t.span}>"
  | some v => s!"{t.kind.name} <{t.span}> ({v.displayHiding hidden})"

theorem display_eq : display = displayHiding isHidden := by
  funext ⟨kind, span, text, value⟩
  cases value with
  | none => rfl
  | some v => simp only [display, displayHiding, v.display_eq]

/-- The value in brackets behind the span, if there is one. -/
def bracketed (hidden : Char → Bool) (value : Option Value) : List Char :=
  value.elim [] fun v => ' ' :: '(' :: ((v.displayHiding hidden).toList ++ [')'])

theorem toList_displayHiding (hidden : Char → Bool) (t : Token) :
    (t.displayHiding hidden).toList = t.kind.name.toList ++
      ' ' :: '<' :: (t.span.display.toList ++ '>' :: bracketed hidden t.value) := by
  unfold displayHiding bracketed
  split
  · next hvalue => simp [hvalue, toString]
  · next v hvalue => simp [hvalue, toString]

theorem bracketed_inj {hidden : Char → Bool} {k : Kind} {value value' : Option Value}
    (hvalue : k.carries value = true) (hvalue' : k.carries value' = true)
    (h : bracketed hidden value = bracketed hidden value') : value = value' := by
  cases value with
  | none =>
    cases value' with
    | none => rfl
    | some v' => cases h
  | some v =>
    cases value' with
    | none => cases h
    | some v' =>
      have hkind : v.kind = v'.kind :=
        (Value.kind_of_carries hvalue).trans (Value.kind_of_carries hvalue').symm
      have hdisplay := List.append_cancel_right (List.cons.inj (List.cons.inj h).2).2
      exact congrArg some (Value.displayHiding_inj hkind (String.toList_inj.1 hdisplay))

/-- Tokens that carry values of their kinds are known by their descriptions, except for their
offsets and texts. -/
theorem displayHiding_inj {hidden : Char → Bool} {a b : Token}
    (ha : a.kind.carries a.value = true) (hb : b.kind.carries b.value = true)
    (h : a.displayHiding hidden = b.displayHiding hidden) :
    a.kind = b.kind ∧ a.value = b.value ∧ a.span.SameLines b.span := by
  have hchars := congrArg String.toList h
  rw [toList_displayHiding, toList_displayHiding] at hchars
  obtain ⟨hname, hchars⟩ :=
    append_cons_inj a.kind.blank_not_mem_name b.kind.blank_not_mem_name hchars
  have hkind : a.kind = b.kind := Kind.name_inj (String.toList_inj.1 hname)
  obtain ⟨hspan, hbracketed⟩ := Span.display_append_inj (List.cons.inj hchars).2
  rw [← hkind] at hb
  exact ⟨hkind, bracketed_inj ha hb hbracketed, hspan⟩

end Token

/-! ## Sessions -/

namespace Session

/-- The tokens of a session carry values of their kinds. -/
theorem Offers.carries {mode : Mode} {source : String} {actions : List Action} {t : Token}
    (h : (after mode source actions).Offers t) : t.kind.carries t.value = true := by
  obtain ⟨l, hl, rfl⟩ := h.mem_stream (sound_after mode source actions).orderly
  exact forall_mem_stream (fun _ _ _ => Batch.carries_of_mem_scan) mode source actions l hl

/-- Tokens with one description are of one kind, carry one value, and have the same lines and
columns, whichever sessions on whichever sources they come up in; and the quoted form of any text
determines the text. Both are so whichever characters are hidden, the description in use being
the one that hides `isHidden`. -/
theorem eq_of_display_eq :
    (∀ hidden, Function.Injective (quotedHiding hidden)) ∧ quoted = quotedHiding isHidden ∧
      Token.display = Token.displayHiding isHidden ∧
      ∀ (hidden : Char → Bool) (mode mode' : Mode) (source source' : String)
        (actions actions' : List Action) (a b : Token),
        (after mode source actions).Offers a → (after mode' source' actions').Offers b →
        a.displayHiding hidden = b.displayHiding hidden →
        a.kind = b.kind ∧ a.value = b.value ∧ a.span.SameLines b.span := by
  refine ⟨quotedHiding_injective, quoted_eq, Token.display_eq, ?_⟩
  intro hidden mode mode' source source' actions actions' a b ha hb h
  exact Token.displayHiding_inj ha.carries hb.carries h

/-- A combining accent and a sound mark, between quotes of either kind and in either line ending:
the descriptions agree, also if the sound mark is hidden with all the marks that extend the
character before them; the offsets and the texts do not. -/
theorem eq_of_display_eq_either_quote :
    let marks : Char → Bool := fun c => !isPrintable c || isGraphemeExtend c
    let a : Token :=
      ⟨.stringLiteral, ⟨1, 5, 2, 1, 2, 4⟩, "'\u0301\uFF9E'", some (.string "\u0301\uFF9E")⟩
    let b : Token :=
      ⟨.stringLiteral, ⟨2, 6, 2, 1, 2, 4⟩, "\"\u0301\uFF9E\"", some (.string "\u0301\uFF9E")⟩
    (after .breakout "\n'\u0301\uFF9E'" [.consume, .mark]).Offers a ∧
      (after .http "\r\n\"\u0301\uFF9E\"" [.peek, .consume, .setMode .breakout]).Offers b ∧
      a.display = "StringLiteral <L2C1-L2C4> (\"\\u\x7b301\x7d\uFF9E\")" ∧
      a.displayHiding marks =
        "StringLiteral <L2C1-L2C4> (\"\\u\x7b301\x7d\\u\x7bff9e\x7d\")" ∧
      a.display = b.display ∧ a.displayHiding marks = b.displayHiding marks ∧ a.text ≠ b.text ∧
      a.kind = b.kind ∧ a.value = b.value ∧ a.span.SameLines b.span := by
  intro marks a b
  have ha : (after .breakout "\n'\u0301\uFF9E'" [.consume, .mark]).Offers a :=
    .inl (by decide +kernel)
  have hb : (after .http "\r\n\"\u0301\uFF9E\"" [.peek, .consume, .setMode .breakout]).Offers b :=
    .inl (by decide +kernel)
  have hdisplay : a.display = b.display := by decide +kernel
  have hmarks : a.displayHiding marks = b.displayHiding marks := by decide +kernel
  exact ⟨ha, hb, by decide +kernel, by decide +kernel, hdisplay, hmarks, by decide,
    eq_of_display_eq.2.2.2 marks _ _ _ _ _ _ a b ha hb hmarks⟩

end Session

end Scriptlet
