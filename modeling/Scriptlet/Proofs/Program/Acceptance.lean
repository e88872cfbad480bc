/-
Scriptlet.Proofs.Program.Acceptance — which sources are programs.

The grammar knows words of terminals and a source has tokens, so both speak of the
word that the tokens spell (`Spells`). What a search does to the word that is still
to come is the matter of `Scriptlet.Proofs.Recognition`; here it is taken back to
sessions (`Program.read_outcome`) and to sources:
`Program.isWellFormed_iff_grammatical` says that the grammar and the recogniser know
the same programs.
-/
import Scriptlet.Program
import Scriptlet.Proofs.Recognition.Outcome
import Scriptlet.Tokenization

namespace Scriptlet

/-! ## Tokens and words -/

/-- The tokens that the grammar sees. -/
def significant (tokens : List Token) : List Token :=
  tokens.filter Token.isSignificant

/-- Each token is a terminal, and together they are the word. -/
def Spells (tokens : List Token) (word : List Terminal) : Prop :=
  tokens.map Token.terminal? = word.map some

/-- The tokens spell a word that the grammar derives from a program. -/
def Grammatical (tokens : List Token) : Prop :=
  ∃ word, Spells tokens word ∧ Derives .program word

theorem significant_append (tokens tokens' : List Token) :
    significant (tokens ++ tokens') = significant tokens ++ significant tokens' :=
  List.filter_append ..

theorem spells_significant {ls : List Lexeme}
    (h : ∀ l ∈ ls, l.token.kind.carries l.token.value = true) :
    Spells (significant (ls.map Lexeme.token)) (ls.filterMap fun l => l.token.terminal?) := by
  unfold Spells significant
  induction ls with
  | nil => rfl
  | cons l ls ih =>
    have ih := ih fun l hl => h l (List.mem_cons_of_mem _ hl)
    have hsome := Token.isSome_terminal? (h l List.mem_cons_self)
    rw [List.map_cons, List.filterMap_cons]
    cases ht : l.token.terminal? with
    | none =>
      rw [ht] at hsome
      rw [List.filter_cons_of_neg (by simp [← hsome])]
      exact ih
    | some x =>
      rw [ht] at hsome
      rw [List.filter_cons_of_pos (by simp [← hsome]), List.map_cons, List.map_cons, ht, ih]

namespace Spells

variable {tokens tokens' : List Token} {word word' : List Terminal}

theorem length_eq (h : Spells tokens word) : tokens.length = word.length := by
  have := congrArg List.length h
  simpa using this

theorem eq (h : Spells tokens word) (h' : Spells tokens word') : word = word' := by
  have hmap : word.map some = word'.map some := h.symm.trans h'
  exact (List.map_inj_right fun _ _ => Option.some.inj).1 hmap

/-- Tokens are a program if the one word that they spell is. -/
theorem grammatical_iff (h : Spells tokens word) :
    Grammatical tokens ↔ Derives .program word := by
  constructor
  · rintro ⟨word', h', hderives⟩
    rw [h.eq h']
    exact hderives
  · intro hderives
    exact ⟨word, h, hderives⟩

theorem of_append (h : Spells (tokens ++ tokens') word) :
    ∃ u v, word = u ++ v ∧ Spells tokens u ∧ Spells tokens' v := by
  unfold Spells at h
  rw [List.map_append] at h
  obtain ⟨u, v, rfl, hu, hv⟩ := List.map_eq_append_iff.1 h.symm
  exact ⟨u, v, rfl, hu.symm, hv.symm⟩

end Spells

/-! ## Sessions and words -/

namespace Session

variable {s : Session}

theorem Shaped.spells_stream (h : s.Shaped) :
    Spells (significant (s.stream.map Lexeme.token))
      (s.stream.filterMap fun l => l.token.terminal?) :=
  spells_significant h.carries

/-- The tokens to come spell the terminals to come. -/
theorem Shaped.spells_drain (h : s.Shaped) : Spells (significant s.drain.1) s.ahead := by
  rw [drain_fst h.orderly]
  exact spells_significant fun l hl => h.carries l (List.mem_of_mem_drop hl)

/-- The significant tokens handed out and those to come are all there are. -/
theorem Shaped.significant_consumed (h : s.Shaped) :
    significant s.consumed ++ significant s.drain.1
      = significant (s.stream.map Lexeme.token) := by
  rw [← significant_append, consumed_append_drain h.orderly]

end Session

namespace Program

/-! ## Programs -/

/-- Reading a session does to the word to come what a search for a program does. -/
theorem takes_of_read {s s' : Session} {found : Bool} (hs : s.Shaped)
    (h : read s = (found, s')) :
    Pattern.Takes (.phrase .program) s.ahead found s'.ahead ∧ s'.Shaped ∧
      s'.stream = s.stream :=
  (read_eq_iff.1 h).takes hs

/-- The terminals that are read are the longest program that the word to come begins
with. Reading succeeds at the end, and fails only before a terminal that opens no
expression. -/
theorem read_outcome {s s' : Session} {found : Bool} (hs : s.Shaped)
    (h : read s = (found, s')) :
    ∃ u, s.ahead = u ++ s'.ahead ∧ Derives .program u ∧
      (∀ word, word <+: s.ahead → Derives .program word → word <+: u) ∧
      (found = true ∧ s'.ahead = [] ∨
        found = false ∧ ∃ x m, s'.ahead = x :: m ∧ x.opensExpression = false) := by
  obtain ⟨htakes, -, -⟩ := takes_of_read hs h
  obtain ⟨u, hu, hprogram, hend⟩ := Pattern.takes_program_outcome htakes
  refine ⟨u, hu, hprogram, ?_, hend⟩
  rintro word ⟨z, hz⟩ hword
  have hsuffix : s'.ahead <:+ z := by
    rw [← hz] at htakes
    exact hword.greedy _ _ _ htakes
  have hle : word.length ≤ u.length := by
    have hlen := congrArg List.length (hz.trans hu)
    have := hsuffix.length_le
    simp only [List.length_append] at hlen
    omega
  exact List.prefix_of_prefix_length_le ⟨z, hz⟩ ⟨s'.ahead, hu.symm⟩ hle

/-- Reading succeeds if the terminals to come are a program, and only then. -/
theorem read_fst_iff {s : Session} (hs : s.Shaped) :
    (read s).1 = true ↔ Derives .program s.ahead := by
  obtain ⟨found, s', hread⟩ : ∃ found s', read s = (found, s') := ⟨_, _, rfl⟩
  obtain ⟨u, hu, hprogram, hlongest, hend⟩ := read_outcome hs hread
  rw [hread]
  constructor
  · intro hf
    rcases hend with ⟨-, hnil⟩ | ⟨hfalse, -⟩
    · rw [hnil, List.append_nil] at hu
      rw [hu]
      exact hprogram
    · cases hf.symm.trans hfalse
  · intro hd
    rcases hend with ⟨hf, -⟩ | ⟨-, x, m, hcons, -⟩
    · exact hf
    · have hle := (hlongest _ List.prefix_rfl hd).length_le
      have hlen := congrArg List.length hu
      rw [List.length_append, hcons, List.length_cons] at hlen
      omega

/-- A source is well-formed if the grammar derives its significant tokens, and only
then. -/
theorem isWellFormed_iff_grammatical (source : String) :
    (isWellFormed source = true ↔ Grammatical (significant (tokenize .breakout source))) ∧
      (check source = .ok () ↔ Grammatical (significant (tokenize .breakout source))) := by
  have hs := Session.shaped_start .breakout source
  have hspells : Spells (significant (tokenize .breakout source))
      (Session.start .breakout source).ahead := hs.spells_stream
  have hiff : isWellFormed source = true ↔
      Grammatical (significant (tokenize .breakout source)) := by
    rw [hspells.grammatical_iff]
    exact read_fst_iff hs
  refine ⟨hiff, ?_⟩
  rw [← hiff, check]
  cases isWellFormed source <;> simp

end Program

end Scriptlet
