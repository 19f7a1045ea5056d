/-
  File:      Blahaj/CommandLine.lean
  Subject:   COMMAND LINES (config.rs): `CommandLine::from_str` over the lexer of the shlex crate.

  The lexer is an iterator of words. It reports a malformed text by a flag that it sets when it
  answers `None`, which it also answers at the end; `from_str` looks at the first answer and
  collects the rest, and never at the flag.

  * `ShlexCrate` -- what the code uses of the crate, and `shlex::split`, as a parameter;
  * `ShlexCrate.posix` -- a lexer by the rules of the shell;
  * `CommandLine.fromStr_words` -- `from_str` looks at the words only;
  * `CommandLine.fromStr_ok` -- what it accepts;
  * `CommandLine.fromStr_exact` -- when that is what can be split.
-/
import Blahaj.Base

namespace Blahaj

/-! ## 1. The crate -/

/-- `shlex::Shlex`: an iterator over the words of a text, with the input that is left to it. -/
structure ShlexIter where
  Lexer : Type
  new : Str → Lexer
  next : Lexer → Option Str × Lexer
  hadError : Lexer → Bool
  left : Lexer → Nat
  next_left : ∀ lexer word, (next lexer).1 = some word → left (next lexer).2 < left lexer

/-- `Iterator::collect`: the words up to the first `None`, and the lexer that has answered it. -/
def ShlexIter.collect (X : ShlexIter) (lexer : X.Lexer) : List Str × X.Lexer :=
  match _h : (X.next lexer).1 with
  | none => ([], (X.next lexer).2)
  | some word => (word :: (X.collect (X.next lexer).2).1, (X.collect (X.next lexer).2).2)
termination_by X.left lexer
decreasing_by all_goals exact X.next_left lexer word _h

/-- The crate: its iterator, and `shlex::split`. -/
structure ShlexCrate extends ShlexIter where
  split : Str → Option (List Str)

/-- All the words of a text, up to its end or to where it is malformed. -/
def ShlexIter.words (X : ShlexIter) (s : Str) : List Str := (X.collect (X.new s)).1

/-- The text has an unterminated quote or a dangling backslash: the iterator meets it, and sets its
    flag. -/
def ShlexIter.malformed (X : ShlexIter) (s : Str) : Bool := X.hadError (X.collect (X.new s)).2

/-- What is known of `split`: it is `Some` exactly when the iterator ends without an error, with
    the words the iterator yields. -/
def ShlexCrate.Lawful (X : ShlexCrate) : Prop :=
  ∀ s, X.split s = if X.malformed s then none else some (X.words s)

theorem ShlexIter.collect_none {X : ShlexIter} {lexer : X.Lexer}
    (h : (X.next lexer).1 = none) : X.collect lexer = ([], (X.next lexer).2) := by
  rw [ShlexIter.collect]
  split
  · rfl
  · rename_i hsome
    rw [h] at hsome
    cases hsome

theorem ShlexIter.collect_some {X : ShlexIter} {lexer : X.Lexer} {word : Str}
    (h : (X.next lexer).1 = some word) :
    X.collect lexer =
      (word :: (X.collect (X.next lexer).2).1, (X.collect (X.next lexer).2).2) := by
  rw [ShlexIter.collect]
  split
  · rename_i hnone
    rw [h] at hnone
    cases hnone
  · rename_i hsome
    obtain rfl := Option.some.inj (hsome.symm.trans h)
    rfl

/-! ## 2. A lexer -/

/-- Where a lexer stands in a word. -/
inductive Quoting where
  | bare
  | escaped
  | single
  | double
  | doubleEscaped

def lineFeed : Char := Char.ofNat 10
def doubleQuote : Char := Char.ofNat 34
def singleQuote : Char := Char.ofNat 39
def backslash : Char := Char.ofNat 92

/-- Space, tab and newline. -/
def blank (c : Char) : Bool := c == ' ' || c == Char.ofNat 9 || c == lineFeed

/-- What a backslash in double quotes leaves of the character behind it: it escapes the dollar
    sign, the double quote, the backslash and the backtick, and takes a newline away. -/
def unescape (c : Char) : Str :=
  if c = lineFeed then []
  else if [36, 34, 92, 96].contains c.toNat then [c]
  else [backslash, c]

/-- The rest of a word and what stands behind it; `none` where the text ends in a quote or behind
    a backslash. -/
def lexWord : Quoting → Str → Str → Option (Str × Str)
  | .bare, word, [] => some (word, [])
  | _, _, [] => none
  | .bare, word, c :: s =>
    if c = singleQuote then lexWord .single word s
    else if c = doubleQuote then lexWord .double word s
    else if c = backslash then lexWord .escaped word s
    else if blank c then some (word, s)
    else lexWord .bare (word ++ [c]) s
  | .escaped, word, c :: s => lexWord .bare (if c = lineFeed then word else word ++ [c]) s
  | .single, word, c :: s =>
    if c = singleQuote then lexWord .bare word s else lexWord .single (word ++ [c]) s
  | .double, word, c :: s =>
    if c = doubleQuote then lexWord .bare word s
    else if c = backslash then lexWord .doubleEscaped word s
    else lexWord .double (word ++ [c]) s
  | .doubleEscaped, word, c :: s => lexWord .double (word ++ unescape c) s

/-- The start of the next word, behind blanks and comments. -/
def lexStart (comment : Bool) : Str → Str
  | [] => []
  | c :: s =>
    if comment then lexStart (c != lineFeed) s
    else if blank c then lexStart false s
    else if c = '#' then lexStart true s
    else c :: s

theorem lexWord_length {q : Quoting} {word s word' rest : Str}
    (h : lexWord q word s = some (word', rest)) : rest.length ≤ s.length := by
  fun_induction lexWord q word s with
  | case1 word =>
      -- the text ends with the word
      obtain ⟨-, rfl⟩ := Prod.mk.inj (Option.some.inj h)
      exact Nat.le_refl _
  | case2 => cases h
  | case6 word c s =>
      -- a blank ends the word
      obtain ⟨-, rfl⟩ := Prod.mk.inj (Option.some.inj h)
      exact Nat.le_succ _
  | _ =>
      rename_i ih
      exact Nat.le_succ_of_le (ih h)

/-- A word takes its first character, at least. -/
theorem lexWord_shorter {c : Char} {s word rest : Str}
    (h : lexWord .bare [] (c :: s) = some (word, rest)) : rest.length ≤ s.length := by
  unfold lexWord at h
  split at h
  · exact lexWord_length h
  · split at h
    · exact lexWord_length h
    · split at h
      · exact lexWord_length h
      · split at h
        · obtain ⟨-, rfl⟩ := Prod.mk.inj (Option.some.inj h)
          exact Nat.le_refl _
        · exact lexWord_length h

theorem lexStart_length (comment : Bool) (s : Str) : (lexStart comment s).length ≤ s.length := by
  fun_induction lexStart comment s with
  | case1 | case5 => exact Nat.le_refl _
  | _ =>
      rename_i ih
      exact Nat.le_succ_of_le ih

/-- A lexer: the input that is left, and the flag. -/
abbrev PosixLexer := Str × Bool

/-- The next word; behind a malformed one nothing is left. -/
def PosixLexer.next (lexer : PosixLexer) : Option Str × PosixLexer :=
  match lexStart false lexer.1 with
  | [] => (none, [], lexer.2)
  | c :: s => match lexWord .bare [] (c :: s) with
    | some (word, rest) => (some word, rest, lexer.2)
    | none => (none, [], true)

theorem PosixLexer.next_left (lexer : PosixLexer) (word : Str) (h : lexer.next.1 = some word) :
    lexer.next.2.1.length < lexer.1.length := by
  have hstart := lexStart_length false lexer.1
  unfold PosixLexer.next at h ⊢
  cases hs : lexStart false lexer.1 with
  | nil => simp [hs] at h
  | cons c s =>
      rw [hs] at hstart
      cases hw : lexWord .bare [] (c :: s) with
      | none => simp [hs, hw] at h
      | some found =>
          have hshorter := lexWord_shorter hw
          simp only [hw]
          exact Nat.lt_of_le_of_lt hshorter hstart

/-- The iterator by the rules of the shell. -/
def ShlexIter.posix : ShlexIter where
  Lexer := PosixLexer
  new s := (s, false)
  next := PosixLexer.next
  hadError := Prod.snd
  left lexer := lexer.1.length
  next_left := PosixLexer.next_left

/-- The crate by the rules of the shell. -/
def ShlexCrate.posix : ShlexCrate where
  toShlexIter := .posix
  split s := if ShlexIter.posix.malformed s then none else some (ShlexIter.posix.words s)

theorem ShlexCrate.posix_lawful : ShlexCrate.posix.Lawful := fun _ => rfl

/-! ## 3. Command lines -/

/-- `CommandLine`. -/
structure CommandLine where
  cmd : Str
  args : List Str
  deriving DecidableEq, Repr

/-- `CommandLine::from_str`. -/
def CommandLine.fromStr (X : ShlexIter) (s : Str) : Except SupervisorError CommandLine :=
  let lexer := X.new s
  match X.next lexer with
  | (none, _) => .error .command
  | (some cmd, lexer) =>
    let args := (X.collect lexer).1
    .ok ⟨cmd, args⟩

/-- `from_str`, by the words of the whole text. -/
theorem CommandLine.fromStr_words (X : ShlexIter) (s : Str) :
    CommandLine.fromStr X s = match X.words s with
      | [] => .error .command
      | cmd :: args => .ok ⟨cmd, args⟩ := by
  unfold CommandLine.fromStr ShlexIter.words
  cases hnext : X.next (X.new s) with
  | mk word lexer =>
      cases word with
      | none =>
          rw [ShlexIter.collect_none (by rw [hnext])]
          simp only [hnext]
      | some word =>
          rw [ShlexIter.collect_some (by rw [hnext])]
          simp only [hnext]

/-- **What `from_str` accepts**: a text with at least one complete word, whatever stands behind
    the words. -/
theorem CommandLine.fromStr_ok {X : ShlexIter} {s : Str} {c : CommandLine} :
    CommandLine.fromStr X s = .ok c ↔ X.words s = c.cmd :: c.args := by
  rw [CommandLine.fromStr_words]
  obtain ⟨cmd, args⟩ := c
  cases X.words s with
  | nil => simp
  | cons word words => simp

/-- There is one error. -/
theorem CommandLine.fromStr_error {X : ShlexIter} {s : Str} {e : SupervisorError} :
    CommandLine.fromStr X s = .error e ↔ X.words s = [] ∧ e = .command := by
  rw [CommandLine.fromStr_words]
  cases X.words s with
  | nil => simp [eq_comm]
  | cons word words => simp

/-- **When `from_str` accepts exactly what can be split**, and rejects what is malformed: where no
    word is complete before the error. -/
theorem CommandLine.fromStr_exact {X : ShlexCrate} (hX : X.Lawful) (s : Str) :
    ((∀ c : CommandLine, CommandLine.fromStr X.toShlexIter s = .ok c ↔
        X.split s = some (c.cmd :: c.args)) ∧
      (X.malformed s → CommandLine.fromStr X.toShlexIter s = .error .command)) ↔
      (X.malformed s → X.words s = []) := by
  constructor
  · rintro ⟨-, hreject⟩ hbad
    exact (CommandLine.fromStr_error.mp (hreject hbad)).1
  · intro hwords
    refine ⟨fun c => ?_, fun hbad => CommandLine.fromStr_error.mpr ⟨hwords hbad, rfl⟩⟩
    rw [CommandLine.fromStr_ok, hX s]
    cases hbad : X.malformed s with
    | false => simp
    | true => simp [hwords hbad]

/-- A word, and an unterminated quote behind it. -/
def halfQuoted : Str := ['e', 'c', 'h', 'o', ' ', doubleQuote, 'a', 'b', 'c']

theorem CommandLine.fromStr_exact_halfQuoted :
    ((∀ c : CommandLine, CommandLine.fromStr .posix halfQuoted = .ok c ↔
        ShlexCrate.posix.split halfQuoted = some (c.cmd :: c.args)) ∧
      (ShlexIter.posix.malformed halfQuoted →
        CommandLine.fromStr .posix halfQuoted = .error .command)) ↔
      (ShlexIter.posix.malformed halfQuoted → ShlexIter.posix.words halfQuoted = []) :=
  CommandLine.fromStr_exact ShlexCrate.posix_lawful halfQuoted

theorem collect_halfQuoted : ShlexIter.posix.collect (ShlexIter.posix.new halfQuoted) =
    ([['e', 'c', 'h', 'o']], [], true) := by
  have hfirst : (ShlexIter.posix.next (ShlexIter.posix.new halfQuoted)).1 =
      some ['e', 'c', 'h', 'o'] := rfl
  rw [ShlexIter.collect_some hfirst, ShlexIter.collect_none rfl]
  rfl

/-- The quote makes the text malformed, and `from_str` drops it. -/
theorem CommandLine.fromStr_truncates :
    ShlexIter.posix.malformed halfQuoted = true ∧ ShlexCrate.posix.split halfQuoted = none ∧
      CommandLine.fromStr .posix halfQuoted = .ok ⟨['e', 'c', 'h', 'o'], []⟩ := by
  have hbad : ShlexIter.posix.malformed halfQuoted = true := by
    unfold ShlexIter.malformed
    rw [collect_halfQuoted]
    rfl
  refine ⟨hbad, ?_, ?_⟩
  · rw [ShlexCrate.posix_lawful halfQuoted]
    exact if_pos hbad
  · rw [CommandLine.fromStr_ok, ShlexIter.words, collect_halfQuoted]

end Blahaj
