/-
  File:      Blahaj/Http.lean
  Subject:   What the code uses of the http crate, taken as a parameter.

  * `HttpCrate` -- its parsers and its builder; `HttpCrate.Lawful` names what results rely on;
  * `HttpCrate.ascii` -- parsers that follow the crate's tables on ASCII, and are lawful;
  * `HttpCrate.Strict` -- which strings `PathAndQuery::try_from` accepts, for results about what
    happens to the others; `HttpCrate.cutting` is lawful and strict.
-/
import Blahaj.Base
import Mathlib.Data.List.TakeWhile

namespace Blahaj

/-! ## 1. URIs -/

/-- `http::uri::Scheme`, the two the code uses. -/
inductive Scheme where
  | http
  | https
  deriving DecidableEq, Repr

/-- `http::uri::PathAndQuery`, by what `path` and `query` answer. -/
structure PathAndQuery where
  path : Str
  query : Option Str
  deriving DecidableEq, Repr

/-- A `Uri` with all three parts. -/
structure Uri where
  scheme : Scheme
  authority : Str
  pathAndQuery : PathAndQuery
  deriving DecidableEq, Repr

/-! ## 2. The crate -/

/-- What the code uses of the http crate: the characters valid in a path and in a query,
    `PathAndQuery::try_from`, `Authority::try_from`, and `Uri::builder` with all parts set. -/
structure HttpCrate where
  pathChar : Char → Bool
  queryChar : Char → Bool
  pathAndQuery : Str → Option PathAndQuery
  authority : Str → Option Str
  build : Scheme → Str → PathAndQuery → Option Uri

/-- `format!("127.0.0.1:{}", port)`. -/
def loopback (port : UInt16) : Str :=
  ['1', '2', '7', '.', '0', '.', '0', '.', '1', ':'] ++ Nat.toDigits 10 port.toNat

/-- What the code relies on. A string that starts with a slash and holds only path characters is
    a path; with a question mark and query characters after it, a path with that query. A port
    of the loopback address is an authority, and a URI with all three parts is legal. -/
structure HttpCrate.Lawful (H : HttpCrate) : Prop where
  slash : H.pathChar '/' = true
  path : ∀ s, s.head? = some '/' → (∀ c ∈ s, H.pathChar c) → H.pathAndQuery s = some ⟨s, none⟩
  query : ∀ s q, s.head? = some '/' → (∀ c ∈ s, H.pathChar c) → (∀ c ∈ q, H.queryChar c) →
    H.pathAndQuery (s ++ '?' :: q) = some ⟨s, some q⟩
  authority : ∀ port, H.authority (loopback port) = some (loopback port)
  build : ∀ scheme authority pq, H.build scheme authority pq = some ⟨scheme, authority, pq⟩

/-! ## 3. Its parsers on ASCII -/

/-- The code point of a character lies between two. -/
def within (low high : Nat) (c : Char) : Bool := low.ble c.toNat && c.toNat.ble high

/-- The table of the characters of a path. The double quote and both curly braces are to be
    percent-encoded there, and are accepted as they stand. -/
def asciiPathChar (c : Char) : Bool :=
  within 0x21 0x22 c || within 0x24 0x3B c || within 0x3D 0x3D c || within 0x40 0x5F c ||
    within 0x61 0x7E c

/-- The table of the characters of a query: no quote here, but a question mark and a backtick. -/
def asciiQueryChar (c : Char) : Bool :=
  within 0x21 0x21 c || within 0x24 0x3B c || within 0x3D 0x3D c || within 0x3F 0x7E c

/-- The parsers of the http crate on ASCII texts without a fragment; of the authorities, those of an
    IPv4 address with its port. -/
def HttpCrate.ascii : HttpCrate where
  pathChar := asciiPathChar
  queryChar := asciiQueryChar
  pathAndQuery s :=
    let path := s.takeWhile (· != '?')
    if s.head? = some '/' ∧ path.all asciiPathChar then
      match s.dropWhile (· != '?') with
      | [] => some ⟨path, none⟩
      | _ :: query => if query.all asciiQueryChar then some ⟨path, some query⟩ else none
    else none
  authority s := if s.all fun c => c.isDigit || c == '.' || c == ':' then some s else none
  build scheme authority pathAndQuery := some ⟨scheme, authority, pathAndQuery⟩

/-- No path holds a question mark, so the query is cut off at the first one. -/
theorem no_question_mark {s : Str} (hs : ∀ c ∈ s, asciiPathChar c) :
    ∀ c ∈ s, (c != '?') = true := by
  intro c hc
  rw [bne_iff_ne]
  rintro rfl
  exact absurd (hs _ hc) (by decide)

theorem HttpCrate.ascii_lawful : HttpCrate.ascii.Lawful where
  slash := by decide
  path s hhead hs := by
    have hall : s.all asciiPathChar = true := List.all_eq_true.mpr hs
    have htake : s.takeWhile (· != '?') = s := List.takeWhile_eq_self_iff.mpr (no_question_mark hs)
    have hdrop : s.dropWhile (· != '?') = [] := List.dropWhile_eq_nil_iff.mpr (no_question_mark hs)
    simp only [ascii, htake, hdrop, hhead, hall, and_self, ↓reduceIte]
  query s q hhead hs hq := by
    have hall : s.all asciiPathChar = true := List.all_eq_true.mpr hs
    have hqall : q.all asciiQueryChar = true := List.all_eq_true.mpr hq
    have htake : (s ++ '?' :: q).takeWhile (· != '?') = s := by
      rw [List.takeWhile_append_of_pos (no_question_mark hs)]
      simp
    have hdrop : (s ++ '?' :: q).dropWhile (· != '?') = '?' :: q := by
      rw [List.dropWhile_append_of_pos (no_question_mark hs)]
      simp
    have hhead' : (s ++ '?' :: q).head? = some '/' := by
      rw [List.head?_append, hhead]
      rfl
    simp only [ascii, htake, hdrop, hhead', hall, hqall, and_self, ↓reduceIte]
  authority port := by
    have hall : (loopback port).all (fun c => c.isDigit || c == '.' || c == ':') = true := by
      refine List.all_eq_true.mpr fun c hc => ?_
      rcases List.mem_append.mp hc with hc | hc
      · simp only [List.mem_cons, List.not_mem_nil, or_false] at hc
        rcases hc with rfl | rfl | rfl | rfl | rfl | rfl | rfl | rfl | rfl | rfl <;> decide
      · simp [Nat.isDigit_of_mem_toDigits (by decide) (by decide) hc]
    simp only [ascii, hall, ↓reduceIte]
  build _ _ _ := rfl

/-! ## 4. The strings it accepts -/

/-- What stands before the first `#` (the rest is dropped) has path characters before its first
    question mark, and query characters behind it. -/
def HttpCrate.accepts (H : HttpCrate) (s : Str) : Bool :=
  let kept := s.takeWhile (· != '#')
  (kept.takeWhile (· != '?')).all H.pathChar &&
    ((kept.dropWhile (· != '?')).drop 1).all H.queryChar

/-- `PathAndQuery::try_from` accepts exactly these, among the strings that start with a slash. -/
def HttpCrate.Strict (H : HttpCrate) : Prop :=
  ∀ s, s.head? = some '/' → (H.pathAndQuery s).isSome = H.accepts s

theorem HttpCrate.accepts_slash {H : HttpCrate} (hslash : H.pathChar '/' = true) (s : Str) :
    H.accepts ('/' :: s) = H.accepts s := by
  simp [accepts, hslash]

/-- The parsers on ASCII, with what follows a `#` dropped. -/
def HttpCrate.cutting : HttpCrate :=
  { ascii with pathAndQuery := fun s => ascii.pathAndQuery (s.takeWhile (· != '#')) }

theorem HttpCrate.cutting_lawful : HttpCrate.cutting.Lawful where
  slash := ascii_lawful.slash
  path s hhead hs := by
    have hkept : s.takeWhile (· != '#') = s := List.takeWhile_eq_self_iff.mpr fun c hc => by
      rw [bne_iff_ne]
      rintro rfl
      exact absurd (hs _ hc) (by decide)
    show ascii.pathAndQuery (s.takeWhile (· != '#')) = _
    rw [hkept]
    exact ascii_lawful.path s hhead hs
  query s q hhead hs hq := by
    have hkept : (s ++ '?' :: q).takeWhile (· != '#') = s ++ '?' :: q :=
      List.takeWhile_eq_self_iff.mpr fun c hc => by
        rw [bne_iff_ne]
        rintro rfl
        rcases List.mem_append.mp hc with hc | hc
        · exact absurd (hs _ hc) (by decide)
        · rcases List.mem_cons.mp hc with hc | hc
          · cases hc
          · exact absurd (hq _ hc) (by decide)
    show ascii.pathAndQuery ((s ++ '?' :: q).takeWhile (· != '#')) = _
    rw [hkept]
    exact ascii_lawful.query s q hhead hs hq
  authority := ascii_lawful.authority
  build := ascii_lawful.build

theorem HttpCrate.cutting_strict : HttpCrate.cutting.Strict := by
  intro s hhead
  have hkept : (s.takeWhile (· != '#')).head? = some '/' := by
    cases s with
    | nil => cases hhead
    | cons c s =>
        obtain rfl := Option.some.inj hhead
        rfl
  show (ascii.pathAndQuery (s.takeWhile (· != '#'))).isSome = _
  simp only [ascii, hkept, true_and, accepts, cutting]
  cases hpath : ((s.takeWhile (· != '#')).takeWhile (· != '?')).all asciiPathChar with
  | false => rfl
  | true =>
      simp only [↓reduceIte, Bool.true_and]
      cases (s.takeWhile (· != '#')).dropWhile (· != '?') with
      | nil => rfl
      | cons c query =>
          simp only [List.drop_succ_cons, List.drop_zero]
          cases query.all asciiQueryChar <;> rfl

end Blahaj
