/-
  File:      Blahaj/Headers.lean
  Subject:   Header names and values of the http crate, and the header maps of awc and actix-web,
             taken as a parameter.

  * `HeaderValue.toStr`, `HeaderValue.fromStr` -- a value read as a text, a text made a value;
    `fromStr_visible`: a visible text comes back as it was;
  * `HeaderCrate` -- the maps; `HeaderCrate.Lawful` names what results rely on;
  * `getAll_insertAll` -- what a map holds after many insertions;
  * `HeaderCrate.pairs` -- maps as lists of pairs, and lawful.
-/
import Blahaj.Base
import Mathlib.Data.List.Basic

namespace Blahaj

/-! ## 1. Names and values -/

/-- `HeaderName`: its text, in lower case. -/
structure HeaderName where
  text : Str
  lower : text.all (fun c => !c.isUpper) = true
  deriving DecidableEq

/-- A byte a header value may hold. -/
def validByte (b : UInt8) : Bool := (32 ≤ b.toNat && b.toNat != 127) || b.toNat == 9

/-- `is_visible_ascii`. -/
def visibleByte (b : UInt8) : Bool := (32 ≤ b.toNat && b.toNat < 127) || b.toNat == 9

/-- `HeaderValue`. -/
structure HeaderValue where
  bytes : List UInt8
  valid : bytes.all validByte = true
  deriving DecidableEq

/-- `HeaderValue::to_str`: `none` where a byte is not visible ASCII. -/
def HeaderValue.toStr (v : HeaderValue) : Option Str :=
  if v.bytes.all visibleByte then some (v.bytes.map fun b => Char.ofNat b.toNat) else none

/-- `HeaderValue::from_str`. -/
def HeaderValue.fromStr (s : Str) : Option HeaderValue :=
  if h : (s.flatMap String.utf8EncodeChar).all validByte = true then some ⟨_, h⟩ else none

/-- Visible ASCII: a blank, a tab or a character with a shape. -/
def Visible (c : Char) : Prop := (32 ≤ c.toNat ∧ c.toNat < 127) ∨ c.toNat = 9

theorem utf8_visible {c : Char} (hc : Visible c) :
    String.utf8EncodeChar c = [c.toNat.toUInt8] ∧ visibleByte c.toNat.toUInt8 = true ∧
      Char.ofNat c.toNat.toUInt8.toNat = c := by
  have hlt : c.toNat < 128 := by
    unfold Visible at hc
    omega
  have hbyte : c.toNat.toUInt8.toNat = c.toNat := by
    simp [Nat.mod_eq_of_lt (show c.toNat < 256 by omega)]
  refine ⟨?_, ?_, ?_⟩
  · exact String.utf8EncodeChar_eq_singleton (by
      rw [Char.utf8Size, if_pos]
      exact UInt32.le_iff_toNat_le.mpr (by show c.toNat ≤ 127; omega))
  · unfold visibleByte
    rw [hbyte]
    unfold Visible at hc
    simp only [Bool.or_eq_true, Bool.and_eq_true, decide_eq_true_eq, beq_iff_eq]
    exact hc
  · rw [hbyte]
    exact Char.ofNat_toNat c

/-- **A visible text is a header value, and reads as it was written.** -/
theorem HeaderValue.fromStr_visible {s : Str} (hs : ∀ c ∈ s, Visible c) :
    ∃ v, fromStr s = some v ∧ v.toStr = some s := by
  have hbytes : s.flatMap String.utf8EncodeChar = s.map fun c => c.toNat.toUInt8 := by
    induction s with
    | nil => rfl
    | cons c s ih =>
        rw [List.flatMap_cons, (utf8_visible (hs c (List.mem_cons_self ..))).1,
          ih fun d hd => hs d (List.mem_cons_of_mem _ hd)]
        rfl
  have hvisible : (s.flatMap String.utf8EncodeChar).all visibleByte = true := by
    rw [hbytes, List.all_map, List.all_eq_true]
    exact fun c hc => (utf8_visible (hs c hc)).2.1
  have hvalid : (s.flatMap String.utf8EncodeChar).all validByte = true := by
    rw [List.all_eq_true] at hvisible ⊢
    intro b hb
    have h := hvisible b hb
    simp only [visibleByte, validByte, Bool.or_eq_true, Bool.and_eq_true, decide_eq_true_eq,
      beq_iff_eq, bne_iff_ne] at h ⊢
    omega
  refine ⟨⟨_, hvalid⟩, dif_pos hvalid, ?_⟩
  have hchars : (s.flatMap String.utf8EncodeChar).map (fun b => Char.ofNat b.toNat) = s := by
    rw [hbytes, List.map_map]
    exact (List.map_congr_left fun c hc => (utf8_visible (hs c hc)).2.2).trans (List.map_id _)
  rw [toStr, if_pos hvisible, hchars]

theorem HeaderValue.visible_of_toStr {v : HeaderValue} {s : Str} (h : v.toStr = some s) :
    ∀ c ∈ s, Visible c := by
  unfold toStr at h
  split at h
  · rename_i hall
    cases h
    intro c hc
    obtain ⟨b, hb, rfl⟩ := List.mem_map.mp hc
    have hbyte := List.all_eq_true.mp hall b hb
    simp only [visibleByte, Bool.or_eq_true, Bool.and_eq_true, decide_eq_true_eq,
      beq_iff_eq] at hbyte
    have hlow : b.toNat.isValidChar := Or.inl (by omega)
    have hnat : (Char.ofNat b.toNat).toNat = b.toNat := by
      rw [Char.ofNat, dif_pos hlow]
      rfl
    unfold Visible
    rw [hnat]
    exact hbyte
  · cases h

/-! ## 2. Header maps -/

/-- The values of a name in a list of pairs. -/
def valuesOf (n : HeaderName) (m : List (HeaderName × HeaderValue)) : List HeaderValue :=
  (m.filter fun p => p.1 = n).map Prod.snd

/-- What the code uses of the header maps: those of a request or a response (several values of a
    name), and what `Client::request_from` copies of one. `getAll` answers the values of a name in
    order, as they are received or sent. -/
structure HeaderCrate where
  Map : Type
  empty : Map
  getAll : Map → HeaderName → List HeaderValue
  get : Map → HeaderName → Option HeaderValue
  iter : Map → List (HeaderName × HeaderValue)
  insert : Map → HeaderName → HeaderValue → Map
  requestFrom : Map → Map

/-- What the code relies on. `get` answers the first value of a name, iterating yields a pair for
    every value, and an insertion replaces the values of the name. -/
structure HeaderCrate.Lawful (C : HeaderCrate) : Prop where
  empty : ∀ n, C.getAll C.empty n = []
  get : ∀ m n, C.get m n = (C.getAll m n).head?
  iter : ∀ m n, valuesOf n (C.iter m) = C.getAll m n
  insertSame : ∀ m n v, C.getAll (C.insert m n v) n = [v]
  insertOther : ∀ m n n' v, n' ≠ n → C.getAll (C.insert m n v) n' = C.getAll m n'

variable {C : HeaderCrate}

/-- Pairs inserted in turn. -/
def HeaderCrate.insertAll (C : HeaderCrate) (m : C.Map) (l : List (HeaderName × HeaderValue)) :
    C.Map :=
  l.foldl (fun m p => C.insert m p.1 p.2) m

/-- **After many insertions a name has the last value inserted for it**, and what it had before
    where none was. -/
theorem HeaderCrate.getAll_insertAll (hC : C.Lawful) (m : C.Map)
    (l : List (HeaderName × HeaderValue)) (n : HeaderName) :
    C.getAll (C.insertAll m l) n =
      match (valuesOf n l).getLast? with
      | none => C.getAll m n
      | some v => [v] := by
  induction l generalizing m with
  | nil => rfl
  | cons p l ih =>
      rw [show C.insertAll m (p :: l) = C.insertAll (C.insert m p.1 p.2) l from rfl, ih]
      by_cases hp : p.1 = n
      · have hvalues : valuesOf n (p :: l) = p.2 :: valuesOf n l := by simp [valuesOf, hp]
        rw [hvalues, hp, hC.insertSame, List.getLast?_cons]
        cases (valuesOf n l).getLast? <;> rfl
      · have hvalues : valuesOf n (p :: l) = valuesOf n l := by simp [valuesOf, hp]
        rw [hvalues, hC.insertOther _ _ _ _ (Ne.symm hp)]

/-! ## 3. Maps as lists of pairs -/

/-- The pairs with those of a name replaced. -/
def replaced (m : List (HeaderName × HeaderValue)) (n : HeaderName) (v : HeaderValue) :
    List (HeaderName × HeaderValue) :=
  (m.filter fun p => p.1 ≠ n) ++ [(n, v)]

theorem valuesOf_replaced (m : List (HeaderName × HeaderValue)) (n : HeaderName)
    (v : HeaderValue) : valuesOf n (replaced m n v) = [v] := by
  have hnone : (m.filter fun p => p.1 ≠ n).filter (fun p => p.1 = n) = [] := by
    rw [List.filter_eq_nil_iff]
    intro p hp
    simpa using (List.mem_filter.mp hp).2
  rw [valuesOf, replaced, List.filter_append, hnone]
  simp

theorem valuesOf_replaced_ne (m : List (HeaderName × HeaderValue)) {n n' : HeaderName}
    (v : HeaderValue) (hne : n' ≠ n) : valuesOf n' (replaced m n v) = valuesOf n' m := by
  have hrest : (m.filter fun p => p.1 ≠ n).filter (fun p => p.1 = n') =
      m.filter fun p => p.1 = n' := by
    rw [List.filter_filter]
    refine List.filter_congr fun p _ => ?_
    by_cases hp : p.1 = n'
    · simp [hp, hne]
    · simp [hp]
  rw [valuesOf, replaced, List.filter_append, hrest]
  simp [valuesOf, Ne.symm hne]

/-- Maps as lists of pairs, those of a name in order. A request is copied with the first value of
    each name. -/
def HeaderCrate.pairs : HeaderCrate where
  Map := List (HeaderName × HeaderValue)
  empty := []
  getAll m n := valuesOf n m
  get m n := (valuesOf n m).head?
  iter m := m
  insert := replaced
  requestFrom m := m.foldl (fun copy p => if (valuesOf p.1 copy).isEmpty then copy ++ [p]
    else copy) []

theorem HeaderCrate.pairs_lawful : HeaderCrate.pairs.Lawful where
  empty _ := rfl
  get _ _ := rfl
  iter _ _ := rfl
  insertSame := valuesOf_replaced
  insertOther m _ _ v hne := valuesOf_replaced_ne m v hne

end Blahaj
