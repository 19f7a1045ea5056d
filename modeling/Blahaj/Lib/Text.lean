/-
  File:      Blahaj/Lib/Text.lean
  Subject:   TEXTS AS LISTS: searched, cut, and with a pattern taken out.

  * `tailAt` -- a list from the first occurrence of a pattern on; `tailAt_append` searches across an
    item the pattern does not hold, `tailAt_mark` for a pattern that ends in a mark;
  * `find`, `sliceFrom`, `sliceTo`, `slice` -- the same for strings, by byte offsets, as the string
    functions do it: `find_some` says what offset is found, and `sliceFrom_append`, `slice_append`
    that a string can be cut there;
  * `remove` -- without the occurrences of a pattern; `remove_mark` is the counterpart of
    `tailAt_mark`;
  * `strip` -- without the items of a kind at either end; `isWhite` -- white space;
  * `of_mem_splitOn`, `of_mem_intercalate` -- what the pieces of a text hold;
    `splitOn_join` -- splitting what was joined with a separator that has a blank behind it.
-/
import Mathlib.Data.List.DropRight

namespace Text

variable {α : Type*} [DecidableEq α]

/-! ## 1. Occurrences -/

omit [DecidableEq α] in
/-- An occurrence does not reach across an item that the pattern does not hold. -/
theorem prefix_append_cons {pat a b : List α} {c : α} (hc : c ∉ pat) :
    pat <+: a ++ c :: b ↔ pat <+: a := by
  constructor
  · intro h
    by_cases hlen : pat.length ≤ a.length
    · exact List.prefix_of_prefix_length_le h (List.prefix_append ..) hlen
    · have hcut : a ++ [c] <+: a ++ c :: b := ⟨b, by simp⟩
      have hshort : (a ++ [c]).length ≤ pat.length := by
        simp only [List.length_append, List.length_singleton]
        omega
      refine absurd ?_ hc
      exact (List.prefix_of_prefix_length_le hcut h hshort).subset (by simp)
  · exact fun h => List.prefix_append_of_prefix h

/-- A pattern that ends in a mark starts a text where it is all that stands before the mark. -/
theorem mark_front {p a b : List α} {e : α} (hp : e ∉ p) (ha : e ∉ a) :
    p ++ [e] <+: a ++ e :: b ↔ p = a := by
  constructor
  · intro h
    obtain ⟨t, ht⟩ := h
    rw [List.append_assoc, List.singleton_append] at ht
    have hsplit := congrArg (List.splitOn e) ht
    rw [List.splitOn_append_cons_self_of_not_mem hp,
      List.splitOn_append_cons_self_of_not_mem ha] at hsplit
    exact (List.cons.inj hsplit).1
  · intro h
    rw [h]
    exact ⟨b, by simp⟩

omit [DecidableEq α] in
/-- What stands before a text and holds no item of the pattern does not help to end in it. -/
theorem suffix_append_iff {p left a : List α} (hleft : ∀ c ∈ left, c ∉ p) :
    p <:+ left ++ a ↔ p <:+ a := by
  induction left with
  | nil => rfl
  | cons c left ih =>
      rw [List.cons_append, List.suffix_cons_iff,
        ih fun d hd => hleft d (List.mem_cons_of_mem _ hd)]
      refine or_iff_right fun h => ?_
      exact hleft c (List.mem_cons_self ..) (by rw [h]; exact List.mem_cons_self ..)

/-- The list from the first occurrence of the pattern on. -/
def tailAt (pat : List α) : List α → Option (List α)
  | [] => if pat = [] then some [] else none
  | c :: s => if pat <+: c :: s then some (c :: s) else tailAt pat s

theorem tailAt_nil {pat : List α} (hpat : pat ≠ []) : tailAt pat [] = none := if_neg hpat

theorem tailAt_front {pat s : List α} (h : pat <+: s) : tailAt pat s = some s := by
  cases s with
  | nil => exact if_pos (List.prefix_nil.mp h)
  | cons c s => exact if_pos h

theorem tailAt_some {pat s t : List α} (h : tailAt pat s = some t) : pat <+: t ∧ t <:+ s := by
  induction s with
  | nil =>
      unfold tailAt at h
      split at h
      · rename_i hpat
        cases h
        exact ⟨hpat ▸ List.nil_prefix, List.suffix_rfl⟩
      · cases h
  | cons c s ih =>
      unfold tailAt at h
      split at h
      · rename_i hpat
        cases h
        exact ⟨hpat, List.suffix_rfl⟩
      · exact ⟨(ih h).1, (ih h).2.trans (List.suffix_cons ..)⟩

theorem tailAt_none {pat s : List α} : tailAt pat s = none ↔ ¬ pat <:+: s := by
  induction s with
  | nil =>
      unfold tailAt
      split
      · rename_i hpat
        simp [hpat]
      · rename_i hpat
        simpa using hpat
  | cons c s ih =>
      unfold tailAt
      split
      · rename_i hpat
        simp [hpat.isInfix]
      · rename_i hpat
        rw [ih, List.infix_cons_iff, not_or]
        exact (and_iff_right hpat).symm

/-- **Searching across an item the pattern does not hold.** -/
theorem tailAt_append {pat a b : List α} {c : α} (hpat : pat ≠ []) (hc : c ∉ pat) :
    tailAt pat (a ++ c :: b) = match tailAt pat a with
      | some t => some (t ++ c :: b)
      | none => tailAt pat b := by
  induction a with
  | nil =>
      have hnot : ¬ pat <+: c :: b := by
        have h := prefix_append_cons (a := []) (b := b) hc
        rw [List.nil_append, List.prefix_nil] at h
        exact fun hp => hpat (h.mp hp)
      rw [tailAt_nil hpat, List.nil_append, tailAt, if_neg hnot]
  | cons d a ih =>
      have h : pat <+: d :: (a ++ c :: b) ↔ pat <+: d :: a :=
        prefix_append_cons (a := d :: a) hc
      rw [List.cons_append, tailAt, tailAt]
      by_cases hd : pat <+: d :: a
      · rw [if_pos hd, if_pos (h.mpr hd)]
        rfl
      · rw [if_neg hd, if_neg (fun hpre => hd (h.mp hpre))]
        exact ih

/-- An occurrence stands on one side of an item the pattern does not hold. -/
theorem infix_append_cons {pat a b : List α} {c : α} (hpat : pat ≠ []) (hc : c ∉ pat) :
    pat <:+: a ++ c :: b ↔ pat <:+: a ∨ pat <:+: b := by
  have h := tailAt_append (a := a) (b := b) hpat hc
  rw [← not_iff_not, not_or, ← tailAt_none, ← tailAt_none, ← tailAt_none, h]
  cases tailAt pat a with
  | none => exact (and_iff_right rfl).symm
  | some t => exact ⟨nofun, fun h => nomatch h.1⟩

/-- **Searching for a pattern that ends in a mark**: it is found at the first mark that has the
    rest of the pattern before it. -/
theorem tailAt_mark {p a b : List α} {e : α} (hp : e ∉ p) (ha : e ∉ a) :
    tailAt (p ++ [e]) (a ++ e :: b) =
      if p <:+ a then some (p ++ e :: b) else tailAt (p ++ [e]) b := by
  induction a with
  | nil =>
      rw [List.nil_append, tailAt]
      have h := mark_front (b := b) hp (List.not_mem_nil (a := e))
      rw [List.nil_append] at h
      by_cases hnil : p = []
      · rw [if_pos (h.mpr hnil), if_pos (hnil ▸ List.nil_suffix), hnil, List.nil_append]
      · rw [if_neg (fun hpre => hnil (h.mp hpre)), if_neg (fun hs => hnil (List.suffix_nil.mp hs))]
  | cons d a ih =>
      have h : p ++ [e] <+: d :: (a ++ e :: b) ↔ p = d :: a := mark_front (a := d :: a) hp ha
      rw [List.cons_append, tailAt]
      by_cases heq : p = d :: a
      · rw [if_pos (h.mpr heq), if_pos (heq ▸ List.suffix_rfl), heq]
        rfl
      · have hsuf : p <:+ d :: a ↔ p <:+ a := by
          rw [List.suffix_cons_iff]
          exact or_iff_right heq
        rw [if_neg (fun hpre => heq (h.mp hpre)), ih fun he => ha (List.mem_cons_of_mem _ he)]
        simp only [hsuf]

/-- Searching for one item. -/
theorem tailAt_singleton (c : α) (s : List α) :
    tailAt [c] s = if c ∈ s then some (s.dropWhile (· != c)) else none := by
  induction s with
  | nil => simp [tailAt]
  | cons d s ih =>
      unfold tailAt
      by_cases hd : c = d
      · subst hd
        simp
      · simp only [List.cons_prefix_cons, hd, false_and, ↓reduceIte, ih, List.mem_cons, false_or]
        rw [List.dropWhile_cons_of_pos (by simpa using Ne.symm hd)]

/-! ## 2. Byte offsets -/

/-- The length of a string in bytes. -/
def size : List Char → Nat
  | [] => 0
  | c :: s => c.utf8Size + size s

/-- `&s[i..]`; `none` where the offset is no border of a character. -/
def sliceFrom : List Char → Nat → Option (List Char)
  | s, 0 => some s
  | [], _ + 1 => none
  | c :: s, i + 1 => if c.utf8Size ≤ i + 1 then sliceFrom s (i + 1 - c.utf8Size) else none

/-- `&s[..i]`. -/
def sliceTo : List Char → Nat → Option (List Char)
  | _, 0 => some []
  | [], _ + 1 => none
  | c :: s, i + 1 =>
    if c.utf8Size ≤ i + 1 then (sliceTo s (i + 1 - c.utf8Size)).map (c :: ·) else none

/-- `&s[i..j]`. -/
def slice (s : List Char) (i j : Nat) : Option (List Char) :=
  if i ≤ j then (sliceFrom s i).bind fun t => sliceTo t (j - i) else none

/-- `str::find`: the offset of the first occurrence of the pattern. -/
def find (pat : List Char) : List Char → Option Nat
  | [] => if pat = [] then some 0 else none
  | c :: s => if pat <+: c :: s then some 0 else (find pat s).map (c.utf8Size + ·)

theorem size_cons (c : Char) (s : List Char) : size (c :: s) = c.utf8Size + size s := rfl

theorem size_append (a b : List Char) : size (a ++ b) = size a + size b := by
  induction a with
  | nil => exact (Nat.zero_add _).symm
  | cons c a ih => rw [List.cons_append, size_cons, size_cons, ih, Nat.add_assoc]

/-- **The offset that is found** is the length of what stands before the first occurrence. -/
theorem find_some {pat s t : List Char} (h : tailAt pat s = some t) :
    ∃ a, s = a ++ t ∧ find pat s = some (size a) := by
  induction s with
  | nil =>
      unfold tailAt at h
      split at h
      · rename_i hpat
        cases h
        exact ⟨[], rfl, if_pos hpat⟩
      · cases h
  | cons c s ih =>
      unfold tailAt at h
      unfold find
      split at h
      · rename_i hpat
        cases h
        exact ⟨[], rfl, if_pos hpat⟩
      · rename_i hpat
        obtain ⟨a, hs, hf⟩ := ih h
        exact ⟨c :: a, by rw [hs, List.cons_append], by rw [if_neg hpat, hf, size_cons]; rfl⟩

theorem find_none {pat s : List Char} (h : tailAt pat s = none) : find pat s = none := by
  induction s with
  | nil =>
      unfold tailAt at h
      unfold find
      split at h
      · cases h
      · exact if_neg ‹_›
  | cons c s ih =>
      unfold tailAt at h
      unfold find
      split at h
      · cases h
      · rw [if_neg ‹_›, ih h]
        rfl

/-- The offset of a character is the length of what stands before it. -/
theorem find_singleton (c : Char) (s : List Char) :
    find [c] s = if c ∈ s then some (size (s.takeWhile (· != c))) else none := by
  have htail := tailAt_singleton c s
  by_cases hc : c ∈ s
  · rw [if_pos hc] at htail ⊢
    obtain ⟨a, hs, hfind⟩ := find_some htail
    have hcut := s.takeWhile_append_dropWhile (p := (· != c))
    rw [hfind, List.append_cancel_right (hcut.trans hs)]
  · rw [if_neg hc] at htail ⊢
    exact find_none htail

/-- One character more, and its bytes at the front. -/
theorem size_cons_succ (c : Char) (a : List Char) :
    ∃ i, size (c :: a) = i + 1 ∧ c.utf8Size ≤ i + 1 ∧ i + 1 - c.utf8Size = size a := by
  have hpos := c.utf8Size_pos
  have hsize := size_cons c a
  exact ⟨size (c :: a) - 1, by omega, by omega, by omega⟩

/-- A string can be cut behind each of its parts. -/
theorem sliceFrom_append (a b : List Char) : sliceFrom (a ++ b) (size a) = some b := by
  induction a with
  | nil => cases b <;> rfl
  | cons c a ih =>
      obtain ⟨i, hi, hle, hrest⟩ := size_cons_succ c a
      rw [hi, List.cons_append, sliceFrom, if_pos hle, hrest]
      exact ih

theorem sliceTo_append (a b : List Char) : sliceTo (a ++ b) (size a) = some a := by
  induction a with
  | nil => cases b <;> rfl
  | cons c a ih =>
      obtain ⟨i, hi, hle, hrest⟩ := size_cons_succ c a
      rw [hi, List.cons_append, sliceTo, if_pos hle, hrest, ih]
      rfl

theorem slice_append (a b c : List Char) :
    slice (a ++ (b ++ c)) (size a) (size a + size b) = some b := by
  rw [slice, if_pos (Nat.le_add_right ..), sliceFrom_append, Option.bind_some,
    Nat.add_sub_cancel_left]
  exact sliceTo_append b c

/-! ## 3. Taking a pattern out -/

/-- The occurrences of the pattern taken out, after the next `skip` items. -/
def removeFrom (pat : List α) : Nat → List α → List α
  | _, [] => []
  | 0, c :: s =>
    if pat <+: c :: s then removeFrom pat (pat.length - 1) s else c :: removeFrom pat 0 s
  | skip + 1, _ :: s => removeFrom pat skip s

/-- `str::replace` of a pattern by nothing. -/
def remove (pat s : List α) : List α := removeFrom pat 0 s

theorem removeFrom_eq (pat : List α) (skip : Nat) (s : List α) :
    removeFrom pat skip s = remove pat (s.drop skip) := by
  induction s generalizing skip with
  | nil => cases skip <;> rfl
  | cons c s ih =>
      cases skip with
      | zero => rfl
      | succ skip => exact ih skip

theorem remove_front {pat s : List α} (hpat : pat ≠ []) (h : pat <+: s) :
    remove pat s = remove pat (s.drop pat.length) := by
  cases s with
  | nil => exact absurd (List.prefix_nil.mp h) hpat
  | cons c s =>
      obtain ⟨n, hn⟩ :=
        Nat.exists_eq_succ_of_ne_zero fun h0 => hpat (List.length_eq_zero_iff.mp h0)
      rw [remove, removeFrom, if_pos h, removeFrom_eq, hn]
      rfl

theorem remove_cons {pat s : List α} {c : α} (h : ¬ pat <+: c :: s) :
    remove pat (c :: s) = c :: remove pat s := by
  rw [remove, removeFrom, if_neg h]
  rfl

/-- Where the pattern does not occur nothing is taken out. -/
theorem remove_of_not_infix {pat s : List α} (h : ¬ pat <:+: s) : remove pat s = s := by
  induction s with
  | nil => rfl
  | cons c s ih =>
      rw [List.infix_cons_iff, not_or] at h
      rw [remove_cons h.1, ih h.2]

theorem mem_of_mem_removeFrom {pat s : List α} {a : α} {skip : Nat}
    (h : a ∈ removeFrom pat skip s) : a ∈ s := by
  induction s generalizing skip with
  | nil => cases skip <;> cases h
  | cons c s ih =>
      cases skip with
      | zero =>
          unfold removeFrom at h
          split at h
          · exact List.mem_cons_of_mem _ (ih h)
          · rcases List.mem_cons.mp h with rfl | h
            · exact List.mem_cons_self ..
            · exact List.mem_cons_of_mem _ (ih h)
      | succ skip => exact List.mem_cons_of_mem _ (ih h)

/-- What is left was there before. -/
theorem mem_of_mem_remove {pat s : List α} {a : α} (h : a ∈ remove pat s) : a ∈ s :=
  mem_of_mem_removeFrom h

/-- **A pattern that ends in a mark, taken out of a text with one mark.** -/
theorem remove_mark {p a b : List α} {e : α} (hp : e ∉ p) (ha : e ∉ a) (hb : e ∉ b) :
    remove (p ++ [e]) (a ++ e :: b) =
      if p <:+ a then a.take (a.length - p.length) ++ b else a ++ e :: b := by
  have hrest : remove (p ++ [e]) b = b :=
    remove_of_not_infix fun h => hb (h.subset (by simp))
  induction a with
  | nil =>
      have h : p ++ [e] <+: e :: b ↔ p = [] := mark_front (a := []) hp List.not_mem_nil
      by_cases hnil : p = []
      · have hcut : remove (p ++ [e]) (e :: b) = remove (p ++ [e]) b := by
          rw [remove_front (by simp) (h.mpr hnil), hnil]
          rfl
        rw [if_pos (hnil ▸ List.nil_suffix), List.nil_append, hcut, hrest,
          List.take_nil, List.nil_append]
      · rw [if_neg (fun hs => hnil (List.suffix_nil.mp hs)), List.nil_append,
          remove_cons (fun hpre => hnil (h.mp hpre)), hrest]
  | cons d a ih =>
      have h : p ++ [e] <+: d :: a ++ e :: b ↔ p = d :: a := mark_front hp ha
      by_cases heq : p = d :: a
      · subst heq
        have hdrop : (d :: a ++ e :: b).drop (d :: a ++ [e]).length = b := by
          rw [show d :: a ++ e :: b = (d :: a ++ [e]) ++ b by simp, List.drop_left]
        rw [if_pos List.suffix_rfl, remove_front (by simp) (h.mpr rfl), hdrop, hrest]
        simp
      · have hsuf : p <:+ d :: a ↔ p <:+ a := by
          rw [List.suffix_cons_iff]
          exact or_iff_right heq
        rw [List.cons_append] at h ⊢
        rw [remove_cons (fun hpre => heq (h.mp hpre)), ih fun he => ha (List.mem_cons_of_mem _ he)]
        simp only [hsuf]
        split
        · rename_i hpa
          have hlen := hpa.length_le
          rw [List.length_cons, Nat.succ_sub hlen]
          rfl
        · rfl

/-! ## 4. White space -/

/-- `char::is_whitespace`: the characters with the property White_Space. -/
def isWhite (c : Char) : Bool :=
  (9 ≤ c.toNat && c.toNat ≤ 13) || (0x2000 ≤ c.toNat && c.toNat ≤ 0x200A) ||
    [0x20, 0x85, 0xA0, 0x1680, 0x2028, 0x2029, 0x202F, 0x205F, 0x3000].contains c.toNat

/-- Without the items of a kind at either end. -/
def strip (kind : α → Bool) (s : List α) : List α := (s.dropWhile kind).rdropWhile kind

omit [DecidableEq α] in
/-- Padding is stripped off. -/
theorem strip_pad {kind : α → Bool} (left s right : List α) (hleft : ∀ c ∈ left, kind c)
    (hs : ∀ c ∈ s, kind c = false) (hright : ∀ c ∈ right, kind c) :
    strip kind (left ++ (s ++ right)) = s := by
  have hstart : (left ++ (s ++ right)).dropWhile kind = (s ++ right).dropWhile kind :=
    List.dropWhile_append_of_pos hleft
  unfold strip
  rw [hstart]
  cases s with
  | nil =>
      have hnil : right.dropWhile kind = [] := List.dropWhile_eq_nil_iff.mpr hright
      rw [List.nil_append, hnil]
      rfl
  | cons c s =>
      rw [List.cons_append, List.dropWhile_cons_of_neg (by simp [hs c (List.mem_cons_self ..)]),
        ← List.cons_append]
      unfold List.rdropWhile
      rw [List.reverse_append, List.dropWhile_append_of_pos (by simpa using hright)]
      have hlast : (c :: s).reverse.dropWhile kind = (c :: s).reverse := by
        rw [List.dropWhile_eq_self_iff]
        intro hl hkind
        rw [hs _ (List.mem_reverse.mp (List.getElem_mem hl))] at hkind
        cases hkind
      rw [hlast, List.reverse_reverse]

/-! ## 5. Splitting and joining -/

/-- A piece does not hold the separator, and holds nothing that was not there before. -/
theorem of_mem_splitOn {sep : α} {s piece : List α} (h : piece ∈ s.splitOn sep) :
    sep ∉ piece ∧ ∀ c ∈ piece, c ∈ s := by
  induction s generalizing piece with
  | nil =>
      rw [List.splitOn_nil, List.mem_singleton] at h
      rw [h]
      exact ⟨List.not_mem_nil, fun c hc => hc⟩
  | cons c s ih =>
      have hrest {q : List α} (hq : q ∈ s.splitOn sep) : sep ∉ q ∧ ∀ d ∈ q, d ∈ c :: s :=
        ⟨(ih hq).1, fun d hd => List.mem_cons_of_mem c ((ih hq).2 d hd)⟩
      rw [List.splitOn_cons_eq_if_modifyHead] at h
      split at h
      · rcases List.mem_cons.mp h with rfl | h
        · exact ⟨List.not_mem_nil, nofun⟩
        · exact hrest h
      · rename_i hc
        obtain ⟨q, qs, hqs⟩ := List.exists_cons_of_ne_nil (List.splitOn_ne_nil sep s)
        rw [hqs, List.modifyHead_cons] at h
        rcases List.mem_cons.mp h with rfl | h
        · obtain ⟨hsep, hsub⟩ := hrest (q := q) (by rw [hqs]; exact List.mem_cons_self ..)
          constructor
          · rw [List.mem_cons, not_or]
            exact ⟨fun heq => hc (by rw [heq]; exact BEq.rfl), hsep⟩
          · intro d hd
            rcases List.mem_cons.mp hd with rfl | hd
            · exact List.mem_cons_self ..
            · exact hsub d hd
        · exact hrest (by rw [hqs]; exact List.mem_cons_of_mem _ h)

omit [DecidableEq α] in
theorem of_mem_intercalate {sep : List α} {pieces : List (List α)} {a : α}
    (h : a ∈ List.intercalate sep pieces) : a ∈ sep ∨ ∃ piece ∈ pieces, a ∈ piece := by
  induction pieces with
  | nil => cases h
  | cons piece pieces ih =>
      cases pieces with
      | nil =>
          rw [List.intercalate_singleton] at h
          exact Or.inr ⟨piece, List.mem_cons_self .., h⟩
      | cons next pieces =>
          rw [List.intercalate_cons_cons, List.mem_append, List.mem_append] at h
          rcases h with (h | h) | h
          · exact Or.inr ⟨piece, List.mem_cons_self .., h⟩
          · exact Or.inl h
          · rcases ih h with h | ⟨q, hq, ha⟩
            · exact Or.inl h
            · exact Or.inr ⟨q, List.mem_cons_of_mem _ hq, ha⟩

/-- **Splitting what was joined with a blank behind each separator** gives the pieces back, each
    but the first with the blank before it. -/
theorem splitOn_join {sep blank : α} {x : List α} {xs : List (List α)} (hblank : blank ≠ sep)
    (hx : sep ∉ x) (hxs : ∀ y ∈ xs, sep ∉ y) :
    (List.intercalate [sep, blank] (x :: xs)).splitOn sep = x :: xs.map (blank :: ·) := by
  induction xs generalizing x with
  | nil =>
      rw [List.intercalate_singleton]
      exact List.splitOn_eq_singleton hx
  | cons y xs ih =>
      have hy := hxs y (List.mem_cons_self ..)
      have hjoin : List.intercalate [sep, blank] (x :: y :: xs) =
          x ++ sep :: List.intercalate [sep, blank] ((blank :: y) :: xs) := by
        cases xs with
        | nil => simp
        | cons z xs => simp
      have hby : sep ∉ blank :: y := by
        rw [List.mem_cons, not_or]
        exact ⟨Ne.symm hblank, hy⟩
      rw [hjoin, List.splitOn_append_cons_self_of_not_mem hx,
        ih hby fun z hz => hxs z (List.mem_cons_of_mem _ hz)]
      rfl

end Text
