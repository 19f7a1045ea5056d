/-
  File:      Blahaj/Proxy/Elements.lean
  Subject:   WHICH HOPS `from_info` READS OF A WELL-FORMED HEADER.

  A header is a list of elements with commas between them, an element a list of parameters with
  semicolons between them. `from_info` reads it the other way round: the segment between two
  semicolons that holds the first `for=`, from there on, cut at the commas.

  * `segments` -- the parameters of a header, regrouped at the semicolons;
  * `span` -- the parameters that are read; `previous_header`: what is read of each;
  * `hops_intact` -- when the entries are the values of the parameters named `for`.
-/
import Blahaj.Proxy.ForwardedHeader

namespace Blahaj

open Text

/-! ## 1. Well-formed headers -/

/-- `for`. -/
def forName : Str := ['f', 'o', 'r']

/-- Without the separators of a header and without white space. -/
def Bare (s : Str) : Prop := ∀ c ∈ s, c ∉ [',', ';', '='] ∧ isWhite c = false

instance (s : Str) : Decidable (Bare s) :=
  List.decidableBAll (fun c => c ∉ [',', ';', '='] ∧ isWhite c = false) s

/-- A parameter, with the white space around it. -/
structure Param where
  left : Str
  name : Str
  value : Str
  right : Str
  white : ∀ c ∈ left ++ right, isWhite c
  bare : Bare (name ++ value)

/-- `name=value`. -/
def Param.text (p : Param) : Str := (p.left ++ p.name) ++ '=' :: (p.value ++ p.right)

/-- An element: one parameter or more, at most one of them named `for`. -/
structure Element where
  first : Param
  more : List Param
  oneFor : ((first :: more).filter fun p => p.name = forName).length ≤ 1

def Element.params (el : Element) : List Param := el.first :: el.more

/-- The text of a header. -/
def headerText (els : List Element) : Str :=
  List.intercalate [','] (els.map fun el => List.intercalate [';'] (el.params.map Param.text))

/-- The parameters named exactly `for`, in header order. -/
def forParams (els : List Element) : List Param :=
  (els.flatMap Element.params).filter fun p => p.name = forName

/-! ## 2. A parameter -/

/-- The name ends in `for`: here `from_info` finds `for=`. -/
def Param.found (p : Param) : Bool := decide (forName <:+ p.name)

theorem Param.name_free (p : Param) {c : Char} (hc : c ∈ [',', ';', '=']) : c ∉ p.name :=
  fun h => (p.bare c (List.mem_append_left _ h)).1 hc

theorem Param.value_free (p : Param) {c : Char} (hc : c ∈ [',', ';', '=']) : c ∉ p.value :=
  fun h => (p.bare c (List.mem_append_right _ h)).1 hc

/-- No separator is white space. -/
theorem white_free {s : Str} (hs : ∀ c ∈ s, isWhite c) {c : Char} (hc : c ∈ [',', ';', '=']) :
    c ∉ s := by
  intro h
  have hwhite := hs c h
  simp only [List.mem_cons, List.not_mem_nil, or_false] at hc
  rcases hc with rfl | rfl | rfl <;> exact absurd hwhite (by decide)

theorem Param.leftWhite (p : Param) : ∀ c ∈ p.left, isWhite c :=
  fun c hc => p.white c (List.mem_append_left _ hc)

theorem Param.rightWhite (p : Param) : ∀ c ∈ p.right, isWhite c :=
  fun c hc => p.white c (List.mem_append_right _ hc)

theorem Param.front_free (p : Param) {c : Char} (hc : c ∈ [',', ';', '=']) :
    c ∉ p.left ++ p.name := by
  rw [List.mem_append, not_or]
  exact ⟨white_free p.leftWhite hc, p.name_free hc⟩

theorem Param.back_free (p : Param) {c : Char} (hc : c ∈ [',', ';', '=']) :
    c ∉ p.value ++ p.right := by
  rw [List.mem_append, not_or]
  exact ⟨p.value_free hc, white_free p.rightWhite hc⟩

theorem Param.text_free (p : Param) {c : Char} (hc : c ∈ [',', ';']) : c ∉ p.text := by
  have hmem : c ∈ [',', ';', '='] := by
    simp only [List.mem_cons, List.not_mem_nil, or_false] at hc ⊢
    tauto
  rw [Param.text, List.mem_append, List.mem_cons, not_or, not_or]
  refine ⟨p.front_free hmem, ?_, p.back_free hmem⟩
  rintro rfl
  simp at hc

/-- The name ends in `for`, white space before it or not. -/
theorem Param.found_iff (p : Param) : forName <:+ p.left ++ p.name ↔ p.found = true := by
  rw [Param.found, decide_eq_true_eq]
  refine suffix_append_iff fun c hc hfor => ?_
  have hwhite := p.leftWhite c hc
  simp only [forName, List.mem_cons, List.not_mem_nil, or_false] at hfor
  rcases hfor with rfl | rfl | rfl <;> exact absurd hwhite (by decide)

/-- **Where `from_info` finds `for=` in a parameter.** -/
theorem Param.tailAt_text (p : Param) :
    tailAt forMark p.text = if p.found then some (forMark ++ (p.value ++ p.right)) else none := by
  have hrest : tailAt forMark (p.value ++ p.right) = none := by
    rw [tailAt_none]
    exact fun h => p.back_free (by simp) (h.subset (by decide : '=' ∈ forMark))
  have hmark : forMark = forName ++ ['='] := rfl
  rw [Param.text, hmark, tailAt_mark (by decide) (p.front_free (by simp)), ← hmark, hrest]
  simp only [p.found_iff]
  rfl

/-- What `from_info` makes of a parameter behind the first one it reads: `for=` is taken out where
    the name ends so, and the rest of the name is glued to the value. -/
def Param.entry (p : Param) : Str :=
  if p.found then p.name.take (p.name.length - 3) ++ p.value else p.name ++ '=' :: p.value

theorem Param.remove_text (p : Param) : remove forMark p.text = p.left ++ (p.entry ++ p.right) := by
  have hmark : forMark = forName ++ ['='] := rfl
  rw [Param.text, hmark, remove_mark (by decide) (p.front_free (by simp)) (p.back_free (by simp)),
    Param.entry]
  simp only [p.found_iff]
  split
  · rename_i hfound
    have hlen : 3 ≤ p.name.length := (of_decide_eq_true hfound).length_le
    have hcut : (p.left ++ p.name).length - forName.length =
        p.left.length + (p.name.length - 3) := by
      rw [List.length_append]
      show p.left.length + p.name.length - 3 = _
      omega
    rw [hcut, List.take_length_add_append, List.append_assoc, List.append_assoc]
  · simp [List.append_assoc]

/-- The first parameter that is read is cut at `for=`, so its value is left. -/
theorem Param.remove_value (p : Param) :
    remove forMark (forMark ++ (p.value ++ p.right)) = p.value ++ p.right := by
  rw [remove_front (by decide) (List.prefix_append ..), List.drop_left]
  exact remove_of_not_infix fun h => p.back_free (by simp) (h.subset (by decide : '=' ∈ forMark))

/-- White space around an entry is stripped off. -/
theorem strip_value (p : Param) : strip isWhite (p.value ++ p.right) = p.value :=
  strip_pad [] p.value p.right nofun (fun c hc => (p.bare c (List.mem_append_right _ hc)).2)
    p.rightWhite

theorem Param.strip_entry (p : Param) :
    strip isWhite (p.left ++ (p.entry ++ p.right)) = p.entry := by
  refine strip_pad p.left p.entry p.right p.leftWhite (fun c hc => ?_) p.rightWhite
  have hname : ∀ d ∈ p.name, isWhite d = false :=
    fun d hd => (p.bare d (List.mem_append_left _ hd)).2
  have hvalue : ∀ d ∈ p.value, isWhite d = false :=
    fun d hd => (p.bare d (List.mem_append_right _ hd)).2
  unfold Param.entry at hc
  split at hc
  · rcases List.mem_append.mp hc with hc | hc
    · exact hname c (List.mem_of_mem_take hc)
    · exact hvalue c hc
  · rcases List.mem_append.mp hc with hc | hc
    · exact hname c hc
    · rcases List.mem_cons.mp hc with rfl | hc
      · decide
      · exact hvalue c hc

/-! ## 3. The segments of a header -/

/-- Parameters with commas between them. -/
def segmentText (seg : List Param) : Str := List.intercalate [','] (seg.map Param.text)

/-- Segments with semicolons between them. -/
def segmentsText (segs : List (List Param)) : Str := List.intercalate [';'] (segs.map segmentText)

/-- The parameters of an element in front of the segments of the elements behind it: each but the
    last one ends a segment, and the last one opens the segment that goes on behind it. -/
def regroup (p : Param) : List Param → List (List Param) → List (List Param)
  | [], [] => [[p]]
  | [], seg :: segs => (p :: seg) :: segs
  | q :: ps, segs => [p] :: regroup q ps segs

/-- The parameters of a header, regrouped at the semicolons. -/
def segments : List Element → List (List Param)
  | [] => []
  | el :: els => regroup el.first el.more (segments els)

theorem regroup_ne_nil (p : Param) (ps : List Param) (segs : List (List Param)) :
    regroup p ps segs ≠ [] := by
  cases ps with
  | nil => cases segs <;> exact List.cons_ne_nil _ _
  | cons q ps => exact List.cons_ne_nil _ _

/-- No segment is empty. -/
theorem ne_nil_of_mem_regroup {p : Param} {ps : List Param} {segs : List (List Param)}
    (hsegs : ∀ seg ∈ segs, seg ≠ []) : ∀ seg ∈ regroup p ps segs, seg ≠ [] := by
  induction ps generalizing p with
  | nil =>
      cases segs with
      | nil =>
          intro seg hseg
          rw [regroup, List.mem_singleton] at hseg
          rw [hseg]
          exact List.cons_ne_nil _ _
      | cons next segs =>
          intro seg hseg
          rcases List.mem_cons.mp hseg with rfl | hseg
          · exact List.cons_ne_nil _ _
          · exact hsegs seg (List.mem_cons_of_mem _ hseg)
  | cons q ps ih =>
      intro seg hseg
      rcases List.mem_cons.mp hseg with rfl | hseg
      · exact List.cons_ne_nil _ _
      · exact ih seg hseg

theorem ne_nil_of_mem_segments (els : List Element) : ∀ seg ∈ segments els, seg ≠ [] := by
  induction els with
  | nil => exact nofun
  | cons el els ih => exact ne_nil_of_mem_regroup ih

theorem flatten_regroup (p : Param) (ps : List Param) (segs : List (List Param)) :
    (regroup p ps segs).flatten = p :: ps ++ segs.flatten := by
  induction ps generalizing p with
  | nil => cases segs <;> rfl
  | cons q ps ih => rw [regroup, List.flatten_cons, ih]; rfl

theorem flatten_segments (els : List Element) :
    (segments els).flatten = els.flatMap Element.params := by
  induction els with
  | nil => rfl
  | cons el els ih => rw [segments, flatten_regroup, ih]; rfl

/-- The text of an element in front of the segments of the elements behind it. -/
theorem segmentsText_regroup (p : Param) (ps : List Param) {segs : List (List Param)}
    (hsegs : ∀ seg ∈ segs, seg ≠ []) :
    segmentsText (regroup p ps segs) =
      List.intercalate [';'] ((p :: ps).map Param.text) ++
        if segs = [] then [] else ',' :: segmentsText segs := by
  induction ps generalizing p with
  | nil =>
      cases segs with
      | nil => simp [regroup, segmentsText, segmentText]
      | cons seg segs =>
          have hseg : seg.map Param.text ≠ [] := by simpa using hsegs seg (List.mem_cons_self ..)
          have hopen : segmentText (p :: seg) = p.text ++ ',' :: segmentText seg := by
            rw [segmentText, List.map_cons, List.intercalate_cons_of_ne_nil hseg]
            simp [segmentText]
          cases segs with
          | nil => simp [regroup, segmentsText, hopen]
          | cons next segs =>
              simp only [regroup, segmentsText, List.map_cons, List.intercalate_cons_cons, hopen]
              simp
  | cons q ps ih =>
      have hrest : (regroup q ps segs).map segmentText ≠ [] := by
        simpa using regroup_ne_nil q ps segs
      have hone : segmentText [p] = p.text := by simp [segmentText]
      rw [regroup, segmentsText, List.map_cons, List.intercalate_cons_of_ne_nil hrest, hone,
        show List.intercalate [';'] ((regroup q ps segs).map segmentText) =
          segmentsText (regroup q ps segs) from rfl, ih]
      simp

/-- **A header is its segments** with semicolons between them. -/
theorem headerText_eq (els : List Element) : headerText els = segmentsText (segments els) := by
  induction els with
  | nil => rfl
  | cons el els ih =>
      rw [segments, segmentsText_regroup _ _ (ne_nil_of_mem_segments els), ← ih]
      cases els with
      | nil => simp [headerText, segments, Element.params]
      | cons next els =>
          have hne : segments (next :: els) ≠ [] :=
            regroup_ne_nil next.first next.more (segments els)
          rw [if_neg hne, headerText, List.map_cons, List.map_cons, List.intercalate_cons_cons,
            List.append_assoc]
          rfl

/-! ## 4. What is read -/

/-- Nothing is read behind the first semicolon that follows a `for=`. -/
theorem previous_front {a b : Str} (h : forMark <:+: a) :
    previous (a ++ ';' :: b) = previous a := by
  unfold previous
  rw [tailAt_append (by decide) (by decide)]
  cases htail : tailAt forMark a with
  | none => exact absurd h (tailAt_none.mp htail)
  | some t =>
      have hspan : (t ++ ';' :: b).takeWhile (· != ';') = t.takeWhile (· != ';') := by
        rw [List.takeWhile_append]
        split
        · rename_i hlen
          have hall : t.takeWhile (· != ';') = t := (List.takeWhile_prefix _).eq_of_length hlen
          rw [hall]
          simp
        · rfl
      simp only [hspan]

/-- Nothing is read before a semicolon where there is no `for=`. -/
theorem previous_behind {a b : Str} (h : ¬ forMark <:+: a) :
    previous (a ++ ';' :: b) = previous b := by
  unfold previous
  rw [tailAt_append (by decide) (by decide), tailAt_none.mpr h]

/-- What is read across a comma, where there is no semicolon: behind the first `for=` every
    piece. -/
theorem previous_comma {a b : Str} (ha : ',' ∉ a) (ha' : ';' ∉ a) (hb : ';' ∉ b) :
    previous (a ++ ',' :: b) = match tailAt forMark a with
      | none => previous b
      | some t => remove forMark t :: (b.splitOn ',').map (remove forMark) := by
  unfold previous
  rw [tailAt_append (by decide) (by decide)]
  cases htail : tailAt forMark a with
  | none => rfl
  | some t =>
      have hsub := (tailAt_some htail).2.subset
      have hkeep : ∀ c ∈ t ++ ',' :: b, (c != ';') = true := by
        intro c hc
        rw [bne_iff_ne]
        rintro rfl
        rcases List.mem_append.mp hc with hc | hc
        · exact ha' (hsub hc)
        · rcases List.mem_cons.mp hc with hc | hc
          · cases hc
          · exact hb hc
      have hspan : (t ++ ',' :: b).takeWhile (· != ';') = t ++ ',' :: b :=
        List.takeWhile_eq_self_iff.mpr hkeep
      simp only [hspan]
      rw [List.splitOn_append_cons_self_of_not_mem fun h => ha (hsub h), List.map_cons]

theorem Param.infix_text (p : Param) : forMark <:+: p.text ↔ p.found = true := by
  rw [← not_iff_not, ← tailAt_none, p.tailAt_text]
  split
  · rename_i hfound
    exact ⟨nofun, fun h => absurd hfound h⟩
  · rename_i hfound
    exact ⟨fun _ => hfound, fun _ => rfl⟩

/-- What is read of a run of parameters: of the first one its value, of those behind it what is
    left of their text. -/
def readings : List Param → List Str
  | [] => []
  | p :: ps => (p.value ++ p.right) :: ps.map fun q => remove forMark q.text

theorem segmentText_free (seg : List Param) : ';' ∉ segmentText seg := by
  intro hmem
  rcases of_mem_intercalate hmem with hsep | ⟨piece, hpiece, hmem⟩
  · exact absurd hsep (by decide)
  · obtain ⟨p, -, rfl⟩ := List.mem_map.mp hpiece
    exact p.text_free (by simp) hmem

/-- A segment from its first parameter on whose name ends in `for`. -/
def fromFound (seg : List Param) : List Param := seg.dropWhile fun p => !p.found

/-- What is read of one parameter alone. -/
theorem previous_text (p : Param) : previous p.text = readings (fromFound [p]) := by
  unfold previous
  rw [p.tailAt_text]
  by_cases hfound : p.found = true
  · have hfree : ∀ c ∈ forMark ++ (p.value ++ p.right), (c != ';') = true := by
      intro c hc
      rw [bne_iff_ne]
      rintro rfl
      rcases List.mem_append.mp hc with hc | hc
      · exact absurd hc (by decide)
      · exact p.back_free (by simp) hc
    have hcomma : ',' ∉ forMark ++ (p.value ++ p.right) := by
      rw [List.mem_append, not_or]
      exact ⟨by decide, p.back_free (by simp)⟩
    simp only [fromFound, List.dropWhile, hfound, ↓reduceIte, Bool.not_true]
    rw [List.takeWhile_eq_self_iff.mpr hfree, List.splitOn_eq_singleton hcomma, List.map_singleton,
      p.remove_value]
    rfl
  · simp [fromFound, hfound, readings]

/-- **What is read of a segment.** -/
theorem previous_segment (seg : List Param) :
    previous (segmentText seg) = readings (fromFound seg) := by
  induction seg with
  | nil => decide
  | cons p seg ih =>
      cases seg with
      | nil =>
          have hone : segmentText [p] = p.text := by simp [segmentText]
          rw [hone, previous_text]
      | cons q seg =>
          have hcut : segmentText (p :: q :: seg) = p.text ++ ',' :: segmentText (q :: seg) := by
            simp [segmentText]
          have hpieces : (segmentText (q :: seg)).splitOn ',' = (q :: seg).map Param.text := by
            refine List.splitOn_intercalate ',' (fun l hl => ?_) (by simp)
            obtain ⟨r, -, rfl⟩ := List.mem_map.mp hl
            exact r.text_free (by simp)
          rw [hcut, previous_comma (p.text_free (by simp)) (p.text_free (by simp))
            (segmentText_free _), p.tailAt_text]
          by_cases hfound : p.found = true
          · simp only [hfound, ↓reduceIte, hpieces, p.remove_value, List.map_map]
            simp only [fromFound, List.dropWhile, hfound, Bool.not_true, readings]
            rfl
          · simp only [hfound]
            rw [ih]
            simp [fromFound, hfound]

/-- `for=` occurs in a segment where a name in it ends in `for`. -/
theorem infix_segment (seg : List Param) :
    forMark <:+: segmentText seg ↔ seg.any Param.found = true := by
  induction seg with
  | nil => decide
  | cons p seg ih =>
      rw [List.any_cons, Bool.or_eq_true, ← p.infix_text, ← ih]
      cases seg with
      | nil =>
          have hempty : ¬ forMark <:+: segmentText [] := by decide
          have hone : segmentText [p] = p.text := by simp [segmentText]
          rw [hone]
          exact (or_iff_left hempty).symm
      | cons q seg =>
          have hcut : segmentText (p :: q :: seg) = p.text ++ ',' :: segmentText (q :: seg) := by
            simp [segmentText]
          rw [hcut]
          exact infix_append_cons (by decide) (by decide)

/-- The parameters that `from_info` reads: in the first segment with a name that ends in `for`,
    from that name on. -/
def span (segs : List (List Param)) : List Param :=
  match segs.find? fun seg => seg.any Param.found with
  | none => []
  | some seg => fromFound seg

theorem previous_segments (segs : List (List Param)) :
    previous (segmentsText segs) = readings (span segs) := by
  induction segs with
  | nil => decide
  | cons seg segs ih =>
      by_cases hany : seg.any Param.found = true
      · have hspan : span (seg :: segs) = fromFound seg := by simp [span, hany]
        rw [hspan, ← previous_segment]
        cases segs with
        | nil => simp [segmentsText]
        | cons next segs =>
            have hcut : segmentsText (seg :: next :: segs) =
                segmentText seg ++ ';' :: segmentsText (next :: segs) := by
              simp [segmentsText]
            rw [hcut, previous_front ((infix_segment seg).mpr hany)]
      · have hspan : span (seg :: segs) = span segs := by simp [span, hany]
        have hnot : ¬ forMark <:+: segmentText seg := fun h => hany ((infix_segment seg).mp h)
        rw [hspan, ← ih]
        cases segs with
        | nil =>
            have hnone : tailAt forMark (segmentText seg) = none := tailAt_none.mpr hnot
            have hempty : previous (segmentsText []) = [] := by decide
            have hone : segmentsText [seg] = segmentText seg := by simp [segmentsText]
            rw [hone, hempty, previous, hnone]
        | cons next segs =>
            have hcut : segmentsText (seg :: next :: segs) =
                segmentText seg ++ ';' :: segmentsText (next :: segs) := by
              simp [segmentsText]
            rw [hcut, previous_behind hnot]

/-- **What `from_info` reads of a well-formed header.** -/
theorem previous_header (els : List Element) :
    previous (headerText els) = readings (span (segments els)) := by
  rw [headerText_eq, previous_segments]

/-! ## 5. When no hop is lost or invented -/

/-- What is read of a run of parameters, without the white space around it. -/
def trimmed : List Param → List Str
  | [] => []
  | p :: ps => p.value :: ps.map Param.entry

theorem strip_readings (ps : List Param) : (readings ps).map (strip isWhite) = trimmed ps := by
  cases ps with
  | nil => rfl
  | cons p ps =>
      rw [readings, List.map_cons, strip_value, List.map_map, trimmed]
      congr 1
      refine List.map_congr_left fun q _ => ?_
      rw [Function.comp_apply, q.remove_text, q.strip_entry]

/-- What is read is a run of the header's parameters. -/
theorem span_sublist (els : List Element) :
    (span (segments els)).Sublist (els.flatMap Element.params) := by
  rw [← flatten_segments]
  unfold span
  cases hfind : (segments els).find? fun seg => seg.any Param.found with
  | none => exact List.nil_sublist _
  | some seg =>
      have hmem := List.mem_of_find?_eq_some hfind
      exact (List.dropWhile_sublist _).trans (List.sublist_flatten_of_mem hmem)

/-- The first name that is read ends in `for`. -/
theorem span_head {segs : List (List Param)} {p : Param} {ps : List Param}
    (h : span segs = p :: ps) : p.found = true := by
  unfold span at h
  split at h
  · cases h
  · rename_i seg _
    have hnot := List.head?_dropWhile_not (fun q : Param => !q.found) seg
    rw [show (seg.dropWhile fun q => !q.found).head? = some p by
      rw [show seg.dropWhile (fun q => !q.found) = p :: ps from h]; rfl] at hnot
    simpa using hnot

/-- Of a parameter named `for` its value is read. -/
theorem Param.entry_for {p : Param} (h : p.name = forName) : p.entry = p.value := by
  unfold Param.entry Param.found
  rw [h]
  rfl

theorem trimmed_for {ps : List Param} (h : ∀ p ∈ ps, p.name = forName) :
    trimmed ps = ps.map Param.value := by
  cases ps with
  | nil => rfl
  | cons p ps =>
      rw [trimmed, List.map_cons]
      congr 1
      exact List.map_congr_left fun q hq => Param.entry_for (h q (List.mem_cons_of_mem _ hq))

/-- The entries agree though names are read that only end in `for`: the rests of these names,
    glued to their values, happen to make the values of the parameters named `for`. -/
def Coincidence (els : List Element) : Prop :=
  (∃ p ∈ span (segments els), p.name ≠ forName) ∧
    (∀ p ∈ span (segments els), p.found = true) ∧
    trimmed (span (segments els)) = (forParams els).map Param.value

/-- A name that does not end in `for` is read as an entry with an equals sign, which no value
    has. -/
theorem found_of_trimmed {els : List Element}
    (h : trimmed (span (segments els)) = (forParams els).map Param.value) :
    ∀ p ∈ span (segments els), p.found = true := by
  intro p hp
  cases hspan : span (segments els) with
  | nil =>
      rw [hspan] at hp
      cases hp
  | cons q qs =>
      rw [hspan] at h hp
      rcases List.mem_cons.mp hp with rfl | hp
      · exact span_head hspan
      · by_contra hnot
        have hentry : p.entry ∈ (forParams els).map Param.value := by
          rw [← h, trimmed]
          exact List.mem_cons_of_mem _ (List.mem_map_of_mem hp)
        obtain ⟨r, -, hr⟩ := List.mem_map.mp hentry
        refine r.value_free (c := '=') (by simp) ?_
        rw [hr, Param.entry, if_neg hnot]
        simp

theorem trimmed_iff (els : List Element) :
    trimmed (span (segments els)) = (forParams els).map Param.value ↔
      span (segments els) = forParams els ∨ Coincidence els := by
  have hfor : ∀ p ∈ forParams els, p.name = forName := by
    intro p hp
    simpa using (List.mem_filter.mp hp).2
  by_cases hall : ∀ p ∈ span (segments els), p.name = forName
  · have hself : (span (segments els)).filter (fun p => p.name = forName) = span (segments els) :=
      List.filter_eq_self.mpr fun p hp => decide_eq_true (hall p hp)
    have hsub : (span (segments els)).Sublist (forParams els) := by
      have hfilter := (span_sublist els).filter fun p => decide (p.name = forName)
      rw [hself] at hfilter
      exact hfilter
    constructor
    · intro h
      refine Or.inl (hsub.eq_of_length ?_)
      rw [trimmed_for hall] at h
      simpa using congrArg List.length h
    · rintro (h | h)
      · rw [trimmed_for hall, h]
      · exact h.2.2
  · obtain ⟨p, hp, hname⟩ : ∃ p ∈ span (segments els), p.name ≠ forName := by
      by_contra hnot
      refine hall fun p hp => ?_
      by_contra hname
      exact hnot ⟨p, hp, hname⟩
    constructor
    · exact fun h => Or.inr ⟨⟨p, hp, hname⟩, found_of_trimmed h, h⟩
    · rintro (h | h)
      · exact absurd (hfor p (h ▸ hp)) hname
      · exact h.2.2

/-- **When no hop is lost or invented.** The entries for a well-formed header are, up to white
    space, the values of its parameters named `for` and the peer exactly if the run of parameters
    that is read is those parameters (or a coincidence makes up for longer names in it). -/
theorem hops_intact (els : List Element) (peer interface host proto : Str) :
    ∃ F, ForwardedHeader.fromInfo peer interface (headerText els) host proto = some F ∧
      (F.for_.map (strip isWhite) =
          ((forParams els).map Param.value ++ [peer]).map (strip isWhite) ↔
        span (segments els) = forParams els ∨ Coincidence els) := by
  refine ⟨_, ForwardedHeader.fromInfo_eq peer interface (headerText els) host proto, ?_⟩
  have hvalues : ((forParams els).map Param.value).map (strip isWhite) =
      (forParams els).map Param.value := by
    rw [List.map_map]
    refine List.map_congr_left fun p _ => ?_
    have hbare := strip_pad [] p.value [] nofun
      (fun c hc => (p.bare c (List.mem_append_right _ hc)).2) nofun
    rwa [List.nil_append, List.append_nil] at hbare
  rw [previous_header, List.map_append, List.map_append, List.append_cancel_right_eq,
    strip_readings, hvalues]
  exact trimmed_iff els

/-- A parameter without white space around it. -/
def Param.of (name value : Str) (h : Bare (name ++ value)) : Param where
  left := []
  name := name
  value := value
  right := []
  white := nofun
  bare := h

/-- `for=a,by=x;for=b`. -/
def bothElements : List Element :=
  [⟨.of forName ['a'] (by decide), [], by decide⟩,
    ⟨.of ['b', 'y'] ['x'] (by decide), [.of forName ['b'] (by decide)], by decide⟩]

/-- There the hop `b` is lost, and an entry `by=x` is invented. -/
theorem hops_both :
    (ForwardedHeader.fromInfo ['u'] ['0'] (headerText bothElements) ['h'] ['w', 's']).map
        ForwardedHeader.for_ = some [['a'], ['b', 'y', '=', 'x'], ['u']] ∧
      (forParams bothElements).map Param.value = [['a'], ['b']] ∧
      ¬ ∀ els peer interface host proto, ∃ F,
        ForwardedHeader.fromInfo peer interface (headerText els) host proto = some F ∧
          F.for_.map (strip isWhite) =
            ((forParams els).map Param.value ++ [peer]).map (strip isWhite) := by
  have hread : (ForwardedHeader.fromInfo ['u'] ['0'] (headerText bothElements) ['h']
      ['w', 's']).map ForwardedHeader.for_ = some [['a'], ['b', 'y', '=', 'x'], ['u']] := by
    decide
  refine ⟨hread, by decide, fun h => ?_⟩
  obtain ⟨F, hF, hfor⟩ := h bothElements ['u'] ['0'] ['h'] ['w', 's']
  rw [hF, Option.map_some] at hread
  rw [Option.some.inj hread] at hfor
  exact absurd hfor (by decide)

end Blahaj
