/-
  File:      Blahaj/Proxy/ForwardedHeader.lean
  Subject:   The `Forwarded` header of proxy/forwarded_header.rs: `from_info` and `Display`.

  `from_info` slices its text at byte offsets; the result is `none` for a panic.

  * `previous` -- the entries that `from_info` takes over; `fromInfo_eq`: it never panics, and
    puts the peer behind them;
  * `fields_display`, `splitOn_forList` -- how the printed header reads to the next hop: its fields,
    and the items of its list;
  * `fromInfo_trusted` -- whatever text comes in, the trusted part of the header is the proxy's.
-/
import Blahaj.Base
import Blahaj.Lib.Text

namespace Blahaj

open Text

/-! ## 1. The header -/

structure ForwardedHeader where
  by_ : Str
  for_ : List Str
  host : Str
  proto : Str
  deriving DecidableEq, Repr

/-- `for=`. -/
def forMark : Str := ['f', 'o', 'r', '=']

/-- `ForwardedHeader::from_info`. -/
def ForwardedHeader.fromInfo (peer interface forwarded host proto : Str) :
    Option ForwardedHeader :=
  let fors := match find forMark forwarded with
    | none => some []
    | some forStart =>
      (sliceFrom forwarded forStart).bind fun rest =>
        let forwardedFor := match find [';'] rest with
          | none => slice forwarded forStart (size forwarded)
          | some forEnd => slice forwarded forStart (forStart + forEnd)
        forwardedFor.map fun (forwardedFor : Str) => (forwardedFor.splitOn ',').map (remove forMark)
  fors.map fun fors => { by_ := interface, for_ := fors ++ [peer], host := host, proto := proto }

/-- `for=x`, as an entry is printed. -/
def forItem (x : Str) : Str := forMark ++ x

/-- The for list as it is printed: `for=x, for=y`. -/
def forList (entries : List Str) : Str := List.intercalate [',', ' '] (entries.map forItem)

/-- `fmt::Display for ForwardedHeader`. -/
def ForwardedHeader.display (self : ForwardedHeader) : Str :=
  ['b', 'y', '='] ++ self.by_ ++ [';'] ++ forList self.for_ ++ [';', 'h', 'o', 's', 't', '='] ++
    self.host ++ [';', 'p', 'r', 'o', 't', 'o', '='] ++ self.proto

/-! ## 2. What `from_info` takes over -/

/-- The entries of an incoming text: from its first `for=` to the next semicolon, split at the
    commas, each without the occurrences of `for=`. -/
def previous (forwarded : Str) : List Str :=
  match tailAt forMark forwarded with
  | none => []
  | some rest => ((rest.takeWhile (· != ';')).splitOn ',').map (remove forMark)

/-- **`from_info` never panics**: its slices are at the borders of what it found. -/
theorem ForwardedHeader.fromInfo_eq (peer interface forwarded host proto : Str) :
    fromInfo peer interface forwarded host proto =
      some ⟨interface, previous forwarded ++ [peer], host, proto⟩ := by
  unfold fromInfo previous
  cases htail : tailAt forMark forwarded with
  | none => rw [find_none htail]; rfl
  | some rest =>
      obtain ⟨front, hcut, hfind⟩ := find_some htail
      have hwhole : slice forwarded (size front) (size front + size rest) = some rest := by
        rw [hcut, ← List.append_nil rest, ← List.append_assoc, List.append_assoc]
        simpa using slice_append front rest []
      have hspan : slice forwarded (size front)
          (size front + size (rest.takeWhile (· != ';'))) = some (rest.takeWhile (· != ';')) := by
        have h := slice_append front (rest.takeWhile (· != ';')) (rest.dropWhile (· != ';'))
        rw [List.takeWhile_append_dropWhile, ← hcut] at h
        exact h
      have hrest : sliceFrom forwarded (size front) = some rest := by
        rw [hcut]
        exact sliceFrom_append front rest
      have hsize : size forwarded = size front + size rest := by
        rw [hcut, size_append]
      simp only [hfind, hrest, Option.bind_some, find_singleton, hsize]
      by_cases hsemi : ';' ∈ rest
      · simp only [if_pos hsemi, hspan, Option.map_some]
      · have hall : rest.takeWhile (· != ';') = rest :=
          List.takeWhile_eq_self_iff.mpr fun c hc => bne_iff_ne.mpr fun heq => hsemi (heq ▸ hc)
        simp only [if_neg hsemi, hwhole, Option.map_some, hall]

/-- No entry that was taken over holds a comma or a semicolon. -/
theorem plain_previous {forwarded x : Str} (hx : x ∈ previous forwarded) : ',' ∉ x ∧ ';' ∉ x := by
  unfold previous at hx
  cases htail : tailAt forMark forwarded with
  | none =>
      rw [htail] at hx
      cases hx
  | some rest =>
      rw [htail] at hx
      obtain ⟨piece, hpiece, rfl⟩ := List.mem_map.mp hx
      obtain ⟨hcomma, hsub⟩ := of_mem_splitOn hpiece
      constructor
      · exact fun h => hcomma (mem_of_mem_remove h)
      · intro h
        have hspan := List.mem_takeWhile_imp (hsub ';' (mem_of_mem_remove h))
        simp at hspan

/-! ## 3. The printed header, as it is read -/

/-- The fields of a printed header. -/
def ForwardedHeader.fields (self : ForwardedHeader) : List Str := self.display.splitOn ';'

/-- The items of the for list in a printed header. -/
def ForwardedHeader.items (self : ForwardedHeader) : List Str :=
  (self.fields.getD 1 []).splitOn ','

/-- No comma and no semicolon. -/
def Plain (s : Str) : Prop := ',' ∉ s ∧ ';' ∉ s

instance (s : Str) : Decidable (Plain s) := inferInstanceAs (Decidable (_ ∧ _))

theorem semicolon_forList {entries : List Str} (h : ∀ x ∈ entries, Plain x) :
    ';' ∉ forList entries := by
  intro hmem
  rcases of_mem_intercalate hmem with hsep | ⟨piece, hpiece, hmem⟩
  · exact absurd hsep (by decide)
  · obtain ⟨x, hx, rfl⟩ := List.mem_map.mp hpiece
    rcases List.mem_append.mp hmem with hmark | hmem
    · exact absurd hmark (by decide)
    · exact (h x hx).2 hmem

/-- **A printed header reads as four fields.** -/
theorem ForwardedHeader.fields_display {F : ForwardedHeader} (hby : Plain F.by_)
    (hfor : ∀ x ∈ F.for_, Plain x) (hhost : Plain F.host) (hproto : Plain F.proto) :
    F.fields = [['b', 'y', '='] ++ F.by_, forList F.for_, ['h', 'o', 's', 't', '='] ++ F.host,
      ['p', 'r', 'o', 't', 'o', '='] ++ F.proto] := by
  have hby' : ';' ∉ ['b', 'y', '='] ++ F.by_ := by simp [hby.2]
  have hhost' : ';' ∉ ['h', 'o', 's', 't', '='] ++ F.host := by simp [hhost.2]
  have hproto' : ';' ∉ ['p', 'r', 'o', 't', 'o', '='] ++ F.proto := by simp [hproto.2]
  have hdisplay : F.display = (['b', 'y', '='] ++ F.by_) ++ ';' :: (forList F.for_ ++
      ';' :: ((['h', 'o', 's', 't', '='] ++ F.host) ++
        ';' :: (['p', 'r', 'o', 't', 'o', '='] ++ F.proto))) := by
    simp [display]
  rw [fields, hdisplay, List.splitOn_append_cons_self_of_not_mem hby',
    List.splitOn_append_cons_self_of_not_mem (semicolon_forList hfor),
    List.splitOn_append_cons_self_of_not_mem hhost', List.splitOn_eq_singleton hproto']

/-- A printed for list reads as its items, each but the first behind a blank. -/
theorem splitOn_forList {x : Str} {xs : List Str} (h : ∀ y ∈ x :: xs, ',' ∉ y) :
    (forList (x :: xs)).splitOn ',' = forItem x :: xs.map fun y => ' ' :: forItem y := by
  have hitem : ∀ y ∈ x :: xs, ',' ∉ forItem y := by
    intro y hy hmem
    rcases List.mem_append.mp hmem with hmark | hmem
    · exact absurd hmark (by decide)
    · exact h y hy hmem
  have hjoin : (List.intercalate [',', ' '] (forItem x :: xs.map forItem)).splitOn ',' =
      forItem x :: (xs.map forItem).map (' ' :: ·) := by
    refine splitOn_join (by decide) (hitem x (List.mem_cons_self ..)) fun y hy => ?_
    obtain ⟨z, hz, rfl⟩ := List.mem_map.mp hy
    exact hitem z (List.mem_cons_of_mem _ hz)
  rw [List.map_map] at hjoin
  exact hjoin

theorem forItem_trimmed (x : Str) : (forItem x).dropWhile isWhite = forItem x := rfl

/-! ## 4. The trusted part -/

/-- What the next hop can trust of the header of a request from `peer`: the last entry of the for
    list, the four fields and where the items end. -/
structure ForwardedHeader.Trusted (F : ForwardedHeader) (peer interface host proto : Str) :
    Prop where
  nonempty : F.for_ ≠ []
  last : F.for_.getLast? = some peer
  plain : ∀ x ∈ F.for_, Plain x
  fields : ∃ list, F.fields = [['b', 'y', '='] ++ interface, list,
    ['h', 'o', 's', 't', '='] ++ host, ['p', 'r', 'o', 't', 'o', '='] ++ proto]
  count : F.items.length = F.for_.length
  marked : ∀ item ∈ F.items, forMark <+: item.dropWhile isWhite
  lastItem : F.items.getLast?.map (List.dropWhile isWhite) = some (forMark ++ peer)

/-- A header whose last entry is the peer, printed from plain parts. -/
theorem ForwardedHeader.trusted_of_plain {peer interface host proto : Str} {entries : List Str}
    (hpeer : Plain peer) (hinterface : Plain interface) (hhost : Plain host)
    (hproto : Plain proto) (hentries : ∀ x ∈ entries, Plain x) :
    Trusted ⟨interface, entries ++ [peer], host, proto⟩ peer interface host proto := by
  have hplain : ∀ x ∈ entries ++ [peer], Plain x := by
    intro x hx
    rcases List.mem_append.mp hx with hx | hx
    · exact hentries x hx
    · exact List.mem_singleton.mp hx ▸ hpeer
  have hfields := fields_display (F := ⟨interface, entries ++ [peer], host, proto⟩) hinterface
    hplain hhost hproto
  have hitems : items ⟨interface, entries ++ [peer], host, proto⟩ =
      (forList (entries ++ [peer])).splitOn ',' := by
    unfold items
    rw [hfields]
    rfl
  cases entries with
  | nil =>
      have hsplit : (forList [peer]).splitOn ',' = [forItem peer] :=
        splitOn_forList fun y hy => (hplain y hy).1
      have hone := hitems.trans hsplit
      refine ⟨by simp, rfl, hplain, ⟨_, hfields⟩, by rw [hone]; rfl, ?_, by rw [hone]; rfl⟩
      intro item hitem
      rw [hone, List.mem_singleton] at hitem
      rw [hitem, forItem_trimmed]
      exact List.prefix_append ..
  | cons x xs =>
      have hsplit : (forList (x :: (xs ++ [peer]))).splitOn ',' =
          forItem x :: (xs ++ [peer]).map fun y => ' ' :: forItem y :=
        splitOn_forList fun y hy => (hplain y hy).1
      have hmore := hitems.trans hsplit
      refine ⟨by simp, List.getLast?_concat .., hplain, ⟨_, hfields⟩, by rw [hmore]; simp, ?_, ?_⟩
      · intro item hitem
        rw [hmore] at hitem
        rcases List.mem_cons.mp hitem with rfl | hitem
        · rw [forItem_trimmed]
          exact List.prefix_append ..
        · obtain ⟨y, -, rfl⟩ := List.mem_map.mp hitem
          exact List.prefix_append ..
      · rw [hmore, List.map_append, ← List.cons_append, List.map_singleton, List.getLast?_concat]
        rfl

/-- **A client cannot forge the trusted part.** For any incoming text `from_info` slices in
    bounds, and the printed header reads as four fields, the proxy's but for the for list; its
    items are as many as the entries, each a `for=`, and the last one is the peer. So two
    incoming texts make a difference only before the last item of the for list. -/
theorem ForwardedHeader.fromInfo_trusted {peer interface host proto : Str} (hpeer : Plain peer)
    (hinterface : Plain interface) (hhost : Plain host) (hproto : Plain proto) :
    (∀ forwarded, ∃ F, fromInfo peer interface forwarded host proto = some F ∧
      F.Trusted peer interface host proto) ∧
    ∀ forwarded forwarded' F F', fromInfo peer interface forwarded host proto = some F →
      fromInfo peer interface forwarded' host proto = some F' →
      F.fields.eraseIdx 1 = F'.fields.eraseIdx 1 ∧
        F.items.getLast?.map (List.dropWhile isWhite) =
          F'.items.getLast?.map (List.dropWhile isWhite) := by
  have htrusted (forwarded : Str) :
      Trusted ⟨interface, previous forwarded ++ [peer], host, proto⟩ peer interface host proto :=
    trusted_of_plain hpeer hinterface hhost hproto fun _ hx => plain_previous hx
  constructor
  · intro forwarded
    exact ⟨_, fromInfo_eq peer interface forwarded host proto, htrusted forwarded⟩
  · intro forwarded forwarded' F F' hF hF'
    rw [fromInfo_eq] at hF hF'
    cases hF
    cases hF'
    obtain ⟨list, hfields⟩ := (htrusted forwarded).fields
    obtain ⟨list', hfields'⟩ := (htrusted forwarded').fields
    constructor
    · rw [hfields, hfields']
      rfl
    · rw [(htrusted forwarded).lastItem, (htrusted forwarded').lastItem]

/-- The header a client sends with a forged last hop. -/
theorem ForwardedHeader.fromInfo_trusted_unknown :
    (∀ forwarded, ∃ F, fromInfo ['u'] ['0'] forwarded ['h'] ['h', 't', 't', 'p'] = some F ∧
      F.Trusted ['u'] ['0'] ['h'] ['h', 't', 't', 'p']) ∧
    ∀ forwarded forwarded' F F',
      fromInfo ['u'] ['0'] forwarded ['h'] ['h', 't', 't', 'p'] = some F →
      fromInfo ['u'] ['0'] forwarded' ['h'] ['h', 't', 't', 'p'] = some F' →
      F.fields.eraseIdx 1 = F'.fields.eraseIdx 1 ∧
        F.items.getLast?.map (List.dropWhile isWhite) =
          F'.items.getLast?.map (List.dropWhile isWhite) :=
  fromInfo_trusted (by decide) (by decide) (by decide) (by decide)

/-- A text made so that the replacement leaves a new `for=`. -/
example : (ForwardedHeader.fromInfo ['u'] ['0'] ['f', 'o', 'r', '=', 'f', 'o', 'f', 'o', 'r', '=',
    'r', '=', 'x', ';', 'y'] ['h'] ['w', 's']).map ForwardedHeader.for_ =
      some [['f', 'o', 'r', '=', 'x'], ['u']] := by decide

end Blahaj
