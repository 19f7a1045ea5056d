/-
  File:      Blahaj/Proxy/Hops.lean
  Subject:   A CHAIN OF HOPS: the `Forwarded` header printed by one proxy and read by the next.

  `Display` joins the entries with a comma and a blank, `from_info` splits them at the comma. So
  each entry but the first grows by a blank on every hop behind its own.

  * `previous_display` -- what `from_info` reads of a printed header;
  * `chain_eq` -- the header behind any number of hops;
  * `chain_intact` -- the entries are the peers exactly up to the second hop.
-/
import Blahaj.Proxy.ForwardedHeader
import Mathlib.Data.List.Induction

namespace Blahaj

open Text

/-! ## 1. Hops -/

/-- Without commas, semicolons, white space and `for=`. -/
def Clean (s : Str) : Prop := Plain s ∧ (∀ c ∈ s, isWhite c = false) ∧ ¬ forMark <:+: s

instance (s : Str) : Decidable (Clean s) :=
  have : Decidable (∀ c ∈ s, isWhite c = false) := List.decidableBAll _ s
  inferInstanceAs (Decidable (_ ∧ _ ∧ _))

/-- What one proxy knows of a request that passes it. -/
structure Hop where
  peer : Str
  interface : Str
  host : Str
  proto : Str
  clean : ∀ s ∈ [peer, interface, host, proto], Clean s

/-- The header that a hop sends on. -/
def Hop.pass (hop : Hop) (forwarded : Str) : Option ForwardedHeader :=
  ForwardedHeader.fromInfo hop.peer hop.interface forwarded hop.host hop.proto

/-- The text behind these hops, from the empty one. -/
def chainText (hops : List Hop) : Option Str :=
  hops.foldlM (fun forwarded hop => (hop.pass forwarded).map ForwardedHeader.display) []

/-- The header behind these hops and a last one. -/
def chain (hops : List Hop) (last : Hop) : Option ForwardedHeader :=
  (chainText hops).bind last.pass

/-- `by=<interface>;for=<peer>, …, for=<peer>;host=<host>;proto=<proto>`. -/
def Hop.expected (last : Hop) (peers : List Str) : Str :=
  ['b', 'y', '='] ++ last.interface ++ [';'] ++
    List.intercalate [',', ' '] (peers.map fun peer => ['f', 'o', 'r', '='] ++ peer) ++
    [';', 'h', 'o', 's', 't', '='] ++ last.host ++
    [';', 'p', 'r', 'o', 't', 'o', '='] ++ last.proto

theorem Hop.clean_peer (hop : Hop) : Clean hop.peer := hop.clean _ (by simp)

theorem Hop.clean_interface (hop : Hop) : Clean hop.interface := hop.clean _ (by simp)

/-! ## 2. Reading what was printed -/

/-- An entry that comes back as it was printed. -/
def Lasting (x : Str) : Prop := Plain x ∧ ¬ forMark <:+: x

/-- Blanks in front do no harm. -/
theorem lasting_blanks {x : Str} (h : Lasting x) (n : Nat) :
    Lasting (List.replicate n ' ' ++ x) := by
  induction n with
  | zero => exact h
  | succ n ih =>
      rw [List.replicate_succ, List.cons_append]
      refine ⟨⟨by simpa using ih.1.1, by simpa using ih.1.2⟩, ?_⟩
      rw [List.infix_cons_iff, not_or]
      exact ⟨by simp [forMark], ih.2⟩

theorem remove_forItem {x : Str} (h : Lasting x) : remove forMark (forItem x) = x := by
  have hmark : forMark <+: forItem x := List.prefix_append ..
  rw [remove_front (by decide) hmark, forItem, List.drop_left]
  exact remove_of_not_infix h.2

/-- What `from_info` reads of a printed header: its items, each without the occurrences of
    `for=`. -/
theorem previous_printed {interface x : Str} (host proto : Str) {xs : List Str}
    (hinterface : ¬ forMark <:+: interface) (h : ∀ y ∈ x :: xs, Plain y) :
    previous (ForwardedHeader.display ⟨interface, x :: xs, host, proto⟩) =
      (forItem x :: xs.map fun y => ' ' :: forItem y).map (remove forMark) := by
  have hby : tailAt forMark (['b', 'y', '='] ++ interface) = none := by
    rw [tailAt_none]
    simp only [List.cons_append, List.nil_append, List.infix_cons_iff, not_or]
    exact ⟨by simp [forMark], by simp [forMark], by simp [forMark], hinterface⟩
  have hlist : ';' ∉ forList (x :: xs) := semicolon_forList h
  have hfor : forMark <+: forList (x :: xs) ++ ';' :: (['h', 'o', 's', 't', '='] ++ host ++
      [';', 'p', 'r', 'o', 't', 'o', '='] ++ proto) := by
    refine List.prefix_append_of_prefix ?_
    cases xs with
    | nil => exact ⟨x, by simp [forList, forItem]⟩
    | cons y xs => exact ⟨_, by rw [forList, List.map_cons, List.map_cons,
        List.intercalate_cons_cons, forItem, List.append_assoc, List.append_assoc]⟩
  have htail : tailAt forMark (ForwardedHeader.display ⟨interface, x :: xs, host, proto⟩) =
      some (forList (x :: xs) ++ ';' :: (['h', 'o', 's', 't', '='] ++ host ++
        [';', 'p', 'r', 'o', 't', 'o', '='] ++ proto)) := by
    have hcut : ForwardedHeader.display ⟨interface, x :: xs, host, proto⟩ =
        (['b', 'y', '='] ++ interface) ++ ';' :: (forList (x :: xs) ++ ';' ::
          (['h', 'o', 's', 't', '='] ++ host ++ [';', 'p', 'r', 'o', 't', 'o', '='] ++ proto)) := by
      simp [ForwardedHeader.display]
    rw [hcut, tailAt_append (by decide) (by decide), hby]
    exact tailAt_front hfor
  have hspan : (forList (x :: xs) ++ ';' :: (['h', 'o', 's', 't', '='] ++ host ++
      [';', 'p', 'r', 'o', 't', 'o', '='] ++ proto)).takeWhile (· != ';') = forList (x :: xs) := by
    have hkeep : ∀ c ∈ forList (x :: xs), (c != ';') = true := by
      intro c hc
      rw [bne_iff_ne]
      rintro rfl
      exact hlist hc
    rw [List.takeWhile_append_of_pos hkeep]
    simp
  unfold previous
  simp only [htail, hspan]
  rw [splitOn_forList fun y hy => (h y hy).1]

/-- **Where no entry holds a `for=`**: the entries, each but the first with the blank that stands
    before it. -/
theorem previous_display {interface x : Str} (host proto : Str) {xs : List Str}
    (hinterface : ¬ forMark <:+: interface) (h : ∀ y ∈ x :: xs, Lasting y) :
    previous (ForwardedHeader.display ⟨interface, x :: xs, host, proto⟩) =
      x :: xs.map (' ' :: ·) := by
  rw [previous_printed host proto hinterface fun y hy => (h y hy).1, List.map_cons, List.map_map,
    remove_forItem (h x (List.mem_cons_self ..))]
  congr 1
  refine List.map_congr_left fun y hy => ?_
  rw [Function.comp_apply, remove_cons (by simp [forMark]),
    remove_forItem (h y (List.mem_cons_of_mem _ hy))]

/-! ## 3. The chain -/

/-- Entries with as many blanks before each as entries follow it. -/
def aged : List Str → List Str
  | [] => []
  | x :: xs => (List.replicate xs.length ' ' ++ x) :: aged xs

/-- The entries behind the hops of these peers. -/
def entries : List Str → List Str
  | [] => []
  | x :: xs => x :: aged xs

theorem aged_snoc (xs : List Str) (x : Str) :
    aged (xs ++ [x]) = (aged xs).map (' ' :: ·) ++ [x] := by
  induction xs with
  | nil => rfl
  | cons y xs ih =>
      rw [List.cons_append, aged, ih, aged, List.length_append, List.length_singleton,
        List.replicate_succ]
      rfl

theorem lasting_aged {xs : List Str} (h : ∀ x ∈ xs, Lasting x) : ∀ y ∈ aged xs, Lasting y := by
  induction xs with
  | nil => exact nofun
  | cons x xs ih =>
      intro y hy
      rcases List.mem_cons.mp hy with rfl | hy
      · exact lasting_blanks (h x (List.mem_cons_self ..)) _
      · exact ih (fun z hz => h z (List.mem_cons_of_mem _ hz)) y hy

/-- Blanks are there exactly if there are two entries or more. -/
theorem aged_eq_self {xs : List Str} : aged xs = xs ↔ xs.length ≤ 1 := by
  cases xs with
  | nil => exact ⟨fun _ => Nat.zero_le _, fun _ => rfl⟩
  | cons x xs =>
      cases xs with
      | nil => exact ⟨fun _ => Nat.le_refl _, fun _ => rfl⟩
      | cons y xs =>
          constructor
          · intro h
            have hlen := congrArg List.length (List.cons.inj h).1
            rw [List.length_append, List.length_replicate, List.length_cons] at hlen
            omega
          · intro h
            rw [List.length_cons, List.length_cons] at h
            omega

/-- **The header behind a chain of hops.** -/
theorem chain_eq (hops : List Hop) (last : Hop) :
    chain hops last = some ⟨last.interface, entries (hops.map Hop.peer ++ [last.peer]),
      last.host, last.proto⟩ := by
  induction hops using List.reverseRecOn generalizing last with
  | nil =>
      have hnone : previous [] = [] := by decide
      show ForwardedHeader.fromInfo last.peer last.interface [] last.host last.proto = _
      rw [ForwardedHeader.fromInfo_eq, hnone]
      rfl
  | append_singleton hops prev ih =>
      have htext : chainText (hops ++ [prev]) = (chain hops prev).map ForwardedHeader.display := by
        unfold chain chainText
        rw [List.foldlM_append]
        cases List.foldlM (fun forwarded hop =>
          (Hop.pass hop forwarded).map ForwardedHeader.display) [] hops with
        | none => rfl
        | some text => simp [List.foldlM]
      obtain ⟨p, ps, hps⟩ : ∃ p ps, hops.map Hop.peer ++ [prev.peer] = p :: ps :=
        List.exists_cons_of_ne_nil (by simp)
      have hlasting : ∀ x ∈ p :: ps, Lasting x := by
        intro x hx
        rw [← hps, ← List.map_singleton, ← List.map_append] at hx
        obtain ⟨hop, -, rfl⟩ := List.mem_map.mp hx
        exact ⟨hop.clean_peer.1, hop.clean_peer.2.2⟩
      have hentries : ∀ x ∈ p :: aged ps, Lasting x := by
        intro x hx
        rcases List.mem_cons.mp hx with rfl | hx
        · exact hlasting x (List.mem_cons_self ..)
        · exact lasting_aged (fun y hy => hlasting y (List.mem_cons_of_mem _ hy)) x hx
      have hread := previous_display prev.host prev.proto
        prev.clean_interface.2.2 hentries
      have hprev := ih prev
      rw [hps] at hprev
      rw [List.map_append, List.map_singleton, hps]
      unfold chain
      rw [htext, hprev]
      show ForwardedHeader.fromInfo last.peer last.interface _ last.host last.proto = _
      rw [ForwardedHeader.fromInfo_eq]
      simp only [entries, hread, List.cons_append, aged_snoc]

/-- **The header survives a chain of hops exactly up to the second one**: there the entries are
    the peers and the text is the expected one. -/
theorem chain_intact (hops : List Hop) (last : Hop) :
    ∃ F, chain hops last = some F ∧
      ((F.for_ = hops.map Hop.peer ++ [last.peer] ∧
          F.display = last.expected (hops.map Hop.peer ++ [last.peer])) ↔
        (hops ++ [last]).length ≤ 2) := by
  refine ⟨_, chain_eq hops last, ?_⟩
  obtain ⟨p, ps, hps⟩ : ∃ p ps, hops.map Hop.peer ++ [last.peer] = p :: ps :=
    List.exists_cons_of_ne_nil (by simp)
  have hlen : hops.length + 1 = ps.length + 1 := by simpa using congrArg List.length hps
  have hintact : entries (p :: ps) = p :: ps ↔ (hops ++ [last]).length ≤ 2 := by
    rw [entries, List.cons_inj_right, aged_eq_self, List.length_append, List.length_singleton]
    omega
  rw [hps]
  constructor
  · exact fun h => hintact.mp h.1
  · intro h
    have heq := hintact.mpr h
    refine ⟨heq, ?_⟩
    show ForwardedHeader.display ⟨last.interface, entries (p :: ps), last.host, last.proto⟩ = _
    rw [heq]
    rfl

/-- A hop for a peer of this name. -/
def Hop.ofPeer (c : Char) (hc : Clean [c]) : Hop where
  peer := [c]
  interface := ['0']
  host := ['h']
  proto := ['w', 's']
  clean s hs := by
    rcases List.mem_cons.mp hs with rfl | hs
    · exact hc
    · simp only [List.mem_cons, List.not_mem_nil, or_false] at hs
      rcases hs with rfl | rfl | rfl <;> decide

/-- Hops for the peers `a`, `b` and `c`. -/
def hopA : Hop := .ofPeer 'a' (by decide)

def hopB : Hop := .ofPeer 'b' (by decide)

def hopC : Hop := .ofPeer 'c' (by decide)

/-- At the third hop a blank stands before the second peer. -/
theorem chain_third :
    (chain [hopA, hopB] hopC).map ForwardedHeader.for_ = some [['a'], [' ', 'b'], ['c']] ∧
      ¬ ∀ hops last, ∃ F, chain hops last = some F ∧
        F.for_ = hops.map Hop.peer ++ [last.peer] := by
  have hthree : (chain [hopA, hopB] hopC).map ForwardedHeader.for_ =
      some [['a'], [' ', 'b'], ['c']] := by
    decide
  refine ⟨hthree, fun h => ?_⟩
  obtain ⟨F, hF, hfor⟩ := h [hopA, hopB] hopC
  rw [hF, Option.map_some, hfor] at hthree
  exact absurd hthree (by decide)

end Blahaj
