/-
  File:      Blahaj/Proxy/Slashes.lean
  Subject:   SLASHES BEFORE THE PATH, AND THE RELAY AT THE ROOT.

  `get` looks up the path without any of the slashes before it, and then strips one slash and the
  key from the path with all of them. The chain of ancestors ends at the first segment, so the
  empty key is on it for the empty path alone.

  * `not_mounted_root` -- the chain does not end at the root;
  * `get_slashes` -- when repeated slashes make no difference;
  * `get_root` -- when the relay at the root gets what no other relay takes.
-/
import Blahaj.Proxy.Route

namespace Blahaj

open Segments

/-! ## 1. The chain and the root -/

/-- The empty key is not on the chain of a path that goes on. -/
theorem not_mounted_root {p : Str} (hp : p ≠ []) (hslash : p.head? ≠ some '/') :
    ¬ Mounted '/' [] p := by
  rintro (rfl | ⟨t, ht⟩)
  · exact hp rfl
  · exact hslash (by rw [← ht]; rfl)

/-- Only the empty key is on the chain of the empty path. -/
theorem mounted_nil {k : Str} : Mounted '/' k [] ↔ k = [] := by
  constructor
  · intro h
    exact List.prefix_nil.mp h.prefixOf
  · rintro rfl
    exact Or.inl rfl

/-! ## 2. Slashes before the path -/

theorem trimStart_slashes {path p : Str} {n : Nat} (hpath : path = List.replicate n '/' ++ p)
    (hslash : p.head? ≠ some '/') : trimStart '/' path = p := by
  rw [hpath, trimStart_replicate_append, trimStart_of_head hslash]

/-- With a second slash before the path no key is stripped off. -/
theorem dropPrefix_slashes {k p : Str} {n : Nat} (hk : k ≠ []) (hpre : k <+: p)
    (hslash : p.head? ≠ some '/') :
    (List.replicate (n + 2) '/' ++ p).dropPrefix? ('/' :: k) = none := by
  obtain ⟨c, k, rfl⟩ := List.exists_cons_of_ne_nil hk
  obtain ⟨t, rfl⟩ := hpre
  have hc : ('/' == c) = false := beq_eq_false_iff_ne.mpr fun heq => hslash (by rw [heq]; rfl)
  rw [List.replicate_succ, List.replicate_succ]
  simp [List.dropPrefix?, hc]

/-- What `get` answers is determined by the entry, the remainder without its leading slashes and
    the query. -/
theorem ProxyConfig.get_congr {H : HttpCrate} {self : ProxyConfig} {req₁ req₂ : RequestUri H}
    {k rest₁ rest₂ : Str} {entry : ProxyEntry} (hres₁ : self.resolve req₁.path = some (k, entry))
    (hres₂ : self.resolve req₂.path = some (k, entry))
    (hdrop₁ : req₁.path.dropPrefix? ('/' :: k) = some rest₁)
    (hdrop₂ : req₂.path.dropPrefix? ('/' :: k) = some rest₂)
    (hrest : trimStart '/' rest₁ = trimStart '/' rest₂) (hquery : req₁.query = req₂.query) :
    self.get H req₁ = self.get H req₂ := by
  unfold ProxyConfig.get
  simp only [hres₁, hres₂, hdrop₁, hdrop₂, hrest, hquery]

/-- An entry whose key cannot be stripped off routes nothing. -/
theorem ProxyConfig.get_blocked {H : HttpCrate} {self : ProxyConfig} {req : RequestUri H} {k : Str}
    {entry : ProxyEntry} (hres : self.resolve req.path = some (k, entry))
    (hdrop : req.path.dropPrefix? ('/' :: k) = none) : self.get H req = some none := by
  unfold ProxyConfig.get
  simp only [hres, hdrop]

theorem dropPrefix_append (a b : Str) : (a ++ b).dropPrefix? a = some b := by
  rw [List.dropPrefix?_eq_some_iff]
  exact ⟨a, rfl, by simp⟩

/-- What the lookup finds does not depend on the number of slashes. -/
theorem ProxyConfig.resolve_slashes {self : ProxyConfig} {p₁ p₂ p : Str}
    (htrim₁ : trimStart '/' p₁ = p) (htrim₂ : trimStart '/' p₂ = p) :
    self.resolve p₁ = self.resolve p₂ := by
  unfold ProxyConfig.resolve
  rw [htrim₁, htrim₂]

/-- A path of slashes is answered like `/`: nothing is left behind them, however many there
    are. -/
theorem ProxyConfig.get_bare {H : HttpCrate} (relays : List HttpRelay) (bind : SocketAddr)
    {req₁ req₂ : RequestUri H} {n : Nat} (hpath₁ : req₁.path = List.replicate (n + 1) '/')
    (hpath₂ : req₂.path = ['/']) (hquery : req₁.query = req₂.query) :
    (ProxyConfig.new relays bind).get H req₁ = (ProxyConfig.new relays bind).get H req₂ := by
  have htrim₁ : trimStart '/' req₁.path = [] :=
    trimStart_slashes (hpath₁.trans (List.append_nil _).symm) (by simp)
  have htrim₂ : trimStart '/' req₂.path = [] := trimStart_path hpath₂ (by simp)
  have hsame : (ProxyConfig.new relays bind).resolve req₁.path =
      (ProxyConfig.new relays bind).resolve req₂.path := ProxyConfig.resolve_slashes htrim₁ htrim₂
  cases hres : (ProxyConfig.new relays bind).resolve req₂.path with
  | none => rw [ProxyConfig.get_unrouted hres, ProxyConfig.get_unrouted (hsame.trans hres)]
  | some found =>
      obtain ⟨k, entry⟩ := found
      obtain ⟨hmount, -⟩ := ProxyConfig.resolve_some hres
      rw [htrim₂, mounted_nil] at hmount
      have hdrop₁ : req₁.path.dropPrefix? ('/' :: k) = some (List.replicate n '/') := by
        rw [hpath₁, hmount, List.replicate_succ]
        exact dropPrefix_append ['/'] (List.replicate n '/')
      have hdrop₂ : req₂.path.dropPrefix? ('/' :: k) = some [] := by
        rw [hpath₂, hmount]
        exact dropPrefix_append ['/'] []
      have hempty : trimStart '/' (List.replicate n '/') = trimStart '/' [] := by
        rw [← List.append_nil (List.replicate n '/'), trimStart_replicate_append]
      exact ProxyConfig.get_congr (hsame.trans hres) hres hdrop₁ hdrop₂ hempty hquery

/-- Behind two or more slashes a path that goes on is answered like behind one exactly if no relay
    is mounted on it: the lookup finds the relay, and the second slash is in the way of its key. -/
theorem ProxyConfig.get_behind {H : HttpCrate} (hH : H.Lawful) (relays : List HttpRelay)
    (bind : SocketAddr) {req₁ req₂ : RequestUri H} {n : Nat} {p : Str} (hp : p ≠ [])
    (hslash : p.head? ≠ some '/') (hpath₁ : req₁.path = List.replicate (n + 2) '/' ++ p)
    (hpath₂ : req₂.path = '/' :: p) :
    (ProxyConfig.new relays bind).get H req₁ = (ProxyConfig.new relays bind).get H req₂ ↔
      ∀ r ∈ relays, ¬ Mounted '/' r.key p := by
  have htrim₂ := trimStart_path hpath₂ hslash
  have hsame : (ProxyConfig.new relays bind).resolve req₁.path =
      (ProxyConfig.new relays bind).resolve req₂.path :=
    ProxyConfig.resolve_slashes (trimStart_slashes hpath₁ hslash) htrim₂
  cases hres : (ProxyConfig.new relays bind).resolve req₂.path with
  | none =>
      have hnone := ProxyConfig.resolve_none.mp hres
      rw [htrim₂] at hnone
      rw [ProxyConfig.get_unrouted hres, ProxyConfig.get_unrouted (hsame.trans hres)]
      exact iff_of_true rfl hnone
  | some found =>
      obtain ⟨k, entry⟩ := found
      obtain ⟨hmount, ⟨r, hr, rfl, rfl⟩, -⟩ := ProxyConfig.resolve_some hres
      rw [htrim₂] at hmount
      obtain ⟨rest, hrest⟩ := hmount.prefixOf
      have hk : r.key ≠ [] := fun hk => not_mounted_root hp hslash (hk ▸ hmount)
      have hdrop₁ : req₁.path.dropPrefix? ('/' :: r.key) = none := by
        rw [hpath₁]
        exact dropPrefix_slashes hk hmount.prefixOf hslash
      have hget₁ := ProxyConfig.get_blocked (H := H) (hsame.trans hres) hdrop₁
      have hget₂ := ProxyConfig.get_routed hH hpath₂ hrest.symm hres
      rw [hget₁, hget₂]
      exact iff_of_false nofun fun h => h r hr hmount

/-- **When repeated slashes make no difference.** For a path `p` behind `n` slashes `get` answers
    what it answers for `/p` exactly if there is one slash, or `p` is empty, or no relay is
    mounted on `p`. -/
theorem ProxyConfig.get_slashes {H : HttpCrate} (hH : H.Lawful) (relays : List HttpRelay)
    (bind : SocketAddr) {req₁ req₂ : RequestUri H} {n : Nat} {p : Str} (hn : 1 ≤ n)
    (hslash : p.head? ≠ some '/') (hpath₁ : req₁.path = List.replicate n '/' ++ p)
    (hpath₂ : req₂.path = '/' :: p) (hquery : req₁.query = req₂.query) :
    (ProxyConfig.new relays bind).get H req₁ = (ProxyConfig.new relays bind).get H req₂ ↔
      n = 1 ∨ p = [] ∨ ∀ r ∈ relays, ¬ Mounted '/' r.key p := by
  obtain ⟨n, rfl⟩ : ∃ m, n = m + 1 := ⟨n - 1, by omega⟩
  by_cases hp : p = []
  · subst hp
    rw [List.append_nil] at hpath₁
    exact ⟨fun _ => Or.inr (Or.inl rfl), fun _ =>
      ProxyConfig.get_bare relays bind hpath₁ hpath₂ hquery⟩
  · cases n with
    | zero =>
        have hreq : req₁ = req₂ := by
          cases req₁
          cases req₂
          congr
          exact hpath₁.trans hpath₂.symm
        exact ⟨fun _ => Or.inl rfl, fun _ => by rw [hreq]⟩
    | succ n =>
        rw [ProxyConfig.get_behind hH relays bind hp hslash hpath₁ hpath₂]
        constructor
        · exact fun hall => Or.inr (Or.inr hall)
        · rintro (hone | hnil | hall)
          · omega
          · exact absurd hnil hp
          · exact hall

/-- A relay at `a`. -/
def relayA : HttpRelay := ⟨80, ['a'], false, true, none⟩

/-- A request for `//a`. -/
def slashesA : RequestUri HttpCrate.ascii :=
  .ascii ['/', '/', 'a'] none rfl no_query

/-- A request for `/a`. -/
def slashA : RequestUri HttpCrate.ascii := .ascii ['/', 'a'] none rfl no_query

theorem ProxyConfig.get_slashes_two :
    (ProxyConfig.new [relayA] ⟨[], 8080⟩).get HttpCrate.ascii slashesA =
        (ProxyConfig.new [relayA] ⟨[], 8080⟩).get HttpCrate.ascii slashA ↔
      2 = 1 ∨ (['a'] : Str) = [] ∨ ∀ r ∈ [relayA], ¬ Mounted '/' r.key ['a'] :=
  ProxyConfig.get_slashes HttpCrate.ascii_lawful [relayA] ⟨[], 8080⟩ (by decide) (by decide) rfl
    rfl rfl

/-- For `//a` the entry of `a` is found, and nothing is routed. -/
theorem ProxyConfig.get_two_slashes :
    (ProxyConfig.new [relayA] ⟨[], 8080⟩).resolve slashesA.path =
        some (relayA.key, .ofRelay relayA) ∧
      (ProxyConfig.new [relayA] ⟨[], 8080⟩).get HttpCrate.ascii slashesA = some none ∧
      (ProxyConfig.new [relayA] ⟨[], 8080⟩).get HttpCrate.ascii slashA =
        some (some ⟨.http, loopback 80, ⟨['/'], none⟩⟩) := by
  decide

/-! ## 3. The relay at the root -/

/-- The request is routed to this relay: to its port, by its scheme, with the query as it came. -/
def ProxyConfig.RoutesTo {H : HttpCrate} (self : ProxyConfig) (req : RequestUri H)
    (relay : HttpRelay) : Prop :=
  ∃ u, self.get H req = some (some u) ∧ u.authority = loopback relay.port ∧
    u.scheme = (if relay.https then .https else .http) ∧ u.pathAndQuery.query = req.query

/-- **When the relay at the root gets what no other relay takes**: only for the path `/`. -/
theorem ProxyConfig.get_root {H : HttpCrate} (hH : H.Lawful) {relays : List HttpRelay}
    (hdistinct : (relays.map HttpRelay.key).Nodup) (bind : SocketAddr) {root : HttpRelay}
    (hmem : root ∈ relays) (hroot : root.key = []) {req : RequestUri H} {p : Str}
    (hpath : req.path = '/' :: p) (hslash : p.head? ≠ some '/')
    (hothers : ∀ r ∈ relays, r ≠ root → ¬ Mounted '/' r.key p) :
    (ProxyConfig.new relays bind).RoutesTo req root ↔ p = [] := by
  have htrim := trimStart_path hpath hslash
  constructor
  · rintro ⟨u, hget, -⟩
    by_contra hp
    have hres : (ProxyConfig.new relays bind).resolve req.path = none := by
      rw [ProxyConfig.resolve_none, htrim]
      intro r hr
      by_cases heq : r = root
      · rw [heq, hroot]
        exact not_mounted_root hp hslash
      · exact hothers r hr heq
    rw [ProxyConfig.get_unrouted hres] at hget
    cases hget
  · intro hp
    have hmount : Mounted '/' root.key (trimStart '/' req.path) := by
      rw [htrim, hp, hroot]
      exact Or.inl rfl
    cases hres : (ProxyConfig.new relays bind).resolve req.path with
    | none => exact absurd hmount (ProxyConfig.resolve_none.mp hres root hmem)
    | some found =>
        obtain ⟨k, entry⟩ := found
        obtain ⟨hmount', ⟨r, hr, rfl, rfl⟩, -⟩ := ProxyConfig.resolve_some hres
        rw [htrim, hp, mounted_nil] at hmount'
        have heq : r = root := List.inj_on_of_nodup_map hdistinct hr hmem (by rw [hmount', hroot])
        subst heq
        have hrest : p = r.key ++ [] := by rw [hp, hroot]; rfl
        have hget := ProxyConfig.get_routed hH hpath hrest hres
        exact ⟨_, hget, rfl, rfl, rfl⟩

/-- A relay at the root. -/
def rootRelay : HttpRelay := ⟨81, ['/'], false, true, none⟩

theorem only_relayA {p : Str} (h : ¬ Mounted '/' relayA.key p) :
    ∀ r ∈ [relayA, rootRelay], r ≠ rootRelay → ¬ Mounted '/' r.key p := by
  intro r hr hne
  rcases List.mem_cons.mp hr with rfl | hr
  · exact h
  · exact absurd (List.mem_singleton.mp hr) hne

theorem ProxyConfig.get_root_bare :
    (ProxyConfig.new [relayA, rootRelay] ⟨[], 8080⟩).RoutesTo
      (.ascii ['/'] none rfl rfl : RequestUri HttpCrate.ascii) rootRelay ↔ ([] : Str) = [] :=
  ProxyConfig.get_root HttpCrate.ascii_lawful (by decide) ⟨[], 8080⟩ (by decide) (by decide) rfl
    (by decide) (only_relayA fun h => absurd (mounted_nil.mp h) (by decide))

/-- A request for `/b` finds nothing, though there is a relay at the root. -/
theorem ProxyConfig.get_beside_root :
    rootRelay.key = [] ∧ (∀ r ∈ [relayA, rootRelay], r ≠ rootRelay → ¬ Mounted '/' r.key ['b']) ∧
      (ProxyConfig.new [relayA, rootRelay] ⟨[], 8080⟩).get HttpCrate.ascii
        (.ascii ['/', 'b'] none rfl rfl) = some none ∧
      ¬ (ProxyConfig.new [relayA, rootRelay] ⟨[], 8080⟩).RoutesTo
        (.ascii ['/', 'b'] none rfl rfl : RequestUri HttpCrate.ascii) rootRelay := by
  have hnone : (ProxyConfig.new [relayA, rootRelay] ⟨[], 8080⟩).get HttpCrate.ascii
      (.ascii ['/', 'b'] none rfl rfl) = some none := by
    decide
  refine ⟨by decide, only_relayA fun h => absurd h.prefixOf (by decide), hnone, ?_⟩
  rintro ⟨u, hget, -⟩
  rw [hnone] at hget
  cases hget

end Blahaj
