/-
  File:      Blahaj/Proxy/Route.lean
  Subject:   The routing table of proxy/mod.rs: `ProxyEntry`, `ProxyConfig::new`, `ancestors`,
             `ProxyConfig::get`.

  A request URI carries what the http crate's parser has established of it. The result of `get`
  is `none` for a panic, `some none` for `None`.

  * `resolve` -- the first half of `get`: the ancestor that matched and its entry;
    `resolve_some`, `resolve_none` say which relay it finds;
  * `get_routed`, `get_unrouted` -- what `get` answers, by what `resolve` finds;
  * `get_longest` -- routing by the longest mount on a segment boundary.
-/
import Blahaj.Http
import Blahaj.Lib.Segments
import Mathlib.Data.List.Nodup

namespace Blahaj

open Segments

/-! ## 1. The table -/

/-- The URI of an incoming request: its path and query, of characters valid there. -/
structure RequestUri (H : HttpCrate) where
  path : Str
  query : Option Str
  pathValid : ∀ c ∈ path, H.pathChar c
  queryValid : ∀ q, query = some q → ∀ c ∈ q, H.queryChar c

/-- A request of characters that the tables on ASCII allow. -/
def RequestUri.ascii (path : Str) (query : Option Str) (hpath : path.all asciiPathChar = true)
    (hquery : (query.getD []).all asciiQueryChar = true) : RequestUri HttpCrate.ascii where
  path := path
  query := query
  pathValid := List.all_eq_true.mp hpath
  queryValid q hq := List.all_eq_true.mp (by
    rw [hq] at hquery
    exact hquery)

theorem no_query : ((none : Option Str).getD []).all asciiQueryChar = true := rfl

/-- A proxy upstream. -/
structure ProxyEntry where
  port : UInt16
  secure : Bool
  prefixPath : Str
  deriving DecidableEq, Repr

/-- `ProxyEntry::from`. -/
def ProxyEntry.ofRelay (relay : HttpRelay) : ProxyEntry where
  port := relay.port
  secure := relay.https
  prefixPath := if relay.stripPath then [] else relay.path

/-- A map that projects requested path to upstream entry: the insertions, newest first, so that
    a lookup finds the newest entry of a key. -/
structure ProxyConfig where
  map : List (Str × ProxyEntry)
  interface : Str
  deriving DecidableEq, Repr

/-- The key of a relay: its path with the slashes at both ends trimmed. -/
def HttpRelay.key (relay : HttpRelay) : Str := trim '/' relay.path

/-- `ProxyConfig::new`. -/
def ProxyConfig.new (relays : List HttpRelay) (bind : SocketAddr) : ProxyConfig where
  map := (relays.map fun entry => (entry.key, ProxyEntry.ofRelay entry)).reverse
  interface := bind.ip

/-- The first half of `ProxyConfig::get`: the ancestor of the path that has an entry. -/
def ProxyConfig.resolve (self : ProxyConfig) (path : Str) : Option (Str × ProxyEntry) :=
  let incomingPath := trimStart '/' path
  (ancestors '/' incomingPath).findSome? fun path =>
    (self.map.lookup path).map fun entry => (path, entry)

/-- `ProxyConfig::get`. -/
def ProxyConfig.get (H : HttpCrate) (self : ProxyConfig) (incomingReq : RequestUri H) :
    Option (Option Uri) :=
  match self.resolve incomingReq.path with
  | none => some none
  | some (matched, entry) =>
    let scheme := if entry.secure then Scheme.https else Scheme.http
    match incomingReq.path.dropPrefix? ('/' :: matched) with
    | none => some none
    | some rest =>
      let path := '/' :: (entry.prefixPath ++ trimStart '/' rest)
      let pathQuery := match incomingReq.query with
        | some query => H.pathAndQuery (path ++ '?' :: query)
        | none => H.pathAndQuery path
      match pathQuery with
      | none => some none
      | some pathQuery =>
        match H.authority (loopback entry.port) with
        | none => some none
        | some authority => (H.build scheme authority pathQuery).map some

/-! ## 2. What the table finds -/

theorem ProxyConfig.lookup_new {relays : List HttpRelay} {bind : SocketAddr} {k : Str}
    {entry : ProxyEntry} (h : (ProxyConfig.new relays bind).map.lookup k = some entry) :
    ∃ r ∈ relays, r.key = k ∧ ProxyEntry.ofRelay r = entry := by
  obtain ⟨l₁, l₂, hl, -⟩ := List.lookup_eq_some_iff.mp h
  have hmem : (k, entry) ∈ (ProxyConfig.new relays bind).map := by rw [hl]; simp
  simp only [ProxyConfig.new, List.mem_reverse, List.mem_map, Prod.mk.injEq] at hmem
  obtain ⟨r, hr, hk, he⟩ := hmem
  exact ⟨r, hr, hk, he⟩

/-- A key some relay has is found. -/
theorem ProxyConfig.lookup_isSome {relays : List HttpRelay} {bind : SocketAddr} {r : HttpRelay}
    (hr : r ∈ relays) : ((ProxyConfig.new relays bind).map.lookup r.key).isSome := by
  cases h : (ProxyConfig.new relays bind).map.lookup r.key with
  | some _ => rfl
  | none =>
      have hmem : (r.key, ProxyEntry.ofRelay r) ∈ (ProxyConfig.new relays bind).map := by
        simp only [ProxyConfig.new, List.mem_reverse, List.mem_map]
        exact ⟨r, hr, rfl⟩
      have hnot := List.lookup_eq_none_iff.mp h _ hmem
      simp at hnot

/-- What `resolve` finds is mounted on the path, belongs to a relay, and is the longest such. -/
theorem ProxyConfig.resolve_some {relays : List HttpRelay} {bind : SocketAddr} {path k : Str}
    {entry : ProxyEntry} (h : (ProxyConfig.new relays bind).resolve path = some (k, entry)) :
    Mounted '/' k (trimStart '/' path) ∧
      (∃ r ∈ relays, r.key = k ∧ ProxyEntry.ofRelay r = entry) ∧
      ∀ r ∈ relays, Mounted '/' r.key (trimStart '/' path) →
        r.key = k ∨ r.key.length < k.length := by
  unfold ProxyConfig.resolve at h
  obtain ⟨k', hk', hf, hfirst⟩ := findSome_ancestors h
  obtain ⟨entry', hlook, hpair⟩ := Option.map_eq_some_iff.mp hf
  obtain ⟨rfl, rfl⟩ := Prod.mk.inj hpair
  refine ⟨hk', ProxyConfig.lookup_new hlook, fun r hr hmount => hfirst r.key hmount ?_⟩
  rw [Option.isSome_map]
  exact ProxyConfig.lookup_isSome hr

theorem ProxyConfig.resolve_none {relays : List HttpRelay} {bind : SocketAddr} {path : Str} :
    (ProxyConfig.new relays bind).resolve path = none ↔
      ∀ r ∈ relays, ¬ Mounted '/' r.key (trimStart '/' path) := by
  unfold ProxyConfig.resolve
  rw [findSome_ancestors_none]
  constructor
  · intro h r hr hmount
    have hnone := Option.map_eq_none_iff.mp (h r.key hmount)
    have hsome : ((ProxyConfig.new relays bind).map.lookup r.key).isSome :=
      ProxyConfig.lookup_isSome hr
    rw [hnone] at hsome
    cases hsome
  · intro h k hmount
    rw [Option.map_eq_none_iff]
    cases hlook : (ProxyConfig.new relays bind).map.lookup k with
    | none => rfl
    | some entry =>
        obtain ⟨r, hr, rfl, -⟩ := ProxyConfig.lookup_new hlook
        exact absurd hmount (h r hr)

/-! ## 3. What `get` answers -/

/-- A path with exactly one leading slash, as `get` looks it up. -/
theorem trimStart_path {path p : Str} (hp : path = '/' :: p) (hslash : p.head? ≠ some '/') :
    trimStart '/' path = p := by
  rw [hp]
  have h := trimStart_replicate_append '/' 1 p
  exact h.trans (trimStart_of_head hslash)

/-- The configured path of a relay is its key between slashes, so it holds path characters where
    its key does. -/
theorem HttpRelay.path_valid {H : HttpCrate} (hH : H.Lawful) {r : HttpRelay}
    (hkey : ∀ c ∈ r.key, H.pathChar c) : ∀ c ∈ (ProxyEntry.ofRelay r).prefixPath, H.pathChar c := by
  intro c hc
  unfold ProxyEntry.ofRelay at hc
  split at hc
  · cases hc
  · obtain ⟨m, n, hpath, -⟩ := trim_decomp '/' r.path
    rw [hpath] at hc
    rcases List.mem_append.mp hc with hc | hc
    · rw [List.eq_of_mem_replicate hc]
      exact hH.slash
    · rcases List.mem_append.mp hc with hc | hc
      · exact hkey c hc
      · rw [List.eq_of_mem_replicate hc]
        exact hH.slash

/-- **What `get` answers where a relay matched**: its scheme and port, its prefix glued to the
    remainder of the path without its leading slashes, and the query as it came. -/
theorem ProxyConfig.get_routed {H : HttpCrate} (hH : H.Lawful) {relays : List HttpRelay}
    {bind : SocketAddr} {req : RequestUri H} {p rest : Str} {r : HttpRelay}
    (hp : req.path = '/' :: p) (hrest : p = r.key ++ rest)
    (hres : (ProxyConfig.new relays bind).resolve req.path = some (r.key, .ofRelay r)) :
    (ProxyConfig.new relays bind).get H req =
      some (some ⟨if r.https then .https else .http, loopback r.port,
        ⟨'/' :: ((ProxyEntry.ofRelay r).prefixPath ++ trimStart '/' rest), req.query⟩⟩) := by
  have hvalid : ∀ c ∈ p, H.pathChar c := fun c hc => req.pathValid c (by rw [hp]; simp [hc])
  have hpath : ∀ c ∈ '/' :: ((ProxyEntry.ofRelay r).prefixPath ++ trimStart '/' rest),
      H.pathChar c := by
    intro c hc
    rcases List.mem_cons.mp hc with rfl | hc
    · exact hH.slash
    · rcases List.mem_append.mp hc with hc | hc
      · exact HttpRelay.path_valid hH (fun c hc => hvalid c (by rw [hrest]; simp [hc])) c hc
      · exact hvalid c (by rw [hrest]; simp [mem_of_mem_trimStart hc])
  have hdrop : req.path.dropPrefix? ('/' :: r.key) = some rest := by
    rw [List.dropPrefix?_eq_some_iff]
    exact ⟨'/' :: r.key, by rw [hp, hrest]; rfl, by simp⟩
  unfold ProxyConfig.get
  simp only [hres, hdrop]
  cases hq : req.query with
  | none =>
      simp only [hH.path _ rfl hpath, hH.authority, hH.build, Option.map_some]
      rfl
  | some q =>
      simp only [hH.query _ q rfl hpath (req.queryValid q hq), hH.authority, hH.build,
        Option.map_some]
      rfl

theorem ProxyConfig.get_unrouted {H : HttpCrate} {self : ProxyConfig} {req : RequestUri H}
    (hres : self.resolve req.path = none) : self.get H req = some none := by
  unfold ProxyConfig.get
  rw [hres]

/-- **Longest-prefix routing on segment boundaries.** Over relays with pairwise distinct keys,
    a request for `/p` is not routed where no key is mounted on `p`; otherwise it is routed to the
    relay with the longest key mounted on `p`, to its port and scheme, with the query as it came
    and, where the relay strips its path, with what follows the key. -/
theorem ProxyConfig.get_longest {H : HttpCrate} (hH : H.Lawful) {relays : List HttpRelay}
    (hdistinct : (relays.map HttpRelay.key).Nodup) (bind : SocketAddr)
    (req : RequestUri H) {p : Str} (hp : req.path = '/' :: p)
    (hslash : p.head? ≠ some '/') :
    ((∀ r ∈ relays, ¬ Mounted '/' r.key p) → (ProxyConfig.new relays bind).get H req = some none) ∧
    ((∃ r ∈ relays, Mounted '/' r.key p) →
      ∃ r ∈ relays, Mounted '/' r.key p ∧
        (∀ r' ∈ relays, Mounted '/' r'.key p → r' = r ∨ r'.key.length < r.key.length) ∧
        ∃ u, (ProxyConfig.new relays bind).get H req = some (some u) ∧
          u.authority = loopback r.port ∧ u.scheme = (if r.https then .https else .http) ∧
          u.pathAndQuery.query = req.query ∧
          (r.stripPath = true →
            u.pathAndQuery.path = '/' :: trimStart '/' (p.drop r.key.length))) := by
  have htrim := trimStart_path hp hslash
  constructor
  · intro hnone
    refine ProxyConfig.get_unrouted (ProxyConfig.resolve_none.mpr ?_)
    rw [htrim]
    exact hnone
  · rintro ⟨r₀, hr₀, hmount₀⟩
    cases hres : (ProxyConfig.new relays bind).resolve req.path with
    | none =>
        have hnot := ProxyConfig.resolve_none.mp hres r₀ hr₀
        rw [htrim] at hnot
        exact absurd hmount₀ hnot
    | some found =>
        obtain ⟨k, entry⟩ := found
        obtain ⟨hmount, ⟨r, hr, rfl, rfl⟩, hlongest⟩ := ProxyConfig.resolve_some hres
        rw [htrim] at hmount hlongest
        obtain ⟨rest, hrest⟩ := hmount.prefixOf
        have hget := ProxyConfig.get_routed hH hp hrest.symm hres
        refine ⟨r, hr, hmount, fun r' hr' hmount' => ?_, _, hget, rfl, rfl, rfl, fun hstrip => ?_⟩
        · rcases hlongest r' hr' hmount' with hkey | hlt
          · exact Or.inl (List.inj_on_of_nodup_map hdistinct hr' hr hkey)
          · exact Or.inr hlt
        · simp only [ProxyEntry.ofRelay, hstrip, ↓reduceIte, List.nil_append]
          rw [← hrest, List.drop_left]

/-- A relay mounted at `a`, one mounted below it at `a/b`, both stripping their path. -/
def nestedRelays : List HttpRelay :=
  [⟨80, ['/', 'a'], false, true, none⟩, ⟨81, ['/', 'a', '/', 'b', '/'], true, true, none⟩]

theorem ProxyConfig.get_longest_nested :
    ∃ r ∈ nestedRelays, Mounted '/' r.key ['a', '/', 'b', '/', 'c'] ∧
      (∀ r' ∈ nestedRelays, Mounted '/' r'.key ['a', '/', 'b', '/', 'c'] →
        r' = r ∨ r'.key.length < r.key.length) ∧
      ∃ u, (ProxyConfig.new nestedRelays ⟨[], 8080⟩).get HttpCrate.ascii
          (.ascii ['/', 'a', '/', 'b', '/', 'c'] (some ['q']) rfl rfl) = some (some u) ∧
        u.authority = loopback r.port ∧ u.scheme = (if r.https then .https else .http) ∧
        u.pathAndQuery.query = some ['q'] ∧
        (r.stripPath = true → u.pathAndQuery.path =
          '/' :: trimStart '/' (['a', '/', 'b', '/', 'c'].drop r.key.length)) :=
  (ProxyConfig.get_longest HttpCrate.ascii_lawful (by decide) ⟨[], 8080⟩
    (.ascii ['/', 'a', '/', 'b', '/', 'c'] (some ['q']) rfl rfl) rfl (by decide)).2
    ⟨⟨81, ['/', 'a', '/', 'b', '/'], true, true, none⟩, by decide, Or.inr ⟨['c'], by decide⟩⟩

end Blahaj
