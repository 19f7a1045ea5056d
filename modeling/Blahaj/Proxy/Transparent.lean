/-
  File:      Blahaj/Proxy/Transparent.lean
  Subject:   PATH-PRESERVING RELAYS: when the path sent upstream is the path that came in.

  The key of a relay is its path without the slashes at both ends, its prefix is the path as it
  is spelled, and the remainder is glued on without its leading slashes. So a relay that keeps
  its path is transparent for a request or not depending on the spelling of its path.

  * `SameAfterPrefix` -- two paths equal up to repeated slashes after a prefix;
  * `glued_same` -- for which spellings the glued path is the incoming one;
  * `get_transparent` -- the same about `ProxyConfig::get`.
-/
import Blahaj.Proxy.Route

namespace Blahaj

open Segments

/-! ## 1. Equal up to repeated slashes -/

/-- Two paths below `/k` that differ at most in how many slashes follow the prefix; where one
    has none, neither has the other. -/
def SameAfterPrefix (k a b : Str) : Prop :=
  ∃ m n rest, a = '/' :: (k ++ (List.replicate m '/' ++ rest)) ∧
    b = '/' :: (k ++ (List.replicate n '/' ++ rest)) ∧ rest.head? ≠ some '/' ∧ (m = 0 ↔ n = 0)

theorem sameAfterPrefix_iff {k rest : Str} {m n : Nat} (hrest : rest.head? ≠ some '/') :
    SameAfterPrefix k ('/' :: (k ++ (List.replicate m '/' ++ rest)))
      ('/' :: (k ++ (List.replicate n '/' ++ rest))) ↔ (m = 0 ↔ n = 0) := by
  constructor
  · intro h
    obtain ⟨m', n', rest', ha, hb, hrest', hiff⟩ := h
    have ha' := List.append_cancel_left (List.cons.inj ha).2
    have hb' := List.append_cancel_left (List.cons.inj hb).2
    obtain ⟨rfl, -⟩ := replicate_append_inj hrest hrest' ha'
    obtain ⟨rfl, -⟩ := replicate_append_inj hrest hrest' hb'
    exact hiff
  · intro hiff
    exact ⟨m, n, rest, rfl, rfl, hrest, hiff⟩

/-- A slash in front of the prefix is one too many. -/
theorem not_sameAfterPrefix {k l b : Str} (hk : k ≠ []) (hhead : k.head? ≠ some '/') :
    ¬ SameAfterPrefix k ('/' :: '/' :: l) b := by
  intro h
  obtain ⟨m, n, rest, ha, -, -, -⟩ := h
  cases k with
  | nil => exact absurd rfl hk
  | cons c k =>
      have hc : '/' = c := (List.cons.inj (List.cons.inj ha).2).1
      exact hhead (by rw [← hc]; rfl)

/-! ## 2. The glued path -/

/-- The last character of a key between slashes is a slash exactly if some follow the key. -/
theorem getLast_key {k : Str} {n : Nat} (hlast : k.getLast? ≠ some '/') :
    (k ++ List.replicate n '/').getLast? = some '/' ↔ n ≠ 0 := by
  cases n with
  | zero => simp [hlast]
  | succ n =>
      rw [List.replicate_succ', ← List.append_assoc]
      simp

/-- The first character is a slash exactly if there are slashes in front of the key. -/
theorem head_key {k : Str} {m : Nat} (hk : k ≠ []) (hhead : k.head? ≠ some '/') (l : Str) :
    (List.replicate m '/' ++ (k ++ l)).head? ≠ some '/' ↔ m = 0 := by
  cases m with
  | zero =>
      obtain ⟨c, k, rfl⟩ := List.exists_cons_of_ne_nil hk
      simpa using hhead
  | succ m => simp [List.replicate_succ]

/-- At the root a slash in front of the path is one behind the empty prefix. -/
theorem glued_root {m : Nat} :
    SameAfterPrefix [] ('/' :: List.replicate m '/') ['/'] ↔ m = 0 := by
  have hsame : SameAfterPrefix [] ('/' :: ([] ++ (List.replicate m '/' ++ [])))
      ('/' :: ([] ++ (List.replicate 0 '/' ++ []))) ↔ (m = 0 ↔ 0 = 0) :=
    sameAfterPrefix_iff (by simp)
  simpa using hsame

/-- **For which spellings the glued path is the incoming one**: no slash in front of the
    configured path, and one behind it exactly where the request goes on. -/
theorem glued_same {r : HttpRelay} {p rest : Str} (hrest : p = r.key ++ rest)
    (hmount : Mounted '/' r.key p) (hslash : p.head? ≠ some '/') :
    SameAfterPrefix r.key ('/' :: (r.path ++ trimStart '/' rest)) ('/' :: p) ↔
      r.path.head? ≠ some '/' ∧ (r.path.getLast? = some '/' ↔ p ≠ r.key) := by
  have hkey : r.key.head? ≠ some '/' := trim_head '/' r.path
  have hlast : r.key.getLast? ≠ some '/' := trim_getLast '/' r.path
  obtain ⟨m, n, hpath, hnil⟩ := trim_decomp '/' r.path
  change r.path = List.replicate m '/' ++ (r.key ++ List.replicate n '/') at hpath
  change r.key = [] → n = 0 at hnil
  obtain ⟨j, hj⟩ := trimStart_decomp '/' rest
  have hgap : j = 0 ↔ rest = [] := (hrest ▸ hmount).gap hj
  have hp : p ≠ r.key ↔ j ≠ 0 := by
    rw [ne_eq, ne_eq, hgap, hrest, List.append_right_eq_self]
  by_cases hk : r.key = []
  · -- only the bare slash resolves to the empty key
    have hj0 : j = 0 := by
      cases j with
      | zero => rfl
      | succ j =>
          rw [hrest, hk, hj] at hslash
          exact absurd rfl hslash
    have hrest' : rest = [] := hgap.mp hj0
    have hroot : p = [] := by rw [hrest, hk, hrest']; rfl
    have hback : r.path = List.replicate m '/' := by simpa [hk, hnil hk] using hpath
    rw [hp, hback, hrest', hroot, hk, hj0,
      show List.replicate m '/' ++ trimStart '/' [] = List.replicate m '/' from List.append_nil _,
      glued_root]
    cases m with
    | zero => simp
    | succ m => simp [List.replicate_succ]
  · rw [hp, show r.path.head? ≠ some '/' ↔ m = 0 by rw [hpath]; exact head_key hk hkey _]
    cases m with
    | succ m =>
        rw [hpath, List.replicate_succ]
        exact ⟨fun h => absurd h (not_sameAfterPrefix hk hkey), fun h => absurd h.1 (by simp)⟩
    | zero =>
        have hback : r.path = r.key ++ List.replicate n '/' := hpath
        have hglued : p = r.key ++ (List.replicate j '/' ++ trimStart '/' rest) := by
          rw [← hj]
          exact hrest
        rw [hback, hglued, List.append_assoc, sameAfterPrefix_iff (trimStart_head '/' rest),
          getLast_key hlast]
        rw [not_iff_not]
        exact (and_iff_right rfl).symm

/-! ## 3. The proxy -/

/-- **When a path-preserving relay is transparent**: a request that resolves to it reaches the
    upstream with its own query, and with its own path up to repeated slashes after the matched
    prefix exactly if the configured path starts with no slash and ends in one exactly where the
    request path goes on after the matched prefix. -/
theorem ProxyConfig.get_transparent {H : HttpCrate} (hH : H.Lawful) {relays : List HttpRelay}
    {bind : SocketAddr} {req : RequestUri H} {p : Str} {r : HttpRelay} (hp : req.path = '/' :: p)
    (hslash : p.head? ≠ some '/') (hstrip : r.stripPath = false)
    (hres : (ProxyConfig.new relays bind).resolve req.path = some (r.key, .ofRelay r)) :
    ∃ u, (ProxyConfig.new relays bind).get H req = some (some u) ∧
      ((SameAfterPrefix r.key u.pathAndQuery.path req.path ∧
          u.pathAndQuery.query = req.query) ↔
        r.path.head? ≠ some '/' ∧ (r.path.getLast? = some '/' ↔ p ≠ r.key)) := by
  obtain ⟨hmount, -, -⟩ := ProxyConfig.resolve_some hres
  rw [trimStart_path hp hslash] at hmount
  obtain ⟨rest, hrest⟩ := hmount.prefixOf
  refine ⟨_, ProxyConfig.get_routed hH hp hrest.symm hres, ?_⟩
  have hpre : (ProxyEntry.ofRelay r).prefixPath = r.path := by
    simp only [ProxyEntry.ofRelay, hstrip, Bool.false_eq_true, ↓reduceIte]
  rw [hpre, hp, ← glued_same hrest.symm hmount hslash]
  exact and_iff_left rfl

/-- A relay spelled as `get` needs it: `app/`. -/
def trailingRelay : HttpRelay := ⟨80, ['a', 'p', 'p', '/'], false, false, none⟩

theorem ProxyConfig.get_transparent_app :
    ∃ u, (ProxyConfig.new [trailingRelay] ⟨[], 8080⟩).get HttpCrate.ascii
        (.ascii ['/', 'a', 'p', 'p', '/', '/', 'x'] (some []) rfl rfl) = some (some u) ∧
      ((SameAfterPrefix trailingRelay.key u.pathAndQuery.path ['/', 'a', 'p', 'p', '/', '/', 'x'] ∧
          u.pathAndQuery.query = some []) ↔
        trailingRelay.path.head? ≠ some '/' ∧
          (trailingRelay.path.getLast? = some '/' ↔
            ['a', 'p', 'p', '/', '/', 'x'] ≠ trailingRelay.key)) :=
  ProxyConfig.get_transparent HttpCrate.ascii_lawful rfl (by decide) rfl (by decide)

/-- Program `b` of tests/simple.yaml: path `/some_path`, no strip-path. -/
def relayB : HttpRelay :=
  ⟨8080, ['/', 's', 'o', 'm', 'e', '_', 'p', 'a', 't', 'h'], false, false, none⟩

/-- A request for `/some_path/x`. -/
def requestX : RequestUri HttpCrate.ascii :=
  .ascii ['/', 's', 'o', 'm', 'e', '_', 'p', 'a', 't', 'h', '/', 'x'] none rfl rfl

/-- The upstream of program `b` is asked for `//some_pathx`. -/
theorem ProxyConfig.get_some_path :
    (ProxyConfig.new [relayB] ⟨[], 8080⟩).resolve requestX.path =
        some (relayB.key, .ofRelay relayB) ∧
      relayB.stripPath = false ∧
      ∃ u, (ProxyConfig.new [relayB] ⟨[], 8080⟩).get HttpCrate.ascii requestX = some (some u) ∧
        u.pathAndQuery.path =
          ['/', '/', 's', 'o', 'm', 'e', '_', 'p', 'a', 't', 'h', 'x'] ∧
        ¬ SameAfterPrefix relayB.key u.pathAndQuery.path requestX.path := by
  have hres : (ProxyConfig.new [relayB] ⟨[], 8080⟩).resolve requestX.path =
      some (relayB.key, .ofRelay relayB) := by decide
  have hrest : (['s', 'o', 'm', 'e', '_', 'p', 'a', 't', 'h', '/', 'x'] : Str) =
      relayB.key ++ ['/', 'x'] := by decide
  exact ⟨hres, rfl, _, ProxyConfig.get_routed HttpCrate.ascii_lawful rfl hrest hres, by decide,
    not_sameAfterPrefix (by decide) (by decide)⟩

end Blahaj
