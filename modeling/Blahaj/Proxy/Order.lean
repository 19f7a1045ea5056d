/-
  File:      Blahaj/Proxy/Order.lean
  Subject:   ROUTING AND THE ORDER OF THE PROGRAMS, which come out of a map.

  The table keeps one entry for each key, that of the relay that came last. The lookup finds the
  same key in every order, so that the order can be seen only through relays that share it.

  * `resolve_perm` -- the key that is found does not depend on the order;
  * `resolve_last` -- the relay that comes last has its own entry found;
  * `get_order` -- when the order makes no difference.
-/
import Blahaj.Proxy.Slashes

namespace Blahaj

open Segments

/-! ## 1. The key that is found -/

theorem ProxyConfig.resolve_lookup {self : ProxyConfig} {path k : Str} {entry : ProxyEntry}
    (h : self.resolve path = some (k, entry)) : self.map.lookup k = some entry := by
  unfold ProxyConfig.resolve at h
  obtain ⟨k', -, hf, -⟩ := findSome_ancestors h
  obtain ⟨entry', hlook, hpair⟩ := Option.map_eq_some_iff.mp hf
  obtain ⟨rfl, rfl⟩ := Prod.mk.inj hpair
  exact hlook

/-- A relay with the key a request is looked up under: no longer key is mounted on the path, and
    the key stands in the path behind one slash. -/
structure HttpRelay.TakenFor (relays : List HttpRelay) (path : Str) (r : HttpRelay) : Prop where
  mounted : Mounted '/' r.key (trimStart '/' path)
  longest : ∀ r' ∈ relays, Mounted '/' r'.key (trimStart '/' path) → r'.key.length ≤ r.key.length
  behind : ('/' :: r.key) <+: path

/-- **The key that is found does not depend on the order.** -/
theorem ProxyConfig.resolve_perm {relays relays' : List HttpRelay} (hperm : relays'.Perm relays)
    (bind : SocketAddr) (path : Str) :
    ((ProxyConfig.new relays' bind).resolve path).map Prod.fst =
      ((ProxyConfig.new relays bind).resolve path).map Prod.fst := by
  cases hres : (ProxyConfig.new relays bind).resolve path with
  | none =>
      have hnone := ProxyConfig.resolve_none.mp hres
      have hres' : (ProxyConfig.new relays' bind).resolve path = none :=
        ProxyConfig.resolve_none.mpr fun r hr => hnone r (hperm.mem_iff.mp hr)
      rw [hres']
  | some found =>
      obtain ⟨k, entry⟩ := found
      obtain ⟨hmount, ⟨r, hr, rfl, -⟩, hlongest⟩ := ProxyConfig.resolve_some hres
      cases hres' : (ProxyConfig.new relays' bind).resolve path with
      | none => exact absurd hmount (ProxyConfig.resolve_none.mp hres' r (hperm.mem_iff.mpr hr))
      | some found' =>
          obtain ⟨k', entry'⟩ := found'
          obtain ⟨hmount', ⟨r', hr', rfl, -⟩, hlongest'⟩ := ProxyConfig.resolve_some hres'
          have hkey : r'.key = r.key := by
            rcases hlongest r' (hperm.mem_iff.mp hr') hmount' with heq | hlt
            · exact heq
            · rcases hlongest' r (hperm.mem_iff.mpr hr) hmount with heq | hlt'
              · exact heq.symm
              · exact absurd hlt' (Nat.lt_asymm hlt)
          simp [hkey]

/-- Where a relay that is taken comes last, its entry is the one that is found. -/
theorem ProxyConfig.resolve_last {relays : List HttpRelay} {bind : SocketAddr} {path : Str}
    {r : HttpRelay} (hr : r.TakenFor (relays ++ [r]) path) :
    (ProxyConfig.new (relays ++ [r]) bind).resolve path = some (r.key, .ofRelay r) := by
  have hmem : r ∈ relays ++ [r] := by simp
  cases hres : (ProxyConfig.new (relays ++ [r]) bind).resolve path with
  | none => exact absurd hr.mounted (ProxyConfig.resolve_none.mp hres r hmem)
  | some found =>
      obtain ⟨k, entry⟩ := found
      obtain ⟨hmount, ⟨r', hr', rfl, -⟩, hlongest⟩ := ProxyConfig.resolve_some hres
      have hkey : r'.key = r.key := by
        rcases hlongest r hmem hr.mounted with heq | hlt
        · exact heq.symm
        · exact absurd (hr.longest r' hr' hmount) (Nat.not_le.mpr hlt)
      have hlook := ProxyConfig.resolve_lookup hres
      have hlast : (ProxyConfig.new (relays ++ [r]) bind).map.lookup r.key =
          some (.ofRelay r) := by
        simp [ProxyConfig.new]
      rw [hkey, hlast] at hlook
      rw [hkey, ← Option.some.inj hlook]

/-! ## 2. When the order makes no difference -/

/-- Two ports of the loopback address differ as texts. -/
theorem loopback_inj {port port' : UInt16} (h : loopback port = loopback port') :
    port = port' := by
  have hdigits : Nat.toDigits 10 port.toNat = Nat.toDigits 10 port'.toNat :=
    List.append_cancel_left h
  have hvalue := congrArg (fun digits => Nat.ofDigitChars 10 digits 0) hdigits
  simp only [Nat.ofDigitChars_ten_toDigits] at hvalue
  exact UInt16.toNat_inj.mp hvalue

/-- What `get` answers where a relay that is taken comes last. -/
theorem ProxyConfig.get_last {H : HttpCrate} (hH : H.Lawful) {relays : List HttpRelay}
    (bind : SocketAddr) {req : RequestUri H} {r : HttpRelay} {rest : Str}
    (hpath : req.path = '/' :: (r.key ++ rest)) (hr : r.TakenFor (relays ++ [r]) req.path) :
    (ProxyConfig.new (relays ++ [r]) bind).get H req =
      some (some ⟨if r.https then .https else .http, loopback r.port,
        ⟨'/' :: ((ProxyEntry.ofRelay r).prefixPath ++ trimStart '/' rest), req.query⟩⟩) :=
  ProxyConfig.get_routed hH hpath rfl (ProxyConfig.resolve_last hr)

theorem dropPrefix_prefix {a l rest : Str} (h : l.dropPrefix? a = some rest) : a <+: l := by
  obtain ⟨a', hl, ha⟩ := List.dropPrefix?_eq_some_iff.mp h
  exact ⟨rest, by rw [hl, ← eq_of_beq ha]⟩

/-- One relay put last. -/
theorem perm_last {relays : List HttpRelay} {r : HttpRelay} (hr : r ∈ relays) :
    (relays.erase r ++ [r]).Perm relays :=
  (List.perm_append_singleton ..).trans (List.perm_cons_erase hr).symm

theorem HttpRelay.TakenFor.perm {relays relays' : List HttpRelay} {path : Str} {r : HttpRelay}
    (h : r.TakenFor relays path) (hperm : relays'.Perm relays) : r.TakenFor relays' path where
  mounted := h.mounted
  longest := fun r' hr' => h.longest r' (hperm.mem_iff.mp hr')
  behind := h.behind

/-- Another relay with the same key is taken as well. -/
theorem HttpRelay.TakenFor.of_key {relays : List HttpRelay} {path : Str} {r r' : HttpRelay}
    (h : r.TakenFor relays path) (hkey : r'.key = r.key) : r'.TakenFor relays path := by
  obtain ⟨hmount, hlongest, hbehind⟩ := h
  rw [← hkey] at hmount hbehind
  exact ⟨hmount, by rw [hkey]; exact hlongest, hbehind⟩

/-- The entry that is found, with its key behind one slash, is that of a relay that is taken. -/
theorem ProxyConfig.resolve_taken {relays : List HttpRelay} {bind : SocketAddr} {path k rest : Str}
    {entry : ProxyEntry} (hres : (ProxyConfig.new relays bind).resolve path = some (k, entry))
    (hdrop : path.dropPrefix? ('/' :: k) = some rest) :
    ∃ r ∈ relays, r.key = k ∧ .ofRelay r = entry ∧ r.TakenFor relays path := by
  obtain ⟨hmount, ⟨r, hr, rfl, rfl⟩, hlongest⟩ := ProxyConfig.resolve_some hres
  refine ⟨r, hr, rfl, rfl, hmount, fun r' hr' hmount' => ?_, dropPrefix_prefix hdrop⟩
  rcases hlongest r' hr' hmount' with heq | hlt
  · rw [heq]
  · exact hlt.le

/-- Each of two relays that share the key, put last, answers the request: where both answers are
    the same, so are their entries. -/
theorem ProxyConfig.entry_of_get {H : HttpCrate} (hH : H.Lawful) {relays : List HttpRelay}
    {bind : SocketAddr} {req : RequestUri H}
    (hsame : ∀ relays', relays'.Perm relays →
      (ProxyConfig.new relays' bind).get H req = (ProxyConfig.new relays bind).get H req)
    {r r' : HttpRelay} (hr : r ∈ relays) (hr' : r' ∈ relays) (htaken : r.TakenFor relays req.path)
    (hkey : r'.key = r.key) : ProxyEntry.ofRelay r' = ProxyEntry.ofRelay r := by
  have htaken' := htaken.of_key hkey
  obtain ⟨rest, hrest⟩ := htaken.behind
  have hpath : req.path = '/' :: (r.key ++ rest) := hrest.symm
  have hpath' : req.path = '/' :: (r'.key ++ rest) := by rw [hkey, hpath]
  have hget := ProxyConfig.get_last hH bind hpath (htaken.perm (perm_last hr))
  have hget' := ProxyConfig.get_last hH bind hpath' (htaken'.perm (perm_last hr'))
  have hequal := hget'.symm.trans ((hsame _ (perm_last hr')).trans
    ((hsame _ (perm_last hr)).symm.trans hget))
  simp only [Option.some.injEq, Uri.mk.injEq, PathAndQuery.mk.injEq, List.cons.injEq, true_and,
    and_true] at hequal
  obtain ⟨hscheme, hport, hprefix⟩ := hequal
  have hhttps : r'.https = r.https := by
    cases hs : r.https <;> cases hs' : r'.https <;> simp [hs, hs'] at hscheme <;> rfl
  have hprefix := List.append_cancel_right hprefix
  unfold ProxyEntry.ofRelay at hprefix ⊢
  rw [ProxyEntry.mk.injEq]
  exact ⟨loopback_inj hport, hhttps, hprefix⟩

/-- Where the relays that share the key make one entry, every order answers alike. -/
theorem ProxyConfig.get_perm {H : HttpCrate} {relays relays' : List HttpRelay}
    (hperm : relays'.Perm relays) {bind : SocketAddr} {req : RequestUri H}
    (hentry : ∀ r ∈ relays, ∀ r' ∈ relays, r.TakenFor relays req.path → r'.key = r.key →
      ProxyEntry.ofRelay r' = ProxyEntry.ofRelay r) :
    (ProxyConfig.new relays' bind).get H req = (ProxyConfig.new relays bind).get H req := by
  have hkeys := ProxyConfig.resolve_perm hperm bind req.path
  cases hres : (ProxyConfig.new relays bind).resolve req.path with
  | none =>
      rw [hres, Option.map_none, Option.map_eq_none_iff] at hkeys
      rw [ProxyConfig.get_unrouted hres, ProxyConfig.get_unrouted hkeys]
  | some found =>
      obtain ⟨k, entry⟩ := found
      rw [hres, Option.map_some, Option.map_eq_some_iff] at hkeys
      obtain ⟨⟨k', entry'⟩, hres', rfl⟩ := hkeys
      dsimp only at hres
      cases hdrop : req.path.dropPrefix? ('/' :: k') with
      | none => rw [ProxyConfig.get_blocked hres hdrop, ProxyConfig.get_blocked hres' hdrop]
      | some rest =>
          obtain ⟨r, hr, hkey, rfl, htaken⟩ := ProxyConfig.resolve_taken hres hdrop
          obtain ⟨r', hr', hkey', rfl, -⟩ := ProxyConfig.resolve_taken hres' hdrop
          rw [hentry r hr r' (hperm.mem_iff.mp hr') htaken (hkey'.trans hkey.symm)] at hres'
          unfold ProxyConfig.get
          rw [hres, hres']

/-- **When the order of the programs makes no difference.** A request is answered alike in every
    order exactly if the relays whose key is the one it is looked up under, and stands in its path
    behind one slash, make one and the same entry. -/
theorem ProxyConfig.get_order {H : HttpCrate} (hH : H.Lawful) (relays : List HttpRelay)
    (bind : SocketAddr) (req : RequestUri H) :
    (∀ relays', relays'.Perm relays →
      (ProxyConfig.new relays' bind).get H req = (ProxyConfig.new relays bind).get H req) ↔
      ∀ r ∈ relays, ∀ r' ∈ relays, r.TakenFor relays req.path → r'.key = r.key →
        ProxyEntry.ofRelay r' = ProxyEntry.ofRelay r := by
  constructor
  · intro hsame r hr r' hr' htaken hkey
    exact ProxyConfig.entry_of_get hH hsame hr hr' htaken hkey
  · intro hentry relays' hperm
    exact ProxyConfig.get_perm hperm hentry

/-- The path of the programs `a` and `b` of tests/simple.yaml. -/
def somePath : Str := ['/', 's', 'o', 'm', 'e', '_', 'p', 'a', 't', 'h']

/-- The relay of program `a`, its port filled in. -/
def simpleA : HttpRelay := ⟨8081, somePath, true, true, none⟩

/-- The relay of program `b`. -/
def simpleB : HttpRelay := ⟨8080, somePath, false, false, none⟩

/-- A request for what both are mounted on. -/
def simpleRequest : RequestUri HttpCrate.ascii := .ascii somePath none rfl no_query

theorem ProxyConfig.get_order_simple :
    (∀ relays', relays'.Perm [simpleA, simpleB] →
      (ProxyConfig.new relays' ⟨[], 8000⟩).get HttpCrate.ascii simpleRequest =
        (ProxyConfig.new [simpleA, simpleB] ⟨[], 8000⟩).get HttpCrate.ascii simpleRequest) ↔
      ∀ r ∈ [simpleA, simpleB], ∀ r' ∈ [simpleA, simpleB],
        r.TakenFor [simpleA, simpleB] simpleRequest.path → r'.key = r.key →
          ProxyEntry.ofRelay r' = ProxyEntry.ofRelay r :=
  ProxyConfig.get_order HttpCrate.ascii_lawful [simpleA, simpleB] ⟨[], 8000⟩ simpleRequest

/-- The one of `a` and `b` that comes last takes the requests of both. -/
theorem ProxyConfig.get_collision :
    [simpleB, simpleA].Perm [simpleA, simpleB] ∧
      (ProxyConfig.new [simpleB, simpleA] ⟨[], 8000⟩).get HttpCrate.ascii simpleRequest =
        some (some ⟨.https, loopback 8081, ⟨['/'], none⟩⟩) ∧
      (ProxyConfig.new [simpleA, simpleB] ⟨[], 8000⟩).get HttpCrate.ascii simpleRequest =
        some (some ⟨.http, loopback 8080, ⟨'/' :: somePath, none⟩⟩) ∧
      (ProxyConfig.new [simpleB, simpleA] ⟨[], 8000⟩).get HttpCrate.ascii simpleRequest ≠
        (ProxyConfig.new [simpleA, simpleB] ⟨[], 8000⟩).get HttpCrate.ascii simpleRequest :=
  ⟨List.Perm.swap .., by decide, by decide, by decide⟩

end Blahaj
