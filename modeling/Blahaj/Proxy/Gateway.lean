/-
  File:      Blahaj/Proxy/Gateway.lean
  Subject:   WHAT LEAVES A PROXY: the requests that `forward` sends, and where they go.

  * `HttpRequest.passedOn` -- the `Forwarded` header of a request that is sent on; it prints a
    visible text (`passedOn_visible`);
  * `upstreamRequest_set` -- no header of an upstream request is refused;
  * `forward_confined` -- **each request is sent to the one relay that it is for, or it is not
    sent**.
-/
import Blahaj.Proxy.Handler
import Blahaj.Proxy.Hops
import Blahaj.Proxy.Order
import Blahaj.Proxy.Slashes

namespace Blahaj

open Text Segments

variable {H : HttpCrate} {C : HeaderCrate}

/-! ## 1. The `Forwarded` header that is sent on -/

theorem visible_of_all {s : Str} (h : s.all (fun c => decide (Visible c)) = true) :
    ∀ c ∈ s, Visible c :=
  fun c hc => of_decide_eq_true (List.all_eq_true.mp h c hc)

/-- The text that a proxy reads of `forwarded`. -/
def HttpRequest.forwardedText (incoming : HttpRequest H C) : Str :=
  (incoming.header forwardedName).getD []

/-- The `Forwarded` header that a proxy sends on. -/
def HttpRequest.passedOn (incoming : HttpRequest H C) (config : ProxyConfig) : ForwardedHeader :=
  ⟨config.interface, previous incoming.forwardedText ++ [incoming.peer], incoming.host,
    incoming.scheme⟩

/-- What is taken over is made of the text. -/
theorem mem_previous {text x : Str} (hx : x ∈ previous text) : ∀ c ∈ x, c ∈ text := by
  unfold previous at hx
  cases htail : tailAt forMark text with
  | none =>
      rw [htail] at hx
      cases hx
  | some rest =>
      rw [htail] at hx
      obtain ⟨piece, hpiece, rfl⟩ := List.mem_map.mp hx
      intro c hc
      have hspan := (of_mem_splitOn hpiece).2 c (mem_of_mem_remove hc)
      exact (tailAt_some htail).2.subset (List.takeWhile_sublist _ |>.subset hspan)

/-- A proxy reads a visible text. -/
theorem HttpRequest.forwardedText_visible (incoming : HttpRequest H C) :
    ∀ c ∈ incoming.forwardedText, Visible c := by
  unfold HttpRequest.forwardedText HttpRequest.header
  cases C.get incoming.headers forwardedName with
  | none => exact fun c hc => (List.not_mem_nil hc).elim
  | some v => exact v.visible_text

/-- A shown address holds no `for=`, for it holds no `o`. -/
theorem IpAddr.no_mark (ip : IpAddr) : ¬ forMark <:+: ip.text := by
  intro hmark
  have ho : 'o' ∈ ip.text := hmark.subset (by decide)
  exact absurd (List.all_eq_true.mp ip.shown 'o' ho) (by decide)

theorem HttpRequest.peer_lasting (incoming : HttpRequest H C) : Lasting incoming.peer := by
  refine ⟨⟨fun h => (incoming.peer_entry.solid _ h).1 rfl, ?_⟩, ?_⟩
  · unfold HttpRequest.peer
    split
    · decide
    · rename_i ip _
      exact fun h => absurd (List.all_eq_true.mp ip.shown _ h) (by decide)
  · unfold HttpRequest.peer
    split
    · decide
    · exact IpAddr.no_mark _

/-- The entries of the header are plain and visible. -/
theorem HttpRequest.passedOn_plain (incoming : HttpRequest H C) (config : ProxyConfig) :
    ∀ x ∈ (incoming.passedOn config).for_, Plain x ∧ ∀ c ∈ x, Visible c := by
  intro x hx
  rcases List.mem_append.mp hx with hx | hx
  · exact ⟨plain_previous hx,
      fun c hc => incoming.forwardedText_visible c (mem_previous hx c hc)⟩
  · obtain rfl := List.mem_singleton.mp hx
    exact ⟨incoming.peer_lasting.1, incoming.peer_entry.visible⟩

/-- A printed header is visible where its parts are. -/
theorem ForwardedHeader.display_visible {F : ForwardedHeader} (hby : ∀ c ∈ F.by_, Visible c)
    (hfor : ∀ x ∈ F.for_, ∀ c ∈ x, Visible c) (hhost : ∀ c ∈ F.host, Visible c)
    (hproto : ∀ c ∈ F.proto, Visible c) : ∀ c ∈ F.display, Visible c := by
  have hlist : ∀ c ∈ forList F.for_, Visible c := by
    intro c hc
    rcases of_mem_intercalate hc with hsep | ⟨piece, hpiece, hc⟩
    · rcases List.mem_cons.mp hsep with rfl | hsep
      · decide
      · obtain rfl := List.mem_singleton.mp hsep
        decide
    · obtain ⟨x, hx, rfl⟩ := List.mem_map.mp hpiece
      rcases List.mem_append.mp hc with hmark | hc
      · exact visible_of_all (s := forMark) (by decide) c hmark
      · exact hfor x hx c hc
  intro c hc
  simp only [ForwardedHeader.display, List.mem_append] at hc
  rcases hc with ((((((hc | hc) | hc) | hc) | hc) | hc) | hc) | hc
  · exact visible_of_all (by decide) c hc
  · exact hby c hc
  · exact visible_of_all (by decide) c hc
  · exact hlist c hc
  · exact visible_of_all (by decide) c hc
  · exact hhost c hc
  · exact visible_of_all (by decide) c hc
  · exact hproto c hc

/-- What an upstream request is made from: the address of the proxy is shown, and what the
    connection info answers was read from visible headers. -/
structure HttpRequest.Shown (incoming : HttpRequest H C) (config : ProxyConfig) : Prop where
  interface : ∃ ip : IpAddr, config.interface = ip.text
  host : ∀ c ∈ incoming.host, Visible c
  scheme : ∀ c ∈ incoming.scheme, Visible c

theorem HttpRequest.Shown.passedOn_visible {incoming : HttpRequest H C} {config : ProxyConfig}
    (h : incoming.Shown config) : ∀ c ∈ (incoming.passedOn config).display, Visible c := by
  obtain ⟨ip, hip⟩ := h.interface
  refine ForwardedHeader.display_visible ?_
    (fun x hx => (incoming.passedOn_plain config x hx).2) h.host h.scheme
  show ∀ c ∈ config.interface, Visible c
  rw [hip]
  exact ip.entry.visible

/-! ## 2. The upstream request -/

@[simp] theorem ClientRequest.insertHeader_method (req : ClientRequest C) (name : HeaderName)
    (value : Str) : (req.insertHeader name value).method = req.method := by
  unfold ClientRequest.insertHeader
  split <;> rfl

@[simp] theorem ClientRequest.insertHeader_uri (req : ClientRequest C) (name : HeaderName)
    (value : Str) : (req.insertHeader name value).uri = req.uri := by
  unfold ClientRequest.insertHeader
  split <;> rfl

/-- A visible text is not refused. -/
theorem ClientRequest.insertHeader_err (req : ClientRequest C) (name : HeaderName) {value : Str}
    (h : ∀ c ∈ value, Visible c) : (req.insertHeader name value).err = req.err := by
  obtain ⟨v, hv, -⟩ := HeaderValue.fromStr_visible h
  rw [ClientRequest.insertHeader, hv]

/-- The upstream request of `forward`, with its headers in turn. -/
theorem upstreamRequest_eq (config : ProxyConfig) (incoming : HttpRequest H C) (upstream : Uri) :
    upstreamRequest config incoming upstream =
      some ((((((incoming.requestFrom upstream).insertHeader forwardedName
        (incoming.passedOn config).display).insertHeader xForwardedProto
        incoming.scheme).insertHeader xForwardedHost incoming.host).insertHeader xForwardedFor
        (appended (incoming.header xForwardedFor) incoming.peer)).insertHeader viaName
        (appended (incoming.header viaName) incoming.version.entry)) := by
  simp only [upstreamRequest, ForwardedHeader.fromInfo_eq, Option.map_some]
  rfl

/-- **No header of an upstream request is refused**, and it goes where it was to go. -/
theorem HttpRequest.Shown.upstreamRequest_set {incoming : HttpRequest H C} {config : ProxyConfig}
    (h : incoming.Shown config) (upstream : Uri) :
    ∃ req, upstreamRequest config incoming upstream = some req ∧ req.err = false ∧
      req.method = incoming.method ∧ req.uri = upstream := by
  refine ⟨_, upstreamRequest_eq config incoming upstream, ?_, by simp [HttpRequest.requestFrom],
    by simp [HttpRequest.requestFrom]⟩
  rw [ClientRequest.insertHeader_err _ _ (appended_visible incoming viaName
      incoming.version.entry_visible),
    ClientRequest.insertHeader_err _ _ (appended_visible incoming xForwardedFor
      incoming.peer_entry.visible),
    ClientRequest.insertHeader_err _ _ h.host, ClientRequest.insertHeader_err _ _ h.scheme,
    ClientRequest.insertHeader_err _ _ h.passedOn_visible]
  rfl

/-- What was sent as `forwarded` is the header passed on, printed. -/
theorem upstreamRequest_forwarded (hC : C.Lawful) {config : ProxyConfig}
    {incoming : HttpRequest H C} {upstream : Uri} {req : ClientRequest C}
    (h : upstreamRequest config incoming upstream = some req) (herr : req.err = false) :
    ∃ v, HeaderValue.fromStr (incoming.passedOn config).display = some v ∧
      C.getAll req.headers forwardedName = [v] := by
  obtain rfl := Option.some.inj ((upstreamRequest_eq config incoming upstream).symm.trans h)
  -- the five headers, the last one first
  obtain ⟨herr, via, -, hvia⟩ := ClientRequest.insertHeader_ok herr
  obtain ⟨herr, peer, -, hpeer⟩ := ClientRequest.insertHeader_ok herr
  obtain ⟨herr, host, -, hhost⟩ := ClientRequest.insertHeader_ok herr
  obtain ⟨herr, proto, -, hproto⟩ := ClientRequest.insertHeader_ok herr
  obtain ⟨-, v, hv, hheaders⟩ := ClientRequest.insertHeader_ok herr
  refine ⟨v, hv, ?_⟩
  rw [hvia, hC.insertOther _ _ _ _ (by decide), hpeer,
    hC.insertOther _ _ _ _ (by decide), hhost, hC.insertOther _ _ _ _ (by decide), hproto,
    hC.insertOther _ _ _ _ (by decide), hheaders, hC.insertSame]

/-! ## 3. Where it goes -/

/-- **What `get` answers for any path**: nothing where no relay is taken for it, and the place of a
    relay that is. -/
theorem ProxyConfig.get_taken {H : HttpCrate} (hH : H.Lawful) (relays : List HttpRelay)
    (bind : SocketAddr) (req : RequestUri H) :
    (∃ r ∈ relays, r.TakenFor relays req.path ∧ ∃ rest, req.path = '/' :: (r.key ++ rest) ∧
      (ProxyConfig.new relays bind).get H req =
        some (some ⟨if r.https then .https else .http, loopback r.port,
          ⟨'/' :: ((ProxyEntry.ofRelay r).prefixPath ++ trimStart '/' rest), req.query⟩⟩)) ∨
      (∀ r ∈ relays, ¬ r.TakenFor relays req.path) ∧
        (ProxyConfig.new relays bind).get H req = some none := by
  cases hres : (ProxyConfig.new relays bind).resolve req.path with
  | none =>
      refine Or.inr ⟨fun r hr htaken => ?_, ProxyConfig.get_unrouted hres⟩
      exact ProxyConfig.resolve_none.mp hres r hr htaken.mounted
  | some found =>
      obtain ⟨k, entry⟩ := found
      cases hdrop : req.path.dropPrefix? ('/' :: k) with
      | none =>
          refine Or.inr ⟨fun r hr htaken => ?_, ProxyConfig.get_blocked hres hdrop⟩
          obtain ⟨hmount, ⟨found, hfound, rfl, -⟩, hlongest⟩ := ProxyConfig.resolve_some hres
          have hkey : r.key = found.key := by
            rcases hlongest r hr htaken.mounted with heq | hlt
            · exact heq
            · exact absurd (htaken.longest found hfound hmount) (Nat.not_le_of_lt hlt)
          obtain ⟨rest, hrest⟩ := htaken.behind
          rw [← hrest, hkey, dropPrefix_append] at hdrop
          cases hdrop
      | some rest =>
          obtain ⟨r, hr, rfl, rfl, htaken⟩ := ProxyConfig.resolve_taken hres hdrop
          obtain ⟨rest', hrest⟩ := htaken.behind
          exact Or.inl ⟨r, hr, htaken, rest', hrest.symm,
            ProxyConfig.get_routed hH hrest.symm rfl hres⟩

/-- What comes back for a request that was sent. -/
def relayedResult (C : HeaderCrate) :
    Except String (ClientResponse C) → Except HttpError (HttpResponse C)
  | .error e => .error (.send e)
  | .ok resp => match resp.body with
    | .error e => .error (.receive e)
    | .ok body => .ok ⟨resp.status, relayHeaders C resp.headers, body⟩

/-- **Nothing leaves a proxy but to the relays of its table**, whatever the request. Where no relay
    is taken for its path nothing is sent, and the answer is 404. Else one request is sent, to the
    loopback address of a relay that is taken: method, query and body are as they came, and what
    comes back is what the relay answers. -/
theorem forward_confined (hH : H.Lawful) (relays : List HttpRelay) (bind : SocketAddr)
    {incoming : HttpRequest H C} (hshown : incoming.Shown (.new relays bind)) (body : List UInt8)
    (client : Client C) :
    (∃ r ∈ relays, r.TakenFor relays incoming.uri.path ∧
      ∃ rest req, incoming.uri.path = '/' :: (r.key ++ rest) ∧
        forward incoming body (.new relays bind) client =
          some (some req, relayedResult C (client.send req body)) ∧
        req.method = incoming.method ∧
        req.uri = ⟨if r.https then .https else .http, loopback r.port,
          ⟨'/' :: ((ProxyEntry.ofRelay r).prefixPath ++ trimStart '/' rest),
            incoming.uri.query⟩⟩) ∨
      (∀ r ∈ relays, ¬ r.TakenFor relays incoming.uri.path) ∧
        forward incoming body (.new relays bind) client =
          some (none, .ok ⟨404, C.empty, []⟩) := by
  unfold forward
  rcases ProxyConfig.get_taken hH relays bind incoming.uri with
    ⟨r, hr, htaken, rest, hpath, hget⟩ | ⟨hnone, hget⟩
  · obtain ⟨req, hreq, herr, hmethod, huri⟩ := hshown.upstreamRequest_set
      ⟨if r.https then .https else .http, loopback r.port,
        ⟨'/' :: ((ProxyEntry.ofRelay r).prefixPath ++ trimStart '/' rest), incoming.uri.query⟩⟩
    refine Or.inl ⟨r, hr, htaken, rest, req, hpath, ?_, hmethod, huri⟩
    simp only [hget, hreq, Option.map_some, herr, Bool.false_eq_true, ↓reduceIte]
    rfl
  · exact Or.inr ⟨hnone, by simp only [hget]⟩

/-- The request for `/a` goes to port 80, as `/`. -/
theorem forward_confined_a :
    ∃ req result, forward (requestA []) [] configA cookieClient = some (some req, result) ∧
      req.uri = ⟨.http, loopback 80, ⟨['/'], none⟩⟩ := by
  have hshown : (requestA []).Shown configA :=
    ⟨⟨⟨['0'], by decide, by decide⟩, rfl⟩, visible_of_all (s := ['h']) (by decide),
      visible_of_all (s := ['h', 't', 't', 'p']) (by decide)⟩
  rcases forward_confined HttpCrate.ascii_lawful _ _ hshown [] cookieClient with
    ⟨r, hr, -, rest, req, hpath, hrun, -, huri⟩ | ⟨hnone, -⟩
  · obtain rfl := List.mem_singleton.mp hr
    obtain rfl : rest = [] := by
      have hpath : ['/', 'a'] ++ [] = ['/', 'a'] ++ rest := hpath
      exact (List.append_cancel_left hpath).symm
    exact ⟨req, _, hrun, huri⟩
  · refine absurd ?_ (hnone _ (List.mem_singleton.mpr rfl))
    refine ⟨Or.inl rfl, fun r hr _ => ?_, List.prefix_refl _⟩
    rw [List.mem_singleton.mp hr]

end Blahaj
