/-
  File:      Blahaj/Proxy/Handler.lean
  Subject:   `forward` of proxy/handler.rs.

  The client that sends the upstream request is a function of the request. The result is `none`
  for a panic, otherwise the request that was sent, if any, and what the caller gets.

  * `upstreamRequest`, `relayHeaders` -- the headers that go upstream, and those that come back;
  * `forward_sent` -- what was sent where something was;
  * `forward_grows` -- when no entry of `via` and `x-forwarded-for` is lost;
  * `forward_relays` -- when no header of the response is lost.
-/
import Blahaj.Headers
import Blahaj.Proxy.ForwardedHeader
import Blahaj.Proxy.Route

namespace Blahaj

open Text

/-! ## 1. Requests and responses -/

/-- `http::Version`. -/
inductive Version where
  | http09
  | http10
  | http11
  | http2
  | http3
  deriving DecidableEq, Repr

/-- `{:?}` of a version. -/
def Version.debug : Version → Str
  | .http09 => ['H', 'T', 'T', 'P', '/', '0', '.', '9']
  | .http10 => ['H', 'T', 'T', 'P', '/', '1', '.', '0']
  | .http11 => ['H', 'T', 'T', 'P', '/', '1', '.', '1']
  | .http2 => ['H', 'T', 'T', 'P', '/', '2', '.', '0']
  | .http3 => ['H', 'T', 'T', 'P', '/', '3', '.', '0']

/-- The characters of a shown IP address. -/
def ipChars : List Char :=
  ['0', '1', '2', '3', '4', '5', '6', '7', '8', '9', 'a', 'b', 'c', 'd', 'e', 'f', '.', ':']

/-- `IpAddr`, as it is shown. -/
structure IpAddr where
  text : Str
  nonempty : text ≠ []
  shown : text.all (fun c => ipChars.contains c) = true
  deriving DecidableEq

/-- `HttpRequest`; scheme and host are what its connection info answers. -/
structure HttpRequest (H : HttpCrate) (C : HeaderCrate) where
  method : Str
  uri : RequestUri H
  version : Version
  headers : C.Map
  peerAddr : Option IpAddr
  scheme : Str
  host : Str

/-- `ClientRequest`; `err` is set where a header could not be set. -/
structure ClientRequest (C : HeaderCrate) where
  method : Str
  uri : Uri
  headers : C.Map
  err : Bool

/-- `ClientResponse`, its body as it is received in the end. -/
structure ClientResponse (C : HeaderCrate) where
  status : Nat
  headers : C.Map
  body : Except String (List UInt8)

/-- `HttpResponse`. -/
structure HttpResponse (C : HeaderCrate) where
  status : Nat
  headers : C.Map
  body : List UInt8

/-- `HttpError`. -/
inductive HttpError where
  | send (source : String)
  | receive (source : String)
  deriving DecidableEq, Repr

/-- The error texts. -/
def HttpError.display : HttpError → String
  | .send source => "Unable to send request to upstream - " ++ source
  | .receive source => "Unable to receive response from upstream - " ++ source

/-- `awc::Client`: its error for a request with a header that could not be set, and what sending
    any other request comes to. -/
structure Client (C : HeaderCrate) where
  refusal : String
  send : ClientRequest C → List UInt8 → Except String (ClientResponse C)

/-! ## 2. The header names -/

def forwardedName : HeaderName := ⟨['f', 'o', 'r', 'w', 'a', 'r', 'd', 'e', 'd'], rfl⟩

def viaName : HeaderName := ⟨['v', 'i', 'a'], rfl⟩

def xForwardedProto : HeaderName :=
  ⟨['x', '-', 'f', 'o', 'r', 'w', 'a', 'r', 'd', 'e', 'd', '-', 'p', 'r', 'o', 't', 'o'], rfl⟩

def xForwardedHost : HeaderName :=
  ⟨['x', '-', 'f', 'o', 'r', 'w', 'a', 'r', 'd', 'e', 'd', '-', 'h', 'o', 's', 't'], rfl⟩

def xForwardedFor : HeaderName :=
  ⟨['x', '-', 'f', 'o', 'r', 'w', 'a', 'r', 'd', 'e', 'd', '-', 'f', 'o', 'r'], rfl⟩

def connection : HeaderName := ⟨['c', 'o', 'n', 'n', 'e', 'c', 't', 'i', 'o', 'n'], rfl⟩

def transferEncoding : HeaderName :=
  ⟨['t', 'r', 'a', 'n', 's', 'f', 'e', 'r', '-', 'e', 'n', 'c', 'o', 'd', 'i', 'n', 'g'], rfl⟩

/-! ## 3. `forward` -/

variable {H : HttpCrate} {C : HeaderCrate}

/-- The peer of a request: its address, or `unknown`. -/
def HttpRequest.peer (incoming : HttpRequest H C) : Str :=
  match incoming.peerAddr with
  | none => ['u', 'n', 'k', 'n', 'o', 'w', 'n']
  | some ip => ip.text

/-- The text of a header value, empty where it is not visible. -/
def HeaderValue.text (v : HeaderValue) : Str := v.toStr.getD []

/-- `headers().get(name)`, as a text. -/
def HttpRequest.header (incoming : HttpRequest H C) (name : HeaderName) : Option Str :=
  (C.get incoming.headers name).map HeaderValue.text

/-- `{version:?} blahaj`: the entry of this proxy in `via`. -/
def Version.entry (version : Version) : Str :=
  version.debug ++ [' ', 'b', 'l', 'a', 'h', 'a', 'j']

/-- A list with one more entry: `{previous}, {entry}`, or the entry alone. -/
def appended (previous : Option Str) (entry : Str) : Str :=
  match previous with
  | none => entry
  | some previous => previous ++ [',', ' '] ++ entry

/-- `ClientRequest::insert_header`. -/
def ClientRequest.insertHeader (req : ClientRequest C) (name : HeaderName) (value : Str) :
    ClientRequest C :=
  match HeaderValue.fromStr value with
  | some value => { req with headers := C.insert req.headers name value }
  | none => { req with err := true }

/-- `Client::request_from`. -/
def HttpRequest.requestFrom (incoming : HttpRequest H C) (upstream : Uri) : ClientRequest C where
  method := incoming.method
  uri := upstream
  headers := C.requestFrom incoming.headers
  err := false

/-- The upstream request of `forward`. -/
def upstreamRequest (config : ProxyConfig) (incoming : HttpRequest H C) (upstream : Uri) :
    Option (ClientRequest C) :=
  let forwarded := (incoming.header forwardedName).getD []
  let forwardedHeader := ForwardedHeader.fromInfo incoming.peer config.interface forwarded
    incoming.host incoming.scheme
  let via := appended (incoming.header viaName) incoming.version.entry
  let xForwardedForAppended := appended (incoming.header xForwardedFor) incoming.peer
  forwardedHeader.map fun forwardedHeader =>
    (((((incoming.requestFrom upstream).insertHeader forwardedName
      forwardedHeader.display).insertHeader xForwardedProto incoming.scheme).insertHeader
      xForwardedHost incoming.host).insertHeader xForwardedFor xForwardedForAppended).insertHeader
      viaName via

/-- The header loop of `forward`. -/
def relayHeaders (C : HeaderCrate) (headers : C.Map) : C.Map :=
  C.insertAll C.empty
    ((C.iter headers).filter fun p => p.1 ≠ connection && p.1 ≠ transferEncoding)

/-- `forward`. -/
def forward (incoming : HttpRequest H C) (body : List UInt8) (config : ProxyConfig)
    (client : Client C) : Option (Option (ClientRequest C) × Except HttpError (HttpResponse C)) :=
  match config.get H incoming.uri with
  | none => none
  | some none => some (none, .ok ⟨404, C.empty, []⟩)
  | some (some upstream) =>
    (upstreamRequest config incoming upstream).map fun req =>
      if req.err then (none, .error (.send client.refusal))
      else (some req, match client.send req body with
        | .error e => .error (.send e)
        | .ok resp => match resp.body with
          | .error e => .error (.receive e)
          | .ok body => .ok ⟨resp.status, relayHeaders C resp.headers, body⟩)

/-- **What was sent where something was**: the upstream request, all of its headers set. -/
theorem forward_sent {incoming : HttpRequest H C} {body : List UInt8} {config : ProxyConfig}
    {client : Client C} {req : ClientRequest C} {result : Except HttpError (HttpResponse C)}
    (h : forward incoming body config client = some (some req, result)) :
    (∃ upstream, config.get H incoming.uri = some (some upstream) ∧
      upstreamRequest config incoming upstream = some req) ∧ req.err = false ∧
      result = match client.send req body with
        | .error e => .error (.send e)
        | .ok resp => match resp.body with
          | .error e => .error (.receive e)
          | .ok body => .ok ⟨resp.status, relayHeaders C resp.headers, body⟩ := by
  unfold forward at h
  split at h
  · cases h
  · cases h
  · rename_i upstream hget
    obtain ⟨req', hreq, h⟩ := Option.map_eq_some_iff.mp h
    split at h
    · cases h
    · rename_i herr
      simp only [Prod.mk.injEq, Option.some.injEq] at h
      obtain ⟨rfl, rfl⟩ := h
      exact ⟨⟨upstream, hget, hreq⟩, by simpa using herr, rfl⟩

/-! ## 4. The response -/

/-- A name the loop keeps has the last of its values, the two it leaves out have none. -/
theorem getAll_relayHeaders (hC : C.Lawful) (headers : C.Map) (name : HeaderName) :
    C.getAll (relayHeaders C headers) name =
      if name ≠ connection ∧ name ≠ transferEncoding then
        (C.getAll headers name).getLast?.toList else [] := by
  rw [relayHeaders, HeaderCrate.getAll_insertAll hC, hC.empty]
  by_cases hname : name ≠ connection ∧ name ≠ transferEncoding
  · have hkept : valuesOf name ((C.iter headers).filter fun p =>
        p.1 ≠ connection && p.1 ≠ transferEncoding) = C.getAll headers name := by
      rw [← hC.iter, valuesOf, valuesOf, List.filter_filter]
      congr 1
      refine List.filter_congr fun p _ => ?_
      by_cases hp : p.1 = name
      · simp [hp, hname.1, hname.2]
      · simp [hp]
    rw [if_pos hname, hkept]
    cases (C.getAll headers name).getLast? <;> rfl
  · have hleft : valuesOf name ((C.iter headers).filter fun p =>
        p.1 ≠ connection && p.1 ≠ transferEncoding) = [] := by
      rw [valuesOf, List.filter_filter, List.map_eq_nil_iff, List.filter_eq_nil_iff]
      intro p _ hp
      simp only [Bool.and_eq_true, decide_eq_true_eq] at hp
      exact hname (hp.1 ▸ hp.2)
    rw [if_neg hname, hleft]
    rfl

/-- The last of some values is all of them exactly if they are at most one. -/
theorem getLast_toList_eq {α : Type} (l : List α) : l.getLast?.toList = l ↔ l.length ≤ 1 := by
  cases l with
  | nil => exact ⟨fun _ => Nat.zero_le _, fun _ => rfl⟩
  | cons a l =>
      cases l with
      | nil => exact ⟨fun _ => Nat.le_refl _, fun _ => rfl⟩
      | cons b l =>
          constructor
          · intro h
            have hlen := congrArg List.length h
            rw [List.getLast?_cons_cons] at hlen
            have hone : ((b :: l).getLast?).toList.length ≤ 1 := by
              cases (b :: l).getLast? <;> simp
            simp only [List.length_cons] at hlen
            omega
          · intro h
            simp only [List.length_cons] at h
            omega

/-- **When no header of the response is lost.** Of a name other than `connection` and
    `transfer-encoding` the caller gets the values the upstream sent exactly if these were at most
    one; of these two names it gets none. -/
theorem forward_relays (hC : C.Lawful) {incoming : HttpRequest H C} {body : List UInt8}
    {config : ProxyConfig} {client : Client C} {req : ClientRequest C} {response : HttpResponse C}
    (h : forward incoming body config client = some (some req, .ok response)) :
    ∃ upstreamResp, client.send req body = .ok upstreamResp ∧
      (∀ name, name ≠ connection → name ≠ transferEncoding →
        (C.getAll response.headers name = C.getAll upstreamResp.headers name ↔
          (C.getAll upstreamResp.headers name).length ≤ 1)) ∧
      C.getAll response.headers connection = [] ∧
      C.getAll response.headers transferEncoding = [] := by
  obtain ⟨-, -, hresult⟩ := forward_sent h
  cases hsend : client.send req body with
  | error e =>
      rw [hsend] at hresult
      cases hresult
  | ok resp =>
      rw [hsend] at hresult
      cases hbody : resp.body with
      | error e =>
          simp only [hbody] at hresult
          cases hresult
      | ok bytes =>
          simp only [hbody] at hresult
          cases hresult
          refine ⟨resp, rfl, fun name hconn hte => ?_, ?_, ?_⟩
          · rw [getAll_relayHeaders hC, if_pos ⟨hconn, hte⟩]
            exact getLast_toList_eq _
          · rw [getAll_relayHeaders hC]
            exact if_neg fun h => h.1 rfl
          · rw [getAll_relayHeaders hC]
            exact if_neg fun h => h.2 rfl

/-- A value of these characters. -/
def HeaderValue.ofText (s : Str) (h : (s.flatMap String.utf8EncodeChar).all validByte = true) :
    HeaderValue := ⟨_, h⟩

/-- A table with one relay, at `/a`. -/
def configA : ProxyConfig := .new [⟨80, ['a'], false, true, none⟩] ⟨['0'], 8080⟩

theorem path_a : (['/', 'a'] : Str).all asciiPathChar = true := rfl

/-- A request for `/a` with these headers. -/
def requestA (headers : List (HeaderName × HeaderValue)) :
    HttpRequest HttpCrate.ascii HeaderCrate.pairs where
  method := ['G', 'E', 'T']
  uri := .ascii ['/', 'a'] none path_a no_query
  version := .http11
  headers := headers
  peerAddr := none
  scheme := ['h', 't', 't', 'p']
  host := ['h']

def setCookie : HeaderName := ⟨['s', 'e', 't', '-', 'c', 'o', 'o', 'k', 'i', 'e'], rfl⟩

/-- An upstream that sets the cookies `a` and `b`. -/
def cookieClient : Client HeaderCrate.pairs where
  refusal := ""
  send _ _ := .ok ⟨200, [(setCookie, .ofText ['a'] rfl), (setCookie, .ofText ['b'] rfl)], .ok []⟩

theorem forward_relays_cookies :
    ∃ req response, forward (requestA []) [] configA cookieClient = some (some req, .ok response) ∧
      ∃ upstreamResp, cookieClient.send req [] = .ok upstreamResp ∧
        (∀ name, name ≠ connection → name ≠ transferEncoding →
          (HeaderCrate.pairs.getAll response.headers name =
              HeaderCrate.pairs.getAll upstreamResp.headers name ↔
            (HeaderCrate.pairs.getAll upstreamResp.headers name).length ≤ 1)) ∧
        HeaderCrate.pairs.getAll response.headers connection = [] ∧
        HeaderCrate.pairs.getAll response.headers transferEncoding = [] := by
  have hrun : forward (requestA []) [] configA cookieClient = some (some _, .ok _) := rfl
  exact ⟨_, _, hrun, forward_relays HeaderCrate.pairs_lawful hrun⟩

/-- The caller gets the cookie `b` alone. -/
theorem forward_loses_cookie :
    ∃ req response upstreamResp,
      forward (requestA []) [] configA cookieClient = some (some req, .ok response) ∧
        cookieClient.send req [] = .ok upstreamResp ∧
        setCookie ≠ connection ∧ setCookie ≠ transferEncoding ∧
        HeaderCrate.pairs.getAll upstreamResp.headers setCookie =
          [.ofText ['a'] rfl, .ofText ['b'] rfl] ∧
        HeaderCrate.pairs.getAll response.headers setCookie = [.ofText ['b'] rfl] :=
  ⟨_, _, _, rfl, rfl, by decide, by decide, rfl, rfl⟩

/-! ## 5. Comma-separated lists -/

/-- The entries of a comma-separated list. -/
def listItems (s : Str) : List Str :=
  ((s.splitOn ',').map (strip isWhite)).filter fun item => item ≠ []

/-- Without commas and white space, visible, and not empty. -/
structure Entry (s : Str) : Prop where
  nonempty : s ≠ []
  solid : ∀ c ∈ s, c ≠ ',' ∧ isWhite c = false
  visible : ∀ c ∈ s, Visible c

theorem listItems_append (a b : Str) :
    listItems (a ++ [',', ' '] ++ b) = listItems a ++ listItems b := by
  have hblank : ((' ' :: b).splitOn ',').map (strip isWhite) =
      (b.splitOn ',').map (strip isWhite) := by
    rw [List.splitOn_cons_eq_if_modifyHead, if_neg (by decide)]
    obtain ⟨x, xs, hxs⟩ := List.exists_cons_of_ne_nil (List.splitOn_ne_nil ',' b)
    rw [hxs, List.modifyHead_cons]
    rfl
  have hcut : a ++ [',', ' '] ++ b = a ++ ',' :: (' ' :: b) := by simp
  rw [listItems, hcut, List.splitOn_append_cons_self, List.map_append, hblank, List.filter_append]
  rfl

/-- One entry alone, the blank within it or not. -/
theorem listItems_single {s : Str} (hs : s ≠ []) (hcomma : ',' ∉ s)
    (hstrip : strip isWhite s = s) : listItems s = [s] := by
  rw [listItems, List.splitOn_eq_singleton hcomma, List.map_singleton, hstrip]
  simp [hs]

theorem Entry.listItems_eq {s : Str} (hs : Entry s) : listItems s = [s] := by
  refine listItems_single hs.nonempty (fun h => (hs.solid _ h).1 rfl) ?_
  have h := strip_pad [] s [] nofun (fun c hc => (hs.solid c hc).2) nofun
  rwa [List.nil_append, List.append_nil] at h

/-! ## 6. What grows -/

instance (c : Char) : Decidable (Visible c) := inferInstanceAs (Decidable (_ ∨ _))

/-- A shown address is one entry. -/
theorem IpAddr.entry (ip : IpAddr) : Entry ip.text := by
  have hchars : ipChars.all (fun c => c != ',' && !isWhite c && decide (Visible c)) = true := by
    decide
  have hmem : ∀ c ∈ ip.text, c ∈ ipChars := fun c hc =>
    List.contains_iff_mem.mp (List.all_eq_true.mp ip.shown c hc)
  have hboth : ∀ c ∈ ip.text, (c ≠ ',' ∧ isWhite c = false) ∧ Visible c := by
    intro c hc
    have h := List.all_eq_true.mp hchars c (hmem c hc)
    simpa using h
  exact ⟨ip.nonempty, fun c hc => (hboth c hc).1, fun c hc => (hboth c hc).2⟩

theorem HttpRequest.peer_entry (incoming : HttpRequest H C) : Entry incoming.peer := by
  unfold HttpRequest.peer
  split
  · have hchars : (['u', 'n', 'k', 'n', 'o', 'w', 'n'] : Str).all
        (fun c => c != ',' && !isWhite c && decide (Visible c)) = true := by decide
    have hboth : ∀ c ∈ (['u', 'n', 'k', 'n', 'o', 'w', 'n'] : Str),
        (c ≠ ',' ∧ isWhite c = false) ∧ Visible c := by
      intro c hc
      have h := List.all_eq_true.mp hchars c hc
      simpa using h
    exact ⟨by decide, fun c hc => (hboth c hc).1, fun c hc => (hboth c hc).2⟩
  · exact IpAddr.entry _

theorem Version.listItems_entry (version : Version) :
    listItems version.entry = [version.entry] := by
  cases version <;> decide

theorem Version.entry_visible (version : Version) : ∀ c ∈ version.entry, Visible c := by
  have h : version.entry.all (fun c => decide (Visible c)) = true := by cases version <;> decide
  intro c hc
  exact of_decide_eq_true (List.all_eq_true.mp h c hc)

/-- The lines of a name in a request. -/
def HttpRequest.lines (incoming : HttpRequest H C) (name : HeaderName) : List HeaderValue :=
  C.getAll incoming.headers name

/-- The list of a name in a request, over all its lines. -/
def HttpRequest.list (incoming : HttpRequest H C) (name : HeaderName) : List Str :=
  (incoming.lines name).flatMap fun line => listItems line.text

theorem HeaderValue.visible_text (v : HeaderValue) : ∀ c ∈ v.text, Visible c := by
  unfold HeaderValue.text
  cases h : v.toStr with
  | none => exact nofun
  | some s => exact HeaderValue.visible_of_toStr h

/-- What is appended to the first line: the entry stands behind the entries of that line. -/
theorem listItems_appended (hC : C.Lawful) (incoming : HttpRequest H C) (name : HeaderName)
    {entry : Str} (hentry : listItems entry = [entry]) :
    listItems (appended (incoming.header name) entry) = incoming.list name ++ [entry] ↔
      ∀ line ∈ (incoming.lines name).tail, listItems line.text = [] := by
  unfold HttpRequest.header HttpRequest.list HttpRequest.lines
  rw [hC.get]
  cases C.getAll incoming.headers name with
  | nil => exact ⟨fun _ => nofun, fun _ => hentry⟩
  | cons first rest =>
      rw [List.head?_cons, Option.map_some, List.flatMap_cons, List.tail_cons]
      show listItems (first.text ++ [',', ' '] ++ entry) = _ ↔ _
      rw [listItems_append, hentry, List.append_cancel_right_eq,
        List.self_eq_append_right, List.flatMap_eq_nil_iff]

theorem appended_visible (incoming : HttpRequest H C) (name : HeaderName) {entry : Str}
    (hentry : ∀ c ∈ entry, Visible c) :
    ∀ c ∈ appended (incoming.header name) entry, Visible c := by
  unfold HttpRequest.header
  cases C.get incoming.headers name with
  | none => exact hentry
  | some v =>
      intro c hc
      rcases List.mem_append.mp hc with hc | hc
      · rcases List.mem_append.mp hc with hc | hc
        · exact v.visible_text c hc
        · simp only [List.mem_cons, List.not_mem_nil, or_false] at hc
          rcases hc with rfl | rfl <;> decide
      · exact hentry c hc

/-- A header that was set: nothing was wrong before, and its value took the place of the values
    of its name. -/
theorem ClientRequest.insertHeader_ok {req : ClientRequest C} {name : HeaderName} {value : Str}
    (h : (req.insertHeader name value).err = false) :
    req.err = false ∧ ∃ v, HeaderValue.fromStr value = some v ∧
      (req.insertHeader name value).headers = C.insert req.headers name v := by
  unfold ClientRequest.insertHeader at h ⊢
  cases hv : HeaderValue.fromStr value with
  | none =>
      rw [hv] at h
      cases h
  | some v =>
      rw [hv] at h
      exact ⟨h, v, rfl, rfl⟩

/-- The values of `x-forwarded-for` and `via` that are sent. -/
theorem upstreamRequest_values (hC : C.Lawful) {config : ProxyConfig}
    {incoming : HttpRequest H C} {upstream : Uri} {req : ClientRequest C}
    (h : upstreamRequest config incoming upstream = some req) (herr : req.err = false) :
    (∃ v, HeaderValue.fromStr (appended (incoming.header viaName) incoming.version.entry) = some v ∧
      C.getAll req.headers viaName = [v]) ∧
    ∃ v, HeaderValue.fromStr (appended (incoming.header xForwardedFor) incoming.peer) = some v ∧
      C.getAll req.headers xForwardedFor = [v] := by
  obtain ⟨F, -, rfl⟩ := Option.map_eq_some_iff.mp h
  obtain ⟨herr, via, hvia, hviaHeaders⟩ := ClientRequest.insertHeader_ok herr
  obtain ⟨-, peer, hpeer, hpeerHeaders⟩ := ClientRequest.insertHeader_ok herr
  refine ⟨⟨via, hvia, ?_⟩, peer, hpeer, ?_⟩
  · rw [hviaHeaders, hC.insertSame]
  · rw [hviaHeaders, hC.insertOther _ _ _ _ (by decide), hpeerHeaders, hC.insertSame]

/-- **When `via` and `x-forwarded-for` only grow.** One value of each name is sent; as a list it
    is the entries of all incoming lines with the entry of this proxy, or the peer, behind them
    exactly if no line but the first holds an entry. (A line that is not visible ASCII holds
    none.) -/
theorem forward_grows (hC : C.Lawful) {incoming : HttpRequest H C} {body : List UInt8}
    {config : ProxyConfig} {client : Client C} {req : ClientRequest C}
    {result : Except HttpError (HttpResponse C)}
    (h : forward incoming body config client = some (some req, result)) :
    (∃ v text, C.getAll req.headers viaName = [v] ∧ v.toStr = some text ∧
      (listItems text = incoming.list viaName ++ [incoming.version.entry] ↔
        ∀ line ∈ (incoming.lines viaName).tail, listItems line.text = [])) ∧
    ∃ v text, C.getAll req.headers xForwardedFor = [v] ∧ v.toStr = some text ∧
      (listItems text = incoming.list xForwardedFor ++ [incoming.peer] ↔
        ∀ line ∈ (incoming.lines xForwardedFor).tail, listItems line.text = []) := by
  obtain ⟨⟨upstream, -, hreq⟩, herr, -⟩ := forward_sent h
  obtain ⟨⟨via, hvia, hviaSent⟩, peer, hpeer, hpeerSent⟩ := upstreamRequest_values hC hreq herr
  constructor
  · obtain ⟨v, hv, htext⟩ := HeaderValue.fromStr_visible
      (appended_visible incoming viaName incoming.version.entry_visible)
    rw [hvia] at hv
    cases hv
    exact ⟨via, _, hviaSent, htext,
      listItems_appended hC incoming viaName incoming.version.listItems_entry⟩
  · obtain ⟨v, hv, htext⟩ := HeaderValue.fromStr_visible
      (appended_visible incoming xForwardedFor incoming.peer_entry.visible)
    rw [hpeer] at hv
    cases hv
    exact ⟨peer, _, hpeerSent, htext,
      listItems_appended hC incoming xForwardedFor incoming.peer_entry.listItems_eq⟩

/-- A request with two lines each of `via` and `x-forwarded-for`. -/
def twoLines : HttpRequest HttpCrate.ascii HeaderCrate.pairs :=
  requestA [(viaName, .ofText ['a'] rfl), (viaName, .ofText ['b'] rfl),
    (xForwardedFor, .ofText ['1'] rfl), (xForwardedFor, .ofText ['2'] rfl)]

theorem forward_grows_lines :
    ∃ req result, forward twoLines [] configA cookieClient = some (some req, result) ∧
      (∃ v text, HeaderCrate.pairs.getAll req.headers viaName = [v] ∧ v.toStr = some text ∧
        (listItems text = twoLines.list viaName ++ [twoLines.version.entry] ↔
          ∀ line ∈ (twoLines.lines viaName).tail, listItems line.text = [])) ∧
      ∃ v text, HeaderCrate.pairs.getAll req.headers xForwardedFor = [v] ∧ v.toStr = some text ∧
        (listItems text = twoLines.list xForwardedFor ++ [twoLines.peer] ↔
          ∀ line ∈ (twoLines.lines xForwardedFor).tail, listItems line.text = []) := by
  have hrun : forward twoLines [] configA cookieClient = some (some _, _) := rfl
  exact ⟨_, _, hrun, forward_grows HeaderCrate.pairs_lawful hrun⟩

/-- Of each name the entry of the second line is lost. -/
theorem forward_loses_line :
    ∃ req result via peer, forward twoLines [] configA cookieClient = some (some req, result) ∧
      HeaderCrate.pairs.getAll req.headers viaName = [via] ∧
      listItems via.text = [['a'], Version.http11.entry] ∧
      twoLines.list viaName = [['a'], ['b']] ∧
      HeaderCrate.pairs.getAll req.headers xForwardedFor = [peer] ∧
      listItems peer.text = [['1'], twoLines.peer] ∧
      twoLines.list xForwardedFor = [['1'], ['2']] :=
  ⟨_, _, _, _, rfl, rfl, by decide, by decide, rfl, by decide, by decide⟩

end Blahaj
