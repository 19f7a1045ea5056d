/-
  File:      Blahaj/Proxy/Chain.lean
  Subject:   A CHAIN OF PROXIES: requests that pass through `forward` several times.

  Each proxy writes itself behind what it reads of `via`, `x-forwarded-for` and `forwarded`, and the
  next one reads what was written. `Relayed` is a request on its way, with the proxies it has
  passed.

  * `relayed_listed` -- **every proxy on the way is in `via`, every peer in `x-forwarded-for`**,
    in order, behind the first line that the client sent;
  * `relayed_forwarded` -- **every peer is in `forwarded`**, in order, behind the entries of the
    client, whatever these were made of.
-/
import Blahaj.Proxy.Gateway

namespace Blahaj

open Text

variable {H : HttpCrate} {C : HeaderCrate}

/-! ## 1. The way of a request -/

/-- A request at one proxy, that has sent it on. -/
structure Leg (H : HttpCrate) (C : HeaderCrate) where
  incoming : HttpRequest H C
  body : List UInt8
  config : ProxyConfig
  client : Client C
  sent : ClientRequest C
  result : Except HttpError (HttpResponse C)
  forwarded : forward incoming body config client = some (some sent, result)
  shown : incoming.Shown config

/-- The next proxy has received what was sent: the three headers as they were. -/
def Received (sent : ClientRequest C) (incoming : HttpRequest H C) : Prop :=
  ∀ name ∈ [viaName, xForwardedFor, forwardedName],
    C.getAll incoming.headers name = C.getAll sent.headers name

/-- **A request on its way**: it came to the first proxy as `first`, and has passed these. -/
inductive Relayed (first : HttpRequest H C) : List (Leg H C) → ClientRequest C → Prop where
  | one (leg : Leg H C) (hfirst : leg.incoming = first) : Relayed first [leg] leg.sent
  | more {legs : List (Leg H C)} {sent : ClientRequest C} (leg : Leg H C)
      (hway : Relayed first legs sent) (hin : Received sent leg.incoming) :
      Relayed first (legs ++ [leg]) leg.sent

/-- The entries of the first line of a name. -/
def HttpRequest.firstLine (incoming : HttpRequest H C) (name : HeaderName) : List Str :=
  listItems ((incoming.header name).getD [])

/-- What a proxy reads of a header that came as it was sent. -/
theorem header_received (hC : C.Lawful) {sent : ClientRequest C} {incoming : HttpRequest H C}
    {name : HeaderName} {v : HeaderValue} {text : Str}
    (hin : C.getAll incoming.headers name = C.getAll sent.headers name)
    (hsent : C.getAll sent.headers name = [v]) (htext : v.toStr = some text) :
    incoming.header name = some text := by
  unfold HttpRequest.header
  rw [hC.get, hin, hsent, List.head?_cons, Option.map_some, HeaderValue.text, htext,
    Option.getD_some]

/-! ## 2. `via` and `x-forwarded-for` -/

/-- What is appended stands behind the entries of the first line. -/
theorem listItems_behind (incoming : HttpRequest H C) (name : HeaderName) {entry : Str}
    (hentry : listItems entry = [entry]) :
    listItems (appended (incoming.header name) entry) = incoming.firstLine name ++ [entry] := by
  unfold HttpRequest.firstLine
  cases incoming.header name with
  | none => exact hentry
  | some line =>
      show listItems (line ++ [',', ' '] ++ entry) = _
      rw [listItems_append, hentry, Option.getD_some]

/-- One visible line of a name is sent: these entries, behind those of the first line that came. -/
def Lists (first : HttpRequest H C) (sent : ClientRequest C) (name : HeaderName)
    (entries : List Str) : Prop :=
  ∃ v text, C.getAll sent.headers name = [v] ∧ v.toStr = some text ∧
    listItems text = first.firstLine name ++ entries

/-- **What one proxy sends** of the two names: its own entry behind what came. -/
theorem Leg.lists (hC : C.Lawful) (leg : Leg H C) :
    Lists leg.incoming leg.sent viaName [leg.incoming.version.entry] ∧
      Lists leg.incoming leg.sent xForwardedFor [leg.incoming.peer] := by
  obtain ⟨⟨upstream, -, hreq⟩, herr, -⟩ := forward_sent leg.forwarded
  obtain ⟨⟨via, hvia, hviaSent⟩, peer, hpeer, hpeerSent⟩ := upstreamRequest_values hC hreq herr
  constructor
  · obtain ⟨v, hv, htext⟩ := HeaderValue.fromStr_visible
      (appended_visible leg.incoming viaName leg.incoming.version.entry_visible)
    obtain rfl := Option.some.inj (hvia.symm.trans hv)
    exact ⟨via, _, hviaSent, htext,
      listItems_behind leg.incoming viaName leg.incoming.version.listItems_entry⟩
  · obtain ⟨v, hv, htext⟩ := HeaderValue.fromStr_visible
      (appended_visible leg.incoming xForwardedFor leg.incoming.peer_entry.visible)
    obtain rfl := Option.some.inj (hpeer.symm.trans hv)
    exact ⟨peer, _, hpeerSent, htext,
      listItems_behind leg.incoming xForwardedFor leg.incoming.peer_entry.listItems_eq⟩

/-- One more proxy: its entry stands behind what was listed before. -/
theorem Lists.more (hC : C.Lawful) {first incoming : HttpRequest H C} {sent sent' : ClientRequest C}
    {name : HeaderName} {entries : List Str} {entry : Str} (h : Lists first sent name entries)
    (hin : C.getAll incoming.headers name = C.getAll sent.headers name)
    (h' : Lists incoming sent' name [entry]) : Lists first sent' name (entries ++ [entry]) := by
  obtain ⟨v, text, hsent, htext, hitems⟩ := h
  obtain ⟨v', text', hsent', htext', hitems'⟩ := h'
  refine ⟨v', text', hsent', htext', ?_⟩
  rw [hitems', HttpRequest.firstLine, header_received hC hin hsent htext, Option.getD_some, hitems,
    List.append_assoc]

/-- The first line holds all entries exactly if no other line holds one. -/
theorem firstLine_eq_list (hC : C.Lawful) (incoming : HttpRequest H C) (name : HeaderName) :
    incoming.firstLine name = incoming.list name ↔
      ∀ line ∈ (incoming.lines name).tail, listItems line.text = [] := by
  unfold HttpRequest.firstLine HttpRequest.header HttpRequest.list HttpRequest.lines
  rw [hC.get]
  cases C.getAll incoming.headers name with
  | nil => exact ⟨fun _ line hline => (List.not_mem_nil hline).elim, fun _ => rfl⟩
  | cons line rest =>
      rw [List.head?_cons, Option.map_some, Option.getD_some, List.flatMap_cons, List.tail_cons,
        List.self_eq_append_right, List.flatMap_eq_nil_iff]

/-- **The whole way is listed**, however long it is: `via` lists every proxy on it and
    `x-forwarded-for` every peer, in order, behind the entries of the first line that the client
    sent. So only the first proxy can lose an entry, and it loses none exactly if the other lines
    of the client hold none. -/
theorem relayed_listed (hC : C.Lawful) {first : HttpRequest H C} {legs : List (Leg H C)}
    {sent : ClientRequest C} (h : Relayed first legs sent) :
    Lists first sent viaName (legs.map fun leg => leg.incoming.version.entry) ∧
      Lists first sent xForwardedFor (legs.map fun leg => leg.incoming.peer) ∧
      ∀ name, first.firstLine name = first.list name ↔
        ∀ line ∈ (first.lines name).tail, listItems line.text = [] := by
  have hway : Lists first sent viaName (legs.map fun leg => leg.incoming.version.entry) ∧
      Lists first sent xForwardedFor (legs.map fun leg => leg.incoming.peer) := by
    induction h with
    | one leg hfirst =>
        subst hfirst
        exact leg.lists hC
    | more leg hway hin ih =>
        obtain ⟨hvia, hpeer⟩ := leg.lists hC
        rw [List.map_append, List.map_append]
        exact ⟨ih.1.more hC (hin viaName (by simp)) hvia,
          ih.2.more hC (hin xForwardedFor (by simp)) hpeer⟩
  exact ⟨hway.1, hway.2, firstLine_eq_list hC first⟩

/-- The proxy of `configA` at a request with these headers. -/
def legA {headers : List (HeaderName × HeaderValue)} {sent : ClientRequest HeaderCrate.pairs}
    {result : Except HttpError (HttpResponse HeaderCrate.pairs)}
    (h : forward (requestA headers) [] configA cookieClient = some (some sent, result)) :
    Leg HttpCrate.ascii HeaderCrate.pairs where
  incoming := requestA headers
  body := []
  config := configA
  client := cookieClient
  sent := sent
  result := result
  forwarded := h
  shown := ⟨⟨⟨['0'], by decide, by decide⟩, rfl⟩, visible_of_all (s := ['h']) (by decide),
    visible_of_all (s := ['h', 't', 't', 'p']) (by decide)⟩

/-- Two lines of each name pass two proxies: the second line is lost at the first of them. -/
theorem relayed_listed_twoLines :
    ∃ legs sent, Relayed twoLines legs sent ∧ legs.length = 2 ∧
      Lists twoLines sent viaName [Version.http11.entry, Version.http11.entry] ∧
      Lists twoLines sent xForwardedFor [twoLines.peer, twoLines.peer] ∧
      twoLines.firstLine viaName ≠ twoLines.list viaName := by
  have hfirst : forward twoLines [] configA cookieClient = some (some _, _) := rfl
  have hrun : forward (requestA (legA hfirst).sent.headers) [] configA cookieClient =
      some (some _, _) := rfl
  have hway : Relayed twoLines [legA hfirst, legA hrun] (legA hrun).sent :=
    .more (legA hrun) (.one (legA hfirst) rfl) fun name _ => rfl
  obtain ⟨hvia, hpeer, hall⟩ := relayed_listed HeaderCrate.pairs_lawful hway
  refine ⟨_, _, hway, rfl, hvia, hpeer, fun heq => ?_⟩
  have hsecond : .ofText ['b'] rfl ∈ (twoLines.lines viaName).tail := List.mem_singleton.mpr rfl
  exact absurd ((hall viaName).mp heq _ hsecond) (by decide)

/-! ## 3. `forwarded` -/

/-- The header that a proxy sends on. -/
def Leg.header (leg : Leg H C) : ForwardedHeader := leg.incoming.passedOn leg.config

/-- **What one proxy sends as `forwarded`** reads as it was printed. -/
theorem Leg.sends (hC : C.Lawful) (leg : Leg H C) :
    ∃ v, C.getAll leg.sent.headers forwardedName = [v] ∧ v.toStr = some leg.header.display := by
  obtain ⟨⟨upstream, -, hreq⟩, herr, -⟩ := forward_sent leg.forwarded
  obtain ⟨v, hv, hsent⟩ := upstreamRequest_forwarded hC hreq herr
  obtain ⟨v', hv', htext⟩ := HeaderValue.fromStr_visible leg.shown.passedOn_visible
  obtain rfl := Option.some.inj (hv.symm.trans hv')
  exact ⟨v, hsent, htext⟩

/-! ## 4. What becomes of an entry -/

/-- An entry that held no `for=` holds none, and is the same up to white space around it. -/
def Comes (want got : Str) : Prop :=
  Lasting want → Lasting got ∧ strip isWhite got = strip isWhite want

/-- An entry that is read from its item comes as it was. -/
theorem Comes.item {want got : Str} (h : Comes want got) :
    Comes want (remove forMark (forItem got)) := by
  intro hwant
  rw [remove_forItem (h hwant).1]
  exact h hwant

/-- Where a blank stands before the item it grows by that. -/
theorem Comes.blank_item {want got : Str} (h : Comes want got) :
    Comes want (remove forMark (' ' :: forItem got)) := by
  intro hwant
  obtain ⟨hlasting, hstrip⟩ := h hwant
  rw [remove_cons (by simp [forMark]), remove_forItem hlasting]
  exact ⟨lasting_blanks hlasting 1, hstrip⟩

/-- **What the next proxy reads of a printed header**: as many entries, each come from its own. -/
theorem comes_previous {F : ForwardedHeader} {wants : List Str} (hby : ¬ forMark <:+: F.by_)
    (hplain : ∀ x ∈ F.for_, Plain x) (hne : F.for_ ≠ [])
    (h : List.Forall₂ Comes wants F.for_) :
    List.Forall₂ Comes wants (previous F.display) := by
  obtain ⟨interface, entries, host, proto⟩ := F
  obtain ⟨x, xs, rfl⟩ := List.exists_cons_of_ne_nil hne
  rw [previous_printed host proto hby hplain]
  cases h with
  | cons hx hxs =>
      rw [List.map_cons, List.map_map]
      refine .cons hx.item (List.forall₂_map_right_iff.mpr (hxs.imp fun _ _ hy => ?_))
      exact hy.blank_item

/-- Up to white space around them, entries without a `for=` come as they were. -/
theorem comes_strip {wants entries : List Str} (h : List.Forall₂ Comes wants entries)
    (hlasting : ∀ x ∈ wants, Lasting x) :
    entries.map (strip isWhite) = wants.map (strip isWhite) := by
  induction h with
  | nil => rfl
  | cons hx hxs ih =>
      rw [List.map_cons, List.map_cons, ih fun y hy => hlasting y (List.mem_cons_of_mem _ hy),
        (hx (hlasting _ (List.mem_cons_self ..))).2]

/-- There is no white space around a peer. -/
theorem strip_peers (legs : List (Leg H C)) :
    (legs.map fun leg => leg.incoming.peer).map (strip isWhite) =
      legs.map fun leg => leg.incoming.peer := by
  rw [List.map_map]
  refine List.map_congr_left fun leg _ => ?_
  have hpad := strip_pad [] leg.incoming.peer [] (by simp)
    (fun c hc => (leg.incoming.peer_entry.solid c hc).2) (by simp)
  rwa [List.nil_append, List.append_nil] at hpad

/-- **A chain of proxies loses no entry of `forwarded`.** -/
theorem relayed_comes (hC : C.Lawful) {first : HttpRequest H C} {legs : List (Leg H C)}
    {sent : ClientRequest C} (h : Relayed first legs sent) :
    ∃ leg, legs.getLast? = some leg ∧ sent = leg.sent ∧
      List.Forall₂ Comes
        (previous first.forwardedText ++ legs.map fun leg => leg.incoming.peer)
        leg.header.for_ := by
  induction h with
  | one leg hfirst =>
      subst hfirst
      exact ⟨leg, rfl, rfl, List.forall₂_same.mpr fun _ _ hwant => ⟨hwant, rfl⟩⟩
  | more leg hway hin ih =>
      obtain ⟨prev, -, rfl, hcome⟩ := ih
      obtain ⟨v, hsent, htext⟩ := prev.sends hC
      have hread : leg.incoming.forwardedText = prev.header.display := by
        rw [HttpRequest.forwardedText,
          header_received hC (hin forwardedName (by simp)) hsent htext, Option.getD_some]
      obtain ⟨ip, hip⟩ := prev.shown.interface
      have hby : ¬ forMark <:+: prev.header.by_ := by
        show ¬ forMark <:+: prev.config.interface
        rw [hip]
        exact ip.no_mark
      have hbefore := comes_previous hby (fun x hx => (prev.incoming.passedOn_plain _ x hx).1)
        (by simp [Leg.header, HttpRequest.passedOn]) hcome
      refine ⟨leg, List.getLast?_concat .., rfl, ?_⟩
      rw [Leg.header, HttpRequest.passedOn, hread, List.map_append, List.map_singleton,
        ← List.append_assoc]
      exact List.rel_append hbefore (.cons (fun hwant => ⟨hwant, rfl⟩) .nil)

/-- **No proxy is lost from `forwarded`, and the client cannot put one there**: one visible line is
    sent, the header of the last proxy. Behind as many entries as the client sent, it lists every
    peer, in order; where no entry of the client holds a `for=`, it lists these too, up to white
    space. -/
theorem relayed_forwarded (hC : C.Lawful) {first : HttpRequest H C} {legs : List (Leg H C)}
    {sent : ClientRequest C} (h : Relayed first legs sent) :
    ∃ leg v, legs.getLast? = some leg ∧ C.getAll sent.headers forwardedName = [v] ∧
      v.toStr = some leg.header.display ∧
      (leg.header.for_.drop (previous first.forwardedText).length).map (strip isWhite) =
        legs.map (fun leg => leg.incoming.peer) ∧
      ((∀ x ∈ previous first.forwardedText, ¬ forMark <:+: x) →
        leg.header.for_.map (strip isWhite) =
          (previous first.forwardedText).map (strip isWhite) ++
            legs.map fun leg => leg.incoming.peer) := by
  obtain ⟨leg, hlast, rfl, hcome⟩ := relayed_comes hC h
  obtain ⟨v, hsent, htext⟩ := leg.sends hC
  have hlasting : ∀ x ∈ legs.map fun leg => leg.incoming.peer, Lasting x := by
    intro x hx
    obtain ⟨leg', -, rfl⟩ := List.mem_map.mp hx
    exact leg'.incoming.peer_lasting
  refine ⟨leg, v, hlast, hsent, htext, ?_, fun hclean => ?_⟩
  · have hpeers := List.forall₂_drop (previous first.forwardedText).length hcome
    rw [List.drop_left] at hpeers
    rw [comes_strip hpeers hlasting, strip_peers]
  · have hall : ∀ x ∈ previous first.forwardedText ++ legs.map fun leg => leg.incoming.peer,
        Lasting x := by
      intro x hx
      rcases List.mem_append.mp hx with hx | hx
      · exact ⟨plain_previous hx, hclean x hx⟩
      · exact hlasting x hx
    rw [comes_strip hcome hall, List.map_append, strip_peers]

/-- A request whose client names a hop before itself. -/
def namesHop : HttpRequest HttpCrate.ascii HeaderCrate.pairs :=
  requestA [(forwardedName, .ofText ['f', 'o', 'r', '=', 'x'] rfl)]

theorem relayed_forwarded_namesHop :
    ∃ legs sent leg v, Relayed namesHop legs sent ∧ legs.length = 2 ∧
      legs.getLast? = some leg ∧ HeaderCrate.pairs.getAll sent.headers forwardedName = [v] ∧
      v.toStr = some leg.header.display ∧
      leg.header.for_.map (strip isWhite) = [['x'], namesHop.peer, namesHop.peer] := by
  have hfirst : forward namesHop [] configA cookieClient = some (some _, _) := rfl
  have hrun : forward (requestA (legA hfirst).sent.headers) [] configA cookieClient =
      some (some _, _) := rfl
  have hway : Relayed namesHop [legA hfirst, legA hrun] (legA hrun).sent :=
    .more (legA hrun) (.one (legA hfirst) rfl) fun name _ => rfl
  obtain ⟨leg, v, hlast, hsent, htext, -, hall⟩ :=
    relayed_forwarded HeaderCrate.pairs_lawful hway
  have hprevious : previous namesHop.forwardedText = [['x']] := by decide
  refine ⟨_, _, leg, v, hway, rfl, hlast, hsent, htext, (hall ?_).trans ?_⟩
  · rw [hprevious]
    decide
  · rw [hprevious]
    rfl

end Blahaj
