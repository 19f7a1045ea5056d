/-
  File:      Blahaj/Logger.lean
  Subject:   The logger of logger.rs, and the streams of child output it reads (`wrap_stream` of
             supervisor/caretaker.rs).

  tokio-util's `FramedRead` with its `LinesCodec` is a parameter. The state of the logger carries
  the number of the stream with each item it received. Streams are polled in any order, one item
  at a time; a poll that stays pending changes nothing and is no event.

  * `CodecCrate.Lawful` -- what the code relies on: which answers the polls of a stream give, up to
    its first `None`;
  * `CodecCrate.buffered` -- a decoder that reads as much as it needs, and is lawful;
  * `tracked` -- what a stream has delivered, in every state;
  * `logger_delivers` -- when no good line is lost.
-/
import Blahaj.Base
import Blahaj.Lib.Lts
import Mathlib.Data.List.Basic

namespace Blahaj

open Lts

/-! ## 1. Lines -/

abbrev Bytes := List UInt8

/-- `\n`. -/
def newline : UInt8 := 10

/-- `LinesCodecError`. -/
inductive LinesCodecError where
  | maxLineLengthExceeded
  | io
  deriving DecidableEq, Repr

/-- A line without the carriage return at its end. -/
def withoutCarriageReturn (line : Bytes) : Bytes :=
  if line.getLast? = some 13 then line.dropLast else line

/-- The text of a line that is at most so many bytes long and valid UTF-8. -/
def lineText (maxLength : Nat) (line : Bytes) : Option String :=
  if line.length ≤ maxLength then String.fromUTF8? ⟨(withoutCarriageReturn line).toArray⟩ else none

/-- A line, as `LinesCodec` decodes it. -/
def decodeLine (maxLength : Nat) (line : Bytes) : Except LinesCodecError String :=
  if line.length ≤ maxLength then
    match String.fromUTF8? ⟨(withoutCarriageReturn line).toArray⟩ with
    | some text => .ok text
    | none => .error .io
  else .error .maxLineLengthExceeded

theorem toOption_decodeLine (maxLength : Nat) (line : Bytes) :
    (decodeLine maxLength line).toOption = lineText maxLength line := by
  unfold decodeLine lineText
  split
  · cases String.fromUTF8? ⟨(withoutCarriageReturn line).toArray⟩ <;> rfl
  · rfl

/-! ## 2. The codec -/

/-- An item of a decoded stream. -/
abbrev Item := Except LinesCodecError String

/-- What the code uses of tokio-util: `FramedRead` over a pipe that gives these reads, with a
    `LinesCodec` of this maximal length, and its next item. -/
structure CodecCrate where
  Framed : Type
  framedRead : Nat → List Bytes → Framed
  pollNext : Framed → Option Item × Framed

/-- The answers to the polls of a stream of items, up to its first `None`: that is its end, or it
    stands behind its first error. -/
def answers : List Item → List (Option Item)
  | [] => [none]
  | .ok text :: items => some (.ok text) :: answers items
  | .error e :: _ => [some (.error e), none]

/-- Polled again and again it gives these answers. -/
def Answers (K : CodecCrate) : K.Framed → List (Option Item) → Prop
  | _, [] => True
  | framed, a :: as => (K.pollNext framed).1 = a ∧ Answers K (K.pollNext framed).2 as

/-- These reads are a stream of newline-terminated lines, cut anywhere. -/
structure Cut (lines reads : List Bytes) : Prop where
  whole : reads.flatten = lines.flatMap fun line => line ++ [newline]
  nonempty : ∀ read ∈ reads, read ≠ []
  noNewline : ∀ line ∈ lines, newline ∉ line

/-- What the code relies on: however a stream of lines is cut into reads, its lines are decoded in
    order, up to the first bad one. No law for what a stream answers behind its first `None`: it is
    dropped there. -/
def CodecCrate.Lawful (K : CodecCrate) : Prop :=
  ∀ maxLength lines reads, Cut lines reads →
    Answers K (K.framedRead maxLength reads) (answers (lines.map (decodeLine maxLength)))

/-! ## 3. A decoder with a buffer -/

/-- A buffer, the reads to come, and whether the last item was an error. -/
structure Buffered where
  maxLength : Nat
  buffer : Bytes
  reads : List Bytes
  failed : Bool

/-- The first line of the buffer and the bytes behind it. -/
def cutLine : Bytes → Option (Bytes × Bytes)
  | [] => none
  | b :: bytes =>
    if b = newline then some ([], bytes)
    else (cutLine bytes).map fun (line, rest) => (b :: line, rest)

/-- The next line, with as many reads as it takes. -/
def pull : Bytes → List Bytes → Option (Bytes × Bytes × List Bytes)
  | buffer, [] => (cutLine buffer).map fun (line, rest) => (line, rest, [])
  | buffer, read :: reads => match cutLine buffer with
    | some (line, rest) => some (line, rest, read :: reads)
    | none => pull (buffer ++ read) reads

/-- Its next item. -/
def Buffered.pollNext (framed : Buffered) : Option Item × Buffered :=
  if framed.failed then (none, { framed with failed := false })
  else match pull framed.buffer framed.reads with
    | some (line, rest, reads) =>
      (some (decodeLine framed.maxLength line),
        { framed with
          buffer := rest, reads := reads, failed := (lineText framed.maxLength line).isNone })
    | none =>
      -- what is left at the end is a line too, but for a single carriage return
      let last := framed.buffer ++ framed.reads.flatten
      if last = [] ∨ last = [13] then (none, framed)
      else (some (decodeLine framed.maxLength last),
        { framed with
          buffer := [], reads := [], failed := (lineText framed.maxLength last).isNone })

/-- The decoder with a buffer. -/
def CodecCrate.buffered : CodecCrate where
  Framed := Buffered
  framedRead maxLength reads := ⟨maxLength, [], reads, false⟩
  pollNext := Buffered.pollNext

/-- A line is cut off at its newline. -/
theorem cutLine_line {line : Bytes} (rest : Bytes) (h : newline ∉ line) :
    cutLine (line ++ newline :: rest) = some (line, rest) := by
  induction line with
  | nil => exact if_pos rfl
  | cons b line ih =>
      rw [List.mem_cons, not_or] at h
      rw [List.cons_append, cutLine, if_neg (Ne.symm h.1), ih h.2]
      rfl

/-- More bytes behind a line do not change it. -/
theorem cutLine_append {bytes line rest : Bytes} (more : Bytes)
    (h : cutLine bytes = some (line, rest)) :
    cutLine (bytes ++ more) = some (line, rest ++ more) := by
  induction bytes generalizing line with
  | nil => cases h
  | cons b bytes ih =>
      rw [cutLine] at h
      rw [List.cons_append, cutLine]
      split at h
      · rename_i hb
        cases h
        exact if_pos hb
      · rename_i hb
        obtain ⟨found, hcut, hfound⟩ := Option.map_eq_some_iff.mp h
        cases hfound
        rw [if_neg hb, ih hcut]
        rfl

/-- Where the buffer and the reads are a line and more, the line is pulled and the rest left. -/
theorem pull_line {buffer line rest : Bytes} {reads : List Bytes} (h : newline ∉ line)
    (hwhole : buffer ++ reads.flatten = line ++ newline :: rest) :
    ∃ buffer' reads', pull buffer reads = some (line, buffer', reads') ∧
      buffer' ++ reads'.flatten = rest := by
  have hline := cutLine_line rest h
  induction reads generalizing buffer with
  | nil =>
      rw [List.flatten_nil, List.append_nil] at hwhole
      refine ⟨rest, [], ?_, List.append_nil _⟩
      rw [pull, hwhole, hline]
      rfl
  | cons read reads ih =>
      cases hcut : cutLine buffer with
      | none =>
          rw [List.flatten_cons, ← List.append_assoc] at hwhole
          obtain ⟨buffer', reads', hpull, hrest⟩ := ih hwhole
          exact ⟨buffer', reads', by rw [pull, hcut]; exact hpull, hrest⟩
      | some found =>
          obtain ⟨line', rest'⟩ := found
          have hboth := cutLine_append (read :: reads).flatten hcut
          rw [hwhole, hline] at hboth
          cases hboth
          exact ⟨rest', read :: reads, by rw [pull, hcut], rfl⟩

/-- Where nothing is left, nothing is pulled. -/
theorem pull_nil {buffer : Bytes} {reads : List Bytes} (h : buffer ++ reads.flatten = []) :
    pull buffer reads = none := by
  induction reads generalizing buffer with
  | nil =>
      rw [List.flatten_nil, List.append_nil] at h
      rw [h]
      rfl
  | cons read reads ih =>
      rw [List.flatten_cons, ← List.append_assoc] at h
      obtain ⟨hfront, -⟩ := List.append_eq_nil_iff.mp h
      obtain ⟨hbuffer, -⟩ := List.append_eq_nil_iff.mp hfront
      have hnone : cutLine buffer = none := by rw [hbuffer]; rfl
      rw [pull, hnone]
      exact ih h

/-- **The decoder with a buffer answers line by line**, whatever is in the buffer already. -/
theorem answers_buffered {maxLength : Nat} {lines : List Bytes} {buffer : Bytes}
    {reads : List Bytes} (hlines : ∀ line ∈ lines, newline ∉ line)
    (hwhole : buffer ++ reads.flatten = lines.flatMap fun line => line ++ [newline]) :
    Answers .buffered ⟨maxLength, buffer, reads, false⟩
      (answers (lines.map (decodeLine maxLength))) := by
  induction lines generalizing buffer reads with
  | nil =>
      refine ⟨?_, trivial⟩
      show (Buffered.pollNext ⟨maxLength, buffer, reads, false⟩).1 = none
      have hempty : buffer ++ reads.flatten = [] := hwhole
      simp only [Buffered.pollNext, pull_nil hempty, hempty, Bool.false_eq_true, true_or,
        ↓reduceIte]
  | cons line lines ih =>
      have hfirst : newline ∉ line := hlines line (List.mem_cons_self ..)
      rw [List.flatMap_cons, List.append_assoc, List.singleton_append] at hwhole
      obtain ⟨buffer', reads', hpull, hrest⟩ := pull_line hfirst hwhole
      have hpoll : Buffered.pollNext ⟨maxLength, buffer, reads, false⟩ =
          (some (decodeLine maxLength line),
            ⟨maxLength, buffer', reads', (lineText maxLength line).isNone⟩) := by
        simp only [Buffered.pollNext, hpull, Bool.false_eq_true, ↓reduceIte]
      have hgo := ih (fun l hl => hlines l (List.mem_cons_of_mem _ hl)) hrest
      have htext := toOption_decodeLine maxLength line
      cases hitem : decodeLine maxLength line with
      | ok text =>
          rw [hitem] at htext
          have hgood : (lineText maxLength line).isNone = false := by
            rw [← htext]
            rfl
          rw [hitem, hgood] at hpoll
          rw [List.map_cons, hitem, answers]
          refine ⟨congrArg Prod.fst hpoll, ?_⟩
          show Answers .buffered (Buffered.pollNext ⟨maxLength, buffer, reads, false⟩).2 _
          rw [hpoll]
          exact hgo
      | error e =>
          rw [hitem] at htext
          have hbad : (lineText maxLength line).isNone = true := by
            rw [← htext]
            rfl
          rw [hitem, hbad] at hpoll
          rw [List.map_cons, hitem, answers]
          refine ⟨congrArg Prod.fst hpoll, ?_⟩
          show Answers .buffered (Buffered.pollNext ⟨maxLength, buffer, reads, false⟩).2 _
          rw [hpoll]
          exact ⟨rfl, trivial⟩

theorem CodecCrate.buffered_lawful : CodecCrate.buffered.Lawful := by
  intro maxLength lines reads hcut
  exact answers_buffered hcut.noNewline hcut.whole

/-! ## 4. The logger -/

/-- `IOType`. -/
inductive IOType where
  | stdout
  | stderr
  deriving DecidableEq, Repr

/-- `ChildOutput`. -/
structure ChildOutput where
  name : String
  ty : IOType
  data : String
  deriving DecidableEq, Repr

/-- What `info!` and `warn!` write. -/
inductive LogLine where
  | info (target data : String)
  | warn (target data : String)
  deriving DecidableEq, Repr

variable {K : CodecCrate}

/-- The stream that `wrap_stream` makes: decoded lines, the errors among them filtered out. -/
structure ChildStream (K : CodecCrate) where
  framed : K.Framed
  name : String
  ty : IOType

/-- `wrap_stream`. -/
def wrapStream (K : CodecCrate) (stdio : List Bytes) (name : String) (ty : IOType) :
    ChildStream K where
  framed := K.framedRead 1024 stdio
  name := name
  ty := ty

/-- The output a decoded item becomes, none for an error. -/
def output (name : String) (ty : IOType) (item : Item) : Option ChildOutput :=
  item.toOption.map fun line => { name := name, ty := ty, data := line }

/-- `LoggerActor`: its streams in the order they were added, `none` for one that was dropped, what
    it received of which stream, and what it wrote. -/
structure LoggerActor (K : CodecCrate) where
  streams : List (Option (ChildStream K))
  received : List (Nat × ChildOutput)
  log : List LogLine

def LoggerActor.init : LoggerActor K := ⟨[], [], []⟩

/-- `Handler<RegisterStdio>`. -/
def LoggerActor.register (s : LoggerActor K) (stream : ChildStream K) : LoggerActor K :=
  { s with streams := s.streams ++ [some stream] }

/-- `StreamHandler<ChildOutput>::handle`. -/
def LoggerActor.handle (s : LoggerActor K) (i : Nat) (item : ChildOutput) : LoggerActor K :=
  { s with
    received := s.received ++ [(i, item)]
    log := s.log ++ [match item.ty with
      | .stdout => .info item.name item.data
      | .stderr => .warn item.name item.data] }

inductive LoggerEvent (K : CodecCrate) where
  | register (stream : ChildStream K)
  | poll (i : Nat)

/-- One poll of a stream: it is dropped at the first `None`, an error is skipped, an output is
    handled. -/
def LoggerActor.poll (s : LoggerActor K) (i : Nat) (stream : ChildStream K) : LoggerActor K :=
  match K.pollNext stream.framed with
  | (none, _) => { s with streams := s.streams.set i none }
  | (some item, framed) =>
    let s := { s with streams := s.streams.set i (some { stream with framed := framed }) }
    match output stream.name stream.ty item with
    | none => s
    | some item => s.handle i item

def LoggerActor.step (s : LoggerActor K) : LoggerEvent K → Option (LoggerActor K)
  | .register stream => some (s.register stream)
  | .poll i => match s.streams[i]? with
    | some (some stream) => some (s.poll i stream)
    | _ => none

/-- The streams of a child that `Handler<Run>` registers. -/
def registrations (K : CodecCrate) (name : String) (stdout stderr : List Bytes) :
    List (ChildStream K) :=
  [wrapStream K stdout name .stdout, wrapStream K stderr name .stderr]

/-- What was received of a stream, in order. -/
def LoggerActor.receivedOf (s : LoggerActor K) (i : Nat) : List ChildOutput :=
  (s.received.filter fun p => p.1 = i).map Prod.snd

/-! ## 5. What a stream delivers -/

/-- The outputs among some answers. -/
def outputs (name : String) (ty : IOType) (as : List (Option Item)) : List ChildOutput :=
  as.filterMap fun a => a.bind (output name ty)

/-- **What a stream has delivered**: it answered a first part of its answers and the outputs among
    them were received; either it was not at an end and will answer the rest, or it was, and is
    dropped. -/
inductive Tracked (s : LoggerActor K) (i : Nat) (name : String) (ty : IOType)
    (items : List Item) : Prop where
  | reading (stream : ChildStream K) (answered rest : List (Option Item))
      (hitems : answers items = answered ++ rest) (hnone : none ∉ answered)
      (hstream : s.streams[i]? = some (some stream)) (hname : stream.name = name)
      (hty : stream.ty = ty) (hrest : Answers K stream.framed rest)
      (hreceived : s.receivedOf i = outputs name ty answered)
  | dropped (answered rest : List (Option Item))
      (hitems : answers items = answered ++ none :: rest) (hnone : none ∉ answered)
      (hstream : s.streams[i]? = some none)
      (hreceived : s.receivedOf i = outputs name ty answered)

/-- What holds of a stream depends on its place and what was received of it. -/
theorem Tracked.congr {s s' : LoggerActor K} {i : Nat} {name : String} {ty : IOType}
    {items : List Item} (h : Tracked s i name ty items) (hplace : s'.streams[i]? = s.streams[i]?)
    (hreceived : s'.receivedOf i = s.receivedOf i) : Tracked s' i name ty items := by
  cases h with
  | reading stream answered rest hitems hnone hstream hname hty hrest hgot =>
      exact .reading stream answered rest hitems hnone (hplace.trans hstream) hname hty hrest
        (hreceived.trans hgot)
  | dropped answered rest hitems hnone hstream hgot =>
      exact .dropped answered rest hitems hnone (hplace.trans hstream) (hreceived.trans hgot)

/-- No stream answers without an end. -/
theorem none_mem_answers (items : List Item) : none ∈ answers items := by
  induction items with
  | nil => exact List.mem_singleton_self _
  | cons item items ih =>
      cases item with
      | ok text => exact List.mem_cons_of_mem _ ih
      | error e => exact List.mem_cons_of_mem _ (List.mem_singleton_self _)

theorem receivedOf_handle (s : LoggerActor K) (i j : Nat) (item : ChildOutput) :
    (s.handle i item).receivedOf j =
      if i = j then s.receivedOf j ++ [item] else s.receivedOf j := by
  unfold LoggerActor.receivedOf LoggerActor.handle
  rw [List.filter_append]
  by_cases hij : i = j
  · simp [hij]
  · simp [hij]

/-- A poll of one stream leaves the others alone. -/
theorem poll_other {s : LoggerActor K} {i j : Nat} (stream : ChildStream K) (hij : i ≠ j) :
    (s.poll i stream).streams[j]? = s.streams[j]? ∧
      (s.poll i stream).receivedOf j = s.receivedOf j := by
  unfold LoggerActor.poll
  split
  · exact ⟨List.getElem?_set_ne hij, rfl⟩
  · split
    · exact ⟨List.getElem?_set_ne hij, rfl⟩
    · refine ⟨List.getElem?_set_ne hij, ?_⟩
      rw [receivedOf_handle, if_neg hij]
      rfl

/-- A poll of the stream takes the next of its answers. -/
theorem Tracked.poll {s : LoggerActor K} {i : Nat} {name : String} {ty : IOType}
    {items : List Item} {stream : ChildStream K} (h : Tracked s i name ty items)
    (hstream : s.streams[i]? = some (some stream)) :
    Tracked (s.poll i stream) i name ty items := by
  cases h with
  | dropped answered rest hitems hnone hdropped hgot =>
      rw [hstream] at hdropped
      cases hdropped
  | reading stream' answered rest hitems hnone hstream' hname hty hrest hgot =>
      rw [hstream] at hstream'
      cases hstream'
      have hlt : i < s.streams.length := (List.getElem?_eq_some_iff.mp hstream).1
      cases rest with
      | nil =>
          rw [List.append_nil] at hitems
          exact absurd (hitems ▸ none_mem_answers items) hnone
      | cons a rest =>
          obtain ⟨ha, hrest⟩ := hrest
          unfold LoggerActor.poll
          cases hpoll : K.pollNext stream.framed with
          | mk answer framed =>
          rw [hpoll] at ha hrest
          cases answer with
          | none =>
              subst ha
              exact .dropped answered rest hitems hnone (List.getElem?_set_self hlt) hgot
          | some item =>
              subst ha
              have hsnoc : answers items = (answered ++ [some item]) ++ rest := by
                rw [hitems, List.append_assoc]
                rfl
              have hnone' : none ∉ answered ++ [some item] := by simpa using hnone
              have hout : outputs name ty (answered ++ [some item]) =
                  outputs name ty answered ++ (output name ty item).toList := by
                rw [outputs, List.filterMap_append]
                cases hoption : output name ty item <;> simp [outputs, hoption]
              simp only [hname, hty]
              cases hoption : output name ty item with
              | none =>
                  refine .reading _ _ rest hsnoc hnone' (List.getElem?_set_self hlt) rfl rfl
                    hrest ?_
                  rw [hout, hoption, Option.toList_none, List.append_nil]
                  exact hgot
              | some out =>
                  refine .reading _ _ rest hsnoc hnone' (List.getElem?_set_self hlt) rfl rfl
                    hrest ?_
                  rw [receivedOf_handle, if_pos rfl, hout, hoption]
                  exact congrArg (· ++ [out]) hgot

/-- **What one step does to a stream.** -/
theorem Tracked.step {s s' : LoggerActor K} {i : Nat} {name : String} {ty : IOType}
    {items : List Item} {e : LoggerEvent K} (h : Tracked s i name ty items)
    (hs : s.step e = some s') : Tracked s' i name ty items := by
  cases e with
  | register stream =>
      cases hs
      have hlt : i < s.streams.length := by
        cases h with
        | reading _ _ _ _ _ hstream => exact (List.getElem?_eq_some_iff.mp hstream).1
        | dropped _ _ _ _ hstream => exact (List.getElem?_eq_some_iff.mp hstream).1
      exact h.congr (List.getElem?_append_left hlt) rfl
  | poll j =>
      rw [LoggerActor.step] at hs
      split at hs
      · rename_i stream hstream
        cases hs
        by_cases hij : j = i
        · subst hij
          exact h.poll hstream
        · exact h.congr (poll_other stream hij).1 (poll_other stream hij).2
      · cases hs

/-- What was received is of streams that were added. -/
theorem received_lt {s s' : LoggerActor K} {e : LoggerEvent K}
    (h : ∀ p ∈ s.received, p.1 < s.streams.length) (hs : s.step e = some s') :
    ∀ p ∈ s'.received, p.1 < s'.streams.length := by
  cases e with
  | register stream =>
      cases hs
      intro p hp
      have hlt := h p hp
      simp only [LoggerActor.register, List.length_append]
      omega
  | poll j =>
      rw [LoggerActor.step] at hs
      split at hs
      · rename_i stream hstream
        cases hs
        have hj : j < s.streams.length := (List.getElem?_eq_some_iff.mp hstream).1
        unfold LoggerActor.poll
        split
        · simpa using h
        · split
          · simpa using h
          · intro p hp
            simp only [LoggerActor.handle, List.mem_append, List.mem_singleton,
              List.length_set] at hp ⊢
            rcases hp with hp | rfl
            · exact h p hp
            · exact hj
      · cases hs

/-- **Every stream is tracked from its registration on.** -/
theorem tracked (hK : K.Lawful) {h : List (LoggerActor K × LoggerEvent K)} {s s₁ : LoggerActor K}
    {name : String} {ty : IOType} {lines reads : List Bytes} (hr : Run LoggerActor.step .init h s)
    (hreg : (s₁, .register (wrapStream K reads name ty)) ∈ h) (hcut : Cut lines reads) :
    Tracked s s₁.streams.length name ty (lines.map (decodeLine 1024)) := by
  obtain ⟨h₁, h₂, rfl⟩ := List.append_of_mem hreg
  obtain ⟨s₀, hr₁, hr₂⟩ := hr.split
  obtain ⟨rfl, s₂, hstep, hr₂⟩ := hr₂.head
  have hlt : ∀ p ∈ s₁.received, p.1 < s₁.streams.length :=
    hr₁.invariant (P := fun s => ∀ p ∈ s.received, p.1 < s.streams.length) (fun p hp => by cases hp)
      fun s e s' h hs => received_lt h hs
  have hnew : Tracked s₂ s₁.streams.length name ty (lines.map (decodeLine 1024)) := by
    cases hstep
    refine .reading _ [] _ rfl List.not_mem_nil List.getElem?_concat_length rfl rfl
      (hK 1024 lines reads hcut) ?_
    show (s₁.received.filter fun p => decide (p.1 = s₁.streams.length)).map Prod.snd = []
    rw [List.map_eq_nil_iff, List.filter_eq_nil_iff]
    intro p hp
    have := hlt p hp
    simp only [decide_eq_true_eq]
    omega
  exact hr₂.invariant (P := fun s => Tracked s s₁.streams.length name ty _) hnew
    fun s e s' h hs => h.step hs

/-! ## 6. When no good line is lost -/

/-- The texts before the first that is missing. -/
def beforeNone {α : Type} (texts : List (Option α)) : List α :=
  (texts.takeWhile Option.isSome).filterMap id

/-- They are all the texts exactly if none follows a missing one. -/
theorem beforeNone_eq {α : Type} (texts : List (Option α)) :
    beforeNone texts = texts.filterMap id ↔
      ∀ front back, texts = front ++ none :: back → ∀ text ∈ back, text = none := by
  induction texts with
  | nil => exact ⟨fun _ front back h => by simp at h, fun _ => rfl⟩
  | cons text texts ih =>
      cases text with
      | none =>
          have hstop : beforeNone (none :: texts) = [] := rfl
          have hall : (none :: texts).filterMap id = texts.filterMap id := rfl
          rw [hstop, hall, eq_comm, List.filterMap_eq_nil_iff]
          constructor
          · intro hnone front back h text htext
            cases front with
            | nil => exact hnone text (by rw [(List.cons.inj h).2]; exact htext)
            | cons _ front =>
                exact hnone text (by rw [(List.cons.inj h).2]; simp [htext])
          · exact fun h text htext => h [] texts rfl text htext
      | some text =>
          have hgo : beforeNone (some text :: texts) = text :: beforeNone texts := rfl
          have hall : (some text :: texts).filterMap id = text :: texts.filterMap id := rfl
          rw [hgo, hall, List.cons_inj_right, ih]
          constructor
          · intro h front back heq
            cases front with
            | nil => cases heq
            | cons _ front => exact h front back (List.cons.inj heq).2
          · intro h front back heq
            exact h (some text :: front) back (by rw [heq]; rfl)

/-- A stream that is dropped has delivered the lines before its first error. -/
theorem outputs_dropped {name : String} {ty : IOType} {items : List Item}
    {answered rest : List (Option Item)} (hitems : answers items = answered ++ none :: rest)
    (hnone : none ∉ answered) :
    outputs name ty answered = (beforeNone (items.map Except.toOption)).map fun text =>
      { name := name, ty := ty, data := text } := by
  induction items generalizing answered with
  | nil =>
      cases answered with
      | nil => rfl
      | cons a answered => simp [answers] at hitems
  | cons item items ih =>
      cases item with
      | ok text =>
          cases answered with
          | nil => simp [answers] at hitems
          | cons a answered =>
              obtain ⟨rfl, hrest⟩ := List.cons.inj hitems
              have hgo := ih hrest fun h => hnone (List.mem_cons_of_mem _ h)
              show _ :: outputs name ty answered = _
              rw [hgo]
              rfl
      | error e =>
          cases answered with
          | nil => simp [answers] at hitems
          | cons a answered =>
              obtain ⟨rfl, hrest⟩ := List.cons.inj hitems
              cases answered with
              | nil => rfl
              | cons b answered =>
                  obtain ⟨rfl, -⟩ := List.cons.inj hrest
                  simp at hnone

/-- What a poll of a stream does to its place. -/
theorem poll_stream {s : LoggerActor K} {i : Nat} (stream : ChildStream K) :
    (s.poll i stream).streams = s.streams.set i (match (K.pollNext stream.framed).1 with
      | none => none
      | some _ => some { stream with framed := (K.pollNext stream.framed).2 }) := by
  unfold LoggerActor.poll
  cases K.pollNext stream.framed with
  | mk answer framed =>
      cases answer with
      | none => rfl
      | some item =>
          simp only
          split <;> rfl

/-- A stream that has an end is dropped after as many polls. -/
theorem drained {s : LoggerActor K} {i : Nat} {stream : ChildStream K}
    {rest : List (Option Item)} (hend : none ∈ rest)
    (hstream : s.streams[i]? = some (some stream)) (hrest : Answers K stream.framed rest) :
    ∃ k, k ≤ (rest.takeWhile Option.isSome).length + 1 ∧ ∃ s',
      exec LoggerActor.step s (List.replicate k (.poll i)) = some s' ∧
        s'.streams[i]? = some none := by
  induction rest generalizing s stream with
  | nil => cases hend
  | cons a rest ih =>
      obtain ⟨ha, hrest⟩ := hrest
      have hlt : i < s.streams.length := (List.getElem?_eq_some_iff.mp hstream).1
      have hstep : s.step (.poll i) = some (s.poll i stream) := by
        rw [LoggerActor.step, hstream]
      have hplace := poll_stream (s := s) (i := i) stream
      rw [ha] at hplace
      cases a with
      | none =>
          refine ⟨1, by omega, s.poll i stream, ?_, ?_⟩
          · show (s.step (.poll i)).bind some = _
            rw [hstep]
            rfl
          · rw [hplace]
            exact List.getElem?_set_self hlt
      | some item =>
          have hnext : (s.poll i stream).streams[i]? =
              some (some { stream with framed := (K.pollNext stream.framed).2 }) := by
            rw [hplace]
            exact List.getElem?_set_self hlt
          have hend' : none ∈ rest := by simpa using hend
          obtain ⟨k, hk, s', hexec, hdropped⟩ := ih hend' hnext hrest
          refine ⟨k + 1, ?_, s', ?_, hdropped⟩
          · rw [List.takeWhile_cons_of_pos rfl, List.length_cons]
            omega
          · show (s.step (.poll i)).bind _ = _
            rw [hstep]
            exact hexec

/-- At most one answer for each item comes before the end. -/
theorem takeWhile_answers (items : List Item) :
    ((answers items).takeWhile Option.isSome).length ≤ items.length := by
  induction items with
  | nil => exact Nat.zero_le _
  | cons item items ih =>
      cases item with
      | ok text => exact Nat.succ_le_succ ih
      | error e => exact Nat.succ_le_succ (Nat.zero_le _)

/-- **A tracked stream comes to its end** after at most one poll for each item and one more. -/
theorem Tracked.drains {s : LoggerActor K} {i : Nat} {name : String} {ty : IOType}
    {items : List Item} (h : Tracked s i name ty items) :
    ∃ k, k ≤ items.length + 1 ∧ ∃ s',
      exec LoggerActor.step s (List.replicate k (.poll i)) = some s' ∧
        s'.streams[i]? = some none := by
  cases h with
  | dropped _ _ _ _ hdropped _ => exact ⟨0, Nat.zero_le _, s, rfl, hdropped⟩
  | reading stream answered rest hitems hnone hstream _ _ hrest _ =>
      have hend : none ∈ rest := by
        have hmem := none_mem_answers items
        rw [hitems, List.mem_append] at hmem
        exact hmem.resolve_left hnone
      obtain ⟨k, hk, s', hexec, hdropped⟩ := drained hend hstream hrest
      refine ⟨k, ?_, s', hexec, hdropped⟩
      have hcount := takeWhile_answers items
      have hsome : ∀ a ∈ answered, a.isSome = true := by
        intro a ha
        cases a with
        | none => exact absurd ha hnone
        | some _ => rfl
      rw [hitems, List.takeWhile_append_of_pos hsome, List.length_append] at hcount
      omega

/-- The outputs of a stream of lines: one for each line that is valid UTF-8 and at most 1024 bytes
    long. -/
def delivered (name : String) (ty : IOType) (lines : List Bytes) : List ChildOutput :=
  (lines.filterMap (lineText 1024)).map fun text => { name := name, ty := ty, data := text }

/-- The texts before the first bad line are all the good ones, if none stands behind a bad one. -/
theorem beforeNone_lines (lines : List Bytes) :
    beforeNone (lines.map (lineText 1024)) = lines.filterMap (lineText 1024) ↔
      ∀ front bad back, lines = front ++ bad :: back → lineText 1024 bad = none →
        ∀ line ∈ back, lineText 1024 line = none := by
  have hall : (lines.map (lineText 1024)).filterMap id = lines.filterMap (lineText 1024) := by
    rw [List.filterMap_map]
    rfl
  rw [← hall, beforeNone_eq]
  constructor
  · intro h front bad back hlines hbad line hline
    refine h (front.map (lineText 1024)) (back.map (lineText 1024)) ?_ _
      (List.mem_map_of_mem hline)
    rw [hlines, List.map_append, List.map_cons, hbad]
  · intro h front back hlines text htext
    obtain ⟨front', rest', rfl, rfl, hrest'⟩ := List.map_eq_append_iff.mp hlines
    obtain ⟨bad, back', rfl, hbad, rfl⟩ := List.map_eq_cons_iff.mp hrest'
    obtain ⟨line, hline, rfl⟩ := List.mem_map.mp htext
    exact h front' bad back' rfl hbad line hline

/-- **What a tracked stream of lines has delivered at its end**: what stands before the first bad
    line. -/
theorem Tracked.receives {s : LoggerActor K} {i : Nat} {name : String} {ty : IOType}
    {lines : List Bytes} (h : Tracked s i name ty (lines.map (decodeLine 1024)))
    (hend : s.streams[i]? = some none) :
    s.receivedOf i = (beforeNone (lines.map (lineText 1024))).map fun text =>
      { name := name, ty := ty, data := text } := by
  cases h with
  | reading _ _ _ _ _ hstream =>
      rw [hend] at hstream
      cases hstream
  | dropped answered rest hitems hnone _ hgot =>
      have htexts : (lines.map (decodeLine 1024)).map Except.toOption =
          lines.map (lineText 1024) := by
        rw [List.map_map]
        exact List.map_congr_left fun line _ => toOption_decodeLine 1024 line
      rw [hgot, outputs_dropped hitems hnone, htexts]

/-- **When no good line is lost.** A registered stream of newline-terminated lines, cut into reads
    anywhere and polled among other streams in any order, comes to its end after at most one poll
    for each line and one more. Then its good lines were received, each once and in order, exactly
    if no good line stands behind a bad one. -/
theorem logger_delivers (hK : K.Lawful) {h : List (LoggerActor K × LoggerEvent K)}
    {s s₁ : LoggerActor K} {name : String} {ty : IOType} {lines reads : List Bytes}
    (hr : Run LoggerActor.step .init h s)
    (hreg : (s₁, .register (wrapStream K reads name ty)) ∈ h) (hcut : Cut lines reads) :
    (∃ k, k ≤ lines.length + 1 ∧ ∃ s',
      exec LoggerActor.step s (List.replicate k (.poll s₁.streams.length)) = some s' ∧
        s'.streams[s₁.streams.length]? = some none) ∧
    (s.streams[s₁.streams.length]? = some none →
      (s.receivedOf s₁.streams.length = delivered name ty lines ↔
        ∀ front bad back, lines = front ++ bad :: back → lineText 1024 bad = none →
          ∀ line ∈ back, lineText 1024 line = none)) := by
  have htracked := tracked hK hr hreg hcut
  constructor
  · have hdrains := htracked.drains
    rw [List.length_map] at hdrains
    exact hdrains
  · intro hend
    have hinj : ∀ x y : String, (⟨name, ty, x⟩ : ChildOutput) = ⟨name, ty, y⟩ → x = y :=
      fun x y h => (ChildOutput.mk.inj h).2.2
    rw [htracked.receives hend, delivered, List.map_inj_right hinj, beforeNone_lines]

/-- The reads of a child that writes a line that is not UTF-8, and then `a`. -/
def badReads : List Bytes := [[0xFF], [10, 97], [10]]

theorem badReads_cut : Cut [[0xFF], [97]] badReads := ⟨rfl, by decide, by decide⟩

/-- Its streams are registered, and its standard output is polled twice. -/
def badEvents : List (LoggerEvent .buffered) :=
  (registrations .buffered "p" badReads []).map .register ++ [.poll 0, .poll 0]

/-- The logger after these events. -/
def badLogger : LoggerActor .buffered :=
  (exec LoggerActor.step .init badEvents).getD .init

theorem badLogger_run :
    Run LoggerActor.step .init (history LoggerActor.step .init badEvents) badLogger :=
  run_history rfl

theorem badLogger_registered :
    (.init, .register (wrapStream .buffered badReads "p" .stdout)) ∈
      history LoggerActor.step .init badEvents :=
  List.mem_cons_self ..

theorem logger_delivers_bad :
    (∃ k, k ≤ 2 + 1 ∧ ∃ s', exec LoggerActor.step badLogger (List.replicate k (.poll 0)) = some s' ∧
      s'.streams[0]? = some none) ∧
    (badLogger.streams[0]? = some none →
      (badLogger.receivedOf 0 = delivered "p" .stdout [[0xFF], [97]] ↔
        ∀ front bad back, [[0xFF], [97]] = front ++ bad :: back → lineText 1024 bad = none →
          ∀ line ∈ back, lineText 1024 line = none)) :=
  logger_delivers CodecCrate.buffered_lawful badLogger_run badLogger_registered badReads_cut

/-- The stream is dropped behind the bad line, and the line `a` is not received. -/
theorem logger_loses_line :
    Cut [[0xFF], [97]] badReads ∧
      Run LoggerActor.step .init (history LoggerActor.step .init badEvents) badLogger ∧
      (.init, .register (wrapStream .buffered badReads "p" .stdout)) ∈
        history LoggerActor.step .init badEvents ∧
      badLogger.streams[0]? = some none ∧ badLogger.receivedOf 0 = [] ∧
      delivered "p" .stdout [[0xFF], [97]] = [{ name := "p", ty := .stdout, data := "a" }] :=
  ⟨badReads_cut, badLogger_run, badLogger_registered, rfl, rfl, rfl⟩

end Blahaj
