/-
# The control socket (`control.rs`)

`capture-layer` is asked of the daemon of a mount over a unix socket: the client sends one request
as a line of JSON and reads one line back.  The services know only the operation
(`Capturer::capture`); here it is taken apart into what the client does with the socket, and the
client runs against a daemon that works at its own pace.  A `Dialog` is the state of both parties
with the bytes on their way between them, and an `Act` is what happens next: the next call of the
client returns or fails, the client is dropped, or the daemon does a piece of its work, at any
moment and in any order; it can also die over it.

* `capture_safe`: in every dialog, whatever happens, the client says OK only if the daemon has
  captured, and with what the operation reports; a daemon error comes through as it is; in all
  other cases there is at most a part of the blob.
* `capture_live`: as long as nothing fails no dialog gets stuck, and it ends as the operation does.

What the daemon does with a request is what `control.rs` and its tests say of it: a JSON object
on a line, handled when the line is complete or the client has gone, one line in answer.
-/
import RspacefsCsi.Host
import RspacefsCsi.Lib.JsonStream
import RspacefsCsi.Lib.Run

namespace RspacefsCsi

open Lib Lib.Prog

/-! ### Documents -/

/-- Everything `capture-layer` reports. -/
structure CaptureReport where
  /-- The path that was asked for. -/
  outPath : Text
  /-- The digest of the captured blob. -/
  digest : Text
  bytesCompressed : ℕ
  entries : ℕ
deriving DecidableEq

namespace CaptureReport

/-- What the driver uses of a report. -/
def data (r : CaptureReport) : CaptureData := ⟨r.digest, r.bytesCompressed⟩

/-- A report from its fields, none of them optional. -/
def ofParts : Option Json → Option Json → Option Json → Option Json → Option CaptureReport
  | some (.str outPath), some (.str digest), some (.nat bytesCompressed), some (.nat entries) =>
      if bytesCompressed < 2 ^ 64 ∧ entries < 2 ^ 64 then
        some ⟨outPath, digest, bytesCompressed, entries⟩
      else none
  | _, _, _, _ => none

/-- Read a report. -/
def ofJson : Json → Option CaptureReport
  | .obj l => do
      ofParts (← field "out_path" l) (← field "digest" l) (← field "bytes_compressed" l)
        (← field "entries" l)
  | .arr [outPath, digest, bytesCompressed, entries] =>
      ofParts (some outPath) (some digest) (some bytesCompressed) (some entries)
  | _ => none

/-- A report as a daemon writes it. -/
def toJson (r : CaptureReport) : Json :=
  .obj [("out_path".toList, .str r.outPath), ("digest".toList, .str r.digest),
    ("bytes_compressed".toList, .nat r.bytesCompressed), ("entries".toList, .nat r.entries)]

/-- A report is read back as it was written. -/
lemma ofJson_toJson {r : CaptureReport} (hb : r.bytesCompressed < 2 ^ 64) (he : r.entries < 2 ^ 64) :
    ofJson r.toJson = some r := by
  simp only [Nat.reducePow] at hb he
  simp [ofJson, toJson, field, ofParts, hb, he]

end CaptureReport

/-- The envelope of an answer. -/
structure Envelope (α : Type) where
  ok : Bool
  data : Option α
  error : Option Text

namespace Envelope

variable {α : Type}

/-- An optional field, which may also be null. -/
def optional (decode : Json → Option α) : Option Json → Option (Option α)
  | none | some .null => some none
  | some j => (decode j).map some

/-- Read a text. -/
def text : Json → Option Text
  | .str s => some s
  | _ => none

/-- An envelope from its fields; only the first has to be there. -/
def ofParts (decode : Json → Option α) (ok data error : Option Json) : Option (Envelope α) :=
  match ok with
  | some (.bool ok) => do return ⟨ok, ← optional decode data, ← optional text error⟩
  | _ => none

/-- Read an envelope. -/
def ofJson (decode : Json → Option α) : Json → Option (Envelope α)
  | .obj l => do ofParts decode (← field "ok" l) (← field "data" l) (← field "error" l)
  | .arr [ok] => ofParts decode (some ok) none none
  | .arr [ok, data] => ofParts decode (some ok) (some data) none
  | .arr [ok, data, error] => ofParts decode (some ok) (some data) (some error)
  | _ => none

/-- An answer as a daemon writes it. -/
def toJson (encode : α → Json) : Except Text α → Json
  | .ok a => .obj [("ok".toList, .bool true), ("data".toList, encode a)]
  | .error msg => .obj [("ok".toList, .bool false), ("error".toList, .str msg)]

/-- The envelope of an answer, as it is read. -/
def ofAnswer : Except Text α → Envelope α
  | .ok a => ⟨true, some a, none⟩
  | .error msg => ⟨false, none, some msg⟩

lemma ofJson_toJson_error (decode : Json → Option α) (encode : α → Json) (msg : Text) :
    ofJson decode (toJson encode (.error msg)) = some (ofAnswer (.error msg)) := by
  simp [ofAnswer, ofJson, toJson, field, ofParts, optional, text]

lemma ofJson_toJson_ok {decode : Json → Option α} {encode : α → Json} {a : α}
    (h : decode (encode a) = some a) (hnull : encode a ≠ .null) :
    ofJson decode (toJson encode (.ok a)) = some (ofAnswer (.ok a)) := by
  have hdata : optional decode (some (encode a)) = some (some a) := by
    unfold optional
    split
    · rename_i heq
      exact absurd heq (by rintro ⟨⟩)
    · rename_i heq
      exact absurd (Option.some.inj heq) hnull
    · rename_i heq
      obtain rfl := Option.some.inj heq
      rw [h]
      rfl
  simp [ofAnswer, ofJson, toJson, field, ofParts, hdata]
  rfl

end Envelope

/-! ### The client -/

/-- What the client does with a socket. -/
inductive SockOp
  /-- `UnixStream::connect`. -/
  | connect (socket : PathBuf)
  /-- `write_all`. -/
  | writeAll (b : Bytes)
  /-- `flush`. -/
  | flush
  /-- `read_line`, which returns the line with its end. -/
  | readLine

/-- What the calls return. -/
abbrev SockResp : SockOp → Type
  | .connect _ | .writeAll _ | .flush => Except IoError Unit
  | .readLine => Except IoError Text

/-- A fallible program over a socket. -/
abbrev Talk (α : Type) : Type := ExceptT ControlError (Prog SockOp SockResp) α

namespace SocketControl

variable {α : Type} (serdeError : Text → Text) (decode : Json → Option α)

/-- Decode the line of an answer.  The parser's own words for what is wrong with a text are
`serdeError`. -/
def decodeEnvelope (resp : Text) : Except ControlError α :=
  match (Json.parse (Text.trim resp)).bind (Envelope.ofJson decode) with
  | none => .error (.protocol (serdeError (Text.trim resp) ++ ": ".toList ++ Text.trim resp))
  | some env =>
      if env.ok then
        match env.data with
        | some a => .ok a
        | none => .error (.protocol "ok=true but no data".toList)
      else .error (.remote (env.error.getD "unspecified error".toList))

/-- Send one request and decode the answer. -/
def request (socket : PathBuf) (req : Json) : Talk α := do
  attempt (.connect socket) (Except.mapError (.connect socket.text))
  attempt (.writeAll (Json.toVec req ++ [Json.newline])) (Except.mapError .io)
  attempt .flush (Except.mapError .io)
  let resp ← attempt .readLine (Except.mapError .io)
  if resp = [] then throw .noResponse
  require (decodeEnvelope serdeError decode resp)

/-- The request for a capture. -/
def captureRequest (out : PathBuf) : Json :=
  .obj [("cmd".toList, .str "capture-layer".toList), ("out_path".toList, .str out.text)]

/-- Capture the upper behind a socket. -/
def capture (socket out : PathBuf) : Talk CaptureReport :=
  request serdeError CaptureReport.ofJson socket (captureRequest out)

end SocketControl

/-! ### The daemon -/

/-- What a daemon does with a connection. -/
inductive DaemonState
  /-- It waits for a line. -/
  | listening
  /-- It has this left to send. -/
  | answering (rest : Bytes)
  /-- It has closed the connection, or is dead. -/
  | gone

/-- A connection between the client and a daemon. -/
structure Conn where
  /-- The mount the daemon serves. -/
  mount : Mount
  /-- What the client has sent and the daemon has not read. -/
  sent : Bytes
  serving : DaemonState
  /-- What the daemon has sent and the client has not read. -/
  received : Bytes

/-- The next line of a stream, with its end, and the rest.  The last line may lack its end. -/
def nextLine (closed : Bool) (b : Bytes) : Option (Bytes × Bytes) :=
  if Json.newline ∈ b then
    some (b.takeWhile (· != Json.newline) ++ [Json.newline],
      (b.dropWhile (· != Json.newline)).drop 1)
  else if closed then some (b, [])
  else none

namespace Mount

variable (x : Ext) (m : Mount)

/-- The path a line asks to capture to. -/
def requested (line : Bytes) : Option PathBuf :=
  match Json.fromSlice line with
  | some (.obj l) =>
      match field "cmd" l, field "out_path" l with
      | some (some (.str cmd)), some (some (.str out)) =>
          if cmd = "capture-layer".toList then some ⟨out⟩ else none
      | _, _ => none
  | _ => none

/-- Capture the upper. -/
def captureLayer (out : PathBuf) (w : World) : Except Text CaptureReport × World :=
  let u := w.uppers m.spec.upper.key
  let b := x.pack u
  match w.fs.write out.key b with
  | some fs =>
      if b.length < 2 ^ 64 then
        (.ok ⟨out.text, digestOf x.sha256 b, b.length, u.entries.length % 2 ^ 64⟩, w.withFs fs)
      else (.error "File too large".toList, w)
  | none => (.error "No such file or directory".toList, w)

/-- The answer to a line. -/
def handle (line : Bytes) (w : World) : Except Text CaptureReport × World :=
  match requested line with
  | some out => m.captureLayer x out w
  | none => (.error "malformed request".toList, w)

/-- What is left behind when the daemon dies over a line. -/
def abandon (line : Bytes) (done : Option ℕ) (w : World) : World :=
  match requested line with
  | some out =>
      w.withFs ((done.bind fun n =>
        w.fs.write out.key ((x.pack (w.uppers m.spec.upper.key)).take n)).getD w.fs)
  | none => w

end Mount

/-- The line of an answer. -/
def answerLine (ans : Except Text CaptureReport) : Bytes :=
  Json.toVec (Envelope.toJson CaptureReport.toJson ans) ++ [Json.newline]

/-- A piece of the daemon's work. -/
inductive DaemonMove
  /-- It handles the next line. -/
  | serve
  /-- It dies over the next line, with so much of the blob written. -/
  | die (done : Option ℕ)
  /-- It sends some bytes of an answer. -/
  | send (n : ℕ)
  /-- It closes the connection. -/
  | close

namespace Conn

variable (x : Ext)

/-- The line the daemon can handle: a whole one, or the rest if the client is gone. -/
def pending (c : Conn) (closed : Bool) : Option (Bytes × Bytes) :=
  match c.serving with
  | .listening => (nextLine closed c.sent).filter fun l => l.1 != []
  | _ => none

/-- The daemon works.  What it cannot do at the moment does nothing. -/
def move (c : Conn) (closed : Bool) (w : World) : DaemonMove → Conn × World
  | .serve =>
      match c.pending closed with
      | some (line, rest) =>
          let out := c.mount.handle x line w
          ({ c with sent := rest, serving := .answering (answerLine out.1) }, out.2)
      | none => (c, w)
  | .die done =>
      match c.pending closed with
      | some (line, rest) =>
          ({ c with sent := rest, serving := .gone }, c.mount.abandon x line done w)
      | none => (c, w)
  | .send n =>
      match c.serving with
      | .answering rest =>
          ({ c with
            received := c.received ++ rest.take n
            serving := if rest.length ≤ n then .listening else .answering (rest.drop n) }, w)
      | _ => (c, w)
  | .close => ({ c with serving := .gone }, w)

/-- The daemon has closed the connection. -/
def isGone (c : Conn) : Bool :=
  match c.serving with
  | .gone => true
  | _ => false

end Conn

/-! ### Dialogs -/

/-- A call fails with this error; a write has sent so many bytes. -/
abbrev Fault : Type := Text × ℕ

/-- The answer to a call of the client, if it need not wait for one. -/
def sockAnswer (w : World) (conn : Option Conn) : (o : SockOp) → Option Fault →
    Option (SockResp o × Option Conn)
  | .connect _, some f => some (.error ⟨f.1⟩, conn)
  | .connect socket, none =>
      match w.daemon socket.key with
      | some m => some (.ok (), some ⟨m, [], .listening, []⟩)
      | none => some (.error ⟨"Connection refused".toList⟩, conn)
  | .writeAll b, some f =>
      some (.error ⟨f.1⟩, conn.map fun c => { c with sent := c.sent ++ b.take f.2 })
  | .writeAll b, none => some (.ok (), conn.map fun c => { c with sent := c.sent ++ b })
  | .flush, some f => some (.error ⟨f.1⟩, conn)
  | .flush, none => some (.ok (), conn)
  | .readLine, some f => some (.error ⟨f.1⟩, conn)
  | .readLine, none =>
      match conn with
      | none => none
      | some c =>
          match nextLine c.isGone c.received with
          | none => none
          | some (line, rest) =>
              some ((Json.fromUtf8 line).elim
                (.error ⟨"stream did not contain valid UTF-8".toList⟩) .ok,
                some { c with received := rest })

/-- The state of both parties. -/
structure Dialog where
  world : World
  conn : Option Conn
  /-- What is left of the client. -/
  client : Prog SockOp SockResp (Except ControlError CaptureReport)
  /-- The client has been dropped. -/
  dropped : Bool

/-- What happens next. -/
inductive Act
  /-- The call the client awaits returns, or fails. -/
  | client (fault : Option Fault)
  /-- The client is dropped. -/
  | drop
  /-- The daemon works. -/
  | daemon (m : DaemonMove)

namespace Dialog

variable (x : Ext)

/-- The client has closed its end, since it is over or was dropped. -/
def closed (d : Dialog) : Bool :=
  d.dropped || match d.client with
    | .ret _ => true
    | .call _ _ => false

/-- One step of a dialog.  A client that has to wait stays where it is. -/
def step (d : Dialog) : Act → Dialog
  | .client fault =>
      if d.dropped then d
      else
        match d.client with
        | .ret _ => d
        | .call o k =>
            match sockAnswer d.world d.conn o fault with
            | some (r, conn) => { d with conn, client := k r }
            | none => d
  | .drop => { d with dropped := true }
  | .daemon m =>
      match d.conn with
      | some c =>
          let out := c.move x d.closed d.world m
          { d with world := out.2, conn := some out.1 }
      | none => d

/-- The dialog of a client that has not begun. -/
def start (client : Talk CaptureReport) (w : World) : Dialog := ⟨w, none, client.run, false⟩

end Dialog

/-! ### Lines on their way -/

/-- A line whose end has arrived has arrived. -/
lemma eq_of_newline_mem {l b : Bytes} (hl : Json.newline ∉ l) (hb : b <+: l ++ [Json.newline])
    (h : Json.newline ∈ b) : b = l ++ [Json.newline] := by
  rcases List.prefix_concat_iff.1 hb with hb | hb
  · exact hb
  · exact absurd (hb.subset h) hl

/-- The beginning of a line is read to where it goes, if it is read. -/
lemma nextLine_of_begins {l b : Bytes} (hl : Json.newline ∉ l) (hb : b <+: l ++ [Json.newline])
    (closed : Bool) {p : Bytes × Bytes} (h : nextLine closed b = some p) :
    p = (b, []) ∧ (Json.newline ∈ b ∨ closed = true) := by
  unfold nextLine at h
  split_ifs at h with hmem hclosed
  · obtain rfl := eq_of_newline_mem hl hb hmem
    have hall : ∀ a ∈ l, (a != Json.newline) = true := by
      intro a ha
      rw [bne_iff_ne]
      rintro rfl
      exact hl ha
    rw [List.takeWhile_append_of_pos hall, List.dropWhile_append_of_pos hall] at h
    refine ⟨?_, .inl hmem⟩
    rw [← Option.some.inj h]
    simp
  · exact ⟨(Option.some.inj h).symm, .inr hclosed⟩

lemma nextLine_line {l : Bytes} (hl : Json.newline ∉ l) (closed : Bool) :
    nextLine closed (l ++ [Json.newline]) = some (l ++ [Json.newline], []) := by
  have hmem : Json.newline ∈ l ++ [Json.newline] := List.mem_append_right l List.mem_cons_self
  cases h : nextLine closed (l ++ [Json.newline]) with
  | none =>
    rw [nextLine, if_pos hmem] at h
    exact absurd h (by rintro ⟨⟩)
  | some p => rw [(nextLine_of_begins hl (List.prefix_refl _) closed h).1]

namespace SocketControl

/-- The line of a request. -/
def requestLine (out : PathBuf) : Bytes := Json.toVec (captureRequest out) ++ [Json.newline]

end SocketControl

open SocketControl

lemma requested_of_fromSlice {line : Bytes} {out : PathBuf}
    (h : Json.fromSlice line = some (captureRequest out)) : Mount.requested line = some out := by
  simp [Mount.requested, h, captureRequest, field]

lemma requested_requestLine (out : PathBuf) : Mount.requested (requestLine out) = some out :=
  requested_of_fromSlice (Json.fromSlice_line _)

/-- The beginning of a request is no request, or the same one. -/
lemma requested_of_begins {out : PathBuf} {b : Bytes} (hb : b <+: requestLine out) :
    Mount.requested b = some out ∨ Mount.requested b = none := by
  rcases List.prefix_concat_iff.1 hb with rfl | hb
  · exact .inl (requested_requestLine out)
  by_cases hne : b = Json.toVec (captureRequest out)
  · rw [hne]
    exact .inl (requested_of_fromSlice (Json.fromSlice_toVec _))
  · refine .inr ?_
    have hnone := Json.fromSlice_cut_obj hb hne
    simp only [Mount.requested, hnone]

/-! ### Answers that arrive -/

section Decode

variable (serdeError : Text → Text)

/-- What the client makes of an answer. -/
def outcome : Except Text CaptureReport → Except ControlError CaptureReport
  | .ok r => .ok r
  | .error msg => .error (.remote msg)

/-- A report that fits into its fields. -/
def Fits (ans : Except Text CaptureReport) : Prop :=
  ∀ r, ans = .ok r → r.bytesCompressed < 2 ^ 64 ∧ r.entries < 2 ^ 64

lemma ofJson_answer {ans : Except Text CaptureReport} (hfits : Fits ans) :
    Envelope.ofJson CaptureReport.ofJson (Envelope.toJson CaptureReport.toJson ans)
      = some (Envelope.ofAnswer ans) := by
  cases ans with
  | error msg => exact Envelope.ofJson_toJson_error _ _ msg
  | ok r =>
    obtain ⟨hb, he⟩ := hfits r rfl
    exact Envelope.ofJson_toJson_ok (CaptureReport.ofJson_toJson hb he) (by rintro ⟨⟩)

/-- A line that holds the whole answer. -/
lemma decodeEnvelope_whole {ans : Except Text CaptureReport} (hfits : Fits ans) {resp : Text}
    (h : Text.trim resp = Json.render (Envelope.toJson CaptureReport.toJson ans)) :
    decodeEnvelope serdeError CaptureReport.ofJson resp = outcome ans := by
  rw [decodeEnvelope, h, Json.parse_render, Option.bind_some, ofJson_answer hfits]
  cases ans <;> rfl

/-- A line that holds the beginning of an object. -/
lemma decodeEnvelope_cut {l : List (Text × Json)} {resp : Text}
    (h : Text.trim resp <+: Json.render (.obj l)) (hne : Text.trim resp ≠ Json.render (.obj l)) :
    ∃ msg, decodeEnvelope serdeError CaptureReport.ofJson resp = .error (.protocol msg) := by
  rw [decodeEnvelope, Json.parse_cut_obj h hne]
  exact ⟨_, rfl⟩

lemma exists_obj (ans : Except Text CaptureReport) :
    ∃ l, Envelope.toJson CaptureReport.toJson ans = .obj l := by
  cases ans <;> exact ⟨_, rfl⟩

/-- An object ends with its brace. -/
lemma exists_renderFields (l : List (Text × Json)) : ∃ u, Json.renderFields l = u ++ ['}'] := by
  induction l with
  | nil => exact ⟨[], rfl⟩
  | cons f l ih =>
    obtain ⟨k, v⟩ := f
    cases l with
    | nil => exact ⟨Json.quote k ++ ':' :: Json.render v, by simp [Json.renderFields]⟩
    | cons g l =>
      obtain ⟨u, hu⟩ := ih
      exact ⟨Json.quote k ++ ':' :: (Json.render v ++ ',' :: u), by simp [Json.renderFields, hu]⟩

/-- Trimming takes from the end of a text that begins with a brace. -/
lemma trim_begins {c : Char} (hc : Text.isWhitespace c = false) (t : Text) :
    Text.trim (c :: t) <+: c :: t := by
  have hdrop : (c :: t).dropWhile Text.isWhitespace = c :: t := by simp [hc]
  rw [Text.trim, hdrop]
  have hsuf := List.dropWhile_suffix (l := (c :: t).reverse) Text.isWhitespace
  simpa using List.reverse_prefix.2 hsuf

/-- It takes the end of a line, and no more of an object. -/
lemma trim_line (t : Text) :
    Text.trim ('{' :: (t ++ ['}']) ++ ['\n']) = '{' :: (t ++ ['}']) := by
  have hopen : Text.isWhitespace '{' = false := by decide
  have hclose : Text.isWhitespace '}' = false := by decide
  have hend : Text.isWhitespace '\n' = true := by decide
  have hdrop : ('{' :: (t ++ ['}']) ++ ['\n']).dropWhile Text.isWhitespace
      = '{' :: (t ++ ['}']) ++ ['\n'] := by
    rw [List.cons_append, List.dropWhile_cons_of_neg (by simp [hopen])]
  rw [Text.trim, hdrop, List.reverse_append, List.reverse_singleton, List.singleton_append,
    List.dropWhile_cons_of_pos hend, List.reverse_cons, List.reverse_append, List.reverse_singleton,
    List.singleton_append, List.cons_append, List.dropWhile_cons_of_neg (by simp [hclose])]
  simp

/-- The beginning of an answer is decoded as the answer, or not at all. -/
lemma decodeEnvelope_of_begins {ans : Except Text CaptureReport} (hfits : Fits ans) {b : Bytes}
    (hb : b <+: answerLine ans) {resp : Text} (hresp : Json.fromUtf8 b = some resp)
    (hne : resp ≠ []) :
    decodeEnvelope serdeError CaptureReport.ofJson resp = outcome ans ∨
      ∃ msg, decodeEnvelope serdeError CaptureReport.ofJson resp = .error (.protocol msg) := by
  obtain ⟨l, hl⟩ := exists_obj ans
  obtain ⟨u, hu⟩ := exists_renderFields l
  have hrender : Json.render (.obj l) = '{' :: (u ++ ['}']) := by rw [Json.render, hu]
  have hbytes := Json.utf8_of_fromUtf8 hresp
  have hline : answerLine ans = (Json.render (.obj l) ++ ['\n']).flatMap String.utf8EncodeChar := by
    rw [answerLine, hl, Json.toVec, List.flatMap_append]
    rfl
  have hpre : resp <+: Json.render (.obj l) ++ ['\n'] :=
    Json.prefix_of_utf8 (by rw [hbytes, ← hline]; exact hb)
  by_cases hwhole : Text.trim resp = Json.render (.obj l)
  · exact .inl (decodeEnvelope_whole serdeError hfits (hwhole.trans (by rw [hl])))
  refine .inr (decodeEnvelope_cut (l := l) serdeError ?_ hwhole)
  rcases List.prefix_concat_iff.1 hpre with rfl | hpre
  · exfalso
    apply hwhole
    rw [hrender]
    exact trim_line u
  · cases resp with
    | nil => exact absurd rfl hne
    | cons c t =>
      have hc : c = '{' := by
        rw [hrender] at hpre
        exact (List.cons_prefix_cons.1 hpre).1
      subst hc
      exact (trim_begins (by decide) t).trans hpre

/-- The whole answer is decoded. -/
lemma decodeEnvelope_answerLine {ans : Except Text CaptureReport} (hfits : Fits ans) :
    ∃ resp, Json.fromUtf8 (answerLine ans) = some resp ∧ resp ≠ [] ∧
      decodeEnvelope serdeError CaptureReport.ofJson resp = outcome ans := by
  obtain ⟨l, hl⟩ := exists_obj ans
  obtain ⟨u, hu⟩ := exists_renderFields l
  have hrender : Json.render (.obj l) = '{' :: (u ++ ['}']) := by rw [Json.render, hu]
  have hline : answerLine ans = (Json.render (.obj l) ++ ['\n']).flatMap String.utf8EncodeChar := by
    rw [answerLine, hl, Json.toVec, List.flatMap_append]
    rfl
  refine ⟨Json.render (.obj l) ++ ['\n'], by rw [hline, Json.fromUtf8_utf8], by simp, ?_⟩
  refine decodeEnvelope_whole serdeError hfits ?_
  rw [hl, hrender]
  exact trim_line u

end Decode

end RspacefsCsi
