/-
# Dialogs over the control socket

The results about the two parties of `Control`: what the client and the daemon leave behind in
every dialog, however their steps are mixed and whatever goes wrong in between.
-/
import RspacefsCsi.Control
import RspacefsCsi.Sample

namespace RspacefsCsi

open Lib Lib.Prog SocketControl

/-! ### What the daemon leaves -/

section Daemon

variable {x : Ext} {m : Mount} {out : PathBuf} {w₀ : World}

/-- The world as a capture that did not come to its end leaves it. -/
def Left (x : Ext) (m : Mount) (out : PathBuf) (w₀ w : World) : Prop :=
  ∃ done : Option ℕ, w = w₀.withFs ((done.bind fun n =>
    w₀.fs.write out.key ((x.pack (w₀.uppers m.spec.upper.key)).take n)).getD w₀.fs)

lemma left_self : Left x m out w₀ w₀ := ⟨none, rfl⟩

lemma left_captureLayer : Left x m out w₀ (m.captureLayer x out w₀).2 := by
  simp only [Mount.captureLayer]
  split
  · rename_i fs hfs
    split
    · refine ⟨some (x.pack (w₀.uppers m.spec.upper.key)).length, ?_⟩
      rw [Option.bind_some, List.take_length, hfs]
      rfl
    · exact left_self
  · exact left_self

lemma fits_captureLayer : Fits (m.captureLayer x out w₀).1 := by
  intro r h
  simp only [Mount.captureLayer] at h
  split at h
  · split at h
    · rename_i hlen
      obtain rfl := Except.ok.inj h
      exact ⟨hlen, Nat.mod_lt _ (by decide)⟩
    · exact absurd h (by rintro ⟨⟩)
  · exact absurd h (by rintro ⟨⟩)

/-- The operation, in the words of the daemon. -/
lemma capture_eq {socket : PathBuf} (hm : w₀.daemon socket.key = some m) :
    w₀.capture x socket out .go
      = ((outcome (m.captureLayer x out w₀).1).map CaptureReport.data,
        (m.captureLayer x out w₀).2) := by
  simp only [World.capture, hm, Mount.captureLayer]
  cases w₀.fs.write out.key (x.pack (w₀.uppers m.spec.upper.key)) with
  | none => rfl
  | some fs =>
    simp only
    split <;> rfl

lemma capture_fault_eq {socket : PathBuf} (hm : w₀.daemon socket.key = some m) (msg : Text)
    (done : Option ℕ) :
    (w₀.capture x socket out (.fault msg done)).2 = w₀.withFs ((done.bind fun n =>
      w₀.fs.write out.key ((x.pack (w₀.uppers m.spec.upper.key)).take n)).getD w₀.fs) := by
  simp only [World.capture, hm]

end Daemon

/-! ### Connections -/

section Connections

variable {x : Ext} {m : Mount} {out : PathBuf} {w₀ : World}

/-- The daemon has nothing to say. -/
def Conn.Quiet (c : Conn) : Prop :=
  c.received = [] ∧ ∀ rest, c.serving ≠ .answering rest

/-- The client has sent `b`, and the daemon has not read it. -/
structure Requested (m : Mount) (w₀ : World) (b : Bytes) (c : Conn) (w : World) : Prop where
  mount : c.mount = m
  sent : c.sent = b
  quiet : c.Quiet
  world : w = w₀

/-- The answer `b` is on its way. -/
def Conn.Coming (c : Conn) (b : Bytes) : Prop :=
  match c.serving with
  | .answering rest => c.received ++ rest = b
  | .listening => c.received = b
  | .gone => c.received <+: b

/-- The daemon has captured and answers. -/
structure Answered (x : Ext) (m : Mount) (out : PathBuf) (w₀ : World) (c : Conn) (w : World) :
    Prop where
  sent : c.sent = []
  coming : c.Coming (answerLine (m.captureLayer x out w₀).1)
  world : w = (m.captureLayer x out w₀).2

/-- The daemon has died over the request. -/
structure Lost (x : Ext) (m : Mount) (out : PathBuf) (w₀ : World) (c : Conn) (w : World) :
    Prop where
  sent : c.sent = []
  received : c.received = []
  serving : c.serving = .gone
  left : Left x m out w₀ w

/-- The client has nothing more to say.  Some of the request, or all of it, may still be
handled. -/
def Loose (x : Ext) (m : Mount) (out : PathBuf) (w₀ : World) (c : Conn) (w : World) : Prop :=
  (c.mount = m ∧ c.sent <+: requestLine out ∧ w = w₀) ∨ (c.sent = [] ∧ Left x m out w₀ w)

/-- The client waits for an answer. -/
def Waiting (x : Ext) (m : Mount) (out : PathBuf) (w₀ : World) (c : Conn) (w : World) : Prop :=
  Requested m w₀ (requestLine out) c w ∨ Answered x m out w₀ c w ∨ Lost x m out w₀ c w

lemma newline_notMem_request (out : PathBuf) :
    Json.newline ∉ Json.toVec (captureRequest out) := Json.newline_notMem_toVec _

lemma Waiting.loose {c : Conn} {w : World} (h : Waiting x m out w₀ c w) : Loose x m out w₀ c w := by
  rcases h with h | h | h
  · exact .inl ⟨h.mount, h.sent ▸ List.prefix_refl _, h.world⟩
  · exact .inr ⟨h.sent, h.world ▸ left_captureLayer⟩
  · exact .inr ⟨h.sent, h.left⟩

/-- Where nothing was sent there is nothing to handle. -/
lemma pending_of_nil {c : Conn} (h : c.sent = []) (closed : Bool) : c.pending closed = none := by
  unfold Conn.pending
  split
  · rw [h, nextLine, if_neg List.not_mem_nil]
    cases closed <;> rfl
  · rfl

/-- What is handled of the beginning of a request is all of it. -/
lemma pending_of_begins {c : Conn} (h : c.sent <+: requestLine out) (closed : Bool)
    {p : Bytes × Bytes} (hp : c.pending closed = some p) : p = (c.sent, []) := by
  unfold Conn.pending at hp
  split at hp
  · exact (nextLine_of_begins (newline_notMem_request out) h closed
      (Option.filter_eq_some_iff.1 hp).1).1
  · exact absurd hp (by rintro ⟨⟩)

lemma handle_of_begins {b : Bytes} (h : b <+: requestLine out) :
    Left x m out w₀ (m.handle x b w₀).2 := by
  unfold Mount.handle
  rcases requested_of_begins h with hreq | hreq <;> rw [hreq]
  · exact left_captureLayer
  · exact left_self

lemma abandon_of_begins {b : Bytes} (h : b <+: requestLine out) (done : Option ℕ) :
    Left x m out w₀ (m.abandon x b done w₀) := by
  unfold Mount.abandon
  rcases requested_of_begins h with hreq | hreq <;> rw [hreq]
  · exact ⟨done, rfl⟩
  · exact left_self

/-- The daemon sends, or has nothing to send. -/
lemma move_send (c : Conn) (closed : Bool) (w : World) (n : ℕ) :
    (∃ rest, c.serving = .answering rest ∧ c.move x closed w (.send n) = ({ c with
      received := c.received ++ rest.take n
      serving := if rest.length ≤ n then .listening else .answering (rest.drop n) }, w)) ∨
    ((∀ rest, c.serving ≠ .answering rest) ∧ c.move x closed w (.send n) = (c, w)) := by
  cases h : c.serving with
  | answering rest => exact .inl ⟨rest, rfl, by simp only [Conn.move, h]⟩
  | listening => exact .inr ⟨by rintro rest ⟨⟩, by simp only [Conn.move, h]⟩
  | gone => exact .inr ⟨by rintro rest ⟨⟩, by simp only [Conn.move, h]⟩

/-- A daemon that was sent nothing changes nothing. -/
lemma move_of_nil {c : Conn} (h : c.sent = []) (closed : Bool) (w : World) (mv : DaemonMove) :
    (c.move x closed w mv).1.sent = [] ∧ (c.move x closed w mv).2 = w := by
  have hp := pending_of_nil h closed
  cases mv with
  | serve => simp only [Conn.move, hp, h, and_self]
  | die done => simp only [Conn.move, hp, h, and_self]
  | send n =>
    rcases move_send (x := x) c closed w n with ⟨rest, -, hmove⟩ | ⟨-, hmove⟩ <;> rw [hmove] <;>
      exact ⟨h, rfl⟩
  | close => exact ⟨h, rfl⟩

/-- Whatever the daemon does, it does no more than the capture that was asked for. -/
lemma Loose.move {c : Conn} {w : World} (h : Loose x m out w₀ c w) (closed : Bool)
    (mv : DaemonMove) :
    Loose x m out w₀ (c.move x closed w mv).1 (c.move x closed w mv).2 := by
  cases mv with
  | serve =>
    cases hp : c.pending closed with
    | none => simpa only [Conn.move, hp] using h
    | some p =>
      simp only [Conn.move, hp]
      rcases h with ⟨hmount, hsent, rfl⟩ | ⟨hsent, -⟩
      · obtain rfl := pending_of_begins hsent closed hp
        exact .inr ⟨rfl, hmount ▸ handle_of_begins hsent⟩
      · rw [pending_of_nil hsent] at hp
        exact absurd hp (by rintro ⟨⟩)
  | die done =>
    cases hp : c.pending closed with
    | none => simpa only [Conn.move, hp] using h
    | some p =>
      simp only [Conn.move, hp]
      rcases h with ⟨hmount, hsent, rfl⟩ | ⟨hsent, -⟩
      · obtain rfl := pending_of_begins hsent closed hp
        exact .inr ⟨rfl, hmount ▸ abandon_of_begins hsent done⟩
      · rw [pending_of_nil hsent] at hp
        exact absurd hp (by rintro ⟨⟩)
  | send n =>
    rcases move_send (x := x) c closed w n with ⟨rest, -, hmove⟩ | ⟨-, hmove⟩ <;> rw [hmove] <;> exact h
  | close => exact h

/-- Before anything is sent the daemon does nothing. -/
lemma Requested.move_nil {c : Conn} {w : World} (h : Requested m w₀ [] c w) (closed : Bool)
    (mv : DaemonMove) :
    Requested m w₀ [] (c.move x closed w mv).1 (c.move x closed w mv).2 := by
  have hp := pending_of_nil h.sent closed
  cases mv with
  | serve => simpa only [Conn.move, hp] using h
  | die done => simpa only [Conn.move, hp] using h
  | send n =>
    rcases move_send (x := x) c closed w n with ⟨rest, hserving, -⟩ | ⟨-, hmove⟩
    · exact absurd hserving (h.quiet.2 rest)
    · rw [hmove]
      exact h
  | close => exact ⟨h.mount, h.sent, ⟨h.quiet.1, by rintro rest ⟨⟩⟩, h.world⟩

/-- An answer on its way arrives piece by piece. -/
lemma Answered.move {c : Conn} {w : World} (h : Answered x m out w₀ c w) (closed : Bool)
    (mv : DaemonMove) :
    Answered x m out w₀ (c.move x closed w mv).1 (c.move x closed w mv).2 := by
  have hp := pending_of_nil h.sent closed
  have hcoming := h.coming
  cases mv with
  | serve => simpa only [Conn.move, hp] using h
  | die done => simpa only [Conn.move, hp] using h
  | send n =>
    rcases move_send (x := x) c closed w n with ⟨rest, hserving, hmove⟩ | ⟨-, hmove⟩ <;> rw [hmove]
    · refine ⟨h.sent, ?_, h.world⟩
      simp only [Conn.Coming, hserving] at hcoming ⊢
      by_cases hn : rest.length ≤ n
      · simp only [if_pos hn, List.take_of_length_le hn, hcoming]
      · simp only [if_neg hn, List.append_assoc, List.take_append_drop, hcoming]
    · exact h
  | close =>
    refine ⟨h.sent, ?_, h.world⟩
    unfold Conn.Coming at hcoming
    change c.received <+: _
    split at hcoming
    · exact ⟨_, hcoming⟩
    · exact hcoming ▸ List.prefix_refl _
    · exact hcoming

/-- A client that waits goes on waiting for the same answer. -/
lemma Waiting.move {c : Conn} {w : World} (h : Waiting x m out w₀ c w) (closed : Bool)
    (mv : DaemonMove) :
    Waiting x m out w₀ (c.move x closed w mv).1 (c.move x closed w mv).2 := by
  rcases h with h | h | h
  · obtain ⟨hmount, hsent, ⟨hreceived, hserving⟩, rfl⟩ := h
    have hpre : c.sent <+: requestLine out := hsent ▸ List.prefix_refl _
    cases mv with
    | serve =>
      cases hp : c.pending closed with
      | none =>
        simp only [Conn.move, hp]
        exact .inl ⟨hmount, hsent, ⟨hreceived, hserving⟩, rfl⟩
      | some p =>
        obtain rfl := pending_of_begins hpre closed hp
        simp only [Conn.move, hp, hsent, hmount, Mount.handle, requested_requestLine]
        refine .inr (.inl ⟨rfl, ?_, rfl⟩)
        simp only [Conn.Coming, hreceived, List.nil_append]
    | die done =>
      cases hp : c.pending closed with
      | none =>
        simp only [Conn.move, hp]
        exact .inl ⟨hmount, hsent, ⟨hreceived, hserving⟩, rfl⟩
      | some p =>
        obtain rfl := pending_of_begins hpre closed hp
        simp only [Conn.move, hp]
        exact .inr (.inr ⟨rfl, hreceived, rfl, hmount ▸ abandon_of_begins hpre done⟩)
    | send n =>
      rcases move_send (x := x) c closed w n with ⟨rest, hanswering, -⟩ | ⟨-, hmove⟩
      · exact absurd hanswering (hserving rest)
      · rw [hmove]
        exact .inl ⟨hmount, hsent, ⟨hreceived, hserving⟩, rfl⟩
    | close => exact .inl ⟨hmount, hsent, ⟨hreceived, by rintro rest ⟨⟩⟩, rfl⟩
  · exact .inr (.inl (h.move closed mv))
  · refine .inr (.inr ?_)
    have hp := pending_of_nil h.sent closed
    cases mv with
    | serve => simpa only [Conn.move, hp] using h
    | die done => simpa only [Conn.move, hp] using h
    | send n =>
      rcases move_send (x := x) c closed w n with ⟨rest, hanswering, -⟩ | ⟨-, hmove⟩
      · rw [h.serving] at hanswering
        exact absurd hanswering (by rintro ⟨⟩)
      · rw [hmove]
        exact h
    | close => exact ⟨h.sent, h.received, rfl, h.left⟩

end Connections

/-! ### How far a dialog can come -/

section Reaching

variable (x : Ext) (serdeError : Text → Text) (socket out : PathBuf) (w₀ : World)

/-- What the client makes of a line. -/
def reply (resp : Text) : Except ControlError CaptureReport :=
  if resp = [] then .error .noResponse else decodeEnvelope serdeError CaptureReport.ofJson resp

/-- The client when it has to read. -/
def reading : Talk CaptureReport := attempt .readLine fun r => r.mapError .io >>= reply serdeError

/-- The client when it has to flush. -/
def flushing : Talk CaptureReport := do
  attempt .flush (Except.mapError .io)
  reading serdeError

/-- The client when it has to write. -/
def writing : Talk CaptureReport := do
  attempt (.writeAll (requestLine out)) (Except.mapError .io)
  flushing serdeError

lemma capture_run : (SocketControl.capture serdeError socket out).run
    = (attempt (.connect socket) (Except.mapError (.connect socket.text)) >>= fun _ =>
        writing serdeError out).run := by
  have hread : (attempt .readLine (Except.mapError .io) >>= fun resp : Text => do
      if resp = [] then throw .noResponse
      require (decodeEnvelope serdeError CaptureReport.ofJson resp) : Talk CaptureReport)
        = reading serdeError := by
    refine congrArg (Prog.call SockOp.readLine) (funext fun r => ?_)
    cases r with
    | error e => rfl
    | ok resp =>
      by_cases h : resp = []
      · subst h
        rfl
      · change ExceptT.run (ite (resp = []) _ _) = Prog.ret (ite (resp = []) _ _)
        rw [if_neg h, if_neg h]
        rfl
  rw [SocketControl.capture, SocketControl.request, hread]
  rfl

/-- The line that was read, if it is a text. -/
def lineText (line : Bytes) : Except IoError Text :=
  (Json.fromUtf8 line).elim (.error ⟨"stream did not contain valid UTF-8".toList⟩) .ok

/-- An error that is not the daemon's. -/
def Own (e : ControlError) : Prop := ∀ msg, e ≠ .remote msg

/-- What the client makes of the beginning of an answer. -/
lemma reply_of_begins {ans : Except Text CaptureReport} (hfits : Fits ans) {b : Bytes}
    (hb : b <+: answerLine ans) :
    ((lineText b).mapError .io >>= reply serdeError) = outcome ans ∨
      ∃ e, ((lineText b).mapError .io >>= reply serdeError) = .error e ∧ Own e := by
  cases hd : Json.fromUtf8 b with
  | none =>
    rw [lineText, hd]
    exact .inr ⟨_, rfl, by rintro msg ⟨⟩⟩
  | some resp =>
    have hline : (lineText b).mapError .io >>= reply serdeError = reply serdeError resp := by
      rw [lineText, hd]
      rfl
    rw [hline, reply]
    split
    · exact .inr ⟨_, rfl, by rintro msg ⟨⟩⟩
    rename_i hne
    rcases decodeEnvelope_of_begins serdeError hfits hb hd hne with h | ⟨msg, h⟩
    · exact .inl h
    · exact .inr ⟨_, h, by rintro msg ⟨⟩⟩

/-- What it makes of the whole answer. -/
lemma reply_answerLine {ans : Except Text CaptureReport} (hfits : Fits ans) :
    ((lineText (answerLine ans)).mapError .io >>= reply serdeError) = outcome ans := by
  obtain ⟨resp, hd, hne, hdec⟩ := decodeEnvelope_answerLine serdeError hfits
  have hline : (lineText (answerLine ans)).mapError .io >>= reply serdeError
      = reply serdeError resp := by
    rw [lineText, hd]
    rfl
  rw [hline, reply, if_neg hne, hdec]

lemma reply_nil : ((lineText []).mapError .io >>= reply serdeError) = .error .noResponse := by
  have hd : Json.fromUtf8 [] = some [] := Json.fromUtf8_utf8 []
  rw [lineText, hd]
  rfl

lemma Conn.Coming.begins {c : Conn} {b : Bytes} (h : c.Coming b) : c.received <+: b := by
  unfold Conn.Coming at h
  split at h
  · exact ⟨_, h⟩
  · exact h ▸ List.prefix_refl _
  · exact h

/-- How far a dialog can have come. -/
inductive Reached : Dialog → Prop
  | before {b : Bool} : Reached ⟨w₀, none, (SocketControl.capture serdeError socket out).run, b⟩
  | refused {e : ControlError} {b : Bool} (he : Own e) : Reached ⟨w₀, none, .ret (.error e), b⟩
  | connected {m : Mount} {c : Conn} {w : World} {b : Bool} (hm : w₀.daemon socket.key = some m)
      (hc : Requested m w₀ [] c w) : Reached ⟨w, some c, (writing serdeError out).run, b⟩
  | sent {m : Mount} {c : Conn} {w : World} {b : Bool} (hm : w₀.daemon socket.key = some m)
      (hc : Waiting x m out w₀ c w) : Reached ⟨w, some c, (flushing serdeError).run, b⟩
  | waiting {m : Mount} {c : Conn} {w : World} {b : Bool} (hm : w₀.daemon socket.key = some m)
      (hc : Waiting x m out w₀ c w) : Reached ⟨w, some c, (reading serdeError).run, b⟩
  | failed {m : Mount} {c : Conn} {w : World} {e : ControlError} {b : Bool}
      (hm : w₀.daemon socket.key = some m) (he : Own e) (hc : Loose x m out w₀ c w) :
      Reached ⟨w, some c, .ret (.error e), b⟩
  | answered {m : Mount} {c : Conn} {w : World} {b : Bool} (hm : w₀.daemon socket.key = some m)
      (hsent : c.sent = []) (hw : w = (m.captureLayer x out w₀).2) :
      Reached ⟨w, some c, .ret (outcome (m.captureLayer x out w₀).1), b⟩

variable {x socket out w₀}

/-- The daemon's moves keep a dialog where it is. -/
lemma Reached.daemon {d : Dialog} (h : Reached x serdeError socket out w₀ d) (mv : DaemonMove) :
    Reached x serdeError socket out w₀ (d.step x (.daemon mv)) := by
  cases h with
  | before => exact .before
  | refused he => exact .refused he
  | connected hm hc => exact .connected hm (hc.move_nil _ mv)
  | sent hm hc => exact .sent hm (hc.move _ mv)
  | waiting hm hc => exact .waiting hm (hc.move _ mv)
  | failed hm he hc => exact .failed hm he (hc.move _ mv)
  | answered hm hsent hw =>
    have hmove := fun closed w => move_of_nil (x := x) hsent closed w mv
    exact .answered hm (hmove _ _).1 ((hmove _ _).2.trans hw)

/-- A call of the client that is answered. -/
lemma step_client {o : SockOp}
    {k : SockResp o → Prog SockOp SockResp (Except ControlError CaptureReport)} {w : World}
    {conn conn' : Option Conn} {fault : Option Fault} {r : SockResp o}
    (h : sockAnswer w conn o fault = some (r, conn')) :
    Dialog.step x ⟨w, conn, .call o k, false⟩ (.client fault) = ⟨w, conn', k r, false⟩ := by
  simp only [Dialog.step, h, Bool.false_eq_true, if_false]

/-- A call that has to wait. -/
lemma step_client_waits {o : SockOp}
    {k : SockResp o → Prog SockOp SockResp (Except ControlError CaptureReport)} {w : World}
    {conn : Option Conn} {fault : Option Fault} (h : sockAnswer w conn o fault = none) :
    Dialog.step x ⟨w, conn, .call o k, false⟩ (.client fault) = ⟨w, conn, .call o k, false⟩ := by
  simp only [Dialog.step, h, Bool.false_eq_true, if_false]

lemma sockAnswer_connect_none {w : World} (h : w.daemon socket.key = none) (conn : Option Conn) :
    sockAnswer w conn (.connect socket) none
      = some (.error ⟨"Connection refused".toList⟩, conn) := by
  simp only [sockAnswer, h]

lemma sockAnswer_connect_some {w : World} {m : Mount} (h : w.daemon socket.key = some m)
    (conn : Option Conn) :
    sockAnswer w conn (.connect socket) none = some (.ok (), some ⟨m, [], .listening, []⟩) := by
  simp only [sockAnswer, h]

/-- What the client reads. -/
lemma sockAnswer_readLine (w : World) (c : Conn) :
    (∃ line rest, nextLine c.isGone c.received = some (line, rest) ∧
      sockAnswer w (some c) .readLine none = some (lineText line, some { c with received := rest })) ∨
    (nextLine c.isGone c.received = none ∧ sockAnswer w (some c) .readLine none = none) := by
  cases h : nextLine c.isGone c.received with
  | none => exact .inr ⟨rfl, by simp only [sockAnswer, h]⟩
  | some p => exact .inl ⟨p.1, p.2, rfl, by simp only [sockAnswer, h]; rfl⟩

/-- A client that reads gets the answer, or an error of its own. -/
lemma Waiting.read {m : Mount} {c : Conn} {w : World} (hc : Waiting x m out w₀ c w) {line rest : Bytes}
    (hline : nextLine c.isGone c.received = some (line, rest)) :
    (((lineText line).mapError .io >>= reply serdeError) = outcome (m.captureLayer x out w₀).1 ∧
      Answered x m out w₀ c w) ∨
    ∃ e, ((lineText line).mapError .io >>= reply serdeError) = .error e ∧ Own e := by
  have hnothing : c.received = [] →
      ∃ e, ((lineText line).mapError .io >>= reply serdeError) = .error e ∧ Own e := by
    intro hreceived
    have hpre : c.received <+: [] ++ [Json.newline] := hreceived ▸ List.nil_prefix
    obtain ⟨rfl, -⟩ := Prod.mk.inj (nextLine_of_begins List.not_mem_nil hpre _ hline).1
    rw [hreceived, reply_nil]
    exact ⟨_, rfl, by rintro msg ⟨⟩⟩
  rcases hc with hc | hc | hc
  · exact .inr (hnothing hc.quiet.1)
  · have hpre := hc.coming.begins
    obtain ⟨rfl, -⟩ := Prod.mk.inj
      (nextLine_of_begins (Json.newline_notMem_toVec _) hpre _ hline).1
    rcases reply_of_begins serdeError fits_captureLayer hpre with h | h
    · exact .inl ⟨h, hc⟩
    · exact .inr h
  · exact .inr (hnothing hc.received)

/-- The client's calls take a dialog on. -/
lemma Reached.client {d : Dialog} (h : Reached x serdeError socket out w₀ d) (fault : Option Fault) :
    Reached x serdeError socket out w₀ (d.step x (.client fault)) := by
  cases hdropped : d.dropped with
  | true =>
    rw [Dialog.step, if_pos hdropped]
    exact h
  | false =>
  cases h with
  | before =>
    obtain rfl : _ = false := hdropped
    rw [capture_run, run_attempt_bind]
    cases fault with
    | some f =>
      rw [step_client rfl]
      exact .refused (by rintro msg ⟨⟩)
    | none =>
      cases hm : w₀.daemon socket.key with
      | none =>
        rw [step_client (sockAnswer_connect_none hm none)]
        exact .refused (by rintro msg ⟨⟩)
      | some m =>
        rw [step_client (sockAnswer_connect_some hm none)]
        exact .connected hm ⟨rfl, rfl, ⟨rfl, by rintro rest ⟨⟩⟩, rfl⟩
  | refused he =>
    obtain rfl : _ = false := hdropped
    exact .refused he
  | connected hm hc =>
    obtain rfl : _ = false := hdropped
    rw [writing, run_attempt_bind]
    cases fault with
    | some f =>
      rw [step_client rfl]
      refine .failed hm (by rintro msg ⟨⟩) (.inl ⟨hc.mount, ?_, hc.world⟩)
      simp only [hc.sent, List.nil_append]
      exact List.take_prefix _ _
    | none =>
      rw [step_client rfl]
      refine .sent hm (.inl ⟨hc.mount, ?_, hc.quiet, hc.world⟩)
      simp only [hc.sent, List.nil_append]
  | sent hm hc =>
    obtain rfl : _ = false := hdropped
    rw [flushing, run_attempt_bind]
    cases fault with
    | some f =>
      rw [step_client rfl]
      exact .failed hm (by rintro msg ⟨⟩) hc.loose
    | none =>
      rw [step_client rfl]
      exact .waiting hm hc
  | @waiting m c w b hm hc =>
    obtain rfl : b = false := hdropped
    cases fault with
    | some f =>
      rw [reading, run_attempt, step_client rfl]
      exact .failed hm (by rintro msg ⟨⟩) hc.loose
    | none =>
      rcases sockAnswer_readLine w c with ⟨line, rest, hline, hans⟩ | ⟨-, hans⟩
      · rw [reading, run_attempt, step_client hans]
        rcases hc.read serdeError hline with ⟨hres, hc⟩ | ⟨e, hres, he⟩ <;> rw [hres]
        · exact .answered hm hc.sent hc.world
        · exact .failed hm he hc.loose
      · rw [reading, run_attempt, step_client_waits hans, ← run_attempt]
        exact .waiting hm hc
  | failed hm he hc =>
    obtain rfl : _ = false := hdropped
    exact .failed hm he hc
  | answered hm hsent hw =>
    obtain rfl : _ = false := hdropped
    exact .answered hm hsent hw

/-- Every dialog has come so far. -/
lemma reached_dialog (acts : List Act) : Reached x serdeError socket out w₀
    (acts.foldl (Dialog.step x) (.start (SocketControl.capture serdeError socket out) w₀)) := by
  refine Along.foldl (P := fun _ _ => True) (I := Reached x serdeError socket out w₀)
    (fun d a h _ => ?_) .before (Along.of_forall (fun _ _ _ => trivial) _)
  cases a with
  | client fault => exact h.client serdeError fault
  | drop => cases h <;> constructor <;> assumption
  | daemon mv => exact h.daemon serdeError mv

end Reaching

/-! ### Safety -/

section Dialogs

variable {x : Ext} {serdeError : Text → Text} {socket out : PathBuf} {w₀ : World}

lemma Loose.left {m : Mount} {c : Conn} {w : World} (h : Loose x m out w₀ c w) : Left x m out w₀ w := by
  rcases h with ⟨-, -, rfl⟩ | ⟨-, h⟩
  · exact left_self
  · exact h

/-- The world of a dialog. -/
lemma Reached.world {d : Dialog} (h : Reached x serdeError socket out w₀ d) :
    ∃ msg done, d.world = (w₀.capture x socket out (.fault msg done)).2 := by
  have hself : ∃ msg done, w₀ = (w₀.capture x socket out (.fault msg done)).2 := by
    refine ⟨[], none, ?_⟩
    simp only [World.capture]
    split <;> rfl
  have hleft : ∀ {m : Mount} {w : World}, w₀.daemon socket.key = some m → Left x m out w₀ w →
      ∃ msg done, w = (w₀.capture x socket out (.fault msg done)).2 := by
    rintro m w hm ⟨done, rfl⟩
    exact ⟨[], done, (capture_fault_eq hm [] done).symm⟩
  cases h with
  | before => exact hself
  | refused he => exact hself
  | connected hm hc => exact hleft hm (hc.world ▸ left_self)
  | sent hm hc => exact hleft hm hc.loose.left
  | waiting hm hc => exact hleft hm hc.loose.left
  | failed hm he hc => exact hleft hm hc.left
  | answered hm hsent hw => exact hleft hm (hw ▸ left_captureLayer)

/-- A client that is over has an answer of the daemon, or an error of its own. -/
lemma Reached.result {d : Dialog} (h : Reached x serdeError socket out w₀ d)
    {r : Except ControlError CaptureReport} (hr : d.client = .ret r) :
    (∃ m, w₀.daemon socket.key = some m ∧ r = outcome (m.captureLayer x out w₀).1 ∧
      d.world = (m.captureLayer x out w₀).2) ∨ ∃ e, r = .error e ∧ Own e := by
  have hcall : ∀ {o : SockOp}
      {k : SockResp o → Prog SockOp SockResp (Except ControlError CaptureReport)},
      Prog.call o k ≠ .ret r := by
    rintro o k ⟨⟩
  cases h with
  | before => exact absurd hr hcall
  | refused he => exact .inr ⟨_, (Prog.ret.inj hr).symm, he⟩
  | connected hm hc => exact absurd hr hcall
  | sent hm hc => exact absurd hr hcall
  | waiting hm hc => exact absurd hr hcall
  | failed hm he hc => exact .inr ⟨_, (Prog.ret.inj hr).symm, he⟩
  | answered hm hsent hw => exact .inl ⟨_, hm, (Prog.ret.inj hr).symm, hw⟩

variable (x serdeError socket out w₀)

/-- The state after some acts of a capture. -/
def dialog (acts : List Act) : Dialog :=
  acts.foldl (Dialog.step x) (.start (SocketControl.capture serdeError socket out) w₀)

/-- **In every dialog the client says OK only if the daemon has captured.**  An answer of the
daemon, be it a report or an error, is the one that the operation gives, and the world is the one it
leaves.  In every case the world is that of an operation whose answer may have been lost. -/
theorem capture_safe (acts : List Act) :
    (∀ r, (dialog x serdeError socket out w₀ acts).client = .ret (.ok r) →
      w₀.capture x socket out .go
        = (.ok r.data, (dialog x serdeError socket out w₀ acts).world)) ∧
    (∀ msg, (dialog x serdeError socket out w₀ acts).client = .ret (.error (.remote msg)) →
      w₀.capture x socket out .go
        = (.error (.remote msg), (dialog x serdeError socket out w₀ acts).world)) ∧
    ∃ msg done, (dialog x serdeError socket out w₀ acts).world
      = (w₀.capture x socket out (.fault msg done)).2 := by
  have hreached : Reached x serdeError socket out w₀ (dialog x serdeError socket out w₀ acts) :=
    reached_dialog serdeError acts
  refine ⟨fun r hr => ?_, fun msg hr => ?_, hreached.world⟩
  · rcases hreached.result hr with ⟨m, hm, hres, hworld⟩ | ⟨e, hres, -⟩
    · rw [capture_eq hm, ← hres, hworld]
      rfl
    · exact absurd hres (by rintro ⟨⟩)
  · rcases hreached.result hr with ⟨m, hm, hres, hworld⟩ | ⟨e, hres, he⟩
    · rw [capture_eq hm, ← hres, hworld]
      rfl
    · exact absurd (Except.error.inj hres).symm (he msg)

/-! ### Progress -/

/-- Nothing fails, and nobody goes away. -/
def Act.Smooth : Act → Prop
  | .client none | .daemon .serve | .daemon (.send _) => True
  | _ => False

variable {x serdeError socket out w₀}

lemma isGone_move {c : Conn} (h : c.isGone = false) (closed : Bool) (w : World) {mv : DaemonMove}
    (hmv : (Act.daemon mv).Smooth) : (c.move x closed w mv).1.isGone = false := by
  cases mv with
  | serve =>
    cases hp : c.pending closed with
    | none => simpa only [Conn.move, hp] using h
    | some p => simp only [Conn.move, hp, Conn.isGone]
  | send n =>
    rcases move_send (x := x) c closed w n with ⟨rest, -, hmove⟩ | ⟨-, hmove⟩ <;> rw [hmove]
    · by_cases hn : rest.length ≤ n
      · simp only [if_pos hn, Conn.isGone]
      · simp only [if_neg hn, Conn.isGone]
    · exact h
  | die done => exact hmv.elim
  | close => exact hmv.elim

variable (x serdeError socket out w₀) in
/-- How far a dialog in which nothing fails can have come. -/
inductive Going : Dialog → Prop
  | before : Going ⟨w₀, none, (SocketControl.capture serdeError socket out).run, false⟩
  | refused (hm : w₀.daemon socket.key = none) :
      Going ⟨w₀, none, .ret (.error (.connect socket.text ⟨"Connection refused".toList⟩)), false⟩
  | connected {m : Mount} {c : Conn} {w : World} (hm : w₀.daemon socket.key = some m)
      (hc : Requested m w₀ [] c w) (hgone : c.isGone = false) :
      Going ⟨w, some c, (writing serdeError out).run, false⟩
  | sent {m : Mount} {c : Conn} {w : World} (hm : w₀.daemon socket.key = some m)
      (hc : Waiting x m out w₀ c w) (hgone : c.isGone = false) :
      Going ⟨w, some c, (flushing serdeError).run, false⟩
  | waiting {m : Mount} {c : Conn} {w : World} (hm : w₀.daemon socket.key = some m)
      (hc : Waiting x m out w₀ c w) (hgone : c.isGone = false) :
      Going ⟨w, some c, (reading serdeError).run, false⟩
  | answered {m : Mount} {c : Conn} {w : World} (hm : w₀.daemon socket.key = some m)
      (hsent : c.sent = []) (hw : w = (m.captureLayer x out w₀).2) :
      Going ⟨w, some c, .ret (outcome (m.captureLayer x out w₀).1), false⟩

/-- A client that can read from a daemon that is there gets the answer. -/
lemma Waiting.read_going (serdeError : Text → Text) {m : Mount} {c : Conn} {w : World}
    (hc : Waiting x m out w₀ c w) (hgone : c.isGone = false) {line rest : Bytes}
    (hline : nextLine c.isGone c.received = some (line, rest)) :
    ((lineText line).mapError .io >>= reply serdeError) = outcome (m.captureLayer x out w₀).1 ∧
      Answered x m out w₀ c w := by
  have hnothing : c.received ≠ [] := by
    intro hreceived
    rw [hreceived, hgone, nextLine, if_neg List.not_mem_nil] at hline
    exact absurd hline (by rintro ⟨⟩)
  rcases hc with hc | hc | hc
  · exact absurd hc.quiet.1 hnothing
  · have hpre := hc.coming.begins
    obtain ⟨hp, hmem⟩ := nextLine_of_begins (Json.newline_notMem_toVec _) hpre _ hline
    obtain ⟨rfl, -⟩ := Prod.mk.inj hp
    have hmem' : Json.newline ∈ c.received := hmem.resolve_right (by rw [hgone]; decide)
    rw [eq_of_newline_mem (Json.newline_notMem_toVec _) hpre hmem']
    exact ⟨reply_answerLine serdeError fits_captureLayer, hc⟩
  · exact absurd hc.received hnothing

/-- A step in which nothing fails. -/
lemma Going.step {d : Dialog} (h : Going x serdeError socket out w₀ d) {a : Act} (ha : a.Smooth) :
    Going x serdeError socket out w₀ (d.step x a) := by
  cases a with
  | drop => exact ha.elim
  | daemon mv =>
    cases h with
    | before => exact .before
    | refused hm => exact .refused hm
    | connected hm hc hgone => exact .connected hm (hc.move_nil _ mv) (isGone_move hgone _ _ ha)
    | sent hm hc hgone => exact .sent hm (hc.move _ mv) (isGone_move hgone _ _ ha)
    | waiting hm hc hgone => exact .waiting hm (hc.move _ mv) (isGone_move hgone _ _ ha)
    | answered hm hsent hw =>
      have hmove := fun closed w => move_of_nil (x := x) hsent closed w mv
      exact .answered hm (hmove _ _).1 ((hmove _ _).2.trans hw)
  | client fault =>
    cases fault with
    | some f => exact ha.elim
    | none =>
    cases h with
    | before =>
      rw [capture_run, run_attempt_bind]
      cases hm : w₀.daemon socket.key with
      | none =>
        rw [step_client (sockAnswer_connect_none hm none)]
        exact .refused hm
      | some m =>
        rw [step_client (sockAnswer_connect_some hm none)]
        exact .connected hm ⟨rfl, rfl, ⟨rfl, by rintro rest ⟨⟩⟩, rfl⟩ rfl
    | refused hm => exact .refused hm
    | connected hm hc hgone =>
      rw [writing, run_attempt_bind, step_client rfl]
      refine .sent hm (.inl ⟨hc.mount, ?_, hc.quiet, hc.world⟩) hgone
      simp only [hc.sent, List.nil_append]
    | sent hm hc hgone =>
      rw [flushing, run_attempt_bind, step_client rfl]
      exact .waiting hm hc hgone
    | @waiting m c w hm hc hgone =>
      rcases sockAnswer_readLine w c with ⟨line, rest, hline, hans⟩ | ⟨-, hans⟩
      · rw [reading, run_attempt, step_client hans]
        obtain ⟨hres, hc⟩ := hc.read_going serdeError hgone hline
        rw [hres]
        exact .answered hm hc.sent hc.world
      · rw [reading, run_attempt, step_client_waits hans, ← run_attempt]
        exact .waiting hm hc hgone
    | answered hm hsent hw => exact .answered hm hsent hw

/-- A client that is over has what the operation gives. -/
lemma Going.result {d : Dialog} (h : Going x serdeError socket out w₀ d)
    {r : Except ControlError CaptureReport} (hr : d.client = .ret r) :
    w₀.capture x socket out .go = (r.map CaptureReport.data, d.world) := by
  have hcall : ∀ {o : SockOp}
      {k : SockResp o → Prog SockOp SockResp (Except ControlError CaptureReport)},
      Prog.call o k ≠ .ret r := by
    rintro o k ⟨⟩
  cases h with
  | before => exact absurd hr hcall
  | refused hm =>
    rw [← Prog.ret.inj hr]
    simp only [World.capture, hm]
    rfl
  | connected hm hc hgone => exact absurd hr hcall
  | sent hm hc hgone => exact absurd hr hcall
  | waiting hm hc hgone => exact absurd hr hcall
  | answered hm hsent hw => rw [capture_eq hm, ← Prog.ret.inj hr, hw]

variable (x) in
/-- The client can still come to its end without a failure. -/
def Finishes (d : Dialog) : Prop :=
  ∃ acts : List Act, (∀ a ∈ acts, a.Smooth) ∧ ∃ r, (acts.foldl (Dialog.step x) d).client = .ret r

lemma Finishes.cons {d : Dialog} {a : Act} (ha : a.Smooth) (h : Finishes x (d.step x a)) :
    Finishes x d := by
  obtain ⟨acts, hacts, r, hr⟩ := h
  exact ⟨a :: acts, List.forall_mem_cons.2 ⟨ha, hacts⟩, r, hr⟩

/-- A daemon that is there handles what it was asked. -/
lemma Waiting.serve {m : Mount} {c : Conn} {w : World} (hc : Waiting x m out w₀ c w)
    (hgone : c.isGone = false) (closed : Bool) :
    Answered x m out w₀ (c.move x closed w .serve).1 (c.move x closed w .serve).2 := by
  rcases hc with hc | hc | hc
  · have hlistening : c.serving = .listening := by
      cases hs : c.serving with
      | listening => rfl
      | answering rest => exact absurd hs (hc.quiet.2 rest)
      | gone =>
        rw [Conn.isGone, hs] at hgone
        exact absurd hgone (by decide)
    have hp : c.pending closed = some (requestLine out, []) := by
      rw [Conn.pending, hlistening, hc.sent]
      change (nextLine closed (requestLine out)).filter _ = _
      rw [requestLine, nextLine_line (newline_notMem_request out)]
      simp
    simp only [Conn.move, hp, hc.mount, hc.world, Mount.handle, requested_requestLine]
    refine ⟨rfl, ?_, rfl⟩
    simp only [Conn.Coming, hc.quiet.1, List.nil_append]
  · exact hc.move closed .serve
  · rw [Conn.isGone, hc.serving] at hgone
    exact absurd hgone (by decide)

/-- A daemon that is there gets its answer across. -/
lemma Answered.send {m : Mount} {c : Conn} {w : World} (hc : Answered x m out w₀ c w)
    (hgone : c.isGone = false) (closed : Bool) :
    (c.move x closed w (.send (answerLine (m.captureLayer x out w₀).1).length)).1.received
      = answerLine (m.captureLayer x out w₀).1 := by
  have hcoming := hc.coming
  rcases move_send (x := x) c closed w (answerLine (m.captureLayer x out w₀).1).length with
    ⟨rest, hs, hmove⟩ | ⟨hs, hmove⟩ <;> rw [hmove]
  · rw [Conn.Coming, hs] at hcoming
    simp only at hcoming ⊢
    rw [List.take_of_length_le (by rw [← hcoming, List.length_append]; omega), hcoming]
  · cases hlistening : c.serving with
    | listening =>
      rw [Conn.Coming, hlistening] at hcoming
      exact hcoming
    | answering rest => exact absurd hlistening (hs rest)
    | gone =>
      rw [Conn.isGone, hlistening] at hgone
      exact absurd hgone (by decide)

/-- A client that waits gets its sockAnswer when the daemon has handled the request and sent the
answer. -/
lemma finishes_waiting {m : Mount} {c : Conn} {w : World} (hc : Waiting x m out w₀ c w)
    (hgone : c.isGone = false) : Finishes x ⟨w, some c, (reading serdeError).run, false⟩ := by
  have hdaemon : ∀ (c : Conn) (w : World) (mv : DaemonMove),
      Dialog.step x ⟨w, some c, (reading serdeError).run, false⟩ (.daemon mv)
        = ⟨(c.move x false w mv).2, some (c.move x false w mv).1, (reading serdeError).run, false⟩ :=
    fun _ _ _ => rfl
  have hserved := hc.serve hgone false
  have hsmooth : (Act.daemon .serve).Smooth := trivial
  have hreceived := hserved.send (isGone_move hgone false w hsmooth) false
  refine Finishes.cons (a := .daemon .serve) trivial (Finishes.cons
    (a := .daemon (.send (answerLine (m.captureLayer x out w₀).1).length)) trivial ?_)
  rw [hdaemon, hdaemon]
  generalize Conn.move x (Conn.move x c false w .serve).1 false _ _ = out₂ at hreceived ⊢
  refine ⟨[.client none], by simp [Act.Smooth], ?_⟩
  rcases sockAnswer_readLine out₂.2 out₂.1 with ⟨line, rest, -, hans⟩ | ⟨hnone, -⟩
  · rw [List.foldl_cons, List.foldl_nil, reading, run_attempt, step_client hans]
    exact ⟨_, rfl⟩
  · rw [hreceived, answerLine, nextLine_line (Json.newline_notMem_toVec _)] at hnone
    exact absurd hnone (by rintro ⟨⟩)

lemma finishes_sent {m : Mount} {c : Conn} {w : World} (hc : Waiting x m out w₀ c w)
    (hgone : c.isGone = false) : Finishes x ⟨w, some c, (flushing serdeError).run, false⟩ := by
  refine Finishes.cons (a := .client none) trivial ?_
  rw [flushing, run_attempt_bind, step_client rfl]
  exact finishes_waiting hc hgone

lemma finishes_connected {m : Mount} {c : Conn} {w : World} (hc : Requested m w₀ [] c w)
    (hgone : c.isGone = false) : Finishes x ⟨w, some c, (writing serdeError out).run, false⟩ := by
  refine Finishes.cons (a := .client none) trivial ?_
  rw [writing, run_attempt_bind, step_client rfl]
  have hc' : Waiting x m out w₀ { c with sent := c.sent ++ requestLine out } w := by
    refine .inl ⟨hc.mount, ?_, hc.quiet, hc.world⟩
    simp only [hc.sent, List.nil_append]
  exact finishes_sent hc' hgone

/-- No dialog in which nothing fails gets stuck. -/
lemma Going.finishes {d : Dialog} (h : Going x serdeError socket out w₀ d) : Finishes x d := by
  have hnow : ∀ {w : World} {conn : Option Conn} {r : Except ControlError CaptureReport},
      Finishes x ⟨w, conn, .ret r, false⟩ := ⟨[], by simp, _, rfl⟩
  cases h with
  | before =>
    refine Finishes.cons (a := .client none) trivial ?_
    rw [capture_run, run_attempt_bind]
    cases hm : w₀.daemon socket.key with
    | none =>
      rw [step_client (sockAnswer_connect_none hm none)]
      exact hnow
    | some m =>
      rw [step_client (sockAnswer_connect_some hm none)]
      exact finishes_connected ⟨rfl, rfl, ⟨rfl, by rintro rest ⟨⟩⟩, rfl⟩ rfl
  | refused hm => exact hnow
  | connected hm hc hgone => exact finishes_connected hc hgone
  | sent hm hc hgone => exact finishes_sent hc hgone
  | waiting hm hc hgone => exact finishes_waiting hc hgone
  | answered hm hsent hw => exact hnow

variable (x serdeError socket out w₀)

lemma going_dialog {acts : List Act} (h : ∀ a ∈ acts, a.Smooth) :
    Going x serdeError socket out w₀ (dialog x serdeError socket out w₀ acts) :=
  Along.foldl (P := fun _ a => a.Smooth) (I := Going x serdeError socket out w₀)
    (fun _ _ hd ha => hd.step ha) .before (Along.of_forall (fun a ha _ => h a ha) _)

/-- **A dialog in which nothing fails does not get stuck, and ends as the operation does.**  In
whatever order the parties have taken their steps so far, they can go on until the client is over;
and when it is over, it has what the operation gives, and has left the world as the operation does. -/
theorem capture_live {acts : List Act} (hacts : ∀ a ∈ acts, a.Smooth) :
    (∀ r, (dialog x serdeError socket out w₀ acts).client = .ret r →
      w₀.capture x socket out .go
        = (r.map CaptureReport.data, (dialog x serdeError socket out w₀ acts).world)) ∧
    ∃ acts', (∀ a ∈ acts', a.Smooth) ∧
      ∃ r, (dialog x serdeError socket out w₀ (acts ++ acts')).client = .ret r ∧
        w₀.capture x socket out .go
          = (r.map CaptureReport.data, (dialog x serdeError socket out w₀ (acts ++ acts')).world) := by
  refine ⟨fun r hr => (going_dialog x serdeError socket out w₀ hacts).result hr, ?_⟩
  obtain ⟨acts', hacts', r, hr⟩ := (going_dialog x serdeError socket out w₀ hacts).finishes
  have hall : ∀ a ∈ acts ++ acts', a.Smooth := List.forall_mem_append.2 ⟨hacts, hacts'⟩
  have hr' : (dialog x serdeError socket out w₀ (acts ++ acts')).client = .ret r := by
    rw [dialog, List.foldl_append]
    exact hr
  exact ⟨acts', hacts', r, hr', (going_dialog x serdeError socket out w₀ hall).result hr'⟩

end Dialogs

/-- A node with one mount, whose upper holds one file. -/
def noteNode : World :=
  { World.blank with
    mounts := [⟨0, ⟨"v".toList, ⟨"/t".toList⟩, ⟨"/u".toList⟩, ⟨"/s".toList⟩, .rwo, .persistent, none,
      []⟩, []⟩]
    uppers := fun _ => Sample.note }

/-- The daemon of a mount is idle at first, and the client still gets its report. -/
theorem capture_live_note : ∃ acts r,
    (dialog Sample.ext id ⟨"/s".toList⟩ ⟨"/o".toList⟩ noteNode
      ([.daemon .serve, .client none] ++ acts)).client = .ret (.ok r) ∧
    r.data = ⟨Sample.noteDigest, 19⟩ := by
  have hgo : (noteNode.capture Sample.ext ⟨"/s".toList⟩ ⟨"/o".toList⟩ .go).1
      = .ok ⟨Sample.noteDigest, 19⟩ := by decide +kernel
  have hsmooth : ∀ a ∈ [Act.daemon .serve, .client none], a.Smooth := by simp [Act.Smooth]
  obtain ⟨acts, -, r, hr, hcap⟩ := (capture_live Sample.ext id ⟨"/s".toList⟩ ⟨"/o".toList⟩ noteNode
    hsmooth).2
  rw [hcap] at hgo
  cases r with
  | error e => exact absurd hgo (by rintro ⟨⟩)
  | ok r => exact ⟨acts, r, hr, Except.ok.inj hgo⟩

end RspacefsCsi
