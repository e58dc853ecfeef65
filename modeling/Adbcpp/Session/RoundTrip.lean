import Adbcpp.Session.Inbound
import Adbcpp.Session.Outbound

/-! Two sessions, one at each end of a byte stream. What one sends is what the other
receives, in whatever pieces the stream hands the bytes out. -/

namespace Adbcpp

open Protocol ScriptedTransport

namespace Session

section Calls
variable {τ : Type} [Transport τ]

/-- Sends the frames one after the other. -/
def sendAll : List Frame → Action (Session τ) Unit
  | [] => pure ()
  | f :: frames => do
    send f.header f.payload
    sendAll frames

/-- Receives `n` frames one after the other. -/
def receiveAll : ℕ → Action (Session τ) (List Frame)
  | 0 => pure []
  | n + 1 => do
    let f ← receive
    let frames ← receiveAll n
    pure (f :: frames)

end Calls

/-- A send that succeeds has delivered its whole message. -/
theorem send_ok {s s' : Session ScriptedTransport} {f : Frame}
    (h : (send f.header f.payload).run s = (.ok (), s')) :
    s'.transport.delivered = s.transport.delivered ++ f.bytes := by
  have hwrite : ∀ {data : List Byte} {r r' : Session ScriptedTransport},
      (onTransport (Transport.write data)).run r = (.ok (), r') →
        r'.transport.delivered = r.transport.delivered ++ data := by
    intro data r r' hr
    obtain ⟨t, ht, rfl⟩ := Prog.zoom_eq_ok hr
    rcases run_write_cases data r.transport with ⟨t', hrun, hdel, -⟩ | ⟨t', n, e, rest, hrun, -⟩
    · rw [hrun] at ht
      cases ht
      exact hdel
    · rw [hrun] at ht
      cases ht
  rw [send, Prog.run_bind_get] at h
  split at h
  · cases h
  split at h
  · cases h
  obtain ⟨⟨⟩, r, hheader, hpayload⟩ := Prog.bind_eq_ok h
  have hdel := hwrite hheader
  split at hpayload
  next hp => rw [hwrite hpayload, hdel, List.append_assoc, Frame.bytes, Message.frameBytes]
  next hp =>
    cases hpayload
    rw [hdel, Frame.bytes, Message.frameBytes, not_not.mp hp, List.append_nil]

theorem sendAll_ok {frames : List Frame} {s s' : Session ScriptedTransport}
    (h : (sendAll frames).run s = (.ok (), s')) :
    s'.transport.delivered = s.transport.delivered ++ frames.flatMap Frame.bytes := by
  induction frames generalizing s with
  | nil =>
    cases h
    rw [List.flatMap_nil, List.append_nil]
  | cons f frames ih =>
    obtain ⟨⟨⟩, r, hf, hrest⟩ := Prog.bind_eq_ok h
    rw [ih hrest, send_ok hf, List.flatMap_cons, List.append_assoc]

/-- Valid frames that arrive smoothly are received as they are. -/
theorem receiveAll_smooth {frames : List Frame} (hsized : ∀ f ∈ frames, f.Sized)
    (hvalid : ∀ f ∈ frames, f.Valid) {s : Session ScriptedTransport} (hopen : s.closed = false)
    {rest : List Byte} {m : ℕ}
    (hs : Smooth ((frames.flatMap Frame.bytes).length + m) s.transport.arrivals)
    (hc : content s.transport.arrivals = frames.flatMap Frame.bytes ++ rest) :
    ∃ t, (receiveAll frames.length).run s = (.ok frames, { s with transport := t }) ∧
      content t.arrivals = rest ∧ Smooth m t.arrivals := by
  induction frames generalizing s with
  | nil => exact ⟨s.transport, rfl, by simpa using hc, by simpa using hs⟩
  | cons f frames ih =>
    rw [List.flatMap_cons, List.length_append, Nat.add_assoc] at hs
    rw [List.flatMap_cons, List.append_assoc] at hc
    rcases receive_smooth (hsized f List.mem_cons_self) hopen hs hc with
      ⟨-, t, hrun, hcon, hsm, -⟩ | ⟨hbad, -⟩
    · obtain ⟨u, hrun', hcon', hsm'⟩ := ih (fun g hg => hsized g (List.mem_cons_of_mem _ hg))
        (fun g hg => hvalid g (List.mem_cons_of_mem _ hg)) (s := { s with transport := t }) hopen hsm hcon
      refine ⟨u, ?_, hcon', hsm'⟩
      rw [List.length_cons, receiveAll, Prog.run_bind_ok hrun, Prog.run_bind_ok hrun']
      rfl
    · exact absurd (hvalid f List.mem_cons_self) hbad

/-- The pieces in which a stream hands out its bytes, one for each read. -/
def inPieces (pieces : List (List Byte)) : Session ScriptedTransport where
  transport := { arrivals := pieces.map .ok }

theorem content_map_ok (pieces : List (List Byte)) : content (pieces.map .ok) = pieces.flatten := by
  rw [content, List.flatMap_map, List.flatten_eq_flatMap]
  rfl

/-- What one session has sent, another one receives unchanged and to the last byte, in
whatever non-empty pieces the bytes arrive. -/
theorem receiveAll_sendAll {frames : List Frame} (hsized : ∀ f ∈ frames, f.Sized)
    (hvalid : ∀ f ∈ frames, f.Valid) {s s' : Session ScriptedTransport}
    (hfresh : s.transport.delivered = []) (hsent : (sendAll frames).run s = (.ok (), s'))
    (pieces : List (List Byte)) (hne : ∀ p ∈ pieces, p ≠ [])
    (hpieces : pieces.flatten = s'.transport.delivered) :
    ∃ t, (receiveAll frames.length).run (inPieces pieces) = (.ok frames, { transport := t }) ∧
      content t.arrivals = [] := by
  have hall : content (inPieces pieces).transport.arrivals = frames.flatMap Frame.bytes ++ [] := by
    rw [inPieces, content_map_ok, hpieces, sendAll_ok hsent, hfresh, List.nil_append,
      List.append_nil]
  have hsmooth : Smooth ((frames.flatMap Frame.bytes).length + 0)
      (inPieces pieces).transport.arrivals := by
    rw [List.append_nil] at hall
    rw [Nat.add_zero, ← hall]
    apply smooth_of_pieces
    simp only [inPieces, List.mem_map]
    rintro _ ⟨p, hp, rfl⟩
    exact hne p hp
  obtain ⟨t, hrun, hcon, -⟩ := receiveAll_smooth hsized hvalid rfl hsmooth hall
  exact ⟨t, hrun, hcon⟩

def twoMessages : List Frame := [oneByteWrite, ⟨closeMessage, []⟩]

/-- The bytes of `twoMessages`, split inside both headers. -/
def twoMessagesSplit : List (List Byte) :=
  [oneByteWrite.header.encode.take 10,
    oneByteWrite.header.encode.drop 10 ++ oneByteWrite.payload ++ closeMessage.encode.take 1,
    closeMessage.encode.drop 1]

theorem receiveAll_sendAll_two :
    ∃ t, (receiveAll twoMessages.length).run (inPieces twoMessagesSplit) =
      (.ok twoMessages, { transport := t }) ∧ content t.arrivals = [] := by
  have hsent : (sendAll twoMessages).run (inPieces []) =
      (.ok (), ((sendAll twoMessages).run (inPieces [])).2) := rfl
  exact receiveAll_sendAll (by decide) (by decide) rfl hsent twoMessagesSplit (by decide) (by decide)

end Session

end Adbcpp
